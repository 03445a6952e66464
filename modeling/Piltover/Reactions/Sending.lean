/- source: piltover/app/handlers/messages/reactions.py, piltover/db/models/message_reaction.py,
     piltover/db/models/reaction.py, piltover/db/models/available_channel_reaction.py
   digest: Requests to react to messages, and the turns in which they do. -/

import Mathlib.Data.List.Dedup
import Piltover.Failure
import Piltover.Foundation.Interleaved
import Piltover.Foundation.Table

set_option autoImplicit false

namespace Piltover.Reactions.Sending

open Piltover.Foundation
open Piltover.Foundation.Interleaved

/-- The columns `reaction` and `custom_emoji`, of which a request sets one. -/
inductive Kind
  | standard (reactionId : Nat)
  | custom (fileId : Nat)
  deriving DecidableEq, Repr

structure MessageReaction where
  id : Nat
  userId : Nat
  messageId : Nat
  kind : Kind
  deriving DecidableEq, Repr

/-- The columns that are unique together. -/
def MessageReaction.pair (r : MessageReaction) : Nat × Nat := (r.userId, r.messageId)

/-- The rows of `MessageReaction`; an identifier is given out once. -/
structure MessageReactions where
  table : Table MessageReaction.id
  next : Nat
  fresh : ∀ r ∈ table, r.id < next
  unique : (table.rows.map MessageReaction.pair).Nodup

namespace MessageReactions

def empty : MessageReactions where
  table := Table.empty
  next := 1
  fresh := fun _ here => absurd here (Table.notMem_empty _)
  unique := by simp [Table.empty]

variable (reactions : MessageReactions)

theorem get_next : reactions.table.get reactions.next = none :=
  Table.get_eq_none_iff.mpr fun r here => Nat.ne_of_lt (reactions.fresh r here)

/-- `MessageReaction.get_or_none`. -/
def of (userId messageId : Nat) : Option MessageReaction :=
  reactions.table.rows.find? fun r => r.pair == (userId, messageId)

def create (userId messageId : Nat) (kind : Kind) : Option MessageReactions :=
  if taken : (reactions.table.rows.any fun r => r.pair == (userId, messageId)) then none
  else some {
    table := reactions.table.insert ⟨reactions.next, userId, messageId, kind⟩
    next := reactions.next + 1
    fresh := by
      intro r here
      rcases (Table.mem_insert reactions.get_next).mp here with old | rfl
      · exact Nat.lt_succ_of_lt (reactions.fresh r old)
      · exact Nat.lt_succ_self _
    unique := by
      rw [Table.rows_insert reactions.get_next, List.map_append, List.map_singleton,
        List.nodup_append]
      refine ⟨reactions.unique, List.nodup_singleton _, ?_⟩
      intro old listed new here
      obtain rfl := List.mem_singleton.mp here
      rintro rfl
      exact taken (Table.any_beq_iff.mpr listed) }

def delete (condition : MessageReaction → Bool) : MessageReactions where
  table := reactions.table.remove condition
  next := reactions.next
  fresh := fun r here => reactions.fresh r (Table.mem_remove.mp here).1
  unique := reactions.unique.sublist (List.filter_sublist.map _)

def kinds (messageId : Nat) : List Kind :=
  ((reactions.table.rows.filter fun r => r.messageId == messageId).map MessageReaction.kind).dedup

end MessageReactions

structure MessageContent where
  authorId : Option Nat
  reactionsVersion : Nat
  authorReactionsUnread : Bool
  deriving DecidableEq, Repr

/-- The tables. `reaction` is the one that an emoticon names, `documentEmoji` whether a file is a
custom emoji, and `available` are the rows of `AvailableChannelReaction`. -/
structure Db where
  reactionsUniqueMax : Nat
  reaction : String → Option Nat
  documentEmoji : Nat → Bool
  available : Nat → Nat → Bool
  contents : Nat → MessageContent
  reactions : MessageReactions

/-- The types of what a request can name; the last one is any other. -/
inductive InputReaction
  | emoji (emoticon : String)
  | customEmoji (documentId : Nat)
  | empty
  | other
  deriving DecidableEq, Repr

structure SendReaction where
  userId : Nat
  reaction : List InputReaction
  deriving DecidableEq, Repr

/-- What is read of a channel along with the peer. -/
structure Channel where
  id : Nat
  allReactions : Bool
  allReactionsCustom : Bool
  deriving DecidableEq, Repr

/-- The message that the peer and the number of a request lead to. -/
structure Located where
  messageId : Nat
  channel : Option Channel
  deriving DecidableEq, Repr

inductive Stage
  | allowing
  | counting
  | finding
  | deleting (id : Nat)
  | creating
  | updating
  deriving DecidableEq, Repr

/-- A request whose message is found. `offered` is whether the channel had the reaction when it was
asked for. -/
structure Call where
  request : SendReaction
  wanted : Option Kind
  messageId : Nat
  channel : Option Channel
  offered : Bool
  stage : Stage
  deriving DecidableEq, Repr

/-- A request whose message is looked for, or which has found it. -/
inductive Task
  | locating (request : SendReaction) (wanted : Option Kind)
  | call (c : Call)
  deriving DecidableEq, Repr

def reactionInvalid : Failure := .rpc 400 "REACTION_INVALID"

def chatWriteForbidden : Failure := .rpc 403 "CHAT_WRITE_FORBIDDEN"

def reactionsTooMany : Failure := .rpc 400 "REACTIONS_TOO_MANY"

def reactionNotModified : Failure := .rpc 400 "MESSAGE_NOT_MODIFIED"

def integrityError : Failure := .other

/-- The first part of `send_reaction`: the reaction of a request, and none where it names an emoji
that is not known. -/
def SendReaction.resolve (r : SendReaction) (db : Db) : Except Failure (Option Kind) :=
  match r.reaction with
  | [] => .ok none
  | .emoji emoticon :: _ => .ok ((db.reaction emoticon).map .standard)
  | .customEmoji documentId :: _ =>
    if db.documentEmoji documentId then .ok (some (.custom documentId)) else .error reactionInvalid
  | .empty :: _ => .ok none
  | .other :: _ => .error reactionInvalid

/-- The request takes a reaction away. -/
def SendReaction.removes (r : SendReaction) : Bool :=
  match r.reaction with
  | [] => true
  | .empty :: _ => true
  | _ => false

/-- The request names an emoji that is not known. -/
def SendReaction.unknown (r : SendReaction) (db : Db) : Bool :=
  match r.reaction with
  | .emoji emoticon :: _ => (db.reaction emoticon).isNone
  | _ => false

namespace Call

variable (c : Call) (db : Db)

def goesOn (stage : Stage) : Except Failure (Option Task) := .ok (some (.call { c with stage }))

/-- The row is the one to delete: in a channel the one that was found, elsewhere the one that the
user has then. -/
def deletes (id : Nat) (r : MessageReaction) : Bool :=
  if c.channel.isSome then r.id == id else r.pair == (c.request.userId, c.messageId)

/-- One turn of `send_reaction` from the message on. -/
def advance : Db × Except Failure (Option Task) :=
  match c.stage with
  | .allowing =>
    match c.channel, c.wanted with
    | some channel, some (.standard reactionId) =>
      if db.available channel.id reactionId then
        (db, .ok (some (.call { c with offered := true, stage := .counting })))
      else (db, .error chatWriteForbidden)
    | _, _ => (db, .error chatWriteForbidden)
  | .counting =>
    if db.reactionsUniqueMax < (db.reactions.kinds c.messageId).length then
      (db, .error reactionsTooMany)
    else (db, c.goesOn .finding)
  | .finding =>
    match db.reactions.of c.request.userId c.messageId with
    | none =>
      (db, if c.wanted.isNone then .error reactionNotModified else c.goesOn .creating)
    | some existing =>
      (db, if c.wanted = some existing.kind then .error reactionNotModified
        else c.goesOn (.deleting existing.id))
  | .deleting id =>
    ({ db with reactions := db.reactions.delete (c.deletes id) },
      c.goesOn (if c.wanted.isNone then .updating else .creating))
  | .creating =>
    match c.wanted with
    | none => (db, c.goesOn .updating)
    | some kind =>
      match db.reactions.create c.request.userId c.messageId kind with
      | none => (db, .error integrityError)
      | some reactions => ({ db with reactions }, c.goesOn .updating)
  | .updating =>
    let content := db.contents c.messageId
    let unread :=
      if c.wanted.isSome ∧ content.authorId ≠ some c.request.userId then true
      else content.authorReactionsUnread
    ({ db with
        contents := Function.update db.contents c.messageId
          { content with
            reactionsVersion := content.reactionsVersion + 1
            authorReactionsUnread := unread } },
      .ok none)

end Call

/-- What comes between the message and the next read; a channel that does not allow all reactions
offers some of the standard ones. -/
def checkChannel (r : SendReaction) (wanted : Option Kind) (found : Located) :
    Except Failure (Option Task) :=
  let goesOn (stage : Stage) : Except Failure (Option Task) :=
    .ok (some (.call ⟨r, wanted, found.messageId, found.channel, false, stage⟩))
  match found.channel with
  | none => goesOn .counting
  | some channel =>
    if channel.allReactions = false then
      match wanted with
      | some (.standard _) => goesOn .allowing
      | _ => .error chatWriteForbidden
    else
      match wanted with
      | some (.custom _) =>
        if channel.allReactionsCustom = false then .error chatWriteForbidden
        else goesOn .counting
      | _ => goesOn .counting

/-- One turn; the input is what the peer and the number of the message lead to. -/
def Task.advance (t : Task) (db : Db) (located : Except Failure Located) :
    Db × Except Failure (Option Task) :=
  match t with
  | .locating r wanted => (db, located.bind (checkChannel r wanted))
  | .call c => c.advance db

/-- A request that raises ends. -/
def ended : Except Failure (Option Task) → Option Task
  | .ok next => next
  | .error _ => none

def SendReaction.begin (r : SendReaction) (db : Db) : Db × Option Task :=
  (db, ((r.resolve db).map (Task.locating r)).toOption)

/-- Requests to react, in any order of their turns, while channels change what they offer. -/
def sending : Machine Db SendReaction Task (Except Failure Located) (Nat → Nat → Bool) where
  begin := fun db r _ => r.begin db
  advance := fun db t located => ((t.advance db located).1, ended (t.advance db located).2)
  disturb := fun db available => { db with available }

end Piltover.Reactions.Sending
