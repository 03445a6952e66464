/- source: piltover/app/handlers/messages/polls.py, piltover/db/models/poll.py,
     piltover/db/models/poll_answer.py, piltover/db/models/poll_vote.py
   digest: Votes in polls, and the turns in which requests to vote work on them. -/

import Piltover.Failure
import Piltover.Foundation.Interleaved
import Piltover.Foundation.Table

set_option autoImplicit false

namespace Piltover.Polls

open Piltover.Foundation
open Piltover.Foundation.Interleaved

abbrev Bytes := List UInt8

structure Poll where
  id : Nat
  closed : Bool
  multipleChoices : Bool
  endsAt : Option Int
  version : Nat
  deriving DecidableEq, Repr

def Poll.isClosedFr (self : Poll) (now : Int) : Bool := self.closed || self.endsAt.any (· < now)

def Poll.close (self : Poll) : Poll := { self with closed := true }

def Poll.bump (self : Poll) : Poll := { self with version := self.version + 1 }

structure PollAnswer where
  id : Nat
  pollId : Nat
  option : Bytes
  deriving DecidableEq, Repr

structure PollVote where
  id : Nat
  userId : Nat
  answerId : Nat
  hidden : Bool
  deriving DecidableEq, Repr

/-- The columns that are unique together. -/
def PollVote.pair (v : PollVote) : Nat × Nat := (v.userId, v.answerId)

/-- The rows of `PollVote`; an identifier is given out once. -/
structure Votes where
  table : Table PollVote.id
  next : Nat
  fresh : ∀ v ∈ table, v.id < next
  unique : (table.rows.map PollVote.pair).Nodup

namespace Votes

def empty : Votes where
  table := Table.empty
  next := 1
  fresh := fun _ here => absurd here (Table.notMem_empty _)
  unique := by simp [Table.empty]

variable (votes : Votes)

theorem get_next : votes.table.get votes.next = none :=
  Table.get_eq_none_iff.mpr fun v here => Nat.ne_of_lt (votes.fresh v here)

/-- `PollVote.create`, unless the user has voted for the answer. -/
def create (userId answerId : Nat) (hidden : Bool) : Option Votes :=
  if taken : (votes.table.rows.any fun v => v.pair == (userId, answerId)) then none
  else some {
    table := votes.table.insert ⟨votes.next, userId, answerId, hidden⟩
    next := votes.next + 1
    fresh := by
      intro v here
      rcases (Table.mem_insert votes.get_next).mp here with old | rfl
      · exact Nat.lt_succ_of_lt (votes.fresh v old)
      · exact Nat.lt_succ_self _
    unique := by
      rw [Table.rows_insert votes.get_next, List.map_append, List.map_singleton, List.nodup_append]
      refine ⟨votes.unique, List.nodup_singleton _, ?_⟩
      intro old listed new here
      obtain rfl := List.mem_singleton.mp here
      rintro rfl
      exact taken (Table.any_beq_iff.mpr listed) }

/-- `PollVote.bulk_create`: all of them or none. -/
def bulkCreate (userId : Nat) (hidden : Bool) : List Nat → Votes → Option Votes
  | [], votes => some votes
  | answerId :: rest, votes => (votes.create userId answerId hidden).bind (bulkCreate userId hidden rest)

/-- The rows with these identifiers are deleted. -/
def delete (ids : List Nat) : Votes where
  table := votes.table.remove fun v => ids.contains v.id
  next := votes.next
  fresh := fun v here => votes.fresh v (Table.mem_remove.mp here).1
  unique := votes.unique.sublist (List.filter_sublist.map _)

end Votes

/-- A reference to a message, with the type of its peer. -/
structure MessageRef where
  id : Nat
  peerId : Nat
  channel : Bool
  contentId : Nat
  version : Nat
  deriving DecidableEq, Repr

def MessageRef.bump (self : MessageRef) : MessageRef := { self with version := self.version + 1 }

structure MessageContent where
  id : Nat
  pollId : Option Nat
  version : Nat
  deriving DecidableEq, Repr

def MessageContent.bump (self : MessageContent) : MessageContent :=
  { self with version := self.version + 1 }

/-- A request that has voted: the user, the poll, and the answers of its options. -/
structure Accepted where
  userId : Nat
  pollId : Nat
  chosen : List Nat
  deriving DecidableEq, Repr

structure Db where
  polls : Table Poll.id
  answers : Table PollAnswer.id
  messages : Table MessageRef.id
  contents : Table MessageContent.id
  votes : Votes
  now : Int
  accepted : List Accepted

structure SendVote where
  userId : Nat
  peerId : Nat
  msgId : Nat
  options : List Bytes
  deriving DecidableEq, Repr

/-- What a request has to do next. -/
inductive Stage
  | answers (options : List Bytes)
  | listing (chosen : List Nat)
  | deleting (chosen ids : List Nat)
  | creating (chosen : List Nat)
  | bumpingPoll (chosen : List Nat)
  | bumpingContent
  | bumpingRefs
  deriving DecidableEq, Repr

/-- A request under way, with what it has read of the message. -/
structure Call where
  userId : Nat
  contentId : Nat
  channel : Bool
  pollId : Nat
  stage : Stage
  deriving DecidableEq, Repr

namespace Db

variable (db : Db)

/-- `answer__poll`. -/
def onPoll (pollId : Nat) (v : PollVote) : Bool :=
  (db.answers.get v.answerId).any fun a => a.pollId == pollId

def votesOf (userId pollId : Nat) : List PollVote :=
  db.votes.table.rows.filter fun v => v.userId == userId && db.onPoll pollId v

def pollMessage (r : SendVote) : Option (MessageRef × Poll) := do
  let message ← (db.messages.get r.msgId).filter fun m => m.peerId == r.peerId
  let content ← db.contents.get message.contentId
  let poll ← content.pollId.bind db.polls.get
  some (message, poll)

/-- `options`: of two answers with the same bytes the later one. -/
def findAnswer (pollId : Nat) (option : Bytes) : Option PollAnswer :=
  (db.answers.rows.reverse.filter fun a => a.pollId == pollId).find? fun a => a.option == option

def chooseOption (pollId : Nat) (option : Bytes) : Except Failure Nat := do
  require (!option.isEmpty && decide (option.length ≤ 100)) (.rpc 400 "OPTION_INVALID")
  let answer ← orRaise (db.findAnswer pollId option) (.rpc 400 "OPTION_INVALID")
  .ok answer.id

/-- `votes_to_create`: the answers of the options of a request. -/
def choose (pollId : Nat) (options : List Bytes) : Except Failure (List Nat) :=
  options.mapM (db.chooseOption pollId)

end Db

namespace SendVote

variable (r : SendVote) (db : Db)

/-- The first part of `send_vote`, up to the first read after that of the message. -/
def check : Except Failure Call := do
  let (message, poll) ← orRaise (db.pollMessage r) (.rpc 400 "MSG_ID_INVALID")
  require (!poll.isClosedFr db.now) (.rpc 400 "MESSAGE_POLL_CLOSED")
  let call := Call.mk r.userId message.contentId message.channel poll.id
  if r.options.isEmpty then .ok (call (.listing []))
  else do
    require (decide (r.options.length ≤ 10)) (.rpc 400 "OPTIONS_TOO_MUCH")
    require (decide (r.options.length ≤ 1) || poll.multipleChoices) (.rpc 400 "OPTIONS_TOO_MUCH")
    require (decide r.options.Nodup) (.rpc 400 "POLL_OPTION_DUPLICATE")
    .ok (call (.answers r.options))

/-- A request that is refused ends at once. -/
def begin : Db × Option Call := (db, (r.check db).toOption)

end SendVote

namespace Call

variable (c : Call) (db : Db)

def goesOn (stage : Stage) : Option Call := some { c with stage }

/-- One turn of `send_vote`; a request that raises ends. -/
def advance : Db × Option Call :=
  match c.stage with
  | .answers options =>
    (db, (db.choose c.pollId options).toOption.bind fun chosen => c.goesOn (.listing chosen))
  | .listing chosen =>
    let ids := (db.votesOf c.userId c.pollId).map PollVote.id
    if ids.isEmpty then (db, if chosen.isEmpty then none else c.goesOn (.creating chosen))
    else (db, c.goesOn (.deleting chosen ids))
  | .deleting chosen ids =>
    ({ db with votes := db.votes.delete ids },
      c.goesOn (if chosen.isEmpty then .bumpingPoll chosen else .creating chosen))
  | .creating chosen =>
    match Votes.bulkCreate c.userId c.channel chosen db.votes with
    | none => (db, none)
    | some votes => ({ db with votes }, c.goesOn (.bumpingPoll chosen))
  | .bumpingPoll chosen =>
    ({ db with
        polls := db.polls.modify (fun p => p.id == c.pollId) Poll.bump fun _ => rfl
        accepted := db.accepted ++ [⟨c.userId, c.pollId, chosen⟩] },
      c.goesOn .bumpingContent)
  | .bumpingContent =>
    ({ db with
        contents := db.contents.modify (fun m => m.id == c.contentId) MessageContent.bump
          fun _ => rfl },
      c.goesOn .bumpingRefs)
  | .bumpingRefs =>
    ({ db with
        messages := db.messages.modify (fun m => m.contentId == c.contentId) MessageRef.bump
          fun _ => rfl },
      none)

end Call

/-- A poll is closed, or time passes. -/
inductive Disturbance
  | close (pollId : Nat)
  | tick (now : Int)
  deriving DecidableEq, Repr

def Db.disturb (db : Db) : Disturbance → Db
  | .close pollId =>
    { db with polls := db.polls.modify (fun p => p.id == pollId) Poll.close fun _ => rfl }
  | .tick now => { db with now := max db.now now }

/-- Requests to vote, in any order of their turns. -/
def voting : Machine Db SendVote Call Unit Disturbance where
  begin := fun db r _ => r.begin db
  advance := fun db c _ => c.advance db
  disturb := Db.disturb

end Piltover.Polls
