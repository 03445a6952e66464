/- source: piltover/db/models/message_ref.py, piltover/db/models/message_reaction.py
   digest: The reactions to a message as a user is shown them, alone and in a list. -/

import Mathlib.Data.List.Dedup
import Piltover.Foundation.Paging
import Piltover.Foundation.SharedCache
import Piltover.Foundation.Table

set_option autoImplicit false

namespace Piltover.Reactions

open Piltover.Foundation

/-- What somebody reacted with, one of the reactions there are or a custom emoji: the columns are
not both empty, and identifiers start at one. -/
structure Choice where
  reactionId : Option Nat
  customEmojiId : Option Nat
  named : reactionId ≠ none ∨ customEmojiId ≠ none
  positive : reactionId ≠ some 0 ∧ customEmojiId ≠ some 0
  deriving DecidableEq, Repr

structure MessageReaction where
  userId : Nat
  messageId : Nat
  choice : Choice
  date : Int
  deriving DecidableEq, Repr

/-- The columns that are unique together. -/
def MessageReaction.key (r : MessageReaction) : Nat × Nat := (r.userId, r.messageId)

/-- A row of `MessageContent`; `regular` is whether its type is `REGULAR`. -/
structure MessageContent where
  regular : Bool
  authorId : Option Nat
  reactionsVersion : Nat
  canSeeReactionsList : Bool
  authorReactionsUnread : Bool
  deriving DecidableEq, Repr

/-- The tables; `emoticon` is the column `reaction` of the reactions there are. -/
structure Db where
  contents : Nat → MessageContent
  emoticon : Nat → String
  reactions : Table MessageReaction.key

inductive Reaction
  | emoji (emoticon : String)
  | customEmoji (documentId : Nat)
  deriving DecidableEq, Repr

structure ReactionCount where
  chosenOrder : Option Nat
  reaction : Reaction
  count : Nat
  deriving DecidableEq, Repr

structure MessagePeerReaction where
  big : Bool
  unread : Bool
  my : Bool
  peerId : Nat
  date : Int
  reaction : Reaction
  deriving DecidableEq, Repr

structure MessageReactions where
  min : Bool
  canSeeList : Bool
  results : List ReactionCount
  recentReactions : Option (List MessagePeerReaction)
  deriving DecidableEq, Repr

def Choice.toTl (self : Choice) (db : Db) : Reaction :=
  match self.reactionId with
  | some reactionId => .emoji (db.emoticon reactionId)
  | none => .customEmoji (self.customEmojiId.getD 0)

def MessageReaction.toTlPeerReaction (self : MessageReaction) (db : Db) (userId : Nat)
    (isUnread : Bool) : MessagePeerReaction where
  big := false
  unread := isUnread
  my := self.userId == userId
  peerId := self.userId
  date := self.date
  reaction := self.choice.toTl db

/-- The latest ones come first. -/
def newest (rows : List MessageReaction) : List MessageReaction :=
  rows.insertionSort fun r s => s.date ≤ r.date

namespace Db

variable (db : Db)

def reactionsTo (messageId : Nat) : List MessageReaction :=
  db.reactions.rows.filter fun r => r.messageId == messageId

/-- `_get_user_reaction`. -/
def userReaction (userId messageId : Nat) : Option Choice :=
  (db.reactions.get (userId, messageId)).map (·.choice)

/-- How often each choice was made. -/
def groups (messageId : Nat) : List (Choice × Nat) :=
  let choices := (db.reactionsTo messageId).map (·.choice)
  choices.dedup.map fun choice => (choice, choices.count choice)

/-- Whether the author has not seen the reactions; for others there is nothing to see. -/
def isUnread (userId messageId : Nat) : Bool :=
  if (db.contents messageId).authorId = some userId then
    (db.contents messageId).authorReactionsUnread
  else false

end Db

/-! ### The cache -/

/-- The keys `message-reactions:{content_id}:a{user_id}:{version}` and
`message-reactions:{content_id}:r{reaction}-{custom_emoji}:{version}`. -/
inductive CacheKey
  | author (messageId userId version : Nat)
  | reaction (messageId reaction customEmoji version : Nat)
  deriving DecidableEq, Repr

def cacheKeyReactionsAuthor (db : Db) (messageId userId : Nat) : CacheKey :=
  .author messageId userId (db.contents messageId).reactionsVersion

def cacheKeyReactions (db : Db) (messageId : Nat) (reaction customEmoji : Option Nat) : CacheKey :=
  .reaction messageId (reaction.getD 0) (customEmoji.getD 0)
    (db.contents messageId).reactionsVersion

abbrev ReactionsCache := Cache CacheKey MessageReactions

def keyFor (db : Db) (userId messageId : Nat) (userReaction : Option Choice) : CacheKey :=
  if (db.contents messageId).authorId = some userId then
    cacheKeyReactionsAuthor db messageId userId
  else
    cacheKeyReactions db messageId (userReaction.bind (·.reactionId))
      (userReaction.bind (·.customEmojiId))

/-! ### One message -/

/-- What `to_tl_reactions` computes where nothing is cached. -/
def computed (db : Db) (userId messageId : Nat) : MessageReactions :=
  let userReaction := db.userReaction userId messageId
  let userReactionId := userReaction.bind (·.reactionId)
  let userCustomEmojiId := userReaction.bind (·.customEmojiId)
  let results := (db.groups messageId).map fun (choice, msgCount) =>
    { chosenOrder :=
        if choice.reactionId = userReactionId ∧ choice.customEmojiId = userCustomEmojiId then some 1
        else none
      reaction := choice.toTl db
      count := msgCount }
  let canSeeList := (db.contents messageId).canSeeReactionsList
  let recentReactions :=
    if canSeeList then
      some (((newest (db.reactionsTo messageId)).take 5).map
        (·.toTlPeerReaction db userId (db.isUnread userId messageId)))
    else none
  ⟨userReaction.isNone, canSeeList, results, recentReactions⟩

def toTlReactions (db : Db) (cache : ReactionsCache) (userId messageId : Nat) :
    Option MessageReactions × ReactionsCache :=
  if (db.contents messageId).regular then
    let cacheKey := keyFor db userId messageId (db.userReaction userId messageId)
    match cache cacheKey with
    | some cached => (some cached, cache)
    | none =>
      let result := computed db userId messageId
      (some result, cache.set cacheKey result)
  else (none, cache)

/-! ### A list of messages -/

/-- A result of the loop over the messages: one that is there already, or one that is computed, to
be stored under its key. -/
inductive Entry
  | done (value : Option MessageReactions)
  | computed (messageId : Nat) (cacheKey : CacheKey) (value : MessageReactions)
  deriving DecidableEq, Repr

namespace Entry

def value : Entry → Option MessageReactions
  | done value => value
  | computed _ _ value => some value

/-- The pair that is stored. -/
def toCache : Entry → Option (CacheKey × MessageReactions)
  | done _ => none
  | computed _ cacheKey value => some (cacheKey, value)

def recentToFetch : Entry → Option Nat
  | done _ => none
  | computed messageId _ value => if value.recentReactions.isSome then some messageId else none

end Entry

/-- One turn of the loop. -/
def entry (db : Db) (userId : Nat) (userReactions : Nat → Option Choice) (notCachedIds : List Nat)
    (messageId : Nat) (cacheKey : CacheKey) (cached : Option MessageReactions) : Entry :=
  if (db.contents messageId).regular then
    match cached with
    | some cached => .done (some cached)
    | none =>
      let reactions := if notCachedIds.contains messageId then db.groups messageId else []
      let totalReactions := (reactions.map (·.2)).sum
      let results := reactions.map fun (choice, msgCount) =>
        { chosenOrder := if some choice = userReactions messageId then some 1 else none
          reaction := choice.toTl db
          count := msgCount }
      let canSeeList := (db.contents messageId).canSeeReactionsList
      .computed messageId cacheKey
        { min := (userReactions messageId).isNone &&
            (db.contents messageId).authorId != some userId
          canSeeList := canSeeList
          results := results
          recentReactions := if canSeeList && totalReactions ≤ 5 then some [] else none }
  else .done none

/-- The latest reactions are put where they are asked for; of several results for one message the
last one gets them. -/
def fill (recents : Nat → List MessagePeerReaction) : List Entry → List Entry
  | [] => []
  | .done value :: rest => .done value :: fill recents rest
  | .computed messageId cacheKey value :: rest =>
    let last := !rest.any fun e => e.recentToFetch == some messageId
    let value :=
      if value.recentReactions.isSome && last then
        { value with recentReactions := some (recents messageId) }
      else value
    .computed messageId cacheKey value :: fill recents rest

def toTlReactionsBulk (db : Db) (cache : ReactionsCache) (userId : Nat) (messages : List Nat) :
    List (Option MessageReactions) × ReactionsCache :=
  let contentIds := messages.filter fun m => (db.contents m).regular
  let userReactions := fun m => if contentIds.contains m then db.userReaction userId m else none
  let cacheKeys := messages.map fun m => keyFor db userId m (userReactions m)
  let notCachedIds := (messages.zip cacheKeys).filterMap fun (m, cacheKey) =>
    if (cache cacheKey).isNone && (db.contents m).regular then some m else none
  let entries := (messages.zip cacheKeys).map fun (m, cacheKey) =>
    entry db userId userReactions notCachedIds m cacheKey (cache cacheKey)
  let recentToFetch := entries.filterMap Entry.recentToFetch
  let fetched :=
    (newest (db.reactions.rows.filter fun r => recentToFetch.contains r.messageId)).take 5
  let recents := fun m => (fetched.filter fun r => r.messageId == m).map
    (·.toTlPeerReaction db userId (db.isUnread userId m))
  let filled := fill recents entries
  (filled.map Entry.value, cache.multiSet (filled.filterMap Entry.toCache))

end Piltover.Reactions
