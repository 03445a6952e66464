/- source: piltover/app/handlers/messages/sending.py, piltover/db/models/peer.py
   digest: The request that forwards messages, from its random identifiers to the new references. -/

import Piltover.Forwarding.Structure
import Mathlib.Data.List.Sort

set_option autoImplicit false

namespace Piltover.Forwarding

open Piltover.Contents
open Piltover.Foundation

/-- The rows of the database, with the identifiers that the next content and the next post info
get. -/
structure Db where
  peers : Table Peer.id
  refs : Refs
  nextContentId : Nat
  nextPostInfoId : Nat

namespace Db

variable (db : Db)

def getOrCreateForUser (ownerId userId : Nat) (apart : ownerId ≠ userId) : Db × Peer :=
  match db.peers.rows.find? fun p => p.ownerId == some ownerId && p.target == .user userId with
  | some p => (db, p)
  | none =>
    let p : Peer :=
      { id := db.peers.nextKey
        ownerId := some ownerId
        target := .user userId
        blocked := false
        apart := by
          rintro u same owned
          cases same
          exact apart (Option.some.inj owned) }
    ({ db with peers := db.peers.insert p }, p)

/-- `Peer.get_opposite`; the service account 777000 has no conversations of its own. -/
def getOpposite (peer : Peer) : Db × List Peer :=
  match typed : peer.target, owned : peer.ownerId with
  | .user userId, some ownerId =>
    if userId == 777000 then (db, [])
    else
      let found := db.getOrCreateForUser userId ownerId
        fun same => peer.apart userId typed (by rw [owned, same])
      (found.1, if found.2.blocked then [] else [found.2])
  | .chat chat, ownerId =>
    (db, db.peers.rows.filter fun p => p.ownerId != ownerId && p.chatId == some chat.id)
  | _, _ => (db, [])

end Db

/-- What `ForwardMessages` asks for, with its peers resolved. -/
structure ForwardMessages where
  fromPeer : Peer
  toPeer : Peer
  id : List Nat
  randomId : List Int
  dropAuthor : Bool
  dropMediaCaptions : Bool
  noforwards : Bool
  deriving DecidableEq, Repr

structure ChatParticipant where
  adminRank : String
  /-- The right `ANONYMOUS`. -/
  anonymous : Bool
  deriving DecidableEq, Repr

/-- The error with which a check answers. -/
structure Refusal where
  code : Nat
  message : String
  deriving DecidableEq, Repr

/-- What the request finds besides the messages. -/
structure Context where
  user : User
  toParticipant : Option ChatParticipant
  /-- The checks of the peers, of the rights in them, of slow mode and of blocked users. -/
  refusal : Option Refusal
  /-- The part of the history that the user may see. -/
  visible : MessageRef → Bool
  /-- The rights to send plain messages and media. -/
  mediaRefusal : List MessageContent → Option Refusal
  /-- `process_send_as`. -/
  sendAs : Except Refusal (Option Nat)
  privacyRules : Nat → Bool
  /-- `Snowflake.make_id` for each group of media. -/
  mediaGroupIds : Nat → Nat
  now : Int

def Refusal.failure (refusal : Refusal) : Failure := .rpc refusal.code refusal.message

def refuse : Option Refusal → Except Failure Unit
  | none => .ok ()
  | some refusal => .error refusal.failure

namespace ForwardMessages

variable (r : ForwardMessages)

/-- The checks of the identifiers; only the first 100 of them count. -/
def checkIds : Except Failure Unit := do
  require (!r.id.isEmpty) (.rpc 400 "MESSAGE_IDS_EMPTY")
  require (r.id.length == r.randomId.length) (.rpc 400 "RANDOM_ID_INVALID")
  require (!(r.randomId.take 100).contains 0) (.rpc 400 "RANDOM_ID_EMPTY")
  require (decide (r.randomId.take 100).Nodup) (.rpc 500 "RANDOM_ID_DUPLICATE")

def randomIds : OrderedDict Nat Int :=
  OrderedDict.ofPairs ((r.id.take 100).zip (r.randomId.take 100))

def idByRandomId : OrderedDict Int Nat :=
  OrderedDict.ofPairs ((r.randomId.take 100).zip (r.id.take 100))

def sentAs (userId : Nat) (x : Int) (ref : MessageRef) : Bool :=
  ref.peer.id == r.toPeer.id && ref.randomUserId == some userId && ref.randomId == some x

def existingByRandomId (db : Db) (userId : Nat) : List MessageRef :=
  db.refs.table.rows.filter fun ref => (r.randomId.take 100).any fun x => r.sentAs userId x ref

def subtract : OrderedDict Nat Int → OrderedDict Int Nat → List MessageRef →
    Except Failure (OrderedDict Nat Int)
  | randomIds, _, [] => .ok randomIds
  | randomIds, idByRandomId, existing :: rest => do
      let x ← present existing.randomId
      let srcId ← present (idByRandomId.lookup x)
      let _ ← present (randomIds.lookup srcId)
      subtract (AList.erase srcId randomIds) (AList.erase x idByRandomId) rest

/-- A message that the request can forward. -/
def isSource (ctx : Context) (ref : MessageRef) : Bool :=
  ref.peer.id == r.fromPeer.id && ref.content.type == .regular && ctx.visible ref

/-- `messages`, in the order of their identifiers. -/
def sourceMessages (ctx : Context) (db : Db) (randomIds : OrderedDict Nat Int) : List MessageRef :=
  (db.refs.table.rows.filter fun ref =>
    r.isSource ctx ref && decide (ref.id ∈ randomIds.keys)).insertionSort fun m n => m.id ≤ n.id

end ForwardMessages

def broadcast (peer : Peer) : Option Channel := peer.channel.filter Channel.channel

/-- `_make_channel_post_info_many`: whether the messages are posts, their infos and the
signature. -/
def makeChannelPostInfoMany (first : Nat) (peer : Peer) (user : User)
    (participant : Option ChatParticipant) (count : Nat) :
    Bool × List (Option Nat) × Option String :=
  match broadcast peer with
  | none => (false, List.replicate count none, none)
  | some channel =>
    let rank := (participant.map ChatParticipant.adminRank).getD ""
    (true, (List.range' first count).map some,
      if rank != "" then some rank
      else if channel.signatures then some user.firstName
      else none)

def makeSupergroupAnonymousMaybe (peer : Peer) (participant : Option ChatParticipant) :
    Bool × Option String :=
  match peer.channel, participant with
  | some channel, some p =>
    if channel.supergroup && p.anonymous then
      (true, if p.adminRank != "" then some p.adminRank else none)
    else (false, none)
  | _, _ => (false, none)

def resolveNoforwards (peer : Peer) (user : User) (requestNoforwards : Bool) : Bool :=
  peer.noForwards || (user.bot && requestNoforwards)

namespace ForwardMessages

variable (r : ForwardMessages) (ctx : Context)

/-- What `forward_messages` tells `clone_forward_bulk`. -/
def cloneForward (sendAs : Option Nat) : CloneForward where
  newAuthor := some ctx.user
  dropCaptions := r.dropMediaCaptions
  dropAuthor := r.dropAuthor
  isForward := true
  noForwards := resolveNoforwards r.toPeer ctx.user r.noforwards
  newChannelAuthorId := sendAs
  channelPost := some (broadcast r.toPeer).isSome
  postAuthor :=
    if (broadcast r.toPeer).isSome then
      (makeChannelPostInfoMany 0 r.toPeer ctx.user ctx.toParticipant 0).2.2
    else (makeSupergroupAnonymousMaybe r.toPeer ctx.toParticipant).2
  anonymous := some (
    if (broadcast r.toPeer).isSome then false
    else (makeSupergroupAnonymousMaybe r.toPeer ctx.toParticipant).1)
  canSeeReactionsList := r.toPeer.canSeeReactionsList
  now := ctx.now

def fwdHeaders (messages : List MessageRef) : Except Failure (List (Option MessageFwdHeader)) :=
  if r.dropAuthor then .ok (List.replicate messages.length none)
  else (createFwdHeaderBulk ctx.privacyRules r.toPeer.isSelf messages).map (List.map some)

def forwardCopies (db : Db) (randomIds : OrderedDict Nat Int) (messages : List MessageRef) :
    Except Failure (Db × List MessageRef) := do
  let peers := r.toPeer :: (db.getOpposite r.toPeer).2
  let db := (db.getOpposite r.toPeer).1
  let postInfos := makeChannelPostInfoMany db.nextPostInfoId r.toPeer ctx.user ctx.toParticipant
    messages.length
  let sendAs ← ctx.sendAs.mapError Refusal.failure
  let fwdHeaders ← r.fwdHeaders ctx messages
  let copies ← (r.cloneForward ctx sendAs).cloneBulk db.nextContentId
    (messages.map MessageRef.content) fwdHeaders postInfos.2.1
    (messages.map fun ref => ref.content.mediaGroupId.map ctx.mediaGroupIds)
  let forwarded ← (forwardArgs db.refs messages copies r.toPeer peers
    (messages.map fun ref => randomIds.lookup ref.id) ctx.user.id).forwardForPeersBulk db.refs
  .ok ({ db with
    refs := forwarded.1
    nextContentId := db.nextContentId + messages.length
    nextPostInfoId := db.nextPostInfoId + messages.length }, forwarded.2)

def forwardLeft (db : Db) (randomIds : OrderedDict Nat Int) :
    Except Failure (Db × List MessageRef) :=
  if (r.sourceMessages ctx db randomIds).isEmpty then do
    require (!(r.existingByRandomId db ctx.user.id).isEmpty) (.rpc 400 "MESSAGE_IDS_EMPTY")
    -- `send_messages({})` asks for a first peer, `send_messages_channel([])` for a last `new_pts`.
    .error .other
  else do
    require ((r.sourceMessages ctx db randomIds).all fun m => !m.content.noForwards)
      (.rpc 406 "CHAT_FORWARDS_RESTRICTED")
    refuse (ctx.mediaRefusal ((r.sourceMessages ctx db randomIds).map MessageRef.content))
    r.forwardCopies ctx db randomIds (r.sourceMessages ctx db randomIds)

end ForwardMessages

/-- `forward_messages`: the database afterwards and the new references. -/
def forwardMessages (ctx : Context) (db : Db) (r : ForwardMessages) :
    Except Failure (Db × List MessageRef) := do
  refuse ctx.refusal
  r.checkIds
  let randomIds ← ForwardMessages.subtract r.randomIds r.idByRandomId
    (r.existingByRandomId db ctx.user.id)
  r.forwardLeft ctx db randomIds

end Piltover.Forwarding
