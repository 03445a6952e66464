/- source: piltover/db/models/message_ref.py, piltover/db/models/message_content.py,
     piltover/db/models/peer.py, piltover/app/utils/updates_manager.py
   digest: The peers of the users, the references and contents in them, and their updates. -/

import Piltover.Channels.Rights
import Piltover.Failure
import Piltover.Foundation.Table
import Piltover.Updates.Manager

set_option autoImplicit false

namespace Piltover.Messages

open Piltover.Channels (ChatBase ChatParticipant)
open Piltover.Foundation
open Piltover.Updates (Manager.Server Manager.Row)

inductive PeerTarget
  | self
  | user (userId : Nat)
  | chat (chatId : Nat)
  deriving DecidableEq, Repr

/-- A row of `Peer` that has an owner. -/
structure Peer where
  id : Nat
  ownerId : Nat
  target : PeerTarget
  blocked : Bool
  deriving DecidableEq, Repr

inductive MessageType
  | regular
  | service (code : Nat)
  | scheduled
  deriving DecidableEq, Repr

/-- A row of `MessageContent`: `readableMedia` is whether its media has a file of a type in
`READABLE_FILE_TYPES`, `savedPeerId` is `fwd_header.saved_peer_id`. -/
structure MessageContent where
  id : Nat
  type : MessageType
  authorId : Option Nat
  authorReactionsUnread : Bool
  readableMedia : Bool
  date : Int
  savedPeerId : Option Nat
  deriving DecidableEq, Repr

structure MessageRef where
  id : Nat
  peer : Peer
  contentId : Nat
  pinned : Bool
  version : Nat
  deriving DecidableEq, Repr

structure MessageMention where
  id : Nat
  userId : Nat
  contentId : Nat
  unreadTargetId : Option Nat
  deriving DecidableEq, Repr

structure Chat extends ChatBase where
  id : Nat
  deleted : Bool
  migrated : Bool
  deriving DecidableEq, Repr

namespace Chat

def makeIdFrom (chatId : Nat) : Nat := chatId * 2

end Chat

/-- Pushes of updates that `Piltover.Updates.Manager` does not have. -/
inductive OtherUpdate
  | readMessagesContents (messages : List Nat) (pts ptsCount : Int)
  | chat (chatId : Nat)
  deriving DecidableEq, Repr

structure Db where
  bots : List Nat
  peers : Table Peer.id
  chats : Table Chat.id
  participants : List (Nat × ChatParticipant)
  contents : Table MessageContent.id
  refs : Table MessageRef.id
  mentions : Table MessageMention.id
  mediaReads : List (Nat × Nat)
  server : Manager.Server
  otherPushed : List (List Nat × OtherUpdate)

/-- The constraints of the tables, and that every user has a row of `State`. -/
structure Db.Consistent (db : Db) : Prop where
  onePeer : ∀ p ∈ db.peers, ∀ q ∈ db.peers, p.ownerId = q.ownerId → p.target = q.target → p = q
  notSelf : ∀ p ∈ db.peers, p.target ≠ .user p.ownerId
  refPeer : ∀ r ∈ db.refs, r.peer ∈ db.peers
  oneRef : ∀ r ∈ db.refs, ∀ s ∈ db.refs, r.peer = s.peer → r.contentId = s.contentId → r = s
  refId : ∀ r ∈ db.refs, 0 < r.id
  peerState : ∀ p ∈ db.peers, (db.server.statePts p.ownerId).isSome
  participantState : ∀ p ∈ db.participants, (db.server.statePts p.2.userId).isSome

namespace Db

variable (db : Db)

/-- The chat as `query_from_input_peer` wants it. -/
def chatIsOpen (chatId : Nat) (allowMigratedChat : Bool) : Bool :=
  (db.chats.get chatId).any fun chat => !chat.deleted && (allowMigratedChat || !chat.migrated)

/-- `Peer.from_input_peer_raise` for a peer row that the input names; the row of a user who is
named for the first time has been made. -/
def fromInputPeerRaise (userId peerId : Nat) (allowMigratedChat : Bool) : Except Failure Peer := do
  let peer ← orRaise (db.peers.get peerId) (.rpc 400 "PEER_ID_INVALID")
  require (peer.ownerId == userId) (.rpc 400 "PEER_ID_INVALID")
  match peer.target with
  | .chat chatId =>
    require (db.chatIsOpen chatId allowMigratedChat) (.rpc 400 "PEER_ID_INVALID")
    pure peer
  | _ => pure peer

theorem fromInputPeerRaise_eq_ok {userId peerId : Nat} {allowMigratedChat : Bool} {peer : Peer}
    (done : db.fromInputPeerRaise userId peerId allowMigratedChat = .ok peer) :
    db.peers.get peerId = some peer ∧ peer.ownerId = userId := by
  unfold fromInputPeerRaise at done
  obtain ⟨found, here, done⟩ := orRaise_bind_eq_ok.mp done
  obtain ⟨own, done⟩ := check_bind_eq_ok.mp done
  rw [require_eq_ok, beq_iff_eq] at own
  split at done
  · obtain ⟨-, done⟩ := check_bind_eq_ok.mp done
    cases done
    exact ⟨here, own⟩
  · cases done
    exact ⟨here, own⟩

def addPts (userId : Nat) (ptsCount : Int) : Except Failure (Db × Int) :=
  match db.server.statePts userId with
  | none => .error .other
  | some before =>
    let pts := Updates.State.addPts before ptsCount
    let statePts := Function.update db.server.statePts userId (some pts)
    .ok ({ db with server := { db.server with statePts := statePts } }, pts)

/-- `upd.delete_messages`. -/
def updDeleteMessages (userId : Nat) (messages : OrderedDict Nat (List Nat)) :
    Except Failure (Db × Int) :=
  match db.server.deleteMessages (some userId) messages with
  | some (server, some pts) => .ok ({ db with server := server }, pts)
  | _ => .error .other

/-- `upd.read_messages_contents`. -/
def updReadMessagesContents (userId : Nat) (messageIds : List Nat) : Except Failure (Db × Int) := do
  let ptsCount : Int := messageIds.length
  let (db, newPts) ← db.addPts userId ptsCount
  let row : Manager.Row :=
    ⟨userId, .other 30, newPts, ptsCount, none, messageIds.map Int.ofNat, [], none, none⟩
  pure ({ db with
    server := { db.server with rows := db.server.rows ++ [row] }
    otherPushed :=
      db.otherPushed ++ [([userId], .readMessagesContents messageIds newPts ptsCount)] }, newPts)

/-- `upd.update_chat`. -/
def updUpdateChat (chatId : Nat) : Except Failure Db :=
  let participantIds := (db.participants.filter fun p => p.1 == chatId && !p.2.left).map
    fun p => p.2.userId
  match Updates.State.addPtsBulk db.server.statePts participantIds
      (participantIds.map fun _ => 1) with
  | none => .error .other
  | some (statePts, ptss) =>
    let rows : List Manager.Row := (participantIds.zip ptss).map fun (userId, pts) =>
      ⟨userId, .other 12, pts, 0, some chatId, [], [], none, none⟩
    .ok { db with
      server := { db.server with statePts := statePts, rows := db.server.rows ++ rows }
      otherPushed := db.otherPushed ++ [(participantIds, .chat (Chat.makeIdFrom chatId))] }

end Db

/-- `AffectedMessages`, and with the offset `AffectedHistory`. -/
structure Affected where
  pts : Int
  ptsCount : Int
  offset : Nat
  deriving DecidableEq, Repr

end Piltover.Messages
