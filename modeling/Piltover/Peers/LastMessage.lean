/- source: piltover/db/models/peer.py, piltover/db/models/message_ref.py,
     piltover/app/handlers/messages/sending.py, piltover/app/handlers/messages/chats.py,
     piltover/app/handlers/messages/saved_dialogs.py, piltover/app/handlers/internal.py
   digest: The last message that a peer is stored with, and what is created and deleted. -/

import Piltover.Foundation.Paging
import Piltover.Foundation.Table

set_option autoImplicit false

namespace Piltover.Peers

open Piltover.Foundation
open Piltover.Foundation.Paging

inductive PeerType
  | self
  | user (userId : Nat)
  | chat (chatId : Nat)
  | channel (channelId : Nat)
  deriving DecidableEq, Repr

structure Peer where
  id : Nat
  ownerId : Option Nat
  type : PeerType
  blocked : Bool
  lastMessageId : Option Nat
  lastMessageDate : Option Int
  deriving DecidableEq, Repr

def Peer.setBlocked (blocked : Bool) (p : Peer) : Peer := { p with blocked }

inductive MessageType
  | regular | service | scheduled
  deriving DecidableEq, Repr

structure MessageContent where
  id : Nat
  type : MessageType
  date : Int
  /-- `fwd_header.saved_peer`. -/
  savedPeerId : Option Nat
  deriving DecidableEq, Repr

/-- A row of `MessageRef` joined with its content. -/
structure MessageRef where
  id : Nat
  peerId : Nat
  content : MessageContent
  deriving DecidableEq, Repr

/-- Identifiers are given out once. -/
structure Db where
  peers : Table Peer.id
  refs : Table MessageRef.id
  nextPeer : Nat
  nextContent : Nat
  nextRef : Nat

namespace Db

def initial : Db := ⟨Table.empty, Table.empty, 1, 1, 1⟩

variable (db : Db)

section Rows

/-- The row with the greatest identifier of those asked for. -/
def newestRef (wanted : MessageRef → Bool) : Option MessageRef :=
  (newest MessageRef.id (db.refs.rows.filter wanted) 1).head?

/-- The row that both queries of `_LAST_MESSAGE_SYNC_SQL` find. -/
def lastRef (peerId : Nat) : Option MessageRef := db.newestRef fun r => r.peerId == peerId

/-- What `_LAST_MESSAGE_SYNC_SQL` sets; without a row the old values stay. -/
def synced (p : Peer) : Peer :=
  { p with
    lastMessageId := ((db.lastRef p.id).map MessageRef.id).or p.lastMessageId
    lastMessageDate := ((db.lastRef p.id).map fun r => r.content.date).or p.lastMessageDate }

def syncLastMessageBulk (peerIds : List Nat) : Db :=
  { db with peers := db.peers.modify (fun p => peerIds.contains p.id) db.synced fun _ => rfl }

def createPeer (ownerId : Option Nat) (type : PeerType) : Db :=
  { db with
    peers := db.peers.insert ⟨db.nextPeer, ownerId, type, false, none, none⟩
    nextPeer := db.nextPeer + 1 }

def findPeer (ownerId : Option Nat) (type : PeerType) : Option Peer :=
  db.peers.rows.find? fun p => p.ownerId == ownerId && p.type == type

/-- `MessageRef.create`. -/
def createRef (peerId : Nat) (content : MessageContent) : Db :=
  { db with
    refs := db.refs.insert ⟨db.nextRef, peerId, content⟩
    nextRef := db.nextRef + 1 }

/-- `MessageRef.bulk_create`. -/
def createRefs (db : Db) (rows : List (Nat × MessageContent)) : Db :=
  rows.foldl (fun db row => db.createRef row.1 row.2) db

def deleteRefs (doomed : MessageRef → Bool) : Db := { db with refs := db.refs.remove doomed }

/-- The rows go with their contents. -/
def deleteContents (contentIds : List Nat) : Db :=
  db.deleteRefs fun r => contentIds.contains r.content.id

def removePeer (peerId : Nat) : Db :=
  { db.deleteRefs fun r => r.peerId == peerId with
    peers := db.peers.remove fun p => p.id == peerId }

/-- The rows go with their peer, and so do the messages saved from it, with their headers. -/
def deletePeer (peerId : Nat) : Db :=
  (db.deleteRefs fun r => r.content.savedPeerId == some peerId).removePeer peerId

def setBlocked (peerId : Nat) (blocked : Bool) : Db :=
  { db with
    peers := db.peers.modify (fun p => p.id == peerId) (Peer.setBlocked blocked) fun _ => rfl }

end Rows

section Creation

def getOpposite (peer : Peer) : Db × List Nat :=
  match peer.type with
  | .user userId =>
    if userId = 777000 then (db, [])
    else match peer.ownerId with
      | none => (db, [])
      | some ownerId =>
        match db.findPeer (some userId) (.user ownerId) with
        | some other => (db, if other.blocked then [] else [other.id])
        | none => (db.createPeer (some userId) (.user ownerId), [db.nextPeer])
  | .chat chatId => (db, (db.peers.rows.filter fun q =>
    q.type == .chat chatId && q.ownerId != peer.ownerId).map Peer.id)
  | _ => (db, [])

/-- The peers that a message goes to. -/
def recipients (peer : Peer) (opposite : Bool) : Db × List Nat :=
  let (db, others) := if opposite then db.getOpposite peer else (db, [])
  (db, peer.id :: others)

def createForPeers (type : MessageType) (date : Int) (savedPeerId : Option Nat)
    (peerIds : List Nat) : Db :=
  let content : MessageContent := ⟨db.nextContent, type, date, savedPeerId⟩
  let db := { db with nextContent := db.nextContent + 1 }
  (db.createRefs (peerIds.map fun id => (id, content))).syncLastMessageBulk peerIds

def createForPeer (peer : Peer) (opposite : Bool) (type : MessageType) (date : Int) : Db :=
  let (db, peerIds) := db.recipients peer opposite
  db.createForPeers type date none peerIds

/-- `send_scheduled_message`: `MessageRef.send_scheduled`, and the scheduled row is deleted. -/
def sendScheduledMessage (scheduled : MessageRef) (peer : Peer) (opposite : Bool) (now : Int) :
    Db :=
  let (db, peerIds) := db.recipients peer opposite
  (db.createForPeers .regular now scheduled.content.savedPeerId peerIds).deleteRefs fun r =>
    r.id == scheduled.id

def forwardForPeers (ref : MessageRef) (peerIds : List Nat) (savedPeerId : Option Nat)
    (isForward : Bool) (now : Int) : Db :=
  if peerIds.isEmpty then db
  else db.createForPeers ref.content.type (if isForward then now else ref.content.date)
    savedPeerId peerIds

/-- `MessageContent.clone_forward_bulk`, with `saved_peer` of the headers. -/
def cloneForwardBulk (db : Db) (now : Int) (savedPeerId : Option Nat) :
    List MessageRef → Db × List MessageContent
  | [] => (db, [])
  | ref :: rest =>
    let (db', contents) :=
      { db with nextContent := db.nextContent + 1 }.cloneForwardBulk now savedPeerId rest
    (db', ⟨db.nextContent, ref.content.type, now, savedPeerId⟩ :: contents)

def forwardForPeersBulk (contents : List MessageContent) (peerIds : List Nat) : Db :=
  if peerIds.isEmpty || contents.isEmpty then db
  else (db.createRefs (contents.flatMap fun content => peerIds.map fun id =>
    (id, content))).syncLastMessageBulk peerIds

def forwardSources (fromPeerId : Nat) (ids : List Nat) : List MessageRef :=
  oldest MessageRef.id (db.refs.rows.filter fun r =>
    r.peerId == fromPeerId && ids.contains r.id && r.content.type == .regular) db.refs.rows.length

/-- `forward_messages`, from the messages that the user may see and that are not there already. -/
def forwardMessages (fromPeerId : Nat) (toPeer : Peer) (ids : List Nat)
    (savedPeerId : Option Nat) (now : Int) : Db :=
  let messages := db.forwardSources fromPeerId (ids.take 100)
  if messages.isEmpty then db
  else
    let (db, peerIds) := db.recipients toPeer true
    let (db, contents) := db.cloneForwardBulk now savedPeerId messages
    db.forwardForPeersBulk contents peerIds

/-- `add_chat_user`, as far as the peer and the history of the new member go. -/
def addChatUser (userId newUserId chatId : Nat) (fwdLimit : Int) : Db :=
  match db.findPeer (some userId) (.chat chatId), db.findPeer (some newUserId) (.chat chatId) with
  | some own, none =>
    let forwarded := newest MessageRef.id (db.refs.rows.filter fun r =>
      r.peerId == own.id && r.content.type == .regular) (min fwdLimit.toNat 100)
    let created := db.createPeer (some newUserId) (.chat chatId)
    if 0 < fwdLimit then
      (created.createRefs (forwarded.map fun r => (db.nextPeer, r.content))).syncLastMessageBulk
        [db.nextPeer]
    else created
  | _, _ => db

end Creation

section Deletion

def ownedBy (userId : Nat) (r : MessageRef) : Bool :=
  (db.peers.get r.peerId).any fun p => p.ownerId == some userId

/-- The rows that `delete_messages` deletes: the user's own, or with `revoke` all those of their
contents. -/
def revoked (userId : Nat) (ids : List Nat) (revoke : Bool) (r : MessageRef) : Bool :=
  let own := fun o : MessageRef => (ids.take 100).contains o.id && db.ownedBy userId o
  if revoke then db.refs.rows.any fun o => own o && o.content.id == r.content.id else own r

def deleteMessages (userId : Nat) (ids : List Nat) (revoke : Bool) : Db :=
  let doomed := db.revoked userId ids revoke
  (db.deleteRefs doomed).syncLastMessageBulk
    ((db.refs.rows.filter doomed).map MessageRef.peerId)

/-- The peer of a request that is not for a channel. -/
def inputPeer (userId peerId : Nat) : Option Peer :=
  (db.peers.get peerId).filter fun p => p.ownerId == some userId

end Deletion

end Db

/-- The dates are 0 where they are not given. -/
structure DeleteHistory where
  userId : Nat
  peerId : Nat
  maxId : Int
  minDate : Int
  maxDate : Int
  deriving DecidableEq, Repr

namespace DeleteHistory

variable (r : DeleteHistory) (db : Db)

def messagesToDelete : List MessageRef :=
  newest MessageRef.id (db.refs.rows.filter fun m =>
    m.peerId == r.peerId && (r.maxId == 0 || decide ((m.id : Int) ≤ r.maxId))) 1001

def contentIds : List Nat := ((r.messagesToDelete db).take 1000).map fun m => m.content.id

/-- The peer of a request that deletes: `MessageRef` has no `date` to filter by. -/
def peer : Option Peer :=
  if r.minDate = 0 ∧ r.maxDate = 0 ∧ r.contentIds db ≠ [] then db.inputPeer r.userId r.peerId
  else none

/-- Nothing is left for the next request, and a group is left by its member. -/
def leaves (peer : Peer) : Bool :=
  (r.messagesToDelete db)[1000]?.isNone && match peer.type with
    | .chat _ => true
    | _ => false

/-- `delete_history`, with or without `revoke`. -/
def run : Db :=
  match r.peer db with
  | none => db
  | some peer =>
    let after := db.deleteContents (r.contentIds db)
    if r.leaves db peer then after.deletePeer peer.id else after

end DeleteHistory

/-- The dates are 0 where they are not given. -/
structure DeleteSavedHistory where
  userId : Nat
  peerId : Nat
  maxId : Int
  minDate : Int
  maxDate : Int
  deriving DecidableEq, Repr

namespace DeleteSavedHistory

variable (r : DeleteSavedHistory) (db : Db)

def wants (m : MessageRef) : Bool :=
  (db.peers.get m.peerId).any (fun p => p.ownerId == some r.userId && p.type == .self) &&
    m.content.savedPeerId == some r.peerId &&
    (r.maxId == 0 || decide ((m.id : Int) ≤ r.maxId)) &&
    (r.maxDate == 0 || decide (m.content.date < r.maxDate)) &&
    (r.minDate == 0 || decide (r.minDate < m.content.date))

/-- `ids`, without the one that is the offset. -/
def ids : List Nat := ((newest MessageRef.id (db.refs.rows.filter (r.wants db)) 1001).take
  1000).map MessageRef.id

def found : Bool :=
  (db.peers.get r.peerId).any fun p => p.ownerId == some r.userId || p.ownerId.isNone

/-- `delete_saved_history`. -/
def run : Db :=
  if r.found db then db.deleteRefs fun m => (r.ids db).contains m.id else db

end DeleteSavedHistory

/-- What happens to the peers and the messages. -/
inductive Event
  | createPeer (ownerId : Option Nat) (type : PeerType)
  | setBlocked (peerId : Nat) (blocked : Bool)
  | createForPeer (peerId : Nat) (opposite : Bool) (type : MessageType) (date : Int)
  | sendScheduledMessage (messageId : Nat) (opposite : Bool) (now : Int)
  | forwardForPeers (messageId : Nat) (peerIds : List Nat) (savedPeerId : Option Nat)
      (isForward : Bool) (now : Int)
  | forwardMessages (fromPeerId toPeerId : Nat) (ids : List Nat) (savedPeerId : Option Nat)
      (now : Int)
  | addChatUser (userId newUserId chatId : Nat) (fwdLimit : Int)
  | deleteMessages (userId : Nat) (ids : List Nat) (revoke : Bool)
  | deleteHistory (r : DeleteHistory)
  | deleteSavedHistory (r : DeleteSavedHistory)
  /-- The time of a message is over. -/
  | deleteScheduledMessage (contentId : Nat)
  deriving DecidableEq, Repr

namespace Db

/-- Rows that are not found leave all as it is. -/
def apply (db : Db) : Event → Db
  | .createPeer ownerId type =>
    match db.findPeer ownerId type with
    | some _ => db
    | none => db.createPeer ownerId type
  | .setBlocked peerId blocked => db.setBlocked peerId blocked
  | .createForPeer peerId opposite type date =>
    match db.peers.get peerId with
    | none => db
    | some peer => db.createForPeer peer opposite type date
  | .sendScheduledMessage messageId opposite now =>
    match db.refs.get messageId with
    | none => db
    | some scheduled =>
      match db.peers.get scheduled.peerId with
      | none => db
      | some peer => db.sendScheduledMessage scheduled peer opposite now
  | .forwardForPeers messageId peerIds savedPeerId isForward now =>
    match db.refs.get messageId with
    | none => db
    | some ref => db.forwardForPeers ref (peerIds.filter fun id => (db.peers.get id).isSome)
        savedPeerId isForward now
  | .forwardMessages fromPeerId toPeerId ids savedPeerId now =>
    match db.peers.get toPeerId with
    | none => db
    | some toPeer => db.forwardMessages fromPeerId toPeer ids savedPeerId now
  | .addChatUser userId newUserId chatId fwdLimit =>
    db.addChatUser userId newUserId chatId fwdLimit
  | .deleteMessages userId ids revoke => db.deleteMessages userId ids revoke
  | .deleteHistory r => r.run db
  | .deleteSavedHistory r => r.run db
  | .deleteScheduledMessage contentId => db.deleteContents [contentId]

def step (db : Db) (e : Event) : Option Db := some (db.apply e)

end Db

end Piltover.Peers
