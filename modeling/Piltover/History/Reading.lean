/- source: piltover/app/handlers/messages/history.py, piltover/app/handlers/channels.py,
     piltover/app/handlers/messages/sending.py, piltover/db/models/peer.py
   digest: Read positions under any order of the statements of calls that read and of sends. -/

import Mathlib.Data.List.Dedup
import Mathlib.Logic.Function.Basic
import Piltover.Foundation.Runs
import Piltover.History.Hidden

set_option autoImplicit false

namespace Piltover.History

open Piltover.Foundation
open Piltover.Foundation.Paging
open Piltover.Foundation.Runs

structure ReadHistory where
  userId : Nat
  peerId : Nat
  maxId : Nat
  deriving DecidableEq, Repr

/-- `Max("id")`. -/
def maxIdOf (rows : List MessageRef) : Nat :=
  ((newest MessageRef.id rows 1).head?.map MessageRef.id).getD 0

def Peer.setOutMaxReadId (id : Nat) (self : Peer) : Peer := { self with outMaxReadId := id }

/-- The two are one row, read at different times. -/
def Peer.Same (p q : Peer) : Prop := p.id = q.id ∧ p.ownerId = q.ownerId ∧ p.type = q.type

def Peer.isOther (self q : Peer) : Bool :=
  match self.type with
  | .user userId => q.ownerId == some userId && self.ownerId.any fun owner => q.type == .user owner
  | .chat _ => q.type == self.type && q.id != self.id
  | _ => false

namespace Db

variable (db : Db)

/-- `from_input_peer_raise` of the two handlers. -/
def inputPeer (r : ReadHistory) (ofChannel : Bool) : Option Peer :=
  (db.peers.get r.peerId).filter fun p =>
    match p.type with
    | .channel _ => ofChannel
    | _ => !ofChannel && p.ownerId == some r.userId

/-- `ReadState.get_or_create`. -/
def getOrCreateReadState (userId peerId : Nat) : Db :=
  if db.readStates.any fun state => state.ownerId == userId && state.peerId == peerId then db
  else { db with readStates := db.readStates ++ [⟨userId, peerId, 0⟩] }

def saveReadState (userId peerId id : Nat) : Db :=
  { db with
    readStates := db.readStates.map fun state =>
      if state.ownerId == userId && state.peerId == peerId then { state with lastMessageId := id }
      else state }

def updateOrCreateReadState (userId peerId id : Nat) : Db :=
  (db.getOrCreateReadState userId peerId).saveReadState userId peerId id

def updateMaxReadId (self : Peer) (id : Nat) : Db :=
  if self.outMaxReadId ≥ id then db
  else { db with
    peers := db.peers.modify (fun p => p.id == self.id && decide (p.outMaxReadId < id))
      (Peer.setOutMaxReadId id) fun _ => rfl }

/-- The newest row of the peer that the call reaches; the identifier 0 reaches all. -/
def newestRow (peerId maxId : Nat) : Option MessageRef :=
  (newest MessageRef.id (db.refs.rows.filter fun m =>
    m.peerId == peerId && (maxId == 0 || decide (m.id ≤ maxId))) 1).head?

/-- The rows that a call for a channel reaches. -/
def visibleRows (userId : Nat) (peer : Peer) (maxId : Nat) : List MessageRef :=
  let participant := match peer.type with
    | .channel channelId => db.participants.get (userId, channelId)
    | _ => none
  db.refs.rows.filter fun m => m.peerId == peer.id && decide (m.id ≤ maxId) &&
    db.appendChannelMinMessageIdToQueryMaybe (.peer peer) participant (some userId) m

def newestVisible (userId : Nat) (peer : Peer) (maxId : Nat) : Option MessageRef :=
  (newest MessageRef.id (db.visibleRows userId peer maxId) 1).head?

def otherReadState (peer : Peer) : Option Peer :=
  db.peers.rows.find? fun q => peer.isOther q && db.readStates.any fun state =>
    q.ownerId == some state.ownerId && state.peerId == q.id

def otherMaxOutId (other : Peer) (contentId : Nat) : Nat :=
  maxIdOf (db.refs.rows.filter fun m => m.peerId == other.id &&
    decide (other.outMaxReadId < m.id) && decide (m.content.id ≤ contentId))

/-- The rows of the other members that the query of `read_history` takes. -/
def rowsOfOthers (peer : Peer) (oldId contentId : Nat) : List MessageRef :=
  db.refs.rows.filter fun m => (db.peers.get m.peerId).any (fun q => q.type == peer.type) &&
    m.peerId != peer.id && decide (oldId < m.id) && decide (m.content.id ≤ contentId)

def idsByPeers (peer : Peer) (oldId contentId : Nat) : List (Nat × Nat) :=
  ((db.rowsOfOthers peer oldId contentId).map MessageRef.peerId).dedup.map fun peerId =>
    (peerId, maxIdOf ((db.rowsOfOthers peer oldId contentId).filter fun m => m.peerId == peerId))

/-- The transaction of `read_history`, with the peers that are selected. -/
def updateOthers (selected : Nat → Bool) (idsByPeers : List (Nat × Nat)) : Except Failure Db := do
  require (db.peers.rows.all fun q => !selected q.id || (idsByPeers.lookup q.id).isSome) .other
  return { db with
    peers := db.peers.modify
      (fun q => selected q.id && decide (q.outMaxReadId < (idsByPeers.lookup q.id).getD 0))
      (fun q => q.setOutMaxReadId ((idsByPeers.lookup q.id).getD 0)) fun _ => rfl }

/-- `get_opposite`, for peers that are there. -/
def opposite (peer : Peer) : List Peer :=
  match peer.type with
  | .user _ => db.peers.rows.filter peer.isOther
  | .chat _ => db.peers.rows.filter fun q => q.type == peer.type && q.ownerId != peer.ownerId
  | _ => []

def createForPeers (peers : List Peer) (rows : List MessageRef) : Db :=
  { db with refs := db.refs.insertMany rows }.syncLastMessageBulk (peers.map Peer.id)

end Db

structure Started where
  request : ReadHistory
  peer : Peer
  lastMessageId : Nat
  deriving DecidableEq, Repr

/-- The statement that is next in a call, with what the call has read so far. -/
inductive Stage
  | looking (l : Started)
  | updatingOwn (l : Started) (maxId contentId : Nat)
  | saving (l : Started) (maxId contentId : Nat)
  | telling (l : Started) (contentId : Nat)
  | findingOther (l : Started) (contentId : Nat) (other : Peer)
  | updatingOther (l : Started) (contentId : Nat) (other : Peer) (otherMaxOutId : Nat)
  | updatingOthers (l : Started) (contentId : Nat) (idsByPeers : List (Nat × Nat))
  | channelLooking (l : Started)
  | channelSaving (l : Started) (unreadMaxId : Nat)
  | channelTelling (l : Started) (unreadMaxId : Nat)
  | channelFinding (l : Started) (unreadMaxId prevLastId : Nat)
  | channelUpdating (l : Started) (unreadMaxId : Nat)
  | counting (userId peerId messageId : Nat)
  | marking (userId peerId messageId lastMessageId : Nat)
  deriving DecidableEq, Repr

/-- How a call for a private chat or a basic group has ended, and up to which content. -/
inductive Outcome
  | read (contentId : Nat)
  | ignored (contentId : Option Nat)
  | raised
  deriving DecidableEq, Repr

structure ReadEntry where
  request : ReadHistory
  peer : Peer
  outcome : Outcome
  deriving DecidableEq, Repr

/-- The rows, the calls under way, and the calls of `read_history` that have ended. -/
structure Reading where
  db : Db
  calls : Nat → Option Stage
  log : List ReadEntry

/-- A new call, the next statement of a call, or a peer that is made by the way. -/
inductive ReadEvent
  | read (call : Nat) (r : ReadHistory)
  | readChannel (call : Nat) (r : ReadHistory)
  | send (call userId peerId : Nat) (opposite : Bool) (content : MessageContent)
      (rows : List MessageRef)
  | createPeer (peer : Peer)
  | go (call : Nat)

namespace Reading

variable (exact : List Nat → Except Failure (Nat → Bool)) (w : Reading)

def begin (db : Db) : Reading := ⟨db, fun _ => none, []⟩

def goesOn (call : Nat) (stage : Stage) : Reading :=
  { w with calls := Function.update w.calls call (some stage) }

def leaves (call : Nat) : Reading := { w with calls := Function.update w.calls call none }

def ends (call : Nat) (l : Started) (outcome : Outcome) : Reading :=
  { w.leaves call with log := w.log ++ [⟨l.request, l.peer, outcome⟩] }

def withDb (db : Db) : Reading := { w with db }

/-- `read_history`, up to what it finds out from the read state. -/
def read (call : Nat) (r : ReadHistory) : Reading :=
  match w.db.inputPeer r false with
  | none => w
  | some peer =>
    let w' := w.withDb (w.db.getOrCreateReadState r.userId peer.id)
    let l : Started := ⟨r, peer, w.db.readId r.userId peer.id⟩
    if r.maxId ≠ 0 ∧ r.maxId ≤ l.lastMessageId then
      w'.ends call l (.ignored ((w.db.newestRow peer.id r.maxId).map fun m => m.content.id))
    else w'.goesOn call (.looking l)

/-- `read_channel_history`, up to the same. -/
def readChannel (call : Nat) (r : ReadHistory) : Reading :=
  match w.db.inputPeer r true with
  | none => w
  | some peer =>
    let w' := w.withDb (w.db.getOrCreateReadState r.userId peer.id)
    let l : Started := ⟨r, peer, w.db.readId r.userId peer.id⟩
    if r.maxId ≤ l.lastMessageId then w' else w'.goesOn call (.channelLooking l)

/-- `create_for_peer`; the first row is that of the sender. -/
def send (call userId peerId : Nat) (opposite : Bool) (content : MessageContent)
    (rows : List MessageRef) : Option Reading := do
  let peer ← w.db.peers.get peerId
  let peers := peer :: (if opposite then w.db.opposite peer else [])
  guard (rows.map MessageRef.peerId = peers.map Peer.id ∧
    (rows.all fun m => m.content == content) ∧ (rows.map MessageRef.id).Nodup ∧
      rows.all fun m => (w.db.refs.get m.id).isNone)
  let own ← rows.head?
  return (w.withDb (w.db.createForPeers peers rows)).goesOn call (.counting userId peer.id own.id)

/-- A peer is new, the only one of its owner for the chat or user, and has no messages yet. -/
def createPeer (peer : Peer) : Option Reading :=
  if (w.db.peers.rows.all fun q => q.id != peer.id &&
      !(q.ownerId == peer.ownerId && q.type == peer.type)) ∧
      (w.db.refs.rows.all fun m => m.peerId != peer.id) then
    some (w.withDb { w.db with peers := w.db.peers.insert peer })
  else none

/-- The next statement of a call. For `filter(id=…)` with a list, `exact` tells what is selected. -/
def go (call : Nat) : Stage → Reading
  | .looking l =>
    match w.db.newestRow l.peer.id l.request.maxId with
    -- The row is unpacked before it is looked at.
    | none => w.ends call l .raised
    | some m =>
      if m.id = 0 ∨ m.id ≤ l.lastMessageId then w.ends call l (.ignored (some m.content.id))
      else if l.peer.type = .self then w.goesOn call (.updatingOwn l m.id m.content.id)
      else w.goesOn call (.saving l m.id m.content.id)
  | .updatingOwn l maxId contentId =>
    (w.withDb (w.db.updateMaxReadId l.peer maxId)).goesOn call (.saving l maxId contentId)
  | .saving l maxId contentId =>
    (w.withDb (w.db.saveReadState l.request.userId l.peer.id maxId)).goesOn call
      (.telling l contentId)
  | .telling l contentId =>
    match l.peer.type with
    | .self => w.ends call l (.read contentId)
    | .user _ =>
      match w.db.otherReadState l.peer with
      | none => w.ends call l (.read contentId)
      | some other => w.goesOn call (.findingOther l contentId other)
    | .chat _ => w.goesOn call
        (.updatingOthers l contentId (w.db.idsByPeers l.peer l.lastMessageId contentId))
    | .channel _ => w.ends call l .raised
  | .findingOther l contentId other =>
    if w.db.otherMaxOutId other contentId = 0 then w.ends call l (.read contentId)
    else w.goesOn call
      (.updatingOther l contentId other (w.db.otherMaxOutId other contentId))
  | .updatingOther l contentId other otherMaxOutId =>
    (w.withDb (w.db.updateMaxReadId other otherMaxOutId)).ends call l (.read contentId)
  | .updatingOthers l contentId idsByPeers =>
    match exact (idsByPeers.map Prod.fst) >>= fun selected =>
        w.db.updateOthers selected idsByPeers with
    | .error _ => w.ends call l .raised
    | .ok db => (w.withDb db).ends call l (.read contentId)
  | .channelLooking l =>
    match w.db.newestVisible l.request.userId l.peer l.request.maxId with
    | none => w.leaves call
    | some m => w.goesOn call (.channelSaving l m.id)
  | .channelSaving l unreadMaxId =>
    (w.withDb (w.db.saveReadState l.request.userId l.peer.id unreadMaxId)).goesOn call
      (.channelTelling l unreadMaxId)
  | .channelTelling l unreadMaxId =>
    w.goesOn call (.channelFinding l unreadMaxId
      (((w.db.peers.get l.peer.id).map Peer.outMaxReadId).getD 0))
  | .channelFinding l unreadMaxId prevLastId =>
    if w.db.refs.rows.any fun m => m.peerId == l.peer.id && decide (prevLastId < m.id) &&
        decide (m.id ≤ unreadMaxId) && m.content.authorId != l.request.userId then
      w.goesOn call (.channelUpdating l unreadMaxId)
    else w.leaves call
  | .channelUpdating l unreadMaxId =>
    (w.withDb (w.db.updateMaxReadId l.peer unreadMaxId)).leaves call
  | .counting userId peerId messageId =>
    let w' := w.withDb (w.db.getOrCreateReadState userId peerId)
    if w.db.unreadCount userId peerId (w.db.readId userId peerId) = 0 then
      w'.goesOn call (.marking userId peerId messageId (w.db.readId userId peerId))
    else w'.leaves call
  | .marking userId peerId messageId _ =>
    (w.withDb (w.db.updateOrCreateReadState userId peerId messageId)).leaves call

def step : ReadEvent → Option Reading
  | .read call r => some (w.read call r)
  | .readChannel call r => some (w.readChannel call r)
  | .send call userId peerId opposite content rows =>
    w.send call userId peerId opposite content rows
  | .createPeer peer => w.createPeer peer
  | .go call => (w.calls call).map (w.go exact call)

/-- A call for the peer has ended with the messages up to the content read, and not only been
ignored. Nobody waits for the own messages of a user. -/
def ReadUpTo (peer : Peer) (contentId : Nat) : Prop :=
  peer.type = .self ∨ ∃ e ∈ w.log, e.peer.Same peer ∧ ∃ c, e.outcome = .read c ∧ contentId ≤ c

def ProperStage : Stage → Prop
  -- There is a message to read, and a call is ignored only after one that has ended.
  | .looking l => ∃ m, w.db.newestRow l.peer.id l.request.maxId = some m ∧
      (m.id = 0 ∨ m.id ≤ l.lastMessageId → w.ReadUpTo l.peer m.content.id)
  -- No other call or send has moved the position since it was read.
  | .saving l _ _ => w.db.readId l.request.userId l.peer.id = l.lastMessageId
  | .channelSaving l _ => w.db.readId l.request.userId l.peer.id = l.lastMessageId
  | .marking userId peerId _ lastMessageId => w.db.readId userId peerId = lastMessageId
  -- Of the messages in a channel up to the one asked for, one is not before the old position.
  | .channelLooking l => w.db.visibleRows l.request.userId l.peer l.request.maxId ≠ [] →
      ∃ m ∈ w.db.visibleRows l.request.userId l.peer l.request.maxId, l.lastMessageId ≤ m.id
  -- The sender has not read beyond the new message while it was sent.
  | .counting userId peerId messageId =>
    w.db.unreadCount userId peerId (w.db.readId userId peerId) = 0 →
      w.db.readId userId peerId ≤ messageId
  | .telling l contentId =>
    match l.peer.type with
    -- The other user has a read state.
    | .user userId => ∀ q ∈ w.db.peers, l.peer.isOther q = true →
        ∃ state ∈ w.db.readStates, state.ownerId = userId ∧ state.peerId = q.id
    -- What is not after the reader's old position is not newer than what an ended call has read.
    | .chat _ => ∀ q ∈ w.db.peers, l.peer.isOther q = true → ∀ m ∈ w.db.refs, m.peerId = q.id →
        m.content.id ≤ contentId → m.id ≤ l.lastMessageId → w.ReadUpTo l.peer m.content.id
    | _ => True
  -- An exact filter with a list selects what is in it.
  | .updatingOthers _ _ idsByPeers => ∃ selected, exact (idsByPeers.map Prod.fst) = .ok selected ∧
      ∀ id, selected id = (idsByPeers.map Prod.fst).contains id
  | _ => True

def Proper : ReadEvent → Prop
  | .read _ r => ∀ peer, w.db.inputPeer r false = some peer → r.maxId ≠ 0 →
      r.maxId ≤ w.db.readId r.userId peer.id → ∀ m, w.db.newestRow peer.id r.maxId = some m →
        w.ReadUpTo peer m.content.id
  -- Outside channels the messages appear in the order of their contents.
  | .send _ _ peerId _ content _ => ∀ peer, w.db.peers.get peerId = some peer →
      (∀ channelId, peer.type ≠ .channel channelId) → ∀ m ∈ w.db.refs, m.content.id < content.id
  | .go call => ∀ stage, w.calls call = some stage → w.ProperStage exact stage
  | .readChannel _ _ => True
  | .createPeer _ => True

end Reading

/-- No other member's own messages up to the content are left unread by `out_max_read_id`. -/
def Covered (db : Db) (peer : Peer) (contentId : Nat) : Prop :=
  ∀ q ∈ db.peers, peer.isOther q = true → ∀ m ∈ db.refs, m.peerId = q.id →
    m.content.id ≤ contentId → m.id ≤ q.outMaxReadId

/-- A call of `read_history` has ended well, and all that it has read is covered. -/
def ReadEntry.Fine (db : Db) (e : ReadEntry) : Prop :=
  match e.outcome with
  | .read contentId => Covered db e.peer contentId
  | .ignored contentId => ∀ c, contentId = some c → Covered db e.peer c
  | .raised => False

/-- No position goes back. -/
structure Advances (before after : Db) : Prop where
  inbox : ∀ userId peerId, before.readId userId peerId ≤ after.readId userId peerId
  outbox : ∀ q ∈ before.peers, ∃ q' ∈ after.peers, q.Same q' ∧ q.outMaxReadId ≤ q'.outMaxReadId

end Piltover.History
