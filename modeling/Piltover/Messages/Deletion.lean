/- source: piltover/app/handlers/messages/sending.py, piltover/app/handlers/messages/saved_dialogs.py
   digest: Deleting messages, the history of a peer and a saved history. -/

import Piltover.Foundation.Paging
import Piltover.Messages.Dialogs

set_option autoImplicit false

namespace Piltover.Messages

open Piltover.Foundation
open Piltover.Foundation.Paging

namespace Db

variable (db : Db)

/-- `MessageRef.filter(...).delete()`, with what hangs on the references. -/
def deleteRefs (doomed : MessageRef → Bool) : Db :=
  let gone := db.refs.rows.filter doomed
  { db with
    refs := db.refs.remove doomed
    mediaReads := db.mediaReads.filter fun read => !gone.any fun r => r.id == read.2 }

/-- `MessageContent.filter(id__in=...).delete()`: the references of all owners go with it. -/
def deleteContents (contentIds : List Nat) : Db :=
  let db := db.deleteRefs fun r => contentIds.contains r.contentId
  { db with
    contents := db.contents.remove fun c => contentIds.contains c.id
    mentions := db.mentions.remove fun m => contentIds.contains m.contentId }

/-- A message that was forwarded to the saved messages from the peer. -/
def savedFrom (peer : Peer) (contentId : Nat) : Bool :=
  (db.contents.get contentId).any fun c => c.savedPeerId == some peer.id

/-- `peer.delete()`: the headers that name the peer go with it, with their contents and the
references to these, and so do the references in the peer. -/
def deletePeer (peer : Peer) : Db :=
  let db := db.deleteContents ((db.contents.rows.map MessageContent.id).filter (db.savedFrom peer))
  let db := db.deleteRefs fun r => r.peer.id == peer.id
  { db with peers := db.peers.remove fun p => p.id == peer.id }

end Db

/-- The identifiers of the references, under the owners of their peers. -/
def ownerIds (refs : List MessageRef) : List (Nat × Nat) := refs.map fun r => (r.peer.ownerId, r.id)

section DeleteMessages

structure DeleteMessages where
  id : List Nat
  revoke : Bool
  deriving DecidableEq, Repr

/-- The references that a request deletes: the user's own, or with `revoke` all those of their
contents. -/
def DeleteMessages.doomed (request : DeleteMessages) (db : Db) (userId : Nat) : List MessageRef :=
  let ids := request.id.take 100
  let own := db.refs.rows.filter fun r => ids.contains r.id && r.peer.ownerId == userId
  if request.revoke then
    db.refs.rows.filter fun r => own.any fun o => o.contentId == r.contentId
  else own

/-- `messages`, the deleted references of every owner. -/
def DeleteMessages.messages (request : DeleteMessages) (db : Db) (userId : Nat) :
    OrderedDict Nat (List Nat) :=
  if request.revoke then OrderedDict.appendAll ∅ (ownerIds (request.doomed db userId))
  else OrderedDict.setItem ∅ userId ((request.doomed db userId).map MessageRef.id)

def deleteMessages (db : Db) (userId : Nat) (request : DeleteMessages) :
    Except Failure (Db × Affected) := do
  let messages := request.messages db userId
  let allIds := messages.entries.flatMap Sigma.snd
  if allIds = [] then
    let (db, pts) ← db.addPts userId 0
    pure (db, ⟨pts, 0, 0⟩)
  else
    let (db, pts) ← (db.deleteRefs fun r => allIds.contains r.id).updDeleteMessages userId messages
    pure (db, ⟨pts, allIds.length, 0⟩)

end DeleteMessages

section DeleteHistory

/-- `min_date` and `max_date` are 0 when they are not given. -/
structure DeleteHistory where
  peerId : Nat
  maxId : Nat
  minDate : Nat
  maxDate : Nat
  revoke : Bool
  deriving DecidableEq, Repr

namespace DeleteHistory

variable (request : DeleteHistory) (db : Db) (peer : Peer)

/-- The filter of the references that the request is about. -/
def wants (r : MessageRef) : Bool :=
  r.peer.id == peer.id && (request.maxId == 0 || decide (r.id ≤ request.maxId))

def messagesToDelete : List MessageRef :=
  newest MessageRef.id (db.refs.rows.filter (request.wants peer)) 1001

/-- The references whose contents are deleted. -/
def doomed : List MessageRef := (request.messagesToDelete db peer).take 1000

def contentIds : List Nat := (request.doomed db peer).map MessageRef.contentId

/-- The identifier of the first message that is left for the next request. -/
def offsetId : Nat :=
  match (request.messagesToDelete db peer)[1000]? with
  | none => 0
  | some r => r.id

/-- `peers_q`: the peers of the others in the conversation. -/
def opposite (other : Peer) : Bool :=
  match peer.target with
  | .self => false
  | .user userId => other.ownerId == userId && other.target == .user peer.ownerId
  | .chat chatId => other.ownerId != peer.ownerId && other.target == .chat chatId

/-- The references of the others that `revoke` announces. -/
def revoked : List MessageRef :=
  if request.revoke then
    db.refs.rows.filter fun r =>
      opposite peer r.peer && (request.contentIds db peer).contains r.contentId
  else []

def messages (userId : Nat) : OrderedDict Nat (List Nat) :=
  OrderedDict.appendAll
    (OrderedDict.setItem ∅ userId ((request.doomed db peer).map MessageRef.id))
    (ownerIds (request.revoked db peer))

end DeleteHistory

/-- What follows once nothing is left: a group is left by its member. -/
def leaveChat (db : Db) (userId : Nat) (peer : Peer) : Except Failure Db :=
  match peer.target with
  | .chat chatId =>
    let db := { db with
      participants := db.participants.filter fun p => !(p.1 == chatId && p.2.userId == userId) }
    (db.deletePeer peer).updUpdateChat chatId
  | _ => .ok db

/-- The end of `delete_history`, `if not offset_id`. -/
def closeHistory (db : Db) (userId : Nat) (peer : Peer) (offsetId : Nat) : Except Failure Db :=
  if offsetId = 0 then leaveChat db userId peer else .ok db

def deleteHistory (db : Db) (userId : Nat) (request : DeleteHistory) :
    Except Failure (Db × Affected) := do
  let peer ← db.fromInputPeerRaise userId request.peerId false
  -- `MessageRef` has no `date` to filter by.
  require (request.minDate == 0 && request.maxDate == 0) .other
  let contentIds := request.contentIds db peer
  if contentIds = [] then
    let (db, pts) ← db.addPts userId 0
    pure (db, ⟨pts, 0, 0⟩)
  else
    let messages := request.messages db peer userId
    let offsetId := request.offsetId db peer
    let (after, pts) ← (db.deleteContents contentIds).updDeleteMessages userId messages
    let after ← closeHistory after userId peer offsetId
    pure (after, ⟨pts, ((messages.lookup userId).getD []).length, offsetId⟩)

end DeleteHistory

section DeleteSavedHistory

structure DeleteSavedHistory where
  peerId : Nat
  maxId : Nat
  minDate : Int
  maxDate : Int
  deriving DecidableEq, Repr

def DeleteSavedHistory.wants (request : DeleteSavedHistory) (db : Db) (userId : Nat) (peer : Peer)
    (r : MessageRef) : Bool :=
  r.peer.ownerId == userId && r.peer.target == .self &&
    (db.contents.get r.contentId).any fun content =>
      content.savedPeerId == some peer.id &&
        (request.maxId == 0 || decide (r.id ≤ request.maxId)) &&
        (request.maxDate == 0 || decide (content.date < request.maxDate)) &&
        (request.minDate == 0 || decide (request.minDate < content.date))

def deleteSavedHistory (db : Db) (userId : Nat) (request : DeleteSavedHistory) :
    Except Failure (Db × Affected) := do
  let peer ← db.fromInputPeerRaise userId request.peerId false
  let found := newest MessageRef.id (db.refs.rows.filter (request.wants db userId peer)) 1001
  if found = [] then
    let (db, pts) ← db.addPts userId 0
    pure (db, ⟨pts, 0, 0⟩)
  else
    let ids := (found.take 1000).map MessageRef.id
    let offset := match found[1000]? with
      | none => 0
      | some r => r.id
    let (db, pts) ← (db.deleteRefs fun r => ids.contains r.id).updDeleteMessages userId
      (OrderedDict.setItem ∅ userId ids)
    pure (db, ⟨pts, ids.length, offset⟩)

end DeleteSavedHistory

end Piltover.Messages
