/- source: piltover/app/handlers/messages/dialogs.py,
     piltover/app/handlers/messages/saved_dialogs.py, piltover/db/models/dialog_base.py,
     piltover/db/models/dialog.py, piltover/db/models/saved_dialog.py, piltover/db/models/peer.py
   digest: The dialogs of the users, and the requests that pin, reorder and move them. -/

import Piltover.Failure
import Piltover.Foundation.Positions
import Piltover.Foundation.Table
import Mathlib.Data.List.Dedup
import Mathlib.Data.List.Sort

set_option autoImplicit false

namespace Piltover.Dialogs

open Piltover.Foundation

/-- The type of a peer and the id of its target, as `Peer.tup` gives them. -/
inductive PeerTarget
  | self
  | user (userId : Nat)
  | chat (chatId : Nat)
  | channel (channelId : Nat)
  deriving DecidableEq, Repr

/-- `InputPeer`; `known` is whether the access hash is right, for a channel also whether it is 0. -/
inductive InputPeer
  | empty
  | self
  | user (userId : Nat) (known : Bool)
  | chat (chatId : Nat)
  | channel (channelId : Nat) (known : Bool)
  | other
  deriving DecidableEq, Repr

/-- `ChatBase.norm_id`. -/
def normId (id : Nat) : Nat := id / 2

def typeAndIdFromInput (userId : Nat) : InputPeer → Except Failure (Option PeerTarget)
  | .empty => .ok none
  | .self => .ok (some .self)
  | .user id known =>
    .ok (if id = userId then some .self else if known then some (.user id) else none)
  | .chat id => .ok (some (.chat (normId id)))
  | .channel id known => .ok (if known then some (.channel (normId id)) else none)
  | .other => .error (.rpc 400 "PEER_ID_NOT_SUPPORTED")

inductive InputDialogPeer
  | peer (peer : InputPeer)
  | folder (folderId : Int)
  deriving DecidableEq, Repr

/-- The peer of an `InputDialogPeer`. -/
def InputDialogPeer.inputPeer : InputDialogPeer → Option InputPeer
  | .peer input => some input
  | .folder _ => none

inductive DialogFolderId
  | all
  | archive
  deriving DecidableEq, Repr

/-- `DialogFolderId(value)`. -/
def DialogFolderId.ofValue (value : Int) : Option DialogFolderId :=
  if value = 0 then some .all else if value = 1 then some .archive else none

structure DialogBase where
  ownerId : Nat
  peer : PeerTarget
  pinnedIndex : Option Nat
  deriving DecidableEq, Repr

structure Dialog extends DialogBase where
  folderId : DialogFolderId
  visible : Bool
  deriving DecidableEq, Repr

structure SavedDialog extends DialogBase
  deriving DecidableEq, Repr

/-- The models that inherit from `DialogBase`. -/
class DialogModel (δ : Type) where
  base : δ → DialogBase
  place : Option Nat → δ → δ
  base_place : ∀ index d, base (place index d) = { base d with pinnedIndex := index }

instance : DialogModel Dialog where
  base := Dialog.toDialogBase
  place index d := { d with pinnedIndex := index }
  base_place _ _ := rfl

instance : DialogModel SavedDialog where
  base := SavedDialog.toDialogBase
  place index d := { d with pinnedIndex := index }
  base_place _ _ := rfl

section Model

variable {δ : Type} [DialogModel δ]

open DialogModel

/-- `unique_together` of the models. -/
def ownerAndPeer (d : δ) : Nat × PeerTarget := ((base d).ownerId, (base d).peer)

def pinnedIndex (d : δ) : Option Nat := (base d).pinnedIndex

@[simp] theorem pinnedIndex_place (index : Option Nat) (d : δ) :
    pinnedIndex (place index d) = index := by
  rw [pinnedIndex, base_place]

@[simp] theorem ownerAndPeer_place (index : Option Nat) (d : δ) :
    ownerAndPeer (place index d) = ownerAndPeer d := by
  rw [ownerAndPeer, ownerAndPeer, base_place]

/-- The indices of the pinned rows that a query is about. -/
def indices (among : δ → Bool) (t : Table (ownerAndPeer (δ := δ))) : List Nat :=
  (t.rows.filter among).filterMap pinnedIndex

def pinnedNow (among : δ → Bool) (t : Table (ownerAndPeer (δ := δ))) : List PeerTarget :=
  ((t.rows.filter fun d => among d && (pinnedIndex d).isSome).insertionSort
    fun d e => (pinnedIndex d).getD 0 ≤ (pinnedIndex e).getD 0).map fun d => (ownerAndPeer d).2

/-- `(max_index or -1) + 1`. -/
def nextIndex (indices : List Nat) : Nat :=
  match indices.max?.filter fun index => index != 0 with
  | some index => index + 1
  | none => 0

/-- `dialog.save(update_fields=["pinned_index"])`. -/
def save (t : Table (ownerAndPeer (δ := δ))) (k : Nat × PeerTarget) (index : Option Nat) :
    Table (ownerAndPeer (δ := δ)) :=
  t.modify (fun d => ownerAndPeer d = k) (place index) (ownerAndPeer_place index)

def namedPeers (userId : Nat) (order : List InputDialogPeer) : Except Failure (List PeerTarget) :=
  ((order.filterMap InputDialogPeer.inputPeer).mapM (typeAndIdFromInput userId)).map
    List.reduceOption

/-- What a reorder writes: a number for each of `pinnedAfter`, and none for the unpinned. -/
def renumber (t : Table (ownerAndPeer (δ := δ))) (userId : Nat)
    (toUnpin pinnedAfter : List PeerTarget) : Table (ownerAndPeer (δ := δ)) :=
  (t.modify (fun d => (ownerAndPeer d).1 = userId ∧ (ownerAndPeer d).2 ∈ toUnpin)
    (place none) (ownerAndPeer_place none)).modify
      (fun d => (ownerAndPeer d).1 = userId ∧ (ownerAndPeer d).2 ∈ pinnedAfter)
      (fun d => place (position pinnedAfter (ownerAndPeer d).2) d)
      (fun d => ownerAndPeer_place _ d)

/-- The body that `reorder_pinned_dialogs` and `reorder_pinned_saved_dialogs` share: `among` is
`base_dialog_query`, `fetch` is `get_from_input_peer_many`. -/
def reorderPinned (among : δ → Bool) (fetch : List PeerTarget → Except Failure (List PeerTarget))
    (t : Table (ownerAndPeer (δ := δ))) (userId : Nat) (order : List InputDialogPeer)
    (force : Bool) : Except Failure (Table (ownerAndPeer (δ := δ))) := do
  let pinned := pinnedNow among t
  let peers ← namedPeers userId order
  let fetched ← fetch (peers.filter fun p => p ∉ pinned)
  let named := peers.filter fun p => p ∈ pinned ++ fetched
  let pinnedAfter := named ++ if force then [] else pinned
  let toUnpin := if force then pinned.filter fun p => p ∉ named else []
  .ok (renumber t userId toUnpin pinnedAfter)

end Model

/-- The visible dialogs of the user in the folder. -/
def Dialog.inFolder (userId : Nat) (folder : DialogFolderId) (d : Dialog) : Bool :=
  d.ownerId = userId ∧ d.folderId = folder ∧ d.visible

def SavedDialog.ofUser (userId : Nat) (d : SavedDialog) : Bool := d.ownerId = userId

def Dialog.setVisible (visible : Bool) (d : Dialog) : Dialog := { d with visible := visible }

def Dialog.move (folder : DialogFolderId) (d : Dialog) : Dialog := { d with folderId := folder }

structure World where
  dialogs : Table (ownerAndPeer (δ := Dialog))
  savedDialogs : Table (ownerAndPeer (δ := SavedDialog))

namespace World

variable (w : World) (userId : Nat)

/-- `Dialog.get_from_input_peer`, for the type and the id of the input peer. -/
def visibleDialog (peer : PeerTarget) : Option Dialog :=
  (w.dialogs.get (userId, peer)).filter Dialog.visible

def toggleDialogPin (peer : InputDialogPeer) (pinned : Bool) : Except Failure World := do
  let input ← orRaise peer.inputPeer (.rpc 400 "PEER_ID_INVALID")
  let found ← typeAndIdFromInput userId input
  let target ← orRaise found (.rpc 400 "PEER_HISTORY_EMPTY")
  let dialog ← orRaise (w.visibleDialog userId target) (.rpc 400 "PEER_HISTORY_EMPTY")
  if dialog.pinnedIndex.isSome = pinned then .ok w
  else if pinned then do
    let index := nextIndex (indices (Dialog.inFolder userId dialog.folderId) w.dialogs)
    require (index ≤ 10) (.rpc 400 "PINNED_DIALOGS_TOO_MUCH")
    .ok { w with dialogs := save w.dialogs (userId, target) (some index) }
  else .ok { w with dialogs := save w.dialogs (userId, target) none }

/-- `Dialog.get_from_input_peer_many`: the folder of the dialogs does not matter. -/
def visibleDialogs (peers : List PeerTarget) : Except Failure (List PeerTarget) :=
  .ok (peers.filter fun p => (w.visibleDialog userId p).isSome)

def reorderPinnedDialogs (folderId : Int) (order : List InputDialogPeer) (force : Bool) :
    Except Failure World := do
  let folder ← orRaise (DialogFolderId.ofValue folderId) .other
  let dialogs ← reorderPinned (Dialog.inFolder userId folder) (w.visibleDialogs userId) w.dialogs
    userId order force
  .ok { w with dialogs }

/-- One assignment of `edit_peer_folders`. -/
def moveToFolder (dialogs : Table (ownerAndPeer (δ := Dialog)))
    (target : PeerTarget × DialogFolderId) : Table (ownerAndPeer (δ := Dialog)) :=
  dialogs.modify (fun d => ownerAndPeer d = (userId, target.1) ∧ d.visible) (Dialog.move target.2)
    fun _ => rfl

def peerFolders (folderPeers : List (InputPeer × Int)) :
    Except Failure (List (PeerTarget × DialogFolderId)) := do
  let folders ← folderPeers.mapM fun folderPeer =>
    orRaise (DialogFolderId.ofValue folderPeer.2) (.rpc 400 "FOLDER_ID_INVALID")
  let peers ← folderPeers.mapM fun folderPeer => typeAndIdFromInput userId folderPeer.1
  .ok ((peers.zip folders).filterMap fun target => target.1.map fun peer => (peer, target.2))

def editPeerFolders (folderPeers : List (InputPeer × Int)) : Except Failure World := do
  let targets ← peerFolders userId folderPeers
  .ok { w with dialogs := targets.foldl (moveToFolder userId) w.dialogs }

/-- `toggle_saved_dialog_pin`; `peer` is what `Peer.from_input_peer_raise` answers, when the request
names a peer. -/
def toggleSavedDialogPin (peer : Option (Except Failure PeerTarget)) (pinned : Bool) :
    Except Failure World := do
  let asked ← orRaise peer (.rpc 400 "PEER_HISTORY_EMPTY")
  let target ← asked
  let dialog ← orRaise (w.savedDialogs.get (userId, target)) (.rpc 400 "PEER_HISTORY_EMPTY")
  -- `bool(dialog.pinned_index)` is false for the index 0 as well
  if dialog.pinnedIndex.any (fun index => index != 0) = pinned then .ok w
  else
    let index := nextIndex (indices (SavedDialog.ofUser userId) w.savedDialogs)
    .ok { w with
      savedDialogs := save w.savedDialogs (userId, target) (if pinned then some index else none) }

/-- `SavedDialog.get_from_input_peer_many` filters by `visible`, which the model does not have. -/
def fetchSaved (peers : List PeerTarget) : Except Failure (List PeerTarget) :=
  if peers.isEmpty then .ok [] else .error .other

def reorderPinnedSavedDialogs (order : List InputDialogPeer) (force : Bool) :
    Except Failure World := do
  let savedDialogs ← reorderPinned (SavedDialog.ofUser userId) fetchSaved w.savedDialogs
    userId order force
  .ok { w with savedDialogs }

/-- `Dialog.create_or_unhide` and `Dialog.hide`. -/
def showDialog (peer : PeerTarget) (visible : Bool) : World :=
  { w with
    dialogs := w.dialogs.updateOrCreate ⟨⟨userId, peer, none⟩, .all, visible⟩
      (Dialog.setVisible visible) fun _ => rfl }

/-- `SavedDialog.get_or_create`. -/
def createSavedDialog (peer : PeerTarget) : World :=
  { w with savedDialogs := w.savedDialogs.insert ⟨⟨userId, peer, none⟩⟩ }

end World

/-- What happens to the dialogs. -/
inductive Event
  | toggleDialogPin (userId : Nat) (peer : InputDialogPeer) (pinned : Bool)
  | reorderPinnedDialogs (userId : Nat) (folderId : Int) (order : List InputDialogPeer)
      (force : Bool)
  | editPeerFolders (userId : Nat) (folderPeers : List (InputPeer × Int))
  | toggleSavedDialogPin (userId : Nat) (peer : Option (Except Failure PeerTarget))
      (pinned : Bool)
  | reorderPinnedSavedDialogs (userId : Nat) (order : List InputDialogPeer) (force : Bool)
  | showDialog (userId : Nat) (peer : PeerTarget) (visible : Bool)
  | createSavedDialog (userId : Nat) (peer : PeerTarget)

def World.handle (w : World) : Event → Except Failure World
  | .toggleDialogPin userId peer pinned => w.toggleDialogPin userId peer pinned
  | .reorderPinnedDialogs userId folderId order force =>
    w.reorderPinnedDialogs userId folderId order force
  | .editPeerFolders userId folderPeers => w.editPeerFolders userId folderPeers
  | .toggleSavedDialogPin userId peer pinned => w.toggleSavedDialogPin userId peer pinned
  | .reorderPinnedSavedDialogs userId order force =>
    w.reorderPinnedSavedDialogs userId order force
  | .showDialog userId peer visible => .ok (w.showDialog userId peer visible)
  | .createSavedDialog userId peer => .ok (w.createSavedDialog userId peer)

/-- A request that fails has written nothing. -/
def World.step (w : World) (event : Event) : Option World :=
  some ((w.handle event).toOption.getD w)

end Piltover.Dialogs
