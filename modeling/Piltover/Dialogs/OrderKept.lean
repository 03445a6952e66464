/- source: piltover/app/handlers/messages/dialogs.py,
     piltover/app/handlers/messages/saved_dialogs.py, piltover/db/models/dialog.py
   digest: The requests that keep the order of the pinned dialogs, and the runs of them. -/

import Piltover.Dialogs.PinnedOrder
import Piltover.Foundation.Runs

set_option autoImplicit false

namespace Piltover.Dialogs

open Piltover.Foundation
open Piltover.Foundation.Runs

/-- The pinned dialogs of every folder and the pinned saved dialogs of every user are ordered. -/
structure InOrder (limit savedLimit : Nat) (w : World) : Prop where
  dialogs : ∀ userId folder, Ordered (Dialog.inFolder userId folder) limit w.dialogs
  savedDialogs : ∀ userId, Ordered (SavedDialog.ofUser userId) savedLimit w.savedDialogs

def folderAfter (targets : List (PeerTarget × DialogFolderId)) (peer : PeerTarget)
    (folder : DialogFolderId) : DialogFolderId :=
  targets.foldl (fun folder target => if target.1 = peer then target.2 else folder) folder

def World.named (w : World) (userId : Nat) (peers : List PeerTarget) : List PeerTarget :=
  peers.filter fun p => (w.visibleDialog userId p).isSome

def World.namedSaved (w : World) (userId : Nat) (peers : List PeerTarget) : List PeerTarget :=
  peers.filter fun p => (w.savedDialogs.get (userId, p)).isSome

/-- No dialog is pinned while the greatest index is 0, no reorder names dialogs of other folders or
leaves two pinned dialogs unnamed, no pinned dialog changes its folder or is shown again, the saved
dialog with the index 0 is not unpinned, and no request pins more than the allowed number. -/
def Calm (limit savedLimit : Nat) (w : World) : Event → Prop
  | .toggleDialogPin userId peer pinned => ∀ d ∈ w.askedDialog userId peer, pinned = true →
      d.pinnedIndex = none →
      (indices (Dialog.inFolder userId d.folderId) w.dialogs).max? ≠ some 0 ∧
        (limit ≤ 10 → (indices (Dialog.inFolder userId d.folderId) w.dialogs).length < limit)
  | .reorderPinnedDialogs userId folderId order force =>
    ∀ folder ∈ DialogFolderId.ofValue folderId, ∀ peers ∈ (namedPeers userId order).toOption,
      (∀ p ∈ peers, ∀ d ∈ w.visibleDialog userId p, d.folderId = folder) ∧
      Manageable (Dialog.inFolder userId folder) limit w.dialogs (w.named userId peers) force
  | .editPeerFolders userId folderPeers =>
    ∀ targets ∈ (World.peerFolders userId folderPeers).toOption, ∀ d ∈ w.dialogs.rows,
      d.ownerId = userId → d.visible = true → d.pinnedIndex.isSome →
        folderAfter targets d.peer d.folderId = d.folderId
  | .toggleSavedDialogPin userId peer pinned => ∀ d ∈ w.askedSavedDialog userId peer,
      (pinned = false → d.pinnedIndex ≠ some 0) ∧
      (pinned = true → d.pinnedIndex = none →
        (indices (SavedDialog.ofUser userId) w.savedDialogs).max? ≠ some 0 ∧
          (indices (SavedDialog.ofUser userId) w.savedDialogs).length < savedLimit)
  | .reorderPinnedSavedDialogs userId order force =>
    ∀ peers ∈ (namedPeers userId order).toOption,
      Manageable (SavedDialog.ofUser userId) savedLimit w.savedDialogs
        (w.namedSaved userId peers) force
  | .showDialog userId peer visible => visible = true → ∀ d ∈ w.dialogs.get (userId, peer),
      d.visible = false → d.pinnedIndex = none
  | .createSavedDialog _ _ => True

/-- What a request that goes through does: what is newly pinned comes first, what is unpinned is not
pinned, and a reorder orders. -/
def Does (w : World) (event : Event) (v : World) : Prop :=
  w.handle event = .ok v → match event with
    | .toggleDialogPin userId peer pinned => ∀ d ∈ w.askedDialog userId peer,
        (pinned = true → d.pinnedIndex = none →
          First (Dialog.inFolder userId d.folderId) v.dialogs (ownerAndPeer d)) ∧
        (pinned = false → indexOf v.dialogs (ownerAndPeer d) = none)
    | .reorderPinnedDialogs userId folderId order force =>
      ∀ folder ∈ DialogFolderId.ofValue folderId, ∀ peers ∈ (namedPeers userId order).toOption,
        Reordered (Dialog.inFolder userId folder) userId (w.named userId peers) force
          w.dialogs v.dialogs
    | .toggleSavedDialogPin userId peer pinned => ∀ d ∈ w.askedSavedDialog userId peer,
        (pinned = true → d.pinnedIndex = none →
          First (SavedDialog.ofUser userId) v.savedDialogs (ownerAndPeer d)) ∧
        (pinned = false → indexOf v.savedDialogs (ownerAndPeer d) = none)
    | .reorderPinnedSavedDialogs userId order force =>
      ∀ peers ∈ (namedPeers userId order).toOption,
        Reordered (SavedDialog.ofUser userId) userId (w.namedSaved userId peers) force
          w.savedDialogs v.savedDialogs
    | _ => True

section Queries

theorem inFolder_iff {userId : Nat} {folder : DialogFolderId} {d : Dialog} :
    Dialog.inFolder userId folder d = true ↔
      d.ownerId = userId ∧ d.folderId = folder ∧ d.visible = true :=
  decide_eq_true_iff

theorem ofUser_iff {userId : Nat} {d : SavedDialog} :
    SavedDialog.ofUser userId d = true ↔ d.ownerId = userId :=
  decide_eq_true_iff

theorem inFolder_owns {userId : Nat} {folder : DialogFolderId} (d : Dialog)
    (asked : Dialog.inFolder userId folder d = true) : (ownerAndPeer d).1 = userId :=
  (inFolder_iff.mp asked).1

theorem ofUser_owns {userId : Nat} (d : SavedDialog) (asked : SavedDialog.ofUser userId d = true) :
    (ownerAndPeer d).1 = userId :=
  ofUser_iff.mp asked

theorem inFolder_blind (userId : Nat) (folder : DialogFolderId) (index : Option Nat) (d : Dialog) :
    Dialog.inFolder userId folder (DialogModel.place index d) = Dialog.inFolder userId folder d :=
  rfl

theorem ofUser_blind (userId : Nat) (index : Option Nat) (d : SavedDialog) :
    SavedDialog.ofUser userId (DialogModel.place index d) = SavedDialog.ofUser userId d :=
  rfl

theorem inFolder_apart {userId other : Nat} {folder folder' : DialogFolderId} {d : Dialog}
    (asked : Dialog.inFolder userId folder d = true)
    (differ : ¬ (userId = other ∧ folder = folder')) :
    Dialog.inFolder other folder' d = false := by
  rw [inFolder_iff] at asked
  rw [Bool.eq_false_iff, ne_eq, inFolder_iff]
  rintro ⟨owner, place, -⟩
  exact differ ⟨asked.1.symm.trans owner, asked.2.1.symm.trans place⟩

theorem ofUser_apart {userId other : Nat} {d : SavedDialog}
    (asked : SavedDialog.ofUser userId d = true) (differ : ¬ userId = other) :
    SavedDialog.ofUser other d = false := by
  rw [ofUser_iff] at asked
  rw [Bool.eq_false_iff, ne_eq, ofUser_iff]
  exact fun owner => differ (asked.symm.trans owner)

end Queries

section Toggling

variable {limit savedLimit userId : Nat} {w v : World}

theorem ordered_place {d : Dialog} {index : Option Nat}
    (found : w.dialogs.get (ownerAndPeer d) = some d) (visible : d.visible = true)
    (ordered : ∀ userId folder, Ordered (Dialog.inFolder userId folder) limit w.dialogs)
    (here : Ordered (Dialog.inFolder d.ownerId d.folderId) limit (w.place d index).dialogs)
    (userId : Nat) (folder : DialogFolderId) :
    Ordered (Dialog.inFolder userId folder) limit (w.place d index).dialogs := by
  by_cases same : d.ownerId = userId ∧ d.folderId = folder
  · obtain ⟨rfl, rfl⟩ := same
    exact here
  · have apart : Dialog.inFolder userId folder d = false :=
      inFolder_apart (inFolder_iff.mpr ⟨rfl, rfl, visible⟩) same
    exact (ordered userId folder).of_eq (indices_save_apart (inFolder_blind _ _) found apart index)

theorem ordered_placeSaved {d : SavedDialog} {index : Option Nat}
    (found : w.savedDialogs.get (ownerAndPeer d) = some d) (ordered : ∀ userId,
      Ordered (SavedDialog.ofUser userId) savedLimit w.savedDialogs)
    (here : Ordered (SavedDialog.ofUser d.ownerId) savedLimit (w.placeSaved d index).savedDialogs)
    (userId : Nat) :
    Ordered (SavedDialog.ofUser userId) savedLimit (w.placeSaved d index).savedDialogs := by
  by_cases same : d.ownerId = userId
  · subst same
    exact here
  · have apart : SavedDialog.ofUser userId d = false := ofUser_apart (ofUser_iff.mpr rfl) same
    exact (ordered userId).of_eq (indices_save_apart (ofUser_blind _) found apart index)

theorem inOrder_toggleDialogPin {peer : InputDialogPeer} {pinned : Bool}
    (inOrder : InOrder limit savedLimit w)
    (calm : Calm limit savedLimit w (.toggleDialogPin userId peer pinned))
    (done : w.toggleDialogPin userId peer pinned = .ok v) : InOrder limit savedLimit v := by
  obtain ⟨d, asked, found, key, visible, cases⟩ := toggleDialogPin_cases done
  obtain rfl : d.ownerId = userId := congrArg Prod.fst key
  have listed : Dialog.inFolder d.ownerId d.folderId d = true :=
    inFolder_iff.mpr ⟨rfl, rfl, visible⟩
  have ordered := inOrder.dialogs d.ownerId d.folderId
  have blind := inFolder_blind d.ownerId d.folderId
  rcases cases with ⟨-, rfl⟩ | ⟨rfl, free, checked, rfl⟩ | ⟨-, rfl⟩
  · exact inOrder
  · obtain ⟨fits, room⟩ := calm d asked rfl free
    refine ⟨ordered_place found visible inOrder.dialogs ⟨?_, ?_⟩, inOrder.savedDialogs⟩
    · exact nodup_pin blind found listed fits ordered.distinct
    · by_cases low : limit ≤ 10
      · have fewer : (indices (Dialog.inFolder d.ownerId d.folderId)
            (save w.dialogs (ownerAndPeer d) none)).length ≤ _ := indices_save_none.length_le
        have added := length_pin blind found listed
          (i := nextIndex (indices (Dialog.inFolder d.ownerId d.folderId) w.dialogs))
        exact added.le.trans (Nat.lt_of_le_of_lt fewer (room low))
      · have few := length_pin_le blind found listed fits ordered.distinct checked
        exact few.trans (by omega)
  · refine ⟨ordered_place found visible inOrder.dialogs ?_, inOrder.savedDialogs⟩
    exact ordered.of_sublist indices_save_none

theorem does_toggleDialogPin {peer : InputDialogPeer} {pinned : Bool}
    (calm : Calm limit savedLimit w (.toggleDialogPin userId peer pinned)) :
    Does w (.toggleDialogPin userId peer pinned) v := by
  intro done d asked
  obtain ⟨d', asked', found, key, visible, cases⟩ := toggleDialogPin_cases done
  obtain rfl : d = d' := Option.some.inj (asked.symm.trans asked')
  have there := indexOf_of_mem (Table.get_eq_some_iff.mp found).1
  refine ⟨?_, ?_⟩
  · rintro rfl free
    rcases cases with ⟨same, -⟩ | ⟨-, -, -, rfl⟩ | ⟨no, -⟩
    · rw [free] at same
      cases same
    · exact first_pin found (calm d asked rfl free).1
    · cases no
  · rintro rfl
    rcases cases with ⟨same, rfl⟩ | ⟨no, -⟩ | ⟨-, rfl⟩
    · rw [there, ← Option.not_isSome_iff_eq_none]
      exact Bool.eq_false_iff.mp same
    · cases no
    · exact indexOf_save found none

theorem inOrder_toggleSavedDialogPin {peer : Option (Except Failure PeerTarget)} {pinned : Bool}
    (inOrder : InOrder limit savedLimit w)
    (calm : Calm limit savedLimit w (.toggleSavedDialogPin userId peer pinned))
    (done : w.toggleSavedDialogPin userId peer pinned = .ok v) : InOrder limit savedLimit v := by
  obtain ⟨d, asked, found, key, cases⟩ := toggleSavedDialogPin_cases done
  obtain rfl : d.ownerId = userId := congrArg Prod.fst key
  have listed : SavedDialog.ofUser d.ownerId d = true := ofUser_iff.mpr rfl
  have ordered := inOrder.savedDialogs d.ownerId
  have blind := ofUser_blind d.ownerId
  rcases cases with ⟨-, rfl⟩ | ⟨rfl, index, rfl⟩ | ⟨-, rfl⟩
  · exact inOrder
  · refine ⟨inOrder.dialogs, ordered_placeSaved found inOrder.savedDialogs ?_⟩
    have added := length_pin blind found listed
      (i := nextIndex (indices (SavedDialog.ofUser d.ownerId) w.savedDialogs))
    rcases index with free | first
    · obtain ⟨fits, room⟩ := (calm d asked).2 rfl free
      have fewer : (indices (SavedDialog.ofUser d.ownerId)
          (save w.savedDialogs (ownerAndPeer d) none)).length ≤ _ := indices_save_none.length_le
      exact ⟨nodup_pin blind found listed fits ordered.distinct,
        added.le.trans (Nat.lt_of_le_of_lt fewer room)⟩
    · -- a dialog that is first already gets its index anew
      by_cases fits : (indices (SavedDialog.ofUser d.ownerId) w.savedDialogs).max? = some 0
      · have same : nextIndex (indices (SavedDialog.ofUser d.ownerId) w.savedDialogs) = 0 := by
          rw [nextIndex, fits]
          rfl
        have unchanged := indices_save_same blind found
        have isFirst : pinnedIndex d = some 0 := first
        rw [isFirst] at unchanged
        rw [same]
        exact ordered.of_eq unchanged
      · refine ⟨nodup_pin blind found listed fits ordered.distinct, ?_⟩
        have before := length_save_none blind found listed first
        exact (added.trans before.symm).le.trans ordered.allowed
  · refine ⟨inOrder.dialogs, ordered_placeSaved found inOrder.savedDialogs ?_⟩
    exact ordered.of_sublist indices_save_none

theorem does_toggleSavedDialogPin {peer : Option (Except Failure PeerTarget)} {pinned : Bool}
    (calm : Calm limit savedLimit w (.toggleSavedDialogPin userId peer pinned)) :
    Does w (.toggleSavedDialogPin userId peer pinned) v := by
  intro done d asked
  obtain ⟨d', asked', found, key, cases⟩ := toggleSavedDialogPin_cases done
  obtain rfl : d = d' := Option.some.inj (asked.symm.trans asked')
  have there := indexOf_of_mem (Table.get_eq_some_iff.mp found).1
  refine ⟨?_, ?_⟩
  · rintro rfl free
    rcases cases with ⟨same, -⟩ | ⟨-, -, rfl⟩ | ⟨no, -⟩
    · rw [free] at same
      cases same
    · exact first_pin found ((calm d asked).2 rfl free).1
    · cases no
  · rintro rfl
    rcases cases with ⟨same, rfl⟩ | ⟨no, -⟩ | ⟨-, rfl⟩
    · rw [there]
      cases index : d.pinnedIndex with
      | none => exact index
      | some i =>
        rw [index, Option.any_some, bne_eq_false_iff_eq] at same
        exact absurd (index.trans (congrArg some same)) ((calm d asked).1 rfl)
    · cases no
    · exact indexOf_save found none

end Toggling

section Reordering

variable {limit savedLimit userId : Nat} {w v : World} {order : List InputDialogPeer}
  {force : Bool}

theorem named_eq {folder : DialogFolderId} (peers : List PeerTarget) :
    (peers.filter fun p => p ∈ pinnedNow (Dialog.inFolder userId folder) w.dialogs ++
      (peers.filter fun p => p ∉ pinnedNow (Dialog.inFolder userId folder) w.dialogs).filter
        fun p => (w.visibleDialog userId p).isSome) = w.named userId peers := by
  refine List.filter_congr fun p listed => ?_
  rw [Bool.eq_iff_iff, decide_eq_true_eq, List.mem_append, List.mem_filter, List.mem_filter,
    decide_eq_true_eq]
  constructor
  · rintro (now | fetched)
    · obtain ⟨d, here, asked, -, rfl⟩ := mem_pinnedNow.mp now
      obtain ⟨rfl, -, visible⟩ := inFolder_iff.mp asked
      have found : w.dialogs.get (d.ownerId, d.peer) = some d := Table.mem_iff_get.mp here
      show (w.visibleDialog d.ownerId d.peer).isSome = true
      rw [World.visibleDialog, found, Option.filter_some, if_pos visible]
      rfl
    · exact fetched.2
  · intro there
    by_cases now : p ∈ pinnedNow (Dialog.inFolder userId folder) w.dialogs
    · exact .inl now
    · exact .inr ⟨⟨listed, by simpa using now⟩, there⟩

theorem reorderPinnedDialogs_cases {folderId : Int}
    (done : w.reorderPinnedDialogs userId folderId order force = .ok v) :
    ∃ folder peers, DialogFolderId.ofValue folderId = some folder ∧
      (namedPeers userId order).toOption = some peers ∧
      v.dialogs = reordered (Dialog.inFolder userId folder) w.dialogs userId
        (w.named userId peers) force ∧ v.savedDialogs = w.savedDialogs := by
  unfold World.reorderPinnedDialogs at done
  obtain ⟨folder, known, done⟩ := orRaise_bind_eq_ok.mp done
  obtain ⟨dialogs, reorder, done⟩ := (bind_eq_ok _).mp done
  obtain ⟨peers, fetched, listed, there, _, rfl, rfl⟩ := reorderPinned_eq_ok.mp reorder
  cases there
  cases done
  refine ⟨folder, peers, known, by rw [listed]; rfl, ?_, rfl⟩
  rw [named_eq]

theorem reorderPinnedSavedDialogs_cases
    (done : w.reorderPinnedSavedDialogs userId order force = .ok v) :
    ∃ peers, (namedPeers userId order).toOption = some peers ∧
      v.savedDialogs = reordered (SavedDialog.ofUser userId) w.savedDialogs userId
        (w.namedSaved userId peers) force ∧ v.dialogs = w.dialogs := by
  unfold World.reorderPinnedSavedDialogs at done
  obtain ⟨savedDialogs, reorder, done⟩ := (bind_eq_ok _).mp done
  obtain ⟨peers, fetched, listed, there, named, names, rfl⟩ := reorderPinned_eq_ok.mp reorder
  cases done
  refine ⟨peers, by rw [listed]; rfl, ?_, rfl⟩
  suffices same : named = w.namedSaved userId peers by rw [same]
  -- where a peer has to be fetched the request fails
  have none : (peers.filter fun p =>
      p ∉ pinnedNow (SavedDialog.ofUser userId) w.savedDialogs) = [] := by
    rw [World.fetchSaved] at there
    split at there
    · next empty => exact List.isEmpty_iff.mp empty
    · cases there
  rw [List.filter_eq_nil_iff] at none
  rw [names, World.namedSaved]
  refine List.filter_congr fun p listed => ?_
  have now : p ∈ pinnedNow (SavedDialog.ofUser userId) w.savedDialogs := by
    simpa using none p listed
  obtain ⟨d, here, asked, -, rfl⟩ := mem_pinnedNow.mp now
  have found : w.savedDialogs.get (userId, d.peer) = some d :=
    Table.get_eq_some_iff.mpr ⟨here, Prod.ext (ofUser_iff.mp asked) rfl⟩
  have isSaved : (w.savedDialogs.get (userId, (ownerAndPeer d).2)).isSome = true :=
    Option.isSome_iff_exists.mpr ⟨d, found⟩
  rw [isSaved, decide_eq_true (List.mem_append_left _ now)]

theorem named_within {folder : DialogFolderId} {peers : List PeerTarget}
    (placed : ∀ p ∈ peers, ∀ d ∈ w.visibleDialog userId p, d.folderId = folder)
    (p : PeerTarget) (named : p ∈ w.named userId peers) :
    ∃ d ∈ w.dialogs, ownerAndPeer d = (userId, p) ∧ Dialog.inFolder userId folder d = true := by
  obtain ⟨listed, there⟩ := List.mem_filter.mp named
  obtain ⟨d, shown⟩ := Option.isSome_iff_exists.mp there
  obtain ⟨found, visible⟩ := visibleDialog_eq_some shown
  obtain ⟨here, key⟩ := Table.get_eq_some_iff.mp found
  exact ⟨d, here, key, inFolder_iff.mpr
    ⟨congrArg Prod.fst key, placed p listed d shown, visible⟩⟩

theorem namedSaved_within {peers : List PeerTarget} (p : PeerTarget)
    (named : p ∈ w.namedSaved userId peers) :
    ∃ d ∈ w.savedDialogs, ownerAndPeer d = (userId, p) ∧ SavedDialog.ofUser userId d = true := by
  obtain ⟨d, found⟩ := Option.isSome_iff_exists.mp (List.mem_filter.mp named).2
  obtain ⟨here, key⟩ := Table.get_eq_some_iff.mp found
  exact ⟨d, here, key, ofUser_iff.mpr (congrArg Prod.fst key)⟩

theorem inOrder_reorderPinnedDialogs {folderId : Int} (inOrder : InOrder limit savedLimit w)
    (calm : Calm limit savedLimit w (.reorderPinnedDialogs userId folderId order force))
    (done : w.reorderPinnedDialogs userId folderId order force = .ok v) :
    InOrder limit savedLimit v := by
  obtain ⟨folder, peers, known, listed, dialogs, saved⟩ := reorderPinnedDialogs_cases done
  obtain ⟨placed, -, few⟩ := calm folder known peers listed
  refine ⟨fun other folder' => ?_, saved ▸ inOrder.savedDialogs⟩
  rw [dialogs]
  by_cases same : userId = other ∧ folder = folder'
  · obtain ⟨rfl, rfl⟩ := same
    exact ordered_reordered inFolder_owns (inFolder_blind _ _) few
  · refine (inOrder.dialogs other folder').of_eq (indices_renumber (inFolder_blind _ _) ?_
      fun d asked => inFolder_apart asked same)
    exact asked_of_touched inFolder_owns (named_within placed)

theorem inOrder_reorderPinnedSavedDialogs (inOrder : InOrder limit savedLimit w)
    (calm : Calm limit savedLimit w (.reorderPinnedSavedDialogs userId order force))
    (done : w.reorderPinnedSavedDialogs userId order force = .ok v) :
    InOrder limit savedLimit v := by
  obtain ⟨peers, listed, savedDialogs, dialogs⟩ := reorderPinnedSavedDialogs_cases done
  obtain ⟨-, few⟩ := calm peers listed
  refine ⟨dialogs ▸ inOrder.dialogs, fun other => ?_⟩
  rw [savedDialogs]
  by_cases same : userId = other
  · subst same
    exact ordered_reordered ofUser_owns (ofUser_blind _) few
  · refine (inOrder.savedDialogs other).of_eq (indices_renumber (ofUser_blind _) ?_ fun d asked =>
      ofUser_apart asked same)
    exact asked_of_touched ofUser_owns namedSaved_within

theorem does_reorderPinnedDialogs {folderId : Int}
    (calm : Calm limit savedLimit w (.reorderPinnedDialogs userId folderId order force)) :
    Does w (.reorderPinnedDialogs userId folderId order force) v := by
  intro done folder known peers listed
  obtain ⟨folder', peers', known', listed', dialogs, -⟩ := reorderPinnedDialogs_cases done
  obtain rfl : folder = folder' := Option.some.inj (known.symm.trans known')
  obtain rfl : peers = peers' := Option.some.inj (listed.symm.trans listed')
  obtain ⟨placed, alone, -⟩ := calm folder known peers listed
  rw [dialogs]
  exact reordered_spec inFolder_owns (named_within placed) (inFolder_blind _ _) alone

theorem does_reorderPinnedSavedDialogs
    (calm : Calm limit savedLimit w (.reorderPinnedSavedDialogs userId order force)) :
    Does w (.reorderPinnedSavedDialogs userId order force) v := by
  intro done peers listed
  obtain ⟨peers', listed', savedDialogs, -⟩ := reorderPinnedSavedDialogs_cases done
  obtain rfl : peers = peers' := Option.some.inj (listed.symm.trans listed')
  rw [savedDialogs]
  exact reordered_spec ofUser_owns namedSaved_within (ofUser_blind _) (calm peers listed).1

end Reordering

section Placing

variable {limit savedLimit userId : Nat} {w v : World}

/-- What the assignments of a request make of a dialog. -/
def moved (userId : Nat) (targets : List (PeerTarget × DialogFolderId)) (d : Dialog) : Dialog :=
  if d.ownerId = userId ∧ d.visible = true then d.move (folderAfter targets d.peer d.folderId)
  else d

theorem moved_cons {target : PeerTarget × DialogFolderId}
    {targets : List (PeerTarget × DialogFolderId)} (d : Dialog) :
    moved userId (target :: targets) d =
      moved userId targets (if ownerAndPeer d = (userId, target.1) ∧ d.visible = true then
        d.move target.2 else d) := by
  by_cases owned : d.ownerId = userId ∧ d.visible = true
  · by_cases named : target.1 = d.peer
    · have chosen : ownerAndPeer d = (userId, target.1) ∧ d.visible = true :=
        ⟨Prod.ext owned.1 named.symm, owned.2⟩
      have still : (d.move target.2).ownerId = userId ∧ (d.move target.2).visible = true := owned
      rw [if_pos chosen, moved, if_pos owned, moved, if_pos still, folderAfter, List.foldl_cons,
        if_pos named]
      rfl
    · have unchosen : ¬ (ownerAndPeer d = (userId, target.1) ∧ d.visible = true) :=
        fun both => named (congrArg Prod.snd both.1).symm
      rw [if_neg unchosen, moved, if_pos owned, moved, if_pos owned, folderAfter, List.foldl_cons,
        if_neg named]
      rfl
  · have unchosen : ¬ (ownerAndPeer d = (userId, target.1) ∧ d.visible = true) :=
      fun both => owned ⟨congrArg Prod.fst both.1, both.2⟩
    rw [if_neg unchosen, moved, if_neg owned, moved, if_neg owned]

theorem rows_moved (targets : List (PeerTarget × DialogFolderId))
    (t : Table (ownerAndPeer (δ := Dialog))) :
    (targets.foldl (World.moveToFolder userId) t).rows = t.rows.map (moved userId targets) := by
  induction targets generalizing t with
  | nil =>
    have still : moved userId [] = id := by
      funext d
      rw [moved]
      split <;> rfl
    rw [still, List.map_id]
    rfl
  | cons target targets ih =>
    rw [List.foldl_cons, ih]
    show (List.map _ t.rows).map _ = _
    rw [List.map_map]
    refine List.map_congr_left fun d _ => ?_
    rw [Function.comp_apply, moved_cons]
    simp only [decide_eq_true_eq]

theorem inOrder_editPeerFolders {folderPeers : List (InputPeer × Int)}
    (inOrder : InOrder limit savedLimit w)
    (calm : Calm limit savedLimit w (.editPeerFolders userId folderPeers))
    (done : w.editPeerFolders userId folderPeers = .ok v) : InOrder limit savedLimit v := by
  unfold World.editPeerFolders at done
  obtain ⟨targets, named, done⟩ := (bind_eq_ok _).mp done
  cases done
  have stays := calm targets (by rw [named]; rfl)
  refine ⟨fun other folder => ?_, inOrder.savedDialogs⟩
  refine (inOrder.dialogs other folder).of_sublist (indices_sublist (rows_moved targets _) ?_)
  intro d here asked pinned
  have still : moved userId targets d = d := by
    rw [moved] at pinned ⊢
    split
    · next owned =>
        rw [if_pos owned] at pinned
        rw [stays d here owned.1 owned.2 pinned]
        rfl
    · rfl
  rw [still] at asked ⊢
  exact ⟨asked, rfl⟩

theorem inOrder_showDialog {peer : PeerTarget} {visible : Bool}
    (inOrder : InOrder limit savedLimit w)
    (calm : Calm limit savedLimit w (.showDialog userId peer visible)) :
    InOrder limit savedLimit (w.showDialog userId peer visible) := by
  refine ⟨fun other folder => ?_, inOrder.savedDialogs⟩
  unfold World.showDialog Table.updateOrCreate
  split
  · refine (inOrder.dialogs other folder).of_sublist (indices_sublist rfl ?_)
    intro d here asked pinned
    split at asked
    · next chosen =>
        rw [if_pos chosen] at pinned ⊢
        obtain ⟨owner, place, shown⟩ := inFolder_iff.mp asked
        refine ⟨inFolder_iff.mpr ⟨owner, place, ?_⟩, rfl⟩
        have found : w.dialogs.get (userId, peer) = some d :=
          Table.get_eq_some_iff.mpr ⟨here, of_decide_eq_true chosen⟩
        by_contra hidden
        have free := calm shown d found (by simpa using hidden)
        have index : d.pinnedIndex.isSome = true := pinned
        rw [free] at index
        cases index
    · next other =>
        rw [if_neg other]
        exact ⟨asked, rfl⟩
  · exact (inOrder.dialogs other folder).of_eq (indices_insert rfl)

theorem inOrder_createSavedDialog {peer : PeerTarget} (inOrder : InOrder limit savedLimit w) :
    InOrder limit savedLimit (w.createSavedDialog userId peer) :=
  ⟨inOrder.dialogs, fun other => (inOrder.savedDialogs other).of_eq (indices_insert rfl)⟩

end Placing

section Runs

variable {limit savedLimit : Nat} {w v : World}

/-- No dialog is pinned. -/
def Unpinned (w : World) : Prop :=
  (∀ d ∈ w.dialogs, d.pinnedIndex = none) ∧ ∀ d ∈ w.savedDialogs, d.pinnedIndex = none

theorem ordered_of_free {δ : Type} [DialogModel δ] {among : δ → Bool}
    {t : Table (ownerAndPeer (δ := δ))} (free : ∀ d ∈ t, pinnedIndex d = none) :
    Ordered among limit t := by
  have none : indices among t = [] := by
    rw [List.eq_nil_iff_forall_not_mem]
    intro i listed
    obtain ⟨d, here, -, index⟩ := mem_indices.mp listed
    rw [free d here] at index
    cases index
  exact ⟨none ▸ List.nodup_nil, by rw [none]; exact Nat.zero_le _⟩

theorem handle_of_step {event : Event} (happens : w.step event = some v) :
    w.handle event = .ok v ∨ v = w := by
  rw [World.step] at happens
  cases handled : w.handle event with
  | error failure =>
    rw [handled] at happens
    exact .inr (Option.some.inj happens).symm
  | ok after =>
    rw [handled] at happens
    cases happens
    exact .inl rfl

theorem inOrder_step {event : Event} (inOrder : InOrder limit savedLimit w)
    (calm : Calm limit savedLimit w event) (happens : w.step event = some v) :
    InOrder limit savedLimit v := by
  rcases handle_of_step happens with handled | rfl
  · cases event with
    | toggleDialogPin userId peer pinned => exact inOrder_toggleDialogPin inOrder calm handled
    | reorderPinnedDialogs userId folderId order force =>
      exact inOrder_reorderPinnedDialogs inOrder calm handled
    | editPeerFolders userId folderPeers => exact inOrder_editPeerFolders inOrder calm handled
    | toggleSavedDialogPin userId peer pinned =>
      exact inOrder_toggleSavedDialogPin inOrder calm handled
    | reorderPinnedSavedDialogs userId order force =>
      exact inOrder_reorderPinnedSavedDialogs inOrder calm handled
    | showDialog userId peer visible =>
      cases handled
      exact inOrder_showDialog inOrder calm
    | createSavedDialog userId peer =>
      cases handled
      exact inOrder_createSavedDialog inOrder
  · exact inOrder

theorem does_of_calm {event : Event} (calm : Calm limit savedLimit w event) : Does w event v := by
  cases event with
  | toggleDialogPin userId peer pinned => exact does_toggleDialogPin calm
  | reorderPinnedDialogs userId folderId order force => exact does_reorderPinnedDialogs calm
  | editPeerFolders userId folderPeers => exact fun _ => trivial
  | toggleSavedDialogPin userId peer pinned => exact does_toggleSavedDialogPin calm
  | reorderPinnedSavedDialogs userId order force => exact does_reorderPinnedSavedDialogs calm
  | showDialog userId peer visible => exact fun _ => trivial
  | createSavedDialog userId peer => exact fun _ => trivial

/-- In a run of calm requests the indices are an order in every state, for any allowed numbers, and
every request does what it is for. -/
theorem pinned_order_kept (limit savedLimit : Nat) {w : World} {events : List Event}
    (start : Unpinned w) (calm : StepsMeet World.step (Calm limit savedLimit) w events) :
    HoldsAlong World.step (InOrder limit savedLimit) w events ∧
      EachStep World.step Does w events := by
  have first : InOrder limit savedLimit w :=
    ⟨fun _ _ => ordered_of_free start.1, fun _ => ordered_of_free start.2⟩
  have keep : ∀ s e t, InOrder limit savedLimit s → Calm limit savedLimit s e →
      World.step s e = some t → InOrder limit savedLimit t :=
    fun _ _ _ inOrder calm happens => inOrder_step inOrder calm happens
  exact ⟨holdsAlong_of_stepsMeet (fun _ inOrder => inOrder) keep first calm,
    eachStep_of_stepsMeet keep (fun _ _ _ _ calm _ => does_of_calm calm) first calm⟩

end Runs

section Samples

instance (limit savedLimit : Nat) (w : World) : ∀ event, Decidable (Calm limit savedLimit w event)
  | .toggleDialogPin userId peer pinned =>
    inferInstanceAs (Decidable (∀ d ∈ w.askedDialog userId peer, pinned = true → _ → _))
  | .reorderPinnedDialogs userId folderId order _ =>
    inferInstanceAs (Decidable (∀ folder ∈ DialogFolderId.ofValue folderId,
      ∀ peers ∈ (namedPeers userId order).toOption, _ ∧ _))
  | .editPeerFolders userId folderPeers =>
    inferInstanceAs (Decidable (∀ targets ∈ (World.peerFolders userId folderPeers).toOption,
      ∀ d ∈ w.dialogs.rows, _ → _ → _ → _))
  | .toggleSavedDialogPin userId peer _ =>
    inferInstanceAs (Decidable (∀ d ∈ w.askedSavedDialog userId peer, _ ∧ _))
  | .reorderPinnedSavedDialogs userId order _ =>
    inferInstanceAs (Decidable (∀ peers ∈ (namedPeers userId order).toOption, _))
  | .showDialog userId peer visible =>
    inferInstanceAs (Decidable (visible = true → ∀ d ∈ w.dialogs.get (userId, peer), _ → _))
  | .createSavedDialog _ _ => inferInstanceAs (Decidable True)

private def shelf : World where
  dialogs := ⟨[⟨⟨1, .user 2, none⟩, .all, true⟩, ⟨⟨1, .user 3, none⟩, .all, true⟩,
    ⟨⟨1, .chat 5, none⟩, .archive, true⟩], by decide⟩
  savedDialogs := ⟨[⟨⟨1, .self, none⟩⟩, ⟨⟨1, .user 2, none⟩⟩], by decide⟩

private theorem shelf_unpinned : Unpinned shelf := by
  have free : (∀ d ∈ shelf.dialogs.rows, d.pinnedIndex = none) ∧
      ∀ d ∈ shelf.savedDialogs.rows, d.pinnedIndex = none := by decide
  exact free

/-- Two dialogs are pinned with a reorder between them, and one of them is unpinned and archived. -/
private def tidy : List Event :=
  [.toggleDialogPin 1 (.peer (.user 2 true)) true,
    .reorderPinnedDialogs 1 0 [.peer (.user 2 true), .folder 1, .peer (.user 9 false)] false,
    .toggleDialogPin 1 (.peer (.user 3 true)) true, .toggleDialogPin 1 (.peer (.user 2 true)) false,
    .editPeerFolders 1 [(.user 2 true, 1)], .toggleSavedDialogPin 1 (some (.ok .self)) true,
    .reorderPinnedSavedDialogs 1 [.peer .self] true]

example : (runFrom World.step shelf (tidy.take 3)).map (fun w =>
    w.dialogs.rows.map pinnedIndex) = some [some 1, some 2, none] := by decide +kernel

theorem tidy_ordered : HoldsAlong World.step (InOrder 5 5) shelf tidy ∧
    EachStep World.step Does shelf tidy :=
  pinned_order_kept 5 5 shelf_unpinned (by decide +kernel)

/-- The second of two pinned dialogs gets the index of the first. -/
theorem pinned_alike : ¬ ∀ (w : World) (events : List Event), Unpinned w →
    HoldsAlong World.step (fun v => ∀ userId folder,
      (indices (Dialog.inFolder userId folder) v.dialogs).Nodup) w events := by
  intro all
  have distinct := all shelf [.toggleDialogPin 1 (.peer (.user 2 true)) true,
    .toggleDialogPin 1 (.peer (.user 3 true)) true] shelf_unpinned _ _ (List.prefix_refl _) rfl
  have alike : [0, 0].Nodup := distinct 1 .all
  exact absurd alike (by decide)

end Samples

end Piltover.Dialogs
