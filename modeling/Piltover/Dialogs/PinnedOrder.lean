/- source: piltover/app/handlers/messages/dialogs.py,
     piltover/app/handlers/messages/saved_dialogs.py
   digest: When the indices of the pinned dialogs are an order, and what the requests do to it. -/

import Piltover.Dialogs.Pinning

set_option autoImplicit false

namespace Piltover.Dialogs

open Piltover.Foundation

section Model

variable {δ : Type} [DialogModel δ] {among : δ → Bool} {t u : Table (ownerAndPeer (δ := δ))}

open DialogModel

def indexOf (t : Table (ownerAndPeer (δ := δ))) (k : Nat × PeerTarget) : Option Nat :=
  (t.get k).bind pinnedIndex

/-- The indices of the pinned dialogs are distinct, and no more than allowed. -/
structure Ordered (among : δ → Bool) (limit : Nat) (t : Table (ownerAndPeer (δ := δ))) : Prop where
  distinct : (indices among t).Nodup
  allowed : (indices among t).length ≤ limit

/-- Both dialogs are pinned, and the first of them comes before the other. -/
def Above (t : Table (ownerAndPeer (δ := δ))) (k l : Nat × PeerTarget) : Prop :=
  ∃ i j, indexOf t k = some i ∧ indexOf t l = some j ∧ j < i

/-- The dialog is pinned, and comes before all others that the query is about. -/
def First (among : δ → Bool) (t : Table (ownerAndPeer (δ := δ))) (k : Nat × PeerTarget) : Prop :=
  (indexOf t k).isSome ∧ ∀ e ∈ t, among e = true → ownerAndPeer e ≠ k → (pinnedIndex e).isSome →
    Above t k (ownerAndPeer e)

/-- What a reorder is for: the named dialogs come first and in the order of their names, the others
stay as they were, or are unpinned when that is forced. -/
structure Reordered (among : δ → Bool) (userId : Nat) (named : List PeerTarget) (force : Bool)
    (t u : Table (ownerAndPeer (δ := δ))) : Prop where
  inOrder : ∀ p q, Leads named p q → q ∈ named → Above u (userId, p) (userId, q)
  pinned : ∀ p ∈ named, (indexOf u (userId, p)).isSome
  first : ∀ p ∈ named, ∀ e ∈ u, among e = true → (ownerAndPeer e).2 ∉ named →
    (pinnedIndex e).isSome → Above u (userId, p) (ownerAndPeer e)
  kept : force = false → ∀ d ∈ t, among d = true → (pinnedIndex d).isSome →
    (indexOf u (ownerAndPeer d)).isSome
  relative : force = false → ∀ d ∈ t, ∀ e ∈ t, among d = true → among e = true →
    (ownerAndPeer d).2 ∉ named → (ownerAndPeer e).2 ∉ named →
    Above t (ownerAndPeer d) (ownerAndPeer e) → Above u (ownerAndPeer d) (ownerAndPeer e)
  unpinned : force = true → ∀ e ∈ u, among e = true → (ownerAndPeer e).2 ∉ named →
    pinnedIndex e = none

theorem indexOf_of_mem {d : δ} (here : d ∈ t) : indexOf t (ownerAndPeer d) = pinnedIndex d := by
  rw [indexOf, Table.mem_iff_get.mp here, Option.bind_some]

theorem above_of_mem {d e : δ} (here : d ∈ t) (there : e ∈ t) :
    Above t (ownerAndPeer d) (ownerAndPeer e) ↔
      ∃ i j, pinnedIndex d = some i ∧ pinnedIndex e = some j ∧ j < i := by
  rw [Above, indexOf_of_mem here, indexOf_of_mem there]

theorem mem_indices {i : Nat} :
    i ∈ indices among t ↔ ∃ d ∈ t, among d = true ∧ pinnedIndex d = some i := by
  simp only [indices, List.mem_filterMap, List.mem_filter, Table.mem_def, and_assoc]

theorem mem_pinnedNow {p : PeerTarget} :
    p ∈ pinnedNow among t ↔
      ∃ d ∈ t, among d = true ∧ (pinnedIndex d).isSome ∧ (ownerAndPeer d).2 = p := by
  simp only [pinnedNow, List.mem_map, List.mem_insertionSort, List.mem_filter, Bool.and_eq_true,
    Table.mem_def, and_assoc]

/-- The index of a row, when the query is about it. -/
private def shown (among : δ → Bool) (d : δ) : Option Nat :=
  if among d then pinnedIndex d else none

private theorem indices_eq : indices among t = t.rows.filterMap (shown among) := by
  rw [indices, List.filterMap_filter]
  rfl

omit [DialogModel δ] in
private theorem filterMap_sublist {f g : δ → Option Nat} {l : List δ}
    (fewer : ∀ d ∈ l, f d = none ∨ f d = g d) : (l.filterMap f).Sublist (l.filterMap g) := by
  induction l with
  | nil => exact List.Sublist.refl _
  | cons d l ih =>
    have rest := ih fun e later => fewer e (List.mem_cons_of_mem d later)
    rcases fewer d List.mem_cons_self with gone | same
    · rw [List.filterMap_cons_none gone, List.filterMap_cons]
      split
      · exact rest
      · exact rest.cons _
    · rw [List.filterMap_cons, List.filterMap_cons, same]
      split
      · exact rest
      · exact rest.cons_cons _

private theorem eq_of_alone {l : List PeerTarget} (alone : l.length ≤ 1) {p q : PeerTarget}
    (one : p ∈ l) (other : q ∈ l) : p = q := by
  obtain ⟨i, here, rfl⟩ := List.getElem_of_mem one
  obtain ⟨j, there, rfl⟩ := List.getElem_of_mem other
  obtain rfl : i = j := by omega
  rfl

theorem indices_sublist {change : δ → δ} (rows : u.rows = t.rows.map change)
    (fewer : ∀ d ∈ t, among (change d) = true → (pinnedIndex (change d)).isSome →
      among d = true ∧ pinnedIndex (change d) = pinnedIndex d) :
    (indices among u).Sublist (indices among t) := by
  rw [indices_eq, indices_eq, rows, List.filterMap_map]
  refine filterMap_sublist fun d here => ?_
  rw [Function.comp_apply, shown]
  by_cases asked : among (change d) = true
  · rw [if_pos asked]
    cases index : pinnedIndex (change d) with
    | none => exact .inl rfl
    | some i =>
      obtain ⟨before, same⟩ := fewer d here asked (by rw [index]; rfl)
      rw [shown, if_pos before, ← same, index]
      exact .inr rfl
  · exact .inl (if_neg asked)

theorem indices_insert {d : δ} (free : pinnedIndex d = none) :
    indices among (t.insert d) = indices among t := by
  unfold Table.insert
  split
  · have last : shown among d = none := by rw [shown, free, ite_self]
    rw [indices_eq, indices_eq, List.filterMap_append, List.filterMap_cons_none last,
      List.filterMap_nil, List.append_nil]
  · rfl

theorem Ordered.of_sublist {limit : Nat} (ordered : Ordered among limit t)
    (fewer : (indices among u).Sublist (indices among t)) : Ordered among limit u :=
  ⟨ordered.distinct.sublist fewer, fewer.length_le.trans ordered.allowed⟩

theorem Ordered.of_eq {limit : Nat} (ordered : Ordered among limit t)
    (same : indices among u = indices among t) : Ordered among limit u :=
  ⟨same ▸ ordered.distinct, same ▸ ordered.allowed⟩

theorem nodup_indices (apart : ∀ d ∈ t, ∀ e ∈ t, among d = true → among e = true →
    ∀ i, pinnedIndex d = some i → pinnedIndex e = some i → d = e) : (indices among t).Nodup := by
  have rows : (t.rows.filter among).Nodup := (List.Nodup.of_map _ t.unique).filter _
  rw [indices, List.Nodup, List.pairwise_filterMap]
  refine rows.pairwise_of_forall_ne fun d here e there different i one j other same => ?_
  rw [List.mem_filter] at here there
  subst same
  exact different (apart d here.1 e there.1 here.2 there.2 i one other)

theorem indices_modify {check : δ → Bool} {change : δ → δ}
    {keeps : ∀ d, ownerAndPeer (change d) = ownerAndPeer d}
    (unseen : ∀ d ∈ t, check d = true → among d = false ∧ among (change d) = false) :
    indices among (t.modify check change keeps) = indices among t := by
  rw [indices_eq, indices_eq, Table.modify, List.filterMap_map]
  refine List.filterMap_congr fun d here => ?_
  rw [Function.comp_apply]
  split
  · next chosen =>
      obtain ⟨before, after⟩ := unseen d here chosen
      rw [shown, shown, if_neg (by simp [after]), if_neg (by simp [before])]
  · rfl

section Saving

variable (blind : ∀ (index : Option Nat) (d : δ), among (place index d) = among d)
variable {k : Nat × PeerTarget}

theorem get_save (index : Option Nat) (l : Nat × PeerTarget) :
    (save t k index).get l = if k = l then (t.get l).map (place index) else t.get l := by
  rw [save, Table.get_modify]
  cases found : t.get l with
  | none => rw [Option.map_none, Option.map_none, ite_self]
  | some d =>
    obtain ⟨-, rfl⟩ := Table.get_eq_some_iff.mp found
    by_cases same : ownerAndPeer d = k
    · simp [same]
    · have apart : ¬ k = ownerAndPeer d := fun eq => same eq.symm
      simp [same, apart]

theorem indexOf_save {d : δ} (found : t.get k = some d) (index : Option Nat) :
    indexOf (save t k index) k = index := by
  rw [indexOf, get_save, if_pos rfl, found, Option.map_some, Option.bind_some, pinnedIndex_place]

include blind in
theorem indices_save_apart {d : δ} (found : t.get k = some d) (apart : among d = false)
    (index : Option Nat) : indices among (save t k index) = indices among t := by
  refine indices_modify fun e here chosen => ?_
  obtain ⟨there, rfl⟩ := Table.get_eq_some_iff.mp found
  obtain rfl := Table.eq_of_key_eq here there (of_decide_eq_true chosen)
  exact ⟨apart, by rw [blind, apart]⟩

theorem indices_save_none : (indices among (save t k none)).Sublist (indices among t) := by
  rw [indices_eq, indices_eq, save, Table.modify, List.filterMap_map]
  refine filterMap_sublist fun d _ => ?_
  rw [Function.comp_apply]
  split
  · exact .inl (by rw [shown, pinnedIndex_place, ite_self])
  · exact .inr rfl

include blind in
theorem indices_save_some {d : δ} (found : t.get k = some d) (asked : among d = true)
    (free : pinnedIndex d = none) (i : Nat) :
    (indices among (save t k (some i))).Perm (i :: indices among t) := by
  obtain ⟨here, rfl⟩ := Table.get_eq_some_iff.mp found
  obtain ⟨front, back, split⟩ := List.append_of_mem (Table.mem_def.mp here)
  have keys := t.unique
  rw [split, List.map_append, List.map_cons, List.nodup_middle, List.nodup_cons,
    ← List.map_append] at keys
  have others : ∀ e ∈ front ++ back, ownerAndPeer e ≠ ownerAndPeer d := by
    intro e listed same
    exact keys.1 (same ▸ List.mem_map_of_mem listed)
  have same : ∀ l : List δ, (∀ e ∈ l, e ∈ front ++ back) →
      l.filterMap (shown among ∘ fun e => if ownerAndPeer e = ownerAndPeer d then
        place (some i) e else e) = l.filterMap (shown among) := by
    intro l within
    refine List.filterMap_congr fun e listed => ?_
    rw [Function.comp_apply, if_neg (others e (within e listed))]
  have placed : shown among (place (some i) d) = some i := by
    rw [shown, blind, if_pos asked, pinnedIndex_place]
  have unplaced : shown among d = none := by rw [shown, if_pos asked, free]
  rw [indices_eq, indices_eq, save, Table.modify]
  simp only [List.filterMap_map, decide_eq_true_eq, split]
  rw [List.filterMap_append, List.filterMap_cons,
    same front fun e listed => List.mem_append_left _ listed,
    same back fun e listed => List.mem_append_right _ listed, Function.comp_apply, if_pos rfl,
    placed, List.filterMap_append, List.filterMap_cons, unplaced]
  exact List.perm_middle

include blind in
theorem indices_save_same {d : δ} (found : t.get k = some d) :
    indices among (save t k (pinnedIndex d)) = indices among t := by
  obtain ⟨here, rfl⟩ := Table.get_eq_some_iff.mp found
  rw [indices_eq, indices_eq, save, Table.modify, List.filterMap_map]
  refine List.filterMap_congr fun e there => ?_
  rw [Function.comp_apply]
  split
  · next same =>
      obtain rfl := Table.eq_of_key_eq there here (of_decide_eq_true same)
      rw [shown, shown, blind, pinnedIndex_place]
  · rfl

theorem indices_save_save (blind : ∀ (index : Option Nat) (d : δ), among (place index d) = among d)
    (first second : Option Nat) :
    indices among (save (save t k first) k second) = indices among (save t k second) := by
  rw [indices_eq, indices_eq]
  show (List.map _ (List.map _ t.rows)).filterMap _ = (List.map _ t.rows).filterMap _
  rw [List.map_map, List.filterMap_map, List.filterMap_map]
  refine List.filterMap_congr fun d _ => ?_
  simp only [Function.comp_apply, decide_eq_true_eq]
  by_cases same : ownerAndPeer d = k
  · rw [if_pos same, if_pos same, if_pos ((ownerAndPeer_place first d).trans same), shown, shown]
    simp only [blind, pinnedIndex_place]
  · rw [if_neg same, if_neg same]

end Saving

theorem lt_nextIndex {numbers : List Nat} (fits : numbers.max? ≠ some 0) {i : Nat}
    (listed : i ∈ numbers) : i < nextIndex numbers := by
  rw [nextIndex]
  cases greatest : numbers.max? with
  | none =>
    rw [List.max?_eq_none_iff.mp greatest] at listed
    cases listed
  | some m =>
    have positive : m ≠ 0 := fun zero => fits (by rw [greatest, zero])
    have bounded : i ≤ m := (List.max?_eq_some_iff.mp greatest).2 i listed
    rw [Option.filter_some, if_pos (by simp [positive])]
    exact Nat.lt_succ_of_le bounded

section Renumbering

variable {userId : Nat} {toUnpin pinnedAfter : List PeerTarget}

/-- What becomes of a row: it is numbered, unpinned or left as it is. -/
def renumbered (userId : Nat) (toUnpin pinnedAfter : List PeerTarget) (d : δ) : δ :=
  if (ownerAndPeer d).1 = userId then
    if (ownerAndPeer d).2 ∈ pinnedAfter then place (position pinnedAfter (ownerAndPeer d).2)
      (if (ownerAndPeer d).2 ∈ toUnpin then place none d else d)
    else if (ownerAndPeer d).2 ∈ toUnpin then place none d else d
  else d

theorem ownerAndPeer_renumbered (d : δ) :
    ownerAndPeer (renumbered userId toUnpin pinnedAfter d) = ownerAndPeer d := by
  unfold renumbered
  split_ifs <;> simp only [ownerAndPeer_place]

theorem rows_renumber :
    (renumber t userId toUnpin pinnedAfter).rows =
      t.rows.map (renumbered userId toUnpin pinnedAfter) := by
  show List.map _ (List.map _ t.rows) = _
  rw [List.map_map]
  refine List.map_congr_left fun d _ => ?_
  rw [Function.comp_apply, renumbered]
  by_cases own : (ownerAndPeer d).1 = userId <;>
    by_cases gone : (ownerAndPeer d).2 ∈ toUnpin <;>
    by_cases listed : (ownerAndPeer d).2 ∈ pinnedAfter <;>
    simp [own, gone, listed]

theorem mem_renumber {e : δ} :
    e ∈ renumber t userId toUnpin pinnedAfter ↔
      ∃ d ∈ t, renumbered userId toUnpin pinnedAfter d = e := by
  rw [Table.mem_def, rows_renumber, List.mem_map]
  rfl

variable (owns : ∀ d : δ, among d = true → (ownerAndPeer d).1 = userId)
variable (blind : ∀ (index : Option Nat) (d : δ), among (place index d) = among d)

include blind in
theorem among_renumbered (d : δ) :
    among (renumbered userId toUnpin pinnedAfter d) = among d := by
  unfold renumbered
  split_ifs <;> simp only [blind]

include owns blind in
theorem pinnedIndex_of_mem_renumber
    (covered : ∀ p ∈ pinnedNow among t, p ∈ toUnpin ∨ p ∈ pinnedAfter) {e : δ}
    (here : e ∈ renumber t userId toUnpin pinnedAfter) (asked : among e = true) :
    pinnedIndex e = position pinnedAfter (ownerAndPeer e).2 := by
  obtain ⟨d, listed, rfl⟩ := mem_renumber.mp here
  rw [among_renumbered blind] at asked
  rw [ownerAndPeer_renumbered, renumbered, if_pos (owns d asked)]
  split_ifs with numbered gone gone
  · exact pinnedIndex_place _ _
  · exact pinnedIndex_place _ _
  · rw [pinnedIndex_place, position_eq_none.mpr numbered]
  · rw [position_eq_none.mpr numbered, ← Option.not_isSome_iff_eq_none]
    intro pinned
    have now : (ownerAndPeer d).2 ∈ pinnedNow among t :=
      mem_pinnedNow.mpr ⟨d, listed, asked, pinned, rfl⟩
    exact (covered _ now).elim gone numbered

include blind in
theorem indices_renumber {other : δ → Bool}
    (found : ∀ p, p ∈ toUnpin ∨ p ∈ pinnedAfter → ∀ d ∈ t, ownerAndPeer d = (userId, p) →
      among d = true)
    (apart : ∀ d, among d = true → other d = false) :
    indices other (renumber t userId toUnpin pinnedAfter) = indices other t := by
  rw [indices_eq, indices_eq, rows_renumber, List.filterMap_map]
  refine List.filterMap_congr fun d here => ?_
  rw [Function.comp_apply]
  by_cases touched : (ownerAndPeer d).1 = userId ∧
      ((ownerAndPeer d).2 ∈ toUnpin ∨ (ownerAndPeer d).2 ∈ pinnedAfter)
  · have asked := found _ touched.2 d here (Prod.ext touched.1 rfl)
    have after : among (renumbered userId toUnpin pinnedAfter d) = true := by
      rw [among_renumbered blind, asked]
    rw [shown, shown, if_neg (by simp [apart _ after]), if_neg (by simp [apart _ asked])]
  · congr 1
    unfold renumbered
    split_ifs with own numbered gone gone
    · exact absurd ⟨own, .inr numbered⟩ touched
    · exact absurd ⟨own, .inr numbered⟩ touched
    · exact absurd ⟨own, .inl gone⟩ touched
    · rfl
    · rfl

end Renumbering

section Reordering

variable {userId : Nat} {named : List PeerTarget} {force : Bool}

/-- The dialogs that are pinned after a reorder, those to come first at the head. -/
def pinnedAfter (among : δ → Bool) (t : Table (ownerAndPeer (δ := δ))) (named : List PeerTarget)
    (force : Bool) : List PeerTarget :=
  named ++ if force then [] else pinnedNow among t

def toUnpin (among : δ → Bool) (t : Table (ownerAndPeer (δ := δ))) (named : List PeerTarget)
    (force : Bool) : List PeerTarget :=
  if force then (pinnedNow among t).filter fun p => p ∉ named else []

def reordered (among : δ → Bool) (t : Table (ownerAndPeer (δ := δ))) (userId : Nat)
    (named : List PeerTarget) (force : Bool) : Table (ownerAndPeer (δ := δ)) :=
  renumber t userId (toUnpin among t named force) (pinnedAfter among t named force)

/-- No two pinned dialogs are left where they are, and not too many will be pinned. -/
def Manageable (among : δ → Bool) (limit : Nat) (t : Table (ownerAndPeer (δ := δ)))
    (named : List PeerTarget) (force : Bool) : Prop :=
  (force = false → ((pinnedNow among t).filter fun p => p ∉ named).length ≤ 1) ∧
    (pinnedAfter among t named force).dedup.length ≤ limit

instance (among : δ → Bool) (limit : Nat) (t : Table (ownerAndPeer (δ := δ)))
    (named : List PeerTarget) (force : Bool) : Decidable (Manageable among limit t named force) :=
  inferInstanceAs (Decidable (_ ∧ _))

theorem reorderPinned_eq_ok {fetch : List PeerTarget → Except Failure (List PeerTarget)}
    {order : List InputDialogPeer} :
    reorderPinned among fetch t userId order force = .ok u ↔
      ∃ peers fetched, namedPeers userId order = .ok peers ∧
        fetch (peers.filter fun p => p ∉ pinnedNow among t) = .ok fetched ∧
        ∃ named, named = (peers.filter fun p => p ∈ pinnedNow among t ++ fetched) ∧
          u = reordered among t userId named force := by
  rw [reorderPinned]
  constructor
  · intro done
    obtain ⟨peers, listed, done⟩ := (bind_eq_ok _).mp done
    obtain ⟨fetched, there, done⟩ := (bind_eq_ok _).mp done
    exact ⟨peers, fetched, listed, there, _, rfl, (Except.ok.inj done).symm⟩
  · rintro ⟨peers, fetched, listed, there, _, rfl, rfl⟩
    refine (bind_eq_ok _).mpr ⟨peers, listed, ?_⟩
    exact (bind_eq_ok _).mpr ⟨fetched, there, rfl⟩

theorem covered (p : PeerTarget) (now : p ∈ pinnedNow among t) :
    p ∈ toUnpin among t named force ∨ p ∈ pinnedAfter among t named force := by
  rw [toUnpin, pinnedAfter]
  cases force with
  | false => exact .inr (List.mem_append_right _ now)
  | true =>
    by_cases listed : p ∈ named
    · exact .inr (List.mem_append_left _ listed)
    · exact .inl (List.mem_filter.mpr ⟨now, by simpa using listed⟩)

variable (owns : ∀ d : δ, among d = true → (ownerAndPeer d).1 = userId)
variable (within : ∀ p ∈ named, ∃ d ∈ t, ownerAndPeer d = (userId, p) ∧ among d = true)

include owns within in
theorem found (p : PeerTarget)
    (touched : p ∈ toUnpin among t named force ∨ p ∈ pinnedAfter among t named force) :
    ∃ d ∈ t, ownerAndPeer d = (userId, p) ∧ among d = true := by
  have ofPinned : p ∈ pinnedNow among t → ∃ d ∈ t, ownerAndPeer d = (userId, p) ∧
      among d = true := by
    intro now
    obtain ⟨d, here, asked, -, rfl⟩ := mem_pinnedNow.mp now
    exact ⟨d, here, Prod.ext (owns d asked) rfl, asked⟩
  rw [toUnpin, pinnedAfter] at touched
  cases force with
  | false =>
    rcases touched with none | listed
    · cases none
    · exact (List.mem_append.mp listed).elim (within p) ofPinned
  | true =>
    rcases touched with gone | listed
    · exact ofPinned (List.mem_of_mem_filter gone)
    · rw [if_pos rfl, List.append_nil] at listed
      exact within p listed

include owns within in
theorem asked_of_touched (p : PeerTarget)
    (touched : p ∈ toUnpin among t named force ∨ p ∈ pinnedAfter among t named force) (d : δ)
    (here : d ∈ t) (key : ownerAndPeer d = (userId, p)) : among d = true := by
  obtain ⟨e, there, key', asked⟩ := found owns within p touched
  obtain rfl := Table.eq_of_key_eq here there (key.trans key'.symm)
  exact asked

variable (blind : ∀ (index : Option Nat) (d : δ), among (place index d) = among d)

include owns blind in
theorem pinnedIndex_reordered {e : δ} (here : e ∈ reordered among t userId named force)
    (asked : among e = true) :
    pinnedIndex e = position (pinnedAfter among t named force) (ownerAndPeer e).2 :=
  pinnedIndex_of_mem_renumber owns blind covered here asked

include owns within blind in
theorem indexOf_reordered {p : PeerTarget} (listed : p ∈ pinnedAfter among t named force) :
    indexOf (reordered among t userId named force) (userId, p) =
      position (pinnedAfter among t named force) p := by
  obtain ⟨d, here, key, asked⟩ := found owns within p (.inr listed)
  have after : renumbered userId (toUnpin among t named force) (pinnedAfter among t named force) d ∈
      reordered among t userId named force := mem_renumber.mpr ⟨d, here, rfl⟩
  have same := indexOf_of_mem after
  rw [pinnedIndex_reordered owns blind after ((among_renumbered blind d).trans asked),
    ownerAndPeer_renumbered, key] at same
  exact same

include owns within blind in
theorem above_reordered {p q : PeerTarget} (leads : Leads (pinnedAfter among t named force) p q)
    (listed : q ∈ pinnedAfter among t named force) :
    Above (reordered among t userId named force) (userId, p) (userId, q) := by
  obtain ⟨i, higher⟩ := exists_position leads.1
  obtain ⟨j, lower⟩ := exists_position listed
  refine ⟨i, j, ?_, ?_, position_lt_of_leads leads higher lower⟩
  · rw [indexOf_reordered owns within blind leads.1, higher]
  · rw [indexOf_reordered owns within blind listed, lower]

include owns blind in
theorem ordered_reordered {limit : Nat}
    (few : (pinnedAfter among t named force).dedup.length ≤ limit) :
    Ordered among limit (reordered among t userId named force) := by
  have distinct : (indices among (reordered among t userId named force)).Nodup := by
    refine nodup_indices fun d here e there asked asked' i one other => ?_
    rw [pinnedIndex_reordered owns blind here asked] at one
    rw [pinnedIndex_reordered owns blind there asked'] at other
    refine Table.eq_of_key_eq here there (Prod.ext ?_ (position_injective one other))
    rw [owns d asked, owns e asked']
  refine ⟨distinct, le_trans ?_ few⟩
  have inside : indices among (reordered among t userId named force) ⊆
      (pinnedAfter among t named force).dedup.filterMap
        (position (pinnedAfter among t named force)) := by
    intro i listed
    obtain ⟨e, here, asked, pinned⟩ := mem_indices.mp listed
    rw [pinnedIndex_reordered owns blind here asked] at pinned
    refine List.mem_filterMap.mpr ⟨_, List.mem_dedup.mpr ?_, pinned⟩
    exact position_isSome.mp (by rw [pinned]; rfl)
  exact (List.subperm_of_subset distinct inside).length_le.trans (List.length_filterMap_le _ _)

include owns within blind in
theorem reordered_spec
    (alone : force = false → ((pinnedNow among t).filter fun p => p ∉ named).length ≤ 1) :
    Reordered among userId named force t (reordered among t userId named force) := by
  have listedAfter : ∀ p ∈ named, p ∈ pinnedAfter among t named force := fun p listed =>
    List.mem_append_left _ listed
  have key : ∀ e, among e = true → ownerAndPeer e = (userId, (ownerAndPeer e).2) :=
    fun e asked => Prod.ext (owns e asked) rfl
  have stays : force = false → ∀ d ∈ t, among d = true → (pinnedIndex d).isSome →
      (ownerAndPeer d).2 ∈ pinnedAfter among t named force := by
    rintro rfl d here asked pinned
    exact List.mem_append_right _ (mem_pinnedNow.mpr ⟨d, here, asked, pinned, rfl⟩)
  constructor
  case inOrder =>
    intro p q leads listed
    exact above_reordered owns within blind (leads_append_left _ leads listed)
      (listedAfter q listed)
  case pinned =>
    intro p listed
    rw [indexOf_reordered owns within blind (listedAfter p listed)]
    exact position_isSome.mpr (listedAfter p listed)
  case first =>
    intro p listed e here asked unnamed pinned
    rw [pinnedIndex_reordered owns blind here asked, position_isSome] at pinned
    rw [key e asked]
    exact above_reordered owns within blind (leads_append listed unnamed) pinned
  case kept =>
    intro unforced d here asked pinned
    have after := stays unforced d here asked pinned
    rw [key d asked, indexOf_reordered owns within blind after]
    exact position_isSome.mpr after
  case relative =>
    -- there is at most one dialog that is pinned and not named
    intro unforced d here e there asked asked' unnamed unnamed' above
    obtain ⟨i, j, one, other, less⟩ := (above_of_mem here there).mp above
    have listed : ∀ d ∈ t, among d = true → (ownerAndPeer d).2 ∉ named →
        (pinnedIndex d).isSome →
        (ownerAndPeer d).2 ∈ (pinnedNow among t).filter fun p => p ∉ named := by
      intro d here asked unnamed pinned
      exact List.mem_filter.mpr ⟨mem_pinnedNow.mpr ⟨d, here, asked, pinned, rfl⟩,
        by simpa using unnamed⟩
    have same := eq_of_alone (alone unforced)
      (listed d here asked unnamed (by rw [one]; rfl))
      (listed e there asked' unnamed' (by rw [other]; rfl))
    have equal : d = e := Table.eq_of_key_eq here there
      (Prod.ext ((owns d asked).trans (owns e asked').symm) same)
    rw [equal, other] at one
    cases one
    exact absurd less (Nat.lt_irrefl _)
  case unpinned =>
    rintro rfl e here asked unnamed
    rw [pinnedIndex_reordered owns blind here asked, position_eq_none, pinnedAfter, if_pos rfl,
      List.append_nil]
    exact unnamed

end Reordering

section Pinning

variable {limit : Nat} {k : Nat × PeerTarget} {d : δ}
variable (blind : ∀ (index : Option Nat) (d : δ), among (place index d) = among d)
variable (found : t.get k = some d) (asked : among d = true)
variable (fits : (indices among t).max? ≠ some 0)

include blind found asked in
theorem indices_pin (i : Nat) :
    (indices among (save t k (some i))).Perm (i :: indices among (save t k none)) := by
  have after : (save t k none).get k = some (place none d) := by
    rw [get_save, if_pos rfl, found, Option.map_some]
  rw [← indices_save_save blind none (some i)]
  exact indices_save_some blind after (by rw [blind, asked]) (pinnedIndex_place _ _) i

include blind found asked fits in
theorem nodup_pin (distinct : (indices among t).Nodup) :
    (indices among (save t k (some (nextIndex (indices among t))))).Nodup := by
  have fewer : (indices among (save t k none)).Sublist (indices among t) := indices_save_none
  rw [(indices_pin blind found asked _).nodup_iff, List.nodup_cons]
  refine ⟨fun listed => ?_, distinct.sublist fewer⟩
  exact Nat.lt_irrefl _ (lt_nextIndex fits (fewer.subset listed))

include blind found asked in
theorem length_pin {i : Nat} :
    (indices among (save t k (some i))).length = (indices among (save t k none)).length + 1 := by
  rw [(indices_pin blind found asked i).length_eq, List.length_cons]

include blind found asked in
theorem length_save_none {i : Nat} (pinned : pinnedIndex d = some i) :
    (indices among t).length = (indices among (save t k none)).length + 1 := by
  rw [← indices_save_same blind found, pinned, length_pin blind found asked]

include blind found asked fits in
theorem length_pin_le (distinct : (indices among t).Nodup) {bound : Nat}
    (checked : nextIndex (indices among t) ≤ bound) :
    (indices among (save t k (some (nextIndex (indices among t))))).length ≤ bound + 1 := by
  refine length_le_of_bounded (nodup_pin blind found asked fits distinct) fun i listed => ?_
  rw [(indices_pin blind found asked _).mem_iff, List.mem_cons] at listed
  rcases listed with rfl | listed
  · exact Nat.lt_succ_of_le checked
  · have below := lt_nextIndex fits (indices_save_none.subset listed)
    omega

include found fits in
theorem first_pin : First among (save t k (some (nextIndex (indices among t)))) k := by
  have placed := indexOf_save found (some (nextIndex (indices among t)))
  refine ⟨by rw [placed]; rfl, fun e here asked' apart pinned => ?_⟩
  obtain ⟨j, index⟩ := Option.isSome_iff_exists.mp pinned
  have old : e ∈ t := by
    rw [Table.mem_iff_get, get_save, if_neg fun same => apart same.symm] at here
    exact Table.mem_iff_get.mpr here
  refine ⟨_, j, placed, ?_, ?_⟩
  · rw [indexOf_of_mem here, index]
  · exact lt_nextIndex fits (mem_indices.mpr ⟨e, old, asked', index⟩)

end Pinning

end Model

section Toggling

variable {w v : World} {userId : Nat}

def World.askedDialog (w : World) (userId : Nat) (peer : InputDialogPeer) : Option Dialog :=
  peer.inputPeer.bind fun input => (typeAndIdFromInput userId input).toOption.join.bind
    (w.visibleDialog userId)

def World.askedSavedDialog (w : World) (userId : Nat) (peer : Option (Except Failure PeerTarget)) :
    Option SavedDialog :=
  (peer.bind Except.toOption).bind fun target => w.savedDialogs.get (userId, target)

def World.place (w : World) (d : Dialog) (index : Option Nat) : World :=
  { w with dialogs := save w.dialogs (ownerAndPeer d) index }

def World.placeSaved (w : World) (d : SavedDialog) (index : Option Nat) : World :=
  { w with savedDialogs := save w.savedDialogs (ownerAndPeer d) index }

theorem visibleDialog_eq_some {target : PeerTarget} {d : Dialog}
    (found : w.visibleDialog userId target = some d) :
    w.dialogs.get (userId, target) = some d ∧ d.visible = true :=
  Option.filter_eq_some_iff.mp found

theorem toggleDialogPin_cases {peer : InputDialogPeer} {pinned : Bool}
    (done : w.toggleDialogPin userId peer pinned = .ok v) :
    ∃ d, w.askedDialog userId peer = some d ∧
      w.dialogs.get (ownerAndPeer d) = some d ∧ ownerAndPeer d = (userId, d.peer) ∧
      d.visible = true ∧
      (d.pinnedIndex.isSome = pinned ∧ v = w ∨
        pinned = true ∧ d.pinnedIndex = none ∧
          nextIndex (indices (Dialog.inFolder userId d.folderId) w.dialogs) ≤ 10 ∧
          v = w.place d (some (nextIndex
            (indices (Dialog.inFolder userId d.folderId) w.dialogs))) ∨
        pinned = false ∧ v = w.place d none) := by
  unfold World.toggleDialogPin at done
  obtain ⟨input, named, done⟩ := orRaise_bind_eq_ok.mp done
  obtain ⟨resolved, known, done⟩ := (bind_eq_ok _).mp done
  obtain ⟨target, isTarget, done⟩ := orRaise_bind_eq_ok.mp done
  obtain ⟨d, found, done⟩ := orRaise_bind_eq_ok.mp done
  obtain ⟨there, shown⟩ := visibleDialog_eq_some found
  have key := (Table.get_eq_some_iff.mp there).2
  have peerIs : target = d.peer := (congrArg Prod.snd key).symm
  refine ⟨d, ?_, by rw [key, there], by rw [key, peerIs], shown, ?_⟩
  · rw [World.askedDialog, named, Option.bind_some, known, isTarget]
    exact found
  rw [← key] at done
  split at done
  · next same =>
      cases done
      exact .inl ⟨same, rfl⟩
  next different =>
  split at done
  · next asked =>
      obtain ⟨fits, done⟩ := check_bind_eq_ok.mp done
      rw [require_eq_ok, decide_eq_true_eq] at fits
      cases done
      subst asked
      refine .inr (.inl ⟨rfl, ?_, fits, rfl⟩)
      rwa [Bool.not_eq_true, Option.isSome_eq_false_iff, Option.isNone_iff_eq_none] at different
  · next unasked =>
      cases done
      exact .inr (.inr ⟨by simpa using unasked, rfl⟩)

theorem toggleSavedDialogPin_cases {peer : Option (Except Failure PeerTarget)} {pinned : Bool}
    (done : w.toggleSavedDialogPin userId peer pinned = .ok v) :
    ∃ d, w.askedSavedDialog userId peer = some d ∧
      w.savedDialogs.get (ownerAndPeer d) = some d ∧ ownerAndPeer d = (userId, d.peer) ∧
      (d.pinnedIndex.any (fun index => index != 0) = pinned ∧ v = w ∨
        pinned = true ∧ (d.pinnedIndex = none ∨ d.pinnedIndex = some 0) ∧
          v = w.placeSaved d (some (nextIndex
            (indices (SavedDialog.ofUser userId) w.savedDialogs))) ∨
        pinned = false ∧ v = w.placeSaved d none) := by
  unfold World.toggleSavedDialogPin at done
  obtain ⟨asked, named, done⟩ := orRaise_bind_eq_ok.mp done
  obtain ⟨target, known, done⟩ := (bind_eq_ok _).mp done
  obtain ⟨d, found, done⟩ := orRaise_bind_eq_ok.mp done
  have key := (Table.get_eq_some_iff.mp found).2
  have peerIs : target = d.peer := (congrArg Prod.snd key).symm
  refine ⟨d, ?_, by rw [key, found], by rw [key, peerIs], ?_⟩
  · rw [World.askedSavedDialog, named, Option.bind_some, known]
    exact found
  rw [← key] at done
  split at done
  · next same =>
      cases done
      exact .inl ⟨same, rfl⟩
  next different =>
  cases done
  cases pinned with
  | false => exact .inr (.inr ⟨rfl, rfl⟩)
  | true =>
    refine .inr (.inl ⟨rfl, ?_, rfl⟩)
    cases index : d.pinnedIndex with
    | none => exact .inl rfl
    | some i =>
      rw [index, Option.any_some, bne_iff_ne, ne_eq, not_not] at different
      exact .inr (congrArg some different)

end Toggling

end Piltover.Dialogs
