/- source: none (library)
   digest: Pages of a table in the order of a key, and what the last row of a page says. -/

import Mathlib.Algebra.Order.Ring.Int
import Mathlib.Data.List.Sort

set_option autoImplicit false

namespace Piltover.Foundation.Paging

universe u v

variable {α : Type u}

/-! ### Sorting -/

section

variable {r : α → α → Prop} [DecidableRel r]

private theorem orderedInsert_of_forall {a : α} {l : List α} (first : ∀ b ∈ l, r a b) :
    l.orderedInsert r a = a :: l := by
  cases l with
  | nil => rfl
  | cons b l => exact if_pos (first b List.mem_cons_self)

private theorem filter_orderedInsert [IsTrans α r] (p : α → Bool) (a : α) {l : List α}
    (sorted : l.Pairwise r) : (l.orderedInsert r a).filter p =
      if p a then (l.filter p).orderedInsert r a else l.filter p := by
  induction l with
  | nil => cases here : p a <;> simp [here]
  | cons b l ih =>
    obtain ⟨least, later⟩ := List.pairwise_cons.mp sorted
    rw [List.orderedInsert_cons]
    by_cases before : r a b
    · have first : ∀ c ∈ (b :: l).filter p, r a c := by
        intro c listed
        rcases List.mem_cons.mp (List.mem_of_mem_filter listed) with rfl | listed
        · exact before
        · exact trans_of r before (least c listed)
      rw [if_pos before, List.filter_cons, orderedInsert_of_forall first]
    · rw [if_neg before, List.filter_cons, List.filter_cons, ih later]
      by_cases kept : p b = true
      · rw [if_pos kept, if_pos kept, List.orderedInsert_cons, if_neg before]
        split <;> rfl
      · rw [if_neg kept, if_neg kept]

theorem insertionSort_congr {r' : α → α → Prop} [DecidableRel r']
    (same : ∀ a b, r a b ↔ r' a b) (l : List α) : l.insertionSort r = l.insertionSort r' := by
  obtain rfl : r = r' := funext fun a => funext fun b => propext (same a b)
  congr

/-- Sorting keeps the order of what is equal, so that it does not matter whether one sorts or
filters first. -/
theorem filter_insertionSort [IsTrans α r] [Std.Total r] (p : α → Bool) (l : List α) :
    (l.insertionSort r).filter p = (l.filter p).insertionSort r := by
  induction l with
  | nil => rfl
  | cons a l ih =>
    rw [List.insertionSort_cons, filter_orderedInsert p a (List.pairwise_insertionSort r l), ih,
      List.filter_cons]
    split <;> rfl

end

/-! ### Reversed lists -/

theorem reverse_eq_self_iff {l : List α} (distinct : l.Nodup) :
    l.reverse = l ↔ l.length ≤ 1 := by
  constructor
  · intro same
    cases l with
    | nil => exact Nat.zero_le 1
    | cons a rest =>
      by_cases more : rest = []
      · rw [more]
        exact Nat.le_refl 1
      · have last := congrArg List.head? same
        rw [List.head?_reverse, List.getLast?_cons_of_ne_nil more, List.head?_cons] at last
        exact absurd (List.mem_of_getLast? last) (List.nodup_cons.mp distinct).1
  · intro short
    rcases Nat.le_one_iff_eq_zero_or_eq_one.mp short with none | one
    · rw [List.length_eq_zero_iff.mp none]
      rfl
    · obtain ⟨a, rfl⟩ := List.length_eq_one_iff.mp one
      rfl

/-! ### Pages -/

/-- The rows whose key is after `after` and at most `upTo`, ordered by the key, `limit` of them at
most. -/
def page (key : α → Int) (rows : List α) (after upTo : Int) (limit : Nat) : List α :=
  ((rows.filter fun r => after < key r ∧ key r ≤ upTo).insertionSort
    fun a b => key a ≤ key b).take limit

variable {key : α → Int} {rows : List α} {after upTo : Int} {limit : Nat}

private theorem mem_sorted {r : α} :
    (r ∈ (rows.filter fun r => after < key r ∧ key r ≤ upTo).insertionSort
      fun a b => key a ≤ key b) ↔ r ∈ rows ∧ after < key r ∧ key r ≤ upTo := by
  rw [List.mem_insertionSort, List.mem_filter, decide_eq_true_iff]

theorem mem_of_mem_page {r : α} (mem : r ∈ page key rows after upTo limit) :
    r ∈ rows ∧ after < key r ∧ key r ≤ upTo :=
  mem_sorted.mp (List.mem_of_mem_take mem)

theorem page_eq_nil_iff (asked : 0 < limit) :
    page key rows after upTo limit = [] ↔ ∀ r ∈ rows, after < key r → upTo < key r := by
  rw [page, List.take_eq_nil_iff]
  constructor
  · rintro (none_asked | nothing) r mem later
    · omega
    · by_contra within
      have listed := mem_sorted.mpr ⟨mem, later, not_lt.mp within⟩
      rw [nothing] at listed
      cases listed
  · intro beyond
    refine .inr (List.eq_nil_iff_forall_not_mem.mpr fun r listed => ?_)
    obtain ⟨mem, later, within⟩ := mem_sorted.mp listed
    have := beyond r mem later
    omega

section Orders

variable {κ : Type v} [LinearOrder κ] (rank : α → κ)

instance total_rank : Std.Total fun a b : α => rank a ≤ rank b :=
  ⟨fun a b => le_total (rank a) (rank b)⟩

instance isTrans_rank : IsTrans α fun a b : α => rank a ≤ rank b :=
  ⟨fun _ _ _ ab bc => le_trans ab bc⟩

instance total_rank_down : Std.Total fun a b : α => rank b ≤ rank a :=
  ⟨fun a b => le_total (rank b) (rank a)⟩

instance isTrans_rank_down : IsTrans α fun a b : α => rank b ≤ rank a :=
  ⟨fun _ _ _ ab bc => le_trans bc ab⟩

end Orders

theorem strictly_sorted {κ : Type v} [LinearOrder κ] {rank : α → κ} {l : List α}
    (distinct : (l.map rank).Nodup) :
    (l.insertionSort fun a b => rank a ≤ rank b).Pairwise fun a b => rank a < rank b := by
  have sorted := List.pairwise_insertionSort (fun a b : α => rank a ≤ rank b) l
  have reordered : ((l.insertionSort fun a b => rank a ≤ rank b).map rank).Nodup :=
    ((List.perm_insertionSort _ l).map rank).nodup_iff.mpr distinct
  have apart := List.pairwise_map.mp reordered
  exact (sorted.and apart).imp fun both => lt_of_le_of_ne both.1 both.2

theorem mem_page_iff (distinct : (rows.map key).Nodup) {last : α}
    (ends : (page key rows after upTo limit).getLast? = some last) {r : α} :
    r ∈ page key rows after upTo limit ↔ r ∈ rows ∧ after < key r ∧ key r ≤ key last := by
  have inRange : ((rows.filter fun r => after < key r ∧ key r ≤ upTo).map key).Nodup :=
    distinct.sublist (List.filter_sublist.map key)
  have sorted := strictly_sorted inRange
  obtain ⟨front, page_eq⟩ := List.getLast?_eq_some_iff.mp ends
  have lastMem : last ∈ page key rows after upTo limit := by
    rw [page_eq]
    exact List.mem_append_right front (List.mem_singleton.mpr rfl)
  have within := mem_of_mem_page lastMem
  rw [← List.take_append_drop limit (List.insertionSort _ _)] at sorted
  obtain ⟨inPage, _, beyond⟩ := List.pairwise_append.mp sorted
  constructor
  · intro mem
    obtain ⟨inRows, later, _⟩ := mem_of_mem_page mem
    refine ⟨inRows, later, ?_⟩
    have ordered : (front ++ [last]).Pairwise fun a b => key a < key b := page_eq ▸ inPage
    rw [page_eq] at mem
    rcases List.mem_append.mp mem with earlier | isLast
    · have := (List.pairwise_append.mp ordered).2.2 r earlier last (List.mem_singleton.mpr rfl)
      omega
    · rw [List.mem_singleton.mp isLast]
  · rintro ⟨inRows, later, before⟩
    have listed := mem_sorted.mpr ⟨inRows, later, before.trans within.2.2⟩
    rw [← List.take_append_drop limit (List.insertionSort _ _)] at listed
    rcases List.mem_append.mp listed with here | afterwards
    · exact here
    · have := beyond last lastMem r afterwards
      omega

section Newest

variable (key : α → Nat)

/-- The rows with the greatest keys, in descending order, `limit` of them at most. -/
def newest (rows : List α) (limit : Nat) : List α :=
  (rows.insertionSort fun a b => key b ≤ key a).take limit

variable {key}

theorem mem_of_mem_newest {rows : List α} {limit : Nat} {r : α} (mem : r ∈ newest key rows limit) :
    r ∈ rows :=
  (List.mem_insertionSort _).mp (List.mem_of_mem_take mem)

theorem length_newest (rows : List α) (limit : Nat) :
    (newest key rows limit).length = min limit rows.length := by
  rw [newest, List.length_take, List.length_insertionSort]

theorem take_newest (rows : List α) {few many : Nat} (fewer : few ≤ many) :
    (newest key rows many).take few = newest key rows few := by
  rw [newest, newest, List.take_take, Nat.min_eq_left fewer]

theorem nodup_newest {rows : List α} (distinct : (rows.map key).Nodup) (limit : Nat) :
    ((newest key rows limit).map key).Nodup := by
  have sorted : ((rows.insertionSort fun a b => key b ≤ key a).map key).Nodup :=
    ((List.perm_insertionSort _ rows).map key).nodup_iff.mpr distinct
  exact sorted.sublist ((List.take_sublist limit _).map key)

theorem mem_newest_of_length_le {rows : List α} {limit : Nat} (room : rows.length ≤ limit) {r : α} :
    r ∈ newest key rows limit ↔ r ∈ rows := by
  rw [newest, List.take_of_length_le (by rw [List.length_insertionSort]; exact room),
    List.mem_insertionSort]

theorem key_le_of_mem_newest {rows : List α} {limit : Nat} {r s : α}
    (taken : r ∈ newest key rows limit) (there : s ∈ rows) (left : s ∉ newest key rows limit) :
    key s ≤ key r := by
  have sorted := List.pairwise_insertionSort (fun a b : α => key b ≤ key a) rows
  rw [← List.take_append_drop limit (rows.insertionSort fun a b => key b ≤ key a),
    List.pairwise_append] at sorted
  have listed := (List.mem_insertionSort fun a b : α => key b ≤ key a).mpr there
  rw [← List.take_append_drop limit (rows.insertionSort fun a b => key b ≤ key a),
    List.mem_append] at listed
  exact sorted.2.2 r taken s (listed.resolve_left left)

/-- The rows with the least keys, in ascending order, `limit` of them at most. -/
def oldest (key : α → Nat) (rows : List α) (limit : Nat) : List α :=
  (rows.insertionSort fun a b => key a ≤ key b).take limit

variable {rows others : List α} {limit : Nat}

private theorem insertionSort_eq_of_perm {order : α → α → Prop} [DecidableRel order]
    [Std.Total order] [IsTrans α order] (same : rows.Perm others)
    (antisymmetric : ∀ a ∈ rows, ∀ b ∈ rows, order a b → order b a → a = b) :
    rows.insertionSort order = others.insertionSort order := by
  have reordered : (rows.insertionSort order).Perm (others.insertionSort order) :=
    (List.perm_insertionSort _ rows).trans (same.trans (List.perm_insertionSort _ others).symm)
  refine List.Perm.eq_of_pairwise ?_ (List.pairwise_insertionSort _ _)
    (List.pairwise_insertionSort _ _) reordered
  intro a b here there
  exact antisymmetric a ((List.mem_insertionSort _).mp here) b
    (same.mem_iff.mpr ((List.mem_insertionSort _).mp there))

theorem head_newest {rows rest : List α} {limit : Nat} {r : α}
    (taken : newest key rows (limit + 1) = r :: rest) :
    newest key rows 1 = [r] ∧ r ∈ rows ∧ ∀ s ∈ rows, key s ≤ key r := by
  have one : newest key rows 1 = [r] := by
    rw [← take_newest rows (Nat.le_add_left 1 limit), taken]
    rfl
  have first : r ∈ newest key rows 1 := by
    rw [one]
    exact List.mem_singleton.mpr rfl
  refine ⟨one, mem_of_mem_newest first, fun s here => ?_⟩
  by_cases same : s ∈ newest key rows 1
  · rw [one] at same
    rw [List.mem_singleton.mp same]
  · exact key_le_of_mem_newest first here same

theorem newest_perm (same : rows.Perm others) (distinct : (rows.map key).Nodup) :
    newest key rows limit = newest key others limit := by
  rw [newest, newest, insertionSort_eq_of_perm same]
  intro a here b there ba ab
  exact List.inj_on_of_nodup_map distinct here there (le_antisymm ab ba)

theorem oldest_perm (same : rows.Perm others) (distinct : (rows.map key).Nodup) :
    oldest key rows limit = oldest key others limit := by
  rw [oldest, oldest, insertionSort_eq_of_perm same]
  intro a here b there ab ba
  exact List.inj_on_of_nodup_map distinct here there (le_antisymm ab ba)

theorem newest_one {r : α} (here : r ∈ rows) (greatest : ∀ s ∈ rows, key s ≤ key r)
    (distinct : (rows.map key).Nodup) : newest key rows 1 = [r] := by
  have long : (newest key rows 1).length = 1 := by
    rw [length_newest]
    exact Nat.min_eq_left (List.length_pos_of_mem here)
  obtain ⟨s, only⟩ := List.length_eq_one_iff.mp long
  have taken : s ∈ newest key rows 1 := by
    rw [only]
    exact List.mem_singleton.mpr rfl
  have there := mem_of_mem_newest taken
  by_cases same : r ∈ newest key rows 1
  · rw [only] at same ⊢
    rw [List.mem_singleton.mp same]
  · have upper := key_le_of_mem_newest taken here same
    have lower := greatest s there
    rw [only, List.inj_on_of_nodup_map distinct here there (le_antisymm upper lower)]

theorem newest_one_eq_nil_iff : newest key rows 1 = [] ↔ rows = [] := by
  rw [← List.length_eq_zero_iff, length_newest, ← List.length_eq_zero_iff]
  omega

/-! ### Windows -/

theorem newest_eq_take (rows : List α) (limit : Nat) :
    newest key rows limit = (newest key rows rows.length).take limit := by
  rw [newest, newest, List.take_take]
  rcases Nat.le_total limit rows.length with fewer | more
  · rw [Nat.min_eq_left fewer]
  · rw [Nat.min_eq_right more, List.take_of_length_le (List.length_insertionSort _ rows).le,
      List.take_of_length_le ((List.length_insertionSort _ rows).trans_le more)]

theorem sorted_newest (distinct : (rows.map key).Nodup) (limit : Nat) :
    (newest key rows limit).Pairwise fun a b => key b < key a :=
  (@strictly_sorted α (OrderDual Nat) _ (fun r => OrderDual.toDual (key r)) rows distinct).sublist
    (List.take_sublist limit _)

theorem perm_newest (rows : List α) : (newest key rows rows.length).Perm rows := by
  rw [newest, List.take_of_length_le (List.length_insertionSort _ rows).le]
  exact List.perm_insertionSort _ rows

theorem newest_of_perm (distinct : (rows.map key).Nodup) (same : rows.Perm others)
    (sorted : others.Pairwise fun a b => key b < key a) :
    newest key rows limit = others.take limit := by
  rw [newest_perm same distinct, newest,
    List.Pairwise.insertionSort_eq (sorted.imp fun less => less.le)]

theorem newest_filter (check : α → Bool) (rows : List α) (limit : Nat) :
    newest key (rows.filter check) limit =
      ((newest key rows rows.length).filter check).take limit := by
  rw [newest, newest, List.take_of_length_le (List.length_insertionSort _ rows).le,
    filter_insertionSort]

theorem oldest_eq_reverse (distinct : (rows.map key).Nodup) (limit : Nat) :
    oldest key rows limit = (newest key rows rows.length).reverse.take limit := by
  have ascending : (newest key rows rows.length).reverse.Pairwise fun a b => key a ≤ key b :=
    List.pairwise_reverse.mpr ((sorted_newest distinct _).imp fun less => less.le)
  rw [oldest_perm ((List.reverse_perm _).trans (perm_newest rows)).symm distinct, oldest,
    List.Pairwise.insertionSort_eq ascending]

theorem filter_eq_take {check : α → Bool} {l : List α}
    (falls : l.Pairwise fun a b => check b = true → check a = true) :
    l.filter check = l.take (l.countP check) := by
  induction l with
  | nil => rfl
  | cons a l ih =>
    obtain ⟨first, later⟩ := List.pairwise_cons.mp falls
    by_cases holds : check a = true
    · rw [List.filter_cons_of_pos holds, List.countP_cons_of_pos holds, List.take_succ_cons,
        ih later]
    · have none : ∀ b ∈ l, ¬ check b = true := fun b listed => mt (first b listed) holds
      rw [List.filter_cons_of_neg holds, List.countP_cons_of_neg holds,
        List.countP_eq_zero.mpr none, List.take_zero]
      exact List.filter_eq_nil_iff.mpr none

theorem filter_not_eq_drop {check : α → Bool} {l : List α}
    (falls : l.Pairwise fun a b => check b = true → check a = true) :
    (l.filter fun a => !check a) = l.drop (l.countP check) := by
  induction l with
  | nil => rfl
  | cons a l ih =>
    obtain ⟨first, later⟩ := List.pairwise_cons.mp falls
    by_cases holds : check a = true
    · rw [List.filter_cons_of_neg (by simp [holds]), List.countP_cons_of_pos holds,
        List.drop_succ_cons, ih later]
    · have none : ∀ b ∈ l, ¬ check b = true := fun b listed => mt (first b listed) holds
      rw [List.filter_cons_of_pos (by simp [holds]), List.countP_cons_of_neg holds,
        List.countP_eq_zero.mpr none, List.drop_zero]
      exact congrArg _ (List.filter_eq_self.mpr fun b listed => by simp [none b listed])

end Newest

end Piltover.Foundation.Paging
