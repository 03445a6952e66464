/- source: none (library)
   digest: Lists whose elements carry the positions 0, 1, 2 and so on, in any order. -/

import Mathlib.Data.List.Perm.Basic
import Mathlib.Data.List.Nodup
import Mathlib.Data.List.Range
import Mathlib.Data.List.InsertIdx
import Mathlib.Data.List.Sort
import Mathlib.Tactic.Common

set_option autoImplicit false

namespace Piltover.Foundation

universe u

/-- The positions of `n` elements. -/
def ranks (n : Nat) : List (Option Int) := (List.range n).map fun i : Nat => some (i : Int)

/-- The elements have the positions of their number, each of them once. -/
def Ranked {α : Type u} (pos : α → Option Int) (l : List α) : Prop :=
  (l.map pos).Perm (ranks l.length)

section Ranks

variable {n : Nat} {p : Option Int}

@[simp] theorem mem_ranks : p ∈ ranks n ↔ ∃ i : Nat, i < n ∧ p = some (i : Int) := by
  simp only [ranks, List.mem_map, List.mem_range, eq_comm]

@[simp] theorem length_ranks : (ranks n).length = n := by simp [ranks]

theorem nodup_ranks : (ranks n).Nodup :=
  List.nodup_range.map fun _ _ same => Int.ofNat_inj.mp (Option.some.inj same)

theorem ranks_succ : ranks (n + 1) = ranks n ++ [some (n : Int)] := by
  rw [ranks, List.range_succ, List.map_append]
  rfl

theorem ranks_add (m n : Nat) :
    ranks (m + n) = ranks m ++ (ranks n).map (Option.map fun i => (m : Int) + i) := by
  simp [ranks, List.range_add, Function.comp_def]

end Ranks

namespace Ranked

variable {α : Type u} {pos : α → Option Int} {l : List α} {a b : α}

theorem nil (pos : α → Option Int) : Ranked pos [] := List.Perm.nil

theorem concat (ranked : Ranked pos l) (last : pos a = some (l.length : Int)) :
    Ranked pos (l ++ [a]) := by
  rw [Ranked, List.map_append, List.map_singleton, List.length_append, List.length_singleton,
    ranks_succ, last]
  exact List.Perm.append_right _ ranked

theorem perm {m : List α} (ranked : Ranked pos l) (same : l.Perm m) : Ranked pos m := by
  rw [Ranked, ← same.length_eq]
  exact (same.map pos).symm.trans ranked

theorem map {f : α → α} (ranked : Ranked pos l) (stays : ∀ a ∈ l, pos (f a) = pos a) :
    Ranked pos (l.map f) := by
  have same : (l.map f).map pos = l.map pos := by
    rw [List.map_map]
    exact List.map_congr_left stays
  rw [Ranked, same, List.length_map]
  exact ranked

theorem exists_pos (ranked : Ranked pos l) (here : a ∈ l) :
    ∃ i : Nat, i < l.length ∧ pos a = some (i : Int) :=
  mem_ranks.mp (ranked.mem_iff.mp (List.mem_map_of_mem here))

theorem exists_at (ranked : Ranked pos l) {i : Nat} (small : i < l.length) :
    ∃ a ∈ l, pos a = some (i : Int) :=
  List.mem_map.mp (ranked.mem_iff.mpr (mem_ranks.mpr ⟨i, small, rfl⟩))

theorem eq_of_pos (ranked : Ranked pos l) (here : a ∈ l) (there : b ∈ l) (same : pos a = pos b) :
    a = b :=
  List.inj_on_of_nodup_map (ranked.nodup_iff.mpr nodup_ranks) here there same

/-- One element is taken away and those behind it move up. -/
theorem tail_shift {l : List α} {p : Int} {f : α → α} (ranked : Ranked pos (a :: l))
    (here : pos a = some p)
    (moves : ∀ b ∈ l, pos (f b) = (pos b).map fun q => if p < q then q - 1 else q) :
    Ranked pos (l.map f) := by
  obtain ⟨k, small, at'⟩ := ranked.exists_pos List.mem_cons_self
  obtain rfl : p = (k : Int) := Option.some.inj (here.symm.trans at')
  obtain ⟨m, total⟩ : ∃ m, l.length = k + m := ⟨l.length - k, by
    rw [List.length_cons] at small
    omega⟩
  have split : ranks (a :: l).length =
      ranks k ++ some (k : Int) :: (ranks m).map (Option.map fun i => (k : Int) + 1 + i) := by
    have length : (a :: l).length = (k + 1) + m := by
      rw [List.length_cons, total]
      omega
    rw [length, ranks_add, ranks_succ, List.append_assoc, List.singleton_append]
    rfl
  have rest : (l.map pos).Perm
      (ranks k ++ (ranks m).map (Option.map fun i => (k : Int) + 1 + i)) := by
    have whole := ranked
    rw [Ranked, split, List.map_cons, here] at whole
    exact (whole.trans List.perm_middle).cons_inv
  have moved : (l.map f).map pos = (l.map pos).map (Option.map fun q => if (k : Int) < q then q - 1
      else q) := by
    rw [List.map_map, List.map_map]
    exact List.map_congr_left moves
  rw [Ranked, moved, List.length_map, total, ranks_add]
  refine (rest.map _).trans (List.Perm.of_eq ?_)
  rw [List.map_append]
  congr 1
  · refine (List.map_congr_left fun p low => ?_).trans (List.map_id _)
    obtain ⟨i, less, rfl⟩ := mem_ranks.mp low
    rw [Option.map_some, if_neg (by omega)]
    rfl
  · rw [List.map_map]
    refine List.map_congr_left fun p high => ?_
    obtain ⟨i, -, rfl⟩ := mem_ranks.mp high
    rw [Function.comp_apply, Option.map_some, Option.map_some, Option.map_some, if_pos (by omega)]
    congr 1
    omega

section Sorting

variable {r : α → α → Prop} [DecidableRel r] [Std.Total r] [IsTrans α r]

/-- Sorted by their positions, the elements have them in order. -/
theorem map_insertionSort (ranked : Ranked pos l)
    (agrees : ∀ a b i j, pos a = some i → pos b = some j → r a b → i ≤ j) :
    (l.insertionSort r).map pos = ranks l.length := by
  have perm : ((l.insertionSort r).map pos).Perm (ranks l.length) :=
    ((List.perm_insertionSort r l).map pos).trans ranked
  have left : ((l.insertionSort r).map pos).Pairwise
      fun p q => ∀ i j : Int, p = some i → q = some j → i ≤ j := by
    rw [List.pairwise_map]
    refine (List.pairwise_insertionSort r l).imp ?_
    intro a b sorted i j first second
    exact agrees a b i j first second sorted
  have right : (ranks l.length).Pairwise
      fun p q => ∀ i j : Int, p = some i → q = some j → i ≤ j := by
    rw [ranks, List.pairwise_map]
    refine List.pairwise_lt_range.imp ?_
    intro i j less p q first second
    cases first
    cases second
    omega
  refine perm.eq_of_pairwise ?_ left right
  intro p q here there pq qp
  obtain ⟨i, -, rfl⟩ := mem_ranks.mp (perm.mem_iff.mp here)
  obtain ⟨j, -, rfl⟩ := mem_ranks.mp there
  exact congrArg some (Int.le_antisymm (pq i j rfl rfl) (qp j i rfl rfl))

theorem pos_getElem (sorted : l.map pos = ranks l.length) {i : Nat} (small : i < l.length) :
    pos l[i] = some (i : Int) := by
  have same : (l.map pos)[i]? = (ranks l.length)[i]? := congrArg (fun ps => ps[i]?) sorted
  rw [List.getElem?_map, List.getElem?_eq_getElem small, Option.map_some] at same
  simpa [ranks, small] using same

end Sorting

end Ranked

/-- An element that is taken out and put back at its index. -/
theorem insertIdx_erase {α : Type u} [DecidableEq α] {l : List α} {a : α} {i : Nat}
    (distinct : l.Nodup) (here : l[i]? = some a) : (l.erase a).insertIdx i a = l := by
  obtain ⟨small, rfl⟩ := List.getElem?_eq_some_iff.mp here
  rw [distinct.erase_getElem i small, List.insertIdx_eraseIdx_getElem small]

end Piltover.Foundation
