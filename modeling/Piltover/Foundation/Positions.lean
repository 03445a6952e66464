/- source: none (library)
   digest: The numbers that counting through a list from its end gives to its elements, the last
     number staying where an element occurs more than once. -/

import Mathlib.Data.List.Basic
import Mathlib.Data.Finset.Card
import Mathlib.Tactic.Common

set_option autoImplicit false

namespace Piltover.Foundation

universe u

variable {κ : Type u} [DecidableEq κ]

/-- The number that stays with `k` after `for number, key in enumerate(reversed(keys))`. -/
def position (keys : List κ) (k : κ) : Option Nat :=
  keys.reverse.zipIdx.foldl (fun last entry => if entry.1 = k then some entry.2 else last) none

@[simp] theorem position_nil (k : κ) : position [] k = none := rfl

/-- What is at the head is numbered last. -/
theorem position_cons (first : κ) (keys : List κ) (k : κ) :
    position (first :: keys) k = if first = k then some keys.length else position keys k := by
  rw [position, List.reverse_cons, List.zipIdx_append, List.foldl_append, ← position]
  simp

theorem position_isSome {keys : List κ} {k : κ} : (position keys k).isSome ↔ k ∈ keys := by
  induction keys with
  | nil => simp
  | cons first keys ih =>
    rw [position_cons, List.mem_cons]
    by_cases same : first = k
    · simp [same]
    · have apart : k ≠ first := fun eq => same eq.symm
      rw [if_neg same, ih]
      exact ⟨.inr, fun listed => listed.resolve_left apart⟩

theorem position_eq_none {keys : List κ} {k : κ} : position keys k = none ↔ k ∉ keys := by
  rw [← position_isSome, Option.not_isSome_iff_eq_none]

theorem exists_position {keys : List κ} {k : κ} (listed : k ∈ keys) :
    ∃ number, position keys k = some number :=
  Option.isSome_iff_exists.mp (position_isSome.mpr listed)

theorem position_lt {keys : List κ} {k : κ} {number : Nat} (here : position keys k = some number) :
    number < keys.length := by
  induction keys with
  | nil => cases here
  | cons first keys ih =>
    rw [position_cons] at here
    rw [List.length_cons]
    split at here
    · cases here
      exact Nat.lt_succ_self _
    · exact Nat.lt_succ_of_lt (ih here)

theorem position_injective {keys : List κ} {j k : κ} {number : Nat}
    (one : position keys j = some number) (other : position keys k = some number) : j = k := by
  induction keys with
  | nil => cases one
  | cons first keys ih =>
    rw [position_cons] at one other
    by_cases isJ : first = j <;> by_cases isK : first = k
    · exact isJ.symm.trans isK
    · rw [if_pos isJ] at one
      rw [if_neg isK] at other
      cases one
      exact absurd (position_lt other) (Nat.lt_irrefl _)
    · rw [if_neg isJ] at one
      rw [if_pos isK] at other
      cases other
      exact absurd (position_lt one) (Nat.lt_irrefl _)
    · rw [if_neg isJ] at one
      rw [if_neg isK] at other
      exact ih one other

/-- `j` is met in the list, and `k` not before it. -/
def Leads (keys : List κ) (j k : κ) : Prop := j ∈ keys ∧ keys.idxOf j < keys.idxOf k

/-- What is met earlier has the greater number. -/
theorem position_lt_of_leads {keys : List κ} {j k : κ} {higher lower : Nat} (leads : Leads keys j k)
    (one : position keys j = some higher) (other : position keys k = some lower) :
    lower < higher := by
  induction keys with
  | nil => cases one
  | cons first keys ih =>
    obtain ⟨listed, before⟩ := leads
    rw [position_cons] at one other
    by_cases isK : first = k
    · rw [isK, List.idxOf_cons_self] at before
      exact absurd before (Nat.not_lt_zero _)
    rw [if_neg isK] at other
    by_cases isJ : first = j
    · rw [if_pos isJ] at one
      cases one
      exact position_lt other
    rw [if_neg isJ] at one
    rw [List.idxOf_cons_ne _ isJ, List.idxOf_cons_ne _ isK] at before
    refine ih ⟨?_, Nat.lt_of_succ_lt_succ before⟩ one other
    exact (List.mem_cons.mp listed).resolve_left fun eq => isJ eq.symm

/-- What the first of two lists has comes before what only the second has. -/
theorem leads_append {front back : List κ} {j k : κ} (listed : j ∈ front) (later : k ∉ front) :
    Leads (front ++ back) j k := by
  refine ⟨List.mem_append_left _ listed, ?_⟩
  rw [List.idxOf_append_of_mem listed, List.idxOf_append_of_notMem later]
  exact Nat.lt_of_lt_of_le (List.idxOf_lt_length_of_mem listed) (Nat.le_add_right _ _)

theorem leads_append_left {front : List κ} (back : List κ) {j k : κ} (leads : Leads front j k)
    (listed : k ∈ front) : Leads (front ++ back) j k := by
  refine ⟨List.mem_append_left _ leads.1, ?_⟩
  rw [List.idxOf_append_of_mem leads.1, List.idxOf_append_of_mem listed]
  exact leads.2

theorem length_le_of_bounded {numbers : List Nat} {bound : Nat} (distinct : numbers.Nodup)
    (below : ∀ n ∈ numbers, n < bound) : numbers.length ≤ bound := by
  rw [← List.toFinset_card_of_nodup distinct, ← Finset.card_range bound]
  refine Finset.card_le_card fun n listed => ?_
  exact Finset.mem_range.mpr (below n (List.mem_toFinset.mp listed))

end Piltover.Foundation
