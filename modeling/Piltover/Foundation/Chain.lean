/- source: none (library)
   digest: Counter values that each count how far they are beyond the one before. -/

import Mathlib.Data.List.Sort

set_option autoImplicit false

namespace Piltover.Foundation.Chain

universe u

variable {α : Type u}

/-- Each value is as far beyond the one before it as it counts. -/
def Chains [Add α] : α → List (α × α) → Prop
  | _, [] => True
  | start, (value, count) :: rest => start + count = value ∧ Chains value rest

instance decidableChains [Add α] [DecidableEq α] : ∀ start (l : List (α × α)),
    Decidable (Chains start l)
  | _, [] => inferInstanceAs (Decidable True)
  | start, (value, count) :: rest =>
    have : Decidable (Chains value rest) := decidableChains value rest
    inferInstanceAs (Decidable (start + count = value ∧ Chains value rest))

/-- The last value, or the start when there is none. -/
def reach : α → List (α × α) → α
  | start, [] => start
  | _, (value, _) :: rest => reach value rest

@[simp] theorem chains_nil [Add α] (start : α) : Chains start [] := trivial

@[simp] theorem chains_cons [Add α] (start value count : α) (rest : List (α × α)) :
    Chains start ((value, count) :: rest) ↔ start + count = value ∧ Chains value rest := Iff.rfl

@[simp] theorem reach_nil (start : α) : reach start [] = start := rfl

@[simp] theorem reach_cons (start value count : α) (rest : List (α × α)) :
    reach start ((value, count) :: rest) = reach value rest := rfl

theorem chains_append [Add α] (start : α) (l m : List (α × α)) :
    Chains start (l ++ m) ↔ Chains start l ∧ Chains (reach start l) m := by
  induction l generalizing start with
  | nil => simp
  | cons pair l ih =>
    obtain ⟨value, count⟩ := pair
    rw [List.cons_append, chains_cons, chains_cons, reach_cons, ih value, and_assoc]

theorem reach_append (start : α) (l m : List (α × α)) :
    reach start (l ++ m) = reach (reach start l) m := by
  induction l generalizing start with
  | nil => rfl
  | cons pair l ih => exact ih pair.1

/-- The pairs in the order of their values. -/
def inOrder [LE α] [DecidableLE α] (l : List (α × α)) : List (α × α) :=
  l.insertionSort fun a b => a.1 ≤ b.1

theorem inOrder_eq [LE α] [DecidableLE α] {l : List (α × α)}
    (ascending : l.Pairwise fun a b => a.1 ≤ b.1) : inOrder l = l :=
  ascending.insertionSort_eq

end Piltover.Foundation.Chain
