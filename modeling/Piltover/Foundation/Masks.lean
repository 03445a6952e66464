/- source: none (library)
   digest: Natural numbers read as sets of bits: inclusion, disjointness, unions. -/

import Mathlib.Data.Nat.Bitwise

set_option autoImplicit false

namespace Piltover.Foundation.Masks

/-- Every bit of the first mask is a bit of the second. -/
def Within (small large : Nat) : Prop := small ||| large = large

instance (small large : Nat) : Decidable (Within small large) :=
  inferInstanceAs (Decidable (_ = _))

/-- The two masks have no bit in common. -/
def Apart (mask rights : Nat) : Prop := mask &&& rights = 0

instance (mask rights : Nat) : Decidable (Apart mask rights) :=
  inferInstanceAs (Decidable (_ = _))

theorem within_iff {small large : Nat} :
    Within small large ↔ ∀ i, small.testBit i = true → large.testBit i = true := by
  constructor
  · intro within i set
    rw [← within, Nat.testBit_or, set, Bool.true_or]
  · intro bits
    refine Nat.eq_of_testBit_eq fun i => ?_
    rw [Nat.testBit_or]
    cases set : small.testBit i with
    | false => rw [Bool.false_or]
    | true => rw [bits i set, Bool.true_or]

theorem within_refl (mask : Nat) : Within mask mask := Nat.or_self mask

/-- `mask & rights == rights` asks for inclusion. -/
theorem and_eq_right_iff {mask rights : Nat} : mask &&& rights = rights ↔ Within rights mask := by
  rw [within_iff]
  constructor
  · intro kept i set
    rw [← kept, Nat.testBit_and, Bool.and_eq_true] at set
    exact set.1
  · intro bits
    refine Nat.eq_of_testBit_eq fun i => ?_
    rw [Nat.testBit_and]
    cases set : rights.testBit i with
    | false => rw [Bool.and_false]
    | true => rw [bits i set, Bool.true_and]

theorem apart_iff {mask rights : Nat} :
    Apart mask rights ↔ ∀ i, mask.testBit i = true → rights.testBit i = false := by
  constructor
  · intro apart i set
    have none : (mask &&& rights).testBit i = false := by rw [apart, Nat.zero_testBit]
    rw [Nat.testBit_and, set, Bool.true_and] at none
    exact none
  · intro bits
    refine Nat.eq_of_testBit_eq fun i => ?_
    rw [Nat.testBit_and, Nat.zero_testBit]
    cases set : mask.testBit i with
    | false => rw [Bool.false_and]
    | true => rw [bits i set, Bool.and_false]

theorem apart_or {mask a b : Nat} :
    Apart mask (a ||| b) ↔ Apart mask a ∧ Apart mask b := by
  simp only [apart_iff, Nat.testBit_or, Bool.or_eq_false_iff]
  exact ⟨fun both => ⟨fun i set => (both i set).1, fun i set => (both i set).2⟩,
    fun both i set => ⟨both.1 i set, both.2 i set⟩⟩

@[simp] theorem apart_zero (mask : Nat) : Apart mask 0 := Nat.and_zero mask

/-- Taking bits out of a mask keeps it disjoint. -/
theorem Apart.mono {small large rights : Nat} (within : Within small large)
    (apart : Apart large rights) : Apart small rights :=
  apart_iff.mpr fun i set => apart_iff.mp apart i (within_iff.mp within i set)

theorem pos_of_within {small large : Nat} (within : Within small large) (some : 0 < small) :
    0 < large := by
  rcases Nat.eq_zero_or_pos large with rfl | positive
  · have empty : small = 0 := by rw [← Nat.or_zero small]; exact within
    omega
  · exact positive

end Piltover.Foundation.Masks
