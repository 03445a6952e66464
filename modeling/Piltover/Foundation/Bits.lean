/- source: none (library)
   digest: The bits of integers of any size, and the words that keep their lowest ones. -/

import Mathlib.Data.Int.Bitwise
import Mathlib.Algebra.Ring.Int.Defs

set_option autoImplicit false

namespace Piltover.Foundation.Bits

theorem testBit_eq (x : Int) (i : Nat) : x.testBit i = decide (x / 2 ^ i % 2 = 1) := by
  cases x with
  | ofNat n =>
    have digit : (n.testBit i) = decide (n / 2 ^ i % 2 = 1) := Nat.testBit_eq_decide_div_mod_eq
    have cast : (Int.ofNat n / 2 ^ i % 2 : Int) = ((n / 2 ^ i % 2 : Nat) : Int) := by
      simp
    rw [Int.testBit, digit, cast]
    exact decide_eq_decide.mpr (by omega)
  | negSucc n =>
    have digit : (n.testBit i) = decide (n / 2 ^ i % 2 = 1) := Nat.testBit_eq_decide_div_mod_eq
    have cast : ((2 ^ i : Nat) : Int) = 2 ^ i := Int.natCast_pow 2 i
    have quotient : Int.negSucc n / 2 ^ i = -(((n / 2 ^ i : Nat) : Int) + 1) := by
      rw [← cast, Int.natCast_ediv]
      exact Int.negSucc_ediv n (by rw [cast]; exact Int.pow_pos (by decide))
    rw [Int.testBit, digit, quotient, ← decide_not]
    exact decide_eq_decide.mpr (by omega)

theorem testBit_shiftRight (x : Int) (n i : Nat) : (x >>> n).testBit i = x.testBit (i + n) := by
  cases x with
  | ofNat m =>
    have digit : (m >>> n).testBit i = m.testBit (n + i) := Nat.testBit_shiftRight m
    rw [Nat.add_comm i n]
    exact digit
  | negSucc m =>
    have digit : (m >>> n).testBit i = m.testBit (n + i) := Nat.testBit_shiftRight m
    rw [Nat.add_comm i n]
    exact congrArg not digit

theorem testBit_mul_two_pow (x : Int) (n i : Nat) :
    (x * 2 ^ n).testBit i = (decide (n ≤ i) && x.testBit (i - n)) := by
  rw [testBit_eq, testBit_eq]
  by_cases above : n ≤ i
  · obtain ⟨k, rfl⟩ := Nat.exists_eq_add_of_le above
    have quotient : x * 2 ^ n / 2 ^ (n + k) = x / 2 ^ k := by
      rw [Int.mul_comm, Int.pow_add]
      exact Int.mul_ediv_mul_of_pos _ _ (Int.pow_pos (by decide))
    simp [quotient]
  · obtain ⟨k, rfl⟩ := Nat.exists_eq_add_of_le (Nat.le_of_lt (Nat.lt_of_not_le above))
    obtain ⟨j, rfl⟩ : ∃ j, k = j + 1 := ⟨k - 1, by omega⟩
    have quotient : x * 2 ^ (i + (j + 1)) / 2 ^ i = x * 2 ^ j * 2 := by
      rw [Int.pow_add, Int.mul_left_comm, Int.mul_ediv_cancel_left _ (Int.pow_ne_zero (by decide)),
        Int.pow_succ, Int.mul_assoc]
    simp [quotient]

theorem getLsbD_ofInt (w : Nat) (x : Int) (i : Nat) :
    (BitVec.ofInt w x).getLsbD i = (decide (i < w) && x.testBit i) := by
  cases x with
  | ofNat n =>
    rw [Int.ofNat_eq_natCast, BitVec.ofInt_natCast, BitVec.getLsbD_ofNat]
    rfl
  | negSucc n =>
    rw [BitVec.ofInt_negSucc_eq_not_ofNat, BitVec.getLsbD_not, BitVec.getLsbD_ofNat]
    by_cases small : i < w <;> simp [small, Int.testBit]

/-- A word sees nothing above its bits, so a mask of them changes nothing. -/
theorem ofInt_land_mask (w : Nat) (x : Int) :
    BitVec.ofInt w (x.land (2 ^ w - 1)) = BitVec.ofInt w x := by
  have mask (i : Nat) (small : i < w) : (2 ^ w - 1 : Int).testBit i = true := by
    have cast : (2 ^ w - 1 : Int) = ((2 ^ w - 1 : Nat) : Int) := by
      rw [Int.natCast_sub Nat.one_le_two_pow, Int.natCast_pow]
      rfl
    rw [cast]
    exact (Nat.testBit_two_pow_sub_one w i).trans (decide_eq_true small)
  apply BitVec.eq_of_getLsbD_eq
  intro i small
  rw [getLsbD_ofInt, getLsbD_ofInt, Int.testBit_land, mask i small, Bool.and_true]

end Piltover.Foundation.Bits
