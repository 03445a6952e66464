/- source: none (library)
   digest: Big-endian numbers as bytes of a fixed length, and back. -/

import Mathlib.Data.List.Induction
import Mathlib.Algebra.Ring.Nat

set_option autoImplicit false

namespace Piltover.Foundation

abbrev Bytes := List UInt8

namespace Bytes

/-- The number whose big-endian digits are the bytes. -/
def toNat (b : Bytes) : Nat := b.foldl (fun n c => n * 256 + c.toNat) 0

/-- The last `size` bytes of a number. -/
def ofNat : Nat → Nat → Bytes
  | 0, _ => []
  | size + 1, n => ofNat size (n / 256) ++ [UInt8.ofNat n]

@[simp] theorem toNat_nil : toNat [] = 0 := rfl

theorem toNat_concat (b : Bytes) (c : UInt8) : toNat (b ++ [c]) = toNat b * 256 + c.toNat := by
  rw [toNat, List.foldl_append]
  rfl

theorem toNat_append (b d : Bytes) : toNat (b ++ d) = toNat b * 256 ^ d.length + toNat d := by
  induction d using List.reverseRecOn with
  | nil => simp only [List.append_nil, List.length_nil, pow_zero, mul_one, toNat_nil, add_zero]
  | append_singleton d c ih =>
    rw [← List.append_assoc, toNat_concat, ih, toNat_concat, List.length_append,
      List.length_singleton, pow_succ, add_mul, mul_assoc, add_assoc]

theorem toNat_lt (b : Bytes) : toNat b < 256 ^ b.length := by
  induction b using List.reverseRecOn with
  | nil => exact Nat.one_pos
  | append_singleton b c ih =>
    have small : c.toNat < 256 := c.toNat_lt
    rw [toNat_concat, List.length_append, List.length_singleton, pow_succ]
    omega

@[simp] theorem length_ofNat (size n : Nat) : (ofNat size n).length = size := by
  induction size generalizing n with
  | zero => rfl
  | succ size ih => rw [ofNat, List.length_append, ih, List.length_singleton]

/-- A number that fits is read back. -/
theorem toNat_ofNat {size n : Nat} (fits : n < 256 ^ size) : toNat (ofNat size n) = n := by
  induction size generalizing n with
  | zero =>
    rw [pow_zero] at fits
    rw [ofNat, toNat_nil]
    omega
  | succ size ih =>
    have less : n / 256 < 256 ^ size := by
      rw [pow_succ] at fits
      exact Nat.div_lt_of_lt_mul (by rwa [mul_comm])
    have digit : (UInt8.ofNat n).toNat = n % 256 := UInt8.toNat_ofNat'
    rw [ofNat, toNat_concat, ih less, digit]
    omega

theorem ofNat_toNat (b : Bytes) : ofNat b.length (toNat b) = b := by
  induction b using List.reverseRecOn with
  | nil => rfl
  | append_singleton b c ih =>
    have small : c.toNat < 256 := c.toNat_lt
    have high : (toNat b * 256 + c.toNat) / 256 = toNat b := by omega
    have low : UInt8.ofNat (toNat b * 256 + c.toNat) = c := by
      apply UInt8.toNat_inj.mp
      rw [UInt8.toNat_ofNat']
      omega
    rw [List.length_append, List.length_singleton, ofNat, toNat_concat, high, low, ih]

end Bytes

end Piltover.Foundation
