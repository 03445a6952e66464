/- source: none (library)
   digest: Slices of lists by possibly negative bounds, and texts as UTF-16 code units. -/

import Mathlib.Data.List.Basic
import Mathlib.Tactic.Common

set_option autoImplicit false

namespace Piltover.Foundation.Slices

universe u

variable {α : Type u}

/-- Where a bound stands in a list of the given length; a negative one counts from the end. -/
def bound (length : Nat) (i : Int) : Nat :=
  if i < 0 then (length + i).toNat else min i.toNat length

/-- The elements from one bound up to the other. -/
def slice (l : List α) (start stop : Int) : List α :=
  (l.take (bound l.length stop)).drop (bound l.length start)

/-- The code units of a character: one in the basic plane, two beyond it. -/
def units (c : Char) : List Nat :=
  if c.toNat < 0x10000 then [c.toNat]
  else [0xD800 + (c.toNat - 0x10000) / 0x400, 0xDC00 + (c.toNat - 0x10000) % 0x400]

def utf16 (text : List Char) : List Nat := text.flatMap units

section Bounds

variable {length more : Nat} {i : Int}

theorem bound_of_nonneg (nonneg : 0 ≤ i) : bound length i = min i.toNat length :=
  if_neg (Int.not_lt.mpr nonneg)

/-- A bound that the front reaches stands where it stands in the front. -/
theorem bound_append (nonneg : 0 ≤ i) (within : i.toNat ≤ length) :
    bound (length + more) i = bound length i := by
  rw [bound_of_nonneg nonneg, bound_of_nonneg nonneg, Nat.min_eq_left within,
    Nat.min_eq_left (Nat.le_add_right_of_le within)]

theorem bound_le (nonneg : 0 ≤ i) : bound length i ≤ length := by
  rw [bound_of_nonneg nonneg]
  exact Nat.min_le_right _ _

end Bounds

theorem slice_append {front back : List α} {start stop : Int} (first : 0 ≤ start)
    (last : 0 ≤ stop) (ordered : start ≤ stop) (within : stop.toNat ≤ front.length) :
    slice (front ++ back) start stop = slice front start stop := by
  have before : start.toNat ≤ front.length := Nat.le_trans (Int.toNat_le_toNat ordered) within
  unfold slice
  rw [List.length_append, bound_append last within, bound_append first before,
    List.take_append_of_le_length (bound_le last)]

theorem slice_middle (front middle back : List α) :
    slice (front ++ (middle ++ back)) front.length (front.length + middle.length : Int) = middle := by
  have stop : ((front.length : Int) + middle.length).toNat = (front ++ middle).length := by
    rw [List.length_append]
    omega
  have within : front.length ≤ (front ++ middle).length := by
    rw [List.length_append]
    exact Nat.le_add_right _ _
  rw [← List.append_assoc,
    slice_append (by omega) (by omega) (by omega) (Nat.le_of_eq stop), slice,
    bound_of_nonneg (by omega), bound_of_nonneg (by omega), stop, Nat.min_self, List.take_length,
    Int.toNat_natCast, Nat.min_eq_left within, List.drop_left]

section Utf16

theorem utf16_append (front back : List Char) : utf16 (front ++ back) = utf16 front ++ utf16 back :=
  List.flatMap_append

theorem toNat_range (c : Char) : c.toNat < 0xD800 ∨ (0xDFFF < c.toNat ∧ c.toNat < 0x110000) :=
  c.valid

/-- The code units say which character comes first: no character of the basic plane has the value
of a unit of a pair. -/
theorem units_append_inj {c d : Char} {l m : List Nat} (same : units c ++ l = units d ++ m) :
    c = d ∧ l = m := by
  have left := toNat_range c
  have right := toNat_range d
  unfold units at same
  split at same <;> split at same
  · obtain ⟨value, rest⟩ := List.cons.inj same
    exact ⟨Char.toNat_inj.mp value, rest⟩
  · have high := (List.cons.inj same).1
    omega
  · have high := (List.cons.inj same).1
    omega
  · obtain ⟨high, tail⟩ := List.cons.inj same
    obtain ⟨low, rest⟩ := List.cons.inj tail
    have value : c.toNat = d.toNat := by omega
    exact ⟨Char.toNat_inj.mp value, rest⟩

theorem utf16_injective : Function.Injective utf16 := by
  intro text
  induction text with
  | nil =>
    intro other same
    cases other with
    | nil => rfl
    | cons d other =>
      rw [utf16, utf16, List.flatMap_nil, List.flatMap_cons, units] at same
      split at same <;> cases same
  | cons c text ih =>
    intro other same
    cases other with
    | nil =>
      rw [utf16, utf16, List.flatMap_nil, List.flatMap_cons, units] at same
      split at same <;> cases same
    | cons d other =>
      rw [utf16, utf16, List.flatMap_cons, List.flatMap_cons] at same
      obtain ⟨rfl, rest⟩ := units_append_inj same
      rw [ih rest]

theorem mem_of_mem_slice {l : List α} {start stop : Int} {a : α} (here : a ∈ slice l start stop) :
    a ∈ l :=
  List.mem_of_mem_take (List.mem_of_mem_drop here)

/-- The text of code units; a half of a pair has none. -/
def decode : List Nat → Option (List Char)
  | [] => some []
  | [u] => if u < 0xD800 ∨ 0xDFFF < u then some [Char.ofNat u] else none
  | u :: v :: rest =>
    if u < 0xD800 ∨ 0xDFFF < u then (decode (v :: rest)).map (Char.ofNat u :: ·)
    else if u < 0xDC00 ∧ 0xDC00 ≤ v ∧ v < 0xE000 then
      (decode rest).map (Char.ofNat (0x10000 + (u - 0xD800) * 0x400 + (v - 0xDC00)) :: ·)
    else none

theorem decode_units (c : Char) (rest : List Nat) :
    decode (units c ++ rest) = (decode rest).map (c :: ·) := by
  have range := toNat_range c
  unfold units
  split
  case isTrue basic =>
    have outside : c.toNat < 0xD800 ∨ 0xDFFF < c.toNat := by omega
    cases rest with
    | nil =>
      have here : decode [c.toNat] = some [Char.ofNat c.toNat] := if_pos outside
      rw [List.append_nil, here, Char.ofNat_toNat]
      rfl
    | cons v rest => rw [List.singleton_append, decode, if_pos outside, Char.ofNat_toNat]
  case isFalse =>
    have surrogate : ¬ (0xD800 + (c.toNat - 0x10000) / 0x400 < 0xD800 ∨
        0xDFFF < 0xD800 + (c.toNat - 0x10000) / 0x400) := by omega
    have pair : 0xD800 + (c.toNat - 0x10000) / 0x400 < 0xDC00 ∧
        0xDC00 ≤ 0xDC00 + (c.toNat - 0x10000) % 0x400 ∧
        0xDC00 + (c.toNat - 0x10000) % 0x400 < 0xE000 := by omega
    have value : 0x10000 + (0xD800 + (c.toNat - 0x10000) / 0x400 - 0xD800) * 0x400 +
        (0xDC00 + (c.toNat - 0x10000) % 0x400 - 0xDC00) = c.toNat := by omega
    rw [List.cons_append, List.singleton_append, decode, if_neg surrogate, if_pos pair, value,
      Char.ofNat_toNat]

theorem decode_utf16 (text : List Char) : decode (utf16 text) = some text := by
  induction text with
  | nil => rfl
  | cons c text ih => rw [utf16, List.flatMap_cons, ← utf16, decode_units, ih, Option.map_some]

theorem toNat_ofNat {n : Nat} (valid : n.isValidChar) : (Char.ofNat n).toNat = n := by
  rw [Char.ofNat, dif_pos valid]
  rfl

/-- Code units below `0x10000` are a text in one way at most. -/
theorem utf16_of_decode {l : List Nat} {text : List Char} (decoded : decode l = some text)
    (units_ : ∀ u ∈ l, u < 0x10000) : utf16 text = l := by
  induction l using decode.induct generalizing text with
  | case1 => cases decoded; rfl
  | case2 u outside =>
    rw [decode, if_pos outside] at decoded
    cases decoded
    have small := units_ u List.mem_cons_self
    have valid : u.isValidChar := by
      unfold Nat.isValidChar
      omega
    rw [utf16, List.flatMap_singleton, units, toNat_ofNat valid, if_pos small]
  | case3 u inside => rw [decode, if_neg inside] at decoded; cases decoded
  | case4 u v rest outside ih =>
    rw [decode, if_pos outside] at decoded
    obtain ⟨tail, later, rfl⟩ := Option.map_eq_some_iff.mp decoded
    have small := units_ u List.mem_cons_self
    have valid : u.isValidChar := by
      unfold Nat.isValidChar
      omega
    have again := ih later fun w mem => units_ w (List.mem_cons_of_mem u mem)
    rw [utf16, List.flatMap_cons, ← utf16, again, units, toNat_ofNat valid, if_pos small]
    rfl
  | case5 u v rest inside pair ih =>
    rw [decode, if_neg inside, if_pos pair] at decoded
    obtain ⟨tail, later, rfl⟩ := Option.map_eq_some_iff.mp decoded
    have valid : (0x10000 + (u - 0xD800) * 0x400 + (v - 0xDC00)).isValidChar := by
      unfold Nat.isValidChar
      omega
    have again := ih later fun w mem =>
      units_ w (List.mem_cons_of_mem u (List.mem_cons_of_mem v mem))
    have beyond : ¬ 0x10000 + (u - 0xD800) * 0x400 + (v - 0xDC00) < 0x10000 := by omega
    have high : 0xD800 + (0x10000 + (u - 0xD800) * 0x400 + (v - 0xDC00) - 0x10000) / 0x400 = u := by
      omega
    have low : 0xDC00 + (0x10000 + (u - 0xD800) * 0x400 + (v - 0xDC00) - 0x10000) % 0x400 = v := by
      omega
    rw [utf16, List.flatMap_cons, ← utf16, again, units, toNat_ofNat valid, if_neg beyond, high,
      low]
    rfl
  | case6 u v rest inside nopair =>
    rw [decode, if_neg inside, if_neg nopair] at decoded
    cases decoded

theorem lt_of_mem_utf16 {text : List Char} {u : Nat} (mem : u ∈ utf16 text) : u < 0x10000 := by
  obtain ⟨c, -, here⟩ := List.mem_flatMap.mp mem
  have range := toNat_range c
  unfold units at here
  split at here
  · rw [List.mem_singleton.mp here]
    assumption
  · rcases List.mem_cons.mp here with rfl | here
    · omega
    · rw [List.mem_singleton.mp here]
      omega

theorem decode_slice_iff {text part : List Char} {start stop : Int} :
    decode (slice (utf16 text) start stop) = some part ↔
      slice (utf16 text) start stop = utf16 part := by
  constructor
  · intro decoded
    exact (utf16_of_decode decoded fun u mem => lt_of_mem_utf16 (mem_of_mem_slice mem)).symm
  · intro same
    rw [same, decode_utf16]

def unitOffsetsFrom : Nat → List Char → List Nat
  | units, [] => [units]
  | units, c :: text => units :: unitOffsetsFrom (units + (utf16 [c]).length) text

/-- Where each character begins among the code units, and where the text ends. -/
def unitOffsets (text : List Char) : List Nat := unitOffsetsFrom 0 text

theorem length_utf16_append (front back : List Char) :
    (utf16 (front ++ back)).length = (utf16 front).length + (utf16 back).length := by
  rw [utf16_append, List.length_append]

theorem getElem?_unitOffsets {text : List Char} {position : Nat} (within : position ≤ text.length) :
    (unitOffsets text)[position]? = some (utf16 (text.take position)).length := by
  have from_ (units : Nat) : (unitOffsetsFrom units text)[position]? =
      some (units + (utf16 (text.take position)).length) := by
    induction text generalizing units position with
    | nil =>
      rw [Nat.le_zero.mp within]
      rfl
    | cons c text ih =>
      cases position with
      | zero => rfl
      | succ position =>
        have front : c :: text.take position = [c] ++ text.take position := rfl
        rw [unitOffsetsFrom, List.getElem?_cons_succ, ih (Nat.le_of_succ_le_succ within),
          List.take_succ_cons, front, length_utf16_append [c], Nat.add_assoc]
  rw [unitOffsets, from_, Nat.zero_add]

end Utf16

end Piltover.Foundation.Slices
