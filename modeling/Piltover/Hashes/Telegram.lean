/- source: piltover/app/utils/utils.py
   digest: The hash of a list of ids, and when it is the one that 64-bit words give. -/

import Mathlib.Data.Int.Bitwise
import Mathlib.Algebra.Ring.Int.Defs
import Piltover.Foundation.Bits
import Piltover.Stickers.Sets

set_option autoImplicit false

namespace Piltover.Hashes

open Foundation Stickers

/-! ### The code -/

/-- `Literal[32, 64]`. -/
inductive Width
  | w32
  | w64
  deriving DecidableEq, Repr

def Width.bits : Width → Nat
  | .w32 => 32
  | .w64 => 64

/-- `ctypes.c_int32(n).value` and `ctypes.c_int64(n).value`. -/
def cInt (bits : Nat) (n : Int) : Int := n.bmod (2 ^ bits)

section

variable (md5 : Bytes → Bytes)

/-- The accumulator after some ids, an integer without a size. -/
def accumulated (ids : List HashItem) : Int := ids.foldl (addToHash md5) 0

def telegramHash (ids : List HashItem) (width : Width) : Int :=
  cInt width.bits ((accumulated md5 ids).land (2 * 2 ^ (width.bits - 1) - 1))

/-! ### The clients -/

def mixWord (w : BitVec 64) : BitVec 64 :=
  let w := w ^^^ (w >>> 21)
  let w := w ^^^ (w <<< 35)
  w ^^^ (w >>> 4)

def addToWord (w : BitVec 64) : HashItem → BitVec 64
  | .int n => mixWord w + BitVec.ofInt 64 n
  | .str s => mixWord w + BitVec.ofInt 64 (readLong (md5 s.toUTF8.toList))
  | .none => mixWord w

def word (ids : List HashItem) : BitVec 64 := ids.foldl (addToWord md5) 0

def clientsHash (ids : List HashItem) : Int := (word md5 ids).toInt

end

/-- Nothing above the word comes down into it: the bits from 64 to 84 are zero, and those from 85 to
88 undo what the shift to the left has put above the word. -/
def StaysInside (h : Int) : Prop :=
  (∀ i < 21, h.testBit (64 + i) = false) ∧
    ∀ i < 4, h.testBit (85 + i) = (h.testBit (29 + i) ^^ h.testBit (50 + i))

instance (h : Int) : Decidable (StaysInside h) :=
  inferInstanceAs (Decidable ((∀ i < 21, _) ∧ ∀ i < 4, _))

/-! ### One step -/

/-- The accumulator after the first shift. -/
private def once (h : Int) : Int := h.xor (h >>> (21 : Nat))

/-- The accumulator after the second shift. -/
private def twice (h : Int) : Int := (once h).xor (once h * 2 ^ 35)

private theorem testBit_once (h : Int) (i : Nat) :
    (once h).testBit i = (h.testBit i ^^ h.testBit (i + 21)) := by
  rw [once, Int.testBit_lxor, Bits.testBit_shiftRight]

private theorem testBit_twice (h : Int) (i : Nat) :
    (twice h).testBit i = ((once h).testBit i ^^ (decide (35 ≤ i) && (once h).testBit (i - 35))) := by
  rw [twice, Int.testBit_lxor, Bits.testBit_mul_two_pow]

private def onceWord (w : BitVec 64) : BitVec 64 := w ^^^ (w >>> 21)

private def twiceWord (w : BitVec 64) : BitVec 64 := onceWord w ^^^ (onceWord w <<< 35)

/-- What the first shift brings down from above the word. -/
private def lower (h : Int) (i : Nat) : Bool := decide (43 ≤ i) && h.testBit (i + 21)

private theorem getLsbD_onceWord (h : Int) {i : Nat} (small : i < 64) :
    (onceWord (BitVec.ofInt 64 h)).getLsbD i = ((once h).testBit i ^^ lower h i) := by
  rw [onceWord, BitVec.getLsbD_xor, BitVec.getLsbD_ushiftRight, Bits.getLsbD_ofInt,
    Bits.getLsbD_ofInt, testBit_once, lower, decide_eq_true small, Bool.true_and, Nat.add_comm 21]
  by_cases high : 43 ≤ i
  · rw [decide_eq_false (by omega : ¬ i + 21 < 64), decide_eq_true high]
    cases h.testBit i <;> cases h.testBit (i + 21) <;> rfl
  · rw [decide_eq_true (by omega : i + 21 < 64), decide_eq_false high]
    cases h.testBit i <;> cases h.testBit (i + 21) <;> rfl

private theorem getLsbD_twiceWord (h : Int) {i : Nat} (small : i < 64) :
    (twiceWord (BitVec.ofInt 64 h)).getLsbD i = ((twice h).testBit i ^^ lower h i) := by
  rw [twiceWord, BitVec.getLsbD_xor, BitVec.getLsbD_shiftLeft, getLsbD_onceWord h small,
    testBit_twice, decide_eq_true small, Bool.true_and]
  by_cases high : 35 ≤ i
  · have clear : lower h (i - 35) = false := by
      rw [lower, decide_eq_false (by omega : ¬ 43 ≤ i - 35), Bool.false_and]
    rw [getLsbD_onceWord h (by omega : i - 35 < 64), clear, decide_eq_true high,
      decide_eq_false (by omega : ¬ i < 35), Bool.xor_false, Bool.not_false, Bool.true_and,
      Bool.xor_assoc, Bool.xor_assoc, Bool.xor_comm (lower h i)]
  · rw [decide_eq_false high, decide_eq_true (by omega : i < 35), Bool.not_true, Bool.false_and,
      Bool.false_and, Bool.xor_false, Bool.xor_false]

/-- What a step brings down from above the word. -/
private def carried (h : Int) (i : Nat) : Bool :=
  lower h i ^^ if i < 60 then lower h (i + 4) else (twice h).testBit (i + 4)

private theorem testBit_mixHash (h : Int) {i : Nat} (small : i < 64) :
    (Stickers.mixHash h).testBit i =
      ((mixWord (BitVec.ofInt 64 h)).getLsbD i ^^ carried h i) := by
  have whole : (Stickers.mixHash h).testBit i =
      ((twice h).testBit i ^^ (twice h).testBit (i + 4)) := by
    change ((twice h).xor (twice h >>> (4 : Nat))).testBit i = _
    rw [Int.testBit_lxor, Bits.testBit_shiftRight]
  have inside : (mixWord (BitVec.ofInt 64 h)).getLsbD i =
      ((twiceWord (BitVec.ofInt 64 h)).getLsbD i ^^
        (twiceWord (BitVec.ofInt 64 h)).getLsbD (i + 4)) := by
    change (twiceWord _ ^^^ (twiceWord _ >>> 4)).getLsbD i = _
    rw [BitVec.getLsbD_xor, BitVec.getLsbD_ushiftRight, Nat.add_comm 4]
  rw [whole, inside, getLsbD_twiceWord h small, carried]
  by_cases low : i < 60
  · rw [getLsbD_twiceWord h (by omega : i + 4 < 64), if_pos low]
    cases (twice h).testBit i <;> cases (twice h).testBit (i + 4) <;> cases lower h i <;>
      cases lower h (i + 4) <;> rfl
  · rw [BitVec.getLsbD_of_ge _ _ (by omega : 64 ≤ i + 4), if_neg low]
    cases (twice h).testBit i <;> cases (twice h).testBit (i + 4) <;> cases lower h i <;> rfl

private theorem mixWord_eq_iff (h : Int) :
    BitVec.ofInt 64 (Stickers.mixHash h) = mixWord (BitVec.ofInt 64 h) ↔
      ∀ i < 64, carried h i = false := by
  constructor
  · intro same i small
    have bit := congrArg (fun w => w.getLsbD i) same
    simp only [Bits.getLsbD_ofInt, decide_eq_true small, Bool.true_and,
      testBit_mixHash h small] at bit
    cases here : carried h i with
    | false => rfl
    | true => simp [here] at bit
  · intro clear
    apply BitVec.eq_of_getLsbD_eq
    intro i small
    rw [Bits.getLsbD_ofInt, decide_eq_true small, Bool.true_and, testBit_mixHash h small,
      clear i small, Bool.xor_false]

private theorem clear_of_carried {h : Int} (clear : ∀ i < 64, carried h i = false) (k : Nat)
    (small : k < 21) : h.testBit (64 + k) = false := by
  have below := clear (39 + k) (by omega)
  rw [carried, if_pos (by omega), lower, lower, decide_eq_true (by omega : 43 ≤ 39 + k + 4),
    Bool.true_and] at below
  rw [show 64 + k = 39 + k + 4 + 21 by omega]
  by_cases first : k < 4
  · rw [decide_eq_false (by omega : ¬ 43 ≤ 39 + k)] at below
    simpa using below
  · have earlier := clear_of_carried clear (k - 4) (by omega)
    rw [show 39 + k + 21 = 64 + (k - 4) by omega, earlier] at below
    simpa using below

theorem mixWord_eq_iff_staysInside (h : Int) :
    BitVec.ofInt 64 (Stickers.mixHash h) = mixWord (BitVec.ofInt 64 h) ↔ StaysInside h := by
  rw [mixWord_eq_iff]
  have top (k : Nat) (small : k < 4) (clear : ∀ i < 21, h.testBit (64 + i) = false) :
      carried h (60 + k) =
        (h.testBit (85 + k) ^^ (h.testBit (29 + k) ^^ h.testBit (50 + k))) := by
    rw [carried, if_neg (by omega), lower, show 60 + k + 21 = 64 + (17 + k) by omega,
      clear (17 + k) (by omega), testBit_twice, testBit_once, testBit_once,
      show 60 + k + 4 = 64 + k by omega, clear k (by omega), decide_eq_true (by omega),
      show 64 + k + 21 = 85 + k by omega, show 64 + k - 35 = 29 + k by omega,
      show 29 + k + 21 = 50 + k by omega]
    simp [show 35 ≤ 64 + k by omega]
  constructor
  · intro clear
    have zero := clear_of_carried clear
    refine ⟨zero, fun k small => ?_⟩
    have here := clear (60 + k) (by omega)
    rw [top k small zero] at here
    cases first : h.testBit (85 + k) <;> simpa [first] using here
  · rintro ⟨zero, undone⟩ i small
    by_cases high : 60 ≤ i
    · obtain ⟨k, rfl⟩ := Nat.exists_eq_add_of_le high
      rw [top k (by omega) zero, undone k (by omega)]
      simp
    · have none (j : Nat) (above : 43 ≤ j → j + 21 < 85) : lower h j = false := by
        by_cases there : 43 ≤ j
        · rw [lower, show j + 21 = 64 + (j - 43) by omega, zero (j - 43) (by omega), Bool.and_false]
        · rw [lower, decide_eq_false there, Bool.false_and]
      rw [carried, if_pos (by omega), none i (by omega), none (i + 4) (by omega)]
      rfl

/-! ### Runs of the recurrence -/

section

variable (md5 : Bytes → Bytes)

theorem accumulated_concat (ids : List HashItem) (item : HashItem) :
    accumulated md5 (ids ++ [item]) = addToHash md5 (accumulated md5 ids) item := by
  rw [accumulated, List.foldl_append]
  rfl

theorem word_concat (ids : List HashItem) (item : HashItem) :
    word md5 (ids ++ [item]) = addToWord md5 (word md5 ids) item := by
  rw [word, List.foldl_append]
  rfl

theorem telegramHash_eq (ids : List HashItem) (width : Width) :
    telegramHash md5 ids width = (BitVec.ofInt width.bits (accumulated md5 ids)).toInt := by
  have mask : (2 * 2 ^ (width.bits - 1) - 1 : Int) = 2 ^ width.bits - 1 := by
    cases width <;> rfl
  rw [telegramHash, mask, cInt, ← BitVec.toInt_ofInt, Bits.ofInt_land_mask]

theorem telegramHash_eq_clientsHash_iff (ids : List HashItem) :
    telegramHash md5 ids .w64 = clientsHash md5 ids ↔
      BitVec.ofInt 64 (accumulated md5 ids) = word md5 ids := by
  rw [telegramHash_eq, clientsHash]
  exact BitVec.toInt_inj

theorem telegramHash_narrow (ids : List HashItem) :
    telegramHash md5 ids .w32 = cInt 32 (telegramHash md5 ids .w64) := by
  rw [telegramHash_eq, telegramHash_eq, BitVec.toInt_ofInt, BitVec.toInt_ofInt, cInt]
  exact (Int.bmod_bmod_of_dvd (by decide)).symm

theorem follows_iff {ids : List HashItem} (item : HashItem)
    (so_far : BitVec.ofInt 64 (accumulated md5 ids) = word md5 ids) :
    BitVec.ofInt 64 (accumulated md5 (ids ++ [item])) = word md5 (ids ++ [item]) ↔
      StaysInside (accumulated md5 ids) := by
  rw [← mixWord_eq_iff_staysInside, accumulated_concat, word_concat, ← so_far]
  cases item with
  | int n => rw [addToHash, addToWord, BitVec.ofInt_add, BitVec.add_left_inj]
  | str s => rw [addToHash, addToWord, BitVec.ofInt_add, BitVec.add_left_inj]
  | none => rw [addToHash, addToWord]

end

/-- The hashes of a list are the ones that the clients compute. -/
structure Right (md5 : Bytes → Bytes) (ids : List HashItem) : Prop where
  wide : telegramHash md5 ids .w64 = clientsHash md5 ids
  narrow : telegramHash md5 ids .w32 = cInt 32 (clientsHash md5 ids)

theorem right_iff (md5 : Bytes → Bytes) (ids : List HashItem) :
    Right md5 ids ↔ BitVec.ofInt 64 (accumulated md5 ids) = word md5 ids := by
  rw [← telegramHash_eq_clientsHash_iff]
  constructor
  · intro right
    exact right.wide
  · intro wide
    exact ⟨wide, by rw [telegramHash_narrow, wide]⟩

/-- All along a list of ids the hashes are the clients' ones if and only if nothing ever comes down
from above the word. -/
theorem telegramHash_right_iff (md5 : Bytes → Bytes) (ids : List HashItem) :
    (∀ front, front <+: ids → Right md5 front) ↔
      ∀ front item, front ++ [item] <+: ids → StaysInside (accumulated md5 front) := by
  simp only [right_iff]
  constructor
  · intro right front item shorter
    have before := right front ((List.prefix_append front [item]).trans shorter)
    exact (follows_iff md5 item before).mp (right _ shorter)
  · intro stays front shorter
    induction front using List.reverseRecOn with
    | nil => rfl
    | append_singleton front item ih =>
      have before := ih ((List.prefix_append front [item]).trans shorter)
      exact (follows_iff md5 item before).mpr (stays front item shorter)

-- What two steps bring down, a third one can undo: a hash that is right says nothing of the hashes
-- before it.
example : let ids : List HashItem := [.int 346966414149137369076334592,
      .int (-11254460964864877359048775798657908736), .int (-17279996269771956453333383104327319552)]
    telegramHash id ids .w64 ≠ clientsHash id ids ∧
      telegramHash id (ids ++ [.int 0]) .w64 = clientsHash id (ids ++ [.int 0]) := by
  decide

/-- The thirtieth bit of the first id is shifted above the word, and comes back. -/
theorem shifted_back : ¬ ∀ (md5 : Bytes → Bytes) (ids : List HashItem), Right md5 ids := by
  intro all
  have here := (all id [.int (2 ^ 29), .int 0]).wide
  revert here
  decide

end Piltover.Hashes
