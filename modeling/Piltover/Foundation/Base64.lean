/- source: none (library)
   digest: Base64 with the alphabet for links, read as leniently as Python reads it. -/

import Mathlib.Data.List.DropRight
import Piltover.Foundation.Bytes

set_option autoImplicit false

namespace Piltover.Foundation.Base64

/-- The character of six bits, with `-` and `_` for the last two. -/
def urlsafeChar (n : Nat) : Char :=
  if n < 26 then Char.ofNat (65 + n)
  else if n < 52 then Char.ofNat (71 + n)
  else if n < 62 then Char.ofNat (n - 4)
  else if n = 62 then '-'
  else '_'

/-- The six bits of a character of either alphabet. -/
def sextet (c : Char) : Option Nat :=
  if 'A' ≤ c ∧ c ≤ 'Z' then some (c.toNat - 65)
  else if 'a' ≤ c ∧ c ≤ 'z' then some (c.toNat - 71)
  else if '0' ≤ c ∧ c ≤ '9' then some (c.toNat + 4)
  else if c = '-' ∨ c = '+' then some 62
  else if c = '_' ∨ c = '/' then some 63
  else none

/-- The characters of some bytes, without the padding. -/
def digits : Bytes → List Char
  | a :: b :: c :: rest =>
    urlsafeChar (a.toNat / 4) :: urlsafeChar (a.toNat % 4 * 16 + b.toNat / 16) ::
      urlsafeChar (b.toNat % 16 * 4 + c.toNat / 64) :: urlsafeChar (c.toNat % 64) :: digits rest
  | [a, b] => [urlsafeChar (a.toNat / 4), urlsafeChar (a.toNat % 4 * 16 + b.toNat / 16),
    urlsafeChar (b.toNat % 16 * 4)]
  | [a] => [urlsafeChar (a.toNat / 4), urlsafeChar (a.toNat % 4 * 16)]
  | [] => []

/-- Padding up to a multiple of four. -/
def pad (text : List Char) : List Char := text ++ List.replicate ((4 - text.length % 4) % 4) '='

/-- `urlsafe_b64encode`. -/
def encode (b : Bytes) : List Char := pad (digits b)

/-- The loop of `a2b_base64`: the place among four characters, the bits that are left of the last
one, and the padding in a row. Other characters are passed over. -/
def decodeFrom (quadPos left pads : Nat) : List Char → Option Bytes
  | [] => if quadPos = 0 then some [] else none
  | c :: rest =>
    if c = '=' then
      if 2 ≤ quadPos then
        if 4 ≤ quadPos + (pads + 1) then some [] else decodeFrom quadPos left (pads + 1) rest
      else decodeFrom quadPos left pads rest
    else match sextet c with
      | none => decodeFrom quadPos left pads rest
      | some n =>
        match quadPos with
        | 0 => decodeFrom 1 n 0 rest
        | 1 => (decodeFrom 2 (n % 16) 0 rest).map (UInt8.ofNat (left * 4 + n / 16) :: ·)
        | 2 => (decodeFrom 3 (n % 4) 0 rest).map (UInt8.ofNat (left * 16 + n / 4) :: ·)
        | _ => (decodeFrom 0 0 0 rest).map (UInt8.ofNat (left * 64 + n) :: ·)

/-- `urlsafe_b64decode`, when it raises no `ValueError`. -/
def decode (text : List Char) : Option Bytes :=
  if text.all fun c => decide (c.toNat < 128) then decodeFrom 0 0 0 text else none

/-- Every character is that of six bits. -/
def Plain (text : List Char) : Prop := ∀ c ∈ text, ∃ n < 64, c = urlsafeChar n

theorem urlsafeChar_spec : ∀ n < 64, sextet (urlsafeChar n) = some n ∧ urlsafeChar n ≠ '=' ∧
    (urlsafeChar n).toNat < 128 ∧ urlsafeChar n ≠ '+' := by
  decide +kernel

section Digits

variable {n : Nat} (small : n < 64) (left pads : Nat) (rest : List Char)
include small

theorem decodeFrom_urlsafeChar (quadPos : Nat) :
    decodeFrom quadPos left pads (urlsafeChar n :: rest) =
      match quadPos with
      | 0 => decodeFrom 1 n 0 rest
      | 1 => (decodeFrom 2 (n % 16) 0 rest).map (UInt8.ofNat (left * 4 + n / 16) :: ·)
      | 2 => (decodeFrom 3 (n % 4) 0 rest).map (UInt8.ofNat (left * 16 + n / 4) :: ·)
      | _ => (decodeFrom 0 0 0 rest).map (UInt8.ofNat (left * 64 + n) :: ·) := by
  obtain ⟨six, data, -⟩ := urlsafeChar_spec n small
  rw [decodeFrom, if_neg data, six]

theorem decodeFrom_first : decodeFrom 0 left pads (urlsafeChar n :: rest) = decodeFrom 1 n 0 rest :=
  decodeFrom_urlsafeChar small left pads rest 0

theorem decodeFrom_second : decodeFrom 1 left pads (urlsafeChar n :: rest) =
    (decodeFrom 2 (n % 16) 0 rest).map (UInt8.ofNat (left * 4 + n / 16) :: ·) :=
  decodeFrom_urlsafeChar small left pads rest 1

theorem decodeFrom_third : decodeFrom 2 left pads (urlsafeChar n :: rest) =
    (decodeFrom 3 (n % 4) 0 rest).map (UInt8.ofNat (left * 16 + n / 4) :: ·) :=
  decodeFrom_urlsafeChar small left pads rest 2

theorem decodeFrom_fourth : decodeFrom 3 left pads (urlsafeChar n :: rest) =
    (decodeFrom 0 0 0 rest).map (UInt8.ofNat (left * 64 + n) :: ·) :=
  decodeFrom_urlsafeChar small left pads rest 3

end Digits

theorem plain_digits (b : Bytes) : Plain (digits b) := by
  induction b using digits.induct with
  | case1 a b c rest ih =>
    have bounds := And.intro a.toNat_lt (And.intro b.toNat_lt c.toNat_lt)
    simp only [Plain, digits, List.forall_mem_cons]
    exact ⟨⟨_, by omega, rfl⟩, ⟨_, by omega, rfl⟩, ⟨_, by omega, rfl⟩, ⟨_, by omega, rfl⟩, ih⟩
  | case2 a b =>
    have bounds := And.intro a.toNat_lt b.toNat_lt
    simp only [Plain, digits, List.forall_mem_cons]
    exact ⟨⟨_, by omega, rfl⟩, ⟨_, by omega, rfl⟩, ⟨_, by omega, rfl⟩, nofun⟩
  | case3 a =>
    have bound := a.toNat_lt
    simp only [Plain, digits, List.forall_mem_cons]
    exact ⟨⟨_, by omega, rfl⟩, ⟨_, by omega, rfl⟩, nofun⟩
  | case4 => nofun

theorem ofNat_of_eq {c : UInt8} {n : Nat} (same : n = c.toNat) : UInt8.ofNat n = c := by
  rw [same, UInt8.ofNat_toNat]

/-- What is encoded is decoded; the padding is that of the characters behind whole groups. -/
theorem decodeFrom_digits (b : Bytes) : decodeFrom 0 0 0 (pad (digits b)) = some b := by
  unfold pad
  induction b using digits.induct with
  | case1 a b c rest ih =>
    have bounds := And.intro a.toNat_lt (And.intro b.toNat_lt c.toNat_lt)
    have whole : ((digits rest).length + 1 + 1 + 1 + 1) % 4 = (digits rest).length % 4 := by omega
    have first : UInt8.ofNat (a.toNat / 4 * 4 + (a.toNat % 4 * 16 + b.toNat / 16) / 16) = a :=
      ofNat_of_eq (by omega)
    have second : UInt8.ofNat ((a.toNat % 4 * 16 + b.toNat / 16) % 16 * 16 +
        (b.toNat % 16 * 4 + c.toNat / 64) / 4) = b := ofNat_of_eq (by omega)
    have third : UInt8.ofNat ((b.toNat % 16 * 4 + c.toNat / 64) % 4 * 64 + c.toNat % 64) = c :=
      ofNat_of_eq (by omega)
    simp only [digits, List.cons_append, List.length_cons, whole]
    rw [decodeFrom_first (by omega), decodeFrom_second (by omega), decodeFrom_third (by omega),
      decodeFrom_fourth (by omega), ih, first, second, third]
    rfl
  | case2 a b =>
    have bounds := And.intro a.toNat_lt b.toNat_lt
    have first : UInt8.ofNat (a.toNat / 4 * 4 + (a.toNat % 4 * 16 + b.toNat / 16) / 16) = a :=
      ofNat_of_eq (by omega)
    have second : UInt8.ofNat ((a.toNat % 4 * 16 + b.toNat / 16) % 16 * 16 +
        b.toNat % 16 * 4 / 4) = b := ofNat_of_eq (by omega)
    simp only [digits, List.cons_append, List.nil_append]
    rw [decodeFrom_first (by omega), decodeFrom_second (by omega), decodeFrom_third (by omega),
      first, second]
    rfl
  | case3 a =>
    have bound := a.toNat_lt
    have first : UInt8.ofNat (a.toNat / 4 * 4 + a.toNat % 4 * 16 / 16) = a :=
      ofNat_of_eq (by omega)
    simp only [digits, List.cons_append, List.nil_append]
    rw [decodeFrom_first (by omega), decodeFrom_second (by omega), first]
    rfl
  | case4 => rfl

theorem decode_encode (b : Bytes) : decode (encode b) = some b := by
  have ascii : (encode b).all (fun c => decide (c.toNat < 128)) = true := by
    rw [List.all_eq_true]
    intro c listed
    rcases List.mem_append.mp listed with digit | filler
    · obtain ⟨n, small, rfl⟩ := plain_digits b c digit
      exact decide_eq_true (urlsafeChar_spec n small).2.2.1
    · rw [List.eq_of_mem_replicate filler]
      rfl
  rw [decode, if_pos ascii]
  exact decodeFrom_digits b

/-- The text without the characters at both ends. -/
def strip (p : Char → Bool) (text : List Char) : List Char := (text.dropWhile p).rdropWhile p

theorem strip_encode (b : Bytes) : strip (· == '=') (encode b) = digits b := by
  have data : ∀ c ∈ digits b, (c == '=') = false := by
    intro c listed
    obtain ⟨n, small, rfl⟩ := plain_digits b c listed
    exact beq_eq_false_iff_ne.mpr (urlsafeChar_spec n small).2.1
  have last : (digits b).rdropWhile (· == '=') = digits b := by
    rw [List.rdropWhile_eq_self_iff]
    intro some
    rw [data _ (List.getLast_mem some)]
    exact Bool.false_ne_true
  have filler : ∀ k, (digits b ++ List.replicate k '=').rdropWhile (· == '=') = digits b := by
    intro k
    induction k with
    | zero => rw [List.replicate_zero, List.append_nil, last]
    | succ k ih =>
      rw [List.replicate_succ', ← List.append_assoc, List.rdropWhile_concat_pos _ _ _ rfl, ih]
  rw [strip, encode, pad]
  cases here : digits b with
  | nil => rfl
  | cons c rest =>
    rw [here] at data filler
    rw [List.cons_append, List.dropWhile_cons_of_neg (by simp [data c List.mem_cons_self]),
      ← List.cons_append, filler]

end Piltover.Foundation.Base64
