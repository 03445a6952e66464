/- source: piltover/app/utils/utils.py, piltover/utils/srp.py, piltover/db/models/srp_session.py
   digest: The password check, the client that knows the password, and the one that needs none. -/

import Mathlib.Data.Int.ModEq
import Piltover.Failure
import Piltover.Foundation.Bytes
import Piltover.SafePrime

set_option autoImplicit false

namespace Piltover.Passwords

open Piltover.Foundation

def btoi (b : Bytes) : Nat := b.toNat

-- What the code encodes is a residue or the prime itself, so that 256 bytes hold it.
def itob (i : Nat) : Bytes := Bytes.ofNat 256 i

def xor (a b : Bytes) : Bytes := List.zipWith (fun i j => i ^^^ j) a b

/-- `gmpy2.powmod`. -/
def powmod (base exponent modulus : Nat) : Nat := base ^ exponent % modulus

def p : Nat := genSafePrime.1

def g : Nat := genSafePrime.2

structure UserPassword where
  salt1 : Bytes
  salt2 : Bytes
  /-- The verifier. -/
  password : Option Bytes
  deriving DecidableEq, Repr

structure SrpSession where
  id : Int
  privB : Bytes
  deriving DecidableEq, Repr

inductive InputCheckPassword
  | empty
  | srp (srpId : Int) (a m1 : Bytes)
  deriving DecidableEq, Repr

/-- What the server and an honest client make of `A`, of the verifier and of their exponents. -/
def sharedSecret (a password u privB : Nat) : Nat := powmod (a * powmod password u p) privB p

section Check

variable (sha256d : Bytes → Bytes)

def srpK : Nat := btoi (sha256d (itob p ++ itob g))

def pubB (password : Bytes) (sess : SrpSession) : Bytes :=
  let kV := srpK sha256d * btoi password
  itob ((kV + powmod g (btoi sess.privB) p) % p)

def proofOf (row : UserPassword) (a b : Bytes) (secret : Nat) : Bytes :=
  let k := sha256d (itob secret)
  sha256d (xor (sha256d (itob p)) (sha256d (itob g)) ++ sha256d row.salt1 ++ sha256d row.salt2
    ++ a ++ b ++ k)

/-- `check_password_internal`; `sess` is the session that `get_session` finds or creates. -/
def checkPasswordInternal (row : UserPassword) (sess : SrpSession)
    (check : Option InputCheckPassword) : Except Failure Unit :=
  match row.password with
  | none => .ok ()
  | some password =>
    match check with
    | some (.srp srpId a m1) => do
        require (sess.id == srpId) (.rpc 400 "SRP_ID_INVALID")
        let b := pubB sha256d password sess
        let u := sha256d (a ++ b)
        let sB := sharedSecret (btoi a) (btoi password) (btoi u) (btoi sess.privB)
        require (m1 == proofOf sha256d row a b sB) (.rpc 400 "PASSWORD_HASH_INVALID")
    | _ => .error (.rpc 400 "PASSWORD_HASH_INVALID")

/-- The `A` of an honest client with the exponent `a`. -/
def clientA (a : Nat) : Bytes := itob (powmod g a p)

/-- `(B - k * v) ^ (a + u * x)` for the client that knows `x`. -/
def clientSecret (b : Bytes) (a x : Nat) : Nat :=
  let u := btoi (sha256d (clientA a ++ b))
  let base := ((btoi b : Int) - srpK sha256d * powmod g x p) % p
  powmod base.toNat (a + u * x) p

/-- The request of an honest client. -/
def clientCheck (row : UserPassword) (srpId : Int) (b : Bytes) (a x : Nat) : InputCheckPassword :=
  .srp srpId (clientA a) (proofOf sha256d row (clientA a) b (clientSecret sha256d b a x))

end Check

theorem p_pos : 0 < p := Nat.lt_trans Nat.zero_lt_one one_lt_currentDhPrime

theorem powmod_lt (base exponent : Nat) : powmod base exponent p < p := Nat.mod_lt _ p_pos

theorem btoi_itob {i : Nat} (residue : i < p) : btoi (itob i) = i :=
  Bytes.toNat_ofNat (Nat.lt_trans residue currentDhPrime_lt)

theorem powmod_modEq (base exponent : Nat) : powmod base exponent p ≡ base ^ exponent [MOD p] :=
  Nat.mod_modEq _ p

section Client

variable {sha256d : Bytes → Bytes} {row : UserPassword} {sess : SrpSession} {password : Bytes}
  {x : Nat}

theorem base_pubB (verifier : btoi password % p = powmod g x p) :
    ((btoi (pubB sha256d password sess) : Int) - srpK sha256d * powmod g x p) % p =
      powmod g (btoi sess.privB) p := by
  let k := srpK sha256d
  let power := powmod g (btoi sess.privB) p
  have public_ : btoi (pubB sha256d password sess) = (k * btoi password + power) % p :=
    btoi_itob (Nat.mod_lt _ p_pos)
  have whole : ((btoi (pubB sha256d password sess) : Nat) : Int) ≡ k * btoi password + power
      [ZMOD p] := by
    rw [public_, Int.natCast_mod, Nat.cast_add, Nat.cast_mul]
    exact Int.mod_modEq _ _
  have part : (k : Int) * powmod g x p ≡ k * btoi password [ZMOD p] := by
    rw [← verifier, Int.natCast_mod]
    exact (Int.mod_modEq _ _).mul_left _
  have rest : (btoi (pubB sha256d password sess) : Int) - k * powmod g x p ≡ power [ZMOD p] := by
    have difference := whole.sub part
    rwa [add_sub_cancel_left] at difference
  have small : (power : Int) % p = power :=
    Int.emod_eq_of_lt (Int.natCast_nonneg _) (Int.ofNat_lt.mpr (powmod_lt _ _))
  exact Eq.trans rest small

theorem clientSecret_eq (a : Nat) (verifier : btoi password % p = powmod g x p) :
    clientSecret sha256d (pubB sha256d password sess) a x =
      sharedSecret (btoi (clientA a)) (btoi password)
        (btoi (sha256d (clientA a ++ pubB sha256d password sess))) (btoi sess.privB) := by
  let u := btoi (sha256d (clientA a ++ pubB sha256d password sess))
  let b := btoi sess.privB
  have client : clientSecret sha256d (pubB sha256d password sess) a x =
      powmod (powmod g b p) (a + u * x) p := by
    simp only [clientSecret, base_pubB verifier, Int.toNat_natCast]
    rfl
  have known : btoi password ≡ g ^ x [MOD p] := verifier
  have left : powmod (powmod g b p) (a + u * x) p ≡ g ^ (b * (a + u * x)) [MOD p] := by
    rw [pow_mul]
    exact (powmod_modEq _ _).trans ((powmod_modEq g b).pow _)
  have sent : btoi (clientA a) ≡ g ^ a [MOD p] := by
    rw [clientA, btoi_itob (powmod_lt g a)]
    exact powmod_modEq g a
  have proven : powmod (btoi password) u p ≡ g ^ (x * u) [MOD p] := by
    rw [pow_mul]
    exact (powmod_modEq _ _).trans (known.pow u)
  have right : sharedSecret (btoi (clientA a)) (btoi password) u b ≡ g ^ (b * (a + u * x))
      [MOD p] := by
    have exponents : b * (a + u * x) = (a + x * u) * b := by rw [mul_comm u x, mul_comm]
    rw [exponents, pow_mul, pow_add]
    exact (powmod_modEq _ _).trans ((sent.mul proven).pow b)
  rw [client]
  exact Nat.ModEq.eq_of_lt_of_lt (left.trans right.symm) (powmod_lt _ _) (powmod_lt _ _)

theorem clientCheck_accepted (a : Nat) (known : row.password = some password)
    (verifier : btoi password % p = powmod g x p) :
    checkPasswordInternal sha256d row sess
      (some (clientCheck sha256d row sess.id (pubB sha256d password sess) a x)) = .ok () := by
  simp only [checkPasswordInternal, known, clientCheck, clientSecret_eq a verifier,
    check_bind_eq_ok, require_eq_ok, beq_self_eq_true, and_self]

end Client

/-- Two runs with other verifiers compute the same secret from this value, whatever the hash and the
exponent of the server are. -/
def IndependentOfVerifier (a : Nat) : Prop :=
  ∀ u b x y, sharedSecret a (powmod g x p) u b = sharedSecret a (powmod g y p) u b

theorem sharedSecret_degenerate {a : Nat} (degenerate : p ∣ a) (password u privB : Nat) :
    sharedSecret a password u privB = powmod 0 privB p := by
  have zero : a * powmod password u p ≡ 0 [MOD p] :=
    (Nat.modEq_zero_iff_dvd).mpr (degenerate.mul_right _)
  exact zero.pow privB

/-- The values that say nothing of the verifier are the multiples of the prime. -/
theorem independentOfVerifier_iff (a : Nat) : IndependentOfVerifier a ↔ p ∣ a := by
  constructor
  · intro independent
    have same := independent 1 1 0 1
    have one : powmod (powmod g 0 p) 1 p = 1 := by decide +kernel
    have three : powmod (powmod g 1 p) 1 p = 3 := by decide +kernel
    have equal : a * 1 ≡ a * 3 [MOD p] := by
      rw [sharedSecret, sharedSecret, one, three, powmod, powmod, pow_one, pow_one] at same
      exact same
    have twice : p ∣ 2 * a := by
      have divides := (Nat.modEq_iff_dvd' (by omega)).mp equal
      have double : a * 3 - a * 1 = 2 * a := by omega
      rwa [double] at divides
    have coprime : Nat.Coprime p 2 := by decide +kernel
    exact coprime.dvd_of_dvd_mul_left twice
  · intro degenerate u b x y
    rw [sharedSecret_degenerate degenerate, sharedSecret_degenerate degenerate]

section Guards

variable (sha256d : Bytes → Bytes) (row : UserPassword) (sess : SrpSession) (a : Bytes)

/-- What an `A` from anybody has to meet. -/
structure Guards : Prop where
  refused : p ∣ btoi a → ∀ srpId m1, ∃ code message,
    checkPasswordInternal sha256d row sess (some (.srp srpId a m1)) = .error (.rpc code message)
  dependent : (∃ srpId m1,
    checkPasswordInternal sha256d row sess (some (.srp srpId a m1)) = .ok ()) →
      ¬ IndependentOfVerifier (btoi a)

variable {sha256d row sess a} {password : Bytes}

/-- For a degenerate `A` the proof is made of public data. -/
theorem degenerate_accepted (known : row.password = some password) (degenerate : p ∣ btoi a) :
    checkPasswordInternal sha256d row sess (some (.srp sess.id a
      (proofOf sha256d row a (pubB sha256d password sess) (powmod 0 (btoi sess.privB) p)))) =
        .ok () := by
  simp only [checkPasswordInternal, known, sharedSecret_degenerate degenerate, check_bind_eq_ok,
    require_eq_ok, beq_self_eq_true, and_self]

theorem guards_iff (known : row.password = some password) :
    Guards sha256d row sess a ↔ ¬ p ∣ btoi a := by
  constructor
  · intro guards degenerate
    exact guards.dependent ⟨_, _, degenerate_accepted known degenerate⟩
      ((independentOfVerifier_iff _).mpr degenerate)
  · intro regular
    exact ⟨fun degenerate => absurd degenerate regular,
      fun _ independent => regular ((independentOfVerifier_iff _).mp independent)⟩

end Guards

/-- The honest client gets in, and an `A` from anybody is refused or depends on the verifier. -/
structure NeedsPassword (sha256d : Bytes → Bytes) (salt1 salt2 password : Bytes)
    (sess : SrpSession) (a : Bytes) : Prop where
  honest : ∀ x exponent, btoi password % p = powmod g x p →
    checkPasswordInternal sha256d ⟨salt1, salt2, some password⟩ sess
      (some (clientCheck sha256d ⟨salt1, salt2, some password⟩ sess.id
        (pubB sha256d password sess) exponent x)) = .ok ()
  guards : Guards sha256d ⟨salt1, salt2, some password⟩ sess a

/-- The check needs the password exactly for the `A` that are no multiples of the prime. -/
theorem needsPassword_iff (sha256d : Bytes → Bytes) (salt1 salt2 password : Bytes)
    (sess : SrpSession) (a : Bytes) :
    NeedsPassword sha256d salt1 salt2 password sess a ↔ ¬ p ∣ btoi a := by
  constructor
  · exact fun needs => (guards_iff rfl).mp needs.guards
  · intro regular
    exact ⟨fun x exponent verifier => clientCheck_accepted exponent rfl verifier,
      (guards_iff rfl).mpr regular⟩

/-- The empty `A` gets in with a proof made of public data. -/
theorem empty_accepted :
    ¬ ∀ (sha256d : Bytes → Bytes) (salt1 salt2 password : Bytes) (sess : SrpSession) (a : Bytes),
      NeedsPassword sha256d salt1 salt2 password sess a := by
  intro needs
  have guards := (needs (fun b => b.take 32) [1] [2] [3] ⟨5, [7]⟩ []).guards
  exact (guards_iff rfl).mp guards (Nat.dvd_zero p)

end Piltover.Passwords
