/- source: piltover/gateway/_keygen_handlers.py, piltover/utils/rsa_utils.py
   digest: Which inner data is recovered, and which keys an exchange may end with. -/

import Piltover.Keygen.KeyExchange

set_option autoImplicit false

namespace Piltover.Keygen

open Piltover.Foundation

section Recovery

variable {prim : Primitives} {key : RSAKey}

theorem decrypt_encrypt {b : Bytes} (length : b.length = 256) (fits : b.toNat < key.n) :
    key.decrypt (key.encrypt b) = b := by
  have residue : b.toNat ^ key.e % key.n < 256 ^ 256 :=
    Nat.lt_of_lt_of_le (Nat.mod_lt _ (Nat.lt_of_le_of_lt (Nat.zero_le _) fits)) key.upper
  rw [RSAKey.decrypt, RSAKey.encrypt, Bytes.toNat_ofNat residue, key.inverse _ fits, ← length]
  exact Bytes.ofNat_toNat b

theorem length_xor {a b : Bytes} (same : a.length = b.length) : (xor a b).length = a.length := by
  rw [xor, List.length_zipWith, same, Nat.min_self]

theorem xor_xor {a b : Bytes} (same : a.length = b.length) : xor (xor a b) b = a := by
  induction a generalizing b with
  | nil => rfl
  | cons i a ih =>
    cases b with
    | nil => cases same
    | cons j b =>
      have rest : xor (xor a b) b = a := ih (Nat.succ.inj same)
      have back : i ^^^ j ^^^ j = i := by rw [UInt8.xor_assoc, UInt8.xor_self, UInt8.xor_zero]
      show (i ^^^ j ^^^ j) :: xor (xor a b) b = i :: a
      rw [rest, back]

theorem lstrip_of_head {c : UInt8} {rest : Bytes} (nonzero : c ≠ 0) :
    lstrip (c :: rest) = c :: rest := by
  rw [lstrip, List.dropWhile_cons_of_neg]
  rwa [beq_iff_eq]

theorem Serialized.lstrip_data (s : Serialized prim) (rest : Bytes) :
    lstrip (s.data ++ rest) = s.data ++ rest := by
  obtain ⟨c, tail, begins, nonzero⟩ := s.constructor
  rw [begins, List.cons_append]
  exact lstrip_of_head nonzero

namespace PadMessage

variable (m : PadMessage prim)

theorem length_dataWithHash : m.dataWithHash.length = 224 := by
  rw [dataWithHash, List.length_append, List.length_reverse, prim.length_sha256, dataWithPadding,
    m.length_padded]

theorem length_aesEncrypted : m.aesEncrypted.length = 224 := by
  have blocks : m.dataWithHash.length % 16 = 0 := by rw [m.length_dataWithHash]
  rw [aesEncrypted, prim.length_ige256Encrypt _ _ _ blocks, m.length_dataWithHash]

theorem length_mask : (xor m.tempKey (prim.sha256 m.aesEncrypted)).length = 32 := by
  rw [length_xor (by rw [m.length_tempKey, prim.length_sha256]), m.length_tempKey]

theorem length_keyAesEncrypted : m.keyAesEncrypted.length = 256 := by
  rw [keyAesEncrypted, List.length_append, m.length_mask, m.length_aesEncrypted]

/-- `rsa_pad_inverse` undoes RSA_PAD. -/
theorem rsaPadInverse_eq : prim.rsaPadInverse m.keyAesEncrypted = some m.dataWithPadding := by
  have front : m.keyAesEncrypted.take 32 = xor m.tempKey (prim.sha256 m.aesEncrypted) :=
    List.take_left' m.length_mask
  have back : m.keyAesEncrypted.drop 32 = m.aesEncrypted := List.drop_left' m.length_mask
  have unmasked : xor (xor m.tempKey (prim.sha256 m.aesEncrypted)) (prim.sha256 m.aesEncrypted) =
      m.tempKey := xor_xor (by rw [m.length_tempKey, prim.length_sha256])
  have filled : zfill m.tempKey 32 = m.tempKey := by
    rw [zfill, m.length_tempKey]
    rfl
  have blocks : m.dataWithHash.length % 16 = 0 := by rw [m.length_dataWithHash]
  have decrypted : prim.ige256Decrypt m.aesEncrypted m.tempKey (zeros 32) = m.dataWithHash :=
    prim.ige256Decrypt_ige256Encrypt _ _ _ blocks
  have whole : (m.dataWithHash.length != 224) = false := by rw [m.length_dataWithHash]; rfl
  have length : m.dataWithPadding.reverse.length = 192 := by
    rw [List.length_reverse]
    exact m.length_padded
  have reversed : m.dataWithHash.take 192 = m.dataWithPadding.reverse := List.take_left' length
  have hash : m.dataWithHash.drop 192 = prim.sha256 (m.tempKey ++ m.dataWithPadding) :=
    List.drop_left' length
  simp only [Primitives.rsaPadInverse, front, back, unmasked, filled, decrypted, whole, reversed,
    hash, List.reverse_reverse, bne_self_eq_false, Bool.false_eq_true, if_false]

theorem recovered (fits : m.keyAesEncrypted.toNat < key.n) :
    prim.recoverInner key (key.encrypt m.keyAesEncrypted) = .ok m.inner := by
  have stripped : lstrip m.dataWithPadding = m.data ++ m.padding := m.lstrip_data m.padding
  simp only [Primitives.recoverInner, decrypt_encrypt m.length_keyAesEncrypted fits,
    m.rsaPadInverse_eq, stripped, m.reads]
  rfl

end PadMessage

namespace OldMessage

variable (m : OldMessage prim)

theorem toNat_whole_lt : m.whole.toNat < key.n := by
  have length : (prim.sha1 m.data ++ (m.data ++ m.padding)).length = 255 := by
    have whole := m.length_whole
    simp only [List.length_append]
    omega
  have number : m.whole.toNat = (prim.sha1 m.data ++ (m.data ++ m.padding)).toNat := by
    have split := Bytes.toNat_append [0] (prim.sha1 m.data ++ (m.data ++ m.padding))
    rw [show Bytes.toNat [0] = 0 from rfl, zero_mul, zero_add] at split
    exact split
  have small := Bytes.toNat_lt (prim.sha1 m.data ++ (m.data ++ m.padding))
  rw [length, ← number] at small
  exact Nat.lt_of_lt_of_le small key.lower

theorem decrypt_encrypt_whole : key.decrypt (key.encrypt m.whole) = m.whole := by
  refine decrypt_encrypt ?_ m.toNat_whole_lt
  have whole := m.length_whole
  simp only [OldMessage.whole, List.length_append, List.length_cons]
  omega

theorem recover_padded {b : Bytes} (padded : prim.rsaPadInverse m.whole = some b) :
    prim.recoverInner key (key.encrypt m.whole) = .ok m.inner ↔
      prim.read (lstrip b) = some (.pqInnerData m.inner) := by
  simp only [Primitives.recoverInner, m.decrypt_encrypt_whole, padded]
  cases prim.read (lstrip b) with
  | none => simp only [reduceCtorEq]
  | some obj =>
    cases obj with
    | pqInnerData d =>
      simp only [Primitives.expectInner, Except.ok.injEq, Option.some.injEq,
        TLObject.pqInnerData.injEq]
    | other written => simp only [Primitives.expectInner, reduceCtorEq, Option.some.injEq]

theorem recover_unpadded (unpadded : prim.rsaPadInverse m.whole = none) :
    prim.recoverInner key (key.encrypt m.whole) = .ok m.inner ↔
      (prim.sha1 m.data).head? ≠ some 0 := by
  simp only [Primitives.recoverInner, m.decrypt_encrypt_whole, unpadded]
  constructor
  · intro recovered leading
    cases read : prim.read ((lstrip m.whole).drop 20) with
    | none => simp only [read, reduceCtorEq] at recovered
    | some obj =>
      simp only [read] at recovered
      split at recovered
      · cases recovered
      · rename_i same
        have digest : prim.sha1 (prim.write obj) = (lstrip m.whole).take 20 := by
          simpa using same
        cases obj with
        | other written => cases recovered
        | pqInnerData d =>
          obtain rfl : d = m.inner := Except.ok.inj recovered
          have first : (lstrip m.whole).head? = some 0 := by
            rw [m.written] at digest
            rw [digest, List.head?_take, if_neg (by decide)] at leading
            exact leading
          have nonzero := List.head?_dropWhile_not (fun c : UInt8 => c == 0) m.whole
          rw [show m.whole.dropWhile (fun c => c == 0) = lstrip m.whole from rfl, first]
            at nonzero
          cases nonzero
  · intro nonzero
    have length := prim.length_sha1 m.data
    obtain ⟨c, rest, digest⟩ : ∃ c rest, prim.sha1 m.data = c :: rest :=
      List.exists_cons_of_length_pos (by rw [length]; decide)
    rw [digest, List.head?_cons] at nonzero
    have stripped : lstrip m.whole = prim.sha1 m.data ++ (m.data ++ m.padding) := by
      have zero : lstrip m.whole = lstrip (prim.sha1 m.data ++ (m.data ++ m.padding)) := rfl
      rw [zero, digest, List.cons_append]
      exact lstrip_of_head fun same => nonzero (congrArg some same)
    have front : (lstrip m.whole).take 20 = prim.sha1 m.data := by
      rw [stripped]
      exact List.take_left' length
    have back : (lstrip m.whole).drop 20 = m.data ++ m.padding := by
      rw [stripped]
      exact List.drop_left' length
    simp only [back, m.reads, front, m.written, bne_self_eq_false, Bool.false_eq_true, if_false]
    rfl

/-- A client that follows the old scheme is understood exactly when its digest does not begin with a
zero byte. -/
theorem recovered_iff :
    prim.recoverInner key (key.encrypt m.whole) = .ok m.inner ↔ m.Readable := by
  unfold Readable
  cases inverse : prim.rsaPadInverse m.whole with
  | none => exact m.recover_unpadded inverse
  | some b => exact m.recover_padded inverse

end OldMessage

end Recovery

section Keys

variable {prim : Primitives}

variable (prim) (auth : Option GenAuthData) (r : SetClientDHParams) (persists : Bool) (time : Int)

/-- A key is stored and confirmed only for a power of the client in the range. -/
def StoresInRange : Prop :=
  ∀ data inner, prim.clientInner auth r = .ok (data, inner) →
    (prim.setClientDHParams auth r persists time).stored.isSome →
    (∃ nonce serverNonce hash,
      (prim.setClientDHParams auth r persists time).sent = some (.ok nonce serverNonce hash)) →
    inRange inner.gB.toNat

/-- The power is in the range, unless the request is refused for its nonces or its hash, or the key
is not taken by the database. -/
def PowerInRange : Prop :=
  ∀ data inner newNonce key, prim.authKey auth r = .ok (data, inner, newNonce, key) →
    persists = true → inRange inner.gB.toNat

variable {prim auth r}

theorem clientInner_of_authKey {data : GenAuthData} {inner : ClientDHInnerData}
    {newNonce key : Bytes} (made : prim.authKey auth r = .ok (data, inner, newNonce, key)) :
    prim.clientInner auth r = .ok (data, inner) := by
  unfold Primitives.authKey at made
  cases received : prim.clientInner auth r with
  | error failure =>
    rw [received] at made
    cases made
  | ok pair =>
    obtain ⟨data', inner'⟩ := pair
    rw [received] at made
    cases a : data'.a with
    | none => simp only [bind, Except.bind, given, a, reduceCtorEq] at made
    | some a' =>
      cases nonce : data'.newNonce with
      | none => simp only [bind, Except.bind, given, a, nonce, reduceCtorEq] at made
      | some nonce' =>
        simp only [bind, Except.bind, given, a, nonce, Except.ok.injEq, Prod.mk.injEq] at made
        obtain ⟨rfl, rfl, -, -⟩ := made
        rfl

/-- The last step stores what it confirms, and nothing where it fails. -/
theorem setClientDHParams_stored
    (stored : (prim.setClientDHParams auth r persists time).stored.isSome) :
    persists = true ∧ ∃ made, prim.authKey auth r = .ok made := by
  unfold Primitives.setClientDHParams at stored
  split at stored
  · cases stored
  · rename_i made
    cases persists with
    | true => exact ⟨rfl, _, made⟩
    | false => cases stored

theorem setClientDHParams_of_authKey {data : GenAuthData} {inner : ClientDHInnerData}
    {newNonce key : Bytes} (made : prim.authKey auth r = .ok (data, inner, newNonce, key)) :
    (prim.setClientDHParams auth r true time).stored.isSome ∧ ∃ nonce serverNonce hash,
      (prim.setClientDHParams auth r true time).sent = some (.ok nonce serverNonce hash) := by
  unfold Primitives.setClientDHParams
  rw [made]
  exact ⟨rfl, _, _, _, rfl⟩

theorem storesInRange_iff :
    StoresInRange prim auth r persists time ↔ PowerInRange prim auth r persists := by
  constructor
  · intro stores data inner newNonce key made persisted
    subst persisted
    obtain ⟨stored, sent⟩ := setClientDHParams_of_authKey time made
    exact stores data inner (clientInner_of_authKey made) stored sent
  · intro range data inner received stored _
    obtain ⟨persisted, ⟨data', inner', newNonce, key⟩, made⟩ :=
      setClientDHParams_stored persists time stored
    have same := clientInner_of_authKey made
    rw [received] at same
    obtain ⟨rfl, rfl⟩ := Prod.mk.inj (Except.ok.inj same)
    exact range data inner newNonce key made persisted

end Keys

/-- Both encodings are understood and only safe keys are stored, exactly where the old digest does
not begin with a zero byte and the power of the client is in the range. -/
theorem handshakes_iff (prim : Primitives) (key : RSAKey) :
    (∀ m : SealedMessage prim key,
      prim.recoverInner key (key.encrypt m.keyAesEncrypted) = .ok m.inner) ∧
    (∀ m : OldMessage prim,
      prim.recoverInner key (key.encrypt m.whole) = .ok m.inner ↔ m.Readable) ∧
    ∀ auth r persists time,
      StoresInRange prim auth r persists time ↔ PowerInRange prim auth r persists :=
  ⟨fun m => m.recovered m.fits, fun m => m.recovered_iff,
    fun _ _ persists time => storesInRange_iff persists time⟩

private def plain : Primitives where
  sha1 := fun _ => zeros 20
  sha256 := fun _ => zeros 32
  ige256Encrypt := fun b _ _ => b
  ige256Decrypt := fun b _ _ => b
  read := fun b => if b.head? = some 9 then some (.pqInnerData ⟨[1], [2], [7], none, []⟩) else none
  writePQInnerData := fun _ => [9]
  writeServerDHInnerData := fun d => d.nonce
  readClientDHInnerData := fun _ => some ⟨[1], [2], 0, [0]⟩
  writeClientDHInnerData := fun d => d.nonce
  length_sha1 := fun _ => rfl
  length_sha256 := fun _ => rfl
  length_ige256Encrypt := fun _ _ _ _ => rfl
  ige256Decrypt_ige256Encrypt := fun _ _ _ _ => rfl

private def plainKey : RSAKey where
  n := 256 ^ 256
  e := 1
  d := 1
  lower := by decide +kernel
  upper := Nat.le_refl _
  inverse := fun m small => by rw [pow_one, pow_one, Nat.mod_mod, Nat.mod_eq_of_lt small]

private def zeroDigest : OldMessage plain where
  inner := ⟨[1], [2], [7], none, []⟩
  data := [9]
  written := rfl
  reads := fun _ => rfl
  constructor := ⟨9, [], rfl, by decide⟩
  padding := List.replicate 234 1
  length_whole := by decide +kernel

private def begun : GenAuthData where
  p := 3
  q := 5
  serverNonce := [2]
  newNonce := some [7]
  isTemp := false
  expiresIn := 0
  a := some 6
  tmpAesKey := some []
  tmpAesIv := some []
  authKey := none

/-- A digest with a leading zero byte is refused, and the power zero makes a key of zeros, which is
stored and confirmed. -/
theorem zeros_mishandled :
    (¬ ∀ (prim : Primitives) (key : RSAKey) (m : OldMessage prim),
      prim.recoverInner key (key.encrypt m.whole) = .ok m.inner) ∧
    ¬ ∀ (prim : Primitives) (auth : Option GenAuthData) (r : SetClientDHParams) (persists : Bool)
      (time : Int), StoresInRange prim auth r persists time := by
  constructor
  · intro recovers
    have unpadded : plain.rsaPadInverse zeroDigest.whole = none := by decide +kernel
    exact (zeroDigest.recover_unpadded unpadded).mp (recovers plain plainKey zeroDigest) rfl
  · intro stores
    have range := stores plain (some begun) ⟨[2], zeros 32⟩ true 0 begun ⟨[1], [2], 0, [0]⟩ rfl rfl
      ⟨_, _, _, rfl⟩
    exact absurd range (by decide +kernel)

end Piltover.Keygen
