/- source: piltover/gateway/_keygen_handlers.py, piltover/utils/rsa_utils.py, piltover/auth_data.py
   digest: The two encodings of the inner data, what is read back of them, and which keys are stored. -/

import Mathlib.Data.List.TakeDrop
import Piltover.Foundation.Bytes
import Piltover.SafePrime

set_option autoImplicit false

namespace Piltover.Keygen

open Piltover.Foundation

/-- What ends a handshake: the gateway hangs up with a code, or any other exception is raised. -/
inductive KeygenFailure
  | disconnection (code : Nat)
  | other
  deriving DecidableEq, Repr

/-- `PQInnerData` and its three variants. Nonces are given by their bytes; a temporary key has a
time to expire; `fields` are the numbers and the data center, which no handler reads. -/
structure PQInnerData where
  nonce : Bytes
  serverNonce : Bytes
  newNonce : Bytes
  expiresIn : Option Int
  fields : Bytes
  deriving DecidableEq, Repr

inductive TLObject
  | pqInnerData (d : PQInnerData)
  | other (written : Bytes)
  deriving DecidableEq, Repr

structure ServerDHInnerData where
  nonce : Bytes
  serverNonce : Bytes
  g : Nat
  dhPrime : Bytes
  gA : Bytes
  serverTime : Int
  deriving DecidableEq, Repr

structure ClientDHInnerData where
  nonce : Bytes
  serverNonce : Bytes
  retryId : Int
  gB : Bytes
  deriving DecidableEq, Repr

/-- The libraries for hashes and ciphers, and the generated readers and writers. -/
structure Primitives where
  sha1 : Bytes → Bytes
  sha256 : Bytes → Bytes
  ige256Encrypt : Bytes → Bytes → Bytes → Bytes
  ige256Decrypt : Bytes → Bytes → Bytes → Bytes
  read : Bytes → Option TLObject
  writePQInnerData : PQInnerData → Bytes
  writeServerDHInnerData : ServerDHInnerData → Bytes
  readClientDHInnerData : Bytes → Option ClientDHInnerData
  writeClientDHInnerData : ClientDHInnerData → Bytes
  length_sha1 : ∀ b, (sha1 b).length = 20
  length_sha256 : ∀ b, (sha256 b).length = 32
  length_ige256Encrypt : ∀ b key iv, b.length % 16 = 0 → (ige256Encrypt b key iv).length = b.length
  ige256Decrypt_ige256Encrypt : ∀ b key iv, b.length % 16 = 0 →
    ige256Decrypt (ige256Encrypt b key iv) key iv = b

/-- The key of the server, with a modulus of 2048 bits. -/
structure RSAKey where
  n : Nat
  e : Nat
  d : Nat
  lower : 256 ^ 255 ≤ n
  upper : n ≤ 256 ^ 256
  inverse : ∀ m, m < n → (m ^ e % n) ^ d % n = m

structure GenAuthData where
  p : Nat
  q : Nat
  serverNonce : Bytes
  newNonce : Option Bytes
  isTemp : Bool
  expiresIn : Int
  a : Option Nat
  tmpAesKey : Option Bytes
  tmpAesIv : Option Bytes
  authKey : Option Bytes
  deriving DecidableEq, Repr

structure ReqDHParams where
  p : Bytes
  q : Bytes
  serverNonce : Bytes
  encryptedData : Bytes
  deriving DecidableEq, Repr

structure SetClientDHParams where
  serverNonce : Bytes
  encryptedData : Bytes
  deriving DecidableEq, Repr

def xor (a b : Bytes) : Bytes := List.zipWith (fun i j => i ^^^ j) a b

def zeros (count : Nat) : Bytes := List.replicate count 0

/-- `lstrip` of zero bytes. -/
def lstrip (b : Bytes) : Bytes := b.dropWhile fun c => c == 0

/-- `zfill`, which fills with the digit. -/
def zfill (b : Bytes) (width : Nat) : Bytes := List.replicate (width - b.length) 48 ++ b

/-- `rsa_decrypt`. -/
def RSAKey.decrypt (key : RSAKey) (data : Bytes) : Bytes :=
  Bytes.ofNat 256 (data.toNat ^ key.d % key.n)

def RSAKey.encrypt (key : RSAKey) (data : Bytes) : Bytes :=
  Bytes.ofNat 256 (data.toNat ^ key.e % key.n)

namespace Primitives

variable (prim : Primitives)

def write : TLObject → Bytes
  | .pqInnerData d => prim.writePQInnerData d
  | .other written => written

/-- `rsa_pad_inverse`; nothing where it raises. -/
def rsaPadInverse (keyAesEncrypted : Bytes) : Option Bytes :=
  let tempKeyXor := keyAesEncrypted.take 32
  let aesEncrypted := keyAesEncrypted.drop 32
  let tempKey := xor tempKeyXor (prim.sha256 aesEncrypted)
  let dataWithHash := prim.ige256Decrypt aesEncrypted (zfill tempKey 32) (zeros 32)
  if dataWithHash.length != 224 then none
  else
    let dataPadReversed := dataWithHash.take 192
    let tempDataHash := dataWithHash.drop 192
    let dataWithPadding := dataPadReversed.reverse
    if tempDataHash != prim.sha256 (tempKey ++ dataWithPadding) then none
    else some dataWithPadding

def expectInner : TLObject → Except KeygenFailure PQInnerData
  | .pqInnerData d => .ok d
  | .other _ => .error (.disconnection 404)

/-- What `_req_dh_params_sync` makes of the encrypted data. -/
def recoverInner (key : RSAKey) (encryptedData : Bytes) : Except KeygenFailure PQInnerData :=
  let keyAesEncrypted := key.decrypt encryptedData
  match prim.rsaPadInverse keyAesEncrypted with
  | some dataWithPadding =>
    match prim.read (lstrip dataWithPadding) with
    | none => .error .other
    | some obj => expectInner obj
  | none =>
    let stripped := lstrip keyAesEncrypted
    match prim.read (stripped.drop 20) with
    | none => .error .other
    | some obj =>
      let digest := stripped.take 20
      if prim.sha1 (prim.write obj) != digest then .error (.disconnection 404)
      else expectInner obj

end Primitives

/-- Raise where nothing is set. -/
def given {α : Type} (value : Option α) : Except KeygenFailure α :=
  match value with
  | some a => .ok a
  | none => .error .other

def demand (check : Bool) : Except KeygenFailure Unit :=
  if check then .ok () else .error (.disconnection 404)

def inRange (power : Nat) : Bool :=
  !(decide (power ≤ 1) || decide (power ≥ currentDhPrime - 1)
    || decide (power ≤ 2 ^ (2048 - 64)) || decide (power ≥ currentDhPrime - 2 ^ (2048 - 64)))

structure Drawn where
  a : Nat
  padding : Bytes
  time : Int

namespace Primitives

variable (prim : Primitives)

def checkReqDHParams (auth : GenAuthData) (r : ReqDHParams) : Except KeygenFailure Unit := do
  demand (r.p.length == 4 && r.q.length == 4)
  demand (r.p.toNat == auth.p && r.q.toNat == auth.q)
  demand (auth.serverNonce == r.serverNonce)
  demand (r.encryptedData.length == 256)

def receive (auth : GenAuthData) (d : PQInnerData) (drawn : Drawn) : GenAuthData :=
  { auth with
    isTemp := d.expiresIn.isSome
    expiresIn := match d.expiresIn with
      | some expires => max expires 86400
      | none => 0
    newNonce := some d.newNonce
    a := some drawn.a }

def tmpAesKey (newNonce serverNonce : Bytes) : Bytes :=
  prim.sha1 (newNonce ++ serverNonce) ++ (prim.sha1 (serverNonce ++ newNonce)).take 12

def tmpAesIv (newNonce serverNonce : Bytes) : Bytes :=
  (prim.sha1 (serverNonce ++ newNonce)).drop 12 ++ prim.sha1 (newNonce ++ newNonce)
    ++ newNonce.take 4

/-- `_req_dh_params_sync`: the data of the connection afterwards, and the nonces with the answer. -/
def reqDHParamsSync (key : RSAKey) (auth : Option GenAuthData) (r : ReqDHParams) (drawn : Drawn) :
    Option GenAuthData × Except KeygenFailure (Bytes × Bytes × Bytes) :=
  match auth with
  | none => (none, .error (.disconnection 404))
  | some data =>
    match checkReqDHParams data r with
    | .error failure => (some data, .error failure)
    | .ok () =>
      match prim.recoverInner key r.encryptedData with
      | .error failure => (some data, .error failure)
      | .ok d =>
        if data.serverNonce != d.serverNonce then
          (some data, .error (.disconnection 404))
        else
          let received := receive data d drawn
          let dhPrime := genSafePrime.1
          let g := genSafePrime.2
          let gA := g ^ drawn.a % dhPrime
          if decide (g ≤ 1) || decide (g ≥ dhPrime - 1) || !inRange gA then
            (some received, .error (.disconnection 404))
          else
            let answer := prim.writeServerDHInnerData ⟨d.nonce, data.serverNonce, g,
              Bytes.ofNat 256 dhPrime, Bytes.ofNat 256 gA, drawn.time⟩
            let hashed := prim.sha1 answer ++ answer
            let padded := hashed ++ drawn.padding.take ((16 - hashed.length % 16) % 16)
            let tmpKey := prim.tmpAesKey d.newNonce data.serverNonce
            let tmpIv := prim.tmpAesIv d.newNonce data.serverNonce
            (some { received with tmpAesKey := some tmpKey, tmpAesIv := some tmpIv },
              .ok (d.nonce, data.serverNonce, prim.ige256Encrypt padded tmpKey tmpIv))

/-- The data that the client has sent with its power, when every check passes. -/
def clientInner (auth : Option GenAuthData) (r : SetClientDHParams) :
    Except KeygenFailure (GenAuthData × ClientDHInnerData) := do
  match auth with
  | none => .error (.disconnection 404)
  | some data =>
    demand (data.tmpAesKey.isSome && data.serverNonce == r.serverNonce)
    let tmpKey ← given data.tmpAesKey
    let tmpIv ← given data.tmpAesIv
    let whole ← given (if r.encryptedData.isEmpty || r.encryptedData.length % 16 != 0 then none
      else some (prim.ige256Decrypt r.encryptedData tmpKey tmpIv))
    let inner ← given (prim.readClientDHInnerData (whole.drop 20))
    demand (prim.sha1 (prim.writeClientDHInnerData inner) == whole.take 20)
    demand (data.serverNonce == inner.serverNonce)
    .ok (data, inner)

end Primitives

/-- A key in the database; a temporary one expires. -/
structure StoredKey where
  id : Bytes
  authKey : Bytes
  expiresAt : Option Int
  deriving DecidableEq, Repr

inductive DhGen
  | ok (nonce serverNonce newNonceHash1 : Bytes)
  | fail (nonce serverNonce newNonceHash3 : Bytes)
  deriving DecidableEq, Repr

/-- What the last request of the handshake stores, sends and raises. -/
structure Exchanged where
  stored : Option StoredKey
  sent : Option DhGen
  raised : Option KeygenFailure
  deriving DecidableEq, Repr

namespace Primitives

variable (prim : Primitives)

def authKey (auth : Option GenAuthData) (r : SetClientDHParams) :
    Except KeygenFailure (GenAuthData × ClientDHInnerData × Bytes × Bytes) := do
  let received ← prim.clientInner auth r
  let a ← given received.1.a
  let newNonce ← given received.1.newNonce
  let power := received.2.gB.toNat ^ a % genSafePrime.1
  .ok (received.1, received.2, newNonce, Bytes.ofNat 256 power)

/-- `set_client_dh_params`; `persists` tells if the database takes the key. -/
def setClientDHParams (auth : Option GenAuthData) (r : SetClientDHParams) (persists : Bool)
    (time : Int) : Exchanged :=
  match prim.authKey auth r with
  | .error failure => ⟨none, none, some failure⟩
  | .ok (data, inner, newNonce, key) =>
    let digest := prim.sha1 key
    let auxHash := digest.take 8
    let nonceHash := fun number : UInt8 =>
      (prim.sha1 (newNonce ++ [number] ++ auxHash)).drop 4
    if persists then
      ⟨some ⟨digest.drop 12, key,
          if data.expiresIn != 0 then some (time + data.expiresIn) else none⟩,
        some (.ok inner.nonce data.serverNonce (nonceHash 1)), none⟩
    else ⟨none, some (.fail inner.nonce data.serverNonce (nonceHash 3)),
      some (.disconnection 404)⟩

end Primitives

/-! ### Clients -/

structure Serialized (prim : Primitives) where
  inner : PQInnerData
  data : Bytes
  written : prim.write (.pqInnerData inner) = data
  reads : ∀ rest, prim.read (data ++ rest) = some (.pqInnerData inner)
  /-- No constructor of the four begins with a zero byte. -/
  constructor : ∃ c rest, data = c :: rest ∧ c ≠ 0

/-- What a client that follows RSA_PAD makes of its data. -/
structure PadMessage (prim : Primitives) extends Serialized prim where
  padding : Bytes
  tempKey : Bytes
  length_padded : (data ++ padding).length = 192
  length_tempKey : tempKey.length = 32

namespace PadMessage

variable {prim : Primitives} (m : PadMessage prim)

def dataWithPadding : Bytes := m.data ++ m.padding

def dataWithHash : Bytes :=
  m.dataWithPadding.reverse ++ prim.sha256 (m.tempKey ++ m.dataWithPadding)

def aesEncrypted : Bytes := prim.ige256Encrypt m.dataWithHash m.tempKey (zeros 32)

def keyAesEncrypted : Bytes := xor m.tempKey (prim.sha256 m.aesEncrypted) ++ m.aesEncrypted

end PadMessage

/-- The client draws its key again until the message is below the modulus. -/
structure SealedMessage (prim : Primitives) (key : RSAKey) extends PadMessage prim where
  fits : toPadMessage.keyAesEncrypted.toNat < key.n

/-- A client that follows the old scheme. -/
structure OldMessage (prim : Primitives) extends Serialized prim where
  padding : Bytes
  length_whole : 1 + (prim.sha1 data).length + data.length + padding.length = 256

namespace OldMessage

variable {prim : Primitives} (m : OldMessage prim)

def whole : Bytes := 0 :: (prim.sha1 m.data ++ (m.data ++ m.padding))

/-- The digest does not begin with a zero byte; and where the message happens to pass the check of
RSA_PAD, what that check recovers reads as the same data. -/
def Readable : Prop :=
  match prim.rsaPadInverse m.whole with
  | none => (prim.sha1 m.data).head? ≠ some 0
  | some dataWithPadding => prim.read (lstrip dataWithPadding) = some (.pqInnerData m.inner)

end OldMessage

end Piltover.Keygen
