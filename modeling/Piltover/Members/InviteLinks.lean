/- source: piltover/db/models/chat_invite.py, piltover/app/handlers/messages/invites.py
   digest: The links of invites, and the invites that they lead to. -/

import Piltover.Failure
import Piltover.Foundation.Base64
import Piltover.Tl.Framing

set_option autoImplicit false

namespace Piltover.Members.InviteLinks

open Piltover.Foundation

/-- `bytes.hex`. -/
def hex (b : Bytes) : List Char :=
  b.flatMap fun c => [Nat.digitChar (c.toNat / 16), Nat.digitChar (c.toNat % 16)]

def hexValue (c : Char) : Option Nat :=
  if '0' ≤ c ∧ c ≤ '9' then some (c.toNat - 48)
  else if 'a' ≤ c ∧ c ≤ 'f' then some (c.toNat - 87)
  else if 'A' ≤ c ∧ c ≤ 'F' then some (c.toNat - 55)
  else none

def isBlank (c : Char) : Bool := c = ' ' || (9 ≤ c.toNat && c.toNat ≤ 13)

/-- `bytes.fromhex`, which passes over blanks between bytes, when it raises no `ValueError`. -/
def fromHex : List Char → Option Bytes
  | [] => some []
  | [c] => if isBlank c then some [] else none
  | c :: d :: rest =>
    if isBlank c then fromHex (d :: rest)
    else do
      let high ← hexValue c
      let low ← hexValue d
      let bytes ← fromHex rest
      return UInt8.ofNat (high * 16 + low) :: bytes

structure ChatInvite where
  id : Int
  nonce : List Char
  deriving DecidableEq, Repr

/-- `invite_gen_nonce`, from eight random bytes. -/
def inviteGenNonce (random : Bytes) : List Char := hex random

/-- The columns that a query compares. -/
structure InviteQuery where
  id : Int
  nonce : Option (List Char)
  deriving DecidableEq, Repr

def ChatInvite.toLinkHash (self : ChatInvite) : Option (List Char) := do
  let id ← Tl.writeInt Tl.Long.SIZE self.id
  let nonce ← fromHex self.nonce
  return Base64.strip (· == '=') (Base64.encode (id ++ nonce))

def queryFromLinkHash (linkNonce : List Char) : InviteQuery :=
  match Base64.decode (Base64.pad linkNonce) with
  | none => ⟨0, none⟩
  | some link =>
    if link.length ≠ 16 then ⟨0, none⟩
    else ⟨Tl.toSigned Tl.Long.SIZE (link.take 8), some (hex (link.drop 8))⟩

/-- The link in `to_tl`. -/
def ChatInvite.link (self : ChatInvite) : Option (List Char) :=
  self.toLinkHash.map fun hash => "https://t.me/+".toList ++ hash

/-- `text.rpartition(sep)[2]`, when the separator occurs. -/
def afterLast (sep : List Char) : List Char → Option (List Char)
  | [] => none
  | c :: rest => afterLast sep rest <|>
    if sep.isPrefixOf (c :: rest) then some ((c :: rest).drop sep.length) else none

/-- `value or None`. -/
def unlessEmpty (value : List Char) : Option (List Char) := if value.isEmpty then none else some value

/-- `_get_invite_hash_from_link`; `tgInvite` reads the query of a `tg://` link. -/
def getInviteHashFromLink (tgInvite : List Char → Except Failure (Option (List Char)))
    (link : List Char) : Except Failure (Option (List Char)) :=
  match afterLast "t.me/+".toList link with
  | some hash => .ok (unlessEmpty hash)
  | none =>
    match afterLast "t.me/joinchat/".toList link with
    | some hash => .ok (unlessEmpty hash)
    | none => if "tg://".toList.isPrefixOf link then tgInvite link else .ok none

theorem hex_spec : ∀ n < 16, hexValue (Nat.digitChar n) = some n ∧
    isBlank (Nat.digitChar n) = false := by
  decide

theorem fromHex_hex (b : Bytes) : fromHex (hex b) = some b := by
  induction b with
  | nil => rfl
  | cons c rest ih =>
    have bound := c.toNat_lt
    obtain ⟨high, data⟩ := hex_spec (c.toNat / 16) (by omega)
    obtain ⟨low, -⟩ := hex_spec (c.toNat % 16) (by omega)
    have whole : UInt8.ofNat (c.toNat / 16 * 16 + c.toNat % 16) = c :=
      Base64.ofNat_of_eq (by omega)
    show fromHex (_ :: _ :: hex rest) = _
    rw [fromHex, data, if_neg Bool.false_ne_true, high, low, ih]
    exact congrArg (fun d => some (d :: rest)) whole

theorem afterLast_eq_none {sep text : List Char} {c : Char} (part : c ∈ sep) (lacks : c ∉ text) :
    afterLast sep text = none := by
  induction text with
  | nil => rfl
  | cons d rest ih =>
    have absent : ¬ sep.isPrefixOf (d :: rest) = true :=
      fun front => lacks ((List.isPrefixOf_iff_prefix.mp front).subset part)
    rw [afterLast, ih fun later => lacks (List.mem_cons_of_mem d later), if_neg absent]
    rfl

theorem urlsafeChar_kept : ∀ n < 64, (Base64.urlsafeChar n).isAlphanum ∨
    Base64.urlsafeChar n = '-' ∨ Base64.urlsafeChar n = '_' := by
  decide +kernel

theorem getInviteHashFromLink_link {hash : List Char} (some : hash ≠ []) (lacks : '+' ∉ hash)
    (tgInvite : List Char → Except Failure (Option (List Char))) :
    getInviteHashFromLink tgInvite ("https://t.me/+".toList ++ hash) = .ok (.some hash) := by
  have none : afterLast "t.me/+".toList hash = none := afterLast_eq_none (by decide) lacks
  have last : afterLast "t.me/+".toList ("https://t.me/+".toList ++ hash) = .some hash := by
    show afterLast ['t', '.', 'm', 'e', '/', '+'] ('h' :: 't' :: 't' :: 'p' :: 's' :: ':' :: '/' ::
      '/' :: 't' :: '.' :: 'm' :: 'e' :: '/' :: '+' :: hash) = .some hash
    have none' : afterLast ['t', '.', 'm', 'e', '/', '+'] hash = .none := none
    simp [afterLast, none']
  rw [getInviteHashFromLink, last]
  exact congrArg Except.ok (if_neg fun empty => some (List.isEmpty_iff.mp empty))

theorem link_found {id : Int} (fits : Tl.FitsInt Tl.Long.SIZE id) {random : Bytes}
    (eight : random.length = 8) (tgInvite : List Char → Except Failure (Option (List Char))) :
    ∃ link hash, (ChatInvite.mk id (inviteGenNonce random)).link = some link ∧
      getInviteHashFromLink tgInvite link = .ok (some hash) ∧
      (∀ c ∈ hash, c.isAlphanum ∨ c = '-' ∨ c = '_') ∧
      queryFromLinkHash hash = ⟨id, some (inviteGenNonce random)⟩ := by
  obtain ⟨code, written⟩ := Option.isSome_iff_exists.mp (Tl.writeInt_isSome.mpr fits)
  have long : code.length = 8 := Tl.length_of_writeInt written
  have hash : (ChatInvite.mk id (inviteGenNonce random)).toLinkHash =
      some (Base64.digits (code ++ random)) := by
    simp only [ChatInvite.toLinkHash, written, inviteGenNonce, fromHex_hex, Option.bind_eq_bind,
      Option.bind_some, Base64.strip_encode]
    rfl
  have plain := Base64.plain_digits (code ++ random)
  have lacks : '+' ∉ Base64.digits (code ++ random) := by
    intro listed
    obtain ⟨n, small, same⟩ := plain '+' listed
    exact (Base64.urlsafeChar_spec n small).2.2.2 same.symm
  have some : Base64.digits (code ++ random) ≠ [] := by
    intro empty
    have decoded := Base64.decode_encode (code ++ random)
    rw [Base64.encode, empty] at decoded
    cases (List.append_eq_nil_iff.mp (Option.some.inj decoded).symm).2
    cases eight
  refine ⟨_, _, congrArg (Option.map _) hash, getInviteHashFromLink_link some lacks tgInvite, ?_, ?_⟩
  · intro c listed
    obtain ⟨n, small, rfl⟩ := plain c listed
    exact urlsafeChar_kept n small
  · have sized : (code ++ random).length = 16 := by
      rw [List.length_append, long, eight]
    rw [queryFromLinkHash, ← Base64.encode, Base64.decode_encode]
    dsimp only
    rw [if_neg (not_not_intro sized), List.take_left' long, List.drop_left' long,
      (Tl.writeInt_eq_some.mp written).2, Tl.toSigned_leOfNat (by decide) fits]
    rfl

theorem link_found_five :
    ∃ link hash, (ChatInvite.mk 5 (inviteGenNonce (List.replicate 8 171))).link = some link ∧
      getInviteHashFromLink (fun _ => .ok none) link = .ok (some hash) ∧
      (∀ c ∈ hash, c.isAlphanum ∨ c = '-' ∨ c = '_') ∧
      queryFromLinkHash hash = ⟨5, some (inviteGenNonce (List.replicate 8 171))⟩ :=
  link_found ⟨by decide, by decide⟩ rfl _

end Piltover.Members.InviteLinks
