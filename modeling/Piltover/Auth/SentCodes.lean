/- source: piltover/app/handlers/auth.py, piltover/db/models/sentcode.py
   digest: Login codes are sent, replaced, cancelled and redeemed, statement by statement. -/

import Mathlib.Logic.Function.Basic
import Piltover.Foundation.Table

set_option autoImplicit false

namespace Piltover.Codes

open Piltover.Foundation

/-- A phone number as `_validate_phone` leaves it. -/
abbrev Phone := Nat

inductive PhoneCodePurpose
  | signin | signup | changeNumber | cancelAccountDeletion
  deriving DecidableEq, Repr

/-- `phone_code_hash`: the row and its hash, which is new for every code that is issued. -/
structure CodeHash where
  id : Nat
  hash : Nat
  deriving DecidableEq, Repr

structure SentCode where
  id : Nat
  phoneNumber : Phone
  code : Int
  hash : Nat
  expiresAt : Int
  used : Bool
  purpose : PhoneCodePurpose
  deriving DecidableEq, Repr

namespace SentCode

def phoneCodeHash (s : SentCode) : CodeHash := ⟨s.id, s.hash⟩

def genExpiresAt (now : Int) : Int := now + 5 * 60

/-- The end of `check_raise`. -/
def isExpired (s : SentCode) (now : Int) : Bool := decide (s.expiresAt < now)

end SentCode

structure SignIn where
  phoneNumber : Phone
  phoneCodeHash : CodeHash
  phoneCode : Int
  keyId : Nat
  deriving DecidableEq, Repr

structure SignUp where
  phoneNumber : Phone
  phoneCodeHash : CodeHash
  keyId : Nat
  namesValid : Bool
  deriving DecidableEq, Repr

inductive Request
  | sendCode (phoneNumber : Phone)
  | resendCode (phoneNumber : Phone) (phoneCodeHash : CodeHash)
  | cancelCode (phoneNumber : Phone) (phoneCodeHash : CodeHash)
  | signIn (r : SignIn)
  | signUp (r : SignUp)
  deriving DecidableEq, Repr

/-- The statement that is next in a request; a row is what the request has read. -/
inductive Stage
  | sending (phoneNumber : Phone)
  | resending (phoneNumber : Phone) (phoneCodeHash : CodeHash)
  | replacing (row : SentCode)
  | cancelling (phoneNumber : Phone) (phoneCodeHash : CodeHash)
  | deleting (row : SentCode)
  | returning (gone : List CodeHash)
  | expiring (row : SentCode)
  | signingIn (r : SignIn)
  | redeeming (r : SignIn) (row : SentCode)
  | lookingUp (r : SignIn)
  | leaving (r : SignIn)
  | signingUp (r : SignUp)
  | consuming (r : SignUp) (row : SentCode)
  | checkingPhone (r : SignUp)
  | creatingUser (r : SignUp)
  | authorizing (phoneNumber : Phone) (keyId : Nat)
  deriving DecidableEq, Repr

inductive Kind
  | signIn | signUp
  deriving DecidableEq, Repr

inductive Entry
  /-- A sign in with the row that is stored under the hash and the number, at a time. -/
  | compared (r : SignIn) (stored : Option SentCode) (now : Int)
  /-- The request has saved that the code is redeemed. -/
  | accepted (kind : Kind) (phoneCodeHash : CodeHash)
  | authorized (phoneNumber : Phone)
  | userCreated (phoneNumber : Phone)
  /-- A request has returned that has replaced or removed these codes. -/
  | returned (gone : List CodeHash)
  deriving DecidableEq, Repr

structure Tables where
  codes : Table SentCode.id
  users : List Phone
  authorizations : List (Nat × Phone)
  nextId : Nat
  nextHash : Nat

/-- What a statement does: to the tables, to its request, and what there is to tell of it. -/
structure Move where
  tables : Tables
  next : Option Stage
  entry : Option Entry

namespace Tables

variable (t : Tables)

def goesOn (stage : Stage) : Move := ⟨t, some stage, none⟩

def ends : Move := ⟨t, none, none⟩

/-- The row under the hash and the number. -/
def stored (number : Phone) (h : CodeHash) : Option SentCode :=
  (t.codes.get h.id).filter fun s => s.hash == h.hash && s.phoneNumber == number

/-- `SentCode.get_`. -/
def get_ (number : Phone) (h : CodeHash) (purpose : Option PhoneCodePurpose) : Option SentCode :=
  (t.stored number h).filter fun s => !s.used && purpose.all fun p => s.purpose == p

/-- `check_raise` without a code, and the statement that comes after it. -/
def checkRaise (row : Option SentCode) (now : Int) (next : SentCode → Stage) : Move :=
  match row with
  | none => t.ends
  | some s => if s.isExpired now then t.goesOn (.expiring s) else t.goesOn (next s)

def setCodes (codes : Table SentCode.id) : Tables := { t with codes }

/-- Save columns of the row, if it is still there. -/
def save (id : Nat) (change : SentCode → SentCode) (keeps : ∀ s, (change s).id = s.id) : Tables :=
  t.setCodes (t.codes.modify (fun s => s.id == id) change keeps)

def delete (id : Nat) : Tables := t.setCodes (t.codes.remove fun s => s.id == id)

def issue (number : Phone) (code now : Int) : Tables where
  codes := t.codes.insert ⟨t.nextId, number, code, t.nextHash, SentCode.genExpiresAt now, false,
    .signin⟩
  users := t.users
  authorizations := t.authorizations
  nextId := t.nextId + 1
  nextHash := t.nextHash + 1

def endsOf (row : SentCode) : List CodeHash :=
  row.phoneCodeHash :: ((t.codes.get row.id).map SentCode.phoneCodeHash).toList

def replace (id : Nat) (code now : Int) : Tables :=
  { t.save id (fun s => { s with
      code := code, hash := t.nextHash, expiresAt := SentCode.genExpiresAt now }) fun _ => rfl with
    nextHash := t.nextHash + 1 }

/-- What the check of `sign_in` leads to, if it does not refuse. -/
def check (r : SignIn) (now : Int) : Option Stage :=
  match t.get_ r.phoneNumber r.phoneCodeHash (some .signin) with
  | none => none
  | some s =>
    if s.code ≠ r.phoneCode then none
    else if s.isExpired now then some (.expiring s)
    else some (.redeeming r s)

def compare (r : SignIn) (now : Int) : Move :=
  ⟨t, t.check r now, some (.compared r (t.stored r.phoneNumber r.phoneCodeHash) now)⟩

end Tables

/-- The requests that begin with a look at the banned numbers end there for those. -/
def Request.start (banned : Phone → Bool) (t : Tables) : Request → Move
  | .sendCode number => if banned number then t.ends else t.goesOn (.sending number)
  | .resendCode number h => if banned number then t.ends else t.goesOn (.resending number h)
  | .cancelCode number h => t.goesOn (.cancelling number h)
  | .signIn r => t.goesOn (.signingIn r)
  | .signUp r => if banned r.phoneNumber then t.ends else t.goesOn (.signingUp r)

/-- The other statements, each an await, at a time and with the code that is drawn, if one is. -/
def Stage.advance (t : Tables) (now code : Int) : Stage → Move
  | .sending number => (t.issue number code now).ends
  | .resending number h => t.checkRaise (t.get_ number h none) now .replacing
  | .replacing row => (t.replace row.id code now).goesOn (.returning (t.endsOf row))
  | .cancelling number h => t.checkRaise (t.get_ number h none) now .deleting
  | .deleting row => (t.delete row.id).goesOn (.returning (t.endsOf row))
  | .returning gone => ⟨t, none, some (.returned gone)⟩
  | .expiring row => (t.delete row.id).ends
  | .signingIn r => t.compare r now
  | .redeeming r row =>
    ⟨t.save row.id (fun s => { s with
        used := false, expiresAt := SentCode.genExpiresAt now, purpose := .signup }) fun _ => rfl,
      some (.lookingUp r), some (.accepted .signIn row.phoneCodeHash)⟩
  | .lookingUp r => if t.users.contains r.phoneNumber then t.goesOn (.leaving r) else t.ends
  | .leaving r =>
    { t with authorizations := t.authorizations.filter fun a => a.1 != r.keyId }.goesOn
      (.authorizing r.phoneNumber r.keyId)
  | .signingUp r =>
    t.checkRaise (t.get_ r.phoneNumber r.phoneCodeHash (some .signup)) now (.consuming r)
  | .consuming r row =>
    ⟨t.save row.id (fun s => { s with used := true }) fun _ => rfl, some (.checkingPhone r),
      some (.accepted .signUp row.phoneCodeHash)⟩
  | .checkingPhone r =>
    if t.users.contains r.phoneNumber || !r.namesValid then t.ends
    else t.goesOn (.creatingUser r)
  | .creatingUser r =>
    if t.users.contains r.phoneNumber then t.ends
    else ⟨{ t with users := t.users ++ [r.phoneNumber] },
      some (.authorizing r.phoneNumber r.keyId), some (.userCreated r.phoneNumber)⟩
  | .authorizing number keyId =>
    if t.authorizations.any fun a => a.1 == keyId then t.ends
    else ⟨{ t with authorizations := t.authorizations ++ [(keyId, number)] }, none,
      some (.authorized number)⟩

/-- The tables, the requests under way, and what there is to tell. -/
structure World where
  tables : Tables
  calls : Nat → Option Stage
  log : List Entry

inductive Event
  | start (call : Nat) (r : Request)
  | go (call : Nat) (now code : Int)
  /-- The request is refused for another reason, or lost. -/
  | stop (call : Nat)
  deriving DecidableEq, Repr

namespace World

variable (banned : Phone → Bool) (w : World)

def apply (call : Nat) (move : Move) : World where
  tables := move.tables
  calls := Function.update w.calls call move.next
  log := w.log ++ move.entry.toList

def step : Event → Option World
  | .start call r =>
    match w.calls call with
    | none => some (w.apply call (r.start banned w.tables))
    | some _ => none
  | .go call now code => (w.calls call).map fun stage =>
    w.apply call (stage.advance w.tables now code)
  | .stop call => some (w.apply call w.tables.ends)

end World

end Piltover.Codes
