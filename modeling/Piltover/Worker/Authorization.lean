/- source: piltover/worker.py, piltover/session/session.py, piltover/app/handlers/auth.py
   digest: Which calls a handler runs for, and what sessions remember of authorizations. -/

import Mathlib.Logic.Function.Basic
import Piltover.Failure
import Piltover.Foundation.Runs
import Piltover.Foundation.Table

set_option autoImplicit false

namespace Piltover.Worker

open Piltover.Foundation
open Piltover.Foundation.Runs

structure ReqHandlerFlags where
  authNotRequired : Bool
  allowMfaPending : Bool
  botNotAllowed : Bool
  userNotAllowed : Bool
  isInternal : Bool
  dontFetchUser : Bool
  deriving DecidableEq, Repr

structure RequestHandler where
  flags : ReqHandlerFlags
  hasUserArg : Bool
  deriving DecidableEq, Repr

def RequestHandler.authRequired (h : RequestHandler) : Bool := !h.flags.authNotRequired

/-- What the gateway passes on of a request. -/
structure CallRpc where
  obj : Nat
  userId : Option Nat
  authId : Option Nat
  isBot : Bool
  mfaPending : Bool
  deriving DecidableEq, Repr

/-- A row of `UserAuthorization`, with the `bot` of its user. -/
structure UserAuthorization where
  id : Nat
  userId : Nat
  keyId : Nat
  mfaPending : Bool
  bot : Bool
  deriving DecidableEq, Repr

/-- The table, whose next identifier is greater than all that it has given out. -/
structure Authorizations where
  rows : Table UserAuthorization.id
  nextId : Nat
  bound : ∀ row ∈ rows, row.id < nextId

namespace Authorizations

variable (auths : Authorizations)

/-- `User.get_or_none` with the authorization; the user of an authorization is there. -/
def ofUser (userId authId : Nat) : Option Nat :=
  ((auths.rows.get authId).filter fun row => row.userId == userId).map UserAuthorization.userId

def remove (check : UserAuthorization → Bool) : Authorizations where
  rows := auths.rows.remove check
  nextId := auths.nextId
  bound := fun row here => auths.bound row (Table.mem_remove.mp here).1

def create (userId keyId : Nat) (mfaPending bot : Bool) : Authorizations where
  rows := auths.rows.insert ⟨auths.nextId, userId, keyId, mfaPending, bot⟩
  nextId := auths.nextId + 1
  bound := by
    have fresh : auths.rows.get auths.nextId = none :=
      Table.get_eq_none_iff.mpr fun row here => Nat.ne_of_lt (auths.bound row here)
    intro row here
    rcases (Table.mem_insert fresh).mp here with old | rfl
    · exact Nat.lt_succ_of_lt (auths.bound row old)
    · exact Nat.lt_succ_self _

def confirm (authId : Nat) : Authorizations where
  rows := auths.rows.modify (fun row => row.id == authId)
    (fun row => { row with mfaPending := false }) fun _ => rfl
  nextId := auths.nextId
  bound := by
    intro row here
    obtain ⟨old, listed, rfl⟩ := Table.mem_modify.mp here
    split
    · exact auths.bound old listed
    · exact auths.bound old listed

end Authorizations

/-- `Worker.get_user`. -/
def getUser (auths : Authorizations) (call : CallRpc) (allowMfaPending : Bool) :
    Except Failure (Option Nat) :=
  match call.userId, call.authId with
  | some userId, some authId =>
    if call.mfaPending && !allowMfaPending then .error (.rpc 401 "SESSION_PASSWORD_NEEDED")
    else .ok (auths.ofUser userId authId)
  | _, _ => .ok none

namespace RequestHandler

variable (h : RequestHandler) (call : CallRpc)

def checkCaller : Except Failure Unit := do
  require (!h.flags.isInternal) (.rpc 500 "NOT_IMPLEMENTED")
  require (!(call.isBot && h.flags.botNotAllowed)) (.rpc 400 "BOT_METHOD_INVALID")
  require (!(!call.isBot && h.flags.userNotAllowed)) (.rpc 400 "USER_BOT_REQUIRED")

/-- The branch of `_handle_tl_rpc` that fetches the user. -/
def fetchUser (auths : Authorizations) : Except Failure (Option Nat) := do
  let user ← getUser auths call h.flags.allowMfaPending
  require (!(user.isNone && h.authRequired)) (.rpc 401 "AUTH_KEY_UNREGISTERED")
  return user

/-- The branch for `DONT_FETCH_USER`. -/
def checkUser : Except Failure Unit := do
  require (call.userId.any fun userId => userId != 0) (.rpc 401 "AUTH_KEY_UNREGISTERED")
  require (!(call.mfaPending && !h.flags.allowMfaPending)) (.rpc 401 "SESSION_PASSWORD_NEEDED")

/-- `_handle_tl_rpc` up to the call of the handler, with the user that it is called with. -/
def checkAuth (auths : Authorizations) : Except Failure (Option Nat) := do
  h.checkCaller call
  if (h.authRequired || h.hasUserArg) && !h.flags.dontFetchUser then h.fetchUser call auths
  else if h.flags.dontFetchUser && h.authRequired then (h.checkUser call).map fun _ => none
  else return none

end RequestHandler

/-- What a session of the gateway remembers. -/
structure Session where
  permAuthKeyId : Option Nat
  userId : Option Nat
  authId : Option Nat
  isBot : Bool
  mfaPending : Bool
  deriving DecidableEq, Repr

namespace Session

variable (s : Session)

def resetAuth : Session :=
  { s with userId := none, authId := none, isBot := false, mfaPending := false }

/-- `refresh_auth_maybe`, where it looks the authorization up. -/
def refreshAuth (auths : Authorizations) : Session :=
  match s.permAuthKeyId.bind fun keyId => auths.rows.rows.find? fun row => row.keyId == keyId with
  | none => s.resetAuth
  | some row => { s with userId := some row.userId, authId := some row.id, isBot := row.bot,
                         mfaPending := row.mfaPending }

/-- `_kiq`. -/
def call (obj : Nat) : CallRpc := ⟨obj, s.userId, s.authId, s.isBot, s.mfaPending⟩

end Session

/-- A handler that was run, with the row of the authorization at that moment, or a removal. -/
inductive Entry
  | executed (h : RequestHandler) (call : CallRpc) (row : Option UserAuthorization)
  | removed (authId : Nat)
  deriving DecidableEq, Repr

/-- The authorizations, the sessions of the gateway, the calls on their way to a worker, and what
has happened. -/
structure World where
  auths : Authorizations
  sessions : Nat → Session
  calls : Nat → Option CallRpc
  log : List Entry

inductive Event
  -- A session gets its key, and may refresh what it remembers, any time before it sends a request.
  | key (session : Nat) (permAuthKeyId : Option Nat)
  | refresh (session : Nat)
  | request (session call obj : Nat)
  | work (call : Nat)
  -- What handlers do to the authorizations.
  | signIn (userId keyId : Nat) (mfaPending bot : Bool)
  | signUp (userId keyId : Nat) (mfaPending bot : Bool)
  | checkPassword (authId : Nat)
  | logOut (keyId : Nat)
  | resetAuthorizations (userId authId : Nat)
  | delete (ids : List Nat)
  deriving DecidableEq, Repr

namespace World

variable (handlers : Nat → Option RequestHandler) (w : World)

def begin (auths : Authorizations) : World where
  auths := auths
  sessions := fun _ => ⟨none, none, none, false, false⟩
  calls := fun _ => none
  log := []

def setSession (session : Nat) (s : Session) : World :=
  { w with sessions := Function.update w.sessions session s }

def remove (check : UserAuthorization → Bool) : World :=
  { w with
    auths := w.auths.remove check
    log := w.log ++ (w.auths.rows.rows.filter check).map fun row => .removed row.id }

def create (userId keyId : Nat) (mfaPending bot : Bool) : World :=
  { w with auths := w.auths.create userId keyId mfaPending bot }

/-- The worker takes the call, and runs the handler if it is admitted. -/
def work (call : Nat) (c : CallRpc) : World :=
  let left := { w with calls := Function.update w.calls call none }
  match handlers c.obj with
  | none => left
  | some h =>
    match h.checkAuth c w.auths with
    | .error _ => left
    | .ok _ => { left with log := w.log ++ [.executed h c (c.authId.bind w.auths.rows.get)] }

def step : Event → Option World
  | .key session permAuthKeyId =>
    some (w.setSession session { w.sessions session with permAuthKeyId })
  | .refresh session => some (w.setSession session ((w.sessions session).refreshAuth w.auths))
  | .request session call obj =>
    some { w with calls := Function.update w.calls call (some ((w.sessions session).call obj)) }
  | .work call => (w.calls call).map (w.work handlers call)
  | .signIn userId keyId mfaPending bot =>
    some ((w.remove fun row => row.keyId == keyId).create userId keyId mfaPending bot)
  | .signUp userId keyId mfaPending bot =>
    -- A key has one authorization.
    if w.auths.rows.rows.any fun row => row.keyId == keyId then none
    else some (w.create userId keyId mfaPending bot)
  | .checkPassword authId => some { w with auths := w.auths.confirm authId }
  | .logOut keyId => some (w.remove fun row => row.keyId == keyId)
  | .resetAuthorizations userId authId =>
    some (w.remove fun row => row.userId == userId && row.id != authId)
  | .delete ids => some (w.remove fun row => ids.contains row.id)

/-- A handler that does not fetch the user is not run for an authorization that is gone. -/
def Current : Event → Prop
  | .work call => ∀ c h, w.calls call = some c → handlers c.obj = some h → h.authRequired = true →
      h.flags.dontFetchUser = true → (∃ user, h.checkAuth c w.auths = .ok user) →
        ∃ row ∈ w.auths.rows, c.authId = some row.id
  | _ => True

end World

/-- The handler was run for an authorization of the user of the call that was stored, and confirmed
where that matters. -/
def Entry.Authorized : Entry → Prop
  | .executed h call row => h.authRequired = true → ∃ auth, row = some auth ∧
      call.authId = some auth.id ∧ call.userId = some auth.userId ∧
        (h.flags.allowMfaPending = true ∨ auth.mfaPending = false)
  | .removed _ => True

/-- Nothing is run for an authorization after its removal. -/
def Entry.NotAfter (before after : Entry) : Prop :=
  match before, after with
  | .removed authId, .executed h call _ => h.authRequired = true → call.authId ≠ some authId
  | _, _ => True

/-- What is remembered of an authorization is right as long as the row is there: the user stays, and
nobody who is confirmed becomes pending. -/
structure Agrees (auths : Authorizations) (userId authId : Option Nat) (mfaPending : Bool) :
    Prop where
  given : ∀ id, authId = some id → id < auths.nextId
  row : ∀ row ∈ auths.rows, authId = some row.id →
    userId = some row.userId ∧ (row.mfaPending = true → mfaPending = true)

/-- What becomes of the table: rows are confirmed or go, and new ones have new identifiers. -/
structure Later (before after : Authorizations) : Prop where
  nextId : before.nextId ≤ after.nextId
  rows : ∀ row ∈ after.rows, before.nextId ≤ row.id ∨ ∃ old ∈ before.rows, old.id = row.id ∧
    old.userId = row.userId ∧ (row.mfaPending = true → old.mfaPending = true)

section Tables

variable {auths before after : Authorizations} {userId authId : Option Nat} {mfaPending : Bool}

theorem later_remove (auths : Authorizations) (check : UserAuthorization → Bool) :
    Later auths (auths.remove check) where
  nextId := Nat.le_refl _
  rows := fun row here => .inr ⟨row, (Table.mem_remove.mp here).1, rfl, rfl, id⟩

theorem later_create (auths : Authorizations) (userId keyId : Nat) (mfaPending bot : Bool) :
    Later auths (auths.create userId keyId mfaPending bot) where
  nextId := Nat.le_succ _
  rows := by
    have fresh : auths.rows.get auths.nextId = none :=
      Table.get_eq_none_iff.mpr fun row here => Nat.ne_of_lt (auths.bound row here)
    intro row here
    rcases (Table.mem_insert fresh).mp here with old | rfl
    · exact .inr ⟨row, old, rfl, rfl, id⟩
    · exact .inl (Nat.le_refl _)

theorem later_confirm (auths : Authorizations) (authId : Nat) :
    Later auths (auths.confirm authId) where
  nextId := Nat.le_refl _
  rows := by
    intro row here
    obtain ⟨old, listed, changed⟩ := List.mem_map.mp (Table.mem_def.mp here)
    rw [← changed]
    refine .inr ⟨old, listed, ?_⟩
    split
    · exact ⟨rfl, rfl, fun pending => by cases pending⟩
    · exact ⟨rfl, rfl, id⟩

theorem Agrees.later (later : Later before after)
    (agrees : Agrees before userId authId mfaPending) :
    Agrees after userId authId mfaPending where
  given := fun id named => Nat.lt_of_lt_of_le (agrees.given id named) later.nextId
  row := by
    intro row here named
    rcases later.rows row here with new | ⟨old, listed, same, user, pending⟩
    · have := agrees.given row.id named
      omega
    · rw [← same] at named
      obtain ⟨known, before⟩ := agrees.row old listed named
      exact ⟨known.trans (congrArg some user), fun waits => before (pending waits)⟩

theorem agrees_none (auths : Authorizations) (userId : Option Nat) (mfaPending : Bool) :
    Agrees auths userId none mfaPending :=
  ⟨fun _ named => (by cases named), fun _ _ named => (by cases named)⟩

theorem agrees_refreshAuth (auths : Authorizations) (s : Session) :
    Agrees auths (s.refreshAuth auths).userId (s.refreshAuth auths).authId
      (s.refreshAuth auths).mfaPending := by
  unfold Session.refreshAuth
  split
  · exact agrees_none auths none false
  · rename_i row found
    obtain ⟨keyId, -, listed⟩ := Option.bind_eq_some_iff.mp found
    have here : row ∈ auths.rows := List.mem_of_find?_eq_some listed
    refine ⟨fun id named => ?_, fun other there named => ?_⟩
    · rw [← Option.some.inj named]
      exact auths.bound row here
    · rw [Table.eq_of_key_eq there here (Option.some.inj named).symm]
      exact ⟨rfl, id⟩

theorem ofUser_eq_some {user authId id : Nat} :
    auths.ofUser user authId = some id ↔
      id = user ∧ ∃ row ∈ auths.rows, row.id = authId ∧ row.userId = user := by
  rw [Authorizations.ofUser, Option.map_eq_some_iff]
  constructor
  · rintro ⟨row, found, rfl⟩
    obtain ⟨got, same⟩ := Option.filter_eq_some_iff.mp found
    obtain ⟨here, named⟩ := Table.get_eq_some_iff.mp got
    exact ⟨beq_iff_eq.mp same, row, here, named, beq_iff_eq.mp same⟩
  · rintro ⟨rfl, row, here, rfl, rfl⟩
    exact ⟨row, Option.filter_eq_some_iff.mpr ⟨Table.mem_iff_get.mp here, beq_iff_eq.mpr rfl⟩, rfl⟩

end Tables

section Branches

variable (h : RequestHandler) (call : CallRpc) (auths : Authorizations)

/-- The handler with the other branch. -/
def RequestHandler.withDontFetch (dontFetchUser : Bool) : RequestHandler :=
  { h with flags := { h.flags with dontFetchUser } }

/-- The authorization that the call names is stored for the user that it names. -/
def Stored : Prop :=
  ∃ row ∈ auths.rows, call.authId = some row.id ∧ call.userId = some row.userId

/-- The call is let through by what it says of itself: its kind of user, and no pending password. -/
def PassesChecks : Prop :=
  h.checkCaller call = .ok () ∧ (call.mfaPending = true → h.flags.allowMfaPending = true)

def Accepts : Prop := ∃ user, h.checkAuth call auths = .ok user

variable {h call auths}

theorem pending_iff {pending allowed : Bool} :
    (!(pending && !allowed)) = true ↔ (pending = true → allowed = true) := by
  cases pending <;> cases allowed <;> simp

theorem accepts_dontFetch (required : h.authRequired = true) (dont : h.flags.dontFetchUser = true) :
    Accepts h call auths ↔
      PassesChecks h call ∧ (call.userId.any fun userId => userId != 0) = true := by
  have first : ((h.authRequired || h.hasUserArg) && !h.flags.dontFetchUser) = false := by
    rw [dont, Bool.not_true, Bool.and_false]
  have second : (h.flags.dontFetchUser && h.authRequired) = true := by
    rw [dont, required, Bool.and_true]
  have checks : h.checkUser call = .ok () ↔
      (call.userId.any fun userId => userId != 0) = true ∧
        (call.mfaPending = true → h.flags.allowMfaPending = true) := by
    rw [RequestHandler.checkUser, check_bind_eq_ok, require_eq_ok, require_eq_ok, pending_iff]
  have opened : ∀ user, h.checkAuth call auths = .ok user ↔
      h.checkCaller call = .ok () ∧ h.checkUser call = .ok () ∧ none = user := by
    intro user
    rw [RequestHandler.checkAuth, check_bind_eq_ok, first, if_neg Bool.false_ne_true, second,
      if_pos rfl, map_eq_ok]
    exact and_congr_right fun _ => ⟨fun ⟨_, checked, same⟩ => ⟨checked, same⟩,
      fun ⟨checked, same⟩ => ⟨(), checked, same⟩⟩
  constructor
  · rintro ⟨user, admitted⟩
    obtain ⟨caller, checked, -⟩ := (opened user).mp admitted
    obtain ⟨known, waits⟩ := checks.mp checked
    exact ⟨⟨caller, waits⟩, known⟩
  · rintro ⟨⟨caller, waits⟩, known⟩
    exact ⟨none, (opened none).mpr ⟨caller, checks.mpr ⟨known, waits⟩, rfl⟩⟩

theorem getUser_eq_some {allowMfaPending : Bool} {user : Nat} :
    getUser auths call allowMfaPending = .ok (some user) ↔
      (call.mfaPending = true → allowMfaPending = true) ∧ call.userId = some user ∧
        Stored call auths := by
  unfold getUser Stored
  split
  · rename_i userId authId user_eq auth_eq
    rw [← pending_iff]
    split
    · rename_i waits
      rw [waits]
      exact ⟨fun none => (by cases none), fun all => (by cases all.1)⟩
    · rename_i waits
      rw [Bool.not_eq_true] at waits
      rw [waits, Except.ok.injEq, ofUser_eq_some, user_eq, auth_eq]
      constructor
      · rintro ⟨rfl, row, here, named, owned⟩
        exact ⟨rfl, rfl, row, here, congrArg some named.symm, congrArg some owned.symm⟩
      · rintro ⟨-, same, row, here, named, owned⟩
        exact ⟨(Option.some.inj same).symm, row, here, (Option.some.inj named).symm,
          (Option.some.inj owned).symm⟩
  · rename_i missing
    refine ⟨fun none => (by cases none), fun all => ?_⟩
    obtain ⟨-, user_eq, row, -, auth_eq, -⟩ := all
    exact absurd auth_eq (missing _ _ user_eq)

theorem accepts_fetch (required : h.authRequired = true) (fetch : h.flags.dontFetchUser = false) :
    Accepts h call auths ↔ PassesChecks h call ∧ Stored call auths := by
  have first : ((h.authRequired || h.hasUserArg) && !h.flags.dontFetchUser) = true := by
    rw [fetch, required, Bool.true_or, Bool.not_false, Bool.and_true]
  have opened : ∀ user, h.checkAuth call auths = .ok user ↔ h.checkCaller call = .ok () ∧
      getUser auths call h.flags.allowMfaPending = .ok user ∧ user.isNone = false := by
    intro user
    rw [RequestHandler.checkAuth, check_bind_eq_ok, first, if_pos rfl, RequestHandler.fetchUser,
      bind_eq_ok]
    refine and_congr_right fun _ => ?_
    constructor
    · rintro ⟨found, fetched, rest⟩
      obtain ⟨there, same⟩ := check_bind_eq_ok.mp rest
      cases same
      rw [require_eq_ok, required, Bool.and_true, Bool.not_eq_true'] at there
      exact ⟨fetched, there⟩
    · rintro ⟨fetched, there⟩
      refine ⟨user, fetched, check_bind_eq_ok.mpr ⟨?_, rfl⟩⟩
      rw [require_eq_ok, required, Bool.and_true, there]
      rfl
  constructor
  · rintro ⟨user, admitted⟩
    obtain ⟨caller, fetched, there⟩ := (opened user).mp admitted
    cases user with
    | none => cases there
    | some id =>
      obtain ⟨waits, -, stored⟩ := getUser_eq_some.mp fetched
      exact ⟨⟨caller, waits⟩, stored⟩
  · rintro ⟨⟨caller, waits⟩, row, here, named, owned⟩
    exact ⟨some row.userId, (opened _).mpr
      ⟨caller, getUser_eq_some.mpr ⟨waits, owned, row, here, named, owned⟩, rfl⟩⟩

/-- The two branches accept a call alike exactly when, if it passes its own checks, it names a user
exactly as long as the authorization is stored for that user. -/
theorem branches_agree_iff (required : h.authRequired = true) :
    (Accepts (h.withDontFetch true) call auths ↔ Accepts (h.withDontFetch false) call auths) ↔
      (PassesChecks h call →
        ((call.userId.any fun userId => userId != 0) = true ↔ Stored call auths)) := by
  have dont : Accepts (h.withDontFetch true) call auths ↔
      PassesChecks h call ∧ (call.userId.any fun userId => userId != 0) = true :=
    accepts_dontFetch required rfl
  have fetch : Accepts (h.withDontFetch false) call auths ↔
      PassesChecks h call ∧ Stored call auths := accepts_fetch required rfl
  rw [dont, fetch]
  exact and_congr_right_iff

end Branches

/-- What is remembered is right, and so is what has been run. -/
structure World.Inv (w : World) : Prop where
  sessions : ∀ session, Agrees w.auths (w.sessions session).userId (w.sessions session).authId
    (w.sessions session).mfaPending
  calls : ∀ call c, w.calls call = some c → Agrees w.auths c.userId c.authId c.mfaPending
  authorized : ∀ e ∈ w.log, e.Authorized
  gone : ∀ authId, Entry.removed authId ∈ w.log →
    authId < w.auths.nextId ∧ ∀ row ∈ w.auths.rows, row.id ≠ authId
  ordered : w.log.Pairwise Entry.NotAfter

namespace World

variable {handlers : Nat → Option RequestHandler} {w t : World}

theorem inv_begin (auths : Authorizations) : (World.begin auths).Inv where
  sessions := fun _ => agrees_none auths none false
  calls := fun _ _ here => by cases here
  authorized := fun _ here => by cases here
  gone := fun _ here => by cases here
  ordered := List.Pairwise.nil

theorem Inv.withAuths (inv : w.Inv) {auths : Authorizations} (later : Later w.auths auths) :
    World.Inv { w with auths } where
  sessions := fun session => (inv.sessions session).later later
  calls := fun call c here => (inv.calls call c here).later later
  authorized := inv.authorized
  gone := by
    intro authId here
    obtain ⟨given, none⟩ := inv.gone authId here
    refine ⟨Nat.lt_of_lt_of_le given later.nextId, fun row there => ?_⟩
    rcases later.rows row there with new | ⟨old, listed, same, -⟩
    · omega
    · rw [← same]
      exact none old listed
  ordered := inv.ordered

theorem Inv.remove (inv : w.Inv) (check : UserAuthorization → Bool) : (w.remove check).Inv := by
  have removed := inv.withAuths (later_remove w.auths check)
  have listed : ∀ e ∈ (w.auths.rows.rows.filter check).map fun row => Entry.removed row.id,
      ∃ row ∈ w.auths.rows, check row = true ∧ Entry.removed row.id = e := by
    intro e here
    obtain ⟨row, chosen, same⟩ := List.mem_map.mp here
    obtain ⟨there, checked⟩ := List.mem_filter.mp chosen
    exact ⟨row, there, checked, same⟩
  refine ⟨removed.sessions, removed.calls, fun e here => ?_, fun authId here => ?_, ?_⟩
  · rcases List.mem_append.mp here with old | new
    · exact inv.authorized e old
    · obtain ⟨row, -, -, same⟩ := listed e new
      rw [← same]
      trivial
  · rcases List.mem_append.mp here with old | new
    · exact removed.gone authId old
    · obtain ⟨row, there, checked, same⟩ := listed _ new
      cases same
      refine ⟨w.auths.bound row there, fun other left named => ?_⟩
      obtain ⟨stored, unchecked⟩ := Table.mem_remove.mp left
      rw [Table.eq_of_key_eq stored there named, checked] at unchecked
      cases unchecked
  · refine List.pairwise_append.mpr ⟨inv.ordered, ?_, fun before _ after new => ?_⟩
    · refine List.pairwise_map.mpr (List.pairwise_of_forall fun _ _ => ?_)
      trivial
    · obtain ⟨row, -, -, same⟩ := listed after new
      rw [← same]
      cases before <;> trivial

theorem Inv.create (inv : w.Inv) (userId keyId : Nat) (mfaPending bot : Bool) :
    (w.create userId keyId mfaPending bot).Inv :=
  inv.withAuths (later_create w.auths userId keyId mfaPending bot)

theorem Inv.setSession (inv : w.Inv) (session : Nat) {s : Session}
    (agrees : Agrees w.auths s.userId s.authId s.mfaPending) : (w.setSession session s).Inv where
  sessions := by
    intro other
    show Agrees w.auths (Function.update w.sessions session s other).userId
      (Function.update w.sessions session s other).authId
      (Function.update w.sessions session s other).mfaPending
    rw [Function.update_apply]
    split
    · exact agrees
    · exact inv.sessions other
  calls := inv.calls
  authorized := inv.authorized
  gone := inv.gone
  ordered := inv.ordered

theorem Inv.setCall (inv : w.Inv) (call : Nat) {c : Option CallRpc}
    (agrees : ∀ c', c = some c' → Agrees w.auths c'.userId c'.authId c'.mfaPending) :
    World.Inv { w with calls := Function.update w.calls call c } where
  sessions := inv.sessions
  calls := by
    intro other c' here
    have updated : Function.update w.calls call c other = some c' := here
    rw [Function.update_apply] at updated
    split at updated
    · exact agrees c' updated
    · exact inv.calls other c' updated
  authorized := inv.authorized
  gone := inv.gone
  ordered := inv.ordered

theorem admitted_row {h : RequestHandler} {c : CallRpc} (required : h.authRequired = true)
    (agrees : Agrees w.auths c.userId c.authId c.mfaPending) (accepts : Accepts h c w.auths)
    (current : h.flags.dontFetchUser = true → ∃ row ∈ w.auths.rows, c.authId = some row.id) :
    ∃ row ∈ w.auths.rows, c.authId = some row.id ∧ c.userId = some row.userId ∧
      (h.flags.allowMfaPending = true ∨ row.mfaPending = false) := by
  have stored : ∃ row ∈ w.auths.rows, c.authId = some row.id := by
    cases dont : h.flags.dontFetchUser with
    | true => exact current dont
    | false =>
      obtain ⟨row, here, named, -⟩ := ((accepts_fetch required dont).mp accepts).2
      exact ⟨row, here, named⟩
  have waits : c.mfaPending = true → h.flags.allowMfaPending = true := by
    cases dont : h.flags.dontFetchUser with
    | true => exact ((accepts_dontFetch required dont).mp accepts).1.2
    | false => exact ((accepts_fetch required dont).mp accepts).1.2
  obtain ⟨row, here, named⟩ := stored
  obtain ⟨owned, pending⟩ := agrees.row row here named
  refine ⟨row, here, named, owned, ?_⟩
  cases mfa : row.mfaPending with
  | true => exact .inl (waits (pending mfa))
  | false => exact .inr rfl

theorem work_keeps (inv : w.Inv) {call : Nat} {c : CallRpc} (here : w.calls call = some c)
    (current : w.Current handlers (.work call)) : (w.work handlers call c).Inv := by
  have left := inv.setCall call (c := none) fun _ none => by cases none
  unfold World.work
  dsimp only
  split
  · exact left
  · rename_i h registered
    split
    · exact left
    · rename_i user admitted
      have agrees := inv.calls call c here
      have accepts : Accepts h c w.auths := ⟨user, admitted⟩
      have found : h.authRequired = true → ∃ row ∈ w.auths.rows, c.authId = some row.id ∧
          c.userId = some row.userId ∧
            (h.flags.allowMfaPending = true ∨ row.mfaPending = false) := fun required =>
        admitted_row required agrees accepts fun dont =>
          current c h here registered required dont accepts
      refine ⟨left.sessions, left.calls, fun e listed => ?_, fun authId listed => ?_, ?_⟩
      · rcases List.mem_append.mp listed with old | new
        · exact inv.authorized e old
        · rw [List.mem_singleton.mp new]
          intro required
          obtain ⟨row, stored, named, owned, confirmed⟩ := found required
          refine ⟨row, ?_, named, owned, confirmed⟩
          rw [named, Option.bind_some]
          exact Table.mem_iff_get.mp stored
      · rcases List.mem_append.mp listed with old | new
        · exact inv.gone authId old
        · cases List.mem_singleton.mp new
      · refine List.pairwise_append.mpr ⟨inv.ordered, List.pairwise_singleton _ _, ?_⟩
        intro before earlier after new
        rw [List.mem_singleton.mp new]
        cases before with
        | executed h' c' row' => trivial
        | removed authId =>
          intro required named
          obtain ⟨row, stored, named', -⟩ := found required
          rw [named] at named'
          exact (inv.gone authId earlier).2 row stored (Option.some.inj named').symm

theorem step_keeps {e : Event} (inv : w.Inv) (current : w.Current handlers e)
    (happens : w.step handlers e = some t) : t.Inv := by
  cases e with
  | key session permAuthKeyId =>
    cases happens
    exact inv.setSession session (inv.sessions session)
  | refresh session =>
    cases happens
    exact inv.setSession session (agrees_refreshAuth w.auths (w.sessions session))
  | request session call obj =>
    cases happens
    refine inv.setCall call fun c same => ?_
    rw [← Option.some.inj same]
    exact inv.sessions session
  | work call =>
    obtain ⟨c, here, rfl⟩ := Option.map_eq_some_iff.mp happens
    exact work_keeps inv here current
  | signIn userId keyId mfaPending bot =>
    cases happens
    exact (inv.remove _).create userId keyId mfaPending bot
  | signUp userId keyId mfaPending bot =>
    unfold World.step at happens
    dsimp only at happens
    split at happens
    · cases happens
    · cases happens
      exact inv.create userId keyId mfaPending bot
  | checkPassword authId =>
    cases happens
    exact inv.withAuths (later_confirm w.auths authId)
  | logOut keyId =>
    cases happens
    exact inv.remove _
  | resetAuthorizations userId authId =>
    cases happens
    exact inv.remove _
  | delete ids =>
    cases happens
    exact inv.remove _

end World

/-- Where no handler that does not fetch the user is run for an authorization that is gone, all that
is run is authorized and nothing is run after a removal; and the branches agree on a call exactly
when it does not name an authorization that is gone. -/
theorem authorized_along (handlers : Nat → Option RequestHandler) (auths : Authorizations) :
    (∀ es, StepsMeet (World.step handlers) (World.Current handlers) (World.begin auths) es →
      HoldsAlong (World.step handlers)
        (fun w => (∀ e ∈ w.log, e.Authorized) ∧ w.log.Pairwise Entry.NotAfter)
        (World.begin auths) es) ∧
    ∀ (h : RequestHandler) (call : CallRpc), h.authRequired = true →
      ((Accepts (h.withDontFetch true) call auths ↔ Accepts (h.withDontFetch false) call auths) ↔
        (PassesChecks h call →
          ((call.userId.any fun userId => userId != 0) = true ↔ Stored call auths))) := by
  constructor
  · intro es meets
    exact holdsAlong_of_stepsMeet (fun _ inv => ⟨inv.authorized, inv.ordered⟩)
      (fun _ _ _ inv current happens => World.step_keeps inv current happens)
      (World.inv_begin auths) meets
  · intro h call required
    exact branches_agree_iff required

/-- The handler of one request, which does not fetch the user. -/
private def quickHandlers (obj : Nat) : Option RequestHandler :=
  if obj = 7 then some ⟨⟨false, false, false, false, false, true⟩, false⟩ else none

private def loggedIn : Authorizations where
  rows := Table.insert Table.empty ⟨0, 1, 5, false, false⟩
  nextId := 1
  bound := by
    intro row here
    rw [List.mem_singleton.mp here]
    exact Nat.one_pos

private def requested : List Event := [.key 0 (some 5), .refresh 0, .request 0 0 7]

/-- A request that is run before the log out is authorized. -/
theorem authorized_before_logOut : HoldsAlong (World.step quickHandlers)
    (fun w => (∀ e ∈ w.log, e.Authorized) ∧ w.log.Pairwise Entry.NotAfter) (World.begin loggedIn)
    (requested ++ [.work 0, .logOut 5]) := by
  refine (authorized_along quickHandlers loggedIn).1 _ ?_
  refine (stepsMeet_cons rfl).mpr ⟨trivial, ?_⟩
  refine (stepsMeet_cons rfl).mpr ⟨trivial, ?_⟩
  refine (stepsMeet_cons rfl).mpr ⟨trivial, ?_⟩
  refine (stepsMeet_cons rfl).mpr ⟨fun c h here _ _ _ _ => ?_, ?_⟩
  · rw [← Option.some.inj here]
    exact ⟨⟨0, 1, 5, false, false⟩, List.mem_singleton.mpr rfl, rfl⟩
  · exact (stepsMeet_cons rfl).mpr ⟨trivial, trivial⟩

/-- A request that was sent before the log out is run after it. -/
theorem run_after_logOut : ¬ ∀ (handlers : Nat → Option RequestHandler) (auths : Authorizations)
    (es : List Event), HoldsAlong (World.step handlers)
      (fun w => (∀ e ∈ w.log, e.Authorized) ∧ w.log.Pairwise Entry.NotAfter)
      (World.begin auths) es := by
  intro along
  have ended := along quickHandlers loggedIn (requested ++ [.logOut 5, .work 0]) _ _
    (List.prefix_refl _) rfl
  obtain ⟨auth, stored, -⟩ := ended.1 _ (List.mem_cons_of_mem _ List.mem_cons_self) rfl
  cases stored

end Piltover.Worker
