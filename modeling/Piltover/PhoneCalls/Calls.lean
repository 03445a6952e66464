/- source: piltover/app/handlers/phone.py, piltover/db/models/phone_call.py,
     piltover/tl/to_format/phone_call.py
   digest: One phone call, in any order of the turns of the requests on it. -/

import Piltover.Foundation.Bytes
import Piltover.Foundation.Interleaved
import Piltover.PhoneCalls.Protocols

set_option autoImplicit false

namespace Piltover.PhoneCalls

open Piltover.Foundation
open Piltover.Foundation.Interleaved
open Piltover.Foundation.Runs

/-- The user and the authorization that a request comes from. -/
structure Session where
  userId : Nat
  authId : Nat
  deriving DecidableEq, Repr

inductive CallDiscardReason
  | missed
  | disconnect
  | hangup
  | busy
  deriving DecidableEq, Repr

/-- A row; times are in microseconds. -/
structure PhoneCall where
  id : Int
  accessHash : Int
  startedAt : Option Int
  fromUserId : Nat
  fromSessId : Nat
  toUserId : Nat
  toSessId : Option Nat
  gAHash : Bytes
  gA : Option Bytes
  gB : Option Bytes
  keyFp : Option Int
  discardReason : Option CallDiscardReason
  duration : Option Int
  protocol : PhoneCallProtocol
  deriving DecidableEq, Repr

structure InputPhoneCall where
  id : Int
  accessHash : Int
  deriving DecidableEq, Repr

structure AcceptCall where
  peer : InputPhoneCall
  gB : Bytes
  protocol : PhoneCallProtocol
  deriving DecidableEq, Repr

structure ConfirmCall where
  peer : InputPhoneCall
  gA : Bytes
  keyFingerprint : Int
  protocol : PhoneCallProtocol
  deriving DecidableEq, Repr

/-- The requests on a call. `requestAgain` is another `RequestCall` from the same user to the one
with the number. -/
inductive Request
  | received (s : Session) (peer : InputPhoneCall)
  | accept (s : Session) (r : AcceptCall)
  | confirm (s : Session) (r : ConfirmCall)
  | discard (s : Session) (peer : InputPhoneCall) (disconnect : Bool)
  | requestAgain (s : Session) (toUserId : Nat)
  deriving DecidableEq, Repr

/-- A request that has read the row and is about to write it. A discarding has changed its copy. -/
inductive Stage
  | receiving (s : Session)
  | confirming (s : Session) (r : ConfirmCall)
  | discarding (s : Session) (copy : PhoneCall)
  | replacing
  deriving DecidableEq, Repr

/-- If the authorization of the request still exists, and the time. -/
structure Input where
  authorized : Bool
  now : Int
  deriving DecidableEq, Repr

/-- The call that a request answers with, before it is formatted for the one who gets it. -/
inductive Entry
  | received (s : Session) (answer : Except Failure Unit)
  | accept (s : Session) (r : AcceptCall) (answer : Except Failure PhoneCall)
  | confirm (s : Session) (r : ConfirmCall) (stored : Bool) (answer : Except Failure PhoneCall)
  | discard (s : Session) (answer : Except Failure PhoneCall)

/-- The row, and the requests that have ended. -/
structure Line where
  call : PhoneCall
  log : List Entry

def validDhBytes (data : Bytes) : Bool := !data.isEmpty && decide (data.length ≤ 256)

namespace PhoneCall

/-- `request_call` past the checks of the peer. -/
def request (s : Session) (toUserId : Nat) (peer : InputPhoneCall) (missed : Bool)
    (gAHash : Bytes) (offered : PhoneCallProtocol) : Except Failure PhoneCall := do
  let protocol ← checkProtocol offered
  require (gAHash.length == 32) (.rpc 400 "G_A_HASH_INVALID")
  return ⟨peer.id, peer.accessHash, none, s.userId, s.authId, toUserId, none, gAHash, none, none, none,
    if missed then some .missed else none, none, protocol⟩

variable (call : PhoneCall)

def named (peer : InputPhoneCall) : Bool := call.id == peer.id && call.accessHash == peer.accessHash

/-- The filter of `confirm_call`. -/
def confirms (s : Session) (r : ConfirmCall) : Bool :=
  call.fromUserId == s.userId && call.named r.peer && call.discardReason.isNone

/-- The transaction of `accept_call`. -/
def accept (s : Session) (r : AcceptCall) (protocol : PhoneCallProtocol) (authorized : Bool) :
    Except Failure PhoneCall := do
  require (call.toUserId == s.userId && call.named r.peer && call.discardReason.isNone)
    (.rpc 400 "CALL_PEER_INVALID")
  require call.gB.isNone (.rpc 400 "CALL_ALREADY_ACCEPTED")
  require (call.toSessId.all (· == s.authId)) (.rpc 400 "CALL_ALREADY_ACCEPTED")
  require authorized .other
  let merged ← mergeProtocols call.protocol protocol false
  return { call with toSessId := some s.authId, gB := some r.gB, protocol := merged }

/-- The transaction of `confirm_call`, when the call is not confirmed yet. -/
def confirm (r : ConfirmCall) (now : Int) : Except Failure PhoneCall := do
  let merged ← mergeProtocols call.protocol r.protocol true
  return { call with gA := some r.gA, keyFp := some r.keyFingerprint, protocol := merged, startedAt := some now }

/-- The checks of `confirm_call` before its transaction; they leave the protocol normalized. -/
def checkConfirm (sha256 : Bytes → Bytes) (s : Session) (r : ConfirmCall) :
    Except Failure ConfirmCall := do
  require (validDhBytes r.gA) (.rpc 400 "G_A_INVALID")
  let protocol ← checkProtocol r.protocol
  require (call.confirms s r) (.rpc 400 "CALL_PEER_INVALID")
  require call.gB.isSome (.rpc 400 "CALL_PEER_INVALID")
  require (sha256 r.gA == call.gAHash) (.rpc 400 "G_A_INVALID")
  return { r with protocol := protocol }

def discardedFor (s : Session) (disconnect : Bool) : CallDiscardReason :=
  if call.toSessId.isNone then if s.userId == call.fromUserId then .missed else .busy
  else if disconnect then .disconnect
  else .hangup

def discard (reason : CallDiscardReason) (now : Int) : PhoneCall :=
  { call with
    discardReason := some reason
    duration := (call.startedAt.map fun start => (now - start).tdiv 1000000) <|> call.duration }

end PhoneCall

namespace Line

variable (sha256 : Bytes → Bytes) (line : Line)

def ended (entry : Entry) : Line × Option Stage := ({ line with log := line.log ++ [entry] }, none)

def stored (call : PhoneCall) (entry : Entry) : Line × Option Stage :=
  (⟨call, line.log ++ [entry]⟩, none)

/-- A transaction that has locked the row is one turn: until it ends no other request writes the
row, and one that reads it finds it as it was. -/
def begin (line : Line) : Request → Input → Line × Option Stage
  | .received s peer, _ =>
    if line.call.toUserId == s.userId && line.call.named peer && line.call.discardReason.isNone &&
        line.call.gB.isNone && line.call.toSessId.isNone then (line, some (.receiving s))
    else line.ended (.received s (.ok ()))
  | .accept s r, input =>
    let done := do
      require (validDhBytes r.gB) (.rpc 400 "G_B_INVALID")
      let protocol ← checkProtocol r.protocol
      line.call.accept s r protocol input.authorized
    match done with
    | .ok call => line.stored call (.accept s r (.ok call))
    | .error failure => line.ended (.accept s r (.error failure))
  | .confirm s r, _ =>
    match line.call.checkConfirm sha256 s r with
    | .error failure => line.ended (.confirm s r false (.error failure))
    | .ok checked =>
      if line.call.gA.isSome then line.ended (.confirm s r false (.ok line.call))
      else (line, some (.confirming s checked))
  | .discard s peer disconnect, input =>
    if line.call.named peer && (line.call.fromUserId == s.userId && line.call.fromSessId == s.authId ||
        line.call.toUserId == s.userId) then
      if line.call.discardReason.isSome then line.ended (.discard s (.ok line.call))
      else (line, some (.discarding s
        (line.call.discard (line.call.discardedFor s disconnect) input.now)))
    else line.ended (.discard s (.error (.rpc 400 "CALL_PEER_INVALID")))
  | .requestAgain s toUserId, _ =>
    if line.call.fromUserId == s.userId && line.call.toUserId == toUserId &&
        line.call.discardReason.isNone && line.call.startedAt.isNone then (line, some .replacing)
    else (line, none)

def advance (line : Line) : Stage → Input → Line × Option Stage
  | .receiving s, input =>
    if input.authorized then
      line.stored { line.call with toSessId := some s.authId } (.received s (.ok ()))
    else line.ended (.received s (.error .other))
  | .confirming s r, input =>
    if !line.call.confirms s r then
      line.ended (.confirm s r false (.error (.rpc 400 "CALL_PEER_INVALID")))
    else if line.call.gA.isSome then line.ended (.confirm s r false (.ok line.call))
    else match line.call.confirm r input.now with
      | .ok call => line.stored call (.confirm s r true (.ok call))
      | .error failure => line.ended (.confirm s r false (.error failure))
  | .discarding s copy, _ =>
    line.stored { line.call with discardReason := copy.discardReason, duration := copy.duration }
      (.discard s (.ok copy))
  | .replacing, _ => ({ line with call := { line.call with discardReason := some .hangup } }, none)

end Line

/-- The requests on one call; nothing else happens to its row. -/
def calling (sha256 : Bytes → Bytes) : Machine Line Request Stage Input Empty where
  begin := Line.begin sha256
  advance := Line.advance
  disturb := fun _ what => nomatch what

/-! ### What is agreed -/

namespace PhoneCall

/-- Whose call it is, and the hash that the caller is bound by. -/
def parties (call : PhoneCall) : Int × Int × Nat × Nat × Nat × Bytes :=
  (call.id, call.accessHash, call.fromUserId, call.fromSessId, call.toUserId, call.gAHash)

/-- What the two sides exchange. -/
def terms (call : PhoneCall) :
    Option Bytes × Option Bytes × Option Int × Option Int × PhoneCallProtocol :=
  (call.gA, call.gB, call.keyFp, call.startedAt, call.protocol)

/-- What is set stays, and a discarded call stays discarded and as it is. -/
structure Kept (before after : PhoneCall) : Prop where
  parties : after.parties = before.parties
  accepted : before.gB.isSome → after.gB = before.gB
  confirmed : before.gA.isSome → after.terms = before.terms
  discarded : before.discardReason.isSome →
    after.discardReason.isSome ∧ after.terms = before.terms

end PhoneCall

namespace Entry

def accepted : Entry → Option AcceptCall
  | .accept _ r (.ok _) => some r
  | _ => none

def confirmed : Entry → Option ConfirmCall
  | .confirm _ r true (.ok _) => some r
  | _ => none

end Entry

/-- The requests that have accepted the call. -/
def Line.accepted (line : Line) : List AcceptCall := line.log.filterMap Entry.accepted

/-- The requests that have confirmed the call, and not found it confirmed. -/
def Line.confirmed (line : Line) : List ConfirmCall := line.log.filterMap Entry.confirmed

/-- The row holds what the one request that has accepted and the one that has confirmed have sent,
and a protocol for the layers that all of them and the caller can speak. -/
structure Line.Agreed (sha256 : Bytes → Bytes) (offered : PhoneCallProtocol) (line : Line) :
    Prop where
  gB : line.accepted.map AcceptCall.gB = line.call.gB.toList
  gA : line.confirmed.map ConfirmCall.gA = line.call.gA.toList
  keyFp : line.confirmed.map ConfirmCall.keyFingerprint = line.call.keyFp.toList
  started : line.call.startedAt.isSome = line.call.gA.isSome
  order : line.call.gA.isSome → line.call.gB.isSome
  sizes : ∀ half, line.call.gA = some half ∨ line.call.gB = some half → validDhBytes half = true
  hashed : ∀ half, line.call.gA = some half → sha256 half = line.call.gAHash
  valid : line.call.protocol.Valid
  layers : ∀ layer, layer ∈ line.call.protocol.layers ↔ layer ∈ offered.layers ∧
    (∀ r ∈ line.accepted, layer ∈ r.protocol.layers) ∧
    ∀ r ∈ line.confirmed, layer ∈ r.protocol.layers
  version : line.call.gA.isSome → ∃ version, line.call.protocol.libraryVersions = [version]

/-- What a request under way has checked. -/
def Stage.Fits (sha256 : Bytes → Bytes) (line : Line) : Stage → Prop
  | .confirming _ r =>
    validDhBytes r.gA = true ∧ sha256 r.gA = line.call.gAHash ∧ line.call.gB.isSome
  | .discarding _ copy => copy.discardReason.isSome
  | _ => True

section Turns

variable {sha256 : Bytes → Bytes} {offered : PhoneCallProtocol} {line after : Line}
  {next : Option Stage} {input : Input}

/-- What a turn can do to the row. -/
inductive Does (sha256 : Bytes → Bytes) (line : Line) : Line → Prop
  | aside {after : Line} (parties : after.call.parties = line.call.parties)
      (terms : after.call.terms = line.call.terms)
      (discarded : line.call.discardReason.isSome → after.call.discardReason.isSome)
      (accepted : after.accepted = line.accepted) (confirmed : after.confirmed = line.confirmed) :
      Does sha256 line after
  | accepts (s : Session) (r : AcceptCall) (protocol merged : PhoneCallProtocol)
      (size : validDhBytes r.gB = true) (checked : checkProtocol r.protocol = .ok protocol)
      (undiscarded : line.call.discardReason = none) (unaccepted : line.call.gB = none)
      (agreed : mergeProtocols line.call.protocol protocol false = .ok merged)
      (call : PhoneCall) (left : call =
        { line.call with toSessId := some s.authId, gB := some r.gB, protocol := merged }) :
      Does sha256 line ⟨call, line.log ++ [.accept s r (.ok call)]⟩
  | confirms (s : Session) (r : ConfirmCall) (now : Int) (merged : PhoneCallProtocol)
      (size : validDhBytes r.gA = true) (hashed : sha256 r.gA = line.call.gAHash)
      (undiscarded : line.call.discardReason = none) (accepted : line.call.gB.isSome)
      (unconfirmed : line.call.gA = none)
      (agreed : mergeProtocols line.call.protocol r.protocol true = .ok merged)
      (call : PhoneCall) (left : call = { line.call with
        gA := some r.gA, keyFp := some r.keyFingerprint, protocol := merged, startedAt := some now }) :
      Does sha256 line ⟨call, line.log ++ [.confirm s r true (.ok call)]⟩

/-- A turn, and the request that it leaves under way. -/
def Turns (sha256 : Bytes → Bytes) (line : Line) (result : Line × Option Stage) : Prop :=
  Does sha256 line result.1 ∧ ∀ t, result.2 = some t → t.Fits sha256 line

theorem turns_aside {entry : Entry} (accepted : entry.accepted = none)
    (confirmed : entry.confirmed = none) {call : PhoneCall}
    (parties : call.parties = line.call.parties) (terms : call.terms = line.call.terms)
    (discarded : line.call.discardReason.isSome → call.discardReason.isSome) :
    Turns sha256 line (line.stored call entry) := by
  refine ⟨.aside parties terms discarded ?_ ?_, fun _ none => (by cases none)⟩
  · simp [Line.accepted, Line.stored, List.filterMap_append, accepted]
  · simp [Line.confirmed, Line.stored, List.filterMap_append, confirmed]

theorem turns_ended {entry : Entry} (accepted : entry.accepted = none)
    (confirmed : entry.confirmed = none) : Turns sha256 line (line.ended entry) :=
  turns_aside accepted confirmed rfl rfl id

theorem turns_on {t : Stage} (fits : t.Fits sha256 line) : Turns sha256 line (line, some t) :=
  ⟨.aside rfl rfl id rfl rfl, fun _ same => Option.some.inj same ▸ fits⟩

theorem accept_eq_ok {call merged : PhoneCall} {s : Session} {r : AcceptCall}
    {protocol : PhoneCallProtocol} {authorized : Bool}
    (done : call.accept s r protocol authorized = .ok merged) :
    call.discardReason = none ∧ call.gB = none ∧
      ∃ p, mergeProtocols call.protocol protocol false = .ok p ∧
        merged = { call with toSessId := some s.authId, gB := some r.gB, protocol := p } := by
  simp only [PhoneCall.accept, check_bind_eq_ok, require_eq_ok, Bool.and_eq_true,
    Option.isNone_iff_eq_none] at done
  obtain ⟨⟨-, undiscarded⟩, unaccepted, -, -, rest⟩ := done
  obtain ⟨p, agreed, same⟩ := (bind_eq_ok _).mp rest
  exact ⟨undiscarded, unaccepted, p, agreed, (Except.ok.inj same).symm⟩

theorem checkConfirm_eq_ok {call : PhoneCall} {s : Session} {r checked : ConfirmCall}
    (done : call.checkConfirm sha256 s r = .ok checked) :
    validDhBytes checked.gA = true ∧ sha256 checked.gA = call.gAHash ∧ call.gB.isSome := by
  rw [PhoneCall.checkConfirm, check_bind_eq_ok, require_eq_ok, bind_eq_ok] at done
  obtain ⟨size, protocol, -, done⟩ := done
  simp only [check_bind_eq_ok, require_eq_ok, beq_iff_eq] at done
  obtain ⟨-, accepted, hashed, same⟩ := done
  cases same
  exact ⟨size, hashed, accepted⟩

theorem turns_begin (request : Request) : Turns sha256 line (line.begin sha256 request input) := by
  cases request with
  | received s peer =>
    rw [Line.begin]
    split
    · exact turns_on trivial
    · exact turns_ended rfl rfl
  | accept s r =>
    simp only [Line.begin]
    split
    · rename_i call done
      rw [check_bind_eq_ok, require_eq_ok, bind_eq_ok] at done
      obtain ⟨size, protocol, checked, done⟩ := done
      obtain ⟨undiscarded, unaccepted, merged, agreed, left⟩ := accept_eq_ok done
      exact ⟨.accepts s r protocol merged size checked undiscarded unaccepted agreed call left,
        fun _ none => (by cases none)⟩
    · exact turns_ended rfl rfl
  | confirm s r =>
    rw [Line.begin]
    split
    · exact turns_ended rfl rfl
    · rename_i checked done
      split
      · exact turns_ended rfl rfl
      · exact turns_on (checkConfirm_eq_ok done)
  | discard s peer disconnect =>
    rw [Line.begin]
    split
    · split
      · exact turns_ended rfl rfl
      · exact turns_on rfl
    · exact turns_ended rfl rfl
  | requestAgain s toUserId =>
    rw [Line.begin]
    split
    · exact turns_on trivial
    · exact ⟨.aside rfl rfl id rfl rfl, fun _ none => (by cases none)⟩

theorem turns_advance {t : Stage} (fits : t.Fits sha256 line) :
    Turns sha256 line (line.advance t input) := by
  cases t with
  | receiving s =>
    rw [Line.advance]
    split
    · exact turns_aside rfl rfl rfl rfl id
    · exact turns_ended rfl rfl
  | confirming s r =>
    obtain ⟨size, hashed, accepted⟩ := fits
    rw [Line.advance]
    split
    · exact turns_ended rfl rfl
    · rename_i found
      split
      · exact turns_ended rfl rfl
      · rename_i unconfirmed
        split
        · rename_i call done
          rw [PhoneCall.confirm, bind_eq_ok] at done
          obtain ⟨merged, agreed, same⟩ := done
          simp only [PhoneCall.confirms, Bool.not_eq_true', Bool.not_eq_false, Bool.and_eq_true,
            Option.isNone_iff_eq_none] at found
          exact ⟨.confirms s r input.now merged size hashed found.2 accepted
            (by simpa using unconfirmed) agreed call (Except.ok.inj same).symm,
            fun _ none => (by cases none)⟩
        · exact turns_ended rfl rfl
  | discarding s copy => exact turns_aside rfl rfl rfl rfl fun _ => fits
  | replacing => exact ⟨.aside rfl rfl (fun _ => rfl) rfl rfl, fun _ none => (by cases none)⟩

theorem kept_of_does (agreed : line.Agreed sha256 offered) (does : Does sha256 line after) :
    line.call.Kept after.call := by
  cases does with
  | aside parties terms discarded accepted confirmed =>
    exact ⟨parties, fun _ => congrArg (fun terms => terms.2.1) terms, fun _ => terms,
      fun gone => ⟨discarded gone, terms⟩⟩
  | accepts s r protocol merged size checked undiscarded unaccepted meet call left =>
    subst left
    refine ⟨rfl, fun set => ?_, fun set => ?_, fun gone => ?_⟩
    · rw [unaccepted] at set
      cases set
    · have set' := agreed.order set
      rw [unaccepted] at set'
      cases set'
    · rw [undiscarded] at gone
      cases gone
  | confirms s r now merged size hashed undiscarded accepted unconfirmed meet call left =>
    subst left
    refine ⟨rfl, fun _ => rfl, fun set => ?_, fun gone => ?_⟩
    · rw [unconfirmed] at set
      cases set
    · rw [undiscarded] at gone
      cases gone

theorem agreed_of_does (agreed : line.Agreed sha256 offered)
    (does : Does sha256 line after) : after.Agreed sha256 offered := by
  cases does with
  | aside parties terms discarded accepted confirmed =>
    simp only [PhoneCall.terms, Prod.mk.injEq] at terms
    simp only [PhoneCall.parties, Prod.mk.injEq] at parties
    obtain ⟨gA, gB, keyFp, startedAt, protocol⟩ := terms
    obtain ⟨-, -, -, -, -, gAHash⟩ := parties
    constructor <;> simp only [gA, gB, keyFp, startedAt, protocol, gAHash, accepted, confirmed]
    exacts [agreed.gB, agreed.gA, agreed.keyFp, agreed.started, agreed.order, agreed.sizes,
      agreed.hashed, agreed.valid, agreed.layers, agreed.version]
  | accepts s r protocol merged size checked undiscarded unaccepted meet call left =>
    have none_accepted : line.accepted = [] := by
      have accepted := agreed.gB
      rw [unaccepted] at accepted
      exact List.map_eq_nil_iff.mp accepted
    have unconfirmed : line.call.gA = none := by
      by_contra set
      have order := agreed.order (Option.isSome_iff_ne_none.mpr set)
      rw [unaccepted] at order
      cases order
    have accepted : (Line.mk call (line.log ++ [.accept s r (.ok call)])).accepted = [r] := by
      have before : line.log.filterMap Entry.accepted = [] := none_accepted
      rw [Line.accepted, List.filterMap_append, before]
      rfl
    have confirmed : (Line.mk call (line.log ++ [.accept s r (.ok call)])).confirmed =
        line.confirmed := by
      rw [Line.confirmed, List.filterMap_append]
      exact List.append_nil _
    obtain ⟨valid, layers, -⟩ := valid_of_mergeProtocols agreed.valid meet
    subst left
    refine ⟨?_, ?_, ?_, agreed.started, fun _ => rfl, ?_, agreed.hashed, valid, ?_, ?_⟩
    · rw [accepted]
      rfl
    · rw [confirmed]
      exact agreed.gA
    · rw [confirmed]
      exact agreed.keyFp
    · rintro half (first | second)
      · exact agreed.sizes half (.inl first)
      · cases second
        exact size
    · intro layer
      have before := agreed.layers layer
      have here : layer ∈ protocol.layers ↔ layer ∈ r.protocol.layers := by
        rw [(valid_of_checkProtocol checked).2]
      rw [accepted, confirmed, layers, Set.mem_inter_iff, before, none_accepted, here,
        List.forall_mem_singleton]
      simp only [List.not_mem_nil, false_implies, implies_true]
      tauto
    · intro set
      rw [unconfirmed] at set
      cases set
  | confirms s r now merged size hashed undiscarded accepted unconfirmed meet call left =>
    have none_confirmed : line.confirmed = [] := by
      have confirmed := agreed.gA
      rw [unconfirmed] at confirmed
      exact List.map_eq_nil_iff.mp confirmed
    have confirmed : (Line.mk call (line.log ++ [.confirm s r true (.ok call)])).confirmed = [r] := by
      have before : line.log.filterMap Entry.confirmed = [] := none_confirmed
      rw [Line.confirmed, List.filterMap_append, before]
      rfl
    have same : (Line.mk call (line.log ++ [.confirm s r true (.ok call)])).accepted =
        line.accepted := by
      rw [Line.accepted, List.filterMap_append]
      exact List.append_nil _
    obtain ⟨valid, layers, last⟩ := valid_of_mergeProtocols agreed.valid meet
    subst left
    refine ⟨?_, ?_, ?_, rfl, fun _ => accepted, ?_, ?_, valid, ?_, fun _ => last rfl⟩
    · rw [same]
      exact agreed.gB
    · rw [confirmed]
      rfl
    · rw [confirmed]
      rfl
    · rintro half (first | second)
      · cases first
        exact size
      · exact agreed.sizes half (.inr second)
    · intro half set
      cases set
      exact hashed
    · intro layer
      rw [same, confirmed, layers, Set.mem_inter_iff, agreed.layers, none_confirmed,
        List.forall_mem_singleton]
      simp only [List.not_mem_nil, false_implies, implies_true]
      tauto

theorem Stage.Fits.kept {t : Stage} (fits : t.Fits sha256 line) (kept : line.call.Kept after.call) :
    t.Fits sha256 after := by
  cases t with
  | confirming s r =>
    obtain ⟨size, hashed, accepted⟩ := fits
    have parties := kept.parties
    simp only [PhoneCall.parties, Prod.mk.injEq] at parties
    exact ⟨size, hashed.trans parties.2.2.2.2.2.symm, by rw [kept.accepted accepted]; exact accepted⟩
  | receiving s => trivial
  | discarding s copy => exact fits
  | replacing => trivial

theorem PhoneCall.Kept.trans {first second third : PhoneCall} (before : first.Kept second)
    (later : second.Kept third) : first.Kept third := by
  refine ⟨later.parties.trans before.parties, fun set => ?_, fun set => ?_, fun gone => ?_⟩
  · have same := before.accepted set
    rw [← same] at set ⊢
    exact later.accepted set
  · have same := before.confirmed set
    have gA : second.gA = first.gA := congrArg Prod.fst same
    rw [← gA] at set
    exact (later.confirmed set).trans same
  · obtain ⟨still, same⟩ := before.discarded gone
    obtain ⟨again, same'⟩ := later.discarded still
    exact ⟨again, same'.trans same⟩

/-- What holds of the row from a moment on at which it was `first`. -/
def Line.Since (sha256 : Bytes → Bytes) (offered : PhoneCallProtocol) (first : PhoneCall)
    (line : Line) : Prop :=
  line.Agreed sha256 offered ∧ first.Kept line.call

theorem keeps_of_turns {first : PhoneCall} {result : Line × Option Stage}
    (since : line.Since sha256 offered first) (turns : Turns sha256 line result) :
    Machine.Keeps (Line.Since sha256 offered first) (fun line t => t.Fits sha256 line) line
      result.1 result.2 := by
  obtain ⟨does, on⟩ := turns
  have kept := kept_of_does since.1 does
  exact ⟨⟨agreed_of_does since.1 does, since.2.trans kept⟩, fun t here => (on t here).kept kept,
    fun t fits => fits.kept kept⟩

theorem obeys_calling (first : PhoneCall) :
    Machine.Obeys (calling sha256) (Line.Since sha256 offered first)
      (fun line t => t.Fits sha256 line) fun _ _ => True where
  begin := fun _ _ request _ holds _ => keeps_of_turns holds.inv (turns_begin request)
  advance := fun _ call t _ holds under _ =>
    keeps_of_turns holds.inv (turns_advance (holds.fits call t under))
  disturb := fun _ what => nomatch what

end Turns

/-- The requests under way fit a row that is as it should be since it was `first`. -/
def Holding (sha256 : Bytes → Bytes) (offered : PhoneCallProtocol) (first : PhoneCall) :
    World Line Stage → Prop :=
  Machine.Holds (Line.Since sha256 offered first) fun line t => t.Fits sha256 line

/-- A call that has just been requested. -/
structure Requested (offered : PhoneCallProtocol) (w : World Line Stage) : Prop where
  call : ∃ s toUserId peer missed gAHash,
    PhoneCall.request s toUserId peer missed gAHash offered = .ok w.shared.call
  log : w.shared.log = []
  idle : w.Idle

variable {sha256 : Bytes → Bytes} {offered : PhoneCallProtocol}

theorem Requested.holds {w : World Line Stage} (requested : Requested offered w) :
    Holding sha256 offered w.shared.call w := by
  obtain ⟨⟨s, toUserId, peer, missed, gAHash, done⟩, log, idle⟩ := requested
  refine ⟨⟨?_, ⟨rfl, fun _ => rfl, fun _ => rfl, fun gone => ⟨gone, rfl⟩⟩⟩, fun call t under => ?_⟩
  · rw [PhoneCall.request, bind_eq_ok] at done
    obtain ⟨protocol, checked, done⟩ := done
    rw [check_bind_eq_ok] at done
    obtain ⟨valid, layers⟩ := valid_of_checkProtocol checked
    have call := Except.ok.inj done.2
    have accepted : w.shared.accepted = [] := by rw [Line.accepted, log]; rfl
    have confirmed : w.shared.confirmed = [] := by rw [Line.confirmed, log]; rfl
    have gA : w.shared.call.gA = none := by rw [← call]
    constructor
    case gB =>
      rw [accepted, ← call]
      rfl
    case gA =>
      rw [confirmed, gA]
      rfl
    case keyFp =>
      rw [confirmed, ← call]
      rfl
    case started =>
      rw [← call]
      rfl
    case sizes => simp [← call]
    case valid =>
      rw [← call]
      exact valid
    case layers =>
      intro layer
      simp [accepted, confirmed, ← call, layers]
    all_goals simp [gA]
  · rw [idle call] at under
    cases under

theorem keep_since (first : PhoneCall) (w : World Line Stage) (e : Event Request Input Empty)
    (w' : World Line Stage) (holds : Holding sha256 offered first w)
    (happens : (calling sha256).step w e = some w') : Holding sha256 offered first w' :=
  Machine.holds_step (obeys_calling first) holds trivial happens

/-- In every order of the turns of requests on a call, its row holds what the one request that has
accepted it and the one that has confirmed it have sent, and the protocol is for the layers that all
three can speak. -/
theorem agreed_always {w : World Line Stage} (requested : Requested offered w)
    (es : List (Event Request Input Empty)) :
    HoldsAlong (calling sha256).step (fun w => w.shared.Agreed sha256 offered) w es :=
  holdsAlong_of_keep (fun _ holds => holds.inv.1) (keep_since w.shared.call) requested.holds

/-- Whatever happens later, the parties stay, an accepted half stays, a confirmed call keeps
everything that was exchanged, and a discarded call is neither accepted nor confirmed. -/
theorem terms_kept {w u v : World Line Stage} (requested : Requested offered w)
    {before later : List (Event Request Input Empty)}
    (reached : runFrom (calling sha256).step w before = some u)
    (run : runFrom (calling sha256).step u later = some v) : u.shared.call.Kept v.shared.call := by
  have holds := run_invariant_all (keep_since w.shared.call) requested.holds reached
  have here : Holding sha256 offered u.shared.call u :=
    ⟨⟨holds.inv.1, rfl, fun _ => rfl, fun _ => rfl, fun gone => ⟨gone, rfl⟩⟩, holds.fits⟩
  exact (run_invariant_all (keep_since u.shared.call) here run).inv.2

/-- The SHA-256 of the one byte that is asked for. -/
private def digest (data : Bytes) : Bytes :=
  if data = [1] then
    Bytes.ofNat 32 0x4bf5122f344554c53bde2ebb8cd2b7e3d1600ad631c385a5d7cce23c7785459a
  else []

private def offer : PhoneCallProtocol := ⟨true, false, 65, 92, ["2.4.4", "9.0.0"]⟩

/-- User 1 calls user 2. -/
private def ringing : World Line Stage where
  shared := ⟨⟨31, 77, none, 1, 10, 2, none, digest [1], none, none, none, none, none, offer⟩, []⟩
  calls := fun _ => none

private theorem requested_ringing : Requested offer ringing :=
  ⟨⟨⟨1, 10⟩, 2, ⟨31, 77⟩, false, digest [1], by decide +kernel⟩, rfl, fun _ => rfl⟩

/-- The other side accepts and the caller confirms, while a discarding is under way. -/
private def exchange : List (Event Request Input Empty) :=
  [.start 0 (.discard ⟨2, 21⟩ ⟨31, 77⟩ false) ⟨true, 0⟩,
    .start 1 (.accept ⟨2, 20⟩ ⟨⟨31, 77⟩, [5], ⟨true, true, 70, 139, ["9.0.0"]⟩⟩) ⟨true, 0⟩,
    .start 1 (.confirm ⟨1, 10⟩ ⟨⟨31, 77⟩, [1], 9, offer⟩) ⟨true, 1⟩, .go 1 ⟨true, 2⟩]

theorem agreed_exchange :
    HoldsAlong (calling digest).step (fun w => w.shared.Agreed digest offer) ringing exchange :=
  agreed_always requested_ringing exchange

theorem terms_kept_exchange :
    ∃ u v, runFrom (calling digest).step ringing exchange = some u ∧
      runFrom (calling digest).step u [.go 0 ⟨true, 3⟩] = some v ∧
      u.shared.call.Kept v.shared.call := by
  have goes : ((runFrom (calling digest).step ringing exchange).bind fun u =>
      runFrom (calling digest).step u [.go 0 ⟨true, 3⟩]).isSome = true := by decide +kernel
  obtain ⟨v, run⟩ := Option.isSome_iff_exists.mp goes
  obtain ⟨u, reached, later⟩ := Option.bind_eq_some_iff.mp run
  exact ⟨u, v, reached, later, terms_kept requested_ringing reached later⟩

end Piltover.PhoneCalls
