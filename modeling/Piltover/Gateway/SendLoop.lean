/- source: piltover/gateway/client.py, piltover/session/session.py
   digest: Whole flushes, the passes of the send loop over them, and when the loop stops. -/

import Piltover.Foundation.Loops
import Piltover.Gateway.Ownership

set_option autoImplicit false

namespace Piltover.Gateway

open Piltover.Foundation
open Piltover.Foundation.Runs

/-- What happens around one flush: what other tasks do to the session before it and during its
writes, whether one of them acknowledges a message that is being resent, and which writes return. -/
structure Surroundings where
  before : Session → Session
  during : Nat → Session → Session
  mutates : Nat → Bool
  returns : Nat → Bool

inductive FlushEnd
  | returned (s : Session)
  | disconnected (s : Session)
  | raised

namespace Surroundings

/-- Only the connection has a say. -/
def alone (returns : Nat → Bool) : Surroundings := ⟨id, fun _ => id, fun _ => false, returns⟩

/-- Nothing is put into a queue of the session. -/
structure Silent (w : Surroundings) : Prop where
  before : ∀ s, (w.before s).unencryptedQueue.length ≤ s.unencryptedQueue.length ∧
    (w.before s).messageQueue.length ≤ s.messageQueue.length
  during : ∀ i s, (w.during i s).unencryptedQueue.length ≤ s.unencryptedQueue.length ∧
    (w.during i s).messageQueue.length ≤ s.messageQueue.length ∧
    (w.during i s).pendingOutbound.entries.length ≤ s.pendingOutbound.entries.length

end Surroundings

namespace Session

def hasQueued (s : Session) : Bool := s.unencryptedQueue ≠ [] ∨ s.messageQueue ≠ []

/-- More writes than one flush of the session makes. -/
def workload (s : Session) : Nat :=
  s.unencryptedQueue.length + s.pendingOutbound.entries.length + s.messageQueue.length + 1

/-- The rest of a flush, its next write being the one with number `i`. -/
def finishFlush (w : Surroundings) : Nat → Nat → Progress → Option FlushEnd
  | _, _, .returns s => some (.returned s)
  | _, _, .raises _ => some .raised
  | 0, _, .awaits _ _ => none
  | fuel + 1, i, .awaits awaiting s =>
    if w.returns i then
      finishFlush w fuel (i + 1)
        ((w.during i s).resume (if w.mutates i then awaiting.noteMutation else awaiting))
    else some (.disconnected (w.during i s).disconnect)

/-- A whole `flush_outbound`. -/
def flushOutbound (w : Surroundings) (s : Session) : Option FlushEnd :=
  let s := w.before s
  if s.client = none then some (.returned s)
  else finishFlush w s.workload 0 s.writeSessionQueues

end Session

def hasPendingOutbound (sessions : List Session) : Bool := sessions.any Session.hasQueued

/-- One pass of the send loop, `w j` around its `j`-th flush; `none` if a flush raises. -/
def flushPass (w : Nat → Surroundings) : List Session → Option (List Session)
  | [] => some []
  | s :: sessions =>
    match s.flushOutbound (w 0) with
    | some (.returned t) | some (.disconnected t) =>
      (flushPass (fun j => w (j + 1)) sessions).map (t :: ·)
    | _ => none

/-- The inner loop of `_worker_loop_send` stops; `w k j` surrounds the `j`-th flush of pass `k`. -/
def SendLoopStops (w : Nat → Nat → Surroundings) (sessions : List Session) : Prop :=
  Loops.Stops hasPendingOutbound (fun k => flushPass (w k)) sessions

namespace GatewayState

def outboundSessions (g : GatewayState) (keygen : Session) (client : ClientId) : List Session :=
  keygen :: (g.active client).filterMap fun e => (g.objects[e.2]?).map Outbound.session

end GatewayState

namespace Session

variable {w : Surroundings} {s t : Session}

/-- The resends that the next flush starts with. -/
def resendsDue (s : Session) : Nat :=
  if s.resendPendingOnConnect then s.pendingOutbound.entries.length else 0

def queuedWrites (s : Session) : Nat :=
  if s.messageQueue = [] then s.unencryptedQueue.length
  else s.unencryptedQueue.length + s.resendsDue + s.messageQueue.length

/-- The flush empties the queues: the session has a client, and no write fails while a queue still
holds something. -/
def Empties (s : Session) (returns : Nat → Bool) : Prop :=
  s.client ≠ none ∧ ∀ i, i + 1 < s.queuedWrites → returns i = true

/-- The flush gets to an encrypted message that it has no key for. -/
def Raises (s : Session) (returns : Nat → Bool) : Prop :=
  s.client ≠ none ∧ s.hasAuthKey = false ∧ (s.resendsDue ≠ 0 ∨ s.messageQueue ≠ []) ∧
    ∀ i, i < s.unencryptedQueue.length → returns i = true

/-- Writes that a suspended flush still makes, at most. -/
private def remaining : Progress → Nat
  | .awaits (.unencrypted _ _) s => s.workload
  | .awaits (.resend _ rest _) s => rest.length + s.messageQueue.length + 1
  | .awaits (.message _) s => s.messageQueue.length + 1
  | _ => 0

private theorem remaining_drainMessages :
    remaining s.drainMessages ≤ s.messageQueue.length := by
  unfold drainMessages writeMessage
  split
  · exact Nat.zero_le _
  · rename_i m rest queued
    split <;> simp [remaining, queued]

private theorem remaining_resendFrom (rest : List OutMessage) :
    remaining (s.resendFrom rest) ≤ rest.length + s.messageQueue.length := by
  cases rest with
  | nil =>
    have drained := remaining_drainMessages (s := s)
    simpa [resendFrom] using drained
  | cons m rest =>
    simp only [resendFrom, writeMessage, List.length_cons]
    split
    · simp only [remaining]
      omega
    · exact Nat.zero_le _

private theorem remaining_writeSessionQueues : remaining s.writeSessionQueues < s.workload := by
  unfold writeSessionQueues startResend workload
  split
  · split
    · have resent := remaining_resendFrom (s := { s with resendPendingOnConnect := false })
        s.pendingMessages
      simp only [pendingMessages, List.length_map] at resent
      simp only [pendingMessages]
      omega
    · have drained := remaining_drainMessages (s := s)
      omega
  · rename_i messageId data rest queued
    simp only [remaining, workload, queued, List.length_cons]
    omega

private theorem remaining_resume (awaiting : Awaiting) (mutated : Bool)
    (unencrypted : t.unencryptedQueue.length ≤ s.unencryptedQueue.length)
    (queue : t.messageQueue.length ≤ s.messageQueue.length)
    (pending : t.pendingOutbound.entries.length ≤ s.pendingOutbound.entries.length) :
    remaining (t.resume (if mutated then awaiting.noteMutation else awaiting)) <
      remaining (.awaits awaiting s) := by
  cases awaiting with
  | unencrypted messageId data =>
    have resumed : t.resume (if mutated then (Awaiting.unencrypted messageId data).noteMutation
        else .unencrypted messageId data) = t.writeSessionQueues := by
      cases mutated <;> rfl
    have less := remaining_writeSessionQueues (s := t)
    simp only [resumed, remaining, workload] at less ⊢
    omega
  | resend m rest stale =>
    have less := remaining_resendFrom (s := t) rest
    change _ < rest.length + s.messageQueue.length + 1
    cases mutated <;> simp only [Awaiting.noteMutation, resume, Bool.false_eq_true, ↓reduceIte]
    all_goals
      split
      · exact Nat.succ_pos _
      · omega
  | message m =>
    have resumed : t.resume (if mutated then (Awaiting.message m).noteMutation
        else .message m) = (t.trackPendingOutbound m).drainMessages := by
      cases mutated <;> rfl
    have less := remaining_drainMessages (s := t.trackPendingOutbound m)
    rw [resumed]
    simp only [remaining, trackPendingOutbound] at less ⊢
    omega

private theorem finishFlush_isSome (silent : w.Silent) {fuel i : Nat} {p : Progress}
    (enough : remaining p ≤ fuel) : (finishFlush w fuel i p).isSome := by
  induction fuel generalizing i p with
  | zero =>
    cases p with
    | awaits awaiting s => cases awaiting <;> simp [remaining, workload] at enough
    | returns s => rfl
    | raises s => rfl
  | succ fuel ih =>
    cases p with
    | awaits awaiting s =>
      simp only [finishFlush]
      split
      · obtain ⟨unencrypted, queue, pending⟩ := silent.during i s
        have less := remaining_resume awaiting (w.mutates i) unencrypted queue pending
        exact ih (Nat.le_of_lt_succ (Nat.lt_of_lt_of_le less enough))
      · rfl
    | returns s => rfl
    | raises s => rfl

theorem flushOutbound_isSome (silent : w.Silent) : (s.flushOutbound w).isSome := by
  simp only [flushOutbound]
  split
  · rfl
  · exact finishFlush_isSome silent (Nat.le_of_lt remaining_writeSessionQueues)

end Session

/-- How a flush of its own ends: with empty queues, or without a client and, exactly if `stuck`,
with something left in a queue. -/
def FlushEnd.Settled (stuck : Prop) : FlushEnd → Prop
  | .returned t => ¬ stuck ∧ t.hasQueued = false ∧ (t.resendsDue = 0 ∨ t.hasAuthKey)
  | .disconnected t => (t.hasQueued ↔ stuck) ∧ t.client = none
  | .raised => False

namespace Session

variable {w : Surroundings} {s t : Session}

section Alone

variable {returns : Nat → Bool}

/-- Some write with a number in the range fails. -/
private def Fails (returns : Nat → Bool) (first count : Nat) : Prop :=
  ∃ i, first ≤ i ∧ i + 1 < first + count ∧ returns i = false

private theorem fails_here {first count : Nat} (more : 1 < count) (fails : returns first = false) :
    Fails returns first count :=
  ⟨first, Nat.le_refl _, by omega, fails⟩

private theorem not_fails_of_le_one {first count : Nat} (few : count ≤ 1) :
    ¬ Fails returns first count := by
  rintro ⟨i, le, less, -⟩
  omega

private theorem fails_succ {first count : Nat} (goes : returns first = true) :
    Fails returns (first + 1) count ↔ Fails returns first (count + 1) := by
  constructor
  · rintro ⟨i, le, less, fails⟩
    exact ⟨i, by omega, by omega, fails⟩
  · rintro ⟨i, le, less, fails⟩
    have later : i ≠ first := by
      rintro rfl
      rw [goes] at fails
      cases fails
    exact ⟨i, by omega, by omega, fails⟩

private theorem finishFlush_alone (fuel i : Nat) (awaiting : Awaiting) (s : Session) :
    finishFlush (.alone returns) (fuel + 1) i (.awaits awaiting s) =
      if returns i then finishFlush (.alone returns) fuel (i + 1) (s.resume awaiting)
      else some (.disconnected s.disconnect) := rfl

private theorem flushOutbound_alone : s.flushOutbound (.alone returns) =
    if s.client = none then some (.returned s)
    else finishFlush (.alone returns) s.workload 0 s.writeSessionQueues := rfl

private theorem disconnect_hasQueued : s.disconnect.hasQueued = s.hasQueued := by
  simp [disconnect_eq, hasQueued]

private theorem disconnect_client : s.disconnect.client = none := by
  simp [disconnect_eq]

private theorem drainMessages_settles {fuel i : Nat} (keyed : s.messageQueue = [] ∨ s.hasAuthKey)
    (plain : s.unencryptedQueue = []) (due : s.resendsDue = 0 ∨ s.hasAuthKey)
    (enough : s.messageQueue.length ≤ fuel) :
    ∃ e, finishFlush (.alone returns) fuel i s.drainMessages = some e ∧
      e.Settled (Fails returns i s.messageQueue.length) := by
  induction queued : s.messageQueue generalizing s fuel i with
  | nil =>
    refine ⟨.returned s, ?_, ?_⟩
    · simp [drainMessages, queued, finishFlush]
    · exact ⟨not_fails_of_le_one (Nat.zero_le _), by simp [hasQueued, plain, queued], due⟩
  | cons m rest ih =>
    have key : s.hasAuthKey := keyed.resolve_left (by simp [queued])
    have writes : s.drainMessages = .awaits (.message m) { s with messageQueue := rest } := by
      simp only [drainMessages, queued]
      exact if_pos key
    obtain ⟨fuel, rfl⟩ : ∃ k, fuel = k + 1 :=
      ⟨fuel - 1, by simp only [queued, List.length_cons] at enough; omega⟩
    rw [writes, finishFlush_alone, List.length_cons]
    by_cases goes : returns i
    · rw [if_pos goes, ← fails_succ goes]
      refine ih (s := ({ s with messageQueue := rest }).trackPendingOutbound m)
        (Or.inr key) plain (Or.inr key) ?_ rfl
      simpa [queued, trackPendingOutbound] using enough
    · rw [if_neg goes]
      refine ⟨_, rfl, ?_, disconnect_client⟩
      rw [disconnect_hasQueued]
      cases rest with
      | nil => simp [hasQueued, plain, not_fails_of_le_one]
      | cons n rest =>
        have fails : Fails returns i ((n :: rest).length + 1) :=
          fails_here (by simp) (by simpa using goes)
        simpa [hasQueued] using fails

/-- The writes of a resend loop over `count` messages that leave something queued behind. -/
private def behind (s : Session) (count : Nat) : Nat :=
  if s.messageQueue = [] then 0 else count + s.messageQueue.length

private theorem resendFrom_settles {fuel i : Nat} {rest : List OutMessage} (key : s.hasAuthKey)
    (plain : s.unencryptedQueue = []) (enough : rest.length + s.messageQueue.length ≤ fuel) :
    ∃ e, finishFlush (.alone returns) fuel i (s.resendFrom rest) = some e ∧
      e.Settled (Fails returns i (s.behind rest.length)) := by
  induction rest generalizing fuel i with
  | nil =>
    have count : s.behind (List.length (α := OutMessage) []) = s.messageQueue.length := by
      simp only [behind]
      split <;> simp_all
    rw [count]
    exact drainMessages_settles (Or.inr key) plain (Or.inr key) (by simpa using enough)
  | cons m rest ih =>
    have writes : s.resendFrom (m :: rest) = .awaits (.resend m rest false) s := if_pos key
    obtain ⟨fuel, rfl⟩ : ∃ k, fuel = k + 1 :=
      ⟨fuel - 1, by simp only [List.length_cons] at enough; omega⟩
    rw [writes, finishFlush_alone]
    by_cases goes : returns i
    · rw [if_pos goes]
      have less : rest.length + s.messageQueue.length ≤ fuel := by
        simp only [List.length_cons] at enough
        omega
      obtain ⟨e, ends, settled⟩ := ih (i := i + 1) less
      refine ⟨e, by simpa [resume] using ends, ?_⟩
      by_cases empty : s.messageQueue = []
      · simpa [behind, empty, not_fails_of_le_one] using settled
      · simp only [behind, empty, ↓reduceIte] at settled ⊢
        rw [fails_succ goes] at settled
        simpa [Nat.add_right_comm] using settled
    · rw [if_neg goes]
      refine ⟨_, rfl, ?_, disconnect_client⟩
      rw [disconnect_hasQueued]
      by_cases empty : s.messageQueue = []
      · simp [hasQueued, plain, behind, empty, not_fails_of_le_one]
      · have positive := List.length_pos_iff.mpr empty
        have fails : Fails returns i ((m :: rest).length + s.messageQueue.length) :=
          fails_here (by simp only [List.length_cons]; omega) (by simpa using goes)
        simpa [hasQueued, behind, empty] using fails

private theorem startResend_settles {fuel i : Nat} (plain : s.unencryptedQueue = [])
    (keyed : s.resendsDue = 0 ∧ s.messageQueue = [] ∨ s.hasAuthKey)
    (enough : s.pendingOutbound.entries.length + s.messageQueue.length ≤ fuel) :
    ∃ e, finishFlush (.alone returns) fuel i s.startResend = some e ∧
      e.Settled (Fails returns i s.queuedWrites) := by
  have writes : s.queuedWrites = s.behind s.resendsDue := by
    simp only [queuedWrites, behind, plain, List.length_nil, Nat.zero_add]
  rw [writes]
  unfold startResend
  split
  · rename_i due
    have count : s.pendingMessages.length = s.resendsDue := by
      simp [resendsDue, pendingMessages, due.1]
    have key : s.hasAuthKey := by
      refine keyed.resolve_left fun none => due.2 ?_
      simpa [resendsDue, due.1] using none.1
    rw [← count]
    exact resendFrom_settles (s := { s with resendPendingOnConnect := false }) key plain
      (by simpa [pendingMessages] using enough)
  · rename_i nothing
    have due : s.resendsDue = 0 := by
      unfold resendsDue
      split
      · rename_i flag
        simpa [flag] using nothing
      · rfl
    have count : s.behind 0 = s.messageQueue.length := by
      simp only [behind]
      split <;> simp_all
    rw [due, count]
    exact drainMessages_settles (keyed.imp And.right id) plain (Or.inl due) (by omega)

private theorem startResend_raises {fuel i : Nat} (keyless : s.hasAuthKey = false)
    (encrypted : s.resendsDue ≠ 0 ∨ s.messageQueue ≠ []) :
    finishFlush (.alone returns) fuel i s.startResend = some .raised := by
  have writes : ∃ t, s.startResend = .raises t := by
    unfold startResend
    split
    · rename_i due
      cases pending : s.pendingMessages with
      | nil => exact absurd (List.map_eq_nil_iff.mp pending) due.2
      | cons m rest =>
        simp only [resendFrom, writeMessage]
        exact ⟨_, if_neg (by simpa [hasAuthKey] using keyless)⟩
    · rename_i nothing
      have due : s.resendsDue = 0 := by
        unfold resendsDue
        split
        · rename_i flag
          simpa [flag] using nothing
        · rfl
      cases queued : s.messageQueue with
      | nil => simp [due, queued] at encrypted
      | cons m rest =>
        simp only [drainMessages, queued, writeMessage]
        exact ⟨_, if_neg (by simpa [hasAuthKey] using keyless)⟩
  obtain ⟨t, raises⟩ := writes
  rw [raises]
  cases fuel <;> rfl

/-- Nothing in the first `count` writes fails. -/
private def Clear (returns : Nat → Bool) (first count : Nat) : Prop :=
  ∀ i, first ≤ i → i < first + count → returns i = true

private theorem clear_succ {first count : Nat} (goes : returns first = true) :
    Clear returns (first + 1) count ↔ Clear returns first (count + 1) := by
  constructor
  · intro clear i le less
    rcases Nat.eq_or_lt_of_le le with rfl | later
    · exact goes
    · exact clear i later (by omega)
  · intro clear i le less
    exact clear i (by omega) (by omega)

private theorem queuedWrites_pos : 0 < s.queuedWrites ↔ s.hasQueued := by
  unfold queuedWrites hasQueued
  by_cases empty : s.messageQueue = []
  · simp [empty, List.length_pos_iff]
  · have positive := List.length_pos_iff.mpr empty
    simp only [empty, ↓reduceIte, not_false_eq_true, or_true, decide_true, iff_true, ne_eq]
    omega

private theorem writeSessionQueues_ends {fuel i : Nat} (enough : s.workload ≤ fuel + 1) :
    (s.hasAuthKey = false ∧ (s.resendsDue ≠ 0 ∨ s.messageQueue ≠ []) ∧
        Clear returns i s.unencryptedQueue.length →
      finishFlush (.alone returns) fuel i s.writeSessionQueues = some .raised) ∧
    (¬ (s.hasAuthKey = false ∧ (s.resendsDue ≠ 0 ∨ s.messageQueue ≠ []) ∧
        Clear returns i s.unencryptedQueue.length) →
      ∃ e, finishFlush (.alone returns) fuel i s.writeSessionQueues = some e ∧
        e.Settled (Fails returns i s.queuedWrites)) := by
  induction queued : s.unencryptedQueue generalizing s fuel i with
  | nil =>
    have writes : s.writeSessionQueues = s.startResend := by simp [writeSessionQueues, queued]
    rw [writes]
    refine ⟨fun raises => startResend_raises raises.1 raises.2.1, fun fine => ?_⟩
    refine startResend_settles queued ?_ (by simp [workload, queued] at enough; omega)
    by_contra neither
    simp only [not_or, Bool.not_eq_true] at neither
    refine fine ⟨neither.2, ?_, fun j le less => absurd less (by simpa using le)⟩
    by_contra nothing
    push Not at nothing
    exact neither.1 nothing
  | cons head rest ih =>
    obtain ⟨messageId, data⟩ := head
    have writes : s.writeSessionQueues =
        .awaits (.unencrypted messageId data) { s with unencryptedQueue := rest } := by
      simp [writeSessionQueues, queued]
    obtain ⟨fuel, rfl⟩ : ∃ k, fuel = k + 1 :=
      ⟨fuel - 1, by simp [workload, queued] at enough; omega⟩
    have count : s.queuedWrites = ({ s with unencryptedQueue := rest }).queuedWrites + 1 := by
      simp only [queuedWrites, resendsDue, queued, List.length_cons]
      split <;> omega
    rw [writes, finishFlush_alone, List.length_cons, count]
    by_cases goes : returns i
    · rw [if_pos goes, ← clear_succ goes, ← fails_succ goes]
      refine ih (s := { s with unencryptedQueue := rest }) ?_ rfl
      simp only [workload, queued, List.length_cons] at enough ⊢
      omega
    · rw [if_neg goes]
      refine ⟨fun raises => absurd (raises.2.2 i (Nat.le_refl i) (by omega)) goes, fun _ => ?_⟩
      refine ⟨_, rfl, ?_, disconnect_client⟩
      rw [disconnect_hasQueued]
      constructor
      · intro left
        exact fails_here (by have := queuedWrites_pos.mpr left; omega) (by simpa using goes)
      · intro fails
        by_contra nothing
        have none : ({ s with unencryptedQueue := rest }).queuedWrites = 0 := by
          by_contra some
          exact nothing (queuedWrites_pos.mp (Nat.pos_of_ne_zero some))
        rw [none] at fails
        exact not_fails_of_le_one (Nat.le_refl 1) fails

private theorem fails_iff : Fails returns 0 s.queuedWrites ↔
    ∃ i, i + 1 < s.queuedWrites ∧ returns i = false := by
  constructor
  · rintro ⟨i, -, less, fails⟩
    exact ⟨i, by omega, fails⟩
  · rintro ⟨i, less, fails⟩
    exact ⟨i, Nat.zero_le i, by omega, fails⟩

/-- After a flush of its own a session is done or has no client. -/
def Calm (s : Session) : Prop :=
  s.client = none ∨ s.hasQueued = false ∧ (s.resendsDue = 0 ∨ s.hasAuthKey)

theorem flushOutbound_raises (raises : s.Raises returns) :
    s.flushOutbound (.alone returns) = some .raised := by
  obtain ⟨connected, keyless, encrypted, clear⟩ := raises
  have ends : finishFlush (.alone returns) s.workload 0 s.writeSessionQueues = some .raised :=
    (writeSessionQueues_ends (Nat.le_succ _)).1
      ⟨keyless, encrypted, fun i _ less => clear i (by simpa using less)⟩
  rw [flushOutbound_alone, if_neg connected, ends]

theorem flushOutbound_ends (quiet : ¬ s.Raises returns) :
    ∃ t, (s.flushOutbound (.alone returns) = some (.returned t) ∨
        s.flushOutbound (.alone returns) = some (.disconnected t)) ∧ t.Calm ∧
      (t.hasQueued ↔ s.hasQueued ∧ ¬ s.Empties returns) := by
  by_cases connected : s.client = none
  · refine ⟨s, Or.inl (by rw [flushOutbound_alone, if_pos connected]), Or.inl connected, ?_⟩
    simp [Empties, connected]
  · have whole : s.flushOutbound (.alone returns) =
        finishFlush (.alone returns) s.workload 0 s.writeSessionQueues := by
      simp [flushOutbound, Surroundings.alone, connected]
    have fine : ¬ (s.hasAuthKey = false ∧ (s.resendsDue ≠ 0 ∨ s.messageQueue ≠ []) ∧
        Clear returns 0 s.unencryptedQueue.length) := by
      rintro ⟨keyless, encrypted, clear⟩
      exact quiet ⟨connected, keyless, encrypted, fun i less =>
        clear i (Nat.zero_le i) (by omega)⟩
    obtain ⟨e, ends, settled⟩ := (writeSessionQueues_ends (i := 0) (Nat.le_succ _)).2 fine
    rw [fails_iff] at settled
    have stuck : (s.hasQueued ∧ ¬ s.Empties returns) ↔
        ∃ i, i + 1 < s.queuedWrites ∧ returns i = false := by
      constructor
      · rintro ⟨-, stays⟩
        by_contra smooth
        push Not at smooth
        exact stays ⟨connected, fun i less => by simpa using smooth i less⟩
      · rintro ⟨i, less, fails⟩
        refine ⟨queuedWrites_pos.mp (by omega), fun empties => ?_⟩
        rw [empties.2 i less] at fails
        cases fails
    rw [whole, ends, stuck]
    cases e with
    | returned t =>
      obtain ⟨smooth, empty, due⟩ := settled
      exact ⟨t, Or.inl rfl, Or.inr ⟨empty, due⟩, by simp [empty, smooth]⟩
    | disconnected t => exact ⟨t, Or.inr rfl, Or.inl settled.2, settled.1⟩
    | raised => exact settled.elim

end Alone

/-- A suspended flush has emptied the queues it has dealt with. -/
private def InPhase : Progress → Prop
  | .awaits (.unencrypted _ _) _ | .raises _ => True
  | .awaits (.resend _ _ _) s | .awaits (.message _) s => s.unencryptedQueue = []
  | .returns s => s.hasQueued = false

private theorem inPhase_drainMessages (plain : s.unencryptedQueue = []) :
    InPhase s.drainMessages := by
  unfold drainMessages writeMessage
  split
  · rename_i queued
    simp [InPhase, hasQueued, plain, queued]
  · split
    · exact plain
    · trivial

private theorem inPhase_resendFrom {rest : List OutMessage} (plain : s.unencryptedQueue = []) :
    InPhase (s.resendFrom rest) := by
  cases rest with
  | nil => exact inPhase_drainMessages plain
  | cons m rest =>
    simp only [resendFrom, writeMessage]
    split
    · exact plain
    · trivial

private theorem inPhase_writeSessionQueues : InPhase s.writeSessionQueues := by
  unfold writeSessionQueues startResend
  split
  · rename_i plain
    split
    · exact inPhase_resendFrom plain
    · exact inPhase_drainMessages plain
  · trivial

private theorem inPhase_resume {awaiting : Awaiting} (mutated : Bool)
    (before : InPhase (.awaits awaiting s))
    (fewer : t.unencryptedQueue.length ≤ s.unencryptedQueue.length) :
    InPhase (t.resume (if mutated then awaiting.noteMutation else awaiting)) := by
  have stays : s.unencryptedQueue = [] → t.unencryptedQueue = [] := by
    intro plain
    rw [plain] at fewer
    exact List.length_eq_zero_iff.mp (Nat.le_zero.mp fewer)
  cases awaiting with
  | unencrypted messageId data => cases mutated <;> exact inPhase_writeSessionQueues
  | resend m rest stale =>
    have plain := stays before
    cases mutated <;> simp only [Awaiting.noteMutation, resume, Bool.false_eq_true, ↓reduceIte]
    all_goals
      split
      · trivial
      · exact inPhase_resendFrom plain
  | message m =>
    have plain := stays before
    cases mutated <;>
      exact inPhase_drainMessages (s := t.trackPendingOutbound m) plain

private theorem finishFlush_empties (silent : w.Silent) (smooth : ∀ i, w.returns i = true)
    {fuel i : Nat} {p : Progress} {e : FlushEnd} (inPhase : InPhase p)
    (ends : finishFlush w fuel i p = some e) :
    e = .raised ∨ ∃ t, e = .returned t ∧ t.hasQueued = false := by
  induction fuel generalizing i p with
  | zero =>
    cases p with
    | awaits awaiting s => cases ends
    | returns s =>
      obtain rfl := Option.some.inj ends
      exact Or.inr ⟨s, rfl, inPhase⟩
    | raises s =>
      obtain rfl := Option.some.inj ends
      exact Or.inl rfl
  | succ fuel ih =>
    cases p with
    | awaits awaiting s =>
      simp only [finishFlush, smooth i, ↓reduceIte] at ends
      exact ih (inPhase_resume (w.mutates i) inPhase (silent.during i s).1) ends
    | returns s =>
      obtain rfl := Option.some.inj ends
      exact Or.inr ⟨s, rfl, inPhase⟩
    | raises s =>
      obtain rfl := Option.some.inj ends
      exact Or.inl rfl

private theorem flushOutbound_empties (silent : w.Silent) (smooth : ∀ i, w.returns i = true)
    (connected : (w.before s).client ≠ none) :
    s.flushOutbound w = some .raised ∨
      ∃ t, s.flushOutbound w = some (.returned t) ∧ t.hasQueued = false := by
  obtain ⟨e, ends⟩ := Option.isSome_iff_exists.mp (flushOutbound_isSome (s := s) silent)
  have whole := ends
  simp only [flushOutbound, connected, ↓reduceIte] at whole
  rw [ends]
  rcases finishFlush_empties silent smooth inPhase_writeSessionQueues whole with
    rfl | ⟨t, rfl, empty⟩
  · exact Or.inl rfl
  · exact Or.inr ⟨t, rfl, empty⟩

end Session

section Passes

variable {sessions : List Session}

private theorem any_cons_iff {p : Nat → Session → Prop} {s : Session} :
    (∃ i t, (s :: sessions)[i]? = some t ∧ p i t) ↔
      p 0 s ∨ ∃ i t, sessions[i]? = some t ∧ p (i + 1) t := by
  constructor
  · rintro ⟨i, t, found, holds⟩
    cases i with
    | zero =>
      obtain rfl := Option.some.inj found
      exact Or.inl holds
    | succ i => exact Or.inr ⟨i, t, found, holds⟩
  · rintro (holds | ⟨i, t, found, holds⟩)
    · exact ⟨0, s, rfl, holds⟩
    · exact ⟨i + 1, t, found, holds⟩

/-- A pass that does not raise leaves calm sessions, one of them with something queued exactly when
one of the sessions did not empty its queues. -/
private theorem flushPass_ends (returns : Nat → Nat → Bool)
    (quiet : ∀ i (s : Session), sessions[i]? = some s → ¬ s.Raises (returns i)) :
    ∃ ts, flushPass (fun j => .alone (returns j)) sessions = some ts ∧
      (∀ t ∈ ts, t.Calm) ∧ (hasPendingOutbound ts ↔ ∃ i, ∃ s : Session,
        sessions[i]? = some s ∧ s.hasQueued ∧ ¬ s.Empties (returns i)) := by
  induction sessions generalizing returns with
  | nil => exact ⟨[], rfl, by simp, by simp [hasPendingOutbound]⟩
  | cons s sessions ih =>
    obtain ⟨t, ends, calm, left⟩ := Session.flushOutbound_ends (quiet 0 s rfl)
    obtain ⟨ts, passes, calms, lefts⟩ := ih (fun j => returns (j + 1))
      fun i u found => quiet (i + 1) u found
    refine ⟨t :: ts, ?_, ?_, ?_⟩
    · rcases ends with ends | ends <;> simp [flushPass, ends, passes]
    · simpa using ⟨calm, calms⟩
    · rw [any_cons_iff (p := fun i u => u.hasQueued ∧ ¬ u.Empties (returns i)), ← left, ← lefts]
      simp [hasPendingOutbound]

private theorem flushPass_raises {returns : Nat → Nat → Bool}
    (raises : ∃ i, ∃ s : Session, sessions[i]? = some s ∧ s.Raises (returns i)) :
    flushPass (fun j => .alone (returns j)) sessions = none := by
  induction sessions generalizing returns with
  | nil => simp at raises
  | cons s sessions ih =>
    by_cases head : s.Raises (returns 0)
    · simp [flushPass, Session.flushOutbound_raises head]
    · obtain ⟨t, ends, -, -⟩ := Session.flushOutbound_ends head
      have tail := (any_cons_iff (p := fun i u => u.Raises (returns i))).mp raises
      have rest := ih (tail.resolve_left head)
      rcases ends with ends | ends <;> simp [flushPass, ends, rest]

private theorem not_raises_of_calm {s : Session} {returns : Nat → Bool} (calm : s.Calm) :
    ¬ s.Raises returns := by
  rintro ⟨connected, keyless, encrypted, -⟩
  obtain ⟨empty, due⟩ := calm.resolve_left connected
  have none : s.messageQueue = [] := by
    simp only [Session.hasQueued, decide_eq_false_iff_not, not_or, not_not] at empty
    exact empty.2
  simp [none, keyless] at encrypted due
  exact encrypted due

private theorem spins_of_calm (returns : Nat → Nat → Nat → Bool) {k : Nat} {ts : List Session}
    (here : Loops.after hasPendingOutbound
      (fun k => flushPass (fun j => .alone (returns k j))) sessions k = .running ts)
    (calm : ∀ t ∈ ts, t.Calm) (left : hasPendingOutbound ts = true) :
    ¬ SendLoopStops (fun k j => .alone (returns k j)) sessions := by
  refine Loops.not_stops_of_invariant
    (fun us => (∀ u ∈ us, u.Calm) ∧ hasPendingOutbound us = true) here ⟨calm, left⟩
    (fun _ => And.right) ?_
  rintro k us ⟨calms, stuck⟩
  obtain ⟨vs, passes, next, lefts⟩ := flushPass_ends (returns k) fun i u found =>
    not_raises_of_calm (calms u (List.mem_of_getElem? found))
  refine ⟨vs, passes, next, lefts.mpr ?_⟩
  obtain ⟨u, member, queued⟩ := List.any_eq_true.mp stuck
  obtain ⟨i, found⟩ := List.getElem?_of_mem member
  refine ⟨i, u, found, queued, fun empties => ?_⟩
  rcases calms u member with gone | done
  · exact empties.1 gone
  · rw [done.1] at queued
    cases queued

private theorem flushPass_empties {w : Nat → Surroundings} (silent : ∀ j, (w j).Silent)
    (smooth : ∀ j i, (w j).returns i = true)
    (connected : ∀ j s, sessions[j]? = some s → ((w j).before s).client ≠ none) :
    flushPass w sessions = none ∨
      ∃ ts, flushPass w sessions = some ts ∧ hasPendingOutbound ts = false := by
  induction sessions generalizing w with
  | nil => exact Or.inr ⟨[], rfl, rfl⟩
  | cons s sessions ih =>
    have rest := ih (fun j => silent (j + 1)) (fun j => smooth (j + 1))
      fun j u found => connected (j + 1) u found
    rcases Session.flushOutbound_empties (silent 0) (smooth 0) (connected 0 s rfl) with
      raises | ⟨t, ends, empty⟩
    · exact Or.inl (by simp [flushPass, raises])
    · rcases rest with raises | ⟨ts, passes, empties⟩
      · exact Or.inl (by simp [flushPass, ends, raises])
      · refine Or.inr ⟨t :: ts, by simp [flushPass, ends, passes], ?_⟩
        simpa [hasPendingOutbound, empty] using empties

private theorem send_loop_stops_if_smooth (w : Nat → Nat → Surroundings) (sessions : List Session)
    (silent : ∀ k j, (w k j).Silent)
    (connected : ∀ j s, sessions[j]? = some s → ((w 0 j).before s).client ≠ none)
    (smooth : ∀ j i, (w 0 j).returns i = true) : SendLoopStops w sessions := by
  rcases flushPass_empties (silent 0) smooth connected with raises | ⟨ts, passes, empty⟩
  · exact Loops.stops_of_raise (k := 0) rfl raises
  · by_cases pending : hasPendingOutbound sessions
    · exact Loops.stops_of_guard_false (Loops.after_succ_of_body (k := 0) rfl pending passes) empty
    · exact Loops.stops_of_guard_false (k := 0) rfl (by simpa using pending)

private theorem send_loop_stops_alone_iff (returns : Nat → Nat → Nat → Bool)
    (sessions : List Session) :
    SendLoopStops (fun k j => .alone (returns k j)) sessions ↔
      (∃ j, ∃ s : Session, sessions[j]? = some s ∧ s.Raises (returns 0 j)) ∨
      ∀ j (s : Session), sessions[j]? = some s → s.hasQueued → s.Empties (returns 0 j) := by
  by_cases pending : hasPendingOutbound sessions
  · by_cases raises : ∃ j, ∃ s : Session, sessions[j]? = some s ∧ s.Raises (returns 0 j)
    · simp only [raises, true_or, iff_true]
      exact Loops.stops_of_raise (k := 0) rfl (flushPass_raises raises)
    · push Not at raises
      obtain ⟨ts, passes, calms, lefts⟩ := flushPass_ends (returns 0) raises
      have one : Loops.after hasPendingOutbound
          (fun k => flushPass fun j => .alone (returns k j)) sessions 1 = .running ts :=
        Loops.after_succ_of_body (k := 0) rfl pending passes
      have quiet : ¬ ∃ j, ∃ s : Session, sessions[j]? = some s ∧ s.Raises (returns 0 j) := by
        push Not
        exact raises
      rw [or_iff_right quiet]
      constructor
      · intro stops j s found queued
        by_contra stays
        exact spins_of_calm returns one calms (lefts.mpr ⟨j, s, found, queued, stays⟩) stops
      · intro empties
        refine Loops.stops_of_guard_false one ?_
        by_contra left
        obtain ⟨j, s, found, queued, stays⟩ := lefts.mp (by simpa using left)
        exact stays (empties j s found queued)
  · have idle : ∀ j (s : Session), sessions[j]? = some s → s.hasQueued →
        s.Empties (returns 0 j) := by
      intro j s found queued
      exact absurd (List.any_eq_true.mpr ⟨s, List.mem_of_getElem? found, queued⟩) pending
    exact ⟨fun _ => Or.inr idle, fun _ =>
      Loops.stops_of_guard_false (k := 0) rfl (by simpa using pending)⟩

/-- A loop that nobody feeds stops once every write of its first pass returns; on its own it stops
exactly when its first pass raises or empties every queue. -/
theorem send_loop_stops (w : Nat → Nat → Surroundings) (returns : Nat → Nat → Nat → Bool)
    (sessions : List Session) :
    ((∀ k j, (w k j).Silent) →
      (∀ (k j : Nat) (s : Session), (s.flushOutbound (w k j)).isSome) ∧
      ((∀ j s, sessions[j]? = some s → ((w 0 j).before s).client ≠ none) →
        (∀ j i, (w 0 j).returns i = true) → SendLoopStops w sessions)) ∧
    (SendLoopStops (fun k j => .alone (returns k j)) sessions ↔
      (∃ j, ∃ s : Session, sessions[j]? = some s ∧ s.Raises (returns 0 j)) ∨
      ∀ j (s : Session), sessions[j]? = some s → s.hasQueued → s.Empties (returns 0 j)) :=
  ⟨fun silent => ⟨fun k j _ => Session.flushOutbound_isSome (silent k j),
    send_loop_stops_if_smooth w sessions silent⟩, send_loop_stops_alone_iff returns sessions⟩

/-- A connected session whose queued message is written. -/
private def writable : Session :=
  (Session.new 3 (some 1) (some ⟨some 7, some [1]⟩)).enqueue 5 false true [8]

theorem send_loop_stops_writable :
    SendLoopStops (fun _ _ => .alone fun _ => true) [writable] :=
  (send_loop_stops (fun _ _ => .alone fun _ => true) (fun _ _ _ => true) [writable]).2.mpr <|
    Or.inr fun j s found _ => by
      obtain rfl : s = writable := by simpa using List.mem_of_getElem? found
      exact ⟨by decide, fun _ _ => rfl⟩

/-- The first write of a flush fails with a second message queued: the session has lost its client
and is still active, and the loop of that client spins for ever. -/
theorem send_loop_spins :
    ∃ g, runFrom (GatewayState.step fun _ => none) .start
        [.getSession 1 7 [1] 3, .outbound 0 (.enqueue 5 false true [8]),
          .outbound 0 (.enqueue 5 false true [9]), .outbound 0 (.flushOutbound true),
          .outbound 0 .writeDisconnects] = some g ∧
      ∀ returns : Nat → Nat → Nat → Bool,
        ¬ SendLoopStops (fun k j => .alone (returns k j))
          (g.outboundSessions (.new 0 (some 1) none) 1) := by
  refine ⟨_, rfl, fun returns => ?_⟩
  refine Loops.not_stops_of_invariant (fun us => us = _) (k := 0) rfl rfl ?_ ?_
  · rintro _ rfl
    rfl
  · rintro k _ rfl
    exact ⟨_, rfl, rfl⟩

end Passes

end Piltover.Gateway
