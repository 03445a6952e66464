/- source: piltover/gateway/client.py, piltover/session/session_manager.py
   digest: Clients that share session objects, and who a session belongs to. -/

import Piltover.Gateway.Outbound

set_option autoImplicit false

namespace Piltover.Gateway

open Piltover.Foundation
open Piltover.Foundation.Runs

/-- A session object: its position in the list of all that were ever made. -/
abbrev SessionRef := Nat

abbrev UniqId := Nat × Nat

/-- `Client.active_sessions`, the most recently used entry first. -/
abbrev ActiveSessions := List (UniqId × SessionRef)

namespace Outbound

/-- `Session.finalize` also cancels the session's own flush task. -/
def finalize (o : Outbound) : Outbound := { o.disconnect with session := o.session.finalize }

end Outbound

namespace ActiveSessions

def touch (active : ActiveSessions) (uniqId : UniqId) (ref : SessionRef) : ActiveSessions :=
  (uniqId, ref) :: active.filter (fun e => e.1 ≠ uniqId)

/-- `active_sessions[uniq_id] = session`, with the session that falls out. `evict` is the choice of
the LRU: the entry that leaves a full dictionary for a new one. -/
def put (evict : ActiveSessions → Option (UniqId × SessionRef)) (active : ActiveSessions)
    (uniqId : UniqId) (ref : SessionRef) : ActiveSessions × Option SessionRef :=
  if uniqId ∈ active.map Prod.fst then (active.touch uniqId ref, none)
  else match evict active with
    | none => (active.touch uniqId ref, none)
    | some out => (touch (active.filter (fun e => e.1 ≠ out.1)) uniqId ref, some out.2)

end ActiveSessions

/-- All session objects, `SessionManager.sessions` and the sessions each client has active. -/
structure GatewayState where
  objects : List Outbound
  sessions : OrderedDict UniqId SessionRef
  active : ClientId → ActiveSessions

inductive GatewayEvent
  | getSession (client : ClientId) (authKeyId : Nat) (authKey : Bytes) (sessionId : Nat)
  | dropAuthKey (client : ClientId) (ref : SessionRef)
  | teardown (client : ClientId)
  | outbound (ref : SessionRef) (e : OutboundEvent)
  | delayedCleanup (ref : SessionRef)
  | destroySession (uniqId : UniqId)
  deriving DecidableEq

/-- What an event does to the sessions' clients: the session it takes for `client`, those it
detaches on behalf of `client`, and the one it ends. -/
structure Handover where
  client : ClientId
  taken : Option SessionRef
  detached : List SessionRef
  finalized : Option SessionRef

namespace GatewayState

def start : GatewayState := ⟨[], ∅, fun _ => []⟩

def getOrCreate (g : GatewayState) (client : ClientId) (authKeyId : Nat) (authKey : Bytes)
    (sessionId : Nat) : GatewayState × SessionRef :=
  match g.sessions.lookup (authKeyId, sessionId) with
  | some ref => (g, ref)
  | none =>
    ({ g with
        objects := g.objects ++
          [Outbound.new sessionId (some client) (some ⟨some authKeyId, some authKey⟩)]
        sessions := g.sessions.setItem (authKeyId, sessionId) g.objects.length },
      g.objects.length)

def connect (g : GatewayState) (client : ClientId) (ref : SessionRef) : GatewayState :=
  { g with objects := g.objects.modify ref fun o => { o with session := o.session.connect client } }

def disconnect (g : GatewayState) (ref : SessionRef) : GatewayState :=
  { g with objects := g.objects.modify ref Outbound.disconnect }

def disconnectAll (g : GatewayState) (refs : List SessionRef) : GatewayState :=
  refs.foldl disconnect g

def uniqId (g : GatewayState) (ref : SessionRef) : UniqId :=
  (g.objects[ref]?).elim (0, 0) fun o => o.session.uniqId

def setActive (g : GatewayState) (client : ClientId) (active : ActiveSessions) : GatewayState :=
  { g with active := Function.update g.active client active }

/-- `SessionManager.finalize`. -/
def finalize (g : GatewayState) (ref : SessionRef) : GatewayState :=
  { g with
    objects := g.objects.modify ref Outbound.finalize
    sessions := match (g.objects[ref]?).bind fun o => o.session.authKeyId.map (·, o.session.sessionId) with
      | none => g.sessions
      | some uniqId => g.sessions.erase uniqId }

def client (g : GatewayState) (ref : SessionRef) : Option ClientId :=
  (g.objects[ref]?).bind fun o => o.session.client

def isCleaning (g : GatewayState) (ref : SessionRef) : Bool :=
  (g.objects[ref]?).any fun o => o.session.cleanupTask = some .running

section Steps

variable (evict : ActiveSessions → Option (UniqId × SessionRef))

/-- `_get_session` for a session that the client does not have active, up to the eviction that
its entry causes: the session and the one that falls out. -/
def openSession (g : GatewayState) (client : ClientId) (authKeyId : Nat) (authKey : Bytes)
    (sessionId : Nat) : GatewayState × SessionRef × Option SessionRef :=
  let (g, ref) := g.getOrCreate client authKeyId authKey sessionId
  let g := g.connect client ref
  let (active, out) := (g.active client).put evict (g.uniqId ref) ref
  (g.setActive client active, ref, out)

def step (g : GatewayState) : GatewayEvent → Option GatewayState
  | .getSession client authKeyId authKey sessionId =>
    match (g.active client).lookup (authKeyId, sessionId) with
    | some ref =>
      some (g.setActive client ((g.active client).touch (authKeyId, sessionId) ref))
    | none =>
      let (g, _, out) := g.openSession evict client authKeyId authKey sessionId
      some (g.disconnectAll out.toList)
  | .dropAuthKey client ref =>
    some ((g.setActive client
      ((g.active client).filter (fun e => e.1 ≠ g.uniqId ref))).disconnect ref)
  | .teardown client =>
    some ((g.disconnectAll ((g.active client).map Prod.snd)).setActive client [])
  | .outbound _ (.connect _) | .outbound _ .disconnect => none
  | .outbound ref e =>
    match g.objects[ref]? with
    | none => none
    | some o => (o.step e).map fun o => { g with objects := g.objects.set ref o }
  | .delayedCleanup ref =>
    if g.isCleaning ref then
      if g.client ref = none then some (g.finalize ref)
      else some { g with objects := g.objects.modify ref fun o =>
        { o with session.cleanupTask := some .done } }
    else none
  | .destroySession uniqId =>
    match g.sessions.lookup uniqId with
    | none => some g
    | some ref => some (g.finalize ref)

/-- The calls of `Session.connect`, `Session.disconnect` and `Session.finalize` that an event
makes. A failed write calls `disconnect` for the client its flush began with. -/
def handover (g : GatewayState) : GatewayEvent → Handover
  | .getSession client authKeyId authKey sessionId =>
    match (g.active client).lookup (authKeyId, sessionId) with
    | some _ => ⟨client, none, [], none⟩
    | none =>
      let (_, ref, out) := g.openSession evict client authKeyId authKey sessionId
      ⟨client, some ref, out.toList, none⟩
  | .dropAuthKey client ref => ⟨client, none, [ref], none⟩
  | .teardown client => ⟨client, none, (g.active client).map Prod.snd, none⟩
  | .outbound ref .writeDisconnects =>
    match (g.objects[ref]?).bind Outbound.flush with
    | none => ⟨0, none, [], none⟩
    | some flush => ⟨flush.client, none, [ref], none⟩
  | .outbound _ _ => ⟨0, none, [], none⟩
  | .delayedCleanup ref => ⟨0, none, [], if g.client ref = none then some ref else none⟩
  | .destroySession uniqId => ⟨0, none, [], g.sessions.lookup uniqId⟩

/-- Every session that the event detaches has no client or is the acting client's own. -/
def Polite (g : GatewayState) (e : GatewayEvent) : Prop :=
  ∀ ref ∈ (g.handover evict e).detached,
    (g.handover evict e).taken = some ref ∨ g.client ref = none ∨
      g.client ref = some (g.handover evict e).client

instance (g : GatewayState) (e : GatewayEvent) : Decidable (g.Polite evict e) :=
  inferInstanceAs (Decidable (∀ ref ∈ (g.handover evict e).detached, _))

end Steps

end GatewayState

/-- Who a session belongs to, by the calls alone: the last client that took it, until that client
lets it go or the session ends. -/
def Handover.pass (h : Handover) (owner : SessionRef → Option ClientId) :
    SessionRef → Option ClientId := fun ref =>
  if h.finalized = some ref then none
  else
    let taker := if h.taken = some ref then some h.client else owner ref
    if ref ∈ h.detached ∧ taker = some h.client then none else taker

/-- The gateway with the owner that every session ought to have. -/
structure Ownership where
  gateway : GatewayState
  owner : SessionRef → Option ClientId

namespace Ownership

def start : Ownership := ⟨.start, fun _ => none⟩

def step (evict : ActiveSessions → Option (UniqId × SessionRef)) (s : Ownership)
    (e : GatewayEvent) : Option Ownership :=
  (s.gateway.step evict e).map fun g => ⟨g, (s.gateway.handover evict e).pass s.owner⟩

/-- A session that belongs to a client has it as its client and is not about to be cleaned up. -/
def Held (s : Ownership) : Prop :=
  ∀ ref client, s.owner ref = some client →
    s.gateway.client ref = some client ∧ s.gateway.isCleaning ref = false

end Ownership

namespace Session

variable {s : Session} {rest : List OutMessage}

/-- What takeovers and cleanups look at. -/
def holder (s : Session) : Option ClientId × Option TaskState := (s.client, s.cleanupTask)

private theorem holder_drainMessages : s.drainMessages.session.holder = s.holder := by
  unfold drainMessages writeMessage
  split
  · rfl
  · split <;> rfl

private theorem holder_resendFrom : (s.resendFrom rest).session.holder = s.holder := by
  cases rest with
  | nil => exact holder_drainMessages
  | cons m rest => simp only [resendFrom, writeMessage]; split <;> rfl

private theorem holder_writeSessionQueues : s.writeSessionQueues.session.holder = s.holder := by
  unfold writeSessionQueues startResend
  split
  · split
    · exact holder_resendFrom
    · exact holder_drainMessages
  · rfl

private theorem holder_resume (awaiting : Awaiting) :
    (s.resume awaiting).session.holder = s.holder := by
  cases awaiting with
  | unencrypted messageId data => exact holder_writeSessionQueues
  | resend m rest mutated =>
    simp only [resume]
    split
    · rfl
    · exact holder_resendFrom
  | message m => exact holder_drainMessages

end Session

namespace Outbound

variable {o u : Outbound}

private theorem holder_settle (client : ClientId) (scheduled : Bool) (p : Progress) :
    (o.settle client scheduled p).session.holder = p.session.holder := by
  cases p <;> cases scheduled <;> rfl

private theorem holder_flushOutbound {scheduled : Bool}
    (happens : o.flushOutbound scheduled = some u) : u.session.holder = o.session.holder := by
  unfold flushOutbound at happens
  split at happens
  · cases happens
  · split at happens
    · obtain rfl := Option.some.inj happens
      cases scheduled <;> rfl
    · obtain rfl := Option.some.inj happens
      rw [holder_settle, Session.holder_writeSessionQueues]

theorem step_holder {e : OutboundEvent} (connects : ∀ client, e ≠ .connect client)
    (disconnects : e ≠ .disconnect) (fails : e ≠ .writeDisconnects)
    (happens : o.step e = some u) : u.session.holder = o.session.holder := by
  cases e with
  | enqueue now inReply contentRelated data =>
    obtain rfl := Option.some.inj happens
    obtain ⟨values, seqNo, task, queued⟩ := o.session.enqueue_eq now inReply contentRelated data
    rw [queued]
    rfl
  | enqueueUnencrypted now inReply data =>
    obtain rfl := Option.some.inj happens
    obtain ⟨values, queue, task, queued⟩ := o.session.enqueueUnencrypted_eq now inReply data
    rw [queued]
    rfl
  | connect client => exact absurd rfl (connects client)
  | disconnect => exact absurd rfl disconnects
  | ackOutbound msgIds =>
    obtain rfl := Option.some.inj happens
    rfl
  | refreshAuth authData =>
    obtain rfl := Option.some.inj happens
    rfl
  | flushOutbound scheduled => exact holder_flushOutbound happens
  | writeReturns =>
    simp only [step] at happens
    split at happens
    · cases happens
    · split at happens
      · cases happens
      · obtain rfl := Option.some.inj happens
        rw [holder_settle, Session.holder_resume]
  | writeDisconnects => exact absurd rfl fails
  | flushCancelled =>
    simp only [step] at happens
    split at happens
    · cases happens
    · split at happens
      · cases happens
      · obtain rfl := Option.some.inj happens
        rfl

theorem writeDisconnects_flush (happens : o.step .writeDisconnects = some u) :
    o.flush.isSome ∧ u.session.client = none := by
  simp only [step] at happens
  split at happens
  · cases happens
  · rename_i flush running
    split at happens
    · cases happens
    · obtain rfl := Option.some.inj happens
      simp [running, disconnect, Session.disconnect_eq]

end Outbound

namespace GatewayState

variable {g h : GatewayState} {ref r : SessionRef}

private theorem client_modify (g : GatewayState) (ref r : SessionRef) (f : Outbound → Outbound) :
    ({ g with objects := g.objects.modify ref f } : GatewayState).client r =
      if r = ref then (g.objects[ref]?).bind fun o => (f o).session.client else g.client r := by
  by_cases same : r = ref
  · subst same
    rw [if_pos rfl]
    change ((g.objects.modify r f)[r]?).bind _ = _
    rw [List.getElem?_modify_eq]
    cases g.objects[r]? <;> rfl
  · simp [client, same, Ne.symm same]

private theorem isCleaning_modify (g : GatewayState) (ref r : SessionRef)
    (f : Outbound → Outbound) :
    ({ g with objects := g.objects.modify ref f } : GatewayState).isCleaning r =
      if r = ref then (g.objects[ref]?).any fun o => (f o).session.cleanupTask = some .running
      else g.isCleaning r := by
  by_cases same : r = ref
  · subst same
    rw [if_pos rfl]
    change ((g.objects.modify r f)[r]?).any _ = _
    rw [List.getElem?_modify_eq]
    cases g.objects[r]? <;> rfl
  · simp [isCleaning, same, Ne.symm same]

private theorem client_disconnect :
    (g.disconnect ref).client r = if r = ref then none else g.client r := by
  rw [disconnect, client_modify]
  simp [Outbound.disconnect, Session.disconnect_eq]

private theorem isCleaning_disconnect (other : r ≠ ref) :
    (g.disconnect ref).isCleaning r = g.isCleaning r := by
  rw [disconnect, isCleaning_modify, if_neg other]

theorem client_disconnectAll (refs : List SessionRef) :
    (g.disconnectAll refs).client r = if r ∈ refs then none else g.client r := by
  induction refs generalizing g with
  | nil => simp [disconnectAll]
  | cons ref refs ih =>
    have rest := ih (g := g.disconnect ref)
    rw [client_disconnect] at rest
    rw [disconnectAll, List.foldl_cons]
    refine rest.trans ?_
    by_cases same : r = ref <;> simp [same]

theorem isCleaning_disconnectAll (refs : List SessionRef) (other : r ∉ refs) :
    (g.disconnectAll refs).isCleaning r = g.isCleaning r := by
  induction refs generalizing g with
  | nil => rfl
  | cons ref refs ih =>
    obtain ⟨head, tail⟩ := List.ne_and_not_mem_of_not_mem_cons other
    exact (ih tail).trans (isCleaning_disconnect head)

private theorem client_connect (client : ClientId) (valid : ref < g.objects.length) :
    (g.connect client ref).client r = if r = ref then some client else g.client r := by
  rw [connect, client_modify]
  congr 1
  rw [List.getElem?_eq_getElem valid]
  obtain ⟨task, connected⟩ := (g.objects[ref]).session.connect_eq client
  simp [connected]

private theorem isCleaning_connect (client : ClientId) :
    (g.connect client ref).isCleaning r = if r = ref then false else g.isCleaning r := by
  rw [connect, isCleaning_modify]
  congr 1
  cases g.objects[ref]? with
  | none => rfl
  | some o =>
    obtain ⟨task, connected⟩ := o.session.connect_eq client
    simp [connected]

theorem client_finalize :
    (g.finalize ref).client r = if r = ref then none else g.client r := by
  have modified := client_modify g ref r Outbound.finalize
  refine modified.trans ?_
  simp [Outbound.finalize, Session.finalize]

theorem isCleaning_finalize :
    (g.finalize ref).isCleaning r = if r = ref then false else g.isCleaning r := by
  have modified := isCleaning_modify g ref r Outbound.finalize
  refine modified.trans ?_
  congr 1
  cases g.objects[ref]? <;> simp [Outbound.finalize, Session.finalize, Session.cancelCleanup]

/-- `SessionManager.sessions` only names objects that exist. -/
def Valid (g : GatewayState) : Prop :=
  ∀ uniqId ref, g.sessions.lookup uniqId = some ref → ref < g.objects.length

private theorem getOrCreate_spec (client : ClientId) (authKeyId : Nat) (authKey : Bytes)
    (sessionId : Nat) (valid : g.Valid) :
    let out := g.getOrCreate client authKeyId authKey sessionId
    out.1.Valid ∧ out.2 < out.1.objects.length ∧ out.1.active = g.active ∧
      (∀ r, r ≠ out.2 → out.1.client r = g.client r ∧ out.1.isCleaning r = g.isCleaning r) := by
  unfold getOrCreate
  cases known : g.sessions.lookup (authKeyId, sessionId) with
  | some ref => exact ⟨valid, valid _ ref known, rfl, fun _ _ => ⟨rfl, rfl⟩⟩
  | none =>
    refine ⟨?_, by simp, rfl, ?_⟩
    · intro uniqId ref found
      simp only [OrderedDict.lookup_setItem] at found
      simp only [List.length_append, List.length_singleton]
      split at found
      · obtain rfl := Option.some.inj found
        exact Nat.lt_succ_self _
      · exact Nat.lt_succ_of_lt (valid uniqId ref found)
    · intro r other
      have before : (g.objects ++
          [Outbound.new sessionId (some client) (some ⟨some authKeyId, some authKey⟩)])[r]? =
            g.objects[r]? := by
        rcases Nat.lt_or_gt_of_ne other with less | more
        · exact List.getElem?_append_left less
        · rw [List.getElem?_eq_none (Nat.le_of_lt more), List.getElem?_eq_none]
          simpa using Nat.succ_le_of_lt more
      simp only [GatewayState.client, isCleaning, before, and_self]

private theorem openSession_spec (evict : ActiveSessions → Option (UniqId × SessionRef))
    (client : ClientId) (authKeyId : Nat) (authKey : Bytes) (sessionId : Nat) (valid : g.Valid) :
    let out := g.openSession evict client authKeyId authKey sessionId
    out.1.Valid ∧
      (∀ r, out.1.client r = if r = out.2.1 then some client else g.client r) ∧
      (∀ r, out.1.isCleaning r = if r = out.2.1 then false else g.isCleaning r) := by
  obtain ⟨validNext, bound, _, same⟩ :=
    getOrCreate_spec client authKeyId authKey sessionId valid
  simp only [openSession]
  refine ⟨?_, ?_, ?_⟩
  · intro uniqId ref found
    have small := validNext uniqId ref found
    simpa [connect, setActive] using small
  · intro r
    refine (client_connect client bound).trans ?_
    by_cases taken : r = (g.getOrCreate client authKeyId authKey sessionId).2
    · simp [taken]
    · simp [taken, (same r taken).1]
  · intro r
    refine (isCleaning_connect client).trans ?_
    by_cases taken : r = (g.getOrCreate client authKeyId authKey sessionId).2
    · simp [taken]
    · simp [taken, (same r taken).2]

private theorem valid_of_frame (sessions : h.sessions = g.sessions)
    (objects : h.objects.length = g.objects.length) (valid : g.Valid) : h.Valid := by
  intro uniqId ref found
  rw [objects]
  exact valid uniqId ref (sessions ▸ found)

private theorem valid_disconnectAll (refs : List SessionRef) (valid : g.Valid) :
    (g.disconnectAll refs).Valid := by
  induction refs generalizing g with
  | nil => exact valid
  | cons ref refs ih => exact ih (valid_of_frame (g := g) rfl (List.length_modify _ _ _) valid)

private theorem valid_finalize (valid : g.Valid) : (g.finalize ref).Valid := by
  intro uniqId r found
  change r < (g.objects.modify ref Outbound.finalize).length
  rw [List.length_modify]
  simp only [finalize] at found
  split at found
  · exact valid uniqId r found
  · rename_i ended _
    by_cases same : uniqId = ended
    · subst same
      rw [AList.lookup_erase] at found
      cases found
    · rw [AList.lookup_erase_ne same] at found
      exact valid uniqId r found

/-- What one event may do to sessions, in terms of its handover. -/
structure Follows (g : GatewayState) (d : Handover) (h : GatewayState) : Prop where
  valid : h.Valid
  client : ∀ r, h.client r =
    if d.finalized = some r ∨ r ∈ d.detached then none
    else if d.taken = some r then some d.client else g.client r
  cleaning : ∀ r, h.isCleaning r →
    r ∈ d.detached ∨ d.taken ≠ some r ∧ g.isCleaning r

private theorem follows_of_frame (d : Handover) (taken : d.taken = none)
    (detached : d.detached = []) (finalized : d.finalized = none) (valid : h.Valid)
    (client : ∀ r, h.client r = g.client r) (cleaning : ∀ r, h.isCleaning r → g.isCleaning r) :
    g.Follows d h :=
  ⟨valid, fun r => by simp [taken, detached, finalized, client r],
    fun r busy => Or.inr ⟨by simp [taken], cleaning r busy⟩⟩

private theorem follows_of_detached (d : Handover) (taken : d.taken = none)
    (finalized : d.finalized = none) (valid : h.Valid)
    (client : ∀ r, h.client r = if r ∈ d.detached then none else g.client r)
    (cleaning : ∀ r, r ∉ d.detached → h.isCleaning r = g.isCleaning r) : g.Follows d h := by
  refine ⟨valid, fun r => by simp [taken, finalized, client r], fun r busy => ?_⟩
  by_cases member : r ∈ d.detached
  · exact Or.inl member
  · exact Or.inr ⟨by simp [taken], cleaning r member ▸ busy⟩

private theorem follows_finalize (d : Handover) (taken : d.taken = none)
    (detached : d.detached = []) (finalized : d.finalized = some ref) (valid : g.Valid) :
    g.Follows d (g.finalize ref) := by
  refine ⟨valid_finalize valid, fun r => ?_, fun r busy => Or.inr ⟨by simp [taken], ?_⟩⟩
  · simp [taken, detached, finalized, client_finalize, eq_comm]
  · rw [isCleaning_finalize] at busy
    by_cases same : r = ref
    · simp [same] at busy
    · simpa [same] using busy

section Steps

variable {evict : ActiveSessions → Option (UniqId × SessionRef)}

private theorem getSession_follows {client : ClientId} {authKeyId : Nat} {authKey : Bytes}
    {sessionId : Nat} (valid : g.Valid)
    (happens : g.step evict (.getSession client authKeyId authKey sessionId) = some h) :
    g.Follows (g.handover evict (.getSession client authKeyId authKey sessionId)) h := by
  simp only [step, handover] at happens ⊢
  split at happens
  · obtain rfl := Option.some.inj happens
    exact follows_of_frame _ rfl rfl rfl (valid_of_frame rfl rfl valid) (fun _ => rfl)
      fun _ busy => busy
  · obtain rfl := Option.some.inj happens
    obtain ⟨validOpen, clients, cleans⟩ :=
      openSession_spec evict client authKeyId authKey sessionId valid
    refine ⟨valid_disconnectAll _ validOpen, fun r => ?_, fun r busy => ?_⟩
    · rw [client_disconnectAll, clients r]
      simp [eq_comm]
    · by_cases member :
          r ∈ (g.openSession evict client authKeyId authKey sessionId).2.2.toList
      · exact Or.inl member
      · rw [isCleaning_disconnectAll _ member, cleans r] at busy
        refine Or.inr ?_
        split at busy
        · cases busy
        · rename_i other
          exact ⟨fun same => other (Option.some.inj same).symm, busy⟩

private theorem outbound_client {o u : Outbound} (found : g.objects[ref]? = some o) :
    ({ g with objects := g.objects.set ref u } : GatewayState).client r =
      if r = ref then u.session.client else g.client r := by
  have small : ref < g.objects.length := (List.getElem?_eq_some_iff.mp found).1
  by_cases same : r = ref
  · subst same
    simp [client, small]
  · simp [client, same, List.getElem?_set_ne (Ne.symm same)]

private theorem outbound_isCleaning {o u : Outbound} (found : g.objects[ref]? = some o) :
    ({ g with objects := g.objects.set ref u } : GatewayState).isCleaning r =
      if r = ref then decide (u.session.cleanupTask = some .running) else g.isCleaning r := by
  have small : ref < g.objects.length := (List.getElem?_eq_some_iff.mp found).1
  by_cases same : r = ref
  · subst same
    simp [isCleaning, small]
  · simp [isCleaning, same, List.getElem?_set_ne (Ne.symm same)]

private theorem outbound_step {e : OutboundEvent}
    (happens : g.step evict (.outbound ref e) = some h) :
    (∀ client, e ≠ .connect client) ∧ e ≠ .disconnect ∧ ∃ o u, g.objects[ref]? = some o ∧
      o.step e = some u ∧ h = { g with objects := g.objects.set ref u } := by
  cases e with
  | connect client => cases happens
  | disconnect => cases happens
  | _ =>
    refine ⟨fun _ same => (nomatch same), fun same => (nomatch same), ?_⟩
    simp only [step] at happens
    split at happens
    · cases happens
    · rename_i o found
      obtain ⟨u, moved, rfl⟩ := Option.map_eq_some_iff.mp happens
      exact ⟨o, u, found, moved, rfl⟩

private theorem outbound_follows {e : OutboundEvent} (valid : g.Valid)
    (happens : g.step evict (.outbound ref e) = some h) :
    g.Follows (g.handover evict (.outbound ref e)) h := by
  obtain ⟨connects, disconnects, o, u, found, moved, rfl⟩ := outbound_step happens
  have still : ({ g with objects := g.objects.set ref u } : GatewayState).Valid :=
    valid_of_frame (g := g) rfl (List.length_set) valid
  by_cases fails : e = .writeDisconnects
  · subst fails
    obtain ⟨running, gone⟩ := Outbound.writeDisconnects_flush moved
    obtain ⟨flush, running⟩ := Option.isSome_iff_exists.mp running
    simp only [handover, found, Option.bind_some, running]
    refine follows_of_detached _ rfl rfl still (fun r => ?_) (fun r other => ?_)
    · rw [outbound_client found, gone]
      simp
    · rw [outbound_isCleaning found, if_neg (by simpa using other)]
  · have holder := Outbound.step_holder connects disconnects fails moved
    have quiet : g.handover evict (.outbound ref e) = ⟨0, none, [], none⟩ := by
      cases e <;> first | rfl | exact absurd rfl fails
    rw [quiet]
    simp only [Session.holder, Prod.mk.injEq] at holder
    refine follows_of_frame _ rfl rfl rfl still (fun r => ?_) (fun r busy => ?_)
    · rw [outbound_client found, holder.1]
      split
      · rename_i same
        simp [client, same, found]
      · rfl
    · rw [outbound_isCleaning found, holder.2] at busy
      split at busy
      · rename_i same
        simpa [isCleaning, same, found] using busy
      · exact busy

private theorem delayedCleanup_follows (valid : g.Valid)
    (happens : g.step evict (.delayedCleanup ref) = some h) :
    g.Follows (g.handover evict (.delayedCleanup ref)) h := by
  simp only [step] at happens
  split at happens
  · split at happens
    · rename_i alone
      obtain rfl := Option.some.inj happens
      exact follows_finalize _ rfl rfl (by simp [handover, alone]) valid
    · rename_i busy held
      obtain rfl := Option.some.inj happens
      refine follows_of_frame _ rfl rfl (by simp [handover, held])
        (valid_of_frame (g := g) rfl (List.length_modify _ _ _) valid) (fun r => ?_) ?_
      · rw [client_modify]
        split
        · rename_i same
          subst same
          rfl
        · rfl
      · intro r cleaning
        rw [isCleaning_modify] at cleaning
        split at cleaning
        · rename_i same
          subst same
          exact busy
        · exact cleaning
  · cases happens

theorem step_follows {e : GatewayEvent} (valid : g.Valid) (happens : g.step evict e = some h) :
    g.Follows (g.handover evict e) h := by
  cases e with
  | getSession client authKeyId authKey sessionId => exact getSession_follows valid happens
  | dropAuthKey client ref =>
    obtain rfl := Option.some.inj happens
    refine follows_of_detached _ rfl rfl ?_ (fun r => ?_) (fun r other => ?_)
    · exact valid_of_frame (g := g) rfl (List.length_modify _ _ _) valid
    · refine client_disconnect.trans ?_
      simp only [handover, List.mem_singleton]
      rfl
    · exact isCleaning_disconnect (by simpa [handover] using other)
  | teardown client =>
    obtain rfl := Option.some.inj happens
    exact follows_of_detached _ rfl rfl (valid_disconnectAll _ valid)
      (fun r => client_disconnectAll _) (fun r other => isCleaning_disconnectAll _ other)
  | outbound ref e => exact outbound_follows valid happens
  | delayedCleanup ref => exact delayedCleanup_follows valid happens
  | destroySession uniqId =>
    simp only [step] at happens
    split at happens
    · rename_i unknown
      obtain rfl := Option.some.inj happens
      exact follows_of_frame _ rfl rfl unknown valid (fun _ => rfl) fun _ busy => busy
    · rename_i ref known
      obtain rfl := Option.some.inj happens
      exact follows_finalize _ rfl rfl known valid

private theorem handover_apart {e : GatewayEvent} (member : r ∈ (g.handover evict e).detached) :
    (g.handover evict e).finalized = none := by
  unfold handover at member ⊢
  split at member <;> first | rfl | cases member | (split at member <;> rfl)

end Steps

end GatewayState

namespace Ownership

variable {s t : Ownership} {evict : ActiveSessions → Option (UniqId × SessionRef)}

structure Inv (s : Ownership) : Prop where
  valid : s.gateway.Valid
  same : ∀ ref, s.gateway.client ref = s.owner ref
  idle : ∀ ref, s.gateway.client ref ≠ none → s.gateway.isCleaning ref = false

private theorem start_inv : start.Inv :=
  ⟨fun _ _ found => (nomatch found), fun _ => rfl, fun _ _ => rfl⟩

private theorem held_of_inv (inv : s.Inv) : s.Held := by
  intro ref client owned
  have held := (inv.same ref).trans owned
  exact ⟨held, inv.idle ref (by simp [held])⟩

private theorem step_some {e : GatewayEvent} (happens : s.step evict e = some t) :
    ∃ g, s.gateway.step evict e = some g ∧
      t = ⟨g, (s.gateway.handover evict e).pass s.owner⟩ := by
  obtain ⟨g, moved, rfl⟩ := Option.map_eq_some_iff.mp happens
  exact ⟨g, moved, rfl⟩

private theorem polite_step_inv {e : GatewayEvent} (inv : s.Inv) (polite : s.gateway.Polite evict e)
    (happens : s.step evict e = some t) : t.Inv := by
  obtain ⟨g, moved, rfl⟩ := step_some happens
  have follows := GatewayState.step_follows inv.valid moved
  unfold GatewayState.Polite at polite
  generalize s.gateway.handover evict e = d at follows polite
  refine ⟨follows.valid, fun ref => ?_, fun ref held => ?_⟩
  · have own := inv.same ref
    have fine := polite ref
    simp only [follows.client, Handover.pass, ← own]
    grind
  · have clients := follows.client ref
    have cleans := follows.cleaning ref
    have idle := inv.idle ref
    grind

private theorem impolite_step_breaks {e : GatewayEvent} (inv : s.Inv)
    (impolite : ¬ s.gateway.Polite evict e) (happens : s.step evict e = some t) : ¬ t.Held := by
  obtain ⟨g, moved, rfl⟩ := step_some happens
  have follows := GatewayState.step_follows inv.valid moved
  unfold GatewayState.Polite at impolite
  push Not at impolite
  obtain ⟨ref, member, untaken, connected, foreign⟩ := impolite
  have unfinished := GatewayState.handover_apart member
  obtain ⟨client, held⟩ := Option.ne_none_iff_exists'.mp connected
  have lost := follows.client ref
  rw [if_pos (Or.inr member)] at lost
  have owner : (s.gateway.handover evict e).pass s.owner ref = some client := by
    have own := (inv.same ref).symm.trans held
    simp only [Handover.pass, unfinished, untaken, own]
    rw [held] at foreign
    simp [foreign]
  intro kept
  have back := (kept ref client owner).1
  rw [lost] at back
  cases back

/-- A session belongs to the last client that took it all along a run exactly when no step of the
run detaches a session on behalf of a client while another one has it. -/
theorem held_along_iff_polite (evict : ActiveSessions → Option (UniqId × SessionRef))
    (es : List GatewayEvent) (t : Ownership) (run : runFrom (step evict) start es = some t) :
    HoldsAlong (step evict) Held start es ↔
      StepsMeet (step evict) (fun s e => s.gateway.Polite evict e) start es :=
  holdsAlong_iff_stepsMeet (fun _ => held_of_inv)
    (fun _ _ _ inv polite happens => polite_step_inv inv polite happens)
    (fun _ _ _ inv impolite happens => impolite_step_breaks inv impolite happens) start_inv run

/-- A dictionary of four sessions that drops the least recently used one. -/
private def lru (active : ActiveSessions) : Option (UniqId × SessionRef) :=
  if active.length < 4 then none else active.getLast?

theorem held_along_iff_polite_takeover :
    ∃ t, runFrom (step lru) start [.getSession 1 7 [1] 3, .teardown 1, .getSession 2 7 [1] 3,
        .outbound 0 (.enqueue 5 false true [8])] = some t ∧
      HoldsAlong (step lru) Held start [.getSession 1 7 [1] 3, .teardown 1, .getSession 2 7 [1] 3,
        .outbound 0 (.enqueue 5 false true [8])] :=
  ⟨_, rfl, (held_along_iff_polite lru _ _ rfl).mpr (by decide)⟩

/-- The teardown of the client that had the session first detaches it from the one that took it
over. -/
theorem old_teardown_detaches :
    ∃ t, runFrom (step lru) start
        [.getSession 1 7 [1] 3, .getSession 2 7 [1] 3, .teardown 1] = some t ∧
      t.owner 0 = some 2 ∧ t.gateway.client 0 = none ∧ t.gateway.isCleaning 0 = true ∧
      ¬ t.Held := by
  refine ⟨_, rfl, rfl, rfl, rfl, fun held => ?_⟩
  exact absurd (held 0 2 rfl).1 (by decide)

end Ownership

end Piltover.Gateway
