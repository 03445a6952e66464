/- source: piltover/gateway/client.py, piltover/session/session.py
   digest: The flush that writes a session's queues, and the one place where it drops a message. -/

import Piltover.Foundation.Delivery
import Piltover.Foundation.Runs
import Piltover.Gateway.Session

set_option autoImplicit false

namespace Piltover.Gateway

open Piltover.Foundation
open Piltover.Foundation.Runs

/-- The write that `_write_session_queues` is suspended in, with what it still has to do. -/
inductive Awaiting
  | unencrypted (messageId : Nat) (data : Bytes)
  | resend (m : OutMessage) (rest : List OutMessage) (mutated : Bool)
  | message (m : OutMessage)
  deriving DecidableEq

/-- What `_write_session_queues` does up to its next suspension. -/
inductive Progress
  | awaits (awaiting : Awaiting) (s : Session)
  | returns (s : Session)
  | raises (s : Session)

namespace Session

/-- `_write_message` up to its first suspension: it raises `Unreachable` without a key. -/
def writeMessage (s : Session) (awaiting : Awaiting) : Progress :=
  if s.hasAuthKey then .awaits awaiting s else .raises s

def drainMessages (s : Session) : Progress :=
  match s.messageQueue with
  | [] => .returns s
  | m :: rest => { s with messageQueue := rest }.writeMessage (.message m)

/-- The rest of the loop over `pending_outbound.items()`. -/
def resendFrom (s : Session) : List OutMessage → Progress
  | [] => s.drainMessages
  | m :: rest => s.writeMessage (.resend m rest false)

def startResend (s : Session) : Progress :=
  if s.resendPendingOnConnect ∧ s.pendingOutbound.entries ≠ [] then
    { s with resendPendingOnConnect := false }.resendFrom s.pendingMessages
  else s.drainMessages

def writeSessionQueues (s : Session) : Progress :=
  match s.unencryptedQueue with
  | [] => s.startResend
  | (messageId, data) :: rest =>
    .awaits (.unencrypted messageId data) { s with unencryptedQueue := rest }

/-- `_write_session_queues` once the write it was suspended in has succeeded. -/
def resume (s : Session) : Awaiting → Progress
  | .unencrypted _ _ => s.writeSessionQueues
  | .resend _ rest mutated =>
    -- an ordered dict that lost an entry refuses to go on, unless its last entry was out already
    if mutated ∧ rest ≠ [] then .raises s else s.resendFrom rest
  | .message m => (s.trackPendingOutbound m).drainMessages

end Session

/-- The holder of `_outbound_flush_lock`. `scheduled` tells the session's own flush task from a
flush that the send loop or the broker runs. -/
structure Flush where
  client : ClientId
  scheduled : Bool
  cancelled : Bool
  awaiting : Awaiting
  deriving DecidableEq

/-- A session with its running flush. `put` and `acked` remember what was put into
`message_queue` and what the client has acknowledged. -/
structure Outbound where
  session : Session
  flush : Option Flush
  put : List OutMessage
  acked : List OutMessage
  deriving DecidableEq

inductive OutboundEvent
  | enqueue (now : Nat) (inReply contentRelated : Bool) (data : Bytes)
  | enqueueUnencrypted (now : Nat) (inReply : Bool) (data : Bytes)
  | connect (client : ClientId)
  | disconnect
  | ackOutbound (msgIds : List Nat)
  | refreshAuth (authData : Option AuthData)
  | flushOutbound (scheduled : Bool)
  | writeReturns
  | writeDisconnects
  | flushCancelled
  deriving DecidableEq

namespace Awaiting

def inHand : Awaiting → List OutMessage
  | .message m => [m]
  | _ => []

/-- Messages of `pending_outbound` that the resend loop is writing or has yet to write. -/
def resending : Awaiting → List OutMessage
  | .resend m rest _ => m :: rest
  | _ => []

def noteMutation : Awaiting → Awaiting
  | .resend m rest _ => .resend m rest true
  | awaiting => awaiting

end Awaiting

namespace Outbound

def new (sessionId : Nat) (client : Option ClientId) (authData : Option AuthData) : Outbound where
  session := Session.new sessionId client authData
  flush := none
  put := []
  acked := []

def inHand (o : Outbound) : List OutMessage :=
  match o.flush with
  | none => []
  | some flush => flush.awaiting.inHand

def resending (o : Outbound) : List OutMessage :=
  match o.flush with
  | none => []
  | some flush => flush.awaiting.resending

def delivery (o : Outbound) : Delivery OutMessage where
  put := o.put
  queue := o.session.messageQueue
  hand := o.inHand
  pending := o.session.pendingMessages
  acked := o.acked

def endFlush (o : Outbound) (scheduled : Bool) (s : Session) : Outbound :=
  { o with
    session := if scheduled then { s with flushTask := some .done } else s
    flush := none }

/-- Record how far a flush got. One that returns has emptied `message_queue` or has no client, so
`_flush_outbound_once` schedules no other. -/
def settle (o : Outbound) (client : ClientId) (scheduled : Bool) : Progress → Outbound
  | .awaits awaiting s =>
    { o with session := s, flush := some ⟨client, scheduled, false, awaiting⟩ }
  | .returns s | .raises s => o.endFlush scheduled s

/-- `Session.disconnect` also cancels the session's own flush task. -/
def disconnect (o : Outbound) : Outbound :=
  { o with
    session := o.session.disconnect
    flush := o.flush.map fun flush =>
      if flush.scheduled then { flush with scheduled := false, cancelled := true } else flush }

def ackOutbound (o : Outbound) (msgIds : List Nat) : Outbound :=
  { o with
    session := o.session.ackOutbound msgIds
    flush := o.flush.map fun flush =>
      if ∃ msgId ∈ msgIds, msgId ∈ o.session.pendingOutbound
      then { flush with awaiting := flush.awaiting.noteMutation } else flush
    acked := o.acked ++ o.delivery.live.filter (fun m => m.messageId ∈ msgIds) }

/-- `flush_outbound` once it holds the lock, run by `_flush_task` if `scheduled`. -/
def flushOutbound (o : Outbound) (scheduled : Bool) : Option Outbound :=
  if o.flush ≠ none ∨ scheduled ∧ o.session.flushTask ≠ some .running then none
  else match o.session.client with
    | none => some (o.endFlush scheduled o.session)
    | some client => some (o.settle client scheduled o.session.writeSessionQueues)

def step (o : Outbound) : OutboundEvent → Option Outbound
  | .enqueue now inReply contentRelated data =>
    some { o with
      session := o.session.enqueue now inReply contentRelated data
      put := o.put ++ [(o.session.packMessage now inReply contentRelated data).1] }
  | .enqueueUnencrypted now inReply data =>
    some { o with session := o.session.enqueueUnencrypted now inReply data }
  | .connect client => some { o with session := o.session.connect client }
  | .disconnect => some o.disconnect
  | .ackOutbound msgIds => some (o.ackOutbound msgIds)
  | .refreshAuth authData => some { o with session.authData := authData }
  | .flushOutbound scheduled => o.flushOutbound scheduled
  | .writeReturns =>
    match o.flush with
    | none => none
    | some flush =>
      if flush.cancelled then none
      else some (o.settle flush.client flush.scheduled (o.session.resume flush.awaiting))
  | .writeDisconnects =>
    match o.flush with
    | none => none
    | some flush => if flush.cancelled then none else some { o with flush := none }.disconnect
  | .flushCancelled =>
    -- the flush task itself is only ever cancelled by `disconnect`, which unschedules it
    match o.flush with
    | none => none
    | some flush => if flush.scheduled then none else some { o with flush := none }

/-- The steps that lose no message: a message gets an identifier that no live message has, queued
messages are only written when there is a key, and no write of a queued message fails before the
client has acknowledged it. -/
def Safe (o : Outbound) : OutboundEvent → Prop
  | .enqueue now inReply contentRelated data =>
    (o.session.packMessage now inReply contentRelated data).1.messageId ∉
      o.delivery.live.map (·.messageId)
  | .flushOutbound _ | .writeReturns => o.session.messageQueue = [] ∨ o.session.hasAuthKey
  | .writeDisconnects | .flushCancelled => ∀ m ∈ o.inHand, m ∈ o.acked
  | _ => True

instance decidableSafe (o : Outbound) : ∀ e, Decidable (o.Safe e)
  | .enqueue _ _ _ _ => inferInstanceAs (Decidable (¬ _))
  | .flushOutbound _ | .writeReturns => inferInstanceAs (Decidable (_ ∨ _))
  | .writeDisconnects | .flushCancelled => inferInstanceAs (Decidable (∀ m ∈ o.inHand, m ∈ o.acked))
  | .enqueueUnencrypted _ _ _ | .connect _ | .disconnect | .ackOutbound _ | .refreshAuth _ =>
    inferInstanceAs (Decidable True)

/-- With no flush running, every message that was put is still queued, is pending or has been
acknowledged. -/
def Kept (o : Outbound) : Prop :=
  o.flush = none →
    ∀ m ∈ o.put, m ∈ o.session.messageQueue ∨ m ∈ o.session.pendingMessages ∨ m ∈ o.acked

/-- The encrypted message whose write the flush is suspended in. -/
def writing (o : Outbound) : List OutMessage :=
  match o.flush with
  | some ⟨_, _, _, .resend m _ _⟩ => [m]
  | some ⟨_, _, _, .message m⟩ => [m]
  | _ => []

/-- The next connection makes a flush that writes the message again. -/
def SentOnConnect (o : Outbound) (m : OutMessage) : Prop :=
  ∀ client, let s := o.session.connect client
    m ∈ s.messageQueue ∨ m ∈ s.pendingMessages ∧ s.resendPendingOnConnect

end Outbound

namespace Progress

def session : Progress → Session
  | .awaits _ s | .returns s | .raises s => s

def awaiting : Progress → Option Awaiting
  | .awaits awaiting _ => some awaiting
  | _ => none

/-- A stretch of the flush moves at most the head of the queue, into its hand, and resends
nothing but `rest`. -/
structure Continues (p : Progress) (s : Session) (rest : List OutMessage) : Prop where
  pending : p.session.pendingMessages = s.pendingMessages
  queue : (p.awaiting.elim [] Awaiting.inHand) ++ p.session.messageQueue = s.messageQueue
  resending : p.awaiting.elim [] Awaiting.resending ⊆ rest

end Progress

namespace Session

variable {s : Session} {rest : List OutMessage}

theorem drainMessages_continues (keyed : s.messageQueue = [] ∨ s.hasAuthKey) :
    s.drainMessages.Continues s rest := by
  unfold drainMessages
  split
  · exact ⟨rfl, rfl, List.nil_subset _⟩
  · rename_i m queue waiting
    have key : s.hasAuthKey := keyed.resolve_left (by simp [waiting])
    have writes : ({ s with messageQueue := queue } : Session).writeMessage (.message m) =
        .awaits (.message m) { s with messageQueue := queue } := if_pos key
    rw [writes]
    exact ⟨rfl, waiting.symm, List.nil_subset _⟩

theorem resendFrom_continues (keyed : s.messageQueue = [] ∨ s.hasAuthKey) :
    (s.resendFrom rest).Continues s rest := by
  cases rest with
  | nil => exact drainMessages_continues keyed
  | cons m rest =>
    simp only [resendFrom, writeMessage]
    split
    · exact ⟨rfl, rfl, List.Subset.refl _⟩
    · exact ⟨rfl, rfl, List.nil_subset _⟩

theorem startResend_continues (keyed : s.messageQueue = [] ∨ s.hasAuthKey) :
    s.startResend.Continues s s.pendingMessages := by
  unfold startResend
  split
  · have resent : (resendFrom { s with resendPendingOnConnect := false }
        s.pendingMessages).Continues { s with resendPendingOnConnect := false }
        s.pendingMessages := resendFrom_continues keyed
    exact ⟨resent.pending, resent.queue, resent.resending⟩
  · exact drainMessages_continues keyed

theorem writeSessionQueues_continues (keyed : s.messageQueue = [] ∨ s.hasAuthKey) :
    s.writeSessionQueues.Continues s s.pendingMessages := by
  unfold writeSessionQueues
  split
  · exact startResend_continues keyed
  · exact ⟨rfl, rfl, List.nil_subset _⟩

def afterWrite (s : Session) : Awaiting → Session
  | .message m => s.trackPendingOutbound m
  | _ => s

theorem resume_continues (awaiting : Awaiting) (keyed : s.messageQueue = [] ∨ s.hasAuthKey) :
    (s.resume awaiting).Continues (s.afterWrite awaiting)
      (awaiting.resending ++ (s.afterWrite awaiting).pendingMessages) := by
  cases awaiting with
  | unencrypted messageId data => exact writeSessionQueues_continues keyed
  | resend m rest mutated =>
    simp only [resume]
    split
    · exact ⟨rfl, rfl, List.nil_subset _⟩
    · have resent : (s.resendFrom rest).Continues s rest := resendFrom_continues keyed
      refine ⟨resent.pending, resent.queue, fun x member => ?_⟩
      exact List.mem_append_left _ (List.mem_cons_of_mem m (resent.resending member))
  | message m =>
    have tracked : s.trackPendingOutbound m |>.drainMessages |>.Continues
        (s.trackPendingOutbound m) [] := drainMessages_continues keyed
    exact ⟨tracked.pending, tracked.queue, fun x member => nomatch tracked.resending member⟩

end Session

namespace Outbound

variable {o u : Outbound}

/-- What holds between any two steps that lose no message. -/
structure Sound (o : Outbound) : Prop where
  delivery : Delivery.Sound OutMessage.messageId o.delivery
  resending : ∀ m ∈ o.resending, m ∈ o.session.pendingMessages ∨ m ∈ o.acked

/-- The delivery that a session without a running flush carries out. -/
private def idle (o : Outbound) (s : Session) : Delivery OutMessage :=
  ⟨o.put, s.messageQueue, [], s.pendingMessages, o.acked⟩

private theorem moves_of_eq {d e : Delivery OutMessage} (same : d = e) :
    Relation.ReflTransGen (Delivery.Move OutMessage.messageId) d e :=
  same ▸ .refl

private theorem endFlush_delivery (scheduled : Bool) (s : Session) :
    (o.endFlush scheduled s).delivery = o.idle s := by
  cases scheduled <;> rfl

private theorem settle_moves {s : Session} {rest : List OutMessage} {p : Progress}
    (client : ClientId) (scheduled : Bool) (continues : p.Continues s rest) :
    Relation.ReflTransGen (Delivery.Move OutMessage.messageId) (o.idle s)
      (o.settle client scheduled p).delivery := by
  obtain ⟨pending, queue, -⟩ := continues
  have stays : ∀ t : Session, t.pendingMessages = s.pendingMessages →
      t.messageQueue = s.messageQueue → o.idle t = o.idle s := by
    intro t samePending sameQueue
    simp only [idle, samePending, sameQueue]
  cases p with
  | awaits awaiting t =>
    cases awaiting with
    | message m =>
      have first : (o.idle s).queue = m :: t.messageQueue := queue.symm
      have taken : Delivery.Move OutMessage.messageId (o.idle s)
          { o.idle s with queue := t.messageQueue, hand := [m] } := .take _ m _ first rfl
      have target : (o.settle client scheduled (.awaits (.message m) t)).delivery =
          { o.idle s with queue := t.messageQueue, hand := [m] } :=
        congrArg (Delivery.mk o.put t.messageQueue [m] · o.acked) pending
      rw [target]
      exact .single taken
    | unencrypted messageId data => exact moves_of_eq (stays t pending queue).symm
    | resend m rest mutated => exact moves_of_eq (stays t pending queue).symm
  | returns t =>
    rw [settle, endFlush_delivery, stays t pending queue]
  | raises t =>
    rw [settle, endFlush_delivery, stays t pending queue]

private theorem settle_resending {s : Session} {rest : List OutMessage} {p : Progress}
    (client : ClientId) (scheduled : Bool) (continues : p.Continues s rest)
    (resendable : ∀ m ∈ rest, m ∈ s.pendingMessages ∨ m ∈ o.acked) :
    ∀ m ∈ (o.settle client scheduled p).resending,
      m ∈ (o.settle client scheduled p).session.pendingMessages ∨
        m ∈ (o.settle client scheduled p).acked := by
  obtain ⟨pending, -, resending⟩ := continues
  cases p with
  | awaits awaiting t =>
    intro m member
    have known := resendable m (resending member)
    rw [← pending] at known
    exact known
  | returns t => exact fun m member => nomatch member
  | raises t => exact fun m member => nomatch member

theorem settle_sound {s : Session} {rest : List OutMessage} {p : Progress}
    (client : ClientId) (scheduled : Bool) (continues : p.Continues s rest)
    (sound : Delivery.Sound OutMessage.messageId (o.idle s))
    (resendable : ∀ m ∈ rest, m ∈ s.pendingMessages ∨ m ∈ o.acked) :
    (o.settle client scheduled p).Sound :=
  ⟨Delivery.sound_of_moves (settle_moves client scheduled continues) sound,
    settle_resending client scheduled continues resendable⟩

private theorem afterWrite_moves {flush : Flush} (running : o.flush = some flush)
    (sound : o.Sound) :
    Relation.ReflTransGen (Delivery.Move OutMessage.messageId) o.delivery
      (o.idle (o.session.afterWrite flush.awaiting)) := by
  cases held : flush.awaiting with
  | message m =>
    have hand : o.delivery.hand = [m] := by simp [delivery, inHand, running, held, Awaiting.inHand]
    have holds : m ∈ o.delivery.hand := by simp [hand]
    have stored : Delivery.Move OutMessage.messageId o.delivery
        { o.delivery with hand := [], pending := o.delivery.pending ++ [m] } := .store _ m hand
    have target : o.idle (o.session.trackPendingOutbound m) =
        { o.delivery with hand := [], pending := o.delivery.pending ++ [m] } :=
      congrArg (Delivery.mk o.put o.session.messageQueue [] · o.acked)
        (Session.pendingMessages_trackPendingOutbound o.session
          (sound.delivery.held_apart holds).2)
    change Relation.ReflTransGen _ _ (o.idle (o.session.trackPendingOutbound m))
    rw [target]
    exact .single stored
  | unencrypted messageId data =>
    refine moves_of_eq ?_
    simp [delivery, inHand, running, held, Awaiting.inHand, idle, Session.afterWrite]
  | resend m rest mutated =>
    refine moves_of_eq ?_
    simp [delivery, inHand, running, held, Awaiting.inHand, idle, Session.afterWrite]

private theorem idle_keeps_resendable {m : OutMessage} (awaiting : Awaiting)
    (known : m ∈ o.session.pendingMessages ∨ m ∈ o.acked)
    (fresh : ∀ x ∈ awaiting.inHand, x.messageId ∉ o.session.pendingMessages.map (·.messageId)) :
    m ∈ (o.session.afterWrite awaiting).pendingMessages ∨ m ∈ o.acked := by
  refine known.imp (fun member => ?_) id
  cases awaiting with
  | message x =>
    change m ∈ (o.session.trackPendingOutbound x).pendingMessages
    rw [Session.pendingMessages_trackPendingOutbound o.session
      (fresh x List.mem_cons_self)]
    exact List.mem_append_left _ member
  | unencrypted => exact member
  | resend => exact member

private theorem writeReturns_sound {flush : Flush} (running : o.flush = some flush)
    (sound : o.Sound) (keyed : o.session.messageQueue = [] ∨ o.session.hasAuthKey) :
    (o.settle flush.client flush.scheduled (o.session.resume flush.awaiting)).Sound := by
  refine settle_sound _ _ (Session.resume_continues flush.awaiting keyed)
    (Delivery.sound_of_moves (afterWrite_moves running sound) sound.delivery) ?_
  intro m member
  rcases List.mem_append.mp member with again | stored
  · refine idle_keeps_resendable flush.awaiting (sound.resending m ?_) ?_
    · simpa [resending, running] using again
    · intro x held
      refine (sound.delivery.held_apart ?_).2
      simpa [delivery, inHand, running] using held
  · exact Or.inl stored

/-- Dropping the flush is harmless unless it holds a message that nobody acknowledged. -/
private theorem release_sound (sound : o.Sound) (settled : ∀ m ∈ o.inHand, m ∈ o.acked) :
    ({ o with flush := none } : Outbound).Sound :=
  ⟨(Delivery.Move.release o.delivery settled).sound sound.delivery,
    fun _ member => nomatch member⟩

private theorem frame_sound {v : Outbound} (sound : o.Sound) (delivery : v.delivery = o.delivery)
    (resending : v.resending = o.resending) : v.Sound := by
  have pending : v.session.pendingMessages = o.session.pendingMessages :=
    congrArg Delivery.pending delivery
  have acked : v.acked = o.acked := congrArg Delivery.acked delivery
  refine ⟨delivery ▸ sound.delivery, fun m member => ?_⟩
  rw [pending, acked]
  exact sound.resending m (resending ▸ member)

private theorem enqueue_sound (now : Nat) (inReply contentRelated : Bool) (data : Bytes)
    (sound : o.Sound) (fresh : o.Safe (.enqueue now inReply contentRelated data))
    (happens : o.step (.enqueue now inReply contentRelated data) = some u) : u.Sound := by
  obtain rfl := Option.some.inj happens
  obtain ⟨values, seqNo, task, queued⟩ :=
    o.session.enqueue_eq now inReply contentRelated data
  rw [queued]
  exact ⟨(Delivery.Move.accept o.delivery _ fresh).sound sound.delivery, sound.resending⟩

private theorem ackOutbound_sound (msgIds : List Nat) (sound : o.Sound) :
    (o.ackOutbound msgIds).Sound := by
  have hand : (o.ackOutbound msgIds).inHand = o.inHand := by
    unfold ackOutbound inHand
    cases o.flush with
    | none => rfl
    | some flush =>
      simp only [Option.map_some]
      split
      · cases flush.awaiting <;> rfl
      · rfl
  have resending : (o.ackOutbound msgIds).resending = o.resending := by
    unfold ackOutbound resending
    cases o.flush with
    | none => rfl
    | some flush =>
      simp only [Option.map_some]
      split
      · cases flush.awaiting <;> rfl
      · rfl
  have pending := o.session.pendingMessages_ackOutbound msgIds
  have target : (o.ackOutbound msgIds).delivery =
      { o.delivery with
        pending := o.delivery.pending.filter (fun m => m.messageId ∉ msgIds)
        acked := o.delivery.acked ++ o.delivery.live.filter (fun m => m.messageId ∈ msgIds) } := by
    unfold delivery
    rw [hand]
    exact congrArg (Delivery.mk o.put o.session.messageQueue o.inHand ·
      (o.acked ++ o.delivery.live.filter (fun m => m.messageId ∈ msgIds))) pending
  refine ⟨target ▸ (Delivery.Move.acknowledge o.delivery msgIds).sound sound.delivery, ?_⟩
  intro m member
  rw [resending] at member
  change m ∈ (o.session.ackOutbound msgIds).pendingMessages ∨
    m ∈ o.acked ++ o.delivery.live.filter (fun m => m.messageId ∈ msgIds)
  rw [pending]
  rcases sound.resending m member with stored | done
  · by_cases hit : m.messageId ∈ msgIds
    · refine Or.inr (List.mem_append_right _ (List.mem_filter.mpr ⟨?_, by simpa using hit⟩))
      exact List.mem_append_right _ stored
    · exact Or.inl (List.mem_filter.mpr ⟨stored, by simpa using hit⟩)
  · exact Or.inr (List.mem_append_left _ done)

private theorem disconnect_sound (sound : o.Sound) : o.disconnect.Sound := by
  refine frame_sound sound ?_ ?_
  · unfold delivery disconnect inHand
    rw [Session.disconnect_eq]
    cases o.flush with
    | none => rfl
    | some flush => simp only [Option.map_some]; split <;> rfl
  · unfold resending disconnect
    cases o.flush with
    | none => rfl
    | some flush => simp only [Option.map_some]; split <;> rfl

private theorem flushOutbound_sound (scheduled : Bool) (sound : o.Sound)
    (keyed : o.session.messageQueue = [] ∨ o.session.hasAuthKey)
    (happens : o.flushOutbound scheduled = some u) : u.Sound := by
  unfold flushOutbound at happens
  split at happens
  · cases happens
  · rename_i free
    have free : o.flush = none := by
      by_contra busy
      exact free (Or.inl busy)
    have here : o.idle o.session = o.delivery := by
      simp only [idle, delivery, inHand, free]
    have idleSound : Delivery.Sound OutMessage.messageId (o.idle o.session) :=
      here.symm ▸ sound.delivery
    split at happens
    · obtain rfl := Option.some.inj happens
      exact ⟨endFlush_delivery scheduled o.session ▸ idleSound, fun _ member => nomatch member⟩
    · obtain rfl := Option.some.inj happens
      exact settle_sound _ _ (Session.writeSessionQueues_continues keyed) idleSound
        fun _ stored => Or.inl stored

theorem step_sound (e : OutboundEvent) (sound : o.Sound) (safe : o.Safe e)
    (happens : o.step e = some u) : u.Sound := by
  cases e with
  | enqueue now inReply contentRelated data =>
    exact enqueue_sound now inReply contentRelated data sound safe happens
  | enqueueUnencrypted now inReply data =>
    obtain rfl := Option.some.inj happens
    obtain ⟨values, queue, task, queued⟩ := o.session.enqueueUnencrypted_eq now inReply data
    exact frame_sound sound (by rw [queued]; rfl) rfl
  | connect client =>
    obtain rfl := Option.some.inj happens
    obtain ⟨task, connected⟩ := o.session.connect_eq client
    exact frame_sound sound (by rw [connected]; rfl) rfl
  | disconnect =>
    obtain rfl := Option.some.inj happens
    exact disconnect_sound sound
  | ackOutbound msgIds =>
    obtain rfl := Option.some.inj happens
    exact ackOutbound_sound msgIds sound
  | refreshAuth authData =>
    obtain rfl := Option.some.inj happens
    exact frame_sound sound rfl rfl
  | flushOutbound scheduled => exact flushOutbound_sound scheduled sound safe happens
  | writeReturns =>
    simp only [step] at happens
    split at happens
    · cases happens
    · rename_i flush running
      split at happens
      · cases happens
      · obtain rfl := Option.some.inj happens
        exact writeReturns_sound running sound safe
  | writeDisconnects =>
    simp only [step] at happens
    split at happens
    · cases happens
    · split at happens
      · cases happens
      · obtain rfl := Option.some.inj happens
        exact disconnect_sound (release_sound sound safe)
  | flushCancelled =>
    simp only [step] at happens
    split at happens
    · cases happens
    · split at happens
      · cases happens
      · obtain rfl := Option.some.inj happens
        exact release_sound sound safe

theorem new_sound (sessionId : Nat) (client : Option ClientId) (authData : Option AuthData) :
    (new sessionId client authData).Sound :=
  ⟨⟨fun _ member => (nomatch member), List.nodup_nil⟩, fun _ member => nomatch member⟩

theorem run_sound (sessionId : Nat) (client : Option ClientId) (authData : Option AuthData)
    (es : List OutboundEvent) (run : runFrom step (new sessionId client authData) es = some o)
    (meets : StepsMeet step Safe (new sessionId client authData) es) : o.Sound :=
  run_invariant (fun _ e _ sound safe happens => step_sound e sound safe happens)
    (new_sound sessionId client authData) meets run

private theorem failure_stores {e : OutboundEvent}
    (fails : e = .writeDisconnects ∨ e = .flushCancelled) (happens : o.step e = some u) :
    u.session.messageQueue = o.session.messageQueue ∧
      u.session.pendingOutbound = o.session.pendingOutbound ∧ u.acked = o.acked := by
  rcases fails with rfl | rfl
  all_goals
    simp only [step] at happens
    split at happens
    · cases happens
    · split at happens
      · cases happens
      · obtain rfl := Option.some.inj happens
        simp [disconnect, Session.disconnect_eq]

private theorem sentOnConnect_iff {m : OutMessage} :
    o.SentOnConnect m ↔ m ∈ o.session.messageQueue ∨ m ∈ o.session.pendingMessages := by
  constructor
  · intro sent
    have first := sent 0
    obtain ⟨task, connected⟩ := o.session.connect_eq 0
    rw [connected] at first
    exact first.imp id fun stored => stored.1
  · intro known client
    obtain ⟨task, connected⟩ := o.session.connect_eq client
    rw [connected]
    refine known.imp id fun stored => ⟨stored, ?_⟩
    have nonempty : o.session.pendingOutbound.entries ≠ [] := by
      intro empty
      simp [Session.pendingMessages, empty] at stored
    simp [nonempty]

private theorem writing_stored_iff (sound : o.Sound) :
    (∀ m ∈ o.writing, m ∈ o.acked ∨ m ∈ o.session.messageQueue ∨ m ∈ o.session.pendingMessages) ↔
      ∀ m ∈ o.inHand, m ∈ o.acked := by
  rcases running : o.flush with _ | ⟨client, scheduled, cancelled, awaiting⟩
  · simp [writing, inHand, running]
  · cases awaiting with
    | unencrypted messageId data => simp [writing, inHand, running, Awaiting.inHand]
    | resend m rest mutated =>
      have known := sound.resending m (by simp [resending, running, Awaiting.resending])
      simp only [writing, inHand, running, Awaiting.inHand, List.mem_singleton, forall_eq,
        List.not_mem_nil, false_implies, implies_true, iff_true]
      exact known.elim (fun stored => Or.inr (Or.inr stored)) Or.inl
    | message m =>
      have held : m ∈ o.delivery.hand := by simp [delivery, inHand, running, Awaiting.inHand]
      have lost := sound.delivery.lost held
      simp only [writing, inHand, running, Awaiting.inHand, List.mem_singleton, forall_eq]
      exact ⟨fun known => known.resolve_right (not_or.mpr lost), Or.inl⟩

/-- In a run of safe steps no message is lost. A write that fails at its end leaves the message it
was writing acknowledged or for the next connection exactly when the failure is safe as well. -/
theorem queued_message_kept (sessionId : Nat) (client : Option ClientId)
    (authData : Option AuthData) (es : List OutboundEvent) (o : Outbound)
    (run : runFrom step (new sessionId client authData) es = some o)
    (meets : StepsMeet step Safe (new sessionId client authData) es) :
    o.Kept ∧ ∀ e u, e = .writeDisconnects ∨ e = .flushCancelled → o.step e = some u →
      ((∀ m ∈ o.writing, m ∈ u.acked ∨ u.SentOnConnect m) ↔ o.Safe e) := by
  have sound := run_sound sessionId client authData es run meets
  constructor
  · intro free m member
    rcases sound.delivery.kept m member with live | done
    · simp only [Delivery.live, delivery, inHand, free, List.append_nil,
        List.mem_append] at live
      exact live.imp id Or.inl
    · exact Or.inr (Or.inr done)
  · intro e u fails happens
    obtain ⟨queue, pending, acked⟩ := failure_stores fails happens
    have safe : o.Safe e ↔ ∀ m ∈ o.inHand, m ∈ o.acked := by
      rcases fails with rfl | rfl <;> rfl
    have stored : u.session.pendingMessages = o.session.pendingMessages := by
      simp only [Session.pendingMessages, pending]
    rw [safe]
    simp only [sentOnConnect_iff, queue, stored, acked]
    exact writing_stored_iff sound

private def keyed : AuthData := ⟨some 1, some [1]⟩

/-- A run with a message that is written, one that waits and an acknowledgement. -/
private def deliveringRun : List OutboundEvent :=
  [.connect 0, .enqueue 5 true true [7], .flushOutbound true, .enqueue 5 false true [8],
    .writeReturns, .ackOutbound [5 * 2 ^ 32 + 1]]

theorem queued_message_kept_delivering :
    ∃ o, runFrom step (new 3 none (some keyed)) deliveringRun = some o ∧ o.put.length = 2 ∧
      o.acked.length = 1 ∧ o.Kept ∧
      ∀ e u, e = .writeDisconnects ∨ e = .flushCancelled → o.step e = some u →
        ((∀ m ∈ o.writing, m ∈ u.acked ∨ u.SentOnConnect m) ↔ o.Safe e) :=
  ⟨_, rfl, rfl, rfl,
    queued_message_kept 3 none (some keyed) deliveringRun _ rfl (by decide)⟩

/-- The first write to a client that has gone loses the message: it is in neither store. -/
theorem failed_first_write_loses :
    ∃ o, runFrom step (new 3 none (some keyed))
        [.connect 0, .enqueue 5 true true [7], .flushOutbound true, .writeDisconnects] = some o ∧
      ¬ o.Kept ∧ ∀ m ∈ o.put, ¬ o.SentOnConnect m := by
  refine ⟨_, rfl, ?_, ?_⟩
  · intro kept
    exact absurd (kept rfl ⟨5 * 2 ^ 32 + 1, 1, [7]⟩ (by decide)) (by decide)
  · intro m member
    obtain rfl := List.mem_singleton.mp member
    rw [sentOnConnect_iff]
    decide

end Outbound

end Piltover.Gateway
