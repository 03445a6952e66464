/- source: piltover/session/session.py, piltover/gateway/client.py
   digest: The message identifiers of a session, and the clock readings that keep them apart. -/

import Piltover.Gateway.Outbound

set_option autoImplicit false

namespace Piltover.Gateway

open Piltover.Foundation
open Piltover.Foundation.Runs

/-- An object to pack, with the reading of the clock that it gets its identifier at. -/
structure Packing where
  now : Nat
  inReply : Bool
  contentRelated : Bool
  data : Bytes
  deriving DecidableEq, Repr

namespace Session

def packMessages (s : Session) : List Packing → List OutMessage × Session
  | [] => ([], s)
  | p :: ps =>
    let (message, s) := s.packMessage p.now p.inReply p.contentRelated p.data
    let (messages, s) := s.packMessages ps
    (message :: messages, s)

/-- `pack_container`: the container is packed after what it holds; `data` is its serialized form,
and a container is not content related. -/
def packContainer (s : Session) (objects : List Packing) (now : Nat) (data : Bytes) :
    (List OutMessage × OutMessage) × Session :=
  let (messages, s) := s.packMessages objects
  let (container, s) := s.packMessage now false false data
  ((messages, container), s)

end Session

/-- What may happen to a session, packing without a queue included. -/
inductive NumberingEvent
  | outbound (e : OutboundEvent)
  | packMessage (p : Packing)
  | packContainer (objects : List Packing) (now : Nat) (data : Bytes)

/-- A session that remembers the identifiers it has given, with what they were given to, and the
identifiers of its containers and of what these hold. -/
structure Numbering where
  outbound : Outbound
  given : List (Nat × Bool)
  containers : List (Nat × List Nat)

namespace NumberingEvent

/-- The calls of `msg_id` that the event makes, each with its clock reading. -/
def calls : NumberingEvent → List (Nat × Bool)
  | .outbound (.enqueue now inReply _ _) => [(now, inReply)]
  | .outbound (.enqueueUnencrypted now inReply _) => [(now, inReply)]
  | .outbound _ => []
  | .packMessage p => [(p.now, p.inReply)]
  | .packContainer objects now _ => objects.map (fun p => (p.now, p.inReply)) ++ [(now, false)]

end NumberingEvent

namespace Session

/-- The identifiers that some calls of `msg_id` return one after the other. -/
def msgIds (s : Session) : List (Nat × Bool) → List (Nat × Bool)
  | [] => []
  | (now, inReply) :: calls =>
    ((s.msgId now inReply).1, inReply) :: (s.msgId now inReply).2.msgIds calls

/-- The session after some calls of `msg_id`. -/
def skip (s : Session) : List (Nat × Bool) → Session
  | [] => s
  | (now, inReply) :: calls => (s.msgId now inReply).2.skip calls

end Session

namespace Numbering

def new (sessionId : Nat) (client : Option ClientId) (authData : Option AuthData) : Numbering :=
  ⟨Outbound.new sessionId client authData, [], []⟩

variable (w : Numbering)

/-- The outbound side goes on, and the identifiers that this took are remembered. -/
def record (e : NumberingEvent) (o : Outbound) : Numbering :=
  { w with outbound := o, given := w.given ++ w.outbound.session.msgIds e.calls }

def step (e : NumberingEvent) : Option Numbering :=
  match e with
  | .outbound happening => (w.outbound.step happening).map (w.record e)
  | .packMessage p =>
    some (w.record e { w.outbound with
      session := (w.outbound.session.packMessage p.now p.inReply p.contentRelated p.data).2 })
  | .packContainer objects now data =>
    let ((messages, container), s) := w.outbound.session.packContainer objects now data
    some { w.record e { w.outbound with session := s } with
      containers := w.containers ++ [(container.messageId, messages.map (·.messageId))] }

/-- The identifiers go up, tell replies from other messages, belong to one message of the queue and
the unacknowledged ones each, and a container has a greater one than what it holds. -/
structure WellNumbered : Prop where
  increasing : w.given.Pairwise fun a b => a.1 < b.1
  residues : ∀ x ∈ w.given, x.1 % 4 = if x.2 then 1 else 3
  distinct : ((w.outbound.session.messageQueue ++ w.outbound.session.pendingMessages).map
    OutMessage.messageId).Nodup
  containers : ∀ c ∈ w.containers, ∀ messageId ∈ c.2, messageId < c.1

end Numbering

/-- The clock shows the same second again, or one whose first identifier has not been passed by the
last one, which was given to a reply or to something else. -/
def MsgIdValues.Advances (v : MsgIdValues) (last : Option Bool) (now : Nat) (inReply : Bool) :
    Prop :=
  ∀ reply ∈ last, now = v.lastTime ∨
    v.lastTime * 2 ^ 32 + v.offset + (if reply then 1 else 3) <
      now * 2 ^ 32 + (if inReply then 1 else 3)

namespace Session

def Advance (s : Session) (last : Option Bool) : List (Nat × Bool) → Prop
  | [] => True
  | (now, inReply) :: calls =>
    s.msgIdValues.Advances last now inReply ∧
      (s.msgId now inReply).2.Advance (some inReply) calls

end Session

instance decidableAdvances (v : MsgIdValues) (last : Option Bool) (now : Nat) (inReply : Bool) :
    Decidable (v.Advances last now inReply) :=
  inferInstanceAs (Decidable (∀ reply ∈ last, _))

instance Session.decidableAdvance :
    ∀ (s : Session) (last : Option Bool) (calls : List (Nat × Bool)),
      Decidable (s.Advance last calls)
  | _, _, [] => inferInstanceAs (Decidable True)
  | s, _, (now, inReply) :: calls =>
    have := decidableAdvance (s.msgId now inReply).2 (some inReply) calls
    inferInstanceAs (Decidable (_ ∧ _))

/-- The readings that an event takes advance from the last one. -/
def Numbering.Ticks (w : Numbering) (e : NumberingEvent) : Prop :=
  w.outbound.session.Advance (w.given.getLast?.map Prod.snd) e.calls

instance Numbering.decidableTicks (w : Numbering) (e : NumberingEvent) : Decidable (w.Ticks e) :=
  inferInstanceAs (Decidable (Session.Advance ..))

namespace Session

variable {s : Session}

def LastGiven (s : Session) (given : List (Nat × Bool)) : Prop :=
  s.msgIdValues.offset % 4 = 0 ∧ ∀ x ∈ given.getLast?,
    x.1 = s.msgIdValues.lastTime * 2 ^ 32 + s.msgIdValues.offset + (if x.2 then 1 else 3)

theorem lastGiven_msgId {given : List (Nat × Bool)} (known : s.LastGiven given) (now : Nat)
    (inReply : Bool) :
    (s.msgId now inReply).2.LastGiven (given ++ [((s.msgId now inReply).1, inReply)]) := by
  refine ⟨?_, fun x last => ?_⟩
  · have before := known.1
    simp only [msgId]
    split
    · omega
    · rfl
  · rw [List.getLast?_concat] at last
    cases last
    rfl

theorem msgId_residue {given : List (Nat × Bool)} (known : s.LastGiven given) (now : Nat)
    (inReply : Bool) : (s.msgId now inReply).1 % 4 = if inReply then 1 else 3 := by
  have fine := (lastGiven_msgId known now inReply).1
  have whole : 4 ∣ now * 2 ^ 32 := Nat.dvd_trans (by decide) (Nat.dvd_mul_left (2 ^ 32) now)
  change (now * 2 ^ 32 + (s.msgId now inReply).2.msgIdValues.offset + _) % 4 = _
  generalize (s.msgId now inReply).2.msgIdValues.offset = offset at fine ⊢
  generalize now * 2 ^ 32 = second at whole ⊢
  cases inReply <;> simp only [Bool.false_eq_true, if_false, if_true] <;> omega

theorem lt_msgId_iff {given : List (Nat × Bool)} (known : s.LastGiven given) (now : Nat)
    (inReply : Bool) :
    (∀ x ∈ given.getLast?, x.1 < (s.msgId now inReply).1) ↔
      s.msgIdValues.Advances (given.getLast?.map Prod.snd) now inReply := by
  rcases newest : given.getLast? with _ | ⟨last, reply⟩
  · simp [MsgIdValues.Advances]
  · have at_ := known.2 _ newest
    simp only [Option.mem_def, Option.some.injEq, forall_eq', Option.map_some,
      MsgIdValues.Advances] at at_ ⊢
    rw [at_]
    by_cases same : now = s.msgIdValues.lastTime
    · simp only [msgId, same, if_true, true_or, iff_true]
      generalize s.msgIdValues.lastTime * 2 ^ 32 = second
      cases reply <;> cases inReply <;>
        simp only [Bool.false_eq_true, if_false, if_true] <;> omega
    · simp only [msgId, same, if_false, false_or, Nat.add_zero]

theorem pairwise_concat_iff {given : List (Nat × Bool)} (x : Nat × Bool)
    (increasing : given.Pairwise fun a b => a.1 < b.1) :
    ((given ++ [x]).Pairwise fun a b => a.1 < b.1) ↔ ∀ y ∈ given.getLast?, y.1 < x.1 := by
  rw [List.pairwise_append]
  simp only [increasing, List.pairwise_singleton, List.mem_singleton, forall_eq, true_and]
  constructor
  · intro below y last
    exact below y (List.mem_of_getLast? last)
  · intro below y member
    rcases List.eq_nil_or_concat given with rfl | ⟨front, last, rfl⟩
    · cases member
    · rw [List.concat_eq_append] at member increasing below
      have top := below last List.getLast?_concat
      rcases List.mem_append.mp member with early | late
      · have up := (List.pairwise_append.mp increasing).2.2 y early last
          (List.mem_singleton_self last)
        exact Nat.lt_trans up top
      · rw [List.mem_singleton.mp late]
        exact top

/-- Identifiers go on upwards exactly if every reading advances. -/
theorem increasing_iff_advance {given : List (Nat × Bool)} (known : s.LastGiven given)
    (increasing : given.Pairwise fun a b => a.1 < b.1) (calls : List (Nat × Bool)) :
    ((given ++ s.msgIds calls).Pairwise fun a b => a.1 < b.1) ↔
      s.Advance (given.getLast?.map Prod.snd) calls := by
  induction calls generalizing s given with
  | nil => simpa [msgIds, Advance] using increasing
  | cons call calls ih =>
    obtain ⟨now, inReply⟩ := call
    have next := (pairwise_concat_iff ((s.msgId now inReply).1, inReply) increasing).trans
      (lt_msgId_iff known now inReply)
    rw [msgIds, Advance, ← next, List.append_cons]
    constructor
    · intro all
      have front := (List.pairwise_append.mp all).1
      refine ⟨front, ?_⟩
      have rest := (ih (lastGiven_msgId known now inReply) front).mp all
      rwa [List.getLast?_concat] at rest
    · rintro ⟨front, rest⟩
      refine (ih (lastGiven_msgId known now inReply) front).mpr ?_
      rwa [List.getLast?_concat]

theorem residue_of_mem_msgIds {given : List (Nat × Bool)} (known : s.LastGiven given)
    {calls : List (Nat × Bool)} {x : Nat × Bool} (listed : x ∈ s.msgIds calls) :
    x.1 % 4 = if x.2 then 1 else 3 := by
  induction calls generalizing s given with
  | nil => cases listed
  | cons call calls ih =>
    obtain ⟨now, inReply⟩ := call
    rcases List.mem_cons.mp listed with rfl | later
    · exact msgId_residue known now inReply
    · exact ih (lastGiven_msgId known now inReply) later

theorem msgIdValues_packMessage (now : Nat) (inReply contentRelated : Bool) (data : Bytes) :
    (s.packMessage now inReply contentRelated data).2.msgIdValues =
      (s.msgId now inReply).2.msgIdValues := by
  cases contentRelated <;> rfl

theorem messageId_packMessage (now : Nat) (inReply contentRelated : Bool) (data : Bytes) :
    (s.packMessage now inReply contentRelated data).1.messageId = (s.msgId now inReply).1 := by
  cases contentRelated <;> rfl

theorem msgIds_congr {t : Session} (same : t.msgIdValues = s.msgIdValues)
    (calls : List (Nat × Bool)) : t.msgIds calls = s.msgIds calls := by
  induction calls generalizing s t with
  | nil => rfl
  | cons call calls ih =>
    obtain ⟨now, inReply⟩ := call
    simp only [msgIds, msgId, same]
    exact congrArg _ (ih rfl)

theorem skip_congr {t : Session} (same : t.msgIdValues = s.msgIdValues)
    (calls : List (Nat × Bool)) : (t.skip calls).msgIdValues = (s.skip calls).msgIdValues := by
  induction calls generalizing s t with
  | nil => exact same
  | cons call calls ih =>
    obtain ⟨now, inReply⟩ := call
    refine ih ?_
    simp only [msgId, same]

theorem lastGiven_skip {given : List (Nat × Bool)} (known : s.LastGiven given)
    (calls : List (Nat × Bool)) : (s.skip calls).LastGiven (given ++ s.msgIds calls) := by
  induction calls generalizing s given with
  | nil => simpa [msgIds, skip] using known
  | cons call calls ih =>
    obtain ⟨now, inReply⟩ := call
    rw [msgIds, List.append_cons]
    exact ih (lastGiven_msgId known now inReply)

theorem msgIds_append (front back : List (Nat × Bool)) :
    s.msgIds (front ++ back) = s.msgIds front ++ (s.skip front).msgIds back := by
  induction front generalizing s with
  | nil => rfl
  | cons call front ih =>
    obtain ⟨now, inReply⟩ := call
    exact congrArg _ ih

theorem skip_append (front back : List (Nat × Bool)) :
    s.skip (front ++ back) = (s.skip front).skip back := by
  induction front generalizing s with
  | nil => rfl
  | cons call front ih =>
    obtain ⟨now, inReply⟩ := call
    exact ih

theorem packMessages_ids (objects : List Packing) :
    (s.packMessages objects).1.map OutMessage.messageId =
        (s.msgIds (objects.map fun p => (p.now, p.inReply))).map Prod.fst ∧
      (s.packMessages objects).2.msgIdValues =
        (s.skip (objects.map fun p => (p.now, p.inReply))).msgIdValues := by
  induction objects generalizing s with
  | nil => exact ⟨rfl, rfl⟩
  | cons p objects ih =>
    obtain ⟨ids, values⟩ :=
      ih (s := (s.packMessage p.now p.inReply p.contentRelated p.data).2)
    have same := msgIdValues_packMessage (s := s) p.now p.inReply p.contentRelated p.data
    rw [msgIds_congr same] at ids
    rw [skip_congr same] at values
    refine ⟨?_, values⟩
    rw [packMessages, List.map_cons, ids, messageId_packMessage]
    rfl

theorem msgIdValues_scheduleOutboundFlush :
    s.scheduleOutboundFlush.msgIdValues = s.msgIdValues := by
  unfold scheduleOutboundFlush
  split
  · rfl
  · split <;> rfl

theorem msgIdValues_enqueue (now : Nat) (inReply contentRelated : Bool) (data : Bytes) :
    (s.enqueue now inReply contentRelated data).msgIdValues =
      (s.msgId now inReply).2.msgIdValues := by
  cases contentRelated <;> exact msgIdValues_scheduleOutboundFlush

theorem msgIdValues_enqueueUnencrypted (now : Nat) (inReply : Bool) (data : Bytes) :
    (s.enqueueUnencrypted now inReply data).msgIdValues =
      (s.msgId now inReply).2.msgIdValues :=
  msgIdValues_scheduleOutboundFlush

end Session

/-- A stretch of a flush gives no identifiers, and takes at most the head of the queue, which it may
lose. -/
structure Progress.Within (p : Progress) (s : Session) : Prop where
  values : p.session.msgIdValues = s.msgIdValues
  pending : p.session.pendingMessages = s.pendingMessages
  queue : (p.awaiting.elim [] Awaiting.inHand ++ p.session.messageQueue).Sublist s.messageQueue

namespace Session

variable {s : Session}

theorem drainMessages_within : s.drainMessages.Within s := by
  unfold drainMessages writeMessage
  split
  · exact ⟨rfl, rfl, List.Sublist.refl _⟩
  · rename_i m rest waiting
    split
    · exact ⟨rfl, rfl, waiting ▸ List.Sublist.refl _⟩
    · exact ⟨rfl, rfl, waiting ▸ List.sublist_cons_self m rest⟩

theorem resendFrom_within (rest : List OutMessage) : (s.resendFrom rest).Within s := by
  cases rest with
  | nil => exact drainMessages_within
  | cons m rest =>
    simp only [resendFrom, writeMessage]
    split
    · exact ⟨rfl, rfl, List.Sublist.refl _⟩
    · exact ⟨rfl, rfl, List.Sublist.refl _⟩

theorem writeSessionQueues_within : s.writeSessionQueues.Within s := by
  unfold writeSessionQueues startResend
  split
  · split
    · have resent :=
        resendFrom_within (s := { s with resendPendingOnConnect := false }) s.pendingMessages
      exact ⟨resent.values, resent.pending, resent.queue⟩
    · exact drainMessages_within
  · exact ⟨rfl, rfl, List.Sublist.refl _⟩

theorem resume_within (awaiting : Awaiting) :
    (s.resume awaiting).Within (s.afterWrite awaiting) := by
  cases awaiting with
  | unencrypted messageId data => exact writeSessionQueues_within
  | resend m rest mutated =>
    simp only [resume]
    split
    · exact ⟨rfl, rfl, List.Sublist.refl _⟩
    · exact resendFrom_within rest
  | message m => exact drainMessages_within

end Session

namespace Outbound

variable {o u : Outbound}

/-- No identifier is given and no message is added to the live ones. -/
structure Shrinks (o u : Outbound) : Prop where
  values : u.session.msgIdValues = o.session.msgIdValues
  live : u.delivery.live.Subperm o.delivery.live

theorem shrinks_of_frame (values : u.session.msgIdValues = o.session.msgIdValues)
    (delivery : u.delivery = o.delivery) : o.Shrinks u :=
  ⟨values, delivery ▸ List.Subperm.refl _⟩

theorem live_settle {s : Session} {p : Progress} (client : ClientId) (scheduled : Bool)
    (within : p.Within s) :
    (o.settle client scheduled p).session.msgIdValues = s.msgIdValues ∧
      (o.settle client scheduled p).delivery.live.Subperm
        (s.messageQueue ++ s.pendingMessages) := by
  obtain ⟨values, pending, queue⟩ := within
  have parts : ∀ t : Session, t.pendingMessages = s.pendingMessages → ∀ hand : List OutMessage,
      (hand ++ t.messageQueue).Sublist s.messageQueue →
        (t.messageQueue ++ hand ++ t.pendingMessages).Subperm
          (s.messageQueue ++ s.pendingMessages) := by
    intro t same hand fewer
    have swapped : (t.messageQueue ++ hand ++ t.pendingMessages).Perm
        (hand ++ t.messageQueue ++ t.pendingMessages) :=
      List.perm_append_comm.append_right t.pendingMessages
    rw [← same]
    exact swapped.subperm.trans (fewer.append_right t.pendingMessages).subperm
  cases p with
  | awaits awaiting t => exact ⟨values, parts t pending awaiting.inHand queue⟩
  | returns t => cases scheduled <;> exact ⟨values, parts t pending [] queue⟩
  | raises t => cases scheduled <;> exact ⟨values, parts t pending [] queue⟩

theorem live_afterWrite {flush : Flush} (running : o.flush = some flush)
    (distinct : (o.delivery.live.map OutMessage.messageId).Nodup) :
    ((o.session.afterWrite flush.awaiting).messageQueue ++
      (o.session.afterWrite flush.awaiting).pendingMessages).Subperm o.delivery.live := by
  have hand : o.inHand = flush.awaiting.inHand := by rw [inHand, running]
  have live : o.delivery.live =
      o.session.messageQueue ++ flush.awaiting.inHand ++ o.session.pendingMessages := by
    rw [← hand]
    rfl
  rw [live] at distinct ⊢
  cases awaiting : flush.awaiting with
  | unencrypted messageId data =>
    exact (List.sublist_append_left _ _).append_right _ |>.subperm
  | resend m rest mutated => exact (List.sublist_append_left _ _).append_right _ |>.subperm
  | message m =>
    rw [awaiting, List.append_assoc, List.map_append] at distinct
    have fresh : m.messageId ∉ o.session.pendingMessages.map OutMessage.messageId :=
      (List.nodup_cons.mp (List.nodup_append.mp distinct).2.1).1
    change (o.session.messageQueue ++
      (o.session.trackPendingOutbound m).pendingMessages).Subperm _
    rw [Session.pendingMessages_trackPendingOutbound o.session fresh, List.append_assoc]
    exact (List.perm_append_comm.append_left _).subperm

theorem shrinks_disconnect : o.Shrinks o.disconnect := by
  refine shrinks_of_frame ?_ ?_
  · rw [disconnect, Session.disconnect_eq]
  · unfold delivery disconnect inHand
    rw [Session.disconnect_eq]
    cases o.flush with
    | none => rfl
    | some flush => simp only [Option.map_some]; split <;> rfl

theorem shrinks_release : o.Shrinks { o with flush := none } := by
  refine ⟨rfl, ?_⟩
  change (o.session.messageQueue ++ [] ++ o.session.pendingMessages).Subperm
    (o.session.messageQueue ++ o.inHand ++ o.session.pendingMessages)
  rw [List.append_nil]
  exact ((List.sublist_append_left _ _).append_right _).subperm

theorem shrinks_ackOutbound (msgIds : List Nat) : o.Shrinks (o.ackOutbound msgIds) := by
  have hand : (o.ackOutbound msgIds).inHand = o.inHand := by
    unfold ackOutbound inHand
    cases o.flush with
    | none => rfl
    | some flush =>
      simp only [Option.map_some]
      split
      · cases flush.awaiting <;> rfl
      · rfl
  refine ⟨rfl, ?_⟩
  change (o.session.messageQueue ++ (o.ackOutbound msgIds).inHand ++
    (o.session.ackOutbound msgIds).pendingMessages).Subperm
      (o.session.messageQueue ++ o.inHand ++ o.session.pendingMessages)
  rw [hand, Session.pendingMessages_ackOutbound]
  exact (List.filter_sublist.append_left _).subperm

theorem shrinks_flushOutbound {scheduled : Bool} (happens : o.flushOutbound scheduled = some u) :
    o.Shrinks u := by
  unfold flushOutbound at happens
  split at happens
  · cases happens
  · rename_i free
    have idle : o.delivery.live = o.session.messageQueue ++ o.session.pendingMessages := by
      have none : o.flush = none := by
        by_contra busy
        exact free (.inl busy)
      simp [Delivery.live, delivery, inHand, none]
    split at happens
    · cases happens
      have same : (o.endFlush scheduled o.session).delivery.live =
          o.session.messageQueue ++ [] ++ o.session.pendingMessages := by
        cases scheduled <;> rfl
      rw [List.append_nil, ← idle] at same
      refine ⟨?_, same ▸ List.Subperm.refl _⟩
      cases scheduled <;> rfl
    · rename_i client connected
      cases happens
      have settled := live_settle (o := o) client scheduled
        (Session.writeSessionQueues_within (s := o.session))
      exact ⟨settled.1, idle ▸ settled.2⟩

theorem shrinks_step {e : OutboundEvent} (happens : o.step e = some u)
    (distinct : (o.delivery.live.map OutMessage.messageId).Nodup)
    (quiet : (NumberingEvent.outbound e).calls = []) : o.Shrinks u := by
  cases e with
  | enqueue now inReply contentRelated data => cases quiet
  | enqueueUnencrypted now inReply data => cases quiet
  | connect client =>
    cases happens
    obtain ⟨task, connected⟩ := o.session.connect_eq client
    exact shrinks_of_frame (by rw [connected]) (by rw [connected]; rfl)
  | disconnect =>
    cases happens
    exact shrinks_disconnect
  | ackOutbound msgIds =>
    cases happens
    exact shrinks_ackOutbound msgIds
  | refreshAuth authData =>
    cases happens
    exact shrinks_of_frame rfl rfl
  | flushOutbound scheduled => exact shrinks_flushOutbound happens
  | writeReturns =>
    simp only [step] at happens
    split at happens
    · cases happens
    · rename_i flush running
      split at happens
      · cases happens
      · cases happens
        have settled := live_settle (o := o) flush.client flush.scheduled
          (Session.resume_within (s := o.session) flush.awaiting)
        have values : (o.session.afterWrite flush.awaiting).msgIdValues =
            o.session.msgIdValues := by
          cases flush.awaiting <;> rfl
        exact ⟨settled.1.trans values, settled.2.trans (live_afterWrite running distinct)⟩
  | writeDisconnects =>
    simp only [step] at happens
    split at happens
    · cases happens
    · split at happens
      · cases happens
      · cases happens
        have released := shrinks_release (o := o)
        have gone := shrinks_disconnect (o := { o with flush := none })
        exact ⟨gone.values.trans released.values, gone.live.trans released.live⟩
  | flushCancelled =>
    simp only [step] at happens
    split at happens
    · cases happens
    · split at happens
      · cases happens
      · cases happens
        exact shrinks_release

end Outbound

namespace Numbering

variable {w : Numbering} {e : NumberingEvent}

/-- What holds between steps whose readings advance. -/
structure Sound (w : Numbering) : Prop where
  known : w.outbound.session.LastGiven w.given
  increasing : w.given.Pairwise fun a b => a.1 < b.1
  residues : ∀ x ∈ w.given, x.1 % 4 = if x.2 then 1 else 3
  distinct : (w.outbound.delivery.live.map OutMessage.messageId).Nodup
  mine : ∀ m ∈ w.outbound.delivery.live, m.messageId ∈ w.given.map Prod.fst
  containers : ∀ c ∈ w.containers, ∀ messageId ∈ c.2, messageId < c.1

theorem wellNumbered_of_sound (sound : w.Sound) : w.WellNumbered := by
  refine ⟨sound.increasing, sound.residues, ?_, sound.containers⟩
  have fewer : (w.outbound.session.messageQueue ++ w.outbound.session.pendingMessages).Sublist
      w.outbound.delivery.live :=
    (List.sublist_append_left _ _).append_right _
  exact (fewer.map _).nodup sound.distinct

structure Takes (o : Outbound) (calls : List (Nat × Bool)) (u : Outbound) : Prop where
  values : u.session.msgIdValues = (o.session.skip calls).msgIdValues
  live : u.delivery.live.Subperm o.delivery.live ∨
    ∃ m : OutMessage, m.messageId ∈ (o.session.msgIds calls).map Prod.fst ∧
      u.delivery.live.Perm (m :: o.delivery.live)

theorem takes_of_shrinks {o u : Outbound} (shrinks : o.Shrinks u) : Takes o [] u :=
  ⟨shrinks.values, .inl shrinks.live⟩

theorem takes_step {o u : Outbound} {happening : OutboundEvent}
    (happens : o.step happening = some u)
    (distinct : (o.delivery.live.map OutMessage.messageId).Nodup) :
    Takes o (NumberingEvent.outbound happening).calls u := by
  cases happening with
  | enqueue now inReply contentRelated data =>
    cases happens
    refine ⟨Session.msgIdValues_enqueue now inReply contentRelated data,
      .inr ⟨(o.session.packMessage now inReply contentRelated data).1, ?_, ?_⟩⟩
    · rw [Session.messageId_packMessage]
      exact List.mem_cons_self
    · obtain ⟨values, seqNo, task, queued⟩ :=
        o.session.enqueue_eq now inReply contentRelated data
      rw [queued]
      change (o.session.messageQueue ++ [_] ++ o.inHand ++ o.session.pendingMessages).Perm _
      simp only [List.append_assoc, List.singleton_append]
      exact List.perm_middle.trans
        ((List.Perm.of_eq (List.append_assoc _ _ _).symm).cons _)
  | enqueueUnencrypted now inReply data =>
    cases happens
    refine ⟨Session.msgIdValues_enqueueUnencrypted now inReply data, .inl ?_⟩
    obtain ⟨values, queue, task, queued⟩ := o.session.enqueueUnencrypted_eq now inReply data
    rw [queued]
    exact List.Subperm.refl _
  | _ => exact takes_of_shrinks (Outbound.shrinks_step happens distinct rfl)

theorem sound_record {o : Outbound} (sound : w.Sound) (takes : Takes w.outbound e.calls o)
    (ticks : w.Ticks e) : (w.record e o).Sound := by
  have increasing : (w.given ++ w.outbound.session.msgIds e.calls).Pairwise
      fun a b => a.1 < b.1 :=
    (Session.increasing_iff_advance sound.known sound.increasing e.calls).mpr ticks
  have known := Session.lastGiven_skip sound.known e.calls
  rw [Session.LastGiven, ← takes.values] at known
  refine ⟨known, increasing, fun x listed => ?_, ?_, fun m here => ?_, sound.containers⟩
  · rcases List.mem_append.mp listed with old | new
    · exact sound.residues x old
    · exact Session.residue_of_mem_msgIds sound.known new
  · rcases takes.live with fewer | ⟨m, new, more⟩
    · obtain ⟨front, same, sublist⟩ := fewer
      exact (same.map _).nodup_iff.mp ((sublist.map _).nodup sound.distinct)
    · refine (more.map OutMessage.messageId).nodup_iff.mpr
        (List.nodup_cons.mpr ⟨?_, sound.distinct⟩)
      intro known
      obtain ⟨old, held, same⟩ := List.mem_map.mp known
      obtain ⟨x, listed, named⟩ := List.mem_map.mp (sound.mine old held)
      obtain ⟨y, later, named'⟩ := List.mem_map.mp new
      have up := (List.pairwise_append.mp increasing).2.2 x listed y later
      rw [named, named', same] at up
      exact Nat.lt_irrefl _ up
  · change m.messageId ∈ (w.given ++ w.outbound.session.msgIds e.calls).map Prod.fst
    rw [List.map_append]
    rcases takes.live with fewer | ⟨new, named, more⟩
    · exact List.mem_append_left _ (sound.mine m (fewer.subset here))
    · rcases List.mem_cons.mp (more.mem_iff.mp here) with rfl | old
      · exact List.mem_append_right _ named
      · exact List.mem_append_left _ (sound.mine m old)

theorem takes_pack {o : Outbound} {s : Session} {calls : List (Nat × Bool)}
    (queue : s.messageQueue = o.session.messageQueue)
    (pending : s.pendingOutbound = o.session.pendingOutbound)
    (values : s.msgIdValues = (o.session.skip calls).msgIdValues) :
    Takes o calls { o with session := s } := by
  refine ⟨values, .inl ?_⟩
  have same : ({ o with session := s } : Outbound).delivery.live = o.delivery.live := by
    simp only [Delivery.live, Outbound.delivery, Session.pendingMessages, queue, pending]
    rfl
  exact same ▸ List.Subperm.refl _

theorem frame_packMessage (s : Session) (now : Nat) (inReply contentRelated : Bool) (data : Bytes) :
    (s.packMessage now inReply contentRelated data).2.messageQueue = s.messageQueue ∧
      (s.packMessage now inReply contentRelated data).2.pendingOutbound = s.pendingOutbound := by
  cases contentRelated <;> exact ⟨rfl, rfl⟩

theorem frame_packMessages (s : Session) (objects : List Packing) :
    (s.packMessages objects).2.messageQueue = s.messageQueue ∧
      (s.packMessages objects).2.pendingOutbound = s.pendingOutbound := by
  induction objects generalizing s with
  | nil => exact ⟨rfl, rfl⟩
  | cons p objects ih =>
    have first := frame_packMessage s p.now p.inReply p.contentRelated p.data
    have rest := ih (s.packMessage p.now p.inReply p.contentRelated p.data).2
    exact ⟨rest.1.trans first.1, rest.2.trans first.2⟩

theorem packContainer_ids (s : Session) (objects : List Packing) (now : Nat) (data : Bytes) :
    s.msgIds (NumberingEvent.packContainer objects now data).calls =
        s.msgIds (objects.map fun p => (p.now, p.inReply)) ++
          [((s.packContainer objects now data).1.2.messageId, false)] ∧
      (s.packContainer objects now data).2.msgIdValues =
        (s.skip (NumberingEvent.packContainer objects now data).calls).msgIdValues := by
  have values := (s.packMessages_ids objects).2
  have last : (s.packMessages objects).2.msgIds [(now, false)] =
      [((s.packContainer objects now data).1.2.messageId, false)] := rfl
  rw [NumberingEvent.calls, Session.msgIds_append, Session.skip_append]
  refine ⟨?_, ?_⟩
  · rw [← last, Session.msgIds_congr values]
  · rw [← Session.skip_congr values]
    rfl

theorem sound_step {w' : Numbering} (sound : w.Sound) (ticks : w.Ticks e)
    (happens : w.step e = some w') : w'.Sound := by
  cases e with
  | outbound happening =>
    obtain ⟨o, does, rfl⟩ := Option.map_eq_some_iff.mp happens
    exact sound_record sound (takes_step does sound.distinct) ticks
  | packMessage p =>
    cases happens
    have frame := frame_packMessage w.outbound.session p.now p.inReply p.contentRelated p.data
    exact sound_record sound
      (takes_pack frame.1 frame.2 (Session.msgIdValues_packMessage ..)) ticks
  | packContainer objects now data =>
    cases happens
    have inner := frame_packMessages w.outbound.session objects
    have outer := frame_packMessage (w.outbound.session.packMessages objects).2 now false false
      data
    obtain ⟨ids, values⟩ := packContainer_ids w.outbound.session objects now data
    have packed := sound_record sound
      (takes_pack (outer.1.trans inner.1) (outer.2.trans inner.2) values) ticks
    refine ⟨packed.known, packed.increasing, packed.residues, packed.distinct, packed.mine, ?_⟩
    intro c listed messageId held
    rcases List.mem_append.mp listed with old | new
    · exact sound.containers c old messageId held
    · rw [List.mem_singleton.mp new] at held ⊢
      have up : (w.given ++ w.outbound.session.msgIds
          (NumberingEvent.packContainer objects now data).calls).Pairwise
            fun a b => a.1 < b.1 := packed.increasing
      rw [ids, ← List.append_assoc] at up
      rw [(w.outbound.session.packMessages_ids objects).1] at held
      obtain ⟨x, given, rfl⟩ := List.mem_map.mp held
      exact (List.pairwise_append.mp up).2.2 x (List.mem_append_right _ given) _
        (List.mem_singleton_self _)

theorem given_step {w' : Numbering} (happens : w.step e = some w') :
    w'.given = w.given ++ w.outbound.session.msgIds e.calls := by
  cases e with
  | outbound happening =>
    obtain ⟨o, does, rfl⟩ := Option.map_eq_some_iff.mp happens
    rfl
  | packMessage p => cases happens; rfl
  | packContainer objects now data => cases happens; rfl

theorem sound_new (sessionId : Nat) (client : Option ClientId) (authData : Option AuthData) :
    (new sessionId client authData).Sound where
  known := ⟨rfl, fun x last => (by cases last)⟩
  increasing := List.Pairwise.nil
  residues := fun x listed => (by cases listed)
  distinct := List.nodup_nil
  mine := fun m here => (by cases here)
  containers := fun c listed => (by cases listed)

/-- The identifiers of a session stay well numbered exactly as long as every reading of the clock
advances: one that steps back, or a second that has been passed, gives old identifiers again. -/
theorem well_numbered_iff {sessionId : Nat} {client : Option ClientId} {authData : Option AuthData}
    {es : List NumberingEvent} {w : Numbering}
    (run : runFrom step (new sessionId client authData) es = some w) :
    HoldsAlong step WellNumbered (new sessionId client authData) es ↔
      StepsMeet step Ticks (new sessionId client authData) es := by
  refine holdsAlong_iff_stepsMeet (fun _ => wellNumbered_of_sound)
    (fun _ _ _ sound ticks happens => sound_step sound ticks happens) ?_ (sound_new ..) run
  intro before e after sound stuck happens well
  have increasing := well.increasing
  rw [given_step happens, Session.increasing_iff_advance sound.known sound.increasing] at increasing
  exact stuck increasing

private def reader : AuthData := ⟨some 6, some [2]⟩

/-- A container and two messages within two seconds. -/
private def steadyRun : List NumberingEvent :=
  [.outbound (.enqueue 5 true true [1]),
    .packContainer [⟨5, true, true, [2]⟩, ⟨5, false, true, [3]⟩] 6 [2, 3],
    .outbound (.enqueue 6 true true [4])]

theorem steady_well_numbered :
    HoldsAlong step WellNumbered (new 2 none (some reader)) steadyRun :=
  have goes : ∃ w, runFrom step (new 2 none (some reader)) steadyRun = some w := ⟨_, rfl⟩
  goes.elim fun _ run => (well_numbered_iff run).mpr (by decide)

/-- The clock steps back by a second and goes on: two messages of the queue share an identifier. -/
theorem step_back_repeats :
    ∃ w, runFrom step (new 2 none (some reader)) [.outbound (.enqueue 5 false true [1]),
        .outbound (.enqueue 4 false true [2]), .outbound (.enqueue 5 false true [3])] = some w ∧
      w.outbound.session.messageQueue.map OutMessage.messageId =
        [5 * 2 ^ 32 + 3, 4 * 2 ^ 32 + 3, 5 * 2 ^ 32 + 3] ∧ ¬ w.WellNumbered := by
  refine ⟨_, rfl, rfl, fun well => ?_⟩
  exact absurd well.distinct (by decide)

end Numbering

end Piltover.Gateway
