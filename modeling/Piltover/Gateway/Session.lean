/- source: piltover/session/session.py
   digest: One session: its queues, unacknowledged messages, tasks and message identifiers. -/

import Mathlib.Algebra.Order.Group.Nat
import Piltover.Foundation.OrderedDict

set_option autoImplicit false

namespace Piltover.Gateway

open Piltover.Foundation

abbrev Bytes := List UInt8

/-- A connection of the gateway, one value for every `Client` object ever made. -/
abbrev ClientId := Nat

structure AuthData where
  authKeyId : Option Nat
  authKey : Option Bytes
  deriving DecidableEq, Repr

/-- An asyncio task that has been created and not cancelled. -/
inductive TaskState
  | running | done
  deriving DecidableEq, Repr

structure MsgIdValues where
  lastTime : Nat
  offset : Nat
  deriving DecidableEq, Repr

/-- An element of `message_queue`. -/
structure OutMessage where
  messageId : Nat
  seqNo : Nat
  data : Bytes
  deriving DecidableEq, Repr

/-- The fields of `Session` that sending reads or writes. -/
structure Session where
  client : Option ClientId
  sessionId : Nat
  authData : Option AuthData
  msgIdValues : MsgIdValues
  outSeqNo : Nat
  messageQueue : List OutMessage
  unencryptedQueue : List (Nat × Bytes)
  pendingOutbound : OrderedDict Nat (Nat × Bytes)
  resendPendingOnConnect : Bool
  cleanupTask : Option TaskState
  flushTask : Option TaskState
  deriving DecidableEq

namespace Session

/-- `Session.__init__`. -/
def new (sessionId : Nat) (client : Option ClientId) (authData : Option AuthData) : Session where
  client := client
  sessionId := sessionId
  authData := authData
  msgIdValues := ⟨0, 0⟩
  outSeqNo := 0
  messageQueue := []
  unencryptedQueue := []
  pendingOutbound := ∅
  resendPendingOnConnect := false
  cleanupTask := none
  flushTask := none

def authKeyId (s : Session) : Option Nat := s.authData.bind AuthData.authKeyId

def uniqId (s : Session) : Nat × Nat := (s.authKeyId.getD 0, s.sessionId)

def cancelCleanup (s : Session) : Session := { s with cleanupTask := none }

def scheduleCleanup (s : Session) : Session :=
  if s.cleanupTask = some .running then s else { s with cleanupTask := some .running }

def scheduleOutboundFlush (s : Session) : Session :=
  if s.client = none then s
  else if s.flushTask = some .running then s
  else { s with flushTask := some .running }

def connect (s : Session) (client : ClientId) : Session :=
  let s := { s.cancelCleanup with client := some client }
  let s := if s.pendingOutbound.entries = [] then s else { s with resendPendingOnConnect := true }
  s.scheduleOutboundFlush

/-- The cancelled flush task is only forgotten here; what the cancellation does to a flush that is
under way is the business of `Piltover.Gateway.Outbound`. -/
def disconnect (s : Session) : Session :=
  let wasConnected := s.client.isSome
  let s := { s with client := none, flushTask := none }
  if wasConnected then s.scheduleCleanup else s

def trackPendingOutbound (s : Session) (m : OutMessage) : Session :=
  { s with pendingOutbound := s.pendingOutbound.setItem m.messageId (m.seqNo, m.data) }

def ackOutbound (s : Session) (msgIds : List Nat) : Session :=
  { s with pendingOutbound := s.pendingOutbound.popAll msgIds }

def finalize (s : Session) : Session :=
  { s.cancelCleanup with
    client := none
    flushTask := none
    pendingOutbound := ∅
    resendPendingOnConnect := false
    messageQueue := []
    unencryptedQueue := [] }

/-- `msg_id`: the next server message identifier at the clock reading `now`, in seconds. -/
def msgId (s : Session) (now : Nat) (inReply : Bool) : Nat × Session :=
  let offset := if now = s.msgIdValues.lastTime then s.msgIdValues.offset + 4 else 0
  (now * 2 ^ 32 + offset + (if inReply then 1 else 3), { s with msgIdValues := ⟨now, offset⟩ })

def getOutgoingSeqNo (s : Session) (contentRelated : Bool) : Nat × Session :=
  if contentRelated then (s.outSeqNo * 2 + 1, { s with outSeqNo := s.outSeqNo + 1 })
  else (s.outSeqNo * 2, s)

/-- `pack_message` of an object whose serialized form is `data`. -/
def packMessage (s : Session) (now : Nat) (inReply contentRelated : Bool) (data : Bytes) :
    OutMessage × Session :=
  let (messageId, s) := s.msgId now inReply
  let (seqNo, s) := s.getOutgoingSeqNo contentRelated
  (⟨messageId, seqNo, data⟩, s)

def enqueue (s : Session) (now : Nat) (inReply contentRelated : Bool) (data : Bytes) : Session :=
  let (message, s) := s.packMessage now inReply contentRelated data
  { s with messageQueue := s.messageQueue ++ [message] }.scheduleOutboundFlush

def enqueueUnencrypted (s : Session) (now : Nat) (inReply : Bool) (data : Bytes) : Session :=
  let (messageId, s) := s.msgId now inReply
  { s with unencryptedQueue := s.unencryptedQueue ++ [(messageId, data)] }.scheduleOutboundFlush

/-- The entries of `pending_outbound` as the messages they were made from. -/
def pendingMessages (s : Session) : List OutMessage :=
  s.pendingOutbound.entries.map fun e => ⟨e.1, e.2.1, e.2.2⟩

/-- `_write_message` refuses to encrypt without a key. -/
def hasAuthKey (s : Session) : Bool :=
  match s.authData with
  | none => false
  | some auth => auth.authKey.isSome

section Frames

variable (s : Session)

private theorem scheduleOutboundFlush_eq :
    ∃ task, s.scheduleOutboundFlush = { s with flushTask := task } := by
  unfold scheduleOutboundFlush
  split
  · exact ⟨s.flushTask, rfl⟩
  · split
    · exact ⟨s.flushTask, rfl⟩
    · exact ⟨some .running, rfl⟩

theorem scheduleCleanup_eq : s.scheduleCleanup = { s with cleanupTask := some .running } := by
  unfold scheduleCleanup
  split
  · rename_i running
    cases s
    simp_all
  · rfl

/-- Taking a session over only decides who sends, never what is stored. -/
theorem connect_eq (client : ClientId) : ∃ task,
    s.connect client =
      { s with
        client := some client
        cleanupTask := none
        flushTask := task
        resendPendingOnConnect :=
          s.resendPendingOnConnect || decide (s.pendingOutbound.entries ≠ []) } := by
  unfold connect
  by_cases empty : s.pendingOutbound.entries = []
  · obtain ⟨task, scheduled⟩ :=
      scheduleOutboundFlush_eq { s.cancelCleanup with client := some client }
    refine ⟨task, ?_⟩
    have flag : (s.resendPendingOnConnect || decide (s.pendingOutbound.entries ≠ [])) =
        s.resendPendingOnConnect := by simp [empty]
    rw [flag]
    exact (congrArg scheduleOutboundFlush (if_pos empty)).trans scheduled
  · obtain ⟨task, scheduled⟩ := scheduleOutboundFlush_eq
      { s.cancelCleanup with client := some client, resendPendingOnConnect := true }
    refine ⟨task, ?_⟩
    have flag : (s.resendPendingOnConnect || decide (s.pendingOutbound.entries ≠ [])) = true := by
      simp [empty]
    rw [flag]
    exact (congrArg scheduleOutboundFlush (if_neg empty)).trans scheduled

theorem disconnect_eq : s.disconnect =
    { s with
      client := none
      flushTask := none
      cleanupTask := if s.client.isSome then some .running else s.cleanupTask } := by
  unfold disconnect
  split <;> simp_all [scheduleCleanup_eq]

theorem enqueue_eq (now : Nat) (inReply contentRelated : Bool) (data : Bytes) :
    ∃ values seqNo task, s.enqueue now inReply contentRelated data =
      { s with
        msgIdValues := values
        outSeqNo := seqNo
        flushTask := task
        messageQueue :=
          s.messageQueue ++ [(s.packMessage now inReply contentRelated data).1] } := by
  unfold enqueue
  cases contentRelated <;>
    (simp only [packMessage, msgId, getOutgoingSeqNo]
     obtain ⟨task, scheduled⟩ := scheduleOutboundFlush_eq _
     exact ⟨_, _, task, scheduled⟩)

theorem enqueueUnencrypted_eq (now : Nat) (inReply : Bool) (data : Bytes) :
    ∃ values queue task, s.enqueueUnencrypted now inReply data =
      { s with msgIdValues := values, unencryptedQueue := queue, flushTask := task } := by
  unfold enqueueUnencrypted
  simp only [msgId]
  obtain ⟨task, scheduled⟩ := scheduleOutboundFlush_eq _
  exact ⟨_, _, task, scheduled⟩

theorem mem_pendingMessages_messageId {msgId : Nat} :
    msgId ∈ s.pendingMessages.map (·.messageId) ↔ msgId ∈ s.pendingOutbound := by
  rw [AList.mem_keys, AList.keys, List.keys, pendingMessages, List.map_map]
  rfl

theorem pendingMessages_trackPendingOutbound {m : OutMessage}
    (fresh : m.messageId ∉ s.pendingMessages.map (·.messageId)) :
    (s.trackPendingOutbound m).pendingMessages = s.pendingMessages ++ [m] := by
  rw [mem_pendingMessages_messageId] at fresh
  simp [pendingMessages, trackPendingOutbound,
    OrderedDict.entries_setItem_of_notMem s.pendingOutbound (m.seqNo, m.data) fresh]

theorem pendingMessages_ackOutbound (msgIds : List Nat) :
    (s.ackOutbound msgIds).pendingMessages =
      s.pendingMessages.filter (fun m => m.messageId ∉ msgIds) := by
  simp only [pendingMessages, ackOutbound, OrderedDict.entries_popAll, List.filter_map]
  rfl

end Frames

end Session

end Piltover.Gateway
