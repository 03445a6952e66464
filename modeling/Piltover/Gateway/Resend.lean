/- source: piltover/gateway/client.py, piltover/session/session.py
   digest: The pass over unacknowledged messages after a reconnect, and what may come between. -/

import Mathlib.Data.List.Basic
import Piltover.Gateway.Outbound

set_option autoImplicit false

namespace Piltover.Gateway

open Piltover.Foundation

namespace Session

/-- Acknowledgements that are handled one after the other. -/
def ackAll (s : Session) (acks : List (List Nat)) : Session := acks.foldl ackOutbound s

/-- The loop over `pending_outbound.items()`, which has yet to yield `rest`: what it writes, and
the session that it leaves unless it raises. `acks i` is what is acknowledged while the write with
number `i` is suspended; a dictionary that has lost an entry refuses to go on, unless its last entry
was out already. -/
def resendLoop (acks : Nat → List (List Nat)) :
    Nat → Session → List OutMessage → List OutMessage × Option Session
  | _, s, [] => ([], some s)
  | i, s, m :: rest =>
    let t := s.ackAll (acks i)
    if t.pendingOutbound.entries.length ≠ s.pendingOutbound.entries.length ∧ rest ≠ [] then
      ([m], none)
    else
      let (written, ended) := resendLoop acks (i + 1) t rest
      (m :: written, ended)

/-- The resend pass of `_write_session_queues`. -/
def resendPass (acks : Nat → List (List Nat)) (s : Session) : List OutMessage × Option Session :=
  if s.resendPendingOnConnect ∧ s.pendingOutbound.entries ≠ [] then
    resendLoop acks 0 { s with resendPendingOnConnect := false } s.pendingMessages
  else ([], some s)

end Session

/-- The message is acknowledged while one of the writes before number `turn` is suspended. -/
def ackedBefore (acks : Nat → List (List Nat)) (turn : Nat) (m : OutMessage) : Bool :=
  (List.range turn).any fun i => (acks i).any fun msgIds => decide (m.messageId ∈ msgIds)

/-- The pass ends, has written every message that was not acknowledged before its turn, in the order
of their insertion, and leaves those that were not acknowledged at all. -/
structure Session.ResendsSafely (acks : Nat → List (List Nat)) (s : Session) : Prop where
  written : (s.resendPass acks).1 =
    (s.pendingMessages.zipIdx.filter fun e => !ackedBefore acks e.2 e.1).map Prod.fst
  left : ∃ t, (s.resendPass acks).2 = some t ∧
    t.pendingMessages =
      s.pendingMessages.filter fun m => !ackedBefore acks s.pendingMessages.length m

/-- No message of the pass is acknowledged before its last write. -/
def Session.AcksWait (acks : Nat → List (List Nat)) (s : Session) : Prop :=
  ∀ i, i + 1 < s.pendingMessages.length → ∀ msgIds ∈ acks i, ∀ msgId ∈ msgIds,
    msgId ∉ s.pendingOutbound

namespace Session

variable {s : Session} {acks : Nat → List (List Nat)}

theorem pendingMessages_ackAll (s : Session) (all : List (List Nat)) :
    (s.ackAll all).pendingMessages =
      s.pendingMessages.filter fun m => !all.any fun msgIds => decide (m.messageId ∈ msgIds) := by
  induction all generalizing s with
  | nil => exact (List.filter_eq_self.mpr fun m _ => rfl).symm
  | cons msgIds all ih =>
    rw [ackAll, List.foldl_cons, ← ackAll, ih, pendingMessages_ackOutbound, List.filter_filter]
    refine List.filter_congr fun m _ => ?_
    simp [Bool.and_comm]

theorem length_pendingMessages (s : Session) :
    s.pendingMessages.length = s.pendingOutbound.entries.length :=
  List.length_map ..

theorem ackAll_size_iff (s : Session) (all : List (List Nat)) :
    (s.ackAll all).pendingOutbound.entries.length = s.pendingOutbound.entries.length ↔
      ∀ m ∈ s.pendingMessages, (all.any fun msgIds => decide (m.messageId ∈ msgIds)) = false := by
  rw [← length_pendingMessages, ← length_pendingMessages, pendingMessages_ackAll,
    List.length_filter_eq_length_iff]
  exact forall₂_congr fun m _ => by rw [Bool.not_eq_true']

/-- Some message of the pass is acknowledged during the write. -/
def Hit (s : Session) (all : List (List Nat)) : Prop :=
  ∃ m ∈ s.pendingMessages, (all.any fun msgIds => decide (m.messageId ∈ msgIds)) = true

theorem not_hit_iff (s : Session) (all : List (List Nat)) :
    ¬ s.Hit all ↔ (s.ackAll all).pendingOutbound.entries.length =
      s.pendingOutbound.entries.length := by
  rw [ackAll_size_iff, Hit]
  push Not
  exact forall₂_congr fun m _ => by rw [ne_eq, Bool.not_eq_true]

theorem pendingMessages_of_not_hit {all : List (List Nat)} (quiet : ¬ s.Hit all) :
    (s.ackAll all).pendingMessages = s.pendingMessages := by
  rw [pendingMessages_ackAll, List.filter_eq_self]
  intro m pending
  by_contra acked
  exact quiet ⟨m, pending, by simpa using acked⟩

theorem hit_congr {t : Session} (same : t.pendingMessages = s.pendingMessages)
    (all : List (List Nat)) : t.Hit all ↔ s.Hit all := by
  rw [Hit, Hit, same]

theorem resendLoop_of_quiet (acks : Nat → List (List Nat)) {i : Nat} {rest : List OutMessage}
    (some_ : rest ≠ [])
    (quiet : ∀ k, k + 1 < rest.length → ¬ s.Hit (acks (i + k))) :
    ∃ t, resendLoop acks i s rest = (rest, some t) ∧ t.pendingMessages =
      (s.ackAll (acks (i + (rest.length - 1)))).pendingMessages := by
  induction rest generalizing i s with
  | nil => exact absurd rfl some_
  | cons m rest ih =>
    rcases rest with _ | ⟨next, rest⟩
    · exact ⟨s.ackAll (acks i), by simp [resendLoop], rfl⟩
    · have here : ¬ s.Hit (acks i) := quiet 0 (by simp)
      have same := pendingMessages_of_not_hit here
      have later : ∀ k, k + 1 < (next :: rest).length →
          ¬ (s.ackAll (acks i)).Hit (acks (i + 1 + k)) := by
        intro k small
        rw [hit_congr same, Nat.add_assoc, Nat.add_comm 1 k]
        exact quiet (k + 1) (Nat.succ_lt_succ small)
      obtain ⟨t, ended, left⟩ := ih (List.cons_ne_nil _ _) later
      refine ⟨t, ?_, ?_⟩
      · rw [resendLoop, if_neg fun lost => lost.1 ((not_hit_iff s (acks i)).mp here), ended]
      · have last : i + 1 + ((next :: rest).length - 1) =
            i + ((m :: next :: rest).length - 1) := by
          simp only [List.length_cons, Nat.add_sub_cancel]
          omega
        rw [left, pendingMessages_ackAll, same, pendingMessages_ackAll, last]

/-- An acknowledgement that comes earlier makes the loop raise. -/
theorem resendLoop_of_hit {i k : Nat} {rest : List OutMessage} (early : k + 1 < rest.length)
    (hit : s.Hit (acks (i + k))) : (resendLoop acks i s rest).2 = none := by
  induction rest generalizing i k s with
  | nil => cases early
  | cons m rest ih =>
    have more : rest ≠ [] := by
      rintro rfl
      simp at early
    by_cases here : s.Hit (acks i)
    · rw [resendLoop, if_pos ⟨fun same => (not_hit_iff s (acks i)).mpr same here, more⟩]
    · cases k with
      | zero => exact absurd hit here
      | succ k =>
        rw [resendLoop, if_neg fun lost => lost.1 ((not_hit_iff s (acks i)).mp here)]
        have same := pendingMessages_of_not_hit here
        refine ih (k := k) (Nat.lt_of_succ_lt_succ early) ?_
        rw [hit_congr same, Nat.add_assoc, Nat.add_comm 1 k]
        exact hit

theorem acksWait_iff : s.AcksWait acks ↔
    ∀ i, i + 1 < s.pendingMessages.length → ¬ s.Hit (acks i) := by
  refine forall₂_congr fun i _ => ?_
  simp only [Hit, List.any_eq_true, decide_eq_true_eq, ← mem_pendingMessages_messageId,
    List.mem_map]
  constructor
  · rintro waits ⟨m, pending, msgIds, acked, named⟩
    exact waits msgIds acked _ named ⟨m, pending, rfl⟩
  · rintro none msgIds acked msgId named ⟨m, pending, rfl⟩
    exact none ⟨m, pending, msgIds, acked, named⟩

theorem resendPass_connect (acks : Nat → List (List Nat)) (client : ClientId)
    (pending : s.pendingMessages ≠ []) :
    ∃ t, (s.connect client).resendPass acks = resendLoop acks 0 t s.pendingMessages ∧
      t.pendingMessages = s.pendingMessages := by
  have some_ : s.pendingOutbound.entries ≠ [] := by
    intro none
    exact pending (by rw [pendingMessages, none]; rfl)
  obtain ⟨task, connected⟩ := s.connect_eq client
  rw [connected]
  refine ⟨_, if_pos ⟨?_, some_⟩, rfl⟩
  simp [some_]

theorem pendingMessages_connect (client : ClientId) :
    (s.connect client).pendingMessages = s.pendingMessages := by
  obtain ⟨task, connected⟩ := s.connect_eq client
  rw [connected]
  rfl

/-- Where nothing is acknowledged before the last write, nobody is acknowledged before its turn. -/
theorem ackedBefore_of_quiet {turn : Nat} {m : OutMessage} (pending : m ∈ s.pendingMessages)
    (quiet : ∀ i, i < turn → ¬ s.Hit (acks i)) : ackedBefore acks turn m = false := by
  rw [ackedBefore, List.any_eq_false]
  intro i early
  rw [Bool.not_eq_true]
  by_contra acked
  exact quiet i (List.mem_range.mp early) ⟨m, pending, by simpa using acked⟩

/-- The pass after a reconnect is safe exactly if no message of it is acknowledged before its last
write: any such acknowledgement makes the loop raise. -/
theorem resends_safely_iff (client : ClientId) :
    (s.connect client).ResendsSafely acks ↔ (s.connect client).AcksWait acks := by
  rw [acksWait_iff]
  by_cases none : s.pendingMessages = []
  · have nothing := pendingMessages_connect (s := s) client
    rw [none] at nothing
    have size := length_pendingMessages (s.connect client)
    rw [nothing, List.length_nil, eq_comm, List.length_eq_zero_iff] at size
    have skipped : (s.connect client).resendPass acks = ([], some (s.connect client)) :=
      if_neg fun both => both.2 size
    refine ⟨fun _ i small => ?_, fun _ => ⟨?_, s.connect client, ?_, ?_⟩⟩
    · rw [nothing] at small
      cases small
    · rw [skipped, nothing]
      rfl
    · rw [skipped]
    · rw [nothing]
      rfl
  · obtain ⟨t, pass, same⟩ := resendPass_connect acks client none
    have kept := pendingMessages_connect (s := s) client
    have hits : ∀ all, (s.connect client).Hit all ↔ t.Hit all := fun all =>
      hit_congr (kept.trans same.symm) all
    constructor
    · intro safe i small hit
      obtain ⟨u, ended, -⟩ := safe.left
      rw [kept] at small
      have raised := resendLoop_of_hit (s := t) (i := 0) small
        (by rw [Nat.zero_add]; exact (hits _).mp hit)
      rw [pass, raised] at ended
      cases ended
    · intro quiet
      rw [kept] at quiet
      obtain ⟨u, ended, left⟩ := resendLoop_of_quiet (s := t) acks (i := 0) none
        fun k small => by rw [Nat.zero_add, ← hits]; exact quiet k small
      rw [Nat.zero_add, pendingMessages_ackAll, same] at left
      refine ⟨?_, u, ?_, ?_⟩
      · rw [pass, ended, kept, List.filter_eq_self.mpr, List.zipIdx_map_fst]
        rintro ⟨m, turn⟩ listed
        have here := List.mem_zipIdx listed
        have pending : m ∈ (s.connect client).pendingMessages := by
          rw [kept, here.2.2]
          exact List.getElem_mem _
        rw [ackedBefore_of_quiet pending fun i early => quiet i (by omega)]
        rfl
      · rw [pass, ended]
      · rw [left, kept]
        refine List.filter_congr fun m pending => ?_
        obtain ⟨last, size⟩ : ∃ last, s.pendingMessages.length = last + 1 :=
          ⟨_, (Nat.succ_pred_eq_of_pos (List.length_pos_iff.mpr none)).symm⟩
        have before : ackedBefore acks last m = false :=
          ackedBefore_of_quiet (s := s.connect client) (kept ▸ pending) fun i early =>
            quiet i (by omega)
        rw [ackedBefore] at before ⊢
        rw [size, List.range_succ, List.any_append, before]
        simp

private def sent : OutMessage := ⟨5, 0, [7]⟩

private def sentLater : OutMessage := ⟨9, 1, [8]⟩

private def waiting : Session :=
  ((Session.new 2 none (some ⟨some 1, some [1]⟩)).trackPendingOutbound sent).trackPendingOutbound
    sentLater

/-- Acknowledging a message during the last write, and unknown ones before, does no harm. -/
theorem late_acks_safe :
    (waiting.connect 3).ResendsSafely fun i => if i = 0 then [[4]] else [[5, 9]] := by
  rw [resends_safely_iff]
  intro i small msgIds acked
  have first : i = 0 := by
    have two : (waiting.connect 3).pendingMessages.length = 2 := rfl
    omega
  subst first
  cases List.mem_singleton.mp acked
  decide

/-- The client acknowledges the first message while it is written again: the pass raises, and the
other message is not written. -/
theorem early_ack_raises :
    (waiting.connect 3).resendPass (fun _ => [[5]]) = ([sent], none) ∧
      ¬ (waiting.connect 3).ResendsSafely fun _ => [[5]] := by
  have raises : (waiting.connect 3).resendPass (fun _ => [[5]]) = ([sent], none) := rfl
  refine ⟨raises, fun safe => ?_⟩
  obtain ⟨t, ended, -⟩ := safe.left
  rw [raises] at ended
  cases ended

end Session

end Piltover.Gateway
