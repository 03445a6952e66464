/- source: none (library)
   digest: At-least-once delivery: what was accepted stays live until it is acknowledged. -/

import Mathlib.Data.List.Nodup
import Mathlib.Data.List.Perm.Basic
import Mathlib.Logic.Relation

set_option autoImplicit false

namespace Piltover.Foundation

universe u v

/-- The places an accepted message can be in: a queue, the hand of the one who is sending it,
or the store of sent messages that wait for their acknowledgement. -/
structure Delivery (α : Type u) where
  put : List α
  queue : List α
  hand : List α
  pending : List α
  acked : List α

namespace Delivery

variable {α : Type u} {κ : Type v}

def live (d : Delivery α) : List α := d.queue ++ d.hand ++ d.pending

/-- The moves of a sender that never drops a message it still owes. -/
inductive Move [DecidableEq κ] (key : α → κ) : Delivery α → Delivery α → Prop
  | accept (d : Delivery α) (m : α) (fresh : key m ∉ d.live.map key) :
      Move key d { d with put := d.put ++ [m], queue := d.queue ++ [m] }
  | take (d : Delivery α) (m : α) (rest : List α) (first : d.queue = m :: rest)
      (free : d.hand = []) : Move key d { d with queue := rest, hand := [m] }
  | store (d : Delivery α) (m : α) (held : d.hand = [m]) :
      Move key d { d with hand := [], pending := d.pending ++ [m] }
  | acknowledge (d : Delivery α) (ks : List κ) :
      Move key d { d with
        pending := d.pending.filter (fun m => key m ∉ ks)
        acked := d.acked ++ d.live.filter (fun m => key m ∈ ks) }
  | release (d : Delivery α) (settled : ∀ m ∈ d.hand, m ∈ d.acked) :
      Move key d { d with hand := [] }

structure Sound (key : α → κ) (d : Delivery α) : Prop where
  kept : ∀ m ∈ d.put, m ∈ d.live ∨ m ∈ d.acked
  distinct : (d.live.map key).Nodup

variable {key : α → κ}

private theorem sound_of_perm (d e : Delivery α) (same : e.live.Perm d.live) (put : e.put = d.put)
    (acked : e.acked = d.acked) (sound : Sound key d) : Sound key e := by
  refine ⟨?_, ((same.map key).nodup_iff).mpr sound.distinct⟩
  intro m member
  rw [put] at member
  rw [same.mem_iff, acked]
  exact sound.kept m member

private theorem sound_of_sublist (d e : Delivery α) (fewer : e.live.Sublist d.live) (put : e.put = d.put)
    (kept : ∀ m ∈ d.live, m ∈ e.live ∨ m ∈ e.acked) (acked : d.acked ⊆ e.acked)
    (sound : Sound key d) : Sound key e := by
  refine ⟨?_, (fewer.map key).nodup sound.distinct⟩
  intro m member
  rw [put] at member
  rcases sound.kept m member with here | done
  · exact kept m here
  · exact Or.inr (acked done)

variable {d e : Delivery α}

theorem Move.sound [DecidableEq κ] (move : Move key d e) (sound : Sound key d) : Sound key e := by
  cases move with
  | accept m fresh =>
    have arranged : ({ d with put := d.put ++ [m], queue := d.queue ++ [m] } : Delivery α).live.Perm
        (m :: d.live) := by
      simp only [live, List.append_assoc, List.singleton_append]
      exact List.perm_middle
    refine ⟨?_, ((arranged.map key).nodup_iff).mpr ?_⟩
    · intro x member
      rw [arranged.mem_iff]
      rcases List.mem_append.mp member with old | new
      · exact (sound.kept x old).imp (List.mem_cons_of_mem m) id
      · exact Or.inl (List.mem_singleton.mp new ▸ List.mem_cons_self)
    · exact List.nodup_cons.mpr ⟨fresh, sound.distinct⟩
  | take m rest first free =>
    refine sound_of_perm d _ ?_ rfl rfl sound
    simp only [live, first, free, List.append_nil]
    have swap : (rest ++ [m]).Perm ([m] ++ rest) := List.perm_append_comm
    exact swap.append_right d.pending
  | store m held =>
    refine sound_of_perm d _ ?_ rfl rfl sound
    simp only [live, held, List.append_nil, List.append_assoc]
    have swap : (d.pending ++ [m]).Perm ([m] ++ d.pending) := List.perm_append_comm
    exact swap.append_left d.queue
  | acknowledge ks =>
    refine sound_of_sublist d _ ?_ rfl ?_ (List.subset_append_left _ _) sound
    · exact (List.filter_sublist).append_left _
    · intro m member
      by_cases hit : key m ∈ ks
      · exact Or.inr (List.mem_append_right _ (List.mem_filter.mpr ⟨member, by simpa using hit⟩))
      · refine Or.inl ?_
        simp only [live, List.mem_append, List.mem_filter] at member ⊢
        exact member.imp id fun stored => ⟨stored, by simpa using hit⟩
  | release settled =>
    refine sound_of_sublist d _ ?_ rfl ?_ (List.Subset.refl _) sound
    · simp only [live, List.append_nil]
      exact (List.sublist_append_left d.queue d.hand).append_right d.pending
    · intro m member
      simp only [live, List.mem_append, List.append_nil] at member ⊢
      rcases member with (queued | held) | stored
      · exact Or.inl (Or.inl queued)
      · exact Or.inr (settled m held)
      · exact Or.inl (Or.inr stored)

theorem sound_of_moves [DecidableEq κ] (moves : Relation.ReflTransGen (Move key) d e) (sound : Sound key d) :
    Sound key e := by
  induction moves with
  | refl => exact sound
  | tail _ move ih => exact move.sound ih

theorem Sound.held_apart (sound : Sound key d) {m : α} (held : m ∈ d.hand) :
    key m ∉ d.queue.map key ∧ key m ∉ d.pending.map key := by
  have distinct := sound.distinct
  simp only [live, List.map_append, List.append_assoc] at distinct
  obtain ⟨_, rest, apart⟩ := List.nodup_append.mp distinct
  have inner := (List.nodup_append.mp rest).2.2
  have mine : key m ∈ d.hand.map key := List.mem_map_of_mem held
  exact ⟨fun queued => apart _ queued _ (List.mem_append_left _ mine) rfl,
    fun stored => inner _ mine _ stored rfl⟩

/-- Whoever lets go of an unacknowledged message loses it. -/
theorem Sound.lost (sound : Sound key d) {m : α} (held : m ∈ d.hand) :
    m ∉ d.queue ∧ m ∉ d.pending :=
  ⟨fun queued => (sound.held_apart held).1 (List.mem_map_of_mem queued),
    fun stored => (sound.held_apart held).2 (List.mem_map_of_mem stored)⟩

end Delivery

end Piltover.Foundation
