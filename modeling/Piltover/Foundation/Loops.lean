/- source: none (library)
   digest: A while loop whose body may raise, and when it stops. -/

import Mathlib.Data.Option.Basic

set_option autoImplicit false

namespace Piltover.Foundation.Loops

universe u

variable {σ : Type u}

inductive Status (σ : Type u)
  | running (s : σ)
  | stopped (s : σ)
  | raised

/-- One turn of `while guard: body`; the body may depend on how often it has run. -/
def turn (guard : σ → Bool) (body : Nat → σ → Option σ) (k : Nat) : Status σ → Status σ
  | .running s => if guard s then (body k s).elim .raised .running else .stopped s
  | status => status

def after (guard : σ → Bool) (body : Nat → σ → Option σ) (s : σ) : Nat → Status σ
  | 0 => .running s
  | k + 1 => turn guard body k (after guard body s k)

def Stops (guard : σ → Bool) (body : Nat → σ → Option σ) (s : σ) : Prop :=
  ∃ k, ∀ t, after guard body s k ≠ .running t

variable {guard : σ → Bool} {body : Nat → σ → Option σ} {s t : σ} {k : Nat}

theorem stops_of_guard_false (here : after guard body s k = .running t) (done : guard t = false) :
    Stops guard body s := by
  refine ⟨k + 1, fun u same => ?_⟩
  rw [after, here, turn, done] at same
  cases same

theorem stops_of_raise (here : after guard body s k = .running t) (raises : body k t = none) :
    Stops guard body s := by
  refine ⟨k + 1, fun u same => ?_⟩
  rw [after, here, turn] at same
  split at same
  · rw [raises] at same
    cases same
  · cases same

theorem after_succ_of_body {u : σ} (here : after guard body s k = .running t)
    (goes : guard t = true) (runs : body k t = some u) :
    after guard body s (k + 1) = .running u := by
  rw [after, here, turn, if_pos goes, runs]
  rfl

private theorem running_before {n : Nat} (le : n ≤ k) (here : after guard body s k = .running t) :
    ∃ u, after guard body s n = .running u := by
  induction k generalizing t with
  | zero =>
    obtain rfl := Nat.le_zero.mp le
    exact ⟨t, here⟩
  | succ k ih =>
    rcases Nat.le_succ_iff.mp le with less | rfl
    · cases before : after guard body s k with
      | running u => exact ih less before
      | stopped u =>
        rw [after, before] at here
        cases here
      | raised =>
        rw [after, before] at here
        cases here
    · exact ⟨t, here⟩

theorem not_stops_of_invariant (inv : σ → Prop) (here : after guard body s k = .running t)
    (start : inv t) (goes : ∀ u, inv u → guard u = true)
    (keep : ∀ j u, inv u → ∃ v, body j u = some v ∧ inv v) : ¬ Stops guard body s := by
  have spins : ∀ j, ∃ u, after guard body s (k + j) = .running u ∧ inv u := by
    intro j
    induction j with
    | zero => exact ⟨t, here, start⟩
    | succ j ih =>
      obtain ⟨u, running, holds⟩ := ih
      obtain ⟨v, runs, next⟩ := keep (k + j) u holds
      exact ⟨v, after_succ_of_body running (goes u holds) runs, next⟩
  rintro ⟨n, ends⟩
  obtain ⟨u, running, -⟩ := spins n
  obtain ⟨v, earlier⟩ := running_before (Nat.le_add_left n k) running
  exact ends v earlier

end Piltover.Foundation.Loops
