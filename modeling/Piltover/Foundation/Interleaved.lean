/- source: none (library)
   digest: Calls that work on a shared state in turns, and what they leave to one another. -/

import Mathlib.Logic.Function.Basic
import Piltover.Foundation.Runs

set_option autoImplicit false

namespace Piltover.Foundation.Interleaved

open Piltover.Foundation.Runs

universe u

/-- Calls `κ` that go on from stage to stage `τ` over a shared state `σ`, each time with an input
`ι`; between their turns other things `χ` happen to the state. -/
structure Machine (σ κ τ ι χ : Type u) where
  begin : σ → κ → ι → σ × Option τ
  advance : σ → τ → ι → σ × Option τ
  disturb : σ → χ → σ

/-- The shared state and the stages of the calls under way. -/
structure World (σ τ : Type u) where
  shared : σ
  calls : Nat → Option τ

inductive Event (κ ι χ : Type u)
  | start (call : Nat) (request : κ) (input : ι)
  | go (call : Nat) (input : ι)
  | other (what : χ)
  deriving DecidableEq, Repr

variable {σ κ τ ι χ : Type u}

namespace World

/-- One call has had its turn. -/
def turn (w : World σ τ) (call : Nat) (result : σ × Option τ) : World σ τ where
  shared := result.1
  calls := Function.update w.calls call result.2

/-- Nothing is under way. -/
def Idle (w : World σ τ) : Prop := ∀ call, w.calls call = none

section Turn

variable {w : World σ τ} {call other : Nat} {result : σ × Option τ} {t : τ}

theorem calls_turn_self : (w.turn call result).calls call = result.2 := by
  simp [turn]

theorem calls_turn_ne (apart : other ≠ call) :
    (w.turn call result).calls other = w.calls other := by
  simp [turn, apart]

/-- A call under way after a turn is the one that had it or was under way before. -/
theorem calls_turn_cases (here : (w.turn call result).calls other = some t) :
    (other = call ∧ result.2 = some t) ∨ (other ≠ call ∧ w.calls other = some t) := by
  by_cases same : other = call
  · subst same
    exact .inl ⟨rfl, calls_turn_self.symm.trans here⟩
  · exact .inr ⟨same, (calls_turn_ne same).symm.trans here⟩

end Turn

end World

namespace Machine

variable (m : Machine σ κ τ ι χ)

/-- A call starts under a number that is free and goes on as long as it has not ended. -/
def step (w : World σ τ) : Event κ ι χ → Option (World σ τ)
  | .start call request input =>
    match w.calls call with
    | none => some (w.turn call (m.begin w.shared request input))
    | some _ => none
  | .go call input => (w.calls call).map fun t => w.turn call (m.advance w.shared t input)
  | .other what => some { w with shared := m.disturb w.shared what }

variable {m} {w w' : World σ τ}

theorem step_cases {e : Event κ ι χ} (happens : m.step w e = some w') :
    (∃ call request input, e = .start call request input ∧ w.calls call = none ∧
        w' = w.turn call (m.begin w.shared request input)) ∨
      (∃ call input t, e = .go call input ∧ w.calls call = some t ∧
        w' = w.turn call (m.advance w.shared t input)) ∨
      ∃ what, e = .other what ∧ w' = { w with shared := m.disturb w.shared what } := by
  cases e with
  | start call request input =>
    cases free : w.calls call with
    | none =>
      simp only [step, free, Option.some.injEq] at happens
      subst happens
      exact .inl ⟨call, request, input, rfl, free, rfl⟩
    | some t => simp [step, free] at happens
  | go call input =>
    obtain ⟨t, here, rfl⟩ := Option.map_eq_some_iff.mp happens
    exact .inr (.inl ⟨call, input, t, rfl, here, rfl⟩)
  | other what =>
    cases happens
    exact .inr (.inr ⟨what, rfl, rfl⟩)

section Rule

variable (inv : σ → Prop) (fits : σ → τ → Prop)

/-- The invariant holds of the state, and every call under way fits it. -/
structure Holds (w : World σ τ) : Prop where
  inv : inv w.shared
  fits : ∀ call t, w.calls call = some t → fits w.shared t

/-- A change keeps the invariant, leaves the one who made it at a stage that fits, and what fitted
before still does. -/
structure Keeps (before after : σ) (next : Option τ) : Prop where
  inv : inv after
  own : ∀ t, next = some t → fits after t
  others : ∀ t, fits before t → fits after t

variable {inv fits}

theorem holds_turn {call : Nat} {result : σ × Option τ} (holds : Holds inv fits w)
    (keeps : Keeps inv fits w.shared result.1 result.2) : Holds inv fits (w.turn call result) := by
  refine ⟨keeps.inv, fun other t here => ?_⟩
  rcases World.calls_turn_cases here with ⟨-, ends⟩ | ⟨-, before⟩
  · exact keeps.own t ends
  · exact keeps.others t (holds.fits other t before)

/-- What is owed for each kind of step, so that steps that satisfy `good` keep the invariant and
what the calls rely on. -/
structure Obeys (m : Machine σ κ τ ι χ) (inv : σ → Prop) (fits : σ → τ → Prop)
    (good : World σ τ → Event κ ι χ → Prop) : Prop where
  begin : ∀ w call request input, Holds inv fits w → good w (.start call request input) →
    Keeps inv fits w.shared (m.begin w.shared request input).1 (m.begin w.shared request input).2
  advance : ∀ w call t input, Holds inv fits w → w.calls call = some t → good w (.go call input) →
    Keeps inv fits w.shared (m.advance w.shared t input).1 (m.advance w.shared t input).2
  disturb : ∀ w what, Holds inv fits w → good w (.other what) →
    Keeps inv fits w.shared (m.disturb w.shared what) none

variable {good : World σ τ → Event κ ι χ → Prop}

theorem holds_step (obeys : Obeys m inv fits good) {e : Event κ ι χ} (holds : Holds inv fits w)
    (here : good w e) (happens : m.step w e = some w') : Holds inv fits w' := by
  rcases step_cases happens with ⟨call, request, input, rfl, -, rfl⟩ |
    ⟨call, input, t, rfl, under, rfl⟩ | ⟨what, rfl, rfl⟩
  · exact holds_turn holds (obeys.begin w call request input holds here)
  · exact holds_turn holds (obeys.advance w call t input holds under here)
  · have keeps := obeys.disturb w what holds here
    exact ⟨keeps.inv, fun call t under => keeps.others t (holds.fits call t under)⟩

end Rule

section Numbered

/-- Only calls with numbers below `n` are under way. -/
def Below (n : Nat) (w : World σ τ) : Prop := ∀ call, n ≤ call → w.calls call = none

/-- The event does not start a call with another number. -/
def startsBelow (n : Nat) : Event κ ι χ → Bool
  | .start call _ _ => decide (call < n)
  | _ => true

theorem below_of_idle (n : Nat) (idle : w.Idle) : Below n w := fun call _ => idle call

theorem below_step {n : Nat} {e : Event κ ι χ} (below : Below n w)
    (starts : startsBelow n e = true) (happens : m.step w e = some w') : Below n w' := by
  rcases step_cases happens with ⟨call, request, input, rfl, -, rfl⟩ |
    ⟨call, input, t, rfl, under, rfl⟩ | ⟨what, rfl, rfl⟩
  · intro other far
    rw [World.calls_turn_ne]
    · exact below other far
    · exact Nat.ne_of_gt (Nat.lt_of_lt_of_le (of_decide_eq_true starts) far)
  · intro other far
    rw [World.calls_turn_ne]
    · exact below other far
    · rintro rfl
      rw [below other far] at under
      cases under
  · exact below

/-- Every call under way satisfies the check. -/
def allCalls (n : Nat) (w : World σ τ) (check : Nat → τ → Bool) : Bool :=
  (List.range n).all fun call => (w.calls call).all (check call)

theorem allCalls_iff {n : Nat} (below : Below n w) {check : Nat → τ → Bool} :
    allCalls n w check = true ↔ ∀ call t, w.calls call = some t → check call t = true := by
  rw [allCalls, List.all_eq_true]
  constructor
  · intro all call t here
    have near : call < n := by
      by_contra far
      rw [below call (Nat.le_of_not_lt far)] at here
      cases here
    have checked := all call (List.mem_range.mpr near)
    rw [here] at checked
    exact checked
  · intro all call _
    cases here : w.calls call with
    | none => rfl
    | some t => exact all call t here

theorem stepsMeet_of_check {n : Nat} {good : World σ τ → Event κ ι χ → Prop}
    {check : World σ τ → Event κ ι χ → Bool}
    (sound : ∀ w e, Below n w → check w e = true → good w e) {es : List (Event κ ι χ)}
    (below : Below n w) (starts : es.all (startsBelow n) = true)
    (checked : StepsMeet m.step (fun w e => check w e = true) w es) :
    StepsMeet m.step good w es := by
  induction es generalizing w with
  | nil => trivial
  | cons e es ih =>
    rw [stepsMeet_cons_iff] at checked ⊢
    rw [List.all_cons, Bool.and_eq_true] at starts
    refine ⟨sound w e below checked.1, fun w' happens => ?_⟩
    exact ih (below_step below starts.1 happens) starts.2 (checked.2 w' happens)

end Numbered

end Machine

end Piltover.Foundation.Interleaved
