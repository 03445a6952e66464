/- source: none (library)
   digest: Calls that check first and let users in later, interleaved, under limits. -/

import Mathlib.Data.Finset.Card
import Mathlib.Data.Finset.Dedup
import Piltover.Foundation.Runs

set_option autoImplicit false

namespace Piltover.Foundation.Admission

open Piltover.Foundation.Runs

universe u

/-- A place with the states `σ`, the calls `κ` and what is left to do of a call that has passed its
check, `τ`. The users `υ` come in by doors `δ`, some of them with a pass `ι` that only so many may
use, and `θ` is the time. -/
structure Hall (σ κ τ χ υ δ ι θ : Type u) [DecidableEq υ] where
  check : σ → κ → Option τ
  commit : σ → τ → σ
  change : σ → χ → σ
  present : σ → Finset υ
  capacity : σ → Nat
  quota : σ → ι → Option Int
  pass : δ → Option ι
  mayEnter : σ → θ → δ → Bool
  comers : σ → τ → List (υ × δ)
  commit_present : ∀ s k, present (commit s k) = present s ∪ ((comers s k).map Prod.fst).toFinset
  comers_absent : ∀ s k, ∀ c ∈ comers s k, c.1 ∉ present s
  comers_nodup : ∀ s k, ((comers s k).map Prod.fst).Nodup
  commit_capacity : ∀ s k, capacity (commit s k) = capacity s
  commit_quota : ∀ s k i, quota (commit s k) i = quota s i
  change_present : ∀ s c, present (change s c) ⊆ present s
  change_capacity : ∀ s c, capacity (change s c) = capacity s
  change_quota : ∀ s c i, quota (change s c) i = quota s i

/-- Somebody came in, by a door that was open for it or not. -/
structure Entry (υ δ : Type u) where
  user : υ
  door : δ
  allowed : Bool
  deriving DecidableEq

/-- The place, the calls that have passed their checks with what is left to do of each, and who has
come in so far. -/
structure Site (σ κ τ υ δ : Type u) where
  state : σ
  pending : List (κ × τ)
  entered : List (Entry υ δ)

inductive Event (κ χ θ : Type u)
  | begin (call : κ)
  | finish (index : Nat) (now : θ)
  | change (c : χ)

variable {σ κ τ χ υ δ ι θ : Type u} [DecidableEq υ]

namespace Hall

variable (h : Hall σ κ τ χ υ δ ι θ)

/-- The entries of a commit. -/
def entries (s : σ) (k : τ) (now : θ) : List (Entry υ δ) :=
  (h.comers s k).map fun c => ⟨c.1, c.2, h.mayEnter s now c.2⟩

theorem card_commit (s : σ) (k : τ) :
    (h.present (h.commit s k)).card = (h.present s).card + (h.comers s k).length := by
  have apart : Disjoint (h.present s) ((h.comers s k).map Prod.fst).toFinset := by
    rw [Finset.disjoint_right]
    intro u listed
    obtain ⟨c, comes, rfl⟩ := List.mem_map.mp (List.mem_toFinset.mp listed)
    exact h.comers_absent s k c comes
  rw [h.commit_present, Finset.card_union_of_disjoint apart,
    List.toFinset_card_of_nodup (h.comers_nodup s k), List.length_map]

/-- Any call that has passed its check can go on at any time. -/
def step (site : Site σ κ τ υ δ) : Event κ χ θ → Option (Site σ κ τ υ δ)
  | .begin call =>
    match h.check site.state call with
    | none => some site
    | some k => some { site with pending := site.pending ++ [(call, k)] }
  | .finish index now =>
    match site.pending[index]? with
    | none => some site
    | some (_, k) => some
        { state := h.commit site.state k
          pending := site.pending.eraseIdx index
          entered := site.entered ++ h.entries site.state k now }
  | .change c => some { site with state := h.change site.state c }

variable [DecidableEq ι]

/-- The users who have come in with a pass. -/
def through (entered : List (Entry υ δ)) (i : ι) : Finset υ :=
  ((entered.filter fun e => h.pass e.door = some i).map Entry.user).toFinset

/-- There are no more users than the place has room for, all have come in by doors that were open
for them, and no pass was used by too many. -/
structure Limits (site : Site σ κ τ υ δ) : Prop where
  crowd : (h.present site.state).card ≤ h.capacity site.state
  allowed : ∀ e ∈ site.entered, e.allowed = true
  used : ∀ i l, h.quota site.state i = some l → (h.through site.entered i).card ≤ l.toNat

/-- No pass that the commit uses is used by too many then. -/
def PassesLast (site : Site σ κ τ υ δ) (k : τ) (now : θ) : Prop :=
  ∀ i l, h.quota site.state i = some l → (∃ c ∈ h.comers site.state k, h.pass c.2 = some i) →
    (h.through (site.entered ++ h.entries site.state k now) i).card ≤ l.toNat

/-- Whom the commit lets in has room, an open door, and a pass that is not used up. -/
structure Admits (site : Site σ κ τ υ δ) (k : τ) (now : θ) : Prop where
  room : h.comers site.state k ≠ [] →
    (h.present site.state).card + (h.comers site.state k).length ≤ h.capacity site.state
  doors : ∀ c ∈ h.comers site.state k, h.mayEnter site.state now c.2 = true
  passes : h.PassesLast site k now

/-- A commit finds that the checks of its call would still come out as they did, and is spared what
they leave open. -/
def Stands (spared : Site σ κ τ υ δ → τ → θ → Prop) (site : Site σ κ τ υ δ) : Event κ χ θ → Prop
  | .finish index now => ∀ call k, site.pending[index]? = some (call, k) →
    h.check site.state call = some k ∧ spared site k now
  | _ => True

variable {h} {site t : Site σ κ τ υ δ} {e : Event κ χ θ}

/-- A pass that no entry of the commit uses is used by nobody new. -/
theorem through_append {s : σ} {k : τ} {now : θ} {i : ι} {entered : List (Entry υ δ)}
    (unused : ¬ ∃ c ∈ h.comers s k, h.pass c.2 = some i) :
    h.through (entered ++ h.entries s k now) i = h.through entered i := by
  have none_ : (h.entries s k now).filter (fun e => h.pass e.door = some i) = [] := by
    rw [List.filter_eq_nil_iff]
    intro e listed same
    obtain ⟨c, comes, rfl⟩ := List.mem_map.mp listed
    exact unused ⟨c, comes, of_decide_eq_true same⟩
  rw [through, List.filter_append, none_, List.append_nil, ← through]

theorem limits_commit (limits : h.Limits site) (k : τ) (now : θ) (rest : List (κ × τ)) :
    h.Limits ⟨h.commit site.state k, rest, site.entered ++ h.entries site.state k now⟩ ↔
      h.Admits site k now := by
  constructor
  · intro after
    refine ⟨fun _ => ?_, fun c comes => ?_, fun i l quota _ => ?_⟩
    · have crowd := after.crowd
      rw [h.commit_capacity, card_commit] at crowd
      exact crowd
    · have entry : (⟨c.1, c.2, h.mayEnter site.state now c.2⟩ : Entry υ δ) ∈
          h.entries site.state k now := List.mem_map_of_mem comes
      exact after.allowed _ (List.mem_append_right _ entry)
    · exact after.used i l ((h.commit_quota site.state k i).trans quota)
  · intro admits
    refine ⟨?_, ?_, ?_⟩
    · rw [h.commit_capacity, card_commit]
      by_cases nobody : h.comers site.state k = []
      · rw [nobody]
        exact limits.crowd
      · exact admits.room nobody
    · intro e listed
      rcases List.mem_append.mp listed with old | new
      · exact limits.allowed e old
      · obtain ⟨c, comes, rfl⟩ := List.mem_map.mp new
        exact admits.doors c comes
    · intro i l quota
      have before : h.quota site.state i = some l := (h.commit_quota site.state k i).symm.trans quota
      by_cases usedNow : ∃ c ∈ h.comers site.state k, h.pass c.2 = some i
      · exact admits.passes i l before usedNow
      · show (h.through (site.entered ++ h.entries site.state k now) i).card ≤ l.toNat
        rw [through_append usedNow]
        exact limits.used i l before

omit [DecidableEq ι] in
theorem length_comers_le {s : σ} {k : τ} {asked : List υ}
    (among : ∀ c ∈ h.comers s k, c.1 ∈ asked) : (h.comers s k).length ≤ asked.length := by
  have listed : (h.comers s k).map Prod.fst ⊆ asked := by
    intro u named
    obtain ⟨c, comes, rfl⟩ := List.mem_map.mp named
    exact among c comes
  have fewer := ((h.comers_nodup s k).subperm listed).length_le
  rwa [List.length_map] at fewer

theorem passesLast_of_passless {k : τ} {now : θ}
    (passless : ∀ c ∈ h.comers site.state k, h.pass c.2 = none) : h.PassesLast site k now := by
  rintro i l - ⟨c, comes, used⟩
  rw [passless c comes] at used
  cases used

theorem admits_nobody {k : τ} {now : θ} (nobody : h.comers site.state k = []) :
    h.Admits site k now := by
  refine ⟨fun some_ => absurd nobody some_, fun c comes => ?_, passesLast_of_passless fun c comes => ?_⟩
  · rw [nobody] at comes
    cases comes
  · rw [nobody] at comes
    cases comes

/-- A single user is let in by an open door where the place is not just full. -/
theorem admits_single (limits : h.Limits site) {k : τ} {now : θ} {u : υ} {d : δ}
    (comers : h.comers site.state k = [(u, d)]) :
    h.Admits site k now ↔ (h.present site.state).card ≠ h.capacity site.state ∧
      h.mayEnter site.state now d = true ∧ h.PassesLast site k now := by
  constructor
  · intro admits
    have fits := admits.room (by rw [comers]; exact List.cons_ne_nil _ _)
    have door := admits.doors (u, d) (by rw [comers]; exact List.mem_singleton_self _)
    rw [comers] at fits
    exact ⟨Nat.ne_of_lt fits, door, admits.passes⟩
  · rintro ⟨apart, open_, last⟩
    refine ⟨fun _ => ?_, fun c comes => ?_, last⟩
    · rw [comers]
      exact Nat.lt_of_le_of_ne limits.crowd apart
    · rw [comers] at comes
      obtain rfl := List.mem_singleton.mp comes
      exact open_

/-- The limits are kept by every step, if a commit keeps them. -/
theorem limits_step (limits : h.Limits site) (happens : h.step site e = some t)
    (admits : ∀ index now, e = .finish index now → ∀ call k,
      site.pending[index]? = some (call, k) → h.Admits site k now) : h.Limits t := by
  cases e with
  | begin call =>
    simp only [step] at happens
    split at happens
    · cases happens
      exact limits
    · cases happens
      exact ⟨limits.crowd, limits.allowed, limits.used⟩
  | finish index now =>
    simp only [step] at happens
    split at happens
    · cases happens
      exact limits
    · next call k found =>
        cases happens
        exact (limits_commit limits k now _).mpr (admits index now rfl call k found)
  | change c =>
    cases happens
    refine ⟨?_, limits.allowed, fun i l quota => ?_⟩
    · show (h.present (h.change site.state c)).card ≤ h.capacity (h.change site.state c)
      rw [h.change_capacity]
      exact (Finset.card_le_card (h.change_present site.state c)).trans limits.crowd
    · exact limits.used i l ((h.change_quota site.state c i).symm.trans quota)

/-- Where what the checks leave open is all that they leave open, the limits hold along every run
whose commits stand, however the calls are interleaved. -/
theorem limitsAlong {spared : Site σ κ τ υ δ → τ → θ → Prop}
    (enough : ∀ {site call k} now, h.Limits site → h.check site.state call = some k →
      spared site k now → h.Admits site k now)
    (start : h.Limits site) {es : List (Event κ χ θ)}
    (meets : StepsMeet h.step (h.Stands spared) site es) :
    HoldsAlong h.step h.Limits site es := by
  refine holdsAlong_of_stepsMeet (fun _ limits => limits) ?_ start meets
  intro s e t limits stands happens
  refine limits_step limits happens fun index now same call k found => ?_
  subst same
  obtain ⟨checked, spares⟩ := stands call k found
  exact enough now limits checked spares

end Hall

end Piltover.Foundation.Admission
