/- source: none (library)
   digest: Runs of a partial step function, guarded invariants, and exact guards. -/

import Mathlib.Data.List.Basic

set_option autoImplicit false

namespace Piltover.Foundation.Runs

universe u v

variable {σ : Type u} {ε : Type v}

/-- Let the events happen one after the other; `none` as soon as one cannot happen. -/
def runFrom (step : σ → ε → Option σ) : σ → List ε → Option σ
  | s, [] => some s
  | s, e :: es =>
    match step s e with
    | none => none
    | some t => runFrom step t es

/-- Every event of the run is met in a state that satisfies `good` with it. -/
def StepsMeet (step : σ → ε → Option σ) (good : σ → ε → Prop) : σ → List ε → Prop
  | _, [] => True
  | s, e :: es =>
    good s e ∧ match step s e with
      | none => True
      | some t => StepsMeet step good t es

instance decidableStepsMeet (step : σ → ε → Option σ) (good : σ → ε → Prop)
    [∀ s e, Decidable (good s e)] : ∀ s es, Decidable (StepsMeet step good s es)
  | _, [] => inferInstanceAs (Decidable True)
  | s, e :: es =>
    have : Decidable (match step s e with
        | none => True
        | some t => StepsMeet step good t es) :=
      match step s e with
      | none => inferInstanceAs (Decidable True)
      | some t => decidableStepsMeet step good t es
    inferInstanceAs (Decidable (good s e ∧ _))

variable {step : σ → ε → Option σ} {good : σ → ε → Prop} {inv : σ → Prop}

@[simp] theorem runFrom_nil (s : σ) : runFrom step s [] = some s := rfl

theorem runFrom_cons (s : σ) (e : ε) (es : List ε) :
    runFrom step s (e :: es) = (step s e).bind fun t => runFrom step t es := by
  rw [runFrom]
  cases step s e <;> rfl

theorem runFrom_cons_some {s t : σ} {e : ε} {es : List ε} :
    runFrom step s (e :: es) = some t ↔
      ∃ m, step s e = some m ∧ runFrom step m es = some t := by
  rw [runFrom_cons]
  exact Option.bind_eq_some_iff

theorem runFrom_total (goes : ∀ s e, ∃ t, step s e = some t) (s : σ) (es : List ε) :
    ∃ t, runFrom step s es = some t := by
  induction es generalizing s with
  | nil => exact ⟨s, rfl⟩
  | cons e es ih =>
    obtain ⟨m, happens⟩ := goes s e
    obtain ⟨t, run⟩ := ih m
    exact ⟨t, runFrom_cons_some.mpr ⟨m, happens, run⟩⟩

theorem stepsMeet_cons_iff {s : σ} {e : ε} {es : List ε} :
    StepsMeet step good s (e :: es) ↔
      good s e ∧ ∀ t, step s e = some t → StepsMeet step good t es := by
  rw [StepsMeet]
  cases step s e <;> simp

theorem stepsMeet_cons {s t : σ} {e : ε} {es : List ε} (happens : step s e = some t) :
    StepsMeet step good s (e :: es) ↔ good s e ∧ StepsMeet step good t es := by
  rw [stepsMeet_cons_iff]
  refine and_congr_right fun _ => ⟨fun later => later t happens, fun later m there => ?_⟩
  cases happens.symm.trans there
  exact later

theorem stepsMeet_and {right : σ → ε → Prop} {s : σ} {es : List ε} :
    StepsMeet step (fun s e => good s e ∧ right s e) s es ↔
      StepsMeet step good s es ∧ StepsMeet step right s es := by
  induction es generalizing s with
  | nil => exact ⟨fun _ => ⟨trivial, trivial⟩, fun _ => trivial⟩
  | cons e es ih =>
    simp only [stepsMeet_cons_iff, ih]
    constructor
    · rintro ⟨⟨here, here'⟩, later⟩
      exact ⟨⟨here, fun t happens => (later t happens).1⟩,
        here', fun t happens => (later t happens).2⟩
    · rintro ⟨⟨here, later⟩, here', later'⟩
      exact ⟨⟨here, here'⟩, fun t happens => ⟨later t happens, later' t happens⟩⟩

theorem stepsMeet_append {s t : σ} {front back : List ε} (run : runFrom step s front = some t) :
    StepsMeet step good s (front ++ back) ↔
      StepsMeet step good s front ∧ StepsMeet step good t back := by
  induction front generalizing s with
  | nil =>
    obtain rfl : s = t := by simpa using run
    exact ⟨fun meets => ⟨trivial, meets⟩, fun meets => meets.2⟩
  | cons e front ih =>
    obtain ⟨m, happens, rest⟩ := runFrom_cons_some.mp run
    rw [List.cons_append, stepsMeet_cons happens, stepsMeet_cons happens, ih rest, and_assoc]

/-- Two properties of steps that agree where the invariant holds, and that keep it, are met by the
same runs. -/
theorem stepsMeet_iff {right : σ → ε → Prop} (agree : ∀ s e, inv s → (right s e ↔ good s e))
    (keep : ∀ s e t, inv s → good s e → step s e = some t → inv t)
    {s : σ} (start : inv s) (es : List ε) :
    StepsMeet step right s es ↔ StepsMeet step good s es := by
  induction es generalizing s with
  | nil => exact Iff.rfl
  | cons e es ih =>
    rw [stepsMeet_cons_iff, stepsMeet_cons_iff, agree s e start]
    refine and_congr_right fun here => forall₂_congr fun t happens => ?_
    exact ih (keep s e t start here happens)

theorem run_invariant
    (keep : ∀ s e t, inv s → good s e → step s e = some t → inv t)
    {s t : σ} {es : List ε} (start : inv s) (meets : StepsMeet step good s es)
    (run : runFrom step s es = some t) : inv t := by
  induction es generalizing s with
  | nil =>
    obtain rfl : s = t := by simpa using run
    exact start
  | cons e es ih =>
    obtain ⟨m, happens, rest⟩ := runFrom_cons_some.mp run
    obtain ⟨here, later⟩ := (stepsMeet_cons happens).mp meets
    exact ih (keep s e m start here happens) later rest

theorem run_invariant_all (keep : ∀ s e t, inv s → step s e = some t → inv t)
    {s t : σ} {es : List ε} (start : inv s) (run : runFrom step s es = some t) : inv t := by
  induction es generalizing s with
  | nil =>
    obtain rfl : s = t := by simpa using run
    exact start
  | cons e es ih =>
    obtain ⟨m, happens, rest⟩ := runFrom_cons_some.mp run
    exact ih (keep s e m start happens) rest

/-- When good steps keep the invariant, any other step loses something and what is lost stays lost,
a run consists of good steps or has lost something at its end. -/
theorem run_meets_or_loses {lost : σ → Prop}
    (keep : ∀ s e t, inv s → good s e → step s e = some t → inv t)
    (loses : ∀ s e t, inv s → ¬ good s e → step s e = some t → lost t)
    (stays : ∀ s e t, lost s → step s e = some t → lost t)
    {s t : σ} {es : List ε} (start : inv s) (run : runFrom step s es = some t) :
    StepsMeet step good s es ∨ lost t := by
  induction es generalizing s with
  | nil => exact .inl trivial
  | cons e es ih =>
    obtain ⟨m, happens, rest⟩ := runFrom_cons_some.mp run
    rw [stepsMeet_cons happens]
    by_cases here : good s e
    · rcases ih (keep s e m start here happens) rest with later | gone
      · exact .inl ⟨here, later⟩
      · exact .inr gone
    · exact .inr (run_invariant_all stays (loses s e m start here happens) rest)

/-- The property holds in every state that the run passes through, the first one included. -/
def HoldsAlong (step : σ → ε → Option σ) (prop : σ → Prop) (s : σ) (es : List ε) : Prop :=
  ∀ pre t, pre <+: es → runFrom step s pre = some t → prop t

theorem holdsAlong_nil {prop : σ → Prop} {s : σ} :
    HoldsAlong step prop s [] ↔ prop s := by
  constructor
  · intro along
    exact along [] s (List.prefix_refl _) rfl
  · intro here pre t shorter run
    obtain rfl := List.prefix_nil.mp shorter
    obtain rfl : s = t := by simpa using run
    exact here

theorem holdsAlong_cons {prop : σ → Prop} {s t : σ} {e : ε} {es : List ε}
    (happens : step s e = some t) :
    HoldsAlong step prop s (e :: es) ↔ prop s ∧ HoldsAlong step prop t es := by
  constructor
  · intro along
    refine ⟨along [] s List.nil_prefix rfl, ?_⟩
    intro pre u shorter run
    exact along (e :: pre) u (List.cons_prefix_cons.mpr ⟨rfl, shorter⟩)
      (runFrom_cons_some.mpr ⟨t, happens, run⟩)
  · rintro ⟨here, along⟩ pre u shorter run
    cases pre with
    | nil =>
      obtain rfl : s = u := by simpa using run
      exact here
    | cons f pre =>
      obtain ⟨rfl, inner⟩ := List.cons_prefix_cons.mp shorter
      obtain ⟨m, happens', rest⟩ := runFrom_cons_some.mp run
      obtain rfl : t = m := Option.some.inj (happens.symm.trans happens')
      exact along pre u inner rest

theorem stepsMeet_of_holdsAlong {prop : σ → Prop} {s : σ} {es : List ε}
    (along : HoldsAlong step prop s es) :
    StepsMeet step (fun s e => prop s ∧ ∀ t, step s e = some t → prop t) s es := by
  induction es generalizing s with
  | nil => trivial
  | cons e es ih =>
    rw [stepsMeet_cons_iff]
    refine ⟨⟨along [] s List.nil_prefix rfl, fun t happens => ?_⟩, fun t happens => ?_⟩
    · exact ((holdsAlong_cons happens).mp along).2 [] t List.nil_prefix rfl
    · exact ih ((holdsAlong_cons happens).mp along).2

theorem holdsAlong_of_stepsMeet {prop : σ → Prop} (implies : ∀ s, inv s → prop s)
    (keep : ∀ s e t, inv s → good s e → step s e = some t → inv t)
    {s : σ} {es : List ε} (start : inv s) (meets : StepsMeet step good s es) :
    HoldsAlong step prop s es := by
  intro pre t shorter run
  induction pre generalizing s es with
  | nil =>
    obtain rfl : s = t := by simpa using run
    exact implies s start
  | cons e pre ih =>
    obtain ⟨m, happens, rest⟩ := runFrom_cons_some.mp run
    obtain ⟨tail, rfl⟩ := shorter
    obtain ⟨here, later⟩ := (stepsMeet_cons happens).mp meets
    exact ih (keep s e m start here happens) later (List.prefix_append pre tail) rest

theorem holdsAlong_of_keep {prop : σ → Prop} (implies : ∀ s, inv s → prop s)
    (keep : ∀ s e t, inv s → step s e = some t → inv t) {s : σ} {es : List ε} (start : inv s) :
    HoldsAlong step prop s es :=
  fun _ _ _ run => implies _ (run_invariant_all keep start run)

/-- The states before and after every step of the run are related. -/
def StepsKeep (step : σ → ε → Option σ) (rel : σ → σ → Prop) (s : σ) (es : List ε) : Prop :=
  ∀ pre e m t, pre ++ [e] <+: es → runFrom step s pre = some m → step m e = some t → rel m t

theorem runFrom_concat {s t : σ} {e : ε} {es : List ε} :
    runFrom step s (es ++ [e]) = some t ↔ ∃ m, runFrom step s es = some m ∧ step m e = some t := by
  induction es generalizing s with
  | nil => simp [runFrom_cons_some]
  | cons f es ih =>
    rw [List.cons_append, runFrom_cons_some]
    constructor
    · rintro ⟨m, first, rest⟩
      obtain ⟨n, run, last⟩ := ih.mp rest
      exact ⟨n, runFrom_cons_some.mpr ⟨m, first, run⟩, last⟩
    · rintro ⟨n, run, last⟩
      obtain ⟨m, first, rest⟩ := runFrom_cons_some.mp run
      exact ⟨m, first, ih.mpr ⟨n, rest, last⟩⟩

/-- Every step of the run does what is said of its event. -/
def EachStep (step : σ → ε → Option σ) (does : σ → ε → σ → Prop) (s : σ) (es : List ε) : Prop :=
  ∀ pre e m t, pre ++ [e] <+: es → runFrom step s pre = some m → step m e = some t → does m e t

theorem eachStep_cons {does : σ → ε → σ → Prop} {s t : σ} {e : ε} {es : List ε}
    (happens : step s e = some t) :
    EachStep step does s (e :: es) ↔ does s e t ∧ EachStep step does t es := by
  constructor
  · intro each
    refine ⟨each [] e s t (List.cons_prefix_cons.mpr ⟨rfl, List.nil_prefix⟩) rfl happens, ?_⟩
    intro pre f m n shorter run last
    exact each (e :: pre) f m n (List.cons_prefix_cons.mpr ⟨rfl, shorter⟩)
      (runFrom_cons_some.mpr ⟨t, happens, run⟩) last
  · rintro ⟨here, each⟩ pre f m n shorter run last
    cases pre with
    | nil =>
      obtain ⟨rfl, -⟩ := List.cons_prefix_cons.mp shorter
      obtain rfl : s = m := by simpa using run
      obtain rfl : t = n := Option.some.inj (happens.symm.trans last)
      exact here
    | cons g pre =>
      obtain ⟨rfl, inner⟩ := List.cons_prefix_cons.mp shorter
      obtain ⟨k, first, rest⟩ := runFrom_cons_some.mp run
      obtain rfl : t = k := Option.some.inj (happens.symm.trans first)
      exact each pre f m n inner rest last

/-- When good steps keep the invariant and do what is said of them, and any other step does not,
every step of a run does it exactly when all its steps are good. -/
theorem eachStep_iff_stepsMeet {does : σ → ε → σ → Prop}
    (keep : ∀ s e t, inv s → good s e → step s e = some t → inv t)
    (does_of : ∀ s e t, inv s → good s e → step s e = some t → does s e t)
    (breaks : ∀ s e t, inv s → ¬ good s e → step s e = some t → ¬ does s e t)
    {s t : σ} {es : List ε} (start : inv s) (run : runFrom step s es = some t) :
    EachStep step does s es ↔ StepsMeet step good s es := by
  induction es generalizing s with
  | nil =>
    refine ⟨fun _ => trivial, fun _ pre e m n shorter => ?_⟩
    simp at shorter
  | cons e es ih =>
    obtain ⟨m, happens, rest⟩ := runFrom_cons_some.mp run
    rw [eachStep_cons happens, stepsMeet_cons happens]
    constructor
    · rintro ⟨done, each⟩
      have here : good s e := by
        by_contra bad
        exact breaks s e m start bad happens done
      exact ⟨here, (ih (keep s e m start here happens) rest).mp each⟩
    · rintro ⟨here, later⟩
      exact ⟨does_of s e m start here happens,
        (ih (keep s e m start here happens) rest).mpr later⟩

theorem eachStep_of_stepsMeet {does : σ → ε → σ → Prop}
    (keep : ∀ s e t, inv s → good s e → step s e = some t → inv t)
    (does_of : ∀ s e t, inv s → good s e → step s e = some t → does s e t)
    {s : σ} {es : List ε} (start : inv s) (meets : StepsMeet step good s es) :
    EachStep step does s es := by
  rintro pre e m t ⟨tail, rfl⟩ run happens
  rw [List.append_assoc, stepsMeet_append run, List.singleton_append,
    stepsMeet_cons happens] at meets
  obtain ⟨before, here, -⟩ := meets
  exact does_of m e t (run_invariant keep start before run) here happens

theorem stepsKeep_of_stepsMeet {rel : σ → σ → Prop}
    (keep : ∀ s e t, inv s → good s e → step s e = some t → inv t)
    (relates : ∀ s e t, inv s → good s e → step s e = some t → rel s t)
    {s : σ} {es : List ε} (start : inv s) (meets : StepsMeet step good s es) :
    StepsKeep step rel s es :=
  have each : EachStep step (fun m _ t => rel m t) s es :=
    eachStep_of_stepsMeet keep relates start meets
  fun pre e m t shorter run happens => each pre e m t shorter run happens

/-- When good steps keep the invariant and any other step breaks the property, the property holds
all along a run exactly when every step of the run is good. -/
theorem holdsAlong_iff_stepsMeet {prop : σ → Prop}
    (implies : ∀ s, inv s → prop s)
    (keep : ∀ s e t, inv s → good s e → step s e = some t → inv t)
    (breaks : ∀ s e t, inv s → ¬ good s e → step s e = some t → ¬ prop t)
    {s t : σ} {es : List ε} (start : inv s) (run : runFrom step s es = some t) :
    HoldsAlong step prop s es ↔ StepsMeet step good s es := by
  induction es generalizing s with
  | nil => exact ⟨fun _ => trivial, fun _ => holdsAlong_nil.mpr (implies s start)⟩
  | cons e es ih =>
    obtain ⟨m, happens, rest⟩ := runFrom_cons_some.mp run
    rw [holdsAlong_cons happens, stepsMeet_cons happens]
    constructor
    · rintro ⟨_, along⟩
      have next : prop m := along [] m List.nil_prefix rfl
      have here : good s e := by
        by_contra bad
        exact breaks s e m start bad happens next
      exact ⟨here, (ih (keep s e m start here happens) rest).mp along⟩
    · rintro ⟨here, later⟩
      exact ⟨implies s start, (ih (keep s e m start here happens) rest).mpr later⟩

end Piltover.Foundation.Runs
