/- source: none (library)
   digest: Lists whose elements are judged by remembered places, the last place first. -/

import Mathlib.Data.List.Basic

set_option autoImplicit false

namespace Piltover.Foundation.Sweeps

universe u

variable {α β γ κ ε : Type u}

/-- The marks of a list, each with its place. -/
def marksFrom (mark : β → Option κ) : Nat → List β → List (κ × Nat)
  | _, [] => []
  | place, b :: l =>
    match mark b with
    | none => marksFrom mark (place + 1) l
    | some k => (k, place) :: marksFrom mark (place + 1) l

theorem marksFrom_append (mark : β → Option κ) (place : Nat) (front back : List β) :
    marksFrom mark place (front ++ back) =
      marksFrom mark place front ++ marksFrom mark (place + front.length) back := by
  induction front generalizing place with
  | nil => rfl
  | cons b front ih =>
    have further : place + (b :: front).length = place + 1 + front.length := by
      rw [List.length_cons]
      omega
    rw [List.cons_append, marksFrom, marksFrom, ih, further]
    cases mark b <;> rfl

theorem map_fst_marksFrom (mark : β → Option κ) (place : Nat) (l : List β) :
    (marksFrom mark place l).map (·.1) = l.filterMap mark := by
  induction l generalizing place with
  | nil => rfl
  | cons b l ih =>
    rw [marksFrom, List.filterMap_cons]
    cases mark b with
    | none => exact ih _
    | some k => exact congrArg (k :: ·) (ih _)

/-- What is at the place is changed, or removed. -/
def sweepStep (missing : ε) (judge : κ → α → Except ε (Option α)) (l : List α) (m : κ × Nat) :
    Except ε (List α) :=
  match l[m.2]? with
  | none => .error missing
  | some a => (judge m.1 a).map fun
      | none => l.eraseIdx m.2
      | some b => l.set m.2 b

/-- The remembered places from the last to the first. -/
def sweep (missing : ε) (judge : κ → α → Except ε (Option α)) (marks : List (κ × Nat))
    (l : List α) : Except ε (List α) :=
  marks.reverse.foldlM (sweepStep missing judge) l

/-- The elements judged one by one, the last one first. -/
def settle (entry : β → α) (mark : β → Option κ) (judge : κ → α → Except ε (Option α)) :
    List β → Except ε (List α)
  | [] => .ok []
  | b :: l =>
    match settle entry mark judge l, mark b with
    | .error e, _ => .error e
    | .ok rest, none => .ok (entry b :: rest)
    | .ok rest, some k => (judge k (entry b)).map fun kept => kept.toList ++ rest

/-- What becomes of an element. -/
def verdict (entry : β → α) (mark : β → Option κ) (judge : κ → α → Except ε (Option α)) (b : β) :
    Option α :=
  match mark b with
  | none => some (entry b)
  | some k =>
    match judge k (entry b) with
    | .error _ => none
    | .ok kept => kept

section

variable {entry : β → α} {mark : β → Option κ} {judge : κ → α → Except ε (Option α)} {missing : ε}

theorem foldlM_append_singleton {f : List α → κ × Nat → Except ε (List α)} {m : κ × Nat}
    {marks : List (κ × Nat)} {l : List α} :
    (marks ++ [m]).foldlM f l = (marks.foldlM f l >>= fun k => f k m) := by
  rw [List.foldlM_append]
  cases marks.foldlM f l with
  | error => rfl
  | ok k =>
    simp only [List.foldlM_cons, List.foldlM_nil]
    cases h : f k m <;> simp [bind, Except.bind, pure, Except.pure, h]

/-- Marks that stand at their elements judge each element where it is: removing an element does not
move those before it. -/
theorem sweep_marksFrom (front : List α) (l : List β) :
    sweep missing judge (marksFrom mark front.length l) (front ++ l.map entry) =
      (settle entry mark judge l).map (front ++ ·) := by
  induction l generalizing front with
  | nil => rfl
  | cons b l ih =>
    have shift : front ++ (b :: l).map entry = (front ++ [entry b]) ++ l.map entry := by
      rw [List.map_cons, List.append_assoc, List.singleton_append]
    have place : front.length + 1 = (front ++ [entry b]).length := by
      rw [List.length_append, List.length_singleton]
    rw [marksFrom, settle]
    cases marked : mark b with
    | none =>
      dsimp only
      rw [shift, place, ih]
      cases settle entry mark judge l with
      | error => rfl
      | ok rest =>
        exact congrArg Except.ok (List.append_assoc front [entry b] rest)
    | some k =>
      dsimp only
      rw [sweep, List.reverse_cons, foldlM_append_singleton, ← sweep, shift, place, ih]
      cases settle entry mark judge l with
      | error => rfl
      | ok rest =>
        have here : (front ++ [entry b] ++ rest)[front.length]? = some (entry b) := by
          rw [List.append_assoc, List.getElem?_append_right (Nat.le_refl _), Nat.sub_self]
          rfl
        show sweepStep missing judge (front ++ [entry b] ++ rest) (k, front.length) = _
        rw [sweepStep]
        dsimp only
        rw [here]
        dsimp only
        cases judge k (entry b) with
        | error => rfl
        | ok kept =>
          refine congrArg Except.ok ?_
          cases kept with
          | none =>
            dsimp only
            rw [List.append_assoc, List.eraseIdx_append_of_length_le (Nat.le_refl _),
              Nat.sub_self]
            rfl
          | some c =>
            dsimp only
            rw [List.append_assoc, List.set_append_right _ _ (Nat.le_refl _),
              Nat.sub_self]
            rfl

theorem verdict_of_none {b : β} (unmarked : mark b = none) :
    verdict entry mark judge b = some (entry b) := by
  rw [verdict, unmarked]

theorem verdict_of_some {b : β} {k : κ} (marked : mark b = some k) {kept : Option α}
    (judged : judge k (entry b) = .ok kept) : verdict entry mark judge b = kept := by
  rw [verdict, marked]
  dsimp only
  rw [judged]

/-- Where nothing raises, what is left are the verdicts. -/
theorem settle_eq_ok_iff {l : List β} {swept : List α} :
    settle entry mark judge l = .ok swept ↔
      (∀ b ∈ l, ∀ k, mark b = some k → ∃ kept, judge k (entry b) = .ok kept) ∧
        swept = l.filterMap (verdict entry mark judge) := by
  induction l generalizing swept with
  | nil =>
    constructor
    · intro same
      exact ⟨fun b mem => (nomatch mem), (Except.ok.inj same).symm⟩
    · rintro ⟨-, rfl⟩
      rfl
  | cons b l ih =>
    have split : (b :: l).filterMap (verdict entry mark judge) =
        (verdict entry mark judge b).toList ++ l.filterMap (verdict entry mark judge) := by
      rw [List.filterMap_cons]
      cases verdict entry mark judge b <;> rfl
    rw [settle, List.forall_mem_cons, split]
    cases rest : settle entry mark judge l with
    | error e =>
      constructor
      · exact fun same => nomatch same
      · rintro ⟨⟨-, later⟩, -⟩
        rw [ih.mpr ⟨later, rfl⟩] at rest
        cases rest
    | ok found =>
      obtain ⟨later, rfl⟩ := ih.mp rest
      cases marked : mark b with
      | none =>
        rw [verdict_of_none marked]
        constructor
        · intro same
          exact ⟨⟨fun k is => (nomatch is), later⟩, (Except.ok.inj same).symm⟩
        · rintro ⟨-, rfl⟩
          rfl
      | some k =>
        dsimp only
        cases judged : judge k (entry b) with
        | error e =>
          constructor
          · exact fun same => nomatch same
          · rintro ⟨⟨here, -⟩, -⟩
            obtain ⟨kept, is⟩ := here k rfl
            rw [judged] at is
            cases is
        | ok kept =>
          rw [verdict_of_some marked judged]
          constructor
          · intro same
            refine ⟨⟨fun j is => ?_, later⟩, (Except.ok.inj same).symm⟩
            cases is
            exact ⟨kept, judged⟩
          · rintro ⟨-, rfl⟩
            rfl

theorem error_of_sweep {marks : List (κ × Nat)} {l : List α} {e : ε}
    (raised : sweep missing judge marks l = .error e) :
    e = missing ∨ ∃ k a, judge k a = .error e := by
  rw [sweep] at raised
  generalize marks.reverse = marks at raised
  induction marks generalizing l with
  | nil => cases raised
  | cons m marks ih =>
    rw [List.foldlM_cons] at raised
    cases step : sweepStep missing judge l m with
    | ok k =>
      rw [step] at raised
      exact ih raised
    | error f =>
      rw [step] at raised
      cases raised
      rw [sweepStep] at step
      split at step
      case h_1 => cases step; exact .inl rfl
      case h_2 a here =>
          cases judged : judge m.1 a with
          | ok kept => rw [judged] at step; cases step
          | error g =>
            rw [judged] at step
            cases step
            exact .inr ⟨_, _, judged⟩

end

/-! ### Marks that are remembered while elements go -/

section

variable {mark : β → Option κ} {mark' : γ → Option κ} {keep : β → Option γ}

/-- Nothing marked stands behind what goes. -/
def Settled (mark : β → Option κ) (keep : β → Option γ) (l : List β) : Prop :=
  l.Pairwise (fun b c => keep b = none → mark c = none) ∧ ∀ b ∈ l, keep b = none → mark b = none

theorem marksFrom_eq_nil {l : List β} (unmarked : ∀ b ∈ l, mark b = none) (place : Nat) :
    marksFrom mark place l = [] := by
  induction l generalizing place with
  | nil => rfl
  | cons b l ih =>
    obtain ⟨here, later⟩ := List.forall_mem_cons.mp unmarked
    rw [marksFrom, here]
    exact ih later _

/-- The marks stand at their elements still when nothing went before them. -/
theorem marksFrom_filterMap {l : List β} (settled : Settled mark keep l)
    (same : ∀ b c, keep b = some c → mark' c = mark b) (place : Nat) :
    marksFrom mark' place (l.filterMap keep) = marksFrom mark place l := by
  induction l generalizing place with
  | nil => rfl
  | cons b l ih =>
    obtain ⟨pairs, own⟩ := settled
    obtain ⟨first, pairs⟩ := List.pairwise_cons.mp pairs
    obtain ⟨here, later⟩ := List.forall_mem_cons.mp own
    cases kept : keep b with
    | none =>
      have none_ : ∀ c ∈ l, mark c = none := fun c mem => first c mem kept
      have gone : ∀ d ∈ l.filterMap keep, mark' d = none := by
        intro d mem
        obtain ⟨c, listed, is⟩ := List.mem_filterMap.mp mem
        rw [same c d is]
        exact none_ c listed
      rw [List.filterMap_cons_none kept, marksFrom_eq_nil gone, marksFrom, here kept]
      exact (marksFrom_eq_nil none_ _).symm
    | some c =>
      rw [List.filterMap_cons_some kept, marksFrom, marksFrom, same b c kept,
        ih ⟨pairs, later⟩]

theorem places_of_settled {entry : β → γ} {l : List β}
    (kept : ∀ b ∈ l, ∀ k, mark b = some k → keep b = some (entry b))
    (settled : Settled mark keep l) {front front' : List γ} (even : front.length = front'.length)
    {m : κ × Nat} (mem : m ∈ marksFrom mark front.length l) :
    (front ++ l.filterMap keep)[m.2]? = (front' ++ l.map entry)[m.2]? := by
  induction l generalizing front front' with
  | nil => cases mem
  | cons b l ih =>
    obtain ⟨pairs, own⟩ := settled
    obtain ⟨first, pairs⟩ := List.pairwise_cons.mp pairs
    obtain ⟨here, later⟩ := List.forall_mem_cons.mp own
    obtain ⟨keptHere, keptLater⟩ := List.forall_mem_cons.mp kept
    rw [marksFrom] at mem
    cases gone : keep b with
    | none =>
      rw [here gone, marksFrom_eq_nil (fun c listed => first c listed gone)] at mem
      cases mem
    | some c =>
      have next (mem : m ∈ marksFrom mark (front.length + 1) l) :
          (front ++ (b :: l).filterMap keep)[m.2]? = (front' ++ (b :: l).map entry)[m.2]? := by
        have place : front.length + 1 = (front ++ [c]).length := by
          rw [List.length_append, List.length_singleton]
        have even' : (front ++ [c]).length = (front' ++ [entry b]).length := by
          rw [List.length_append, List.length_append, even]
          rfl
        rw [place] at mem
        have rest := ih keptLater ⟨pairs, later⟩ even' mem
        rwa [List.append_assoc, List.append_assoc, List.singleton_append,
          List.singleton_append, ← List.filterMap_cons_some gone, ← List.map_cons] at rest
      cases marked : mark b with
      | none =>
        rw [marked] at mem
        exact next mem
      | some k =>
        rw [marked] at mem
        rcases List.mem_cons.mp mem with rfl | mem
        · have same := keptHere k marked
          rw [gone] at same
          obtain rfl := Option.some.inj same
          rw [List.filterMap_cons_some gone, List.map_cons,
            List.getElem?_append_right (Nat.le_refl _),
            List.getElem?_append_right (Nat.le_of_eq even.symm), even]
          simp
        · exact next mem

theorem mem_marksFrom {front back : List β} {b : β} {k : κ} (marked : mark b = some k)
    (place : Nat) : (k, place + front.length) ∈ marksFrom mark place (front ++ b :: back) := by
  induction front generalizing place with
  | nil =>
    rw [List.nil_append, marksFrom, marked]
    exact List.mem_cons_self
  | cons c front ih =>
    have next := ih (place + 1)
    rw [Nat.add_assoc, Nat.add_comm 1] at next
    rw [List.cons_append, marksFrom]
    cases mark c with
    | none => exact next
    | some j => exact List.mem_cons_of_mem _ next

theorem exists_last_marked (mark : β → Option κ) (l : List β) :
    (∀ b ∈ l, mark b = none) ∨ ∃ front b back k, l = front ++ b :: back ∧ mark b = some k ∧
      ∀ c ∈ back, mark c = none := by
  induction l with
  | nil => exact .inl fun b mem => (nomatch mem)
  | cons b l ih =>
    rcases ih with none_ | ⟨front, c, back, k, rfl, marked, last⟩
    · cases marked : mark b with
      | none => exact .inl (List.forall_mem_cons.mpr ⟨marked, none_⟩)
      | some k => exact .inr ⟨[], b, l, k, rfl, marked, none_⟩
    · exact .inr ⟨b :: front, c, back, k, rfl, marked, last⟩

/-- When every remembered place has the element that it had, nothing marked stands behind what
goes. -/
theorem settled_of_places {l : List β} {entry : β → γ}
    (kept : ∀ b ∈ l, ∀ k, mark b = some k → keep b = some (entry b))
    (same : ∀ b c, keep b = some c → mark' c = mark b)
    (places : ∀ m ∈ marksFrom mark 0 l, (l.filterMap keep)[m.2]? = (l.map entry)[m.2]?) :
    Settled mark keep l := by
  have own : ∀ b ∈ l, keep b = none → mark b = none := by
    intro b mem gone
    cases marked : mark b with
    | none => rfl
    | some k =>
      rw [kept b mem k marked] at gone
      cases gone
  refine ⟨?_, own⟩
  rcases exists_last_marked mark l with none_ | ⟨front, c, back, k, rfl, marked, last⟩
  · exact List.pairwise_of_forall_mem_list fun b _ d mem _ => none_ d mem
  · have here := kept c (List.mem_append_right _ List.mem_cons_self) k marked
    have place : (k, 0 + front.length) ∈ marksFrom mark 0 (front ++ c :: back) :=
      mem_marksFrom marked 0
    rw [Nat.zero_add] at place
    have found := places (k, front.length) place
    dsimp only at found
    have there : ((front ++ c :: back).map entry)[front.length]? = some (entry c) := by
      have size : (front.map entry).length = front.length := List.length_map entry
      rw [List.map_append, List.getElem?_append_right (Nat.le_of_eq size), size, Nat.sub_self]
      rfl
    -- Had something gone before the last marked element, its place would have an unmarked one.
    have all : ∀ b ∈ front, (keep b).isSome := by
      by_contra lost
      have fewer : (front.filterMap keep).length < front.length := by
        refine Nat.lt_of_le_of_ne (List.length_filterMap_le keep front) fun same => lost ?_
        exact List.filterMap_length_eq_length.mp same
      obtain ⟨gap, beyond⟩ := Nat.exists_eq_add_of_lt fewer
      rw [there, List.filterMap_append, List.filterMap_cons_some here, beyond,
        List.getElem?_append_right (by omega)] at found
      have index : (front.filterMap keep).length + gap + 1 - (front.filterMap keep).length =
          gap + 1 := by omega
      rw [index, List.getElem?_cons_succ] at found
      obtain ⟨d, mem, is⟩ := List.mem_filterMap.mp (List.mem_of_getElem? found)
      have unmarked := last d mem
      rw [← same d _ is, same c _ here, marked] at unmarked
      cases unmarked
    rw [List.pairwise_append]
    refine ⟨?_, ?_, ?_⟩
    · exact List.pairwise_of_forall_mem_list fun b mem _ _ gone =>
        absurd (all b mem) (by rw [gone]; exact Bool.false_ne_true)
    · rw [List.pairwise_cons]
      refine ⟨fun d mem _ => last d mem, ?_⟩
      exact List.pairwise_of_forall_mem_list fun _ _ d mem _ => last d mem
    · intro b mem _ _ gone
      exact absurd (all b mem) (by rw [gone]; exact Bool.false_ne_true)

end

end Piltover.Foundation.Sweeps
