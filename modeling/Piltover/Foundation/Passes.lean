/- source: none (library)
   digest: Texts rewritten by passes that take the delimiters out; where earlier finds are then. -/

import Mathlib.Algebra.Ring.Nat
import Mathlib.Data.List.Forall2
import Piltover.Foundation.Matching

set_option autoImplicit false

namespace Piltover.Foundation.Matching

universe u v

variable {σ : Type u} {α : Type v}

/-- A pattern, and the part of a match that is left in the text: where it begins and how long it
is. -/
structure Pass (σ : Type u) (α : Type v) where
  pattern : Pattern σ α
  start : α → Nat
  size : α → Nat

namespace Pass

/-- The part of a match that is left. -/
def content (p : Pass σ α) (a : α) (raw : List σ) : List σ := (raw.drop (p.start a)).take (p.size a)

def kept (p : Pass σ α) : Token σ α → List σ
  | .plain c => [c]
  | .found a raw => p.content a raw

/-- The text that a pass leaves. -/
def output (p : Pass σ α) (text : List σ) : List σ := (tokens p.pattern none text).flatMap p.kept

/-- The matches that leave something: what is before it in the text that the pass leaves, and what
is left of the match. -/
def spansFrom (p : Pass σ α) : List σ → List (Token σ α) → List (List σ × List σ)
  | _, [] => []
  | before, .plain c :: ts => p.spansFrom (before ++ [c]) ts
  | before, .found a raw :: ts =>
    if (p.content a raw).isEmpty then p.spansFrom before ts
    else (before, p.content a raw) :: p.spansFrom (before ++ p.content a raw) ts

def spans (p : Pass σ α) (text : List σ) : List (List σ × List σ) :=
  p.spansFrom [] (tokens p.pattern none text)

/-- Where the matches of a text begin. -/
def beginsFrom : Nat → List (Token σ α) → List Nat
  | _, [] => []
  | pos, .plain _ :: ts => beginsFrom (pos + 1) ts
  | pos, .found _ raw :: ts => pos :: beginsFrom (pos + raw.length) ts

def begins (p : Pass σ α) (text : List σ) : List Nat := beginsFrom 0 (tokens p.pattern none text)

/-- The symbols of a token, each with whether it is left in the text. -/
def mark (p : Pass σ α) : Token σ α → List (σ × Bool)
  | .plain c => [(c, true)]
  | .found a raw =>
    (raw.take (p.start a)).map (·, false) ++ ((p.content a raw).map (·, true) ++
      (raw.drop (p.start a + p.size a)).map (·, false))

def marks (p : Pass σ α) (text : List σ) : List (σ × Bool) :=
  (tokens p.pattern none text).flatMap p.mark

/-- The symbols that are left. -/
def survivors (marked : List (σ × Bool)) : List σ := (marked.filter (·.2)).map (·.1)

/-- What a pass leaves of the first `n` symbols of a text. -/
def leftOf (p : Pass σ α) (text : List σ) (n : Nat) : List σ := survivors ((p.marks text).take n)

/-- A match has symbols, and some of them are before the part that is left. -/
def Removes (p : Pass σ α) : Prop := ∀ {prev : Option σ} {text : List σ} {a : α} {n : Nat},
  p.pattern prev text = some (a, n) → 0 < p.start a ∧ 0 < n

end Pass

/-! ### Several passes -/

/-- The text that passes leave. -/
def outputs : List (Pass σ α) → List σ → List σ
  | [], text => text
  | p :: ps, text => outputs ps (p.output text)

/-- What passes leave of the first `n` symbols of a text. -/
def leftAfter : List (Pass σ α) → List σ → Nat → List σ
  | [], text, n => text.take n
  | p :: ps, text, n => leftAfter ps (p.output text) (p.leftOf text n).length

/-- The finds of each pass, in its own text. -/
def found : List (Pass σ α) → List σ → List (List σ × List σ)
  | [], _ => []
  | p :: ps, text => p.spans text ++ found ps (p.output text)

/-- A find of a text, after the passes that follow. -/
def moved (ps : List (Pass σ α)) (text : List σ) (span : List σ × List σ) : List σ × List σ :=
  let before := leftAfter ps text span.1.length
  (before, (leftAfter ps text (span.1.length + span.2.length)).drop before.length)

/-- The finds of each pass, in the text that all of them leave. -/
def placed : List (Pass σ α) → List σ → List (List σ × List σ)
  | [], _ => []
  | p :: ps, text => (p.spans text).map (moved ps (p.output text)) ++ placed ps (p.output text)

/-- No pass finds a match that begins in the first `n` symbols. -/
def Untouched : List (Pass σ α) → List σ → Nat → Prop
  | [], _, _ => True
  | p :: ps, text, n => (∀ pos ∈ p.begins text, n ≤ pos) ∧ Untouched ps (p.output text) n

/-- No pass finds a match that begins before the end of what an earlier one found. -/
def Undisturbed : List (Pass σ α) → List σ → Prop
  | [], _ => True
  | p :: ps, text =>
    (∀ span ∈ p.spans text, Untouched ps (p.output text) (span.1.length + span.2.length)) ∧
      Undisturbed ps (p.output text)

/-! ### What a pass leaves -/

section

variable {p : Pass σ α} {text : List σ}

theorem Token.raw_flatMap_tokensFrom {m : Pattern σ α}
    (some : ∀ {prev text a n}, m prev text = .some (a, n) → 0 < n) (skip : Nat) (prev : Option σ)
    (text : List σ) : (tokensFrom m skip prev text).flatMap Token.raw = text.drop skip := by
  induction text generalizing skip prev with
  | nil => rw [tokensFrom, List.drop_nil]; rfl
  | cons c cs ih =>
    cases skip with
    | succ skip => rw [tokensFrom, ih, List.drop_succ_cons]
    | zero =>
      rw [tokensFrom]
      split
      case h_1 => rw [List.flatMap_cons, ih]; rfl
      case h_2 a n here =>
          obtain ⟨k, rfl⟩ := Nat.exists_eq_succ_of_ne_zero (Nat.ne_of_gt (some here))
          rw [List.flatMap_cons, ih, Nat.succ_sub_one, raw, List.take_succ_cons,
            List.cons_append, List.take_append_drop]
          rfl

namespace Pass

theorem survivors_append {l k : List (σ × Bool)} :
    survivors (l ++ k) = survivors l ++ survivors k := by
  rw [survivors, List.filter_append, List.map_append, survivors, survivors]

theorem survivors_mark (t : Token σ α) : survivors (p.mark t) = p.kept t := by
  have gone (l : List σ) : survivors (l.map (·, false)) = [] := by
    induction l with
    | nil => rfl
    | cons c l ih => exact ih
  have left (l : List σ) : survivors (l.map (·, true)) = l := by
    induction l with
    | nil => rfl
    | cons c l ih => exact congrArg (c :: ·) ih
  cases t with
  | plain c => rfl
  | found a raw =>
    rw [mark, survivors_append, survivors_append, gone, gone, left, List.nil_append,
      List.append_nil, kept]

theorem survivors_marks : survivors (p.marks text) = p.output text := by
  rw [marks, output]
  induction tokens p.pattern none text with
  | nil => rfl
  | cons t ts ih => rw [List.flatMap_cons, survivors_append, survivors_mark, ih, List.flatMap_cons]

theorem fst_mark (t : Token σ α) : (p.mark t).map (·.1) = t.raw := by
  have same (l : List σ) (b : Bool) : (l.map (·, b)).map (·.1) = l := by
    rw [List.map_map]
    exact List.map_id l
  cases t with
  | plain c => rfl
  | found a raw =>
    rw [mark, List.map_append, List.map_append, same, same, same, content, ← List.drop_drop,
      List.take_append_drop, List.take_append_drop, Token.raw]

theorem fst_marks (removes : p.Removes) : (p.marks text).map (·.1) = text := by
  have raws := Token.raw_flatMap_tokensFrom (m := p.pattern) (fun here => (removes here).2) 0 none
    text
  rw [List.drop_zero] at raws
  rw [marks, List.map_flatMap]
  simp only [fst_mark]
  exact raws

theorem leftOf_prefix (n : Nat) : p.leftOf text n <+: p.output text := by
  rw [← survivors_marks]
  exact ((List.take_prefix n _).filter _).map _

theorem leftOf_mono {n k : Nat} (le : n ≤ k) : p.leftOf text n <+: p.leftOf text k :=
  ((List.take_prefix_take_left le).filter _).map _

theorem leftOf_sublist (removes : p.Removes) (n : Nat) :
    (p.leftOf text n).Sublist (text.take n) := by
  have first : ((p.marks text).take n).map (·.1) = text.take n := by
    rw [List.map_take, fst_marks removes]
  rw [← first]
  exact List.filter_sublist.map _

theorem survivors_eq_iff {l : List (σ × Bool)} :
    survivors l = l.map (·.1) ↔ ∀ m ∈ l, m.2 = true := by
  constructor
  · intro same m mem
    have all : l.filter (·.2) = l := by
      apply List.filter_sublist.eq_of_length
      have lengths := congrArg List.length same
      rwa [survivors, List.length_map, List.length_map] at lengths
    rw [← all] at mem
    exact (List.mem_filter.mp mem).2
  · intro all
    rw [survivors, List.filter_eq_self.mpr all]

theorem le_of_mem_beginsFrom {ts : List (Token σ α)} {pos first : Nat}
    (mem : pos ∈ beginsFrom first ts) : first ≤ pos := by
  induction ts generalizing first with
  | nil => cases mem
  | cons t ts ih =>
    cases t with
    | plain c => exact Nat.le_of_succ_le (ih mem)
    | found a raw =>
      rcases List.mem_cons.mp mem with rfl | mem
      · exact Nat.le_refl _
      · exact Nat.le_trans (Nat.le_add_right _ _) (ih mem)

theorem beginsFrom_iff {ts : List (Token σ α)}
    (opens : ∀ a raw, .found a raw ∈ ts → 0 < p.start a ∧ raw ≠ []) (first n : Nat) :
    (∀ pos ∈ beginsFrom first ts, first + n ≤ pos) ↔
      ∀ m ∈ (ts.flatMap p.mark).take n, m.2 = true := by
  induction ts generalizing first n with
  | nil =>
    have none : ([] : List (Token σ α)).flatMap p.mark = [] := rfl
    rw [none, List.take_nil]
    exact ⟨fun _ _ mem => (by cases mem), fun _ _ mem => (by cases mem)⟩
  | cons t ts ih =>
    have later := ih fun a raw mem => opens a raw (List.mem_cons_of_mem _ mem)
    cases n with
    | zero =>
      rw [List.take_zero, Nat.add_zero]
      exact ⟨fun _ _ mem => (by cases mem), fun _ _ mem => le_of_mem_beginsFrom mem⟩
    | succ n =>
      rw [List.flatMap_cons]
      cases t with
      | plain c =>
        rw [mark, List.singleton_append, List.take_succ_cons, List.forall_mem_cons,
          ← later (first + 1) n, beginsFrom, Nat.add_assoc first 1 n, Nat.add_comm 1 n]
        exact ⟨fun all => ⟨rfl, all⟩, fun all => all.2⟩
      | found a raw =>
        obtain ⟨before, some⟩ := opens a raw List.mem_cons_self
        obtain ⟨c, cs, rfl⟩ := List.exists_cons_of_ne_nil some
        obtain ⟨k, start⟩ := Nat.exists_eq_succ_of_ne_zero (Nat.ne_of_gt before)
        constructor
        · intro all
          have here := all first List.mem_cons_self
          omega
        · intro all
          rw [mark, start, List.take_succ_cons, List.map_cons, List.cons_append,
            List.cons_append, List.take_succ_cons, List.forall_mem_cons] at all
          exact absurd all.1 Bool.false_ne_true

theorem opens_of_mem_tokensFrom (removes : p.Removes) {skip : Nat} {prev : Option σ}
    {text : List σ} {a : α} {raw : List σ}
    (mem : .found a raw ∈ tokensFrom p.pattern skip prev text) :
    0 < p.start a ∧ raw ≠ [] := by
  induction text generalizing skip prev with
  | nil => rw [tokensFrom] at mem; cases mem
  | cons c cs ih =>
    cases skip with
    | succ skip => exact ih mem
    | zero =>
      rw [tokensFrom] at mem
      split at mem
      case h_1 =>
          rcases List.mem_cons.mp mem with same | mem
          · cases same
          · exact ih mem
      case h_2 b n here =>
          rcases List.mem_cons.mp mem with same | mem
          · cases same
            obtain ⟨before, pos⟩ := removes here
            obtain ⟨k, rfl⟩ := Nat.exists_eq_succ_of_ne_zero (Nat.ne_of_gt pos)
            exact ⟨before, List.cons_ne_nil _ _⟩
          · exact ih mem

theorem leftOf_eq_take_iff (removes : p.Removes) (n : Nat) :
    p.leftOf text n = text.take n ↔ ∀ pos ∈ p.begins text, n ≤ pos := by
  have first : ((p.marks text).take n).map (·.1) = text.take n := by
    rw [List.map_take, fst_marks removes]
  have none : (∀ pos ∈ beginsFrom 0 (tokens p.pattern none text), 0 + n ≤ pos) ↔
      ∀ m ∈ ((tokens p.pattern none text).flatMap p.mark).take n, m.2 = true :=
    beginsFrom_iff (fun a raw mem => opens_of_mem_tokensFrom removes mem) 0 n
  rw [Nat.zero_add] at none
  rw [← first, leftOf, survivors_eq_iff, begins, none, marks]

theorem mem_spansFrom {ts : List (Token σ α)} {before : List σ} {span : List σ × List σ}
    (mem : span ∈ p.spansFrom before ts) :
    span.1 ++ span.2 <+: before ++ ts.flatMap p.kept := by
  induction ts generalizing before with
  | nil => cases mem
  | cons t ts ih =>
    rw [List.flatMap_cons, ← List.append_assoc]
    cases t with
    | plain c => exact ih mem
    | found a raw =>
      rw [spansFrom] at mem
      split at mem
      case isTrue empty =>
          rw [kept, List.isEmpty_iff.mp empty, List.append_nil]
          exact ih mem
      case isFalse =>
          rcases List.mem_cons.mp mem with rfl | mem
          · exact List.prefix_append _ _
          · exact ih mem

theorem mem_spans {span : List σ × List σ} (mem : span ∈ p.spans text) :
    span.1 ++ span.2 <+: p.output text := mem_spansFrom mem

end Pass

end

/-! ### What passes leave -/

section

variable {ps : List (Pass σ α)} {text : List σ}

theorem leftAfter_prefix (ps : List (Pass σ α)) (text : List σ) (n : Nat) :
    leftAfter ps text n <+: outputs ps text := by
  induction ps generalizing text n with
  | nil => exact List.take_prefix n text
  | cons p ps ih => exact ih _ _

theorem leftAfter_mono {n k : Nat} (le : n ≤ k) :
    leftAfter ps text n <+: leftAfter ps text k := by
  induction ps generalizing text n k with
  | nil => exact List.take_prefix_take_left le
  | cons p ps ih => exact ih (Pass.leftOf_mono le).length_le

theorem take_length_leftOf {p : Pass σ α} (n : Nat) :
    (p.output text).take (p.leftOf text n).length = p.leftOf text n :=
  (List.prefix_iff_eq_take.mp (Pass.leftOf_prefix n)).symm

theorem leftAfter_sublist (removes : ∀ p ∈ ps, p.Removes) (n : Nat) :
    (leftAfter ps text n).Sublist (text.take n) := by
  induction ps generalizing text n with
  | nil => exact List.Sublist.refl _
  | cons p ps ih =>
    obtain ⟨first, others⟩ := List.forall_mem_cons.mp removes
    have later : (leftAfter ps (p.output text) (p.leftOf text n).length).Sublist
        ((p.output text).take (p.leftOf text n).length) := ih others _
    rw [take_length_leftOf] at later
    exact later.trans (Pass.leftOf_sublist first n)

theorem leftAfter_eq_take_iff (removes : ∀ p ∈ ps, p.Removes) (n : Nat) (long : n ≤ text.length) :
    leftAfter ps text n = text.take n ↔ Untouched ps text n := by
  induction ps generalizing text n with
  | nil => exact ⟨fun _ => trivial, fun _ => rfl⟩
  | cons p ps ih =>
    obtain ⟨first, others⟩ := List.forall_mem_cons.mp removes
    have here : p.leftOf text n = text.take n ↔ ∀ pos ∈ p.begins text, n ≤ pos :=
      Pass.leftOf_eq_take_iff first n
    have later : leftAfter ps (p.output text) (p.leftOf text n).length = p.leftOf text n ↔
        Untouched ps (p.output text) (p.leftOf text n).length := by
      have next := ih others (p.leftOf text n).length (Pass.leftOf_prefix n).length_le
      rwa [take_length_leftOf] at next
    have count (all : p.leftOf text n = text.take n) : (p.leftOf text n).length = n := by
      rw [all, List.length_take_of_le long]
    constructor
    · intro same
      have sub : (leftAfter (p :: ps) text n).Sublist (p.leftOf text n) := by
        have sublist : (leftAfter ps (p.output text) (p.leftOf text n).length).Sublist
            ((p.output text).take (p.leftOf text n).length) := leftAfter_sublist others _
        rwa [take_length_leftOf] at sublist
      rw [same] at sub
      have all := (Pass.leftOf_sublist first n).antisymm sub
      rw [count all] at later
      rw [leftAfter, count all] at same
      exact ⟨here.mp all, later.mp (same.trans all.symm)⟩
    · rintro ⟨clear, untouched⟩
      have all := here.mpr clear
      rw [count all] at later
      rw [leftAfter, count all, later.mpr untouched, all]

theorem Untouched.of_le {n k : Nat} (untouched : Untouched ps text k) (le : n ≤ k) :
    Untouched ps text n := by
  induction ps generalizing text with
  | nil => trivial
  | cons p ps ih => exact ⟨fun pos mem => Nat.le_trans le (untouched.1 pos mem), ih untouched.2⟩

/-- A find is still in the text at its new place. -/
theorem moved_append (ps : List (Pass σ α)) (text : List σ) (span : List σ × List σ) :
    (moved ps text span).1 ++ (moved ps text span).2 =
      leftAfter ps text (span.1.length + span.2.length) := by
  have grows : leftAfter ps text span.1.length <+:
      leftAfter ps text (span.1.length + span.2.length) := leftAfter_mono (Nat.le_add_right _ _)
  obtain ⟨rest, whole⟩ := grows
  rw [moved, ← whole, List.drop_left]

theorem mem_placed {span : List σ × List σ} (mem : span ∈ placed ps text) :
    span.1 ++ span.2 <+: outputs ps text := by
  induction ps generalizing text with
  | nil => cases mem
  | cons p ps ih =>
    rcases List.mem_append.mp mem with mem | mem
    · obtain ⟨first, _, rfl⟩ := List.mem_map.mp mem
      rw [moved_append]
      exact leftAfter_prefix ps _ _
    · exact ih mem

/-! ### Symbols of any width -/

variable {width : σ → Nat}

/-- How wide a text is. -/
def total (width : σ → Nat) (text : List σ) : Nat := (text.map width).sum

theorem total_append {l k : List σ} : total width (l ++ k) = total width l + total width k := by
  rw [total, List.map_append, List.sum_append, total, total]

theorem total_of_sublist (wide : ∀ c, 0 < width c) {l k : List σ} (sub : l.Sublist k) :
    total width l ≤ total width k ∧ (total width l = total width k → l = k) := by
  have cons (c : σ) (l : List σ) : total width (c :: l) = width c + total width l := rfl
  induction sub with
  | slnil => exact ⟨Nat.le_refl _, fun _ => rfl⟩
  | cons c sub ih =>
    have symbol := wide c
    rw [cons]
    exact ⟨by omega, fun same => by omega⟩
  | cons_cons c sub ih =>
    rw [cons, cons]
    exact ⟨by omega, fun same => congrArg (c :: ·) (ih.2 (by omega))⟩

theorem moved_iff (wide : ∀ c, 0 < width c) (removes : ∀ p ∈ ps, p.Removes)
    {span : List σ × List σ} (inside : span.1 ++ span.2 <+: text) :
    (total width (moved ps text span).1 = total width span.1 ∧
      total width (moved ps text span).2 = total width span.2) ↔
      Untouched ps text (span.1.length + span.2.length) := by
  obtain ⟨rest, rfl⟩ := inside
  have whole : (span.1 ++ span.2 ++ rest).take (span.1.length + span.2.length) =
      span.1 ++ span.2 := by rw [← List.length_append, List.take_left]
  have long : span.1.length + span.2.length ≤ (span.1 ++ span.2 ++ rest).length := by
    rw [List.length_append, List.length_append]
    exact Nat.le_add_right _ _
  have all := leftAfter_eq_take_iff removes _ long
  rw [whole] at all
  constructor
  · rintro ⟨offset, length⟩
    have sub : (leftAfter ps (span.1 ++ span.2 ++ rest) (span.1.length + span.2.length)).Sublist
        ((span.1 ++ span.2 ++ rest).take (span.1.length + span.2.length)) :=
      leftAfter_sublist removes _
    rw [whole] at sub
    apply all.mp
    apply (total_of_sublist wide sub).2
    rw [← moved_append, total_append, total_append, offset, length]
  · intro untouched
    have short : (span.1 ++ span.2 ++ rest).take span.1.length = span.1 := by
      rw [List.append_assoc, List.take_left]
    have before := (leftAfter_eq_take_iff removes span.1.length (by omega)).mpr
      (untouched.of_le (Nat.le_add_right _ _))
    rw [short] at before
    rw [moved, before, all.mpr untouched, List.drop_left]
    exact ⟨rfl, rfl⟩

theorem forall₂_map_append {β γ : Type v} {R : γ → β → Prop} {f : β → γ} {l m : List β}
    {k : List γ} : List.Forall₂ R (l.map f ++ k) (l ++ m) ↔
      (∀ b ∈ l, R (f b) b) ∧ List.Forall₂ R k m := by
  induction l with
  | nil => exact ⟨fun all => ⟨fun _ mem => (by cases mem), all⟩, fun all => all.2⟩
  | cons b l ih =>
    rw [List.map_cons, List.cons_append, List.cons_append, List.forall₂_cons, ih,
      List.forall_mem_cons, and_assoc]

/-- The finds are where they were said to be exactly when no pass finds a match that begins before
the end of what an earlier one found. -/
theorem placed_iff (wide : ∀ c, 0 < width c) (removes : ∀ p ∈ ps, p.Removes) :
    List.Forall₂ (fun last first => total width last.1 = total width first.1 ∧
      total width last.2 = total width first.2) (placed ps text) (found ps text) ↔
      Undisturbed ps text := by
  induction ps generalizing text with
  | nil => exact ⟨fun _ => trivial, fun _ => .nil⟩
  | cons p ps ih =>
    obtain ⟨first, others⟩ := List.forall_mem_cons.mp removes
    rw [found, placed, forall₂_map_append, ih others, Undisturbed]
    apply and_congr_left'
    exact forall₂_congr fun span mem => moved_iff wide others (Pass.mem_spans mem)

end

end Piltover.Foundation.Matching
