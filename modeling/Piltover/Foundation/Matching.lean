/- source: none (library)
   digest: Texts cut into the places where a pattern matches and what is between them. -/

import Mathlib.Data.List.Basic

set_option autoImplicit false

namespace Piltover.Foundation.Matching

universe u v

variable {σ : Type u} {α : Type v}

/-- What a pattern finds at the front of a text, and how long it is. The symbol before the text is
there to be looked back at. -/
abbrev Pattern (σ : Type u) (α : Type v) := Option σ → List σ → Option (α × Nat)

/-- A symbol between two matches, or a match with its text. -/
inductive Token (σ : Type u) (α : Type v)
  | plain (c : σ)
  | found (a : α) (raw : List σ)
  deriving DecidableEq, Repr

def Token.raw : Token σ α → List σ
  | plain c => [c]
  | found _ raw => raw

/-- The tokens of a text, some of whose symbols belong to the match before them. -/
def tokensFrom (m : Pattern σ α) : Nat → Option σ → List σ → List (Token σ α)
  | _, _, [] => []
  | skip + 1, _, c :: cs => tokensFrom m skip (some c) cs
  | 0, prev, c :: cs =>
    match m prev (c :: cs) with
    | none => .plain c :: tokensFrom m 0 (some c) cs
    | some (a, n) => .found a ((c :: cs).take n) :: tokensFrom m (n - 1) (some c) cs

/-- The matches from the left to the right, and the symbols between them. -/
def tokens (m : Pattern σ α) (prev : Option σ) (text : List σ) : List (Token σ α) :=
  tokensFrom m 0 prev text

variable {m : Pattern σ α} {prev : Option σ}

@[simp] theorem tokens_nil : tokens m prev [] = [] := rfl

theorem tokens_of_none {c : σ} {cs : List σ} (nothing : m prev (c :: cs) = none) :
    tokens m prev (c :: cs) = .plain c :: tokens m (some c) cs := by
  rw [tokens, tokensFrom, nothing]
  rfl

theorem tokensFrom_eq (skip : Nat) (prev : Option σ) (text : List σ) :
    tokensFrom m skip prev text =
      tokens m (((text.take skip).getLast?).or prev) (text.drop skip) := by
  induction skip generalizing prev text with
  | zero => rfl
  | succ skip ih =>
    cases text with
    | nil => rfl
    | cons c cs =>
      rw [tokensFrom, ih, List.take_succ_cons, List.drop_succ_cons, List.getLast?_cons]
      cases (cs.take skip).getLast? <;> rfl

theorem tokens_of_some {a : α} {found rest : List σ} (some : found ≠ [])
    (here : m prev (found ++ rest) = .some (a, found.length)) :
    tokens m prev (found ++ rest) = .found a found :: tokens m found.getLast? rest := by
  cases found with
  | nil => exact absurd rfl some
  | cons c cs =>
    rw [List.cons_append] at here
    rw [List.cons_append, tokens, tokensFrom, here]
    dsimp only
    rw [← List.cons_append, List.take_left, List.length_cons, Nat.add_sub_cancel, tokensFrom_eq,
      List.take_left, List.drop_left, List.getLast?_cons]
    cases cs.getLast? <;> rfl

/-- A pattern that does not look back finds the same wherever the text stands. -/
theorem tokens_congr (same : ∀ p q text, m p text = m q text) (p q : Option σ) (text : List σ) :
    tokens m p text = tokens m q text := by
  cases text with
  | nil => rfl
  | cons c cs => rw [tokens, tokens, tokensFrom, tokensFrom, same p q]

/-- A pattern that does not look back, from what it finds and what follows it. -/
def Pattern.scan (m : List σ → Option (α × List σ)) : Pattern σ α := fun _ text =>
  (m text).map fun (a, rest) => (a, text.length - rest.length)

section

variable {scanner : List σ → Option (α × List σ)}

theorem tokens_scan_congr (p q : Option σ) (text : List σ) :
    tokens (.scan scanner) p text = tokens (.scan scanner) q text :=
  tokens_congr (fun _ _ _ => rfl) p q text

theorem tokens_scan_of_none {c : σ} {cs : List σ} (nothing : scanner (c :: cs) = none) :
    tokens (.scan scanner) prev (c :: cs) = .plain c :: tokens (.scan scanner) prev cs := by
  have here : Pattern.scan scanner prev (c :: cs) = none := by rw [Pattern.scan, nothing]; rfl
  rw [tokens_of_none here, tokens_scan_congr (some c) prev]

theorem tokens_scan_of_some {a : α} {found rest : List σ} (some : found ≠ [])
    (matched : scanner (found ++ rest) = .some (a, rest)) :
    tokens (.scan scanner) prev (found ++ rest) =
      .found a found :: tokens (.scan scanner) prev rest := by
  have here : Pattern.scan scanner prev (found ++ rest) = .some (a, found.length) := by
    rw [Pattern.scan, matched, Option.map_some]
    dsimp only
    rw [List.length_append, Nat.add_sub_cancel]
  rw [tokens_of_some some here, tokens_scan_congr _ prev]

end

/-! ### Patterns that do not look back -/

/-- What is found does not depend on what is before it, and is a part of the text. -/
structure Pattern.Forward (m : Pattern σ α) : Prop where
  blind : ∀ p q text, m p text = m q text
  fits : ∀ {text a n}, m none text = some (a, n) → 0 < n ∧ n ≤ text.length

theorem Pattern.Forward.induction (forward : Forward m)
    {motive : List σ → List (Token σ α) → Prop} (nil : motive [] [])
    (plain : ∀ c cs, m none (c :: cs) = none → motive cs (tokens m none cs) →
      motive (c :: cs) (.plain c :: tokens m none cs))
    (found : ∀ a raw rest, m none (raw ++ rest) = some (a, raw.length) →
      motive rest (tokens m none rest) →
      motive (raw ++ rest) (.found a raw :: tokens m none rest)) (text : List σ) :
    motive text (tokens m none text) := by
  induction sized : text.length using Nat.strongRecOn generalizing text with
  | ind size ih =>
    cases text with
    | nil => exact nil
    | cons c cs =>
      cases here : m none (c :: cs) with
      | none =>
        rw [tokens_of_none here, tokens_congr forward.blind (some c) none]
        exact plain c cs here (ih cs.length (by rw [← sized]; exact Nat.lt_succ_self _) cs rfl)
      | some match_ =>
        obtain ⟨a, n⟩ := match_
        obtain ⟨pos, le⟩ := forward.fits here
        have whole : (c :: cs).take n ++ (c :: cs).drop n = c :: cs := List.take_append_drop n _
        have long : ((c :: cs).take n).length = n := List.length_take_of_le le
        have some : (c :: cs).take n ≠ [] := by
          intro empty
          rw [empty] at long
          exact Nat.ne_of_gt pos long.symm
        have matched : m none ((c :: cs).take n ++ (c :: cs).drop n) =
            .some (a, ((c :: cs).take n).length) := by rw [whole, long, here]
        have shorter : ((c :: cs).drop n).length < size := by
          rw [List.length_drop, sized]
          exact Nat.sub_lt (Nat.lt_of_lt_of_le pos (sized ▸ le)) pos
        have split := tokens_of_some some matched
        rw [tokens_congr forward.blind ((c :: cs).take n).getLast? none] at split
        rw [← whole, split]
        exact found a _ _ matched (ih _ shorter _ rfl)

theorem Pattern.Forward.raw_tokens (forward : Forward m) (text : List σ) :
    (tokens m none text).flatMap Token.raw = text := by
  refine forward.induction (motive := fun text ts => ts.flatMap Token.raw = text) rfl ?_ ?_ text
  · intro c cs _ ih
    rw [List.flatMap_cons, ih]
    rfl
  · intro a raw rest _ ih
    rw [List.flatMap_cons, ih]
    rfl

/-! ### The first place of a separator -/

/-- What is before the first place of a separator, and what is behind it. -/
def cut [DecidableEq σ] (separator : List σ) : List σ → Option (List σ × List σ)
  | [] => if separator = [] then some ([], []) else none
  | c :: cs =>
    if separator.isPrefixOf (c :: cs) then some ([], (c :: cs).drop separator.length)
    else (cut separator cs).map fun (before, after) => (c :: before, after)

section Cut

variable [DecidableEq σ] {separator text before after : List σ} {x : σ}

theorem eq_append_of_cut (found : cut separator text = some (before, after)) :
    text = before ++ (separator ++ after) := by
  induction text generalizing before with
  | nil =>
    rw [cut] at found
    split at found
    case isTrue empty => cases found; rw [empty]; rfl
    case isFalse => cases found
  | cons c cs ih =>
    rw [cut] at found
    split at found
    case isTrue here =>
      cases found
      obtain ⟨rest, same⟩ := List.isPrefixOf_iff_prefix.mp here
      rw [← same, List.drop_left]
      rfl
    case isFalse =>
      obtain ⟨⟨b, a⟩, later, same⟩ := Option.map_eq_some_iff.mp found
      cases same
      rw [ih later]
      rfl

/-- A text is cut at the first of the symbol. -/
theorem cut_singleton (absent : x ∉ before) :
    cut [x] (before ++ x :: after) = some (before, after) := by
  induction before with
  | nil =>
    have here : [x].isPrefixOf (x :: after) = true := by
      rw [List.isPrefixOf_iff_prefix]
      exact ⟨after, rfl⟩
    rw [List.nil_append, cut, if_pos here]
    rfl
  | cons c cs ih =>
    rw [List.mem_cons, not_or] at absent
    have other : ¬ [x].isPrefixOf (c :: (cs ++ x :: after)) = true := by
      rw [List.isPrefixOf_iff_prefix, List.cons_prefix_cons]
      exact fun both => absent.1 both.1
    rw [List.cons_append, cut, if_neg other, ih absent.2]
    rfl

theorem notMem_of_cut_singleton (found : cut [x] text = some (before, after)) : x ∉ before := by
  induction text generalizing before with
  | nil => cases found
  | cons c cs ih =>
    rw [cut] at found
    split at found
    case isTrue => cases found; exact List.not_mem_nil
    case isFalse other =>
      obtain ⟨⟨b, a⟩, later, same⟩ := Option.map_eq_some_iff.mp found
      cases same
      intro mem
      rcases List.mem_cons.mp mem with rfl | mem
      · apply other
        rw [List.isPrefixOf_iff_prefix]
        exact ⟨cs, rfl⟩
      · exact ih later mem

theorem cut_singleton_eq_none_iff : cut [x] text = none ↔ x ∉ text := by
  constructor
  · intro nothing mem
    obtain ⟨before, after, same, absent⟩ := List.eq_append_cons_of_mem mem
    rw [same, cut_singleton absent] at nothing
    cases nothing
  · intro absent
    cases found : cut [x] text with
    | none => rfl
    | some parts =>
      exfalso
      apply absent
      obtain ⟨before, after⟩ := parts
      rw [eq_append_of_cut found]
      exact List.mem_append_right _ List.mem_cons_self

end Cut

end Piltover.Foundation.Matching
