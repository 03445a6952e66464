/- source: piltover/app/utils/formatable_text_with_entities.py
   digest: Templates formatted; an entity points at its text unless it ends in a placeholder. -/

import Mathlib.Algebra.Ring.Int.Defs
import Mathlib.Data.List.Forall2
import Piltover.Foundation.Slices
import Piltover.Templates.Parsing

set_option autoImplicit false

namespace Piltover.Templates

open Piltover.Foundation.Matching Piltover.Foundation.Slices

/-- The keyword arguments, as texts. -/
abbrev Options := List Char → Option (List Char)

/-! ### `str.format` -/

inductive Field
  | literal (c : Char)
  | named (name : List Char)
  | broken
  deriving DecidableEq, Repr

/-- A doubled brace stands for itself; a single one begins a field, or is an error. -/
def fieldAt : Pattern Char Field := fun _ rest =>
  match rest with
  | [] => none
  | c :: more =>
    if c = '\x7b' then
      if more.head? = some '\x7b' then some (.literal '\x7b', 2)
      else
        match cut ['\x7d'] more with
        | some (name, _) => some (.named name, name.length + 2)
        | none => some (.broken, 1)
    else if c = '\x7d' then
      if more.head? = some '\x7d' then some (.literal '\x7d', 2) else some (.broken, 1)
    else none

/-- The name is looked up as it stands: it is neither a number nor followed by an attribute, an
index, a conversion or a format. -/
def isKey (decimal : Char → Bool) (name : List Char) : Bool :=
  !name.all decimal && name.all fun c => !(['\x7b', '[', '.', ':', '!'].contains c)

def fieldValue (decimal : Char → Bool) (options : Options) :
    Token Char Field → Except Failure (List Char)
  | .plain c => .ok [c]
  | .found (.literal c) _ => .ok [c]
  | .found (.named name) _ =>
    if isKey decimal name then orRaise (options name) .other else .error .other
  | .found .broken _ => .error .other

/-- `text.format(**options)`. -/
def strFormat (decimal : Char → Bool) (options : Options) (text : List Char) :
    Except Failure (List Char) :=
  ((tokens fieldAt none text).mapM (fieldValue decimal options)).map List.flatten

/-! ### `Entity.format` -/

def utf16Len (text : List Char) : Nat := (utf16 text).length

def buildU8ToU16 (text : List Char) : List Nat := unitOffsets text

/-- `utf16_slice`, before it is decoded. -/
def utf16Slice (text : List Char) (offset length : Int) : List Nat :=
  slice (utf16 text) offset (offset + length)

def placeholderDelta (fmtName replacement : List Char) : Int :=
  utf16Len replacement - utf16Len (braced fmtName)

def correct (options : Options) (depends : Counts) (units : Int) : Except Failure Int :=
  depends.foldlM (fun units (fmtName, count) => do
    let replacement ← orRaise (options fmtName) .other
    .ok (units + placeholderDelta fmtName replacement * count)) units

structure Formatted where
  type : EntityType
  offset : Int
  length : Int
  deriving DecidableEq, Repr

def Entity.format (e : Entity) (templateText : List Char) (options : Options) :
    Except Failure Formatted := do
  let u8ToU16 := buildU8ToU16 templateText
  let start ← orRaise u8ToU16[e.offset]? .other
  let stop ← orRaise u8ToU16[e.offset + e.length]? .other
  let offset ← correct options e.offsetDepends start
  let length ← correct options e.lengthDepends (stop - start)
  .ok { type := e.type, offset := offset, length := length }

def ParseState.format (decimal : Char → Bool) (options : Options) (parsed : ParseState) :
    Except Failure (List Char × List Formatted) := do
  let text ← strFormat decimal options parsed.resultText
  let entities ← parsed.entities.mapM fun e => e.format parsed.resultText options
  .ok (text, entities)

/-! ### Templates -/

def isNameChar (c : Char) : Bool := c.isAlphanum || c = '_' || 128 ≤ c.toNat

def IsName (decimal : Char → Bool) (name : List Char) : Prop :=
  (∃ first ∈ name.head?, decimal first = false) ∧ ∀ c ∈ name, isNameChar c = true

/-- Characters other than braces, and placeholders of the form `{name}`. -/
inductive IsTemplate (decimal : Char → Bool) : List Char → Prop
  | nil : IsTemplate decimal []
  | char {c : Char} {rest : List Char} (flat : c ≠ '\x7b' ∧ c ≠ '\x7d')
      (template : IsTemplate decimal rest) : IsTemplate decimal (c :: rest)
  | placeholder {name rest : List Char} (named : IsName decimal name)
      (template : IsTemplate decimal rest) : IsTemplate decimal (braced name ++ rest)

/-- The contents of the entities of a template, as they are written in it. -/
def contents (text : List Char) : List (List Char) :=
  (tokens pieceAt none text).filterMap fun
    | .found (.entity _ content) _ => some content
    | _ => none

/-- No entity of the template ends in a placeholder. -/
def Whole (decimal : Char → Bool) (text : List Char) : Prop :=
  ∀ content ∈ contents text, IsTemplate decimal content

def contentsOf (t : Token Char Piece) : Option (List Char) :=
  match t with
  | .found (.entity _ content) _ => some content
  | _ => none

/-- Up to the last entity, every turn writes a template: no entity ends in a placeholder, and no
brace stands outside of one. What follows may have any braces. -/
def Clear (decimal : Char → Bool) (text : List Char) : Prop :=
  ∃ front back, tokens pieceAt none text = front ++ back ∧ (∀ t ∈ back, contentsOf t = none) ∧
    ∀ t ∈ front, IsTemplate decimal (shown t)

/-- The entity is at the place where the text has its content, formatted. -/
def PointsAt (decimal : Char → Bool) (options : Options) (text content : List Char)
    (e : Formatted) : Prop :=
  ∃ shown, strFormat decimal options content = .ok shown ∧
    utf16Slice text e.offset e.length = utf16 shown

section

variable {decimal : Char → Bool} {options : Options}

theorem isNameChar_flat {c : Char} (name : isNameChar c = true) :
    c ≠ '\x7b' ∧ c ≠ '\x7d' ∧ ['\x7b', '[', '.', ':', '!'].contains c = false := by
  have not_ (d : Char) (other : isNameChar d = false) : c ≠ d := by
    rintro rfl
    rw [name] at other
    cases other
  refine ⟨not_ _ (by decide), not_ _ (by decide), ?_⟩
  simp only [List.contains_cons, List.contains_nil, Bool.or_false, Bool.or_eq_false_iff,
    beq_eq_false_iff_ne]
  exact ⟨not_ _ (by decide), not_ _ (by decide), not_ _ (by decide), not_ _ (by decide),
    not_ _ (by decide)⟩

theorem IsName.isKey {name : List Char} (named : IsName decimal name) :
    isKey decimal name = true := by
  obtain ⟨⟨first, head, letter⟩, chars⟩ := named
  have mem : first ∈ name := List.mem_of_mem_head? head
  rw [Templates.isKey, Bool.and_eq_true]
  constructor
  · rw [Bool.not_eq_true', List.all_eq_false]
    exact ⟨first, mem, by rw [letter]; exact Bool.false_ne_true⟩
  · rw [List.all_eq_true]
    intro c here
    rw [(isNameChar_flat (chars c here)).2.2]
    rfl

theorem IsName.closed {name : List Char} (named : IsName decimal name) : '\x7d' ∉ name :=
  fun mem => (isNameChar_flat (named.2 _ mem)).2.1 rfl

theorem IsName.flat {name : List Char} (named : IsName decimal name) : '\x7b' ∉ name :=
  fun mem => (isNameChar_flat (named.2 _ mem)).1 rfl

theorem isTemplate_of_flat {text : List Char} (flat : ∀ c ∈ text, c ≠ '\x7b' ∧ c ≠ '\x7d') :
    IsTemplate decimal text := by
  induction text with
  | nil => exact .nil
  | cons c text ih =>
    exact .char (flat c List.mem_cons_self) (ih fun d mem => flat d (List.mem_cons_of_mem c mem))

theorem IsTemplate.append {front back : List Char} (first : IsTemplate decimal front)
    (second : IsTemplate decimal back) : IsTemplate decimal (front ++ back) := by
  induction first with
  | nil => exact second
  | char flat _ ih => exact .char flat ih
  | placeholder named _ ih =>
    rw [List.append_assoc]
    exact .placeholder named ih

theorem IsTemplate.of_brace {rest : List Char} (template : IsTemplate decimal ('\x7b' :: rest)) :
    ∃ name after, rest = name ++ '\x7d' :: after ∧ IsName decimal name ∧
      IsTemplate decimal after := by
  generalize same : '\x7b' :: rest = text at template
  cases template with
  | nil => cases same
  | char flat =>
    obtain ⟨here, -⟩ := List.cons.inj same
    exact absurd here.symm flat.1
  | placeholder named template =>
    rename_i name after
    obtain ⟨-, same⟩ := List.cons.inj same
    refine ⟨name, after, ?_, named, template⟩
    rw [same]
    exact List.append_assoc name ['\x7d'] after

theorem IsTemplate.of_char {c : Char} {rest : List Char} (open_ : c ≠ '\x7b')
    (template : IsTemplate decimal (c :: rest)) : c ≠ '\x7d' ∧ IsTemplate decimal rest := by
  generalize same : c :: rest = text at template
  cases template with
  | nil => cases same
  | char flat template =>
    obtain ⟨rfl, rfl⟩ := List.cons.inj same
    exact ⟨flat.2, template⟩
  | placeholder named template => exact absurd (List.cons.inj same).1 open_

theorem append_cons_inj {α : Type} {x : α} {a b front back : List α} (left : x ∉ a) (right : x ∉ b)
    (same : a ++ x :: front = b ++ x :: back) : a = b ∧ front = back := by
  induction a generalizing b with
  | nil =>
    cases b with
    | nil => exact ⟨rfl, (List.cons.inj same).2⟩
    | cons y b => exact absurd (List.cons.inj same).1 fun is => right (is ▸ List.mem_cons_self)
  | cons y a ih =>
    cases b with
    | nil => exact absurd (List.cons.inj same).1 fun is => left (is ▸ List.mem_cons_self)
    | cons z b =>
      obtain ⟨rfl, rest⟩ := List.cons.inj same
      obtain ⟨rfl, rfl⟩ := ih (fun mem => left (List.mem_cons_of_mem _ mem))
        (fun mem => right (List.mem_cons_of_mem _ mem)) rest
      exact ⟨rfl, rfl⟩

theorem IsTemplate.of_braced {name rest : List Char} (closed : '\x7d' ∉ name)
    (template : IsTemplate decimal (braced name ++ rest)) :
    IsName decimal name ∧ IsTemplate decimal rest := by
  rw [braced, List.cons_append, List.append_assoc] at template
  obtain ⟨other, after, same, named, template⟩ := template.of_brace
  obtain ⟨rfl, rfl⟩ := append_cons_inj closed named.closed same
  exact ⟨named, template⟩

theorem IsTemplate.cancel {front back : List Char} (first : IsTemplate decimal front)
    (both : IsTemplate decimal (front ++ back)) : IsTemplate decimal back := by
  induction first with
  | nil => exact both
  | char flat _ ih => exact ih (both.of_char flat.1).2
  | placeholder named _ ih =>
    rw [List.append_assoc] at both
    exact ih (both.of_braced named.closed).2

/-! ### Formatting a template -/

theorem fieldAt_forward : fieldAt.Forward where
  blind p q text := by cases text <;> rfl
  fits := by
    intro text field n read
    cases text with
    | nil => cases read
    | cons c more =>
      rw [fieldAt] at read
      have double {d : Char} (next : more.head? = some d) : 2 ≤ (c :: more).length := by
        cases more with
        | nil => cases next
        | cons e more => exact Nat.le_add_left _ _
      split at read
      case isTrue =>
        split at read
        case isTrue next => cases read; exact ⟨Nat.two_pos, double next⟩
        case isFalse =>
          split at read
          case h_1 name after found =>
            cases read
            refine ⟨Nat.succ_pos _, ?_⟩
            rw [eq_append_of_cut found, List.length_cons, List.length_append, List.length_append]
            exact Nat.succ_le_succ (Nat.add_le_add_left (Nat.le_add_right 1 _) _)
          case h_2 => cases read; exact ⟨Nat.one_pos, Nat.succ_pos _⟩
      case isFalse =>
        split at read
        case isTrue =>
          split at read
          case isTrue next => cases read; exact ⟨Nat.two_pos, double next⟩
          case isFalse => cases read; exact ⟨Nat.one_pos, Nat.succ_pos _⟩
        case isFalse => cases read

theorem strFormat_cons {text rest : List Char} {t : Token Char Field}
    (read : tokens fieldAt none text = t :: tokens fieldAt none rest) :
    strFormat decimal options text = (fieldValue decimal options t >>= fun first =>
      (strFormat decimal options rest).map (first ++ ·)) := by
  rw [strFormat, strFormat, read, List.mapM_cons]
  cases fieldValue decimal options t with
  | error => rfl
  | ok first =>
    cases (tokens fieldAt none rest).mapM (fieldValue decimal options) <;> rfl

theorem tokens_field {raw rest : List Char} {field : Field} (some : raw ≠ [])
    (read : fieldAt none (raw ++ rest) = .some (field, raw.length)) :
    tokens fieldAt none (raw ++ rest) = .found field raw :: tokens fieldAt none rest := by
  rw [tokens_of_some some read, tokens_congr fieldAt_forward.blind _ none]

theorem strFormat_char {c : Char} {rest : List Char} (flat : c ≠ '\x7b' ∧ c ≠ '\x7d') :
    strFormat decimal options (c :: rest) = (strFormat decimal options rest).map (c :: ·) := by
  have plain : fieldAt none (c :: rest) = none := by
    rw [fieldAt, if_neg flat.1, if_neg flat.2]
  have read := tokens_of_none plain
  rw [tokens_congr fieldAt_forward.blind (some c) none] at read
  rw [strFormat_cons read]
  rfl

theorem fieldAt_braced {name rest : List Char} (open_ : name.head? ≠ some '\x7b') (some : name ≠ [])
    (closed : '\x7d' ∉ name) :
    fieldAt none (braced name ++ rest) = .some (.named name, (braced name).length) := by
  have head : (name ++ ['\x7d'] ++ rest).head? = name.head? := by
    cases name with
    | nil => exact absurd rfl some
    | cons => rfl
  have here : cut ['\x7d'] (name ++ '\x7d' :: rest) = .some (name, rest) := cut_singleton closed
  rw [braced, List.cons_append, fieldAt]
  rw [if_pos rfl, if_neg (head ▸ open_), List.append_assoc, List.singleton_append, here,
    List.length_cons, List.length_append]
  rfl

theorem IsName.ne_nil {name : List Char} (named : IsName decimal name) : name ≠ [] := by
  rintro rfl
  obtain ⟨⟨first, head, -⟩, -⟩ := named
  cases head

theorem strFormat_braced {name rest : List Char} (named : IsName decimal name) :
    strFormat decimal options (braced name ++ rest) = (orRaise (options name) .other >>= fun value =>
      (strFormat decimal options rest).map (value ++ ·)) := by
  have open_ : name.head? ≠ some '\x7b' := fun head => named.flat (List.mem_of_mem_head? head)
  have some : braced name ≠ [] := List.cons_ne_nil _ _
  have read := tokens_field some (@fieldAt_braced name rest open_ named.ne_nil named.closed)
  rw [strFormat_cons read, fieldValue, named.isKey, if_pos rfl]

@[simp] theorem strFormat_nil : strFormat decimal options [] = .ok [] := rfl

theorem strFormat_append {front back : List Char} (template : IsTemplate decimal front) :
    strFormat decimal options (front ++ back) = (strFormat decimal options front >>= fun first =>
      (strFormat decimal options back).map (first ++ ·)) := by
  induction template with
  | nil =>
    rw [List.nil_append, strFormat_nil]
    cases strFormat decimal options back <;> rfl
  | @char c rest flat _ ih =>
    rw [List.cons_append, strFormat_char flat, ih, strFormat_char flat]
    cases strFormat decimal options rest with
    | error => rfl
    | ok first => cases strFormat decimal options back <;> rfl
  | @placeholder name rest named _ ih =>
    rw [List.append_assoc, strFormat_braced named, ih, strFormat_braced named]
    cases orRaise (options name) .other with
    | error => rfl
    | ok value =>
      cases strFormat decimal options rest with
      | error => rfl
      | ok first =>
        cases strFormat decimal options back with
        | error => rfl
        | ok last => exact congrArg Except.ok (List.append_assoc value first last).symm

theorem strFormat_stray {rest : List Char} (single : rest.head? ≠ some '\x7d') :
    strFormat decimal options ('\x7d' :: rest) = .error .other := by
  have here : fieldAt none (['\x7d'] ++ rest) = some (.broken, 1) := by
    rw [List.singleton_append, fieldAt]
    rw [if_neg (by decide), if_pos rfl, if_neg single]
  rw [← List.singleton_append, strFormat_cons (tokens_field (List.cons_ne_nil _ _) here)]
  rfl

theorem strFormat_unended {rest : List Char} (single : rest.head? ≠ some '\x7b')
    (open_ : '\x7d' ∉ rest) : strFormat decimal options ('\x7b' :: rest) = .error .other := by
  have here : fieldAt none (['\x7b'] ++ rest) = some (.broken, 1) := by
    rw [List.singleton_append, fieldAt]
    rw [if_pos rfl, if_neg single, cut_singleton_eq_none_iff.mpr open_]
  rw [← List.singleton_append, strFormat_cons (tokens_field (List.cons_ne_nil _ _) here)]
  rfl

/-! ### The names in a template -/

theorem placeholders_char {c : Char} {rest : List Char} (flat : c ≠ '\x7b') :
    placeholders (c :: rest) = placeholders rest := by
  have plain : curlyAt none (c :: rest) = none := if_neg flat
  rw [placeholders, tokens_of_none plain, List.filterMap_cons,
    tokens_congr (fun p q text => by cases text <;> rfl) _ none]
  rfl

theorem placeholders_braced {name rest : List Char} (closed : '\x7d' ∉ name) :
    placeholders (braced name ++ rest) = name :: placeholders rest := by
  have here : curlyAt none (braced name ++ rest) = some (name, (braced name).length) := by
    rw [braced, List.cons_append, curlyAt, if_pos rfl, List.append_assoc, List.singleton_append, cut_singleton closed,
      Option.map_some, List.length_cons, List.length_append]
    rfl
  have some : braced name ≠ [] := List.cons_ne_nil _ _
  rw [placeholders, tokens_of_some some here, List.filterMap_cons,
    tokens_congr (fun p q text => by cases text <;> rfl) _ none]
  rfl

theorem placeholders_append {front back : List Char} (template : IsTemplate decimal front) :
    placeholders (front ++ back) = placeholders front ++ placeholders back := by
  induction template with
  | nil => rfl
  | char flat _ ih => rw [List.cons_append, placeholders_char flat.1, ih, placeholders_char flat.1]
  | placeholder named _ ih =>
    rw [List.append_assoc, placeholders_braced named.closed, ih, placeholders_braced named.closed]
    rfl

/-! ### Places in a template -/

/-- What is left of a template from some place on, in a placeholder or not. -/
inductive IsTail (decimal : Char → Bool) : List Char → Prop
  | outside {text : List Char} (template : IsTemplate decimal text) : IsTail decimal text
  | inside {name rest : List Char} (chars : ∀ c ∈ name, isNameChar c = true)
      (template : IsTemplate decimal rest) : IsTail decimal (name ++ '\x7d' :: rest)

theorem IsTail.cons {c : Char} {text : List Char} (tail : IsTail decimal (c :: text)) :
    IsTail decimal text := by
  generalize same : c :: text = whole at tail
  cases tail with
  | outside template =>
    rw [← same] at template
    by_cases open_ : c = '\x7b'
    · rw [open_] at template
      obtain ⟨name, after, rfl, named, template⟩ := template.of_brace
      exact .inside named.2 template
    · exact .outside (template.of_char open_).2
  | @inside name rest chars template =>
    cases name with
    | nil =>
      obtain ⟨-, rfl⟩ := List.cons.inj same
      exact .outside template
    | cons d name =>
      obtain ⟨-, rfl⟩ := List.cons.inj same
      exact .inside (fun e mem => chars e (List.mem_cons_of_mem d mem)) template

theorem IsTail.append {front back : List Char} (tail : IsTail decimal (front ++ back)) :
    IsTail decimal back := by
  induction front with
  | nil => exact tail
  | cons c front ih => exact ih tail.cons

theorem IsTail.of_brace {text : List Char} (tail : IsTail decimal ('\x7b' :: text)) :
    IsTemplate decimal ('\x7b' :: text) := by
  generalize same : '\x7b' :: text = whole at tail ⊢
  cases tail with
  | outside template => exact template
  | @inside name rest chars template =>
    exfalso
    cases name with
    | nil => exact absurd (List.cons.inj same).1 (by decide)
    | cons d name =>
      have here := chars d List.mem_cons_self
      rw [← (List.cons.inj same).1] at here
      cases here

theorem IsTail.of_close {text : List Char} (tail : IsTail decimal ('\x7d' :: text)) :
    IsTemplate decimal text := by
  generalize same : '\x7d' :: text = whole at tail
  cases tail with
  | outside template =>
    rw [← same] at template
    exact absurd rfl (template.of_char (by decide)).1
  | @inside name rest chars template =>
    cases name with
    | nil => exact (List.cons.inj same).2 ▸ template
    | cons d name =>
      have here := chars d List.mem_cons_self
      rw [← (List.cons.inj same).1] at here
      cases here

theorem IsTemplate.head? {text : List Char} (template : IsTemplate decimal text) :
    text.head? ≠ some '\x7d' := by
  cases template with
  | nil => exact nofun
  | char flat => exact fun head => flat.2 (Option.some.inj head)
  | placeholder => exact fun head => absurd (Option.some.inj head) (by decide)

theorem isTemplate_of_strFormat {content more shown : List Char}
    (tail : IsTail decimal (content ++ more))
    (formats : strFormat decimal options content = .ok shown) : IsTemplate decimal content := by
  induction sized : content.length using Nat.strongRecOn generalizing content shown with
  | ind size ih =>
    cases content with
    | nil => exact .nil
    | cons c content =>
      have after : IsTail decimal (content ++ more) := tail.cons
      by_cases open_ : c = '\x7b'
      · subst open_
        obtain ⟨name, rest, same, named, template⟩ := tail.of_brace.of_brace
        rcases List.append_eq_append_iff.mp same with ⟨part, within, -⟩ | ⟨part, beyond, tails⟩
        · -- The content ends before the placeholder does.
          exfalso
          have closed : '\x7d' ∉ content := fun mem =>
            named.closed (within ▸ List.mem_append_left part mem)
          have flat : content.head? ≠ some '\x7b' := fun head =>
            named.flat (within ▸ List.mem_append_left part (List.mem_of_mem_head? head))
          rw [strFormat_unended flat closed] at formats
          cases formats
        · cases part with
          | nil =>
            exfalso
            rw [List.append_nil] at beyond
            have flat : content.head? ≠ some '\x7b' := fun head =>
              named.flat (beyond ▸ List.mem_of_mem_head? head)
            rw [strFormat_unended flat (beyond ▸ named.closed)] at formats
            cases formats
          | cons d part =>
            obtain ⟨rfl, rfl⟩ := List.cons.inj tails
            have whole : '\x7b' :: content = braced name ++ part := by
              rw [beyond, braced, List.cons_append, List.append_assoc]
              rfl
            rw [whole, strFormat_braced named] at formats
            obtain ⟨value, -, formats⟩ := (bind_eq_ok _).mp formats
            obtain ⟨last, formats, -⟩ := map_eq_ok.mp formats
            have shorter : part.length < size := by
              rw [← sized, beyond, List.length_cons, List.length_append, List.length_cons]
              omega
            rw [whole]
            exact .placeholder named (ih _ shorter (.outside template) formats rfl)
      · by_cases close : c = '\x7d'
        · exfalso
          subst close
          have single : content.head? ≠ some '\x7d' := by
            intro head
            apply tail.of_close.head?
            cases content with
            | nil => cases head
            | cons => exact head
          rw [strFormat_stray single] at formats
          cases formats
        · have flat : c ≠ '\x7b' ∧ c ≠ '\x7d' := ⟨open_, close⟩
          rw [strFormat_char flat] at formats
          obtain ⟨last, formats, -⟩ := map_eq_ok.mp formats
          have shorter : content.length < size := by
            rw [← sized]
            exact Nat.lt_succ_self _
          exact .char flat (ih _ shorter after formats rfl)

/-! ### What is written of a template -/

theorem delims_flat {delim : Delim} (listed : delim ∈ DELIMS) :
    (∀ c ∈ delim.1, c ≠ '\x7b' ∧ c ≠ '\x7d') ∧ ∀ c ∈ delim.2, c ≠ '\x7b' ∧ c ≠ '\x7d' := by
  have all : (DELIMS.all fun d => (d.1.all fun c => decide (c ≠ '\x7b' ∧ c ≠ '\x7d')) &&
      d.2.all fun c => decide (c ≠ '\x7b' ∧ c ≠ '\x7d')) = true := rfl
  simp only [List.all_eq_true, Bool.and_eq_true, decide_eq_true_eq] at all
  exact all delim listed

theorem isTemplate_opening {delim : Delim} (listed : delim ∈ DELIMS) :
    IsTemplate decimal delim.1 :=
  isTemplate_of_flat (delims_flat listed).1

theorem isTemplate_closing {delim : Delim} (listed : delim ∈ DELIMS) :
    IsTemplate decimal delim.2 :=
  isTemplate_of_flat (delims_flat listed).2

theorem contents_eq (text : List Char) :
    contents text = (tokens pieceAt none text).filterMap contentsOf := rfl

/-- The turn writes a template. -/
def Sound (decimal : Char → Bool) (t : Token Char Piece) : Prop := IsTemplate decimal (shown t)

theorem notBrace_of_plain {c : Char} {text : List Char} (tail : IsTail decimal (c :: text))
    (plain : pieceAt none (c :: text) = none) : c ≠ '\x7b' := by
  rintro rfl
  obtain ⟨name, after, rfl, named, -⟩ := tail.of_brace.of_brace
  have more : name ++ '\x7d' :: after ≠ [] := fun empty =>
    named.ne_nil (List.append_eq_nil_iff.mp empty).1
  rw [pieceAt, if_pos ⟨rfl, more⟩, cut_singleton named.closed] at plain
  cases plain

theorem closed_of_brace {text : List Char} (tail : IsTail decimal ('\x7b' :: text)) :
    '\x7d' ∈ text := by
  obtain ⟨name, after, rfl, -, -⟩ := tail.of_brace.of_brace
  exact List.mem_append_right _ List.mem_cons_self

theorem head?_shown (text : List Char) : IsTemplate decimal text →
    (∀ content ∈ (tokens pieceAt none text).filterMap contentsOf, IsTemplate decimal content) →
      ((tokens pieceAt none text).flatMap shown).head? ≠ some '\x7d' := by
  refine pieceAt_forward.induction (motive := fun text ts => IsTemplate decimal text →
    (∀ content ∈ ts.filterMap contentsOf, IsTemplate decimal content) →
      (ts.flatMap shown).head? ≠ some '\x7d') ?_ ?_ ?_ text
  · exact fun _ _ => nofun
  · intro c cs plain _ template _ head
    have open_ := notBrace_of_plain (.outside template) plain
    exact (template.of_char open_).1 (Option.some.inj head)
  · intro piece raw rest read ih template whole
    obtain ⟨reads, closes⟩ := reads_of_pieceAt read
    cases reads with
    | placeholder closed => exact fun head => absurd (Option.some.inj head) (by decide)
    | unended =>
      exfalso
      exact closes rfl (closed_of_brace (.outside template))
    | @unclosed delim listed lost one =>
      intro head
      cases opening : delim.1 with
      | nil => exact opening_ne_nil listed opening
      | cons c cs =>
        rw [List.flatMap_cons, shown, opening] at head
        have here := (delims_flat listed).1 c (opening ▸ List.mem_cons_self)
        exact here.2 (Option.some.inj head)
    | @entity delim listed content =>
      have inner : IsTemplate decimal content := whole content List.mem_cons_self
      cases content with
      | cons c content => exact fun head => inner.head? head
      | nil =>
        rw [List.nil_append, List.append_assoc] at template
        have after := (isTemplate_closing listed).cancel
          ((isTemplate_opening listed).cancel template)
        exact ih after fun content mem => whole content (List.mem_cons_of_mem _ mem)

theorem sound_of_strFormat (text : List Char) : IsTail decimal text →
    (∀ content ∈ (tokens pieceAt none text).filterMap contentsOf, IsTemplate decimal content) →
      ∀ result, strFormat decimal options ((tokens pieceAt none text).flatMap shown) = .ok result →
        ∀ t ∈ tokens pieceAt none text, Sound decimal t := by
  refine pieceAt_forward.induction (motive := fun text ts => IsTail decimal text →
    (∀ content ∈ ts.filterMap contentsOf, IsTemplate decimal content) →
      ∀ result, strFormat decimal options (ts.flatMap shown) = .ok result →
        ∀ t ∈ ts, Sound decimal t) ?_ ?_ ?_ text
  · exact fun _ _ _ _ _ mem => nomatch mem
  · intro c cs plain ih tail whole result formats
    have open_ := notBrace_of_plain tail plain
    have close : c ≠ '\x7d' := by
      rintro rfl
      have single := head?_shown cs tail.of_close whole
      rw [List.flatMap_cons, shown, List.singleton_append, strFormat_stray single] at formats
      cases formats
    rw [List.flatMap_cons, shown, List.singleton_append, strFormat_char ⟨open_, close⟩] at formats
    obtain ⟨last, formats, -⟩ := map_eq_ok.mp formats
    exact List.forall_mem_cons.mpr ⟨.char ⟨open_, close⟩ .nil, ih tail.cons whole _ formats⟩
  · intro piece raw rest read ih tail whole result formats
    obtain ⟨reads, closes⟩ := reads_of_pieceAt read
    have after : IsTail decimal rest := tail.append
    have later : Sound decimal (.found piece raw) →
        (∀ content ∈ ((tokens pieceAt none rest).filterMap contentsOf),
          IsTemplate decimal content) →
        ∀ t ∈ .found piece raw :: tokens pieceAt none rest, Sound decimal t := by
      intro sound whole
      rw [List.flatMap_cons, strFormat_append sound] at formats
      obtain ⟨first, -, formats⟩ := (bind_eq_ok _).mp formats
      obtain ⟨last, formats, -⟩ := map_eq_ok.mp formats
      exact List.forall_mem_cons.mpr ⟨sound, ih after whole _ formats⟩
    cases reads with
    | @placeholder name closed =>
      have named := (tail.of_brace.of_braced closed).1
      refine later ?_ whole
      have written := IsTemplate.placeholder named .nil
      rwa [List.append_nil] at written
    | unended => exact absurd (closed_of_brace tail) (closes rfl)
    | unclosed listed => exact later (isTemplate_opening listed) whole
    | @entity delim listed content =>
      exact later (whole content List.mem_cons_self) fun content mem =>
        whole content (List.mem_cons_of_mem _ mem)

/-! ### Where the entities are -/

def Known (options : Options) (name : List Char) : Prop := (options name).isSome

/-- How much longer the text is with the value of the name. -/
def delta (options : Options) (name : List Char) : Int :=
  placeholderDelta name ((options name).getD [])

def total (options : Options) (names : List (List Char)) : Int := (names.map (delta options)).sum

theorem total_cons (name : List Char) (names : List (List Char)) :
    total options (name :: names) = delta options name + total options names :=
  List.sum_cons

def counted (options : Options) (counts : Counts) : Int :=
  (counts.map fun (name, count) => delta options name * count).sum

theorem counted_bump (counts : Counts) (name : List Char) :
    counted options (bump counts name) = counted options counts + delta options name := by
  induction counts with
  | nil => simp [bump, counted]
  | cons entry counts ih =>
    obtain ⟨other, count⟩ := entry
    rw [bump]
    split
    case isTrue same =>
      simp only [counted, List.map_cons, List.sum_cons, same]
      have more : delta options name * ((count + 1 : Nat) : Int) =
          delta options name * count + delta options name := by
        rw [Int.natCast_succ, Int.mul_add, Int.mul_one]
      omega
    case isFalse =>
      simp only [counted, List.map_cons, List.sum_cons] at ih ⊢
      omega

theorem counted_foldl (counts : Counts) (names : List (List Char)) :
    counted options (names.foldl bump counts) = counted options counts + total options names := by
  induction names generalizing counts with
  | nil => exact (Int.add_zero _).symm
  | cons name names ih =>
    rw [List.foldl_cons, ih, counted_bump, total_cons, Int.add_assoc]

theorem known_bump {counts : Counts} {name : List Char} (known : Known options name)
    (all : ∀ entry ∈ counts, Known options entry.1) :
    ∀ entry ∈ bump counts name, Known options entry.1 := by
  induction counts with
  | nil =>
    intro entry mem
    rw [List.mem_singleton.mp mem]
    exact known
  | cons first counts ih =>
    obtain ⟨here, later⟩ := List.forall_mem_cons.mp all
    rw [bump]
    split
    case isTrue => exact List.forall_mem_cons.mpr ⟨here, later⟩
    case isFalse => exact List.forall_mem_cons.mpr ⟨here, ih later⟩

theorem known_foldl {counts : Counts} {names : List (List Char)}
    (known : ∀ name ∈ names, Known options name)
    (all : ∀ entry ∈ counts, Known options entry.1) :
    ∀ entry ∈ names.foldl bump counts, Known options entry.1 := by
  induction names generalizing counts with
  | nil => exact all
  | cons name names ih =>
    obtain ⟨here, later⟩ := List.forall_mem_cons.mp known
    exact ih later (known_bump here all)

theorem correct_eq {counts : Counts} (known : ∀ entry ∈ counts, Known options entry.1)
    (units : Int) : correct options counts units = .ok (units + counted options counts) := by
  induction counts generalizing units with
  | nil => exact congrArg Except.ok (Int.add_zero units).symm
  | cons entry counts ih =>
    obtain ⟨here, later⟩ := List.forall_mem_cons.mp known
    obtain ⟨name, count⟩ := entry
    obtain ⟨value, is⟩ := Option.isSome_iff_exists.mp here
    have found : options name = some value := is
    have first : delta options name = placeholderDelta name value := by rw [delta, found]; rfl
    have rest := ih later (units + placeholderDelta name value * count)
    have split : counted options ((name, count) :: counts) =
        delta options name * count + counted options counts := List.sum_cons
    rw [split, first, ← Int.add_assoc, ← rest]
    simp only [correct, List.foldlM_cons, found]
    rfl

theorem utf16Len_append (front back : List Char) :
    utf16Len (front ++ back) = utf16Len front + utf16Len back :=
  length_utf16_append front back

/-- A template that can be formatted has values for its names, and becomes longer by what they
add. -/
theorem length_strFormat {text : List Char} (template : IsTemplate decimal text) :
    ∀ {result : List Char}, strFormat decimal options text = .ok result →
      (∀ name ∈ placeholders text, Known options name) ∧
        (utf16Len result : Int) = utf16Len text + total options (placeholders text) := by
  induction template with
  | nil =>
    intro result formats
    cases formats
    exact ⟨fun name mem => (nomatch mem), rfl⟩
  | @char c rest flat _ ih =>
    intro result formats
    rw [strFormat_char flat] at formats
    obtain ⟨last, later, rfl⟩ := map_eq_ok.mp formats
    obtain ⟨known, long⟩ := ih later
    rw [placeholders_char flat.1]
    refine ⟨known, ?_⟩
    have front := utf16Len_append [c] last
    have behind := utf16Len_append [c] rest
    rw [List.singleton_append] at front behind
    omega
  | @placeholder name rest named _ ih =>
    intro result formats
    rw [strFormat_braced named] at formats
    obtain ⟨value, here, mapped⟩ := (bind_eq_ok _).mp formats
    obtain ⟨last, later, rfl⟩ := map_eq_ok.mp mapped
    have is := orRaise_eq_ok.mp here
    obtain ⟨known, long⟩ := ih later
    rw [placeholders_braced named.closed]
    refine ⟨List.forall_mem_cons.mpr ⟨Option.isSome_iff_exists.mpr ⟨value, is⟩, known⟩, ?_⟩
    have first : delta options name = utf16Len value - utf16Len (braced name) := by
      rw [delta, is]
      rfl
    rw [utf16Len_append, utf16Len_append, total_cons, first]
    omega

theorem exists_strFormat {text : List Char} (template : IsTemplate decimal text) :
    (∀ name ∈ placeholders text, Known options name) →
      ∃ result, strFormat decimal options text = .ok result := by
  induction template with
  | nil => exact fun _ => ⟨[], rfl⟩
  | @char c rest flat _ ih =>
    intro known
    rw [placeholders_char flat.1] at known
    obtain ⟨last, formats⟩ := ih known
    exact ⟨c :: last, by rw [strFormat_char flat, formats]; rfl⟩
  | @placeholder name rest named _ ih =>
    intro known
    rw [placeholders_braced named.closed] at known
    obtain ⟨here, later⟩ := List.forall_mem_cons.mp known
    obtain ⟨value, is⟩ := Option.isSome_iff_exists.mp here
    obtain ⟨last, formats⟩ := ih later
    refine ⟨value ++ last, ?_⟩
    rw [strFormat_braced named, formats, is]
    rfl

theorem placeholders_flat {text : List Char} (flat : ∀ c ∈ text, c ≠ '\x7b') :
    placeholders text = [] := by
  induction text with
  | nil => rfl
  | cons c text ih =>
    obtain ⟨here, later⟩ := List.forall_mem_cons.mp flat
    rw [placeholders_char here, ih later]

theorem placeholders_shown {t : Token Char Piece} (read : WellRead t) (sound : Sound decimal t) :
    placeholders (shown t) = namesOf t := by
  match t, read with
  | .plain c, _ =>
    by_cases open_ : c = '\x7b'
    · subst open_
      obtain ⟨name, after, same, -, -⟩ := IsTemplate.of_brace sound
      exact absurd same.symm (List.append_ne_nil_of_right_ne_nil _ (List.cons_ne_nil _ _))
    · exact placeholders_char open_
  | .found _ _, @Reads.placeholder name closed =>
    have one : placeholders (braced name ++ []) = [name] := placeholders_braced closed
    rwa [List.append_nil] at one
  | .found _ _, .unended => rfl
  | .found _ _, .entity listed content => rfl
  | .found _ _, .unclosed listed one =>
    exact placeholders_flat fun c mem => ((delims_flat listed).1 c mem).1

/-- Up to a state the template has been formatted, its placeholders are counted, and the entities
noted so far point at their texts. -/
structure Aligned (decimal : Char → Bool) (options : Options) (template text : List Char)
    (s : ParseState) (result : List Char) (inner : List (List Char))
    (entities : List Formatted) : Prop where
  front : IsTemplate decimal s.resultText
  formats : strFormat decimal options s.resultText = .ok result
  known : ∀ entry ∈ s.dependsOn, Known options entry.1
  counts : counted options s.dependsOn = total options (placeholders s.resultText)
  noted : s.entities.mapM (fun e => e.format template options) = .ok entities
  points : List.Forall₂ (PointsAt decimal options text) inner entities

theorem mapM_append_ok {α β : Type} {f : α → Except Failure β} {l k : List α} {first last : List β}
    (left : l.mapM f = .ok first) (right : k.mapM f = .ok last) :
    (l ++ k).mapM f = .ok (first ++ last) := by
  rw [List.mapM_append, left, right]
  rfl

/-- An entity in the middle of a template is moved by what is before it, and is as long as its
content has become. -/
theorem entity_format {before content after result value behind : List Char}
    (front : IsTemplate decimal before) (inner : IsTemplate decimal content)
    (first : strFormat decimal options before = .ok result)
    (middle : strFormat decimal options content = .ok value) {depends : Counts}
    (known : ∀ entry ∈ depends, Known options entry.1)
    (counts : counted options depends = total options (placeholders before)) (type : EntityType) :
    ∃ e : Formatted,
      Entity.format ⟨type, before.length, content.length, depends,
        (placeholders content).foldl bump []⟩ (before ++ (content ++ after)) options = .ok e ∧
        PointsAt decimal options (result ++ (value ++ behind)) content e := by
  obtain ⟨-, long⟩ := length_strFormat front first
  obtain ⟨names, wide⟩ := length_strFormat inner middle
  have inContent := @known_foldl options [] _ names fun entry mem => (nomatch mem)
  have start : (buildU8ToU16 (before ++ (content ++ after)))[before.length]? =
      some (utf16Len before) := by
    rw [buildU8ToU16, getElem?_unitOffsets, List.take_left]
    · rfl
    · rw [List.length_append]
      exact Nat.le_add_right _ _
  have stop : (buildU8ToU16 (before ++ (content ++ after)))[before.length + content.length]? =
      some (utf16Len (before ++ content)) := by
    rw [buildU8ToU16, ← List.append_assoc, ← List.length_append, getElem?_unitOffsets,
      List.take_left]
    · rfl
    · exact (List.prefix_append (before ++ content) after).length_le
  have offset : (utf16Len before : Int) + counted options depends = utf16Len result := by omega
  have length : ((utf16Len (before ++ content) : Int) - utf16Len before) +
      counted options ((placeholders content).foldl bump []) = utf16Len value := by
    have none : counted options [] = 0 := rfl
    rw [counted_foldl, utf16Len_append, none]
    omega
  refine ⟨⟨type, utf16Len result, utf16Len value⟩, ?_, value, middle, ?_⟩
  · rw [Entity.format]
    simp only [start, stop, orRaise, correct_eq known, correct_eq inContent]
    exact congrArg Except.ok (congrArg₂ (Formatted.mk type) offset length)
  · rw [utf16Slice, utf16_append, utf16_append]
    exact slice_middle (utf16 result) (utf16 value) (utf16 behind)

theorem Aligned.step {template text result value back behind : List Char} {s : ParseState}
    {inner : List (List Char)} {entities : List Formatted}
    (aligned : Aligned decimal options template text s result inner entities)
    {t : Token Char Piece} (read : WellRead t) (sound : Sound decimal t)
    (formats : strFormat decimal options (shown t) = .ok value)
    (whole : template = s.resultText ++ (shown t ++ back))
    (all : text = result ++ (value ++ behind)) :
    ∃ more, Aligned decimal options template text (s.after t) (result ++ value)
      (inner ++ (contentsOf t).toList) (entities ++ more) := by
  obtain ⟨names, -⟩ := length_strFormat sound formats
  have named := placeholders_shown read sound
  rw [named] at names
  have noted : ∃ more, (s.noted t).mapM (fun e => e.format template options) = .ok more ∧
      List.Forall₂ (PointsAt decimal options text) (contentsOf t).toList more := by
    match t, read with
    | .plain c, _ => exact ⟨[], rfl, .nil⟩
    | .found _ _, .placeholder _ => exact ⟨[], rfl, .nil⟩
    | .found _ _, .unended => exact ⟨[], rfl, .nil⟩
    | .found _ _, .unclosed _ _ => exact ⟨[], rfl, .nil⟩
    | .found _ _, @Reads.entity delim listed content =>
      obtain ⟨type, is⟩ := exists_type listed
      obtain ⟨e, formatted, points⟩ := @entity_format decimal options _ _ back _ _ behind
        aligned.front sound aligned.formats formats _ aligned.known aligned.counts type
      rw [← all] at points
      refine ⟨[e], ?_, .cons points .nil⟩
      simp only [ParseState.noted, is, Option.toList_some, List.map_cons, List.map_nil,
        List.mapM_cons, List.mapM_nil]
      rw [whole]
      simp only [shown] at formatted ⊢
      rw [formatted]
      rfl
  obtain ⟨more, here, points⟩ := noted
  refine ⟨more, ?_, ?_, known_foldl names aligned.known, ?_, mapM_append_ok aligned.noted here,
    List.rel_append aligned.points points⟩
  · exact aligned.front.append sound
  · rw [ParseState.after, strFormat_append aligned.front, aligned.formats, formats]
    rfl
  · rw [ParseState.after, counted_foldl, aligned.counts, placeholders_append aligned.front, named,
      total, total, total, List.map_append, List.sum_append]

theorem Aligned.run {template text back rest : List Char} (ts : List (Token Char Piece)) :
    ∀ {s : ParseState} {result behind : List Char} {inner : List (List Char)}
      {entities : List Formatted}, Aligned decimal options template text s result inner entities →
      (∀ t ∈ ts, WellRead t) → (∀ t ∈ ts, Sound decimal t) →
      strFormat decimal options (ts.flatMap shown) = .ok behind →
      template = s.resultText ++ (ts.flatMap shown ++ back) → text = result ++ (behind ++ rest) →
      ∃ more, Aligned decimal options template text (s.afterAll ts) (result ++ behind)
        (inner ++ ts.filterMap contentsOf) (entities ++ more) := by
  induction ts with
  | nil =>
    intro s result behind inner entities aligned _ _ formats _ _
    obtain rfl : behind = [] := (Except.ok.inj formats).symm
    refine ⟨[], ?_⟩
    rw [List.append_nil, List.append_nil, List.filterMap_nil, List.append_nil]
    exact aligned
  | cons t ts ih =>
    intro s result behind inner entities aligned read sound formats whole all
    obtain ⟨readHere, readLater⟩ := List.forall_mem_cons.mp read
    obtain ⟨soundHere, soundLater⟩ := List.forall_mem_cons.mp sound
    rw [List.flatMap_cons, strFormat_append soundHere] at formats
    obtain ⟨value, here, mapped⟩ := (bind_eq_ok _).mp formats
    obtain ⟨last, later, rfl⟩ := map_eq_ok.mp mapped
    rw [List.flatMap_cons, List.append_assoc] at whole
    rw [List.append_assoc] at all
    obtain ⟨more, next⟩ := aligned.step readHere soundHere here whole all
    obtain ⟨others, final⟩ := ih next readLater soundLater later
      (by rw [whole, ParseState.after, List.append_assoc]) (by rw [all, List.append_assoc])
    refine ⟨more ++ others, ?_⟩
    rw [List.append_assoc, List.append_assoc, List.append_assoc] at final
    have split : (t :: ts).filterMap contentsOf =
        (contentsOf t).toList ++ ts.filterMap contentsOf := by
      rw [List.filterMap_cons]
      cases contentsOf t <;> rfl
    rw [split]
    exact final

/-- Where all turns write templates, the entities that they note point at their texts, whatever is
written behind. -/
theorem exists_points {front : List (Token Char Piece)} {value : List Char} (back rest : List Char)
    (read : ∀ t ∈ front, WellRead t) (sound : ∀ t ∈ front, Sound decimal t)
    (formats : strFormat decimal options (front.flatMap shown) = .ok value) :
    ∃ entities, (ParseState.afterAll {} front).entities.mapM
        (fun e => e.format (front.flatMap shown ++ back) options) = .ok entities ∧
      List.Forall₂ (PointsAt decimal options (value ++ rest)) (front.filterMap contentsOf)
        entities := by
  have start : Aligned decimal options (front.flatMap shown ++ back) (value ++ rest) {} [] [] [] :=
    ⟨.nil, rfl, fun entry mem => (nomatch mem), rfl, rfl, .nil⟩
  obtain ⟨entities, aligned⟩ := start.run front read sound formats rfl rfl
  exact ⟨entities, aligned.noted, aligned.points⟩

theorem entities_afterAll {s : ParseState} {ts : List (Token Char Piece)}
    (none_ : ∀ t ∈ ts, contentsOf t = none) : (s.afterAll ts).entities = s.entities := by
  induction ts generalizing s with
  | nil => rfl
  | cons t ts ih =>
    obtain ⟨here, later⟩ := List.forall_mem_cons.mp none_
    have nothing : s.noted t = [] := by
      unfold ParseState.noted
      split
      · cases here
      · rfl
    rw [ParseState.afterAll, List.foldl_cons, ← ParseState.afterAll, ih later, ParseState.after,
      nothing, List.append_nil]

theorem isTemplate_flatMap {ts : List (Token Char Piece)} (sound : ∀ t ∈ ts, Sound decimal t) :
    IsTemplate decimal (ts.flatMap shown) := by
  induction ts with
  | nil => exact .nil
  | cons t ts ih =>
    obtain ⟨here, later⟩ := List.forall_mem_cons.mp sound
    rw [List.flatMap_cons]
    exact IsTemplate.append here (ih later)

theorem Clear.points {text formatted : List Char} {entities : List Formatted}
    (clear : Clear decimal text)
    (formats : (ParseState.afterAll {} (tokens pieceAt none text)).format decimal options =
      .ok (formatted, entities)) :
    List.Forall₂ (PointsAt decimal options formatted) (contents text) entities := by
  obtain ⟨front, back, split, nothing, sound⟩ := clear
  have read : ∀ t ∈ front, WellRead t := fun t mem =>
    wellRead_tokens text t (split ▸ List.mem_append_left back mem)
  have inFront : (ParseState.afterAll {} (front ++ back)).entities =
      (ParseState.afterAll {} front).entities := by
    rw [ParseState.afterAll, List.foldl_append]
    exact entities_afterAll nothing
  have none_ : back.filterMap contentsOf = [] := List.filterMap_eq_nil_iff.mpr nothing
  rw [ParseState.format, resultText_afterAll, split, inFront, List.nil_append,
    List.flatMap_append, strFormat_append (isTemplate_flatMap sound)] at formats
  obtain ⟨result, first, rest⟩ := (bind_eq_ok _).mp formats
  obtain ⟨noted, second, same⟩ := (bind_eq_ok _).mp rest
  cases same
  obtain ⟨value, here, mapped⟩ := (bind_eq_ok _).mp first
  obtain ⟨behind, -, rfl⟩ := map_eq_ok.mp mapped
  obtain ⟨_, again, points⟩ := exists_points (back.flatMap shown) behind read sound here
  rw [second] at again
  cases again
  rw [contents_eq, split, List.filterMap_append, none_, List.append_nil]
  exact points

theorem exists_of_forall₂ {α β : Type} {r : α → β → Prop} {l : List α} {k : List β}
    (related : List.Forall₂ r l k) {a : α} (mem : a ∈ l) : ∃ b, r a b := by
  induction related with
  | nil => cases mem
  | cons here _ ih =>
    rcases List.mem_cons.mp mem with rfl | mem
    · exact ⟨_, here⟩
    · exact ih mem

theorem exists_tail (text : List Char) : IsTail decimal text →
    ∀ content ∈ (tokens pieceAt none text).filterMap contentsOf,
      ∃ more, IsTail decimal (content ++ more) := by
  refine pieceAt_forward.induction (motive := fun text ts => IsTail decimal text →
    ∀ content ∈ ts.filterMap contentsOf, ∃ more, IsTail decimal (content ++ more)) ?_ ?_ ?_ text
  · exact fun _ _ mem => nomatch mem
  · exact fun c cs _ ih tail => ih tail.cons
  · intro piece raw rest read ih tail content mem
    rw [List.filterMap_cons] at mem
    split at mem
    case h_1 => exact ih tail.append content mem
    case h_2 inner is =>
      rcases List.mem_cons.mp mem with rfl | mem
      · obtain ⟨reads, -⟩ := reads_of_pieceAt read
        cases reads with
        | placeholder => cases is
        | unended => cases is
        | unclosed => cases is
        | @entity delim listed content =>
          cases is
          rw [List.append_assoc, List.append_assoc] at tail
          exact ⟨delim.2 ++ rest, tail.append⟩
      · exact ih tail.append content mem

/-- No delimiter that nothing closes stands in front of a placeholder, whose brace it would take. -/
def KeepsBraces (text : List Char) : Prop :=
  ∀ got raw, Token.found (.unclosed got) raw ∈ tokens pieceAt none text → '\x7b' ∉ raw

theorem exists_strFormat_shown (text : List Char) : IsTemplate decimal text →
    (∀ content ∈ (tokens pieceAt none text).filterMap contentsOf, IsTemplate decimal content) →
      (∀ got raw, Token.found (.unclosed got) raw ∈ tokens pieceAt none text → '\x7b' ∉ raw) →
        (∀ name ∈ placeholders text, Known options name) →
          ∃ result,
            strFormat decimal options ((tokens pieceAt none text).flatMap shown) = .ok result := by
  refine pieceAt_forward.induction (motive := fun text ts => IsTemplate decimal text →
    (∀ content ∈ ts.filterMap contentsOf, IsTemplate decimal content) →
      (∀ got raw, Token.found (.unclosed got) raw ∈ ts → '\x7b' ∉ raw) →
        (∀ name ∈ placeholders text, Known options name) →
          ∃ result, strFormat decimal options (ts.flatMap shown) = .ok result) ?_ ?_ ?_ text
  · exact fun _ _ _ _ => ⟨[], rfl⟩
  · intro c cs plain ih template whole keeps known
    have open_ := notBrace_of_plain (.outside template) plain
    obtain ⟨close, after⟩ := template.of_char open_
    rw [placeholders_char open_] at known
    obtain ⟨last, formats⟩ := ih after whole
      (fun got raw mem => keeps got raw (List.mem_cons_of_mem _ mem)) known
    refine ⟨c :: last, ?_⟩
    rw [List.flatMap_cons, shown, List.singleton_append, strFormat_char ⟨open_, close⟩, formats]
    rfl
  · intro piece raw rest read ih template whole keeps known
    obtain ⟨reads, closes⟩ := reads_of_pieceAt read
    -- What is written of the piece is a template with known names, and so is what follows.
    have next (written : Sound decimal (.found piece raw)) (after : IsTemplate decimal rest)
        (whole : ∀ content ∈ (tokens pieceAt none rest).filterMap contentsOf,
          IsTemplate decimal content)
        (here : ∀ name ∈ placeholders (shown (.found piece raw)), Known options name)
        (later : ∀ name ∈ placeholders rest, Known options name) :
        ∃ result, strFormat decimal options
          ((.found piece raw :: tokens pieceAt none rest).flatMap shown) = .ok result := by
      obtain ⟨first, formats⟩ := exists_strFormat written here
      obtain ⟨last, formatted⟩ := ih after whole
        (fun got raw mem => keeps got raw (List.mem_cons_of_mem _ mem)) later
      refine ⟨first ++ last, ?_⟩
      rw [List.flatMap_cons, strFormat_append written, formats, formatted]
      rfl
    cases reads with
    | @placeholder name closed =>
      obtain ⟨named, after⟩ := template.of_braced closed
      rw [placeholders_braced closed] at known
      obtain ⟨here, later⟩ := List.forall_mem_cons.mp known
      have written := IsTemplate.placeholder named .nil
      have one : placeholders (braced name ++ []) = [name] := placeholders_braced closed
      rw [List.append_nil] at written one
      refine next written after whole (fun other mem => ?_) later
      rw [shown, one] at mem
      exact List.mem_singleton.mp mem ▸ here
    | unended => exact absurd (closed_of_brace (.outside template)) (closes rfl)
    | @unclosed delim listed lost one =>
      rw [List.append_assoc] at template known
      have opening : IsTemplate decimal delim.1 := isTemplate_opening listed
      have follows := opening.cancel template
      rw [placeholders_append opening] at known
      have flat := placeholders_flat fun c mem => ((delims_flat listed).1 c mem).1
      rw [flat, List.nil_append] at known
      have kept : '\x7b' ∉ delim.1 ++ lost := keeps _ _ List.mem_cons_self
      have behind : IsTemplate decimal rest ∧ ∀ name ∈ placeholders rest, Known options name := by
        cases lost with
        | nil => exact ⟨follows, known⟩
        | cons c more =>
          obtain rfl := List.length_eq_zero_iff.mp (Nat.le_zero.mp (Nat.le_of_succ_le_succ one))
          have open_ : c ≠ '\x7b' := fun is =>
            kept (List.mem_append_right _ (is ▸ List.mem_cons_self))
          rw [List.singleton_append, placeholders_char open_] at known
          exact ⟨(follows.of_char open_).2, known⟩
      refine next opening behind.1 whole (fun name mem => ?_) behind.2
      rw [shown, flat] at mem
      cases mem
    | @entity delim listed content =>
      have inner : IsTemplate decimal content := whole content List.mem_cons_self
      rw [List.append_assoc, List.append_assoc] at template known
      have opening : IsTemplate decimal delim.1 := isTemplate_opening listed
      have closing : IsTemplate decimal delim.2 := isTemplate_closing listed
      rw [placeholders_append opening, placeholders_append inner, placeholders_append closing]
        at known
      refine next inner (closing.cancel (inner.cancel (opening.cancel template)))
        (fun content mem => whole content (List.mem_cons_of_mem _ mem)) (fun name mem => ?_)
        fun name mem => ?_
      · exact known name (List.mem_append_right _ (List.mem_append_left _ mem))
      · exact known name
          (List.mem_append_right _ (List.mem_append_right _ (List.mem_append_right _ mem)))

/-- The entities of a text that is formatted point at their texts where every turn up to the last of
them writes a template; in a text whose braces are all those of placeholders, only then. Such a text
is formatted with all values where no entity ends in a placeholder and no brace is lost. -/
theorem format_points_iff {text : List Char} {parsed : ParseState}
    (accepted : parseEntities text = .ok parsed) (options : Options) :
    (∀ formatted entities, parsed.format decimal options = .ok (formatted, entities) →
      (Clear decimal text →
        List.Forall₂ (PointsAt decimal options formatted) (contents text) entities) ∧
      (IsTemplate decimal text →
        (List.Forall₂ (PointsAt decimal options formatted) (contents text) entities ↔
          Clear decimal text))) ∧
      (IsTemplate decimal text → Whole decimal text → KeepsBraces text →
        (∀ name ∈ placeholders text, (options name).isSome) →
          ∃ result, parsed.format decimal options = .ok result) := by
  obtain ⟨-, rfl⟩ := parseEntities_eq_ok_iff.mp accepted
  have written := resultText_afterAll {} (tokens pieceAt none text)
  rw [List.nil_append] at written
  constructor
  · intro formatted entities formats
    refine ⟨fun clear => clear.points formats, fun template => ⟨fun points => ?_, fun clear =>
      clear.points formats⟩⟩
    have whole : Whole decimal text := by
      intro content mem
      obtain ⟨e, shown, formats, -⟩ := exists_of_forall₂ points mem
      obtain ⟨more, tail⟩ := exists_tail text (.outside template) content mem
      exact isTemplate_of_strFormat tail formats
    rw [ParseState.format, written] at formats
    obtain ⟨result, first, -⟩ := (bind_eq_ok _).mp formats
    exact ⟨tokens pieceAt none text, [], (List.append_nil _).symm, List.forall_mem_nil _,
      sound_of_strFormat text (.outside template) whole _ first⟩
  · intro template whole keeps known
    obtain ⟨formatted, formats⟩ := exists_strFormat_shown text template whole keeps known
    have sound := sound_of_strFormat text (.outside template) whole _ formats
    obtain ⟨entities, noted, -⟩ := exists_points [] [] (wellRead_tokens text) sound formats
    rw [List.append_nil] at noted
    refine ⟨(formatted, entities), ?_⟩
    rw [ParseState.format, written, formats]
    simp only [noted, bind, Except.bind]

end

/-! ### Two templates -/

private def digits (c : Char) : Bool := '0' ≤ c && c ≤ '9'

/-- `{a}**{a}**` -/
private def boldName : List Char :=
  ['\x7b', 'a', '\x7d', '*', '*', '\x7b', 'a', '\x7d', '*', '*']

/-- `__x{a__b}` -/
private def cutName : List Char := ['_', '_', 'x', '\x7b', 'a', '_', '_', 'b', '\x7d']

/-- Two names have values, one of them a character outside of the basic plane. -/
private def values : Options := fun name =>
  if name = ['a'] then some ['😀', '!']
  else if name = ['a', '_', '_', 'b'] then some ['v']
  else if name = ['a', 'b'] then some ['w'] else none

private theorem isName_a : IsName digits ['a'] :=
  ⟨⟨'a', rfl, rfl⟩, List.all_eq_true.mp rfl⟩

private theorem isTemplate_a : IsTemplate digits ['\x7b', 'a', '\x7d'] :=
  .placeholder isName_a .nil

theorem bold_points : IsTemplate digits boldName ∧
    ∃ parsed, parseEntities boldName = .ok parsed ∧
      (∀ formatted entities, parsed.format digits values = .ok (formatted, entities) →
        List.Forall₂ (PointsAt digits values formatted) (contents boldName) entities) ∧
      ∃ result, parsed.format digits values = .ok result := by
  have template : IsTemplate digits boldName :=
    .placeholder isName_a (.char (by decide) (.char (by decide)
      (.placeholder isName_a (isTemplate_of_flat (by simp)))))
  have read : tokens pieceAt none boldName =
      [.found (.placeholder ['a']) ['\x7b', 'a', '\x7d'],
        .found (.entity (BOLD_DELIM, BOLD_DELIM) ['\x7b', 'a', '\x7d'])
          ['*', '*', '\x7b', 'a', '\x7d', '*', '*']] :=
    rfl
  have whole : Whole digits boldName := by
    intro content mem
    rw [contents_eq, read] at mem
    rw [List.mem_singleton.mp mem]
    exact isTemplate_a
  have keeps : KeepsBraces boldName := by
    intro got raw mem
    rw [read] at mem
    simp at mem
  have known : ∀ name ∈ placeholders boldName, (values name).isSome := by decide
  have accepted : parseEntities boldName =
      .ok ⟨['\x7b', 'a', '\x7d', '\x7b', 'a', '\x7d'], [(['a'], 2)],
        [⟨.bold, 3, 3, [(['a'], 1)], [(['a'], 1)]⟩]⟩ :=
    rfl
  have clear : Clear digits boldName := by
    refine ⟨_, [], (List.append_nil _).symm, List.forall_mem_nil _, ?_⟩
    rw [read]
    exact List.forall_mem_cons.mpr ⟨isTemplate_a, List.forall_mem_singleton.mpr isTemplate_a⟩
  have both := @format_points_iff digits boldName _ accepted values
  exact ⟨template, _, accepted, fun formatted entities formats =>
    ((both.1 formatted entities formats).2 template).mpr clear, both.2 template whole keeps known⟩

/-- The italic text of `__x{a__b}` ends in the name, and what is formatted has `ab` as a name. -/
theorem name_cut : ¬ ∀ text : List Char, IsTemplate digits text → ∀ parsed,
    parseEntities text = .ok parsed → ∀ options formatted entities,
      parsed.format digits options = .ok (formatted, entities) →
        List.Forall₂ (PointsAt digits options formatted) (contents text) entities := by
  intro points
  have named : IsName digits ['a', '_', '_', 'b'] :=
    ⟨⟨'a', rfl, rfl⟩, List.all_eq_true.mp rfl⟩
  have template : IsTemplate digits cutName :=
    .char (by decide) (.char (by decide) (.char (by decide) (.placeholder named .nil)))
  have accepted : parseEntities cutName =
      .ok ⟨['x', '\x7b', 'a', 'b', '\x7d'], [], [⟨.italic, 0, 3, [], []⟩]⟩ :=
    rfl
  have formats : ParseState.format digits values
      ⟨['x', '\x7b', 'a', 'b', '\x7d'], [], [⟨.italic, 0, 3, [], []⟩]⟩ =
        .ok (['x', 'w'], [⟨.italic, 0, 3⟩]) :=
    rfl
  have inner : contents cutName = [['x', '\x7b', 'a']] := rfl
  have here := points _ template _ accepted _ _ _ formats
  rw [inner] at here
  cases here with
  | cons first _ =>
    obtain ⟨shown, formatted, -⟩ := first
    have broken : strFormat digits values ['x', '\x7b', 'a'] = .error .other := rfl
    rw [broken] at formatted
    cases formatted

end Piltover.Templates
