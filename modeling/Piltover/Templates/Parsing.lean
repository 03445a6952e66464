/- source: piltover/app/utils/formatable_text_with_entities.py
   digest: Templates read into a text and its entities; which characters are lost. -/

import Mathlib.Algebra.Ring.Nat
import Piltover.Failure
import Piltover.Foundation.Matching

set_option autoImplicit false

namespace Piltover.Templates

open Piltover.Foundation.Matching

inductive EntityType
  | bold | italic | underline | strike | spoiler | code | pre | url | botCommand | mention
  deriving DecidableEq, Repr

/-! ### Delimiters -/

def BOLD_DELIM : List Char := ['*', '*']

def ITALIC_DELIM : List Char := ['_', '_']

def UNDERLINE_DELIM : List Char := ['-', '-']

def STRIKE_DELIM : List Char := ['~', '~']

def SPOILER_DELIM : List Char := ['|', '|']

def CODE_DELIM : List Char := ['\x60']

def PRE_DELIM : List Char := ['\x60', '\x60', '\x60']

def URL_START : List Char := ['<', 'a', '>']

def URL_END : List Char := ['<', '/', 'a', '>']

def COMMAND_START : List Char := ['<', 'c', '>']

def COMMAND_END : List Char := ['<', '/', 'c', '>']

def USERNAME_START : List Char := ['<', 'u', '>']

def USERNAME_END : List Char := ['<', '/', 'u', '>']

/-- What opens an entity, and what closes it. -/
abbrev Delim := List Char × List Char

def DELIMS : List Delim :=
  [(BOLD_DELIM, BOLD_DELIM), (ITALIC_DELIM, ITALIC_DELIM), (UNDERLINE_DELIM, UNDERLINE_DELIM),
    (STRIKE_DELIM, STRIKE_DELIM), (SPOILER_DELIM, SPOILER_DELIM), (CODE_DELIM, CODE_DELIM),
    (URL_START, URL_END), (COMMAND_START, COMMAND_END), (USERNAME_START, USERNAME_END)]

def TYPES : List (List Char × EntityType) :=
  [(BOLD_DELIM, .bold), (ITALIC_DELIM, .italic), (UNDERLINE_DELIM, .underline),
    (STRIKE_DELIM, .strike), (SPOILER_DELIM, .spoiler), (CODE_DELIM, .code), (PRE_DELIM, .pre),
    (URL_START, .url), (COMMAND_START, .botCommand), (USERNAME_START, .mention)]

/-- A delimiter that closes what it opens is told by its first and its last character. -/
def Delim.startsAt (delim : Delim) (rest : List Char) : Bool :=
  if delim.1 ≠ delim.2 then delim.1.isPrefixOf rest
  else rest.head? = delim.1.head? && rest[delim.1.length - 1]? = delim.1.head?

/-- `got_delim` and `need_delim`. -/
def gotDelim (rest : List Char) : Option Delim := DELIMS.find? fun delim => delim.startsAt rest

/-! ### Turns of the loop -/

/-- What the loop meets, other than a character that stands for itself. -/
inductive Piece
  | placeholder (name : List Char)
  | unended
  | entity (delim : Delim) (content : List Char)
  | unclosed (got : List Char)
  deriving DecidableEq, Repr

/-- What a turn reads, and how far the position moves. After a delimiter that nothing closes it is
one further than the delimiter. -/
def pieceAt : Pattern Char Piece := fun _ rest =>
  match rest with
  | [] => none
  | c :: more =>
    if c = '\x7b' ∧ more ≠ [] then
      match cut ['\x7d'] more with
      | some (name, _) => some (.placeholder name, name.length + 2)
      | none => some (.unended, 1)
    else
      match gotDelim (c :: more) with
      | none => none
      | some (got, need) =>
        let after := (c :: more).drop got.length
        match cut need after with
        | some (content, _) =>
          some (.entity (got, need) content, got.length + content.length + need.length)
        | none => some (.unclosed got, got.length + (after.take 1).length)

/-- A placeholder in the content of an entity. -/
def curlyAt : Pattern Char (List Char) := fun _ rest =>
  match rest with
  | [] => none
  | c :: more =>
    if c = '\x7b' then (cut ['\x7d'] more).map fun (name, _) => (name, name.length + 2) else none

/-- The names in a text. -/
def placeholders (text : List Char) : List (List Char) :=
  (tokens curlyAt none text).filterMap fun
    | .plain _ => none
    | .found name _ => some name

/-- How many times each name is there. -/
abbrev Counts := List (List Char × Nat)

/-- `depends_on[name] += 1`. -/
def bump : Counts → List Char → Counts
  | [], name => [(name, 1)]
  | (other, count) :: counts, name =>
    if other = name then (other, count + 1) :: counts else (other, count) :: bump counts name

structure Entity where
  type : EntityType
  offset : Nat
  length : Nat
  offsetDepends : Counts
  lengthDepends : Counts
  deriving DecidableEq, Repr

structure ParseState where
  resultText : List Char := []
  dependsOn : Counts := []
  entities : List Entity := []
  deriving DecidableEq, Repr

/-- `f"{{{fmt_name}}}"`. -/
def braced (name : List Char) : List Char := '\x7b' :: (name ++ ['\x7d'])

def ParseState.step (s : ParseState) : Token Char Piece → Except Failure ParseState
  | .plain c => .ok { s with resultText := s.resultText ++ [c] }
  | .found (.placeholder name) _ =>
    .ok { s with
      resultText := s.resultText ++ braced name
      dependsOn := bump s.dependsOn name }
  | .found .unended _ => .error .other
  | .found (.unclosed got) _ => .ok { s with resultText := s.resultText ++ got }
  | .found (.entity delim content) _ => do
      let names := placeholders content
      let type ← orRaise (TYPES.lookup delim.1) .other
      .ok { resultText := s.resultText ++ content
            dependsOn := names.foldl bump s.dependsOn
            entities := s.entities ++
              [{ type := type
                 offset := s.resultText.length
                 length := content.length
                 offsetDepends := s.dependsOn
                 lengthDepends := names.foldl bump [] }] }

def parseEntities (text : List Char) : Except Failure ParseState :=
  (tokens pieceAt none text).foldlM ParseState.step {}

/-! ### What the turns read -/

inductive Reads : Piece → List Char → Prop
  | placeholder {name : List Char} (open_ : '\x7d' ∉ name) : Reads (.placeholder name) (braced name)
  | unended : Reads .unended ['\x7b']
  | entity {delim : Delim} (listed : delim ∈ DELIMS) (content : List Char) :
      Reads (.entity delim content) (delim.1 ++ (content ++ delim.2))
  | unclosed {delim : Delim} (listed : delim ∈ DELIMS) {lost : List Char} (one : lost.length ≤ 1) :
      Reads (.unclosed delim.1) (delim.1 ++ lost)

theorem prefix_of_startsAt {delim : Delim} (listed : delim ∈ DELIMS) {rest : List Char}
    (starts : delim.startsAt rest = true) : delim.1 <+: rest := by
  have double (x : Char) (here : Delim.startsAt ([x, x], [x, x]) rest = true) :
      [x, x] <+: rest := by
    match rest, here with
    | [], here => simp [Delim.startsAt] at here
    | [c], here => simp [Delim.startsAt] at here
    | c :: d :: rest, here =>
      simp [Delim.startsAt] at here
      obtain ⟨rfl, rfl⟩ := here
      exact ⟨rest, rfl⟩
  have single (x : Char) (here : Delim.startsAt ([x], [x]) rest = true) : [x] <+: rest := by
    match rest, here with
    | [], here => simp [Delim.startsAt] at here
    | c :: rest, here =>
      simp [Delim.startsAt] at here
      obtain rfl := here
      exact ⟨rest, rfl⟩
  have tag {opening closing : List Char} (differ : opening ≠ closing)
      (here : Delim.startsAt (opening, closing) rest = true) : opening <+: rest := by
    rw [Delim.startsAt, if_pos differ] at here
    exact List.isPrefixOf_iff_prefix.mp here
  simp only [DELIMS, List.mem_cons, List.not_mem_nil, or_false] at listed
  rcases listed with rfl | rfl | rfl | rfl | rfl | rfl | rfl | rfl | rfl
  · exact double _ starts
  · exact double _ starts
  · exact double _ starts
  · exact double _ starts
  · exact double _ starts
  · exact single _ starts
  · exact tag (by decide) starts
  · exact tag (by decide) starts
  · exact tag (by decide) starts

theorem gotDelim_eq_some {rest : List Char} {delim : Delim} (got : gotDelim rest = some delim) :
    delim ∈ DELIMS ∧ ∃ after, rest = delim.1 ++ after := by
  have listed : delim ∈ DELIMS := List.mem_of_find?_eq_some got
  obtain ⟨after, same⟩ := prefix_of_startsAt listed (List.find?_some (p := fun d => Delim.startsAt d rest) got)
  exact ⟨listed, after, same.symm⟩

theorem pieceAt_eq_some {text : List Char} {prev : Option Char} {piece : Piece} {n : Nat}
    (read : pieceAt prev text = some (piece, n)) :
    ∃ raw rest, text = raw ++ rest ∧ n = raw.length ∧ Reads piece raw ∧
      (piece = .unended → '\x7d' ∉ rest) := by
  cases text with
  | nil => cases read
  | cons c more =>
    rw [pieceAt] at read
    dsimp only at read
    split at read
    case isTrue curly =>
      obtain ⟨rfl, -⟩ := curly
      split at read
      case h_1 name after found =>
        cases read
        refine ⟨braced name, after, ?_, ?_, .placeholder (notMem_of_cut_singleton found),
          fun same => nomatch same⟩
        · rw [braced, List.cons_append, List.append_assoc, ← eq_append_of_cut found]
        · rw [braced, List.length_cons, List.length_append]
          rfl
      case h_2 nothing =>
        cases read
        exact ⟨['\x7b'], more, rfl, rfl, .unended, fun _ => cut_singleton_eq_none_iff.mp nothing⟩
    case isFalse =>
      split at read
      case h_1 => cases read
      case h_2 got need here =>
        obtain ⟨listed, after, same⟩ := gotDelim_eq_some here
        rw [same, List.drop_left] at read
        split at read
        case h_1 content rest found =>
          cases read
          refine ⟨got ++ (content ++ need), rest, ?_, ?_, .entity listed content,
            fun same => nomatch same⟩
          · rw [same, eq_append_of_cut found, List.append_assoc, List.append_assoc]
          · rw [List.length_append, List.length_append, Nat.add_assoc]
        case h_2 =>
          cases read
          refine ⟨got ++ after.take 1, after.drop 1, ?_, ?_,
            .unclosed listed (List.length_take_le 1 after), fun same => nomatch same⟩
          · rw [same, List.append_assoc, List.take_append_drop]
          · rw [List.length_append]

theorem opening_ne_nil {delim : Delim} (listed : delim ∈ DELIMS) : delim.1 ≠ [] := by
  revert delim
  decide

theorem Reads.ne_nil {piece : Piece} {raw : List Char} (reads : Reads piece raw) : raw ≠ [] := by
  cases reads with
  | placeholder => exact List.cons_ne_nil _ _
  | unended => exact List.cons_ne_nil _ _
  | entity listed =>
    intro empty
    exact opening_ne_nil listed (List.append_eq_nil_iff.mp empty).1
  | unclosed listed =>
    intro empty
    exact opening_ne_nil listed (List.append_eq_nil_iff.mp empty).1

theorem pieceAt_forward : pieceAt.Forward where
  blind p q text := by cases text <;> rfl
  fits := by
    intro text piece n read
    obtain ⟨raw, rest, rfl, rfl, reads, -⟩ := pieceAt_eq_some read
    refine ⟨List.length_pos_iff.mpr reads.ne_nil, ?_⟩
    rw [List.length_append]
    exact Nat.le_add_right _ _

theorem reads_of_pieceAt {raw rest : List Char} {piece : Piece}
    (read : pieceAt none (raw ++ rest) = some (piece, raw.length)) :
    Reads piece raw ∧ (piece = .unended → '\x7d' ∉ rest) := by
  obtain ⟨raw', rest', same, long, reads, open_⟩ := pieceAt_eq_some read
  obtain ⟨rfl, rfl⟩ := List.append_inj same long
  exact ⟨reads, open_⟩

def WellRead : Token Char Piece → Prop
  | .plain _ => True
  | .found piece raw => Reads piece raw

theorem wellRead_tokens (text : List Char) : ∀ t ∈ tokens pieceAt none text, WellRead t := by
  refine pieceAt_forward.induction (motive := fun _ ts => ∀ t ∈ ts, WellRead t) ?_ ?_ ?_ text
  · exact fun t none => nomatch none
  · intro c cs _ ih t mem
    rcases List.mem_cons.mp mem with rfl | mem
    · trivial
    · exact ih t mem
  · intro piece raw rest read ih t mem
    rcases List.mem_cons.mp mem with rfl | mem
    · exact (reads_of_pieceAt read).1
    · exact ih t mem

/-! ### What a turn writes -/

def shown : Token Char Piece → List Char
  | .plain c => [c]
  | .found (.placeholder name) _ => braced name
  | .found .unended _ => []
  | .found (.unclosed got) _ => got
  | .found (.entity _ content) _ => content

def namesOf : Token Char Piece → List (List Char)
  | .found (.placeholder name) _ => [name]
  | .found (.entity _ content) _ => placeholders content
  | _ => []

def ParseState.noted (s : ParseState) : Token Char Piece → List Entity
  | .found (.entity delim content) _ =>
    (TYPES.lookup delim.1).toList.map fun type =>
      { type := type
        offset := s.resultText.length
        length := content.length
        offsetDepends := s.dependsOn
        lengthDepends := (placeholders content).foldl bump [] }
  | _ => []

/-- The state after a token that raises nothing. -/
def ParseState.after (s : ParseState) (t : Token Char Piece) : ParseState where
  resultText := s.resultText ++ shown t
  dependsOn := (namesOf t).foldl bump s.dependsOn
  entities := s.entities ++ s.noted t

def Raises : Token Char Piece → Prop
  | .found .unended _ => True
  | _ => False

theorem exists_type {delim : Delim} (listed : delim ∈ DELIMS) :
    ∃ type, TYPES.lookup delim.1 = some type := by
  rw [← Option.isSome_iff_exists]
  revert delim
  decide

theorem step_eq {s : ParseState} {t : Token Char Piece} (read : WellRead t) (calm : ¬ Raises t) :
    s.step t = .ok (s.after t) := by
  match t, read, calm with
  | .plain c, _, _ => simp [ParseState.step, ParseState.after, shown, namesOf, ParseState.noted]
  | .found (.placeholder name) _, _, _ =>
    simp [ParseState.step, ParseState.after, shown, namesOf, ParseState.noted]
  | .found (.unclosed got) _, _, _ =>
    simp [ParseState.step, ParseState.after, shown, namesOf, ParseState.noted]
  | .found .unended _, _, calm => exact absurd trivial calm
  | .found (.entity delim content) _, read, _ =>
    cases read with
    | entity listed =>
      obtain ⟨type, is⟩ := exists_type listed
      simp only [ParseState.step, ParseState.after, shown, namesOf, ParseState.noted, is]
      rfl

theorem step_raises {s : ParseState} {t : Token Char Piece} (raises : Raises t) :
    s.step t = .error .other := by
  match t, raises with
  | .found .unended _, _ => rfl

/-- The turns one after the other. -/
def ParseState.afterAll (s : ParseState) (ts : List (Token Char Piece)) : ParseState :=
  ts.foldl ParseState.after s

theorem run_eq_ok_iff {ts : List (Token Char Piece)} (read : ∀ t ∈ ts, WellRead t)
    {s parsed : ParseState} :
    ts.foldlM ParseState.step s = .ok parsed ↔
      (∀ t ∈ ts, ¬ Raises t) ∧ parsed = s.afterAll ts := by
  induction ts generalizing s with
  | nil =>
    constructor
    · intro done
      cases done
      exact ⟨fun t none => (nomatch none), rfl⟩
    · rintro ⟨-, rfl⟩
      rfl
  | cons t ts ih =>
    have later := fun u mem => read u (List.mem_cons_of_mem t mem)
    rw [List.foldlM_cons, bind_eq_ok]
    constructor
    · rintro ⟨s', step, rest⟩
      have calm : ¬ Raises t := by
        intro raises
        rw [step_raises raises] at step
        cases step
      rw [step_eq (read t List.mem_cons_self) calm] at step
      cases step
      obtain ⟨all, same⟩ := (ih later).mp rest
      exact ⟨List.forall_mem_cons.mpr ⟨calm, all⟩, same⟩
    · rintro ⟨all, rfl⟩
      obtain ⟨calm, rest⟩ := List.forall_mem_cons.mp all
      exact ⟨_, step_eq (read t List.mem_cons_self) calm, (ih later).mpr ⟨rest, rfl⟩⟩

theorem parseEntities_eq_ok_iff {text : List Char} {parsed : ParseState} :
    parseEntities text = .ok parsed ↔
      (∀ t ∈ tokens pieceAt none text, ¬ Raises t) ∧
        parsed = ParseState.afterAll {} (tokens pieceAt none text) :=
  run_eq_ok_iff (wellRead_tokens text)

theorem resultText_afterAll (s : ParseState) (ts : List (Token Char Piece)) :
    (s.afterAll ts).resultText = s.resultText ++ ts.flatMap shown := by
  induction ts generalizing s with
  | nil => exact (List.append_nil _).symm
  | cons t ts ih =>
    rw [ParseState.afterAll, List.foldl_cons, ← ParseState.afterAll, ih, ParseState.after,
      List.append_assoc, List.flatMap_cons]

/-! ### No text is lost -/

inductive Part
  | char (c : Char)
  | entity (delim : { delim // delim ∈ DELIMS }) (content : List Char)

/-- How the part is written in the template. -/
def Part.source : Part → List Char
  | .char c => [c]
  | .entity delim content => delim.1.1 ++ (content ++ delim.1.2)

/-- The part without its delimiters. -/
def Part.inner : Part → List Char
  | .char c => [c]
  | .entity _ content => content

def places : Nat → List Part → List (Option EntityType × Nat × Nat)
  | _, [] => []
  | offset, .char _ :: parts => places (offset + 1) parts
  | offset, .entity delim content :: parts =>
    (TYPES.lookup delim.1.1, offset, content.length) :: places (offset + content.length) parts

def Entity.place (e : Entity) : Option EntityType × Nat × Nat := (some e.type, e.offset, e.length)

/-- The text is the template without the delimiters of its entities. -/
def Keeps (text : List Char) (parsed : ParseState) : Prop :=
  ∃ parts : List Part, parts.flatMap Part.source = text ∧
    parts.flatMap Part.inner = parsed.resultText ∧ places 0 parts = parsed.entities.map Entity.place

/-- No character stands behind a delimiter that nothing closes. -/
def Unharmed (ts : List (Token Char Piece)) : Prop :=
  ∀ got raw, Token.found (.unclosed got) raw ∈ ts → raw = got

theorem places_append (offset : Nat) (parts more : List Part) :
    places offset (parts ++ more) =
      places offset parts ++ places (offset + (parts.flatMap Part.inner).length) more := by
  induction parts generalizing offset with
  | nil => rfl
  | cons part parts ih =>
    cases part with
    | char c =>
      rw [List.cons_append, places, places, ih, List.flatMap_cons, List.length_append,
        ← Nat.add_assoc]
      rfl
    | entity delim content =>
      rw [List.cons_append, places, places, ih, List.flatMap_cons, List.length_append,
        ← Nat.add_assoc]
      rfl

theorem exists_parts {s : ParseState} {t : Token Char Piece} (read : WellRead t)
    (flat : '\x7b' ∉ t.raw) (unharmed : Unharmed [t]) :
    ∃ parts : List Part, parts.flatMap Part.source = t.raw ∧ parts.flatMap Part.inner = shown t ∧
      places s.resultText.length parts = (s.noted t).map Entity.place := by
  have chars (offset : Nat) (text : List Char) : (text.map Part.char).flatMap Part.source = text ∧
      (text.map Part.char).flatMap Part.inner = text ∧ places offset (text.map Part.char) = [] := by
    induction text generalizing offset with
    | nil => exact ⟨rfl, rfl, rfl⟩
    | cons c text ih =>
      obtain ⟨source, inner, none⟩ := ih (offset + 1)
      refine ⟨?_, ?_, none⟩
      · rw [List.map_cons, List.flatMap_cons, source]
        rfl
      · rw [List.map_cons, List.flatMap_cons, inner]
        rfl
  match t, read with
  | .plain c, _ => exact ⟨[.char c], rfl, rfl, rfl⟩
  | .found _ _, .placeholder _ => exact absurd List.mem_cons_self flat
  | .found _ _, .unended => exact absurd List.mem_cons_self flat
  | .found _ _, @Reads.entity delim listed content =>
    obtain ⟨type, is⟩ := exists_type listed
    refine ⟨[.entity ⟨delim, listed⟩ content], List.append_nil _, List.append_nil _, ?_⟩
    simp only [places, ParseState.noted, is]
    rfl
  | .found _ _, @Reads.unclosed delim listed lost one =>
    have same : delim.1 ++ lost = delim.1 := unharmed _ _ List.mem_cons_self
    obtain ⟨source, inner, none⟩ := chars s.resultText.length delim.1
    refine ⟨delim.1.map .char, ?_, inner, none⟩
    rw [source]
    exact same.symm

theorem exists_parts_all {s : ParseState} {ts : List (Token Char Piece)}
    (read : ∀ t ∈ ts, WellRead t) (flat : '\x7b' ∉ ts.flatMap Token.raw) (unharmed : Unharmed ts) :
    ∃ parts : List Part, parts.flatMap Part.source = ts.flatMap Token.raw ∧
      parts.flatMap Part.inner = ts.flatMap shown ∧
      (s.afterAll ts).entities.map Entity.place =
        s.entities.map Entity.place ++ places s.resultText.length parts := by
  induction ts generalizing s with
  | nil => exact ⟨[], rfl, rfl, (List.append_nil _).symm⟩
  | cons t ts ih =>
    rw [List.flatMap_cons, List.mem_append, not_or] at flat
    obtain ⟨first, source, inner, placed⟩ := exists_parts (s := s) (read t List.mem_cons_self) flat.1
      fun got raw mem => unharmed got raw (List.mem_singleton.mp mem ▸ List.mem_cons_self)
    obtain ⟨rest, sources, inners, later⟩ := ih (s := s.after t)
      (fun u mem => read u (List.mem_cons_of_mem t mem)) flat.2
      fun got raw mem => unharmed got raw (List.mem_cons_of_mem t mem)
    refine ⟨first ++ rest, ?_, ?_, ?_⟩
    · rw [List.flatMap_append, source, sources, List.flatMap_cons]
    · rw [List.flatMap_append, inner, inners, List.flatMap_cons]
    · rw [ParseState.afterAll, List.foldl_cons, ← ParseState.afterAll, later, places_append, placed,
        inner, ← List.append_assoc]
      simp only [ParseState.after, List.map_append, List.length_append]

def width (type : Option EntityType) : Nat :=
  ((DELIMS.find? fun delim => TYPES.lookup delim.1 = type).map fun delim =>
    delim.1.length + delim.2.length).getD 0

def widths (entities : List (Option EntityType × Nat × Nat)) : Nat :=
  (entities.map fun entity => width entity.1).sum

theorem widths_append (entities more : List (Option EntityType × Nat × Nat)) :
    widths (entities ++ more) = widths entities + widths more := by
  rw [widths, List.map_append, List.sum_append, widths, widths]

theorem width_type {delim : Delim} (listed : delim ∈ DELIMS) :
    width (TYPES.lookup delim.1) = delim.1.length + delim.2.length := by
  revert delim
  decide

theorem length_source (offset : Nat) (parts : List Part) :
    (parts.flatMap Part.source).length =
      (parts.flatMap Part.inner).length + widths (places offset parts) := by
  induction parts generalizing offset with
  | nil => rfl
  | cons part parts ih =>
    rw [List.flatMap_cons, List.length_append, List.flatMap_cons, List.length_append]
    cases part with
    | char c =>
      have rest := ih (offset + 1)
      simp only [Part.source, Part.inner, places, List.length_singleton]
      omega
    | entity delim content =>
      have rest := ih (offset + content.length)
      have here := width_type delim.2
      simp only [Part.source, Part.inner, places, widths, List.map_cons, List.sum_cons,
        List.length_append] at rest ⊢
      omega

def lost : Token Char Piece → Nat
  | .found (.unclosed got) raw => raw.length - got.length
  | _ => 0

theorem length_raw {s : ParseState} {t : Token Char Piece} (read : WellRead t)
    (flat : '\x7b' ∉ t.raw) :
    t.raw.length = (shown t).length + widths ((s.noted t).map Entity.place) + lost t := by
  match t, read with
  | .plain c, _ => rfl
  | .found _ _, .placeholder _ => exact absurd List.mem_cons_self flat
  | .found _ _, .unended => exact absurd List.mem_cons_self flat
  | .found _ _, @Reads.entity delim listed content =>
    obtain ⟨type, is⟩ := exists_type listed
    have here := width_type listed
    rw [is] at here
    simp only [Token.raw, shown, ParseState.noted, lost, is, Option.toList_some, List.map_cons,
      List.map_nil, widths, List.sum_cons, List.sum_nil, Entity.place, here, List.length_append]
    omega
  | .found _ _, @Reads.unclosed delim listed gone one =>
    simp only [Token.raw, shown, ParseState.noted, lost, List.map_nil, widths, List.sum_nil,
      List.length_append]
    omega

theorem length_raws {s : ParseState} {ts : List (Token Char Piece)}
    (read : ∀ t ∈ ts, WellRead t) (flat : '\x7b' ∉ ts.flatMap Token.raw) :
    (ts.flatMap Token.raw).length + widths (s.entities.map Entity.place) =
      (ts.flatMap shown).length + widths ((s.afterAll ts).entities.map Entity.place) +
        (ts.map lost).sum := by
  induction ts generalizing s with
  | nil =>
    simp only [List.flatMap_nil, List.length_nil, List.map_nil, List.sum_nil,
      ParseState.afterAll, List.foldl_nil]
    omega
  | cons t ts ih =>
    rw [List.flatMap_cons, List.mem_append, not_or] at flat
    have rest := ih (s := s.after t) (fun u mem => read u (List.mem_cons_of_mem t mem)) flat.2
    have here := length_raw (s := s) (read t List.mem_cons_self) flat.1
    have noted : widths ((s.after t).entities.map Entity.place) =
        widths (s.entities.map Entity.place) + widths ((s.noted t).map Entity.place) := by
      rw [ParseState.after, List.map_append, widths_append]
    rw [ParseState.afterAll, List.foldl_cons, ← ParseState.afterAll, List.flatMap_cons,
      List.length_append, List.flatMap_cons, List.length_append, List.map_cons, List.sum_cons]
    omega

theorem unharmed_of_lost {ts : List (Token Char Piece)} (read : ∀ t ∈ ts, WellRead t)
    (none : (ts.map lost).sum = 0) : Unharmed ts := by
  intro got raw mem
  have zero : lost (.found (.unclosed got) raw) = 0 :=
    List.sum_eq_zero_iff_forall_eq_nat.mp none _ (List.mem_map_of_mem mem)
  cases read _ mem with
  | unclosed listed one =>
    rw [lost, List.length_append, Nat.add_sub_cancel_left] at zero
    rw [List.length_eq_zero_iff.mp zero, List.append_nil]

theorem calm_of_flat {ts : List (Token Char Piece)} (read : ∀ t ∈ ts, WellRead t)
    (flat : '\x7b' ∉ ts.flatMap Token.raw) : ∀ t ∈ ts, ¬ Raises t := by
  intro t mem raises
  match t, raises, read t mem with
  | .found .unended _, _, .unended =>
    exact flat (List.mem_flatMap_of_mem mem List.mem_cons_self)

/-- A template without curly braces is always parsed, and nothing of its text is lost unless a
character stands behind a delimiter that nothing closes: that character is. -/
theorem parseEntities_keeps_iff {text : List Char}
    (flat : ∀ c ∈ text, c ≠ '\x7b' ∧ c ≠ '\x7d') :
    (∃ parsed, parseEntities text = .ok parsed ∧ Keeps text parsed) ↔
      Unharmed (tokens pieceAt none text) := by
  have read := wellRead_tokens text
  have raws := pieceAt_forward.raw_tokens text
  have noCurly : '\x7b' ∉ (tokens pieceAt none text).flatMap Token.raw := by
    rw [raws]
    exact fun mem => (flat _ mem).1 rfl
  constructor
  · rintro ⟨parsed, done, parts, source, inner, placed⟩
    obtain ⟨-, rfl⟩ := parseEntities_eq_ok_iff.mp done
    have counted := length_raws (s := {}) read noCurly
    have split := length_source 0 parts
    rw [resultText_afterAll, List.nil_append] at inner
    rw [raws] at counted
    rw [source, inner, placed] at split
    apply unharmed_of_lost read
    have nothing : widths (List.map Entity.place (ParseState.entities {})) = 0 := rfl
    omega
  · intro unharmed
    obtain ⟨parts, source, inner, placed⟩ := exists_parts_all (s := {}) read noCurly unharmed
    refine ⟨_, parseEntities_eq_ok_iff.mpr ⟨calm_of_flat read noCurly, rfl⟩, parts, ?_, ?_, ?_⟩
    · rw [source, raws]
    · rw [inner, resultText_afterAll]
      rfl
    · rw [placed]
      rfl

theorem bold_keeps : (∀ c ∈ ['a', '*', '*', 'b', '*', '*'], c ≠ '\x7b' ∧ c ≠ '\x7d') ∧
    ∃ parsed, parseEntities ['a', '*', '*', 'b', '*', '*'] = .ok parsed ∧
      Keeps ['a', '*', '*', 'b', '*', '*'] parsed := by
  have flat : ∀ c ∈ ['a', '*', '*', 'b', '*', '*'], c ≠ '\x7b' ∧ c ≠ '\x7d' := by simp
  refine ⟨flat, (parseEntities_keeps_iff flat).mpr ?_⟩
  have read : tokens pieceAt none ['a', '*', '*', 'b', '*', '*'] =
      [.plain 'a', .found (.entity (BOLD_DELIM, BOLD_DELIM) ['b']) ['*', '*', 'b', '*', '*']] :=
    rfl
  rw [read]
  intro got raw mem
  simp at mem

/-- `**ab` becomes `**b`. -/
theorem letter_lost : ¬ ∀ text : List Char, (∀ c ∈ text, c ≠ '\x7b' ∧ c ≠ '\x7d') →
    ∃ parsed, parseEntities text = .ok parsed ∧ Keeps text parsed := by
  intro keeps
  obtain ⟨parsed, done, parts, source, inner, placed⟩ := keeps ['*', '*', 'a', 'b'] (by simp)
  have is : parseEntities ['*', '*', 'a', 'b'] = .ok ⟨['*', '*', 'b'], [], []⟩ := rfl
  rw [is] at done
  cases done
  have split := length_source 0 parts
  rw [source, inner, placed] at split
  exact absurd split (by decide)

end Piltover.Templates
