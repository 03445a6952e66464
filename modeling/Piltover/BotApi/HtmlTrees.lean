/- source: piltover/app/utils/bot_api/parse_mode.py
   digest: The text and the entities of a tree of tags; tags with a hyphen are no tags. -/

import Piltover.BotApi.Html

set_option autoImplicit false

namespace Piltover.BotApi

open Piltover.Foundation.Matching

/-! ### Trees -/

/-- The tags that the parser has a type of entity for, with their attributes. -/
inductive Tag
  | b | strong | i | em | u | ins | s | strike | del | code | blockquote
  | pre (language : List Char)
  | a (href : List Char) (some : href ≠ [])
  | span
  | tgSpoiler
  | tgEmoji (id : List Char) (some : id ≠ []) (numeric : ∀ c ∈ id, isAsciiDigit c = true)

def Tag.name : Tag → List Char
  | .b => ['b']
  | .strong => ['s', 't', 'r', 'o', 'n', 'g']
  | .i => ['i']
  | .em => ['e', 'm']
  | .u => ['u']
  | .ins => ['i', 'n', 's']
  | .s => ['s']
  | .strike => ['s', 't', 'r', 'i', 'k', 'e']
  | .del => ['d', 'e', 'l']
  | .code => ['c', 'o', 'd', 'e']
  | .pre _ => ['p', 'r', 'e']
  | .blockquote => ['b', 'l', 'o', 'c', 'k', 'q', 'u', 'o', 't', 'e']
  | .a _ _ => ['a']
  | .span => ['s', 'p', 'a', 'n']
  | .tgSpoiler => TG_SPOILER
  | .tgEmoji _ _ _ => ['t', 'g', '-', 'e', 'm', 'o', 'j', 'i']

def Tag.extra : Tag → Attrs
  | .a href _ => [(HREF, href)]
  | .span => [(CLASS, TG_SPOILER)]
  | .tgEmoji id _ _ => [(EMOJI_ID, id)]
  | .pre language => if language = [] then [] else [(LANGUAGE, language)]
  | _ => []

def Tag.entityType : Tag → EntityType
  | .b | .strong => .bold
  | .i | .em => .italic
  | .u | .ins => .underline
  | .s | .strike | .del => .strike
  | .code => .code
  | .pre _ => .pre
  | .blockquote => .blockquote
  | .a _ _ => .textUrl
  | .span | .tgSpoiler => .spoiler
  | .tgEmoji _ _ _ => .customEmoji

/-- The entity of a node whose content has this place. -/
def Tag.entity (tag : Tag) (offset length : Nat) : MessageEntity where
  type := tag.entityType
  offset := offset
  length := length
  url := match tag with
    | .a href _ => some href
    | _ => none
  language := match tag with
    | .pre language => if language = [] then none else some language
    | _ => none
  documentId := match tag with
    | .tgEmoji id _ _ => some (numberOf 10 id)
    | _ => none

/-- An attribute in an opening tag. -/
def attrText (name value : List Char) : List Char :=
  ' ' :: (name ++ '=' :: '"' :: (escape true value ++ ['"']))

def Tag.attrs (tag : Tag) : List Char :=
  tag.extra.flatMap fun (name, value) => attrText name value

def Tag.opening (tag : Tag) : List Char := '<' :: (tag.name ++ (tag.attrs ++ ['>']))

def Tag.closing (tag : Tag) : List Char := '<' :: '/' :: (tag.name ++ ['>'])

/-- Texts and nodes next to each other. -/
inductive Html
  | nil
  | text (leaf : List Char) (next : Html)
  | node (tag : Tag) (inside next : Html)

def Html.render : Html → List Char
  | .nil => []
  | .text leaf next => escape false leaf ++ next.render
  | .node tag inside next =>
    tag.opening ++ (inside.render ++ (tag.closing ++ next.render))

/-- The leaves, one after the other. -/
def Html.leaves : Html → List Char
  | .nil => []
  | .text leaf next => leaf ++ next.leaves
  | .node _ inside next => inside.leaves ++ next.leaves

/-- One entity for each node that has content, in the order in which they are closed. -/
def Html.entities (offset : Nat) : Html → List MessageEntity
  | .nil => []
  | .text leaf next => next.entities (offset + utf16Len leaf)
  | .node tag inside next =>
    inside.entities offset ++
      ((if inside.leaves = [] then [] else [tag.entity offset (utf16Len inside.leaves)]) ++
        next.entities (offset + utf16Len inside.leaves))

/-- The tags whose names have a hyphen. -/
def Tag.isTg : Tag → Bool
  | .tgSpoiler | .tgEmoji _ _ _ => true
  | _ => false

def Html.hasTg : Html → Bool
  | .nil => false
  | .text _ next => next.hasTg
  | .node tag inside next => tag.isTg || (inside.hasTg || next.hasTg)

/-- A block of code that does not say what language it is in. -/
def Tag.isUnnamed : Tag → Bool
  | .pre language => language.isEmpty
  | _ => false

def Html.hasUnnamed : Html → Bool
  | .nil => false
  | .text _ next => next.hasUnnamed
  | .node tag inside next =>
    tag.isUnnamed && !inside.leaves.isEmpty || (inside.hasUnnamed || next.hasUnnamed)

/-! ### Characters and attributes -/

section

variable {tables : Tables} {c : Char} {name value text rest : List Char}

theorem isSpace_of_isAlnum (alnum : isAlnum c = true) : isSpace c = false := by
  simp only [isAlnum, isLetter, isSpace, Bool.or_eq_true, Bool.and_eq_true, decide_eq_true_eq,
    Bool.or_eq_false_iff, Bool.and_eq_false_iff, decide_eq_false_iff_not, beq_eq_false_iff_ne]
    at alnum ⊢
  omega

theorem ne_of_isAlnum (alnum : isAlnum c = true) {d : Char} (other : isAlnum d = false) :
    c ≠ d := by
  intro same
  rw [same, other] at alnum
  exact Bool.noConfusion alnum

theorem mem_escapeChar {quotes : Bool} {d : Char} (mem : d ∈ escapeChar quotes c) :
    d ≠ '<' ∧ d ≠ '>' ∧ (quotes = true → d ≠ '"') := by
  have reference (s : List Char) (safe : s.all (fun d => d ≠ '<' ∧ d ≠ '>' ∧ d ≠ '"') = true)
      (mem : d ∈ s) : d ≠ '<' ∧ d ≠ '>' ∧ (quotes = true → d ≠ '"') := by
    obtain ⟨notLt, notGt, notQuote⟩ := of_decide_eq_true (List.all_eq_true.mp safe d mem)
    exact ⟨notLt, notGt, fun _ => notQuote⟩
  rw [escapeChar] at mem
  split at mem
  case isTrue => exact reference _ rfl mem
  case isFalse =>
      split at mem
      case isTrue => exact reference _ rfl mem
      case isFalse notLt =>
          split at mem
          case isTrue => exact reference _ rfl mem
          case isFalse notGt =>
              split at mem
              case isTrue => exact reference _ rfl mem
              case isFalse notQuote =>
                  rw [List.mem_singleton.mp mem]
                  exact ⟨notLt, notGt, fun quotes same => notQuote ⟨quotes, same⟩⟩

theorem mem_escape {quotes : Bool} {d : Char} (mem : d ∈ escape quotes text) :
    d ≠ '<' ∧ d ≠ '>' ∧ (quotes = true → d ≠ '"') := by
  obtain ⟨c, _, mem⟩ := List.mem_flatMap.mp mem
  exact mem_escapeChar mem

theorem takeWhile_append_cons {p : Char → Bool} (all : ∀ c ∈ text, p c = true)
    (stop : p c = false) :
    (text ++ c :: rest).takeWhile p = text := by
  rw [List.takeWhile_append_of_pos all, List.takeWhile_cons_of_neg (by rw [stop]; decide),
    List.append_nil]

theorem dropWhile_append_cons {p : Char → Bool} (all : ∀ c ∈ text, p c = true)
    (stop : p c = false) :
    (text ++ c :: rest).dropWhile p = c :: rest := by
  rw [List.dropWhile_append_of_pos all, List.dropWhile_cons_of_neg (by rw [stop]; decide)]

theorem expect_self : expect c (c :: rest) = some rest := by rw [expect, if_pos rfl]

theorem expect_other {d : Char} (other : d ≠ c) : expect c (d :: rest) = none := by
  rw [expect, if_neg other]

theorem dropWhile_isSpace (other : isSpace c = false) :
    (c :: rest).dropWhile isSpace = c :: rest :=
  List.dropWhile_cons_of_neg (by rw [other]; decide)

theorem matchAttr_of {first : Char} (starts : isLetter first = true)
    (letters : ∀ c ∈ name, isAttrChar c = true) (quoted : ∀ c ∈ value, c ≠ '"') :
    matchAttr (first :: (name ++ '=' :: '"' :: (value ++ '"' :: rest))) =
      some ((first :: name, value), rest) := by
  have noQuote : ∀ c ∈ value, decide (c ≠ '"') = true := fun c mem =>
    decide_eq_true (quoted c mem)
  rw [matchAttr, if_pos (by rw [starts, Bool.true_or])]
  rw [takeWhile_append_cons letters (by decide), dropWhile_append_cons letters (by decide),
    dropWhile_isSpace (by decide), expect_self]
  dsimp only [bind, Option.bind]
  rw [dropWhile_isSpace (by decide), expect_self]
  dsimp only
  rw [takeWhile_append_cons noQuote (by decide), dropWhile_append_cons noQuote (by decide),
    expect_self]

theorem parseHtmlAttrs_skip (nothing : matchAttr (c :: text) = none) :
    parseHtmlAttrs tables (c :: text) = parseHtmlAttrs tables text := by
  rw [parseHtmlAttrs, htmlAttr, tokens_scan_of_none nothing, List.foldlM_cons]
  rfl

theorem parseHtmlAttrs_attrText {first : Char} (starts : isLetter first = true)
    (letters : ∀ c ∈ name, isAttrChar c = true) :
    parseHtmlAttrs tables (attrText (first :: name) value) =
      .ok [(lower (first :: name), value)] := by
  have noQuote : ∀ c ∈ escape true value, c ≠ '"' := fun c mem => (mem_escape mem).2.2 rfl
  have found : matchAttr (first :: (name ++ '=' :: '"' :: (escape true value ++ ['"']))) =
      some ((first :: name, escape true value), []) := matchAttr_of starts letters noQuote
  have whole : first :: (name ++ '=' :: '"' :: (escape true value ++ ['"'])) =
      (first :: (name ++ '=' :: '"' :: (escape true value ++ ['"']))) ++ [] :=
    (List.append_nil _).symm
  rw [whole] at found
  rw [attrText, List.cons_append, parseHtmlAttrs_skip rfl, whole, parseHtmlAttrs, htmlAttr,
    tokens_scan_of_some (List.cons_ne_nil _ _) found, tokens_nil, List.foldlM_cons]
  dsimp only
  rw [unescape_escape]
  rfl

/-! ### Tags in the text -/

theorem matchTag_of {attrs : List Char} (closing : Bool) (some : name ≠ [])
    (alnum : ∀ c ∈ name, isAlnum c = true) (stop : ∀ c ∈ attrs.head?, isAlnum c = false)
    (inside : ∀ c ∈ attrs, c ≠ '>') :
    matchTag ('<' :: ((if closing = true then ['/'] else []) ++ (name ++ (attrs ++ '>' :: rest)))) =
      .some (.tag closing name attrs, rest) := by
  have noEnd : ∀ c ∈ attrs, decide (c ≠ '>') = true := fun c mem => decide_eq_true (inside c mem)
  obtain ⟨first, others, rfl⟩ := List.exists_cons_of_ne_nil some
  have starts := alnum first List.mem_cons_self
  have notSlash : first ≠ '/' := ne_of_isAlnum starts (by decide)
  have ends : ((first :: others) ++ (attrs ++ '>' :: rest)).takeWhile isAlnum = first :: others ∧
      ((first :: others) ++ (attrs ++ '>' :: rest)).dropWhile isAlnum = attrs ++ '>' :: rest := by
    cases attrs with
    | nil => exact ⟨takeWhile_append_cons alnum (by decide),
        dropWhile_append_cons alnum (by decide)⟩
    | cons c attrs => exact ⟨takeWhile_append_cons alnum (stop c rfl),
        dropWhile_append_cons alnum (stop c rfl)⟩
  have spaces : ((first :: others) ++ (attrs ++ '>' :: rest)).dropWhile isSpace =
      (first :: others) ++ (attrs ++ '>' :: rest) := dropWhile_isSpace (isSpace_of_isAlnum starts)
  rw [matchTag, expect_self]
  dsimp only [bind, Option.bind]
  cases closing with
  | true =>
    rw [if_pos rfl, List.singleton_append, dropWhile_isSpace (by decide), expect_self,
      Option.getD_some, spaces, ends.1, ends.2, takeWhile_append_cons noEnd (by decide),
      dropWhile_append_cons noEnd (by decide), expect_self]
    rfl
  | false =>
    rw [if_neg Bool.false_ne_true, List.nil_append, spaces, List.cons_append,
      expect_other notSlash, Option.getD_none, ← List.cons_append, spaces, ends.1, ends.2,
      takeWhile_append_cons noEnd (by decide), dropWhile_append_cons noEnd (by decide),
      expect_self]
    rfl

/-! ### Runs of the loop -/

/-- The loop over what is left of the text. -/
def HtmlState.run (tables : Tables) (s : HtmlState) (text : List Char) : Except Failure HtmlState :=
  (tokens (htmlTag tables) none text).foldlM (HtmlState.step tables) s

variable {s : HtmlState}

@[simp] theorem HtmlState.run_nil : s.run tables [] = .ok s := rfl

theorem HtmlState.run_plain (notTag : c ≠ '<') (notRef : c ≠ '&') :
    s.run tables (c :: rest) = (s.appendPlain [c]).run tables rest := by
  have nothing : (matchTag (c :: rest)).or (matchEntity tables (c :: rest)) = none := by
    rw [matchTag, matchEntity, expect_other notTag, expect_other notRef]
    rfl
  rw [run, htmlTag, tokens_scan_of_none nothing, List.foldlM_cons]
  rfl

theorem HtmlState.run_found {found : List Char} {what : HtmlMatch} (some : found ≠ [])
    (matched : (matchTag (found ++ rest)).or (matchEntity tables (found ++ rest)) =
      .some (what, rest)) :
    s.run tables (found ++ rest) =
      (s.step tables (.found what found) >>= fun s => s.run tables rest) := by
  rw [run, htmlTag, tokens_scan_of_some some matched, List.foldlM_cons]
  rfl

theorem HtmlState.run_escapeChar :
    s.run tables (escapeChar false c ++ rest) = (s.appendPlain [c]).run tables rest := by
  by_cases escaped : c = '&' ∨ c = '<' ∨ c = '>'
  · have named : ∃ ref, ref ≠ [] ∧ escapeChar false c = '&' :: (ref ++ [';']) ∧
        matchRef tables (ref ++ ';' :: rest) = ref := by
      rcases escaped with rfl | rfl | rfl
      · exact ⟨['a', 'm', 'p'], by decide, rfl, rfl⟩
      · exact ⟨['l', 't'], by decide, rfl, rfl⟩
      · exact ⟨['g', 't'], by decide, rfl, rfl⟩
    obtain ⟨ref, some, same, matched⟩ := named
    have means : unescape tables.html5 ('&' :: (ref ++ [';'])) = .ok [c] := by
      rw [← same, ← List.append_nil (escapeChar false c), unescape_escapeChar]
      rfl
    have found : (matchTag (('&' :: (ref ++ [';'])) ++ rest)).or
        (matchEntity tables (('&' :: (ref ++ [';'])) ++ rest)) = .some (.entity ref, rest) := by
      rw [List.cons_append, List.append_assoc, List.singleton_append, matchTag,
        expect_other (by decide), matchEntity, expect_self]
      dsimp only [bind, Option.bind]
      rw [matched, List.drop_left, expect_self, Option.none_or]
      dsimp only
      rw [if_neg some]
    rw [same, run_found (List.cons_ne_nil _ _) found, step, means]
    rfl
  · have same : escapeChar false c = [c] := by
      rw [escapeChar, if_neg fun h => escaped (.inl h), if_neg fun h => escaped (.inr (.inl h)),
        if_neg fun h => escaped (.inr (.inr h)), if_neg fun h => Bool.false_ne_true h.1]
    rw [same, List.singleton_append]
    exact run_plain (fun h => escaped (.inr (.inl h))) (fun h => escaped (.inl h))

@[simp] theorem utf16Len_nil : utf16Len [] = 0 := rfl

theorem utf16Len_append : utf16Len (text ++ rest) = utf16Len text + utf16Len rest := by
  rw [utf16Len, List.map_append, List.sum_append, utf16Len, utf16Len]

theorem utf16Len_pos (some : text ≠ []) : 0 < utf16Len text := by
  obtain ⟨c, others, rfl⟩ := List.exists_cons_of_ne_nil some
  rw [utf16Len, List.map_cons, List.sum_cons]
  split <;> omega

@[simp] theorem HtmlState.appendPlain_nil : s.appendPlain [] = s := by
  rw [appendPlain, List.append_nil, utf16Len_nil, Nat.add_zero]

theorem HtmlState.appendPlain_append :
    s.appendPlain (text ++ value) = (s.appendPlain text).appendPlain value := by
  simp only [appendPlain, utf16Len_append, List.append_assoc, Nat.add_assoc]

theorem HtmlState.run_escape :
    s.run tables (escape false text ++ rest) = (s.appendPlain text).run tables rest := by
  induction text generalizing s with
  | nil => rw [appendPlain_nil]; rfl
  | cons c text ih =>
    have order : escape false (c :: text) ++ rest =
        escapeChar false c ++ (escape false text ++ rest) := by
      rw [escape, List.flatMap_cons, List.append_assoc, escape]
    rw [order, run_escapeChar, ih, ← appendPlain_append, List.singleton_append]

theorem HtmlState.run_tag {attrs raw : List Char} (closing : Bool) (some : name ≠ [])
    (alnum : ∀ c ∈ name, isAlnum c = true) (stop : ∀ c ∈ attrs.head?, isAlnum c = false)
    (inside : ∀ c ∈ attrs, c ≠ '>')
    (whole : raw = '<' :: ((if closing = true then ['/'] else []) ++ (name ++ (attrs ++ ['>'])))) :
    s.run tables (raw ++ rest) =
      (s.step tables (.found (.tag closing name attrs) raw) >>= fun s => s.run tables rest) := by
  have order : raw ++ rest =
      '<' :: ((if closing = true then ['/'] else []) ++ (name ++ (attrs ++ '>' :: rest))) := by
    rw [whole, List.cons_append, List.append_assoc, List.append_assoc, List.append_assoc,
      List.singleton_append]
  have tag : matchTag (raw ++ rest) = .some (.tag closing name attrs, rest) := by
    rw [order]
    exact matchTag_of closing some alnum stop inside
  exact run_found (by rw [whole]; exact List.cons_ne_nil _ _) (by rw [tag, Option.some_or])

end

/-! ### The tags of a tree -/

section

variable {tables : Tables} {tag : Tag} {rest : List Char} {s : HtmlState}

/-- The name of a tag with a hyphen ends before it. -/
def TG : List Char := ['t', 'g']

theorem TG_alnum : ∀ c ∈ TG, isAlnum c = true := List.all_eq_true.mp rfl

theorem Tag.name_ne_nil : tag.name ≠ [] := by cases tag <;> exact List.cons_ne_nil _ _

theorem Tag.name_alnum (plain : tag.isTg = false) : tag.name.all isAlnum = true := by
  cases tag <;> first | rfl | exact Bool.noConfusion plain

theorem Tag.name_ne_tg (plain : tag.isTg = false) : tag.name ≠ TG := by
  intro same
  have lengths := congrArg List.length same
  cases tag
  case em => exact absurd same (by decide)
  all_goals first | exact Bool.noConfusion plain | cases lengths

theorem Tag.attrs_stop : ∀ c ∈ tag.attrs.head?, isAlnum c = false := by
  intro c first
  have none : tag.attrs.head?.all (fun c => !isAlnum c) = true := by
    cases tag
    case pre language => cases language <;> rfl
    all_goals rfl
  rw [Option.mem_def.mp first] at none
  exact (Bool.not_eq_true' _).mp none

theorem Tag.extra_names : tag.extra.all (fun p => p.1.all isAttrChar) = true := by
  cases tag
  case pre language => cases language <;> rfl
  all_goals rfl

theorem Tag.attrs_inside {c : Char} (mem : c ∈ tag.attrs) : c ≠ '>' := by
  obtain ⟨⟨name, value⟩, listed, mem⟩ := List.mem_flatMap.mp mem
  have letters := List.all_eq_true.mp (List.all_eq_true.mp Tag.extra_names _ listed)
  rcases List.mem_cons.mp mem with rfl | mem
  · decide
  rcases List.mem_append.mp mem with inName | mem
  · intro same
    have letter := letters c inName
    rw [same] at letter
    exact absurd letter (by decide)
  rcases List.mem_cons.mp mem with rfl | mem
  · decide
  rcases List.mem_cons.mp mem with rfl | mem
  · decide
  rcases List.mem_append.mp mem with inValue | quote
  · exact (mem_escape inValue).2.1
  · rw [List.mem_singleton.mp quote]
    decide

theorem Tag.parseHtmlAttrs_attrs : parseHtmlAttrs tables tag.attrs = .ok tag.extra := by
  have one (first : Char) (name value : List Char) (starts : isLetter first = true)
      (letters : name.all isAttrChar = true) (lowered : lower (first :: name) = first :: name) :
      parseHtmlAttrs tables (attrText (first :: name) value ++ []) =
        .ok [(first :: name, value)] := by
    rw [List.append_nil, parseHtmlAttrs_attrText starts (List.all_eq_true.mp letters), lowered]
  cases tag
  case a href some => exact one 'h' ['r', 'e', 'f'] href rfl rfl rfl
  case span => exact one 'c' ['l', 'a', 's', 's'] TG_SPOILER rfl rfl rfl
  case pre language =>
      cases language with
      | nil => rfl
      | cons c cs => exact one 'l' ['a', 'n', 'g', 'u', 'a', 'g', 'e'] (c :: cs) rfl rfl rfl
  case tgEmoji id some numeric =>
      exact one 'e' ['m', 'o', 'j', 'i', '-', 'i', 'd'] id rfl rfl rfl
  all_goals rfl

theorem Tag.step_opening (plain : tag.isTg = false) {raw : List Char} :
    s.step tables (.found (.tag false tag.name tag.attrs) raw) =
      .ok { s with stack := ⟨tag.name, tag.entityType, s.offset, tag.extra⟩ :: s.stack } := by
  have lowered : lower tag.name = tag.name := by cases tag <;> rfl
  have known : entityFromOpenTag tag.name tag.extra = some tag.entityType := by
    cases tag <;> rfl
  rw [HtmlState.step, parseHtmlAttrs_attrs, lowered]
  dsimp only [bind, Except.bind]
  rw [if_neg Bool.false_ne_true, HtmlState.openTag, known]
  cases tag
  case a href some => exact if_neg fun bad => some bad.2
  case tgEmoji => exact Bool.noConfusion plain
  all_goals rfl

theorem Tag.unnamed_iff :
    (tag.entityType = .pre ∧
      (if tag.entityType = .pre then (tag.extra.lookup LANGUAGE).filter (· ≠ []) else none) =
        none) ↔ tag.isUnnamed = true := by
  cases tag
  case pre language => cases language <;> simp [entityType, extra, isUnnamed]
  all_goals exact iff_of_false (fun h => by cases h.1) Bool.false_ne_true

theorem Tag.step_closing (plain : tag.isTg = false) {raw : List Char} {start : Nat}
    {older : List OpenTag}
    (last : s.stack = ⟨tag.name, tag.entityType, start, tag.extra⟩ :: older) :
    s.step tables (.found (.tag true tag.name []) raw) =
      if tag.isUnnamed = true ∧ start < s.offset then .error .other
      else .ok { s with
        stack := older
        entities := s.entities ++
          if s.offset ≤ start then [] else [tag.entity start (s.offset - start)] } := by
  have lowered : lower tag.name = tag.name := by cases tag <;> rfl
  have parsed : parseHtmlAttrs tables [] = .ok [] := rfl
  rw [HtmlState.step, parsed, lowered]
  dsimp only [bind, Except.bind]
  rw [if_pos rfl, HtmlState.closeTag, last, List.find?_cons_of_pos (by exact decide_eq_true rfl),
    List.eraseP_cons_of_pos (by exact decide_eq_true rfl)]
  dsimp only
  have notEmoji : ¬tag.entityType = .customEmoji := by
    intro same
    cases tag <;> first | exact Bool.noConfusion plain | cases same
  rw [if_neg notEmoji]
  dsimp only [bind, Except.bind]
  rw [appendEntity]
  by_cases empty : s.offset ≤ start
  · rw [if_pos empty, if_pos empty, if_neg fun long => Nat.not_le.mpr long.2 empty, List.append_nil]
  · rw [if_neg empty, if_neg empty]
    by_cases unnamed : tag.isUnnamed = true
    · rw [if_pos (unnamed_iff.mpr unnamed), if_pos ⟨unnamed, Nat.not_le.mp empty⟩]
    · have named : ¬(tag.isUnnamed = true ∧ start < s.offset) := fun h => unnamed h.1
      rw [if_neg (unnamed_iff.not.mpr unnamed), if_neg named]
      cases tag
      case pre language => cases language <;> rfl
      all_goals first | exact Bool.noConfusion plain | rfl

theorem Tag.run_opening (plain : tag.isTg = false) :
    s.run tables (tag.opening ++ rest) =
      { s with stack := ⟨tag.name, tag.entityType, s.offset, tag.extra⟩ :: s.stack }.run tables
        rest := by
  have whole : tag.opening = '<' ::
      ((if false = true then ['/'] else []) ++ (tag.name ++ (tag.attrs ++ ['>']))) := rfl
  rw [HtmlState.run_tag false Tag.name_ne_nil (List.all_eq_true.mp (Tag.name_alnum plain))
    Tag.attrs_stop (fun _ => Tag.attrs_inside) whole, Tag.step_opening plain]
  rfl

theorem Tag.run_closing (plain : tag.isTg = false) {start : Nat} {older : List OpenTag}
    {content : List Char} (ends : s.offset = start + utf16Len content)
    (last : s.stack = ⟨tag.name, tag.entityType, start, tag.extra⟩ :: older) :
    s.run tables (tag.closing ++ rest) =
      if tag.isUnnamed = true ∧ content ≠ [] then .error .other
      else { s with
        stack := older
        entities := s.entities ++
          if content = [] then [] else [tag.entity start (utf16Len content)] }.run tables rest := by
  have nothing : ∀ c ∈ ([] : List Char), c ≠ '>' := fun _ mem => absurd mem List.not_mem_nil
  have whole : tag.closing =
      '<' :: ((if true = true then ['/'] else []) ++ (tag.name ++ ([] ++ ['>']))) := rfl
  have added : (if s.offset ≤ start then [] else [tag.entity start (s.offset - start)]) =
      if content = [] then [] else [tag.entity start (utf16Len content)] := by
    by_cases empty : content = []
    · rw [ends, empty, utf16Len_nil, Nat.add_zero, if_pos (Nat.le_refl _), if_pos rfl]
    · have long := utf16Len_pos empty
      rw [ends, if_neg empty, if_neg (by omega), Nat.add_sub_cancel_left]
  have longer : start < s.offset ↔ content ≠ [] := by
    rw [ends]
    refine ⟨fun long empty => ?_, fun some => Nat.lt_add_of_pos_right (utf16Len_pos some)⟩
    rw [empty, utf16Len_nil] at long
    exact absurd long (Nat.lt_irrefl _)
  rw [HtmlState.run_tag true Tag.name_ne_nil (List.all_eq_true.mp (Tag.name_alnum plain))
    (fun _ first => absurd first (Option.not_mem_none _)) nothing whole,
    Tag.step_closing plain last, added]
  simp only [longer]
  split <;> rfl

theorem Tag.parseHtmlAttrs_tg (hyphen : tag.isTg = true) :
    parseHtmlAttrs tables (tag.name.drop 2 ++ tag.attrs) = .ok tag.extra ∧
      parseHtmlAttrs tables (tag.name.drop 2) = .ok [] := by
  cases tag
  case tgSpoiler => exact ⟨rfl, rfl⟩
  case tgEmoji id some numeric =>
      refine ⟨?_, rfl⟩
      rw [← Tag.parseHtmlAttrs_attrs]
      have order :
          (Tag.tgEmoji id some numeric).name.drop 2 ++ (Tag.tgEmoji id some numeric).attrs =
          '-' :: 'e' :: 'm' :: 'o' :: 'j' :: 'i' :: (Tag.tgEmoji id some numeric).attrs := rfl
      rw [order, parseHtmlAttrs_skip rfl, parseHtmlAttrs_skip rfl, parseHtmlAttrs_skip rfl,
        parseHtmlAttrs_skip rfl, parseHtmlAttrs_skip rfl, parseHtmlAttrs_skip rfl]
  all_goals exact Bool.noConfusion hyphen

theorem Tag.name_tg (hyphen : tag.isTg = true) : tag.name = TG ++ tag.name.drop 2 := by
  cases tag <;> first | exact Bool.noConfusion hyphen | rfl

theorem Tag.name_tg_stop (hyphen : tag.isTg = true) (attrs : List Char) :
    ∀ c ∈ (tag.name.drop 2 ++ attrs).head?, isAlnum c = false := by
  intro c first
  have starts : (tag.name.drop 2 ++ attrs).head? = some '-' := by
    cases tag <;> first | exact Bool.noConfusion hyphen | rfl
  rw [starts] at first
  rw [← Option.some.inj first]
  decide

theorem Tag.name_inside {c : Char} (mem : c ∈ tag.name) : c ≠ '>' := by
  have all : tag.name.all (fun c => c ≠ '>') = true := by cases tag <;> rfl
  exact of_decide_eq_true (List.all_eq_true.mp all c mem)

/-- A tag with a hyphen is a tag `tg`, which is not understood: it stays in the text. -/
theorem Tag.run_opening_tg (hyphen : tag.isTg = true) :
    s.run tables (tag.opening ++ rest) = (s.appendPlain tag.opening).run tables rest := by
  have inside : ∀ c ∈ tag.name.drop 2 ++ tag.attrs, c ≠ '>' := fun c mem =>
    (List.mem_append.mp mem).elim (fun mem => name_inside (List.mem_of_mem_drop mem)) attrs_inside
  have whole : tag.opening = '<' ::
      ((if false = true then ['/'] else []) ++
        (TG ++ (tag.name.drop 2 ++ tag.attrs ++ ['>']))) := by
    rw [opening, List.append_assoc, ← List.append_assoc TG, ← name_tg hyphen]
    rfl
  rw [HtmlState.run_tag false (List.cons_ne_nil _ _) TG_alnum (name_tg_stop hyphen _) inside whole,
    HtmlState.step, (parseHtmlAttrs_tg hyphen).1]
  rfl

theorem Tag.run_closing_tg (hyphen : tag.isTg = true)
    (clean : ∀ opened ∈ s.stack, opened.tag ≠ TG) :
    s.run tables (tag.closing ++ rest) = s.run tables rest := by
  have inside : ∀ c ∈ tag.name.drop 2, c ≠ '>' := fun c mem =>
    name_inside (List.mem_of_mem_drop mem)
  have stop : ∀ c ∈ (tag.name.drop 2).head?, isAlnum c = false := by
    have ends := name_tg_stop hyphen []
    rwa [List.append_nil] at ends
  have whole : tag.closing =
      '<' :: ((if true = true then ['/'] else []) ++ (TG ++ (tag.name.drop 2 ++ ['>']))) := by
    rw [closing, ← List.append_assoc TG, ← name_tg hyphen]
    rfl
  have nothing : s.stack.find? (fun opened => opened.tag = TG) = none :=
    List.find?_eq_none.mpr fun opened mem same => clean opened mem (of_decide_eq_true same)
  have lowered : lower TG = TG := rfl
  have some : TG ≠ [] := List.cons_ne_nil _ _
  rw [HtmlState.run_tag true some TG_alnum stop inside whole, HtmlState.step,
    (parseHtmlAttrs_tg hyphen).2, lowered]
  dsimp only [bind, Except.bind]
  rw [if_pos rfl, HtmlState.closeTag, nothing]

end

/-! ### What is parsed from a tree -/

/-- What a tag with a hyphen leaves in the text. -/
def Tag.raw (tag : Tag) : List Char := if tag.isTg = true then tag.opening else []

/-- The text that a tree is parsed to. -/
def Html.shown : Html → List Char
  | .nil => []
  | .text leaf next => leaf ++ next.shown
  | .node tag inside next => tag.raw ++ (inside.shown ++ next.shown)

/-- The entities that a tree is parsed to. -/
def Html.given (offset : Nat) : Html → List MessageEntity
  | .nil => []
  | .text leaf next => next.given (offset + utf16Len leaf)
  | .node tag inside next =>
    inside.given (offset + utf16Len tag.raw) ++
      ((if tag.isTg = true ∨ inside.shown = [] then []
        else [tag.entity offset (utf16Len inside.shown)]) ++
        next.given (offset + utf16Len tag.raw + utf16Len inside.shown))

/-- Where content is shown in a block of code without a language, nothing is parsed. -/
def Html.isRefused : Html → Bool
  | .nil => false
  | .text _ next => next.isRefused
  | .node tag inside next =>
    tag.isUnnamed && !inside.shown.isEmpty || (inside.isRefused || next.isRefused)

def HtmlState.after (s : HtmlState) (html : Html) : HtmlState :=
  { s with
    plain := s.plain ++ html.shown
    entities := s.entities ++ html.given s.offset
    offset := s.offset + utf16Len html.shown }

section

variable {tables : Tables} {html : Html} {rest : List Char} {s : HtmlState}

theorem HtmlState.run_render (clean : ∀ opened ∈ s.stack, opened.tag ≠ TG) :
    s.run tables (html.render ++ rest) =
      if html.isRefused = true then .error .other else (s.after html).run tables rest := by
  induction html generalizing s rest with
  | nil =>
    have same : s.after .nil = s := by
      simp only [after, Html.shown, Html.given, List.append_nil, utf16Len_nil, Nat.add_zero]
    rw [same, Html.isRefused, if_neg Bool.false_ne_true]
    rfl
  | text leaf next ih =>
    have same : (s.appendPlain leaf).after next = s.after (.text leaf next) := by
      simp only [after, appendPlain, Html.shown, Html.given, utf16Len_append, List.append_assoc,
        Nat.add_assoc]
    rw [Html.render, List.append_assoc, run_escape, ih (s := s.appendPlain leaf) clean, same,
      Html.isRefused]
  | node tag inside next inside_ih next_ih =>
    have order : (Html.node tag inside next).render ++ rest =
        tag.opening ++ (inside.render ++ (tag.closing ++ (next.render ++ rest))) := by
      rw [Html.render, List.append_assoc, List.append_assoc, List.append_assoc]
    cases hyphen : tag.isTg with
    | true =>
      have same : ((s.appendPlain tag.opening).after inside).after next =
          s.after (.node tag inside next) := by
        simp only [after, appendPlain, Html.shown, Html.given, Tag.raw, hyphen, if_true,
          true_or, utf16Len_append, List.append_assoc, Nat.add_assoc, List.nil_append]
      have named : tag.isUnnamed = false := by
        cases tag <;> first | exact Bool.noConfusion hyphen | rfl
      rw [order, Tag.run_opening_tg hyphen, inside_ih (s := s.appendPlain tag.opening) clean,
        Tag.run_closing_tg (s := (s.appendPlain tag.opening).after inside) hyphen clean,
        next_ih (s := (s.appendPlain tag.opening).after inside) clean, same, Html.isRefused, named,
        Bool.false_and, Bool.false_or]
      cases inside.isRefused <;> rfl
    | false =>
      let opened : HtmlState :=
        { s with stack := ⟨tag.name, tag.entityType, s.offset, tag.extra⟩ :: s.stack }
      let closed : HtmlState :=
        { opened.after inside with
          stack := s.stack
          entities := (opened.after inside).entities ++
            if inside.shown = [] then [] else [tag.entity s.offset (utf16Len inside.shown)] }
      have inner : ∀ entry ∈ opened.stack, entry.tag ≠ TG :=
        List.forall_mem_cons.mpr ⟨Tag.name_ne_tg hyphen, clean⟩
      have same : closed.after next = s.after (.node tag inside next) := by
        simp only [closed, opened, after, Html.shown, Html.given, Tag.raw, hyphen,
          Bool.false_eq_true, if_false, false_or, utf16Len_append, List.append_assoc,
          Nat.add_assoc, List.nil_append, utf16Len_nil, Nat.add_zero]
      rw [order, Tag.run_opening hyphen, inside_ih (s := opened) inner,
        Tag.run_closing (s := opened.after inside) hyphen rfl rfl, ← same, Html.isRefused]
      cases inside.isRefused with
      | true =>
        rw [if_pos rfl, Bool.true_or, Bool.or_true, if_pos rfl]
      | false =>
        rw [if_neg Bool.false_ne_true, Bool.false_or]
        by_cases unnamed : tag.isUnnamed = true ∧ inside.shown ≠ []
        · have some : inside.shown.isEmpty = false := List.isEmpty_eq_false_iff.mpr unnamed.2
          rw [if_pos unnamed, unnamed.1, some]
          rfl
        · have passes : (tag.isUnnamed && !inside.shown.isEmpty) = false := by
            rw [Bool.eq_false_iff]
            simpa using unnamed
          rw [if_neg unnamed, passes, Bool.false_or]
          exact next_ih (s := closed) clean

theorem parseHtml_render : parseHtml tables html.render =
    if html.isRefused = true then .error .other else .ok (html.shown, html.given 0) := by
  have clean : ∀ opened ∈ ({} : HtmlState).stack, opened.tag ≠ TG := fun _ mem =>
    absurd mem List.not_mem_nil
  have ran : HtmlState.run tables {} (html.render ++ []) =
      if html.isRefused = true then .error .other else (HtmlState.after {} html).run tables [] :=
    HtmlState.run_render clean
  rw [List.append_nil, HtmlState.run_nil] at ran
  rw [parseHtml]
  change (HtmlState.run tables {} html.render).map _ = _
  rw [ran]
  split <;> rfl

theorem Html.shown_eq_leaves (plain : html.hasTg = false) :
    html.shown = html.leaves ∧ ∀ offset, html.given offset = html.entities offset := by
  induction html with
  | nil => exact ⟨rfl, fun _ => rfl⟩
  | text leaf next ih =>
    obtain ⟨leaves, entities⟩ := ih plain
    exact ⟨by rw [shown, Html.leaves, leaves], fun offset => by
      rw [given, Html.entities, entities]⟩
  | node tag inside next inside_ih next_ih =>
    rw [hasTg, Bool.or_eq_false_iff, Bool.or_eq_false_iff] at plain
    obtain ⟨tagPlain, insidePlain, nextPlain⟩ := plain
    obtain ⟨insideLeaves, insideEntities⟩ := inside_ih insidePlain
    obtain ⟨nextLeaves, nextEntities⟩ := next_ih nextPlain
    have raw : tag.raw = [] := by rw [Tag.raw, tagPlain, if_neg Bool.false_ne_true]
    refine ⟨?_, fun offset => ?_⟩
    · rw [shown, Html.leaves, insideLeaves, nextLeaves, raw, List.nil_append]
    · simp only [given, Html.entities, insideLeaves, insideEntities, nextEntities, raw, tagPlain,
        utf16Len_nil, Nat.add_zero, Bool.false_eq_true, false_or]

theorem Html.isRefused_eq (plain : html.hasTg = false) : html.isRefused = html.hasUnnamed := by
  induction html with
  | nil => rfl
  | text leaf next ih => exact ih plain
  | node tag inside next inside_ih next_ih =>
    rw [hasTg, Bool.or_eq_false_iff, Bool.or_eq_false_iff] at plain
    rw [isRefused, hasUnnamed, inside_ih plain.2.1, next_ih plain.2.2,
      (shown_eq_leaves plain.2.1).1]

theorem Html.length_shown :
    html.leaves.length + (if html.hasTg = true then 1 else 0) ≤ html.shown.length := by
  induction html with
  | nil => exact Nat.le_refl _
  | text leaf next ih =>
    rw [leaves, shown, hasTg, List.length_append, List.length_append, Nat.add_assoc]
    exact Nat.add_le_add_left ih _
  | node tag inside next inside_ih next_ih =>
    rw [leaves, shown, hasTg, List.length_append, List.length_append, List.length_append]
    have raw : (if tag.isTg = true then 1 else 0) ≤ tag.raw.length := by
      rw [Tag.raw]
      split
      case isTrue => exact Nat.succ_le_succ (Nat.zero_le _)
      case isFalse => exact Nat.le_refl _
    have any : ∀ a b c : Bool, (if (a || (b || c)) = true then 1 else 0) ≤
        (if a = true then 1 else 0) +
          ((if b = true then 1 else 0) + (if c = true then 1 else 0)) := by decide
    have one := any tag.isTg inside.hasTg next.hasTg
    omega

/-- The text is the leaves and the entities are those of the nodes exactly when no tag has a
hyphen and every block of code with content has a language, however the tree is nested. -/
theorem parseHtml_right_iff (tables : Tables) (html : Html) :
    parseHtml tables html.render = .ok (html.leaves, html.entities 0) ↔
      html.hasTg = false ∧ html.hasUnnamed = false := by
  rw [parseHtml_render]
  constructor
  · intro right
    cases refused : html.isRefused with
    | true =>
      rw [refused, if_pos rfl] at right
      cases right
    | false =>
    rw [refused, if_neg Bool.false_ne_true] at right
    have leaves : html.shown = html.leaves := (Prod.mk.inj (Except.ok.inj right)).1
    have long := html.length_shown
    rw [leaves] at long
    cases hyphen : html.hasTg with
    | false => exact ⟨rfl, (Html.isRefused_eq hyphen).symm.trans refused⟩
    | true =>
      rw [hyphen, if_pos rfl] at long
      omega
  · rintro ⟨plain, named⟩
    rw [Html.isRefused_eq plain, named, if_neg Bool.false_ne_true, (Html.shown_eq_leaves plain).1,
      (Html.shown_eq_leaves plain).2]

end

/-! ### `<tg-spoiler>x</tg-spoiler>` -/

private def sampleTables : Tables where
  html5 :=
    { lookup := fun name => List.lookup name [(['a', 'm', 'p', ';'], ['&']),
        (['l', 't', ';'], ['<']), (['g', 't', ';'], ['>']), (['q', 'u', 'o', 't', ';'], ['"'])]
      amp := rfl
      lt := rfl
      gt := rfl
      quot := rfl }
  decimal := fun c => if isAsciiDigit c = true then some (digitValue c) else none
  isDigit := isAsciiDigit

private def spoiler : Html := .node .tgSpoiler (.text ['x'] .nil) .nil

/-- The opening tag is part of the text, and there is no entity. -/
theorem spoiler_in_text : ¬ ∀ (tables : Tables) (html : Html),
    parseHtml tables html.render = .ok (html.leaves, html.entities 0) := by
  intro right
  have parsed : parseHtml sampleTables spoiler.render =
      .ok ('<' :: (TG_SPOILER ++ ['>', 'x']), []) := rfl
  have claimed := right sampleTables spoiler
  rw [parsed] at claimed
  exact absurd (Prod.mk.inj (Except.ok.inj claimed)).1 (by decide)

end Piltover.BotApi
