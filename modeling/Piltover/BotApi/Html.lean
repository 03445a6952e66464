/- source: piltover/app/utils/bot_api/parse_mode.py
   digest: Messages in HTML, as bots write them: the tags that are understood. -/

import Mathlib.Algebra.Ring.Nat
import Piltover.BotApi.Unescape

set_option autoImplicit false

namespace Piltover.BotApi

open Piltover.Foundation.Matching

/-! ### Characters -/

/-- What the standard library knows about characters: the values of decimal digits, which are what
`\d` matches, and which characters `str.isdigit` accepts. -/
structure Tables where
  html5 : Html5
  decimal : Char → Option Nat
  isDigit : Char → Bool

/-- `[a-zA-Z]` -/
def isLetter (c : Char) : Bool :=
  (0x41 ≤ c.toNat && c.toNat ≤ 0x5a) || (0x61 ≤ c.toNat && c.toNat ≤ 0x7a)

/-- `[a-zA-Z0-9]` -/
def isAlnum (c : Char) : Bool := isLetter c || (0x30 ≤ c.toNat && c.toNat ≤ 0x39)

/-- `\s` -/
def isSpace (c : Char) : Bool :=
  (0x9 ≤ c.toNat && c.toNat ≤ 0xd) || (0x1c ≤ c.toNat && c.toNat ≤ 0x20) || c.toNat == 0x85 ||
    c.toNat == 0xa0 || c.toNat == 0x1680 || (0x2000 ≤ c.toNat && c.toNat ≤ 0x200a) ||
    c.toNat == 0x2028 || c.toNat == 0x2029 || c.toNat == 0x202f || c.toNat == 0x205f ||
    c.toNat == 0x3000

/-- `str.lower`, for the letters that can occur in the name of a tag or an attribute. -/
def lower (text : List Char) : List Char :=
  text.map fun c => if 0x41 ≤ c.toNat && c.toNat ≤ 0x5a then Char.ofNat (c.toNat + 0x20) else c

/-- `utf16_len`: characters outside of the basic plane take two units. -/
def utf16Len (text : List Char) : Nat :=
  (text.map fun c => if c.toNat ≤ 0xffff then 1 else 2).sum

/-! ### The regular expressions -/

/-- What `_HTML_TAG_RE` finds; a tag always has a name. -/
inductive HtmlMatch
  | tag (closing : Bool) (name attrs : List Char)
  | entity (ref : List Char)
  deriving DecidableEq, Repr

def expect (c : Char) : List Char → Option (List Char)
  | [] => none
  | d :: rest => if d = c then some rest else none

/-- The first alternative, and what follows the match. -/
def matchTag (text : List Char) : Option (HtmlMatch × List Char) := do
  let text ← expect '<' text
  let text := text.dropWhile isSpace
  let closing := (expect '/' text).isSome
  let text := ((expect '/' text).getD text).dropWhile isSpace
  let name := text.takeWhile isAlnum
  let text := text.dropWhile isAlnum
  let attrs := text.takeWhile (· ≠ '>')
  let rest ← expect '>' (text.dropWhile (· ≠ '>'))
  if name = [] then none else some (.tag closing name attrs, rest)

/-- `\d`, and `[\da-fA-F]`. -/
def Tables.isDecimal (tables : Tables) (c : Char) : Bool := (tables.decimal c).isSome

def Tables.isHex (tables : Tables) (c : Char) : Bool :=
  tables.isDecimal c || ('a' ≤ c && c ≤ 'f') || ('A' ≤ c && c ≤ 'F')

/-- The group of the second alternative; nothing where it has no characters. -/
def matchRef (tables : Tables) (text : List Char) : List Char :=
  match text with
  | '#' :: 'x' :: hex =>
    let digits := hex.takeWhile tables.isHex
    if digits = [] then [] else '#' :: 'x' :: digits
  | '#' :: number =>
    let digits := number.takeWhile tables.isDecimal
    if digits = [] then [] else '#' :: digits
  | _ => text.takeWhile isLetter

/-- The second alternative, and what follows the match. -/
def matchEntity (tables : Tables) (text : List Char) : Option (HtmlMatch × List Char) := do
  let text ← expect '&' text
  let ref := matchRef tables text
  let rest ← expect ';' (text.drop ref.length)
  if ref = [] then none else some (.entity ref, rest)

/-- `_HTML_TAG_RE`. -/
def htmlTag (tables : Tables) : Pattern Char HtmlMatch :=
  .scan fun text => (matchTag text).or (matchEntity tables text)

/-- `[-a-zA-Z0-9_:.]` -/
def isAttrChar (c : Char) : Bool := isAlnum c || ['-', '_', ':', '.'].contains c

def matchAttr : List Char → Option ((List Char × List Char) × List Char)
  | [] => none
  | first :: others =>
    if isLetter first || ['_', ':'].contains first then do
      let name := first :: others.takeWhile isAttrChar
      let text ← expect '=' ((others.dropWhile isAttrChar).dropWhile isSpace)
      let text ← expect '"' (text.dropWhile isSpace)
      let value := text.takeWhile (· ≠ '"')
      let rest ← expect '"' (text.dropWhile (· ≠ '"'))
      some ((name, value), rest)
    else none

/-- `_HTML_ATTR_RE`. -/
def htmlAttr : Pattern Char (List Char × List Char) := .scan matchAttr

/-! ### Entities -/

inductive EntityType
  | bold | italic | underline | strike | code | pre | blockquote | textUrl | customEmoji | spoiler
  deriving DecidableEq, Repr

structure MessageEntity where
  type : EntityType
  offset : Nat
  length : Nat
  url : Option (List Char) := none
  language : Option (List Char) := none
  documentId : Option Nat := none
  deriving DecidableEq, Repr

/-- The attributes of a tag, the last ones first. -/
abbrev Attrs := List (List Char × List Char)

structure OpenTag where
  tag : List Char
  entityType : EntityType
  startOffset : Nat
  extra : Attrs
  deriving DecidableEq, Repr

def parseHtmlAttrs (tables : Tables) (raw : List Char) : Except Failure Attrs :=
  (tokens htmlAttr none raw).foldlM (fun attrs token =>
    match token with
    | .plain _ => .ok attrs
    | .found (name, value) _ =>
      (unescape tables.html5 value).map fun value => (lower name, value) :: attrs) []

def BOLD_TAGS : List (List Char) := [['b'], ['s', 't', 'r', 'o', 'n', 'g']]

def ITALIC_TAGS : List (List Char) := [['i'], ['e', 'm']]

def UNDERLINE_TAGS : List (List Char) := [['u'], ['i', 'n', 's']]

def STRIKE_TAGS : List (List Char) :=
  [['s'], ['s', 't', 'r', 'i', 'k', 'e'], ['d', 'e', 'l']]

def TG_SPOILER : List Char := ['t', 'g', '-', 's', 'p', 'o', 'i', 'l', 'e', 'r']

def SPOILER_TAGS : List (List Char) := [TG_SPOILER, ['s', 'p', 'a', 'n']]

def CODE_TAGS : List (List Char) := [['c', 'o', 'd', 'e']]

def PRE_TAGS : List (List Char) := [['p', 'r', 'e']]

def LINK_TAGS : List (List Char) := [['a']]

def BLOCKQUOTE_TAGS : List (List Char) := [['b', 'l', 'o', 'c', 'k', 'q', 'u', 'o', 't', 'e']]

def EMOJI_TAGS : List (List Char) := [['t', 'g', '-', 'e', 'm', 'o', 'j', 'i']]

def CLASS : List Char := ['c', 'l', 'a', 's', 's']

def HREF : List Char := ['h', 'r', 'e', 'f']

def LANGUAGE : List Char := ['l', 'a', 'n', 'g', 'u', 'a', 'g', 'e']

def EMOJI_ID : List Char := ['e', 'm', 'o', 'j', 'i', '-', 'i', 'd']

def entityFromOpenTag (tag : List Char) (attrs : Attrs) : Option EntityType :=
  if BOLD_TAGS.contains tag then some .bold
  else if ITALIC_TAGS.contains tag then some .italic
  else if UNDERLINE_TAGS.contains tag then some .underline
  else if STRIKE_TAGS.contains tag then some .strike
  else if CODE_TAGS.contains tag then some .code
  else if PRE_TAGS.contains tag then some .pre
  else if BLOCKQUOTE_TAGS.contains tag then some .blockquote
  else if LINK_TAGS.contains tag then some .textUrl
  else if EMOJI_TAGS.contains tag then some .customEmoji
  else if SPOILER_TAGS.contains tag && (tag == TG_SPOILER || attrs.lookup CLASS == some TG_SPOILER)
  then some .spoiler
  else none

def appendEntity (entities : List MessageEntity) (entityType : EntityType)
    (startOffset endOffset : Nat) (url language : Option (List Char)) (documentId : Option Nat) :
    Except Failure (List MessageEntity) :=
  if endOffset ≤ startOffset then .ok entities
  -- `MessageEntityPre` has to be given a language.
  else if entityType = .pre ∧ language = none then .error .other
  else
    .ok (entities ++
      [⟨entityType, startOffset, endOffset - startOffset, url, language, documentId⟩])

theorem appendEntity_eq_ok {entities after : List MessageEntity} {type : EntityType}
    {start stop : Nat} {url language : Option (List Char)} {documentId : Option Nat} :
    appendEntity entities type start stop url language documentId = .ok after ↔
      (type = .pre → start < stop → language ≠ none) ∧
        after = entities ++ if stop ≤ start then []
          else [⟨type, start, stop - start, url, language, documentId⟩] := by
  rw [appendEntity]
  split
  case isTrue empty =>
      rw [List.append_nil, Except.ok.injEq, eq_comm]
      exact (and_iff_right fun _ long => absurd empty (Nat.not_le.mpr long)).symm
  case isFalse long =>
      split
      case isTrue unnamed =>
          exact iff_of_false (fun same => (by cases same)) fun given =>
            given.1 unnamed.1 (Nat.not_le.mp long) unnamed.2
      case isFalse named =>
          rw [Except.ok.injEq, eq_comm]
          exact (and_iff_right fun pre _ none => named ⟨pre, none⟩).symm

/-- `int` of a string that is not empty. -/
def toInt (tables : Tables) (digits : List Char) : Except Failure Nat :=
  if digits.length ≤ MAX_STR_DIGITS then
    match digits.mapM tables.decimal with
    | some values => .ok (values.foldl (fun n value => n * 10 + value) 0)
    | none => .error .other
  else .error .other

/-! ### `parse_html` -/

/-- What the loop has so far; the tag opened last is the first of the stack. -/
structure HtmlState where
  plain : List Char := []
  entities : List MessageEntity := []
  stack : List OpenTag := []
  offset : Nat := 0
  deriving DecidableEq, Repr

def HtmlState.appendPlain (s : HtmlState) (chunk : List Char) : HtmlState :=
  { s with
    plain := s.plain ++ chunk
    offset := s.offset + utf16Len chunk }

def emptyHref : Failure := .rpc 400 "Bad Request: can't parse entities: empty href"

def invalidEmojiId : Failure := .rpc 400 "Bad Request: can't parse entities: invalid emoji-id"

def HtmlState.closeTag (tables : Tables) (s : HtmlState) (tag : List Char) :
    Except Failure HtmlState :=
  match s.stack.find? fun opened => opened.tag = tag with
  | none => .ok s
  | some opened => do
      let documentId ←
        if opened.entityType = .customEmoji then
          (toInt tables ((opened.extra.lookup EMOJI_ID).getD ['0'])).map some
        else .ok none
      let url :=
        if opened.entityType = .textUrl then some ((opened.extra.lookup HREF).getD []) else none
      let language :=
        if opened.entityType = .pre then (opened.extra.lookup LANGUAGE).filter (· ≠ []) else none
      let entities ← appendEntity s.entities opened.entityType opened.startOffset s.offset url
        language documentId
      .ok { s with
        stack := s.stack.eraseP fun opened => opened.tag = tag
        entities := entities }

def HtmlState.openTag (tables : Tables) (s : HtmlState) (tag : List Char) (attrs : Attrs)
    (raw : List Char) : Except Failure HtmlState :=
  match entityFromOpenTag tag attrs with
  | none => .ok (s.appendPlain raw)
  | some entityType =>
    if entityType = .textUrl ∧ (attrs.lookup HREF).getD [] = [] then .error emptyHref
    else if entityType = .customEmoji ∧
        ((attrs.lookup EMOJI_ID).getD [] = [] ∨
          ((attrs.lookup EMOJI_ID).getD []).all tables.isDigit = false) then
      .error invalidEmojiId
    else .ok { s with stack := ⟨tag, entityType, s.offset, attrs⟩ :: s.stack }

/-- A turn of the loop; the characters between two matches are appended one by one. -/
def HtmlState.step (tables : Tables) (s : HtmlState) : Token Char HtmlMatch →
    Except Failure HtmlState
  | .plain c => .ok (s.appendPlain [c])
  | .found (.entity ref) _ =>
    (unescape tables.html5 ('&' :: (ref ++ [';']))).map s.appendPlain
  | .found (.tag closing tagName attrsRaw) raw => do
      let tag := lower tagName
      let attrs ← parseHtmlAttrs tables attrsRaw
      if closing then s.closeTag tables tag else s.openTag tables tag attrs raw

def parseHtml (tables : Tables) (text : List Char) :
    Except Failure (List Char × List MessageEntity) :=
  ((tokens (htmlTag tables) none text).foldlM (HtmlState.step tables) {}).map fun s =>
    (s.plain, s.entities)

end Piltover.BotApi
