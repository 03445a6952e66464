/- source: piltover/app/utils/bot_api/parse_mode.py
   digest: Messages in Markdown, parsed in passes; where the entities of the first ones end up. -/

import Piltover.BotApi.Html
import Piltover.Foundation.Passes

set_option autoImplicit false

namespace Piltover.BotApi

open Piltover.Foundation.Matching

/-! ### The regular expressions -/

/-- A group of a match: where it begins in the match, and how long it is. -/
structure Group where
  start : Nat
  size : Nat
  deriving DecidableEq, Repr

/-- What `match.group` finds in the text of a match. -/
def Group.of (group : Group) (raw : List Char) : List Char := (raw.drop group.start).take group.size

structure MdMatch where
  first : Option Group := none
  second : Option Group := none
  deriving DecidableEq, Repr

def MdMatch.group (found : MdMatch) : Nat → Option Group
  | 1 => found.first
  | 2 => found.second
  | _ => none

def delimited (opening : List Char) (inner : Char → Bool) (closing : List Char) :
    Pattern Char MdMatch := fun _ text =>
  let content := (text.drop opening.length).takeWhile inner
  let rest := (text.drop opening.length).dropWhile inner
  if opening.isPrefixOf text && content ≠ [] && closing.isPrefixOf rest then
    some ({ first := some ⟨opening.length, content.length⟩ },
      opening.length + content.length + closing.length)
  else none

/-- The length of the shortest content of so many symbols at least. -/
def shortest (inner : Char → Bool) (closes : Option Char → List Char → Bool) :
    Nat → Option Char → List Char → Option Nat
  | 0, prev, [] => if closes prev [] then some 0 else none
  | _ + 1, _, [] => none
  | 0, prev, c :: cs =>
    if closes prev (c :: cs) then some 0
    else if inner c then (shortest inner closes 0 (some c) cs).map (· + 1) else none
  | least + 1, _, c :: cs =>
    if inner c then (shortest inner closes least (some c) cs).map (· + 1) else none

/-- `.` -/
def notNewline (c : Char) : Bool := c ≠ '\n'

def MD_LINK_RE : Pattern Char MdMatch := fun _ text => do
  let rest ← expect '[' text
  let visible := rest.takeWhile (· ≠ ']')
  let rest ← expect ']' (rest.dropWhile (· ≠ ']'))
  let rest ← expect '(' rest
  let url := rest.takeWhile (· ≠ ')')
  let _ ← expect ')' (rest.dropWhile (· ≠ ')'))
  if visible = [] ∨ url = [] then none
  else some (⟨some ⟨1, visible.length⟩, some ⟨visible.length + 3, url.length⟩⟩,
    visible.length + url.length + 4)

/-- An alternative of `_MD_BOLD_RE`. -/
def boldBetween (d : Char) (text : List Char) : Option (Group × Nat) := do
  let rest ← expect d text
  let rest ← expect d rest
  let size ← shortest notNewline (fun _ text => [d, d].isPrefixOf text) 1 none rest
  some (⟨2, size⟩, size + 4)

def MD_BOLD_RE : Pattern Char MdMatch := fun _ text =>
  ((boldBetween '*' text).map fun (group, n) => ({ first := some group }, n)).or
    ((boldBetween '_' text).map fun (group, n) => ({ second := some group }, n))

/-- An alternative of `_MD_ITALIC_RE`. -/
def italicBetween (d : Char) (prev : Option Char) (text : List Char) : Option (Group × Nat) := do
  let rest ← expect d text
  if prev = some d ∨ rest.head? = some d then none
  else
    let closes : Option Char → List Char → Bool := fun prev text =>
      prev ≠ some d && text.head? = some d && text.tail.head? ≠ some d
    let size ← shortest notNewline closes 1 (some d) rest
    some (⟨1, size⟩, size + 2)

def MD_ITALIC_RE : Pattern Char MdMatch := fun prev text =>
  ((italicBetween '*' prev text).map fun (group, n) => ({ first := some group }, n)).or
    ((italicBetween '_' prev text).map fun (group, n) => ({ second := some group }, n))

def MD_CODE_RE : Pattern Char MdMatch := delimited ['\x60'] (· ≠ '\x60') ['\x60']

/-- What is around a block of code. -/
def FENCE : List Char := ['\x60', '\x60', '\x60']

/-- `[a-zA-Z0-9_+-]` -/
def isLanguage (c : Char) : Bool := isAlnum c || ['_', '+', '-'].contains c

/-- A language is followed by the end of its line. -/
def MD_PRE_RE : Pattern Char MdMatch := fun _ text =>
  let language := (text.drop 3).takeWhile isLanguage
  let named := language ≠ [] && (text.drop (3 + language.length)).head? = some '\n'
  let start := if named then 3 + language.length + 1 else 3
  if FENCE.isPrefixOf text then
    (shortest (fun _ => true) (fun _ text => FENCE.isPrefixOf text) 0 none (text.drop start)).map
      fun size => (⟨if named then some ⟨3, language.length⟩ else none, some ⟨start, size⟩⟩,
        start + size + 3)
  else none

def MD2_ESCAPE_RE : Pattern Char Char := fun _ text =>
  match text with
  | '\\' :: c :: _ =>
    if ['_', '*', '[', ']', '(', ')', '~', '\x60', '>', '#', '+', '-', '=', '|', '\x7b', '\x7d',
      '.', '!'].contains c then some (c, 2) else none
  | _ => none

def MD2_BOLD_RE : Pattern Char MdMatch := delimited ['*'] (fun c => c ≠ '*' && c ≠ '\n') ['*']

def MD2_ITALIC_RE : Pattern Char MdMatch := delimited ['_'] (fun c => c ≠ '_' && c ≠ '\n') ['_']

def MD2_UNDERLINE_RE : Pattern Char MdMatch :=
  delimited ['_', '_'] (fun c => c ≠ '_' && c ≠ '\n') ['_', '_']

def MD2_STRIKE_RE : Pattern Char MdMatch := delimited ['~'] (fun c => c ≠ '~' && c ≠ '\n') ['~']

def MD2_SPOILER_RE : Pattern Char MdMatch :=
  delimited ['|', '|'] (fun c => c ≠ '|' && c ≠ '\n') ['|', '|']

def MD2_CODE_RE : Pattern Char MdMatch :=
  delimited ['\x60'] (fun c => c ≠ '\x60' && c ≠ '\n') ['\x60']

/-- A language, or none, is followed by the end of its line or a space. -/
def MD2_PRE_RE : Pattern Char MdMatch := fun _ text =>
  let language := (text.drop 3).takeWhile isLanguage
  let start := 3 + language.length + 1
  let next := (text.drop (3 + language.length)).head?
  if FENCE.isPrefixOf text && (next = some '\n' || next = some ' ') then
    (shortest (fun _ => true) (fun _ text => FENCE.isPrefixOf text) 0 none (text.drop start)).map
      fun size => (⟨if language = [] then none else some ⟨3, language.length⟩, some ⟨start, size⟩⟩,
        start + size + 3)
  else none

def MD2_LINK_RE : Pattern Char MdMatch := MD_LINK_RE

/-! ### `_parse_markdown_delimited` -/

/-- What a pass is called with. -/
structure MdPass where
  pattern : Pattern Char MdMatch
  entityType : EntityType
  link : Bool := false
  languageGroup : Option Nat := none
  contentGroup : Nat := 1

/-- The group whose text is left; the whole match goes where none has a text. -/
def MdPass.contentOf (p : MdPass) (found : MdMatch) : Group :=
  let nothing : Group := ⟨1, 0⟩
  if p.link then (found.group 1).getD nothing
  else if p.languageGroup.isSome then (found.group p.contentGroup).getD nothing
  else ([p.contentGroup, 2, 1].findSome? fun k =>
    (found.group k).filter fun group => group.size ≠ 0).getD nothing

structure MdState where
  plain : List Char := []
  entities : List MessageEntity := []
  offset : Nat := 0
  deriving DecidableEq, Repr

def MdPass.languageOf (p : MdPass) (found : MdMatch) (raw : List Char) : Option (List Char) :=
  if p.link then none
  else p.languageGroup.bind fun k => ((found.group k).map (Group.of · raw)).filter (· ≠ [])

/-- A turn of the loop, or a symbol between two matches. -/
def MdPass.step (p : MdPass) (s : MdState) : Token Char MdMatch → Except Failure MdState
  | .plain c =>
    .ok { s with
      plain := s.plain ++ [c]
      offset := s.offset + utf16Len [c] }
  | .found found raw => do
    let content := (p.contentOf found).of raw
    let stop := s.offset + utf16Len content
    let url := if p.link then some (((found.group 2).map (Group.of · raw)).getD []) else none
    let entities ← appendEntity s.entities p.entityType s.offset stop url
      (p.languageOf found raw) none
    .ok { plain := s.plain ++ content, entities := entities, offset := stop }

def parseMarkdownDelimited (text : List Char) (p : MdPass) :
    Except Failure (List Char × List MessageEntity) :=
  ((tokens p.pattern none text).foldlM p.step {}).map fun s => (s.plain, s.entities)

/-- The passes one after the other. -/
def parsePasses : List MdPass → List Char → Except Failure (List Char × List MessageEntity)
  | [], text => .ok (text, [])
  | p :: ps, text => do
    let parsed ← parseMarkdownDelimited text p
    let others ← parsePasses ps parsed.1
    .ok (others.1, parsed.2 ++ others.2)

def MD_PASSES : List MdPass :=
  [{ pattern := MD_LINK_RE, entityType := .textUrl, link := true },
    { pattern := MD_PRE_RE, entityType := .pre, languageGroup := some 1, contentGroup := 2 },
    { pattern := MD_CODE_RE, entityType := .code },
    { pattern := MD_BOLD_RE, entityType := .bold },
    { pattern := MD_ITALIC_RE, entityType := .italic }]

def parseMarkdown (text : List Char) : Except Failure (List Char × List MessageEntity) :=
  parsePasses MD_PASSES text

def MD2_PASSES : List MdPass :=
  [{ pattern := MD2_LINK_RE, entityType := .textUrl, link := true },
    { pattern := MD2_PRE_RE, entityType := .pre, languageGroup := some 1, contentGroup := 2 },
    { pattern := MD2_CODE_RE, entityType := .code },
    { pattern := MD2_UNDERLINE_RE, entityType := .underline },
    { pattern := MD2_BOLD_RE, entityType := .bold },
    { pattern := MD2_ITALIC_RE, entityType := .italic },
    { pattern := MD2_STRIKE_RE, entityType := .strike },
    { pattern := MD2_SPOILER_RE, entityType := .spoiler }]

/-- `_MD2_ESCAPE_RE.sub`. -/
def withoutEscapes (text : List Char) : List Char :=
  (tokens MD2_ESCAPE_RE none text).map fun
    | .plain c => c
    | .found c _ => c

def parseMarkdownV2 (text : List Char) : Except Failure (List Char × List MessageEntity) :=
  parsePasses MD2_PASSES (withoutEscapes text)

end Piltover.BotApi
