/- source: piltover/app/utils/bot_api/parse_mode.py
   digest: The references to characters that `html.unescape` replaces; escaping is undone. -/

import Piltover.Failure
import Piltover.Foundation.Matching

set_option autoImplicit false

namespace Piltover.BotApi

open Piltover.Foundation.Matching

/-- `html.entities.html5`, with the entries that escaping uses. -/
structure Html5 where
  lookup : List Char → Option (List Char)
  amp : lookup ['a', 'm', 'p', ';'] = some ['&']
  lt : lookup ['l', 't', ';'] = some ['<']
  gt : lookup ['g', 't', ';'] = some ['>']
  quot : lookup ['q', 'u', 'o', 't', ';'] = some ['"']

/-- `_invalid_charrefs`: numbers that stand for another character. -/
def invalidCharrefs : List (Nat × Nat) :=
  [(0x00, 0xfffd), (0x0d, 0x0d), (0x80, 0x20ac), (0x81, 0x81), (0x82, 0x201a), (0x83, 0x0192),
    (0x84, 0x201e), (0x85, 0x2026), (0x86, 0x2020), (0x87, 0x2021), (0x88, 0x02c6), (0x89, 0x2030),
    (0x8a, 0x0160), (0x8b, 0x2039), (0x8c, 0x0152), (0x8d, 0x8d), (0x8e, 0x017d), (0x8f, 0x8f),
    (0x90, 0x90), (0x91, 0x2018), (0x92, 0x2019), (0x93, 0x201c), (0x94, 0x201d), (0x95, 0x2022),
    (0x96, 0x2013), (0x97, 0x2014), (0x98, 0x02dc), (0x99, 0x2122), (0x9a, 0x0161), (0x9b, 0x203a),
    (0x9c, 0x0153), (0x9d, 0x9d), (0x9e, 0x017e), (0x9f, 0x0178)]

/-- `_invalid_codepoints`: numbers that stand for nothing. -/
def invalidCodepoint (n : Nat) : Bool :=
  (0x1 ≤ n && n ≤ 0x8) || n == 0xb || (0xe ≤ n && n ≤ 0x1f) || (0x7f ≤ n && n ≤ 0x9f) ||
    (0xfdd0 ≤ n && n ≤ 0xfdef) || 0xfffe ≤ n % 0x10000

def isAsciiDigit (c : Char) : Bool := '0' ≤ c && c ≤ '9'

def isHexDigit (c : Char) : Bool :=
  isAsciiDigit c || ('a' ≤ c && c ≤ 'f') || ('A' ≤ c && c ≤ 'F')

def digitValue (c : Char) : Nat :=
  if isAsciiDigit c then c.toNat - '0'.toNat
  else if 'a' ≤ c then c.toNat - 'a'.toNat + 10
  else c.toNat - 'A'.toNat + 10

def numberOf (base : Nat) (digits : List Char) : Nat :=
  digits.foldl (fun n c => n * base + digitValue c) 0

/-- What a decimal number of more digits than this raises. -/
def MAX_STR_DIGITS : Nat := 4300

def charOf (num : Nat) : List Char :=
  match invalidCharrefs.lookup num with
  | some other => [Char.ofNat other]
  | none =>
    if (0xD800 ≤ num && num ≤ 0xDFFF) || 0x10FFFF < num then ['\uFFFD']
    else if invalidCodepoint num then []
    else [Char.ofNat num]

def replaceCharref (html5 : Html5) (s : List Char) : Except Failure (List Char) :=
  match s with
  | '#' :: 'x' :: digits => .ok (charOf (numberOf 16 (digits.filter (· ≠ ';'))))
  | '#' :: 'X' :: digits => .ok (charOf (numberOf 16 (digits.filter (· ≠ ';'))))
  | '#' :: digits =>
    if (digits.filter (· ≠ ';')).length ≤ MAX_STR_DIGITS then
      .ok (charOf (numberOf 10 (digits.filter (· ≠ ';'))))
    else .error .other
  | _ =>
    match html5.lookup s with
    | some value => .ok value
    | none =>
      -- the longest name in front, of at least two characters
      let shorter := (List.range' 2 (s.length - 2)).reverse.findSome? fun x =>
        (html5.lookup (s.take x)).map (· ++ s.drop x)
      .ok (shorter.getD ('&' :: s))

/-- `;?` -/
def semicolon : List Char → List Char
  | ';' :: _ => [';']
  | _ => []

def isNameChar (c : Char) : Bool := !(['\t', '\n', '\x0c', ' ', '<', '&', '#', ';'].contains c)

/-- The group of `_charref`, at what follows `&`. -/
def reference (text : List Char) : Option (List Char) :=
  match text with
  | '#' :: number =>
    let digits := number.takeWhile isAsciiDigit
    if digits ≠ [] then some ('#' :: (digits ++ semicolon (number.drop digits.length)))
    else
      match number with
      | [] => none
      | x :: hex =>
        let digits := hex.takeWhile isHexDigit
        if (x = 'x' ∨ x = 'X') ∧ digits ≠ [] then
          some ('#' :: x :: (digits ++ semicolon (hex.drop digits.length)))
        else none
  | _ =>
    let name := (text.takeWhile isNameChar).take 32
    if name ≠ [] then some (name ++ semicolon (text.drop name.length)) else none

def charref : Pattern Char (List Char) := fun _ text =>
  match text with
  | '&' :: text => (reference text).map fun s => (s, s.length + 1)
  | _ => none

/-- What stands for a piece of the text. -/
def unescapeToken (html5 : Html5) : Token Char (List Char) → Except Failure (List Char)
  | .plain c => .ok [c]
  | .found s _ => replaceCharref html5 s

def unescape (html5 : Html5) (s : List Char) : Except Failure (List Char) :=
  ((tokens charref none s).mapM (unescapeToken html5)).map List.flatten

/-! ### Escaping -/

/-- `&`, `<` and `>` in a text, and `"` in the value of an attribute. -/
def escapeChar (quotes : Bool) (c : Char) : List Char :=
  if c = '&' then ['&', 'a', 'm', 'p', ';']
  else if c = '<' then ['&', 'l', 't', ';']
  else if c = '>' then ['&', 'g', 't', ';']
  else if quotes = true ∧ c = '"' then ['&', 'q', 'u', 'o', 't', ';']
  else [c]

def escape (quotes : Bool) (text : List Char) : List Char := text.flatMap (escapeChar quotes)

section

variable {html5 : Html5} {quotes : Bool} {c : Char} {text rest : List Char}

@[simp] theorem unescape_nil : unescape html5 [] = .ok [] := rfl

theorem unescape_eq (prev : Option Char) : unescape html5 text =
    ((tokens charref prev text).mapM (unescapeToken html5)).map List.flatten := by
  rw [unescape, tokens_congr (fun _ _ _ => rfl) none prev]

private theorem flatten_mapM_cons {token : Token Char (List Char)}
    {others : List (Token Char (List Char))} {value : List Char}
    (here : unescapeToken html5 token = .ok value) :
    ((token :: others).mapM (unescapeToken html5)).map List.flatten =
      (((others.mapM (unescapeToken html5)).map List.flatten).map (value ++ ·)) := by
  rw [List.mapM_cons, here]
  cases others.mapM (unescapeToken html5) <;> rfl

theorem unescape_cons (other : c ≠ '&') :
    unescape html5 (c :: text) = (unescape html5 text).map (c :: ·) := by
  have nothing : charref none (c :: text) = none := by
    rw [charref]
    exact fun _ same => other (List.cons.inj same).1
  rw [unescape, tokens_of_none nothing, flatten_mapM_cons rfl, ← unescape_eq (some c)]
  rfl

theorem replaceCharref_name {value : List Char} (notNumber : c ≠ '#')
    (known : html5.lookup (c :: text) = some value) :
    replaceCharref html5 (c :: text) = .ok value := by
  rw [replaceCharref, known]
  all_goals exact fun _ same => notNumber (List.cons.inj same).1

theorem unescape_reference {name value : List Char}
    (named : reference (name ++ rest) = some name)
    (means : replaceCharref html5 name = .ok value) :
    unescape html5 ('&' :: (name ++ rest)) = (unescape html5 rest).map (value ++ ·) := by
  have here : charref none (('&' :: name) ++ rest) = some (name, ('&' :: name).length) := by
    rw [List.cons_append, charref, named]
    rfl
  have stands : unescapeToken html5 (.found name ('&' :: name)) = .ok value := means
  rw [unescape, ← List.cons_append, tokens_of_some (List.cons_ne_nil _ _) here,
    flatten_mapM_cons stands, ← unescape_eq]

theorem unescape_escapeChar : unescape html5 (escapeChar quotes c ++ rest) =
    (unescape html5 rest).map (c :: ·) := by
  by_cases isAmp : c = '&'
  · rw [escapeChar, if_pos isAmp, isAmp]
    exact unescape_reference rfl (replaceCharref_name (by decide) html5.amp)
  by_cases isLt : c = '<'
  · rw [escapeChar, if_neg isAmp, if_pos isLt, isLt]
    exact unescape_reference rfl (replaceCharref_name (by decide) html5.lt)
  by_cases isGt : c = '>'
  · rw [escapeChar, if_neg isAmp, if_neg isLt, if_pos isGt, isGt]
    exact unescape_reference rfl (replaceCharref_name (by decide) html5.gt)
  rw [escapeChar, if_neg isAmp, if_neg isLt, if_neg isGt]
  split
  case isTrue quote =>
      rw [quote.2]
      exact unescape_reference rfl (replaceCharref_name (by decide) html5.quot)
  case isFalse => exact unescape_cons isAmp

theorem unescape_escape : unescape html5 (escape quotes text) = .ok text := by
  induction text with
  | nil => rfl
  | cons c text ih =>
    rw [escape, List.flatMap_cons, unescape_escapeChar]
    rw [escape] at ih
    rw [ih]
    rfl

end

end Piltover.BotApi
