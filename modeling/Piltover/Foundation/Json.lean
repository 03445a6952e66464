/- source: none (library)
   digest: JSON documents as Python reads them: texts of code points, and what can be asked of
     values of any type. -/

import Mathlib.Data.List.Basic

set_option autoImplicit false

namespace Piltover.Foundation.Python

/-- What the operations on values raise. -/
inductive PyError
  | typeError
  | valueError
  | unicodeEncodeError
  | keyError
  | attributeError
  | overflowError
  | recursionError
  | doesNotExist
  deriving DecidableEq, Repr

/-! ### Texts -/

/-- Lone surrogates are code points too. -/
abbrev CodePoint := Fin 0x110000

abbrev Text := List CodePoint

def CodePoint.ofChar (c : Char) : CodePoint :=
  ⟨c.toNat, by
    have valid := c.valid
    simp only [UInt32.isValidChar, Nat.isValidChar] at valid
    simp only [Char.toNat]
    omega⟩

/-- A literal. -/
def text (s : String) : Text := s.toList.map CodePoint.ofChar

/-! ### Values -/

/-- What a document is read as. The keys of a dictionary differ. -/
inductive Json
  | null
  | bool (b : Bool)
  | int (n : Int)
  | float (x : Float)
  | str (t : Text)
  | list (items : List Json)
  | dict (entries : List (Text × Json))

namespace Json

/-- `entries[key]`, if the key is there. -/
def find (entries : List (Text × Json)) (key : String) : Option Json := entries.lookup (text key)

/-- `entries.get(key)` -/
def get (entries : List (Text × Json)) (key : String) : Json := (find entries key).getD null

/-- `bool(value)` -/
def truthy : Json → Bool
  | null => false
  | bool b => b
  | int n => n != 0
  | float x => x != 0
  | str t => !t.isEmpty
  | list items => !items.isEmpty
  | dict entries => !entries.isEmpty

def isNull : Json → Bool
  | null => true
  | _ => false

/-- `value == n`, which also holds of a float and of a truth value. -/
def eqInt (n : Int) : Json → Bool
  | bool b => (if b then 1 else 0) == n
  | int m => m == n
  | float x => x == Float.ofInt n
  | _ => false

/-- `value == s` -/
def eqStr (s : String) : Json → Bool
  | str t => t == text s
  | _ => false

/-- `value[key]` -/
def subscript (value : Json) (key : String) : Except PyError Json :=
  match value with
  | dict entries =>
    match find entries key with
    | none => .error .keyError
    | some value => .ok value
  | _ => .error .typeError

/-- What `for` goes over. -/
def iterate : Json → Except PyError (List Json)
  | list items => .ok items
  | dict entries => .ok (entries.map fun (key, _) => str key)
  | str t => .ok (t.map fun c => str [c])
  | _ => .error .typeError

/-- Truth values count as integers. -/
def integer : Json → Option Int
  | bool b => some (if b then 1 else 0)
  | int n => some n
  | _ => none

end Json

/-- `float(n)` -/
def floatOfInt (n : Int) : Except PyError Float :=
  if (Float.ofInt n).isInf then .error .overflowError else .ok (Float.ofInt n)

/-- `a - b` -/
def subtract (a b : Json) : Except PyError Json :=
  match a, b with
  | .float x, .float y => .ok (.float (x - y))
  | .float x, b =>
    match b.integer with
    | none => .error .typeError
    | some n => (floatOfInt n).map fun y => .float (x - y)
  | a, .float y =>
    match a.integer with
    | none => .error .typeError
    | some n => (floatOfInt n).map fun x => .float (x - y)
  | a, b =>
    match a.integer, b.integer with
    | some m, some n => .ok (.int (m - n))
    | _, _ => .error .typeError

/-- `value > n` for a number. -/
def exceeds (n : Int) : Json → Bool
  | .int m => n < m
  | .float x => Float.ofInt n < x
  | _ => false

end Piltover.Foundation.Python
