/- source: piltover/tl/primitives/int_.py, piltover/tl/primitives/str_.py,
     piltover/tl/primitives/vector.py
   digest: Numbers, byte strings, texts and vectors, as they are written and read. -/

import Mathlib.Algebra.Ring.Int.Defs
import Piltover.Foundation.Bytes
import Piltover.Foundation.Readers

set_option autoImplicit false

namespace Piltover.Tl

open Piltover.Foundation

/-- What reading raises: an index out of range, a number cut short, another constructor than that of
a vector, an array whose bytes are no whole elements, no UTF-8, or what the reader of an object
raises. -/
inductive ReadError
  | index
  | struct
  | constructor
  | value
  | unicode
  | object
  deriving DecidableEq, Repr

/-- Reading a value from the bytes of a stream. -/
abbrev Read (α : Type) := Reader UInt8 ReadError α

/-- `stream.read(size)`: at most what there is, and everything for a negative size. -/
def readUpTo (size : Int) (stream : Bytes) : Bytes × Bytes :=
  if size < 0 then (stream, []) else (stream.take size.toNat, stream.drop size.toNat)

/-- The number that little-endian bytes stand for, and the bytes of a number. -/
def leToNat (data : Bytes) : Nat := Bytes.toNat data.reverse

def leOfNat (size n : Nat) : Bytes := (Bytes.ofNat size n).reverse

/-- A number of `size` bytes in two's complement. -/
def toSigned (size : Nat) (data : Bytes) : Int :=
  if leToNat data < 2 ^ (8 * size - 1) then leToNat data else leToNat data - 2 ^ (8 * size)

def Int.SIZE : Nat := 4

def Long.SIZE : Nat := 8

/-- `Int.read` and `Long.read`. -/
def readInt (size : Nat) : Read Int := fun stream =>
  let (data, stream) := readUpTo size stream
  if data.length = size then .ok (toSigned size data, stream) else .error .struct

/-- `Int.write` and `Long.write`; nothing is written where a number does not fit. -/
def writeInt (size : Nat) (value : Int) : Option Bytes :=
  if -2 ^ (8 * size - 1) ≤ value ∧ value < 2 ^ (8 * size - 1) then
    some (leOfNat size (value % 2 ^ (8 * size)).toNat)
  else none

/-- `Bytes.read`. -/
def readBytes : Read Bytes := fun stream =>
  match stream with
  | [] => .error .index
  | first :: stream =>
    let (count, padding, stream) :=
      if 254 ≤ first.toNat then
        let (length, stream) := readUpTo 3 stream
        (leToNat length, 4, stream)
      else (first.toNat, 1, stream)
    let (result, stream) := readUpTo count stream
    let padding := (padding + result.length) % 4
    .ok (result, if padding ≠ 0 then (readUpTo ((4 - padding : Nat) : Int) stream).2 else stream)

/-- The length that `Bytes.write` puts before the bytes; it has no place for four bytes. -/
def bytesHeader (length : Nat) : Option Bytes :=
  if 254 ≤ length then
    if length < 2 ^ 24 then some (254 :: leOfNat 3 length) else none
  else some [UInt8.ofNat length]

/-- Zeros up to a multiple of four. -/
def padded (data : Bytes) : Bytes :=
  if data.length % 4 = 0 then data else data ++ List.replicate (4 - data.length % 4) 0

/-- `Bytes.write`. -/
def writeBytes (value : Bytes) : Option Bytes :=
  (bytesHeader value.length).map fun header => padded (header ++ value)

def encodeUtf8 (text : String) : Bytes := text.toUTF8.data.toList

def decodeUtf8 (data : Bytes) : Option String := String.fromUTF8? ⟨data.toArray⟩

/-- `String.read`. -/
def readString : Read String :=
  readBytes.andThen fun data stream =>
    match decodeUtf8 data with
    | none => .error .unicode
    | some text => .ok (text, stream)

/-- `String.write`. -/
def writeString (value : String) : Option Bytes := writeBytes (encodeUtf8 value)

def VECTOR : Bytes := [0x15, 0xc4, 0xb5, 0x1c]

/-- `Vector.check_constructor`, which reads the other constructor for its message. -/
def checkConstructor : Read Unit := fun stream =>
  let (constructor, stream) := readUpTo 4 stream
  if constructor = VECTOR then .ok ((), stream)
  else .error (if constructor.length = 4 then .constructor else .struct)

/-- `Vector.read_header`. -/
def readHeader : Read Int := checkConstructor.andThen fun _ => readInt Int.SIZE

/-- `Vector.header`. -/
def writeHeader (count : Nat) : Option Bytes := (writeInt Int.SIZE count).map (VECTOR ++ ·)

/-- The elements of `size` bytes each. -/
def elements (size : Nat) (data : Bytes) : List Bytes :=
  (List.range (data.length / size)).map fun i => (data.drop (i * size)).take size

/-- `PrimitiveVector.read`; `decode` is how the type of the array understands an element. -/
def readPrimitiveVector {α : Type} (size : Nat) (decode : Bytes → α) : Read (List α) :=
  readHeader.andThen fun count stream =>
    let (data, stream) := readUpTo (count * size) stream
    if data.length % size = 0 then .ok ((elements size data).map decode, stream)
    else .error .value

/-- `PrimitiveVector.write` of numbers. -/
def writePrimitiveVector (size : Nat) (value : List Int) : Option Bytes := do
  let data ← value.mapM (writeInt size)
  let header ← writeHeader value.length
  some (header ++ data.flatten)

/-- `_Vector.read`; a negative count is that of an empty range. -/
def readVector {α : Type} (read : Read α) : Read (List α) :=
  readHeader.andThen fun count => read.many count.toNat

/-- `_Vector.write`. -/
def writeVector {α : Type} (write : α → Option Bytes) (value : List α) : Option Bytes := do
  let header ← writeHeader value.length
  let data ← value.mapM write
  some (header ++ data.flatten)

/-- `IntVector` and `LongVector`. -/
def readIntVector (size : Nat) : Read (List Int) := readPrimitiveVector size (toSigned size)

end Piltover.Tl
