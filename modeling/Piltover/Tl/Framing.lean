/- source: piltover/tl/primitives/str_.py, piltover/tl/primitives/vector.py
   digest: Byte strings, texts and their vectors are read back from what is written, wherever it
     stands. -/

import Mathlib.Tactic.NormNum
import Piltover.Tl.Primitives

set_option autoImplicit false

namespace Piltover.Tl

open Piltover.Foundation

/-! ### Numbers -/

@[simp] theorem length_leOfNat (size n : Nat) : (leOfNat size n).length = size := by
  rw [leOfNat, List.length_reverse, Bytes.length_ofNat]

theorem leToNat_leOfNat {size n : Nat} (fits : n < 256 ^ size) :
    leToNat (leOfNat size n) = n := by
  rw [leToNat, leOfNat, List.reverse_reverse, Bytes.toNat_ofNat fits]

/-- The numbers that fit in `size` bytes. -/
def FitsInt (size : Nat) (value : Int) : Prop :=
  -2 ^ (8 * size - 1) ≤ value ∧ value < 2 ^ (8 * size - 1)

/-- Half of the numbers of `size` bytes stand for the negative ones. -/
theorem exists_half {size : Nat} (pos : 0 < size) :
    ∃ half : Nat, 2 ^ (8 * size - 1) = half ∧ 2 ^ (8 * size) = 2 * half ∧
      256 ^ size = 2 * half := by
  have double : 2 ^ (8 * size) = 2 * 2 ^ (8 * size - 1) := by
    rw [← Nat.pow_succ', Nat.sub_one, Nat.succ_pred_eq_of_pos (Nat.mul_pos (by decide) pos)]
  exact ⟨_, rfl, double, by rw [← double, Nat.pow_mul]⟩

/-- Two's complement is undone. -/
theorem toSigned_leOfNat {size : Nat} (pos : 0 < size) {value : Int}
    (fits : FitsInt size value) :
    toSigned size (leOfNat size (value % 2 ^ (8 * size)).toNat) = value := by
  obtain ⟨half, isHalf, double, whole⟩ := exists_half pos
  have half' : (2 : Int) ^ (8 * size - 1) = half := by exact_mod_cast isHalf
  have double' : (2 : Int) ^ (8 * size) = 2 * half := by exact_mod_cast double
  obtain ⟨low, high⟩ := fits
  rw [half'] at low high
  rw [double', toSigned, isHalf, double']
  by_cases negative : value < 0
  · have wrapped : value % (2 * half) = value + 2 * half := by
      rw [← Int.add_emod_right, Int.emod_eq_of_lt (by omega) (by omega)]
    rw [wrapped, leToNat_leOfNat (by omega), if_neg (by omega)]
    omega
  · have same : value % (2 * half) = value := Int.emod_eq_of_lt (by omega) (by omega)
    rw [same, leToNat_leOfNat (by omega), if_pos (by omega)]
    omega

theorem readUpTo_append {data : Bytes} {size : Nat} (long : data.length = size) (rest : Bytes) :
    readUpTo size (data ++ rest) = (data, rest) := by
  rw [← long, readUpTo, if_neg (Int.not_lt.mpr (Int.natCast_nonneg _)), Int.toNat_natCast,
    List.take_left, List.drop_left]

theorem writeInt_eq_some {size : Nat} {value : Int} {code : Bytes} :
    writeInt size value = some code ↔
      FitsInt size value ∧ code = leOfNat size (value % 2 ^ (8 * size)).toNat := by
  rw [writeInt]
  split
  case isTrue fits => exact ⟨fun same => ⟨fits, (Option.some.inj same).symm⟩, fun h => h.2 ▸ rfl⟩
  case isFalse large => exact ⟨fun h => (by cases h), fun h => absurd h.1 large⟩

theorem writeInt_isSome {size : Nat} {value : Int} :
    (writeInt size value).isSome ↔ FitsInt size value := by
  rw [writeInt]
  split
  case isTrue fits => exact iff_of_true rfl fits
  case isFalse large => exact iff_of_false Bool.false_ne_true large

theorem length_of_writeInt {size : Nat} {value : Int} {code : Bytes}
    (written : writeInt size value = some code) : code.length = size := by
  rw [(writeInt_eq_some.mp written).2, length_leOfNat]

theorem undoes_readInt {size : Nat} (pos : 0 < size) {value : Int} {code : Bytes}
    (written : writeInt size value = some code) : (readInt size).Undoes code value := by
  intro rest
  have long := length_of_writeInt written
  rw [readInt, readUpTo_append long]
  dsimp only
  rw [if_pos long, (writeInt_eq_some.mp written).2,
    toSigned_leOfNat pos (writeInt_eq_some.mp written).1]

/-! ### Byte strings and texts -/

/-- How many bytes fill the last word up. -/
def filling (length : Nat) : Nat := (4 - length % 4) % 4

theorem padded_eq (data : Bytes) :
    padded data = data ++ List.replicate (filling data.length) 0 := by
  rw [padded, filling]
  split
  case isTrue whole => rw [whole, List.replicate_zero, List.append_nil]
  case isFalse part =>
      have short : (4 - data.length % 4) % 4 = 4 - data.length % 4 := Nat.mod_eq_of_lt (by omega)
      rw [short]

theorem length_padded (data : Bytes) : 4 ∣ (padded data).length := by
  rw [padded_eq, List.length_append, List.length_replicate, filling]
  omega

theorem skip_filling {length : Nat} {padding : Bytes} (fills : padding.length = filling length)
    (rest : Bytes) :
    (if length % 4 ≠ 0 then (readUpTo ((4 - length % 4 : Nat) : Int) (padding ++ rest)).2
      else padding ++ rest) = rest := by
  rw [filling] at fills
  split
  case isTrue part =>
      rw [Nat.mod_eq_of_lt (by omega)] at fills
      rw [readUpTo_append fills]
  case isFalse whole =>
      rw [not_not.mp whole] at fills
      rw [List.eq_nil_of_length_eq_zero fills, List.nil_append]

/-- The headers of `Bytes`, of one byte or of four, and the lengths that they declare. -/
inductive Declares : Bytes → Nat → Prop
  | short (first : UInt8) (small : first.toNat < 254) : Declares [first] first.toNat
  | long (first : UInt8) (length : Bytes) (large : 254 ≤ first.toNat) (three : length.length = 3) :
      Declares (first :: length) (leToNat length)

theorem readBytes_of_declares {header value padding : Bytes} {count : Nat}
    (declares : Declares header count) (long : value.length = count)
    (fills : padding.length = filling (header.length + count)) (rest : Bytes) :
    readBytes (header ++ (value ++ (padding ++ rest))) = .ok (value, rest) := by
  cases declares with
  | short first small =>
    rw [List.length_singleton] at fills
    rw [List.singleton_append, readBytes, if_neg (Nat.not_le.mpr small)]
    dsimp only
    rw [readUpTo_append long]
    dsimp only
    rw [long, skip_filling fills]
  | long first length large three =>
    rw [List.length_cons, three] at fills
    rw [List.cons_append, readBytes, if_pos large]
    dsimp only
    rw [show (3 : Int) = (3 : Nat) from rfl, readUpTo_append three]
    dsimp only
    rw [readUpTo_append long]
    dsimp only
    rw [long, skip_filling fills]

theorem declares_of_bytesHeader {length : Nat} {header : Bytes}
    (wrote : bytesHeader length = some header) : Declares header length := by
  rw [bytesHeader] at wrote
  split at wrote
  case isTrue large =>
      split at wrote
      case isTrue fits =>
          cases wrote
          have declares := Declares.long 254 (leOfNat 3 length) (le_refl 254) (length_leOfNat 3 _)
          rwa [leToNat_leOfNat (fits.trans_eq (by norm_num))] at declares
      case isFalse outside => cases wrote
  case isFalse small =>
      cases wrote
      have digit : (UInt8.ofNat length).toNat = length := by
        rw [UInt8.toNat_ofNat', Nat.mod_eq_of_lt (by omega)]
      have declares := Declares.short (UInt8.ofNat length) (by omega)
      rwa [digit] at declares

theorem writeBytes_isSome {value : Bytes} :
    (writeBytes value).isSome ↔ value.length < 2 ^ 24 := by
  rw [writeBytes, Option.isSome_map, bytesHeader]
  split
  case isTrue large =>
      split
      case isTrue fits => exact iff_of_true rfl fits
      case isFalse outside => exact iff_of_false Bool.false_ne_true outside
  case isFalse small => exact iff_of_true rfl (by omega)

theorem length_writeBytes {value code : Bytes} (written : writeBytes value = some code) :
    4 ∣ code.length := by
  obtain ⟨header, -, same⟩ := Option.map_eq_some_iff.mp written
  rw [← same]
  exact length_padded _

theorem undoes_readBytes {value code : Bytes} (written : writeBytes value = some code) :
    readBytes.Undoes code value := by
  intro rest
  obtain ⟨header, wrote, same⟩ := Option.map_eq_some_iff.mp written
  rw [← same, padded_eq, List.append_assoc, List.append_assoc]
  refine readBytes_of_declares (declares_of_bytesHeader wrote) rfl ?_ rest
  rw [List.length_replicate, List.length_append]

theorem decodeUtf8_encodeUtf8 (text : String) : decodeUtf8 (encodeUtf8 text) = some text := by
  rw [decodeUtf8, encodeUtf8, String.fromUTF8?, Array.toArray_toList]
  exact dif_pos text.isValidUTF8

theorem undoes_readString {text : String} {code : Bytes} (written : writeString text = some code) :
    readString.Undoes code text := by
  intro rest
  rw [readString, Reader.andThen_of_ok (undoes_readBytes written rest), decodeUtf8_encodeUtf8]

/-! ### Vectors -/

/-- A count that a header has room for. -/
abbrev FitsCount (count : Nat) : Prop := count < 2 ^ 31

theorem fitsInt_size {count : Nat} : FitsInt Int.SIZE count ↔ FitsCount count := by
  rw [FitsInt, Int.SIZE]
  omega

theorem writeHeader_isSome {count : Nat} : (writeHeader count).isSome ↔ FitsCount count := by
  rw [writeHeader, Option.isSome_map, writeInt_isSome, fitsInt_size]

theorem length_writeHeader {count : Nat} {code : Bytes} (written : writeHeader count = some code) :
    code.length = 8 := by
  obtain ⟨number, wrote, same⟩ := Option.map_eq_some_iff.mp written
  rw [← same, List.length_append, length_of_writeInt wrote]
  rfl

theorem undoes_checkConstructor : checkConstructor.Undoes VECTOR () := by
  intro rest
  have long : VECTOR.length = 4 := rfl
  rw [checkConstructor, show (4 : Int) = (4 : Nat) from rfl, readUpTo_append long]
  dsimp only
  rw [if_pos rfl]

theorem undoes_readHeader {count : Nat} {code : Bytes} (written : writeHeader count = some code) :
    readHeader.Undoes code count := by
  obtain ⟨number, wrote, same⟩ := Option.map_eq_some_iff.mp written
  rw [← same]
  exact undoes_checkConstructor.andThen (undoes_readInt (by decide) wrote)

theorem elements_flatten {size : Nat} (pos : 0 < size) {codes : List Bytes}
    (long : ∀ code ∈ codes, code.length = size) : elements size codes.flatten = codes := by
  have total : codes.flatten.length = codes.length * size := by
    rw [List.length_flatten, List.map_congr_left long, List.map_const', List.sum_replicate_nat]
  rw [elements, total, Nat.mul_div_cancel _ pos]
  clear total
  induction codes with
  | nil => rfl
  | cons code codes ih =>
    have here := long code List.mem_cons_self
    have later := ih fun c listed => long c (List.mem_cons_of_mem code listed)
    rw [List.length_cons, List.range_succ_eq_map, List.map_cons, List.map_map, List.flatten_cons,
      Nat.zero_mul, List.drop_zero, List.take_left' here]
    refine congrArg (code :: ·) (Eq.trans (List.map_congr_left fun i _ => ?_) later)
    rw [Function.comp_apply, Nat.succ_mul, Nat.add_comm, ← List.drop_drop, List.drop_left' here]

theorem writePrimitiveVector_isSome {size : Nat} {value : List Int} :
    (writePrimitiveVector size value).isSome ↔
      FitsCount value.length ∧ ∀ v ∈ value, FitsInt size v := by
  have each := Reader.isSome_mapM (f := writeInt size) (l := value)
  have head : (writeHeader value.length).isSome ↔ _ := writeHeader_isSome
  simp only [writeInt_isSome] at each
  rw [← each, ← head, writePrimitiveVector]
  cases value.mapM (writeInt size) with
  | none => simp
  | some codes => cases writeHeader value.length <;> simp

theorem writeVector_isSome {α : Type} {write : α → Option Bytes} {value : List α} :
    (writeVector write value).isSome ↔
      FitsCount value.length ∧ ∀ v ∈ value, (write v).isSome := by
  rw [← Reader.isSome_mapM, ← writeHeader_isSome, writeVector]
  cases writeHeader value.length with
  | none => simp
  | some header => cases value.mapM write <;> simp

theorem writePrimitiveVector_eq_some {size : Nat} {value : List Int} {code : Bytes} :
    writePrimitiveVector size value = some code ↔ ∃ codes header,
      value.mapM (writeInt size) = some codes ∧ writeHeader value.length = some header ∧
        header ++ codes.flatten = code := by
  simp only [writePrimitiveVector, Option.bind_eq_bind, Option.bind_eq_some_iff,
    Option.some.injEq, exists_and_left]

theorem writeVector_eq_some {α : Type} {write : α → Option Bytes} {value : List α} {code : Bytes} :
    writeVector write value = some code ↔ ∃ header codes,
      writeHeader value.length = some header ∧ value.mapM write = some codes ∧
        header ++ codes.flatten = code := by
  simp only [writeVector, Option.bind_eq_bind, Option.bind_eq_some_iff, Option.some.injEq,
    exists_and_left]

theorem codes_of_mapM {size : Nat} (pos : 0 < size) {value : List Int} {codes : List Bytes}
    (written : value.mapM (writeInt size) = some codes) :
    codes.length = value.length ∧ (∀ code ∈ codes, code.length = size) ∧
      codes.map (toSigned size) = value := by
  induction value generalizing codes with
  | nil =>
    cases written
    exact ⟨rfl, List.forall_mem_nil _, rfl⟩
  | cons v value ih =>
    rw [List.mapM_cons] at written
    obtain ⟨code, here, written⟩ := Option.bind_eq_some_iff.mp written
    obtain ⟨codes, later, same⟩ := Option.bind_eq_some_iff.mp written
    cases same
    obtain ⟨count, sizes, values⟩ := ih later
    obtain ⟨fits, code_eq⟩ := writeInt_eq_some.mp here
    refine ⟨congrArg (· + 1) count,
      List.forall_mem_cons.mpr ⟨length_of_writeInt here, sizes⟩, ?_⟩
    rw [List.map_cons, values, code_eq, toSigned_leOfNat pos fits]

theorem undoes_readPrimitiveVector {α : Type} {size : Nat} (pos : 0 < size) (decode : Bytes → α)
    {codes : List Bytes} {header : Bytes} (sizes : ∀ code ∈ codes, code.length = size)
    (head : writeHeader codes.length = some header) :
    (readPrimitiveVector size decode).Undoes (header ++ codes.flatten) (codes.map decode) := by
  have total : codes.flatten.length = codes.length * size := by
    rw [List.length_flatten, List.map_congr_left sizes, List.map_const', List.sum_replicate_nat]
  intro rest
  rw [readPrimitiveVector, List.append_assoc, Reader.andThen_of_ok (undoes_readHeader head _),
    ← Nat.cast_mul, readUpTo_append total]
  dsimp only
  rw [if_pos, elements_flatten pos sizes]
  rw [total, Nat.mul_mod_left]

theorem undoes_readIntVector {size : Nat} (pos : 0 < size) {value : List Int} {code : Bytes}
    (written : writePrimitiveVector size value = some code) :
    (readIntVector size).Undoes code value := by
  obtain ⟨codes, header, wrote, head, same⟩ := writePrimitiveVector_eq_some.mp written
  obtain ⟨count, sizes, values⟩ := codes_of_mapM pos wrote
  rw [← count] at head
  have undone := undoes_readPrimitiveVector pos (toSigned size) sizes head
  rwa [same, values] at undone

theorem undoes_readVector {α : Type} {write : α → Option Bytes} {read : Read α}
    (law : ∀ a code, write a = some code → read.Undoes code a) {value : List α} {code : Bytes}
    (written : writeVector write value = some code) : (readVector read).Undoes code value := by
  obtain ⟨header, codes, head, wrote, same⟩ := writeVector_eq_some.mp written
  rw [← same]
  refine (undoes_readHeader head).andThen ?_
  rw [Int.toNat_natCast]
  exact Reader.undoes_many law wrote

/-- Vectors are whole words if their elements are. -/
theorem length_flatten_of_mapM {α : Type} {write : α → Option Bytes} {unit : Nat}
    (law : ∀ a code, write a = some code → unit ∣ code.length) {value : List α}
    {codes : List Bytes} (written : value.mapM write = some codes) :
    unit ∣ codes.flatten.length := by
  induction value generalizing codes with
  | nil =>
    cases written
    exact Nat.dvd_zero unit
  | cons v value ih =>
    rw [List.mapM_cons] at written
    obtain ⟨code, here, written⟩ := Option.bind_eq_some_iff.mp written
    obtain ⟨codes, later, same⟩ := Option.bind_eq_some_iff.mp written
    cases same
    rw [List.flatten_cons, List.length_append]
    exact Nat.dvd_add (law v code here) (ih later)

/-! ### Every kind of value -/

/-- A value of one of the types whose bytes carry their length. -/
inductive Value
  | bytes (value : Bytes)
  | text (value : String)
  | bytesVector (value : List Bytes)
  | stringVector (value : List String)
  | intVector (value : List Int)
  | longVector (value : List Int)
  deriving DecidableEq, Repr

/-- The types themselves. -/
inductive Kind
  | bytes
  | text
  | bytesVector
  | stringVector
  | intVector
  | longVector
  deriving DecidableEq, Repr

def Value.kind : Value → Kind
  | bytes _ => .bytes
  | text _ => .text
  | bytesVector _ => .bytesVector
  | stringVector _ => .stringVector
  | intVector _ => .intVector
  | longVector _ => .longVector

/-- The `write` of the type. -/
def Value.write : Value → Option Bytes
  | bytes value => writeBytes value
  | text value => writeString value
  | bytesVector value => writeVector writeBytes value
  | stringVector value => writeVector writeString value
  | intVector value => writePrimitiveVector Int.SIZE value
  | longVector value => writePrimitiveVector Long.SIZE value

/-- The `read` of the type. -/
def Kind.read : Kind → Read Value
  | bytes => readBytes.map .bytes
  | text => readString.map .text
  | bytesVector => (readVector readBytes).map .bytesVector
  | stringVector => (readVector readString).map .stringVector
  | intVector => (readIntVector Int.SIZE).map .intVector
  | longVector => (readIntVector Long.SIZE).map .longVector

abbrev FitsLength (value : Bytes) : Prop := value.length < 2 ^ 24

/-- The values that have a code at all. -/
def Value.Fits : Value → Prop
  | bytes value => FitsLength value
  | text value => FitsLength (encodeUtf8 value)
  | bytesVector value => FitsCount value.length ∧ ∀ v ∈ value, FitsLength v
  | stringVector value => FitsCount value.length ∧ ∀ v ∈ value, FitsLength (encodeUtf8 v)
  | intVector value => FitsCount value.length ∧ ∀ v ∈ value, FitsInt Int.SIZE v
  | longVector value => FitsCount value.length ∧ ∀ v ∈ value, FitsInt Long.SIZE v

theorem Value.isSome_write (value : Value) : value.write.isSome ↔ value.Fits := by
  cases value with
  | bytes value => exact writeBytes_isSome
  | text value => exact writeBytes_isSome
  | bytesVector value =>
    exact writeVector_isSome.trans
      (and_congr_right' (forall₂_congr fun _ _ => writeBytes_isSome))
  | stringVector value =>
    exact writeVector_isSome.trans
      (and_congr_right' (forall₂_congr fun _ _ => writeBytes_isSome))
  | intVector value => exact writePrimitiveVector_isSome
  | longVector value => exact writePrimitiveVector_isSome

theorem length_writeVector {α : Type} {write : α → Option Bytes}
    (law : ∀ a code, write a = some code → 4 ∣ code.length) {value : List α} {code : Bytes}
    (written : writeVector write value = some code) : 4 ∣ code.length := by
  obtain ⟨header, codes, head, wrote, same⟩ := writeVector_eq_some.mp written
  rw [← same, List.length_append, length_writeHeader head]
  exact Nat.dvd_add (by decide) (length_flatten_of_mapM law wrote)

theorem length_writePrimitiveVector {size : Nat} (whole : 4 ∣ size) {value : List Int}
    {code : Bytes} (written : writePrimitiveVector size value = some code) : 4 ∣ code.length := by
  obtain ⟨codes, header, wrote, head, same⟩ := writePrimitiveVector_eq_some.mp written
  rw [← same, List.length_append, length_writeHeader head]
  refine Nat.dvd_add (by decide) (length_flatten_of_mapM (fun v code here => ?_) wrote)
  rwa [length_of_writeInt here]

theorem Value.length_write {value : Value} {code : Bytes} (written : value.write = some code) :
    4 ∣ code.length := by
  cases value with
  | bytes value => exact length_writeBytes written
  | text value => exact length_writeBytes written
  | bytesVector value => exact length_writeVector (fun _ _ => length_writeBytes) written
  | stringVector value => exact length_writeVector (fun _ _ => length_writeBytes) written
  | intVector value => exact length_writePrimitiveVector (by decide) written
  | longVector value => exact length_writePrimitiveVector (by decide) written

theorem Value.undoes_read {value : Value} {code : Bytes} (written : value.write = some code) :
    value.kind.read.Undoes code value := by
  cases value with
  | bytes value => exact (undoes_readBytes written).map Value.bytes
  | text value => exact (undoes_readString written).map Value.text
  | bytesVector value =>
    exact (undoes_readVector (fun _ _ => undoes_readBytes) written).map Value.bytesVector
  | stringVector value =>
    exact (undoes_readVector (fun _ _ => undoes_readString) written).map Value.stringVector
  | intVector value => exact (undoes_readIntVector (by decide) written).map Value.intVector
  | longVector value => exact (undoes_readIntVector (by decide) written).map Value.longVector

/-- Every value that fits is written in whole words and read back from them, whatever follows;
values written one after the other are read one after the other. -/
theorem framed :
    (∀ value : Value, (value.write.isSome ↔ value.Fits) ∧
      ∀ code, value.write = some code → 4 ∣ code.length ∧
        ∀ rest, value.kind.read (code ++ rest) = .ok (value, rest)) ∧
      ∀ (values : List Value) (codes : List Bytes), values.mapM Value.write = some codes →
        ∀ rest, Reader.all (values.map fun value => value.kind.read) (codes.flatten ++ rest) =
          .ok (values, rest) :=
  ⟨fun value => ⟨value.isSome_write, fun _ written =>
      ⟨Value.length_write written, Value.undoes_read written⟩⟩,
    fun _ _ written => Reader.undoes_all (fun _ _ => Value.undoes_read) written⟩

private def mixed : List Value := [.text "é", .intVector [-1, 2], .bytes []]

private def mixedCodes : List Bytes :=
  [[2, 0xc3, 0xa9, 0], [0x15, 0xc4, 0xb5, 0x1c, 2, 0, 0, 0, 255, 255, 255, 255, 2, 0, 0, 0],
    [0, 0, 0, 0]]

/-- A text, numbers of both signs and no bytes at all, one after the other. -/
theorem mixed_framed :
    Reader.all (mixed.map fun value => value.kind.read) (mixedCodes.flatten ++ [7]) =
      .ok (mixed, [7]) := by
  have written : mixed.mapM Value.write = some mixedCodes := by decide
  exact framed.2 mixed mixedCodes written [7]

end Piltover.Tl
