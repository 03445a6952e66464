/- source: piltover/tl/primitives/str_.py, piltover/tl/primitives/vector.py,
     piltover/tl/core_types.py
   digest: Which streams make a reader take less, or more, than what they declare. -/

import Piltover.Tl.Framing

set_option autoImplicit false

namespace Piltover.Tl

open Piltover.Foundation

/-! ### Messages and containers -/

/-- A `Message`; its object is whatever the reader of objects makes of the body. -/
structure Message (Obj : Type) where
  messageId : Int
  seqNo : Int
  obj : Obj

section

variable {Obj : Type} (readObject : Bytes → Except ReadError Obj)

def Message.deserialize : Read (Message Obj) :=
  (readInt Long.SIZE).andThen fun msgId =>
    (readInt Int.SIZE).andThen fun seqNo =>
      (readInt Int.SIZE).andThen fun length stream =>
        match readObject (readUpTo length stream).1 with
        | .error e => .error e
        | .ok body => .ok (⟨msgId, seqNo, body⟩, (readUpTo length stream).2)

def MsgContainer.deserialize : Read (List (Message Obj)) :=
  (readInt Int.SIZE).andThen fun count => (Message.deserialize readObject).many count.toNat

end

/-! ### Whole frames -/

/-- Bytes of the declared length, filled up to whole words. -/
inductive BytesFrame : Bytes → Bytes → Prop
  | mk {header value padding : Bytes} (declares : Declares header value.length)
      (fills : padding.length = filling (header.length + value.length)) :
      BytesFrame (header ++ (value ++ padding)) value

/-- As many elements of the array as its header declares. -/
inductive VectorFrame {α : Type} (size : Nat) (decode : Bytes → α) : Bytes → List α → Prop
  | mk {number data : Bytes} (four : number.length = Int.SIZE)
      (declares : toSigned Int.SIZE number = (elements size data).length)
      (whole : data.length = (elements size data).length * size) :
      VectorFrame size decode (VECTOR ++ (number ++ data)) ((elements size data).map decode)

/-- A message with a body of the declared length. -/
inductive MessageFrame {Obj : Type} (readObject : Bytes → Except ReadError Obj) :
    Bytes → Message Obj → Prop
  | mk {msgId seqNo number body : Bytes} {obj : Obj} (eight : msgId.length = Long.SIZE)
      (four : seqNo.length = Int.SIZE) (sized : number.length = Int.SIZE)
      (declares : toSigned Int.SIZE number = body.length) (reads : readObject body = .ok obj) :
      MessageFrame readObject (msgId ++ (seqNo ++ (number ++ body)))
        ⟨toSigned Long.SIZE msgId, toSigned Int.SIZE seqNo, obj⟩

/-- Messages one after the other. -/
inductive MessagesFrame {Obj : Type} (readObject : Bytes → Except ReadError Obj) :
    Bytes → List (Message Obj) → Prop
  | nil : MessagesFrame readObject [] []
  | cons {code codes : Bytes} {message : Message Obj} {messages : List (Message Obj)}
      (first : MessageFrame readObject code message)
      (others : MessagesFrame readObject codes messages) :
      MessagesFrame readObject (code ++ codes) (message :: messages)

/-- As many messages as the container declares. -/
inductive ContainerFrame {Obj : Type} (readObject : Bytes → Except ReadError Obj) :
    Bytes → List (Message Obj) → Prop
  | mk {number codes : Bytes} {messages : List (Message Obj)} (four : number.length = Int.SIZE)
      (declares : toSigned Int.SIZE number = messages.length)
      (each : MessagesFrame readObject codes messages) :
      ContainerFrame readObject (number ++ codes) messages

/-! ### Reading within what there is -/

/-- So many bytes can be read: the number is not negative, and they are there. -/
def Within (size : Int) (stream : Bytes) : Prop := 0 ≤ size ∧ size ≤ stream.length

instance (size : Int) (stream : Bytes) : Decidable (Within size stream) :=
  inferInstanceAs (Decidable (_ ∧ _))

theorem readUpTo_natCast (size : Nat) (stream : Bytes) :
    readUpTo size stream = (stream.take size, stream.drop size) :=
  if_neg (Int.not_lt.mpr (Int.natCast_nonneg size))

theorem readUpTo_of_not_within {size : Int} {stream : Bytes} (outside : ¬ Within size stream) :
    readUpTo size stream = (stream, []) := by
  rw [readUpTo]
  split
  case isTrue negative => rfl
  case isFalse large =>
      have beyond : stream.length ≤ size.toNat := by
        rw [Within] at outside
        omega
      rw [List.take_of_length_le beyond, List.drop_of_length_le beyond]

theorem readInt_of_le {size : Nat} {stream : Bytes} (present : size ≤ stream.length) :
    readInt size stream = .ok (toSigned size (stream.take size), stream.drop size) := by
  rw [readInt, readUpTo_natCast]
  exact if_pos (List.length_take_of_le present)

theorem readInt_append {size : Nat} {number : Bytes} (long : number.length = size) (rest : Bytes) :
    readInt size (number ++ rest) = .ok (toSigned size number, rest) := by
  rw [readInt, readUpTo_append long]
  exact if_pos long

theorem readInt_of_lt {size : Nat} {stream : Bytes} (short : stream.length < size) :
    readInt size stream = .error .struct := by
  rw [readInt, readUpTo_natCast, List.take_of_length_le short.le]
  exact if_neg short.ne

/-! ### Byte strings -/

/-- The header is whole, and so are the bytes it declares and what fills them up; or there is
nothing at all. -/
def BytesWhole : Bytes → Prop
  | [] => True
  | first :: stream =>
    if first.toNat < 254 then
      first.toNat + filling (1 + first.toNat) ≤ stream.length
    else
      3 ≤ stream.length ∧
        leToNat (stream.take 3) + filling (4 + leToNat (stream.take 3)) ≤ stream.length - 3

theorem undoes_of_bytesFrame {code value : Bytes} (framed : BytesFrame code value) :
    readBytes.Undoes code value := by
  intro rest
  cases framed with
  | mk declares fills =>
    rw [List.append_assoc, List.append_assoc]
    exact readBytes_of_declares declares rfl fills rest

theorem exists_bytesFrame {header : Bytes} {count : Nat} (declares : Declares header count)
    (stream : Bytes) (present : count + filling (header.length + count) ≤ stream.length) :
    ∃ code value rest, BytesFrame code value ∧ header ++ stream = code ++ rest := by
  have long : (stream.take count).length = count := List.length_take_of_le (by omega)
  refine ⟨header ++ (stream.take count ++
    (stream.drop count).take (filling (header.length + count))), stream.take count,
    (stream.drop count).drop (filling (header.length + count)), .mk (long.symm ▸ declares) ?_, ?_⟩
  · rw [long, List.length_take_of_le]
    rw [List.length_drop]
    omega
  · rw [List.append_assoc, List.append_assoc, List.take_append_drop, List.take_append_drop]

theorem exists_frame_of_bytesWhole {first : UInt8} {stream : Bytes}
    (whole : BytesWhole (first :: stream)) :
    ∃ code value rest, BytesFrame code value ∧ first :: stream = code ++ rest := by
  rw [BytesWhole] at whole
  split at whole
  case isTrue small => exact exists_bytesFrame (.short first small) stream whole
  case isFalse large =>
      obtain ⟨three, present⟩ := whole
      have long : (stream.take 3).length = 3 := List.length_take_of_le three
      rw [← List.length_drop] at present
      have found := exists_bytesFrame (.long first (stream.take 3) (Nat.not_lt.mp large) long)
        (stream.drop 3) (by rwa [List.length_cons, long])
      rwa [List.cons_append, List.take_append_drop] at found

theorem bytesWhole_of_frame {code value rest : Bytes} (framed : BytesFrame code value) :
    BytesWhole (code ++ rest) := by
  cases framed with
  | @mk header value padding declares fills =>
    rw [List.append_assoc, List.append_assoc]
    generalize counted : value.length = count at declares fills
    cases declares with
    | short first small =>
      rw [List.length_singleton] at fills
      rw [List.singleton_append, BytesWhole, if_pos small, List.length_append,
        List.length_append]
      omega
    | long first length large three =>
      rw [List.length_cons, three] at fills
      change padding.length = filling (4 + leToNat length) at fills
      rw [List.cons_append, BytesWhole, if_neg (Nat.not_lt.mpr large), List.take_left' three,
        List.length_append, List.length_append, List.length_append]
      omega

theorem exists_readBytes (first : UInt8) (stream : Bytes) :
    ∃ value rest, readBytes (first :: stream) = .ok (value, rest) := by
  rw [readBytes]
  split
  exact ⟨_, _, rfl⟩

theorem exactOn_readBytes (stream : Bytes) :
    readBytes.ExactOn BytesFrame stream ↔ BytesWhole stream := by
  cases stream with
  | nil => exact iff_of_true (Reader.exactOn_of_error (e := .index) rfl) trivial
  | cons first stream =>
    obtain ⟨value, rest, done⟩ := exists_readBytes first stream
    constructor
    · intro exactly
      obtain ⟨code, framed, same⟩ := exactly value rest done
      rw [same]
      exact bytesWhole_of_frame framed
    · intro whole
      obtain ⟨code, value, rest, framed, same⟩ := exists_frame_of_bytesWhole whole
      rw [same]
      exact Reader.exactOn_append (undoes_of_bytesFrame framed) framed

/-! ### Arrays -/

/-- As many bytes follow the header as its count declares, or what is read is no whole elements. -/
def VectorWhole (size : Nat) (stream : Bytes) : Prop :=
  ∀ number body, stream = VECTOR ++ (number ++ body) → number.length = Int.SIZE →
    Within (toSigned Int.SIZE number * size) body ∨ body.length % size ≠ 0

theorem readHeader_append {number : Bytes} (four : number.length = Int.SIZE) (rest : Bytes) :
    readHeader (VECTOR ++ (number ++ rest)) = .ok (toSigned Int.SIZE number, rest) := by
  have constructor := undoes_checkConstructor (number ++ rest)
  rw [readHeader, Reader.andThen_of_ok constructor, readInt_append four]

theorem readHeader_cases (stream : Bytes) :
    (∃ e, readHeader stream = .error e) ∨
      ∃ number body, number.length = Int.SIZE ∧ stream = VECTOR ++ (number ++ body) := by
  by_cases starts : stream.take 4 = VECTOR
  · by_cases present : Int.SIZE ≤ (stream.drop 4).length
    · refine .inr ⟨(stream.drop 4).take 4, (stream.drop 4).drop 4,
        List.length_take_of_le present, ?_⟩
      rw [List.take_append_drop, ← starts, List.take_append_drop]
    · refine .inl ⟨.struct, ?_⟩
      have constructor := undoes_checkConstructor (stream.drop 4)
      rw [← starts, List.take_append_drop] at constructor
      rw [readHeader, Reader.andThen_of_ok constructor, readInt_of_lt (Nat.not_le.mp present)]
  · refine .inl ⟨_, (?_ : readHeader stream =
      .error (if (stream.take 4).length = 4 then .constructor else .struct))⟩
    refine Reader.andThen_of_error ?_
    rw [checkConstructor, show (4 : Int) = (4 : Nat) from rfl, readUpTo_natCast]
    exact if_neg starts

theorem length_elements (size : Nat) (data : Bytes) :
    (elements size data).length = data.length / size := by
  rw [elements, List.length_map, List.length_range]

section

variable {α : Type} {size : Nat} {decode : Bytes → α}

theorem readPrimitiveVector_append {number body : Bytes} (four : number.length = Int.SIZE)
    {data rest : Bytes} (reads : readUpTo (toSigned Int.SIZE number * size) body = (data, rest))
    (whole : data.length % size = 0) :
    readPrimitiveVector size decode (VECTOR ++ (number ++ body)) =
      .ok ((elements size data).map decode, rest) := by
  rw [readPrimitiveVector, Reader.andThen_of_ok (readHeader_append four body), reads]
  exact if_pos whole

theorem readPrimitiveVector_error {number body : Bytes} (four : number.length = Int.SIZE)
    {data rest : Bytes} (reads : readUpTo (toSigned Int.SIZE number * size) body = (data, rest))
    (part : data.length % size ≠ 0) :
    readPrimitiveVector size decode (VECTOR ++ (number ++ body)) = .error .value := by
  rw [readPrimitiveVector, Reader.andThen_of_ok (readHeader_append four body), reads]
  exact if_neg part

theorem undoes_of_vectorFrame {code : Bytes} {values : List α}
    (framed : VectorFrame size decode code values) :
    (readPrimitiveVector size decode).Undoes code values := by
  intro rest
  cases framed with
  | @mk number data four declares whole =>
    rw [List.append_assoc, List.append_assoc]
    refine readPrimitiveVector_append four ?_ (by rw [whole, Nat.mul_mod_left])
    rw [declares, ← Nat.cast_mul, readUpTo_append whole]

theorem vectorFrame_of_within (decode : Bytes → α) (pos : 0 < size) {number body : Bytes}
    (four : number.length = Int.SIZE) (within : Within (toSigned Int.SIZE number * size) body) :
    ∃ code values rest, VectorFrame size decode code values ∧
      VECTOR ++ (number ++ body) = code ++ rest := by
  obtain ⟨count, declares⟩ : ∃ count : Nat, toSigned Int.SIZE number = count := by
    refine Int.eq_ofNat_of_zero_le ?_
    exact nonneg_of_mul_nonneg_left within.1 (Int.natCast_pos.mpr pos)
  rw [declares, ← Nat.cast_mul] at within
  have long : (body.take (count * size)).length = count * size :=
    List.length_take_of_le (Int.ofNat_le.mp within.2)
  have many : (elements size (body.take (count * size))).length = count := by
    rw [length_elements, long, Nat.mul_div_cancel _ pos]
  refine ⟨VECTOR ++ (number ++ body.take (count * size)), _, body.drop (count * size),
    .mk four (by rw [many, declares]) (by rw [many, long]), ?_⟩
  rw [List.append_assoc, List.append_assoc, List.take_append_drop]

theorem within_of_vectorFrame {code rest : Bytes} {values : List α}
    (framed : VectorFrame size decode code values) : VectorWhole size (code ++ rest) := by
  cases framed with
  | @mk number data four declares whole =>
    intro number' body same four'
    rw [List.append_assoc, List.append_assoc, List.append_cancel_left_eq] at same
    obtain ⟨rfl, rfl⟩ := List.append_inj same (four.trans four'.symm)
    refine .inl ⟨?_, ?_⟩
    · rw [declares]
      exact_mod_cast Nat.zero_le _
    · rw [declares, ← Nat.cast_mul, ← whole, List.length_append]
      exact_mod_cast Nat.le_add_right _ _

theorem exactOn_readPrimitiveVector (pos : 0 < size) (stream : Bytes) :
    (readPrimitiveVector size decode).ExactOn (VectorFrame size decode) stream ↔
      VectorWhole size stream := by
  rcases readHeader_cases stream with ⟨e, failed⟩ | ⟨number, body, four, rfl⟩
  · refine iff_of_true (Reader.exactOn_of_error (Reader.andThen_of_error failed)) ?_
    rintro number body rfl four
    rw [readHeader_append four] at failed
    cases failed
  · constructor
    · intro exactly
      by_cases whole : (readUpTo (toSigned Int.SIZE number * size) body).1.length % size = 0
      · obtain ⟨code, framed, same⟩ :=
          exactly _ _ (readPrimitiveVector_append four rfl whole)
        rw [same]
        exact within_of_vectorFrame framed
      · intro number' body' same four'
        rw [List.append_cancel_left_eq] at same
        obtain ⟨rfl, rfl⟩ := List.append_inj same (four.trans four'.symm)
        refine Decidable.or_iff_not_imp_left.mpr fun outside => ?_
        rwa [readUpTo_of_not_within outside] at whole
    · intro whole
      by_cases within : Within (toSigned Int.SIZE number * size) body
      · obtain ⟨code, values, rest, framed, same⟩ :=
          vectorFrame_of_within decode pos four within
        rw [same]
        exact Reader.exactOn_append (undoes_of_vectorFrame framed) framed
      · refine Reader.exactOn_of_error
          (readPrimitiveVector_error four (readUpTo_of_not_within within) ?_)
        exact (whole number body rfl four).resolve_left within

end

/-! ### Messages -/

section

variable {Obj : Type} {readObject : Bytes → Except ReadError Obj}

/-- The bytes before the body of a message, and what they declare. -/
def MESSAGE_HEADER : Nat := Long.SIZE + Int.SIZE + Int.SIZE

def declaredLength (stream : Bytes) : Int :=
  toSigned Int.SIZE (((stream.drop Long.SIZE).drop Int.SIZE).take Int.SIZE)

def Unreadable (readObject : Bytes → Except ReadError Obj) (body : Bytes) : Prop :=
  ∃ e, readObject body = .error e

/-- The messages of a container are whole: each body has the declared length, or what is read for
it is no object. A body of another length leaves nothing, so that a message after it is missing. -/
def MessagesWhole (readObject : Bytes → Except ReadError Obj) : Nat → Bytes → Prop
  | 0, _ => True
  | n + 1, stream =>
    stream.length < MESSAGE_HEADER ∨
      Unreadable readObject
        (readUpTo (declaredLength stream) (stream.drop MESSAGE_HEADER)).1 ∨
      if Within (declaredLength stream) (stream.drop MESSAGE_HEADER) then
        MessagesWhole readObject n
          ((stream.drop MESSAGE_HEADER).drop (declaredLength stream).toNat)
      else n ≠ 0

/-- A message alone. -/
def MessageWhole (readObject : Bytes → Except ReadError Obj) (stream : Bytes) : Prop :=
  MessagesWhole readObject 1 stream

theorem deserialize_append {msgId seqNo number body : Bytes} (eight : msgId.length = Long.SIZE)
    (four : seqNo.length = Int.SIZE) (sized : number.length = Int.SIZE) :
    Message.deserialize readObject (msgId ++ (seqNo ++ (number ++ body))) =
      match readObject (readUpTo (toSigned Int.SIZE number) body).1 with
      | .error e => .error e
      | .ok obj => .ok (⟨toSigned Long.SIZE msgId, toSigned Int.SIZE seqNo, obj⟩,
          (readUpTo (toSigned Int.SIZE number) body).2) := by
  rw [Message.deserialize, Reader.andThen_of_ok (readInt_append eight _),
    Reader.andThen_of_ok (readInt_append four _), Reader.andThen_of_ok (readInt_append sized _)]

theorem exists_header {stream : Bytes} (present : MESSAGE_HEADER ≤ stream.length) :
    ∃ msgId seqNo number body, msgId.length = Long.SIZE ∧ seqNo.length = Int.SIZE ∧
      number.length = Int.SIZE ∧ stream = msgId ++ (seqNo ++ (number ++ body)) := by
  rw [MESSAGE_HEADER] at present
  refine ⟨stream.take Long.SIZE, (stream.drop Long.SIZE).take Int.SIZE,
    ((stream.drop Long.SIZE).drop Int.SIZE).take Int.SIZE,
    ((stream.drop Long.SIZE).drop Int.SIZE).drop Int.SIZE, List.length_take_of_le (by omega),
    List.length_take_of_le ?_, List.length_take_of_le ?_, ?_⟩
  · rw [List.length_drop]
    omega
  · rw [List.length_drop, List.length_drop]
    omega
  · simp only [List.take_append_drop]

theorem deserialize_of_lt {stream : Bytes} (short : stream.length < MESSAGE_HEADER) :
    Message.deserialize readObject stream = .error .struct := by
  rw [MESSAGE_HEADER] at short
  rw [Message.deserialize]
  by_cases eight : Long.SIZE ≤ stream.length
  · rw [Reader.andThen_of_ok (readInt_of_le eight)]
    by_cases four : Int.SIZE ≤ (stream.drop Long.SIZE).length
    · rw [Reader.andThen_of_ok (readInt_of_le four)]
      refine Reader.andThen_of_error (readInt_of_lt ?_)
      rw [List.length_drop, List.length_drop]
      omega
    · exact Reader.andThen_of_error (readInt_of_lt (Nat.not_le.mp four))
  · exact Reader.andThen_of_error (readInt_of_lt (Nat.not_le.mp eight))

theorem undoes_of_messageFrame {code : Bytes} {message : Message Obj}
    (framed : MessageFrame readObject code message) :
    (Message.deserialize readObject).Undoes code message := by
  intro rest
  cases framed with
  | mk eight four sized declares reads =>
    rw [List.append_assoc, List.append_assoc, List.append_assoc,
      deserialize_append eight four sized, declares, readUpTo_append rfl, reads]

theorem messagesWhole_succ_append {n : Nat} {msgId seqNo number body : Bytes}
    (eight : msgId.length = Long.SIZE) (four : seqNo.length = Int.SIZE)
    (sized : number.length = Int.SIZE) :
    MessagesWhole readObject (n + 1) (msgId ++ (seqNo ++ (number ++ body))) ↔
      Unreadable readObject (readUpTo (toSigned Int.SIZE number) body).1 ∨
        if Within (toSigned Int.SIZE number) body then
          MessagesWhole readObject n (body.drop (toSigned Int.SIZE number).toNat)
        else n ≠ 0 := by
  have declared : declaredLength (msgId ++ (seqNo ++ (number ++ body))) =
      toSigned Int.SIZE number := by
    rw [declaredLength, List.drop_left' eight, List.drop_left' four, List.take_left' sized]
  have behind : (msgId ++ (seqNo ++ (number ++ body))).drop MESSAGE_HEADER = body := by
    rw [MESSAGE_HEADER, ← List.drop_drop, ← List.drop_drop, List.drop_left' eight,
      List.drop_left' four, List.drop_left' sized]
  have present : ¬ (msgId ++ (seqNo ++ (number ++ body))).length < MESSAGE_HEADER := by
    rw [List.length_append, List.length_append, List.length_append, eight, four, sized,
      MESSAGE_HEADER]
    omega
  rw [MessagesWhole, declared, behind, or_iff_right present]

theorem messageFrame_of_within {msgId seqNo number body : Bytes} {obj : Obj}
    (eight : msgId.length = Long.SIZE) (four : seqNo.length = Int.SIZE)
    (sized : number.length = Int.SIZE) (within : Within (toSigned Int.SIZE number) body)
    (reads : readObject (readUpTo (toSigned Int.SIZE number) body).1 = .ok obj) :
    ∃ code message, MessageFrame readObject code message ∧
      msgId ++ (seqNo ++ (number ++ body)) =
        code ++ body.drop (toSigned Int.SIZE number).toNat := by
  obtain ⟨length, declares⟩ := Int.eq_ofNat_of_zero_le within.1
  rw [declares, readUpTo_natCast] at reads
  rw [declares] at within ⊢
  have long : (body.take length).length = length :=
    List.length_take_of_le (Int.ofNat_le.mp within.2)
  refine ⟨msgId ++ (seqNo ++ (number ++ body.take length)), _,
    .mk eight four sized (by rw [long, declares]) reads, ?_⟩
  rw [Int.toNat_natCast, List.append_assoc, List.append_assoc, List.append_assoc,
    List.take_append_drop]

theorem within_of_messageFrame {msgId seqNo number body code rest : Bytes} {message : Message Obj}
    (eight : msgId.length = Long.SIZE) (four : seqNo.length = Int.SIZE)
    (sized : number.length = Int.SIZE) (framed : MessageFrame readObject code message)
    (same : msgId ++ (seqNo ++ (number ++ body)) = code ++ rest) :
    Within (toSigned Int.SIZE number) body := by
  cases framed with
  | mk eight' four' sized' declares reads =>
    rw [List.append_assoc, List.append_assoc, List.append_assoc] at same
    obtain ⟨-, same⟩ := List.append_inj same (eight.trans eight'.symm)
    obtain ⟨-, same⟩ := List.append_inj same (four.trans four'.symm)
    obtain ⟨rfl, rfl⟩ := List.append_inj same (sized.trans sized'.symm)
    rw [declares, Within, List.length_append]
    exact ⟨Int.natCast_nonneg _, Int.ofNat_le.mpr (Nat.le_add_right _ _)⟩

theorem messagesFrame_cons {code : Bytes} {message : Message Obj} {messages : List (Message Obj)}
    (framed : MessagesFrame readObject code (message :: messages)) :
    ∃ first others, code = first ++ others ∧ MessageFrame readObject first message ∧
      MessagesFrame readObject others messages := by
  cases framed with
  | cons first others => exact ⟨_, _, rfl, first, others⟩

theorem many_succ_of_ok {n : Nat} {stream rest : Bytes} {message : Message Obj}
    (done : Message.deserialize readObject stream = .ok (message, rest)) :
    (Message.deserialize readObject).many (n + 1) stream =
      ((Message.deserialize readObject).many n).map (message :: ·) rest :=
  Reader.andThen_of_ok done

theorem many_succ_of_lt {n : Nat} {stream : Bytes} (short : stream.length < MESSAGE_HEADER) :
    (Message.deserialize readObject).many (n + 1) stream = .error .struct :=
  Reader.andThen_of_error (deserialize_of_lt short)

theorem exactOn_many_append {n : Nat} {code rest : Bytes} {message : Message Obj}
    (framed : MessageFrame readObject code message) :
    ((Message.deserialize readObject).many (n + 1)).ExactOn (MessagesFrame readObject)
        (code ++ rest) ↔
      ((Message.deserialize readObject).many n).ExactOn (MessagesFrame readObject) rest := by
  have first := many_succ_of_ok (n := n) (undoes_of_messageFrame framed rest)
  constructor
  · intro exactly messages left done
    obtain ⟨_, both, same⟩ :=
      exactly (message :: messages) left (first.trans (Reader.map_eq_ok.mpr ⟨messages, done, rfl⟩))
    obtain ⟨code', codes, rfl, first', others⟩ := messagesFrame_cons both
    rw [List.append_assoc] at same
    have again := undoes_of_messageFrame first' (codes ++ left)
    rw [← same, undoes_of_messageFrame framed rest] at again
    cases again
    exact ⟨codes, others, rfl⟩
  · intro exactly messages left done
    rw [first] at done
    obtain ⟨messages, later, rfl⟩ := Reader.map_eq_ok.mp done
    obtain ⟨codes, others, rfl⟩ := exactly messages left later
    exact ⟨code ++ codes, .cons framed others, (List.append_assoc _ _ _).symm⟩

theorem exactOn_many (n : Nat) (stream : Bytes) :
    ((Message.deserialize readObject).many n).ExactOn (MessagesFrame readObject) stream ↔
      MessagesWhole readObject n stream := by
  induction n generalizing stream with
  | zero =>
    refine iff_of_true (fun messages rest done => ?_) trivial
    cases done
    exact ⟨[], .nil, rfl⟩
  | succ n ih =>
    by_cases short : stream.length < MESSAGE_HEADER
    · exact iff_of_true (Reader.exactOn_of_error (many_succ_of_lt short)) (.inl short)
    · obtain ⟨msgId, seqNo, number, body, eight, four, sized, rfl⟩ :=
        exists_header (Nat.not_lt.mp short)
      have read : Message.deserialize readObject (msgId ++ (seqNo ++ (number ++ body))) = _ :=
        deserialize_append eight four sized
      rw [messagesWhole_succ_append eight four sized]
      cases reads : readObject (readUpTo (toSigned Int.SIZE number) body).1 with
      | error e =>
        rw [reads] at read
        exact iff_of_true (Reader.exactOn_of_error (Reader.andThen_of_error read))
          (.inl ⟨e, reads⟩)
      | ok obj =>
        have readable : ¬ Unreadable readObject
            (readUpTo (toSigned Int.SIZE number) body).1 := by
          rintro ⟨e, failed⟩
          rw [reads] at failed
          cases failed
        rw [or_iff_right readable]
        by_cases within : Within (toSigned Int.SIZE number) body
        · obtain ⟨code, message, framed, same⟩ :=
            messageFrame_of_within eight four sized within reads
          rw [if_pos within, same, exactOn_many_append framed, ih]
        · rw [reads, readUpTo_of_not_within within] at read
          rw [if_neg within]
          cases n with
          | zero =>
            refine iff_of_false (fun exactly => ?_) fun none => none rfl
            obtain ⟨_, both, same⟩ := exactly [_] [] (many_succ_of_ok read)
            obtain ⟨code, codes, rfl, framed, -⟩ := messagesFrame_cons both
            rw [List.append_assoc] at same
            exact within (within_of_messageFrame eight four sized framed same)
          | succ n =>
            have missing : (Message.deserialize readObject).many (n + 1) [] =
                .error .struct := many_succ_of_lt (by decide)
            exact iff_of_true (Reader.exactOn_of_error
              ((many_succ_of_ok read).trans (Reader.andThen_of_error missing)))
              (Nat.succ_ne_zero n)

theorem exactOn_deserialize (stream : Bytes) :
    (Message.deserialize readObject).ExactOn (MessageFrame readObject) stream ↔
      MessageWhole readObject stream := by
  rw [MessageWhole, ← exactOn_many]
  constructor
  · intro exactly messages rest done
    obtain ⟨message, between, first, later⟩ := Reader.andThen_eq_ok.mp done
    cases later
    obtain ⟨code, framed, same⟩ := exactly message _ first
    exact ⟨code ++ [], .cons framed .nil, by rw [List.append_nil, same]⟩
  · intro exactly message rest done
    obtain ⟨_, both, same⟩ := exactly [message] rest (many_succ_of_ok done)
    obtain ⟨code, codes, rfl, framed, others⟩ := messagesFrame_cons both
    cases others
    rw [List.append_nil] at same
    exact ⟨code, framed, same⟩

/-! ### Containers -/

/-- The count is not negative, and so many messages are whole. -/
def ContainerWhole (readObject : Bytes → Except ReadError Obj) (stream : Bytes) : Prop :=
  ∀ number body, stream = number ++ body → number.length = Int.SIZE →
    0 ≤ toSigned Int.SIZE number ∧
      MessagesWhole readObject (toSigned Int.SIZE number).toNat body

theorem containerWhole_append {number body : Bytes} (four : number.length = Int.SIZE) :
    ContainerWhole readObject (number ++ body) ↔ 0 ≤ toSigned Int.SIZE number ∧
      MessagesWhole readObject (toSigned Int.SIZE number).toNat body := by
  refine ⟨fun whole => whole number body rfl four, fun whole number' body' same four' => ?_⟩
  obtain ⟨rfl, rfl⟩ := List.append_inj same (four.trans four'.symm)
  exact whole

theorem containerFrame_append {number body rest : Bytes} {messages : List (Message Obj)}
    (four : number.length = Int.SIZE) :
    (∃ code, ContainerFrame readObject code messages ∧ number ++ body = code ++ rest) ↔
      toSigned Int.SIZE number = messages.length ∧
        ∃ codes, MessagesFrame readObject codes messages ∧ body = codes ++ rest := by
  constructor
  · rintro ⟨_, ⟨four', declares, each⟩, same⟩
    rw [List.append_assoc] at same
    obtain ⟨rfl, rfl⟩ := List.append_inj same (four.trans four'.symm)
    exact ⟨declares, _, each, rfl⟩
  · rintro ⟨declares, codes, each, rfl⟩
    exact ⟨number ++ codes, .mk four declares each, (List.append_assoc _ _ _).symm⟩

theorem exactOn_container (stream : Bytes) :
    (MsgContainer.deserialize readObject).ExactOn (ContainerFrame readObject) stream ↔
      ContainerWhole readObject stream := by
  by_cases present : Int.SIZE ≤ stream.length
  · have four : (stream.take Int.SIZE).length = Int.SIZE := List.length_take_of_le present
    have parts := (List.take_append_drop Int.SIZE stream).symm
    generalize stream.take Int.SIZE = number at four parts
    generalize stream.drop Int.SIZE = body at parts
    subst parts
    have read : MsgContainer.deserialize readObject (number ++ body) = _ :=
      Reader.andThen_of_ok (readInt_append four body)
    rw [containerWhole_append four, ← exactOn_many]
    constructor
    · intro exactly
      have counted : 0 ≤ toSigned Int.SIZE number := by
        by_contra negative
        rw [Int.toNat_of_nonpos (Int.not_le.mp negative).le] at read
        obtain ⟨declares, -⟩ := (containerFrame_append four).mp (exactly [] body read)
        rw [declares] at negative
        exact negative (Int.natCast_nonneg _)
      refine ⟨counted, fun messages rest done => ?_⟩
      exact ((containerFrame_append four).mp (exactly messages rest (read.trans done))).2
    · rintro ⟨counted, exactly⟩ messages rest done
      rw [read] at done
      refine (containerFrame_append four).mpr ⟨?_, exactly messages rest done⟩
      rw [Reader.length_of_many done, Int.toNat_of_nonneg counted]
  · have short := Nat.not_le.mp present
    refine iff_of_true (Reader.exactOn_of_error (Reader.andThen_of_error (readInt_of_lt short))) ?_
    rintro number body rfl four
    rw [List.length_append, four] at short
    omega

end

/-! ### Declared lengths -/

/-- The arrays there are, and the size of their elements. -/
inductive ArrayType
  | int
  | long
  | float

def ArrayType.elementSize : ArrayType → Nat
  | int => 4
  | long => 8
  | float => 8

/-- A declared length is enforced exactly where a byte string is whole; where an array has as many
bytes as its count declares, or is no whole elements; where a message has the body it declares, or
one that cannot be read; and where a container declares no negative count and its last message is
such a message. -/
theorem enforced_iff {α Obj : Type} (array : ArrayType) (decode : Bytes → α)
    (readObject : Bytes → Except ReadError Obj) (stream : Bytes) :
    (readBytes.ExactOn BytesFrame stream ↔ BytesWhole stream) ∧
      ((readPrimitiveVector array.elementSize decode).ExactOn
          (VectorFrame array.elementSize decode) stream ↔ VectorWhole array.elementSize stream) ∧
      ((Message.deserialize readObject).ExactOn (MessageFrame readObject) stream ↔
        MessageWhole readObject stream) ∧
      ((MsgContainer.deserialize readObject).ExactOn (ContainerFrame readObject) stream ↔
        ContainerWhole readObject stream) := by
  have pos : 0 < array.elementSize := by cases array <;> decide
  exact ⟨exactOn_readBytes stream, exactOn_readPrimitiveVector pos stream,
    exactOn_deserialize stream, exactOn_container stream⟩

/-- A byte string that declares five bytes and has one is read as that one, an array that declares
two numbers as the one that is there, and a container of minus one messages as an empty one. -/
theorem lengths_ignored :
    (readBytes [5, 1] = .ok ([1], []) ∧ ¬ readBytes.ExactOn BytesFrame [5, 1]) ∧
      readIntVector Int.SIZE (VECTOR ++ ([2, 0, 0, 0] ++ [7, 0, 0, 0])) = .ok ([7], []) ∧
      (MsgContainer.deserialize fun _ => .ok ()) [255, 255, 255, 255] = .ok ([], []) ∧
      ¬ (MsgContainer.deserialize fun _ => .ok ()).ExactOn
        (ContainerFrame fun _ => .ok ()) [255, 255, 255, 255] := by
  have two : toSigned Int.SIZE [2, 0, 0, 0] = 2 := by decide
  have seven : (elements Int.SIZE [7, 0, 0, 0]).map (toSigned Int.SIZE) = [7] := by decide
  have short : readIntVector Int.SIZE (VECTOR ++ ([2, 0, 0, 0] ++ [7, 0, 0, 0])) =
      .ok ((elements Int.SIZE [7, 0, 0, 0]).map (toSigned Int.SIZE), []) :=
    readPrimitiveVector_append rfl (by rw [two]; rfl) rfl
  refine ⟨⟨rfl, ?_⟩, seven ▸ short, rfl, ?_⟩
  · rw [exactOn_readBytes, BytesWhole, if_pos (by decide)]
    decide
  · rw [exactOn_container]
    intro whole
    exact absurd (whole [255, 255, 255, 255] [] rfl rfl).1 (by decide)

end Piltover.Tl
