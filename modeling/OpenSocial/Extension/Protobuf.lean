/-
This file models the extension's interpreted protobuf runtime: the encoder and the
decoder that follow a message's schema field by field.

The primitives of the wire format are parameters: how one scalar is written and
read, and how a field of an unknown number is skipped. A message is given by the
values of its fields in the order of their ids. Maps and groups are left out.
-/

import OpenSocial.Common.Util

namespace OpenSocial.Extension.Protobuf

/-! ### Schemas -/

/-- The scalar types. -/
inductive Scalar where
  | double
  | float
  | int32
  | uint32
  | sint32
  | fixed32
  | sfixed32
  | int64
  | uint64
  | sint64
  | fixed64
  | sfixed64
  | bool
  | string
  | bytes
  deriving DecidableEq, Repr

/-- The values of a scalar type; a floating-point number is its bits. -/
abbrev Scalar.Value : Scalar → Type
  | .double => UInt64
  | .float => UInt32
  | .int32 => Int32
  | .uint32 => UInt32
  | .sint32 => Int32
  | .fixed32 => UInt32
  | .sfixed32 => Int32
  | .int64 => Int64
  | .uint64 => UInt64
  | .sint64 => Int64
  | .fixed64 => UInt64
  | .sfixed64 => Int64
  | .bool => Bool
  | .string => String
  | .bytes => Bytes

/-- `types.basic`: the wire type of a scalar. -/
def basic : Scalar → ℕ
  | .double => 1
  | .float => 5
  | .int32 => 0
  | .uint32 => 0
  | .sint32 => 0
  | .fixed32 => 5
  | .sfixed32 => 5
  | .int64 => 0
  | .uint64 => 0
  | .sint64 => 0
  | .fixed64 => 1
  | .sfixed64 => 1
  | .bool => 0
  | .string => 2
  | .bytes => 2

/-- `types.packed`: whether values of the type can stand in one region. -/
def packed (type : Scalar) : Bool := basic type != 2

/-- A message type is known by its place in the schema. -/
inductive FieldType where
  | scalar (type : Scalar)
  | enumeration
  | message (index : ℕ)
  deriving DecidableEq, Repr

/-- The scalar a field is written as, if it is no message. -/
def scalarType : FieldType → Option Scalar
  | .scalar type => some type
  | .enumeration => some .int32
  | .message _ => none

inductive FieldRule where
  | required
  | optional
  | repeated
  deriving DecidableEq, Repr

structure Field where
  name : String
  id : ℕ
  type : FieldType
  rule : FieldRule
  packed : Bool
  deriving DecidableEq, Repr

/-- The fields of a message type, in the order of their ids. -/
structure MessageType where
  fields : List Field
  sorted : fields.Pairwise fun earlier later => earlier.id < later.id
  small : ∀ field ∈ fields, field.id < 2 ^ 29

abbrev Schema := List MessageType

/-- `sortedFields`; an unknown message type has none. -/
def sortedFields (schema : Schema) (index : ℕ) : List Field :=
  (schema[index]?).elim [] MessageType.fields

/-! ### Messages -/

mutual

/-- A value of a field that is not repeated, or of one place of a repeated one. -/
inductive Item where
  | scalar (type : Scalar) (value : type.Value)
  | message (slots : List Slot)

/-- What a message has for a field. -/
inductive Slot where
  | absent
  | single (item : Item)
  | list (items : List Item)

end

/-- An item of the field's type; `below` says which messages are well typed. -/
def ItemTyped (below : ℕ → List Slot → Prop) (field : Field) : Item → Prop
  | .scalar type _ => scalarType field.type = some type
  | .message slots => ∃ index, field.type = .message index ∧ below index slots

/-- A slot that the field's rule allows, with items of its type. -/
def SlotTyped (below : ℕ → List Slot → Prop) (field : Field) : Slot → Prop
  | .absent => field.rule ≠ .required
  | .single item => field.rule ≠ .repeated ∧ ItemTyped below field item
  | .list items => field.rule = .repeated ∧ ∀ item ∈ items, ItemTyped below field item

/-- A message of its type with at most so many levels of messages. -/
def WellTyped (schema : Schema) : ℕ → ℕ → List Slot → Prop
  | 0, _, _ => False
  | levels + 1, index, slots =>
    List.Forall₂ (SlotTyped (WellTyped schema levels)) (sortedFields schema index) slots

def fillItem (below : ℕ → List Slot → List Slot) (field : Field) : Item → Item
  | .scalar type value => .scalar type value
  | .message slots =>
    match field.type with
    | .message index => .message (below index slots)
    | _ => .message slots

def fillSlot (below : ℕ → List Slot → List Slot) (field : Field) : Slot → Slot
  | .absent => if field.rule = .repeated then .list [] else .absent
  | .single item => .single (fillItem below field item)
  | .list items => .list (items.map (fillItem below field))

/-- The message with empty lists for the repeated fields it has nothing for. -/
def fill (schema : Schema) : ℕ → ℕ → List Slot → List Slot
  | 0, _, slots => slots
  | levels + 1, index, slots =>
    List.zipWith (fillSlot (fill schema levels)) (sortedFields schema index) slots

/-! ### Primitives -/

/-- `thrown` has the text of an error; the other two stand for a value that is not of its type and
for a loop that was not given enough steps. -/
inductive ProtobufError where
  | thrown (message : String)
  | illTyped
  | exhausted
  deriving DecidableEq, Repr

def OUT_OF_RANGE : ProtobufError := .thrown "index out of range"

/-- What the runtime uses of the reader and the writer: the bytes of a scalar, the scalar at the
front of the bytes that may be read, with how many bytes it takes, and how many bytes an unknown
field takes; and their limits of nesting. -/
structure Primitives where
  write : (type : Scalar) → type.Value → Bytes
  read : (type : Scalar) → Bytes → Except String (type.Value × ℕ)
  skip : (wireType depth : ℕ) → Bytes → Except String ℕ
  recursionLimit : ℕ
  readerLimit : ℕ

/-- A scalar is read back with anything behind it, and reading takes bytes that are there. -/
structure Primitives.Correct (primitives : Primitives) : Prop where
  read_write : ∀ (type : Scalar) (value : type.Value) (rest : Bytes),
    primitives.read type (primitives.write type value ++ rest) =
      .ok (value, (primitives.write type value).length)
  read_within : ∀ (type : Scalar) (bytes : Bytes) (value : type.Value) (count : ℕ),
    primitives.read type bytes = .ok (value, count) → 0 < count ∧ count ≤ bytes.length
  skip_within : ∀ (wireType depth : ℕ) (bytes : Bytes) (count : ℕ),
    primitives.skip wireType depth bytes = .ok count → count ≤ bytes.length

/-! ### Encoder -/

section Encoder

variable (primitives : Primitives)

/-- `w.uint32(((field.id << 3) | wireType) >>> 0)`. -/
def writeTag (field : Field) (wireType : ℕ) : Bytes :=
  primitives.write .uint32 (UInt32.ofNat (field.id * 8 + wireType))

/-- `w.fork()` … `w.ldelim()`. -/
def ldelim (content : Bytes) : Bytes :=
  primitives.write .uint32 (UInt32.ofNat content.length) ++ content

/-- One value behind its tag. -/
def encodeItem (nested : ℕ → List Slot → Except ProtobufError Bytes) (field : Field) :
    Item → Except ProtobufError Bytes
  | .scalar type value =>
    if scalarType field.type = some type then
      .ok (writeTag primitives field (basic type) ++ primitives.write type value)
    else .error .illTyped
  | .message slots =>
    match field.type with
    | .message index => do
      let content ← nested index slots
      .ok (writeTag primitives field 2 ++ ldelim primitives content)
    | _ => .error .illTyped

def encodeItems (nested : ℕ → List Slot → Except ProtobufError Bytes) (field : Field) :
    List Item → Except ProtobufError Bytes
  | [] => .ok []
  | item :: items => do
    let first ← encodeItem primitives nested field item
    let others ← encodeItems nested field items
    .ok (first ++ others)

/-- The values of a packed field, without tags. -/
def writeScalars (type : Scalar) : List Item → Except ProtobufError Bytes
  | [] => .ok []
  | .scalar other value :: items =>
    if type = other then do
      let others ← writeScalars type items
      .ok (primitives.write other value ++ others)
    else .error .illTyped
  | .message _ :: _ => .error .illTyped

/-- The scalar type of a field whose values stand in one region. -/
def packedType (field : Field) : Option Scalar :=
  (scalarType field.type).filter fun type => field.packed && packed type

def encodeSlot (nested : ℕ → List Slot → Except ProtobufError Bytes) (field : Field) :
    Slot → Except ProtobufError Bytes
  | .absent => if field.rule = .required then .error .illTyped else .ok []
  | .single item =>
    if field.rule = .repeated then .error .illTyped else encodeItem primitives nested field item
  | .list items =>
    if field.rule ≠ .repeated then .error .illTyped
    else if items.isEmpty then .ok []
    else
      match packedType field with
      | some type => do
        let content ← writeScalars primitives type items
        .ok (writeTag primitives field 2 ++ ldelim primitives content)
      | none => encodeItems primitives nested field items

def encodeFields (nested : ℕ → List Slot → Except ProtobufError Bytes) :
    List Field → List Slot → Except ProtobufError Bytes
  | [], [] => .ok []
  | field :: fields, slot :: slots => do
    let first ← encodeSlot primitives nested field slot
    let others ← encodeFields nested fields slots
    .ok (first ++ others)
  | _, _ => .error .illTyped

/-- `encodeMessage`; `levels` counts the levels that the recursion limit still allows. -/
def encodeMessage (schema : Schema) : ℕ → ℕ → List Slot → Except ProtobufError Bytes
  | 0, _, _ => .error (.thrown "max depth exceeded")
  | levels + 1, index, slots =>
    encodeFields primitives (encodeMessage schema levels) (sortedFields schema index) slots

/-- `finish`: the written bytes as one buffer. -/
def finish (bytes : Bytes) : Except ProtobufError Bytes :=
  if bytes.length < 2 ^ 32 then .ok bytes else .error (.thrown "Invalid typed array length")

/-- `encodeMessage` from the outermost message, and `finish`. -/
def encode (schema : Schema) (index : ℕ) (slots : List Slot) : Except ProtobufError Bytes := do
  let bytes ← encodeMessage primitives schema (primitives.recursionLimit + 1) index slots
  finish bytes

end Encoder

/-! ### Decoder -/

/-- The buffer, the place to read from and the end of what may be read. -/
structure Reader where
  buf : Bytes
  pos : ℕ
  len : ℕ
  deriving DecidableEq, Repr

namespace Reader

def create (bytes : Bytes) : Reader := ⟨bytes, 0, bytes.length⟩

/-- The bytes that may be read. -/
def rest (reader : Reader) : Bytes := (reader.buf.take reader.len).drop reader.pos

def advance (reader : Reader) (count : ℕ) : Reader := { reader with pos := reader.pos + count }

/-- `r.len = c`. -/
def bound (reader : Reader) (len : ℕ) : Reader := { reader with len := len }

end Reader

section Decoder

variable (primitives : Primitives)

def readScalar (type : Scalar) (reader : Reader) :
    Except ProtobufError (type.Value × Reader) :=
  match primitives.read type reader.rest with
  | .ok (value, count) => .ok (value, reader.advance count)
  | .error message => .error (.thrown message)

def skipType (wireType depth : ℕ) (reader : Reader) : Except ProtobufError Reader :=
  match primitives.skip wireType depth reader.rest with
  | .ok count => .ok (reader.advance count)
  | .error message => .error (.thrown message)

/-- The values of a packed region that ends at `stop`. -/
def readPacked (type : Scalar) (stop : ℕ) :
    ℕ → Reader → List Item → Except ProtobufError (List Item × Reader)
  | 0, reader, items => if reader.pos < stop then .error .exhausted else .ok (items, reader)
  | steps + 1, reader, items =>
    if reader.pos < stop then do
      let (value, reader) ← readScalar primitives type reader
      readPacked type stop steps reader (items ++ [.scalar type value])
    else .ok (items, reader)

/-- One value behind its tag. -/
def decodeItem (nested : ℕ → Reader → Option ℕ → Except ProtobufError (List Slot × Reader))
    (field : Field) (reader : Reader) : Except ProtobufError (Item × Reader) :=
  match field.type with
  | .message index => do
    let (length, reader) ← readScalar primitives .uint32 reader
    let (slots, reader) ← nested index reader (some length.toNat)
    .ok (.message slots, reader)
  | .scalar type => do
    let (value, reader) ← readScalar primitives type reader
    .ok (.scalar type value, reader)
  | .enumeration => do
    let (value, reader) ← readScalar primitives .int32 reader
    .ok (.scalar .int32 value, reader)

/-- The list of a repeated field, if it has one already. -/
def listOf : Slot → List Item
  | .list items => items
  | _ => []

/-- What the runtime makes of one field behind its tag, in a message that ends at `stop`. -/
def decodeField (nested : ℕ → Reader → Option ℕ → Except ProtobufError (List Slot × Reader))
    (field : Field) (wireType stop : ℕ) (slot : Slot) (reader : Reader) :
    Except ProtobufError (Slot × Reader) :=
  if field.rule = .repeated then
    match (scalarType field.type).filter fun type => packed type && wireType == 2 with
    | some type => do
      let (length, reader) ← readScalar primitives .uint32 reader
      let region := reader.pos + length.toNat
      if reader.len < region then .error OUT_OF_RANGE
      else do
        let (items, reader) ← readPacked primitives type region length.toNat
          (reader.bound region) (listOf slot)
        if reader.pos ≠ region then .error OUT_OF_RANGE
        else .ok (.list items, reader.bound stop)
    | none => do
      let (item, reader) ← decodeItem primitives nested field reader
      .ok (.list (listOf slot ++ [item]), reader)
  else do
    let (item, reader) ← decodeItem primitives nested field reader
    .ok (.single item, reader)

/-- The loop over the fields of a message that ends at `stop`. -/
def decodeFields (nested : ℕ → Reader → Option ℕ → Except ProtobufError (List Slot × Reader))
    (fields : List Field) (depth stop : ℕ) :
    ℕ → Reader → List Slot → Except ProtobufError (List Slot × Reader)
  | 0, reader, slots => if reader.pos < stop then .error .exhausted else .ok (slots, reader)
  | steps + 1, reader, slots =>
    if reader.pos < stop then do
      let (tag, reader) ← readScalar primitives .uint32 reader
      match fields.zipIdx.find? fun entry => entry.1.id == tag.toNat / 8 with
      | none => do
        let reader ← skipType primitives (tag.toNat % 8) depth reader
        decodeFields nested fields depth stop steps reader slots
      | some (field, position) => do
        let (slot, reader) ← decodeField primitives nested field (tag.toNat % 8) stop
          ((slots[position]?).getD .absent) reader
        decodeFields nested fields depth stop steps reader (slots.set position slot)
    else .ok (slots, reader)

/-- A new message: the constructor makes the lists. -/
def construct (fields : List Field) : List Slot :=
  fields.map fun field => if field.rule = .repeated then .list [] else .absent

/-- The first required field without a value. -/
def checkRequired : List Field → List Slot → Except ProtobufError Unit
  | field :: fields, .absent :: slots =>
    if field.rule = .required then .error (.thrown ("missing required '" ++ field.name ++ "'"))
    else checkRequired fields slots
  | _ :: fields, _ :: slots => checkRequired fields slots
  | _, _ => .ok ()

/-- `decodeMessage`; a length makes a region, and `levels` counts the levels that the recursion
limit still allows. -/
def decodeMessage (schema : Schema) :
    ℕ → ℕ → Reader → Option ℕ → Except ProtobufError (List Slot × Reader)
  | 0, _, _, _ => .error (.thrown "maximum nesting depth exceeded")
  | levels + 1, index, reader, length => do
    let fields := sortedFields schema index
    let stop := length.elim reader.len fun length => reader.pos + length
    if reader.len < stop then .error OUT_OF_RANGE
    else do
      let (slots, after) ← decodeFields primitives (decodeMessage schema levels) fields
        (primitives.readerLimit - levels) stop (stop - reader.pos) (reader.bound stop)
        (construct fields)
      if length.isSome ∧ after.pos ≠ stop then .error OUT_OF_RANGE
      else do
        checkRequired fields slots
        .ok (slots, after.bound reader.len)

/-- `decodeMessage` of a buffer. -/
def decode (schema : Schema) (index : ℕ) (bytes : Bytes) : Except ProtobufError (List Slot) := do
  let (slots, _) ← decodeMessage primitives schema (primitives.readerLimit + 1) index
    (Reader.create bytes) none
  .ok slots

end Decoder

end OpenSocial.Extension.Protobuf
