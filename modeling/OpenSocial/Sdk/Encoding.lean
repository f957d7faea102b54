/-
This file models the SDK's canonical encoding: the normalization of an input object
by its schema, the conversion to a message of the interpreted runtime, and the way
back from bytes to the SDK's object model.

An object's members are listed in the order of the fields; the order of its keys
says nothing. Fields of floating-point types and wrappers of well-known types are
left out, and so are fields named like a member that every object inherits. What the
writer makes of an enum number that does not fit in 32 bits is a parameter, as are the
primitives of the wire format and Base58.
-/

import OpenSocial.Extension.Protobuf
import OpenSocial.Sdk.Ids
import OpenSocial.Sdk.Json

namespace OpenSocial.Sdk.Encoding

open Extension

/-! ### Values -/

/-- A value of the language, as a member of an input object may be one. `missing` is `undefined` or
`null`, `fraction` a number that is no integer, and `other` a function or a symbol; an object has
its text from `toString`, if it has that method. -/
inductive ProtoValue where
  | missing
  | integer (value : ℤ)
  | fraction
  | bigint (value : ℤ)
  | boolean (value : Bool)
  | string (text : String)
  | bytes (data : Bytes)
  | array (items : List ProtoValue)
  | object (members : List (String × ProtoValue)) (text : Option String)
  | other

/-- The members of an object. -/
abbrev ProtoObject := List (String × ProtoValue)

namespace ProtoValue

/-- An object made by a literal. -/
def plain (members : ProtoObject) : ProtoValue := .object members (some "[object Object]")

/-- `value[name]`; of an array and of bytes, their length. -/
def member (value : ProtoValue) (name : String) : ProtoValue :=
  match value with
  | .object members _ => (members.lookup name).getD .missing
  | .array items => if name = "length" then .integer items.length else .missing
  | .bytes data => if name = "length" then .integer data.length else .missing
  | _ => .missing

/-- `typeof value === "object" && value !== null`. -/
def isObject : ProtoValue → Bool
  | .bytes _ => true
  | .array _ => true
  | .object _ _ => true
  | _ => false

/-- A number as text; large ones have an exponent. -/
def numberText (value : ℤ) : String :=
  if value.natAbs < 10 ^ 21 then toString value else toString value ++ "e"

mutual

/-- `toString`, as an item of a joined array has it. -/
def text : ProtoValue → Option String
  | .missing => some ""
  | .integer value => some (numberText value)
  | .fraction => some "."
  | .bigint value => some (toString value)
  | .boolean value => some (toString value)
  | .string text => some text
  | .bytes data => some (",".intercalate (data.map fun byte => toString byte.toNat))
  | .array items => (texts items).map ",".intercalate
  | .object _ text => text
  | .other => none

def texts : List ProtoValue → Option (List String)
  | [] => some []
  | item :: items =>
    match text item, texts items with
    | some first, some others => some (first :: others)
    | _, _ => none

end

end ProtoValue

/-- `toBigInt`. -/
def toBigInt (value : ProtoValue) (path : String) : Except SdkError ℤ :=
  match value with
  | .bigint value => .ok value
  | .integer value => .ok value
  | .fraction => .error (.encoding (path ++ ": expected an integer"))
  | .string text => Sdk.toBigInt text path
  | value =>
    match (if value.isObject then value.text else none) with
    | some text => Sdk.toBigInt text path
    | none => .error (.encoding (path ++
        ": expected an integer (number, bigint or decimal string)"))

/-! ### Schemas -/

def int32Min : ℤ := -0x80000000
def int32Max : ℤ := 0x7fffffff
def uint32Max : ℤ := 0xffffffff
def int64Min : ℤ := -0x8000000000000000
def int64Max : ℤ := 0x7fffffffffffffff
def uint64Max : ℤ := 0xffffffffffffffff

def INT32_TYPES : List Protobuf.Scalar := [.int32, .sint32, .sfixed32]
def UINT32_TYPES : List Protobuf.Scalar := [.uint32, .fixed32]
def INT64_TYPES : List Protobuf.Scalar := [.int64, .sint64, .sfixed64]
def UINT64_TYPES : List Protobuf.Scalar := [.uint64, .fixed64]

/-- An enum type: its values by name, the first of which is the default and has the number 0. -/
structure EnumType where
  values : List (String × ℤ)
  zero : values.head?.map Prod.snd = some 0
  small : ∀ entry ∈ values, int32Min ≤ entry.2 ∧ entry.2 ≤ int32Max

namespace EnumType

variable (enum : EnumType)

/-- The number of a declared name; `__proto__` cannot be declared. -/
def numberOf (name : String) : Option ℤ :=
  if name = "__proto__" then none else enum.values.lookup name

/-- `valuesById`: the name that was declared last for a number, by the number's text. -/
def nameOf (number : String) : Option String :=
  (enum.values.reverse.find? fun entry => toString entry.2 == number).map Prod.fst

/-- `values[name]`: the values inherit the members of `valuesById`, which inherits those of every
object. -/
def valueAt (name : String) : Option ProtoValue :=
  match enum.numberOf name, enum.nameOf name with
  | some number, _ => some (.integer number)
  | none, some declared => some (.string declared)
  | none, none =>
    if name = "__proto__" then
      some (.plain (enum.values.map fun entry => (toString entry.2, .string entry.1)))
    else if Json.inheritedNames.contains name then some .other
    else none

end EnumType

inductive FieldType where
  | scalar (type : Protobuf.Scalar)
  | enumeration (enum : EnumType)
  | message (index : ℕ)

/-- A field; `partOf` says that it is a member of a oneof. -/
structure Field where
  name : String
  id : ℕ
  type : FieldType
  repeated : Bool
  packed : Bool
  map : Bool
  partOf : Bool
  btype : Option String
  exact : type ≠ .scalar .double ∧ type ≠ .scalar .float

/-- A message type with its fields in the order of their ids. -/
structure MessageType where
  fullName : String
  fields : List Field
  sorted : fields.Pairwise fun earlier later => earlier.id < later.id
  small : ∀ field ∈ fields, field.id < 2 ^ 29
  named : (fields.map Field.name).Nodup
  uninherited : ∀ field ∈ fields, field.name ∉ Json.inheritedNames

abbrev Schema := List MessageType

/-- `type.fieldsArray`; an unknown message type has none. -/
def fieldsArray (schema : Schema) (index : ℕ) : List Field :=
  (schema[index]?).elim [] MessageType.fields

/-- `isAddressField`. -/
def isAddressField (field : Field) : Bool :=
  field.btype == some "ADDRESS" || field.btype == some "CONTRACT_ID"

/-- The type as the runtime sees it. -/
def FieldType.runtime : FieldType → Protobuf.FieldType
  | .scalar type => .scalar type
  | .enumeration _ => .enumeration
  | .message index => .message index

def Field.runtime (field : Field) : Protobuf.Field where
  name := field.name
  id := field.id
  type := field.type.runtime
  rule := if field.repeated then .repeated else .optional
  packed := field.packed

def MessageType.runtime (type : MessageType) : Protobuf.MessageType where
  fields := type.fields.map Field.runtime
  sorted := List.pairwise_map.mpr type.sorted
  small := by
    intro field member
    obtain ⟨original, present, rfl⟩ := List.mem_map.mp member
    exact type.small original present

/-- The schema as the runtime sees it. -/
def runtimeSchema (schema : Schema) : Protobuf.Schema := schema.map MessageType.runtime

/-! ### Canonical objects -/

/-- The value of a hexadecimal digit. -/
def hexValue (digit : Char) : Option ℕ :=
  if '0' ≤ digit ∧ digit ≤ '9' then some (digit.toNat - '0'.toNat)
  else if 'a' ≤ digit ∧ digit ≤ 'f' then some (digit.toNat - 'a'.toNat + 10)
  else if 'A' ≤ digit ∧ digit ≤ 'F' then some (digit.toNat - 'A'.toNat + 10)
  else none

def hexBytes : List Char → Option Bytes
  | [] => some []
  | [_] => none
  | high :: low :: rest =>
    match hexValue high, hexValue low, hexBytes rest with
    | some high, some low, some bytes => some (UInt8.ofNat (16 * high + low) :: bytes)
    | _, _, _ => none

/-- `fromHex`. -/
def fromHex (hex : String) : Option Bytes :=
  match hex.toList with
  | '0' :: 'x' :: clean => hexBytes clean
  | '0' :: 'X' :: clean => hexBytes clean
  | clean => hexBytes clean

section Canonicalize

variable (encodings : Encodings)

/-- The bytes of a `bytes` field. -/
def bytesOf (field : Field) (raw : ProtoValue) (path : String) : Except SdkError Bytes :=
  match raw with
  | .bytes data => .ok data
  | .string text =>
    if isAddressField field || field.btype == some "BASE58" then
      if text = "" then .ok []
      else ((encodings.fromBase58 text).map Except.ok).getD (.error (.encoding "invalid base58"))
    else if field.btype == some "HEX" || field.btype == some "BLOCK_ID" ||
        field.btype == some "TRANSACTION_ID" then
      if text = "" then .ok []
      else ((fromHex text).map Except.ok).getD (.error (.encoding "invalid hex string"))
    else .error (.encoding (path ++ ": bytes must be a Uint8Array"))
  | _ => .error (.encoding (path ++ ": bytes must be a Uint8Array"))

/-- An integer of a type with these bounds. -/
def integerOf (type : String) (raw : ProtoValue) (path : String) (low high : ℤ) :
    Except SdkError ℤ := do
  let number ← toBigInt raw path
  if number < low ∨ high < number then .error (.encoding (path ++ ": " ++ type ++ " out of range"))
  else .ok number

/-- The source's name of a scalar type. -/
def typeName : Protobuf.Scalar → String
  | .double => "double"
  | .float => "float"
  | .int32 => "int32"
  | .uint32 => "uint32"
  | .sint32 => "sint32"
  | .fixed32 => "fixed32"
  | .sfixed32 => "sfixed32"
  | .int64 => "int64"
  | .uint64 => "uint64"
  | .sint64 => "sint64"
  | .fixed64 => "fixed64"
  | .sfixed64 => "sfixed64"
  | .bool => "bool"
  | .string => "string"
  | .bytes => "bytes"

/-- The normalized value, unless it is the default and defaults are omitted. -/
def unlessDefault (omitDefault isDefault : Bool) (value : ProtoValue) : Option ProtoValue :=
  if omitDefault && isDefault then none else some value

/-- The `switch` of `normalizeScalar`. -/
def normalizeOf (type : Protobuf.Scalar) (field : Field) (raw : ProtoValue) (path : String)
    (omitDefault : Bool) : Except SdkError (Option ProtoValue) :=
  match type with
  | .bytes => do
    let data ← bytesOf encodings field raw path
    .ok (unlessDefault omitDefault data.isEmpty (.bytes data))
  | .string =>
    match raw with
    | .string text => .ok (unlessDefault omitDefault (text == "") (.string text))
    | _ => .error (.encoding (path ++ ": expected a string"))
  | .bool =>
    match raw with
    | .boolean value => .ok (unlessDefault omitDefault (!value) (.boolean value))
    | _ => .error (.encoding (path ++ ": expected a boolean"))
  | type =>
    if UINT32_TYPES.contains type then do
      let number ← integerOf (typeName type) raw path 0 uint32Max
      .ok (unlessDefault omitDefault (number == 0) (.integer number))
    else if INT32_TYPES.contains type then do
      let number ← integerOf (typeName type) raw path int32Min int32Max
      .ok (unlessDefault omitDefault (number == 0) (.integer number))
    else if UINT64_TYPES.contains type then do
      let number ← integerOf (typeName type) raw path 0 uint64Max
      .ok (unlessDefault omitDefault (number == 0) (.string (toString number)))
    else if INT64_TYPES.contains type then do
      let number ← integerOf (typeName type) raw path int64Min int64Max
      .ok (unlessDefault omitDefault (number == 0) (.string (toString number)))
    else .error (.encoding (path ++ ": unsupported field type " ++ typeName type))

/-- What stands for an enum value given by number or by name. For a declared name it is the number,
for other names that `values` has it is whatever `values` has for them. -/
def enumValue (enum : EnumType) (raw : ProtoValue) (path : String) : Except SdkError ProtoValue :=
  match raw with
  | .string name =>
    (enum.valueAt name).elim (.error (.encoding (path ++ ": unknown enum value " ++ name))) .ok
  | .integer number => .ok (.integer number)
  | _ => .error (.encoding (path ++ ": expected an enum number or name"))

/-- `n === 0`. -/
def isZeroNumber : ProtoValue → Bool
  | .integer number => number == 0
  | _ => false

/-- `normalizeScalar`. -/
def normalizeScalar (nested : ℕ → ProtoValue → String → Except SdkError ProtoObject)
    (field : Field) (raw : ProtoValue) (path : String) (omitDefault : Bool) :
    Except SdkError (Option ProtoValue) :=
  match field.type with
  | .message index =>
    if raw.isObject then do
      let members ← nested index raw path
      .ok (some (.plain members))
    else .error (.encoding (path ++ ": expected an object"))
  | .enumeration enum => do
    let value ← enumValue enum raw path
    .ok (unlessDefault omitDefault (isZeroNumber value) value)
  | .scalar type => normalizeOf encodings type field raw path omitDefault

/-- The items of a repeated field; none of them is omitted. -/
def normalizeItems (nested : ℕ → ProtoValue → String → Except SdkError ProtoObject)
    (field : Field) (path : String) : ℕ → List ProtoValue → Except SdkError (List ProtoValue)
  | _, [] => .ok []
  | place, item :: items => do
    let first ← normalizeScalar encodings nested field item
      (path ++ "[" ++ toString place ++ "]") false
    let others ← normalizeItems nested field path (place + 1) items
    .ok (first.getD .missing :: others)

/-- What one round of the loop over the fields puts into the object. -/
def canonicalField (nested : ℕ → ProtoValue → String → Except SdkError ProtoObject)
    (value : ProtoValue) (path : String) (field : Field) :
    Except SdkError (Option ProtoValue) :=
  if field.map then
    .error (.encoding (path ++ "." ++ field.name ++ ": map fields are not allowed"))
  else
    match value.member field.name with
    | .missing => .ok none
    | raw =>
      if field.repeated then
        match raw with
        | .array items =>
          if items.isEmpty then .ok none
          else do
            let items ← normalizeItems encodings nested field (path ++ "." ++ field.name) 0 items
            .ok (some (.array items))
        | _ => .error (.encoding (path ++ "." ++ field.name ++ ": expected an array"))
      else normalizeScalar encodings nested field raw (path ++ "." ++ field.name) true

/-- What the loop finds for each field. -/
def canonicalFields (nested : ℕ → ProtoValue → String → Except SdkError ProtoObject)
    (value : ProtoValue) (path : String) : List Field → Except SdkError (List (Option ProtoValue))
  | [] => .ok []
  | field :: fields => do
    let first ← canonicalField encodings nested value path field
    let others ← canonicalFields nested value path fields
    .ok (first :: others)

/-- The object that has these values for its fields. -/
def assemble : List Field → List (Option ProtoValue) → ProtoObject
  | field :: fields, some value :: values => (field.name, value) :: assemble fields values
  | _ :: fields, none :: values => assemble fields values
  | _, _ => []

/-- `canonicalize`; `levels` counts the levels of messages that are looked at. -/
def canonicalize (schema : Schema) : ℕ → ℕ → ProtoValue → String → Except SdkError ProtoObject
  | 0, _, _, _ => .error (.encoding "maximum nesting depth exceeded")
  | levels + 1, index, value, path => do
    let values ← canonicalFields encodings (canonicalize schema levels) value path
      (fieldsArray schema index)
    .ok (assemble (fieldsArray schema index) values)

end Canonicalize

/-! ### From objects to messages -/

/-- The integer a decimal text stands for. -/
def integerOfText (text : String) : Option ℤ := (Sdk.toBigInt text "").toOption

/-- The value of the runtime for a canonical value of a scalar type. -/
def scalarOf : (type : Protobuf.Scalar) → ProtoValue → Option type.Value
  | .int32, .integer number => some (Int32.ofInt number)
  | .sint32, .integer number => some (Int32.ofInt number)
  | .sfixed32, .integer number => some (Int32.ofInt number)
  | .uint32, .integer number => some (UInt32.ofInt number)
  | .fixed32, .integer number => some (UInt32.ofInt number)
  | .int64, .string text => (integerOfText text).map Int64.ofInt
  | .sint64, .string text => (integerOfText text).map Int64.ofInt
  | .sfixed64, .string text => (integerOfText text).map Int64.ofInt
  | .uint64, .string text => (integerOfText text).map UInt64.ofInt
  | .fixed64, .string text => (integerOfText text).map UInt64.ofInt
  | .bool, .boolean value => some value
  | .string, .string text => some text
  | .bytes, .bytes data => some data
  | _, _ => none

/-- `enumFromObject`: a number passes, a declared name is its number, and of anything else nothing
is left, or the default in a list. -/
def enumFromObject (enum : EnumType) (repeated : Bool) (value : ProtoValue) : Option ℤ :=
  let unknown := if repeated then some 0 else none
  match value with
  | .integer number => some number
  | .string name => (enum.numberOf name).or unknown
  | _ => unknown

/-- `scalarFromObject` and `enumFromObject`; an enum number must be one the message can hold. -/
def itemFromObject
    (nested : ℕ → ProtoValue → Except Protobuf.ProtobufError (List Protobuf.Slot))
    (field : Field) (value : ProtoValue) : Except Protobuf.ProtobufError (Option Protobuf.Item) :=
  match field.type with
  | .message index =>
    if value.isObject then do
      let slots ← nested index value
      .ok (some (.message slots))
    else .error (.thrown (field.name ++ ": object expected"))
  | .enumeration enum =>
    match enumFromObject enum field.repeated value with
    | some number =>
      if int32Min ≤ number ∧ number ≤ int32Max then
        .ok (some (.scalar .int32 (Int32.ofInt number)))
      else .error .illTyped
    | none => .ok none
  | .scalar type =>
    match scalarOf type value with
    | some value => .ok (some (.scalar type value))
    | none => .error .illTyped

def itemsFromObject
    (nested : ℕ → ProtoValue → Except Protobuf.ProtobufError (List Protobuf.Slot))
    (field : Field) : List ProtoValue → Except Protobuf.ProtobufError (List Protobuf.Item)
  | [] => .ok []
  | value :: values => do
    let first ← itemFromObject nested field value
    let others ← itemsFromObject nested field values
    .ok (first.toList ++ others)

/-- What the message has for a field; the constructor makes the lists. -/
def slotFromObject
    (nested : ℕ → ProtoValue → Except Protobuf.ProtobufError (List Protobuf.Slot))
    (object : ProtoValue) (field : Field) : Except Protobuf.ProtobufError Protobuf.Slot :=
  match object.member field.name with
  | .missing => .ok (if field.repeated then .list [] else .absent)
  | value =>
    if field.repeated then
      match value with
      | .array items => do
        let items ← itemsFromObject nested field items
        .ok (.list items)
      | _ => .error (.thrown (field.name ++ ": array expected"))
    else do
      let item ← itemFromObject nested field value
      .ok (item.elim .absent .single)

def slotsFromObject
    (nested : ℕ → ProtoValue → Except Protobuf.ProtobufError (List Protobuf.Slot))
    (object : ProtoValue) : List Field → Except Protobuf.ProtobufError (List Protobuf.Slot)
  | [] => .ok []
  | field :: fields => do
    let first ← slotFromObject nested object field
    let others ← slotsFromObject nested object fields
    .ok (first :: others)

/-- `fromObject`, of canonical objects. -/
def fromObject (schema : Schema) :
    ℕ → ℕ → ProtoValue → Except Protobuf.ProtobufError (List Protobuf.Slot)
  | 0, _, _ => .error (.thrown "maximum nesting depth exceeded")
  | levels + 1, index, object =>
    slotsFromObject (fromObject schema levels) object (fieldsArray schema index)

/-! ### From messages to objects -/

/-- The value of the object model for a value of the runtime. -/
def valueOf : (type : Protobuf.Scalar) → type.Value → ProtoValue
  | .double, _ => .fraction
  | .float, _ => .fraction
  | .int32, value => .integer value.toInt
  | .sint32, value => .integer value.toInt
  | .sfixed32, value => .integer value.toInt
  | .uint32, value => .integer value.toNat
  | .fixed32, value => .integer value.toNat
  | .int64, value => .string (toString value.toInt)
  | .sint64, value => .string (toString value.toInt)
  | .sfixed64, value => .string (toString value.toInt)
  | .uint64, value => .string (toString (value.toNat : ℤ))
  | .fixed64, value => .string (toString (value.toNat : ℤ))
  | .bool, value => .boolean value
  | .string, value => .string value
  | .bytes, value => .bytes value

/-- The value of the runtime that stands for an absent one. -/
def zeroOf : (type : Protobuf.Scalar) → type.Value
  | .double => 0
  | .float => 0
  | .int32 => 0
  | .sint32 => 0
  | .sfixed32 => 0
  | .uint32 => 0
  | .fixed32 => 0
  | .int64 => 0
  | .sint64 => 0
  | .sfixed64 => 0
  | .uint64 => 0
  | .fixed64 => 0
  | .bool => false
  | .string => ""
  | .bytes => []

/-- `defaultToObject`; a message has none. -/
def defaultToObject : FieldType → ProtoValue
  | .scalar type => valueOf type (zeroOf type)
  | .enumeration _ => .integer 0
  | .message _ => .missing

/-- `scalarToObject`. -/
def itemToObject (nested : ℕ → List Protobuf.Slot → ProtoObject) (field : Field) :
    Protobuf.Item → ProtoValue
  | .scalar type value => valueOf type value
  | .message slots =>
    match field.type with
    | .message index => .plain (nested index slots)
    | _ => .missing

/-- What an object has for a field, with defaults; an absent member of a oneof has none. -/
def slotToObject (nested : ℕ → List Protobuf.Slot → ProtoObject) (field : Field) :
    Protobuf.Slot → Option ProtoValue
  | .absent =>
    if field.repeated then some (.array [])
    else if field.partOf then none
    else some (defaultToObject field.type)
  | .single item => some (itemToObject nested field item)
  | .list items => some (.array (items.map (itemToObject nested field)))

/-- `toObject` of a message within the limit. -/
def toObject (schema : Schema) : ℕ → ℕ → List Protobuf.Slot → ProtoObject
  | 0, _, _ => []
  | levels + 1, index, slots =>
    assemble (fieldsArray schema index)
      (List.zipWith (slotToObject (toObject schema levels)) (fieldsArray schema index) slots)

section Decode

variable (encodings : Encodings)

/-- `convert`: the value that goes into the object, unless the member is deleted. -/
def convert (nested : ℕ → ProtoValue → ProtoObject) (field : Field) (item : ProtoValue) :
    Option ProtoValue :=
  match field.type with
  | .message index =>
    match item with
    | .missing => none
    | item => some (.plain (nested index item))
  | .scalar .bytes =>
    let data := match item with
      | .bytes data => data
      | _ => []
    some (if isAddressField field then
      .string (if data = [] then "" else encodings.toBase58 data)
    else .bytes data)
  | _ =>
    match item with
    | .missing => none
    | item => some item

/-- One round of the loop of `normalizeDecoded`. -/
def normalizedMember (nested : ℕ → ProtoValue → ProtoObject) (object : ProtoValue)
    (field : Field) : Option ProtoValue :=
  if field.repeated then
    match object.member field.name with
    | .array items =>
      some (.array (items.map fun item => (convert encodings nested field item).getD .missing))
    | _ => some (.array [])
  else convert encodings nested field (object.member field.name)

/-- `normalizeDecoded`. -/
def normalizeDecoded (schema : Schema) : ℕ → ℕ → ProtoValue → ProtoObject
  | 0, _, _ => []
  | levels + 1, index, object =>
    assemble (fieldsArray schema index) ((fieldsArray schema index).map
      (normalizedMember encodings (normalizeDecoded schema levels) object))

end Decode

/-! ### The codec -/

/-- What the SDK uses of the runtime and the libraries. -/
structure Runtime extends Protobuf.Primitives, Encodings where
  /-- What is written of a message of this type with an enum number that does not fit. -/
  overflow : ℕ → ProtoObject → Except Protobuf.ProtobufError Bytes

/-- The levels of messages the runtime writes and reads. -/
def Runtime.levels (runtime : Runtime) : ℕ := min runtime.recursionLimit runtime.readerLimit + 1

section Codec

variable (runtime : Runtime) (schema : Schema) (index : ℕ)

/-- What the errors of the runtime say. -/
def thrownText : Protobuf.ProtobufError → String
  | .thrown message => message
  | .illTyped => "ill-typed"
  | .exhausted => "exhausted"

/-- The errors of the runtime, as the SDK lets them through. -/
def thrown (error : Protobuf.ProtobufError) : SdkError := .encoding (thrownText error)

/-- What `type.encode` writes of a canonical object. -/
def written (members : ProtoObject) : Except Protobuf.ProtobufError Bytes :=
  match fromObject schema runtime.levels index (.plain members) with
  | .error .illTyped => runtime.overflow index members
  | .error error => .error error
  | .ok slots =>
    Protobuf.encodeMessage runtime.toPrimitives (runtimeSchema schema)
      (runtime.recursionLimit + 1) index slots

/-- `encode`, of the message type with this index. -/
def encode (value : ProtoValue) (path : String) : Except SdkError Bytes := do
  let members ← canonicalize runtime.toEncodings schema runtime.levels index value path
  let bytes ← ((written runtime schema index members).bind Protobuf.finish).mapError thrown
  .ok bytes

/-- `decode`, of the message type with this index and this name. -/
def decode (typeName : String) (bytes : Bytes) : Except SdkError ProtoObject :=
  match Protobuf.decode runtime.toPrimitives (runtimeSchema schema) index bytes with
  | .error error =>
    .error (.encoding ("cannot decode " ++ typeName ++ ": " ++ thrownText error))
  | .ok slots =>
    .ok (normalizeDecoded runtime.toEncodings schema (runtime.readerLimit + 1) index
      (.plain (toObject schema (runtime.readerLimit + 1) index slots)))

end Codec

end OpenSocial.Sdk.Encoding
