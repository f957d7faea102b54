/-
This file proves what the canonical objects are, and that canonicalizing them again
changes nothing.

The canonical values of a field are those the runtime has a value for. The one
exception is what stands for an enum value, which is not checked: it may be a number
that does not fit in 32 bits, or no number at all. Canonical objects without such
values are their own canonical objects.
-/

import OpenSocial.Extension.RoundTrip
import OpenSocial.Sdk.Encoding

namespace OpenSocial.Sdk.Encoding

open Extension

/-! ### Decimal texts -/

/-- A number is read from its text. -/
theorem toBigInt_toString (number : ℤ) (path : String) :
    Sdk.toBigInt (toString number) path = .ok number := by
  unfold Sdk.toBigInt
  rw [Int.toString_eq_repr, Int.repr_eq_if]
  by_cases natural : 0 ≤ number
  · rw [if_pos natural]
    have read := digits_repr number.toNat
    cases characters : number.toNat.repr.toList with
    | nil =>
      rw [characters] at read
      cases read
    | cons first rest =>
      rw [characters] at read
      have signless : first ≠ '-' := by
        rintro rfl
        have digit : Char.isDigit '-' = true := by
          refine @Nat.isDigit_of_mem_toDigits 10 number.toNat _ ?_ ?_ ?_
          · decide
          · decide
          · rw [← Nat.toList_repr, characters]
            exact List.mem_cons_self
        exact absurd digit (by decide)
      have whole : ((number.toNat : ℕ) : ℤ) = number := Int.toNat_of_nonneg natural
      simp [signless, read, whole]
  · rw [if_neg natural]
    have read := digits_repr (-number).toNat
    have whole : (((-number).toNat : ℕ) : ℤ) = -number := Int.toNat_of_nonneg (by omega)
    rw [Nat.toList_repr] at read
    rw [String.toList_append]
    simp [read, whole]

theorem integerOfText_toString (number : ℤ) : integerOfText (toString number) = some number := by
  unfold integerOfText
  rw [toBigInt_toString]
  rfl

/-! ### Canonical values -/

/-- A number is that of its 32 bits, or of its 64. -/
theorem toInt_ofInt32 {number : ℤ} (low : int32Min ≤ number) (high : number ≤ int32Max) :
    (Int32.ofInt number).toInt = number := by
  unfold int32Min at low
  unfold int32Max at high
  exact Int32.toInt_ofInt_of_le (by omega) (by omega)

theorem toInt_ofInt64 {number : ℤ} (low : int64Min ≤ number) (high : number ≤ int64Max) :
    (Int64.ofInt number).toInt = number := by
  unfold int64Min at low
  unfold int64Max at high
  exact Int64.toInt_ofInt_of_le (by omega) (by omega)

theorem toNat_ofInt32 {number : ℤ} (low : 0 ≤ number) (high : number ≤ uint32Max) :
    ((UInt32.ofInt number).toNat : ℤ) = number := by
  unfold uint32Max at high
  rw [UInt32.ofInt, UInt32.toNat_ofNat']
  omega

theorem toNat_ofInt64 {number : ℤ} (low : 0 ≤ number) (high : number ≤ uint64Max) :
    ((UInt64.ofInt number).toNat : ℤ) = number := by
  unfold uint64Max at high
  rw [UInt64.ofInt, UInt64.toNat_ofNat']
  omega

theorem ofInt_toInt32 (value : Int32) : Int32.ofInt value.toInt = value := Int32.ofInt_toInt value

theorem ofInt_toNat32 (value : UInt32) : UInt32.ofInt (value.toNat : ℤ) = value := by
  apply UInt32.toNat.inj
  have high : (value.toNat : ℤ) ≤ uint32Max := by
    have small := value.toNat_lt
    unfold uint32Max
    omega
  exact_mod_cast toNat_ofInt32 (Int.natCast_nonneg _) high

theorem ofInt_toNat64 (value : UInt64) : UInt64.ofInt (value.toNat : ℤ) = value := by
  apply UInt64.toNat.inj
  have high : (value.toNat : ℤ) ≤ uint64Max := by
    have small := value.toNat_lt
    unfold uint64Max
    omega
  exact_mod_cast toNat_ofInt64 (Int.natCast_nonneg _) high

/-- A value of the runtime is recovered from its value in the object model. -/
theorem scalarOf_valueOf {type : Protobuf.Scalar} (exact : type ≠ .double ∧ type ≠ .float)
    (value : type.Value) : scalarOf type (valueOf type value) = some value := by
  cases type with
  | double => exact absurd rfl exact.1
  | float => exact absurd rfl exact.2
  | int32 => exact congrArg some (ofInt_toInt32 value)
  | sint32 => exact congrArg some (ofInt_toInt32 value)
  | sfixed32 => exact congrArg some (ofInt_toInt32 value)
  | uint32 => exact congrArg some (ofInt_toNat32 value)
  | fixed32 => exact congrArg some (ofInt_toNat32 value)
  | int64 =>
    show (integerOfText (toString value.toInt)).map Int64.ofInt = some value
    rw [integerOfText_toString]
    exact congrArg some (Int64.ofInt_toInt value)
  | sint64 =>
    show (integerOfText (toString value.toInt)).map Int64.ofInt = some value
    rw [integerOfText_toString]
    exact congrArg some (Int64.ofInt_toInt value)
  | sfixed64 =>
    show (integerOfText (toString value.toInt)).map Int64.ofInt = some value
    rw [integerOfText_toString]
    exact congrArg some (Int64.ofInt_toInt value)
  | uint64 =>
    show (integerOfText (toString (value.toNat : ℤ))).map UInt64.ofInt = some value
    rw [integerOfText_toString]
    exact congrArg some (ofInt_toNat64 value)
  | fixed64 =>
    show (integerOfText (toString (value.toNat : ℤ))).map UInt64.ofInt = some value
    rw [integerOfText_toString]
    exact congrArg some (ofInt_toNat64 value)
  | bool => rfl
  | string => rfl
  | bytes => rfl

theorem integerOf_eq_ok {type : String} {raw : ProtoValue} {path : String} {low high number : ℤ} :
    integerOf type raw path low high = .ok number ↔
      toBigInt raw path = .ok number ∧ low ≤ number ∧ number ≤ high := by
  unfold integerOf
  cases toBigInt raw path with
  | error error =>
    constructor
    · intro same
      cases same
    · intro same
      cases same.1
  | ok read =>
    show (if read < low ∨ high < read then _ else Except.ok read) = .ok number ↔ _
    by_cases outside : read < low ∨ high < read
    · rw [if_pos outside]
      constructor
      · intro same
        cases same
      · rintro ⟨same, above, below⟩
        cases same
        omega
    · rw [if_neg outside]
      constructor
      · intro same
        cases same
        exact ⟨rfl, by omega, by omega⟩
      · rintro ⟨same, _⟩
        exact same

/-- The types that are neither bytes, strings, truth values nor floating-point. -/
def isInteger (type : Protobuf.Scalar) : Bool :=
  (UINT32_TYPES ++ INT32_TYPES ++ UINT64_TYPES ++ INT64_TYPES).contains type

/-- The bounds of an integer type. -/
def bounds (type : Protobuf.Scalar) : ℤ × ℤ :=
  if UINT32_TYPES.contains type then (0, uint32Max)
  else if INT32_TYPES.contains type then (int32Min, int32Max)
  else if UINT64_TYPES.contains type then (0, uint64Max)
  else (int64Min, int64Max)

/-- The value in the object model of an integer of an integer type. -/
def integerValue (type : Protobuf.Scalar) (number : ℤ) : ProtoValue :=
  if UINT32_TYPES.contains type || INT32_TYPES.contains type then .integer number
  else .string (toString number)

/-- The integer a value of the runtime is. -/
def numberOf : (type : Protobuf.Scalar) → type.Value → ℤ
  | .int32, value => value.toInt
  | .sint32, value => value.toInt
  | .sfixed32, value => value.toInt
  | .uint32, value => value.toNat
  | .fixed32, value => value.toNat
  | .int64, value => value.toInt
  | .sint64, value => value.toInt
  | .sfixed64, value => value.toInt
  | .uint64, value => value.toNat
  | .fixed64, value => value.toNat
  | _, _ => 0

/-- Whether a value of the runtime is the default of its type. -/
def isZero : (type : Protobuf.Scalar) → type.Value → Bool
  | .bool, value => !value
  | .string, value => value == ""
  | .bytes, value => value.isEmpty
  | .double, value => value == 0
  | .float, value => value == 0
  | type, value => numberOf type value == 0

theorem valueOf_integer {type : Protobuf.Scalar} (integer : isInteger type = true)
    (value : type.Value) : valueOf type value = integerValue type (numberOf type value) := by
  cases type <;> first | rfl | exact absurd integer (by decide)

theorem isZero_integer {type : Protobuf.Scalar} (integer : isInteger type = true)
    (value : type.Value) : isZero type value = (numberOf type value == 0) := by
  cases type <;> first | rfl | exact absurd integer (by decide)

theorem normalizeOf_integer (encodings : Encodings) {type : Protobuf.Scalar}
    (integer : isInteger type = true) (field : Field) (raw : ProtoValue) (path : String)
    (omitDefault : Bool) :
    normalizeOf encodings type field raw path omitDefault =
      (integerOf (typeName type) raw path (bounds type).1 (bounds type).2).map fun number =>
        unlessDefault omitDefault (number == 0) (integerValue type number) := by
  cases type <;> first | rfl | exact absurd integer (by decide)

theorem toInt32_bounds (value : Int32) : int32Min ≤ value.toInt ∧ value.toInt ≤ int32Max := by
  have low := value.le_toInt
  have high := value.toInt_lt
  unfold int32Min int32Max
  omega

theorem toInt64_bounds (value : Int64) : int64Min ≤ value.toInt ∧ value.toInt ≤ int64Max := by
  have low := value.le_toInt
  have high := value.toInt_lt
  unfold int64Min int64Max
  omega

theorem toNat32_bounds (value : UInt32) : (0 : ℤ) ≤ value.toNat ∧ (value.toNat : ℤ) ≤ uint32Max := by
  have high := value.toNat_lt
  unfold uint32Max
  omega

theorem toNat64_bounds (value : UInt64) : (0 : ℤ) ≤ value.toNat ∧ (value.toNat : ℤ) ≤ uint64Max := by
  have high := value.toNat_lt
  unfold uint64Max
  omega

theorem numberOf_bounds {type : Protobuf.Scalar} (integer : isInteger type = true)
    (value : type.Value) :
    (bounds type).1 ≤ numberOf type value ∧ numberOf type value ≤ (bounds type).2 := by
  cases type with
  | int32 => exact toInt32_bounds value
  | sint32 => exact toInt32_bounds value
  | sfixed32 => exact toInt32_bounds value
  | uint32 => exact toNat32_bounds value
  | fixed32 => exact toNat32_bounds value
  | int64 => exact toInt64_bounds value
  | sint64 => exact toInt64_bounds value
  | sfixed64 => exact toInt64_bounds value
  | uint64 => exact toNat64_bounds value
  | fixed64 => exact toNat64_bounds value
  | _ => exact absurd integer (by decide)

/-- Every integer within the bounds is one of the type. -/
theorem exists_numberOf {type : Protobuf.Scalar} (integer : isInteger type = true) {number : ℤ}
    (low : (bounds type).1 ≤ number) (high : number ≤ (bounds type).2) :
    ∃ value, numberOf type value = number := by
  cases type with
  | int32 => exact ⟨Int32.ofInt number, toInt_ofInt32 low high⟩
  | sint32 => exact ⟨Int32.ofInt number, toInt_ofInt32 low high⟩
  | sfixed32 => exact ⟨Int32.ofInt number, toInt_ofInt32 low high⟩
  | uint32 => exact ⟨UInt32.ofInt number, toNat_ofInt32 low high⟩
  | fixed32 => exact ⟨UInt32.ofInt number, toNat_ofInt32 low high⟩
  | int64 => exact ⟨Int64.ofInt number, toInt_ofInt64 low high⟩
  | sint64 => exact ⟨Int64.ofInt number, toInt_ofInt64 low high⟩
  | sfixed64 => exact ⟨Int64.ofInt number, toInt_ofInt64 low high⟩
  | uint64 => exact ⟨UInt64.ofInt number, toNat_ofInt64 low high⟩
  | fixed64 => exact ⟨UInt64.ofInt number, toNat_ofInt64 low high⟩
  | _ => exact absurd integer (by decide)

theorem toBigInt_integerValue (type : Protobuf.Scalar) (number : ℤ) (path : String) :
    toBigInt (integerValue type number) path = .ok number := by
  unfold integerValue
  split
  · rfl
  · exact toBigInt_toString number path

/-- The types of the fields are the integers and three more. -/
theorem scalar_cases {type : Protobuf.Scalar} (exact : type ≠ .double ∧ type ≠ .float) :
    isInteger type = true ∨ type = .bool ∨ type = .string ∨ type = .bytes := by
  revert exact
  cases type <;> decide

/-- What normalization makes of anything it accepts is a value of the type. -/
theorem normalizeOf_ok {encodings : Encodings} {type : Protobuf.Scalar}
    (exact : type ≠ .double ∧ type ≠ .float) {field : Field} {raw : ProtoValue} {path : String}
    {omitDefault : Bool} {result : Option ProtoValue}
    (normalized : normalizeOf encodings type field raw path omitDefault = .ok result) :
    ∃ value, result = unlessDefault omitDefault (isZero type value) (valueOf type value) := by
  rcases scalar_cases exact with integer | rfl | rfl | rfl
  · rw [normalizeOf_integer encodings integer] at normalized
    cases read : integerOf (typeName type) raw path (bounds type).1 (bounds type).2 with
    | error error =>
      rw [read] at normalized
      cases normalized
    | ok number =>
      rw [read] at normalized
      obtain ⟨_, low, high⟩ := integerOf_eq_ok.mp read
      obtain ⟨value, rfl⟩ := exists_numberOf integer low high
      refine ⟨value, ?_⟩
      rw [isZero_integer integer, valueOf_integer integer]
      exact (Except.ok.inj normalized).symm
  · cases raw with
    | boolean value => exact ⟨value, (Except.ok.inj normalized).symm⟩
    | _ => cases normalized
  · cases raw with
    | string text => exact ⟨text, (Except.ok.inj normalized).symm⟩
    | _ => cases normalized
  · unfold normalizeOf at normalized
    cases read : bytesOf encodings field raw path with
    | error error =>
      rw [read] at normalized
      cases normalized
    | ok data =>
      rw [read] at normalized
      exact ⟨data, (Except.ok.inj normalized).symm⟩

/-- Normalization keeps the values of the type, except that it omits defaults. -/
theorem normalizeOf_valueOf (encodings : Encodings) {type : Protobuf.Scalar}
    (exact : type ≠ .double ∧ type ≠ .float) (field : Field) (value : type.Value) (path : String)
    (omitDefault : Bool) :
    normalizeOf encodings type field (valueOf type value) path omitDefault =
      .ok (unlessDefault omitDefault (isZero type value) (valueOf type value)) := by
  rcases scalar_cases exact with integer | rfl | rfl | rfl
  · obtain ⟨low, high⟩ := numberOf_bounds integer value
    rw [normalizeOf_integer encodings integer, valueOf_integer integer,
      integerOf_eq_ok.mpr ⟨toBigInt_integerValue type _ path, low, high⟩, isZero_integer integer]
    rfl
  · rfl
  · rfl
  · rfl

/-! ### Members of objects -/

theorem fieldsArray_named (schema : Schema) (index : ℕ) :
    ((fieldsArray schema index).map Field.name).Nodup := by
  unfold fieldsArray
  cases schema[index]? with
  | none => exact List.nodup_nil
  | some type => exact type.named

theorem lookup_assemble_other {fields : List Field} {name : String}
    (other : name ∉ fields.map Field.name) (values : List (Option ProtoValue)) :
    (assemble fields values).lookup name = none := by
  induction fields generalizing values with
  | nil => rfl
  | cons field fields inductionHypothesis =>
    rw [List.map_cons, List.mem_cons, not_or] at other
    cases values with
    | nil => rfl
    | cons value values =>
      cases value with
      | none => exact inductionHypothesis other.2 values
      | some value =>
        show List.lookup name ((field.name, value) :: assemble fields values) = none
        rw [List.lookup_cons, beq_false_of_ne other.1]
        exact inductionHypothesis other.2 values

/-- An object has for each of its fields the value it is assembled from. -/
theorem lookup_assemble {fields : List Field} (named : (fields.map Field.name).Nodup)
    {values : List (Option ProtoValue)} (same : fields.length = values.length) :
    List.Forall₂ (fun field value => (assemble fields values).lookup field.name = value)
      fields values := by
  induction fields generalizing values with
  | nil =>
    cases values with
    | nil => exact .nil
    | cons value values => cases same
  | cons field fields inductionHypothesis =>
    cases values with
    | nil => cases same
    | cons value values =>
      rw [List.map_cons, List.nodup_cons] at named
      have others := inductionHypothesis named.2 (Nat.succ.inj same)
      cases value with
      | none => exact .cons (lookup_assemble_other named.1 values) others
      | some value =>
        refine .cons List.lookup_cons_self ?_
        refine List.forall₂_iff_zip.mpr ⟨Nat.succ.inj same, ?_⟩
        intro next value paired
        have different : next.name ≠ field.name := by
          intro same
          refine named.1 (List.mem_map.mpr ⟨next, ?_, same⟩)
          exact (List.of_mem_zip paired).1
        show List.lookup next.name ((field.name, _) :: assemble fields values) = value
        rw [List.lookup_cons, beq_false_of_ne different]
        exact (List.forall₂_iff_zip.mp others).2 paired

theorem map_eq_zipWith {Result : Type} {fields : List Field} {values : List (Option ProtoValue)}
    {look : Field → Option ProtoValue}
    (found : List.Forall₂ (fun field value => look field = value) fields values)
    (make : Field → Option ProtoValue → Result) :
    fields.map (fun field => make field (look field)) = List.zipWith make fields values := by
  induction found with
  | nil => rfl
  | cons head _ inductionHypothesis =>
    rw [List.map_cons, List.zipWith_cons_cons, head, inductionHypothesis]

/-- What is made of each member of an object is made of the values it is assembled from. -/
theorem map_members {Result : Type} {fields : List Field} (named : (fields.map Field.name).Nodup)
    {values : List (Option ProtoValue)} (same : fields.length = values.length)
    (make : Field → Option ProtoValue → Result) :
    fields.map (fun field => make field ((assemble fields values).lookup field.name)) =
      List.zipWith make fields values :=
  map_eq_zipWith (lookup_assemble named same) make

/-! ### Canonical objects -/

/-- A canonical value of one place of a field; `below` says which objects are canonical. -/
def CanonicalItem (below : ℕ → ProtoObject → Prop) (field : Field) (value : ProtoValue) : Prop :=
  match field.type with
  | .message index => ∃ members, value = .plain members ∧ below index members
  | .enumeration _ => value ≠ .missing
  | .scalar type => ∃ native : type.Value, value = valueOf type native

/-- A canonical member is no default, and its list, if it has one, is not empty. -/
def CanonicalMember (below : ℕ → ProtoObject → Prop) (field : Field) (value : Option ProtoValue) :
    Prop :=
  field.map = false ∧ ∀ present, value = some present →
    if field.repeated then
      ∃ items, present = .array items ∧ items ≠ [] ∧ ∀ item ∈ items, CanonicalItem below field item
    else CanonicalItem below field present ∧ present ≠ defaultToObject field.type

/-- A canonical object with at most so many levels of messages. -/
def Canonical (schema : Schema) : ℕ → ℕ → ProtoObject → Prop
  | 0, _, _ => False
  | levels + 1, index, members => ∃ values,
    members = assemble (fieldsArray schema index) values ∧
      List.Forall₂ (CanonicalMember (Canonical schema levels)) (fieldsArray schema index) values

/-! ### Enum values -/

/-- The items of an array. -/
def itemsOf : ProtoValue → List ProtoValue
  | .array items => items
  | _ => []

/-- A value of one place of a field that is fine, if it stands for an enum value. -/
def ItemEnums (fine : EnumType → ProtoValue → Prop) (below : ℕ → ProtoValue → Prop) (field : Field)
    (value : ProtoValue) : Prop :=
  match field.type with
  | .message index => below index value
  | .enumeration enum => fine enum value
  | .scalar _ => True

def MemberEnums (fine : EnumType → ProtoValue → Prop) (below : ℕ → ProtoValue → Prop)
    (field : Field) (value : ProtoValue) : Prop :=
  if field.repeated then ∀ item ∈ itemsOf value, ItemEnums fine below field item
  else ItemEnums fine below field value

/-- What stands for enum values in an object, in any of so many levels, is fine. -/
def Enums (fine : EnumType → ProtoValue → Prop) (schema : Schema) : ℕ → ℕ → ProtoValue → Prop
  | 0, _, _ => True
  | levels + 1, index, value => ∀ field ∈ fieldsArray schema index,
    MemberEnums fine (Enums fine schema levels) field (value.member field.name)

def FitsInt32 (number : ℤ) : Prop := int32Min ≤ number ∧ number ≤ int32Max

/-- In a canonical object: a number of 32 bits, if there is a value. -/
def NumberFits (_ : EnumType) (value : ProtoValue) : Prop :=
  value ≠ .missing → ∃ number, value = .integer number ∧ FitsInt32 number

theorem Field.scalar_exact (field : Field) {type : Protobuf.Scalar}
    (kind : field.type = .scalar type) : type ≠ .double ∧ type ≠ .float := by
  have exact := field.exact
  rw [kind] at exact
  exact ⟨fun same => exact.1 (congrArg FieldType.scalar same),
    fun same => exact.2 (congrArg FieldType.scalar same)⟩

theorem zeroOf_isZero (type : Protobuf.Scalar) : isZero type (zeroOf type) = true := by
  cases type <;> decide

theorem isZero_iff {type : Protobuf.Scalar} (exact : type ≠ .double ∧ type ≠ .float)
    (value : type.Value) :
    isZero type value = true ↔ valueOf type value = valueOf type (zeroOf type) := by
  constructor
  · intro zero
    rcases scalar_cases exact with integer | rfl | rfl | rfl
    · have first := zero
      have second := zeroOf_isZero type
      rw [isZero_integer integer] at first second
      rw [valueOf_integer integer, valueOf_integer integer, beq_iff_eq.mp first,
        beq_iff_eq.mp second]
    · cases value with
      | false => rfl
      | true => cases zero
    · have same : value = "" := beq_iff_eq.mp zero
      rw [same]
      rfl
    · have same : value = [] := List.isEmpty_iff.mp zero
      rw [same]
      rfl
  · intro same
    have equal := congrArg (scalarOf type) same
    rw [scalarOf_valueOf exact, scalarOf_valueOf exact] at equal
    rw [Option.some.inj equal]
    exact zeroOf_isZero type

/-- The value of an item, unless it is the default of the field and defaults are omitted. -/
def Kept (omitDefault : Bool) (field : Field) (value : ProtoValue) (result : Option ProtoValue) :
    Prop :=
  result = some value ∧ (omitDefault = true → value ≠ defaultToObject field.type) ∨
    result = none ∧ omitDefault = true ∧ value = defaultToObject field.type

theorem kept_unlessDefault {omitDefault isDefault : Bool} {field : Field} {value : ProtoValue}
    (agrees : isDefault = true ↔ value = defaultToObject field.type) :
    Kept omitDefault field value (unlessDefault omitDefault isDefault value) := by
  unfold unlessDefault
  by_cases omitted : (omitDefault && isDefault) = true
  · rw [if_pos omitted]
    rw [Bool.and_eq_true] at omitted
    exact Or.inr ⟨rfl, omitted.1, agrees.mp omitted.2⟩
  · rw [if_neg omitted]
    refine Or.inl ⟨rfl, fun omitting same => omitted ?_⟩
    rw [omitting, agrees.mpr same]
    rfl

/-- What is found for an enum value is not missing. -/
theorem enumValue_present {enum : EnumType} {raw value : ProtoValue} {path : String}
    (found : enumValue enum raw path = .ok value) : value ≠ .missing := by
  rintro rfl
  cases raw with
  | integer number => cases found
  | string name =>
    cases entry : enum.valueAt name with
    | none =>
      unfold enumValue at found
      dsimp only at found
      rw [entry] at found
      cases found
    | some given =>
      unfold enumValue at found
      dsimp only at found
      rw [entry] at found
      obtain rfl := Except.ok.inj found
      unfold EnumType.valueAt at entry
      split at entry
      · cases entry
      · cases entry
      · split at entry
        · cases entry
        · split at entry <;> cases entry
  | _ => cases found

theorem isZeroNumber_iff {enum : EnumType} (value : ProtoValue) :
    isZeroNumber value = true ↔ value = defaultToObject (.enumeration enum) := by
  cases value with
  | integer number =>
    show (number == 0) = true ↔ ProtoValue.integer number = .integer 0
    rw [beq_iff_eq]
    exact ⟨fun zero => congrArg ProtoValue.integer zero, fun default => by injection default⟩
  | _ => exact ⟨fun impossible => Bool.noConfusion impossible, fun impossible => by cases impossible⟩

section Normalize

variable {encodings : Encodings} {nested : ℕ → ProtoValue → String → Except SdkError ProtoObject}
variable {below : ℕ → ProtoObject → Prop} {range : ℕ → ProtoValue → Prop}

/-- What is made of an accepted value is canonical. -/
theorem normalizeScalar_ok
    (fine : ∀ index raw path members, nested index raw path = .ok members → below index members)
    {field : Field} {raw : ProtoValue} {path : String} {omitDefault : Bool}
    {result : Option ProtoValue}
    (normalized : normalizeScalar encodings nested field raw path omitDefault = .ok result) :
    ∃ value, CanonicalItem below field value ∧ Kept omitDefault field value result := by
  unfold normalizeScalar at normalized
  unfold CanonicalItem
  cases kind : field.type with
  | message index =>
    rw [kind] at normalized
    dsimp only at normalized
    by_cases object : raw.isObject = true
    · rw [if_pos object] at normalized
      cases inner : nested index raw path with
      | error error =>
        rw [inner] at normalized
        cases normalized
      | ok members =>
        rw [inner] at normalized
        have same : result = some (.plain members) := (Except.ok.inj normalized).symm
        refine ⟨.plain members, ⟨members, rfl, fine index raw path members inner⟩, ?_⟩
        refine Or.inl ⟨same, fun _ => ?_⟩
        rw [kind]
        intro default
        cases default
    · rw [if_neg object] at normalized
      cases normalized
  | enumeration enum =>
    rw [kind] at normalized
    dsimp only at normalized
    cases found : enumValue enum raw path with
    | error error =>
      rw [found] at normalized
      cases normalized
    | ok value =>
      rw [found] at normalized
      have same : result = unlessDefault omitDefault (isZeroNumber value) value :=
        (Except.ok.inj normalized).symm
      refine ⟨value, enumValue_present found, ?_⟩
      rw [same]
      refine kept_unlessDefault ?_
      rw [kind]
      exact isZeroNumber_iff value
  | scalar type =>
    rw [kind] at normalized
    dsimp only at normalized
    have exact := field.scalar_exact kind
    obtain ⟨value, same⟩ := normalizeOf_ok exact normalized
    refine ⟨valueOf type value, ⟨value, rfl⟩, ?_⟩
    rw [same]
    refine kept_unlessDefault ?_
    rw [kind]
    exact isZero_iff exact value

variable (encodings) in
/-- A canonical value is kept. -/
theorem normalizeScalar_canonical
    (again : ∀ index members path, below index members → range index (.plain members) →
      nested index (.plain members) path = .ok members)
    {field : Field} {value : ProtoValue} (canonical : CanonicalItem below field value)
    (numbers : ItemEnums NumberFits range field value) (path : String) (omitDefault : Bool) :
    ∃ result, normalizeScalar encodings nested field value path omitDefault = .ok result ∧
      Kept omitDefault field value result := by
  unfold CanonicalItem at canonical
  unfold ItemEnums at numbers
  unfold normalizeScalar
  cases kind : field.type with
  | message index =>
    rw [kind] at canonical numbers
    obtain ⟨members, rfl, inner⟩ := canonical
    refine ⟨some (.plain members), ?_, Or.inl ⟨rfl, fun _ => ?_⟩⟩
    · show (if true = true then _ else _) = _
      rw [if_pos rfl, again index members path inner numbers]
      rfl
    · rw [kind]
      intro default
      cases default
  | enumeration enum =>
    rw [kind] at canonical numbers
    obtain ⟨number, rfl, _⟩ := numbers canonical
    refine ⟨_, rfl, kept_unlessDefault ?_⟩
    rw [kind]
    exact isZeroNumber_iff _
  | scalar type =>
    rw [kind] at canonical
    obtain ⟨native, rfl⟩ := canonical
    have exact := field.scalar_exact kind
    refine ⟨_, normalizeOf_valueOf encodings exact field native path omitDefault,
      kept_unlessDefault ?_⟩
    rw [kind]
    exact isZero_iff exact native

end Normalize

section Loops

variable {encodings : Encodings} {nested : ℕ → ProtoValue → String → Except SdkError ProtoObject}
variable {below : ℕ → ProtoObject → Prop} {range : ℕ → ProtoValue → Prop}

theorem normalizeItems_ok
    (fine : ∀ index raw path members, nested index raw path = .ok members → below index members)
    {field : Field} {path : String} {place : ℕ} {items results : List ProtoValue}
    (normalized : normalizeItems encodings nested field path place items = .ok results) :
    results.length = items.length ∧ ∀ item ∈ results, CanonicalItem below field item := by
  induction items generalizing place results with
  | nil =>
    cases normalized
    exact ⟨rfl, fun item member => by cases member⟩
  | cons item items inductionHypothesis =>
    unfold normalizeItems at normalized
    cases head : normalizeScalar encodings nested field item
        (path ++ "[" ++ toString place ++ "]") false with
    | error error =>
      rw [head] at normalized
      cases normalized
    | ok first =>
      rw [head] at normalized
      cases tail : normalizeItems encodings nested field path (place + 1) items with
      | error error =>
        rw [tail] at normalized
        cases normalized
      | ok others =>
        rw [tail] at normalized
        have same : results = first.getD .missing :: others := (Except.ok.inj normalized).symm
        obtain ⟨long, canonical⟩ := inductionHypothesis tail
        obtain ⟨value, isCanonical, kept⟩ := normalizeScalar_ok fine head
        have whole : first = some value := by
          rcases kept with kept | omitted
          · exact kept.1
          · cases omitted.2.1
        rw [same, whole]
        refine ⟨congrArg Nat.succ long, ?_⟩
        intro result member
        rcases List.mem_cons.mp member with same | later
        · rw [same]
          exact isCanonical
        · exact canonical result later

theorem normalizeItems_canonical
    (again : ∀ index members path, below index members → range index (.plain members) →
      nested index (.plain members) path = .ok members)
    {field : Field} {items : List ProtoValue}
    (canonical : ∀ item ∈ items, CanonicalItem below field item)
    (numbers : ∀ item ∈ items, ItemEnums NumberFits range field item) (path : String) (place : ℕ) :
    normalizeItems encodings nested field path place items = .ok items := by
  induction items generalizing place with
  | nil => rfl
  | cons item items inductionHypothesis =>
    obtain ⟨first, normalized, kept⟩ := normalizeScalar_canonical encodings again
      (canonical item List.mem_cons_self) (numbers item List.mem_cons_self)
      (path ++ "[" ++ toString place ++ "]") false
    have whole : first = some item := by
      rcases kept with kept | omitted
      · exact kept.1
      · cases omitted.2.1
    have others := inductionHypothesis
      (fun later member => canonical later (List.mem_cons_of_mem item member))
      (fun later member => numbers later (List.mem_cons_of_mem item member)) (place + 1)
    unfold normalizeItems
    rw [normalized, others, whole]
    rfl

/-- What one round of the loop makes of a member that is there. -/
def canonicalValue (encodings : Encodings)
    (nested : ℕ → ProtoValue → String → Except SdkError ProtoObject) (path : String)
    (field : Field) (raw : ProtoValue) : Except SdkError (Option ProtoValue) :=
  if field.repeated then
    match raw with
    | .array items =>
      if items.isEmpty then .ok none
      else do
        let items ← normalizeItems encodings nested field (path ++ "." ++ field.name) 0 items
        .ok (some (.array items))
    | _ => .error (.encoding (path ++ "." ++ field.name ++ ": expected an array"))
  else normalizeScalar encodings nested field raw (path ++ "." ++ field.name) true

theorem canonicalField_present {field : Field} (plain : field.map = false) {value : ProtoValue}
    (present : value.member field.name ≠ .missing) (path : String) :
    canonicalField encodings nested value path field =
      canonicalValue encodings nested path field (value.member field.name) := by
  unfold canonicalField
  rw [plain, if_neg Bool.false_ne_true]
  cases raw : value.member field.name with
  | missing => exact absurd raw present
  | _ => rfl

theorem canonicalValue_ok
    (fine : ∀ index raw path members, nested index raw path = .ok members → below index members)
    {field : Field} (plain : field.map = false) {raw : ProtoValue} {path : String}
    {result : Option ProtoValue}
    (normalized : canonicalValue encodings nested path field raw = .ok result) :
    CanonicalMember below field result := by
  refine ⟨plain, ?_⟩
  intro present same
  subst same
  unfold canonicalValue at normalized
  by_cases repeated : field.repeated = true
  · rw [if_pos repeated] at normalized ⊢
    cases raw with
    | array items =>
      dsimp only at normalized
      by_cases empty : items.isEmpty = true
      · rw [if_pos empty] at normalized
        cases normalized
      · rw [if_neg empty] at normalized
        cases loop : normalizeItems encodings nested field (path ++ "." ++ field.name) 0 items with
        | error error =>
          rw [loop] at normalized
          cases normalized
        | ok results =>
          rw [loop] at normalized
          have same : present = .array results :=
            (Option.some.inj (Except.ok.inj normalized)).symm
          obtain ⟨long, canonical⟩ := normalizeItems_ok fine loop
          refine ⟨results, same, ?_, canonical⟩
          intro none
          rw [none] at long
          exact empty (List.isEmpty_iff.mpr (List.eq_nil_of_length_eq_zero long.symm))
    | _ => cases normalized
  · rw [if_neg repeated] at normalized ⊢
    obtain ⟨value, canonical, kept⟩ := normalizeScalar_ok fine normalized
    rcases kept with ⟨same, other⟩ | omitted
    · cases same
      exact ⟨canonical, other rfl⟩
    · cases omitted.1

theorem canonicalField_ok
    (fine : ∀ index raw path members, nested index raw path = .ok members → below index members)
    {field : Field} {value : ProtoValue} {path : String} {result : Option ProtoValue}
    (normalized : canonicalField encodings nested value path field = .ok result) :
    CanonicalMember below field result := by
  by_cases map : field.map = true
  · unfold canonicalField at normalized
    rw [if_pos map] at normalized
    cases normalized
  · have plain : field.map = false := Bool.eq_false_iff.mpr map
    by_cases missing : value.member field.name = .missing
    · unfold canonicalField at normalized
      rw [if_neg map, missing] at normalized
      cases normalized
      exact ⟨plain, fun present same => by cases same⟩
    · rw [canonicalField_present plain missing] at normalized
      exact canonicalValue_ok fine plain normalized

/-- A canonical member is found again. -/
theorem canonicalField_canonical
    (again : ∀ index members path, below index members → range index (.plain members) →
      nested index (.plain members) path = .ok members)
    {field : Field} {member : Option ProtoValue} (canonical : CanonicalMember below field member)
    (numbers : MemberEnums NumberFits range field (member.getD .missing))
    {value : ProtoValue} (found : value.member field.name = member.getD .missing) (path : String) :
    canonicalField encodings nested value path field = .ok member := by
  obtain ⟨plain, shape⟩ := canonical
  cases member with
  | none =>
    unfold canonicalField
    rw [plain, if_neg Bool.false_ne_true, found]
    rfl
  | some present =>
    replace shape := shape present rfl
    unfold MemberEnums at numbers
    by_cases repeated : field.repeated = true
    · rw [if_pos repeated] at shape numbers
      obtain ⟨items, rfl, filled, canonical⟩ := shape
      have there : value.member field.name ≠ .missing := by
        rw [found]
        intro missing
        cases missing
      have some : ¬ items.isEmpty = true := fun empty => filled (List.isEmpty_iff.mp empty)
      rw [canonicalField_present plain there, found]
      unfold canonicalValue
      rw [if_pos repeated]
      dsimp only [Option.getD_some]
      rw [if_neg some, normalizeItems_canonical again canonical numbers]
      rfl
    · rw [if_neg repeated] at shape numbers
      obtain ⟨item, other⟩ := shape
      have there : value.member field.name ≠ .missing := by
        rw [found]
        intro missing
        rw [Option.getD_some] at missing
        rw [missing] at item
        unfold CanonicalItem at item
        cases kind : field.type with
        | message index =>
          rw [kind] at item
          obtain ⟨members, same, _⟩ := item
          cases same
        | enumeration enum =>
          rw [kind] at item
          exact item rfl
        | scalar type =>
          rw [kind] at item
          obtain ⟨native, same⟩ := item
          cases type <;> cases same
      rw [canonicalField_present plain there, found]
      unfold canonicalValue
      rw [if_neg repeated, Option.getD_some]
      obtain ⟨result, normalized, kept⟩ :=
        normalizeScalar_canonical encodings again item numbers
          (path ++ "." ++ field.name) true
      rw [normalized]
      rcases kept with kept | omitted
      · rw [kept.1]
      · exact absurd omitted.2.2 other

end Loops

theorem canonicalFields_ok {encodings : Encodings}
    {nested : ℕ → ProtoValue → String → Except SdkError ProtoObject}
    {below : ℕ → ProtoObject → Prop}
    (fine : ∀ index raw path members, nested index raw path = .ok members → below index members)
    {value : ProtoValue} {path : String} {fields : List Field} {values : List (Option ProtoValue)}
    (found : canonicalFields encodings nested value path fields = .ok values) :
    List.Forall₂ (CanonicalMember below) fields values := by
  induction fields generalizing values with
  | nil =>
    cases found
    exact .nil
  | cons field fields inductionHypothesis =>
    unfold canonicalFields at found
    cases head : canonicalField encodings nested value path field with
    | error error =>
      rw [head] at found
      cases found
    | ok first =>
      rw [head] at found
      cases tail : canonicalFields encodings nested value path fields with
      | error error =>
        rw [tail] at found
        cases found
      | ok others =>
        rw [tail] at found
        cases found
        exact .cons (canonicalField_ok fine head) (inductionHypothesis tail)

theorem canonicalFields_canonical (encodings : Encodings)
    {nested : ℕ → ProtoValue → String → Except SdkError ProtoObject}
    {below : ℕ → ProtoObject → Prop} {range : ℕ → ProtoValue → Prop}
    (again : ∀ index members path, below index members → range index (.plain members) →
      nested index (.plain members) path = .ok members)
    {value : ProtoValue} (path : String) {fields : List Field} {values : List (Option ProtoValue)}
    (canonical : List.Forall₂ (CanonicalMember below) fields values)
    (numbers : List.Forall₂ (fun field member =>
      MemberEnums NumberFits range field (member.getD .missing)) fields values)
    (found : List.Forall₂ (fun field member => value.member field.name = member.getD .missing)
      fields values) :
    canonicalFields encodings nested value path fields = .ok values := by
  induction canonical with
  | nil => rfl
  | cons head _ inductionHypothesis =>
    cases found with
    | cons first others =>
      cases numbers with
      | cons fits rest =>
        unfold canonicalFields
        rw [canonicalField_canonical again head fits first path, inductionHypothesis rest others]
        rfl

/-- An object assembled from these values has them as its members. -/
theorem member_assemble {schema : Schema} {index : ℕ} {values : List (Option ProtoValue)}
    (same : (fieldsArray schema index).length = values.length) :
    List.Forall₂ (fun field member =>
      (ProtoValue.plain (assemble (fieldsArray schema index) values)).member field.name =
        member.getD .missing) (fieldsArray schema index) values := by
  refine List.Forall₂.imp ?_ (lookup_assemble (fieldsArray_named schema index) same)
  intro field member found
  rw [← found]
  rfl

/-- What is accepted gets a canonical object. -/
theorem canonicalize_ok {encodings : Encodings} {schema : Schema} {levels index : ℕ}
    {value : ProtoValue} {path : String} {members : ProtoObject}
    (accepted : canonicalize encodings schema levels index value path = .ok members) :
    Canonical schema levels index members := by
  induction levels generalizing index value path members with
  | zero => cases accepted
  | succ levels inductionHypothesis =>
    unfold canonicalize at accepted
    cases found : canonicalFields encodings (canonicalize encodings schema levels) value path
        (fieldsArray schema index) with
    | error error =>
      rw [found] at accepted
      cases accepted
    | ok values =>
      rw [found] at accepted
      cases accepted
      have fine : ∀ index raw path members,
          canonicalize encodings schema levels index raw path = .ok members →
            Canonical schema levels index members :=
        fun _ _ _ _ accepted => inductionHypothesis accepted
      exact ⟨values, rfl, canonicalFields_ok fine found⟩

/-- What stands for enum values is fine in an object exactly if it is in the values it is assembled
from. -/
theorem enums_assemble {fine : EnumType → ProtoValue → Prop} {schema : Schema} {levels index : ℕ}
    {values : List (Option ProtoValue)}
    (same : (fieldsArray schema index).length = values.length) :
    Enums fine schema (levels + 1) index (.plain (assemble (fieldsArray schema index) values)) ↔
      List.Forall₂ (fun field member =>
        MemberEnums fine (Enums fine schema levels) field (member.getD .missing))
        (fieldsArray schema index) values := by
  have found := member_assemble same
  show (∀ field ∈ fieldsArray schema index, MemberEnums fine (Enums fine schema levels) field
    ((ProtoValue.plain (assemble (fieldsArray schema index) values)).member field.name)) ↔ _
  generalize ProtoValue.plain (assemble (fieldsArray schema index) values) = object at found ⊢
  generalize fieldsArray schema index = fields at found ⊢
  clear same
  induction found with
  | nil =>
    constructor
    · intro _
      exact .nil
    · intro _ field member
      cases member
  | cons head _ inductionHypothesis =>
    rw [List.forall_mem_cons, List.forall₂_cons, head, inductionHypothesis]

/-- A canonical object whose enum values are numbers of 32 bits is its own. -/
theorem canonicalize_canonical (encodings : Encodings) {schema : Schema} {levels index : ℕ}
    {members : ProtoObject} (canonical : Canonical schema levels index members)
    (numbers : Enums NumberFits schema levels index (.plain members)) (path : String) :
    canonicalize encodings schema levels index (.plain members) path = .ok members := by
  induction levels generalizing index members path with
  | zero => exact absurd canonical id
  | succ levels inductionHypothesis =>
    obtain ⟨values, rfl, canonical⟩ := canonical
    have again : ∀ index members path, Canonical schema levels index members →
        Enums NumberFits schema levels index (.plain members) →
          canonicalize encodings schema levels index (.plain members) path = .ok members :=
      fun _ _ path fine numbers => inductionHypothesis fine numbers path
    have found := canonicalFields_canonical encodings again path canonical
      ((enums_assemble canonical.length_eq).mp numbers) (member_assemble canonical.length_eq)
    unfold canonicalize
    rw [found]
    rfl

end OpenSocial.Sdk.Encoding
