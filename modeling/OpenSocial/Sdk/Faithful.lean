/-
This file proves when the canonical encoding is faithful. A canonical object whose
enum values are numbers of 32 bits stands for one message of the runtime. The message
is written and read back, what is read back is the object with its defaults filled in,
and the object is the only one that stands for the message.

What is read back has no other enum values. So the encoding is faithful for the inputs
whose enum values are numbers of 32 bits or declared names, and for no others.
-/

import OpenSocial.Library.Base58
import OpenSocial.Sdk.Canonical

namespace OpenSocial.Sdk.Encoding

open Extension

/-! ### Enum values -/

/-- In an input: a number of 32 bits or a declared name, if it is a number or a name. -/
def GivenFits (enum : EnumType) (value : ProtoValue) : Prop :=
  (∀ number, value = .integer number → FitsInt32 number) ∧
    ∀ name, value = .string name → (enum.numberOf name).isSome = true

section Normalize

variable {encodings : Encodings} {nested : ℕ → ProtoValue → String → Except SdkError ProtoObject}
variable {below numbers : ℕ → ProtoValue → Prop}

/-- A declared name has the number it was declared with. -/
theorem numberOf_fits {enum : EnumType} {name : String} {number : ℤ}
    (declared : enum.numberOf name = some number) : FitsInt32 number := by
  unfold EnumType.numberOf at declared
  split at declared
  · cases declared
  · obtain ⟨before, after, whole, _⟩ := List.lookup_eq_some_iff.mp declared
    refine enum.small (name, number) ?_
    rw [whole]
    exact List.mem_append_right before List.mem_cons_self

/-- What `values` has for a name that is not declared is no number. -/
theorem valueAt_undeclared {enum : EnumType} {name : String}
    (undeclared : enum.numberOf name = none) (number : ℤ) :
    enum.valueAt name ≠ some (.integer number) := by
  unfold EnumType.valueAt
  rw [undeclared]
  cases enum.nameOf name with
  | some declared =>
    intro same
    cases same
  | none =>
    dsimp only
    split
    · intro same
      cases same
    · split
      · intro same
        cases same
      · intro same
        cases same

/-- What is found for an enum value is a number of 32 bits exactly if what is given is one, or is
declared. -/
theorem enumValue_fits {enum : EnumType} {raw value : ProtoValue} {path : String}
    (found : enumValue enum raw path = .ok value) :
    GivenFits enum raw ↔ ∃ number, value = .integer number ∧ FitsInt32 number := by
  cases raw with
  | integer given =>
    obtain rfl := Except.ok.inj found
    constructor
    · rintro ⟨fits, _⟩
      exact ⟨given, rfl, fits given rfl⟩
    · rintro ⟨number, same, fits⟩
      cases same
      refine ⟨fun other same => ?_, fun name impossible => by cases impossible⟩
      cases same
      exact fits
  | string name =>
    have entry : enum.valueAt name = some value := by
      unfold enumValue at found
      dsimp only at found
      cases entry : enum.valueAt name with
      | none =>
        rw [entry] at found
        cases found
      | some given =>
        rw [entry] at found
        rw [Except.ok.inj found]
    cases declared : enum.numberOf name with
    | some number =>
      unfold EnumType.valueAt at entry
      rw [declared] at entry
      have same : value = .integer number := (Option.some.inj entry).symm
      constructor
      · intro _
        exact ⟨number, same, numberOf_fits declared⟩
      · intro _
        refine ⟨fun other impossible => (by cases impossible), fun other equal => ?_⟩
        cases equal
        rw [declared]
        rfl
    | none =>
      constructor
      · rintro ⟨_, named⟩
        have impossible := named name rfl
        rw [declared] at impossible
        cases impossible
      · rintro ⟨number, rfl, _⟩
        exact absurd entry (valueAt_undeclared declared number)
  | _ => exact nomatch (found : Except.error _ = Except.ok value)

/-- An accepted value that is left out or kept is a number of 32 bits, if it is there, exactly if it
was one. -/
theorem numberFits_unlessDefault (enum : EnumType) {value : ProtoValue} (omitDefault : Bool)
    (present : value ≠ .missing) :
    (∃ number, value = .integer number ∧ FitsInt32 number) ↔
      NumberFits enum ((unlessDefault omitDefault (isZeroNumber value) value).getD .missing) := by
  unfold unlessDefault
  by_cases left : (omitDefault && isZeroNumber value) = true
  · rw [if_pos left]
    rw [Bool.and_eq_true] at left
    constructor
    · intro _ impossible
      exact absurd rfl impossible
    · intro _
      refine ⟨0, (@isZeroNumber_iff enum value).mp left.2, ?_⟩
      unfold FitsInt32
      decide
  · rw [if_neg left]
    constructor
    · intro fits _
      exact fits
    · intro fits
      exact fits present

/-- Normalization makes numbers of 32 bits of what fits, and of nothing else. -/
theorem normalizeScalar_range
    (agrees : ∀ index raw path members, nested index raw path = .ok members →
      (below index raw ↔ numbers index (.plain members)))
    {field : Field} {raw : ProtoValue} {path : String} {omitDefault : Bool}
    {result : Option ProtoValue}
    (normalized : normalizeScalar encodings nested field raw path omitDefault = .ok result) :
    ItemEnums GivenFits below field raw ↔
      ItemEnums NumberFits numbers field (result.getD .missing) := by
  unfold normalizeScalar at normalized
  unfold ItemEnums
  cases kind : field.type with
  | message index =>
    rw [kind] at normalized
    dsimp only at normalized ⊢
    by_cases object : raw.isObject = true
    · rw [if_pos object] at normalized
      cases inner : nested index raw path with
      | error error =>
        rw [inner] at normalized
        cases normalized
      | ok members =>
        rw [inner] at normalized
        have same : result = some (.plain members) := (Except.ok.inj normalized).symm
        rw [same]
        exact agrees index raw path members inner
    · rw [if_neg object] at normalized
      cases normalized
  | enumeration enum =>
    rw [kind] at normalized
    dsimp only at normalized ⊢
    cases found : enumValue enum raw path with
    | error error =>
      rw [found] at normalized
      cases normalized
    | ok value =>
      rw [found] at normalized
      have same : result = unlessDefault omitDefault (isZeroNumber value) value :=
        (Except.ok.inj normalized).symm
      rw [enumValue_fits found, same]
      exact numberFits_unlessDefault enum omitDefault (enumValue_present found)
  | scalar type => exact Iff.rfl

theorem normalizeItems_range
    (agrees : ∀ index raw path members, nested index raw path = .ok members →
      (below index raw ↔ numbers index (.plain members)))
    {field : Field} {path : String} {place : ℕ} {items results : List ProtoValue}
    (normalized : normalizeItems encodings nested field path place items = .ok results) :
    (∀ item ∈ items, ItemEnums GivenFits below field item) ↔
      ∀ item ∈ results, ItemEnums NumberFits numbers field item := by
  induction items generalizing place results with
  | nil =>
    cases normalized
    constructor
    · intro _ item member
      cases member
    · intro _ item member
      cases member
  | cons item items inductionHypothesis =>
    unfold normalizeItems at normalized
    cases head : normalizeScalar encodings nested field item
        (path ++ "[" ++ toString place ++ "]") false with
    | error error =>
      rw [head] at normalized
      cases normalized
    | ok first =>
      rw [head] at normalized
      cases tail : normalizeItems encodings nested field path (place + 1) items with
      | error error =>
        rw [tail] at normalized
        cases normalized
      | ok others =>
        rw [tail] at normalized
        have same : results = first.getD .missing :: others := (Except.ok.inj normalized).symm
        rw [same, List.forall_mem_cons, List.forall_mem_cons, normalizeScalar_range agrees head,
          inductionHypothesis tail]

/-- Where there is nothing, nothing stands for an enum value. -/
theorem memberEnums_missing {fine : EnumType → ProtoValue → Prop}
    (nothing : ∀ enum, fine enum .missing) (inner : ∀ index, below index .missing)
    (field : Field) : MemberEnums fine below field .missing := by
  unfold MemberEnums ItemEnums
  by_cases repeated : field.repeated = true
  · rw [if_pos repeated]
    intro item member
    cases member
  · rw [if_neg repeated]
    cases field.type with
    | message index => exact inner index
    | enumeration enum => exact nothing enum
    | scalar type => exact trivial

theorem numberFits_missing (enum : EnumType) : NumberFits enum .missing :=
  fun impossible => absurd rfl impossible

theorem givenFits_missing (enum : EnumType) : GivenFits enum .missing :=
  ⟨fun _ impossible => (by cases impossible), fun _ impossible => (by cases impossible)⟩

theorem canonicalField_range
    (agrees : ∀ index raw path members, nested index raw path = .ok members →
      (below index raw ↔ numbers index (.plain members)))
    (unmade : ∀ index, below index .missing) (absent : ∀ index, numbers index .missing)
    {field : Field} {value : ProtoValue} {path : String} {result : Option ProtoValue}
    (normalized : canonicalField encodings nested value path field = .ok result) :
    MemberEnums GivenFits below field (value.member field.name) ↔
      MemberEnums NumberFits numbers field (result.getD .missing) := by
  have plain := (canonicalField_ok
    (fun _ _ _ _ _ => trivial : ∀ index raw path members, nested index raw path = .ok members →
      (fun _ _ => True : ℕ → ProtoObject → Prop) index members) normalized).1
  by_cases missing : value.member field.name = .missing
  · unfold canonicalField at normalized
    rw [plain, if_neg Bool.false_ne_true, missing] at normalized
    cases normalized
    rw [missing]
    exact iff_of_true (memberEnums_missing givenFits_missing unmade field)
      (memberEnums_missing numberFits_missing absent field)
  · rw [canonicalField_present plain missing] at normalized
    unfold canonicalValue at normalized
    unfold MemberEnums
    by_cases repeated : field.repeated = true
    · rw [if_pos repeated] at normalized ⊢
      cases raw : value.member field.name with
      | array items =>
        rw [raw] at normalized
        dsimp only at normalized
        rw [if_pos repeated]
        by_cases empty : items.isEmpty = true
        · rw [if_pos empty] at normalized
          cases normalized
          rw [List.isEmpty_iff.mp empty]
          exact iff_of_true (fun item member => (by cases member)) fun item member => (by cases member)
        · rw [if_neg empty] at normalized
          cases loop : normalizeItems encodings nested field (path ++ "." ++ field.name) 0 items with
          | error error =>
            rw [loop] at normalized
            cases normalized
          | ok results =>
            rw [loop] at normalized
            cases normalized
            exact normalizeItems_range agrees loop
      | _ =>
        rw [raw] at normalized
        cases normalized
    · rw [if_neg repeated] at normalized ⊢
      rw [if_neg repeated]
      exact normalizeScalar_range agrees normalized

theorem canonicalFields_range
    (agrees : ∀ index raw path members, nested index raw path = .ok members →
      (below index raw ↔ numbers index (.plain members)))
    (unmade : ∀ index, below index .missing) (absent : ∀ index, numbers index .missing)
    {value : ProtoValue} {path : String} {fields : List Field} {values : List (Option ProtoValue)}
    (found : canonicalFields encodings nested value path fields = .ok values) :
    List.Forall₂ (fun field member => MemberEnums GivenFits below field (value.member field.name) ↔
      MemberEnums NumberFits numbers field (member.getD .missing)) fields values := by
  induction fields generalizing values with
  | nil =>
    cases found
    exact .nil
  | cons field fields inductionHypothesis =>
    unfold canonicalFields at found
    cases head : canonicalField encodings nested value path field with
    | error error =>
      rw [head] at found
      cases found
    | ok first =>
      rw [head] at found
      cases tail : canonicalFields encodings nested value path fields with
      | error error =>
        rw [tail] at found
        cases found
      | ok others =>
        rw [tail] at found
        cases found
        exact .cons (canonicalField_range agrees unmade absent head) (inductionHypothesis tail)

end Normalize

/-- What holds of the members of two objects alike holds of both or of neither. -/
theorem forall_members_iff {below numbers : ℕ → ProtoValue → Prop} {fields : List Field}
    {values : List (Option ProtoValue)} {first second : ProtoValue}
    (agree : List.Forall₂ (fun field member =>
      MemberEnums GivenFits below field (first.member field.name) ↔
        MemberEnums NumberFits numbers field (member.getD .missing)) fields values)
    (found : List.Forall₂ (fun field member => second.member field.name = member.getD .missing)
      fields values) :
    (∀ field ∈ fields, MemberEnums GivenFits below field (first.member field.name)) ↔
      ∀ field ∈ fields, MemberEnums NumberFits numbers field (second.member field.name) := by
  induction agree with
  | nil =>
    constructor
    · intro _ field member
      cases member
    · intro _ field member
      cases member
  | cons head _ inductionHypothesis =>
    cases found with
    | cons same others =>
      rw [List.forall_mem_cons, List.forall_mem_cons, head, same, inductionHypothesis others]

/-- Where there is nothing, nothing stands for an enum value. -/
theorem enums_missing {fine : EnumType → ProtoValue → Prop} (nothing : ∀ enum, fine enum .missing)
    (schema : Schema) (levels index : ℕ) : Enums fine schema levels index .missing := by
  induction levels generalizing index with
  | zero => exact trivial
  | succ levels inductionHypothesis =>
    exact fun field _ => memberEnums_missing nothing inductionHypothesis field

/-- What is accepted fits exactly if the enum values of its canonical object are numbers of 32
bits. -/
theorem canonicalize_range {encodings : Encodings} {schema : Schema} {levels index : ℕ}
    {value : ProtoValue} {path : String} {members : ProtoObject}
    (accepted : canonicalize encodings schema levels index value path = .ok members) :
    Enums GivenFits schema levels index value ↔
      Enums NumberFits schema levels index (.plain members) := by
  induction levels generalizing index value path members with
  | zero => cases accepted
  | succ levels inductionHypothesis =>
    unfold canonicalize at accepted
    cases found : canonicalFields encodings (canonicalize encodings schema levels) value path
        (fieldsArray schema index) with
    | error error =>
      rw [found] at accepted
      cases accepted
    | ok values =>
      rw [found] at accepted
      cases accepted
      have agrees : ∀ index raw path members,
          canonicalize encodings schema levels index raw path = .ok members →
            (Enums GivenFits schema levels index raw ↔
              Enums NumberFits schema levels index (.plain members)) :=
        fun _ _ _ _ accepted => inductionHypothesis accepted
      have alike := canonicalFields_range agrees (enums_missing givenFits_missing schema levels)
        (enums_missing numberFits_missing schema levels) found
      exact forall_members_iff alike (member_assemble alike.length_eq)

/-! ### Objects and messages -/

/-- The item a canonical value stands for. -/
def ItemStands (below : ℕ → ProtoObject → List Protobuf.Slot → Prop) (field : Field)
    (value : ProtoValue) : Protobuf.Item → Prop
  | .scalar type native =>
    Protobuf.scalarType field.type.runtime = some type ∧ value = valueOf type native
  | .message slots => ∃ index members,
    field.type = .message index ∧ value = .plain members ∧ below index members slots

/-- The slot a canonical member stands for. -/
def SlotStands (below : ℕ → ProtoObject → List Protobuf.Slot → Prop) (field : Field) :
    Option ProtoValue → Protobuf.Slot → Prop
  | none, slot => slot = if field.repeated then .list [] else .absent
  | some _, .absent => False
  | some value, .single item =>
    field.repeated = false ∧ value ≠ defaultToObject field.type ∧ ItemStands below field value item
  | some value, .list items => field.repeated = true ∧ items ≠ [] ∧ ∃ values,
    value = .array values ∧ List.Forall₂ (ItemStands below field) values items

/-- Fields, members and slots that agree place by place. -/
inductive Placed (relation : Field → Option ProtoValue → Protobuf.Slot → Prop) :
    List Field → List (Option ProtoValue) → List Protobuf.Slot → Prop
  | nil : Placed relation [] [] []
  | cons {field : Field} {member : Option ProtoValue} {slot : Protobuf.Slot}
      {fields : List Field} {members : List (Option ProtoValue)} {slots : List Protobuf.Slot} :
    relation field member slot → Placed relation fields members slots →
      Placed relation (field :: fields) (member :: members) (slot :: slots)

/-- The message a canonical object stands for. -/
def Stands (schema : Schema) : ℕ → ℕ → ProtoObject → List Protobuf.Slot → Prop
  | 0, _, _, _ => False
  | levels + 1, index, members, slots => ∃ values,
    members = assemble (fieldsArray schema index) values ∧
      Placed (SlotStands (Stands schema levels)) (fieldsArray schema index) values slots

theorem Placed.length_eq {relation : Field → Option ProtoValue → Protobuf.Slot → Prop}
    {fields : List Field} {members : List (Option ProtoValue)} {slots : List Protobuf.Slot}
    (placed : Placed relation fields members slots) : fields.length = members.length := by
  induction placed with
  | nil => rfl
  | cons _ _ inductionHypothesis => exact congrArg Nat.succ inductionHypothesis

theorem Placed.length_slots {relation : Field → Option ProtoValue → Protobuf.Slot → Prop}
    {fields : List Field} {members : List (Option ProtoValue)} {slots : List Protobuf.Slot}
    (placed : Placed relation fields members slots) : fields.length = slots.length := by
  induction placed with
  | nil => rfl
  | cons _ _ inductionHypothesis => exact congrArg Nat.succ inductionHypothesis

section Existence

variable {canonical : ℕ → ProtoObject → Prop} {range : ℕ → ProtoValue → Prop}
variable {stands : ℕ → ProtoObject → List Protobuf.Slot → Prop}

theorem exists_itemStands
    (inner : ∀ index members, canonical index members → range index (.plain members) →
      ∃ slots, stands index members slots)
    {field : Field} {value : ProtoValue} (fine : CanonicalItem canonical field value)
    (fits : ItemEnums NumberFits range field value) :
    ∃ item, ItemStands stands field value item := by
  unfold CanonicalItem at fine
  unfold ItemEnums at fits
  cases kind : field.type with
  | message index =>
    rw [kind] at fine fits
    obtain ⟨members, rfl, fine⟩ := fine
    obtain ⟨slots, found⟩ := inner index members fine fits
    exact ⟨.message slots, index, members, kind, rfl, found⟩
  | enumeration enum =>
    rw [kind] at fine fits
    obtain ⟨number, rfl, low, high⟩ := fits fine
    refine ⟨.scalar .int32 (Int32.ofInt number), ?_, ?_⟩
    · rw [kind]
      rfl
    · exact congrArg ProtoValue.integer (toInt_ofInt32 low high).symm
  | scalar type =>
    rw [kind] at fine
    obtain ⟨native, rfl⟩ := fine
    refine ⟨.scalar type native, ?_, rfl⟩
    rw [kind]
    rfl

theorem exists_itemsStand
    (inner : ∀ index members, canonical index members → range index (.plain members) →
      ∃ slots, stands index members slots)
    {field : Field} {values : List ProtoValue}
    (fine : ∀ value ∈ values, CanonicalItem canonical field value)
    (fits : ∀ value ∈ values, ItemEnums NumberFits range field value) :
    ∃ items, List.Forall₂ (ItemStands stands field) values items := by
  induction values with
  | nil => exact ⟨[], .nil⟩
  | cons value values inductionHypothesis =>
    rw [List.forall_mem_cons] at fine fits
    obtain ⟨item, first⟩ := exists_itemStands inner fine.1 fits.1
    obtain ⟨items, others⟩ := inductionHypothesis fine.2 fits.2
    exact ⟨item :: items, .cons first others⟩

theorem exists_slotStands
    (inner : ∀ index members, canonical index members → range index (.plain members) →
      ∃ slots, stands index members slots)
    {field : Field} {member : Option ProtoValue} (fine : CanonicalMember canonical field member)
    (fits : MemberEnums NumberFits range field (member.getD .missing)) :
    ∃ slot, SlotStands stands field member slot := by
  cases member with
  | none => exact ⟨_, rfl⟩
  | some value =>
    have shape := fine.2 value rfl
    unfold MemberEnums at fits
    by_cases repeated : field.repeated = true
    · rw [if_pos repeated] at shape fits
      obtain ⟨values, rfl, filled, fine⟩ := shape
      obtain ⟨items, found⟩ := exists_itemsStand inner fine fits
      refine ⟨.list items, repeated, ?_, values, rfl, found⟩
      rintro rfl
      cases found
      exact filled rfl
    · rw [if_neg repeated] at shape fits
      obtain ⟨item, found⟩ := exists_itemStands inner shape.1 fits
      exact ⟨.single item, Bool.eq_false_iff.mpr repeated, shape.2, found⟩

theorem exists_placed
    (inner : ∀ index members, canonical index members → range index (.plain members) →
      ∃ slots, stands index members slots)
    {fields : List Field} {members : List (Option ProtoValue)}
    (fine : List.Forall₂ (CanonicalMember canonical) fields members)
    (fits : List.Forall₂ (fun field member =>
      MemberEnums NumberFits range field (member.getD .missing)) fields members) :
    ∃ slots, Placed (SlotStands stands) fields members slots := by
  induction fine with
  | nil => exact ⟨[], .nil⟩
  | cons head _ inductionHypothesis =>
    cases fits with
    | cons first others =>
      obtain ⟨slot, found⟩ := exists_slotStands inner head first
      obtain ⟨slots, rest⟩ := inductionHypothesis others
      exact ⟨slot :: slots, .cons found rest⟩

end Existence

/-- A canonical object whose enum values are numbers of 32 bits stands for a message. -/
theorem exists_stands {schema : Schema} {levels index : ℕ} {members : ProtoObject}
    (canonical : Canonical schema levels index members)
    (fits : Enums NumberFits schema levels index (.plain members)) :
    ∃ slots, Stands schema levels index members slots := by
  induction levels generalizing index members with
  | zero => exact absurd canonical id
  | succ levels inductionHypothesis =>
    obtain ⟨values, rfl, canonical⟩ := canonical
    have inner : ∀ index members, Canonical schema levels index members →
        Enums NumberFits schema levels index (.plain members) →
          ∃ slots, Stands schema levels index members slots :=
      fun _ _ canonical fits => inductionHypothesis canonical fits
    obtain ⟨slots, found⟩ := exists_placed inner canonical
      ((enums_assemble canonical.length_eq).mp fits)
    exact ⟨slots, values, rfl, found⟩

/-! ### The message of an object -/

theorem sortedFields_runtime (schema : Schema) (index : ℕ) :
    Protobuf.sortedFields (runtimeSchema schema) index =
      (fieldsArray schema index).map Field.runtime := by
  unfold Protobuf.sortedFields fieldsArray runtimeSchema
  rw [List.getElem?_map]
  cases schema[index]? with
  | none => rfl
  | some type => rfl

theorem rule_runtime (field : Field) :
    field.runtime.rule = if field.repeated then .repeated else .optional := rfl

theorem rule_repeated (field : Field) :
    field.runtime.rule = .repeated ↔ field.repeated = true := by
  rw [rule_runtime]
  cases field.repeated <;> decide

/-- An item that is no message is one of a scalar type or the number of an enum. -/
theorem scalarType_runtime {field : Field} {type : Protobuf.Scalar}
    (typed : Protobuf.scalarType field.type.runtime = some type) :
    field.type = .scalar type ∨ type = .int32 ∧ ∃ enum, field.type = .enumeration enum := by
  cases kind : field.type with
  | message index =>
    rw [kind] at typed
    cases typed
  | enumeration enum =>
    rw [kind] at typed
    cases typed
    exact Or.inr ⟨rfl, enum, rfl⟩
  | scalar other =>
    rw [kind] at typed
    cases typed
    exact Or.inl rfl

section Conversion

variable {stands : ℕ → ProtoObject → List Protobuf.Slot → Prop}
variable {nested : ℕ → ProtoValue → Except Protobuf.ProtobufError (List Protobuf.Slot)}

theorem itemFromObject_stands
    (inner : ∀ index members slots, stands index members slots →
      nested index (.plain members) = .ok slots)
    {field : Field} {value : ProtoValue} {item : Protobuf.Item}
    (found : ItemStands stands field value item) :
    itemFromObject nested field value = .ok (some item) := by
  unfold itemFromObject
  cases item with
  | message slots =>
    obtain ⟨index, members, kind, rfl, below⟩ := found
    rw [kind]
    show (if true = true then _ else _) = _
    rw [if_pos rfl, inner index members slots below]
    rfl
  | scalar type native =>
    obtain ⟨typed, rfl⟩ := found
    rcases scalarType_runtime typed with kind | ⟨rfl, enum, kind⟩
    · rw [kind]
      dsimp only
      rw [scalarOf_valueOf (field.scalar_exact kind)]
    · rw [kind]
      show (if int32Min ≤ native.toInt ∧ native.toInt ≤ int32Max then _ else _) = _
      rw [if_pos (toInt32_bounds native), ofInt_toInt32]

theorem itemsFromObject_stands
    (inner : ∀ index members slots, stands index members slots →
      nested index (.plain members) = .ok slots)
    {field : Field} {values : List ProtoValue} {items : List Protobuf.Item}
    (found : List.Forall₂ (ItemStands stands field) values items) :
    itemsFromObject nested field values = .ok items := by
  induction found with
  | nil => rfl
  | cons head _ inductionHypothesis =>
    unfold itemsFromObject
    rw [itemFromObject_stands inner head, inductionHypothesis]
    rfl

/-- A value that stands for an item is there. -/
theorem ItemStands.present {field : Field} {value : ProtoValue} {item : Protobuf.Item}
    (found : ItemStands stands field value item) : value ≠ .missing := by
  cases item with
  | message slots =>
    obtain ⟨index, members, _, rfl, _⟩ := found
    intro same
    cases same
  | scalar type native =>
    obtain ⟨_, rfl⟩ := found
    intro same
    cases type <;> cases same

/-- What the message has for a member that is there. -/
def slotOf (nested : ℕ → ProtoValue → Except Protobuf.ProtobufError (List Protobuf.Slot))
    (field : Field) (value : ProtoValue) : Except Protobuf.ProtobufError Protobuf.Slot :=
  if field.repeated then
    match value with
    | .array items => do
      let items ← itemsFromObject nested field items
      .ok (.list items)
    | _ => .error (.thrown (field.name ++ ": array expected"))
  else do
    let item ← itemFromObject nested field value
    .ok (item.elim .absent .single)

theorem slotFromObject_present {object : ProtoValue} {field : Field}
    (present : object.member field.name ≠ .missing) :
    slotFromObject nested object field = slotOf nested field (object.member field.name) := by
  unfold slotFromObject
  cases raw : object.member field.name with
  | missing => exact absurd raw present
  | _ => rfl

theorem slotFromObject_stands
    (inner : ∀ index members slots, stands index members slots →
      nested index (.plain members) = .ok slots)
    {field : Field} {member : Option ProtoValue} {slot : Protobuf.Slot}
    (found : SlotStands stands field member slot) {object : ProtoValue}
    (has : object.member field.name = member.getD .missing) :
    slotFromObject nested object field = .ok slot := by
  cases member with
  | none =>
    unfold slotFromObject
    rw [has]
    exact congrArg Except.ok found.symm
  | some value =>
    cases slot with
    | absent => exact absurd found id
    | single item =>
      obtain ⟨repeated, _, stand⟩ := found
      rw [slotFromObject_present (by rw [has]; exact stand.present), has]
      unfold slotOf
      rw [repeated, if_neg Bool.false_ne_true, Option.getD_some, itemFromObject_stands inner stand]
      rfl
    | list items =>
      obtain ⟨repeated, _, values, rfl, stand⟩ := found
      rw [slotFromObject_present (by rw [has]; intro same; cases same), has]
      unfold slotOf
      rw [if_pos repeated]
      dsimp only [Option.getD_some]
      rw [itemsFromObject_stands inner stand]
      rfl

theorem slotsFromObject_stands
    (inner : ∀ index members slots, stands index members slots →
      nested index (.plain members) = .ok slots)
    {fields : List Field} {members : List (Option ProtoValue)} {slots : List Protobuf.Slot}
    (placed : Placed (SlotStands stands) fields members slots) {object : ProtoValue}
    (has : List.Forall₂ (fun field member => object.member field.name = member.getD .missing)
      fields members) :
    slotsFromObject nested object fields = .ok slots := by
  induction placed with
  | nil => rfl
  | cons head _ inductionHypothesis =>
    cases has with
    | cons first others =>
      unfold slotsFromObject
      rw [slotFromObject_stands inner head first, inductionHypothesis others]
      rfl

end Conversion

/-- A canonical object is converted to the message it stands for. -/
theorem fromObject_stands {schema : Schema} {levels index : ℕ} {members : ProtoObject}
    {slots : List Protobuf.Slot} (found : Stands schema levels index members slots) :
    fromObject schema levels index (.plain members) = .ok slots := by
  induction levels generalizing index members slots with
  | zero => exact absurd found id
  | succ levels inductionHypothesis =>
    obtain ⟨values, rfl, placed⟩ := found
    have inner : ∀ index members slots, Stands schema levels index members slots →
        fromObject schema levels index (.plain members) = .ok slots :=
      fun _ _ _ found => inductionHypothesis found
    exact slotsFromObject_stands inner placed (member_assemble placed.length_eq)

section Shape

variable {stands : ℕ → ProtoObject → List Protobuf.Slot → Prop}

theorem itemTyped_stands {typed : ℕ → List Protobuf.Slot → Prop}
    (inner : ∀ index members slots, stands index members slots → typed index slots)
    {field : Field} {value : ProtoValue} {item : Protobuf.Item}
    (found : ItemStands stands field value item) :
    Protobuf.ItemTyped typed field.runtime item := by
  cases item with
  | message slots =>
    obtain ⟨index, members, kind, _, below⟩ := found
    refine ⟨index, ?_, inner index members slots below⟩
    exact congrArg FieldType.runtime kind
  | scalar type native => exact found.1

theorem slotTyped_stands {typed : ℕ → List Protobuf.Slot → Prop}
    (inner : ∀ index members slots, stands index members slots → typed index slots)
    {field : Field} {member : Option ProtoValue} {slot : Protobuf.Slot}
    (found : SlotStands stands field member slot) :
    Protobuf.SlotTyped typed field.runtime slot := by
  have optional : field.repeated = false → field.runtime.rule = .optional := by
    intro single
    rw [rule_runtime, single]
    rfl
  cases member with
  | none =>
    rw [show slot = _ from found]
    by_cases repeated : field.repeated = true
    · rw [if_pos repeated]
      exact ⟨(rule_repeated field).mpr repeated, fun item member => by cases member⟩
    · rw [if_neg repeated]
      show field.runtime.rule ≠ .required
      rw [optional (Bool.eq_false_iff.mpr repeated)]
      decide
  | some value =>
    cases slot with
    | absent => exact absurd found id
    | single item =>
      obtain ⟨single, _, stand⟩ := found
      refine ⟨?_, itemTyped_stands inner stand⟩
      rw [optional single]
      decide
    | list items =>
      obtain ⟨repeated, _, values, _, stand⟩ := found
      refine ⟨(rule_repeated field).mpr repeated, ?_⟩
      intro item member
      obtain ⟨place, below, rfl⟩ := List.getElem_of_mem member
      have paired := List.Forall₂.get stand (stand.length_eq.symm ▸ below) below
      exact itemTyped_stands inner paired

theorem fillItem_stands {fill : ℕ → List Protobuf.Slot → List Protobuf.Slot}
    (inner : ∀ index members slots, stands index members slots → fill index slots = slots)
    {field : Field} {value : ProtoValue} {item : Protobuf.Item}
    (found : ItemStands stands field value item) :
    Protobuf.fillItem fill field.runtime item = item := by
  cases item with
  | message slots =>
    obtain ⟨index, members, kind, _, below⟩ := found
    unfold Protobuf.fillItem Field.runtime
    rw [kind]
    exact congrArg Protobuf.Item.message (inner index members slots below)
  | scalar type native => rfl

theorem fillSlot_stands {fill : ℕ → List Protobuf.Slot → List Protobuf.Slot}
    (inner : ∀ index members slots, stands index members slots → fill index slots = slots)
    {field : Field} {member : Option ProtoValue} {slot : Protobuf.Slot}
    (found : SlotStands stands field member slot) :
    Protobuf.fillSlot fill field.runtime slot = slot := by
  cases member with
  | none =>
    rw [show slot = _ from found]
    by_cases repeated : field.repeated = true
    · rw [if_pos repeated]
      rfl
    · rw [if_neg repeated]
      unfold Protobuf.fillSlot Field.runtime
      rw [if_neg repeated]
      rfl
  | some value =>
    cases slot with
    | absent => exact absurd found id
    | single item => exact congrArg Protobuf.Slot.single (fillItem_stands inner found.2.2)
    | list items =>
      obtain ⟨_, _, values, _, stand⟩ := found
      refine congrArg Protobuf.Slot.list ?_
      clear * - stand inner
      induction stand with
      | nil => rfl
      | cons head _ inductionHypothesis =>
        rw [List.map_cons, fillItem_stands inner head, inductionHypothesis]

end Shape

/-- The message a canonical object stands for is well typed. -/
theorem wellTyped_stands {schema : Schema} {levels index : ℕ} {members : ProtoObject}
    {slots : List Protobuf.Slot} (found : Stands schema levels index members slots) :
    Protobuf.WellTyped (runtimeSchema schema) levels index slots := by
  induction levels generalizing index members slots with
  | zero => exact absurd found id
  | succ levels inductionHypothesis =>
    obtain ⟨values, -, placed⟩ := found
    have inner : ∀ index members slots, Stands schema levels index members slots →
        Protobuf.WellTyped (runtimeSchema schema) levels index slots :=
      fun _ _ _ found => inductionHypothesis found
    show List.Forall₂ _ (Protobuf.sortedFields (runtimeSchema schema) index) slots
    rw [sortedFields_runtime]
    generalize fieldsArray schema index = fields at placed ⊢
    induction placed with
    | nil => exact .nil
    | cons head _ others => exact .cons (slotTyped_stands inner head) others

/-- Nothing is missing in it. -/
theorem fill_stands {schema : Schema} {levels index : ℕ} {members : ProtoObject}
    {slots : List Protobuf.Slot} (found : Stands schema levels index members slots) :
    Protobuf.fill (runtimeSchema schema) levels index slots = slots := by
  induction levels generalizing index members slots with
  | zero => exact absurd found id
  | succ levels inductionHypothesis =>
    obtain ⟨values, -, placed⟩ := found
    have inner : ∀ index members slots, Stands schema levels index members slots →
        Protobuf.fill (runtimeSchema schema) levels index slots = slots :=
      fun _ _ _ found => inductionHypothesis found
    show List.zipWith _ (Protobuf.sortedFields (runtimeSchema schema) index) slots = slots
    rw [sortedFields_runtime]
    generalize fieldsArray schema index = fields at placed ⊢
    induction placed with
    | nil => rfl
    | cons head _ others =>
      rw [List.map_cons, List.zipWith_cons_cons, fillSlot_stands inner head, others]

section Unique

variable {stands : ℕ → ProtoObject → List Protobuf.Slot → Prop}

theorem itemStands_inj
    (inner : ∀ index first second slots, stands index first slots → stands index second slots →
      first = second)
    {field : Field} {first second : ProtoValue} {item : Protobuf.Item}
    (found : ItemStands stands field first item) (also : ItemStands stands field second item) :
    first = second := by
  cases item with
  | scalar type native => rw [found.2, also.2]
  | message slots =>
    obtain ⟨index, members, kind, rfl, below⟩ := found
    obtain ⟨other, others, same, rfl, under⟩ := also
    rw [kind] at same
    cases same
    rw [inner index members others slots below under]

theorem slotStands_inj
    (inner : ∀ index first second slots, stands index first slots → stands index second slots →
      first = second)
    {field : Field} {first second : Option ProtoValue} {slot : Protobuf.Slot}
    (found : SlotStands stands field first slot) (also : SlotStands stands field second slot) :
    first = second := by
  -- A field without a value has an empty list or nothing, which no value stands for.
  have filled : ∀ value, SlotStands stands field none slot →
      ¬ SlotStands stands field (some value) slot := by
    intro value empty stand
    rw [show slot = _ from empty] at stand
    by_cases repeated : field.repeated = true
    · rw [if_pos repeated] at stand
      exact stand.2.1 rfl
    · rw [if_neg repeated] at stand
      exact stand
  cases first with
  | none =>
    cases second with
    | none => rfl
    | some value => exact absurd also (filled value found)
  | some value =>
    cases second with
    | none => exact absurd found (filled value also)
    | some another =>
      cases slot with
      | absent => exact absurd found id
      | single item => rw [itemStands_inj inner found.2.2 also.2.2]
      | list items =>
        obtain ⟨-, -, values, rfl, stand⟩ := found
        obtain ⟨-, -, others, rfl, same⟩ := also
        refine congrArg (fun list => some (ProtoValue.array list)) ?_
        clear filled
        induction stand generalizing others with
        | nil =>
          cases same
          rfl
        | cons head _ inductionHypothesis =>
          cases same with
          | cons first rest =>
            rw [itemStands_inj inner head first, inductionHypothesis _ rest]

theorem placed_inj
    (inner : ∀ index first second slots, stands index first slots → stands index second slots →
      first = second)
    {fields : List Field} {first second : List (Option ProtoValue)} {slots : List Protobuf.Slot}
    (found : Placed (SlotStands stands) fields first slots)
    (also : Placed (SlotStands stands) fields second slots) : first = second := by
  induction found generalizing second with
  | nil =>
    cases also
    rfl
  | cons head _ inductionHypothesis =>
    cases also with
    | cons other rest => rw [slotStands_inj inner head other, inductionHypothesis rest]

end Unique

/-- A message stands for one object. -/
theorem stands_inj {schema : Schema} {levels index : ℕ} {first second : ProtoObject}
    {slots : List Protobuf.Slot} (found : Stands schema levels index first slots)
    (also : Stands schema levels index second slots) : first = second := by
  induction levels generalizing index first second slots with
  | zero => exact absurd found id
  | succ levels inductionHypothesis =>
    obtain ⟨values, rfl, placed⟩ := found
    obtain ⟨others, rfl, under⟩ := also
    have inner : ∀ index first second slots, Stands schema levels index first slots →
        Stands schema levels index second slots → first = second :=
      fun _ _ _ _ found also => inductionHypothesis found also
    rw [placed_inj inner placed under]

/-! ### Defaults filled in -/

section Filled

variable (encodings : Encodings)

/-- A canonical value as the SDK reads it: an address is its text. -/
def filledItem (nested : ℕ → ProtoObject → ProtoObject) (field : Field) (value : ProtoValue) :
    ProtoValue :=
  match field.type, value with
  | .message index, .object members _ => .plain (nested index members)
  | .scalar .bytes, .bytes data =>
    if isAddressField field then .string (if data = [] then "" else encodings.toBase58 data)
    else .bytes data
  | _, value => value

/-- What is read for a field without a value: the default, unless the field has a message or is a
member of a oneof; bytes are there in any case. -/
def absentMember (field : Field) : Option ProtoValue :=
  match field.type with
  | .message _ => none
  | .scalar .bytes => some (if isAddressField field then .string "" else .bytes [])
  | type => if field.partOf then none else some (defaultToObject type)

def filledMember (nested : ℕ → ProtoObject → ProtoObject) (field : Field) :
    Option ProtoValue → Option ProtoValue
  | none => if field.repeated then some (.array []) else absentMember field
  | some value =>
    if field.repeated then
      some (.array ((itemsOf value).map (filledItem encodings nested field)))
    else some (filledItem encodings nested field value)

/-- A canonical object with its defaults filled in. -/
def withDefaults (schema : Schema) : ℕ → ℕ → ProtoObject → ProtoObject
  | 0, _, _ => []
  | levels + 1, index, members =>
    assemble (fieldsArray schema index) ((fieldsArray schema index).map fun field =>
      filledMember encodings (withDefaults schema levels) field (members.lookup field.name))

end Filled

/-- What one round of the loop of `normalizeDecoded` makes of a member. -/
def normalizedValue (encodings : Encodings) (nested : ℕ → ProtoValue → ProtoObject) (field : Field)
    (raw : ProtoValue) : Option ProtoValue :=
  if field.repeated then
    match raw with
    | .array items =>
      some (.array (items.map fun item => (convert encodings nested field item).getD .missing))
    | _ => some (.array [])
  else convert encodings nested field raw

/-- A message as the SDK reads it. -/
theorem normalizeDecoded_toObject (encodings : Encodings) {schema : Schema} {levels index : ℕ}
    {slots : List Protobuf.Slot} (long : (fieldsArray schema index).length = slots.length) :
    normalizeDecoded encodings schema (levels + 1) index
        (.plain (toObject schema (levels + 1) index slots)) =
      assemble (fieldsArray schema index) (List.zipWith (fun field slot =>
        normalizedValue encodings (normalizeDecoded encodings schema levels) field
          ((slotToObject (toObject schema levels) field slot).getD .missing))
        (fieldsArray schema index) slots) := by
  have same : (fieldsArray schema index).length = (List.zipWith
      (slotToObject (toObject schema levels)) (fieldsArray schema index) slots).length := by
    rw [List.length_zipWith, long, min_self]
  have members := map_members (fieldsArray_named schema index) same fun field value =>
    normalizedValue encodings (normalizeDecoded encodings schema levels) field
      (value.getD .missing)
  refine congrArg (assemble (fieldsArray schema index)) (Eq.trans members ?_)
  generalize fieldsArray schema index = fields at long
  clear same members
  induction fields generalizing slots with
  | nil => rfl
  | cons field fields inductionHypothesis =>
    cases slots with
    | nil => rfl
    | cons slot slots =>
      exact congrArg (List.cons _) (inductionHypothesis (Nat.succ.inj long))

section Read

variable (encodings : Encodings) {stands : ℕ → ProtoObject → List Protobuf.Slot → Prop}
variable {objects : ℕ → List Protobuf.Slot → ProtoObject} {decoded : ℕ → ProtoValue → ProtoObject}
variable {filled : ℕ → ProtoObject → ProtoObject}

theorem convert_stands
    (inner : ∀ index members slots, stands index members slots →
      decoded index (.plain (objects index slots)) = filled index members)
    {field : Field} {value : ProtoValue} {item : Protobuf.Item}
    (found : ItemStands stands field value item) :
    convert encodings decoded field (itemToObject objects field item) =
      some (filledItem encodings filled field value) := by
  unfold convert filledItem
  cases item with
  | message slots =>
    obtain ⟨index, members, kind, rfl, below⟩ := found
    unfold itemToObject
    rw [kind]
    exact congrArg (fun object => some (ProtoValue.plain object))
      (inner index members slots below)
  | scalar type native =>
    obtain ⟨typed, rfl⟩ := found
    rcases scalarType_runtime typed with kind | ⟨rfl, enum, kind⟩
    · rw [kind]
      have exact := field.scalar_exact kind
      cases type with
      | bytes =>
        show some (if isAddressField field then _ else _) = some (if isAddressField field then _ else _)
        rfl
      | double => exact absurd rfl exact.1
      | float => exact absurd rfl exact.2
      | _ => rfl
    · rw [kind]
      rfl

theorem convert_absent {field : Field} (single : field.repeated = false) :
    convert encodings decoded field ((slotToObject objects field .absent).getD .missing) =
      absentMember field := by
  unfold convert absentMember slotToObject
  rw [single, if_neg Bool.false_ne_true]
  cases kind : field.type with
  | message index =>
    by_cases part : field.partOf = true
    · rw [if_pos part]
      rfl
    · rw [if_neg part]
      rfl
  | enumeration enum =>
    dsimp only
    by_cases part : field.partOf = true
    · rw [if_pos part]
      rfl
    · rw [if_neg part]
      rfl
  | scalar type =>
    have exact := field.scalar_exact kind
    by_cases part : field.partOf = true
    · rw [if_pos part]
      cases type with
      | bytes => rfl
      | _ =>
        dsimp only
        rw [if_pos part]
        rfl
    · rw [if_neg part]
      cases type with
      | bytes => rfl
      | double => exact absurd rfl exact.1
      | float => exact absurd rfl exact.2
      | _ =>
        dsimp only
        rw [if_neg part]
        rfl

theorem normalizedValue_stands
    (inner : ∀ index members slots, stands index members slots →
      decoded index (.plain (objects index slots)) = filled index members)
    {field : Field} {member : Option ProtoValue} {slot : Protobuf.Slot}
    (found : SlotStands stands field member slot) :
    normalizedValue encodings decoded field ((slotToObject objects field slot).getD .missing) =
      filledMember encodings filled field member := by
  unfold normalizedValue filledMember
  cases member with
  | none =>
    rw [show slot = _ from found]
    by_cases repeated : field.repeated = true
    · rw [if_pos repeated, if_pos repeated]
      dsimp only
      rw [if_pos repeated]
      rfl
    · rw [if_neg repeated, if_neg repeated]
      dsimp only
      rw [if_neg repeated]
      exact convert_absent encodings (Bool.eq_false_iff.mpr repeated)
  | some value =>
    cases slot with
    | absent => exact absurd found id
    | single item =>
      obtain ⟨single, _, stand⟩ := found
      dsimp only
      rw [single, if_neg Bool.false_ne_true, if_neg Bool.false_ne_true]
      exact convert_stands encodings inner stand
    | list items =>
      obtain ⟨repeated, -, values, rfl, stand⟩ := found
      dsimp only
      rw [if_pos repeated, if_pos repeated]
      refine congrArg (fun list => some (ProtoValue.array list)) ?_
      show (items.map (itemToObject objects field)).map _ = values.map _
      rw [List.map_map]
      induction stand with
      | nil => rfl
      | cons head _ inductionHypothesis =>
        refine congrArg₂ List.cons ?_ inductionHypothesis
        show (convert encodings decoded field (itemToObject objects field _)).getD .missing = _
        rw [convert_stands encodings inner head]
        rfl

end Read

/-- A message is read as the object that stands for it, with its defaults filled in. -/
theorem decoded_stands (encodings : Encodings) {schema : Schema} {levels more index : ℕ}
    (enough : levels ≤ more) {members : ProtoObject} {slots : List Protobuf.Slot}
    (found : Stands schema levels index members slots) :
    normalizeDecoded encodings schema more index (.plain (toObject schema more index slots)) =
      withDefaults encodings schema levels index members := by
  induction levels generalizing more index members slots with
  | zero => exact absurd found id
  | succ levels inductionHypothesis =>
    obtain ⟨more, rfl⟩ : ∃ fewer, more = fewer + 1 := ⟨more - 1, by omega⟩
    obtain ⟨values, rfl, placed⟩ := found
    have inner : ∀ index members slots, Stands schema levels index members slots →
        normalizeDecoded encodings schema more index (.plain (toObject schema more index slots)) =
          withDefaults encodings schema levels index members :=
      fun _ _ _ found => inductionHypothesis (Nat.le_of_succ_le_succ enough) found
    have long := placed.length_slots
    rw [normalizeDecoded_toObject encodings long]
    refine congrArg (assemble (fieldsArray schema index)) ?_
    rw [map_members (fieldsArray_named schema index) placed.length_eq
      (filledMember encodings (withDefaults encodings schema levels))]
    clear long
    generalize fieldsArray schema index = fields at placed ⊢
    induction placed with
    | nil => rfl
    | cons head _ inductionHypothesis =>
      rw [List.zipWith_cons_cons, List.zipWith_cons_cons, inductionHypothesis,
        normalizedValue_stands encodings inner head]

/-! ### Enum values that are read -/

section Read

variable (encodings : Encodings) {typed : ℕ → List Protobuf.Slot → Prop}
variable {objects : ℕ → List Protobuf.Slot → ProtoObject} {decoded : ℕ → ProtoValue → ProtoObject}
variable {below : ℕ → ProtoValue → Prop}

theorem itemNumbers_convert
    (inner : ∀ index slots, typed index slots →
      below index (.plain (decoded index (.plain (objects index slots)))))
    {field : Field} {item : Protobuf.Item} (fine : Protobuf.ItemTyped typed field.runtime item) :
    ItemEnums NumberFits below field
      ((convert encodings decoded field (itemToObject objects field item)).getD .missing) := by
  unfold ItemEnums
  cases kind : field.type with
  | scalar type => exact trivial
  | enumeration enum =>
    cases item with
    | message slots =>
      obtain ⟨index, same, _⟩ := fine
      change field.type.runtime = _ at same
      rw [kind] at same
      cases same
    | scalar type native =>
      change Protobuf.scalarType field.type.runtime = some type at fine
      rw [kind] at fine
      cases fine
      unfold convert
      rw [kind]
      exact fun _ => ⟨_, rfl, toInt32_bounds native⟩
  | message index =>
    cases item with
    | scalar type native =>
      change Protobuf.scalarType field.type.runtime = some type at fine
      rw [kind] at fine
      cases fine
    | message slots =>
      obtain ⟨another, same, below⟩ := fine
      change field.type.runtime = _ at same
      rw [kind] at same
      cases same
      unfold convert itemToObject
      rw [kind]
      exact inner _ slots below

theorem memberNumbers_read (nothing : ∀ index, below index .missing)
    (inner : ∀ index slots, typed index slots →
      below index (.plain (decoded index (.plain (objects index slots)))))
    {field : Field} {slot : Protobuf.Slot} (fine : Protobuf.SlotTyped typed field.runtime slot) :
    MemberEnums NumberFits below field ((normalizedValue encodings decoded field
      ((slotToObject objects field slot).getD .missing)).getD .missing) := by
  unfold MemberEnums normalizedValue
  by_cases repeated : field.repeated = true
  · rw [if_pos repeated, if_pos repeated]
    cases slot with
    | absent =>
      unfold slotToObject
      rw [if_pos repeated]
      intro item member
      cases member
    | single item => exact absurd ((rule_repeated field).mpr repeated) fine.1
    | list items =>
      intro value member
      change value ∈ (items.map (itemToObject objects field)).map fun item =>
        (convert encodings decoded field item).getD .missing at member
      rw [List.map_map] at member
      obtain ⟨item, present, rfl⟩ := List.mem_map.mp member
      exact itemNumbers_convert encodings inner (fine.2 item present)
  · rw [if_neg repeated, if_neg repeated]
    cases slot with
    | single item => exact itemNumbers_convert encodings inner fine.2
    | list items => exact absurd ((rule_repeated field).mp fine.1) repeated
    | absent =>
      rw [convert_absent encodings (Bool.eq_false_iff.mpr repeated)]
      unfold absentMember ItemEnums
      cases field.type with
      | message index => exact nothing index
      | scalar type => exact trivial
      | enumeration enum =>
        dsimp only
        by_cases part : field.partOf = true
        · rw [if_pos part]
          exact numberFits_missing enum
        · rw [if_neg part]
          refine fun _ => ⟨0, rfl, ?_⟩
          unfold FitsInt32
          decide

end Read

/-- The enum values of what is read are numbers of 32 bits. -/
theorem numbers_read (encodings : Encodings) {schema : Schema} {reading index : ℕ}
    {slots : List Protobuf.Slot}
    (typed : Protobuf.WellTyped (runtimeSchema schema) reading index slots) (levels : ℕ) :
    Enums NumberFits schema levels index (.plain (normalizeDecoded encodings schema reading index
      (.plain (toObject schema reading index slots)))) := by
  induction reading generalizing index slots levels with
  | zero => exact absurd typed id
  | succ reading inductionHypothesis =>
    cases levels with
    | zero => exact trivial
    | succ levels =>
      change List.Forall₂ _ (Protobuf.sortedFields (runtimeSchema schema) index) slots at typed
      rw [sortedFields_runtime, List.forall₂_map_left_iff] at typed
      rw [normalizeDecoded_toObject encodings typed.length_eq, enums_assemble]
      · have inner : ∀ index slots, Protobuf.WellTyped (runtimeSchema schema) reading index slots →
            Enums NumberFits schema levels index (.plain (normalizeDecoded encodings schema reading index
              (.plain (toObject schema reading index slots)))) :=
          fun _ _ typed => inductionHypothesis typed levels
        generalize fieldsArray schema index = fields at typed ⊢
        induction typed with
        | nil => exact .nil
        | cons head _ inductionHypothesis =>
          exact .cons (memberNumbers_read encodings (enums_missing numberFits_missing schema levels) inner head)
            inductionHypothesis
      · rw [List.length_zipWith, typed.length_eq, min_self]

section Given

variable {encodings : Encodings} {canonical : ℕ → ProtoObject → Prop} {range : ℕ → ProtoValue → Prop}
variable {filled : ℕ → ProtoObject → ProtoObject}

theorem itemNumbers_filled
    (inner : ∀ index members, canonical index members → range index (.plain (filled index members)) →
      range index (.plain members))
    {field : Field} {value : ProtoValue} (fine : CanonicalItem canonical field value)
    (fits : ItemEnums NumberFits range field (filledItem encodings filled field value)) :
    ItemEnums NumberFits range field value := by
  unfold CanonicalItem at fine
  unfold filledItem ItemEnums at fits
  unfold ItemEnums
  cases kind : field.type with
  | scalar type => exact trivial
  | enumeration enum =>
    rw [kind] at fits
    exact fits
  | message index =>
    rw [kind] at fine fits
    obtain ⟨members, rfl, below⟩ := fine
    exact inner index members below fits

theorem memberNumbers_filled
    (inner : ∀ index members, canonical index members → range index (.plain (filled index members)) →
      range index (.plain members))
    (nothing : ∀ index, range index .missing)
    {field : Field} {member : Option ProtoValue} (fine : CanonicalMember canonical field member)
    (fits : MemberEnums NumberFits range field
      ((filledMember encodings filled field member).getD .missing)) :
    MemberEnums NumberFits range field (member.getD .missing) := by
  unfold MemberEnums at fits ⊢
  cases member with
  | none => exact memberEnums_missing numberFits_missing nothing field
  | some value =>
    have shape := fine.2 value rfl
    unfold filledMember at fits
    by_cases repeated : field.repeated = true
    · rw [if_pos repeated] at shape
      dsimp only at fits
      rw [if_pos repeated, if_pos repeated] at fits
      rw [if_pos repeated]
      obtain ⟨items, rfl, _, fine⟩ := shape
      intro item member
      exact itemNumbers_filled inner (fine item member)
        (fits _ (List.mem_map_of_mem member))
    · rw [if_neg repeated] at shape
      dsimp only at fits
      rw [if_neg repeated, if_neg repeated] at fits
      rw [if_neg repeated]
      exact itemNumbers_filled inner shape.1 fits

end Given

/-- Filling in defaults hides no enum value. -/
theorem numbers_filled {encodings : Encodings} {schema : Schema} {levels index : ℕ}
    {members : ProtoObject} (canonical : Canonical schema levels index members)
    (fits : Enums NumberFits schema levels index (.plain (withDefaults encodings schema levels index members))) :
    Enums NumberFits schema levels index (.plain members) := by
  induction levels generalizing index members with
  | zero => exact trivial
  | succ levels inductionHypothesis =>
    obtain ⟨values, rfl, canonical⟩ := canonical
    have inner : ∀ index members, Canonical schema levels index members →
        Enums NumberFits schema levels index (.plain (withDefaults encodings schema levels index members)) →
          Enums NumberFits schema levels index (.plain members) :=
      fun _ _ canonical fits => inductionHypothesis canonical fits
    have same := canonical.length_eq
    unfold withDefaults at fits
    rw [map_members (fieldsArray_named schema index) same
      (filledMember encodings (withDefaults encodings schema levels)), enums_assemble] at fits
    · rw [enums_assemble same]
      clear same
      generalize fieldsArray schema index = fields at canonical fits ⊢
      induction canonical with
      | nil => exact .nil
      | cons head _ inductionHypothesis =>
        cases fits with
        | cons first others =>
          exact .cons (memberNumbers_filled inner (enums_missing numberFits_missing schema levels) head first)
            (inductionHypothesis others)
    · rw [List.length_zipWith, same, min_self]

/-! ### The codec -/

section Codec

variable {runtime : Runtime} {schema : Schema} {index : ℕ}

/-- A value is encoded, what is decoded is its canonical object with the defaults filled in, and the
canonical object is its own. -/
def Faithful (runtime : Runtime) (schema : Schema) (index : ℕ) (value : ProtoValue)
    (path : String) : Prop :=
  ∃ members bytes,
    canonicalize runtime.toEncodings schema runtime.levels index value path = .ok members ∧
    encode runtime schema index value path = .ok bytes ∧
    (∀ typeName, decode runtime schema index typeName bytes =
      .ok (withDefaults runtime.toEncodings schema runtime.levels index members)) ∧
    canonicalize runtime.toEncodings schema runtime.levels index (.plain members) path = .ok members

theorem levels_eq (runtime : Runtime) :
    runtime.levels = Protobuf.levelsAllowed runtime.toPrimitives := rfl

/-- What is written for a message that a canonical object stands for. -/
theorem written_stands {members : ProtoObject} {slots : List Protobuf.Slot}
    (found : Stands schema runtime.levels index members slots) :
    written runtime schema index members =
      Protobuf.encodeMessage runtime.toPrimitives (runtimeSchema schema)
        (runtime.recursionLimit + 1) index slots := by
  unfold written
  rw [fromObject_stands found]

theorem encode_accepted {value : ProtoValue} {path : String} {members : ProtoObject}
    (accepted : canonicalize runtime.toEncodings schema runtime.levels index value path =
      .ok members) :
    encode runtime schema index value path =
      (((written runtime schema index members).bind Protobuf.finish).mapError thrown).bind .ok := by
  unfold encode
  rw [accepted]
  rfl

/-- What stands for a message is written as it, and read back. -/
theorem decode_stands (correct : runtime.toPrimitives.Correct) {value : ProtoValue} {path : String}
    {members : ProtoObject}
    (accepted : canonicalize runtime.toEncodings schema runtime.levels index value path =
      .ok members)
    {slots : List Protobuf.Slot} (found : Stands schema runtime.levels index members slots)
    (fits : ∀ bytes, written runtime schema index members = .ok bytes → bytes.length < 2 ^ 32) :
    ∃ bytes, encode runtime schema index value path = .ok bytes ∧
      Protobuf.decode runtime.toPrimitives (runtimeSchema schema) index bytes = .ok slots := by
  have typed := wellTyped_stands found
  obtain ⟨bytes, encoded, _⟩ := Protobuf.message_roundTrip correct (runtimeSchema schema)
    (Nat.succ_le_succ (Nat.min_le_left _ _)) (Nat.succ_le_succ (Nat.min_le_right _ _)) typed
  have whole := written_stands found
  rw [encoded] at whole
  have short := fits bytes whole
  refine ⟨bytes, ?_, ?_⟩
  · have finished : Protobuf.finish bytes = .ok bytes := if_pos short
    rw [encode_accepted accepted, whole]
    show ((Protobuf.finish bytes).mapError thrown).bind .ok = _
    rw [finished]
    rfl
  · have back := Protobuf.decode_encode correct typed (Protobuf.encode_eq_ok.mpr ⟨encoded, short⟩)
    have filled := fill_stands found
    rw [levels_eq] at filled
    rw [back.1, filled]

theorem decode_eq_ok {bytes : Bytes} {slots : List Protobuf.Slot}
    (back : Protobuf.decode runtime.toPrimitives (runtimeSchema schema) index bytes = .ok slots)
    (typeName : String) :
    decode runtime schema index typeName bytes =
      .ok (normalizeDecoded runtime.toEncodings schema (runtime.readerLimit + 1) index
        (.plain (toObject schema (runtime.readerLimit + 1) index slots))) := by
  unfold decode
  rw [back]

/-- A value whose enum values fit is encoded faithfully. -/
theorem faithful_of_fits (correct : runtime.toPrimitives.Correct) {value : ProtoValue}
    {path : String} {members : ProtoObject}
    (accepted : canonicalize runtime.toEncodings schema runtime.levels index value path =
      .ok members)
    (fits : ∀ bytes, written runtime schema index members = .ok bytes → bytes.length < 2 ^ 32)
    (range : Enums GivenFits schema runtime.levels index value) :
    Faithful runtime schema index value path := by
  have canonical := canonicalize_ok accepted
  obtain ⟨slots, found⟩ := exists_stands canonical ((canonicalize_range accepted).mp range)
  obtain ⟨bytes, encoded, back⟩ := decode_stands correct accepted found fits
  refine ⟨members, bytes, accepted, encoded, fun typeName => ?_,
    canonicalize_canonical _ canonical ((canonicalize_range accepted).mp range) path⟩
  have enough : runtime.levels ≤ runtime.readerLimit + 1 :=
    Nat.succ_le_succ (Nat.min_le_right _ _)
  rw [decode_eq_ok back, decoded_stands runtime.toEncodings enough found]

/-- Only such a value is: the decoder makes no other enum values. -/
theorem fits_of_faithful (correct : runtime.toPrimitives.Correct) {value : ProtoValue}
    {path : String} (faithful : Faithful runtime schema index value path) :
    Enums GivenFits schema runtime.levels index value := by
  obtain ⟨members, bytes, accepted, _, read, _⟩ := faithful
  have decoded := read ""
  rw [canonicalize_range accepted]
  refine @numbers_filled runtime.toEncodings _ _ _ _ (canonicalize_ok accepted) ?_
  rcases Protobuf.decode_ends correct (runtimeSchema schema) index bytes with
    ⟨slots, back, typed⟩ | ⟨message, back⟩
  · rw [decode_eq_ok back] at decoded
    rw [← Except.ok.inj decoded]
    exact numbers_read runtime.toEncodings typed runtime.levels
  · unfold decode at decoded
    rw [back] at decoded
    cases decoded

/-- Objects that are encoded alike are alike, where their enum values fit. -/
theorem encode_inj (correct : runtime.toPrimitives.Correct) {first second : ProtoValue}
    {path other : String} {members others : ProtoObject}
    (accepted : canonicalize runtime.toEncodings schema runtime.levels index first path =
      .ok members)
    (also : canonicalize runtime.toEncodings schema runtime.levels index second other =
      .ok others)
    (fits : ∀ bytes, written runtime schema index members = .ok bytes → bytes.length < 2 ^ 32)
    (room : ∀ bytes, written runtime schema index others = .ok bytes → bytes.length < 2 ^ 32)
    (range : Enums GivenFits schema runtime.levels index first)
    (within : Enums GivenFits schema runtime.levels index second)
    (same : encode runtime schema index first path = encode runtime schema index second other) :
    members = others := by
  obtain ⟨slots, found⟩ :=
    exists_stands (canonicalize_ok accepted) ((canonicalize_range accepted).mp range)
  obtain ⟨more, stand⟩ :=
    exists_stands (canonicalize_ok also) ((canonicalize_range also).mp within)
  obtain ⟨bytes, encoded, back⟩ := decode_stands correct accepted found fits
  obtain ⟨octets, written, again⟩ := decode_stands correct also stand room
  rw [encoded, written] at same
  rw [Except.ok.inj same, again] at back
  rw [Except.ok.inj back] at stand
  exact stands_inj found stand

end Codec

/-- A message with the number of an enum and an address. -/
def sampleKind : EnumType where
  values := [("post", 0), ("reply", 1)]
  zero := rfl
  small := by decide

def sampleField (name : String) (id : ℕ) (btype : Option String) (type : FieldType)
    (exact : type ≠ .scalar .double ∧ type ≠ .scalar .float) : Field where
  name := name
  id := id
  type := type
  repeated := false
  packed := false
  map := false
  partOf := false
  btype := btype
  exact := exact

def sampleType : MessageType where
  fullName := "osp.sample"
  fields := [sampleField "kind" 1 none (.enumeration sampleKind) (by simp),
    sampleField "owner" 2 (some "ADDRESS") (.scalar .bytes) (by simp),
    sampleField "height" 3 none (.scalar .uint64) (by simp)]
  sorted := by decide
  small := by decide
  named := by decide
  uninherited := by decide

/-- The writer takes the low 32 bits of a number. -/
def sampleRuntime : Runtime where
  toPrimitives := Protobuf.standard
  sha256 := id
  fromBase64url := fun _ => none
  toBase64url := fun _ => ""
  fromBase58 := fun text => if text = "1B" then some [0, 10] else none
  toBase58 := Library.Base58.encode
  overflow := fun _ members =>
    if members.length = 1 then .ok [8, 1] else .error (.thrown "unsupported")

/-- The text of a number is accepted for the name that has it, and then it is that name. -/
example : canonicalize sampleRuntime.toEncodings [sampleType] sampleRuntime.levels 0
      (.plain [("kind", .string "1")]) "" = .ok [("kind", .string "reply")] ∧
    canonicalize sampleRuntime.toEncodings [sampleType] sampleRuntime.levels 0
      (.plain [("kind", .string "reply")]) "" = .ok [("kind", .integer 1)] := ⟨rfl, rfl⟩

/-- A reply given by name, and the same reply as its canonical object. -/
def sampleReply : ProtoValue :=
  .plain [("kind", .string "reply"), ("owner", .string "1B"), ("height", .integer 7)]

def sampleMembers : ProtoObject :=
  [("kind", .integer 1), ("owner", .bytes [0, 10]), ("height", .string "7")]

end OpenSocial.Sdk.Encoding
