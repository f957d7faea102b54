/-
This file proves what the codec makes of the envelope of a direct message. The
message key is sealed twice, so the envelope is an object that ends with a list of
objects of scalars; such an object is written field by field. An envelope is read
back as it was, and how long it is follows from the lengths of its parts. Only a key
version of 32 bits is encoded.
-/

import OpenSocial.Extension.Primitives
import OpenSocial.Sdk.Messages

namespace OpenSocial.Sdk.Encoding

open Extension

/-! ### Objects of scalars that are read -/

theorem canonicalize_given (encodings : Encodings) {schema : Schema} {levels index : ℕ}
    {object : ProtoValue} {givens : List Given}
    (plain : ∀ field ∈ fieldsArray schema index, field.map = false)
    (has : List.Forall₂ (GivenFor object) (fieldsArray schema index) givens) (path : String) :
    canonicalize encodings schema (levels + 1) index object path =
      .ok (assemble (fieldsArray schema index) (givens.map keptMember)) := by
  unfold canonicalize
  rw [canonicalFields_given encodings plain has path]
  rfl

theorem stands_given {schema : Schema} {levels index : ℕ} {object : ProtoValue}
    {givens : List Given}
    (has : List.Forall₂ (GivenFor object) (fieldsArray schema index) givens) :
    Stands schema (levels + 1) index
      (assemble (fieldsArray schema index) (givens.map keptMember))
      (List.zipWith givenSlot (fieldsArray schema index) givens) :=
  ⟨givens.map keptMember, rfl, placed_given has⟩

/-- A field whose values, of this type, are read as they were written. -/
def ReadBack (field : Field) (type : Protobuf.Scalar) : Prop :=
  field.repeated = false ∧ field.partOf = false ∧ isAddressField field = false ∧
    field.type = .scalar type

/-- A value is filled in as it was. -/
theorem filledMember_given (encodings : Encodings) {nested : ℕ → ProtoObject → ProtoObject}
    {field : Field} {type : Protobuf.Scalar} (back : ReadBack field type) (native : type.Value) :
    filledMember encodings nested field (keptMember (some ⟨type, native⟩)) =
      some (valueOf type native) := by
  obtain ⟨single, part, address, kind⟩ := back
  have exact := field.scalar_exact kind
  unfold keptMember unlessDefault
  dsimp only
  by_cases zero : isZero type native = true
  · rw [zero]
    have absent : absentMember field = some (valueOf type (zeroOf type)) := by
      unfold absentMember
      rw [kind]
      cases type with
      | bytes =>
        dsimp only
        rw [address, if_neg Bool.false_ne_true]
        rfl
      | _ =>
        dsimp only
        rw [part, if_neg Bool.false_ne_true]
        rfl
    rw [(isZero_iff exact native).mp zero, ← absent]
    unfold filledMember
    rw [single]
    rfl
  · rw [Bool.eq_false_iff.mpr zero]
    unfold filledMember filledItem
    rw [single, kind]
    cases type with
    | bytes =>
      show some (if isAddressField field then _ else ProtoValue.bytes native) = _
      rw [address, if_neg Bool.false_ne_true]
      rfl
    | _ => rfl

/-- The members of an object whose defaults are filled in. -/
theorem member_withDefaults (encodings : Encodings) {schema : Schema} {levels index : ℕ}
    {values : List (Option ProtoValue)}
    (same : (fieldsArray schema index).length = values.length) :
    List.Forall₂ (fun field member =>
      (ProtoValue.plain (withDefaults encodings schema (levels + 1) index
        (assemble (fieldsArray schema index) values))).member field.name =
          (filledMember encodings (withDefaults encodings schema levels) field member).getD
            .missing)
      (fieldsArray schema index) values := by
  have zipped : (fieldsArray schema index).length = (List.zipWith (filledMember encodings
      (withDefaults encodings schema levels)) (fieldsArray schema index) values).length := by
    rw [List.length_zipWith, same, min_self]
  have members := map_members (fieldsArray_named schema index) same
    (filledMember encodings (withDefaults encodings schema levels))
  have found := member_assemble zipped
  unfold withDefaults
  rw [members]
  generalize ProtoValue.plain (assemble (fieldsArray schema index) (List.zipWith
    (filledMember encodings (withDefaults encodings schema levels)) (fieldsArray schema index)
      values)) = object at found ⊢
  clear zipped members
  generalize fieldsArray schema index = fields at same found ⊢
  induction fields generalizing values with
  | nil =>
    cases values with
    | nil => exact .nil
    | cons value values => cases same
  | cons field fields inductionHypothesis =>
    cases values with
    | nil => cases same
    | cons value values =>
      rw [List.zipWith_cons_cons] at found
      cases found with
      | cons head rest => exact .cons head (inductionHypothesis (Nat.succ.inj same) rest)

theorem member_at (encodings : Encodings) {schema : Schema} (levels : ℕ) {index : ℕ}
    {values : List (Option ProtoValue)}
    (same : (fieldsArray schema index).length = values.length) {field : Field}
    {value : Option ProtoValue} (place : ℕ)
    (found : (fieldsArray schema index)[place]? = some field)
    (there : values[place]? = some value) :
    (ProtoValue.plain (withDefaults encodings schema (levels + 1) index
      (assemble (fieldsArray schema index) values))).member field.name =
        (filledMember encodings (withDefaults encodings schema levels) field value).getD
          .missing := by
  have all := List.forall₂_iff_get.mp (@member_withDefaults encodings schema levels index _ same)
  obtain ⟨short, rfl⟩ := List.getElem?_eq_some_iff.mp found
  obtain ⟨inside, rfl⟩ := List.getElem?_eq_some_iff.mp there
  exact all.2 place short inside

theorem member_given (encodings : Encodings) {schema : Schema} (levels : ℕ) {index : ℕ}
    {values : List (Option ProtoValue)}
    (same : (fieldsArray schema index).length = values.length) {field : Field}
    {type : Protobuf.Scalar} {native : type.Value} (place : ℕ)
    (found : (fieldsArray schema index)[place]? = some field)
    (there : values[place]? = some (keptMember (some ⟨type, native⟩)))
    (back : ReadBack field type) :
    (ProtoValue.plain (withDefaults encodings schema (levels + 1) index
      (assemble (fieldsArray schema index) values))).member field.name = valueOf type native := by
  rw [member_at encodings levels same place found there, filledMember_given encodings back]
  rfl

/-- A list of objects is filled in object by object. -/
theorem filledMember_objects (encodings : Encodings) {nested : ℕ → ProtoObject → ProtoObject}
    {field : Field} {index : ℕ} (repeated : field.repeated = true)
    (kind : field.type = .message index) {Item : Type} (canonical : Item → ProtoObject)
    (items : List Item) :
    filledMember encodings nested field
        (some (.array (items.map fun item => .plain (canonical item)))) =
      some (.array (items.map fun item => .plain (nested index (canonical item)))) := by
  unfold filledMember
  dsimp only
  rw [if_pos repeated]
  refine congrArg (fun list => some (ProtoValue.array list)) ?_
  show (items.map fun item => ProtoValue.plain (canonical item)).map _ = _
  rw [List.map_map]
  refine List.map_congr_left fun item _ => ?_
  show filledItem encodings nested field (.plain (canonical item)) = _
  unfold filledItem
  rw [kind]
  rfl

/-! ### What is accepted -/

theorem canonicalField_of_fields {encodings : Encodings}
    {nested : ℕ → ProtoValue → String → Except SdkError ProtoObject} {value : ProtoValue}
    {path : String} {fields : List Field} {values : List (Option ProtoValue)}
    (found : canonicalFields encodings nested value path fields = .ok values) :
    ∀ field ∈ fields, ∃ member, canonicalField encodings nested value path field = .ok member := by
  induction fields generalizing values with
  | nil =>
    intro field member
    cases member
  | cons field fields inductionHypothesis =>
    unfold canonicalFields at found
    cases head : canonicalField encodings nested value path field with
    | error error =>
      rw [head] at found
      cases found
    | ok first =>
      rw [head] at found
      cases tail : canonicalFields encodings nested value path fields with
      | error error =>
        rw [tail] at found
        cases found
      | ok others =>
        exact List.forall_mem_cons.mpr ⟨⟨first, head⟩, inductionHypothesis tail⟩

theorem canonicalFields_append {encodings : Encodings}
    {nested : ℕ → ProtoValue → String → Except SdkError ProtoObject} {value : ProtoValue}
    {path : String} {fields more : List Field} {values others : List (Option ProtoValue)}
    (front : canonicalFields encodings nested value path fields = .ok values)
    (back : canonicalFields encodings nested value path more = .ok others) :
    canonicalFields encodings nested value path (fields ++ more) = .ok (values ++ others) := by
  induction fields generalizing values with
  | nil =>
    cases front
    exact back
  | cons field fields inductionHypothesis =>
    rw [List.cons_append]
    unfold canonicalFields at front ⊢
    cases head : canonicalField encodings nested value path field with
    | error error =>
      rw [head] at front
      cases front
    | ok first =>
      rw [head] at front
      cases tail : canonicalFields encodings nested value path fields with
      | error error =>
        rw [tail] at front
        cases front
      | ok rest =>
        rw [tail] at front
        cases front
        rw [inductionHypothesis tail]
        rfl

theorem normalizeScalar_of_items {encodings : Encodings}
    {nested : ℕ → ProtoValue → String → Except SdkError ProtoObject} {field : Field}
    {path : String} {place : ℕ} {items results : List ProtoValue}
    (normalized : normalizeItems encodings nested field path place items = .ok results) :
    ∀ item ∈ items, ∃ spot result,
      normalizeScalar encodings nested field item spot false = .ok result := by
  induction items generalizing place results with
  | nil =>
    intro item member
    cases member
  | cons item items inductionHypothesis =>
    unfold normalizeItems at normalized
    cases head : normalizeScalar encodings nested field item
        (path ++ "[" ++ toString place ++ "]") false with
    | error error =>
      rw [head] at normalized
      cases normalized
    | ok first =>
      rw [head] at normalized
      cases tail : normalizeItems encodings nested field path (place + 1) items with
      | error error =>
        rw [tail] at normalized
        cases normalized
      | ok others =>
        exact List.forall_mem_cons.mpr ⟨⟨_, first, head⟩, inductionHypothesis tail⟩

/-- A number that is accepted for a field of 32 bits has so many. -/
theorem fits_of_uint32 {encodings : Encodings}
    {nested : ℕ → ProtoValue → String → Except SdkError ProtoObject} {value : ProtoValue}
    {path : String} {field : Field} {number : ℤ} {member : Option ProtoValue}
    (plain : field.map = false) (single : field.repeated = false)
    (kind : field.type = .scalar .uint32) (has : value.member field.name = .integer number)
    (found : canonicalField encodings nested value path field = .ok member) :
    0 ≤ number ∧ number ≤ uint32Max := by
  have present : value.member field.name ≠ .missing := by
    rw [has]
    intro same
    cases same
  have bounded : bounds .uint32 = (0, uint32Max) := rfl
  rw [canonicalField_present plain present, has] at found
  unfold canonicalValue normalizeScalar at found
  rw [single, if_neg Bool.false_ne_true, kind] at found
  dsimp only at found
  rw [normalizeOf_integer encodings (by decide), bounded] at found
  cases read : integerOf (typeName .uint32) (.integer number) (path ++ "." ++ field.name) 0
      uint32Max with
  | error error =>
    rw [read] at found
    cases found
  | ok other =>
    obtain ⟨same, low, high⟩ := integerOf_eq_ok.mp read
    cases same
    exact ⟨low, high⟩

/-- The objects of a list, when each of them is accepted anywhere. -/
theorem normalizeItems_objects {encodings : Encodings}
    {nested : ℕ → ProtoValue → String → Except SdkError ProtoObject} {field : Field} {index : ℕ}
    (kind : field.type = .message index) {Item : Type} {object : Item → ProtoValue}
    {canonical : Item → ProtoObject} {items : List Item}
    (objects : ∀ item ∈ items, (object item).isObject = true)
    (accepted : ∀ item ∈ items, ∀ path, nested index (object item) path = .ok (canonical item))
    (path : String) (place : ℕ) :
    normalizeItems encodings nested field path place (items.map object) =
      .ok (items.map fun item => .plain (canonical item)) := by
  induction items generalizing place with
  | nil => rfl
  | cons item items inductionHypothesis =>
    rw [List.forall_mem_cons] at objects accepted
    rw [List.map_cons, List.map_cons]
    have first : ∀ path, normalizeScalar encodings nested field (object item) path false =
        .ok (some (.plain (canonical item))) := by
      intro path
      unfold normalizeScalar
      rw [kind]
      dsimp only
      rw [if_pos objects.1, accepted.1]
      rfl
    unfold normalizeItems
    rw [first, inductionHypothesis objects.2 accepted.2]
    rfl

/-- A list of them that is not empty. -/
theorem canonicalField_objects {encodings : Encodings}
    {nested : ℕ → ProtoValue → String → Except SdkError ProtoObject} {value : ProtoValue}
    {field : Field} {index : ℕ} (plain : field.map = false) (repeated : field.repeated = true)
    (kind : field.type = .message index) {Item : Type} {object : Item → ProtoValue}
    {canonical : Item → ProtoObject} {items : List Item} (filled : items ≠ [])
    (has : value.member field.name = .array (items.map object))
    (objects : ∀ item ∈ items, (object item).isObject = true)
    (accepted : ∀ item ∈ items, ∀ path, nested index (object item) path = .ok (canonical item))
    (path : String) :
    canonicalField encodings nested value path field =
      .ok (some (.array (items.map fun item => .plain (canonical item)))) := by
  have present : value.member field.name ≠ .missing := by
    rw [has]
    intro same
    cases same
  have more : (items.map object).isEmpty = false := by
    rw [List.isEmpty_map, List.isEmpty_eq_false_iff]
    exact filled
  rw [canonicalField_present plain present, has]
  unfold canonicalValue
  rw [if_pos repeated]
  dsimp only
  rw [more, if_neg Bool.false_ne_true, normalizeItems_objects kind objects accepted]
  rfl

theorem items_of_field {encodings : Encodings}
    {nested : ℕ → ProtoValue → String → Except SdkError ProtoObject} {value : ProtoValue}
    {path : String} {field : Field} {items : List ProtoValue} {member : Option ProtoValue}
    (plain : field.map = false) (repeated : field.repeated = true)
    (filled : items.isEmpty = false) (has : value.member field.name = .array items)
    (found : canonicalField encodings nested value path field = .ok member) :
    ∃ spot results, normalizeItems encodings nested field spot 0 items = .ok results := by
  have present : value.member field.name ≠ .missing := by
    rw [has]
    intro same
    cases same
  rw [canonicalField_present plain present, has] at found
  unfold canonicalValue at found
  rw [if_pos repeated] at found
  dsimp only at found
  rw [filled, if_neg Bool.false_ne_true] at found
  cases normalized : normalizeItems encodings nested field (path ++ "." ++ field.name) 0 items with
  | error error =>
    rw [normalized] at found
    cases found
  | ok results => exact ⟨_, results, normalized⟩

theorem object_of_scalar {encodings : Encodings}
    {nested : ℕ → ProtoValue → String → Except SdkError ProtoObject} {field : Field} {index : ℕ}
    (kind : field.type = .message index) {raw : ProtoValue} {path : String}
    {result : Option ProtoValue}
    (normalized : normalizeScalar encodings nested field raw path false = .ok result) :
    ∃ members, nested index raw path = .ok members := by
  unfold normalizeScalar at normalized
  rw [kind] at normalized
  dsimp only at normalized
  by_cases object : raw.isObject = true
  · rw [if_pos object] at normalized
    cases inner : nested index raw path with
    | error error =>
      rw [inner] at normalized
      cases normalized
    | ok members => exact ⟨members, rfl⟩
  · rw [if_neg object] at normalized
    cases normalized

/-! ### Objects with a list of objects of scalars -/

/-- An object whose last field is a list of objects of scalars. -/
structure Listed (schema : Schema) (index : ℕ) (object : ProtoValue) (front : List Field)
    (last : Field) (inner : ℕ) (givens : List Given) {Item : Type} (itemObject : Item → ProtoValue)
    (givensOf : Item → List Given) (items : List Item) : Prop where
  fields : fieldsArray schema index = front ++ [last]
  plain : ∀ field ∈ front, field.map = false
  lastPlain : last.map = false
  repeated : last.repeated = true
  kind : last.type = .message inner
  itemPlain : ∀ field ∈ fieldsArray schema inner, field.map = false
  has : List.Forall₂ (GivenFor object) front givens
  filled : items ≠ []
  member : object.member last.name = .array (items.map itemObject)
  objects : ∀ item ∈ items, (itemObject item).isObject = true
  items : ∀ item ∈ items,
    List.Forall₂ (GivenFor (itemObject item)) (fieldsArray schema inner) (givensOf item)

/-- What an object of the list is kept as, what stands for it, and what is written of it. -/
def itemCanonical (schema : Schema) (inner : ℕ) (givens : List Given) : ProtoObject :=
  assemble (fieldsArray schema inner) (givens.map keptMember)

def itemSlots (schema : Schema) (inner : ℕ) (givens : List Given) : List Protobuf.Slot :=
  List.zipWith givenSlot (fieldsArray schema inner) givens

def itemBytes (primitives : Protobuf.Primitives) (schema : Schema) (inner : ℕ) (last : Field)
    (givens : List Given) : Bytes :=
  Protobuf.writeTag primitives last.runtime 2 ++ Protobuf.ldelim primitives
    (List.zipWith (fieldBytes primitives) (fieldsArray schema inner) givens).flatten

theorem Placed.append {relation : Field → Option ProtoValue → Protobuf.Slot → Prop}
    {fields more : List Field} {members others : List (Option ProtoValue)}
    {slots rest : List Protobuf.Slot} (front : Placed relation fields members slots)
    (back : Placed relation more others rest) :
    Placed relation (fields ++ more) (members ++ others) (slots ++ rest) := by
  induction front with
  | nil => exact back
  | cons head _ inductionHypothesis => exact .cons head inductionHypothesis

section Listed

variable {schema : Schema} {index inner : ℕ} {object : ProtoValue} {front : List Field}
variable {last : Field} {givens : List Given} {Item : Type} {itemObject : Item → ProtoValue}
variable {givensOf : Item → List Given} {items : List Item}

/-- The values of its canonical object. -/
def listedValues (schema : Schema) (inner : ℕ) (givens : List Given) (givensOf : Item → List Given)
    (items : List Item) : List (Option ProtoValue) :=
  givens.map keptMember ++
    [some (.array (items.map fun item => .plain (itemCanonical schema inner (givensOf item))))]

/-- The slots of the message it stands for. -/
def listedSlots (schema : Schema) (inner : ℕ) (front : List Field) (givens : List Given)
    (givensOf : Item → List Given) (items : List Item) : List Protobuf.Slot :=
  List.zipWith givenSlot front givens ++
    [.list (items.map fun item => .message (itemSlots schema inner (givensOf item)))]

/-- What is written of it. -/
def listedBytes (primitives : Protobuf.Primitives) (schema : Schema) (inner : ℕ)
    (front : List Field) (last : Field) (givens : List Given) (givensOf : Item → List Given)
    (items : List Item) : Bytes :=
  (List.zipWith (fieldBytes primitives) front givens).flatten ++
    (items.map fun item => itemBytes primitives schema inner last (givensOf item)).flatten

theorem Listed.canonicalize (encodings : Encodings) {levels : ℕ}
    (listed : Listed schema index object front last inner givens itemObject givensOf items)
    (path : String) :
    canonicalize encodings schema (levels + 2) index object path =
      .ok (assemble (fieldsArray schema index)
        (listedValues schema inner givens givensOf items)) := by
  have before := @canonicalFields_given encodings
    (Encoding.canonicalize encodings schema (levels + 1)) front listed.plain object givens
    listed.has path
  have keys : canonicalField encodings (Encoding.canonicalize encodings schema (levels + 1)) object
      path last = .ok (some (.array (items.map fun item =>
        .plain (itemCanonical schema inner (givensOf item))))) :=
    canonicalField_objects listed.lastPlain listed.repeated listed.kind listed.filled
      listed.member listed.objects
      (fun item member path => canonicalize_given encodings listed.itemPlain
        (listed.items item member) path) path
  have behind : canonicalFields encodings (Encoding.canonicalize encodings schema (levels + 1))
      object path [last] = .ok [some (.array (items.map fun item =>
        .plain (itemCanonical schema inner (givensOf item))))] := by
    unfold canonicalFields
    rw [keys]
    rfl
  have whole := canonicalFields_append before behind
  rw [← listed.fields] at whole
  show (canonicalFields encodings _ object path (fieldsArray schema index)).bind _ = _
  rw [whole]
  rfl

theorem Listed.stands {levels : ℕ}
    (listed : Listed schema index object front last inner givens itemObject givensOf items) :
    Stands schema (levels + 2) index
      (assemble (fieldsArray schema index) (listedValues schema inner givens givensOf items))
      (listedSlots schema inner front givens givensOf items) := by
  refine ⟨listedValues schema inner givens givensOf items, rfl, ?_⟩
  have inside : List.Forall₂ (ItemStands (Stands schema (levels + 1)) last)
      (items.map fun item => .plain (itemCanonical schema inner (givensOf item)))
      (items.map fun item => .message (itemSlots schema inner (givensOf item))) := by
    rw [List.forall₂_map_left_iff, List.forall₂_map_right_iff, List.forall₂_same]
    intro item member
    exact ⟨inner, itemCanonical schema inner (givensOf item), listed.kind, rfl,
      stands_given (listed.items item member)⟩
  have full : (items.map fun item =>
      Protobuf.Item.message (itemSlots schema inner (givensOf item))) ≠ [] :=
    fun same => listed.filled (List.map_eq_nil_iff.mp same)
  have slot : SlotStands (Stands schema (levels + 1)) last
      (some (.array (items.map fun item => .plain (itemCanonical schema inner (givensOf item)))))
      (.list (items.map fun item => .message (itemSlots schema inner (givensOf item)))) :=
    ⟨listed.repeated, full, _, rfl, inside⟩
  rw [listed.fields]
  exact (placed_given listed.has).append (.cons slot .nil)

theorem encodeFields_append (primitives : Protobuf.Primitives)
    {nested : ℕ → List Protobuf.Slot → Except Protobuf.ProtobufError Bytes}
    {fields more : List Protobuf.Field} {slots others : List Protobuf.Slot} {bytes rest : Bytes}
    (front : Protobuf.encodeFields primitives nested fields slots = .ok bytes)
    (back : Protobuf.encodeFields primitives nested more others = .ok rest) :
    Protobuf.encodeFields primitives nested (fields ++ more) (slots ++ others) =
      .ok (bytes ++ rest) := by
  induction fields generalizing slots bytes with
  | nil =>
    cases slots with
    | nil =>
      cases front
      exact back
    | cons slot slots => cases front
  | cons field fields inductionHypothesis =>
    cases slots with
    | nil => cases front
    | cons slot slots =>
      rw [List.cons_append, List.cons_append]
      unfold Protobuf.encodeFields at front ⊢
      cases head : Protobuf.encodeSlot primitives nested field slot with
      | error error =>
        rw [head] at front
        cases front
      | ok first =>
        rw [head] at front
        cases tail : Protobuf.encodeFields primitives nested fields slots with
        | error error =>
          rw [tail] at front
          cases front
        | ok others =>
          rw [tail] at front
          cases front
          rw [inductionHypothesis tail, List.append_assoc]
          rfl

theorem encodeItems_listed (primitives : Protobuf.Primitives) {levels : ℕ}
    (items : List Item) (each : ∀ item ∈ items,
      List.Forall₂ (GivenFor (itemObject item)) (fieldsArray schema inner) (givensOf item))
    (kind : last.type = .message inner) :
    Protobuf.encodeItems primitives (Protobuf.encodeMessage primitives (runtimeSchema schema)
        (levels + 1)) last.runtime
        (items.map fun item => .message (itemSlots schema inner (givensOf item))) =
      .ok (items.map fun item =>
        itemBytes primitives schema inner last (givensOf item)).flatten := by
  induction items with
  | nil => rfl
  | cons item items inductionHypothesis =>
    rw [List.forall_mem_cons] at each
    have inside : Protobuf.encodeMessage primitives (runtimeSchema schema) (levels + 1) inner
        (itemSlots schema inner (givensOf item)) =
          .ok (List.zipWith (fieldBytes primitives) (fieldsArray schema inner)
            (givensOf item)).flatten := by
      unfold Protobuf.encodeMessage
      rw [sortedFields_runtime]
      exact encodeFields_given primitives each.1
    have typed : last.runtime.type = .message inner := by
      show last.type.runtime = _
      rw [kind]
      rfl
    have first : Protobuf.encodeItem primitives (Protobuf.encodeMessage primitives
        (runtimeSchema schema) (levels + 1)) last.runtime
          (.message (itemSlots schema inner (givensOf item))) =
            .ok (itemBytes primitives schema inner last (givensOf item)) := by
      unfold Protobuf.encodeItem
      rw [typed]
      dsimp only
      rw [inside]
      rfl
    rw [List.map_cons, List.map_cons]
    unfold Protobuf.encodeItems
    rw [first, inductionHypothesis each.2]
    rfl

theorem unpacked_listed (kind : last.type = .message inner) :
    Protobuf.packedType last.runtime = none := by
  have typed : last.runtime.type = .message inner := by
    show last.type.runtime = _
    rw [kind]
    rfl
  unfold Protobuf.packedType Protobuf.scalarType
  rw [typed]
  simp

/-- The list is written behind the fields before it. -/
theorem Listed.written {runtime : Runtime} {levels : ℕ} (deep : runtime.levels = levels + 2)
    (limit : ∃ more, runtime.recursionLimit = more + 1)
    (listed : Listed schema index object front last inner givens itemObject givensOf items) :
    written runtime schema index
        (assemble (fieldsArray schema index) (listedValues schema inner givens givensOf items)) =
      .ok (listedBytes runtime.toPrimitives schema inner front last givens givensOf items) := by
  obtain ⟨more, isMore⟩ := limit
  have found : Stands schema runtime.levels index
      (assemble (fieldsArray schema index) (listedValues schema inner givens givensOf items))
      (listedSlots schema inner front givens givensOf items) := by
    rw [deep]
    exact listed.stands
  rw [written_stands found, isMore]
  unfold Protobuf.encodeMessage
  rw [sortedFields_runtime, listed.fields, List.map_append]
  have before := @encodeFields_given runtime.toPrimitives (Protobuf.encodeMessage
    runtime.toPrimitives (runtimeSchema schema) (more + 1)) front object givens listed.has
  refine encodeFields_append runtime.toPrimitives before ?_
  have filled : (items.map fun item =>
      Protobuf.Item.message (itemSlots schema inner (givensOf item))).isEmpty = false := by
    rw [List.isEmpty_map, List.isEmpty_eq_false_iff]
    exact listed.filled
  have slot : Protobuf.encodeSlot runtime.toPrimitives (Protobuf.encodeMessage
      runtime.toPrimitives (runtimeSchema schema) (more + 1)) last.runtime
        (.list (items.map fun item => .message (itemSlots schema inner (givensOf item)))) =
          .ok (items.map fun item =>
            itemBytes runtime.toPrimitives schema inner last (givensOf item)).flatten := by
    have rule : ¬ last.runtime.rule ≠ Protobuf.FieldRule.repeated :=
      fun other => other ((rule_repeated last).mpr listed.repeated)
    unfold Protobuf.encodeSlot
    dsimp only
    rw [if_neg rule, filled, if_neg Bool.false_ne_true, unpacked_listed listed.kind]
    exact encodeItems_listed runtime.toPrimitives items listed.items listed.kind
  show Protobuf.encodeFields runtime.toPrimitives _ [last.runtime] [_] = _
  unfold Protobuf.encodeFields
  rw [slot]
  show Except.ok (_ ++ []) = _
  rw [List.append_nil]

end Listed

end OpenSocial.Sdk.Encoding

namespace OpenSocial.Sdk.Messages

open Library.Wire Encoding Extension

/-! ### Sealed keys -/

/-- A sealed key whose key version has 32 bits. -/
def VersionFits (key : SealedKey) : Prop :=
  0 ≤ key.recipient_key_version ∧ key.recipient_key_version ≤ uint32Max

def keyGivens (key : SealedKey) : List Given :=
  [some ⟨.bytes, key.recipient⟩, some ⟨.uint32, UInt32.ofInt key.recipient_key_version⟩,
    some ⟨.bytes, key.ephemeral_public_key⟩, some ⟨.bytes, key.nonce⟩,
    some ⟨.bytes, key.ciphertext⟩]

/-- Its canonical object. -/
def canonicalKey (key : SealedKey) : ProtoObject :=
  assemble sealedKeyType.fields ((keyGivens key).map keptMember)

theorem valueOf_uint32 (value : UInt32) : valueOf .uint32 value = .integer value.toNat := rfl

theorem valueOf_version {key : SealedKey} (fits : VersionFits key) :
    valueOf .uint32 (UInt32.ofInt key.recipient_key_version) =
      .integer key.recipient_key_version := by
  rw [valueOf_uint32, toNat_ofInt32 fits.1 fits.2]

theorem given_key {key : SealedKey} (fits : VersionFits key) :
    List.Forall₂ (GivenFor (sealedKeyObject key)) sealedKeyType.fields (keyGivens key) :=
  .cons ⟨rfl, rfl, rfl⟩ (.cons ⟨rfl, rfl, (valueOf_version fits).symm⟩ (.cons ⟨rfl, rfl, rfl⟩
    (.cons ⟨rfl, rfl, rfl⟩ (.cons ⟨rfl, rfl, rfl⟩ .nil))))

/-- No other key version is encoded. -/
theorem fits_of_canonicalize {encodings : Encodings} {levels : ℕ} {key : SealedKey} {path : String}
    {members : ProtoObject}
    (accepted : canonicalize encodings messageSchema (levels + 1) 0 (sealedKeyObject key) path =
      .ok members) : VersionFits key := by
  unfold canonicalize at accepted
  cases found : canonicalFields encodings (canonicalize encodings messageSchema levels)
      (sealedKeyObject key) path (fieldsArray messageSchema 0) with
  | error error =>
    rw [found] at accepted
    cases accepted
  | ok values =>
    obtain ⟨member, version⟩ := canonicalField_of_fields found
      (documentField "recipient_key_version" 2 (.scalar .uint32) false exact_uint32)
      (List.mem_cons_of_mem _ List.mem_cons_self)
    exact fits_of_uint32 rfl rfl rfl rfl version

theorem readBack_bytes (name : String) (id : ℕ) :
    ReadBack (documentField name id (.scalar .bytes) false exact_bytes) .bytes := ⟨rfl, rfl, rfl, rfl⟩

theorem readBack_uint32 (name : String) (id : ℕ) :
    ReadBack (documentField name id (.scalar .uint32) false exact_uint32) .uint32 :=
  ⟨rfl, rfl, rfl, rfl⟩

theorem bytesAt_eq {object : ProtoValue} {name : String} {data : Bytes}
    (found : object.member name = valueOf .bytes data) : bytesAt object name = data := by
  unfold bytesAt
  rw [found]
  rfl

theorem numberAt_eq {object : ProtoValue} {name : String} {number : ℤ}
    (found : object.member name = .integer number) : numberAt object name = number := by
  unfold numberAt
  rw [found]

/-- A sealed key is read as it was. -/
theorem sealedKeyOf_canonical (encodings : Encodings) {levels : ℕ} {key : SealedKey}
    (fits : VersionFits key) :
    sealedKeyOf (.plain (withDefaults encodings messageSchema (levels + 1) 0 (canonicalKey key))) =
      key := by
  have long : (fieldsArray messageSchema 0).length = ((keyGivens key).map keptMember).length := rfl
  have recipient := member_given encodings levels long 0 rfl rfl (readBack_bytes "recipient" 1)
  have version := member_given encodings levels long 1 rfl rfl
    (readBack_uint32 "recipient_key_version" 2)
  have ephemeral := member_given encodings levels long 2 rfl rfl
    (readBack_bytes "ephemeral_public_key" 3)
  have nonce := member_given encodings levels long 3 rfl rfl (readBack_bytes "nonce" 4)
  have ciphertext := member_given encodings levels long 4 rfl rfl (readBack_bytes "ciphertext" 5)
  rw [valueOf_version fits] at version
  unfold sealedKeyOf
  have first := bytesAt_eq recipient
  have second := numberAt_eq version
  have third := bytesAt_eq ephemeral
  have fourth := bytesAt_eq nonce
  have fifth := bytesAt_eq ciphertext
  exact congr (congr (congr (congr (congrArg SealedKey.mk first) second) third) fourth) fifth

/-! ### Message envelopes -/

/-- The field of the keys. -/
def keysField : Field := documentField "keys" 4 (.message 0) true exact_nested

/-- What an envelope of version 1 has for its first three fields, and what all are kept as. -/
def messageGivens (envelope : MessageEnvelope) : List Given :=
  [some ⟨.uint32, 1⟩, some ⟨.bytes, envelope.nonce⟩, some ⟨.bytes, envelope.ciphertext⟩]

def messageValues (envelope : MessageEnvelope) : List (Option ProtoValue) :=
  (messageGivens envelope).map keptMember ++
    [some (.array (envelope.keys.map fun key => .plain (canonicalKey key)))]

def canonicalMessage (envelope : MessageEnvelope) : ProtoObject :=
  assemble directMessageEnvelopeType.fields (messageValues envelope)

/-- An envelope that is encoded. -/
structure Encodable (envelope : MessageEnvelope) : Prop where
  version : envelope.version = 1
  keys : envelope.keys ≠ []
  fits : ∀ key ∈ envelope.keys, VersionFits key

section Envelopes

variable {encodings : Encodings} {levels : ℕ} {envelope : MessageEnvelope}

theorem given_message (version : envelope.version = 1) :
    List.Forall₂ (GivenFor (messageObject envelope)) (directMessageEnvelopeType.fields.take 3)
      (messageGivens envelope) := by
  refine .cons ⟨rfl, rfl, ?_⟩ (.cons ⟨rfl, rfl, rfl⟩ (.cons ⟨rfl, rfl, rfl⟩ .nil))
  exact congrArg ProtoValue.integer version

/-- An envelope ends with the list of its keys. -/
theorem listed_message (encodable : Encodable envelope) :
    Listed messageSchema 1 (messageObject envelope) (directMessageEnvelopeType.fields.take 3)
      keysField 0 (messageGivens envelope) sealedKeyObject keyGivens envelope.keys where
  fields := rfl
  plain := by decide
  lastPlain := rfl
  repeated := rfl
  kind := rfl
  itemPlain := by decide
  has := given_message encodable.version
  filled := encodable.keys
  member := rfl
  objects := fun _ _ => rfl
  items := fun key member => given_key (encodable.fits key member)

theorem canonicalize_message (encodable : Encodable envelope) (path : String) :
    canonicalize encodings messageSchema (levels + 2) 1 (messageObject envelope) path =
      .ok (canonicalMessage envelope) := (listed_message encodable).canonicalize encodings path

/-- Only such an envelope is encoded. -/
theorem fits_of_message {path : String} {members : ProtoObject}
    (accepted : canonicalize encodings messageSchema (levels + 2) 1 (messageObject envelope) path =
      .ok members) : ∀ key ∈ envelope.keys, VersionFits key := by
  intro key member
  have filled : (envelope.keys.map sealedKeyObject).isEmpty = false := by
    rw [List.isEmpty_map, List.isEmpty_eq_false_iff]
    exact List.ne_nil_of_mem member
  unfold canonicalize at accepted
  cases found : canonicalFields encodings (canonicalize encodings messageSchema (levels + 1))
      (messageObject envelope) path (fieldsArray messageSchema 1) with
  | error error =>
    rw [found] at accepted
    cases accepted
  | ok values =>
    obtain ⟨value, keys⟩ := canonicalField_of_fields found
      (documentField "keys" 4 (.message 0) true exact_nested)
      (List.mem_of_mem_getLast? rfl)
    obtain ⟨spot, results, items⟩ := items_of_field rfl rfl filled rfl keys
    obtain ⟨spot, result, normalized⟩ := normalizeScalar_of_items items (sealedKeyObject key)
      (List.mem_map_of_mem member)
    obtain ⟨members, inner⟩ := object_of_scalar rfl normalized
    exact fits_of_canonicalize inner

/-- The message of an envelope. -/
def keySlots (key : SealedKey) : List Protobuf.Slot :=
  List.zipWith givenSlot sealedKeyType.fields (keyGivens key)

def messageSlots (envelope : MessageEnvelope) : List Protobuf.Slot :=
  List.zipWith givenSlot (directMessageEnvelopeType.fields.take 3) (messageGivens envelope) ++
    [.list (envelope.keys.map fun key => .message (keySlots key))]

theorem stands_message (encodable : Encodable envelope) :
    Stands messageSchema (levels + 2) 1 (canonicalMessage envelope) (messageSlots envelope) :=
  (listed_message encodable).stands

/-- An envelope is read as it was. -/
theorem messageEnvelopeOf_canonical (encodable : Encodable envelope) :
    messageEnvelopeOf (.plain (withDefaults encodings messageSchema (levels + 2) 1
      (canonicalMessage envelope))) = envelope := by
  have long : (fieldsArray messageSchema 1).length = (messageValues envelope).length := rfl
  have version := member_given encodings (levels + 1) long 0 rfl rfl (readBack_uint32 "version" 1)
  have nonce := member_given encodings (levels + 1) long 1 rfl rfl (readBack_bytes "nonce" 2)
  have ciphertext := member_given encodings (levels + 1) long 2 rfl rfl
    (readBack_bytes "ciphertext" 3)
  have keys := @member_at encodings messageSchema (levels + 1) 1 _ long
    (documentField "keys" 4 (.message 0) true exact_nested) _ 3 rfl rfl
  rw [filledMember_objects encodings rfl rfl] at keys
  have first := numberAt_eq version
  have second := bytesAt_eq nonce
  have third := bytesAt_eq ciphertext
  have items : ∀ object : ProtoValue, object.member "keys" = .array (envelope.keys.map fun key =>
      .plain (withDefaults encodings messageSchema (levels + 1) 0 (canonicalKey key))) →
        (itemsOf (object.member "keys")).map sealedKeyOf = envelope.keys := by
    intro object found
    rw [found]
    show (envelope.keys.map _).map sealedKeyOf = _
    rw [List.map_map]
    refine Eq.trans (List.map_congr_left fun key member => ?_) (List.map_id _)
    exact sealedKeyOf_canonical encodings (encodable.fits key member)
  have fourth := items _ keys
  unfold messageEnvelopeOf
  refine Eq.trans (congr (congr (congr (congrArg MessageEnvelope.mk first) second) third) fourth) ?_
  have same := encodable.version
  cases envelope with
  | mk number _ _ _ =>
    cases same
    rfl

end Envelopes

/-! ### Written envelopes -/

/-- What is written of a sealed key and of an envelope. -/
def keyBytes (key : SealedKey) : Bytes :=
  (List.zipWith (fieldBytes Protobuf.standard) sealedKeyType.fields (keyGivens key)).flatten

def keyItem (key : SealedKey) : Bytes :=
  Protobuf.writeTag Protobuf.standard keysField.runtime 2 ++
    Protobuf.ldelim Protobuf.standard (keyBytes key)

def messageBytes (envelope : MessageEnvelope) : Bytes :=
  (List.zipWith (fieldBytes Protobuf.standard) (directMessageEnvelopeType.fields.take 3)
    (messageGivens envelope)).flatten ++ (envelope.keys.map keyItem).flatten

section Written

variable {envelope : MessageEnvelope}

theorem written_message (encodable : Encodable envelope) :
    written messageCodec messageSchema DIRECT_MESSAGE_ENVELOPE (canonicalMessage envelope) =
      .ok (messageBytes envelope) :=
  (listed_message encodable).written (show messageCodec.levels = 99 + 2 from rfl) ⟨99, rfl⟩

/-- An envelope that fits into a buffer is written. -/
theorem encodeMessageEnvelope_eq (encodable : Encodable envelope)
    (short : (messageBytes envelope).length < 2 ^ 32) :
    encodeMessageEnvelope envelope = .ok (messageBytes envelope) := by
  have accepted : canonicalize messageCodec.toEncodings messageSchema messageCodec.levels
      DIRECT_MESSAGE_ENVELOPE (messageObject envelope) ".osp.envelope.direct_message_envelope" =
        .ok (canonicalMessage envelope) :=
    @canonicalize_message messageCodec.toEncodings 99 envelope encodable _
  have finished : Protobuf.finish (messageBytes envelope) = .ok (messageBytes envelope) :=
    if_pos short
  unfold encodeMessageEnvelope
  rw [encode_accepted accepted, written_message encodable]
  show ((((Protobuf.finish (messageBytes envelope)).mapError thrown).bind Except.ok).mapError
    MessageError.sdk) = _
  rw [finished]
  rfl

/-- It is read as it was. -/
theorem decodeMessageEnvelope_eq (encodable : Encodable envelope)
    (short : (messageBytes envelope).length < 2 ^ 32) :
    decodeMessageEnvelope (messageBytes envelope) = .ok envelope := by
  have accepted : canonicalize messageCodec.toEncodings messageSchema messageCodec.levels
      DIRECT_MESSAGE_ENVELOPE (messageObject envelope) ".osp.envelope.direct_message_envelope" =
        .ok (canonicalMessage envelope) :=
    @canonicalize_message messageCodec.toEncodings 99 envelope encodable _
  have found : Stands messageSchema messageCodec.levels DIRECT_MESSAGE_ENVELOPE
      (canonicalMessage envelope) (messageSlots envelope) := @stands_message 99 envelope encodable
  have room : ∀ bytes, written messageCodec messageSchema DIRECT_MESSAGE_ENVELOPE
      (canonicalMessage envelope) = .ok bytes → bytes.length < 2 ^ 32 := by
    intro bytes same
    rw [written_message encodable] at same
    cases same
    exact short
  obtain ⟨bytes, encoded, back⟩ := decode_stands Protobuf.standard_correct accepted found room
  have same := encodeMessageEnvelope_eq encodable short
  unfold encodeMessageEnvelope at same
  rw [encoded] at same
  cases same
  unfold decodeMessageEnvelope
  have enough : messageCodec.levels ≤ messageCodec.readerLimit + 1 := Nat.le_refl 101
  rw [decode_eq_ok back, decoded_stands messageCodec.toEncodings enough found]
  exact congrArg Except.ok (@messageEnvelopeOf_canonical messageCodec.toEncodings 99 envelope
    encodable)

/-- Whatever envelope is encoded has key versions of 32 bits. -/
theorem fits_of_encoded {bytes : Bytes} (accepted : encodeMessageEnvelope envelope = .ok bytes) :
    ∀ key ∈ envelope.keys, VersionFits key := by
  unfold encodeMessageEnvelope Encoding.encode at accepted
  cases found : canonicalize messageCodec.toEncodings messageSchema messageCodec.levels
      DIRECT_MESSAGE_ENVELOPE (messageObject envelope) ".osp.envelope.direct_message_envelope" with
  | error error =>
    rw [found] at accepted
    cases accepted
  | ok members => exact @fits_of_message messageCodec.toEncodings 99 envelope _ members found

end Written

/-! ### Lengths -/

/-- A sealed key whose parts are as long as they are made. -/
structure Sized (key : SealedKey) : Prop where
  recipient : key.recipient.length = 25
  ephemeral : key.ephemeral_public_key.length = 32
  nonce : key.nonce.length = 24
  ciphertext : key.ciphertext.length = 48

theorem length_uint32_le (value : UInt32) :
    (Protobuf.standard.write .uint32 value).length ≤ 5 := by
  show (varint 4 value.toNat).length ≤ 4 + 1
  exact length_varint_le (lt_trans value.toNat_lt (by norm_num))

theorem length_writeTag_le (field : Protobuf.Field) (wireType : ℕ) :
    (Protobuf.writeTag Protobuf.standard field wireType).length ≤ 5 := length_uint32_le _

theorem length_field_uint32_le (field : Field) (value : UInt32) :
    (fieldBytes Protobuf.standard field (some ⟨.uint32, value⟩)).length ≤ 10 := by
  unfold fieldBytes
  dsimp only
  by_cases zero : isZero .uint32 value = true
  · rw [if_pos zero]
    exact Nat.zero_le _
  · rw [if_neg zero, List.length_append]
    exact Nat.add_le_add (length_writeTag_le _ _) (length_uint32_le value)

theorem length_field_bytes_le (field : Field) {data : Bytes} (short : data.length < 128 ^ 2) :
    (fieldBytes Protobuf.standard field (some ⟨.bytes, data⟩)).length ≤ 7 + data.length := by
  unfold fieldBytes
  dsimp only
  by_cases zero : isZero .bytes data = true
  · rw [if_pos zero]
    exact Nat.zero_le _
  · rw [if_neg zero, List.length_append]
    have tag := length_writeTag_le field.runtime (Protobuf.basic .bytes)
    have framed : (varint data.length data.length ++ data).length ≤ 2 + data.length := by
      rw [List.length_append]
      exact Nat.add_le_add_right (length_varint_le short) _
    have whole : (Protobuf.standard.write .bytes data).length ≤ 2 + data.length := framed
    omega

theorem length_keyBytes_le {key : SealedKey} (sized : Sized key) :
    (keyBytes key).length ≤ 167 := by
  have recipient := @length_field_bytes_le (documentField "recipient" 1 (.scalar .bytes) false
    exact_bytes) key.recipient (by rw [sized.recipient]; decide)
  have version := length_field_uint32_le (documentField "recipient_key_version" 2 (.scalar .uint32)
    false exact_uint32) (UInt32.ofInt key.recipient_key_version)
  have ephemeral := @length_field_bytes_le (documentField "ephemeral_public_key" 3 (.scalar .bytes)
    false exact_bytes) key.ephemeral_public_key (by rw [sized.ephemeral]; decide)
  have nonce := @length_field_bytes_le (documentField "nonce" 4 (.scalar .bytes) false
    exact_bytes) key.nonce (by rw [sized.nonce]; decide)
  have ciphertext := @length_field_bytes_le (documentField "ciphertext" 5 (.scalar .bytes) false
    exact_bytes) key.ciphertext (by rw [sized.ciphertext]; decide)
  rw [sized.recipient] at recipient
  rw [sized.ephemeral] at ephemeral
  rw [sized.nonce] at nonce
  rw [sized.ciphertext] at ciphertext
  have parts : (keyBytes key).length = _ + (_ + (_ + (_ + (_ + 0)))) := List.length_flatten
  omega

theorem length_keyItem_le {key : SealedKey} (sized : Sized key) : (keyItem key).length ≤ 177 := by
  have tag := length_writeTag_le keysField.runtime 2
  have header := length_uint32_le (UInt32.ofNat (keyBytes key).length)
  have content := length_keyBytes_le sized
  unfold keyItem Protobuf.ldelim
  rw [List.length_append, List.length_append]
  omega

/-- The envelope of the longest text still fits. -/
theorem length_messageBytes_le {envelope : MessageEnvelope} (two : envelope.keys.length = 2)
    (sized : ∀ key ∈ envelope.keys, Sized key) (nonce : envelope.nonce.length = 24)
    (short : envelope.ciphertext.length ≤ 2516) : (messageBytes envelope).length ≤ 4096 := by
  have version := length_field_uint32_le (documentField "version" 1 (.scalar .uint32) false
    exact_uint32) 1
  have first := @length_field_bytes_le (documentField "nonce" 2 (.scalar .bytes) false
    exact_bytes) envelope.nonce (by rw [nonce]; decide)
  have second := @length_field_bytes_le (documentField "ciphertext" 3 (.scalar .bytes) false
    exact_bytes) envelope.ciphertext (by omega)
  have front : (List.zipWith (fieldBytes Protobuf.standard)
      (directMessageEnvelopeType.fields.take 3) (messageGivens envelope)).flatten.length =
        _ + (_ + (_ + 0)) := List.length_flatten
  have items : ((envelope.keys.map keyItem).map List.length).sum ≤ envelope.keys.length * 177 := by
    have bounded := List.sum_le_card_nsmul ((envelope.keys.map keyItem).map List.length) 177 (by
      intro length among
      obtain ⟨item, written, rfl⟩ := List.mem_map.mp among
      obtain ⟨key, member, rfl⟩ := List.mem_map.mp written
      exact length_keyItem_le (sized key member))
    rwa [List.length_map, List.length_map] at bounded
  unfold messageBytes
  rw [List.length_append, front, List.length_flatten]
  rw [nonce] at first
  omega

end OpenSocial.Sdk.Messages
