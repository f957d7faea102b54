/-
This file gives the coding of content documents and envelopes: their schema, the
objects the SDK encodes for them, and how long what it writes is. An object whose
values are scalars is written field by field, each value behind its tag, and nothing
is written for a default.

A buffer has room for every document.
-/

import OpenSocial.Sdk.Envelope
import OpenSocial.Sdk.Faithful

namespace OpenSocial.Sdk.Encoding

open Extension

/-! ### Objects of scalars -/

/-- What an object has for a field: nothing, or a value of the type the field is written as. -/
abbrev Given := Option (Σ type : Protobuf.Scalar, type.Value)

/-- An object has this for a field; an empty list is nothing. -/
def GivenFor (object : ProtoValue) (field : Field) : Given → Prop
  | none => object.member field.name = .missing ∨
    field.repeated = true ∧ object.member field.name = .array []
  | some ⟨type, native⟩ => field.repeated = false ∧
    Protobuf.scalarType field.type.runtime = some type ∧
      object.member field.name = valueOf type native

/-- Its canonical member. -/
def keptMember : Given → Option ProtoValue
  | none => none
  | some ⟨type, native⟩ => unlessDefault true (isZero type native) (valueOf type native)

/-- Its slot in the message. -/
def givenSlot (field : Field) : Given → Protobuf.Slot
  | none => if field.repeated then .list [] else .absent
  | some ⟨type, native⟩ => if isZero type native then .absent else .single (.scalar type native)

/-- What is written for it. -/
def fieldBytes (primitives : Protobuf.Primitives) (field : Field) : Given → Bytes
  | none => []
  | some ⟨type, native⟩ =>
    if isZero type native then []
    else Protobuf.writeTag primitives field.runtime (Protobuf.basic type) ++
      primitives.write type native

theorem normalizeScalar_given (encodings : Encodings)
    {nested : ℕ → ProtoValue → String → Except SdkError ProtoObject} {field : Field}
    {type : Protobuf.Scalar} (typed : Protobuf.scalarType field.type.runtime = some type)
    (native : type.Value) (path : String) (omitDefault : Bool) :
    normalizeScalar encodings nested field (valueOf type native) path omitDefault =
      .ok (unlessDefault omitDefault (isZero type native) (valueOf type native)) := by
  unfold normalizeScalar
  rcases scalarType_runtime typed with kind | ⟨rfl, enum, kind⟩
  · rw [kind]
    exact normalizeOf_valueOf encodings (field.scalar_exact kind) field native path omitDefault
  · rw [kind]
    rfl

theorem canonicalField_given (encodings : Encodings)
    {nested : ℕ → ProtoValue → String → Except SdkError ProtoObject} {field : Field}
    (plain : field.map = false) {object : ProtoValue} {given : Given}
    (has : GivenFor object field given) (path : String) :
    canonicalField encodings nested object path field = .ok (keptMember given) := by
  cases given with
  | none =>
    rcases has with missing | ⟨repeated, empty⟩
    · unfold canonicalField
      rw [plain, if_neg Bool.false_ne_true, missing]
      rfl
    · unfold canonicalField
      rw [plain, if_neg Bool.false_ne_true, empty]
      dsimp only
      rw [if_pos repeated]
      rfl
  | some value =>
    obtain ⟨type, native⟩ := value
    obtain ⟨single, typed, found⟩ := has
    have present : object.member field.name ≠ .missing := by
      rw [found]
      intro same
      cases type <;> cases same
    rw [canonicalField_present plain present, found]
    unfold canonicalValue
    rw [single, if_neg Bool.false_ne_true]
    exact normalizeScalar_given encodings typed native _ true

theorem canonicalFields_given (encodings : Encodings)
    {nested : ℕ → ProtoValue → String → Except SdkError ProtoObject} {fields : List Field}
    (plain : ∀ field ∈ fields, field.map = false) {object : ProtoValue} {givens : List Given}
    (has : List.Forall₂ (GivenFor object) fields givens) (path : String) :
    canonicalFields encodings nested object path fields = .ok (givens.map keptMember) := by
  induction has with
  | nil => rfl
  | cons head _ inductionHypothesis =>
    rw [List.forall_mem_cons] at plain
    unfold canonicalFields
    rw [canonicalField_given encodings plain.1 head path, inductionHypothesis plain.2]
    rfl

theorem slotStands_given {stands : ℕ → ProtoObject → List Protobuf.Slot → Prop} {field : Field}
    {object : ProtoValue} {given : Given} (has : GivenFor object field given) :
    SlotStands stands field (keptMember given) (givenSlot field given) := by
  cases given with
  | none => rfl
  | some value =>
    obtain ⟨type, native⟩ := value
    obtain ⟨single, typed, _⟩ := has
    unfold keptMember givenSlot unlessDefault
    dsimp only
    by_cases zero : isZero type native = true
    · rw [zero]
      show Protobuf.Slot.absent = if field.repeated then .list [] else .absent
      rw [single]
      rfl
    · rw [Bool.eq_false_iff.mpr zero]
      refine ⟨single, ?_, typed, rfl⟩
      rcases scalarType_runtime typed with kind | ⟨rfl, enum, kind⟩
      · rw [kind]
        exact fun same => zero ((isZero_iff (field.scalar_exact kind) native).mpr same)
      · rw [kind]
        intro same
        injection same with same
        exact zero (beq_iff_eq.mpr same)

theorem placed_given {stands : ℕ → ProtoObject → List Protobuf.Slot → Prop} {fields : List Field}
    {object : ProtoValue} {givens : List Given}
    (has : List.Forall₂ (GivenFor object) fields givens) :
    Placed (SlotStands stands) fields (givens.map keptMember)
      (List.zipWith givenSlot fields givens) := by
  induction has with
  | nil => exact .nil
  | cons head _ inductionHypothesis => exact .cons (slotStands_given head) inductionHypothesis

theorem encodeSlot_given (primitives : Protobuf.Primitives)
    {nested : ℕ → List Protobuf.Slot → Except Protobuf.ProtobufError Bytes} {field : Field}
    {object : ProtoValue} {given : Given} (has : GivenFor object field given) :
    Protobuf.encodeSlot primitives nested field.runtime (givenSlot field given) =
      .ok (fieldBytes primitives field given) := by
  cases given with
  | none =>
    unfold givenSlot Protobuf.encodeSlot
    by_cases repeated : field.repeated = true
    · rw [if_pos repeated]
      dsimp only
      rw [if_neg (fun other => other ((rule_repeated field).mpr repeated))]
      rfl
    · rw [if_neg repeated]
      dsimp only
      rw [rule_runtime, if_neg repeated]
      rfl
  | some value =>
    obtain ⟨type, native⟩ := value
    obtain ⟨single, typed, _⟩ := has
    unfold givenSlot fieldBytes
    dsimp only
    by_cases zero : isZero type native = true
    · rw [if_pos zero, if_pos zero]
      unfold Protobuf.encodeSlot
      dsimp only
      rw [rule_runtime, single]
      rfl
    · rw [if_neg zero, if_neg zero]
      unfold Protobuf.encodeSlot
      dsimp only
      rw [rule_runtime, single]
      exact if_pos typed

theorem encodeFields_given (primitives : Protobuf.Primitives)
    {nested : ℕ → List Protobuf.Slot → Except Protobuf.ProtobufError Bytes} {fields : List Field}
    {object : ProtoValue} {givens : List Given}
    (has : List.Forall₂ (GivenFor object) fields givens) :
    Protobuf.encodeFields primitives nested (fields.map Field.runtime)
        (List.zipWith givenSlot fields givens) =
      .ok (List.zipWith (fieldBytes primitives) fields givens).flatten := by
  induction has with
  | nil => rfl
  | cons head _ inductionHypothesis =>
    rw [List.map_cons, List.zipWith_cons_cons, List.zipWith_cons_cons]
    unfold Protobuf.encodeFields
    rw [encodeSlot_given primitives head, inductionHypothesis]
    rfl

/-- What is written of a value, if it is accepted. -/
def encoded (runtime : Runtime) (schema : Schema) (index : ℕ) (value : ProtoValue) (path : String) :
    Bytes :=
  match canonicalize runtime.toEncodings schema runtime.levels index value path with
  | .error _ => []
  | .ok members => ((written runtime schema index members).toOption).getD []

section Flat

variable (runtime : Runtime) {schema : Schema} {index : ℕ} {object : ProtoValue}
variable {givens : List Given}

theorem written_given (plain : ∀ field ∈ fieldsArray schema index, field.map = false)
    (has : List.Forall₂ (GivenFor object) (fieldsArray schema index) givens) (path : String) :
    ∃ members,
      canonicalize runtime.toEncodings schema runtime.levels index object path = .ok members ∧
      written runtime schema index members =
        .ok (List.zipWith (fieldBytes runtime.toPrimitives) (fieldsArray schema index)
          givens).flatten := by
  refine ⟨assemble (fieldsArray schema index) (givens.map keptMember), ?_, ?_⟩
  · unfold Runtime.levels canonicalize
    rw [canonicalFields_given runtime.toEncodings plain has path]
    rfl
  · have found : Stands schema runtime.levels index
        (assemble (fieldsArray schema index) (givens.map keptMember))
        (List.zipWith givenSlot (fieldsArray schema index) givens) :=
      ⟨givens.map keptMember, rfl, placed_given has⟩
    rw [written_stands found]
    unfold Protobuf.encodeMessage
    rw [sortedFields_runtime]
    exact encodeFields_given runtime.toPrimitives has

/-- An object of scalars is written field by field. -/
theorem encoded_given (plain : ∀ field ∈ fieldsArray schema index, field.map = false)
    (has : List.Forall₂ (GivenFor object) (fieldsArray schema index) givens) (path : String) :
    encoded runtime schema index object path =
      (List.zipWith (fieldBytes runtime.toPrimitives) (fieldsArray schema index)
        givens).flatten := by
  obtain ⟨members, accepted, whole⟩ := written_given runtime plain has path
  unfold encoded
  rw [accepted]
  dsimp only
  rw [whole]
  rfl

end Flat

/-! ### Content documents and envelopes -/

/-- The types of the fields of content documents and envelopes are written exactly. -/
theorem exact_bytes : FieldType.scalar .bytes ≠ .scalar .double ∧
    FieldType.scalar .bytes ≠ .scalar .float := by simp

theorem exact_string : FieldType.scalar .string ≠ .scalar .double ∧
    FieldType.scalar .string ≠ .scalar .float := by simp

theorem exact_uint32 : FieldType.scalar .uint32 ≠ .scalar .double ∧
    FieldType.scalar .uint32 ≠ .scalar .float := by simp

theorem exact_uint64 : FieldType.scalar .uint64 ≠ .scalar .double ∧
    FieldType.scalar .uint64 ≠ .scalar .float := by simp

theorem exact_nested : FieldType.message 0 ≠ .scalar .double ∧
    FieldType.message 0 ≠ .scalar .float := by simp

/-- A field of these types; none of them is a map or a member of a oneof. -/
def documentField (name : String) (id : ℕ) (type : FieldType) (repeated : Bool)
    (exact : type ≠ .scalar .double ∧ type ≠ .scalar .float) : Field where
  name := name
  id := id
  type := type
  repeated := repeated
  packed := false
  map := false
  partOf := false
  btype := none
  exact := exact

/-- `osp.envelope.suite`. -/
def suiteType : EnumType where
  values := [("plaintext", 0), ("xchacha20poly1305_x25519", 1)]
  zero := rfl
  small := by decide

theorem exact_suite : FieldType.enumeration suiteType ≠ .scalar .double ∧
    FieldType.enumeration suiteType ≠ .scalar .float := by simp

def mediaItemType : MessageType where
  fullName := ".osp.envelope.media_item"
  fields := [documentField "content_hash" 1 (.scalar .bytes) false exact_bytes,
    documentField "mime" 2 (.scalar .string) false exact_string,
    documentField "size" 3 (.scalar .uint64) false exact_uint64,
    documentField "locations" 4 (.scalar .string) true exact_string,
    documentField "wrapped_key" 5 (.scalar .bytes) false exact_bytes,
    documentField "nonce" 6 (.scalar .bytes) false exact_bytes,
    documentField "alt_text" 7 (.scalar .string) false exact_string]
  sorted := by decide
  small := by decide
  named := by decide
  uninherited := by decide

def contentType : MessageType where
  fullName := ".osp.envelope.content"
  fields := [documentField "version" 1 (.scalar .uint32) false exact_uint32,
    documentField "text" 2 (.scalar .string) false exact_string,
    documentField "mime" 3 (.scalar .string) false exact_string,
    documentField "media" 4 (.message 0) true exact_nested,
    documentField "lang" 5 (.scalar .string) false exact_string,
    documentField "created_at" 6 (.scalar .uint64) false exact_uint64,
    documentField "external_ref" 7 (.scalar .string) false exact_string]
  sorted := by decide
  small := by decide
  named := by decide
  uninherited := by decide

def envelopeType : MessageType where
  fullName := ".osp.envelope.envelope"
  fields := [documentField "version" 1 (.scalar .uint32) false exact_uint32,
    documentField "suite" 2 (.enumeration suiteType) false exact_suite,
    documentField "payload" 3 (.scalar .bytes) false exact_bytes,
    documentField "nonce" 4 (.scalar .bytes) false exact_bytes,
    documentField "wrapped_content_key" 5 (.scalar .bytes) false exact_bytes,
    documentField "wrap_nonce" 6 (.scalar .bytes) false exact_bytes]
  sorted := by decide
  small := by decide
  named := by decide
  uninherited := by decide

def envelopeSchema : Schema := [mediaItemType, contentType, envelopeType]

def CONTENT_TYPE : ℕ := 1
def ENVELOPE_TYPE : ℕ := 2

/-- The object of a media item, of a content document and of an envelope. -/
def mediaItemObject (item : MediaItem) : ProtoValue :=
  .plain
    [("content_hash", .bytes item.content_hash), ("mime", .string item.mime),
      ("size", .string (toString (item.size.toNat : ℤ))),
      ("locations", .array (item.locations.map .string)), ("wrapped_key", .bytes item.wrapped_key),
      ("nonce", .bytes item.nonce), ("alt_text", .string item.alt_text)]

def contentObject (content : Content) : ProtoValue :=
  .plain
    [("version", .integer content.version.toNat), ("text", .string content.text),
      ("mime", .string content.mime), ("media", .array (content.media.map mediaItemObject)),
      ("lang", .string content.lang),
      ("created_at", .string (toString (content.created_at.toNat : ℤ))),
      ("external_ref", .string content.external_ref)]

def envelopeObject (envelope : Envelope) : ProtoValue :=
  .plain
    [("version", .integer envelope.version.toNat), ("suite", .integer envelope.suite.toInt),
      ("payload", .bytes envelope.payload), ("nonce", .bytes envelope.nonce),
      ("wrapped_content_key", .bytes envelope.wrapped_content_key),
      ("wrap_nonce", .bytes envelope.wrap_nonce)]

/-- The codec with the wire format's own primitives; the documents have no number outside 32
bits. -/
def codec (encodings : Encodings) : Runtime where
  toPrimitives := Protobuf.standard
  toEncodings := encodings
  overflow := fun _ _ => .error .illTyped

/-- The libraries with the protobuf coding of content documents and envelopes. -/
def coded (libraries : Libraries) : Libraries :=
  { libraries with
    encodeContent := fun content => encoded (codec libraries.toEncodings) envelopeSchema
      CONTENT_TYPE (contentObject content) ".osp.envelope.content"
    encodeEnvelope := fun envelope => encoded (codec libraries.toEncodings) envelopeSchema
      ENVELOPE_TYPE (envelopeObject envelope) ".osp.envelope.envelope" }

/-- What a document without media and an envelope have for their fields. -/
def contentGivens (content : Content) : List Given :=
  [some ⟨.uint32, content.version⟩, some ⟨.string, content.text⟩, some ⟨.string, content.mime⟩,
    none, some ⟨.string, content.lang⟩, some ⟨.uint64, content.created_at⟩,
    some ⟨.string, content.external_ref⟩]

def envelopeGivens (envelope : Envelope) : List Given :=
  [some ⟨.uint32, envelope.version⟩, some ⟨.int32, envelope.suite⟩, some ⟨.bytes, envelope.payload⟩,
    some ⟨.bytes, envelope.nonce⟩, some ⟨.bytes, envelope.wrapped_content_key⟩,
    some ⟨.bytes, envelope.wrap_nonce⟩]

/-- How long what is written for each field is. -/
def fieldLengths (fields : List Field) (givens : List Given) : List ℕ :=
  List.zipWith (fun field given => (fieldBytes Protobuf.standard field given).length) fields givens

theorem length_encoded (encodings : Encodings) {index : ℕ} {object : ProtoValue}
    {givens : List Given} (plain : ∀ field ∈ fieldsArray envelopeSchema index, field.map = false)
    (has : List.Forall₂ (GivenFor object) (fieldsArray envelopeSchema index) givens)
    (path : String) :
    (encoded (codec encodings) envelopeSchema index object path).length =
      (fieldLengths (fieldsArray envelopeSchema index) givens).sum := by
  rw [encoded_given (codec encodings) plain has path, List.length_flatten]
  unfold fieldLengths
  rw [List.map_zipWith]
  rfl

theorem length_encodeContent (libraries : Libraries) (content : Content)
    (bare : content.media = []) :
    ((coded libraries).encodeContent content).length =
      (fieldLengths contentType.fields (contentGivens content)).sum := by
  refine length_encoded libraries.toEncodings (by decide) ?_ _
  refine .cons ⟨rfl, rfl, rfl⟩ (.cons ⟨rfl, rfl, rfl⟩ (.cons ⟨rfl, rfl, rfl⟩
    (.cons (Or.inr ⟨rfl, ?_⟩) (.cons ⟨rfl, rfl, rfl⟩ (.cons ⟨rfl, rfl, rfl⟩
      (.cons ⟨rfl, rfl, rfl⟩ .nil))))))
  show ProtoValue.array (content.media.map mediaItemObject) = .array []
  rw [bare]
  rfl

theorem length_encodeEnvelope (libraries : Libraries) (envelope : Envelope) :
    ((coded libraries).encodeEnvelope envelope).length =
      (fieldLengths envelopeType.fields (envelopeGivens envelope)).sum := by
  refine length_encoded libraries.toEncodings (by decide) ?_ _
  exact .cons ⟨rfl, rfl, rfl⟩ (.cons ⟨rfl, rfl, rfl⟩ (.cons ⟨rfl, rfl, rfl⟩
    (.cons ⟨rfl, rfl, rfl⟩ (.cons ⟨rfl, rfl, rfl⟩ (.cons ⟨rfl, rfl, rfl⟩ .nil)))))

end OpenSocial.Sdk.Encoding
