/-
This file proves that the interpreted protobuf runtime reads back what it writes.

A message is written field by field; the loop of the decoder is followed over the
bytes of one field at a time. A field of one value, the values of a repeated field
and a packed region each bring the loop to the place behind their bytes, with the
field's slot filled. The messages inside a message are covered by the level below.
-/

import OpenSocial.Extension.Regions
import OpenSocial.Extension.Primitives

namespace OpenSocial.Extension.Protobuf

/-! ### Bytes ahead of a reader -/

/-- The bytes that may be read are these, and all of them are there. -/
structure Reader.Holds (reader : Reader) (bytes : Bytes) : Prop where
  rest : reader.rest = bytes
  place : reader.pos + bytes.length = reader.len

theorem Reader.Holds.advance {reader : Reader} {first others : Bytes}
    (holds : reader.Holds (first ++ others)) : (reader.advance first.length).Holds others where
  rest := by
    show (reader.buf.take reader.len).drop (reader.pos + first.length) = others
    rw [← List.drop_drop]
    show reader.rest.drop first.length = others
    rw [holds.rest, List.drop_left]
  place := by
    show reader.pos + first.length + others.length = reader.len
    rw [Nat.add_assoc, ← List.length_append]
    exact holds.place

theorem Reader.Holds.inside {reader : Reader} {first others : Bytes}
    (holds : reader.Holds (first ++ others)) : reader.pos + first.length ≤ reader.len := by
  rw [← holds.place, List.length_append, ← Nat.add_assoc]
  exact Nat.le_add_right _ _

theorem Reader.Holds.bound {reader : Reader} {first others : Bytes}
    (holds : reader.Holds (first ++ others)) :
    (reader.bound (reader.pos + first.length)).Holds first where
  rest := by
    show (reader.buf.take (reader.pos + first.length)).drop reader.pos = first
    rw [← Nat.min_eq_left holds.inside, ← List.take_take, ← List.take_drop]
    show reader.rest.take first.length = first
    rw [holds.rest, List.take_left]
  place := rfl

variable {primitives : Primitives}

theorem readScalar_holds (correct : primitives.Correct) {type : Scalar} {value : type.Value}
    {reader : Reader} {others : Bytes}
    (holds : reader.Holds (primitives.write type value ++ others)) :
    readScalar primitives type reader =
      .ok (value, reader.advance (primitives.write type value).length) := by
  unfold readScalar
  rw [holds.rest, correct.read_write]

theorem write_positive (correct : primitives.Correct) (type : Scalar) (value : type.Value) :
    0 < (primitives.write type value).length :=
  (correct.read_within type _ value _ (correct.read_write type value [])).1

theorem toNat_tag {field : Field} (small : field.id < 2 ^ 29) {wireType : ℕ}
    (wire : wireType < 8) :
    (UInt32.ofNat (field.id * 8 + wireType)).toNat = field.id * 8 + wireType :=
  UInt32.toNat_ofNat_of_lt' (show _ < 2 ^ 32 by omega)

/-- A length in front of its content. -/
theorem readScalar_ldelim (correct : primitives.Correct) {reader : Reader} {content others : Bytes}
    (small : content.length < 2 ^ 32) (holds : reader.Holds (ldelim primitives content ++ others)) :
    ∃ count, readScalar primitives .uint32 reader =
        .ok (UInt32.ofNat content.length, reader.advance count) ∧
      (UInt32.ofNat content.length).toNat = content.length ∧
      (reader.advance count).Holds (content ++ others) ∧
      count + content.length = (ldelim primitives content).length := by
  rw [ldelim, List.append_assoc] at holds
  refine ⟨(primitives.write .uint32 (UInt32.ofNat content.length)).length,
    readScalar_holds correct holds, UInt32.toNat_ofNat_of_lt' small, holds.advance, ?_⟩
  rw [ldelim, List.length_append]

/-! ### The loop over one field -/

section Loop

variable {below : ℕ → List Slot → Prop} {refill : ℕ → List Slot → List Slot}
  {writer : ℕ → List Slot → Except ProtobufError Bytes}
  {nested : ℕ → Reader → Option ℕ → Except ProtobufError (List Slot × Reader)}

/-- The loop, with enough steps, goes on behind so many bytes, with the slots changed. -/
def Goes (primitives : Primitives)
    (nested : ℕ → Reader → Option ℕ → Except ProtobufError (List Slot × Reader))
    (fields : List Field) (depth : ℕ) (reader : Reader) (slots : List Slot) (count : ℕ)
    (later : List Slot) : Prop :=
  ∀ steps, reader.len - reader.pos ≤ steps →
    ∃ fewer, reader.len - (reader.pos + count) ≤ fewer ∧
      decodeFields primitives nested fields depth reader.len steps reader slots =
        decodeFields primitives nested fields depth reader.len fewer (reader.advance count) later

variable {fields : List Field} {depth : ℕ} {reader : Reader} {slots middle later : List Slot}

theorem Goes.refl : Goes primitives nested fields depth reader slots 0 slots :=
  fun steps enough => ⟨steps, enough, rfl⟩

theorem Goes.trans {count more : ℕ}
    (first : Goes primitives nested fields depth reader slots count middle)
    (second : Goes primitives nested fields depth (reader.advance count) middle more later) :
    Goes primitives nested fields depth reader slots (count + more) later := by
  intro steps enough
  obtain ⟨fewer, still, reached⟩ := first steps enough
  obtain ⟨fewest, left, last⟩ := second fewer still
  have place : (reader.advance count).advance more = reader.advance (count + more) := by
    rw [Reader.advance, Reader.advance, Reader.advance, Nat.add_assoc]
  rw [place] at last
  refine ⟨fewest, ?_, reached.trans last⟩
  rw [← Nat.add_assoc]
  exact left

/-- A tag and the bytes of its value bring the loop behind them. -/
theorem Goes.field (correct : primitives.Correct) {field : Field} {position wireType : ℕ}
    {slot : Slot} {body others : Bytes}
    (placed : (fields.zipIdx.find? fun entry => entry.1.id == field.id) = some (field, position))
    (small : field.id < 2 ^ 29) (wire : wireType < 8)
    (holds : reader.Holds (writeTag primitives field wireType ++ body ++ others))
    (decoded : ∀ reader : Reader, reader.Holds (body ++ others) →
      decodeField primitives nested field wireType reader.len ((slots[position]?).getD .absent)
        reader = .ok (slot, reader.advance body.length)) :
    Goes primitives nested fields depth reader slots
      (writeTag primitives field wireType ++ body).length (slots.set position slot) := by
  intro steps enough
  rw [List.append_assoc] at holds
  have positive : 0 < (writeTag primitives field wireType).length := write_positive correct _ _
  have inside := holds.inside
  obtain ⟨fewer, rfl⟩ : ∃ fewer, steps = fewer + 1 := ⟨steps - 1, by omega⟩
  refine ⟨fewer, ?_, ?_⟩
  · rw [List.length_append]
    omega
  · have more : reader.pos < reader.len := by omega
    have number := toNat_tag small wire
    have id : (field.id * 8 + wireType) / 8 = field.id := by omega
    have rest : (field.id * 8 + wireType) % 8 = wireType := by omega
    have value := decoded (reader.advance (writeTag primitives field wireType).length) holds.advance
    have place : (reader.advance (writeTag primitives field wireType).length).advance body.length =
        reader.advance (writeTag primitives field wireType ++ body).length := by
      rw [Reader.advance, Reader.advance, Reader.advance, List.length_append, Nat.add_assoc]
    have tag : readScalar primitives .uint32 reader =
        .ok (UInt32.ofNat (field.id * 8 + wireType),
          reader.advance (writeTag primitives field wireType).length) :=
      readScalar_holds correct holds
    have same : (reader.advance (writeTag primitives field wireType).length).len = reader.len := rfl
    rw [same, place] at value
    rw [decodeFields, if_pos more, tag]
    dsimp only [Bind.bind, Except.bind]
    rw [number, id, rest, placed]
    dsimp only
    rw [value]

/-! ### One value -/

/-- What the level below does: a message is written, its filled form is written the same, and
the bytes are read back in their region. -/
def Inverse (below : ℕ → List Slot → Prop) (refill : ℕ → List Slot → List Slot)
    (writer : ℕ → List Slot → Except ProtobufError Bytes)
    (nested : ℕ → Reader → Option ℕ → Except ProtobufError (List Slot × Reader)) : Prop :=
  ∀ index slots, below index slots → ∃ content,
    writer index slots = .ok content ∧ writer index (refill index slots) = .ok content ∧
    (content.length < 2 ^ 32 → ∀ (reader : Reader) (others : Bytes),
      reader.Holds (content ++ others) →
      nested index reader (some content.length) =
        .ok (refill index slots, reader.advance content.length))

theorem basic_lt (type : Scalar) : basic type < 8 := by
  cases type <;> decide

theorem scalar_of_scalarType {field : Field} {type : Scalar}
    (scalar : scalarType field.type = some type) :
    field.type = .scalar type ∨ field.type = .enumeration ∧ type = .int32 := by
  cases kind : field.type with
  | scalar other =>
    rw [kind] at scalar
    cases scalar
    exact Or.inl rfl
  | enumeration =>
    rw [kind] at scalar
    cases scalar
    exact Or.inr ⟨rfl, rfl⟩
  | message index =>
    rw [kind] at scalar
    cases scalar

theorem decodeItem_scalar (correct : primitives.Correct) {field : Field} {type : Scalar}
    {value : type.Value} {others : Bytes} (scalar : scalarType field.type = some type)
    (holds : reader.Holds (primitives.write type value ++ others)) :
    decodeItem primitives nested field reader =
      .ok (.scalar type value, reader.advance (primitives.write type value).length) := by
  have read := readScalar_holds correct holds
  rcases scalar_of_scalarType scalar with kind | ⟨kind, rfl⟩
  · rw [decodeItem, kind]
    dsimp only
    rw [read]
    rfl
  · rw [decodeItem, kind]
    dsimp only
    rw [read]
    rfl

/-- A value is written behind a tag whose wire type is no packed one, and read back. -/
theorem item_roundTrip (correct : primitives.Correct)
    (inverse : Inverse below refill writer nested) {field : Field} {item : Item}
    (typed : ItemTyped below field item) :
    ∃ wireType body, wireType < 8 ∧
      encodeItem primitives writer field item = .ok (writeTag primitives field wireType ++ body) ∧
      encodeItem primitives writer field (fillItem refill field item) =
        .ok (writeTag primitives field wireType ++ body) ∧
      ((scalarType field.type).filter fun type => packed type && wireType == 2) = none ∧
      (body.length < 2 ^ 32 → ∀ (reader : Reader) (others : Bytes), reader.Holds (body ++ others) →
        decodeItem primitives nested field reader =
          .ok (fillItem refill field item, reader.advance body.length)) := by
  cases item with
  | scalar type value =>
    have scalar : scalarType field.type = some type := typed
    have written : encodeItem primitives writer field (.scalar type value) =
        .ok (writeTag primitives field (basic type) ++ primitives.write type value) := if_pos scalar
    refine ⟨basic type, primitives.write type value, basic_lt type, written, ?_, ?_, ?_⟩
    · rw [fillItem, written]
    · rw [scalar]
      cases type <;> rfl
    · intro _ reader others holds
      rw [fillItem]
      exact decodeItem_scalar correct scalar holds
  | message slots =>
    obtain ⟨index, kind, fine⟩ := typed
    obtain ⟨content, written, same, back⟩ := inverse index slots fine
    have filled : fillItem refill field (.message slots) = .message (refill index slots) := by
      rw [fillItem, kind]
    refine ⟨2, ldelim primitives content, by decide, ?_, ?_, ?_, ?_⟩
    · rw [encodeItem, kind]
      dsimp only
      rw [written]
      rfl
    · rw [filled, encodeItem, kind]
      dsimp only
      rw [same]
      rfl
    · rw [kind]
      rfl
    · intro small reader others holds
      have shorter : content.length < 2 ^ 32 := by
        rw [ldelim, List.length_append] at small
        omega
      obtain ⟨count, read, number, ahead, total⟩ := readScalar_ldelim correct shorter holds
      have inner := back shorter (reader.advance count) others ahead
      have place : (reader.advance count).advance content.length =
          reader.advance (ldelim primitives content).length := by
        rw [Reader.advance, Reader.advance, Reader.advance, ← total, Nat.add_assoc]
      rw [place] at inner
      rw [filled, decodeItem, kind]
      dsimp only
      rw [read]
      dsimp only [Bind.bind, Except.bind]
      rw [number, inner]

/-! ### One field -/

/-- What a new message has for a field. -/
def initial (field : Field) : Slot := if field.rule = .repeated then .list [] else .absent

theorem set_same {position : ℕ} {slot : Slot} (present : slots[position]? = some slot) :
    slots.set position slot = slots := by
  obtain ⟨inside, same⟩ := List.getElem?_eq_some_iff.mp present
  rw [← same]
  exact List.set_getElem_self inside

/-- The values of a repeated field, each behind its own tag. -/
theorem items_roundTrip (correct : primitives.Correct)
    (inverse : Inverse below refill writer nested) {field : Field} {position : ℕ}
    (placed : (fields.zipIdx.find? fun entry => entry.1.id == field.id) = some (field, position))
    (small : field.id < 2 ^ 29) (many : field.rule = .repeated) {items : List Item}
    (typed : ∀ item ∈ items, ItemTyped below field item) :
    ∃ bytes, encodeItems primitives writer field items = .ok bytes ∧
      encodeItems primitives writer field (items.map (fillItem refill field)) = .ok bytes ∧
      (bytes.length < 2 ^ 32 → ∀ (reader : Reader) (others : Bytes) (slots : List Slot)
        (before : List Item), reader.Holds (bytes ++ others) →
        slots[position]? = some (.list before) →
        Goes primitives nested fields depth reader slots bytes.length
          (slots.set position (.list (before ++ items.map (fillItem refill field))))) := by
  induction items with
  | nil =>
    refine ⟨[], rfl, rfl, ?_⟩
    intro _ reader others slots before _ present
    rw [List.map_nil, List.append_nil, set_same present]
    exact Goes.refl
  | cons item items inductionHypothesis =>
    obtain ⟨bytes, written, same, back⟩ :=
      inductionHypothesis fun item member => typed item (List.mem_cons_of_mem _ member)
    obtain ⟨wireType, body, wire, first, again, alone, read⟩ :=
      item_roundTrip correct inverse (typed item List.mem_cons_self)
    refine ⟨writeTag primitives field wireType ++ body ++ bytes, ?_, ?_, ?_⟩
    · rw [encodeItems, first, written]
      rfl
    · rw [List.map_cons, encodeItems, again, same]
      rfl
    · intro short reader others slots before holds present
      rw [List.length_append, List.length_append] at short
      have step : Goes primitives nested fields depth reader slots
          (writeTag primitives field wireType ++ body).length
          (slots.set position (.list (before ++ [fillItem refill field item]))) := by
        rw [List.append_assoc] at holds
        refine Goes.field correct placed small wire holds ?_
        intro reader ahead
        rw [decodeField, if_pos many, alone, present]
        dsimp only
        rw [read (by omega) reader (bytes ++ others) ahead]
        rfl
      rw [List.append_assoc] at holds
      have inside : position < slots.length := (List.getElem?_eq_some_iff.mp present).1
      have there : (slots.set position (.list (before ++ [fillItem refill field item])))[position]? =
          some (.list (before ++ [fillItem refill field item])) := List.getElem?_set_self inside
      have rest := back (by omega) _ others _ _ holds.advance there
      rw [List.set_set, List.append_assoc, List.singleton_append, ← List.map_cons] at rest
      have total : (writeTag primitives field wireType ++ body ++ bytes).length =
          (writeTag primitives field wireType ++ body).length + bytes.length := List.length_append
      rw [total]
      exact step.trans rest

/-- The values of a packed region. -/
theorem packed_roundTrip (correct : primitives.Correct) {field : Field} {type : Scalar}
    (scalar : scalarType field.type = some type) {items : List Item}
    (typed : ∀ item ∈ items, ItemTyped below field item) :
    ∃ content, writeScalars primitives type items = .ok content ∧
      items.map (fillItem refill field) = items ∧
      ∀ (reader : Reader) (steps : ℕ) (before : List Item), reader.Holds content →
        content.length ≤ steps →
        readPacked primitives type reader.len steps reader before =
          .ok (before ++ items, reader.advance content.length) := by
  induction items with
  | nil =>
    refine ⟨[], rfl, rfl, ?_⟩
    intro reader steps before holds _
    have ended : ¬ reader.pos < reader.len := by
      rw [← holds.place]
      exact lt_irrefl _
    cases steps with
    | zero => rw [readPacked, if_neg ended, List.append_nil]; rfl
    | succ steps => rw [readPacked, if_neg ended, List.append_nil]; rfl
  | cons item items inductionHypothesis =>
    obtain ⟨content, written, same, back⟩ :=
      inductionHypothesis fun item member => typed item (List.mem_cons_of_mem _ member)
    have head := typed item List.mem_cons_self
    cases item with
    | message slots =>
      obtain ⟨index, kind, _⟩ := head
      rw [kind] at scalar
      cases scalar
    | scalar other value =>
      obtain rfl : type = other := Option.some.inj (scalar.symm.trans head)
      have positive := write_positive correct type value
      refine ⟨primitives.write type value ++ content, ?_, ?_, ?_⟩
      · rw [writeScalars, if_pos rfl, written]
        rfl
      · rw [List.map_cons, same, fillItem]
      · intro reader steps before holds enough
        rw [List.length_append] at enough
        have inside := holds.inside
        obtain ⟨fewer, rfl⟩ : ∃ fewer, steps = fewer + 1 := ⟨steps - 1, by omega⟩
        have more : reader.pos < reader.len := by omega
        have rest := back _ fewer (before ++ [.scalar type value]) holds.advance (by omega)
        have place : (reader.advance (primitives.write type value).length).advance content.length =
            reader.advance (primitives.write type value ++ content).length := by
          rw [Reader.advance, Reader.advance, Reader.advance, List.length_append, Nat.add_assoc]
        rw [place, List.append_assoc, List.singleton_append] at rest
        rw [readPacked, if_pos more, readScalar_holds correct holds]
        exact rest

/-- The region of a packed field is read value by value, and the reader gets its end back. -/
theorem decodeField_packed (correct : primitives.Correct) {field : Field} {type : Scalar}
    (many : field.rule = .repeated) (scalar : scalarType field.type = some type)
    (fit : packed type = true) {content others : Bytes} {items : List Item} {slot : Slot}
    (short : content.length < 2 ^ 32)
    (read : ∀ (reader : Reader) (steps : ℕ) (before : List Item), reader.Holds content →
      content.length ≤ steps →
      readPacked primitives type reader.len steps reader before =
        .ok (before ++ items, reader.advance content.length))
    (ahead : reader.Holds (ldelim primitives content ++ others)) :
    decodeField primitives nested field 2 reader.len slot reader =
      .ok (.list (listOf slot ++ items), reader.advance (ldelim primitives content).length) := by
  obtain ⟨count, length, number, inside, total⟩ := readScalar_ldelim correct short ahead
  have region : ((scalarType field.type).filter fun type => packed type && 2 == 2) = some type := by
    rw [scalar, Option.filter_some, fit]
    rfl
  have fits := inside.inside
  have values := read _ content.length (listOf slot) inside.bound le_rfl
  rw [decodeField, if_pos many, region]
  dsimp only
  rw [length]
  dsimp only [Bind.bind, Except.bind]
  rw [number, if_neg (Nat.not_lt.mpr fits)]
  change readPacked primitives type ((reader.advance count).pos + content.length) content.length
    ((reader.advance count).bound ((reader.advance count).pos + content.length)) (listOf slot) = _
    at values
  rw [values]
  dsimp only
  refine (if_neg (not_not_intro rfl)).trans ?_
  rw [← total]
  show Except.ok (_, (⟨reader.buf, reader.pos + count + content.length, reader.len⟩ : Reader)) = _
  rw [Nat.add_assoc]
  rfl

theorem packedType_eq_some {field : Field} {type : Scalar} (region : packedType field = some type) :
    scalarType field.type = some type ∧ packed type = true := by
  obtain ⟨scalar, both⟩ := Option.filter_eq_some_iff.mp region
  exact ⟨scalar, (Bool.and_eq_true_iff.mp both).2⟩

/-- What a message has for a field is written and brings the loop to the filled slot. -/
theorem slot_roundTrip (correct : primitives.Correct)
    (inverse : Inverse below refill writer nested) {field : Field} {position : ℕ}
    (placed : (fields.zipIdx.find? fun entry => entry.1.id == field.id) = some (field, position))
    (small : field.id < 2 ^ 29) {slot : Slot} (typed : SlotTyped below field slot) :
    ∃ bytes, encodeSlot primitives writer field slot = .ok bytes ∧
      encodeSlot primitives writer field (fillSlot refill field slot) = .ok bytes ∧
      (bytes.length < 2 ^ 32 → ∀ (reader : Reader) (others : Bytes) (slots : List Slot),
        reader.Holds (bytes ++ others) → slots[position]? = some (initial field) →
        Goes primitives nested fields depth reader slots bytes.length
          (slots.set position (fillSlot refill field slot))) := by
  cases slot with
  | absent =>
    have free : field.rule ≠ .required := typed
    refine ⟨[], if_neg free, ?_, ?_⟩
    · rw [fillSlot]
      by_cases many : field.rule = .repeated
      · rw [if_pos many, encodeSlot, if_neg (not_not_intro many)]
        rfl
      · rw [if_neg many]
        exact if_neg free
    · intro _ reader others slots _ present
      show Goes primitives nested fields depth reader slots 0 (slots.set position (initial field))
      rw [set_same present]
      exact Goes.refl
  | single item =>
    obtain ⟨alone, fine⟩ := typed
    obtain ⟨wireType, body, wire, written, same, _, read⟩ := item_roundTrip correct inverse fine
    refine ⟨writeTag primitives field wireType ++ body, ?_, ?_, ?_⟩
    · rw [encodeSlot, if_neg alone, written]
    · rw [fillSlot, encodeSlot, if_neg alone, same]
    · intro short reader others slots holds _
      rw [List.length_append] at short
      refine Goes.field correct placed small wire holds ?_
      intro reader ahead
      rw [decodeField, if_neg alone, read (by omega) reader others ahead]
      rfl
  | list items =>
    obtain ⟨many, fine⟩ := typed
    have start : initial field = .list [] := if_pos many
    cases items with
    | nil =>
      refine ⟨[], ?_, ?_, ?_⟩
      · rw [encodeSlot, if_neg (not_not_intro many)]
        rfl
      · rw [fillSlot, encodeSlot, if_neg (not_not_intro many)]
        rfl
      · intro _ reader others slots _ present
        rw [start] at present
        rw [fillSlot, List.map_nil, set_same present]
        exact Goes.refl
    | cons item items =>
      cases region : packedType field with
      | none =>
        obtain ⟨bytes, written, same, goes⟩ :=
          items_roundTrip correct inverse placed small many fine
        refine ⟨bytes, ?_, ?_, ?_⟩
        · rw [encodeSlot, if_neg (not_not_intro many), region]
          exact written
        · rw [fillSlot, encodeSlot, if_neg (not_not_intro many), region]
          exact same
        · intro short reader others slots holds present
          rw [start] at present
          exact goes short reader others slots [] holds present
      | some type =>
        obtain ⟨scalar, fit⟩ := packedType_eq_some region
        obtain ⟨content, written, same, read⟩ := packed_roundTrip correct scalar fine
        have filled : fillSlot refill field (.list (item :: items)) = .list (item :: items) := by
          rw [fillSlot, same]
        have encoded : encodeSlot primitives writer field (.list (item :: items)) =
            .ok (writeTag primitives field 2 ++ ldelim primitives content) := by
          rw [encodeSlot, if_neg (not_not_intro many), region]
          dsimp only [List.isEmpty_cons]
          rw [if_neg Bool.false_ne_true, written]
          rfl
        refine ⟨writeTag primitives field 2 ++ ldelim primitives content, encoded, ?_, ?_⟩
        · rw [filled, encoded]
        · intro short reader others slots holds present
          rw [List.length_append] at short
          rw [filled]
          refine Goes.field correct placed small (by decide) holds ?_
          intro reader ahead
          have shorter : content.length < 2 ^ 32 := by
            rw [ldelim, List.length_append] at short
            omega
          rw [present, start]
          exact decodeField_packed correct many scalar fit shorter read ahead

/-! ### One message -/

/-- The fields have distinct numbers, so a number leads to its field. -/
theorem find?_position {before after : List Field} {field : Field}
    (distinct : (before ++ field :: after).Pairwise fun earlier later => earlier.id < later.id) :
    ((before ++ field :: after).zipIdx.find? fun entry => entry.1.id == field.id) =
      some (field, before.length) := by
  have earlier : (before.zipIdx.find? fun entry => entry.1.id == field.id) = none := by
    rw [List.find?_eq_none]
    intro entry member
    have there : entry.1 ∈ before := List.fst_mem_of_mem_zipIdx member
    have less := (List.pairwise_append.mp distinct).2.2 entry.1 there field List.mem_cons_self
    rw [beq_iff_eq]
    exact less.ne
  have found : (field.id == field.id) = true := beq_self_eq_true field.id
  rw [List.zipIdx_append, List.find?_append, earlier, Option.none_or, List.zipIdx_cons,
    Nat.zero_add]
  exact List.find?_cons_of_pos found

/-- Every slot in turn, up to the message that has all of them filled. -/
theorem fields_roundTrip (correct : primitives.Correct)
    (inverse : Inverse below refill writer nested) {after : List Field} {slots : List Slot}
    (typed : List.Forall₂ (SlotTyped below) after slots) (before : List Field)
    (distinct : (before ++ after).Pairwise fun earlier later => earlier.id < later.id)
    (small : ∀ field ∈ after, field.id < 2 ^ 29) :
    ∃ bytes, encodeFields primitives writer after slots = .ok bytes ∧
      encodeFields primitives writer after (List.zipWith (fillSlot refill) after slots) =
        .ok bytes ∧
      (bytes.length < 2 ^ 32 → ∀ (reader : Reader) (done : List Slot),
        reader.Holds bytes → done.length = before.length →
        Goes primitives nested (before ++ after) depth reader (done ++ construct after) bytes.length
          (done ++ List.zipWith (fillSlot refill) after slots)) := by
  induction typed generalizing before with
  | nil => exact ⟨[], rfl, rfl, fun _ _ _ _ _ => Goes.refl⟩
  | @cons field slot after slots head _ inductionHypothesis =>
    have regrouped : before ++ field :: after = before ++ [field] ++ after :=
      (List.append_assoc before [field] after).symm
    have others : (before ++ [field] ++ after).Pairwise fun earlier later =>
        earlier.id < later.id := by
      rw [← regrouped]
      exact distinct
    obtain ⟨rest, written, same, goes⟩ := inductionHypothesis (before ++ [field]) others
      fun other member => small other (List.mem_cons_of_mem _ member)
    have placed : ((before ++ field :: after).zipIdx.find? fun entry => entry.1.id == field.id) =
        some (field, before.length) := find?_position distinct
    obtain ⟨first, encoded, again, loop⟩ := slot_roundTrip correct inverse placed
      (small field List.mem_cons_self) head
    refine ⟨first ++ rest, ?_, ?_, ?_⟩
    · rw [encodeFields, encoded, written]
      rfl
    · rw [List.zipWith_cons_cons, encodeFields, again, same]
      rfl
    · intro short reader done holds size
      rw [List.length_append] at short ⊢
      have present : (done ++ construct (field :: after))[before.length]? =
          some (initial field) := by
        rw [← size, List.getElem?_append_right le_rfl, Nat.sub_self]
        rfl
      have one := loop (by omega) reader rest _ holds present
      have place : (done ++ construct (field :: after)).set before.length
          (fillSlot refill field slot) = done ++ [fillSlot refill field slot] ++ construct after := by
        rw [← size, List.set_append_right _ _ le_rfl, Nat.sub_self, List.append_assoc]
        rfl
      have length : (done ++ [fillSlot refill field slot]).length = (before ++ [field]).length := by
        rw [List.length_append, List.length_append, size]
        rfl
      have more := goes (by omega) (reader.advance first.length)
        (done ++ [fillSlot refill field slot]) holds.advance length
      rw [place] at one
      rw [← regrouped] at more
      have filled : done ++ List.zipWith (fillSlot refill) (field :: after) (slot :: slots) =
          done ++ [fillSlot refill field slot] ++ List.zipWith (fillSlot refill) after slots := by
        rw [List.append_assoc]
        rfl
      rw [filled]
      exact one.trans more

end Loop

theorem checkRequired_filled {below : ℕ → List Slot → Prop} (refill : ℕ → List Slot → List Slot)
    {fields : List Field} {slots : List Slot}
    (typed : List.Forall₂ (SlotTyped below) fields slots) :
    checkRequired fields (List.zipWith (fillSlot refill) fields slots) = .ok () := by
  induction typed with
  | nil => rfl
  | @cons field slot fields slots head _ inductionHypothesis =>
    rw [List.zipWith_cons_cons]
    cases slot with
    | absent =>
      rw [fillSlot]
      by_cases many : field.rule = .repeated
      · rw [if_pos many]
        exact inductionHypothesis
      · rw [if_neg many, checkRequired, if_neg (show field.rule ≠ .required from head)]
        exact inductionHypothesis
    | single item => exact inductionHypothesis
    | list items => exact inductionHypothesis

/-- The loop ends at the end of what may be read. -/
theorem decodeFields_ended
    {nested : ℕ → Reader → Option ℕ → Except ProtobufError (List Slot × Reader)}
    {fields : List Field} {depth stop steps : ℕ} {reader : Reader} {slots : List Slot}
    (ended : ¬ reader.pos < stop) :
    decodeFields primitives nested fields depth stop steps reader slots = .ok (slots, reader) := by
  cases steps with
  | zero => exact if_neg ended
  | succ steps => exact if_neg ended

theorem sortedFields_ordered (schema : Schema) (index : ℕ) :
    (sortedFields schema index).Pairwise (fun earlier later => earlier.id < later.id) ∧
      ∀ field ∈ sortedFields schema index, field.id < 2 ^ 29 := by
  unfold sortedFields
  cases schema[index]? with
  | none => exact ⟨List.Pairwise.nil, fun field member => by cases member⟩
  | some type => exact ⟨type.sorted, type.small⟩

/-- A well-typed message is written, its filled form is written the same, and the bytes are read
back where the message ends with its region or with the buffer. -/
theorem message_roundTrip (correct : primitives.Correct) (schema : Schema)
    {levels writing reading : ℕ} (writes : levels ≤ writing) (reads : levels ≤ reading)
    {index : ℕ} {slots : List Slot} (typed : WellTyped schema levels index slots) :
    ∃ content, encodeMessage primitives schema writing index slots = .ok content ∧
      encodeMessage primitives schema writing index (fill schema levels index slots) =
        .ok content ∧
      (content.length < 2 ^ 32 → ∀ (reader : Reader) (length : Option ℕ) (stop : ℕ),
        length.elim reader.len (fun length => reader.pos + length) = stop → stop ≤ reader.len →
        (reader.bound stop).Holds content →
        decodeMessage primitives schema reading index reader length =
          .ok (fill schema levels index slots, reader.advance content.length)) := by
  induction levels generalizing writing reading index slots with
  | zero => exact absurd typed id
  | succ levels inductionHypothesis =>
    obtain ⟨writing, rfl⟩ : ∃ fewer, writing = fewer + 1 := ⟨writing - 1, by omega⟩
    obtain ⟨reading, rfl⟩ : ∃ fewer, reading = fewer + 1 := ⟨reading - 1, by omega⟩
    have inverse : Inverse (WellTyped schema levels) (fill schema levels)
        (encodeMessage primitives schema writing) (decodeMessage primitives schema reading) := by
      intro inner slots fine
      obtain ⟨content, written, same, back⟩ := inductionHypothesis
        (Nat.le_of_succ_le_succ writes) (Nat.le_of_succ_le_succ reads) fine
      refine ⟨content, written, same, ?_⟩
      intro short reader others holds
      exact back short reader (some content.length) _ rfl holds.inside holds.bound
    obtain ⟨ordered, small⟩ := sortedFields_ordered schema index
    obtain ⟨content, written, same, goes⟩ :=
      fields_roundTrip correct inverse typed [] ordered small
    refine ⟨content, written, same, ?_⟩
    intro short reader length stop place inside holds
    obtain ⟨fewer, _, loop⟩ := goes short (reader.bound stop) [] holds rfl _ le_rfl
    have final : reader.pos + content.length = stop := holds.place
    have ended : ¬ ((reader.bound stop).advance content.length).pos < (reader.bound stop).len := by
      show ¬ reader.pos + content.length < stop
      rw [final]
      exact lt_irrefl _
    rw [decodeFields_ended ended] at loop
    rw [decodeMessage_inside place inside]
    change decodeFields primitives (decodeMessage primitives schema reading)
      (sortedFields schema index) (primitives.readerLimit - reading) stop (stop - reader.pos)
      (reader.bound stop) (construct (sortedFields schema index)) = _ at loop
    rw [loop]
    show (if _ then _ else _ : Except ProtobufError _) = _
    have there : ¬ (length.isSome ∧ ((reader.bound stop).advance content.length).pos ≠ stop) :=
      fun other => other.2 final
    rw [if_neg there]
    have complete := checkRequired_filled (fill schema levels) typed
    show (checkRequired (sortedFields schema index)
      (List.zipWith (fillSlot (fill schema levels)) (sortedFields schema index) slots) >>= _) = _
    rw [complete]
    rfl


/-- The levels of messages that both recursion limits allow. -/
def levelsAllowed (primitives : Primitives) : ℕ :=
  min primitives.recursionLimit primitives.readerLimit + 1

theorem encode_eq_ok {schema : Schema} {index : ℕ} {slots : List Slot} {bytes : Bytes} :
    encode primitives schema index slots = .ok bytes ↔
      encodeMessage primitives schema (primitives.recursionLimit + 1) index slots = .ok bytes ∧
        bytes.length < 2 ^ 32 := by
  unfold encode
  cases encodeMessage primitives schema (primitives.recursionLimit + 1) index slots with
  | error error =>
    constructor
    · intro written
      cases written
    · intro written
      cases written.1
  | ok content =>
    show finish content = .ok bytes ↔ _
    unfold finish
    by_cases short : content.length < 2 ^ 32
    · rw [if_pos short]
      constructor
      · intro same
        cases same
        exact ⟨rfl, short⟩
      · intro same
        exact same.1
    · rw [if_neg short]
      constructor
      · intro same
        cases same
      · intro same
        cases same.1
        exact absurd same.2 short

theorem decode_encode (correct : primitives.Correct) {schema : Schema} {index : ℕ}
    {slots : List Slot} (typed : WellTyped schema (levelsAllowed primitives) index slots)
    {bytes : Bytes} (written : encode primitives schema index slots = .ok bytes) :
    decode primitives schema index bytes =
        .ok (fill schema (levelsAllowed primitives) index slots) ∧
      encode primitives schema index (fill schema (levelsAllowed primitives) index slots) =
        .ok bytes := by
  have writes : levelsAllowed primitives ≤ primitives.recursionLimit + 1 :=
    Nat.succ_le_succ (Nat.min_le_left _ _)
  have reads : levelsAllowed primitives ≤ primitives.readerLimit + 1 :=
    Nat.succ_le_succ (Nat.min_le_right _ _)
  obtain ⟨content, encoded, same, back⟩ := message_roundTrip correct schema writes reads typed
  obtain ⟨other, short⟩ := encode_eq_ok.mp written
  obtain rfl : content = bytes := Except.ok.inj (encoded.symm.trans other)
  constructor
  · have holds : ((Reader.create content).bound content.length).Holds content := by
      constructor
      · show (content.take content.length).drop 0 = content
        rw [List.take_length, List.drop_zero]
      · exact Nat.zero_add _
    rw [decode, back short (Reader.create content) none content.length rfl le_rfl holds]
    rfl
  · exact encode_eq_ok.mpr ⟨same, short⟩

theorem decode_ends (correct : primitives.Correct) (schema : Schema) (index : ℕ) (bytes : Bytes) :
    (∃ slots, decode primitives schema index bytes = .ok slots ∧
        WellTyped schema (primitives.readerLimit + 1) index slots) ∨
      ∃ message, decode primitives schema index bytes = .error (.thrown message) := by
  have reading := decodeMessage_reading correct schema (primitives.readerLimit + 1) index
    (Reader.create bytes) none
  cases ended : decodeMessage primitives schema (primitives.readerLimit + 1) index
      (Reader.create bytes) none with
  | error error =>
    obtain ⟨message, rfl⟩ := reading.thrown error ended
    refine Or.inr ⟨message, ?_⟩
    rw [decode, ended]
    rfl
  | ok result =>
    refine Or.inl ⟨result.1, ?_, (reading.leads result.1 result.2 ended).2⟩
    rw [decode, ended]
    rfl

/-- The round trip of the runtime, and decoding of bytes of any kind: it ends with a message of its
type or a thrown error, a region is left at its end, and what stands behind a region, of a message
or of packed values, has no influence on what is read in it. -/
theorem runtime_roundTrip (primitives : Primitives) (correct : primitives.Correct)
    (schema : Schema) (index : ℕ) :
    (∀ slots, WellTyped schema (levelsAllowed primitives) index slots →
      (∃ written, encodeMessage primitives schema (primitives.recursionLimit + 1) index slots =
        .ok written) ∧
      ∀ bytes, encode primitives schema index slots = .ok bytes →
        decode primitives schema index bytes =
          .ok (fill schema (levelsAllowed primitives) index slots) ∧
        encode primitives schema index (fill schema (levelsAllowed primitives) index slots) =
          .ok bytes) ∧
    (∀ bytes, (∃ slots, decode primitives schema index bytes = .ok slots ∧
        WellTyped schema (primitives.readerLimit + 1) index slots) ∨
      ∃ message, decode primitives schema index bytes = .error (.thrown message)) ∧
    (∀ levels reader length slots after,
      decodeMessage primitives schema levels index reader (some length) = .ok (slots, after) →
      reader.pos + length ≤ reader.len ∧ after = reader.advance length) ∧
    (∀ levels reader length buf, SameUpTo (reader.pos + length) reader.buf buf →
      decodeMessage primitives schema levels index (reader.over buf) (some length) =
        (decodeMessage primitives schema levels index reader (some length)).map fun result =>
          (result.1, result.2.over buf)) ∧
    ∀ (type : Scalar) (reader : Reader) (length : ℕ) (items : List Item) (buf : Bytes),
      SameUpTo (reader.pos + length) reader.buf buf →
      readPacked primitives type (reader.pos + length) length
          ((reader.bound (reader.pos + length)).over buf) items =
        (readPacked primitives type (reader.pos + length) length
          (reader.bound (reader.pos + length)) items).map fun result =>
            (result.1, result.2.over buf) := by
  refine ⟨?_, decode_ends correct schema index, ?_, ?_, ?_⟩
  · intro slots typed
    obtain ⟨content, encoded, _, _⟩ := message_roundTrip correct schema
      (Nat.succ_le_succ (Nat.min_le_left _ _)) (Nat.succ_le_succ (Nat.min_le_right _ _)) typed
    exact ⟨⟨content, encoded⟩, fun bytes written => decode_encode correct typed written⟩
  · intro levels reader length slots after decoded
    exact decodeMessage_ends correct decoded
  · intro levels reader length buf same
    exact decodeMessage_region correct same
  · intro type reader length items buf same
    have enough : reader.pos + length - (reader.bound (reader.pos + length)).pos ≤ length :=
      Nat.sub_le_of_le_add (Nat.add_comm _ _).le
    have any : ∀ item ∈ items, True := fun _ _ => trivial
    exact (readPacked_reading correct type enough any fun _ => trivial).confined buf same

/-- A message with a name, some counts and a message of its own type inside. -/
def sampleSchema : Schema :=
  [{ fields :=
       [⟨"name", 1, .scalar .string, .required, false⟩,
        ⟨"counts", 2, .scalar .uint32, .repeated, true⟩,
        ⟨"inner", 3, .message 0, .optional, false⟩]
     sorted := by decide
     small := by decide }]

def sampleInner : List Slot := [.single (.scalar .string ""), .absent, .absent]

def sampleMessage : List Slot :=
  [.single (.scalar .string "ab"), .list [.scalar .uint32 1, .scalar .uint32 300],
   .single (.message sampleInner)]

def sampleBytes : Bytes := [10, 2, 97, 98, 18, 3, 1, 172, 2, 26, 2, 10, 0]

theorem runtime_roundTrip_sample :
    encode standard sampleSchema 0 sampleMessage = .ok sampleBytes ∧
      decode standard sampleSchema 0 sampleBytes =
        .ok [.single (.scalar .string "ab"), .list [.scalar .uint32 1, .scalar .uint32 300],
          .single (.message [.single (.scalar .string ""), .list [], .absent])] := by
  have inner : WellTyped sampleSchema 100 0 sampleInner :=
    .cons ⟨by decide, rfl⟩
      (.cons (fun needed => by cases needed) (.cons (fun needed => by cases needed) .nil))
  have typed : WellTyped sampleSchema (levelsAllowed standard) 0 sampleMessage :=
    .cons ⟨by decide, rfl⟩ (.cons ⟨rfl, by simp [ItemTyped, scalarType]⟩
      (.cons ⟨by decide, 0, rfl, inner⟩ .nil))
  have written : encode standard sampleSchema 0 sampleMessage = .ok sampleBytes := by
    decide +kernel
  exact ⟨written,
    (((runtime_roundTrip standard standard_correct sampleSchema 0).1 _ typed).2 _ written).1⟩

end OpenSocial.Extension.Protobuf
