/-
This file proves what the interpreted decoder does with bytes of any kind: it ends
with a message of its type or with a thrown error, it only moves forward, and
nothing behind the end of a region has any influence on what is read inside it.

A reading is followed over every buffer that has the same bytes up to the end of
what may be read. The rules for one reading after another, and for a reading inside
a region, carry this from the primitives to whole messages.
-/

import OpenSocial.Extension.Protobuf

namespace OpenSocial.Extension.Protobuf

variable {α β : Type}

/-! ### Readings -/

/-- The same place in another buffer. -/
def Reader.over (reader : Reader) (buf : Bytes) : Reader := { reader with buf := buf }

/-- Two buffers have the same bytes up to an end. -/
def SameUpTo (stop : ℕ) (buf other : Bytes) : Prop := other.take stop = buf.take stop

/-- Reading went on from the one place to the other, and not beyond what may be read. -/
structure Reader.Leads (before after : Reader) : Prop where
  buf : after.buf = before.buf
  len : after.len = before.len
  forward : before.pos ≤ after.pos
  within : after.pos ≤ max before.pos before.len

/-- What a reading from a place gives over the buffers: it ends with a good value or a thrown
error, it leads on, and it is the same whatever stands behind the bytes that may be read. -/
structure Reading (reader : Reader) (run : Bytes → Except ProtobufError (α × Reader))
    (good : α → Reader → Prop) : Prop where
  thrown : ∀ error, run reader.buf = .error error → ∃ message, error = .thrown message
  leads : ∀ value after, run reader.buf = .ok (value, after) →
    reader.Leads after ∧ good value after
  confined : ∀ buf, SameUpTo reader.len reader.buf buf →
    run buf = (run reader.buf).map fun result => (result.1, result.2.over buf)

theorem SameUpTo.mono {stop inner : ℕ} {buf other : Bytes} (same : SameUpTo stop buf other)
    (inside : inner ≤ stop) : SameUpTo inner buf other := by
  unfold SameUpTo at same ⊢
  rw [← Nat.min_eq_left inside, ← List.take_take, ← List.take_take, same]

theorem Reader.Leads.refl (reader : Reader) : reader.Leads reader :=
  ⟨rfl, rfl, le_rfl, le_max_left _ _⟩

theorem Reader.Leads.trans {first second third : Reader} (before : first.Leads second)
    (after : second.Leads third) : first.Leads third where
  buf := after.buf.trans before.buf
  len := after.len.trans before.len
  forward := before.forward.trans after.forward
  within := by
    refine after.within.trans (max_le before.within ?_)
    rw [before.len]
    exact le_max_right _ _

/-- A place reached inside a region, with the end of what may be read set back. -/
theorem Reader.Leads.restore {reader after : Reader} {stop : ℕ} (inside : stop ≤ reader.len)
    (inner : (reader.bound stop).Leads after) : reader.Leads (after.bound reader.len) where
  buf := inner.buf
  len := rfl
  forward := inner.forward
  within := inner.within.trans (max_le_max le_rfl inside)

namespace Reading

variable {reader : Reader} {run : Bytes → Except ProtobufError (α × Reader)}
  {good : α → Reader → Prop} {later : β → Reader → Prop}
  {next : Bytes → α × Reader → Except ProtobufError (β × Reader)}

/-- A value without reading. -/
theorem done {value : α} (fine : good value reader) :
    Reading reader (fun buf => .ok (value, reader.over buf)) good where
  thrown := fun _ failed => by cases failed
  leads := by
    intro other after same
    cases same
    exact ⟨Reader.Leads.refl reader, fine⟩
  confined := fun _ _ => rfl

theorem fails (message : String) :
    Reading reader (fun _ => .error (.thrown message)) good where
  thrown := by
    intro error failed
    cases failed
    exact ⟨message, rfl⟩
  leads := fun _ _ same => by cases same
  confined := fun _ _ => rfl

/-- A reading inside a region, and another one behind it with the end set back. -/
theorem within {stop : ℕ} (inside : stop ≤ reader.len)
    (inner : Reading (reader.bound stop) run good)
    (outer : ∀ value after, (reader.bound stop).Leads after → good value after →
      Reading (after.bound reader.len) (fun buf => next buf (value, after.over buf)) later) :
    Reading reader (fun buf => run buf >>= next buf) later := by
  cases ran : run reader.buf with
  | error error =>
    obtain ⟨message, rfl⟩ := inner.thrown error ran
    refine ⟨?_, ?_, ?_⟩
    · intro other failed
      rw [ran] at failed
      cases failed
      exact ⟨message, rfl⟩
    · intro value after same
      rw [ran] at same
      cases same
    · intro buf same
      show run buf >>= next buf = _
      rw [inner.confined buf (same.mono inside)]
      show ((run reader.buf).map _ >>= next buf) = (run reader.buf >>= next reader.buf).map _
      rw [ran]
      rfl
  | ok result =>
    obtain ⟨value, after⟩ := result
    obtain ⟨led, fine⟩ := inner.leads value after ran
    have reading := outer value after led fine
    have here : after.over reader.buf = after := by
      show ({ after with buf := (reader.bound stop).buf } : Reader) = after
      rw [← led.buf]
    have started : (run reader.buf >>= next reader.buf) = next reader.buf (value, after) := by
      rw [ran]
      rfl
    have place : (after.bound reader.len).buf = reader.buf := led.buf
    refine ⟨?_, ?_, ?_⟩
    · intro error failed
      refine reading.thrown error ?_
      rw [place, here, ← started]
      exact failed
    · intro final last same
      have reached := reading.leads final last (by rw [place, here, ← started]; exact same)
      exact ⟨(led.restore inside).trans reached.1, reached.2⟩
    · intro buf same
      have moved := reading.confined buf (by rw [place]; exact same)
      rw [place, here] at moved
      show run buf >>= next buf = (run reader.buf >>= next reader.buf).map _
      rw [started, ← moved, inner.confined buf (same.mono inside)]
      show ((run reader.buf).map _ >>= next buf) = _
      rw [ran]
      rfl

/-- One reading after another. -/
theorem bind (first : Reading reader run good)
    (second : ∀ value after, reader.Leads after → good value after →
      Reading after (fun buf => next buf (value, after.over buf)) later) :
    Reading reader (fun buf => run buf >>= next buf) later := by
  have inner : Reading (reader.bound reader.len) run good := first
  refine inner.within le_rfl fun value after led fine => ?_
  have same : after.bound reader.len = after := by
    show ({ after with len := (reader.bound reader.len).len } : Reader) = after
    rw [← led.len]
  rw [same]
  exact second value after led fine

end Reading

/-! ### The primitives -/

section Decoding

variable {primitives : Primitives}

theorem Reader.rest_over {reader : Reader} {buf : Bytes}
    (same : SameUpTo reader.len reader.buf buf) : (reader.over buf).rest = reader.rest :=
  congrArg (List.drop reader.pos) same

theorem Reader.leads_advance {reader : Reader} {count : ℕ} (there : count ≤ reader.rest.length) :
    reader.Leads (reader.advance count) where
  buf := rfl
  len := rfl
  forward := Nat.le_add_right reader.pos count
  within := by
    rw [Reader.rest, List.length_drop, List.length_take] at there
    show reader.pos + count ≤ max reader.pos reader.len
    omega

/-- A scalar takes at least one byte. -/
theorem readScalar_reading (correct : primitives.Correct) (type : Scalar) (reader : Reader) :
    Reading reader (fun buf => readScalar primitives type (reader.over buf))
      fun _ after => reader.pos < after.pos where
  thrown := by
    intro error failed
    change readScalar primitives type reader = .error error at failed
    unfold readScalar at failed
    split at failed
    · cases failed
    · cases failed
      exact ⟨_, rfl⟩
  leads := by
    intro value after same
    change readScalar primitives type reader = .ok (value, after) at same
    unfold readScalar at same
    split at same
    · next taken count read =>
      cases same
      obtain ⟨positive, there⟩ := correct.read_within type reader.rest value count read
      exact ⟨Reader.leads_advance there, Nat.lt_add_of_pos_right positive⟩
    · cases same
  confined := by
    intro buf same
    show readScalar primitives type (reader.over buf) =
      (readScalar primitives type reader).map _
    unfold readScalar
    rw [Reader.rest_over same]
    cases primitives.read type reader.rest <;> rfl

/-- `skipType` gives no value; it is followed with the unit. -/
theorem skipType_leads (correct : primitives.Correct) (wireType depth : ℕ) (reader : Reader) :
    Reading reader (fun buf =>
      (skipType primitives wireType depth (reader.over buf)).map fun after => ((), after))
      fun _ _ => True where
  thrown := by
    intro error failed
    change (skipType primitives wireType depth reader).map _ = .error error at failed
    unfold skipType at failed
    split at failed
    · cases failed
    · cases failed
      exact ⟨_, rfl⟩
  leads := by
    intro value after same
    change (skipType primitives wireType depth reader).map _ = .ok (value, after) at same
    unfold skipType at same
    split at same
    · next count skipped =>
      cases same
      exact ⟨Reader.leads_advance (correct.skip_within wireType depth reader.rest count skipped),
        trivial⟩
    · cases same
  confined := by
    intro buf same
    show (skipType primitives wireType depth (reader.over buf)).map _ =
      ((skipType primitives wireType depth reader).map _).map _
    unfold skipType
    rw [Reader.rest_over same]
    cases primitives.skip wireType depth reader.rest <;> rfl

/-! ### Fields -/

/-- Enough steps for the values of a packed region. -/
theorem readPacked_reading (correct : primitives.Correct) (type : Scalar) {stop steps : ℕ}
    {reader : Reader} (enough : stop - reader.pos ≤ steps) {items : List Item}
    {typed : Item → Prop} (before : ∀ item ∈ items, typed item)
    (scalars : ∀ value, typed (.scalar type value)) :
    Reading reader (fun buf => readPacked primitives type stop steps (reader.over buf) items)
      fun items _ => ∀ item ∈ items, typed item := by
  induction steps generalizing reader items with
  | zero =>
    have ended : ¬ reader.pos < stop := by omega
    show Reading reader
      (fun buf => if reader.pos < stop then _ else .ok (items, reader.over buf)) _
    simp only [if_neg ended]
    exact Reading.done before
  | succ steps inductionHypothesis =>
    show Reading reader
      (fun buf => if reader.pos < stop then _ else .ok (items, reader.over buf)) _
    by_cases more : reader.pos < stop
    · simp only [if_pos more]
      refine (readScalar_reading correct type reader).bind fun value after _ moved => ?_
      have fewer : stop - after.pos ≤ steps := by omega
      show Reading after (fun buf =>
        readPacked primitives type stop steps (after.over buf) (items ++ [.scalar type value])) _
      refine inductionHypothesis fewer ?_
      intro item member
      rcases List.mem_append.mp member with earlier | last
      · exact before item earlier
      · rw [List.mem_singleton.mp last]
        exact scalars value
    · simp only [if_neg more]
      exact Reading.done before

variable {below : ℕ → List Slot → Prop}
  {nested : ℕ → Reader → Option ℕ → Except ProtobufError (List Slot × Reader)}

theorem decodeItem_reading (correct : primitives.Correct)
    (messages : ∀ index reader length, Reading reader
      (fun buf => nested index (reader.over buf) length) fun slots _ => below index slots)
    (field : Field) (reader : Reader) :
    Reading reader (fun buf => decodeItem primitives nested field (reader.over buf))
      fun item _ => ItemTyped below field item := by
  unfold decodeItem
  cases type : field.type with
  | scalar scalar =>
    refine (readScalar_reading correct scalar reader).bind fun value after _ _ => ?_
    refine Reading.done ?_
    show scalarType field.type = some scalar
    rw [type]
    rfl
  | enumeration =>
    refine (readScalar_reading correct .int32 reader).bind fun value after _ _ => ?_
    refine Reading.done ?_
    show scalarType field.type = some .int32
    rw [type]
    rfl
  | message index =>
    refine (readScalar_reading correct .uint32 reader).bind fun length after _ _ => ?_
    refine (messages index after (some length.toNat)).bind fun slots last _ fine => ?_
    exact Reading.done ⟨index, type, fine⟩

/-- What the loop has for a field: only a required one can still be missing. -/
def Decoded (below : ℕ → List Slot → Prop) (field : Field) (slot : Slot) : Prop :=
  SlotTyped below field slot ∨ slot = .absent ∧ field.rule = .required

theorem listOf_typed {field : Field} {slot : Slot} (decoded : Decoded below field slot) :
    ∀ item ∈ listOf slot, ItemTyped below field item := by
  intro item member
  rcases decoded with typed | ⟨rfl, _⟩
  · cases slot with
    | absent => cases member
    | single item => cases member
    | list items => exact typed.2 item member
  · cases member

theorem decodeField_reading (correct : primitives.Correct)
    (messages : ∀ index reader length, Reading reader
      (fun buf => nested index (reader.over buf) length) fun slots _ => below index slots)
    {field : Field} {slot : Slot} (decoded : Decoded below field slot) (wireType : ℕ)
    (reader : Reader) :
    Reading reader
      (fun buf => decodeField primitives nested field wireType reader.len slot (reader.over buf))
      fun slot _ => Decoded below field slot := by
  unfold decodeField
  by_cases many : field.rule = .repeated
  · simp only [if_pos many]
    cases region : (scalarType field.type).filter fun type => packed type && wireType == 2 with
    | none =>
      refine (decodeItem_reading correct messages field reader).bind fun item after _ typed => ?_
      have longer : Decoded below field (.list (listOf slot ++ [item])) := by
        refine Or.inl ⟨many, ?_⟩
        intro other member
        rcases List.mem_append.mp member with earlier | last
        · exact listOf_typed decoded other earlier
        · rw [List.mem_singleton.mp last]
          exact typed
      dsimp only
      exact Reading.done longer
    | some type =>
      have scalar : scalarType field.type = some type :=
        (Option.filter_eq_some_iff.mp region).1
      refine (readScalar_reading correct .uint32 reader).bind fun length after led _ => ?_
      show Reading after (fun buf => if after.len < after.pos + length.toNat then _ else _) _
      by_cases outside : after.len < after.pos + length.toNat
      · simp only [if_pos outside]
        exact Reading.fails _
      · simp only [if_neg outside]
        have enough : after.pos + length.toNat - (after.bound (after.pos + length.toNat)).pos ≤
            length.toNat := Nat.sub_le_of_le_add (Nat.add_comm _ _).le
        have values := readPacked_reading correct type enough (listOf_typed decoded) fun _ => scalar
        refine values.within (Nat.not_lt.mp outside) fun items last inner typed => ?_
        show Reading (last.bound after.len)
          (fun buf => if last.pos ≠ after.pos + length.toNat then _ else _) _
        by_cases elsewhere : last.pos ≠ after.pos + length.toNat
        · simp only [if_pos elsewhere]
          exact Reading.fails _
        · simp only [if_neg elsewhere]
          rw [← led.len]
          have all : Decoded below field (.list items) := Or.inl ⟨many, typed⟩
          exact Reading.done all
  · simp only [if_neg many]
    refine (decodeItem_reading correct messages field reader).bind fun item after _ typed => ?_
    have alone : Decoded below field (.single item) := Or.inl ⟨many, typed⟩
    dsimp only
    exact Reading.done alone

/-! ### Messages -/

theorem forall₂_getElem? {r : α → β → Prop} {values : List α} {others : List β}
    (related : List.Forall₂ r values others) {position : ℕ} {value : α}
    (found : values[position]? = some value) :
    ∃ other, others[position]? = some other ∧ r value other := by
  induction related generalizing position with
  | nil => cases found
  | cons head _ inductionHypothesis =>
    cases position with
    | zero =>
      cases found
      exact ⟨_, rfl, head⟩
    | succ position => exact inductionHypothesis found

theorem forall₂_set {r : α → β → Prop} {values : List α} {others : List β}
    (related : List.Forall₂ r values others) {position : ℕ} {value : α} {other : β}
    (found : values[position]? = some value) (head : r value other) :
    List.Forall₂ r values (others.set position other) := by
  induction related generalizing position with
  | nil => cases found
  | cons first rest inductionHypothesis =>
    cases position with
    | zero =>
      cases found
      exact .cons head rest
    | succ position => exact .cons first (inductionHypothesis found)

theorem getElem?_of_find? {fields : List Field} {id position : ℕ} {field : Field}
    (found : (fields.zipIdx.find? fun entry => entry.1.id == id) = some (field, position)) :
    fields[position]? = some field := by
  have member := List.mem_of_find?_eq_some found
  exact List.mem_zipIdx_iff_getElem?.mp member

theorem decodeFields_reading (correct : primitives.Correct)
    (messages : ∀ index reader length, Reading reader
      (fun buf => nested index (reader.over buf) length) fun slots _ => below index slots)
    {fields : List Field} (depth : ℕ) {steps : ℕ} {reader : Reader} {slots : List Slot}
    (enough : reader.len - reader.pos ≤ steps)
    (decoded : List.Forall₂ (Decoded below) fields slots) :
    Reading reader (fun buf => decodeFields primitives nested fields depth reader.len steps
      (reader.over buf) slots) fun slots _ => List.Forall₂ (Decoded below) fields slots := by
  induction steps generalizing reader slots with
  | zero =>
    have ended : ¬ reader.pos < reader.len := by omega
    show Reading reader
      (fun buf => if reader.pos < reader.len then _ else .ok (slots, reader.over buf)) _
    simp only [if_neg ended]
    exact Reading.done decoded
  | succ steps inductionHypothesis =>
    show Reading reader
      (fun buf => if reader.pos < reader.len then _ else .ok (slots, reader.over buf)) _
    by_cases more : reader.pos < reader.len
    · simp only [if_pos more]
      refine (readScalar_reading correct .uint32 reader).bind fun tag after led moved => ?_
      dsimp only
      cases found : fields.zipIdx.find? fun entry => entry.1.id == tag.toNat / 8 with
      | none =>
        have skipped : ∀ buf,
            skipType primitives (tag.toNat % 8) depth (after.over buf) >>= (fun last =>
              decodeFields primitives nested fields depth reader.len steps last slots) =
            (skipType primitives (tag.toNat % 8) depth (after.over buf)).map
                (fun last => ((), last)) >>= (fun pair =>
              decodeFields primitives nested fields depth reader.len steps pair.2 slots) := by
          intro buf
          cases skipType primitives (tag.toNat % 8) depth (after.over buf) <;> rfl
        simp only [skipped]
        refine (skipType_leads correct (tag.toNat % 8) depth after).bind fun _ last ahead _ => ?_
        have fewer : last.len - last.pos ≤ steps := by
          have forward := ahead.forward
          rw [ahead.len, led.len]
          omega
        rw [← led.len, ← ahead.len]
        exact inductionHypothesis fewer decoded
      | some entry =>
        obtain ⟨field, position⟩ := entry
        have place := getElem?_of_find? found
        obtain ⟨slot, present, fine⟩ := forall₂_getElem? decoded place
        dsimp only
        rw [present, ← led.len]
        refine (decodeField_reading correct messages fine (tag.toNat % 8) after).bind
          fun slot last ahead fine => ?_
        have fewer : last.len - last.pos ≤ steps := by
          have forward := ahead.forward
          rw [ahead.len, led.len]
          omega
        rw [← ahead.len]
        exact inductionHypothesis fewer (forall₂_set decoded place fine)
    · simp only [if_neg more]
      exact Reading.done decoded

theorem construct_decoded (below : ℕ → List Slot → Prop) (fields : List Field) :
    List.Forall₂ (Decoded below) fields (construct fields) := by
  induction fields with
  | nil => exact .nil
  | cons field fields inductionHypothesis =>
    refine .cons ?_ inductionHypothesis
    show Decoded below field (if field.rule = .repeated then .list [] else .absent)
    by_cases many : field.rule = .repeated
    · rw [if_pos many]
      exact Or.inl ⟨many, fun item member => by cases member⟩
    · rw [if_neg many]
      by_cases needed : field.rule = .required
      · exact Or.inr ⟨rfl, needed⟩
      · exact Or.inl needed

theorem checkRequired_thrown {fields : List Field} {slots : List Slot} {error : ProtobufError}
    (failed : checkRequired fields slots = .error error) : ∃ message, error = .thrown message := by
  induction fields generalizing slots with
  | nil => cases slots <;> cases failed
  | cons field fields inductionHypothesis =>
    cases slots with
    | nil => cases failed
    | cons slot slots =>
      cases slot with
      | absent =>
        rw [checkRequired] at failed
        split at failed
        · cases failed
          exact ⟨_, rfl⟩
        · exact inductionHypothesis failed
      | single item => exact inductionHypothesis failed
      | list items => exact inductionHypothesis failed

theorem checkRequired_typed {fields : List Field} {slots : List Slot}
    (decoded : List.Forall₂ (Decoded below) fields slots)
    (passed : checkRequired fields slots = .ok ()) :
    List.Forall₂ (SlotTyped below) fields slots := by
  induction decoded with
  | nil => exact .nil
  | @cons field slot fields slots head _ inductionHypothesis =>
    rcases head with typed | ⟨rfl, needed⟩
    · refine .cons typed (inductionHypothesis ?_)
      cases slot with
      | absent =>
        rw [checkRequired, if_neg (show field.rule ≠ .required from typed)] at passed
        exact passed
      | single item => exact passed
      | list items => exact passed
    · rw [checkRequired, if_pos needed] at passed
      cases passed

/-- Decoding a message that ends at a place inside what may be read. -/
theorem decodeMessage_inside {schema : Schema} {levels index stop : ℕ} {reader : Reader}
    {length : Option ℕ}
    (place : length.elim reader.len (fun length => reader.pos + length) = stop)
    (inside : stop ≤ reader.len) :
    decodeMessage primitives schema (levels + 1) index reader length =
      decodeFields primitives (decodeMessage primitives schema levels) (sortedFields schema index)
        (primitives.readerLimit - levels) stop (stop - reader.pos) (reader.bound stop)
        (construct (sortedFields schema index)) >>= fun result =>
      if length.isSome ∧ result.2.pos ≠ stop then .error OUT_OF_RANGE
      else checkRequired (sortedFields schema index) result.1 >>= fun _ =>
        .ok (result.1, result.2.bound reader.len) := by
  subst place
  rw [decodeMessage]
  exact if_neg (Nat.not_lt.mpr inside)

theorem decodeMessage_outside {schema : Schema} {levels index : ℕ} {reader : Reader}
    {length : Option ℕ}
    (outside : reader.len < length.elim reader.len fun length => reader.pos + length) :
    decodeMessage primitives schema (levels + 1) index reader length = .error OUT_OF_RANGE := by
  rw [decodeMessage]
  exact if_pos outside

/-- Decoding a message, with or without a length, from any place. -/
theorem decodeMessage_reading (correct : primitives.Correct) (schema : Schema)
    (levels index : ℕ) (reader : Reader) (length : Option ℕ) :
    Reading reader
      (fun buf => decodeMessage primitives schema levels index (reader.over buf) length)
      fun slots _ => WellTyped schema levels index slots := by
  induction levels generalizing index reader length with
  | zero => exact Reading.fails _
  | succ levels inductionHypothesis =>
    by_cases outside : reader.len < length.elim reader.len fun length => reader.pos + length
    · have failed : ∀ buf, decodeMessage primitives schema (levels + 1) index (reader.over buf)
          length = .error OUT_OF_RANGE := fun buf => decodeMessage_outside outside
      simp only [failed]
      exact Reading.fails _
    · generalize place : length.elim reader.len (fun length => reader.pos + length) = stop
        at outside
      have inside : stop ≤ reader.len := Nat.not_lt.mp outside
      have unfolded := fun buf =>
        @decodeMessage_inside primitives schema levels index stop (reader.over buf) length place
          inside
      simp only [unfolded]
      have loop := decodeFields_reading correct inductionHypothesis
        (primitives.readerLimit - levels)
        (Nat.le_refl ((reader.bound stop).len - (reader.bound stop).pos))
        (construct_decoded (WellTyped schema levels) (sortedFields schema index))
      refine loop.within inside fun slots last inner decoded => ?_
      dsimp only
      show Reading (last.bound reader.len)
        (fun buf => if length.isSome ∧ last.pos ≠ stop then _ else _) _
      by_cases elsewhere : length.isSome ∧ last.pos ≠ stop
      · simp only [if_pos elsewhere]
        exact Reading.fails _
      · simp only [if_neg elsewhere]
        cases checked : checkRequired (sortedFields schema index) slots with
        | error error =>
          obtain ⟨message, rfl⟩ := checkRequired_thrown checked
          exact Reading.fails message
        | ok _ =>
          have typed : WellTyped schema (levels + 1) index slots :=
            checkRequired_typed decoded checked
          exact Reading.done typed

/-! ### Regions -/

theorem ok_of_bind {first : Except ProtobufError α} {rest : α → Except ProtobufError β}
    {result : β} (bound : first >>= rest = .ok result) :
    ∃ value, first = .ok value ∧ rest value = .ok result := by
  cases first with
  | error error => cases bound
  | ok value => exact ⟨value, rfl, bound⟩

/-- A message with a length ends where its region ends, and the reader gets its end back. -/
theorem decodeMessage_ends (correct : primitives.Correct) {schema : Schema}
    {levels index length : ℕ} {reader after : Reader} {slots : List Slot}
    (decoded : decodeMessage primitives schema levels index reader (some length) =
      .ok (slots, after)) :
    reader.pos + length ≤ reader.len ∧ after = reader.advance length := by
  have led := ((decodeMessage_reading correct schema levels index reader (some length)).leads
    slots after decoded).1
  cases levels with
  | zero => cases decoded
  | succ levels =>
    by_cases outside : reader.len < (some length).elim reader.len fun length => reader.pos + length
    · rw [decodeMessage_outside outside] at decoded
      cases decoded
    · have inside := Nat.not_lt.mp outside
      refine ⟨inside, ?_⟩
      rw [decodeMessage_inside rfl inside] at decoded
      obtain ⟨⟨found, last⟩, _, closed⟩ := ok_of_bind decoded
      by_cases elsewhere : (some length).isSome ∧ last.pos ≠ reader.pos + length
      · rw [Option.elim_some, if_pos elsewhere] at closed
        cases closed
      · rw [Option.elim_some, if_neg elsewhere] at closed
        obtain ⟨_, _, same⟩ := ok_of_bind closed
        cases same
        have place : last.pos = reader.pos + length := by
          by_contra other
          exact elsewhere ⟨rfl, other⟩
        have buffer : last.buf = reader.buf := led.buf
        rw [Reader.bound, Reader.advance, place, buffer]

/-- A message with a length does not depend on the end around its region. -/
theorem decodeMessage_bound {schema : Schema} {levels index length : ℕ} {reader : Reader}
    (inside : reader.pos + length ≤ reader.len) :
    decodeMessage primitives schema levels index reader (some length) =
      (decodeMessage primitives schema levels index (reader.bound (reader.pos + length))
        (some length)).map fun result => (result.1, result.2.bound reader.len) := by
  cases levels with
  | zero => rfl
  | succ levels =>
    have outer := @decodeMessage_inside primitives schema levels index (reader.pos + length) reader
      (some length) rfl inside
    have inner := @decodeMessage_inside primitives schema levels index (reader.pos + length)
      (reader.bound (reader.pos + length)) (some length) rfl le_rfl
    have place : (reader.bound (reader.pos + length)).pos = reader.pos := rfl
    have twice : (reader.bound (reader.pos + length)).bound (reader.pos + length) =
        reader.bound (reader.pos + length) := rfl
    rw [place, twice] at inner
    rw [outer, inner]
    cases decodeFields primitives (decodeMessage primitives schema levels)
      (sortedFields schema index) (primitives.readerLimit - levels) (reader.pos + length)
      (reader.pos + length - reader.pos) (reader.bound (reader.pos + length))
      (construct (sortedFields schema index)) with
    | error error => rfl
    | ok result =>
      by_cases elsewhere : (some length).isSome ∧ result.2.pos ≠ reader.pos + length
      · show (if _ then _ else _ : Except ProtobufError _) =
          (if _ then _ else _ : Except ProtobufError _).map _
        rw [if_pos elsewhere, if_pos elsewhere]
        rfl
      · show (if _ then _ else _ : Except ProtobufError _) =
          (if _ then _ else _ : Except ProtobufError _).map _
        rw [if_neg elsewhere, if_neg elsewhere]
        cases checkRequired (sortedFields schema index) result.1 <;> rfl

/-- What stands behind a region has no influence on the message in it. -/
theorem decodeMessage_region (correct : primitives.Correct) {schema : Schema}
    {levels index length : ℕ} {reader : Reader} {buf : Bytes}
    (same : SameUpTo (reader.pos + length) reader.buf buf) :
    decodeMessage primitives schema levels index (reader.over buf) (some length) =
      (decodeMessage primitives schema levels index reader (some length)).map fun result =>
        (result.1, result.2.over buf) := by
  by_cases inside : reader.pos + length ≤ reader.len
  · have confined := (decodeMessage_reading correct schema levels index
      (reader.bound (reader.pos + length)) (some length)).confined buf same
    have elsewhere : (reader.over buf).pos + length ≤ (reader.over buf).len := inside
    rw [decodeMessage_bound inside, decodeMessage_bound elsewhere]
    show (decodeMessage primitives schema levels index
      ((reader.bound (reader.pos + length)).over buf) (some length)).map _ = _
    rw [confined]
    show (((decodeMessage primitives schema levels index (reader.bound (reader.pos + length))
      (some length)).map _).map _) = _
    cases decodeMessage primitives schema levels index (reader.bound (reader.pos + length))
      (some length) <;> rfl
  · cases levels with
    | zero => rfl
    | succ levels =>
      have outside : reader.len < (some length).elim reader.len fun length => reader.pos + length :=
        Nat.not_le.mp inside
      have elsewhere : (reader.over buf).len < (some length).elim (reader.over buf).len
          fun length => (reader.over buf).pos + length := outside
      rw [decodeMessage_outside outside, decodeMessage_outside elsewhere]
      rfl

end Decoding

end OpenSocial.Extension.Protobuf
