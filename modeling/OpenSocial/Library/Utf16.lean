/-
This file gives texts as sequences of 16-bit code units, which need not be well
formed: a surrogate may stand alone. It gives their code points, their UTF-8 bytes,
in which a lone surrogate becomes the replacement character, and how such bytes are
read, where a byte-order mark in front is dropped. It also gives their quoted form
inside a JSON text, in which a lone surrogate is escaped, so nothing is lost there.
-/

import Mathlib

namespace Library.Utf16

/-- A text, by its code units. -/
abbrev Text := List UInt16

/-- A character, or a surrogate that has no other half. -/
inductive CodePoint where
  | scalar (character : Char)
  | lone (unit : UInt16)
  deriving DecidableEq

/-! ### Code points -/

def isHigh (unit : UInt16) : Bool := 0xD800 ≤ unit.toNat && unit.toNat ≤ 0xDBFF

def isLow (unit : UInt16) : Bool := 0xDC00 ≤ unit.toNat && unit.toNat ≤ 0xDFFF

/-- The character of two surrogates. -/
def joined (high low : UInt16) : Char :=
  Char.ofNat (0x10000 + (high.toNat - 0xD800) * 0x400 + (low.toNat - 0xDC00))

/-- A code unit by itself. -/
def point (unit : UInt16) : CodePoint :=
  if isHigh unit || isLow unit then .lone unit else .scalar (Char.ofNat unit.toNat)

/-- A code unit in front of some code points. -/
def prepend (unit : UInt16) : List CodePoint → List CodePoint
  | .lone low :: rest =>
    if isHigh unit && isLow low then .scalar (joined unit low) :: rest
    else point unit :: .lone low :: rest
  | rest => point unit :: rest

/-- The code points of a text. -/
def codePoints : Text → List CodePoint
  | [] => []
  | unit :: rest => prepend unit (codePoints rest)

/-- The code units of a character. -/
def charUnits (character : Char) : Text :=
  if character.toNat < 0x10000 then [UInt16.ofNat character.toNat]
  else [UInt16.ofNat (0xD800 + (character.toNat - 0x10000) / 0x400),
    UInt16.ofNat (0xDC00 + (character.toNat - 0x10000) % 0x400)]

def units : CodePoint → Text
  | .scalar character => charUnits character
  | .lone unit => [unit]

theorem prepend_lone (unit low : UInt16) (rest : List CodePoint) :
    prepend unit (.lone low :: rest) =
      if isHigh unit && isLow low then .scalar (joined unit low) :: rest
      else point unit :: .lone low :: rest := rfl

theorem isHigh_iff {unit : UInt16} :
    isHigh unit = true ↔ 0xD800 ≤ unit.toNat ∧ unit.toNat ≤ 0xDBFF := by
  unfold isHigh
  rw [Bool.and_eq_true, decide_eq_true_eq, decide_eq_true_eq]

theorem isLow_iff {unit : UInt16} :
    isLow unit = true ↔ 0xDC00 ≤ unit.toNat ∧ unit.toNat ≤ 0xDFFF := by
  unfold isLow
  rw [Bool.and_eq_true, decide_eq_true_eq, decide_eq_true_eq]

theorem toNat_ofNat {number : ℕ} (valid : number < 0xD800 ∨ 0xDFFF < number ∧ number < 0x110000) :
    (Char.ofNat number).toNat = number := by
  rw [Char.toNat_ofNat, if_pos valid]

theorem units_point (unit : UInt16) : units (point unit) = [unit] := by
  unfold point
  by_cases surrogate : (isHigh unit || isLow unit) = true
  · rw [if_pos surrogate]
    rfl
  · rw [if_neg surrogate]
    rw [Bool.or_eq_true, isHigh_iff, isLow_iff] at surrogate
    have small := unit.toNat_lt
    have number : (Char.ofNat unit.toNat).toNat = unit.toNat := toNat_ofNat (by omega)
    show charUnits (Char.ofNat unit.toNat) = [unit]
    unfold charUnits
    rw [number, if_pos (by omega), UInt16.ofNat_toNat]

theorem units_joined {high low : UInt16} (first : isHigh high = true) (second : isLow low = true) :
    charUnits (joined high low) = [high, low] := by
  rw [isHigh_iff] at first
  rw [isLow_iff] at second
  have number : (joined high low).toNat =
      0x10000 + (high.toNat - 0xD800) * 0x400 + (low.toNat - 0xDC00) := toNat_ofNat (by omega)
  unfold charUnits
  rw [number, if_neg (by omega)]
  have upper : 0xD800 + (0x10000 + (high.toNat - 0xD800) * 0x400 + (low.toNat - 0xDC00) - 0x10000) /
      0x400 = high.toNat := by omega
  have lower : 0xDC00 + (0x10000 + (high.toNat - 0xD800) * 0x400 + (low.toNat - 0xDC00) - 0x10000) %
      0x400 = low.toNat := by omega
  rw [upper, lower, UInt16.ofNat_toNat, UInt16.ofNat_toNat]

theorem units_prepend (unit : UInt16) (points : List CodePoint) :
    (prepend unit points).flatMap units = unit :: points.flatMap units := by
  have alone : (point unit :: points).flatMap units = unit :: points.flatMap units := by
    rw [List.flatMap_cons, units_point]
    rfl
  cases points with
  | nil => exact alone
  | cons head rest =>
    cases head with
    | scalar character => exact alone
    | lone low =>
      rw [prepend_lone]
      by_cases pair : (isHigh unit && isLow low) = true
      · rw [if_pos pair]
        rw [Bool.and_eq_true] at pair
        rw [List.flatMap_cons]
        show charUnits (joined unit low) ++ _ = _
        rw [units_joined pair.1 pair.2]
        rfl
      · rw [if_neg pair]
        exact alone

/-- A text is recovered from its code points. -/
theorem units_codePoints (text : Text) : (codePoints text).flatMap units = text := by
  induction text with
  | nil => rfl
  | cons unit rest inductionHypothesis =>
    unfold codePoints
    rw [units_prepend, inductionHypothesis]

theorem codePoints_inj {first second : Text} (same : codePoints first = codePoints second) :
    first = second := by
  rw [← units_codePoints first, same, units_codePoints]

/-- Characters are read from their code units. -/
theorem codePoints_chars (characters : List Char) :
    codePoints (characters.flatMap charUnits) = characters.map .scalar := by
  induction characters with
  | nil => rfl
  | cons character rest inductionHypothesis =>
    have before : ∀ unit, prepend unit (rest.map .scalar) = point unit :: rest.map .scalar := by
      intro unit
      cases rest with
      | nil => rfl
      | cons next others => rfl
    have valid : character.toNat < 0xD800 ∨ 0xDFFF < character.toNat ∧ character.toNat < 0x110000 :=
      character.valid
    rw [List.flatMap_cons, List.map_cons]
    unfold charUnits
    by_cases small : character.toNat < 0x10000
    · rw [if_pos small]
      show prepend _ (codePoints (rest.flatMap charUnits)) = _
      have number : (UInt16.ofNat character.toNat).toNat = character.toNat :=
        UInt16.toNat_ofNat_of_lt' small
      have plain : ¬ (isHigh (UInt16.ofNat character.toNat) ||
          isLow (UInt16.ofNat character.toNat)) = true := by
        rw [Bool.or_eq_true, isHigh_iff, isLow_iff, number]
        omega
      rw [inductionHypothesis, before]
      unfold point
      rw [if_neg plain, number, Char.ofNat_toNat]
    · rw [if_neg small]
      show prepend _ (prepend _ (codePoints (rest.flatMap charUnits))) = _
      rw [inductionHypothesis, before]
      have high : (UInt16.ofNat (0xD800 + (character.toNat - 0x10000) / 0x400)).toNat =
          0xD800 + (character.toNat - 0x10000) / 0x400 := UInt16.toNat_ofNat_of_lt' (by
            show _ < 65536
            omega)
      have low : (UInt16.ofNat (0xDC00 + (character.toNat - 0x10000) % 0x400)).toNat =
          0xDC00 + (character.toNat - 0x10000) % 0x400 := UInt16.toNat_ofNat_of_lt' (by
            show _ < 65536
            omega)
      have first : isHigh (UInt16.ofNat (0xD800 + (character.toNat - 0x10000) / 0x400)) = true := by
        rw [isHigh_iff, high]
        omega
      have second : isLow (UInt16.ofNat (0xDC00 + (character.toNat - 0x10000) % 0x400)) = true := by
        rw [isLow_iff, low]
        omega
      have apart : point (UInt16.ofNat (0xDC00 + (character.toNat - 0x10000) % 0x400)) =
          .lone (UInt16.ofNat (0xDC00 + (character.toNat - 0x10000) % 0x400)) := by
        unfold point
        rw [second, Bool.or_true, if_pos rfl]
      rw [apart, prepend_lone, first, second, Bool.and_self, if_pos rfl]
      unfold joined
      rw [high, low]
      have number : 0x10000 + (0xD800 + (character.toNat - 0x10000) / 0x400 - 0xD800) * 0x400 +
          (0xDC00 + (character.toNat - 0x10000) % 0x400 - 0xDC00) = character.toNat := by omega
      rw [number, Char.ofNat_toNat]

/-! ### UTF-8 -/

/-- The character that is written for a code point. -/
def scalarOf : CodePoint → Char
  | .scalar character => character
  | .lone _ => Char.ofNat 0xFFFD

/-- The text with replacement characters in place of lone surrogates. -/
def scalars (text : Text) : List Char := (codePoints text).map scalarOf

/-- A text without lone surrogates. -/
def WellFormed (text : Text) : Prop :=
  ∀ point ∈ codePoints text, ∃ character, point = .scalar character

theorem wellFormed_chars (characters : List Char) : WellFormed (characters.flatMap charUnits) := by
  intro point member
  rw [codePoints_chars] at member
  obtain ⟨character, _, rfl⟩ := List.mem_map.mp member
  exact ⟨character, rfl⟩

/-- The UTF-8 bytes of some characters. -/
def bytesOf (characters : List Char) : List UInt8 := (String.ofList characters).toUTF8.data.toList

/-- The UTF-8 bytes of a text. -/
def utf8 (text : Text) : List UInt8 := bytesOf (scalars text)

/-- A text without the byte-order mark in front. -/
def withoutMark : Text → Text
  | unit :: rest => if unit = 0xFEFF then rest else unit :: rest
  | [] => []

/-- The text of some bytes; `lossy` is what is made of malformed ones. -/
def utf8Decode (lossy : List UInt8 → Text) (bytes : List UInt8) : Text :=
  match String.fromUTF8? ⟨bytes.toArray⟩ with
  | some text => withoutMark (text.toList.flatMap charUnits)
  | none => lossy bytes

theorem fromUTF8_bytesOf (characters : List Char) :
    String.fromUTF8? ⟨(bytesOf characters).toArray⟩ = some (String.ofList characters) := by
  unfold bytesOf
  rw [Array.toArray_toList]
  exact dif_pos (String.ofList characters).isValidUTF8

theorem bytesOf_inj {first second : List Char} (same : bytesOf first = bytesOf second) :
    first = second := by
  have equal := fromUTF8_bytesOf first
  rw [same, fromUTF8_bytesOf second] at equal
  have texts := congrArg String.toList (Option.some.inj equal)
  rw [String.toList_ofList, String.toList_ofList] at texts
  exact texts.symm

theorem utf8Decode_utf8 (lossy : List UInt8 → Text) (text : Text) :
    utf8Decode lossy (utf8 text) = withoutMark ((scalars text).flatMap charUnits) := by
  unfold utf8Decode utf8
  rw [fromUTF8_bytesOf]
  dsimp only
  rw [String.toList_ofList]

theorem length_scalars (text : Text) : ((scalars text).flatMap charUnits).length = text.length := by
  have each : ∀ point, (charUnits (scalarOf point)).length = (units point).length := by
    intro point
    cases point with
    | scalar character => rfl
    | lone unit => rfl
  have whole := congrArg List.length (units_codePoints text)
  rw [List.length_flatMap] at whole
  rw [← whole]
  unfold scalars
  rw [List.flatMap_map, List.length_flatMap]
  exact congrArg List.sum (List.map_congr_left fun point _ => each point)

theorem scalars_wellFormed {text : Text} (fine : WellFormed text) :
    (scalars text).flatMap charUnits = text := by
  have whole := units_codePoints text
  unfold scalars
  rw [List.flatMap_map]
  refine Eq.trans (List.flatMap_congr fun point member => ?_) whole
  obtain ⟨character, rfl⟩ := fine point member
  rfl

/-- A text is read back from its bytes exactly if it is well formed and no byte-order mark stands in
front of it. -/
theorem utf8Decode_utf8_iff (lossy : List UInt8 → Text) (text : Text) :
    utf8Decode lossy (utf8 text) = text ↔ WellFormed text ∧ text.head? ≠ some 0xFEFF := by
  rw [utf8Decode_utf8]
  constructor
  · intro back
    have long := length_scalars text
    have kept : withoutMark ((scalars text).flatMap charUnits) = (scalars text).flatMap charUnits ∧
        ((scalars text).flatMap charUnits).head? ≠ some 0xFEFF := by
      cases found : (scalars text).flatMap charUnits with
      | nil => exact ⟨rfl, fun same => by cases same⟩
      | cons unit rest =>
        rw [found] at back long
        unfold withoutMark at back ⊢
        dsimp only at back ⊢
        by_cases mark : unit = 0xFEFF
        · rw [if_pos mark] at back
          rw [← back, List.length_cons] at long
          omega
        · rw [if_neg mark]
          exact ⟨rfl, fun same => mark (Option.some.inj same)⟩
    rw [kept.1] at back
    refine ⟨fun point member => ?_, back ▸ kept.2⟩
    rw [← back, codePoints_chars] at member
    obtain ⟨character, _, rfl⟩ := List.mem_map.mp member
    exact ⟨character, rfl⟩
  · rintro ⟨fine, first⟩
    rw [scalars_wellFormed fine]
    cases text with
    | nil => rfl
    | cons unit rest => exact if_neg fun mark => first (congrArg some mark)

/-! ### White space -/

def spaces : List UInt16 :=
  [0x0009, 0x000A, 0x000B, 0x000C, 0x000D, 0x0020, 0x00A0, 0x1680, 0x2000, 0x2001, 0x2002, 0x2003,
    0x2004, 0x2005, 0x2006, 0x2007, 0x2008, 0x2009, 0x200A, 0x2028, 0x2029, 0x202F, 0x205F, 0x3000,
    0xFEFF]

/-- Whether nothing is left of a text when it is trimmed. -/
def isBlank (text : Text) : Bool := text.all fun unit => spaces.contains unit

/-! ### Quoted texts -/

def hexDigit (value : ℕ) : Char :=
  if value < 10 then Char.ofNat (48 + value) else Char.ofNat (87 + value)

def digitValue (digit : Char) : ℕ :=
  if digit.toNat < 58 then digit.toNat - 48 else digit.toNat - 87

/-- `\uXXXX`. -/
def escaped (value : ℕ) : List Char :=
  ['\\', 'u', hexDigit (value / 4096 % 16), hexDigit (value / 256 % 16), hexDigit (value / 16 % 16),
    hexDigit (value % 16)]

/-- The characters that have a short form, with the letter that stands for them. -/
def shortForms : List (Char × Char) :=
  [('"', '"'), ('\\', '\\'), ('\x08', 'b'), ('\t', 't'), ('\n', 'n'), ('\x0c', 'f'), ('\r', 'r')]

/-- How a code point stands inside quotes. -/
def quoteChar : CodePoint → List Char
  | .scalar character =>
    match shortForms.lookup character with
    | some letter => ['\\', letter]
    | none => if character.toNat < 0x20 then escaped character.toNat else [character]
  | .lone unit => escaped unit.toNat

/-- The quoted form of a text. -/
def quote (text : Text) : List Char := '"' :: (codePoints text).flatMap quoteChar ++ ['"']

/-- The code point with this number. -/
def numbered (value : ℕ) : CodePoint :=
  if value < 0xD800 then .scalar (Char.ofNat value) else .lone (UInt16.ofNat value)

def unquoteHex : List Char → Option (CodePoint × List Char)
  | first :: second :: third :: last :: rest =>
    some (numbered (4096 * digitValue first + 256 * digitValue second + 16 * digitValue third +
      digitValue last), rest)
  | _ => none

def unquoteEscape : List Char → Option (CodePoint × List Char)
  | letter :: rest =>
    if letter = 'u' then unquoteHex rest
    else (shortForms.find? fun form => form.2 = letter).map fun form => (.scalar form.1, rest)
  | [] => none

/-- The code point at the front of what stands inside quotes. -/
def unquote : List Char → Option (CodePoint × List Char)
  | character :: rest =>
    if character = '\\' then unquoteEscape rest else some (.scalar character, rest)
  | [] => none

theorem digitValue_hexDigit {value : ℕ} (small : value < 16) :
    digitValue (hexDigit value) = value := by
  revert value
  decide

theorem unquote_escaped {value : ℕ} (small : value < 65536) (rest : List Char) :
    unquote (escaped value ++ rest) = some (numbered value, rest) := by
  have digit : ∀ part, digitValue (hexDigit (part % 16)) = part % 16 :=
    fun part => digitValue_hexDigit (Nat.mod_lt part (by decide))
  show some (numbered (4096 * digitValue (hexDigit (value / 4096 % 16)) +
    256 * digitValue (hexDigit (value / 256 % 16)) + 16 * digitValue (hexDigit (value / 16 % 16)) +
      digitValue (hexDigit (value % 16))), rest) = _
  rw [digit, digit, digit, digit]
  have whole : 4096 * (value / 4096 % 16) + 256 * (value / 256 % 16) + 16 * (value / 16 % 16) +
      value % 16 = value := by omega
  rw [whole]

theorem shortForms_known : ∀ form ∈ shortForms,
    form.2 ≠ 'u' ∧ (shortForms.find? fun other => other.2 = form.2) = some form := by decide

theorem unquote_short {character letter : Char} (short : shortForms.lookup character = some letter)
    (rest : List Char) : unquote ('\\' :: letter :: rest) = some (.scalar character, rest) := by
  obtain ⟨before, after, whole, _⟩ := List.lookup_eq_some_iff.mp short
  have member : (character, letter) ∈ shortForms := by
    rw [whole]
    exact List.mem_append_right before List.mem_cons_self
  obtain ⟨other, found⟩ := shortForms_known _ member
  show (if letter = 'u' then unquoteHex rest else (shortForms.find? fun form => form.2 = letter).map
    fun form => (CodePoint.scalar form.1, rest)) = _
  rw [if_neg other, found]
  rfl

/-- A surrogate by itself, or a character. -/
def Proper (point : CodePoint) : Prop :=
  ∀ unit, point = .lone unit → 0xD800 ≤ unit.toNat ∧ unit.toNat ≤ 0xDFFF

theorem proper_point (unit : UInt16) : Proper (point unit) := by
  intro other same
  unfold point at same
  by_cases surrogate : (isHigh unit || isLow unit) = true
  · rw [if_pos surrogate] at same
    cases same
    rw [Bool.or_eq_true, isHigh_iff, isLow_iff] at surrogate
    omega
  · rw [if_neg surrogate] at same
    cases same

theorem proper_prepend {unit : UInt16} {points : List CodePoint}
    (proper : ∀ point ∈ points, Proper point) : ∀ point ∈ prepend unit points, Proper point := by
  have alone : ∀ other ∈ point unit :: points, Proper other :=
    List.forall_mem_cons.mpr ⟨proper_point unit, proper⟩
  cases points with
  | nil => exact alone
  | cons head rest =>
    cases head with
    | scalar character => exact alone
    | lone low =>
      rw [prepend_lone]
      by_cases pair : (isHigh unit && isLow low) = true
      · rw [if_pos pair]
        refine List.forall_mem_cons.mpr ⟨fun other same => (by cases same), ?_⟩
        exact (List.forall_mem_cons.mp proper).2
      · rw [if_neg pair]
        exact alone

theorem proper_codePoints (text : Text) : ∀ point ∈ codePoints text, Proper point := by
  induction text with
  | nil =>
    intro point member
    cases member
  | cons unit rest inductionHypothesis => exact proper_prepend inductionHypothesis

theorem numbered_character {character : Char} (control : character.toNat < 0x20) :
    numbered character.toNat = .scalar character := by
  unfold numbered
  rw [if_pos (by omega), Char.ofNat_toNat]

/-- A code point is read back from its quoted form. -/
theorem unquote_quoteChar {point : CodePoint} (proper : Proper point) (rest : List Char) :
    unquote (quoteChar point ++ rest) = some (point, rest) := by
  cases point with
  | lone unit =>
    obtain ⟨low, high⟩ := proper unit rfl
    have number : numbered unit.toNat = .lone unit := by
      unfold numbered
      rw [if_neg (by omega), UInt16.ofNat_toNat]
    show unquote (escaped unit.toNat ++ rest) = _
    rw [unquote_escaped unit.toNat_lt, number]
  | scalar character =>
    unfold quoteChar
    dsimp only
    cases short : shortForms.lookup character with
    | some letter => exact unquote_short short rest
    | none =>
      dsimp only
      by_cases control : character.toNat < 0x20
      · rw [if_pos control, unquote_escaped (by omega), numbered_character control]
      · rw [if_neg control]
        have plain : character ≠ '\\' := by
          rintro rfl
          cases short
        exact if_neg plain

/-- No quoted form starts with a quotation mark. -/
theorem quoteChar_starts (point : CodePoint) :
    ∃ first rest, quoteChar point = first :: rest ∧ first ≠ '"' := by
  cases point with
  | lone unit => exact ⟨'\\', _, rfl, by decide⟩
  | scalar character =>
    unfold quoteChar
    dsimp only
    cases short : shortForms.lookup character with
    | some letter => exact ⟨'\\', _, rfl, by decide⟩
    | none =>
      dsimp only
      by_cases control : character.toNat < 0x20
      · rw [if_pos control]
        exact ⟨'\\', _, rfl, by decide⟩
      · rw [if_neg control]
        refine ⟨character, [], rfl, ?_⟩
        rintro rfl
        cases short

/-- What stands inside quotes ends at the next quotation mark. -/
theorem quoteChars_inj {first second : List CodePoint} (proper : ∀ point ∈ first, Proper point)
    (other : ∀ point ∈ second, Proper point) {rest more : List Char}
    (same : first.flatMap quoteChar ++ '"' :: rest = second.flatMap quoteChar ++ '"' :: more) :
    first = second ∧ rest = more := by
  induction first generalizing second with
  | nil =>
    cases second with
    | nil => exact ⟨rfl, (List.cons.inj same).2⟩
    | cons point points =>
      obtain ⟨start, tail, form, mark⟩ := quoteChar_starts point
      rw [List.flatMap_cons, form] at same
      exact absurd (List.cons.inj same).1.symm mark
  | cons point points inductionHypothesis =>
    cases second with
    | nil =>
      obtain ⟨start, tail, form, mark⟩ := quoteChar_starts point
      rw [List.flatMap_cons, form] at same
      exact absurd (List.cons.inj same).1 mark
    | cons next others =>
      rw [List.forall_mem_cons] at proper other
      rw [List.flatMap_cons, List.flatMap_cons, List.append_assoc, List.append_assoc] at same
      have read := congrArg unquote same
      rw [unquote_quoteChar proper.1, unquote_quoteChar other.1] at read
      obtain ⟨rfl, tails⟩ := Prod.mk.inj (Option.some.inj read)
      obtain ⟨rfl, ends⟩ := inductionHypothesis proper.2 other.2 tails
      exact ⟨rfl, ends⟩

/-- A quoted text ends where it ends. -/
theorem quote_inj {first second : Text} {rest more : List Char}
    (same : quote first ++ rest = quote second ++ more) : first = second ∧ rest = more := by
  unfold quote at same
  rw [List.cons_append, List.cons_append, List.append_assoc, List.append_assoc] at same
  obtain ⟨points, ends⟩ := quoteChars_inj (proper_codePoints first) (proper_codePoints second)
    (List.cons.inj same).2
  exact ⟨codePoints_inj points, ends⟩

/-! ### Objects of texts -/

/-- The members of an object, with commas between them. -/
def membersText : List (Text × Text) → List Char
  | [] => []
  | member :: rest => quote member.1 ++ ':' :: (quote member.2 ++
    if rest.isEmpty then [] else ',' :: membersText rest)

/-- The JSON text of an object of texts. -/
def objectText (members : List (Text × Text)) : List Char := '{' :: membersText members ++ ['}']

theorem membersText_inj {first second : List (Text × Text)} {rest more : List Char}
    (same : membersText first ++ '}' :: rest = membersText second ++ '}' :: more) :
    first = second ∧ rest = more := by
  have starts : ∀ (member : Text × Text) (others : List (Text × Text)) (ends before : List Char),
      membersText (member :: others) ++ ends ≠ '}' :: before := by
    intro member others ends before equal
    exact absurd (List.cons.inj equal).1 (by decide)
  induction first generalizing second with
  | nil =>
    cases second with
    | nil => exact ⟨rfl, (List.cons.inj same).2⟩
    | cons member others => exact absurd same.symm (starts member others _ _)
  | cons member others inductionHypothesis =>
    cases second with
    | nil => exact absurd same (starts member others _ _)
    | cons next remaining =>
      unfold membersText at same
      rw [List.append_assoc, List.append_assoc, List.cons_append, List.cons_append] at same
      obtain ⟨keys, values⟩ := quote_inj same
      replace values := (List.cons.inj values).2
      rw [List.append_assoc, List.append_assoc] at values
      obtain ⟨texts, tails⟩ := quote_inj values
      have heads : member = next := Prod.ext keys texts
      cases others with
      | nil =>
        cases remaining with
        | nil => exact ⟨by rw [heads], (List.cons.inj tails).2⟩
        | cons one further => exact absurd (List.cons.inj tails).1 (by decide)
      | cons one further =>
        cases remaining with
        | nil => exact absurd (List.cons.inj tails).1 (by decide)
        | cons another furthest =>
          obtain ⟨lists, ends⟩ := inductionHypothesis (List.cons.inj tails).2
          exact ⟨by rw [heads, lists], ends⟩

/-- An object is recovered from its text. -/
theorem objectText_inj {first second : List (Text × Text)}
    (same : objectText first = objectText second) : first = second :=
  (membersText_inj (List.cons.inj same).2).1

end Library.Utf16
