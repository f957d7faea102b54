/-
This file gives the byte codes of numbers in self-delimiting formats: base-128
numbers with a continuation bit, little-endian numbers of a fixed width, and the
zigzag numbering of the integers.

Reading takes the number off the front of some bytes and tells how many it took,
so a code can be read with anything behind it.
-/

import Mathlib

namespace Library.Wire

/-! ### Base-128 numbers -/

/-- The base-128 code of a number, least significant group first, in at most `more + 1` groups. -/
def varint : ℕ → ℕ → List UInt8
  | 0, value => [UInt8.ofNat (value % 128)]
  | more + 1, value =>
    if value < 128 then [UInt8.ofNat value]
    else UInt8.ofNat (value % 128 + 128) :: varint more (value / 128)

/-- A larger number has no shorter code. -/
theorem length_varint_mono {more room value larger : ℕ} (groups : more ≤ room)
    (order : value ≤ larger) : (varint more value).length ≤ (varint room larger).length := by
  induction more generalizing room value larger with
  | zero =>
    cases room with
    | zero => exact le_rfl
    | succ room =>
      rw [varint, varint]
      split
      · exact le_rfl
      · rw [List.length_cons]
        exact Nat.succ_le_succ (Nat.zero_le _)
  | succ more inductionHypothesis =>
    obtain ⟨room, rfl⟩ : ∃ fewer, room = fewer + 1 := ⟨room - 1, by omega⟩
    rw [varint, varint]
    by_cases small : value < 128
    · rw [if_pos small]
      split
      · exact le_rfl
      · rw [List.length_cons]
        exact Nat.succ_le_succ (Nat.zero_le _)
    · rw [if_neg small, if_neg (fun other => small (order.trans_lt other)), List.length_cons,
        List.length_cons]
      exact Nat.succ_le_succ
        (inductionHypothesis (Nat.le_of_succ_le_succ groups) (Nat.div_le_div_right order))

/-- A number of so many groups has a code of that length. -/
theorem length_varint {count more value : ℕ} (enough : count ≤ more)
    (low : 128 ^ count ≤ value ∨ count = 0) (high : value < 128 ^ (count + 1)) :
    (varint more value).length = count + 1 := by
  induction count generalizing more value with
  | zero =>
    rw [zero_add, pow_one] at high
    cases more with
    | zero => rfl
    | succ more =>
      rw [varint, if_pos high]
      rfl
  | succ count inductionHypothesis =>
    obtain ⟨more, rfl⟩ : ∃ fewer, more = fewer + 1 := ⟨more - 1, by omega⟩
    have above : 128 ^ count * 128 ≤ value := by
      rcases low with low | none
      · rwa [pow_succ] at low
      · cases none
    have large : ¬ value < 128 := by
      have positive : 0 < 128 ^ count := Nat.pow_pos (by decide)
      omega
    rw [varint, if_neg large, List.length_cons]
    refine congrArg Nat.succ (inductionHypothesis (Nat.le_of_succ_le_succ enough) ?_ ?_)
    · exact Or.inl ((Nat.le_div_iff_mul_le (by decide)).mpr above)
    · rw [pow_succ] at high
      exact Nat.div_lt_of_lt_mul ((Nat.mul_comm _ _).symm ▸ high)

theorem length_varint_le {count more value : ℕ} (small : value < 128 ^ (count + 1)) :
    (varint more value).length ≤ count + 1 := by
  induction count generalizing more value with
  | zero =>
    rw [zero_add, pow_one] at small
    cases more with
    | zero => exact le_rfl
    | succ more =>
      rw [varint, if_pos small]
      exact le_rfl
  | succ count inductionHypothesis =>
    cases more with
    | zero => exact Nat.succ_le_succ (Nat.zero_le _)
    | succ more =>
      rw [varint]
      by_cases last : value < 128
      · rw [if_pos last]
        exact Nat.succ_le_succ (Nat.zero_le _)
      · rw [if_neg last, List.length_cons]
        rw [pow_succ] at small
        exact Nat.succ_le_succ
          (inductionHypothesis (Nat.div_lt_of_lt_mul ((Nat.mul_comm _ _).symm ▸ small)))

/-- The base-128 number at the front, in at most `more + 1` groups. -/
def readVarint : ℕ → List UInt8 → Option (ℕ × ℕ)
  | _, [] => none
  | 0, byte :: _ => if byte.toNat < 128 then some (byte.toNat, 1) else none
  | more + 1, byte :: rest =>
    if byte.toNat < 128 then some (byte.toNat, 1)
    else (readVarint more rest).map fun read => (byte.toNat - 128 + 128 * read.1, read.2 + 1)

theorem readVarint_last {more value : ℕ} (small : value < 128) (rest : List UInt8) :
    readVarint more (UInt8.ofNat value :: rest) = some (value, 1) := by
  have number : (UInt8.ofNat value).toNat = value :=
    UInt8.toNat_ofNat_of_lt' (small.trans (by decide))
  cases more with
  | zero => rw [readVarint, number, if_pos small]
  | succ more => rw [readVarint, number, if_pos small]

/-- A code is read back, with any bytes behind it and any room for more groups. -/
theorem readVarint_varint {more room value : ℕ} (fits : value < 128 ^ (more + 1))
    (enough : more ≤ room) (rest : List UInt8) :
    readVarint room (varint more value ++ rest) = some (value, (varint more value).length) := by
  induction more generalizing room value with
  | zero =>
    rw [zero_add, pow_one] at fits
    rw [varint, Nat.mod_eq_of_lt fits]
    exact readVarint_last fits rest
  | succ more inductionHypothesis =>
    rw [varint]
    split
    · next small => exact readVarint_last small rest
    · next large =>
      obtain ⟨room, rfl⟩ := Nat.exists_eq_add_of_lt (Nat.lt_of_succ_le enough)
      have byte : value % 128 + 128 < 256 :=
        Nat.add_lt_add_right (Nat.mod_lt value (by decide)) 128
      have number : (UInt8.ofNat (value % 128 + 128)).toNat = value % 128 + 128 :=
        UInt8.toNat_ofNat_of_lt' byte
      have higher : value / 128 < 128 ^ (more + 1) := by
        rw [pow_succ] at fits
        exact Nat.div_lt_of_lt_mul ((Nat.mul_comm _ _).symm ▸ fits)
      rw [List.cons_append, readVarint, number,
        if_neg (Nat.not_lt.mpr (Nat.le_add_left 128 (value % 128))),
        inductionHypothesis higher (Nat.le_add_right more room), Option.map_some,
        Nat.add_sub_cancel, Nat.mod_add_div, List.length_cons]

/-- Reading takes at least one byte, and none that is not there. -/
theorem readVarint_bounds {more value count : ℕ} {bytes : List UInt8}
    (read : readVarint more bytes = some (value, count)) : 0 < count ∧ count ≤ bytes.length := by
  induction bytes generalizing more value count with
  | nil =>
    cases more <;> cases read
  | cons byte rest inductionHypothesis =>
    have first : some (byte.toNat, 1) = some (value, count) →
        0 < count ∧ count ≤ (byte :: rest).length := by
      intro same
      obtain ⟨_, rfl⟩ := Prod.mk.inj (Option.some.inj same)
      exact ⟨Nat.one_pos, Nat.succ_le_succ (Nat.zero_le _)⟩
    cases more with
    | zero =>
      rw [readVarint] at read
      split at read
      · exact first read
      · cases read
    | succ more =>
      rw [readVarint] at read
      split at read
      · exact first read
      · obtain ⟨⟨higher, taken⟩, inner, same⟩ := Option.map_eq_some_iff.mp read
        obtain ⟨_, rfl⟩ := Prod.mk.inj same
        exact ⟨Nat.succ_pos _, Nat.succ_le_succ (inductionHypothesis inner).2⟩

/-! ### Numbers of a fixed width -/

/-- The low bytes of a number, least significant first. -/
def littleEndian : ℕ → ℕ → List UInt8
  | 0, _ => []
  | width + 1, value => UInt8.ofNat (value % 256) :: littleEndian width (value / 256)

/-- The number in the first bytes. -/
def readLittleEndian : ℕ → List UInt8 → Option ℕ
  | 0, _ => some 0
  | _ + 1, [] => none
  | width + 1, byte :: rest =>
    (readLittleEndian width rest).map fun higher => byte.toNat + 256 * higher

@[simp] theorem length_littleEndian (width value : ℕ) :
    (littleEndian width value).length = width := by
  induction width generalizing value with
  | zero => rfl
  | succ width inductionHypothesis =>
    rw [littleEndian, List.length_cons, inductionHypothesis]

theorem readLittleEndian_littleEndian {width value : ℕ} (fits : value < 256 ^ width)
    (rest : List UInt8) :
    readLittleEndian width (littleEndian width value ++ rest) = some value := by
  induction width generalizing value with
  | zero =>
    rw [pow_zero, Nat.lt_one_iff] at fits
    rw [fits]
    rfl
  | succ width inductionHypothesis =>
    have number : (UInt8.ofNat (value % 256)).toNat = value % 256 :=
      UInt8.toNat_ofNat_of_lt' (Nat.mod_lt value (by decide))
    have higher : value / 256 < 256 ^ width := by
      rw [pow_succ] at fits
      exact Nat.div_lt_of_lt_mul ((Nat.mul_comm _ _).symm ▸ fits)
    rw [littleEndian, List.cons_append, readLittleEndian, inductionHypothesis higher,
      Option.map_some, number, Nat.mod_add_div]

theorem readLittleEndian_bounds {width value : ℕ} {bytes : List UInt8}
    (read : readLittleEndian width bytes = some value) : width ≤ bytes.length := by
  induction width generalizing value bytes with
  | zero => exact Nat.zero_le _
  | succ width inductionHypothesis =>
    cases bytes with
    | nil => cases read
    | cons byte rest =>
      obtain ⟨higher, inner, _⟩ := Option.map_eq_some_iff.mp read
      exact Nat.succ_le_succ (inductionHypothesis inner)

/-! ### Zigzag numbers -/

/-- The integers, numbered by their distance from zero. -/
def zigzag (value : ℤ) : ℕ :=
  if 0 ≤ value then (2 * value).toNat else (-2 * value - 1).toNat

def unzigzag (number : ℕ) : ℤ :=
  if number % 2 = 0 then (number / 2 : ℕ) else -((number + 1) / 2 : ℕ)

theorem unzigzag_zigzag (value : ℤ) : unzigzag (zigzag value) = value := by
  unfold zigzag unzigzag
  by_cases positive : 0 ≤ value
  · rw [if_pos positive]
    obtain ⟨number, rfl⟩ := Int.eq_ofNat_of_zero_le positive
    have doubled : (2 * (number : ℤ)).toNat = 2 * number := by omega
    rw [doubled, if_pos (Nat.mul_mod_right 2 number), Nat.mul_div_cancel_left number (by decide)]
  · rw [if_neg positive]
    split <;> omega

/-- The integers of a width are numbered in that width. -/
theorem zigzag_lt {value : ℤ} {half : ℕ} (low : -(half : ℤ) ≤ value) (high : value < half) :
    zigzag value < 2 * half := by
  unfold zigzag
  split <;> omega

/-- Two groups, then one byte that does not belong to the number. -/
example : readVarint 9 (varint 4 300 ++ [7]) = some (300, 2) := by decide

/-! ### Codes of values -/

/-- A way to write values that can be read with any bytes behind it, from bytes that are there. -/
structure Code (Value : Type) where
  write : Value → List UInt8
  read : List UInt8 → Option (Value × ℕ)
  read_write : ∀ (value : Value) (rest : List UInt8),
    read (write value ++ rest) = some (value, (write value).length)
  bounds : ∀ (bytes : List UInt8) (value : Value) (count : ℕ),
    read bytes = some (value, count) → 0 < count ∧ count ≤ bytes.length

namespace Code

variable {Value Other : Type}

/-- Values that are numbered in at most `more + 1` groups, read in at most ten of them. -/
def groups (more : ℕ) (enough : more ≤ 9) (number : Value → ℕ) (value : ℕ → Value)
    (fits : ∀ value, number value < 128 ^ (more + 1))
    (back : ∀ given, value (number given) = given) : Code Value where
  write := fun given => varint more (number given)
  read := fun bytes => (readVarint 9 bytes).map fun found => (value found.1, found.2)
  read_write := by
    intro given rest
    rw [readVarint_varint (fits given) enough rest, Option.map_some, back]
  bounds := by
    intro bytes given count read
    obtain ⟨found, inner, same⟩ := Option.map_eq_some_iff.mp read
    cases same
    exact readVarint_bounds inner

/-- Values that are numbered in a fixed width. -/
def fixed (width : ℕ) (positive : 0 < width) (number : Value → ℕ) (value : ℕ → Value)
    (fits : ∀ value, number value < 256 ^ width)
    (back : ∀ given, value (number given) = given) : Code Value where
  write := fun given => littleEndian width (number given)
  read := fun bytes => (readLittleEndian width bytes).map fun found => (value found, width)
  read_write := by
    intro given rest
    rw [readLittleEndian_littleEndian (fits given) rest, Option.map_some, back,
      length_littleEndian]
  bounds := by
    intro bytes given count read
    obtain ⟨found, inner, same⟩ := Option.map_eq_some_iff.mp read
    cases same
    exact ⟨positive, readLittleEndian_bounds inner⟩

/-- Some bytes behind their length. -/
def framed : Code (List UInt8) where
  write := fun content => varint content.length content.length ++ content
  read := fun bytes => (readVarint bytes.length bytes).bind fun found =>
    if found.2 + found.1 ≤ bytes.length then
      some ((bytes.drop found.2).take found.1, found.2 + found.1)
    else none
  read_write := by
    intro content rest
    have fits : content.length < 128 ^ (content.length + 1) :=
      (Nat.lt_pow_self (by decide)).trans (Nat.pow_lt_pow_right (by decide) (Nat.lt_succ_self _))
    have enough : content.length ≤
        (varint content.length content.length ++ content ++ rest).length := by
      rw [List.length_append, List.length_append]
      omega
    rw [List.append_assoc] at enough ⊢
    rw [readVarint_varint fits enough (content ++ rest), Option.bind_some, if_pos,
      List.drop_left, List.take_left, List.length_append]
    rw [List.length_append, List.length_append, ← Nat.add_assoc]
    exact Nat.le_add_right _ _
  bounds := by
    intro bytes content count read
    obtain ⟨found, inner, taken⟩ := Option.bind_eq_some_iff.mp read
    by_cases there : found.2 + found.1 ≤ bytes.length
    · rw [if_pos there] at taken
      cases taken
      exact ⟨Nat.add_pos_left (readVarint_bounds inner).1 _, there⟩
    · rw [if_neg there] at taken
      cases taken

/-- The code of the values that another code's values stand for. -/
def through (code : Code Other) (represent : Value → Other) (value : Other → Option Value)
    (back : ∀ given, value (represent given) = some given) : Code Value where
  write := fun given => code.write (represent given)
  read := fun bytes => (code.read bytes).bind fun found =>
    (value found.1).map fun given => (given, found.2)
  read_write := by
    intro given rest
    rw [code.read_write, Option.bind_some, back, Option.map_some]
  bounds := by
    intro bytes given count read
    obtain ⟨found, inner, taken⟩ := Option.bind_eq_some_iff.mp read
    obtain ⟨_, _, same⟩ := Option.map_eq_some_iff.mp taken
    cases same
    exact code.bounds bytes found.1 found.2 inner

/-- A text, by the bytes of its characters. -/
def text : Code String :=
  framed.through (fun value => value.toUTF8.data.toList)
    (fun bytes => String.fromUTF8? ⟨bytes.toArray⟩) fun value => by
      rw [Array.toArray_toList]
      exact dif_pos value.isValidUTF8

/-- One value behind another. -/
def pair (first : Code Value) (second : Code Other) : Code (Value × Other) where
  write := fun given => first.write given.1 ++ second.write given.2
  read := fun bytes => (first.read bytes).bind fun found =>
    (second.read (bytes.drop found.2)).map fun other => ((found.1, other.1), found.2 + other.2)
  read_write := by
    intro given rest
    rw [List.append_assoc, first.read_write, Option.bind_some, List.drop_left, second.read_write,
      Option.map_some, List.length_append]
  bounds := by
    intro bytes given count read
    obtain ⟨found, inner, taken⟩ := Option.bind_eq_some_iff.mp read
    obtain ⟨other, later, same⟩ := Option.map_eq_some_iff.mp taken
    cases same
    obtain ⟨positive, there⟩ := first.bounds bytes found.1 found.2 inner
    have behind := (second.bounds (bytes.drop found.2) other.1 other.2 later).2
    rw [List.length_drop] at behind
    exact ⟨Nat.add_pos_left positive _, by omega⟩

/-- So many values in a row. -/
def readMany (code : Code Value) : ℕ → List UInt8 → Option (List Value × ℕ)
  | 0, _ => some ([], 0)
  | count + 1, bytes => (code.read bytes).bind fun found =>
    (readMany code count (bytes.drop found.2)).map fun others =>
      (found.1 :: others.1, found.2 + others.2)

theorem readMany_write (code : Code Value) (values : List Value) (rest : List UInt8) :
    readMany code values.length (values.flatMap code.write ++ rest) =
      some (values, (values.flatMap code.write).length) := by
  induction values with
  | nil => rfl
  | cons value values inductionHypothesis =>
    rw [List.length_cons, readMany, List.flatMap_cons, List.append_assoc, code.read_write,
      Option.bind_some, List.drop_left, inductionHypothesis, Option.map_some, List.length_append]

theorem readMany_le (code : Code Value) {count length : ℕ} {bytes : List UInt8}
    {values : List Value} (read : readMany code count bytes = some (values, length)) :
    length ≤ bytes.length := by
  induction count generalizing bytes values length with
  | zero =>
    cases read
    exact Nat.zero_le _
  | succ count inductionHypothesis =>
    obtain ⟨found, inner, taken⟩ := Option.bind_eq_some_iff.mp read
    obtain ⟨others, later, same⟩ := Option.map_eq_some_iff.mp taken
    cases same
    have there := (code.bounds bytes found.1 found.2 inner).2
    have behind := inductionHypothesis later
    rw [List.length_drop] at behind
    omega

/-- The values of a list behind their number. -/
def list (code : Code Value) : Code (List Value) where
  write := fun values => varint values.length values.length ++ values.flatMap code.write
  read := fun bytes => (readVarint bytes.length bytes).bind fun found =>
    (readMany code found.1 (bytes.drop found.2)).map fun values =>
      (values.1, found.2 + values.2)
  read_write := by
    intro values rest
    have fits : values.length < 128 ^ (values.length + 1) :=
      (Nat.lt_pow_self (by decide)).trans (Nat.pow_lt_pow_right (by decide) (Nat.lt_succ_self _))
    have each : values.length ≤ (values.flatMap code.write).length := by
      induction values with
      | nil => exact le_rfl
      | cons value values inductionHypothesis =>
        have smaller : values.length < 128 ^ (values.length + 1) :=
          (Nat.lt_pow_self (by decide)).trans
            (Nat.pow_lt_pow_right (by decide) (Nat.lt_succ_self _))
        have positive := (code.bounds _ value _ (code.read_write value [])).1
        have more := inductionHypothesis smaller
        rw [List.length_cons, List.flatMap_cons, List.length_append]
        omega
    have enough : values.length ≤
        (varint values.length values.length ++ values.flatMap code.write ++ rest).length := by
      rw [List.length_append, List.length_append]
      omega
    rw [List.append_assoc] at enough ⊢
    rw [readVarint_varint fits enough, Option.bind_some, List.drop_left, readMany_write,
      Option.map_some, List.length_append]
  bounds := by
    intro bytes values count read
    obtain ⟨found, inner, taken⟩ := Option.bind_eq_some_iff.mp read
    obtain ⟨others, later, same⟩ := Option.map_eq_some_iff.mp taken
    cases same
    obtain ⟨positive, there⟩ := readVarint_bounds inner
    have behind := readMany_le code later
    rw [List.length_drop] at behind
    exact ⟨Nat.add_pos_left positive _, by omega⟩

/-- The value that some bytes begin with. -/
def decode (code : Code Value) (bytes : List UInt8) : Option Value :=
  (code.read bytes).map Prod.fst

end Code

end Library.Wire
