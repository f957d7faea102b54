/-
This file gives the primitives of the protobuf wire format: base-128 numbers for
the integers, little-endian bytes for those of fixed width, and a length in front
of strings and bytes. Fields of unknown groups are refused.
-/

import OpenSocial.Library.Wire
import OpenSocial.Extension.Protobuf

namespace OpenSocial.Extension.Protobuf

open Library.Wire

theorem zigzag_int32 (value : Int32) : zigzag value.toInt < 2 ^ 32 := by
  have low := value.le_toInt
  have high := value.toInt_lt
  have half : zigzag value.toInt < 2 * 2 ^ 31 :=
    zigzag_lt (by push_cast; exact low) (by push_cast; exact high)
  omega

theorem zigzag_int64 (value : Int64) : zigzag value.toInt < 2 ^ 64 := by
  have low := value.le_toInt
  have high := value.toInt_lt
  have half : zigzag value.toInt < 2 * 2 ^ 63 :=
    zigzag_lt (by push_cast; exact low) (by push_cast; exact high)
  omega

/-- The integers of 32 bits, unsigned or by their distance from zero, and those of 64 bits. -/
def uint32Code : Code UInt32 :=
  Code.groups 4 (by decide) UInt32.toNat UInt32.ofNat
    (fun value => lt_trans value.toNat_lt (by norm_num)) fun _ => UInt32.ofNat_toNat

def uint64Code : Code UInt64 :=
  Code.groups 9 (by decide) UInt64.toNat UInt64.ofNat
    (fun value => lt_trans value.toNat_lt (by norm_num)) fun _ => UInt64.ofNat_toNat

def sint32Code : Code Int32 :=
  Code.groups 4 (by decide) (fun value => zigzag value.toInt)
    (fun number => Int32.ofInt (unzigzag (number % 2 ^ 32)))
    (fun value => lt_trans (zigzag_int32 value) (by norm_num)) fun value => by
      rw [Nat.mod_eq_of_lt (zigzag_int32 value), unzigzag_zigzag, Int32.ofInt_toInt]

def sint64Code : Code Int64 :=
  Code.groups 9 (by decide) (fun value => zigzag value.toInt)
    (fun number => Int64.ofInt (unzigzag (number % 2 ^ 64)))
    (fun value => lt_trans (zigzag_int64 value) (by norm_num)) fun value => by
      rw [Nat.mod_eq_of_lt (zigzag_int64 value), unzigzag_zigzag, Int64.ofInt_toInt]

def fixed32Code : Code UInt32 :=
  Code.fixed 4 (by decide) UInt32.toNat UInt32.ofNat (fun value => value.toNat_lt)
    fun _ => UInt32.ofNat_toNat

def fixed64Code : Code UInt64 :=
  Code.fixed 8 (by decide) UInt64.toNat UInt64.ofNat (fun value => value.toNat_lt)
    fun _ => UInt64.ofNat_toNat

def boolCode : Code Bool :=
  Code.groups 0 (by decide) Bool.toNat (fun number => number != 0)
    (fun value => by cases value <;> decide) (by decide)

/-- A negative integer of 32 bits is written with the sign of 64. -/
def scalarCode : (type : Scalar) → Code type.Value
  | .double => fixed64Code
  | .float => fixed32Code
  | .int32 => uint64Code.through (fun value => value.toInt64.toUInt64)
      (fun number => some number.toInt64.toInt32) fun value => by
        rw [Int64.toInt64_toUInt64, Int32.toInt32_toInt64]
  | .uint32 => uint32Code
  | .sint32 => sint32Code
  | .fixed32 => fixed32Code
  | .sfixed32 => fixed32Code.through Int32.toUInt32 (fun number => some number.toInt32) fun _ => rfl
  | .int64 => uint64Code.through Int64.toUInt64 (fun number => some number.toInt64) fun _ => rfl
  | .uint64 => uint64Code
  | .sint64 => sint64Code
  | .fixed64 => fixed64Code
  | .sfixed64 => fixed64Code.through Int64.toUInt64 (fun number => some number.toInt64) fun _ => rfl
  | .bool => boolCode
  | .string => Code.text
  | .bytes => Code.framed

def skipField (wireType : ℕ) (bytes : Bytes) : Option ℕ :=
  match wireType with
  | 0 => (uint64Code.read bytes).map Prod.snd
  | 1 => (fixed64Code.read bytes).map Prod.snd
  | 2 => (Code.framed.read bytes).map Prod.snd
  | 5 => (fixed32Code.read bytes).map Prod.snd
  | _ => none

/-- The primitives with these codes. -/
def standard : Primitives where
  write := fun type => (scalarCode type).write
  read := fun type bytes =>
    ((scalarCode type).read bytes).elim (.error "index out of range") .ok
  skip := fun wireType _ bytes => (skipField wireType bytes).elim (.error "invalid wire type") .ok
  recursionLimit := 100
  readerLimit := 100

theorem taken_le {Value : Type} (code : Code Value) {bytes : Bytes} {count : ℕ}
    (taken : (code.read bytes).map Prod.snd = some count) : count ≤ bytes.length := by
  obtain ⟨⟨value, length⟩, read, same⟩ := Option.map_eq_some_iff.mp taken
  cases same
  exact (code.bounds bytes value _ read).2

theorem skipField_le {wireType count : ℕ} {bytes : Bytes}
    (skipped : skipField wireType bytes = some count) : count ≤ bytes.length := by
  unfold skipField at skipped
  split at skipped
  · exact taken_le _ skipped
  · exact taken_le _ skipped
  · exact taken_le _ skipped
  · exact taken_le _ skipped
  · cases skipped

theorem standard_correct : standard.Correct where
  read_write := by
    intro type value rest
    show ((scalarCode type).read _).elim _ _ = _
    rw [show standard.write type value = (scalarCode type).write value from rfl,
      (scalarCode type).read_write]
    rfl
  read_within := by
    intro type bytes value count read
    change ((scalarCode type).read bytes).elim _ _ = _ at read
    cases found : (scalarCode type).read bytes with
    | none =>
      rw [found] at read
      cases read
    | some taken =>
      rw [found] at read
      cases read
      exact (scalarCode type).bounds bytes value count found
  skip_within := by
    intro wireType depth bytes count skipped
    change (skipField wireType bytes).elim _ _ = _ at skipped
    cases found : skipField wireType bytes with
    | none =>
      rw [found] at skipped
      cases skipped
    | some taken =>
      rw [found] at skipped
      cases skipped
      exact skipField_le found

end OpenSocial.Extension.Protobuf
