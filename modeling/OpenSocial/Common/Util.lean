/-
This file models what every contract shares: byte strings, the requirements
that revert a call, and the small helpers of `common/assembly/util.ts`.

A contract method is an `Except Failure` computation. A failed requirement
ends the call, and the chain discards whatever it wrote, so nothing else about
a failed call has to be modelled. A bytes field that is absent on the wire and
one that is empty are the same value here, as they are after protobuf decoding.
-/

import OpenSocial.Library.Outcome
import OpenSocial.Library.SortedPair

namespace OpenSocial

/-- A byte string. -/
abbrev Bytes := List UInt8

/-- Why a call failed. `overflow` stands for integer arithmetic that would leave its type. -/
inductive Failure where
  | reverted (message : String)
  | unauthorized (account : Bytes)
  | overflow
  deriving DecidableEq, Repr

/-- `System.require`: revert with a message unless the condition holds. -/
def require (condition : Bool) (message : String) : Except Failure Unit :=
  if condition then .ok () else .error (.reverted message)

/-- `System.require` of a nullable value: revert when it is null, answer it otherwise. -/
def requireSome {Value : Type} (value : Option Value) (message : String) :
    Except Failure Value :=
  match value with
  | none => .error (.reverted message)
  | some present => .ok present

/-- Integer arithmetic inside a call: an absent value is an overflow. -/
def checked (value : Option ℕ) : Except Failure ℕ :=
  match value with
  | none => .error .overflow
  | some result => .ok result

/-! ### Inverting a successful call -/

section Inversion

variable {Value Result : Type}

@[simp] theorem bind_eq_ok (first : Except Failure Value) (rest : Value → Except Failure Result)
    (result : Result) :
    (first >>= rest) = .ok result ↔ ∃ value, first = .ok value ∧ rest value = .ok result := by
  cases first with
  | error failure =>
    constructor
    · intro impossible
      exact absurd impossible (by simp [bind, Except.bind])
    · rintro ⟨value, impossible, _⟩
      exact absurd impossible (by simp)
  | ok value =>
    constructor
    · intro answer
      exact ⟨value, rfl, answer⟩
    · rintro ⟨other, same, answer⟩
      cases same
      exact answer

@[simp] theorem pure_eq_ok (value result : Value) :
    (pure value : Except Failure Value) = .ok result ↔ value = result := by
  simp [pure, Except.pure]

@[simp] theorem require_eq_ok (condition : Bool) (message : String) (result : Unit) :
    require condition message = .ok result ↔ condition = true := by
  unfold require
  split
  · next holds => simp [holds]
  · next fails => simp [fails]

@[simp] theorem requireSome_eq_ok (value : Option Value) (message : String) (result : Value) :
    requireSome value message = .ok result ↔ value = some result := by
  cases value with
  | none => simp [requireSome]
  | some present => simp [requireSome]

@[simp] theorem checked_eq_ok (value : Option ℕ) (result : ℕ) :
    checked value = .ok result ↔ value = some result := by
  cases value with
  | none => simp [checked]
  | some present => simp [checked]

/-- A computation that answers has an answer. -/
theorem exists_ok_of_toBool {computation : Except Failure Value}
    (answers : computation.toBool = true) : ∃ value, computation = .ok value := by
  cases computation with
  | error failure => exact absurd answers Bool.false_ne_true
  | ok value => exact ⟨value, rfl⟩

end Inversion

/-! ### Calls that do not overflow -/

section Overflow

open Library

variable {Value : Type}

/-- The computation never overflows, and its answer satisfies `post`. -/
abbrev Sound (computation : Except Failure Value) (post : Value → Prop) : Prop :=
  Meets (fun failure => failure ≠ .overflow) computation post

theorem sound_require (condition : Bool) (message : String) :
    Sound (require condition message) fun _ => condition = true := by
  unfold require
  split
  · next holds => exact Meets.ok holds
  · exact Meets.error (by simp)

theorem sound_requireSome (value : Option Value) (message : String) :
    Sound (requireSome value message) fun result => value = some result := by
  cases value with
  | none => exact Meets.error (by simp)
  | some present => exact Meets.ok rfl

theorem sound_checked {value : Option ℕ} {result : ℕ} (fits : value = some result) :
    Sound (checked value) fun answer => answer = result := by
  rw [fits]
  exact Meets.ok rfl

end Overflow

namespace Util

/-- Concatenate byte arrays. -/
def concat (parts : List Bytes) : Bytes :=
  parts.flatten

/-- Lexicographic byte comparison: -1, 0, 1. -/
def compare : Bytes → Bytes → ℤ
  | [], [] => 0
  | [], _ :: _ => -1
  | _ :: _, [] => 1
  | first :: left, second :: right =>
    if first < second then -1 else if second < first then 1 else compare left right

/-- Bytes of an ASCII/UTF-8 string. -/
def str (text : String) : Bytes :=
  text.toUTF8.data.toList

/-- The length the contracts' language gives a string: its UTF-16 code units. -/
def stringLength (text : String) : ℕ :=
  (text.toList.map fun character => if character.val < 0x10000 then 1 else 2).sum

/-- Big-endian u32. -/
def u32be (value : ℕ) : Bytes :=
  [value / 2 ^ 24, value / 2 ^ 16, value / 2 ^ 8, value].map UInt8.ofNat

/-- Big-endian u64. -/
def u64be (value : ℕ) : Bytes :=
  u32be (value / 2 ^ 32) ++ u32be value

end Util

/-- A Koinos address: exactly 25 bytes. -/
abbrev Address := {bytes : Bytes // bytes.length = 25}

namespace Util

/-- Require a bytes field to be non-empty and at most `max` bytes. -/
def requireBytes (value : Bytes) (max : ℕ) (what : String) : Except Failure Bytes := do
  require (value != []) (what ++ " is required")
  require (value.length ≤ max) (what ++ " too large")
  pure value

/-- Require an address-like field (25 bytes Koinos address). -/
def requireAddress (value : Bytes) (what : String) : Except Failure Address := do
  require (value != []) (what ++ " is required")
  if length : value.length = 25 then
    pure ⟨value, length⟩
  else
    .error (.reverted (what ++ " must be a 25-byte address"))

/-- Require a string to be at most `max` characters (may be empty). -/
def requireString (value : String) (max : ℕ) (what : String) : Except Failure String := do
  require (stringLength value ≤ max) (what ++ " too long")
  pure value

/-- Validate an optional bytes field of one exact length; empty stays empty. -/
def optionalExact (value : Bytes) (length : ℕ) (message : String) : Except Failure Bytes := do
  require (value == [] || value.length == length) message
  pure value

@[simp] theorem requireBytes_eq_ok (value : Bytes) (max : ℕ) (what : String) (result : Bytes) :
    requireBytes value max what = .ok result ↔
      value = result ∧ result ≠ [] ∧ result.length ≤ max := by
  simp only [requireBytes, bind_eq_ok, require_eq_ok, pure_eq_ok, bne_iff_ne, decide_eq_true_eq,
    exists_const]
  constructor
  · rintro ⟨present, bounded, same⟩
    exact ⟨same, same ▸ present, same ▸ bounded⟩
  · rintro ⟨same, present, bounded⟩
    exact ⟨same ▸ present, same ▸ bounded, same⟩

@[simp] theorem requireAddress_eq_ok (value : Bytes) (what : String) (address : Address) :
    requireAddress value what = .ok address ↔ value = address.val := by
  simp only [requireAddress, bind_eq_ok, require_eq_ok, bne_iff_ne, exists_const]
  constructor
  · rintro ⟨_, answer⟩
    split at answer
    · exact congrArg Subtype.val ((pure_eq_ok _ _).mp answer)
    · exact absurd answer (by simp)
  · rintro rfl
    refine ⟨fun empty => ?_, ?_⟩
    · have length := address.property
      rw [empty] at length
      exact absurd length (by decide)
    · rw [dif_pos address.property]
      rfl

@[simp] theorem requireString_eq_ok (value : String) (max : ℕ) (what : String) (result : String) :
    requireString value max what = .ok result ↔ value = result ∧ stringLength result ≤ max := by
  simp only [requireString, bind_eq_ok, require_eq_ok, pure_eq_ok, decide_eq_true_eq, exists_const]
  constructor
  · rintro ⟨bounded, same⟩
    exact ⟨same, same ▸ bounded⟩
  · rintro ⟨same, bounded⟩
    exact ⟨same ▸ bounded, same⟩

@[simp] theorem optionalExact_eq_ok (value : Bytes) (length : ℕ) (message : String)
    (result : Bytes) :
    optionalExact value length message = .ok result ↔
      value = result ∧ (result = [] ∨ result.length = length) := by
  simp only [optionalExact, bind_eq_ok, require_eq_ok, pure_eq_ok, Bool.or_eq_true, beq_iff_eq,
    exists_const]
  constructor
  · rintro ⟨shape, same⟩
    exact ⟨same, same ▸ shape⟩
  · rintro ⟨same, shape⟩
    exact ⟨same ▸ shape, same⟩

theorem sound_requireAddress (value : Bytes) (what : String) :
    Sound (requireAddress value what) fun address => value = address.val := by
  refine Library.Meets.seq (sound_require _ _) fun _ _ => ?_
  split
  · exact Library.Meets.ret rfl
  · exact Library.Meets.error (by simp)

theorem sound_requireBytes (value : Bytes) (max : ℕ) (what : String) :
    Sound (requireBytes value max what) fun result => value = result := by
  refine Library.Meets.seq (sound_require _ _) fun _ _ => ?_
  refine Library.Meets.seq (sound_require _ _) fun _ _ => ?_
  exact Library.Meets.ret rfl

/-! ### Keys -/

@[simp] theorem concat_pair (first second : Bytes) : concat [first, second] = first ++ second := by
  simp [concat]

/-- A key that starts with an address determines both of its parts. -/
theorem concat_address_inj {first second : Address} {left right : Bytes} :
    concat [first.val, left] = concat [second.val, right] ↔ first = second ∧ left = right := by
  rw [concat_pair, concat_pair]
  constructor
  · intro same
    obtain ⟨head, tail⟩ := List.append_inj same (first.property.trans second.property.symm)
    exact ⟨Subtype.ext head, tail⟩
  · rintro ⟨rfl, rfl⟩
    rfl

/-- A key that ends with an address determines both of its parts. -/
theorem concat_inj_address {first second : Address} {left right : Bytes} :
    concat [left, first.val] = concat [right, second.val] ↔ left = right ∧ first = second := by
  rw [concat_pair, concat_pair]
  constructor
  · intro same
    obtain ⟨head, tail⟩ := List.append_inj' same (first.property.trans second.property.symm)
    exact ⟨head, Subtype.ext tail⟩
  · rintro ⟨rfl, rfl⟩
    rfl

/-- A text is determined by its bytes. -/
theorem str_inj {first second : String} : str first = str second ↔ first = second := by
  constructor
  · intro same
    have bytes : first.toUTF8.data = second.toUTF8.data := Array.toList_inj.mp same
    exact String.toByteArray_inj.mp (ByteArray.ext bytes)
  · rintro rfl
    rfl

/-- The four bytes are those of the number as a machine word. -/
theorem u32be_inj {first second : ℕ} (same : u32be first = u32be second) :
    first % 2 ^ 32 = second % 2 ^ 32 := by
  simp only [u32be, List.map_cons, List.map_nil, List.cons.injEq, ← UInt8.toNat_inj,
    UInt8.toNat_ofNat', and_true] at same
  omega

theorem u64be_inj {first second : ℕ} (small : first < 2 ^ 64) (small' : second < 2 ^ 64)
    (same : u64be first = u64be second) : first = second := by
  obtain ⟨high, low⟩ := List.append_inj same rfl
  have high := u32be_inj high
  have low := u32be_inj low
  omega

/-! ### The byte order -/

theorem byte_trichotomy (first second : UInt8) :
    first < second ∨ first = second ∨ second < first := by
  rcases Nat.lt_trichotomy first.toNat second.toNat with below | same | above
  · exact .inl (UInt8.lt_iff_toNat_lt.mpr below)
  · exact .inr (.inl (UInt8.toNat_inj.mp same))
  · exact .inr (.inr (UInt8.lt_iff_toNat_lt.mpr above))

theorem compare_eq_zero (first second : Bytes) : compare first second = 0 ↔ first = second := by
  induction first generalizing second with
  | nil =>
    cases second with
    | nil => simp [compare]
    | cons head tail => simp [compare]
  | cons head tail inductionHypothesis =>
    cases second with
    | nil => simp [compare]
    | cons other rest =>
      rw [compare]
      rcases byte_trichotomy head other with below | same | above
      · simp [below, UInt8.ne_of_lt below]
      · simp [same, UInt8.lt_irrefl, inductionHypothesis]
      · simp [above, UInt8.lt_asymm above, (UInt8.ne_of_lt above).symm]

theorem compare_swap (first second : Bytes) : compare second first = -compare first second := by
  induction first generalizing second with
  | nil =>
    cases second with
    | nil => rfl
    | cons head tail => rfl
  | cons head tail inductionHypothesis =>
    cases second with
    | nil => rfl
    | cons other rest =>
      rw [compare, compare]
      rcases byte_trichotomy head other with below | same | above
      · simp [below, UInt8.lt_asymm below]
      · simp [same, UInt8.lt_irrefl, inductionHypothesis]
      · simp [above, UInt8.lt_asymm above]

/-- Accounts that the byte order compares alike both ways are the same, strictly or not. -/
theorem decides_compare_le :
    Library.SortedPair.Decides fun first second : Address => compare first.val second.val ≤ 0 := by
  intro first second alike
  have alike := decide_eq_decide.mp alike
  rw [compare_swap first.val second.val] at alike
  refine Subtype.ext ((compare_eq_zero first.val second.val).mp ?_)
  omega

theorem decides_compare_lt :
    Library.SortedPair.Decides fun first second : Address => compare first.val second.val < 0 := by
  intro first second alike
  have alike := decide_eq_decide.mp alike
  rw [compare_swap first.val second.val] at alike
  refine Subtype.ext ((compare_eq_zero first.val second.val).mp ?_)
  omega

/-- A key of two accounts determines them in order. -/
theorem concat_addresses_inj {first second third fourth : Address} :
    concat [first.val, second.val] = concat [third.val, fourth.val] ↔
      (first, second) = (third, fourth) := by
  rw [concat_address_inj, Prod.mk.injEq, ← Subtype.ext_iff]

end Util

end OpenSocial
