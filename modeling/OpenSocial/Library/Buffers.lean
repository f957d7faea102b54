/-
This file writes byte strings into buffers: parts put one after another into a buffer
of their total length are their concatenation, and the bytes of a number put in from the
last place down are its big-endian bytes, which determine it.
-/

import Mathlib

namespace Library.Buffers

/-- A buffer with some of its bytes replaced from an offset on; they have to fit. -/
def set (buffer part : List UInt8) (offset : ℕ) : List UInt8 :=
  buffer.take offset ++ part ++ buffer.drop (offset + part.length)

/-! ### Parts one after another -/

/-- Put the parts in, each behind the one before it. -/
def joinFrom : List (List UInt8) → List UInt8 → ℕ → List UInt8
  | [], buffer, _ => buffer
  | part :: parts, buffer, offset =>
    joinFrom parts (set buffer part offset) (offset + part.length)

def join (parts : List (List UInt8)) : List UInt8 :=
  joinFrom parts (List.replicate (parts.map List.length).sum 0) 0

theorem set_behind (front part back : List UInt8) :
    set (front ++ back) part front.length = front ++ part ++ back.drop part.length := by
  unfold set
  rw [List.take_left, List.drop_append, Nat.add_sub_cancel_left,
    List.drop_eq_nil_of_le (Nat.le_add_right _ _), List.nil_append]

/-- What is in front of the offset stays, and the parts fill the rest. -/
theorem joinFrom_eq (parts : List (List UInt8)) (front back : List UInt8)
    (exact : back.length = (parts.map List.length).sum) :
    joinFrom parts (front ++ back) front.length = front ++ parts.flatten := by
  induction parts generalizing front back with
  | nil =>
    rw [List.length_eq_zero_iff.mp exact]
    rfl
  | cons part parts inductionHypothesis =>
    rw [List.map_cons, List.sum_cons] at exact
    rw [joinFrom, set_behind front part back, ← List.length_append,
      inductionHypothesis (front ++ part) (back.drop part.length) (by
        rw [List.length_drop, exact]
        omega), List.flatten_cons, List.append_assoc]

theorem join_eq (parts : List (List UInt8)) : join parts = parts.flatten :=
  joinFrom_eq parts [] _ (List.length_replicate)

/-! ### The bytes of a number -/

/-- The big-endian bytes of a number. -/
def bigEndian : ℕ → ℕ → List UInt8
  | 0, _ => []
  | width + 1, value => bigEndian width (value / 256) ++ [UInt8.ofNat value]

@[simp] theorem length_bigEndian (width value : ℕ) : (bigEndian width value).length = width := by
  induction width generalizing value with
  | zero => rfl
  | succ width inductionHypothesis =>
    rw [bigEndian, List.length_append, inductionHypothesis]
    rfl

/-- The bytes determine a number that they have room for. -/
theorem bigEndian_inj {width first second : ℕ} (small : first < 256 ^ width)
    (small' : second < 256 ^ width) (same : bigEndian width first = bigEndian width second) :
    first = second := by
  induction width generalizing first second with
  | zero =>
    rw [pow_zero] at small small'
    omega
  | succ width inductionHypothesis =>
    rw [bigEndian, bigEndian] at same
    obtain ⟨high, low⟩ := List.append_inj' same rfl
    rw [pow_succ] at small small'
    have quotient := inductionHypothesis (Nat.div_lt_of_lt_mul (by omega))
      (Nat.div_lt_of_lt_mul (by omega)) high
    have remainder : first % 256 = second % 256 := by
      have bytes := congrArg UInt8.toNat (List.singleton_inj.mp low)
      rw [UInt8.toNat_ofNat', UInt8.toNat_ofNat'] at bytes
      exact bytes
    omega

/-- Put in the bytes of a number from the last of some places down to the first. -/
def writeDown : ℕ → List UInt8 → ℕ → List UInt8
  | 0, buffer, _ => buffer
  | place + 1, buffer, value => writeDown place (buffer.set place (UInt8.ofNat value)) (value / 256)

theorem writeDown_eq (places : ℕ) (front back : List UInt8) (value : ℕ)
    (exact : front.length = places) :
    writeDown places (front ++ back) value = bigEndian places value ++ back := by
  induction places generalizing front back value with
  | zero =>
    rw [List.length_eq_zero_iff.mp exact]
    rfl
  | succ place inductionHypothesis =>
    obtain rfl | ⟨before, last, rfl⟩ := List.eq_nil_or_concat front
    · exact absurd exact (Nat.succ_ne_zero place).symm
    · rw [List.concat_eq_append, List.length_append, List.length_singleton] at exact
      have length : before.length = place := Nat.succ_injective exact
      rw [writeDown, List.concat_eq_append, List.append_assoc, List.set_append_right _ _ length.le,
        length, Nat.sub_self, List.singleton_append, List.set_cons_zero,
        inductionHypothesis before (UInt8.ofNat value :: back) (value / 256) length, bigEndian,
        List.append_assoc, List.singleton_append]

theorem writeDown_zeros (width value : ℕ) :
    writeDown width (List.replicate width 0) value = bigEndian width value := by
  have written := writeDown_eq width (List.replicate width 0) [] value List.length_replicate
  rwa [List.append_nil, List.append_nil] at written

end Library.Buffers
