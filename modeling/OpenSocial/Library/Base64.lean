/-
This file gives the base64 texts of byte strings in the alphabet for URLs, without
padding, and reads them back. Three bytes are four characters of six bits each. What is
read may have characters of the other alphabet; any that belong to neither are passed
over, and a single character that is left at the end stands for nothing.
-/

import Mathlib

namespace Library.Base64

/-- The characters of the numbers below 64. -/
def alphabet : List Char :=
  "ABCDEFGHIJKLMNOPQRSTUVWXYZabcdefghijklmnopqrstuvwxyz0123456789-_".toList

def charOf (number : ℕ) : Char := alphabet.getD number 'A'

/-- The number of a character, if it stands for one. -/
def numberOf (character : Char) : Option ℕ :=
  if character = '+' then some 62
  else if character = '/' then some 63
  else if character ∈ alphabet then some (alphabet.idxOf character) else none

/-- The bits of some bytes, six at a time. -/
def sextets : List UInt8 → List ℕ
  | [] => []
  | [first] => [first.toNat / 4, first.toNat % 4 * 16]
  | [first, second] =>
    [first.toNat / 4, first.toNat % 4 * 16 + second.toNat / 16, second.toNat % 16 * 4]
  | first :: second :: third :: rest =>
    (first.toNat / 4) :: (first.toNat % 4 * 16 + second.toNat / 16) ::
      (second.toNat % 16 * 4 + third.toNat / 64) :: (third.toNat % 64) :: sextets rest

/-- The bytes of some groups of six bits. -/
def bytesOf : List ℕ → List UInt8
  | [] => []
  | [_] => []
  | [first, second] => [UInt8.ofNat (first * 4 + second / 16)]
  | [first, second, third] =>
    [UInt8.ofNat (first * 4 + second / 16), UInt8.ofNat (second % 16 * 16 + third / 4)]
  | first :: second :: third :: fourth :: rest =>
    UInt8.ofNat (first * 4 + second / 16) :: UInt8.ofNat (second % 16 * 16 + third / 4) ::
      UInt8.ofNat (third % 4 * 64 + fourth) :: bytesOf rest

def encode (bytes : List UInt8) : List Char := (sextets bytes).map charOf

def decode (text : List Char) : List UInt8 := bytesOf (text.filterMap numberOf)

/-! ### Reading back -/

theorem numberOf_charOf {number : ℕ} (small : number < 64) :
    numberOf (charOf number) = some number := by
  have all : ∀ number < 64, numberOf (charOf number) = some number := by decide +kernel
  exact all number small

theorem sextets_lt (bytes : List UInt8) : ∀ number ∈ sextets bytes, number < 64 := by
  fun_induction sextets bytes with
  | case1 => exact fun _ member => absurd member List.not_mem_nil
  | case2 first =>
    have bound := first.toNat_lt
    simp only [List.mem_cons, List.not_mem_nil, or_false]
    rintro number (rfl | rfl) <;> omega
  | case3 first second =>
    have bound := first.toNat_lt
    have bound' := second.toNat_lt
    simp only [List.mem_cons, List.not_mem_nil, or_false]
    rintro number (rfl | rfl | rfl) <;> omega
  | case4 first second third rest inductionHypothesis =>
    have bound := first.toNat_lt
    have bound' := second.toNat_lt
    have bound'' := third.toNat_lt
    simp only [List.mem_cons]
    rintro number (rfl | rfl | rfl | rfl | later)
    · omega
    · omega
    · omega
    · omega
    · exact inductionHypothesis number later

theorem ofNat_eq {byte : UInt8} {number : ℕ} (same : number = byte.toNat) :
    UInt8.ofNat number = byte := by
  rw [same, UInt8.ofNat_toNat]

theorem bytesOf_sextets (bytes : List UInt8) : bytesOf (sextets bytes) = bytes := by
  fun_induction sextets bytes with
  | case1 => rfl
  | case2 first =>
    rw [bytesOf, @ofNat_eq first _ (by omega)]
  | case3 first second =>
    have bound := second.toNat_lt
    rw [bytesOf, @ofNat_eq first _ (by omega), @ofNat_eq second _ (by omega)]
  | case4 first second third rest inductionHypothesis =>
    have bound := second.toNat_lt
    have bound' := third.toNat_lt
    rw [bytesOf, @ofNat_eq first _ (by omega), @ofNat_eq second _ (by omega),
      @ofNat_eq third _ (by omega), inductionHypothesis]

theorem decode_encode (bytes : List UInt8) : decode (encode bytes) = bytes := by
  have read : (encode bytes).filterMap numberOf = sextets bytes := by
    rw [encode, List.filterMap_map]
    have all : ∀ number ∈ sextets bytes, (numberOf ∘ charOf) number = some number :=
      fun number member => numberOf_charOf (sextets_lt bytes number member)
    rw [List.filterMap_congr all, List.filterMap_some]
  rw [decode, read, bytesOf_sextets]

end Library.Base64
