/-
This file gives the Base58 text of a byte string and shows that byte strings of
one length have different texts.

The text is the big-endian number of the bytes in base 58, behind one `1` for
every leading zero byte. Read back as a number, the leading ones count nothing,
so the text determines the number, and the number and the length determine the
bytes.
-/

import Mathlib

namespace Library.Base58

/-- The 58 digits, without the look-alikes `0`, `O`, `I` and `l`. -/
def alphabet : List Char :=
  "123456789ABCDEFGHJKLMNPQRSTUVWXYZabcdefghijkmnopqrstuvwxyz".toList

/-- The character of a digit. -/
def digit (value : ℕ) : Char :=
  alphabet.getD value '1'

/-- The big-endian number of a byte string. -/
def number (bytes : List UInt8) : ℕ :=
  Nat.ofDigits 256 (bytes.reverse.map UInt8.toNat)

/-- The characters of the Base58 text. -/
def characters (bytes : List UInt8) : List Char :=
  List.replicate (bytes.takeWhile (· = 0)).length (digit 0) ++
    (Nat.digits 58 (number bytes)).reverse.map digit

/-- The Base58 text of a byte string. -/
def encode (bytes : List UInt8) : String :=
  String.ofList (characters bytes)

/-- The number a Base58 text stands for. -/
def value (text : List Char) : ℕ :=
  Nat.ofDigits 58 (text.map alphabet.idxOf).reverse

theorem idxOf_digit {value : ℕ} (small : value < 58) : alphabet.idxOf (digit value) = value := by
  have every : ∀ value : Fin 58, alphabet.idxOf (digit value) = value := by decide
  exact every ⟨value, small⟩

/-- Reading a text back gives the number that was written. -/
theorem value_characters (bytes : List UInt8) : value (characters bytes) = number bytes := by
  have digits : ((Nat.digits 58 (number bytes)).reverse.map digit).map alphabet.idxOf =
      (Nat.digits 58 (number bytes)).reverse := by
    rw [List.map_map]
    refine (List.map_congr_left fun value member => ?_).trans (List.map_id _)
    exact idxOf_digit (Nat.digits_lt_base (by decide) (List.mem_reverse.mp member))
  rw [value, characters, List.map_append, digits, List.reverse_append, List.reverse_reverse,
    List.map_replicate, List.reverse_replicate, idxOf_digit (by decide),
    Nat.ofDigits_append_replicate_zero, Nat.ofDigits_digits]

/-- Byte strings of one length with the same number are the same. -/
theorem number_inj {first second : List UInt8} (length : first.length = second.length)
    (same : number first = number second) : first = second := by
  have small : ∀ bytes : List UInt8, ∀ value ∈ bytes.reverse.map UInt8.toNat, value < 256 := by
    intro bytes value member
    obtain ⟨byte, _, rfl⟩ := List.mem_map.mp member
    exact byte.toNat_lt
  have digits := Nat.ofDigits_inj_of_len_eq (by decide) (by simpa using length) (small first)
    (small second) same
  have reversed : first.reverse = second.reverse :=
    List.map_injective_iff.mpr (fun _ _ => UInt8.toNat_inj.mp) digits
  exact List.reverse_inj.mp reversed

/-- Byte strings of one length have different texts. -/
theorem encode_inj {first second : List UInt8} (length : first.length = second.length)
    (same : encode first = encode second) : first = second := by
  have characters_eq : characters first = characters second := String.ofList_injective same
  refine number_inj length ?_
  rw [← value_characters, ← value_characters, characters_eq]

/-- Bytes with a leading zero. -/
example : encode [0, 1, 2] = "15T" := by decide +kernel

end Library.Base58
