/-
This file gives the JSON values that cross the services' wires and columns, and
the SDK's canonical form of them.

A JSON text is identified with the value it is the text of, so `canonicalJson` is
the value with the members of every object in the order of their keys, and two
texts are equal exactly when these values are.
-/

import Mathlib

namespace OpenSocial

/-- A JSON value; the members of an object stand in the order they were written. -/
inductive Json where
  | null
  | bool (value : Bool)
  | number (value : ℚ)
  | string (text : String)
  | array (items : List Json)
  | object (members : List (String × Json))

namespace Json

/-! ### Equality -/

mutual

def same : Json → Json → Bool
  | .null, .null => true
  | .bool first, .bool second => first == second
  | .number first, .number second => decide (first = second)
  | .string first, .string second => first == second
  | .array first, .array second => sameItems first second
  | .object first, .object second => sameMembers first second
  | _, _ => false

def sameItems : List Json → List Json → Bool
  | [], [] => true
  | first :: firsts, second :: seconds => same first second && sameItems firsts seconds
  | _, _ => false

def sameMembers : List (String × Json) → List (String × Json) → Bool
  | [], [] => true
  | (key, first) :: firsts, (other, second) :: seconds =>
    key == other && same first second && sameMembers firsts seconds
  | _, _ => false

end

mutual

theorem same_refl : ∀ value : Json, same value value = true
  | .null => rfl
  | .bool _ => by simp only [same, beq_self_eq_true]
  | .number _ => by simp only [same, decide_true]
  | .string _ => by simp only [same, beq_self_eq_true]
  | .array items => by simp only [same, sameItems_refl items]
  | .object members => by simp only [same, sameMembers_refl members]

theorem sameItems_refl : ∀ items : List Json, sameItems items items = true
  | [] => rfl
  | item :: rest => by simp only [sameItems, same_refl item, sameItems_refl rest, Bool.and_self]

theorem sameMembers_refl : ∀ members : List (String × Json), sameMembers members members = true
  | [] => rfl
  | (_, value) :: rest => by
    simp only [sameMembers, beq_self_eq_true, same_refl value, sameMembers_refl rest, Bool.and_self]

end

mutual

theorem eq_of_same : ∀ first second : Json, same first second = true → first = second
  | .null, second, equal => by cases second <;> simp_all only [same, reduceCtorEq]
  | .bool _, second, equal => by cases second <;> simp_all only [same, reduceCtorEq, beq_iff_eq]
  | .number _, second, equal => by
    cases second <;> simp_all only [same, reduceCtorEq, decide_eq_true_eq]
  | .string _, second, equal => by cases second <;> simp_all only [same, reduceCtorEq, beq_iff_eq]
  | .array items, second, equal => by
    cases second with
    | array others => rw [eq_of_sameItems items others (by simpa only [same] using equal)]
    | _ => simp only [same, reduceCtorEq] at equal
  | .object members, second, equal => by
    cases second with
    | object others => rw [eq_of_sameMembers members others (by simpa only [same] using equal)]
    | _ => simp only [same, reduceCtorEq] at equal

theorem eq_of_sameItems : ∀ firsts seconds : List Json,
    sameItems firsts seconds = true → firsts = seconds
  | [], [], _ => rfl
  | [], _ :: _, equal => by simp only [sameItems, reduceCtorEq] at equal
  | _ :: _, [], equal => by simp only [sameItems, reduceCtorEq] at equal
  | first :: firsts, second :: seconds, equal => by
    simp only [sameItems, Bool.and_eq_true] at equal
    rw [eq_of_same first second equal.1, eq_of_sameItems firsts seconds equal.2]

theorem eq_of_sameMembers : ∀ firsts seconds : List (String × Json),
    sameMembers firsts seconds = true → firsts = seconds
  | [], [], _ => rfl
  | [], _ :: _, equal => by simp only [sameMembers, reduceCtorEq] at equal
  | _ :: _, [], equal => by simp only [sameMembers, reduceCtorEq] at equal
  | (key, first) :: firsts, (other, second) :: seconds, equal => by
    simp only [sameMembers, Bool.and_eq_true, beq_iff_eq] at equal
    rw [equal.1.1, eq_of_same first second equal.1.2, eq_of_sameMembers firsts seconds equal.2]

end

instance : DecidableEq Json := fun first second =>
  decidable_of_iff (same first second = true)
    ⟨eq_of_same first second, fun equal => equal ▸ same_refl first⟩

/-! ### Members -/

/-- The value of an object's member, if it is an object and has one. -/
def get? (value : Json) (key : String) : Option Json :=
  match value with
  | .object members => members.lookup key
  | _ => none

end Json

namespace Json

/-! ### Reading values as the SDK's language does -/

/-- The members every object has, whatever its own are. -/
def inheritedNames : List String :=
  ["constructor", "hasOwnProperty", "isPrototypeOf", "propertyIsEnumerable", "toLocaleString",
    "toString", "valueOf", "__defineGetter__", "__defineSetter__", "__lookupGetter__",
    "__lookupSetter__", "__proto__"]

/-- Whether a value counts as true in a condition. -/
def truthy : Json → Bool
  | .null => false
  | .bool value => value
  | .number value => value ≠ 0
  | .string text => text ≠ ""
  | .array _ => true
  | .object _ => true

/-- An array or an object. -/
def isStructured : Json → Bool
  | .array _ => true
  | .object _ => true
  | _ => false

/-- A member that is present and counts as true. -/
def truthyMember (value : Json) (key : String) : Option Json :=
  (value.get? key).filter truthy

/-- A member that is neither missing nor null. -/
def member? (value : Json) (key : String) : Option Json :=
  (value.get? key).filter fun member => member != .null

/-- The items of an array; anything else has none. -/
def items : Json → List Json
  | .array items => items
  | _ => []

/-- Strict equality of two members: arrays and objects read from different texts never agree. -/
def strictEqual : Option Json → Option Json → Bool
  | none, none => true
  | some .null, some .null => true
  | some (.bool first), some (.bool second) => first == second
  | some (.number first), some (.number second) => decide (first = second)
  | some (.string first), some (.string second) => first == second
  | _, _ => false

/-- A number as text; a fraction is written as one. -/
def numberText (value : ℚ) : String :=
  if value.den = 1 then toString value.num else toString value.num ++ "/" ++ toString value.den

mutual

/-- A value as text inside a message. -/
def display : Json → String
  | .null => "null"
  | .bool value => if value then "true" else "false"
  | .number value => numberText value
  | .string text => text
  | .array items => ",".intercalate (displayItems items)
  | .object _ => "[object Object]"

def displayItems : List Json → List String
  | [] => []
  | item :: rest => display item :: displayItems rest

end

/-- A value a member is read of: what is missing or null has none, and reading one throws. -/
def readable (name : String) : Option Json → Except String Json
  | none => .error ("Cannot read properties of undefined (reading '" ++ name ++ "')")
  | some .null => .error ("Cannot read properties of null (reading '" ++ name ++ "')")
  | some value => .ok value

theorem readable_present {value : Json} (present : value ≠ .null) (name : String) :
    readable name (some value) = .ok value := by
  cases value with
  | null => exact absurd rfl present
  | _ => rfl

mutual

/-- Whether a value converts to a text or a number: a `toString` of its own hides the one every
object has, and is no function. -/
def convertible : Json → Bool
  | .null => true
  | .bool _ => true
  | .number _ => true
  | .string _ => true
  | .array items => convertibleItems items
  | .object members => (members.lookup "toString").isNone

def convertibleItems : List Json → Bool
  | [] => true
  | item :: rest => convertible item && convertibleItems rest

end

/-- A member as text inside a message. -/
def displayMember (value : Json) (key : String) : String :=
  (value.get? key).elim "undefined" display

end Json

/-! ### Canonical JSON -/

mutual

def sortKeys : Json → Json
  | .null => .null
  | .bool value => .bool value
  | .number value => .number value
  | .string text => .string text
  | .array items => .array (sortItems items)
  | .object members =>
    .object ((sortMembers members).insertionSort fun first second => first.1 ≤ second.1)

def sortItems : List Json → List Json
  | [] => []
  | item :: rest => sortKeys item :: sortItems rest

/-- The members with their values sorted, still in the order they were written. -/
def sortMembers : List (String × Json) → List (String × Json)
  | [] => []
  | (key, value) :: rest => (key, sortKeys value) :: sortMembers rest

end

/-- Canonical JSON: object keys sorted recursively. -/
def canonicalJson (value : Json) : Json :=
  sortKeys value

end OpenSocial
