/-
This file models the validators of the extension's messages (`shared/validate.ts`) and
proves what they let through.

A validator is a schema, and one interpretation runs them all. What a schema lets
through conforms to it, declared keys only, and passes the same schema unchanged, under
whatever path it is reported; and an error lies at or below the path that was validated.
A value is `none` where the source has undefined.
-/

import OpenSocial.Common.Util
import OpenSocial.Sdk.Json

namespace OpenSocial.Extension

/-! ### Schemas -/

/-- What is read of a parsed URL. -/
structure PageUrl where
  protocol : String
  origin : String
  deriving DecidableEq

/-- What the background worker takes from the browser: parsing a URL, `toLowerCase`, and how many
bytes the JSON text of a message has. -/
structure Browser where
  parseUrl : String → Option PageUrl
  lower : String → String
  jsonSize : Json → ℕ

structure ValidationError where
  path : String
  expected : String
  deriving DecidableEq, Repr

def ValidationError.message (error : ValidationError) : String :=
  error.path ++ ": " ++ error.expected

structure StringOptions where
  min : Option ℕ
  max : Option ℕ
  pattern : Option (String → Bool)

structure NumberOptions where
  min : Option ℚ
  max : Option ℚ
  int : Bool

/-- The combinators; `lenient` is the settings' own validator, for which anything but an array
is an empty one. -/
inductive Validator where
  | str (options : StringOptions)
  | bool
  | num (options : NumberOptions)
  | oneOf (values : List Json)
  | optional (inner : Validator)
  | list (inner : Validator) (max : Option ℕ)
  | lenient (inner : Validator)
  | hex (bytes : Option ℕ)
  | httpUrl
  | obj (shape : List (String × Validator))
  | empty

abbrev Validated := Except ValidationError

/-- `if (!holds) fail(path, expected)`. -/
def expect (holds : Bool) (path expected : String) : Validated Unit :=
  if holds then .ok () else .error ⟨path, expected⟩

def validateString (options : StringOptions) (value : Option Json) (path : String) :
    Validated (Option Json) :=
  match value with
  | some (.string text) => do
    expect (options.min.all fun min => min ≤ Util.stringLength text) path
      ("expected at least " ++ toString (options.min.getD 0) ++ " characters")
    expect (options.max.all fun max => Util.stringLength text ≤ max) path
      ("expected at most " ++ toString (options.max.getD 0) ++ " characters")
    expect (options.pattern.all fun pattern => pattern text) path "has an invalid format"
    pure value
  | _ => .error ⟨path, "expected a string"⟩

def validateBool (value : Option Json) (path : String) : Validated (Option Json) :=
  match value with
  | some (.bool _) => .ok value
  | _ => .error ⟨path, "expected a boolean"⟩

def validateNumber (options : NumberOptions) (value : Option Json) (path : String) :
    Validated (Option Json) :=
  match value with
  | some (.number number) => do
    expect (!options.int || number.den = 1) path "expected an integer"
    expect (options.min.all fun min => min ≤ number) path
      ("expected >= " ++ Json.numberText (options.min.getD 0))
    expect (options.max.all fun max => number ≤ max) path
      ("expected <= " ++ Json.numberText (options.max.getD 0))
    pure value
  | _ => .error ⟨path, "expected a number"⟩

def validateOneOf (values : List Json) (value : Option Json) (path : String) :
    Validated (Option Json) := do
  expect (value.any fun given => values.contains given) path
    ("expected one of " ++ ", ".intercalate (values.map Json.display))
  pure value

def HEX_DIGITS : List Char := "0123456789abcdefABCDEF".toList

def isHexDigit (character : Char) : Bool := HEX_DIGITS.contains character

def validateHex (bytes : Option ℕ) (value : Option Json) (path : String) :
    Validated (Option Json) :=
  match value with
  | some (.string text) => do
    expect (text.toList.all isHexDigit && text.length % 2 = 0) path "expected hex"
    expect (bytes.all fun count => text.length = count * 2) path
      ("expected " ++ toString (bytes.getD 0) ++ " bytes of hex")
    pure (some (.string text.toLower))
  | _ => .error ⟨path, "expected hex"⟩

def isHttp (url : PageUrl) : Bool :=
  url.protocol = "https:" || url.protocol = "http:"

def validateUrl (browser : Browser) (value : Option Json) (path : String) :
    Validated (Option Json) :=
  match value with
  | some (.string text) => do
    expect (Util.stringLength text ≤ 2048) path "expected a URL"
    match browser.parseUrl text with
    | none => .error ⟨path, "expected a URL"⟩
    | some url => do
      expect (isHttp url) path "expected an http(s) URL"
      pure value
  | _ => .error ⟨path, "expected a URL"⟩

/-- The first member whose key the shape does not have is an error. -/
def rejectUnknown (keys : List String) (path : String) : List (String × Json) → Validated Unit
  | [] => pure ()
  | (key, _) :: members => do
    expect (keys.contains key || Json.inheritedNames.contains key) (path ++ "." ++ key) "unknown key"
    rejectUnknown keys path members

/-- Items in turn, each under its index. -/
def validateItems (validate : Option Json → String → Validated (Option Json)) (path : String) :
    ℕ → List Json → Validated (List Json)
  | _, [] => pure []
  | index, item :: rest => do
    let value ← validate (some item) (path ++ "[" ++ toString index ++ "]")
    let others ← validateItems validate path (index + 1) rest
    -- No schema answers a given value with undefined.
    pure (value.getD .null :: others)

def validateEmpty (value : Option Json) (path : String) : Validated (Option Json) :=
  match value with
  | none => .ok (some (.object []))
  | some (.object []) => .ok (some (.object []))
  | _ => .error ⟨path, "expected no payload"⟩

section Inner

variable (inner : Option Json → String → Validated (Option Json))

def validateOptional (value : Option Json) (path : String) : Validated (Option Json) :=
  match value with
  | none => .ok none
  | some given => inner (some given) path

def validateList (max : Option ℕ) (value : Option Json) (path : String) :
    Validated (Option Json) :=
  match value with
  | some (.array items) => do
    expect (max.all fun max => items.length ≤ max) path
      ("expected at most " ++ toString (max.getD 0) ++ " items")
    let results ← validateItems inner path 0 items
    pure (some (.array results))
  | _ => .error ⟨path, "expected an array"⟩

def validateLenient (value : Option Json) (path : String) : Validated (Option Json) :=
  match value with
  | some (.array items) => do
    let results ← validateItems inner path 0 items
    pure (some (.array results))
  | _ => .ok (some (.array []))

end Inner

def validateObject (keys : List String)
    (shape : List (String × Json) → Validated (List (String × Json)))
    (value : Option Json) (path : String) : Validated (Option Json) :=
  match value with
  | some (.object members) => do
    rejectUnknown keys path members
    let results ← shape members
    pure (some (.object results))
  | _ => .error ⟨path, "expected an object"⟩

/-- An own key of the result, unless its value is undefined. -/
def withMember (key : String) (value : Option Json) (members : List (String × Json)) :
    List (String × Json) :=
  match value with
  | none => members
  | some given => (key, given) :: members

namespace Validator

variable (browser : Browser)

mutual

def validate : Validator → Option Json → String → Validated (Option Json)
  | .str options, value, path => validateString options value path
  | .bool, value, path => validateBool value path
  | .num options, value, path => validateNumber options value path
  | .oneOf values, value, path => validateOneOf values value path
  | .optional inner, value, path =>
    validateOptional (fun value path => validate inner value path) value path
  | .list inner max, value, path =>
    validateList (fun value path => validate inner value path) max value path
  | .lenient inner, value, path =>
    validateLenient (fun value path => validate inner value path) value path
  | .hex bytes, value, path => validateHex bytes value path
  | .httpUrl, value, path => validateUrl browser value path
  | .obj shape, value, path =>
    validateObject (shape.map Prod.fst) (fun members => validateMembers shape members path) value
      path
  | .empty, value, path => validateEmpty value path

/-- The declared keys in turn, each under its path. Of a key that every object inherits the source
would read that member where there is no own one; no schema declares such a key. -/
def validateMembers : List (String × Validator) → List (String × Json) → String →
    Validated (List (String × Json))
  | [], _, _ => pure []
  | (key, schema) :: rest, members, path => do
    let value ← validate schema (members.lookup key) (path ++ "." ++ key)
    let others ← validateMembers rest members path
    pure (withMember key value others)

end

end Validator

/-! ### What conforms to a schema -/

/-- What a string schema lets through. -/
def StringOptions.Allows (options : StringOptions) (text : String) : Prop :=
  (∀ min ∈ options.min, min ≤ Util.stringLength text) ∧
    (∀ max ∈ options.max, Util.stringLength text ≤ max) ∧
      ∀ pattern ∈ options.pattern, pattern text = true

/-- What a number schema lets through. -/
def NumberOptions.Allows (options : NumberOptions) (number : ℚ) : Prop :=
  (options.int = true → number.den = 1) ∧ (∀ min ∈ options.min, min ≤ number) ∧
    ∀ max ∈ options.max, number ≤ max

/-- Whole bytes in lower-case digits, as many as asked for. -/
def IsLowerHex (bytes : Option ℕ) (text : String) : Prop :=
  (∀ character ∈ text.toList, isHexDigit character = true ∧ character.toLower = character) ∧
    text.length % 2 = 0 ∧ ∀ count ∈ bytes, text.length = count * 2

/-- A URL of the web, not too long. -/
def Browser.IsWebUrl (browser : Browser) (text : String) : Prop :=
  Util.stringLength text ≤ 2048 ∧ ∃ url, browser.parseUrl text = some url ∧ isHttp url = true

namespace Validator

variable (browser : Browser)

mutual

/-- A value is of the kind the schema describes; an object has no keys but the declared ones, in
their order. -/
def Conforms : Validator → Option Json → Prop
  | .str options, value => ∃ text, value = some (.string text) ∧ options.Allows text
  | .bool, value => ∃ flag, value = some (.bool flag)
  | .num options, value => ∃ number, value = some (.number number) ∧ options.Allows number
  | .oneOf values, value => ∃ given ∈ values, value = some given
  | .optional inner, value => value = none ∨ value.isSome ∧ Conforms inner value
  | .list inner max, value => ∃ items, value = some (.array items) ∧
      (∀ bound ∈ max, items.length ≤ bound) ∧ ∀ item ∈ items, Conforms inner (some item)
  | .lenient inner, value => ∃ items, value = some (.array items) ∧
      ∀ item ∈ items, Conforms inner (some item)
  | .hex bytes, value => ∃ text, value = some (.string text) ∧ IsLowerHex bytes text
  | .httpUrl, value => ∃ text, value = some (.string text) ∧ browser.IsWebUrl text
  | .obj shape, value => ∃ members, value = some (.object members) ∧
      (members.map Prod.fst).Sublist (shape.map Prod.fst) ∧ MembersConform shape members
  | .empty, value => value = some (.object [])

/-- Every declared member conforms, or is absent where that is allowed. -/
def MembersConform : List (String × Validator) → List (String × Json) → Prop
  | [], _ => True
  | (key, schema) :: rest, members =>
    Conforms schema (members.lookup key) ∧ MembersConform rest members

end

mutual

/-- No object declares a key twice, or one that every object inherits. -/
def WellDeclared : Validator → Prop
  | .optional inner => WellDeclared inner
  | .list inner _ => WellDeclared inner
  | .lenient inner => WellDeclared inner
  | .obj shape => ((shape.map Prod.fst).Nodup ∧
      ∀ key ∈ shape.map Prod.fst, key ∉ Json.inheritedNames) ∧ MembersWellDeclared shape
  | _ => True

def MembersWellDeclared : List (String × Validator) → Prop
  | [] => True
  | (_, schema) :: rest => WellDeclared schema ∧ MembersWellDeclared rest

end

end Validator

/-! ### Errors -/

open Library

/-- An error lies at a path or below it. -/
def LiesBelow (path : String) (error : ValidationError) : Prop :=
  ∃ rest, error.path = path ++ rest

theorem liesBelow_self (path expected : String) : LiesBelow path ⟨path, expected⟩ :=
  ⟨"", (String.append_empty).symm⟩

theorem LiesBelow.above {path rest : String} {error : ValidationError}
    (below : LiesBelow (path ++ rest) error) : LiesBelow path error := by
  obtain ⟨more, same⟩ := below
  exact ⟨rest ++ more, by rw [same, String.append_assoc]⟩

theorem meets_above {Value : Type} {path further rest : String} {computation : Validated Value}
    {post : Value → Prop} (extends_ : further = path ++ rest)
    (meets : Meets (LiesBelow further) computation post) :
    Meets (LiesBelow path) computation post := by
  subst extends_
  cases computation with
  | ok value => exact meets
  | error error => exact LiesBelow.above meets

theorem meets_expect (holds : Bool) (path expected : String) :
    Meets (LiesBelow path) (expect holds path expected) fun _ => holds = true := by
  cases holds with
  | true => exact Meets.ok rfl
  | false => exact Meets.error (liesBelow_self path expected)

@[simp] theorem expect_true (path expected : String) : expect true path expected = .ok () := rfl

/-! ### Values without members -/

section Plain

variable (value : Option Json) (path : String)

theorem all_of_option {Value : Type} {condition : Value → Bool} {option : Option Value}
    (holds : option.all condition = true) : ∀ given ∈ option, condition given = true := by
  rintro given rfl
  exact holds

theorem option_all {Value : Type} {condition : Value → Bool} {option : Option Value}
    (holds : ∀ given ∈ option, condition given = true) : option.all condition = true := by
  cases option with
  | none => rfl
  | some given => exact holds given rfl

theorem meets_validateString (options : StringOptions) :
    Meets (LiesBelow path) (validateString options value path) fun out =>
      out = value ∧ ∃ text, value = some (.string text) ∧ options.Allows text := by
  unfold validateString
  split
  · next text =>
    refine Meets.seq (meets_expect _ _ _) fun _ least => ?_
    refine Meets.seq (meets_expect _ _ _) fun _ most => ?_
    refine Meets.seq (meets_expect _ _ _) fun _ format => ?_
    exact Meets.ret ⟨rfl, text, rfl,
      fun min given => of_decide_eq_true (all_of_option least min given),
      fun max given => of_decide_eq_true (all_of_option most max given), all_of_option format⟩
  · exact Meets.error (liesBelow_self _ _)

theorem validateString_of_allows {options : StringOptions} {text : String}
    (allows : options.Allows text) :
    validateString options (some (.string text)) path = .ok (some (.string text)) := by
  obtain ⟨least, most, format⟩ := allows
  have least := option_all fun min given => decide_eq_true (least min given)
  have most := option_all fun max given => decide_eq_true (most max given)
  rw [validateString, least, most, option_all format]
  rfl

theorem meets_validateBool :
    Meets (LiesBelow path) (validateBool value path) fun out =>
      out = value ∧ ∃ flag, value = some (.bool flag) := by
  unfold validateBool
  split
  · next flag => exact Meets.ok ⟨rfl, flag, rfl⟩
  · exact Meets.error (liesBelow_self _ _)

theorem meets_validateNumber (options : NumberOptions) :
    Meets (LiesBelow path) (validateNumber options value path) fun out =>
      out = value ∧ ∃ number, value = some (.number number) ∧ options.Allows number := by
  unfold validateNumber
  split
  · next number =>
    refine Meets.seq (meets_expect _ _ _) fun _ whole => ?_
    refine Meets.seq (meets_expect _ _ _) fun _ least => ?_
    refine Meets.seq (meets_expect _ _ _) fun _ most => ?_
    refine Meets.ret ⟨rfl, number, rfl, fun int => ?_,
      fun min given => of_decide_eq_true (all_of_option least min given),
      fun max given => of_decide_eq_true (all_of_option most max given)⟩
    rw [int, Bool.not_true, Bool.false_or] at whole
    exact of_decide_eq_true whole
  · exact Meets.error (liesBelow_self _ _)

theorem validateNumber_of_allows {options : NumberOptions} {number : ℚ}
    (allows : options.Allows number) :
    validateNumber options (some (.number number)) path = .ok (some (.number number)) := by
  obtain ⟨int, least, most⟩ := allows
  have whole : (!options.int || decide (number.den = 1)) = true := by
    cases asked : options.int with
    | false => rfl
    | true => exact decide_eq_true (int asked)
  have least := option_all fun min given => decide_eq_true (least min given)
  have most := option_all fun max given => decide_eq_true (most max given)
  rw [validateNumber, whole, least, most]
  rfl

theorem meets_validateOneOf (values : List Json) :
    Meets (LiesBelow path) (validateOneOf values value path) fun out =>
      out = value ∧ ∃ given ∈ values, value = some given := by
  unfold validateOneOf
  refine Meets.seq (meets_expect _ _ _) fun _ found => ?_
  refine Meets.ret ⟨rfl, ?_⟩
  cases value with
  | none => cases found
  | some given => exact ⟨given, List.contains_iff_mem.mp found, rfl⟩

theorem validateOneOf_of_mem {values : List Json} {given : Json} (member : given ∈ values) :
    validateOneOf values (some given) path = .ok (some given) := by
  rw [validateOneOf, Option.any_some, List.contains_iff_mem.mpr member]
  rfl

theorem meets_validateEmpty :
    Meets (LiesBelow path) (validateEmpty value path) fun out => out = some (.object []) := by
  unfold validateEmpty
  split
  · exact Meets.ok rfl
  · exact Meets.ok rfl
  · exact Meets.error (liesBelow_self _ _)

theorem meets_validateUrl (browser : Browser) :
    Meets (LiesBelow path) (validateUrl browser value path) fun out =>
      out = value ∧ ∃ text, value = some (.string text) ∧ browser.IsWebUrl text := by
  unfold validateUrl
  split
  · next text =>
    refine Meets.seq (meets_expect _ _ _) fun _ short => ?_
    split
    · exact Meets.error (liesBelow_self _ _)
    · next url parsed =>
      refine Meets.seq (meets_expect _ _ _) fun _ http => ?_
      exact Meets.ret ⟨rfl, text, rfl, of_decide_eq_true short, url, parsed, http⟩
  · exact Meets.error (liesBelow_self _ _)

theorem validateUrl_of_isWebUrl {browser : Browser} {text : String}
    (web : browser.IsWebUrl text) :
    validateUrl browser (some (.string text)) path = .ok (some (.string text)) := by
  obtain ⟨short, url, parsed, http⟩ := web
  rw [validateUrl, decide_eq_true short, expect_true]
  simp only [parsed, http, expect_true]
  rfl

end Plain

/-! ### Hexadecimal digits -/

theorem toLower_hex {character : Char} (digit : isHexDigit character = true) :
    isHexDigit character.toLower = true ∧ character.toLower.toLower = character.toLower := by
  have all : HEX_DIGITS.all fun digit =>
      isHexDigit digit.toLower && digit.toLower.toLower == digit.toLower := by decide +kernel
  have both := List.all_eq_true.mp all character (List.contains_iff_mem.mp digit)
  rw [Bool.and_eq_true, beq_iff_eq] at both
  exact both

theorem isLowerHex_toLower {bytes : Option ℕ} {text : String}
    (digits : text.toList.all isHexDigit = true) (even : text.length % 2 = 0)
    (exact_ : ∀ count ∈ bytes, text.length = count * 2) : IsLowerHex bytes text.toLower := by
  have same : text.toLower.length = text.length := String.length_map
  refine ⟨fun character member => ?_, by rw [same]; exact even,
    fun count given => by rw [same]; exact exact_ count given⟩
  rw [String.toLower, String.toList_map] at member
  obtain ⟨digit, inside, rfl⟩ := List.mem_map.mp member
  exact toLower_hex (List.all_eq_true.mp digits digit inside)

theorem toLower_of_isLowerHex {bytes : Option ℕ} {text : String} (hex : IsLowerHex bytes text) :
    text.toLower = text := by
  apply String.toList_inj.mp
  rw [String.toLower, String.toList_map]
  rw [List.map_congr_left fun character member => (hex.1 character member).2, List.map_id']

section Hex

variable (value : Option Json) (path : String) {bytes : Option ℕ}

theorem meets_validateHex :
    Meets (LiesBelow path) (validateHex bytes value path) fun out =>
      ∃ text, out = some (.string text) ∧ IsLowerHex bytes text := by
  unfold validateHex
  split
  · next text =>
    refine Meets.seq (meets_expect _ _ _) fun _ digits => ?_
    refine Meets.seq (meets_expect _ _ _) fun _ count => ?_
    rw [Bool.and_eq_true] at digits
    exact Meets.ret ⟨_, rfl, isLowerHex_toLower digits.1 (of_decide_eq_true digits.2)
      fun bytes given => of_decide_eq_true (all_of_option count bytes given)⟩
  · exact Meets.error (liesBelow_self _ _)

theorem validateHex_of_isLowerHex {text : String} (hex : IsLowerHex bytes text) :
    validateHex bytes (some (.string text)) path = .ok (some (.string text)) := by
  have digits : text.toList.all isHexDigit = true :=
    List.all_eq_true.mpr fun character member => (hex.1 character member).1
  have count := option_all fun count given => decide_eq_true (hex.2.2 count given)
  rw [validateHex, digits, decide_eq_true hex.2.1, count, toLower_of_isLowerHex hex]
  rfl

end Hex

/-! ### Members -/

section Members

variable {browser : Browser} {key : String} {value : Option Json}
  {members others : List (String × Json)} {shape : List (String × Validator)}

theorem lookup_absent (absent : key ∉ members.map Prod.fst) : members.lookup key = none := by
  rw [List.lookup_eq_none_iff]
  rintro member inside
  rw [bne_iff_ne]
  rintro rfl
  exact absent (List.mem_map_of_mem inside)

theorem lookup_withMember_self (absent : key ∉ members.map Prod.fst) :
    (withMember key value members).lookup key = value := by
  cases value with
  | none => exact lookup_absent absent
  | some given => exact List.lookup_cons_self

theorem lookup_withMember_ne {other : String} (differs : other ≠ key) :
    (withMember key value members).lookup other = members.lookup other := by
  cases value with
  | none => rfl
  | some given =>
    rw [withMember, List.lookup_cons, beq_false_of_ne differs]

theorem keys_withMember : ((withMember key value members).map Prod.fst).Sublist
    (key :: members.map Prod.fst) := by
  cases value with
  | none => exact List.sublist_cons_self key _
  | some given => exact List.Sublist.refl _

/-- Whether members conform depends on what the declared keys look up only. -/
theorem membersConform_congr
    (same : ∀ key ∈ shape.map Prod.fst, members.lookup key = others.lookup key)
    (conform : Validator.MembersConform browser shape members) :
    Validator.MembersConform browser shape others := by
  induction shape with
  | nil => exact trivial
  | cons entry rest inductionHypothesis =>
    obtain ⟨key, schema⟩ := entry
    refine ⟨?_, inductionHypothesis (fun other inside => same other (List.mem_cons_of_mem _ inside))
      conform.2⟩
    rw [← same key List.mem_cons_self]
    exact conform.1

/-- The members of these keys, in this order. -/
def membersOf (members : List (String × Json)) : List String → List (String × Json)
  | [] => []
  | key :: keys => withMember key (members.lookup key) (membersOf members keys)

theorem membersOf_congr {keys : List String}
    (same : ∀ key ∈ keys, members.lookup key = others.lookup key) :
    membersOf members keys = membersOf others keys := by
  induction keys with
  | nil => rfl
  | cons key keys inductionHypothesis =>
    rw [membersOf, membersOf, same key List.mem_cons_self,
      inductionHypothesis fun other inside => same other (List.mem_cons_of_mem _ inside)]

/-- Members with some of the keys, in their order, are the members of all the keys. -/
theorem membersOf_eq {keys : List String} (distinct : keys.Nodup)
    (ordered : (members.map Prod.fst).Sublist keys) : membersOf members keys = members := by
  induction keys generalizing members with
  | nil => exact (List.map_eq_nil_iff.mp (List.sublist_nil.mp ordered)).symm
  | cons key keys inductionHypothesis =>
    obtain ⟨absent, apart⟩ := List.nodup_cons.mp distinct
    rw [membersOf]
    cases members with
    | nil => exact inductionHypothesis apart (List.nil_sublist _)
    | cons member rest =>
      obtain ⟨first, given⟩ := member
      rcases List.sublist_cons_iff.mp ordered with behind | ⟨tail, same, tailOrdered⟩
      · have missing : ((first, given) :: rest).lookup key = none :=
          lookup_absent fun inside => absent (behind.mem inside)
        rw [missing, inductionHypothesis apart behind]
        rfl
      · rw [List.map_cons, List.cons.injEq] at same
        obtain ⟨rfl, rfl⟩ := same
        have later : membersOf ((first, given) :: rest) keys = membersOf rest keys := by
          refine membersOf_congr fun other inside => ?_
          have differs : other ≠ first := by
            rintro rfl
            exact absent inside
          rw [List.lookup_cons, beq_false_of_ne differs]
        rw [List.lookup_cons_self, later, inductionHypothesis apart tailOrdered]
        rfl

theorem rejectUnknown_of_sublist {keys : List String} (path : String)
    (ordered : (members.map Prod.fst).Sublist keys) :
    rejectUnknown keys path members = .ok () := by
  have known : ∀ member ∈ members, member.1 ∈ keys :=
    fun member inside => ordered.mem (List.mem_map_of_mem inside)
  clear ordered
  induction members with
  | nil => rfl
  | cons member rest inductionHypothesis =>
    obtain ⟨key, given⟩ := member
    have declared : keys.contains key = true :=
      List.contains_iff_mem.mpr (known _ List.mem_cons_self)
    rw [rejectUnknown, declared, Bool.true_or]
    exact inductionHypothesis fun other inside => known other (List.mem_cons_of_mem _ inside)

theorem meets_rejectUnknown (keys : List String) (path : String)
    (members : List (String × Json)) :
    Meets (LiesBelow path) (rejectUnknown keys path members) fun _ =>
      ∀ member ∈ members, member.1 ∈ keys ∨ member.1 ∈ Json.inheritedNames := by
  induction members with
  | nil => exact Meets.ret fun member absent => absurd absent List.not_mem_nil
  | cons member rest inductionHypothesis =>
    obtain ⟨key, given⟩ := member
    refine Meets.seq (meets_above String.append_assoc (meets_expect _ _ _)) fun _ declared => ?_
    refine inductionHypothesis.weaken fun _ known member inside => ?_
    rw [Bool.or_eq_true, List.contains_iff_mem, List.contains_iff_mem] at declared
    rcases List.mem_cons.mp inside with rfl | behind
    · exact declared
    · exact known member behind

end Members

/-! ### Every schema -/

section Schemas

variable (browser : Browser)

/-- Items answer as the validator of one item does, and stay given. -/
theorem meets_validateItems {validate : Option Json → String → Validated (Option Json)}
    {conforms : Option Json → Prop} {path : String}
    (each : ∀ item place, Meets (LiesBelow place) (validate (some item) place) fun out =>
      conforms out ∧ out.isSome = true) (index : ℕ) (items : List Json) :
    Meets (LiesBelow path) (validateItems validate path index items) fun results =>
      results.length = items.length ∧ ∀ item ∈ results, conforms (some item) := by
  induction items generalizing index with
  | nil => exact Meets.ret ⟨rfl, fun item absent => absurd absent List.not_mem_nil⟩
  | cons item rest inductionHypothesis =>
    rw [validateItems]
    have below : path ++ "[" ++ toString index ++ "]" =
        path ++ ("[" ++ (toString index ++ "]")) := by
      rw [String.append_assoc, String.append_assoc]
    refine Meets.seq (meets_above below (each item _)) fun out answered => ?_
    refine Meets.seq (inductionHypothesis (index + 1)) fun others conform => ?_
    obtain ⟨value, rfl⟩ := Option.isSome_iff_exists.mp answered.2
    refine Meets.ret ⟨by rw [List.length_cons, List.length_cons, conform.1], ?_⟩
    intro result inside
    rcases List.mem_cons.mp inside with rfl | behind
    · exact answered.1
    · exact conform.2 result behind

theorem validateItems_of_conform {validate : Option Json → String → Validated (Option Json)}
    {items : List Json} (path : String)
    (each : ∀ item ∈ items, ∀ place, validate (some item) place = .ok (some item)) (index : ℕ) :
    validateItems validate path index items = .ok items := by
  induction items generalizing index with
  | nil => rfl
  | cons item rest inductionHypothesis =>
    rw [validateItems, each item List.mem_cons_self, inductionHypothesis fun other inside =>
      each other (List.mem_cons_of_mem _ inside)]
    rfl

mutual

/-- What a schema answers conforms to it, and is given if the value was; and it fails at or below
the path of the value. -/
theorem meets_validate : ∀ (schema : Validator) (value : Option Json) (path : String),
    schema.WellDeclared → Meets (LiesBelow path) (schema.validate browser value path) fun out =>
      schema.Conforms browser out ∧ (value.isSome = true → out.isSome = true)
  | .str options, value, path, _ => by
    rw [Validator.validate]
    refine (meets_validateString value path options).weaken ?_
    rintro out ⟨rfl, conforms⟩
    exact ⟨conforms, id⟩
  | .bool, value, path, _ => by
    rw [Validator.validate]
    refine (meets_validateBool value path).weaken ?_
    rintro out ⟨rfl, conforms⟩
    exact ⟨conforms, id⟩
  | .num options, value, path, _ => by
    rw [Validator.validate]
    refine (meets_validateNumber value path options).weaken ?_
    rintro out ⟨rfl, conforms⟩
    exact ⟨conforms, id⟩
  | .oneOf values, value, path, _ => by
    rw [Validator.validate]
    refine (meets_validateOneOf value path values).weaken ?_
    rintro out ⟨rfl, conforms⟩
    exact ⟨conforms, id⟩
  | .optional inner, value, path, declared => by
    rw [Validator.validate, validateOptional.eq_def]
    cases value with
    | none => exact Meets.ok ⟨.inl rfl, id⟩
    | some given =>
      refine (meets_validate inner (some given) path declared).weaken fun out answered => ?_
      exact ⟨.inr ⟨answered.2 rfl, answered.1⟩, answered.2⟩
  | .list inner max, value, path, declared => by
    rw [Validator.validate, validateList.eq_def]
    split
    · next items =>
      refine Meets.seq (meets_expect _ _ _) fun _ few => ?_
      refine Meets.seq (meets_validateItems (fun item place =>
        (meets_validate inner (some item) place declared).weaken fun out answered =>
          ⟨answered.1, answered.2 rfl⟩) 0 items) fun results answered => ?_
      refine Meets.ret ⟨⟨results, rfl, fun bound given => ?_, answered.2⟩, fun _ => rfl⟩
      rw [answered.1]
      exact of_decide_eq_true (all_of_option few bound given)
    · exact Meets.error (liesBelow_self _ _)
  | .lenient inner, value, path, declared => by
    rw [Validator.validate, validateLenient.eq_def]
    split
    · next items =>
      refine Meets.seq (meets_validateItems (fun item place =>
        (meets_validate inner (some item) place declared).weaken fun out answered =>
          ⟨answered.1, answered.2 rfl⟩) 0 items) fun results answered => ?_
      exact Meets.ret ⟨⟨results, rfl, answered.2⟩, fun _ => rfl⟩
    · exact Meets.ok ⟨⟨[], rfl, fun item absent => absurd absent List.not_mem_nil⟩, fun _ => rfl⟩
  | .hex bytes, value, path, _ => by
    rw [Validator.validate]
    refine (meets_validateHex value path).weaken ?_
    rintro out ⟨text, rfl, hex⟩
    exact ⟨⟨text, rfl, hex⟩, fun _ => rfl⟩
  | .httpUrl, value, path, _ => by
    rw [Validator.validate]
    refine (meets_validateUrl value path browser).weaken ?_
    rintro out ⟨rfl, conforms⟩
    exact ⟨conforms, id⟩
  | .obj shape, value, path, declared => by
    rw [Validator.validate, validateObject.eq_def]
    split
    · next members =>
      refine Meets.seq (meets_rejectUnknown _ _ _) fun _ _ => ?_
      refine Meets.seq (meets_validateMembers shape members path declared.1.1 declared.2)
        fun results answered => ?_
      exact Meets.ret ⟨⟨results, rfl, answered⟩, fun _ => rfl⟩
    · exact Meets.error (liesBelow_self _ _)
  | .empty, value, path, _ => by
    rw [Validator.validate]
    refine (meets_validateEmpty value path).weaken ?_
    rintro out rfl
    exact ⟨rfl, fun _ => rfl⟩

theorem meets_validateMembers : ∀ (shape : List (String × Validator))
    (members : List (String × Json)) (path : String), (shape.map Prod.fst).Nodup →
    Validator.MembersWellDeclared shape →
    Meets (LiesBelow path) (Validator.validateMembers browser shape members path) fun results =>
      (results.map Prod.fst).Sublist (shape.map Prod.fst) ∧
        Validator.MembersConform browser shape results
  | [], members, path, _, _ => Meets.ret ⟨List.Sublist.slnil, trivial⟩
  | (key, schema) :: rest, members, path, distinct, declared => by
    obtain ⟨absent, apart⟩ := List.nodup_cons.mp distinct
    rw [Validator.validateMembers]
    refine Meets.seq (meets_above String.append_assoc
      (meets_validate schema (members.lookup key) _ declared.1)) fun value answered => ?_
    refine Meets.seq (meets_validateMembers rest members path apart declared.2)
      fun others conform => ?_
    refine Meets.ret ⟨keys_withMember.trans (conform.1.cons_cons key), ?_, ?_⟩
    · rw [lookup_withMember_self fun inside => absent (conform.1.mem inside)]
      exact answered.1
    · refine membersConform_congr (fun other inside => ?_) conform.2
      rw [lookup_withMember_ne]
      rintro rfl
      exact absent inside

end

mutual

/-- What conforms to a schema passes it unchanged. -/
theorem validate_of_conforms : ∀ (schema : Validator) (value : Option Json) (path : String),
    schema.WellDeclared → schema.Conforms browser value →
      schema.validate browser value path = .ok value
  | .str options, value, path, _, conforms => by
    obtain ⟨text, rfl, allows⟩ := conforms
    rw [Validator.validate, validateString_of_allows path allows]
  | .bool, value, path, _, conforms => by
    obtain ⟨flag, rfl⟩ := conforms
    rfl
  | .num options, value, path, _, conforms => by
    obtain ⟨number, rfl, allows⟩ := conforms
    rw [Validator.validate, validateNumber_of_allows path allows]
  | .oneOf values, value, path, _, conforms => by
    obtain ⟨given, member, rfl⟩ := conforms
    rw [Validator.validate, validateOneOf_of_mem path member]
  | .optional inner, value, path, declared, conforms => by
    rw [Validator.validate, validateOptional.eq_def]
    rcases conforms with rfl | ⟨present, conforms⟩
    · rfl
    · obtain ⟨given, rfl⟩ := Option.isSome_iff_exists.mp present
      exact validate_of_conforms inner (some given) path declared conforms
  | .list inner max, value, path, declared, conforms => by
    obtain ⟨items, rfl, few, each⟩ := conforms
    have few := option_all fun bound given => decide_eq_true (few bound given)
    have same := validateItems_of_conform path (fun item inside place =>
      validate_of_conforms inner (some item) place declared (each item inside)) 0
    rw [Validator.validate, validateList, few, same]
    rfl
  | .lenient inner, value, path, declared, conforms => by
    obtain ⟨items, rfl, each⟩ := conforms
    have same := validateItems_of_conform path (fun item inside place =>
      validate_of_conforms inner (some item) place declared (each item inside)) 0
    rw [Validator.validate, validateLenient, same]
    rfl
  | .hex bytes, value, path, _, conforms => by
    obtain ⟨text, rfl, hex⟩ := conforms
    rw [Validator.validate, validateHex_of_isLowerHex path hex]
  | .httpUrl, value, path, _, conforms => by
    obtain ⟨text, rfl, web⟩ := conforms
    rw [Validator.validate, validateUrl_of_isWebUrl path web]
  | .obj shape, value, path, declared, conforms => by
    obtain ⟨members, rfl, ordered, conform⟩ := conforms
    rw [Validator.validate, validateObject, rejectUnknown_of_sublist path ordered,
      validateMembers_of_conform shape members path declared.2 conform,
      membersOf_eq declared.1.1 ordered]
    rfl
  | .empty, value, path, _, conforms => by
    obtain rfl := conforms
    rfl

theorem validateMembers_of_conform : ∀ (shape : List (String × Validator))
    (members : List (String × Json)) (path : String), Validator.MembersWellDeclared shape →
    Validator.MembersConform browser shape members →
      Validator.validateMembers browser shape members path =
        .ok (membersOf members (shape.map Prod.fst))
  | [], members, path, _, _ => rfl
  | (key, schema) :: rest, members, path, declared, conform => by
    rw [Validator.validateMembers, validate_of_conforms schema _ _ declared.1 conform.1,
      validateMembers_of_conform rest members path declared.2 conform.2]
    rfl

end

/-- What a validator lets through is of the kind its schema describes. -/
theorem conforms_of_validated {schema : Validator} (declared : schema.WellDeclared)
    {value out : Option Json} {path : String}
    (passed : schema.validate browser value path = .ok out) : schema.Conforms browser out := by
  have meets := meets_validate browser schema value path declared
  rw [passed] at meets
  exact meets.1

/-- What a validator lets through is of the kind its schema describes and passes it again
unchanged, whatever the path; what is of that kind is let through unchanged; and an error lies at
or below the path that was validated. -/
theorem validator_sound (schema : Validator) (declared : schema.WellDeclared) (value : Option Json)
    (path : String) :
    (∀ out, schema.validate browser value path = .ok out →
      schema.Conforms browser out ∧ ∀ other, schema.validate browser out other = .ok out) ∧
    (schema.Conforms browser value ↔ schema.validate browser value path = .ok value) ∧
    ∀ error, schema.validate browser value path = .error error →
      ∃ rest, error.path = path ++ rest := by
  refine ⟨fun out answered => ?_, ⟨fun conforms => ?_, conforms_of_validated browser declared⟩,
    fun error failed => ?_⟩
  · have conforms := conforms_of_validated browser declared answered
    exact ⟨conforms, fun other => validate_of_conforms browser schema out other declared conforms⟩
  · exact validate_of_conforms browser schema value path declared conforms
  · have meets := meets_validate browser schema value path declared
    rw [failed] at meets
    exact meets

end Schemas

def sampleValidator : Browser := ⟨fun _ => none, id, fun _ => 0⟩

/-- One byte in hexadecimal digits, and perhaps a note. -/
def sampleSchema : Validator :=
  .obj [("byte", .hex (some 1)), ("note", .optional (.str ⟨none, some 10, none⟩))]

theorem validator_sound_sample :
    sampleSchema.Conforms sampleValidator (some (.object [("byte", .string "ab")])) :=
  ((validator_sound sampleValidator sampleSchema
    ⟨⟨by decide, by decide⟩, trivial, trivial, trivial⟩
    (some (.object [("byte", .string "AB")])) "payload").1 _ (by decide +kernel)).1

end OpenSocial.Extension
