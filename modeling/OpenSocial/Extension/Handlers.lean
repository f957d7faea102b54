/-
This file gives the table of messages the background worker handles (`background/app.ts`)
and proves what content scripts can reach of it.

A web page talks to the worker through a content script. Of the whole table it reaches
two handlers: proposing a cross post, with a text of bounded length, a fresh hexadecimal
attempt id and a user gesture, and asking for a few items of the feed.
-/

import OpenSocial.Extension.Router
import OpenSocial.Sdk.Envelope

namespace OpenSocial.Extension.Router

open Library

/-! ### The table -/

def MAX_POST_CHARS : ℕ := 3000

/-- `MAX_MESSAGE_BYTES`. -/
def MAX_MESSAGE_BYTES : ℕ := 32 * 1024

def passphraseSchema : Validator := .str ⟨some 1, some 1024, none⟩

def attemptIdSchema : Validator := .hex (some 16)

def audienceSchema : Validator :=
  .oneOf [.number Sdk.AUDIENCE.EVERYONE, .number Sdk.AUDIENCE.FRIENDS]

/-- `/^[a-z0-9-]+$/i`. -/
def isNetworkName (name : String) : Bool :=
  !name.isEmpty && name.toList.all fun character => character.isAlphanum || character == '-'

def textsOf (values : List String) : List Json := values.map Json.string

def settingsPatch : Validator :=
  .obj
    [("network", .optional (.str ⟨none, some 32, some isNetworkName⟩)),
      ("rpcUrls", .optional (.lenient .httpUrl)),
      ("indexerUrl", .optional (.str ⟨none, some 2048, none⟩)),
      ("sponsorUrls", .optional (.lenient .httpUrl)),
      ("payment", .optional (.oneOf (textsOf
        ["sponsor-then-self", "self-only", "sponsor-only"]))),
      ("autoLockMinutes", .optional (.num ⟨some 0, some (24 * 60), false⟩)),
      ("facebookAdapter", .optional .bool),
      ("feedInsertion", .optional .bool)]

def proposeSchema : Validator :=
  .obj
    [("hostSite", .oneOf (textsOf ["facebook"])),
      ("text", .str ⟨some 1, some MAX_POST_CHARS, none⟩),
      ("attemptId", attemptIdSchema),
      ("url", .httpUrl),
      ("submitted", .bool),
      ("userGesture", .bool)]

def feedRequestSchema : Validator :=
  .obj [("limit", .optional (.num ⟨some 1, some 5, true⟩))]

/-- The messages, who may send them and what they carry. -/
def messageTable : List (String × MessageSource × Bool × Validator) :=
  [("vault.status", .extension, false, .empty),
    ("vault.touch", .extension, false, .empty),
    ("vault.create", .extension, false, .obj [("passphrase", passphraseSchema)]),
    ("vault.import", .extension, false,
      .obj [("identity", .str ⟨none, some 4096, none⟩), ("passphrase", passphraseSchema)]),
    ("vault.unlock", .extension, false, .obj [("passphrase", passphraseSchema)]),
    ("vault.lock", .extension, false, .empty),
    ("vault.export", .extension, false, .obj [("passphrase", passphraseSchema)]),
    ("vault.destroy", .extension, false, .obj [("passphrase", passphraseSchema)]),
    ("device.authorize", .extension, false,
      .obj [("passphrase", passphraseSchema), ("keepOwnerSeed", .bool)]),
    ("device.status", .extension, false, .empty),
    ("settings.get", .extension, false, .empty),
    ("settings.update", .extension, false, .obj [("patch", settingsPatch)]),
    ("adapter.status", .extension, false, .empty),
    ("adapter.enable", .extension, false, .obj [("adapter", .oneOf (textsOf ["facebook"]))]),
    ("adapter.disable", .extension, false, .obj [("adapter", .oneOf (textsOf ["facebook"]))]),
    ("feed.get", .extension, false,
      .obj [("scope", .oneOf (textsOf ["public", "friends"])),
        ("cursor", .optional (.str ⟨none, some 512, none⟩)),
        ("limit", .optional (.num ⟨some 1, some 50, true⟩)), ("refresh", .optional .bool)]),
    ("crosspost.list", .extension, false, .empty),
    ("crosspost.create", .extension, false,
      .obj [("text", .str ⟨some 1, some MAX_POST_CHARS, none⟩), ("audience", audienceSchema),
        ("adapter", .oneOf (textsOf ["sidepanel", "generic"])), ("url", .optional .httpUrl),
        ("title", .optional (.str ⟨none, some 512, none⟩))]),
    ("crosspost.confirm", .extension, false,
      .obj [("attemptId", attemptIdSchema), ("audience", .optional audienceSchema)]),
    ("crosspost.retry", .extension, false, .obj [("attemptId", attemptIdSchema)]),
    ("crosspost.reconcile", .extension, false, .obj [("attemptId", attemptIdSchema)]),
    ("crosspost.markHost", .extension, false,
      .obj [("attemptId", attemptIdSchema), ("outcome", .oneOf (textsOf ["posted", "failed"])),
        ("detail", .optional (.str ⟨none, some 2048, none⟩))]),
    ("crosspost.recordProof", .extension, false, .obj [("attemptId", attemptIdSchema)]),
    ("crosspost.discard", .extension, false, .obj [("attemptId", attemptIdSchema)]),
    ("page.current", .extension, false, .empty),
    ("crosspost.propose", .content, true, proposeSchema),
    ("feed.request", .content, false, feedRequestSchema)]

section Background

variable (browser : Browser)

def handlers : List (String × HandlerDef) :=
  messageTable.map fun (type, source, gesture, schema) =>
    (type, ⟨source, schema.validate browser, gesture⟩)

/-- The router as the background worker creates it. -/
def backgroundRouter (runtimeId : String) : RouterOptions where
  browser := browser
  runtimeId := runtimeId
  handlers := handlers browser
  rateLimit := ⟨20, 10000⟩
  maxBytes := MAX_MESSAGE_BYTES

end Background

/-! ### What content scripts reach -/

section Content

variable {browser : Browser} {payload : Option Json}

theorem wellDeclared_proposeSchema : proposeSchema.WellDeclared := by
  refine ⟨⟨by decide, by decide⟩, ?_⟩
  exact ⟨trivial, trivial, trivial, trivial, trivial, trivial, trivial⟩

theorem wellDeclared_feedRequestSchema : feedRequestSchema.WellDeclared :=
  ⟨⟨by decide, by decide⟩, trivial, trivial⟩

theorem lookup_propose : (handlers browser).lookup "crosspost.propose" =
    some ⟨.content, proposeSchema.validate browser, true⟩ := rfl

theorem lookup_feedRequest : (handlers browser).lookup "feed.request" =
    some ⟨.content, feedRequestSchema.validate browser, false⟩ := rfl

/-- A proposal has its six members and no others. -/
theorem proposal_of_conforms (conforms : proposeSchema.Conforms browser payload) :
    ∃ text attemptId url submitted gesture, payload = some (.object
        [("hostSite", .string "facebook"), ("text", .string text),
          ("attemptId", .string attemptId), ("url", .string url), ("submitted", .bool submitted),
          ("userGesture", .bool gesture)]) ∧
      1 ≤ Util.stringLength text ∧ Util.stringLength text ≤ MAX_POST_CHARS ∧
        IsLowerHex (some 16) attemptId ∧ browser.IsWebUrl url := by
  obtain ⟨members, rfl, ordered, host, text, attempt, url, submitted, gesture, -⟩ := conforms
  obtain ⟨site, listed, host⟩ := host
  obtain rfl : site = .string "facebook" := List.mem_singleton.mp listed
  obtain ⟨text, textGiven, least, most, -⟩ := text
  obtain ⟨attemptId, attemptGiven, hex⟩ := attempt
  obtain ⟨url, urlGiven, web⟩ := url
  obtain ⟨submitted, submittedGiven⟩ := submitted
  obtain ⟨gesture, gestureGiven⟩ := gesture
  refine ⟨text, attemptId, url, submitted, gesture, ?_, least 1 rfl, most MAX_POST_CHARS rfl, hex,
    web⟩
  rw [← membersOf_eq (by decide) ordered]
  simp only [List.map_cons, List.map_nil, membersOf, host, textGiven, attemptGiven, urlGiven,
    submittedGiven, gestureGiven, withMember]

theorem feedRequest_of_conforms (conforms : feedRequestSchema.Conforms browser payload) :
    payload = some (.object []) ∨ ∃ limit : ℚ, payload = some (.object [("limit", .number limit)]) ∧
      limit.den = 1 ∧ 1 ≤ limit ∧ limit ≤ 5 := by
  obtain ⟨members, rfl, ordered, limit, -⟩ := conforms
  rw [← membersOf_eq (by decide) ordered]
  rcases limit with absent | ⟨-, limit, given, whole, least, most⟩
  · left
    simp only [List.map_cons, List.map_nil, membersOf, absent, withMember]
  · right
    refine ⟨limit, ?_, whole rfl, least 1 rfl, most 5 rfl⟩
    simp only [List.map_cons, List.map_nil, membersOf, given, withMember]

end Content

/-- Whatever web pages send and however it interleaves with everything else, the handlers their
content scripts make the worker run are a proposal by a gesture, of bounded text and with a
well-formed id and link, and a request for at most five items of the feed; and the page's host is
one whose permission was granted. -/
theorem content_calls (browser : Browser) (runtimeId : String) (world : RouterWorld)
    (reached : RouterReached (backgroundRouter browser runtimeId) world) (call : HandlerCall)
    (made : call ∈ world.called) (content : call.source = .content) :
    (∃ patterns ∈ world.granted, call.origin ∈ originsFromPatterns browser patterns) ∧
    ((call.type = "crosspost.propose" ∧ ∃ text attemptId url submitted,
        call.payload = some (.object
          [("hostSite", .string "facebook"), ("text", .string text),
            ("attemptId", .string attemptId), ("url", .string url),
            ("submitted", .bool submitted), ("userGesture", .bool true)]) ∧
        1 ≤ Util.stringLength text ∧ Util.stringLength text ≤ MAX_POST_CHARS ∧
          IsLowerHex (some 16) attemptId ∧ browser.IsWebUrl url) ∨
      call.type = "feed.request" ∧ (call.payload = some (.object []) ∨
        ∃ limit : ℚ, call.payload = some (.object [("limit", .number limit)]) ∧
          limit.den = 1 ∧ 1 ≤ limit ∧ limit ≤ 5)) := by
  have authorized := (routerKept_reached reached).authorized call made
  obtain ⟨-, listed, -, tab, at_, patterns, -, -, -, -, granted, host⟩ := authorized.content content
  refine ⟨⟨patterns, granted, host⟩, ?_⟩
  obtain ⟨definition, given, found, -, validated, gesture⟩ := authorized.handler
  simp only [CONTENT_SCRIPT_TYPES, List.mem_cons, List.not_mem_nil, or_false] at listed
  rcases listed with type | type
  · left
    rw [type] at found
    obtain rfl := Option.some.inj (found.symm.trans lookup_propose)
    obtain ⟨text, attemptId, url, submitted, active, payload, rest⟩ :=
      proposal_of_conforms (conforms_of_validated browser wellDeclared_proposeSchema validated)
    refine ⟨type, text, attemptId, url, submitted, ?_, rest⟩
    have active_ := gesture content rfl
    rw [payload] at active_
    have active_ : some (Json.bool active) = some (.bool true) := active_
    rw [payload, Json.bool.inj (Option.some.inj active_)]
  · right
    rw [type] at found
    obtain rfl := Option.some.inj (found.symm.trans lookup_feedRequest)
    exact ⟨type, feedRequest_of_conforms
      (conforms_of_validated browser wellDeclared_feedRequestSchema validated)⟩

def sampleBrowser : Browser where
  parseUrl text := if text.startsWith "https://host.example/" then
    some ⟨"https:", "https://host.example"⟩ else none
  lower := id
  jsonSize _ := 0

/-- A content script of a granted host, in the top frame of a tab. -/
def samplePage : MessageSender :=
  ⟨some "extension", some "https://host.example", none, some 7, some 0⟩

def sampleProposal (attemptId : String) : Json :=
  .object
    [("hostSite", .string "facebook"), ("text", .string "hello"), ("attemptId", .string attemptId),
      ("url", .string "https://host.example/home"), ("submitted", .bool true),
      ("userGesture", .bool true)]

/-- The call that a proposal comes to. -/
def sampleProposed : HandlerCall where
  type := "crosspost.propose"
  payload := some (sampleProposal "abababababababababababababababab")
  sender := samplePage
  source := .content
  tabId := some 7
  origin := "https://host.example"
  admission := some ⟨7, 0, ["https://host.example/*"]⟩

/-- A proposal is sent, and goes on once the permissions are known. -/
def proposingMoves : List RouterMove :=
  [.arrive (.object [("type", .string "crosspost.propose"),
      ("payload", sampleProposal "ABABABABABABABABABABABABABABABAB")]) samplePage, .goOn 0]

theorem content_calls_proposing :
    sampleProposed ∈
        (routerPlayed (backgroundRouter sampleBrowser "extension") proposingMoves).called ∧
      (∃ patterns ∈ (routerPlayed (backgroundRouter sampleBrowser "extension")
          proposingMoves).granted,
        "https://host.example" ∈ originsFromPatterns sampleBrowser patterns) ∧
      ∃ text attemptId url submitted, sampleProposed.payload = some (.object
          [("hostSite", .string "facebook"), ("text", .string text),
            ("attemptId", .string attemptId), ("url", .string url),
            ("submitted", .bool submitted), ("userGesture", .bool true)]) ∧
        1 ≤ Util.stringLength text ∧ Util.stringLength text ≤ MAX_POST_CHARS ∧
          IsLowerHex (some 16) attemptId ∧ sampleBrowser.IsWebUrl url := by
  have made : sampleProposed ∈
      (routerPlayed (backgroundRouter sampleBrowser "extension") proposingMoves).called := by
    decide +kernel
  obtain ⟨host, proposal | request⟩ := content_calls sampleBrowser "extension" _
    (reached_routerPlayed _ proposingMoves) sampleProposed made rfl
  · exact ⟨made, host, proposal.2⟩
  · exact absurd request.1 (by decide)

end OpenSocial.Extension.Router
