/-
This file models how the extension opens a post that an indexer serves, and what
either client binds a displayed first version to.

Neither client computes a post id while it reads, and the associated data of a
first version has none; so what is displayed under an id is whatever the served
envelope opens to.
-/

import OpenSocial.Web.Decrypt

namespace OpenSocial.Extension

open Library Sdk Web

section Opening

variable {Request : Type} {Answer : Request → Type}

/-- `OpenContext` of the extension; its key store gives the bare key. -/
structure OpenContext (Request : Type) (Answer : Request → Type) where
  chainId : String
  resolve : Option (EpochKeyRef → Program Request Answer String (Option Bytes))
  me : Option String
  keySource : Bool

def reason (post : PostView) (otherwise : String) : Option String :=
  some (if post.stateReason = "" then otherwise else post.stateReason)

def wording (post : PostView) : Wording where
  tombstone := .tombstone (reason post "This post was deleted by its author.")
  hidden := .hidden (reason post "The author hid this post.")
  unavailable := .unavailable (reason post "This post is unavailable.")
  undecodable := .error "This post's content could not be decoded."

variable (libraries : Libraries)

/-- A suite-1 envelope, with its key. -/
def openedWith (post : PostView) (chainId : String) (envelope : Envelope) (epochKey : Bytes) :
    Program Request Answer String PostContent :=
  match decryptContent libraries envelope (some (viewAad libraries chainId post))
      (some epochKey) with
  | .ok content => pure (.decrypted content)
  | .error _ => pure (.error "The post could not be decrypted with the key you hold.")

/-- A suite-1 envelope, with what resolving the key gives. -/
def readWith (post : PostView) (chainId : String) (envelope : Envelope)
    (resolved : Program Request Answer String (Option Bytes)) :
    Program Request Answer String PostContent := do
  match ← resolved with
  | none => pure (.noKey
      "You do not have the key for this post (not shared with you, or not indexed yet).")
  | some epochKey => openedWith libraries post chainId envelope epochKey

/-- `openPost` of the extension. -/
def openPost (post : PostView) (ctx : OpenContext Request Answer) :
    Program Request Answer String PostContent :=
  openView libraries post (wording post) fun envelope =>
    match ctx.resolve, ctx.me, ctx.keySource with
    | some resolve, some _, true =>
      if post.audience ≠ AUDIENCE.FRIENDS ∧ post.audience ≠ AUDIENCE.CUSTOM then
        pure (.error "Unknown audience.")
      else readWith libraries post ctx.chainId envelope (resolve (keyRef libraries post))
    | _, _, _ => pure (.locked "Unlock your account to read friends-only posts.")

end Opening

/-! ### What is displayed -/

section Binding

variable {Request : Type} {Answer : Request → Type} (libraries : Libraries)

/-- The post id the protocol gives a first version with the served envelope, author and
sequence. -/
def recomputedId (chainId : String) (post : PostView) : Except SdkError Bytes :=
  postId libraries.toEncodings chainId post.author post.sequence
    (contentHash libraries.toEncodings (bytesOf libraries.toEncodings post.envelope))

/-- The served id is the recomputed one. -/
def Bound (chainId : String) (post : PostView) : Prop :=
  recomputedId libraries chainId post = .ok (bytesOf libraries.toEncodings post.postId)

/-- The view is one of a post to be displayed, with an envelope that is decodable plaintext, or,
for an audience the client takes, that some epoch key opens under the associated data of the view. -/
def Displayable (takes : ℚ → Prop) (chainId : String) (post : PostView) : Prop :=
  (post.state ≠ LIFECYCLE.DELETED ∧ post.state ≠ LIFECYCLE.AUTHOR_HIDDEN ∧
    post.state ≠ LIFECYCLE.UNAVAILABLE ∧
    (bytesOf libraries.toEncodings post.envelope).length ≠ 0) ∧
  ∃ envelope content,
    decodeEnvelope libraries (bytesOf libraries.toEncodings post.envelope) = .ok envelope ∧
    (envelope.suite = SUITE.PLAINTEXT ∧ decryptContent libraries envelope none none = .ok content ∨
      envelope.suite ≠ SUITE.PLAINTEXT ∧ takes post.audience ∧
      ∃ epochKey, decryptContent libraries envelope (some (viewAad libraries chainId post))
        (some epochKey) = .ok content)

/-- Anything that is decrypted is of a suite with a cipher. -/
theorem suite_of_decryptContent {envelope : Envelope} {aad : Option AadInput}
    {epochKey : Option Bytes} {content : Content}
    (opened : decryptContent libraries envelope aad epochKey = .ok content)
    (hidden : envelope.suite ≠ SUITE.PLAINTEXT) :
    envelope.suite = SUITE.XCHACHA20POLY1305_X25519 := by
  by_contra other
  unfold decryptContent at opened
  by_cases version : envelope.version ≠ ENVELOPE_VERSION
  · rw [if_pos version] at opened
    cases opened
  · rw [if_neg version, if_neg hidden, if_pos other] at opened
    cases opened

theorem tryDecrypt_eq_some {envelope : Envelope} {epochKey : Bytes} {aad : AadInput}
    {content : Content} :
    tryDecrypt libraries envelope epochKey aad = some content ↔
      decryptContent libraries envelope (some aad) (some epochKey) = .ok content := by
  unfold tryDecrypt
  cases decryptContent libraries envelope (some aad) (some epochKey) with
  | error error =>
    constructor
    · intro same
      cases same
    · intro same
      cases same
  | ok opened =>
    constructor
    · intro same
      cases same
      rfl
    · intro same
      cases same
      rfl

variable {libraries}

theorem tryCandidates_yields {keys : KeyStore Request Answer} {ref : EpochKeyRef}
    {envelope : Envelope} {aad : AadInput} {entry : EpochKeyEntry}
    (candidates : List KeyCandidate) :
    Program.Yields (tryCandidates libraries keys ref envelope aad entry candidates) fun opened =>
      ∀ content, opened = some content →
        ∃ epochKey, decryptContent libraries envelope (some aad) (some epochKey) = .ok content := by
  induction candidates with
  | nil => exact Program.Yields.pure fun content same => by cases same
  | cons candidate candidates inductionHypothesis =>
    rw [tryCandidates]
    by_cases same : candidate.key = entry.key
    · rw [if_pos same]
      exact inductionHypothesis
    · rw [if_neg same]
      cases opening : tryDecrypt libraries envelope candidate.key aad with
      | none => exact inductionHypothesis
      | some opened =>
        refine (Program.Yields.trivial _).bind fun _ _ => Program.Yields.pure ?_
        intro content given
        cases given
        exact ⟨candidate.key, (tryDecrypt_eq_some libraries).mp opening⟩

theorem yields_silent {opened : PostContent} {shown : Content → Prop}
    (silent : opened.content? = none) :
    Program.Yields (pure opened : Program Request Answer String PostContent) fun opened =>
      ∀ content, opened.content? = some content → shown content :=
  Program.Yields.pure fun _ given => absurd (silent.symm.trans given) (Option.some_ne_none _).symm

/-- What is reported of an encrypted post was opened by some key under the view's data. -/
theorem openEncrypted_yields {post : PostView} {chainId account : String} {keySource : Bool}
    {keys : KeyStore Request Answer} {envelope : Envelope} :
    Program.Yields (openEncrypted libraries post chainId account keySource keys envelope)
      fun opened => ∀ content, opened.content? = some content →
        ∃ epochKey, decryptContent libraries envelope (some (viewAad libraries chainId post))
          (some epochKey) = .ok content := by
  refine (Program.Yields.trivial _).bind fun entry _ => ?_
  cases entry with
  | none => exact yields_silent rfl
  | some entry =>
    dsimp only
    unfold openWith
    cases opening : tryDecrypt libraries envelope entry.key (viewAad libraries chainId post) with
    | some opened =>
      refine Program.Yields.pure fun content shown => ?_
      cases shown
      exact ⟨entry.key, (tryDecrypt_eq_some libraries).mp opening⟩
    | none =>
      refine (Program.Yields.trivial _).bind fun candidates _ => ?_
      refine (tryCandidates_yields _).bind fun opened found => ?_
      cases opened with
      | some opened =>
        refine Program.Yields.pure fun content shown => ?_
        cases shown
        exact found _ rfl
      | none =>
        refine (Program.Yields.trivial _).bind fun _ _ => ?_
        exact yields_silent rfl

/-- What is reported of a view stands in its plaintext or comes from its encrypted envelope. -/
theorem openView_yields {takes : ℚ → Prop} {chainId : String} {post : PostView}
    {wording : Wording} {encrypted : Envelope → Program Request Answer String PostContent}
    (silent : wording.tombstone.content? = none ∧ wording.hidden.content? = none ∧
      wording.unavailable.content? = none ∧ wording.undecodable.content? = none)
    (reading : ∀ envelope, envelope.suite ≠ SUITE.PLAINTEXT →
      Program.Yields (encrypted envelope) fun opened => ∀ content,
        opened.content? = some content → takes post.audience ∧
          ∃ epochKey, decryptContent libraries envelope (some (viewAad libraries chainId post))
            (some epochKey) = .ok content) :
    Program.Yields (openView libraries post wording encrypted) fun opened =>
      ∀ content, opened.content? = some content → Displayable libraries takes chainId post := by
  unfold openView
  by_cases deleted : post.state = LIFECYCLE.DELETED
  · rw [if_pos deleted]
    exact yields_silent silent.1
  rw [if_neg deleted]
  by_cases hidden : post.state = LIFECYCLE.AUTHOR_HIDDEN
  · rw [if_pos hidden]
    exact yields_silent silent.2.1
  rw [if_neg hidden]
  by_cases gone : post.state = LIFECYCLE.UNAVAILABLE
  · rw [if_pos gone]
    exact yields_silent silent.2.2.1
  rw [if_neg gone]
  by_cases empty : (bytesOf libraries.toEncodings post.envelope).length = 0
  · rw [if_pos empty]
    exact yields_silent rfl
  rw [if_neg empty]
  cases decoded : decodeEnvelope libraries (bytesOf libraries.toEncodings post.envelope) with
  | error error => exact yields_silent rfl
  | ok envelope =>
    dsimp only
    by_cases clear : envelope.suite = SUITE.PLAINTEXT
    · rw [if_pos clear]
      cases opened : decryptContent libraries envelope none none with
      | error error => exact yields_silent silent.2.2.2
      | ok content =>
        exact Program.Yields.pure fun other _ =>
          ⟨⟨deleted, hidden, gone, empty⟩, envelope, content, decoded, Or.inl ⟨clear, opened⟩⟩
    · rw [if_neg clear]
      intro trace opened runs content shown
      obtain ⟨taken, epochKey, read⟩ := reading envelope clear trace opened runs content shown
      exact ⟨⟨deleted, hidden, gone, empty⟩, envelope, content, decoded,
        Or.inr ⟨clear, taken, epochKey, read⟩⟩

/-- A view that is displayable is reported once the encrypted envelope is, with a fitting key. -/
theorem openView_displays {takes : ℚ → Prop} {chainId : String} {post : PostView}
    {wording : Wording} (displayable : Displayable libraries takes chainId post) :
    ∃ content, ∃ epochKey : Bytes,
      ∀ encrypted : Envelope → Program Request Answer String PostContent,
        (∀ envelope, envelope.suite ≠ SUITE.PLAINTEXT → takes post.audience →
          decryptContent libraries envelope (some (viewAad libraries chainId post))
            (some epochKey) = .ok content → encrypted envelope = pure (.decrypted content)) →
        ∃ opened, openView libraries post wording encrypted = pure opened ∧
          opened.content? = some content := by
  obtain ⟨⟨deleted, hidden, gone, empty⟩, envelope, content, decoded, clear | secret⟩ := displayable
  · refine ⟨content, [], fun encrypted _ => ⟨.plain content, ?_, rfl⟩⟩
    rw [openView, if_neg deleted, if_neg hidden, if_neg gone, if_neg empty, decoded]
    dsimp only
    rw [if_pos clear.1, clear.2]
  · obtain ⟨suite, taken, epochKey, read⟩ := secret
    refine ⟨content, epochKey, fun encrypted opens => ⟨.decrypted content, ?_, rfl⟩⟩
    rw [openView, if_neg deleted, if_neg hidden, if_neg gone, if_neg empty, decoded]
    dsimp only
    rw [if_neg suite]
    exact opens envelope suite taken read

theorem webOpenPost_yields {post : PostView} (ctx : Web.OpenContext Request Answer) :
    Program.Yields (Web.openPost libraries post ctx) fun opened =>
      ∀ content, opened.content? = some content →
        Displayable libraries (fun _ => True) ctx.chainId post := by
  refine openView_yields ⟨rfl, rfl, rfl, rfl⟩ fun envelope _ => ?_
  by_cases unsupported : envelope.suite ≠ SUITE.XCHACHA20POLY1305_X25519
  · rw [if_pos unsupported]
    exact yields_silent rfl
  rw [if_neg unsupported]
  cases ctx.keys with
  | none => exact yields_silent rfl
  | some keys =>
    cases ctx.me with
    | none => exact yields_silent rfl
    | some account =>
      intro trace opened runs content shown
      exact ⟨trivial, openEncrypted_yields trace opened runs content shown⟩

/-- The audiences whose posts the extension decrypts. -/
def known (audience : ℚ) : Prop := audience = AUDIENCE.FRIENDS ∨ audience = AUDIENCE.CUSTOM

theorem openPost_yields {post : PostView} (ctx : OpenContext Request Answer) :
    Program.Yields (openPost libraries post ctx) fun opened =>
      ∀ content, opened.content? = some content →
        Displayable libraries known ctx.chainId post := by
  refine openView_yields ⟨rfl, rfl, rfl, rfl⟩ fun envelope _ => ?_
  cases ctx.resolve with
  | none => exact yields_silent rfl
  | some resolve =>
    cases ctx.me with
    | none => exact yields_silent rfl
    | some account =>
      cases ctx.keySource with
      | false => exact yields_silent rfl
      | true =>
        dsimp only
        by_cases unknown : post.audience ≠ AUDIENCE.FRIENDS ∧ post.audience ≠ AUDIENCE.CUSTOM
        · rw [if_pos unknown]
          exact yields_silent rfl
        rw [if_neg unknown]
        have taken : known post.audience := by
          by_contra neither
          exact unknown (not_or.mp neither)
        refine (Program.Yields.trivial _).bind fun epochKey _ => ?_
        cases epochKey with
        | none => exact yields_silent rfl
        | some epochKey =>
          dsimp only
          unfold openedWith
          cases read : decryptContent libraries envelope
              (some (viewAad libraries ctx.chainId post)) (some epochKey) with
          | error error => exact yields_silent rfl
          | ok content =>
            refine Program.Yields.pure fun other shown => ⟨taken, epochKey, ?_⟩
            cases shown
            exact read

/-- A key store that holds one key. -/
def holding (Request : Type) (Answer : Request → Type) (epochKey : Bytes) :
    KeyStore Request Answer where
  entry := fun _ => pure (some ⟨epochKey, [], true⟩)
  resolve := fun _ => pure (some ⟨epochKey, [], true⟩)
  candidates := fun _ => pure []
  adopt := fun _ _ => pure ()
  forget := fun _ => pure ()

theorem webOpenPost_displays (Request : Type) (Answer : Request → Type) {chainId : String} {post : PostView}
    (displayable : Displayable libraries (fun _ => True) chainId post) :
    ∃ (ctx : Web.OpenContext Request Answer) (opened : PostContent) (content : Content),
      ctx.chainId = chainId ∧ Web.openPost libraries post ctx = pure opened ∧
        opened.content? = some content := by
  obtain ⟨content, epochKey, opens⟩ := openView_displays displayable
  obtain ⟨opened, same, shown⟩ := opens (fun envelope =>
    if envelope.suite ≠ SUITE.XCHACHA20POLY1305_X25519 then
      pure (.error "This post uses an encryption suite this client does not support.")
    else openEncrypted libraries post chainId "" true (holding Request Answer epochKey) envelope)
    fun envelope hidden _ read => by
      have suite := suite_of_decryptContent libraries read hidden
      have opening := (tryDecrypt_eq_some libraries).mpr read
      rw [if_neg (not_not_intro suite)]
      show openWith libraries post chainId true (holding Request Answer epochKey) envelope
        ⟨epochKey, [], true⟩ = _
      rw [openWith, opening]
  exact ⟨⟨chainId, some (holding Request Answer epochKey), some "", true⟩, opened, content, rfl,
    same, shown⟩

theorem openPost_displays (Request : Type) (Answer : Request → Type) {chainId : String} {post : PostView}
    (displayable : Displayable libraries known chainId post) :
    ∃ (ctx : OpenContext Request Answer) (opened : PostContent) (content : Content),
      ctx.chainId = chainId ∧ openPost libraries post ctx = pure opened ∧
        opened.content? = some content := by
  obtain ⟨content, epochKey, opens⟩ :=
    @openView_displays Request Answer libraries known chainId post (wording post) displayable
  obtain ⟨opened, same, shown⟩ := opens (fun envelope =>
    if post.audience ≠ AUDIENCE.FRIENDS ∧ post.audience ≠ AUDIENCE.CUSTOM then
      pure (.error "Unknown audience.")
    else readWith libraries post chainId envelope (pure (some epochKey)))
    fun envelope _ taken read => by
      have accepted : ¬ (post.audience ≠ AUDIENCE.FRIENDS ∧ post.audience ≠ AUDIENCE.CUSTOM) :=
        fun neither => taken.elim neither.1 neither.2
      rw [if_neg accepted]
      show openedWith libraries post chainId envelope epochKey = _
      rw [openedWith, read]
  exact ⟨⟨chainId, some fun _ => pure (some epochKey), some "", true⟩, opened, content, rfl, same,
    shown⟩

variable (libraries)

/-- Of a first version, each client displays content only under the recomputed id, whatever keys it
holds, exactly when nothing is displayable under another id. -/
theorem openPost_bound_iff (chainId : String) (post : PostView) :
    ((∀ (ctx : Web.OpenContext Request Answer) trace opened content, ctx.chainId = chainId →
        Program.Runs (Web.openPost libraries post ctx) trace (.ok opened) →
        opened.content? = some content → post.versionNumber = 1 → Bound libraries chainId post) ↔
      (post.versionNumber = 1 → Displayable libraries (fun _ => True) chainId post →
        Bound libraries chainId post)) ∧
    ((∀ (ctx : OpenContext Request Answer) trace opened content, ctx.chainId = chainId →
        Program.Runs (openPost libraries post ctx) trace (.ok opened) →
        opened.content? = some content → post.versionNumber = 1 → Bound libraries chainId post) ↔
      (post.versionNumber = 1 → Displayable libraries known chainId post →
        Bound libraries chainId post)) := by
  constructor
  · constructor
    · intro binds first displayable
      obtain ⟨ctx, opened, content, chain, same, shown⟩ :=
        webOpenPost_displays Request Answer displayable
      refine binds ctx [] opened content chain ?_ shown first
      rw [same]
      exact .done opened
    · intro condition ctx trace opened content chain runs shown first
      have displayable := webOpenPost_yields ctx trace opened runs content shown
      rw [chain] at displayable
      exact condition first displayable
  · constructor
    · intro binds first displayable
      obtain ⟨ctx, opened, content, chain, same, shown⟩ :=
        openPost_displays Request Answer displayable
      refine binds ctx [] opened content chain ?_ shown first
      rw [same]
      exact .done opened
    · intro condition ctx trace opened content chain runs shown first
      have displayable := openPost_yields ctx trace opened runs content shown
      rw [chain] at displayable
      exact condition first displayable

end Binding

/-! ### One envelope under another post's id -/

def sampleChain : String := "chain"

def sampleAuthor : String := "one author of 25 letters."

def sampleKey : Bytes := List.replicate 32 7

def sampleContent (text : String) : Content where
  version := 1
  text := text
  mime := "text/plain"
  media := []
  lang := "en"
  created_at := 0
  external_ref := ""

/-- The author's envelope of a first version for the friends audience, in epoch 1. -/
def sampleEnvelope (text : String) : Bytes :=
  (encryptContent plainLibraries
    { content := sampleContent text
      aad := some
        { chainId := sampleChain
          author := sampleAuthor
          postId := []
          audience := 1
          audienceId := []
          epoch := 1
          versionNumber := 1 }
      epochKey := some sampleKey
      suite := none
      contentKey := List.replicate 32 5
      nonce := List.replicate 24 3
      wrapNonce := List.replicate 24 4 }).toOption.getD []

/-- A view with a sequence, a post id made for one envelope, and an envelope. -/
def sampleView (sequence : String) (made served : Bytes) : PostView where
  postId := oneByOne ((postId plainLibraries.toEncodings sampleChain sampleAuthor sequence
    (contentHash plainLibraries.toEncodings made)).toOption.getD [])
  author := sampleAuthor
  sequence := sequence
  versionNumber := 1
  audience := 1
  audienceId := ""
  epoch := 1
  envelope := oneByOne served
  state := 0
  stateReason := ""

def sampleReader : Web.OpenContext Empty (fun _ => Unit) :=
  ⟨sampleChain, some (holding Empty (fun _ => Unit) sampleKey), some sampleAuthor, true⟩

/-- Of two posts of one author and epoch, the first envelope is displayed under the id and the
sequence of the second. -/
theorem envelope_under_another_id :
    Bound plainLibraries sampleChain
        (sampleView "1" (sampleEnvelope "one") (sampleEnvelope "one")) ∧
      Bound plainLibraries sampleChain
        (sampleView "2" (sampleEnvelope "two") (sampleEnvelope "two")) ∧
      (∃ trace, Program.Runs (Web.openPost plainLibraries
        (sampleView "2" (sampleEnvelope "two") (sampleEnvelope "one")) sampleReader) trace
          (.ok (.decrypted (sampleContent "one")))) ∧
      ¬ Bound plainLibraries sampleChain
        (sampleView "2" (sampleEnvelope "two") (sampleEnvelope "one")) := by
  have ended : (Program.exec (fun _ _ => ()) [] (Web.openPost plainLibraries
      (sampleView "2" (sampleEnvelope "two") (sampleEnvelope "one")) sampleReader)).2 =
      .ok (.decrypted (sampleContent "one")) := by
    decide +kernel
  refine ⟨?_, ?_, ⟨_, ended ▸ Program.runs_exec (fun _ _ => ()) [] _⟩, ?_⟩
  · unfold Bound
    decide +kernel
  · unfold Bound
    decide +kernel
  · unfold Bound
    decide +kernel

end OpenSocial.Extension
