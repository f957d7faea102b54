/-
This file proves which keys of audience epochs the web client comes to trust.

A key is stored as trusted only by the key store itself, when it opens a post or plans
a publication: a sealed copy that was served for the account opened to that key, and
the chain verified the copy for the recipients that are stored with it.
-/

import OpenSocial.Web.Publish

namespace OpenSocial.Web

open Library Sdk

section Trusting

variable (libraries : KeyLibraries) (me : KeyResolverIdentity)

/-- Every key that is stored as trusted is that of a copy which was verified on chain, for the
recipients it names. -/
def PutsVerified (trace : Trace) : Prop :=
  ∀ ref key recipients, (⟨.put ref key recipients, ()⟩ : Exchange) ∈ trace →
    ∃ item, openSealedView libraries me item ref = .ok (some key) ∧
      (⟨.verify item ref, .verified recipients⟩ : Exchange) ∈ trace

/-- A program stores verified keys only, and its values are good. -/
def Trusting {Failure Value : Type} (program : Program Request Answer Failure Value)
    (good : Value → Prop) : Prop :=
  program.Ensures fun trace result => PutsVerified libraries me trace ∧
    ∀ value, result = .ok value → good value

/-- A candidate is a copy that opens to its key. -/
def Opens (ref : EpochKeyRef) (candidate : KeyCandidate) : Prop :=
  openSealedView libraries me candidate.item ref = .ok (some candidate.key)

end Trusting

section Rules

variable {libraries : KeyLibraries} {me : KeyResolverIdentity}
variable {Failure Value Result : Type} {good : Value → Prop} {fine : Result → Prop}

theorem putsVerified_nil : PutsVerified libraries me [] :=
  fun _ _ _ absent => absurd absent List.not_mem_nil

theorem PutsVerified.append {first last : Trace} (front : PutsVerified libraries me first)
    (back : PutsVerified libraries me last) : PutsVerified libraries me (first ++ last) := by
  intro ref key recipients member
  rcases List.mem_append.mp member with early | late
  · obtain ⟨item, opens, verified⟩ := front ref key recipients early
    exact ⟨item, opens, List.mem_append_left _ verified⟩
  · obtain ⟨item, opens, verified⟩ := back ref key recipients late
    exact ⟨item, opens, List.mem_append_right _ verified⟩

theorem putsVerified_other {exchange : Exchange}
    (other : ∀ ref key recipients, exchange.1 ≠ .put ref key recipients) :
    PutsVerified libraries me [exchange] := by
  intro ref key recipients member
  exact absurd (List.mem_singleton.mp member ▸ rfl) (other ref key recipients)

theorem trusting_pure {value : Value} (holds : good value) :
    Trusting libraries me (pure value : Program Request Answer Failure Value) good :=
  .done ⟨putsVerified_nil, fun _ same => Except.ok.inj same ▸ holds⟩

theorem trusting_lift (computation : Except Failure Value) :
    Trusting libraries me (Program.lift computation) fun _ => True :=
  .lift ⟨putsVerified_nil, fun _ _ => trivial⟩

theorem trusting_query {request : Request} {read : Answer request → Except Failure Value}
    (other : ∀ ref key recipients, request ≠ .put ref key recipients)
    (reads : ∀ answer value, read answer = .ok value → good value) :
    Trusting libraries me (Program.query request read) good :=
  .query fun answer => ⟨putsVerified_other other, reads answer⟩

theorem Trusting.seq {program : Program Request Answer Failure Value}
    {next : Value → Program Request Answer Failure Result}
    (first : Trusting libraries me program good)
    (rest : ∀ value, good value → Trusting libraries me (next value) fine) :
    Trusting libraries me (program >>= next) fine := by
  refine Program.Ensures.seq first (fun _ _ ended => ⟨ended.1, fun _ same => by cases same⟩)
    fun trace value ended => ?_
  exact Program.Ensures.weaken (rest value (ended.2 value rfl)) fun last _ later =>
    ⟨ended.1.append later.1, later.2⟩

theorem Trusting.attempt {Other : Type} {program : Program Request Answer Failure Value}
    (trusting : Trusting libraries me program good) :
    Trusting libraries me (Program.attempt program : Program Request Answer Other _)
      fun ending => ∀ value, ending = .ok value → good value := by
  rintro trace result runs
  obtain ⟨ending, ended, rfl⟩ := Program.runs_attempt.mp runs
  obtain ⟨puts, holds⟩ := trusting trace ending ended
  refine ⟨puts, fun value same => ?_⟩
  obtain rfl := Except.ok.inj same
  exact holds

/-- What is verified on chain may be stored; other findings go on without storing it. -/
theorem trusting_verify {ref : EpochKeyRef} {candidate : KeyCandidate}
    (opens : Opens libraries me ref candidate)
    {next : KeyProvenance → Program Request Answer Failure Value}
    {stored : Program Request Answer Failure Value}
    (verified : ∀ recipients, next (.verified recipients) =
      ask (.put ref candidate.key recipients) >>= fun _ => stored)
    (rest : Trusting libraries me stored good)
    (rejected : ∀ reason, Trusting libraries me (next (.rejected reason)) good)
    (unavailable : ∀ reason, Trusting libraries me (next (.unavailable reason)) good) :
    Trusting libraries me (ask (.verify candidate.item ref) >>= next) good := by
  have asked : ∀ provenance, PutsVerified libraries me
      [⟨.verify candidate.item ref, provenance⟩] :=
    fun provenance => putsVerified_other fun _ _ _ impossible => by cases impossible
  refine .query_seq (fun _ _ impossible => by cases impossible) fun provenance _ same => ?_
  cases same
  cases provenance with
  | rejected reason =>
    exact Program.Ensures.weaken (rejected reason) fun last _ later =>
      ⟨(asked (.rejected reason)).append later.1, later.2⟩
  | unavailable reason =>
    exact Program.Ensures.weaken (unavailable reason) fun last _ later =>
      ⟨(asked (.unavailable reason)).append later.1, later.2⟩
  | verified recipients =>
    rw [verified]
    refine .query_seq (fun _ _ impossible => by cases impossible) fun _ _ same => ?_
    refine Program.Ensures.weaken rest fun last _ later => ⟨?_, later.2⟩
    have both : PutsVerified libraries me [⟨.verify candidate.item ref, .verified recipients⟩,
        ⟨.put ref candidate.key recipients, ()⟩] := by
      intro other key whom member
      rcases List.mem_cons.mp member with impossible | put
      · cases impossible
      · cases List.mem_singleton.mp put
        exact ⟨candidate.item, opens, List.mem_cons_self⟩
    exact both.append later.1

end Rules

/-! ### The key store -/

section Store

variable {libraries : KeyLibraries} {me : KeyResolverIdentity} {Failure : Type}

theorem opens_of_openAll {ref : EpochKeyRef} {items : List SealedKeyView}
    {found : List KeyCandidate} (opened : openAll libraries me ref items = .ok found) :
    ∀ candidate ∈ found, Opens libraries me ref candidate := by
  induction items generalizing found with
  | nil =>
    cases opened
    exact fun candidate absent => absurd absent List.not_mem_nil
  | cons item items inductionHypothesis =>
    obtain ⟨key, opens, opened⟩ := Sdk.ok_of_bind opened
    obtain ⟨others, rest, same⟩ := Sdk.ok_of_bind opened
    cases same
    intro candidate member
    rcases List.mem_append.mp member with first | later
    · cases key with
      | none => cases first
      | some key =>
        cases List.mem_singleton.mp first
        exact opens
    · exact inductionHypothesis rest candidate later

theorem trusting_candidates (ref : EpochKeyRef) : Trusting libraries me
    (candidates libraries me ref) fun found => ∀ candidate ∈ found,
      Opens libraries me ref candidate := by
  refine trusting_query (fun _ _ _ impossible => by cases impossible) fun answer found opened => ?_
  cases answer with
  | error error => cases opened
  | ok items => exact opens_of_openAll opened

theorem trusting_ask {request : Request}
    (other : ∀ ref key recipients, request ≠ .put ref key recipients) :
    Trusting libraries me (ask request : Program Request Answer Failure (Answer request))
      fun _ => True :=
  trusting_query other fun _ _ _ => trivial

theorem trusting_rememberCandidate (ref : EpochKeyRef) (candidate : KeyCandidate) :
    Trusting libraries me (rememberCandidate ref candidate) fun _ => True :=
  (trusting_ask fun _ _ _ impossible => by cases impossible).seq fun _ _ =>
    trusting_ask fun _ _ _ impossible => by cases impossible

theorem trusting_adopt (verifies : Bool) {ref : EpochKeyRef} {candidate : KeyCandidate}
    (opens : Opens libraries me ref candidate) :
    Trusting libraries me (adopt verifies ref candidate) fun _ => True := by
  unfold adopt
  split
  · exact trusting_verify opens (fun _ => rfl)
      (trusting_ask fun _ _ _ impossible => by cases impossible)
      (fun _ => trusting_pure trivial) fun _ => trusting_rememberCandidate ref candidate
  · exact trusting_rememberCandidate ref candidate

theorem trusting_adoptFirst (verifies : Bool) {ref : EpochKeyRef} {found : List KeyCandidate}
    (opens : ∀ candidate ∈ found, Opens libraries me ref candidate) :
    Trusting libraries me (adoptFirst verifies ref found) fun _ => True := by
  induction found with
  | nil =>
    exact (trusting_ask fun _ _ _ impossible => by cases impossible).seq fun _ _ =>
      trusting_pure trivial
  | cons candidate others inductionHypothesis =>
    obtain ⟨first, rest⟩ := List.forall_mem_cons.mp opens
    refine (trusting_adopt verifies first).seq fun adopted _ => ?_
    cases adopted with
    | some entry => exact trusting_pure trivial
    | none => exact inductionHypothesis rest

theorem trusting_resolve (verifies : Bool) (ref : EpochKeyRef) :
    Trusting libraries me (resolve libraries me verifies ref) fun _ => True := by
  refine (trusting_ask fun _ _ _ impossible => by cases impossible).seq fun _ _ => ?_
  refine (trusting_ask fun _ _ _ impossible => by cases impossible).seq fun cached _ => ?_
  cases cached with
  | some entry => exact trusting_pure trivial
  | none =>
    refine (trusting_ask fun _ _ _ impossible => by cases impossible).seq fun missed _ => ?_
    cases missed with
    | true => exact trusting_pure trivial
    | false =>
      refine (trusting_candidates ref).attempt.seq fun found opens => ?_
      cases found with
      | error error => exact trusting_pure trivial
      | ok found => exact trusting_adoptFirst verifies (opens found rfl)

theorem trusting_verifyFirst {ref : EpochKeyRef} (unverifiable : Bool)
    {found : List KeyCandidate} (opens : ∀ candidate ∈ found, Opens libraries me ref candidate) :
    Trusting libraries me (verifyFirst ref unverifiable found :
      Program Request Answer Failure Resolved) fun _ => True := by
  induction found generalizing unverifiable with
  | nil => exact trusting_pure trivial
  | cons candidate others inductionHypothesis =>
    obtain ⟨first, rest⟩ := List.forall_mem_cons.mp opens
    refine trusting_verify first (fun _ => rfl) ?_ (fun _ => inductionHypothesis unverifiable rest)
      fun _ => inductionHypothesis true rest
    exact (trusting_ask fun _ _ _ impossible => by cases impossible).seq fun _ _ =>
      trusting_pure trivial

theorem trusting_resolveTrusted (verifies : Bool) (ref : EpochKeyRef) :
    Trusting libraries me (resolveTrusted libraries me verifies ref :
      Program Request Answer Failure Resolved) fun _ => True := by
  refine (trusting_ask fun _ _ _ impossible => by cases impossible).seq fun _ _ => ?_
  refine (trusting_ask fun _ _ _ impossible => by cases impossible).seq fun cached _ => ?_
  cases cached with
  | some entry => exact trusting_pure trivial
  | none =>
    refine (trusting_candidates ref).attempt.seq fun found opens => ?_
    cases found with
    | error error => exact trusting_pure trivial
    | ok found =>
      show Trusting libraries me (verifyCopies verifies ref found) _
      unfold verifyCopies
      split
      · exact trusting_verifyFirst false (opens found rfl)
      · exact trusting_pure trivial

end Store
/-! ### Opening a post -/

section Opening

variable {keys : KeyLibraries} {me : KeyResolverIdentity} (libraries : Libraries) (verifies : Bool)

theorem trusting_unlessTrusted (entry : EpochKeyEntry) {change : Program Request Answer String Unit}
    (changes : Trusting keys me change fun _ => True) :
    Trusting keys me (unlessTrusted entry change) fun _ => True := by
  unfold unlessTrusted
  split
  · exact trusting_pure trivial
  · exact changes

theorem trusting_heldKey (keySource : Bool) (ref : EpochKeyRef) :
    Trusting keys me (heldKey (keyStore keys me verifies) keySource ref) fun _ => True := by
  unfold heldKey
  split
  · exact trusting_resolve verifies ref
  · exact trusting_ask fun _ _ _ impossible => by cases impossible

theorem trusting_otherCopies (keySource : Bool) (ref : EpochKeyRef) :
    Trusting keys me (otherCopies (keyStore keys me verifies) keySource ref) fun found =>
      ∀ candidate ∈ found, Opens keys me ref candidate := by
  unfold otherCopies
  split
  · refine (trusting_candidates ref).attempt.seq fun found opens => trusting_pure ?_
    cases found with
    | error error => exact fun candidate absent => absurd absent List.not_mem_nil
    | ok found => exact opens found rfl
  · exact trusting_pure fun candidate absent => absurd absent List.not_mem_nil

theorem trusting_tryCandidates (ref : EpochKeyRef) (envelope : Envelope) (aad : AadInput)
    (entry : EpochKeyEntry) {found : List KeyCandidate}
    (opens : ∀ candidate ∈ found, Opens keys me ref candidate) :
    Trusting keys me (tryCandidates libraries (keyStore keys me verifies) ref envelope aad entry
      found) fun _ => True := by
  induction found with
  | nil => exact trusting_pure trivial
  | cons candidate others inductionHypothesis =>
    obtain ⟨first, rest⟩ := List.forall_mem_cons.mp opens
    unfold tryCandidates
    split
    · exact inductionHypothesis rest
    · split
      · exact inductionHypothesis rest
      · refine (trusting_unlessTrusted entry ?_).seq fun _ _ => trusting_pure trivial
        exact (trusting_adopt verifies first).seq fun _ _ => trusting_pure trivial

theorem trusting_openWith (post : PostView) (chainId : String) (keySource : Bool)
    (envelope : Envelope) (entry : EpochKeyEntry) :
    Trusting keys me (openWith libraries post chainId keySource (keyStore keys me verifies)
      envelope entry) fun _ => True := by
  unfold openWith
  split
  · exact trusting_pure trivial
  · refine (trusting_otherCopies verifies keySource _).seq fun found opens => ?_
    refine (trusting_tryCandidates libraries verifies _ envelope _ entry opens).seq fun shown _ => ?_
    split
    · exact trusting_pure trivial
    · refine (trusting_unlessTrusted entry ?_).seq fun _ _ => trusting_pure trivial
      exact trusting_ask fun _ _ _ impossible => by cases impossible

theorem trusting_openEncrypted (post : PostView) (chainId account : String) (keySource : Bool)
    (envelope : Envelope) :
    Trusting keys me (openEncrypted libraries post chainId account keySource
      (keyStore keys me verifies) envelope) fun _ => True := by
  unfold openEncrypted
  refine (trusting_heldKey verifies keySource _).seq fun held _ => ?_
  split
  · exact trusting_pure trivial
  · exact trusting_openWith libraries verifies post chainId keySource envelope _

theorem trusting_openView (post : PostView) (wording : Wording)
    {encrypted : Envelope → Program Request Answer String PostContent}
    (opened : ∀ envelope, Trusting keys me (encrypted envelope) fun _ => True) :
    Trusting keys me (openView libraries post wording encrypted) fun _ => True := by
  unfold openView
  split
  · exact trusting_pure trivial
  split
  · exact trusting_pure trivial
  split
  · exact trusting_pure trivial
  split
  · exact trusting_pure trivial
  split
  · exact trusting_pure trivial
  split
  · split
    · exact trusting_pure trivial
    · exact trusting_pure trivial
  · exact opened _

/-- Opening a post stores no key as trusted but one that the chain verified, whatever the indexer
serves. -/
theorem openPost_putsVerified (post : PostView) (chainId : String) (account : Option String)
    (keySource : Bool) {trace : Trace} {result : Except String PostContent}
    (runs : Program.Runs (openPost libraries post
      ⟨chainId, some (keyStore keys me verifies), account, keySource⟩) trace result) :
    PutsVerified keys me trace := by
  refine (trusting_openView libraries post (wording post) (fun envelope => ?_) trace result
    runs).1
  split
  · exact trusting_pure trivial
  · cases account with
    | none => exact trusting_pure trivial
    | some account =>
      exact trusting_openEncrypted libraries verifies post chainId account keySource envelope

end Opening

/-! ### Planning a post -/

section Planning

variable {libraries : KeyLibraries} {me : KeyResolverIdentity} (content : Libraries)

theorem trusting_reading {Value : Type} {request : Request} (failure : String → PlanFailure)
    (answers : Answer request → Except String Value)
    (other : ∀ ref key recipients, request ≠ .put ref key recipients) :
    Trusting libraries me (reading request failure answers) fun _ => True :=
  trusting_query other fun _ _ _ => trivial

theorem trusting_confirmFriends (account : String) (collected : Collected)
    (friends : List String) :
    Trusting libraries me (confirmFriends account collected friends) fun _ => True := by
  induction friends generalizing collected with
  | nil => exact trusting_pure trivial
  | cons friend others inductionHypothesis =>
    unfold confirmFriends
    split
    · exact inductionHypothesis collected
    · refine (trusting_reading _ _ fun _ _ _ impossible => by cases impossible).seq
        fun status _ => ?_
      split
      · exact inductionHypothesis collected
      · exact (trusting_reading _ _ fun _ _ _ impossible => by cases impossible).seq fun record _ =>
          inductionHypothesis _

theorem trusting_collectRecipients (account : String) :
    Trusting libraries me (collectRecipients account) fun _ => True :=
  (trusting_reading _ _ fun _ _ _ impossible => by cases impossible).seq fun friends _ =>
    trusting_confirmFriends account {} friends.eraseDups

theorem trusting_chooseKey (entry : Option EpochKeyEntry) (collected : Collected) :
    Trusting libraries me (chooseKey me entry collected) fun _ => True := by
  cases entry with
  | some entry => exact trusting_pure trivial
  | none =>
    have drawn : Trusting libraries me newEpochKey fun _ => True :=
      trusting_query (fun _ _ _ impossible => by cases impossible) fun _ _ _ => trivial
    exact drawn.seq fun _ _ => trusting_pure trivial

theorem trusting_distribute (account : String) (epoch : ℕ)
    (packages : List Messages.Audience.KeyPackage) :
    Trusting libraries me (distribute account epoch packages) fun _ => True := by
  induction packages with
  | nil => exact trusting_pure trivial
  | cons package others inductionHypothesis =>
    exact (trusting_reading _ _ fun _ _ _ impossible => by cases impossible).seq fun _ _ =>
      inductionHypothesis.seq fun _ _ => trusting_pure trivial

theorem trusting_sealFor (epoch : ℕ) (epochKey : Bytes) (toSeal : List FriendRecipient) :
    Trusting libraries me (sealFor libraries me epoch epochKey toSeal) fun _ => True := by
  unfold sealFor
  split
  · exact trusting_pure trivial
  · exact (trusting_ask fun _ _ _ impossible => by cases impossible).seq fun _ _ =>
      (trusting_lift _).seq fun packages _ => trusting_distribute me.account epoch packages

theorem trusting_friendsKey (verifies : Bool) :
    Trusting libraries me (friendsKey libraries me verifies) fun _ => True := by
  refine (trusting_reading _ _ fun _ _ _ impossible => by cases impossible).seq fun epoch _ => ?_
  refine (trusting_resolveTrusted verifies _).seq fun resolved _ => ?_
  split
  · exact (trusting_lift _)
  · refine (trusting_collectRecipients me.account).seq fun collected _ => ?_
    refine (trusting_chooseKey resolved.entry collected).seq fun choice _ => ?_
    exact (trusting_sealFor epoch choice.epochKey choice.toSeal).seq fun _ _ => trusting_pure trivial

theorem trusting_placePost (input : PublishInput) (hash : Bytes) :
    Trusting libraries me (placePost libraries me input hash) fun _ => True := by
  unfold placePost
  split
  · exact trusting_pure trivial
  · exact (trusting_reading _ _ fun _ _ _ impossible => by cases impossible).seq fun _ _ =>
      (trusting_lift _).seq fun _ _ => trusting_pure trivial

theorem trusting_planWith (input : PublishInput) (key : Bytes) (friends : Option FriendsKey) :
    Trusting libraries me (planWith libraries content me input key friends) fun _ => True := by
  refine (trusting_ask fun _ _ _ impossible => by cases impossible).seq fun drawn _ => ?_
  refine (trusting_lift _).seq fun envelope _ => ?_
  refine (trusting_placePost input _).seq fun place _ => ?_
  exact (trusting_reading _ _ fun _ _ _ impossible => by cases impossible).seq fun _ _ =>
    trusting_pure trivial

/-- Planning a post stores no key as trusted but one that the chain verified. -/
theorem buildPublishPlan_putsVerified (input : PublishInput) {trace : Trace}
    {result : Except PlanFailure PublishPlan}
    (runs : Program.Runs (buildPublishPlan libraries content me input) trace result) :
    PutsVerified libraries me trace := by
  have planned : Trusting libraries me (buildPublishPlan libraries content me input)
      fun _ => True := by
    refine (trusting_lift _).seq fun key _ => (trusting_lift _).seq fun _ _ => ?_
    split
    · exact (trusting_friendsKey input.verifies).seq fun friends _ =>
        trusting_planWith content input key (some friends)
    · exact trusting_planWith content input key none
  exact (planned trace result runs).1

end Planning

end OpenSocial.Web
