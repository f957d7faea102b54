/-
This file proves that an attempt creates at most one post, in every run.

A key is bound by the first accepted publication that carries it, so the chain
alone keeps the posts of an attempt to one. What the orchestrator adds is that a
record only says a post exists when the chain has bound the key to it: an accepted
publication bound it, and a lookup tells what the chain bound. An indexer that
names another post while the chain has none breaks exactly this.
-/

import OpenSocial.CrossPosts.Runs

namespace OpenSocial.CrossPosts

open Library Sdk Extension

/-! ### Runs -/

section Runs

variable (host : Host) (platform : Platform)
  (meets : World → (request : Request) → Answer request → Prop)

/-- The programs the background starts. -/
def Started (program : Action Unit) : Prop := ∃ operation, program = perform platform operation

/-- A configuration of the orchestrator and its world. -/
abbrev Configuration := Service.Configuration Request Answer World CrossPostFailure Unit

/-- The configurations reached from an empty storage and a fresh contract. -/
def Reached (configuration : Configuration) : Prop :=
  (met host platform meets).Reaches (Started platform) ⟨[], []⟩ configuration

/-- One move of the orchestrator or its world. -/
abbrev Moves (configuration next : Configuration) : Prop :=
  (met host platform meets).Move (Started platform) configuration next

variable {host platform meets} {known : Knowledge}
  (informed : Informed host platform known meets) {configuration next : Configuration}

include informed in
/-- Every run keeps its file in order, and asks only what is allowed. -/
theorem ordered_reached (reached : Reached host platform meets configuration) :
    Ordered host platform known configuration.1 ∧ ∀ program, configuration.2 = some program →
      Asks host platform known meets (fun _ _ => True) program configuration.1 := by
  refine Service.invariant_reached ?_ ?_ ?_ ?_ reached
  · intro world later ordered drifts attemptId record stored
    rw [drifts.1] at stored
    exact (ordered attemptId record stored).grows informed.lasts drifts.2
  · intro world request answer after ordered asks served attemptId record stored
    refine Derivable.grows informed.lasts (chain_of_served served.1) ?_
    rcases file_cases served.1 with kept | ⟨file, rfl, written⟩
    · rw [kept] at stored
      exact ordered attemptId record stored
    · rw [written] at stored
      exact asks.2 attemptId record stored
  · rintro program ⟨operation, rfl⟩ world ordered
    exact asks_perform informed operation ordered
  · intro attemptId record stored
    cases stored

include informed in
/-- No move takes a post id away from an attempt that stays. -/
theorem follows_of_move (reached : Reached host platform meets configuration)
    (move : Moves host platform meets configuration next) :
    Follows configuration.1.file next.1.file := by
  have same : ∀ file : List StoredCrossPost, Follows file file := by
    intro file attemptId record next before after
    obtain rfl := Option.some.inj (before.symm.trans after)
    exact fun _ => id
  obtain ⟨ordered, asks⟩ := ordered_reached informed reached
  cases move with
  | drift drifts =>
    rw [show _ = _ from drifts.1]
    exact same _
  | start one => exact same _
  | stop => exact same _
  | @answer world after request answer rest served =>
    have allows := Service.allowed_of_pending ordered (asks _ rfl) rfl
    rcases file_cases served.1 with kept | ⟨file, rfl, written⟩
    · rw [kept]
      exact same _
    · rw [written]
      exact allows.1

/-- The chain of a run only grows. -/
theorem chain_of_moves {later : Configuration}
    (moves : Relation.ReflTransGen (Moves host platform meets) configuration later) :
    configuration.1.chain <+: later.1.chain := by
  induction moves with
  | refl => exact List.prefix_refl _
  | tail before move inductionHypothesis =>
    refine inductionHypothesis.trans ?_
    cases move with
    | drift drifts => exact drifts.2
    | start one => exact List.prefix_refl _
    | answer served => exact chain_of_served served.1
    | stop => exact List.prefix_refl _

end Runs

/-! ### One post -/

section OnePost

variable (host : Host) (platform : Platform)

/-- What the indexer names for an attempt is the post the chain has bound its key to. -/
def NamesBoundPost (world : World) : (request : Request) → Answer request → Prop
  | .lookupIndexer author record, answer => ∀ hit, answer = .ok (some hit) →
    ∀ signer : Address, author = signer.val →
      Publications.boundPost (stateOf host world.chain) signer
        (keyOf platform signer record.attemptId) = some hit.postId
  | _, _ => True

/-- The post a lookup found is the one the key is bound to. -/
def BoundTo : Knowledge := fun chain record author postId _ =>
  Publications.boundPost (stateOf host chain) author
    (keyOf platform author record.attemptId) = some postId

theorem informed_bound :
    Informed host platform (BoundTo host platform) (NamesBoundPost host platform) where
  lasts _ _ _ _ _ _ grown bound := boundPost_grows grown bound
  binds _ _ _ _ _ bound := bound
  chain _ _ _ _ _ _ grown bound _ _ := boundPost_grows grown bound
  indexer _ _ author hit names := names hit rfl author rfl

variable {host platform} {configuration : Configuration}

theorem sound_reached {known : Knowledge}
    {meets : World → (request : Request) → Answer request → Prop}
    (informed : Informed host platform known meets)
    (reached : Reached host platform meets configuration) {attemptId : Bytes}
    {record : StoredCrossPost} (stored : recordOf configuration.1.file attemptId = some record) :
    Sound host platform configuration.1.chain record :=
  sound_of_derivable informed.binds ((ordered_reached informed reached).1 attemptId record stored)

variable (host platform configuration) in
/-- In every run with an indexer that names bound posts only: a key is bound by at most one accepted
publication; a record whose Koinos side is known names the post its key is bound to; and as long as
the attempt is stored it keeps that post, whatever is asked, answered or included. -/
theorem attempt_creates_one_post
    (reached : Reached host platform (NamesBoundPost host platform) configuration) :
    (∀ author key, (Publications.bindingsOf author key
      ((Publications.machine host).history Publications.empty
        (configuration.1.chain.map Inclusion.call))).length ≤ 1) ∧
    ∀ attemptId record, recordOf configuration.1.file attemptId = some record →
      record.koinosStatus = .ok → ∃ author postId, record.author = some author ∧
        record.postId = some postId ∧
        Publications.boundPost (stateOf host configuration.1.chain) author
          (keyOf platform author attemptId) = some postId ∧
        (∀ next, Moves host platform (NamesBoundPost host platform) configuration next →
          ∀ after, recordOf next.1.file attemptId = some after →
            after.koinosStatus = .ok ∧ after.postId = some postId) ∧
        ∀ later, Relation.ReflTransGen (Moves host platform (NamesBoundPost host platform))
            configuration later →
          ∀ after, recordOf later.1.file attemptId = some after → after.author = some author →
            after.koinosStatus = .ok → after.postId = some postId := by
  have informed := informed_bound host platform
  refine ⟨fun author key => ?_, fun attemptId record stored ok => ?_⟩
  · rw [(Publications.bindingTracked_run host author key _).once]
    cases Publications.boundPost _ author key with
    | none => exact Nat.zero_le 1
    | some postId => exact Nat.le_refl 1
  have sound := sound_reached informed reached stored
  obtain ⟨postId, named⟩ := Option.ne_none_iff_exists'.mp (sound.found.mp ok)
  have left : record.state ≠ .draft := fun draft => sound.found.mp ok (sound.drafted draft)
  obtain ⟨author, own, _⟩ := sound.keyed left
  have bound := sound.bound author postId own named
  rw [recordOf_attemptId stored] at bound
  refine ⟨author, postId, own, named, bound, fun next move after found => ?_,
    fun later moves after found own' known => ?_⟩
  · have kept := follows_of_move informed reached move attemptId record after stored found postId
      named
    have sound' := sound_reached informed (reached.tail move) found
    exact ⟨sound'.found.mpr (kept ▸ Option.some_ne_none postId), kept⟩
  · have sound' := sound_reached informed (reached.trans moves) found
    obtain ⟨other, named'⟩ := Option.ne_none_iff_exists'.mp (sound'.found.mp known)
    have bound' := sound'.bound author other own' named'
    rw [recordOf_attemptId found] at bound'
    have grown := boundPost_grows (chain_of_moves moves) bound
    rw [named', Option.some.inj (bound'.symm.trans grown)]

end OnePost

/-! ### A lying indexer -/

section Sample

/-- Answers that never change: a submission that fails like this, and an indexer that knows this. -/
def answering (host : Host) (error : PublishError) (hit : Option IndexerHit) (world : World) :
    (request : Request) → Answer request × World
  | .now => ((0 : ℕ), world)
  | .account => (.ok (some (Address.repeated 1)), world)
  | .load => (.ok world.file, world)
  | .save file => (.ok (), { world with file := file })
  | .publishKoinos _ => (.error error, world)
  | .lookupChain _ author key =>
    (.ok (Publications.getPostByIdempotencyKey (stateOf host world.chain) author key), world)
  | .lookupIndexer _ _ => (.ok hit, world)
  | .recordProof _ => (.error "not recorded", world)

theorem answering_serves (host : Host) (platform : Platform) (error : PublishError)
    (hit : Option IndexerHit) (world : World) (request : Request) :
    serve host platform world request (answering host error hit world request).1
      (answering host error hit world request).2 := by
  cases request with
  | now => rfl
  | account => rfl
  | load => exact ⟨rfl, fun file same => (Except.ok.inj same).symm⟩
  | save file => exact ⟨rfl, .inl rfl, fun _ => rfl⟩
  | publishKoinos record =>
    refine ⟨rfl, .inl ⟨fun outcome impossible => ?_, rfl⟩⟩
    cases impossible
  | lookupChain record author key => exact ⟨rfl, fun found same => (Except.ok.inj same).symm⟩
  | lookupIndexer author record => rfl
  | recordProof record => rfl

/-- The world after an operation with these answers. -/
def performed (host : Host) (platform : Platform) (error : PublishError) (hit : Option IndexerHit)
    (operation : Operation) (world : World) : World :=
  (Service.play (answering host error hit) (fun _ => false) (perform platform operation) world).1

/-- An operation that is played to its end, or to where it is about to ask, is part of a run. -/
theorem reached_played {host : Host} {platform : Platform}
    {meets : World → (request : Request) → Answer request → Prop}
    {respond : World → (request : Request) → Answer request × World} {stops : Request → Bool}
    (serving : ∀ world request, (met host platform meets).serve world request
      (respond world request).1 (respond world request).2)
    (operation : Operation) {world : World} (reached : Reached host platform meets (world, none)) :
    Reached host platform meets
      ((Service.play respond stops (perform platform operation) world).1,
        some (Service.play respond stops (perform platform operation) world).2) := by
  have started := reached.tail (.start ⟨operation, rfl⟩ : Moves host platform meets (world, none)
    (world, some (perform platform operation)))
  exact started.trans (Service.moves_play _ serving _ _)

theorem reached_performed {host : Host} {platform : Platform} {error : PublishError}
    {hit : Option IndexerHit} {meets : World → (request : Request) → Answer request → Prop}
    (meeting : ∀ world request, meets world request (answering host error hit world request).1)
    (operation : Operation) {world : World} (reached : Reached host platform meets (world, none)) :
    Reached host platform meets (performed host platform error hit operation world, none) :=
  (reached_played (fun world request => ⟨answering_serves host platform error hit world request,
    meeting world request⟩) operation reached).tail .stop

def samplePlatform : Platform where
  sha256 := fun _ => List.replicate 32 7
  sha256_length := fun _ => List.length_replicate
  parseUrl := fun _ => some ⟨"https:", "www.facebook.com"⟩

def sampleAttempt : Bytes := List.replicate 16 1

/-- A draft proposed from Facebook. -/
def samplePayload : ProposePayload := ⟨.facebook, "hello", sampleAttempt, "https://facebook.com", true⟩

/-- An attempt with a content of its own, by the byte it repeats. -/
def attemptOf (byte : UInt8) : PublishAttempt where
  postId := Util.u64be 1 ++ List.replicate 24 byte
  contentHash := List.replicate 32 byte
  sequence := 1
  epoch := 0
  versionNumber := 1
  transactionId := some (.string "first")

/-- A submission whose answer is lost. -/
def lostAnswer : PublishError :=
  .attempt (.other "network timeout") (attemptOf 2)

/-- The draft was confirmed, and the answer to its submission was lost. -/
def unansweredWorld : World :=
  performed Publications.numberingHost samplePlatform lostAnswer none (.confirm sampleAttempt none)
    (performed Publications.numberingHost samplePlatform lostAnswer none (.propose samplePayload)
      ⟨[], []⟩)

theorem reached_unanswered {meets : World → (request : Request) → Answer request → Prop}
    (meeting : ∀ world request,
      meets world request (answering Publications.numberingHost lostAnswer none world request).1) :
    Reached Publications.numberingHost samplePlatform meets (unansweredWorld, none) :=
  reached_performed meeting _ (reached_performed meeting _ .refl)

/-- The arguments of an attempt's publication. -/
def argumentsOf (byte : UInt8) : Publications.PublishArguments where
  author := (Address.repeated 1).val
  postId := (attemptOf byte).postId
  previousVersion := []
  sequence := 1
  audience := 0
  audienceId := []
  epoch := 0
  envelope := List.replicate 40 byte
  contentHash := (attemptOf byte).contentHash
  media := []
  replyTo := []
  idempotencyKey := keyOf samplePlatform (Address.repeated 1) sampleAttempt
  device := []

/-- The chain after it included the publication of an attempt. -/
def landedChain (byte : UInt8) : List Inclusion :=
  [⟨.string "setup", ⟨Env.signedBy [] 0, .setIdentityContract ⟨(Address.repeated 9).val⟩⟩⟩,
    ⟨.string "first", ⟨Env.signedBy [] 1, .publish (argumentsOf byte)⟩⟩]

/-- The publication landed after all, and was looked up. -/
def reconciledWorld : World :=
  performed Publications.numberingHost samplePlatform lostAnswer none (.reconcile sampleAttempt)
    { unansweredWorld with chain := landedChain 2 }

theorem attempt_creates_one_post_lateInclusion :
    ∃ author postId,
      Publications.boundPost (stateOf Publications.numberingHost reconciledWorld.chain) author
        (keyOf samplePlatform author sampleAttempt) = some postId := by
  have truthful : ∀ world request,
      NamesBoundPost Publications.numberingHost samplePlatform world request
        (answering Publications.numberingHost lostAnswer none world request).1 := by
    intro world request
    cases request with
    | lookupIndexer author record =>
      intro hit impossible
      cases impossible
    | _ => trivial
  have landed : Reached Publications.numberingHost samplePlatform
      (NamesBoundPost Publications.numberingHost samplePlatform)
      ({ unansweredWorld with chain := landedChain 2 }, none) :=
    (reached_unanswered truthful).tail (.drift ⟨rfl, List.nil_prefix⟩)
  have reached := reached_performed truthful (.reconcile sampleAttempt) landed
  have known : ((recordOf reconciledWorld.file sampleAttempt).map fun record =>
      record.koinosStatus) = some .ok := by decide +kernel
  obtain ⟨record, stored, ok⟩ := Option.map_eq_some_iff.mp known
  obtain ⟨author, postId, _, _, bound, _⟩ := (attempt_creates_one_post
    Publications.numberingHost samplePlatform (reconciledWorld, none) reached).2 sampleAttempt record
    stored ok
  exact ⟨author, postId, bound⟩

/-- Nothing landed, and the indexer names a post when it is asked. -/
def forgedWorld : World :=
  performed Publications.numberingHost samplePlatform lostAnswer (some ⟨[1], none⟩)
    (.reconcile sampleAttempt) unansweredWorld

/-- An indexer names a post for an attempt that never landed: the record takes it, and the chain has
bound the key to nothing. -/
theorem attempt_takes_forged_post :
    ¬ ∀ (host : Host) (platform : Platform) (configuration : Configuration),
      Reached host platform (fun _ _ _ => True) configuration → ∀ attemptId record,
        recordOf configuration.1.file attemptId = some record → record.koinosStatus = .ok →
          ∃ author postId, record.author = some author ∧ record.postId = some postId ∧
            Publications.boundPost (stateOf host configuration.1.chain) author
              (keyOf platform author attemptId) = some postId := by
  intro always
  have unanswered : Reached Publications.numberingHost samplePlatform (fun _ _ _ => True)
      (unansweredWorld, none) := reached_unanswered fun _ _ => trivial
  have reached : Reached Publications.numberingHost samplePlatform (fun _ _ _ => True)
      (forgedWorld, none) := reached_performed (fun _ _ => trivial) _ unanswered
  have known : ((recordOf forgedWorld.file sampleAttempt).map fun record =>
      record.koinosStatus) = some .ok := by decide +kernel
  obtain ⟨record, stored, ok⟩ := Option.map_eq_some_iff.mp known
  obtain ⟨author, postId, _, _, bound⟩ := always _ _ _ reached sampleAttempt record stored ok
  have untouched : forgedWorld.chain = [] := rfl
  rw [untouched] at bound
  cases bound

end Sample

end OpenSocial.CrossPosts
