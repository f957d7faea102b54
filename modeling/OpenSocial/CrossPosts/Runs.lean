/-
This file proves what the orchestrator asks in any run, and from it that an
attempt creates at most one post.

The file only ever holds records that come from drafts by changes, an update
changes the one record an operation holds, and only such records are published or
proven. So whatever holds of every record that comes from a draft by changes
holds of every stored record in every run, whatever the chain includes in between.
-/

import OpenSocial.CrossPosts.Records

namespace OpenSocial.CrossPosts

open Library Sdk Extension

/-! ### Files -/

section Files

variable (file : List StoredCrossPost)

theorem recordOf_cons (head : StoredCrossPost) (attemptId : Bytes) :
    recordOf (head :: file) attemptId =
      if head.attemptId = attemptId then some head else recordOf file attemptId := by
  unfold recordOf
  rw [List.find?_cons]
  by_cases same : head.attemptId = attemptId
  · rw [if_pos same, beq_iff_eq.mpr same]
  · rw [if_neg same, beq_eq_false_iff_ne.mpr same]

theorem recordOf_filter (keep : Bytes → Bool) (attemptId : Bytes) :
    recordOf (file.filter fun record => keep record.attemptId) attemptId =
      if keep attemptId then recordOf file attemptId else none := by
  induction file with
  | nil => simp [recordOf]
  | cons head tail inductionHypothesis =>
    rw [List.filter_cons, recordOf_cons]
    by_cases same : head.attemptId = attemptId
    · subst same
      by_cases kept : keep head.attemptId = true
      · rw [if_pos kept, if_pos kept, recordOf_cons, if_pos rfl, if_pos rfl]
      · rw [if_neg kept, if_neg kept, inductionHypothesis, if_neg kept]
    · rw [if_neg same]
      by_cases kept : keep head.attemptId = true
      · rw [if_pos kept, recordOf_cons, if_neg same, inductionHypothesis]
      · rw [if_neg kept, inductionHypothesis]

/-- Trimming drops records and changes none. -/
theorem recordOf_trimmed {attemptId : Bytes} {record : StoredCrossPost}
    (stored : recordOf (trimmed file) attemptId = some record) :
    recordOf file attemptId = some record := by
  unfold trimmed at stored
  split at stored
  · dsimp only at stored
    rw [recordOf_filter file fun attemptId => !_] at stored
    split at stored
    · exact stored
    · cases stored
  · exact stored

theorem recordOf_replaced (record : StoredCrossPost) (attemptId : Bytes) :
    recordOf (replaced file record) attemptId =
      if record.attemptId = attemptId then some record else recordOf file attemptId := by
  induction file with
  | nil => exact recordOf_cons [] record attemptId
  | cons head tail inductionHypothesis =>
    unfold replaced at inductionHypothesis ⊢
    rw [List.findIdx?_cons]
    by_cases same : head.attemptId = record.attemptId
    · rw [if_pos (beq_iff_eq.mpr same)]
      show recordOf (record :: tail) attemptId = _
      rw [recordOf_cons, recordOf_cons]
      by_cases named : record.attemptId = attemptId
      · rw [if_pos named, if_pos named]
      · rw [if_neg named, if_neg named, if_neg (same.trans_ne named)]
    · rw [if_neg fun equal => same (beq_iff_eq.mp equal)]
      cases found : tail.findIdx? fun stored => stored.attemptId == record.attemptId with
      | none => exact recordOf_cons (head :: tail) record attemptId
      | some index =>
        rw [found] at inductionHypothesis
        show recordOf (head :: tail.set index record) attemptId = _
        rw [recordOf_cons, recordOf_cons]
        by_cases named : head.attemptId = attemptId
        · rw [if_pos named, if_pos named, if_neg fun equal => same (named.trans equal.symm)]
        · rw [if_neg named, if_neg named]
          exact inductionHypothesis

end Files

/-! ### What is allowed -/

section Discipline

variable (host : Host) (platform : Platform) (known : Knowledge)

/-- Every stored record comes from a draft by changes. -/
def Ordered (world : World) : Prop :=
  ∀ attemptId record, recordOf world.file attemptId = some record →
    Derivable host platform known world.chain record

/-- A post id that was stored for an attempt stays, as long as the attempt does. -/
def Follows (file after : List StoredCrossPost) : Prop :=
  ∀ attemptId record next, recordOf file attemptId = some record →
    recordOf after attemptId = some next → ∀ postId, record.postId = some postId →
      next.postId = some postId

/-- What the orchestrator may ask. -/
def allowed (world : World) : Request → Prop
  | .save file => Follows world.file file ∧ ∀ attemptId record,
    recordOf file attemptId = some record → Derivable host platform known world.chain record
  | .publishKoinos record => Derivable host platform known world.chain record ∧
    record.state ≠ .draft ∧ record.koinosStatus ≠ .ok
  | .recordProof record => Derivable host platform known world.chain record ∧
    needsProof record = true
  | _ => True

variable (meets : World → (request : Request) → Answer request → Prop)

/-- What the answers to lookups make known: it lasts, and it binds the key of the attempt. A post
the chain has found is known with the transaction the indexer adds to it. -/
structure Informed : Prop where
  lasts : Lasts known
  binds : Binds host platform known
  chain : ∀ earlier world record (author : Address) postId (hit : Option IndexerHit),
    earlier.chain <+: world.chain →
    Publications.boundPost (stateOf host earlier.chain) author
      (keyOf platform author record.attemptId) = some postId →
    meets earlier (.lookupChain record author.val (keyOf platform author record.attemptId))
      (.ok (some postId)) →
    meets world (.lookupIndexer author.val record) (.ok hit) →
    known world.chain record author postId
      ((hit.filter fun hit => hit.postId == postId).bind IndexerHit.txId)
  indexer : ∀ world record (author : Address) hit,
    meets world (.lookupIndexer author.val record) (.ok (some hit)) →
    known world.chain record author hit.postId hit.txId

/-- An operation holds the file as it is stored, and a record that stands in it unless it was
dropped. -/
structure Holding (world : World) (file : List StoredCrossPost) (record : StoredCrossPost) :
    Prop where
  loaded : world.file = file
  stored : ∀ other, recordOf file record.attemptId = some other → other = record
  derivable : Derivable host platform known world.chain record

end Discipline

section Obeying

variable {host : Host} {platform : Platform} {known : Knowledge}
  {meets : World → (request : Request) → Answer request → Prop}
  (informed : Informed host platform known meets)
  {world : World} {file : List StoredCrossPost} {record next : StoredCrossPost}

/-- The world with the answers that meet the condition. -/
abbrev met (host : Host) (platform : Platform)
    (meets : World → (request : Request) → Answer request → Prop) :
    Service Request Answer World :=
  (CrossPosts.world host platform).restrict meets

/-- The program asks only what is allowed, and returns as `post` says. -/
abbrev Asks (host : Host) (platform : Platform) (known : Knowledge)
    (meets : World → (request : Request) → Answer request → Prop) {Value : Type}
    (post : Value → World → Prop) (program : Action Value) (world : World) : Prop :=
  (met host platform meets).Obeys (Ordered host platform known) (allowed host platform known) post
    program world

include informed in
theorem Holding.later {later : World} (holding : Holding host platform known world file record)
    (same : later.file = world.file) (grown : world.chain <+: later.chain) :
    Holding host platform known later file record :=
  ⟨same.trans holding.loaded, holding.stored, holding.derivable.grows informed.lasts grown⟩

theorem grown_of_met {before later after : World} {request : Request} {answer : Answer request}
    (drifts : drift before later) (served : (met host platform meets).serve later request answer
      after) : before.chain <+: after.chain :=
  drifts.2.trans (chain_of_served served.1)

theorem file_of_met {before later after : World} {request : Request} {answer : Answer request}
    (drifts : drift before later) (served : (met host platform meets).serve later request answer
      after) (reading : ∀ file, request ≠ .save file) : after.file = before.file :=
  (file_of_served served.1 reading).trans drifts.1

/-- The clock answers and nothing else changes. -/
theorem asks_now {Value : Type} {post : Value → World → Prop} {next : ℕ → Action Value}
    (after : ∀ time later, drift world later → Ordered host platform known later →
      Asks host platform known meets post (next time) later) :
    Asks host platform known meets post (now >>= next) world := by
  refine .query_seq (fun _ _ _ => trivial) ?_
  intro later time last value drifts _ served kept read
  obtain rfl : last = later := served.1
  exact after value last drifts kept

/-- Loading returns the file as it is stored. -/
theorem asks_load {Value : Type} {post : Value → World → Prop}
    {next : List StoredCrossPost → Action Value}
    (after : ∀ later, drift world later → Ordered host platform known later →
      Asks host platform known meets post (next later.file) later) :
    Asks host platform known meets post (load >>= next) world := by
  refine .query_seq (fun _ _ _ => trivial) ?_
  intro later answer last value drifts _ served kept read
  obtain ⟨rfl, loaded⟩ := served.1
  cases answer with
  | error message => cases read
  | ok file =>
    obtain rfl := Except.ok.inj read
    rw [loaded file rfl]
    exact after last drifts kept

theorem asks_account {Value : Type} {post : Value → World → Prop}
    {next : Option Address → Action Value}
    (after : ∀ signedIn later, drift world later → Ordered host platform known later →
      Asks host platform known meets post (next signedIn) later) :
    Asks host platform known meets post (account >>= next) world := by
  refine .query_seq (fun _ _ _ => trivial) ?_
  intro later answer last value drifts _ served kept read
  obtain rfl : last = later := served.1
  exact after value last drifts kept

/-- A record that is put into the file it stands in, or stands in none. -/
theorem asks_save {after : List StoredCrossPost} (loaded : world.file = file)
    (follows : Follows file after)
    (derivable : ∀ attemptId record, recordOf after attemptId = some record →
      recordOf file attemptId = some record ∨ Derivable host platform known world.chain record)
    (lasts : Lasts known) :
    Asks host platform known meets
      (fun written later => later.file = written ∧ world.chain <+: later.chain ∧
        ∀ attemptId record, recordOf written attemptId = some record →
          recordOf after attemptId = some record)
      (save after) world := by
  refine .query_seq ?_ ?_
  · intro later drifts ordered
    refine ⟨?_, fun attemptId record stored => ?_⟩
    · intro attemptId record next before stored
      rw [drifts.1, loaded] at before
      exact follows attemptId record next before (recordOf_trimmed after stored)
    · rcases derivable attemptId record (recordOf_trimmed after stored) with before | known
      · refine ordered attemptId record ?_
        rw [drifts.1, loaded]
        exact before
      · exact known.grows lasts drifts.2
  · intro later answer last value drifts _ served kept read
    refine .done fun final further _ => ?_
    obtain ⟨chain, _, written⟩ := served.1
    have stored : answer = .ok () := by
      cases answer with
      | error message => cases read
      | ok done => rfl
    refine ⟨further.1.trans (written stored), ?_, fun attemptId record => recordOf_trimmed after⟩
    exact drifts.2.trans (chain ▸ further.2)

include informed in
/-- An update changes the record an operation holds. -/
theorem asks_change {post : StoredCrossPost → World → Prop}
    {rest : List StoredCrossPost → Action StoredCrossPost}
    (holding : Holding host platform known world file record)
    (change : Change host platform known world.chain record next)
    (ordered : Ordered host platform known world)
    (after : ∀ file later, Ordered host platform known later → world.chain <+: later.chain →
      Holding host platform known later file next →
      Asks host platform known meets post (rest file) later) :
    Asks host platform known meets post (update file next >>= rest) world := by
  have keeps := keeps_of_change change
  have derivable := Derivable.changed holding.derivable change
  refine .seq ordered (asks_save holding.loaded ?_ ?_ informed.lasts) ?_
  · intro attemptId before stored found written
    rw [recordOf_replaced] at written
    split at written
    · next same =>
      obtain rfl := Option.some.inj written
      rw [← same, keeps.attemptId] at found
      obtain rfl := holding.stored before found
      exact keeps.post
    · rw [found] at written
      obtain rfl := Option.some.inj written
      exact fun _ => id
  · intro attemptId stored written
    rw [recordOf_replaced] at written
    split at written
    · obtain rfl := Option.some.inj written
      exact .inr derivable
    · exact .inl written
  · intro file later kept written
    refine after file later kept written.2.1 ⟨written.1, ?_, ?_⟩
    · intro other found
      have put := written.2.2 _ _ found
      rw [recordOf_replaced, if_pos rfl] at put
      exact (Option.some.inj put).symm
    · exact derivable.grows informed.lasts written.2.1

include informed in
/-- A lookup ends with what the chain or the indexer told of the attempt's key. -/
theorem asks_lookup {author : Address} {current : CrossPostRecord}
    (keyed : current.idempotencyKey = keyOf platform author record.attemptId) :
    Asks host platform known meets
      (fun looked later => later.file = world.file ∧ world.chain <+: later.chain ∧
        Looked known later.chain record author current looked)
      (lookup record current author.val) world := by
  unfold lookup Sdk.lookup
  refine asks_now fun time started drifts _ => .query_seq (fun _ _ _ => trivial) ?_
  intro asked answer answered found drifts' _ served _ read
  obtain ⟨same, truthful⟩ := served.1
  subst same
  rw [keyed] at truthful served
  have grown : world.chain <+: answered.chain := drifts.2.trans drifts'.2
  have file : answered.file = world.file := drifts'.1.trans drifts.1
  have told : ∀ postId, (found.filter fun found => found != []) = some postId →
      Publications.boundPost (stateOf host answered.chain) author
        (keyOf platform author record.attemptId) = some postId ∧
      meets answered (.lookupChain record author.val (keyOf platform author record.attemptId))
        (.ok (some postId)) := by
    intro postId present
    obtain ⟨rfl, _⟩ := Option.filter_eq_some_iff.mp present
    cases answer with
    | error message => cases read
    | ok reply =>
      obtain rfl := Except.ok.inj read
      exact ⟨boundPost_of_read (truthful _ rfl).symm, served.2⟩
  generalize (found.filter fun found => found != []) = present at told ⊢
  cases present with
  | some postId =>
    refine .query_seq (fun _ _ _ => trivial) ?_
    intro indexing reply indexed hit drifts'' _ served' _ read'
    obtain rfl : indexed = indexing := served'.1
    refine .done fun last further _ => ⟨?_, ?_, .found _ _ _ ?_⟩
    · exact further.1.trans (drifts''.1.trans file)
    · exact grown.trans (drifts''.2.trans further.2)
    · cases reply with
      | error message => cases read'
      | ok reply =>
        obtain rfl := Except.ok.inj read'
        obtain ⟨bound, chained⟩ := told postId rfl
        exact informed.lasts _ _ _ _ _ _ further.2
          (informed.chain _ _ _ _ _ _ drifts''.2 bound chained served'.2)
  | none =>
    refine .query_seq (fun _ _ _ => trivial) ?_
    intro indexing reply indexed hit drifts'' _ served' _ read'
    obtain rfl : indexed = indexing := served'.1
    cases hit with
    | none =>
      refine .done fun last further _ => ⟨?_, ?_, .missing _⟩
      · exact further.1.trans (drifts''.1.trans file)
      · exact grown.trans (drifts''.2.trans further.2)
    | some hit =>
      refine .done fun last further _ => ⟨?_, ?_, .found _ _ _ ?_⟩
      · exact further.1.trans (drifts''.1.trans file)
      · exact grown.trans (drifts''.2.trans further.2)
      · cases reply with
        | error message => cases read'
        | ok reply =>
          obtain rfl := Except.ok.inj read'
          exact informed.lasts _ _ _ _ _ _ further.2 (informed.indexer _ _ _ _ served'.2)

/-! ### The operations -/

/-- Nothing is said of what a part returns. -/
abbrev Silent : StoredCrossPost → World → Prop := fun _ _ => True

include informed in
theorem asks_maybeProof (holding : Holding host platform known world file record) :
    Asks host platform known meets Silent (maybeProof file record) world := by
  unfold maybeProof
  split
  · next needed =>
    refine .query_seq ?_ ?_
    · intro later drifts _
      exact ⟨holding.derivable.grows informed.lasts drifts.2, needed⟩
    · intro later answer last value drifts _ served kept read
      obtain rfl : last = later := served.1
      have held := holding.later informed drifts.1 drifts.2
      obtain rfl := Except.ok.inj read
      cases answer with
      | ok proof =>
        refine asks_now fun time timed drifts' kept' => ?_
        refine asks_change informed (held.later informed drifts'.1 drifts'.2)
          (.proven proof time needed) kept' ?_
        exact fun _ _ _ _ _ => .done fun _ _ _ => trivial
      | error message =>
        refine asks_change informed held (.unproven message needed) kept ?_
        exact fun _ _ _ _ _ => .done fun _ _ _ => trivial
  · exact .done fun _ _ _ => trivial

include informed in
/-- Storing a changed record, and then its proof. -/
theorem asks_change_proof (holding : Holding host platform known world file record)
    (change : Change host platform known world.chain record next)
    (ordered : Ordered host platform known world) :
    Asks host platform known meets Silent
      (update file next >>= fun file => maybeProof file next) world :=
  asks_change informed holding change ordered fun _ _ _ _ held => asks_maybeProof informed held

/-- What a submission tells when it succeeds: the chain accepted it just before. -/
theorem published_of_served {later : World} {outcome : PublishOutcome}
    (served : serve host platform world (.publishKoinos record) (.ok outcome) later)
    {author : Address} (own : record.author = some author) :
    Published host platform later.chain record author outcome := by
  rcases served.2 with ⟨failing, _⟩ | ⟨other, same, accepts⟩
  · exact absurd rfl (failing outcome)
  · obtain rfl := Except.ok.inj same
    obtain ⟨signed, call, args, result, own', grown, called, publishes, accepted⟩ := accepts
    obtain rfl := Option.some.inj (own.symm.trans own')
    refine ⟨args, ⟨world.chain, call, [], result, grown, called, publishes.first, publishes.postId,
      accepted⟩, publishes⟩

include informed in
theorem asks_publish (holding : Holding host platform known world file record)
    {author : Address} (own : record.author = some author) (left : record.state ≠ .draft)
    (unpublished : record.koinosStatus ≠ .ok) :
    Asks host platform known meets Silent (publish file record) world := by
  refine .query_seq ?_ ?_
  · intro later drifts _
    exact ⟨holding.derivable.grows informed.lasts drifts.2, left, unpublished⟩
  intro later answer last value drifts _ served kept read
  obtain rfl := Except.ok.inj read
  have held := holding.later informed (file_of_met drifts served fun _ => Request.noConfusion)
    (grown_of_met drifts served)
  cases answer with
  | ok outcome =>
    have published := published_of_served served.1 own
    refine asks_now fun time timed drifts' kept' => ?_
    exact asks_change_proof informed (held.later informed drifts'.1 drifts'.2)
      (.accepted author outcome time own left unpublished (published.grows drifts'.2)) kept'
  | error error =>
    refine asks_now fun time timed drifts' kept' => ?_
    have held' := held.later informed drifts'.1 drifts'.2
    show (met host platform meets).Obeys _ _ _ _ _
    dsimp only
    cases (classifySubmitError error).kind with
    | unknown =>
      exact asks_change_proof informed held' (.missed _ _ left unpublished rfl) kept'
    | failed =>
      exact asks_change_proof informed held' (.missed _ _ left unpublished rfl) kept'
    | duplicate =>
      have sound := sound_of_derivable informed.binds held'.derivable
      obtain ⟨signed, own', key⟩ := sound.keyed left
      obtain rfl := Option.some.inj (own.symm.trans own')
      rw [own]
      refine .seq kept' (asks_lookup informed ?_) ?_
      · rw [withAttempt_base, (sameAttempt_transition _ _).idempotencyKey]
        exact key
      · intro looked final kept'' told
        exact asks_change_proof informed (held'.later informed told.1 told.2.1)
          (.duplicate author _ _ time looked own left unpublished told.2.2) kept''

theorem recordOf_attemptId {attemptId : Bytes} (stored : recordOf file attemptId = some record) :
    record.attemptId = attemptId := by
  have named := List.find?_some stored
  exact beq_iff_eq.mp named

/-- Loading the file and finding the attempt's record in it. -/
theorem asks_record {Value : Type} {post : Value → World → Prop} {attemptId : Bytes}
    {next : List StoredCrossPost → StoredCrossPost → Action Value}
    (after : ∀ record later, Ordered host platform known later →
      Holding host platform known later later.file record →
      Asks host platform known meets post (next later.file record) later) :
    Asks host platform known meets post
      (load >>= fun file => find file attemptId >>= next file) world := by
  refine asks_load fun later drifts kept => ?_
  unfold find
  cases found : recordOf later.file attemptId with
  | none => trivial
  | some record =>
    refine after record later kept ⟨rfl, fun other stored => ?_, kept attemptId record found⟩
    rw [recordOf_attemptId found, found] at stored
    exact (Option.some.inj stored).symm

theorem asks_requireAuthor {Value : Type} {post : Value → World → Prop} {message : String}
    {next : Address → Action Value}
    (after : ∀ author later, drift world later → Ordered host platform known later →
      (∀ own, record.author = some own → own = author) →
      Asks host platform known meets post (next author) later)
    (ordered : Ordered host platform known world) :
    Asks host platform known meets post (requireAuthor record message >>= next) world := by
  have signed : Asks host platform known meets
      (fun author later => drift world later ∧ ∀ own, record.author = some own → own = author)
      (requireAuthor record message) world := by
    refine asks_account fun signedIn later drifts _ => ?_
    cases signedIn with
    | none => trivial
    | some author =>
      dsimp only
      split
      · next own =>
        refine .done fun last further _ => ⟨⟨further.1.trans drifts.1,
          drifts.2.trans further.2⟩, fun other found => ?_⟩
        rw [found] at own
        exact beq_iff_eq.mp own
      · trivial
  exact .seq ordered signed fun author later kept known => after author later known.1 kept known.2

/-- A draft that is submitted leaves the draft. -/
theorem retry_of_draft {current : CrossPostRecord} (draft : current.state = .draft) (time : ℕ) :
    (transition current (.retry time)).state = .submitting := by
  unfold transition
  rw [draft]
  rfl

include informed in
theorem asks_confirm (attemptId : Bytes) (audience : Option ℕ) :
    Asks host platform known meets Silent (confirm platform attemptId audience) world := by
  refine asks_record fun record later kept holding => ?_
  dsimp only
  split
  · trivial
  next draft =>
  rw [not_not] at draft
  refine asks_requireAuthor (fun author signed drifts kept' _ => ?_) kept
  refine .lift_seq fun key keyed => ?_
  obtain rfl : keyOf platform author record.attemptId = key := by
    unfold idempotencyKey at keyed
    split at keyed
    · exact Except.ok.inj keyed
    · cases keyed
  refine asks_now fun time timed drifts' kept'' => ?_
  have held := (holding.later informed drifts.1 drifts.2).later informed drifts'.1 drifts'.2
  have sound := sound_of_derivable informed.binds held.derivable
  refine asks_change informed held
    (.confirmed author (audience.getD record.audience) time draft) kept'' ?_
  intro file last kept''' grown held'
  have continues : Continues
      (baseRecord (confirmed platform record author (audience.getD record.audience)))
      (transition (baseRecord (confirmed platform record author (audience.getD record.audience)))
        (.retry time)) :=
    continues_of_event rfl
  refine asks_publish informed held' rfl ?_ ?_
  · have drafted : (baseRecord (confirmed platform record author
        (audience.getD record.audience))).state = .draft := draft
    have submitted := retry_of_draft drafted time
    exact submitted.trans_ne CrossPostState.noConfusion
  · intro ok
    exact sound.found.mp (continues.status.mp ok) (sound.drafted draft)

include informed in
theorem asks_resume {author : Address} {looked : CrossPostRecord}
    (holding : Holding host platform known world file record)
    (own : record.author = some author) (left : record.state ≠ .draft)
    (lookedUp : looked = baseRecord record ∨
      Looked known world.chain record author (baseRecord record) looked ∧
        looked.koinosStatus ≠ .ok) :
    Asks host platform known meets Silent (resume file record looked) world := by
  refine asks_now fun time later drifts kept => ?_
  have held := holding.later informed drifts.1 drifts.2
  have stays : Continues looked (transition looked (.retry time)) := continues_of_event rfl
  by_cases ok : looked.koinosStatus = .ok
  · -- A record whose Koinos side is known keeps it, and nothing is published.
    obtain rfl := lookedUp.resolve_right fun told => told.2 ok
    refine asks_change informed held (.reported (.retry time) left rfl) kept ?_
    intro file last kept' grown held'
    have unplanned : (retryPlan (baseRecord record)).koinos = false := by
      simp [retryPlan, ok]
    rw [unplanned, if_neg Bool.false_ne_true]
    exact .done fun _ _ _ => trivial
  · have told := lookedUp.imp_right fun told => told.1.grows informed.lasts drifts.2
    have continues : Continues (baseRecord record) looked := by
      rcases told with rfl | lookedUp
      · exact continues_refl _
      · exact (advance_of_looked lookedUp).resolve_right fun finds => ok finds.status
    refine asks_change informed held (.resumed author looked time own left told ok) kept ?_
    intro file last kept' grown held'
    split
    · split
      · trivial
      · refine asks_publish informed held' own ?_ fun known => ok (stays.status.mp known)
        exact transition_ne_draft looked _ (continues.left left)
    · exact .done fun _ _ _ => trivial

include informed in
theorem asks_retry (attemptId : Bytes) :
    Asks host platform known meets Silent (retry attemptId) world := by
  refine asks_record fun record later kept holding => ?_
  refine asks_now fun time timed drifts kept' => ?_
  split
  · trivial
  next available =>
  have left : record.state ≠ .draft := by
    intro draft
    refine available ?_
    simp [actions, draft]
  refine asks_requireAuthor (fun author signed drifts' kept'' own => ?_) kept'
  have held := (holding.later informed drifts.1 drifts.2).later informed drifts'.1 drifts'.2
  obtain ⟨signer, authored, key⟩ := (sound_of_derivable informed.binds held.derivable).keyed left
  obtain rfl := own signer authored
  dsimp only
  split
  · refine .seq kept'' (asks_lookup informed key) ?_
    intro looked last kept''' told
    have held' := held.later informed told.1 told.2.1
    split
    · exact asks_change_proof informed held'
        (.settled signer _ looked authored left (.inl rfl) told.2.2) kept'''
    · next unsettled =>
      have unfound : looked.koinosStatus ≠ .ok := by
        intro ok
        refine unsettled (.inl ?_)
        unfold adoptPendingTx
        split
        · exact ok
        · exact ok
      have unadopted : adoptPendingTx record looked = looked :=
        if_neg fun adopts => unfound adopts.1
      rw [unadopted]
      exact asks_resume informed held' authored left (.inr ⟨told.2.2, unfound⟩)
  · exact asks_resume informed held authored left (.inl rfl)

theorem asks_authorOf {Value : Type} {post : Value → World → Prop} {next : Address → Action Value}
    (after : ∀ author later, drift world later → Ordered host platform known later →
      (∀ own, record.author = some own → own = author) →
      Asks host platform known meets post (next author) later)
    (ordered : Ordered host platform known world) :
    Asks host platform known meets post (authorOf record >>= next) world := by
  unfold authorOf
  cases own : record.author with
  | some author =>
    exact after author world ((met host platform meets).drift_refl world) ordered
      fun other same => (Option.some.inj (own.symm.trans same)).symm
  | none =>
    have signed : Asks host platform known meets (fun _ later => drift world later)
        (authorOf record) world := by
      unfold authorOf
      rw [own]
      refine asks_account fun signedIn later drifts _ => ?_
      cases signedIn with
      | none => trivial
      | some author =>
        exact .done fun last further _ => ⟨further.1.trans drifts.1, drifts.2.trans further.2⟩
    unfold authorOf at signed
    rw [own] at signed
    refine .seq ordered signed fun author later kept drifts => after author later drifts kept ?_
    intro other same
    cases own.symm.trans same

include informed in
theorem asks_reconcile (attemptId : Bytes) :
    Asks host platform known meets Silent (reconcile platform attemptId) world := by
  refine asks_record fun record later kept holding => ?_
  refine asks_authorOf (fun author signed drifts kept' own => ?_) kept
  refine .lift_seq fun key keyed => ?_
  refine asks_now fun time timed drifts' kept'' => asks_now fun at_ last drifts'' kept''' => ?_
  dsimp only
  by_cases draft : record.state = .draft
  · have still : (interrupted record key time at_).state = .draft := by
      unfold interrupted
      dsimp only
      rw [if_neg fun all => CrossPostState.noConfusion (draft.symm.trans all.1)]
      exact draft
    rw [if_pos still]
    exact .done fun _ _ _ => trivial
  have held := ((holding.later informed drifts.1 drifts.2).later informed drifts'.1
    drifts'.2).later informed drifts''.1 drifts''.2
  obtain ⟨signer, authored, ownKey⟩ := (sound_of_derivable informed.binds held.derivable).keyed draft
  obtain rfl := own signer authored
  obtain rfl : record.idempotencyKey = key := by
    rw [if_neg (ownKey ▸ keyOf_ne_nil platform signer record.attemptId)] at keyed
    exact Except.ok.inj keyed
  have starting : interrupted record record.idempotencyKey time at_ = baseRecord record ∨
      ∃ message time', interrupted record record.idempotencyKey time at_ =
        transition (baseRecord record) (.koinosUnknown message time') := by
    unfold interrupted
    dsimp only
    split
    · exact .inr ⟨_, _, rfl⟩
    · exact .inl rfl
  have continues : Continues (baseRecord record)
      (interrupted record record.idempotencyKey time at_) := by
    rcases starting with same | ⟨message, time', same⟩
    · rw [same]
      exact continues_refl _
    · rw [same]
      exact continues_of_event rfl
  split
  · exact .done fun _ _ _ => trivial
  refine .seq kept''' (asks_lookup informed (continues.same.idempotencyKey.trans ownKey)) ?_
  intro looked final kept'''' told
  have sameKey : (adoptPendingTx record looked).idempotencyKey = record.idempotencyKey := by
    have unchanged : looked.idempotencyKey = record.idempotencyKey := by
      rcases continues.then (advance_of_looked told.2.2) with going | finds
      · exact going.same.idempotencyKey
      · exact finds.same.idempotencyKey
    unfold adoptPendingTx
    split
    · exact unchanged
    · exact unchanged
  have sameRecord : { record with
      author := some signer
      idempotencyKey := (adoptPendingTx record looked).idempotencyKey } = record := by
    rw [sameKey, ← authored]
  rw [sameRecord]
  exact asks_change_proof informed (held.later informed told.1 told.2.1)
    (.settled signer _ looked authored draft starting told.2.2) kept''''

include informed in
theorem asks_markHost (attemptId : Bytes) (outcome : HostOutcome) (detail : Option String) :
    Asks host platform known meets Silent (markHost platform attemptId outcome detail) world := by
  refine asks_record fun record later kept holding => ?_
  dsimp only
  split
  · trivial
  split
  · trivial
  next left =>
  refine asks_now fun time timed drifts kept' => .lift_seq fun event made => ?_
  have silent : event.found = none := by
    unfold hostEvent at made
    cases outcome with
    | posted =>
      dsimp only at made
      split at made
      · cases made
      · cases made
        rfl
    | failed =>
      cases made
      rfl
  exact asks_change_proof informed (holding.later informed drifts.1 drifts.2)
    (.reported event left silent) kept'

include informed in
theorem asks_recordProof (attemptId : Bytes) :
    Asks host platform known meets Silent (recordProof attemptId) world := by
  refine asks_record fun record later kept holding => ?_
  split
  · trivial
  · exact asks_maybeProof informed holding

include informed in
theorem asks_discard (attemptId : Bytes) :
    Asks host platform known meets (fun _ _ => True) (discard attemptId) world := by
  refine asks_load fun later drifts kept => ?_
  cases recordOf later.file attemptId with
  | none => exact .done fun _ _ _ => trivial
  | some record =>
    refine asks_now fun time timed drifts' kept' => ?_
    split
    · trivial
    have kept_of : ∀ other stored, recordOf
        (later.file.filter fun stored => stored.attemptId != attemptId) other = some stored →
        recordOf later.file other = some stored := by
      intro other stored found
      rw [recordOf_filter later.file fun stored => stored != attemptId] at found
      split at found
      · exact found
      · cases found
    refine .seq kept' (asks_save drifts'.1 ?_ ?_ informed.lasts) fun _ _ _ _ => .done
      fun _ _ _ => trivial
    · intro other before next found stored
      obtain rfl := Option.some.inj (found.symm.trans (kept_of other next stored))
      exact fun _ => id
    · exact fun other stored found => .inl (kept_of other stored found)

/-- A draft is made of its input, the account and the clock. -/
theorem asks_fresh (input : Draft) :
    Asks host platform known meets
      (fun record later => later.file = world.file ∧ record.attemptId = input.attemptId ∧
        ∃ author key time createdAt, record = drafted input author key time createdAt)
      (fresh platform input) world := by
  refine asks_account fun author later drifts _ => .lift_seq fun key _ => ?_
  refine asks_now fun time timed drifts' _ => asks_now fun createdAt last drifts'' _ => ?_
  refine .done fun final further _ => ⟨?_, rfl, author, key, time, createdAt, rfl⟩
  exact further.1.trans (drifts''.1.trans (drifts'.1.trans drifts.1))

include informed in
theorem asks_enqueue (input : Draft) :
    Asks host platform known meets Silent (enqueue platform input) world := by
  refine asks_load fun later drifts kept => ?_
  cases absent : recordOf later.file input.attemptId with
  | some existing => exact .done fun _ _ _ => trivial
  | none =>
    refine .seq kept (asks_fresh input) ?_
    intro record last kept' made
    obtain ⟨file, named, author, key, time, createdAt, same⟩ := made
    refine .seq kept' (asks_save file ?_ ?_ informed.lasts) fun _ _ _ _ => .done
      fun _ _ _ => trivial
    · intro attemptId before stored found written
      rw [recordOf_replaced] at written
      split at written
      · next same' =>
        rw [← same', named, absent] at found
        cases found
      · obtain rfl := Option.some.inj (found.symm.trans written)
        exact fun _ => id
    · intro attemptId stored written
      rw [recordOf_replaced] at written
      split at written
      · obtain rfl := Option.some.inj written
        rw [same]
        exact .inr (.drafted input author key time createdAt)
      · exact .inl written

include informed in
theorem asks_reconcileEach (attemptIds : List Bytes)
    (ordered : Ordered host platform known world) :
    Asks host platform known meets (fun _ _ => True) (reconcileEach platform attemptIds) world := by
  induction attemptIds generalizing world with
  | nil => exact .done fun _ _ _ => trivial
  | cons attemptId rest inductionHypothesis =>
    exact .attempt_seq ordered (asks_reconcile informed attemptId)
      fun _ later kept _ => inductionHypothesis kept

include informed in
/-- Every operation asks only what is allowed. -/
theorem asks_perform (operation : Operation) (ordered : Ordered host platform known world) :
    Asks host platform known meets (fun _ _ => True) (perform platform operation) world := by
  have quiet : ∀ {program : Action StoredCrossPost},
      Asks host platform known meets Silent program world →
      Asks host platform known meets (fun _ _ => True)
        (program >>= fun _ => (Program.done () : Action Unit)) world :=
    fun asks => .seq ordered asks fun _ _ _ _ => .done fun _ _ _ => trivial
  cases operation with
  | propose payload => exact quiet (asks_enqueue informed _)
  | create payload attemptId => exact quiet (asks_enqueue informed _)
  | confirm attemptId audience => exact quiet (asks_confirm informed attemptId audience)
  | retry attemptId => exact quiet (asks_retry informed attemptId)
  | reconcile attemptId => exact quiet (asks_reconcile informed attemptId)
  | markHost attemptId outcome detail => exact quiet (asks_markHost informed attemptId outcome detail)
  | recordProof attemptId => exact quiet (asks_recordProof informed attemptId)
  | discard attemptId => exact asks_discard informed attemptId
  | sweep =>
    exact asks_load fun later drifts kept => asks_now fun time timed drifts' kept' =>
      asks_reconcileEach informed _ kept'

end Obeying

end OpenSocial.CrossPosts
