/-
This file gives the world the orchestrator runs in: its storage, and a chain that
includes transactions whenever it likes.

Between two requests the chain may include any calls, those of attempts whose
answer was lost among them, in any environment; so late inclusion, duplicates and
other devices need no steps of their own. The node answers lookups by the chain
as it stands, and an accepted publication is one the chain has just accepted.
-/

import OpenSocial.CrossPosts.Orchestrator
import OpenSocial.Library.Service
import OpenSocial.Publications.Sequences

namespace OpenSocial.CrossPosts

open Library Sdk Extension

/-! ### The chain -/

/-- A call of the publications contract, with the transaction it came in. -/
structure Inclusion where
  transactionId : TransactionId
  call : Publications.Call

section Chain

variable (host : Host)

/-- The state of the publications contract after these calls. -/
def stateOf (chain : List Inclusion) : Publications.State :=
  (Publications.machine host).final Publications.empty (chain.map Inclusion.call)

/-- The chain accepted this first version of a post, in this transaction. -/
def FirstVersion (chain : List Inclusion) (postId : Bytes) (transactionId : TransactionId)
    (args : Publications.PublishArguments) : Prop :=
  ∃ before call after result, chain = before ++ ⟨transactionId, call⟩ :: after ∧
    call.operation = .publish args ∧ args.previousVersion = [] ∧ args.postId = postId ∧
    (Publications.machine host).step (stateOf host before) call = .ok result

theorem stateOf_append (chain more : List Inclusion) :
    stateOf host (chain ++ more) =
      (Publications.machine host).final (stateOf host chain) (more.map Inclusion.call) := by
  unfold stateOf
  rw [List.map_append, Machine.final_append]

variable {host}

theorem boundPost_grows {chain later : List Inclusion} (grown : chain <+: later)
    {author : Address} {key postId : Bytes}
    (bound : Publications.boundPost (stateOf host chain) author key = some postId) :
    Publications.boundPost (stateOf host later) author key = some postId := by
  obtain ⟨more, rfl⟩ := grown
  rw [stateOf_append]
  exact Publications.bound_later host bound _

theorem FirstVersion.grows {chain later : List Inclusion} (grown : chain <+: later)
    {postId : Bytes} {transactionId : TransactionId} {args : Publications.PublishArguments}
    (first : FirstVersion host chain postId transactionId args) :
    FirstVersion host later postId transactionId args := by
  obtain ⟨more, rfl⟩ := grown
  obtain ⟨before, call, after, result, split, called, fresh, named, accepted⟩ := first
  refine ⟨before, call, after ++ more, result, ?_, called, fresh, named, accepted⟩
  rw [split, List.append_assoc, List.cons_append]

/-- A first version that carried a key bound it. -/
theorem FirstVersion.bound {chain : List Inclusion} {postId : Bytes}
    {transactionId : TransactionId} {args : Publications.PublishArguments}
    (first : FirstVersion host chain postId transactionId args) {author : Address} {key : Bytes}
    (authored : args.author = author.val) (carried : args.idempotencyKey = key)
    (present : key ≠ []) :
    Publications.boundPost (stateOf host chain) author key = some postId := by
  obtain ⟨before, call, after, ⟨next, events⟩, rfl, called, _, rfl, accepted⟩ := first
  have bound : Publications.boundPost next author key = some args.postId := by
    have effect := Publications.effect_of_entry
      (⟨stateOf host before, call, next, events, accepted⟩ :
        (Publications.machine host).Accepted)
    rw [called] at effect
    have named : Publications.boundBy author key (.publish args) = some args.postId :=
      if_pos ⟨authored, carried, present⟩
    cases Publications.binding_step effect author key with
    | kept other same => exact absurd (other.symm.trans named) (Option.some_ne_none _).symm
    | bound postId record carries free stored known own =>
      obtain rfl := Option.some.inj (carries.symm.trans named)
      exact stored
  rw [stateOf_append, List.map_cons, Machine.final_cons, Machine.next_of_ok _ accepted]
  exact Publications.bound_later host bound _

/-- An accepted first version finds its post unknown and leaves it stored for good. -/
theorem stored_of_first {state : Publications.State} {call : Publications.Call}
    {args : Publications.PublishArguments} {result : Publications.State × List Publications.Event}
    (called : call.operation = .publish args) (fresh : args.previousVersion = [])
    (accepted : (Publications.machine host).step state call = .ok result) :
    state.posts.get args.postId = none ∧ ∀ later,
      ((Publications.machine host).final state (call :: later)).posts.get args.postId ≠ none := by
  obtain ⟨next, events⟩ := result
  have effect := Publications.effect_of_entry
    (⟨state, call, next, events, accepted⟩ : (Publications.machine host).Accepted)
  have unknown : state.posts.get args.postId = none ∧
      ∃ record, next.posts.get args.postId = some record := by
    dsimp only at effect
    rw [called] at effect
    cases effect with
    | firstPublished signer _ audience device signed first wellFormed authorized free sequenced
        computed target unbound charged =>
      exact ⟨free, _, (Store.get_put _ _ _ _).trans (if_pos rfl)⟩
    | edited signer _ existing device signed later wellFormed authorized known own alive current
        thread unbound charged => exact absurd fresh later
  obtain ⟨free, record, stored⟩ := unknown
  refine ⟨free, fun later => ?_⟩
  rw [Machine.final_cons, Machine.next_of_ok _ accepted]
  obtain ⟨kept, known, _⟩ := Publications.samePost_later host stored later
  rw [known]
  exact Option.some_ne_none kept

/-- A first version does not come after another one of the same post. -/
theorem eq_of_first_earlier {before between after rest : List Inclusion}
    {earlier later : Inclusion} {args others : Publications.PublishArguments}
    {first second : Publications.State × List Publications.Event}
    (split : earlier :: after = between ++ later :: rest)
    (called : earlier.call.operation = .publish args) (fresh : args.previousVersion = [])
    (accepted : (Publications.machine host).step (stateOf host before) earlier.call = .ok first)
    (called' : later.call.operation = .publish others) (fresh' : others.previousVersion = [])
    (accepted' : (Publications.machine host).step (stateOf host (before ++ between)) later.call =
      .ok second)
    (named : others.postId = args.postId) : earlier = later := by
  cases between with
  | nil => exact (List.cons.inj split).1
  | cons step more =>
    obtain ⟨rfl, _⟩ := List.cons.inj split
    have unknown := (stored_of_first called' fresh' accepted').1
    rw [named, stateOf_append, List.map_cons] at unknown
    exact absurd unknown ((stored_of_first called fresh accepted).2 _)

/-- A post has one first version only. -/
theorem FirstVersion.unique {chain : List Inclusion} {postId : Bytes}
    {transactionId other : TransactionId} {args others : Publications.PublishArguments}
    (first : FirstVersion host chain postId transactionId args)
    (second : FirstVersion host chain postId other others) :
    transactionId = other ∧ args = others := by
  obtain ⟨before, call, after, result, split, called, fresh, named, accepted⟩ := first
  obtain ⟨before', call', after', result', split', called', fresh', named', accepted'⟩ := second
  have same : (⟨transactionId, call⟩ : Inclusion) = ⟨other, call'⟩ := by
    rcases List.append_eq_append_iff.mp (split.symm.trans split') with
      ⟨between, rfl, rest⟩ | ⟨between, rfl, rest⟩
    · exact eq_of_first_earlier rest called fresh accepted called' fresh' accepted'
        (named'.trans named.symm)
    · exact (eq_of_first_earlier rest called' fresh' accepted' called fresh accepted
        (named.trans named'.symm)).symm
  obtain ⟨rfl, rfl⟩ := Inclusion.mk.inj same
  exact ⟨rfl, Publications.Operation.publish.inj (called.symm.trans called')⟩

end Chain

/-! ### The world -/

structure World where
  file : List StoredCrossPost
  chain : List Inclusion

/-- The arguments are those of an attempt's publication. -/
structure Publishes (platform : Platform) (author : Address) (attemptId : Bytes)
    (attempt : PublishAttempt) (args : Publications.PublishArguments) : Prop where
  authored : args.author = author.val
  first : args.previousVersion = []
  idempotencyKey : args.idempotencyKey = keyOf platform author attemptId
  postId : args.postId = attempt.postId
  contentHash : args.contentHash = attempt.contentHash
  sequence : args.sequence = attempt.sequence
  epoch : args.epoch = attempt.epoch

section Serving

variable (host : Host) (platform : Platform)

/-- The chain includes the publication of an attempt and accepts it. -/
def Accepts (before after : List Inclusion) (record : StoredCrossPost) (outcome : PublishOutcome) :
    Prop :=
  ∃ author call args result, record.author = some author ∧
    after = before ++ [⟨outcome.txId, call⟩] ∧ call.operation = .publish args ∧
    Publishes platform author record.attemptId outcome.attempt args ∧
    (Publications.machine host).step (stateOf host before) call = .ok result

/-- How the world answers. Storing may fail after it wrote; the clock, the indexer and the proof
answer anything. -/
def serve (world : World) : (request : Request) → Answer request → World → Prop
  | .now, _, after => after = world
  | .account, _, after => after = world
  | .load, answer, after => after = world ∧ ∀ file, answer = .ok file → file = world.file
  | .save file, answer, after => after.chain = world.chain ∧
    (after.file = file ∨ after.file = world.file) ∧ (answer = .ok () → after.file = file)
  | .publishKoinos record, answer, after => after.file = world.file ∧
    ((∀ outcome, answer ≠ .ok outcome) ∧ after.chain = world.chain ∨
      ∃ outcome, answer = .ok outcome ∧
        Accepts host platform world.chain after.chain record outcome)
  | .lookupChain _ author key, answer, after => after = world ∧ ∀ found, answer = .ok found →
    found = Publications.getPostByIdempotencyKey (stateOf host world.chain) author key
  | .lookupIndexer _ _, _, after => after = world
  | .recordProof _, _, after => after = world

/-- The storage waits, and the chain includes whatever it includes. -/
def drift (world later : World) : Prop :=
  later.file = world.file ∧ world.chain <+: later.chain

/-- The orchestrator's world. -/
def world : Service Request Answer World where
  drift := drift
  serve := serve host platform
  drift_refl _ := ⟨rfl, List.prefix_refl _⟩
  drift_trans _ _ _ first second := ⟨second.1.trans first.1, first.2.trans second.2⟩

variable {host platform}

/-- The chain only grows. -/
theorem chain_of_served {before after : World} {request : Request} {answer : Answer request}
    (served : serve host platform before request answer after) : before.chain <+: after.chain := by
  cases request with
  | save file => exact served.1 ▸ List.prefix_refl _
  | publishKoinos record =>
    rcases served.2 with ⟨_, kept⟩ | ⟨outcome, _, author, call, args, result, _, grown, _⟩
    · exact kept ▸ List.prefix_refl _
    · exact grown ▸ List.prefix_append _ _
  | load => exact served.1 ▸ List.prefix_refl _
  | lookupChain record author key => exact served.1 ▸ List.prefix_refl _
  | now => exact served ▸ List.prefix_refl _
  | account => exact served ▸ List.prefix_refl _
  | lookupIndexer author record => exact served ▸ List.prefix_refl _
  | recordProof record => exact served ▸ List.prefix_refl _

/-- Only storing changes the file. -/
theorem file_of_served {before after : World} {request : Request} {answer : Answer request}
    (served : serve host platform before request answer after)
    (reading : ∀ file, request ≠ .save file) : after.file = before.file := by
  cases request with
  | save file => exact absurd rfl (reading file)
  | publishKoinos record => exact served.1
  | load => exact congrArg World.file served.1
  | lookupChain record author key => exact congrArg World.file served.1
  | now => exact congrArg World.file served
  | account => exact congrArg World.file served
  | lookupIndexer author record => exact congrArg World.file served
  | recordProof record => exact congrArg World.file served

/-- A request stores the file it saves, or leaves the file as it is. -/
theorem file_cases {before after : World} {request : Request} {answer : Answer request}
    (served : serve host platform before request answer after) :
    after.file = before.file ∨ ∃ file, request = .save file ∧ after.file = file := by
  by_cases saves : ∃ file, request = .save file
  · obtain ⟨file, rfl⟩ := saves
    obtain ⟨_, written, _⟩ := served
    exact written.symm.imp_right fun stored => ⟨file, rfl, stored⟩
  · exact .inl (file_of_served served fun file same => saves ⟨file, same⟩)

theorem keyOf_ne_nil (platform : Platform) (author : Address) (attemptId : Bytes) :
    keyOf platform author attemptId ≠ [] := by
  intro empty
  have length := congrArg List.length empty
  rw [keyOf, List.length_take, platform.sha256_length] at length
  exact absurd length (by decide)

theorem address_ne_nil (author : Address) : author.val ≠ [] := by
  intro empty
  exact absurd (author.property.symm.trans (congrArg List.length empty)) (by decide)

/-- The node answers with the post the key is bound to. -/
theorem boundPost_of_read {chain : List Inclusion} {author : Address} {attemptId postId : Bytes}
    (read : Publications.getPostByIdempotencyKey (stateOf host chain) author.val
      (keyOf platform author attemptId) = some postId) :
    Publications.boundPost (stateOf host chain) author (keyOf platform author attemptId) =
      some postId := by
  rw [Publications.getPostByIdempotencyKey,
    if_neg (not_or.mpr ⟨address_ne_nil author, keyOf_ne_nil platform author attemptId⟩)] at read
  exact read

end Serving

end OpenSocial.CrossPosts
