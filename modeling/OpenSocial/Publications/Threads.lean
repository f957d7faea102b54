/-
This file shows that posts keep their identity: along every run a stored post
stays, its author, place and audience never change, and once deleted it takes
neither changes nor replies nor reactions.

A reply names a post that was stored before it. The ghost is the order in which
posts were created; every reply stands after its target in it, so following
replies upwards ends.
-/

import OpenSocial.Publications.History

namespace OpenSocial.Publications

open Library Library.Word

/-! ### Posts stay -/

/-- What no operation changes about a stored post. -/
structure SamePost (record kept : PostRecord) : Prop where
  author : kept.author = record.author
  sequence : kept.sequence = record.sequence
  audience : kept.audience = record.audience
  replyTo : kept.replyTo = record.replyTo
  createdAt : kept.createdAt = record.createdAt

theorem SamePost.refl (record : PostRecord) : SamePost record record :=
  ⟨rfl, rfl, rfl, rfl, rfl⟩

theorem SamePost.trans {record kept later : PostRecord} (first : SamePost record kept)
    (second : SamePost kept later) : SamePost record later :=
  ⟨second.author.trans first.author, second.sequence.trans first.sequence,
    second.audience.trans first.audience, second.replyTo.trans first.replyTo,
    second.createdAt.trans first.createdAt⟩

/-- A new reply to a post, or a reaction to it. -/
def answers (postId : Bytes) : Operation → Bool
  | .publish args => args.previousVersion == [] && args.replyTo != [] && args.replyTo == postId
  | .react args => args.postId == postId
  | _ => false

section Step

variable {host : Host} {env : Env} {operation : Operation} {state after : State}
  {events : List Event} {postId : Bytes} {record : PostRecord}

/-- A stored post stays the same post. -/
theorem samePost_step (effect : Effect host env state operation after events)
    (known : state.posts.get postId = some record) :
    ∃ kept, after.posts.get postId = some kept ∧ SamePost record kept := by
  cases post_step effect postId with
  | kept other same => exact ⟨record, same.trans known, .refl record⟩
  | created author args audience called named signed first decoded fresh computed target stored =>
    exact absurd (fresh.symm.trans known) (Option.some_ne_none record).symm
  | edited args existing called named later signed known' alive current stored =>
    obtain rfl := Option.some.inj (known'.symm.trans known)
    exact ⟨_, stored, ⟨rfl, rfl, rfl, rfl, rfl⟩⟩
  | moved args existing target called named current known' alive stored =>
    obtain rfl := Option.some.inj (known'.symm.trans known)
    exact ⟨_, stored, ⟨rfl, rfl, rfl, rfl, rfl⟩⟩

/-- A deleted post does not change. -/
theorem deleted_step (effect : Effect host env state operation after events)
    (known : state.posts.get postId = some record) (deleted : record.state = .deleted) :
    after.posts.get postId = some record := by
  cases post_step effect postId with
  | kept other same => exact same.trans known
  | created author args audience called named signed first decoded fresh computed target stored =>
    exact absurd (fresh.symm.trans known) (Option.some_ne_none record).symm
  | edited args existing called named later signed known' alive current stored =>
    obtain rfl := Option.some.inj (known'.symm.trans known)
    exact absurd deleted alive
  | moved args existing target called named current known' alive stored =>
    obtain rfl := Option.some.inj (known'.symm.trans known)
    exact absurd deleted alive

/-- A deleted post is not answered. -/
theorem unanswered_step (effect : Effect host env state operation after events)
    (known : state.posts.get postId = some record) (deleted : record.state = .deleted) :
    answers postId operation = false := by
  cases effect with
  | firstPublished author args audience signer signed first wellFormed authorized fresh sequenced
      computed target unbound charged =>
    by_contra answered
    simp only [answers, Bool.not_eq_false, Bool.and_eq_true, beq_iff_eq, bne_iff_ne] at answered
    obtain ⟨⟨_, reply⟩, rfl⟩ := answered
    obtain ⟨parent, stored, alive⟩ := (target_of_reply target).resolve_left reply
    obtain rfl := Option.some.inj (stored.symm.trans known)
    exact alive deleted
  | edited author args existing signer signed later wellFormed authorized known' own alive current
      thread unbound charged =>
    rw [answers, beq_false_of_ne later, Bool.false_and, Bool.false_and]
  | reacted actor other reaction remove device existing signer idLength named authorized known'
      alive charged =>
    by_contra answered
    simp only [answers, Bool.not_eq_false, beq_iff_eq] at answered
    subst answered
    obtain rfl := Option.some.inj (known'.symm.trans known)
    exact alive deleted
  | tokenContractSet address authorized => rfl
  | identityContractSet address authorized => rfl
  | relationshipsContractSet address authorized => rfl
  | lifecycleSet author other wire target reason replacementId device existing signer idLength
      decoded replaced authorized known' own alive => rfl
  | keysDistributed author audienceId epoch packages device signer present bounded authorized => rfl
  | crossPostRecorded author idempotencyKey adapter wire outcome externalRef other manifestHash
      device signer decoded authorized owned succeeded => rfl

end Step

section Later

variable (host : Host) {state : State} {postId : Bytes} {record : PostRecord}
  (known : state.posts.get postId = some record) (later : List Call)

include known in
/-- A stored post stays the same post in every later run. -/
theorem samePost_later :
    ∃ kept, ((machine host).final state later).posts.get postId = some kept ∧
      SamePost record kept := by
  refine (machine host).invariant_final state
    (fun state => ∃ kept, state.posts.get postId = some kept ∧ SamePost record kept)
    ⟨record, known, .refl record⟩ ?_ later
  intro entry holds
  obtain ⟨kept, stored, same⟩ := holds
  obtain ⟨next, stored', same'⟩ := samePost_step (effect_of_entry entry) stored
  exact ⟨next, stored', same.trans same'⟩

include known in
/-- A deleted post neither changes nor is answered in any later run. -/
theorem deleted_later (deleted : record.state = .deleted) :
    ((machine host).final state later).posts.get postId = some record ∧
      ∀ entry ∈ (machine host).history state later, answers postId entry.call.operation = false := by
  refine (machine host).run_induction state
    (fun history state => state.posts.get postId = some record ∧
      ∀ entry ∈ history, answers postId entry.call.operation = false)
    ⟨known, fun entry member => absurd member List.not_mem_nil⟩ ?_ later
  intro history entry holds
  obtain ⟨stored, unanswered⟩ := holds
  refine ⟨deleted_step (effect_of_entry entry) stored deleted, fun other member => ?_⟩
  rcases List.mem_append.mp member with old | new
  · exact unanswered other old
  · rw [List.mem_singleton.mp new]
    exact unanswered_step (effect_of_entry entry) stored deleted

end Later

/-! ### Replies stand after their targets -/

/-- The id of the post a call creates. -/
def createdOf : Operation → Option Bytes
  | .publish args => if args.previousVersion = [] then some args.postId else none
  | _ => none

/-- The posts of a run in the order they were created. -/
def createdIds {host : Host} (history : List (machine host).Accepted) : List Bytes :=
  history.filterMap fun entry => createdOf entry.call.operation

theorem createdIds_concat {host : Host} (history : List (machine host).Accepted)
    (entry : (machine host).Accepted) :
    createdIds (history ++ [entry]) =
      createdIds history ++ (createdOf entry.call.operation).toList :=
  Machine.filterMap_concat _ history entry

/-- The stored posts are those created, and every reply stands after its target. -/
structure ThreadsOrdered (order : List Bytes) (state : State) : Prop where
  stored : ∀ postId, (∃ record, state.posts.get postId = some record) ↔ postId ∈ order
  earlier : ∀ postId record, state.posts.get postId = some record → record.replyTo ≠ [] →
    record.replyTo ∈ order ∧ order.idxOf record.replyTo < order.idxOf postId

/-- One post replies to another one. -/
def repliedBy (state : State) (parent child : Bytes) : Prop :=
  ∃ record, state.posts.get child = some record ∧ record.replyTo = parent ∧ parent ≠ []

/-- Following replies upwards ends. -/
theorem ThreadsOrdered.wellFounded {order : List Bytes} {state : State}
    (ordered : ThreadsOrdered order state) : WellFounded (repliedBy state) := by
  refine Subrelation.wf ?_ (measure fun postId => order.idxOf postId).wf
  intro parent child replied
  obtain ⟨record, known, rfl, reply⟩ := replied
  exact (ordered.earlier child record known reply).2

theorem threadsOrdered_empty : ThreadsOrdered [] empty where
  stored postId := by simp [empty]
  earlier postId record known := absurd known (by simp [empty])

section Order

variable {host : Host} {env : Env} {operation : Operation} {state after : State}
  {events : List Event} {order : List Bytes}

/-- A call that creates no post keeps every thread. -/
theorem ThreadsOrdered.kept (ordered : ThreadsOrdered order state)
    (effect : Effect host env state operation after events) (none : createdOf operation = none) :
    ThreadsOrdered order after := by
  have uncreated : ∀ postId record, after.posts.get postId = some record →
      ∃ before, state.posts.get postId = some before ∧ record.replyTo = before.replyTo := by
    intro postId record stored
    cases post_step effect postId with
    | kept other same => exact ⟨record, same.symm.trans stored, rfl⟩
    | created author args audience called named signed first decoded fresh computed target stored' =>
      rw [called, createdOf, if_pos first] at none
      exact absurd none (Option.some_ne_none _)
    | edited args existing called named later signed known alive current stored' =>
      obtain rfl := Option.some.inj (stored'.symm.trans stored)
      exact ⟨existing, known, rfl⟩
    | moved args existing target called named current known alive stored' =>
      obtain rfl := Option.some.inj (stored'.symm.trans stored)
      exact ⟨existing, known, rfl⟩
  constructor
  · intro postId
    rw [← ordered.stored postId]
    constructor
    · rintro ⟨record, stored⟩
      obtain ⟨before, known, _⟩ := uncreated postId record stored
      exact ⟨before, known⟩
    · rintro ⟨record, known⟩
      obtain ⟨kept, stored, _⟩ := samePost_step effect known
      exact ⟨kept, stored⟩
  · intro postId record stored reply
    obtain ⟨before, known, same⟩ := uncreated postId record stored
    rw [same] at reply ⊢
    exact ordered.earlier postId before known reply

/-- A new post comes last, after the post it replies to. -/
theorem ThreadsOrdered.created (ordered : ThreadsOrdered order state)
    (effect : Effect host env state operation after events) {postId : Bytes}
    (some : createdOf operation = some postId) : ThreadsOrdered (order ++ [postId]) after := by
  have new : ∃ author args, operation = .publish args ∧ args.postId = postId ∧
      state.posts.get postId = none ∧ requireReplyTarget env author args.replyTo state = .ok () ∧
      ∃ record, after.posts.get postId = .some record ∧ record.replyTo = args.replyTo := by
    cases operation with
    | publish args =>
      rw [createdOf] at some
      split at some
      · next first =>
        have named := Option.some.inj some
        cases post_step effect postId with
        | kept other same =>
          rw [publishOf_publish, if_pos named] at other
          exact absurd other (Option.some_ne_none args)
        | created author args' audience called named' signed first' decoded fresh computed target
            stored =>
          cases called
          exact ⟨author, args, rfl, named, fresh, target, _, stored, rfl⟩
        | edited args' existing called named' later signed known alive current stored =>
          cases called
          exact absurd first later
        | moved args' existing target called named' current known alive stored => cases called
      · exact absurd some.symm (Option.some_ne_none postId)
    | _ => exact absurd some.symm (Option.some_ne_none postId)
  obtain ⟨author, args, called, named, fresh, target, made, stored, thread⟩ := new
  have unlisted : postId ∉ order := by
    rw [← ordered.stored postId]
    rintro ⟨record, known⟩
    exact absurd (fresh.symm.trans known) (Option.some_ne_none record).symm
  have others : ∀ other, other ≠ postId → ∀ record, after.posts.get other = .some record →
      state.posts.get other = .some record := by
    intro other different record known
    cases post_step effect other with
    | kept other' same => exact same.symm.trans known
    | created author' args' audience called' named' signed first decoded fresh' computed target'
        stored' =>
      cases called.symm.trans called'
      exact absurd (named'.symm.trans named) different
    | edited args' existing called' named' later signed known' alive current stored' =>
      cases called.symm.trans called'
      exact absurd (named'.symm.trans named) different
    | moved args' existing target' called' named' current known' alive stored' =>
      cases called.symm.trans called'
  constructor
  · intro other
    rw [List.mem_append, List.mem_singleton, ← ordered.stored other]
    constructor
    · rintro ⟨record, known⟩
      by_cases same : other = postId
      · exact .inr same
      · exact .inl ⟨record, others other same record known⟩
    · rintro (⟨record, known⟩ | rfl)
      · obtain ⟨kept, known', _⟩ := samePost_step effect known
        exact ⟨kept, known'⟩
      · exact ⟨made, stored⟩
  · intro other record known reply
    by_cases same : other = postId
    · subst same
      obtain rfl := Option.some.inj (stored.symm.trans known)
      rw [thread] at reply ⊢
      obtain ⟨parent, present, _⟩ := (target_of_reply target).resolve_left reply
      have listed := (ordered.stored args.replyTo).mp ⟨parent, present⟩
      refine ⟨List.mem_append_left _ listed, ?_⟩
      rw [List.idxOf_append_of_mem listed, List.idxOf_append_of_notMem unlisted]
      exact (List.idxOf_lt_length_of_mem listed).trans_le (Nat.le_add_right _ _)
    · obtain ⟨listed, before⟩ :=
        ordered.earlier other record (others other same record known) reply
      have present := (ordered.stored other).mp ⟨record, others other same record known⟩
      refine ⟨List.mem_append_left _ listed, ?_⟩
      rw [List.idxOf_append_of_mem listed, List.idxOf_append_of_mem present]
      exact before

theorem threadsOrdered_run (host : Host) (calls : List Call) :
    ThreadsOrdered (createdIds ((machine host).history empty calls))
      ((machine host).final empty calls) := by
  refine (machine host).run_induction empty
    (fun history state => ThreadsOrdered (createdIds history) state) threadsOrdered_empty ?_ calls
  intro history entry ordered
  rw [createdIds_concat]
  cases created : createdOf entry.call.operation with
  | none =>
    rw [Option.toList_none, List.append_nil]
    exact ordered.kept (effect_of_entry entry) created
  | some postId => exact ordered.created (effect_of_entry entry) created

end Order

/-! ### Every run -/

/-- What the stored count of a post's versions should be. -/
def CountsVersions {host : Host} (history : List (machine host).Accepted) (postId : Bytes)
    (record : PostRecord) : Prop :=
  record.versionCount = (versionsOf postId history).length

/-- The count is exact until the versions of the post outgrow the machine word. -/
theorem countsVersions_iff {host : Host} {history : List (machine host).Accepted} {state : State}
    {postId : Bytes} (tracked : PostTracked postId history state) {record : PostRecord}
    (known : state.posts.get postId = some record) :
    CountsVersions history postId record ↔ (versionsOf postId history).length < 2 ^ 32 := by
  rw [CountsVersions, (tracked.of_some known).counted]
  exact Nat.mod_eq_iff_lt (by decide)

/-- Along every run: a stored post stays the same post in every later run, and a deleted one neither
changes nor is answered; every reply names a post created before it, so following replies ends; and
the version count of a post is the number of its accepted publishes exactly while these are fewer
than two to the thirty-second. -/
theorem post_history (host : Host) (calls : List Call) :
    (∀ postId record, ((machine host).final empty calls).posts.get postId = some record →
      ∀ later,
        (∃ kept, ((machine host).final empty (calls ++ later)).posts.get postId = some kept ∧
          SamePost record kept) ∧
        (record.state = .deleted →
          ((machine host).final empty (calls ++ later)).posts.get postId = some record ∧
          ∀ entry ∈ (machine host).history ((machine host).final empty calls) later,
            answers postId entry.call.operation = false)) ∧
      ThreadsOrdered (createdIds ((machine host).history empty calls))
        ((machine host).final empty calls) ∧
      WellFounded (repliedBy ((machine host).final empty calls)) ∧
      ∀ postId record, ((machine host).final empty calls).posts.get postId = some record →
        (CountsVersions ((machine host).history empty calls) postId record ↔
          (versionsOf postId ((machine host).history empty calls)).length < 2 ^ 32) := by
  have ordered := threadsOrdered_run host calls
  refine ⟨fun postId record known later => ?_, ordered, ordered.wellFounded,
    fun postId record known => countsVersions_iff (postTracked_run host postId calls) known⟩
  rw [Machine.final_append]
  exact ⟨samePost_later host known later, fun deleted => deleted_later host known later deleted⟩

/-! ### A post edited too often -/

/-- After two to the thirty-second versions the count of the post is zero. -/
theorem edited_post_miscounted :
    ∃ record, ((machine constantHost).final empty (editRun 4294967295)).posts.get
        (List.replicate 32 7) = some record ∧
      record.versionCount = 0 ∧
      ¬ CountsVersions ((machine constantHost).history empty (editRun 4294967295))
        (List.replicate 32 7) record := by
  obtain ⟨counted, record, known, count⟩ := editRun_miscounted 4294967295 rfl
  refine ⟨record, known, count, ?_⟩
  rw [CountsVersions, count, counted]
  exact (Nat.two_pow_pos 32).ne

end OpenSocial.Publications
