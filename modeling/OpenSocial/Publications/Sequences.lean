/-
This file numbers the posts of an author and follows the keys they are bound to.

The ghost of an author is the list of the first versions the author had
accepted, in order. Their sequences count up from one as machine words, each of
them is a stored post, and every stored post of the author is one of them; so the
stored sequences are those from one to the post count until the count runs out
of its word. A key is bound by the first accepted publish that carries it, keeps
its post in every later run, and is the only thing a succeeded cross-post can
name.
-/

import OpenSocial.Publications.Threads

namespace OpenSocial.Publications

open Library Library.Word

/-! ### First versions -/

/-- The arguments of a first version by an author. -/
def firstOf (author : Address) : Operation → Option PublishArguments
  | .publish args =>
    if args.previousVersion = [] ∧ args.author = author.val then some args else none
  | _ => none

/-- The first versions an author had accepted, in order. -/
def firstsOf {host : Host} (author : Address) (history : List (machine host).Accepted) :
    List PublishArguments :=
  history.filterMap fun entry => firstOf author entry.call.operation

theorem firstsOf_concat {host : Host} (author : Address) (history : List (machine host).Accepted)
    (entry : (machine host).Accepted) :
    firstsOf author (history ++ [entry]) =
      firstsOf author history ++ (firstOf author entry.call.operation).toList :=
  Machine.filterMap_concat _ history entry

/-! ### One author, one call -/

/-- What an accepted call does to one author: nothing, or one more first version. -/
inductive AuthorStep (state after : State) (author : Address) (operation : Operation) : Prop
  | kept (other : firstOf author operation = none)
      (same : loadAuthor after author.val = loadAuthor state author.val)
      (posts : ∀ postId record, after.posts.get postId = some record → record.author = author →
        ∃ before, state.posts.get postId = some before ∧ before.author = author ∧
          before.sequence = record.sequence)
  | counted (args : PublishArguments) (record : PostRecord) (now : ℕ)
      (first : firstOf author operation = some args)
      (numbered : args.sequence = (loadAuthor state author.val).nextSequence)
      (fresh : state.posts.get args.postId = none)
      (authored : record.author = author) (sequenced : record.sequence = args.sequence)
      (stored : after.posts = state.posts.put args.postId record)
      (next : loadAuthor after author.val = countedAuthor state author now)

section Step

variable {host : Host} {env : Env} {operation : Operation} {state after : State}
  {events : List Event}

theorem loadAuthor_congr {state after : State} (same : after.authors = state.authors)
    (author : Bytes) : loadAuthor after author = loadAuthor state author := by
  rw [loadAuthor, loadAuthor, same]

theorem bindKey_authors (state : State) (author : Address) (key postId : Bytes) :
    (bindKey state author key postId).authors = state.authors := by
  unfold bindKey
  split <;> rfl

/-- Posts that only change their version or lifecycle keep their author and sequence. -/
theorem authored_of_put {state : State} {postId : Bytes} {existing : PostRecord}
    (record : PostRecord) (known : state.posts.get postId = some existing)
    (author : record.author = existing.author) (sequence : record.sequence = existing.sequence)
    (other : Bytes) (stored : PostRecord)
    (written : (state.posts.put postId record).get other = some stored) :
    ∃ before, state.posts.get other = some before ∧ before.author = stored.author ∧
      before.sequence = stored.sequence := by
  rw [Store.get_put] at written
  by_cases same : other = postId
  · rw [if_pos same] at written
    obtain rfl := Option.some.inj written
    exact ⟨existing, same ▸ known, author.symm, sequence.symm⟩
  · rw [if_neg same] at written
    exact ⟨stored, written, rfl, rfl⟩

theorem author_step (effect : Effect host env state operation after events) (author : Address) :
    AuthorStep state after author operation := by
  have untouched : ∀ postId record, state.posts.get postId = some record →
      record.author = author → ∃ before, state.posts.get postId = some before ∧
        before.author = author ∧ before.sequence = record.sequence :=
    fun postId record known own => ⟨record, known, own, rfl⟩
  cases effect with
  | tokenContractSet address authorized => exact .kept rfl rfl untouched
  | identityContractSet address authorized => exact .kept rfl rfl untouched
  | relationshipsContractSet address authorized => exact .kept rfl rfl untouched
  | firstPublished signer args audience device signed first wellFormed authorized fresh sequenced
      computed target unbound charged =>
    have posts : ∀ record, (((bindKey state signer args.idempotencyKey args.postId).putPost
        args.postId record).putAuthor signer (countedAuthor state signer env.now)).posts =
        state.posts.put args.postId record := by
      intro record
      show (bindKey state signer args.idempotencyKey args.postId).posts.put args.postId record = _
      rw [bindKey_posts]
    have authors : ∀ record other, loadAuthor
        (((bindKey state signer args.idempotencyKey args.postId).putPost
          args.postId record).putAuthor signer (countedAuthor state signer env.now)) other =
        if other = signer.val then countedAuthor state signer env.now
        else loadAuthor state other := by
      intro record other
      show (((bindKey state signer args.idempotencyKey args.postId).authors.put signer.val
        (countedAuthor state signer env.now)).get other).getD ⟨FIRST_SEQUENCE, 0, 0⟩ = _
      rw [bindKey_authors, Store.get_put]
      split <;> rfl
    by_cases own : signer = author
    · subst own
      refine .counted args _ env.now (if_pos ⟨first, signed⟩) sequenced fresh rfl rfl
        (posts _) ?_
      rw [authors, if_pos rfl]
    · refine .kept (if_neg fun both => own (Subtype.ext (signed.symm.trans both.2))) ?_ ?_
      · rw [authors, if_neg fun same => own (Subtype.ext same.symm)]
      · intro postId record stored authored
        rw [posts, Store.get_put] at stored
        by_cases named : postId = args.postId
        · rw [if_pos named] at stored
          obtain rfl := Option.some.inj stored
          exact absurd authored own
        · rw [if_neg named] at stored
          exact untouched postId record stored authored
  | edited signer args existing device signed later wellFormed authorized known own alive current
      thread unbound charged =>
    have posts : ((bindKey state signer args.idempotencyKey args.postId).putPost args.postId
        (editedRecord existing args.contentHash env.now)).posts =
        state.posts.put args.postId (editedRecord existing args.contentHash env.now) := by
      show (bindKey state signer args.idempotencyKey args.postId).posts.put args.postId _ = _
      rw [bindKey_posts]
    refine .kept (if_neg fun both => later both.1) ?_ ?_
    · exact loadAuthor_congr (bindKey_authors state signer args.idempotencyKey args.postId) _
    · intro postId record stored authored
      rw [posts] at stored
      obtain ⟨before, known', same, sequence⟩ :=
        authored_of_put (editedRecord existing args.contentHash env.now) known rfl rfl postId record
          stored
      exact ⟨before, known', same.trans authored, sequence⟩
  | lifecycleSet signer postId wire target reason replacementId device existing authorizer idLength
      decoded replaced authorized known own alive =>
    refine .kept rfl rfl ?_
    intro other record stored authored
    obtain ⟨before, known', same, sequence⟩ :=
      authored_of_put { existing with state := target, updatedAt := env.now } known rfl rfl other
        record stored
    exact ⟨before, known', same.trans authored, sequence⟩
  | reacted actor postId reaction remove device record signer idLength named authorized known alive
      charged => exact .kept rfl rfl untouched
  | keysDistributed signer audienceId epoch packages device authorizer present bounded authorized =>
    exact .kept rfl rfl untouched
  | crossPostRecorded signer idempotencyKey adapter wire outcome externalRef postId manifestHash
      device authorizer decoded authorized owned succeeded => exact .kept rfl rfl untouched

end Step

/-! ### An author and its first versions -/

/-- What the first versions of an author say about its state and its posts. -/
structure AuthorTracked (firsts : List PublishArguments) (state : State) (author : Address) :
    Prop where
  next : (loadAuthor state author.val).nextSequence = (firsts.length + 1) % 2 ^ 64
  count : (loadAuthor state author.val).postCount = firsts.length % 2 ^ 64
  numbered : ∀ index (inside : index < firsts.length),
    (firsts.get ⟨index, inside⟩).sequence = (index + 1) % 2 ^ 64
  stored : ∀ args ∈ firsts, ∃ record, state.posts.get args.postId = some record ∧
    record.author = author ∧ record.sequence = args.sequence
  listed : ∀ postId record, state.posts.get postId = some record → record.author = author →
    ∃ args ∈ firsts, args.postId = postId ∧ args.sequence = record.sequence

theorem authorTracked_empty (author : Address) : AuthorTracked [] empty author where
  next := rfl
  count := rfl
  numbered index inside := absurd inside (Nat.not_lt_zero index)
  stored args member := absurd member List.not_mem_nil
  listed postId record known := absurd known (by simp [empty])

section Tracked

variable {host : Host} {author : Address}

/-- A call that creates no post of the author keeps what its first versions say. -/
theorem AuthorTracked.kept {env : Env} {operation : Operation} {state after : State}
    {events : List Event} {firsts : List PublishArguments}
    (tracked : AuthorTracked firsts state author)
    (effect : Effect host env state operation after events)
    (same : loadAuthor after author.val = loadAuthor state author.val)
    (posts : ∀ postId record, after.posts.get postId = some record → record.author = author →
      ∃ before, state.posts.get postId = some before ∧ before.author = author ∧
        before.sequence = record.sequence) :
    AuthorTracked firsts after author where
  next := by rw [same, tracked.next]
  count := by rw [same, tracked.count]
  numbered := tracked.numbered
  stored args member := by
    obtain ⟨record, known, own, sequence⟩ := tracked.stored args member
    obtain ⟨kept, stored, post⟩ := samePost_step effect known
    exact ⟨kept, stored, post.author.trans own, post.sequence.trans sequence⟩
  listed postId record stored own := by
    obtain ⟨before, known, own', sequence⟩ := posts postId record stored own
    obtain ⟨args, member, named, numbered⟩ := tracked.listed postId before known own'
    exact ⟨args, member, named, numbered.trans sequence⟩

/-- One more first version takes the next sequence. -/
theorem AuthorTracked.counted {state after : State} {firsts : List PublishArguments}
    (tracked : AuthorTracked firsts state author) {args : PublishArguments} {record : PostRecord}
    {now : ℕ} (numbered : args.sequence = (loadAuthor state author.val).nextSequence)
    (fresh : state.posts.get args.postId = none) (authored : record.author = author)
    (sequenced : record.sequence = args.sequence)
    (stored : after.posts = state.posts.put args.postId record)
    (next : loadAuthor after author.val = countedAuthor state author now) :
    AuthorTracked (firsts ++ [args]) after author where
  next := by
    rw [next, countedAuthor, tracked.next, wrapAdd, List.length_append, List.length_singleton]
    exact Nat.mod_add_mod _ _ _
  count := by
    rw [next, countedAuthor, tracked.count, wrapAdd, List.length_append, List.length_singleton]
    exact Nat.mod_add_mod _ _ _
  numbered index inside := by
    rw [List.get_eq_getElem, List.getElem_append]
    split
    · next before => exact tracked.numbered index before
    · next last =>
      have bound := inside
      rw [List.length_append, List.length_singleton] at bound
      have position : index = firsts.length :=
        Nat.le_antisymm (Nat.lt_succ_iff.mp bound) (not_lt.mp last)
      rw [List.getElem_singleton, numbered, tracked.next, position]
  stored other member := by
    rw [stored]
    rcases List.mem_append.mp member with old | new
    · obtain ⟨record', known, own, sequence⟩ := tracked.stored other old
      have different : other.postId ≠ args.postId := by
        intro same
        rw [same, fresh] at known
        exact Option.some_ne_none record' known.symm
      exact ⟨record', by rw [Store.get_put, if_neg different, known], own, sequence⟩
    · rw [List.mem_singleton.mp new]
      exact ⟨record, by rw [Store.get_put, if_pos rfl], authored, sequenced⟩
  listed postId record' known own := by
    rw [stored, Store.get_put] at known
    split at known
    · next named =>
      obtain rfl := Option.some.inj known
      exact ⟨args, List.mem_append_right _ List.mem_cons_self, named.symm, sequenced.symm⟩
    · obtain ⟨other, member, named, sequence⟩ := tracked.listed postId record' known own
      exact ⟨other, List.mem_append_left _ member, named, sequence⟩

theorem authorTracked_run (host : Host) (author : Address) (calls : List Call) :
    AuthorTracked (firstsOf author ((machine host).history empty calls))
      ((machine host).final empty calls) author := by
  refine (machine host).run_induction empty
    (fun history state => AuthorTracked (firstsOf author history) state author)
    (authorTracked_empty author) ?_ calls
  intro history entry tracked
  rw [firstsOf_concat]
  cases author_step (effect_of_entry entry) author with
  | kept other same posts =>
    rw [other, Option.toList_none, List.append_nil]
    exact tracked.kept (effect_of_entry entry) same posts
  | counted args record now first numbered fresh authored sequenced stored next =>
    rw [first, Option.toList_some]
    exact tracked.counted numbered fresh authored sequenced stored next

end Tracked

/-! ### Sequences -/

/-- The author's next sequence follows its post count, and the sequences of its stored posts are
those from one to the count, each used once. -/
structure Sequenced (state : State) (author : Address) : Prop where
  next : (loadAuthor state author.val).nextSequence =
    (loadAuthor state author.val).postCount + 1
  exactly : ∀ sequence,
    (∃ postId record, state.posts.get postId = some record ∧ record.author = author ∧
      record.sequence = sequence) ↔
    1 ≤ sequence ∧ sequence ≤ (loadAuthor state author.val).postCount
  once : ∀ first second earlier later, state.posts.get first = some earlier →
    state.posts.get second = some later → earlier.author = author → later.author = author →
    earlier.sequence = later.sequence → first = second

section Sequences

variable {firsts : List PublishArguments} {state : State} {author : Address}

/-- A stored post of the author is the first version at some place of the list. -/
theorem AuthorTracked.place (tracked : AuthorTracked firsts state author) {postId : Bytes}
    {record : PostRecord} (known : state.posts.get postId = some record)
    (own : record.author = author) :
    ∃ index, ∃ inside : index < firsts.length, (firsts.get ⟨index, inside⟩).postId = postId ∧
      record.sequence = (index + 1) % 2 ^ 64 := by
  obtain ⟨args, member, named, sequence⟩ := tracked.listed postId record known own
  obtain ⟨⟨index, inside⟩, found⟩ := List.get_of_mem member
  refine ⟨index, inside, found ▸ named, ?_⟩
  rw [← sequence, ← found, tracked.numbered]

/-- The first version at a place of the list is a stored post under that sequence. -/
theorem AuthorTracked.post_at (tracked : AuthorTracked firsts state author) {index : ℕ}
    (inside : index < firsts.length) :
    ∃ postId record, state.posts.get postId = some record ∧ record.author = author ∧
      record.sequence = (index + 1) % 2 ^ 64 := by
  obtain ⟨record, known, own, sequence⟩ := tracked.stored _ (List.get_mem firsts ⟨index, inside⟩)
  exact ⟨_, record, known, own, sequence.trans (tracked.numbered index inside)⟩

/-- While the count fits its word the sequences are those from one to it. -/
theorem AuthorTracked.sequenced (tracked : AuthorTracked firsts state author)
    (fits : firsts.length < 2 ^ 64 - 1) : Sequenced state author := by
  have count : (loadAuthor state author.val).postCount = firsts.length := by
    rw [tracked.count]
    exact Nat.mod_eq_of_lt (by omega)
  have small : ∀ index, index < firsts.length → (index + 1) % 2 ^ 64 = index + 1 :=
    fun index inside => Nat.mod_eq_of_lt (by omega)
  constructor
  · rw [tracked.next, count]
    exact Nat.mod_eq_of_lt (by omega)
  · intro sequence
    rw [count]
    constructor
    · rintro ⟨postId, record, known, own, rfl⟩
      obtain ⟨index, inside, _, sequence⟩ := tracked.place known own
      rw [sequence, small index inside]
      exact ⟨Nat.le_add_left 1 index, inside⟩
    · rintro ⟨positive, bounded⟩
      have inside : sequence - 1 < firsts.length := by omega
      obtain ⟨postId, record, known, own, numbered⟩ := tracked.post_at inside
      rw [small _ inside, Nat.sub_add_cancel positive] at numbered
      exact ⟨postId, record, known, own, numbered⟩
  · intro first second earlier later known known' own own' same
    obtain ⟨index, inside, named, sequence⟩ := tracked.place known own
    obtain ⟨index', inside', named', sequence'⟩ := tracked.place known' own'
    rw [sequence, sequence', small index inside, small index' inside'] at same
    obtain rfl := Nat.succ.inj same
    rw [← named, ← named']

/-- Once the count has used up its word the sequences are wrong for good. -/
theorem AuthorTracked.not_sequenced (tracked : AuthorTracked firsts state author)
    (full : 2 ^ 64 - 1 ≤ firsts.length) : ¬ Sequenced state author := by
  intro sequenced
  have last : ∃ postId record, state.posts.get postId = some record ∧ record.author = author ∧
      record.sequence = 2 ^ 64 - 1 := by
    have inside : 2 ^ 64 - 2 < firsts.length := by omega
    obtain ⟨postId, record, known, own, sequence⟩ := tracked.post_at inside
    exact ⟨postId, record, known, own, sequence.trans (by norm_num)⟩
  have below := ((sequenced.exactly (2 ^ 64 - 1)).mp last).2
  have next := sequenced.next
  rw [tracked.next] at next
  have bound := Nat.mod_lt (firsts.length + 1) (Nat.two_pow_pos 64)
  omega

theorem sequenced_iff (tracked : AuthorTracked firsts state author) :
    Sequenced state author ↔ firsts.length < 2 ^ 64 - 1 := by
  constructor
  · intro sequenced
    by_contra full
    exact tracked.not_sequenced (not_lt.mp full) sequenced
  · exact tracked.sequenced

end Sequences

/-! ### Bound keys -/

/-- The post a publish binds a key of an author to; an empty key binds nothing. -/
def boundBy (author : Address) (key : Bytes) : Operation → Option Bytes
  | .publish args =>
    if args.author = author.val ∧ args.idempotencyKey = key ∧ key ≠ [] then some args.postId
    else none
  | _ => none

/-- The posts of the accepted publishes that carried a key of an author. -/
def bindingsOf {host : Host} (author : Address) (key : Bytes)
    (history : List (machine host).Accepted) : List Bytes :=
  history.filterMap fun entry => boundBy author key entry.call.operation

theorem bindingsOf_concat {host : Host} (author : Address) (key : Bytes)
    (history : List (machine host).Accepted) (entry : (machine host).Accepted) :
    bindingsOf author key (history ++ [entry]) =
      bindingsOf author key history ++ (boundBy author key entry.call.operation).toList :=
  Machine.filterMap_concat _ history entry

/-- The post a key of an author is bound to. -/
def boundPost (state : State) (author : Address) (key : Bytes) : Option Bytes :=
  state.idempotency.get (idempotencyKeyOf author.val key)

/-- What an accepted call does to one key of an author: nothing, or it binds the free key to a post
of the author. -/
inductive BindingStep (state after : State) (author : Address) (key : Bytes)
    (operation : Operation) : Prop
  | kept (other : boundBy author key operation = none)
      (same : boundPost after author key = boundPost state author key)
  | bound (postId : Bytes) (record : PostRecord)
      (carried : boundBy author key operation = some postId)
      (free : boundPost state author key = none) (stored : boundPost after author key = some postId)
      (known : after.posts.get postId = some record) (own : record.author = author)

section Binding

variable {host : Host} {env : Env} {operation : Operation} {state after : State}
  {events : List Event}

theorem boundPost_bindKey (state : State) (signer author : Address) (carried key postId : Bytes) :
    boundPost (bindKey state signer carried postId) author key =
      if signer = author ∧ carried = key ∧ key ≠ [] then some postId
      else boundPost state author key := by
  unfold boundPost bindKey
  by_cases empty : carried = []
  · rw [if_pos empty, if_neg]
    intro all
    exact all.2.2 (all.2.1.symm.trans empty)
  · rw [if_neg empty]
    refine (Store.get_put _ _ _ _).trans ?_
    unfold idempotencyKeyOf
    by_cases same : author = signer ∧ key = carried
    · rw [if_pos (Util.concat_address_inj.mpr same),
        if_pos ⟨same.1.symm, same.2.symm, same.2.trans_ne empty⟩]
    · rw [if_neg fun equal => same (Util.concat_address_inj.mp equal),
        if_neg fun all => same ⟨all.1.symm, all.2.1.symm⟩]

/-- A publish that carries a key binds it when it is accepted. -/
theorem bindingStep_of_publish {signer : Address} {args : PublishArguments} (record : PostRecord)
    (signed : args.author = signer.val)
    (unbound : args.idempotencyKey = [] ∨
      state.idempotency.get (idempotencyKeyOf signer.val args.idempotencyKey) = none)
    (bindings : after.idempotency =
      (bindKey state signer args.idempotencyKey args.postId).idempotency)
    (known : after.posts.get args.postId = some record) (own : record.author = signer)
    (author : Address) (key : Bytes) :
    BindingStep state after author key (.publish args) := by
  have stored : boundPost after author key =
      boundPost (bindKey state signer args.idempotencyKey args.postId) author key := by
    rw [boundPost, boundPost, bindings]
  rw [boundPost_bindKey] at stored
  by_cases carries : signer = author ∧ args.idempotencyKey = key ∧ key ≠ []
  · rw [if_pos carries] at stored
    obtain ⟨rfl, rfl, present⟩ := carries
    exact .bound args.postId record (if_pos ⟨signed, rfl, present⟩)
      (unbound.resolve_left present) stored known own
  · rw [if_neg carries] at stored
    refine .kept (if_neg fun all => carries ⟨?_, all.2⟩) stored
    exact Subtype.ext (signed.symm.trans all.1)

theorem binding_step (effect : Effect host env state operation after events) (author : Address)
    (key : Bytes) : BindingStep state after author key operation := by
  cases effect with
  | firstPublished signer args audience device signed first wellFormed authorized fresh sequenced
      computed target unbound charged =>
    refine bindingStep_of_publish ⟨signer, args.sequence, 1, args.contentHash, .active,
      args.replyTo, audience, env.now, env.now⟩ signed unbound ?_ ?_ rfl author key
    · rfl
    · exact (Store.get_put _ _ _ _).trans (if_pos rfl)
  | edited signer args existing device signed later wellFormed authorized known own alive current
      thread unbound charged =>
    refine bindingStep_of_publish (editedRecord existing args.contentHash env.now) signed unbound
      ?_ ?_ own author key
    · rfl
    · exact (Store.get_put _ _ _ _).trans (if_pos rfl)
  | tokenContractSet address authorized => exact .kept rfl rfl
  | identityContractSet address authorized => exact .kept rfl rfl
  | relationshipsContractSet address authorized => exact .kept rfl rfl
  | lifecycleSet signer postId wire target reason replacementId device existing authorizer idLength
      decoded replaced authorized known own alive => exact .kept rfl rfl
  | reacted actor postId reaction remove device record signer idLength named authorized known alive
      charged => exact .kept rfl rfl
  | keysDistributed signer audienceId epoch packages device authorizer present bounded authorized =>
    exact .kept rfl rfl
  | crossPostRecorded signer idempotencyKey adapter wire outcome externalRef postId manifestHash
      device authorizer decoded authorized owned succeeded => exact .kept rfl rfl

/-- A succeeded cross-post names the post its key is bound to. -/
theorem boundPost_of_crossPost {args : RecordCrossPostArguments}
    (effect : Effect host env state (.recordCrossPost args) after events)
    (succeeded : OutcomeState.ofWire args.state = some .succeeded) :
    ∃ author : Address, args.author = author.val ∧
      boundPost state author args.idempotencyKey = some args.postId ∧
      ∃ record, state.posts.get args.postId = some record ∧ record.author = author := by
  cases effect with
  | crossPostRecorded author idempotencyKey adapter wire outcome externalRef postId manifestHash
      device authorizer decoded authorized owned named =>
    obtain rfl := Option.some.inj (decoded.symm.trans succeeded)
    obtain ⟨present, bound⟩ := named rfl
    obtain ⟨other, found⟩ := Option.isSome_iff_exists.mp bound
    rw [requireOutcomePost, if_neg present, found] at owned
    simp only [bind_eq_ok, requireSome_eq_ok, require_eq_ok, exists_const, Option.all_some,
      beq_iff_eq] at owned
    obtain ⟨record, known, own, rfl⟩ := owned
    exact ⟨author, rfl, (Option.filter_eq_some_iff.mp found).1, record, known, own⟩

end Binding

/-- A key is bound to the post of the one accepted publish that carried it, a stored post of the
author. -/
structure BindingTracked (bindings : List Bytes) (state : State) (author : Address) (key : Bytes) :
    Prop where
  once : bindings = (boundPost state author key).toList
  owned : ∀ postId, boundPost state author key = some postId →
    ∃ record, state.posts.get postId = some record ∧ record.author = author

theorem bindingTracked_run (host : Host) (author : Address) (key : Bytes) (calls : List Call) :
    BindingTracked (bindingsOf author key ((machine host).history empty calls))
      ((machine host).final empty calls) author key := by
  refine (machine host).run_induction empty
    (fun history state => BindingTracked (bindingsOf author key history) state author key)
    ⟨rfl, fun postId bound => absurd bound (by simp [boundPost, empty])⟩ ?_ calls
  intro history entry tracked
  rw [bindingsOf_concat]
  cases binding_step (effect_of_entry entry) author key with
  | kept other same =>
    rw [other, Option.toList_none, List.append_nil]
    constructor
    · rw [same]
      exact tracked.once
    · intro postId bound
      obtain ⟨record, known, own⟩ := tracked.owned postId (same.symm.trans bound)
      obtain ⟨kept, stored, post⟩ := samePost_step (effect_of_entry entry) known
      exact ⟨kept, stored, post.author.trans own⟩
  | bound postId record carried free stored known own =>
    rw [carried, tracked.once, free, Option.toList_none, List.nil_append]
    constructor
    · rw [stored]
    · intro other bound
      obtain rfl := Option.some.inj (stored.symm.trans bound)
      exact ⟨record, known, own⟩

/-- A bound key stays bound to its post in every later run. -/
theorem bound_later (host : Host) {state : State} {author : Address} {key postId : Bytes}
    (bound : boundPost state author key = some postId) (later : List Call) :
    boundPost ((machine host).final state later) author key = some postId := by
  refine (machine host).invariant_final state
    (fun state => boundPost state author key = some postId) bound ?_ later
  intro entry holds
  cases binding_step (effect_of_entry entry) author key with
  | kept other same => exact same.trans holds
  | bound other record carried free stored known own =>
    exact absurd (free.symm.trans holds) (Option.some_ne_none postId).symm

/-! ### Every run -/

/-- Along every run: the sequences of an author are those from one to its post count exactly while
the author has fewer first versions than the word counts; every stored post has the id computed from
its author, its sequence and the content of its first version; a key is bound by at most one
accepted publish, to a stored post of its author and for good; and a succeeded cross-post names the
post its key is bound to. -/
theorem publication_sequences (host : Host) (calls : List Call) :
    (∀ author, Sequenced ((machine host).final empty calls) author ↔
      (firstsOf author ((machine host).history empty calls)).length < 2 ^ 64 - 1) ∧
    (∀ postId record, ((machine host).final empty calls).posts.get postId = some record →
      ∃ first, (versionsOf postId ((machine host).history empty calls)).head? = some first ∧
        computePostId host record.author.val record.sequence first.contentHash = .ok postId) ∧
    (∀ author key, bindingsOf author key ((machine host).history empty calls) =
      (boundPost ((machine host).final empty calls) author key).toList) ∧
    (∀ author key postId, boundPost ((machine host).final empty calls) author key = some postId →
      (∃ record, ((machine host).final empty calls).posts.get postId = some record ∧
        record.author = author) ∧
      ∀ later, boundPost ((machine host).final empty (calls ++ later)) author key = some postId) ∧
    ∀ entry ∈ (machine host).history empty calls, ∀ args,
      entry.call.operation = .recordCrossPost args →
      OutcomeState.ofWire args.state = some .succeeded →
      ∃ author : Address, args.author = author.val ∧
        boundPost entry.before author args.idempotencyKey = some args.postId ∧
        ∃ record, entry.before.posts.get args.postId = some record ∧ record.author = author := by
  refine ⟨fun author => sequenced_iff (authorTracked_run host author calls),
    fun postId record known => ?_, fun author key => (bindingTracked_run host author key calls).once,
    fun author key postId bound => ?_, fun entry _ args called succeeded => ?_⟩
  · obtain ⟨first, head, _, _, _, _, computed⟩ :=
      ((postTracked_run host postId calls).of_some known).made
    exact ⟨first, head, computed⟩
  · refine ⟨(bindingTracked_run host author key calls).owned postId bound, fun later => ?_⟩
    rw [Machine.final_append]
    exact bound_later host bound later
  · exact boundPost_of_crossPost (called ▸ effect_of_entry entry) succeeded

/-! ### An author with too many posts -/

/-- A host whose digest of a post id's preimage starts with the sequence, so that the ids of one
author never collide. -/
def numberingHost : Host := ⟨[], [], fun data => (data.drop (data.length - 40)).take 32⟩

/-- The id of a post by its sequence. -/
def numberedId (sequence : ℕ) : Bytes :=
  Util.u64be sequence ++ List.replicate 24 5

theorem numberedId_inj {first second : ℕ} (small : first < 2 ^ 64) (small' : second < 2 ^ 64)
    (same : numberedId first = numberedId second) : first = second :=
  Util.u64be_inj small small' (List.append_inj same rfl).1

/-- The arguments of a first version by one author. -/
def numberedPost (sequence : ℕ) : PublishArguments where
  author := (Address.repeated 1).val
  postId := numberedId sequence
  previousVersion := []
  sequence := sequence
  audience := 0
  audienceId := []
  epoch := 0
  envelope := []
  contentHash := List.replicate 32 5
  media := []
  replyTo := []
  idempotencyKey := []
  device := []

/-- The author publishes a number of posts. -/
def postRun (posts : ℕ) : List Call :=
  [⟨Env.signedBy [] 0, .setIdentityContract ⟨(Address.repeated 9).val⟩⟩] ++
    (List.range posts).map fun index =>
      ⟨Env.signedBy [] 1, .publish (numberedPost (index + 1))⟩

theorem postRun_succ (posts : ℕ) :
    postRun (posts + 1) =
      postRun posts ++ [⟨Env.signedBy [] 1, .publish (numberedPost (posts + 1))⟩] := by
  rw [postRun, List.range_succ, List.map_append, ← List.append_assoc, ← postRun, List.map_cons,
    List.map_nil]

theorem computePostId_numbered (sequence : ℕ) :
    computePostId numberingHost (Address.repeated 1).val sequence (List.replicate 32 5) =
      .ok (numberedId sequence) := by
  have split : postIdPreimage numberingHost (Address.repeated 1).val sequence
      (List.replicate 32 5) =
      Util.concat [Util.str POST_ID_DOMAIN, numberingHost.chainId, Util.u32be PROTOCOL_VERSION,
        (Address.repeated 1).val] ++ (Util.u64be sequence ++ List.replicate 32 5) := by
    simp only [postIdPreimage, Util.concat, List.flatten_cons, List.flatten_nil, List.append_nil,
      List.append_assoc]
  have digest : numberingHost.hash (postIdPreimage numberingHost (Address.repeated 1).val sequence
      (List.replicate 32 5)) = numberedId sequence := by
    rw [split]
    show ((_ ++ _ : Bytes).drop ((_ ++ _ : Bytes).length - 40)).take 32 = _
    have tail : (Util.u64be sequence ++ List.replicate 32 5).length = 40 := rfl
    rw [List.length_append, tail, Nat.add_sub_cancel, List.drop_left]
    rfl
  rw [computePostId, sha256, digest]
  rfl

/-- The state after a number of posts: the next one takes a fresh id. -/
structure Publishable (state : State) (posts : ℕ) : Prop where
  identity : state.identity = some (Address.repeated 9)
  uncharged : state.usage = none
  next : (loadAuthor state (Address.repeated 1).val).nextSequence = (posts + 1) % 2 ^ 64
  numbered : ∀ postId record, state.posts.get postId = some record →
    ∃ index < posts, postId = numberedId (index + 1)

/-- The record of a post by its sequence. -/
def numberedRecord (sequence : ℕ) : PostRecord :=
  ⟨Address.repeated 1, sequence, 1, List.replicate 32 5, .active, [], .everyone, 1, 1⟩

/-- The next post is accepted while its sequence fits the word. -/
theorem post_accepted {state : State} {posts : ℕ} (publishable : Publishable state posts)
    (fits : posts + 1 < 2 ^ 64) :
    execute numberingHost state ⟨Env.signedBy [] 1, .publish (numberedPost (posts + 1))⟩ =
      .ok ((state.putPost (numberedId (posts + 1)) (numberedRecord (posts + 1))).putAuthor
          (Address.repeated 1) (countedAuthor state (Address.repeated 1) 1),
        [.published (Address.repeated 1) (numberedId (posts + 1)) (List.replicate 32 5) [] 1
          (posts + 1) .everyone [] 0 [] [] [] [] PROTOCOL_VERSION 1]) := by
  have fresh : state.posts.has (numberedId (posts + 1)) = false := by
    rw [Store.has_eq_false, Option.eq_none_iff_forall_ne_some]
    intro record known
    obtain ⟨index, before, same⟩ := publishable.numbered _ record known
    have equal := numberedId_inj fits (by omega) same
    omega
  have next := publishable.next
  rw [Nat.mod_eq_of_lt fits] at next
  have authorized : Actor.requireAuthorized (Env.signedBy [] 1) (identityContract state)
      (Address.repeated 1).val [] Capability.PUBLISH = .ok (Address.repeated 1).val := by
    rw [identityContract, publishable.identity]
    rfl
  have written : writeVersion numberingHost (Env.signedBy [] 1) (Address.repeated 1)
      (numberedId (posts + 1)) (List.replicate 32 5) [] (posts + 1) .everyone [] [] state =
      .ok ((state.putPost (numberedId (posts + 1)) (numberedRecord (posts + 1))).putAuthor
          (Address.repeated 1) (countedAuthor state (Address.repeated 1) 1),
        numberedRecord (posts + 1)) := by
    rw [writeVersion, if_pos rfl]
    simp only [firstVersion, fresh, next, computePostId_numbered, bind_eq_ok]
    refine ⟨(), rfl, (), ?_, _, rfl, (), ?_, (), rfl, state, rfl, ?_⟩
    · rw [require_eq_ok, beq_self_eq_true]
    · rw [require_eq_ok, beq_self_eq_true]
    · rw [countedAuthor, next]
      rfl
  have charged : consume (Env.signedBy [] 1)
      ((state.putPost (numberedId (posts + 1)) (numberedRecord (posts + 1))).putAuthor
        (Address.repeated 1) (countedAuthor state (Address.repeated 1) 1)) (Address.repeated 1) =
      .ok () := by
    show consume (Env.signedBy [] 1) state (Address.repeated 1) = .ok ()
    rw [consume, publishable.uncharged]
    rfl
  simp only [execute, publish, numberedPost, bind_eq_ok]
  exact ⟨Address.repeated 1, rfl, _, rfl, _, rfl, (), rfl, .everyone, rfl, [], rfl, (), rfl, [], rfl,
    [], rfl, _, rfl, _, authorized, _, written, (), charged, rfl⟩

theorem Publishable.posted {state : State} {posts : ℕ} (publishable : Publishable state posts) :
    Publishable ((state.putPost (numberedId (posts + 1)) (numberedRecord (posts + 1))).putAuthor
      (Address.repeated 1) (countedAuthor state (Address.repeated 1) 1)) (posts + 1) where
  identity := publishable.identity
  uncharged := publishable.uncharged
  next := by
    have counted : loadAuthor
        ((state.putPost (numberedId (posts + 1)) (numberedRecord (posts + 1))).putAuthor
          (Address.repeated 1) (countedAuthor state (Address.repeated 1) 1))
        (Address.repeated 1).val = countedAuthor state (Address.repeated 1) 1 := by
      rw [loadAuthor]
      exact congrArg (Option.getD · _) ((Store.get_put _ _ _ _).trans (if_pos rfl))
    rw [counted, countedAuthor, publishable.next, wrapAdd]
    exact Nat.mod_add_mod _ _ _
  numbered postId record known := by
    rcases (ite_eq_iff.mp ((Store.get_put _ _ _ _).symm.trans known)) with ⟨same, _⟩ | ⟨_, old⟩
    · exact ⟨posts, Nat.lt_succ_self posts, same⟩
    · obtain ⟨index, before, same⟩ := publishable.numbered postId record old
      exact ⟨index, before.trans (Nat.lt_succ_self posts), same⟩

/-- Every post of the run is accepted and is a first version. -/
theorem postRun_firsts (posts : ℕ) (fits : posts < 2 ^ 64) :
    Publishable ((machine numberingHost).final empty (postRun posts)) posts ∧
      (firstsOf (Address.repeated 1)
        ((machine numberingHost).history empty (postRun posts))).length = posts := by
  induction posts with
  | zero =>
    refine ⟨⟨rfl, rfl, rfl, fun postId record known => absurd known ?_⟩, by decide +kernel⟩
    show (∅ : Store Bytes PostRecord).get postId ≠ some record
    rw [Store.get_empty]
    exact (Option.some_ne_none record).symm
  | succ posts inductionHypothesis =>
    obtain ⟨publishable, counted⟩ := inductionHypothesis (Nat.lt_of_succ_lt fits)
    have accepted : (machine numberingHost).step
        ((machine numberingHost).final empty (postRun posts))
        ⟨Env.signedBy [] 1, .publish (numberedPost (posts + 1))⟩ = .ok (_, _) :=
      post_accepted publishable fits
    have final := (machine numberingHost).final_concat_of_ok accepted
    have history := (machine numberingHost).history_concat_of_ok accepted
    rw [postRun_succ]
    refine ⟨final ▸ publishable.posted, ?_⟩
    rw [history, firstsOf_concat, List.length_append, counted]
    rfl

/-- With one post less than the word has values the next sequence of the author is zero. -/
theorem postRun_exhausted (posts : ℕ) (full : posts + 1 = 2 ^ 64) :
    (firstsOf (Address.repeated 1)
        ((machine numberingHost).history empty (postRun posts))).length = 2 ^ 64 - 1 ∧
      (loadAuthor ((machine numberingHost).final empty (postRun posts))
        (Address.repeated 1).val).nextSequence = 0 ∧
      ¬ Sequenced ((machine numberingHost).final empty (postRun posts)) (Address.repeated 1) := by
  obtain ⟨publishable, counted⟩ := postRun_firsts posts (by omega)
  have tracked := authorTracked_run numberingHost (Address.repeated 1) (postRun posts)
  have next := publishable.next
  rw [full, Nat.mod_self] at next
  exact ⟨by omega, next, tracked.not_sequenced (by omega)⟩

/-- After two to the sixty-fourth posts less one the next sequence of the author is zero. -/
theorem posted_author_unsequenced :
    (firstsOf (Address.repeated 1) ((machine numberingHost).history empty
        (postRun 18446744073709551615))).length = 2 ^ 64 - 1 ∧
      (loadAuthor ((machine numberingHost).final empty (postRun 18446744073709551615))
        (Address.repeated 1).val).nextSequence = 0 ∧
      ¬ Sequenced ((machine numberingHost).final empty (postRun 18446744073709551615))
        (Address.repeated 1) :=
  postRun_exhausted 18446744073709551615 rfl

end OpenSocial.Publications
