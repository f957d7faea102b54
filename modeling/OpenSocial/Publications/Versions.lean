/-
This file says when a content hash identifies a version of a post.

An edit and a lifecycle change name the version they were prepared against by
its content hash, and the contract compares that hash with the latest one. Along
a run in which every accepted version brings new content the comparison decides
whether another version came in between. The contract does not ask for new
content: a hash can become the latest one again, and then a change prepared
against its first occurrence is accepted.
-/

import OpenSocial.Publications.History

namespace OpenSocial.Publications

open Library

/-! ### Content hashes -/

/-- The content hashes of the versions of a post, in order. -/
def hashesOf {host : Host} (postId : Bytes) (history : List (machine host).Accepted) : List Bytes :=
  (versionsOf postId history).map PublishArguments.contentHash

theorem hashesOf_concat {host : Host} (postId : Bytes) (history : List (machine host).Accepted)
    (entry : (machine host).Accepted) :
    hashesOf postId (history ++ [entry]) =
      hashesOf postId history ++
        ((publishOf postId entry.call.operation).map PublishArguments.contentHash).toList := by
  rw [hashesOf, versionsOf_concat, List.map_append, ← hashesOf]
  cases publishOf postId entry.call.operation with
  | none => rfl
  | some args => rfl

/-- The version of a post that an edit or a lifecycle change was prepared against. -/
def namedVersion (postId : Bytes) : Operation → Option Bytes
  | .publish args =>
    if args.postId = postId ∧ args.previousVersion ≠ [] then some args.previousVersion else none
  | .setLifecycle args => if args.postId = postId then some args.version else none
  | _ => none

/-- The content hashes of a post tell its versions apart, and an accepted change names the only
version with its hash, the last one published before it. -/
structure VersionsIdentified {host : Host} (postId : Bytes)
    (history : List (machine host).Accepted) : Prop where
  distinct : (hashesOf postId history).Nodup
  current : ∀ earlier entry, earlier ++ [entry] <+: history →
    ∀ seen, namedVersion postId entry.call.operation = some seen →
    ∀ index, (hashesOf postId earlier)[index]? = some seen →
      index + 1 = (hashesOf postId earlier).length

/-- Every accepted publish of a post brings content that no version of it had before. -/
def FreshContent {host : Host} (postId : Bytes) (history : List (machine host).Accepted) : Prop :=
  ∀ earlier entry, earlier ++ [entry] <+: history →
    ∀ args, publishOf postId entry.call.operation = some args →
      args.contentHash ∉ hashesOf postId earlier

/-! ### Fresh content -/

section Fresh

variable {host : Host} {postId : Bytes} {history : List (machine host).Accepted}

theorem freshContent_nil : FreshContent postId ([] : List (machine host).Accepted) := by
  intro earlier entry beginning
  exact absurd (List.prefix_nil.mp beginning) (List.concat_ne_nil entry earlier)

theorem freshContent_concat (entry : (machine host).Accepted) :
    FreshContent postId (history ++ [entry]) ↔
      FreshContent postId history ∧
        ∀ args, publishOf postId entry.call.operation = some args →
          args.contentHash ∉ hashesOf postId history := by
  constructor
  · intro fresh
    exact ⟨fun earlier other beginning =>
      fresh earlier other (beginning.trans (List.prefix_append history [entry])),
      fresh history entry (List.prefix_refl _)⟩
  · rintro ⟨before, last⟩ earlier other beginning
    rcases List.prefix_concat_iff.mp beginning with whole | inside
    · obtain ⟨rfl, same⟩ := List.append_inj' whole rfl
      rw [List.singleton_inj.mp same]
      exact last
    · exact before earlier other inside

/-- The content hashes are distinct exactly when each is new. -/
theorem nodup_hashesOf_iff : (hashesOf postId history).Nodup ↔ FreshContent postId history := by
  induction history using List.reverseRecOn with
  | nil => exact iff_of_true List.nodup_nil freshContent_nil
  | append_singleton history entry inductionHypothesis =>
    rw [freshContent_concat, ← inductionHypothesis, hashesOf_concat]
    cases publishOf postId entry.call.operation with
    | none =>
      rw [Option.map_none, Option.toList_none, List.append_nil]
      exact (and_iff_left fun args impossible => absurd impossible (Option.some_ne_none args).symm).symm
    | some args =>
      rw [Option.map_some, Option.toList_some, List.nodup_append_comm, List.singleton_append,
        List.nodup_cons]
      constructor
      · rintro ⟨fresh, distinct⟩
        refine ⟨distinct, fun other same => ?_⟩
        rw [← Option.some.inj same]
        exact fresh
      · rintro ⟨distinct, fresh⟩
        exact ⟨fresh args rfl, distinct⟩

end Fresh

/-! ### Prepared changes -/

/-- An accepted change names the latest version. -/
theorem latest_of_named {host : Host} {env : Env} {operation : Operation} {state after : State}
    {events : List Event} (effect : Effect host env state operation after events)
    {postId seen : Bytes} (named : namedVersion postId operation = some seen) :
    ∃ record, state.posts.get postId = some record ∧ record.latestVersion = seen := by
  cases effect with
  | edited author args existing signer signed later wellFormed authorized known own alive current
      thread unbound charged =>
    obtain ⟨⟨rfl, _⟩, same⟩ := Option.ite_none_right_eq_some.mp named
    exact ⟨existing, known, current.symm.trans (Option.some.inj same)⟩
  | lifecycleSet author other wire target reason replacementId device record signer idLength decoded
      replaced authorized known own alive =>
    obtain ⟨rfl, same⟩ := Option.ite_none_right_eq_some.mp named
    exact ⟨record, known, Option.some.inj same⟩
  | firstPublished author args audience signer signed first wellFormed authorized fresh sequenced
      computed target unbound charged =>
    exact absurd first (Option.ite_none_right_eq_some.mp named).1.2
  | tokenContractSet address authorized => cases named
  | identityContractSet address authorized => cases named
  | relationshipsContractSet address authorized => cases named
  | reacted actor other reaction remove device record signer idLength present authorized known alive
      charged => cases named
  | keysDistributed author audienceId epoch packages device signer present bounded authorized =>
    cases named
  | crossPostRecorded author idempotencyKey adapter wire outcome externalRef other manifestHash
      device signer decoded authorized owned succeeded => cases named

/-- In a list without repetition the last value stands nowhere else. -/
theorem last_of_nodup {Value : Type} {values : List Value} {value : Value} {index : ℕ}
    (distinct : values.Nodup) (last : values.getLast? = some value)
    (found : values[index]? = some value) : index + 1 = values.length := by
  rw [List.getLast?_eq_getElem?] at last
  obtain ⟨inside, at_index⟩ := List.getElem?_eq_some_iff.mp found
  obtain ⟨inside', at_last⟩ := List.getElem?_eq_some_iff.mp last
  have same := (distinct.getElem_inj_iff).mp (at_index.trans at_last.symm)
  omega

/-- The hash a change names is the last one of the versions published before it. -/
theorem getLast_hashesOf {host : Host} {calls : List Call}
    {earlier later : List (machine host).Accepted} {entry : (machine host).Accepted}
    (split : (machine host).history empty calls = earlier ++ entry :: later) {postId seen : Bytes}
    (named : namedVersion postId entry.call.operation = some seen) :
    (hashesOf postId earlier).getLast? = some seen := by
  obtain ⟨before, after, _, history, final⟩ := (machine host).history_split split
  obtain ⟨record, known, latest⟩ := latest_of_named (effect_of_entry entry) named
  have tracked := postTracked_run host postId before
  rw [history, final] at tracked
  obtain ⟨version, last, hash⟩ := (tracked.of_some known).latest
  rw [hashesOf, List.getLast?_map, last, Option.map_some, hash, latest]

/-! ### Every run -/

/-- Along every run the content hashes of a post identify its versions, and no change prepared
against an older version is accepted, exactly when every accepted version brings new content. -/
theorem versionsIdentified_iff (host : Host) (calls : List Call) (postId : Bytes) :
    VersionsIdentified postId ((machine host).history empty calls) ↔
      FreshContent postId ((machine host).history empty calls) := by
  rw [← nodup_hashesOf_iff]
  constructor
  · exact VersionsIdentified.distinct
  · intro distinct
    refine ⟨distinct, ?_⟩
    rintro earlier entry ⟨later, split⟩ seen named index found
    rw [List.append_assoc, List.singleton_append] at split
    have beginning : FreshContent postId earlier := by
      intro first other inside
      refine nodup_hashesOf_iff.mp distinct first other (inside.trans ?_)
      exact ⟨entry :: later, split⟩
    exact last_of_nodup (nodup_hashesOf_iff.mpr beginning) (getLast_hashesOf split.symm named) found

/-! ### A version that comes back -/

/-- A version of one post with the content of one repeated byte. -/
def contentVersion (previousVersion : Bytes) (content : UInt8) : PublishArguments :=
  { sameVersion previousVersion with contentHash := List.replicate 32 content }

/-- One device sees the first version; another one publishes new content and then the first content
again. -/
def revertRun : List Call :=
  [⟨Env.signedBy [] 0, .setIdentityContract ⟨(Address.repeated 9).val⟩⟩,
    ⟨Env.signedBy [] 1, .publish (contentVersion [] 1)⟩,
    ⟨Env.signedBy [] 2, .publish (contentVersion (List.replicate 32 1) 2)⟩,
    ⟨Env.signedBy [] 3, .publish (contentVersion (List.replicate 32 2) 1)⟩]

/-- The edit the first device prepared against the version it saw. -/
def preparedEdit : Call :=
  ⟨Env.signedBy [] 4, .publish (contentVersion (List.replicate 32 1) 3)⟩

/-- The prepared edit is accepted although two versions came in between. -/
theorem stale_edit_accepted :
    hashesOf (List.replicate 32 7) ((machine constantHost).history empty revertRun) =
        [List.replicate 32 1, List.replicate 32 2, List.replicate 32 1] ∧
      ((machine constantHost).step ((machine constantHost).final empty revertRun)
        preparedEdit).toBool = true ∧
      ¬ VersionsIdentified (List.replicate 32 7)
        ((machine constantHost).history empty (revertRun ++ [preparedEdit])) := by
  have hashes : hashesOf (List.replicate 32 7) ((machine constantHost).history empty revertRun) =
      [List.replicate 32 1, List.replicate 32 2, List.replicate 32 1] := by decide +kernel
  have accepted : ((machine constantHost).step ((machine constantHost).final empty revertRun)
      preparedEdit).toBool = true := by decide +kernel
  refine ⟨hashes, accepted, fun identified => ?_⟩
  obtain ⟨⟨after, events⟩, answer⟩ := exists_ok_of_toBool accepted
  have prior := identified.current _ _ (by rw [(machine constantHost).history_concat_of_ok answer])
    (List.replicate 32 1) rfl 0 (by rw [hashes]; rfl)
  rw [hashes] at prior
  exact absurd prior (by decide)

end OpenSocial.Publications
