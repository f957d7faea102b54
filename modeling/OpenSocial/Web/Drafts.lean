/-
This file models the draft log of the web app and proves when it loses no update.

Saving and removing a draft each load the whole list, change it and store it, and
wait for the storage and for the cipher in between. Other calls may store their list
meanwhile, and what a call stores then is older than what it replaces. The log loses
nothing in every run in which no call for another draft stores its list between a
call's load and its store, and what a call loaded was decrypted.
-/

import OpenSocial.Library.History
import OpenSocial.Common.Util

namespace OpenSocial.Web

open Library

/-! ### Drafts -/

inductive DraftState where
  | draft
  | submitting
  | failed
  | unknown
  deriving DecidableEq, Repr

structure DraftEdit where
  postId : String
  previousVersion : String
  versionNumber : ℕ
  deriving DecidableEq, Repr

structure DraftRecord where
  id : String
  account : String
  text : String
  audience : ℕ
  mediaUrls : List String
  replyTo : Option String
  edit : Option DraftEdit
  createdAt : ℕ
  updatedAt : ℕ
  attemptId : String
  state : DraftState
  lastError : Option String
  deriving DecidableEq, Repr

/-- What a call did, once it has stored its list. -/
inductive DraftCall where
  | save (draft : DraftRecord)
  | remove (id : String)
  deriving DecidableEq, Repr

namespace DraftCall

def id : DraftCall → String
  | .save draft => draft.id
  | .remove id => id

/-- What the call leaves of its draft. -/
def leaves : DraftCall → List DraftRecord
  | .save draft => [draft]
  | .remove _ => []

end DraftCall

/-- The records of one draft. -/
def draftsOf (drafts : List DraftRecord) (id : String) : List DraftRecord :=
  drafts.filter fun draft => draft.id = id

/-! ### Operations -/

/-- An error, and whether it is a transaction of unknown outcome. -/
structure DraftFailure where
  message : String
  outcomeUnknown : Bool
  deriving DecidableEq, Repr

/-- What `publishDraft` uses of a publish plan. -/
structure DraftPlan where
  postId : String
  friends : Bool
  epoch : ℕ
  epochKey : Option Bytes
  recipients : List String
  deriving DecidableEq, Repr

/-- What the operations wait for: the storage, the cipher, the chain, the plan, the submission and
the key store; and the clock. -/
inductive DraftRequest where
  | get
  | decrypt
  | encrypt
  | set (call : DraftCall) (drafts : List DraftRecord)
  | findExistingPost (account attemptId : String)
  | plan (draft : DraftRecord)
  | submit (plan : DraftPlan)
  | putKey (plan : DraftPlan)
  | addRecipients (plan : DraftPlan)
  | now

abbrev DraftAnswer : DraftRequest → Type
  | .get => Except DraftFailure (Option (List DraftRecord))
  | .decrypt => Bool
  | .encrypt => Except DraftFailure Unit
  | .set _ _ => Except DraftFailure Unit
  | .findExistingPost _ _ => Except DraftFailure (Option String)
  | .plan _ => Except DraftFailure DraftPlan
  | .submit _ => Except DraftFailure String
  | .putKey _ => Except DraftFailure Unit
  | .addRecipients _ => Except DraftFailure Unit
  | .now => ℕ

abbrev DraftAction := Program DraftRequest DraftAnswer DraftFailure

/-- `EncryptedStore.load` of the drafts. -/
def loadDrafts : DraftAction (Option (List DraftRecord)) := do
  let record ← Program.query .get id
  match record with
  | none => pure none
  | some drafts => do
    let opened ← Program.query .decrypt .ok
    pure (if opened then some drafts else none)

def listDrafts : DraftAction (List DraftRecord) := do
  let file ← loadDrafts
  pure (file.getD [])

/-- `EncryptedStore.save` of the drafts, in one of the calls below. -/
def storeDrafts (call : DraftCall) (drafts : List DraftRecord) : DraftAction Unit := do
  Program.query .encrypt id
  Program.query (.set call drafts) id

def saveDraft (draft : DraftRecord) : DraftAction Unit := do
  let drafts ← listDrafts
  storeDrafts (.save draft) (drafts.filter (fun other => other.id ≠ draft.id) ++ [draft])

def removeDraft (id : String) : DraftAction Unit := do
  let drafts ← listDrafts
  storeDrafts (.remove id) (drafts.filter fun other => other.id ≠ id)

/-- What is remembered of the epoch key after a friends post. -/
def rememberKey (built : DraftPlan) : DraftAction Unit :=
  if built.friends then
    if built.epochKey.isSome then Program.query (.putKey built) id
    else if built.recipients.isEmpty then pure ()
    else Program.query (.addRecipients built) id
  else pure ()

/-- The `try` block of `publishDraft`. -/
def submitDraft (draft : DraftRecord) (built : DraftPlan) : DraftAction String := do
  let transaction ← Program.query (.submit built) id
  rememberKey built
  removeDraft draft.id
  pure transaction

/-- The post an earlier attempt made, if the draft is a retry. -/
def existingPost (draft : DraftRecord) : DraftAction (Option String) :=
  if draft.state ≠ .draft ∧ draft.edit = none then
    Program.query (.findExistingPost draft.account draft.attemptId) id
  else pure none

/-- `prepared ?? (await planDraft(deps, request))`. -/
def builtPlan (draft : DraftRecord) : Option DraftPlan → DraftAction DraftPlan
  | some built => pure built
  | none => Program.query (.plan draft) id

/-- What `publishDraft` does after its `try` block; a failure is kept with the draft. -/
def concludeDraft (draft : DraftRecord) (built : DraftPlan) :
    Except DraftFailure String → DraftAction (String × Option String)
  | .ok transaction => pure (built.postId, some transaction)
  | .error failure => do
    let time ← Program.query .now .ok
    saveDraft
      { draft with
        updatedAt := time
        state := if failure.outcomeUnknown then .unknown else .failed
        lastError := some failure.message }
    .fail failure

/-- `publishDraft`: the post id, and the transaction unless the post was there already. -/
def publishDraft (draft : DraftRecord) (prepared : Option DraftPlan) :
    DraftAction (String × Option String) := do
  let existing ← existingPost draft
  match existing with
  | some postId => do
    removeDraft draft.id
    pure (postId, none)
  | none => do
    let built ← builtPlan draft prepared
    let time ← Program.query .now .ok
    saveDraft { draft with state := .submitting, updatedAt := time }
    let result ← Program.attempt (submitDraft draft built)
    concludeDraft draft built result

/-! ### Concurrent calls -/

/-- The stored list, and the calls that have stored theirs, the last one first. -/
structure DraftWorld where
  stored : Option (List DraftRecord)
  completed : List DraftCall
  deriving DecidableEq, Repr

def draftWaits : DraftRequest → Bool
  | .now => false
  | _ => true

/-- How the requests of a call are served: the storage and the cipher may fail, and the answers of
the others may be any. -/
def draftServes (world : DraftWorld) :
    (request : DraftRequest) → DraftAnswer request → DraftWorld → Prop
  | .get, answer, after => after = world ∧ ∀ record, answer = .ok record → record = world.stored
  | .set call drafts, answer, after =>
    answer = .ok () ∧ after = ⟨some drafts, call :: world.completed⟩ ∨
      ∃ failure, answer = .error failure ∧ after = world
  | _, _, after => after = world

def draftRuntime : Runtime DraftRequest DraftAnswer DraftWorld where
  awaits := draftWaits
  serve := draftServes
  drift world later := later = world

/-- The programs that are started: the two calls, and publishing a draft. -/
def DraftStarted (program : DraftAction (Option String)) : Prop :=
  (∃ draft, program = (do saveDraft draft; pure none)) ∨
    (∃ id, program = (do removeDraft id; pure none)) ∨
    ∃ draft prepared, program = (do
      let outcome ← publishDraft draft prepared
      pure (some outcome.1))

/-- What the calls asked, the last first. -/
abbrev DraftHistory := History DraftRequest DraftAnswer

abbrev DraftEvent := Event DraftRequest DraftAnswer

/-- The log and its calls after a run from this stored list; every answer meets the condition on
what happened before. -/
def DraftsReached (meets : DraftHistory → DraftEvent → Prop) (initial : Option (List DraftRecord))
    (world : DraftWorld) : Prop :=
  ∃ history tasks, draftRuntime.Records meets DraftStarted ⟨initial, []⟩ (world, history) tasks

/-- What the log has for a draft: what the last call that finished left of it. -/
def lastLeft (initial : Option (List DraftRecord)) (completed : List DraftCall) (id : String) :
    List DraftRecord :=
  match completed.find? fun call => call.id = id with
  | some call => call.leaves
  | none => draftsOf (initial.getD []) id

/-- Nothing is lost: of every draft the stored list has what the last call left. -/
def DraftsKept (initial : Option (List DraftRecord)) (world : DraftWorld) : Prop :=
  ∀ id, draftsOf (world.stored.getD []) id = lastLeft initial world.completed id

/-- The list has, of every draft but that of the call, what is stored. -/
def SameOthers (world : DraftWorld) (call : DraftCall) (drafts : List DraftRecord) : Prop :=
  ∀ id, id ≠ call.id → draftsOf drafts id = draftsOf (world.stored.getD []) id

/-! ### Between a load and a store -/

def loads : DraftRequest → Bool
  | .get => true
  | _ => false

/-- The draft whose call stored its list. -/
def storedFor (event : DraftEvent) : Option String :=
  match event.request, event.answer with
  | .set call _, .ok _ => some call.id
  | _, _ => none

/-- What was loaded could not be decrypted, so the call goes on with no drafts. -/
def undecrypted (event : DraftEvent) : Bool :=
  match event.request, event.answer with
  | .decrypt, opened => !opened
  | _, _ => false

/-- Since the call last loaded the list, no call for another draft stored its own, and what it
loaded was decrypted. -/
def Untouched (history : DraftHistory) (task : ℕ) (own : String) : Prop :=
  ∀ earlier ∈ history.since task loads,
    (storedFor earlier = none ∨ storedFor earlier = some own) ∧
      ¬ (earlier.task = task ∧ undecrypted earlier = true)

instance (history : DraftHistory) (task : ℕ) (own : String) :
    Decidable (Untouched history task own) :=
  inferInstanceAs (Decidable (∀ earlier ∈ history.since task loads, _))

/-- A call stores its list only where nothing came between. -/
def Calm (history : DraftHistory) (event : DraftEvent) : Prop :=
  ∀ own, storedFor event = some own → Untouched history event.task own

/-! ### What the calls store -/

/-- What a call does, by the list it last loaded: it stores a list with what it leaves of its draft,
and with every other draft as it was loaded. -/
def draftProtocol :
    Runtime.Protocol DraftRequest DraftAnswer (Option (List DraftRecord)) where
  asks ghost request := match request with
    | .set call drafts => draftsOf drafts call.id = call.leaves ∧
        ∃ base, ghost = some base ∧ ∀ id, id ≠ call.id → draftsOf drafts id = draftsOf base id
    | _ => True
  gets _ _ _ := True
  next ghost request answer := match request, answer with
    | .get, .ok record => some (record.getD [])
    | .get, .error _ => none
    | .decrypt, false => some []
    | _, _ => ghost

theorem draftsOf_others (drafts : List DraftRecord) (id : String) :
    draftsOf (drafts.filter fun other => other.id ≠ id) id = [] := by
  unfold draftsOf
  rw [List.filter_filter, List.filter_eq_nil_iff]
  intro draft _ both
  rw [Bool.and_eq_true, decide_eq_true_eq, decide_eq_true_eq] at both
  exact both.2 both.1

theorem draftsOf_saved (drafts : List DraftRecord) (draft : DraftRecord) :
    draftsOf (drafts.filter (fun other => other.id ≠ draft.id) ++ [draft]) draft.id = [draft] := by
  have rest := draftsOf_others drafts draft.id
  unfold draftsOf at rest ⊢
  rw [List.filter_append, rest, List.nil_append, List.filter_singleton, decide_eq_true rfl]
  rfl

theorem draftsOf_filter {id own : String} (other : id ≠ own) (drafts : List DraftRecord) :
    draftsOf (drafts.filter fun draft => draft.id ≠ own) id = draftsOf drafts id := by
  unfold draftsOf
  rw [List.filter_filter]
  refine List.filter_congr fun draft _ => ?_
  by_cases same : draft.id = id
  · rw [same, decide_eq_true rfl, decide_eq_true other]
    rfl
  · rw [decide_eq_false same, Bool.false_and]

theorem draftsOf_saved_other {id : String} {draft : DraftRecord} (other : id ≠ draft.id)
    (drafts : List DraftRecord) :
    draftsOf (drafts.filter (fun other => other.id ≠ draft.id) ++ [draft]) id =
      draftsOf drafts id := by
  have rest := draftsOf_filter other drafts
  unfold draftsOf at rest ⊢
  rw [List.filter_append, rest, List.filter_singleton, decide_eq_false (Ne.symm other)]
  exact List.append_nil _

section Follows

/-- Whatever a program loaded before, and whatever it ends with, is fine. -/
def Orderly {Value : Type} (program : DraftAction Value) : Prop :=
  ∀ ghost, draftProtocol.Follows (fun _ _ => True) program ghost

variable {Value Result : Type}

theorem Orderly.seq {program : DraftAction Value} {next : Value → DraftAction Result}
    (first : Orderly program) (others : ∀ value, Orderly (next value)) :
    Orderly (program >>= next) := fun ghost =>
  Runtime.Protocol.Follows.seq (first ghost) (fun _ _ _ => trivial)
    fun value later _ => others value later

theorem orderly_pure (value : Value) : Orderly (pure value : DraftAction Value) :=
  fun _ => trivial

theorem orderly_query (request : DraftRequest)
    {read : DraftAnswer request → Except DraftFailure Value}
    (asks : ∀ ghost, draftProtocol.asks ghost request) : Orderly (Program.query request read) := by
  refine fun ghost => ⟨asks ghost, fun answer _ => ?_⟩
  dsimp only
  cases read answer with
  | ok value => exact trivial
  | error failure => exact trivial

/-- A list that was loaded is the one the call goes on with. -/
theorem follows_listDrafts (ghost : Option (List DraftRecord)) :
    draftProtocol.Follows (fun ending later => ∀ drafts, ending = .ok drafts → later = some drafts)
      listDrafts ghost := by
  refine ⟨trivial, fun record _ => ?_⟩
  cases record with
  | error failure => exact fun _ impossible => nomatch impossible
  | ok record =>
    cases record with
    | none => exact fun drafts ending => congrArg some (Except.ok.inj ending)
    | some stored =>
      refine ⟨trivial, fun opened _ => ?_⟩
      cases opened with
      | true => exact fun drafts ending => congrArg some (Except.ok.inj ending)
      | false => exact fun drafts ending => congrArg some (Except.ok.inj ending)

theorem follows_storeDrafts {call : DraftCall} {base drafts : List DraftRecord}
    (own : draftsOf drafts call.id = call.leaves)
    (others : ∀ id, id ≠ call.id → draftsOf drafts id = draftsOf base id) :
    draftProtocol.Follows (fun _ _ => True) (storeDrafts call drafts) (some base) := by
  refine Runtime.Protocol.Follows.query_seq trivial (fun _ _ _ _ => trivial) fun _ _ _ _ => ?_
  refine ⟨⟨own, base, rfl, others⟩, fun answer _ => ?_⟩
  cases answer with
  | ok value => exact trivial
  | error failure => exact trivial

theorem orderly_saveDraft (draft : DraftRecord) : Orderly (saveDraft draft) := fun ghost => by
  refine (follows_listDrafts ghost).seq (fun _ _ _ => trivial) fun drafts later loaded => ?_
  obtain rfl := loaded drafts rfl
  exact follows_storeDrafts (draftsOf_saved drafts draft)
    fun id other => draftsOf_saved_other other drafts

theorem orderly_removeDraft (id : String) : Orderly (removeDraft id) := fun ghost => by
  refine (follows_listDrafts ghost).seq (fun _ _ _ => trivial) fun drafts later loaded => ?_
  obtain rfl := loaded drafts rfl
  exact follows_storeDrafts (draftsOf_others drafts id) fun _ other => draftsOf_filter other drafts

theorem orderly_rememberKey (built : DraftPlan) : Orderly (rememberKey built) := by
  unfold rememberKey
  split
  · split
    · exact orderly_query (.putKey built) fun _ => trivial
    · split
      · exact orderly_pure ()
      · exact orderly_query (.addRecipients built) fun _ => trivial
  · exact orderly_pure ()

theorem orderly_submitDraft (draft : DraftRecord) (built : DraftPlan) :
    Orderly (submitDraft draft built) := by
  refine (orderly_query (.submit built) fun _ => trivial).seq fun transaction => ?_
  refine (orderly_rememberKey built).seq fun _ => ?_
  exact (orderly_removeDraft draft.id).seq fun _ => orderly_pure transaction

theorem orderly_existingPost (draft : DraftRecord) : Orderly (existingPost draft) := by
  unfold existingPost
  split
  · exact orderly_query (.findExistingPost draft.account draft.attemptId) fun _ => trivial
  · exact orderly_pure none

theorem orderly_concludeDraft (draft : DraftRecord) (built : DraftPlan)
    (result : Except DraftFailure String) : Orderly (concludeDraft draft built result) := by
  cases result with
  | ok transaction => exact orderly_pure _
  | error failure =>
    refine (orderly_query .now fun _ => trivial).seq fun time => ?_
    exact (orderly_saveDraft _).seq fun _ _ => trivial

theorem orderly_publishDraft (draft : DraftRecord) (prepared : Option DraftPlan) :
    Orderly (publishDraft draft prepared) := by
  refine (orderly_existingPost draft).seq fun existing => ?_
  cases existing with
  | some postId => exact (orderly_removeDraft draft.id).seq fun _ => orderly_pure _
  | none =>
    have planned : Orderly (builtPlan draft prepared) := by
      cases prepared with
      | some built => exact orderly_pure built
      | none => exact orderly_query (.plan draft) fun _ => trivial
    refine planned.seq fun built => ?_
    refine (orderly_query .now fun _ => trivial).seq fun time => ?_
    refine (orderly_saveDraft _).seq fun _ ghost => ?_
    exact Runtime.Protocol.Follows.attempt_seq (orderly_submitDraft draft built ghost)
      fun result later _ => orderly_concludeDraft draft built result later

theorem orderly_started {program : DraftAction (Option String)} (started : DraftStarted program) :
    Orderly program := by
  rcases started with ⟨draft, rfl⟩ | ⟨id, rfl⟩ | ⟨draft, prepared, rfl⟩
  · exact (orderly_saveDraft draft).seq fun _ => orderly_pure none
  · exact (orderly_removeDraft id).seq fun _ => orderly_pure none
  · exact (orderly_publishDraft draft prepared).seq fun _ => orderly_pure _

end Follows

/-! ### Runs -/

theorem lastLeft_completed (initial : Option (List DraftRecord)) (completed : List DraftCall)
    (call : DraftCall) (id : String) :
    lastLeft initial (call :: completed) id =
      if call.id = id then call.leaves else lastLeft initial completed id := by
  unfold lastLeft
  rw [List.find?_cons]
  by_cases own : call.id = id
  · rw [decide_eq_true own, if_pos own]
  · rw [decide_eq_false own, if_neg own]

/-- A call that stores its list keeps the log if it has, of every other draft, what is stored; and
otherwise it loses something. -/
theorem draftsKept_set {initial : Option (List DraftRecord)} {world : DraftWorld}
    (kept : DraftsKept initial world) {call : DraftCall} {drafts : List DraftRecord}
    (own : draftsOf drafts call.id = call.leaves) :
    DraftsKept initial ⟨some drafts, call :: world.completed⟩ ↔ SameOthers world call drafts := by
  have stored : ∀ id, (draftsOf drafts id = lastLeft initial (call :: world.completed) id ↔
      id = call.id ∨ draftsOf drafts id = draftsOf (world.stored.getD []) id) := by
    intro id
    rw [lastLeft_completed]
    by_cases same : call.id = id
    · rw [if_pos same, ← same, own]
      exact ⟨fun _ => Or.inl rfl, fun _ => rfl⟩
    · rw [if_neg same, kept id]
      exact ⟨Or.inr, fun either => either.resolve_left (Ne.symm same)⟩
  constructor
  · intro after id other
    exact ((stored id).mp (after id)).resolve_left other
  · intro fresh id
    by_cases same : id = call.id
    · exact (stored id).mpr (Or.inl same)
    · exact (stored id).mpr (Or.inr (fresh id same))

/-- A draft is as the call loaded it, unless a call for it stored its list meanwhile. -/
def Remembers (world : DraftWorld) (history : DraftHistory) (task : ℕ)
    (base : List DraftRecord) : Prop :=
  (∀ event ∈ history.since task loads, ¬ (event.task = task ∧ undecrypted event = true)) →
    ∀ id, (∀ event ∈ history.since task loads, storedFor event ≠ some id) →
      draftsOf base id = draftsOf (world.stored.getD []) id

/-- The log is kept, and every call knows it but for what was stored since. -/
structure DraftsInvariant (initial : Option (List DraftRecord)) (world : DraftWorld)
    (history : DraftHistory) (ghosts : List (Option (List DraftRecord))) : Prop where
  kept : DraftsKept initial world
  remembers : ∀ task base, ghosts[task]? = some (some base) → Remembers world history task base

/-- What a call remembers stays so after an answer, unless it was the call that loaded. -/
theorem Remembers.cons {world after : DraftWorld} {history : DraftHistory} {task : ℕ}
    {base : List DraftRecord} (remembers : Remembers world history task base) {event : DraftEvent}
    (other : event.task ≠ task ∨ loads event.request = false)
    (stored : ∀ id, storedFor event ≠ some id →
      draftsOf (after.stored.getD []) id = draftsOf (world.stored.getD []) id) :
    Remembers after (event :: history) task base := by
  unfold Remembers
  rw [History.since_cons other]
  intro decrypted id unstored
  rw [stored id (unstored event List.mem_cons_self)]
  exact remembers (fun earlier member => decrypted earlier (List.mem_cons_of_mem _ member)) id
    fun earlier member => unstored earlier (List.mem_cons_of_mem _ member)

/-- A call that asked something else than the list, and was answered, goes on from what it loaded,
or from nothing. -/
theorem remembers_next {world after : DraftWorld} {history : DraftHistory} {task : ℕ}
    {ghost : Option (List DraftRecord)} {request : DraftRequest} {answer : DraftAnswer request}
    (remembers : ∀ base, ghost = some base → Remembers world history task base)
    (served : draftServes world request answer after)
    (stored : ∀ id, storedFor ⟨task, request, answer⟩ ≠ some id →
      draftsOf (after.stored.getD []) id = draftsOf (world.stored.getD []) id)
    (base : List DraftRecord) (next : draftProtocol.next ghost request answer = some base) :
    Remembers after (⟨task, request, answer⟩ :: history) task base := by
  have still (other : loads request = false) (same : ghost = some base) :
      Remembers after (⟨task, request, answer⟩ :: history) task base :=
    (remembers base same).cons (.inr other) stored
  cases request with
  | get =>
    obtain ⟨rfl, answered⟩ := served
    cases answer with
    | error failure => cases next
    | ok record =>
      obtain rfl := answered record rfl
      obtain rfl := Option.some.inj next
      exact fun _ id _ => rfl
  | decrypt =>
    cases answer with
    | true => exact still rfl next
    | false =>
      intro decrypted
      rw [History.since_cons (.inr rfl)] at decrypted
      exact absurd ⟨rfl, rfl⟩ (decrypted _ List.mem_cons_self)
  | _ => exact still rfl next

theorem serves_draftsInvariant {initial : Option (List DraftRecord)} {index : ℕ}
    {world after : DraftWorld} {history : DraftHistory}
    {ghosts : List (Option (List DraftRecord))} {ghost : Option (List DraftRecord)}
    {request : DraftRequest} {answer : DraftAnswer request}
    (holds : DraftsInvariant initial world history ghosts) (found : ghosts[index]? = some ghost)
    (asks : draftProtocol.asks ghost request) (calm : Calm history ⟨index, request, answer⟩)
    (served : draftServes world request answer after) :
    DraftsInvariant initial after (⟨index, request, answer⟩ :: history)
      (ghosts.set index (draftProtocol.next ghost request answer)) := by
  have own : ∀ base, ghost = some base → Remembers world history index base := by
    rintro base rfl
    exact holds.remembers index base found
  obtain ⟨kept, stored⟩ : DraftsKept initial after ∧
      ∀ id, storedFor ⟨index, request, answer⟩ ≠ some id →
        draftsOf (after.stored.getD []) id = draftsOf (world.stored.getD []) id := by
    cases request with
    | set call drafts =>
      rcases served with ⟨rfl, rfl⟩ | ⟨failure, rfl, rfl⟩
      · obtain ⟨left, base, rfl, loaded⟩ := asks
        have untouched := calm call.id rfl
        have same : SameOthers world call drafts := by
          intro id other
          rw [loaded id other]
          refine own base rfl (fun earlier member => (untouched earlier member).2) id
            fun earlier member => ?_
          rcases (untouched earlier member).1 with none | some
          · rw [none]
            exact nofun
          · rw [some]
            exact fun equal => other (Option.some.inj equal).symm
        exact ⟨(draftsKept_set holds.kept left).mpr same,
          fun id unstored => same id fun equal => unstored (equal ▸ rfl)⟩
      · exact ⟨holds.kept, fun _ _ => rfl⟩
    | get =>
      obtain ⟨rfl, _⟩ := served
      exact ⟨holds.kept, fun _ _ => rfl⟩
    | _ =>
      obtain rfl := served
      exact ⟨holds.kept, fun _ _ => rfl⟩
  refine ⟨kept, fun task base present => ?_⟩
  by_cases same : index = task
  · subst same
    rw [List.getElem?_set_self (List.getElem?_eq_some_iff.mp found).1] at present
    exact remembers_next own served stored base (Option.some.inj present)
  · rw [List.getElem?_set_ne same] at present
    exact (holds.remembers task base present).cons (.inl same) stored

section Sample

def sampleDraft (id : String) (state : DraftState) : DraftRecord where
  id := id
  account := "account"
  text := "text"
  audience := 0
  mediaUrls := []
  replyTo := none
  edit := none
  createdAt := 1
  updatedAt := 1
  attemptId := id
  state := state
  lastError := none

/-- Serve a request; a list may be stored only where nothing came between, and the network does not
answer. -/
def draftAct (calm : Bool) (task : ℕ) (history : DraftHistory) (world : DraftWorld) :
    (request : DraftRequest) → DraftAnswer request × DraftWorld
  | .get => (.ok world.stored, world)
  | .decrypt => (true, world)
  | .encrypt => (.ok (), world)
  | .set call drafts =>
    if !calm || decide (Untouched history task call.id) then
      (.ok (), ⟨some drafts, call :: world.completed⟩)
    else (.error ⟨"stale", false⟩, world)
  | .findExistingPost _ _ => (.ok none, world)
  | .plan _ => (.error ⟨"offline", false⟩, world)
  | .submit _ => (.error ⟨"outcome unknown", true⟩, world)
  | .putKey _ => (.ok (), world)
  | .addRecipients _ => (.ok (), world)
  | .now => (1, world)

theorem draftAct_serves (calm : Bool) (task : ℕ) (history : DraftHistory) (world : DraftWorld)
    (request : DraftRequest) :
    draftServes world request (draftAct calm task history world request).1
      (draftAct calm task history world request).2 := by
  cases request with
  | get => exact ⟨rfl, fun record same => (Except.ok.inj same).symm⟩
  | set call drafts =>
    unfold draftAct
    dsimp only
    split
    · exact Or.inl ⟨rfl, rfl⟩
    · exact Or.inr ⟨_, rfl, rfl⟩
  | _ => rfl

theorem draftAct_calm (task : ℕ) (history : DraftHistory) (world : DraftWorld)
    (request : DraftRequest) :
    Calm history ⟨task, request, (draftAct true task history world request).1⟩ := by
  cases request with
  | set call drafts =>
    unfold draftAct
    dsimp only
    split
    · next untouched =>
      intro own stored
      obtain rfl := Option.some.inj stored
      exact of_decide_eq_true untouched
    · exact nofun
  | _ => exact nofun

/-- A call starts, or the call at an index goes on. -/
abbrev DraftStep := DraftAction (Option String) ⊕ ℕ

/-- What some steps make of an empty log. -/
def draftsPlayed (calm : Bool) (steps : List DraftStep) : DraftWorld :=
  (Runtime.playRecorded (draftAct calm) draftWaits ⟨none, []⟩ steps).1.1

/-- Playing some steps is a run, whose answers meet what all these answers meet. -/
theorem reached_draftsPlayed {calm : Bool} {meets : DraftHistory → DraftEvent → Prop}
    (met : ∀ task history world request,
      meets history ⟨task, request, (draftAct calm task history world request).1⟩)
    {steps : List DraftStep} (starts : ∀ program, .inl program ∈ steps → DraftStarted program) :
    DraftsReached meets none (draftsPlayed calm steps) := by
  have serving : ∀ (task : ℕ) (history : DraftHistory) (world : DraftWorld)
      (request : DraftRequest), draftRuntime.serve world request
        (draftAct calm task history world request).1
        (draftAct calm task history world request).2 := draftAct_serves calm
  exact ⟨_, _, Runtime.records_playRecorded serving
    (fun task history world request _ => met task history world request) starts
    (Runtime.permitsEach_all _ _)⟩

def savingDraft (id : String) : DraftStep :=
  .inl (do
    saveDraft (sampleDraft id .unknown)
    pure none)

theorem started_savingDraft {program : DraftAction (Option String)} {id : String}
    (saves : Sum.inl program = savingDraft id) : DraftStarted program :=
  Or.inl ⟨sampleDraft id .unknown, Sum.inl.inj saves⟩

/-- Two drafts are saved at once: both calls load the empty list, and the second one stores its
list over that of the first. -/
def racingSteps : List DraftStep :=
  [savingDraft "one", savingDraft "two", .inr 0, .inr 1, .inr 0, .inr 0, .inr 1, .inr 1]

/-- Two drafts are saved at once: the second call loads the list after the first one stored its
own. -/
def orderlySteps : List DraftStep :=
  [savingDraft "one", savingDraft "two", .inr 0, .inr 0, .inr 0, .inr 1, .inr 1, .inr 1, .inr 1]

end Sample

end OpenSocial.Web
