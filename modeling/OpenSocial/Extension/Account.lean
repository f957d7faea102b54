/-
This file proves when the extension keeps an existing account.

Creating and importing a vault look whether there is one, and completing a device
authorization reads it; each of them then waits for the cipher and stores a record,
whatever is stored by then. No account is lost in every run in which no vault is
stored between the look and the store of a creation, and none is removed between
those of a completion.
-/

import OpenSocial.Extension.Vault

namespace OpenSocial.Extension

open Library

/-! ### Calls -/

inductive AccountKind where
  | creating
  | completing
  | removing
  deriving DecidableEq, Repr

/-- What the calls ask: a number of their own, which is bookkeeping, what the vault asks, and to
remove the stored record. -/
inductive AccountRequest where
  | begin
  | vault (number : ℕ) (kind : AccountKind) (request : VaultRequest)
  | remove

abbrev AccountAnswer : AccountRequest → Type
  | .begin => ℕ
  | .vault _ _ request => VaultAnswer request
  | .remove => Unit

abbrev AccountAction (Value : Type) := Program AccountRequest AccountAnswer String Value

/-- An operation of the vault as part of a call. -/
def asPart {Value : Type} (number : ℕ) (kind : AccountKind) (operation : VaultAction Value) :
    AccountAction Value :=
  Program.within (AccountRequest.vault number kind) operation

/-- A call that is one operation of the vault. -/
def accountCall {Value : Type} (kind : AccountKind) (operation : VaultAction Value) :
    AccountAction Unit := do
  let number ← Program.query .begin .ok
  let _ ← asPart number kind operation
  pure ()

/-- Removes the vault. -/
def destroy : AccountAction Unit := do
  let number ← Program.query .begin .ok
  asPart number .removing (awaiting lock)
  Program.query .remove .ok
  asPart number .removing tick

/-- The calls that are started. -/
def AccountStarted (keys : KeyLibrary) (program : AccountAction Unit) : Prop :=
  (∃ passphrase, program = accountCall .creating (create keys passphrase)) ∨
    (∃ json passphrase, program = accountCall .creating (importVault keys json passphrase)) ∨
    (∃ input, program = accountCall .completing (completeDeviceAuthorization keys input)) ∨
    program = destroy

/-! ### Runs -/

/-- What became of the stored record. -/
inductive VaultWrite where
  | stored (number : ℕ) (kind : AccountKind) (record : VaultRecord)
  | removed
  deriving DecidableEq, Repr

namespace VaultWrite

def isRemoval : VaultWrite → Bool
  | .stored _ _ _ => false
  | .removed => true

end VaultWrite

/-- The stored record and the time. The rest records the run: how many calls began, what was written,
the last first, after how many writes each call looked at the record, and the sessions entered. -/
structure AccountWorld where
  record : Option VaultRecord
  time : ℕ
  calls : ℕ
  writes : List VaultWrite
  looks : List (ℕ × ℕ)
  entered : List (ℕ × AccountKind × UnlockedSession)

namespace AccountWorld

/-- An extension that has this vault. -/
def started (record : Option VaultRecord) (time : ℕ) : AccountWorld :=
  ⟨record, time, 0, [], [], []⟩

/-- What was written since a call looked at the record. -/
def since (world : AccountWorld) (number : ℕ) : List VaultWrite :=
  world.writes.take (world.writes.length - (world.looks.lookup number).getD 0)

end AccountWorld

def accountWaits : AccountRequest → Bool
  | .vault _ _ request => match request with
    | .tick => true
    | _ => false
  | _ => false

/-- How a request of the vault is served; what is in memory and in session storage may be any. -/
def vaultPartServes (number : ℕ) (kind : AccountKind) (world : AccountWorld) :
    (request : VaultRequest) → VaultAnswer request → AccountWorld → Prop
  | .now, answer, after => answer = world.time ∧ after = world
  | .record, answer, after => answer = world.record ∧
    after = { world with looks := (number, world.writes.length) :: world.looks }
  | .storeRecord record, _, after => after = { world with
      record := some record
      writes := .stored number kind record :: world.writes }
  | .enter session, _, after =>
    after = { world with entered := (number, kind, session) :: world.entered }
  | _, _, after => after = world

def accountServes (world : AccountWorld) :
    (request : AccountRequest) → AccountAnswer request → AccountWorld → Prop
  | .begin, number, after =>
    number = world.calls ∧ after = { world with calls := world.calls + 1 }
  | .vault number kind request, answer, after =>
    vaultPartServes number kind world request answer after
  | .remove, _, after =>
    after = { world with record := none, writes := .removed :: world.writes }

def accountRuntime : Runtime AccountRequest AccountAnswer AccountWorld where
  awaits := accountWaits
  serve := accountServes
  drift world later := ∃ time, world.time ≤ time ∧ later = { world with time := time }

/-- The world after a run from this stored record; every answer meets the condition. -/
def AccountReached
    (meets : AccountWorld → (request : AccountRequest) → AccountAnswer request → Prop)
    (keys : KeyLibrary) (initial : Option VaultRecord) (world : AccountWorld) : Prop :=
  ∃ time tasks, (accountRuntime.restrict meets).Reaches (AccountStarted keys)
    (.started initial time, []) (world, tasks)

/-- What is stored after some writes. -/
def recordOf (initial : Option VaultRecord) : List VaultWrite → Option VaultRecord
  | [] => initial
  | .stored _ _ record :: _ => some record
  | .removed :: _ => none

/-- What a call of this kind may store in place of what is stored: a creation the first vault, and a
completion one of the same account. -/
def MayStore (kind : AccountKind) (record : VaultRecord) (before : Option VaultRecord) : Prop :=
  match kind with
  | .creating => before = none
  | .completing => ∃ replaced, before = some replaced ∧ replaced.account = record.account
  | .removing => False

/-- No account is overwritten or brought back. -/
def AccountKept (initial : Option VaultRecord) : List VaultWrite → Prop
  | [] => True
  | .stored _ kind record :: before =>
    MayStore kind record (recordOf initial before) ∧ AccountKept initial before
  | .removed :: before => AccountKept initial before

/-- A creation stores its vault only if none was stored since it looked, and a completion only if
none was removed since. -/
def Undisturbed (world : AccountWorld) :
    (request : AccountRequest) → AccountAnswer request → Prop
  | .vault number .creating (.storeRecord _), _ =>
    ∀ write ∈ world.since number, write.isRemoval = true
  | .vault number .completing (.storeRecord _), _ =>
    ∀ write ∈ world.since number, write.isRemoval = false
  | _, _ => True

/-! ### Writes -/

section Writes

variable {initial : Option VaultRecord}

/-- Removals leave no vault where there was none. -/
theorem recordOf_removals {since before : List VaultWrite} (none : recordOf initial before = none)
    (removals : ∀ write ∈ since, write.isRemoval = true) :
    recordOf initial (since ++ before) = .none := by
  cases since with
  | nil => exact none
  | cons write since =>
    have removal := removals write List.mem_cons_self
    cases write with
    | stored number kind record => cases removal
    | removed => rfl

/-- While nothing is removed, the account stays. -/
theorem recordOf_stores {since before : List VaultWrite}
    (kept : AccountKept initial (since ++ before)) {record : VaultRecord}
    (held : recordOf initial before = some record)
    (stores : ∀ write ∈ since, write.isRemoval = false) :
    ∃ now, recordOf initial (since ++ before) = some now ∧ now.account = record.account := by
  induction since with
  | nil => exact ⟨record, held, rfl⟩
  | cons write since inductionHypothesis =>
    rw [List.forall_mem_cons] at stores
    cases write with
    | removed => cases stores.1
    | stored number kind stored =>
      obtain ⟨now, found, same⟩ := inductionHypothesis kept.2 stores.2
      have may : MayStore kind stored (recordOf initial (since ++ before)) := kept.1
      refine ⟨stored, rfl, ?_⟩
      rw [found] at may
      cases kind with
      | creating => cases may
      | completing =>
        obtain ⟨replaced, isNow, account⟩ := may
        rw [← account, ← Option.some.inj isNow, same]
      | removing => exact absurd may id

end Writes

/-! ### What a call asks -/

/-- How far an operation is: before its look, after it, or after its store. -/
inductive VaultStage where
  | before
  | looked (found : Option VaultRecord)
  | wrote (record : VaultRecord)

/-- A session is that of a record; that of a creation has its seed. -/
def SessionOf (kind : AccountKind) (record : VaultRecord) (session : UnlockedSession) : Prop :=
  kind = .creating →
    session.account = record.account ∧ session.ownerSeed = some record.blob.secrets.seed

/-- What an operation may ask. -/
def stageAsks (kind : AccountKind) (stage : VaultStage) : VaultRequest → Prop
  | .storeRecord record => ∃ found, stage = .looked found ∧ MayStore kind record found
  | .enter session => ∃ record, stage = .wrote record ∧ SessionOf kind record session
  | _ => True

def stageNext (stage : VaultStage) : (request : VaultRequest) → VaultAnswer request → VaultStage
  | .record, found => .looked found
  | .storeRecord record, _ => .wrote record
  | _, _ => stage

def operating (kind : AccountKind) : Runtime.Protocol VaultRequest VaultAnswer VaultStage where
  asks stage request := stageAsks kind stage request
  gets _ _ _ := True
  next := stageNext

section Follows

variable {Value Result : Type} {kind : AccountKind} {stage : VaultStage}
variable {post : Except String Result → VaultStage → Prop}

/-- An operation that may fail at any time. -/
abbrev Goes (kind : AccountKind) (operation : VaultAction Value) (stage : VaultStage) : Prop :=
  (operating kind).Follows (fun _ _ => True) operation stage

theorem goes_lift {computation : Except String Value} {next : Value → VaultAction Result}
    (second : ∀ value, computation = .ok value → Goes kind (next value) stage) :
    Goes kind (Program.lift computation >>= next) stage :=
  Runtime.Protocol.Follows.lift_seq (fun _ _ => trivial) second

theorem goes_obtain {request : VaultRequest} {next : VaultAnswer request → VaultAction Result}
    (asks : stageAsks kind stage request)
    (second : ∀ answer, Goes kind (next answer) (stageNext stage request answer)) :
    Goes kind (obtainValue request >>= next) stage :=
  ⟨asks, fun answer _ => second answer⟩

theorem goes_issue {request : VaultRequest} {next : VaultAnswer request → VaultAction Result}
    (asks : stageAsks kind stage request)
    (second : ∀ answer, Goes kind (next answer) (stageNext stage request answer)) :
    Goes kind (issue request >>= next) stage :=
  ⟨asks, fun answer _ => ⟨trivial, fun _ _ => second answer⟩⟩

/-- Waiting for an operation, first in a sequence. -/
theorem goes_awaiting_seq {operation : VaultAction Value} {next : Value → VaultAction Result}
    {middle : Except String Value → VaultStage → Prop}
    (first : (operating kind).Follows middle operation stage)
    (second : ∀ value later, middle (.ok value) later → Goes kind (next value) later) :
    Goes kind (awaiting operation >>= next) stage := by
  have awaited : (operating kind).Follows
      (fun ending later => ∀ value, ending = .ok value → middle (.ok value) later)
      (awaiting operation) stage := by
    refine Runtime.Protocol.Follows.attempt_seq first fun ending later ends => ?_
    cases ending with
    | ok value => exact ⟨trivial, fun _ _ other same => Except.ok.inj same ▸ ends⟩
    | error message => exact ⟨trivial, fun _ _ other same => by cases same⟩
  exact awaited.seq (fun _ _ _ => trivial) fun value later ends => second value later (ends value rfl)

theorem goes_awaiting {operation : VaultAction Value} (first : Goes kind operation stage) :
    Goes kind (awaiting operation) stage := by
  refine Runtime.Protocol.Follows.attempt_seq first fun ending later _ => ?_
  cases ending with
  | ok value => exact ⟨trivial, fun _ _ => trivial⟩
  | error message => exact ⟨trivial, fun _ _ => trivial⟩

/-- Waiting for a computation that asks nothing. -/
theorem goes_lifted {computation : Except String Value} {next : Value → VaultAction Result}
    (second : ∀ value, computation = .ok value → Goes kind (next value) stage) :
    Goes kind (awaiting (Program.lift computation) >>= next) stage := by
  have lifted : (operating kind).Follows
      (fun ending later => ending = computation ∧ later = stage)
      (Program.lift computation : VaultAction Value) stage := by
    cases computation with
    | ok value => exact ⟨rfl, rfl⟩
    | error message => exact ⟨rfl, rfl⟩
  refine goes_awaiting_seq lifted fun value later ends => ?_
  obtain ⟨same, rfl⟩ := ends
  exact second value same.symm

/-- An operation that looks at the record. -/
theorem goes_record {next : Option VaultRecord → VaultAction Result}
    (second : ∀ found, Goes kind (next found) (.looked found)) :
    Goes kind (awaiting record >>= next) stage := by
  have looks : (operating kind).Follows
      (fun ending later => ∀ found, ending = .ok found → later = .looked found) record stage :=
    ⟨trivial, fun found _ => ⟨trivial, fun _ _ other same => Except.ok.inj same ▸ rfl⟩⟩
  refine goes_awaiting_seq looks fun found later ends => ?_
  rw [ends found rfl]
  exact second found

theorem goes_enter {session : UnlockedSession} (asks : stageAsks kind stage (.enter session)) :
    Goes kind (awaiting (enter session)) stage :=
  goes_awaiting ⟨asks, fun _ _ => ⟨trivial, fun _ _ => trivial⟩⟩

theorem lockVault_ok {secrets : VaultSecrets} {passphrase : String} {blob : VaultBlob}
    (locked : lockVault secrets passphrase = .ok blob) : blob = ⟨secrets, passphrase⟩ := by
  unfold lockVault at locked
  split at locked
  · cases locked
  · split at locked
    · cases locked
    · exact (Except.ok.inj locked).symm

theorem goes_storeOwnerVault (keys : KeyLibrary) (seed : Bytes) (keyVersion : ℕ)
    (passphrase : String) :
    Goes .creating (storeOwnerVault keys seed keyVersion passphrase) (.looked none) := by
  refine goes_obtain trivial fun deviceSecret => ?_
  refine goes_lifted fun blob locked => ?_
  refine goes_obtain trivial fun time => ?_
  refine goes_issue ⟨none, rfl, rfl⟩ fun _ => ?_
  refine goes_enter ⟨_, rfl, fun _ => ⟨rfl, ?_⟩⟩
  rw [lockVault_ok locked]

theorem none_of_check {existing : Option VaultRecord}
    (checked : (if existing.isSome then .error ALREADY_HELD else .ok () : Except String Unit) =
      .ok ()) : existing = none := by
  cases existing with
  | none => rfl
  | some record => cases checked

/-- A creation stores a vault only if it found none. -/
theorem goes_create (keys : KeyLibrary) (passphrase : String) :
    Goes .creating (create keys passphrase) .before := by
  refine goes_lift fun _ _ => ?_
  refine goes_record fun existing => ?_
  refine goes_lift fun _ checked => ?_
  rw [none_of_check checked]
  refine goes_obtain trivial fun seed => ?_
  exact goes_awaiting (goes_storeOwnerVault keys seed 1 passphrase)

theorem goes_importVault (keys : KeyLibrary) (json passphrase : String) :
    Goes .creating (importVault keys json passphrase) .before := by
  refine goes_lift fun _ _ => ?_
  refine goes_record fun existing => ?_
  refine goes_lift fun _ checked => ?_
  rw [none_of_check checked]
  refine goes_lift fun imported _ => ?_
  exact goes_awaiting (goes_storeOwnerVault keys imported.1 imported.2 passphrase)

/-- A completion stores a vault of the account it found. -/
theorem goes_completeDeviceAuthorization (keys : KeyLibrary) (input : DeviceAuthorization) :
    Goes .completing (completeDeviceAuthorization keys input) .before := by
  refine goes_record fun found => ?_
  refine goes_lift fun record present => ?_
  have held : found = some record := by
    cases found with
    | none => cases present
    | some other => exact congrArg some (Except.ok.inj present)
  subst held
  refine goes_lifted fun secrets _ => ?_
  refine goes_lift fun _ _ => ?_
  refine goes_obtain trivial fun time => ?_
  refine goes_lifted fun blob _ => ?_
  refine goes_issue ⟨some record, rfl, record, rfl, rfl⟩ fun _ => ?_
  refine goes_lifted fun opened _ => ?_
  refine goes_obtain trivial fun entered => ?_
  refine goes_lift fun session _ => ?_
  exact goes_enter ⟨_, rfl, fun other => by cases other⟩

end Follows

/-! ### Calls that follow the protocol -/

/-- A call, with its number once it has one. -/
structure AccountGhost where
  kind : AccountKind
  number : Option ℕ
  stage : VaultStage

def callAsks (ghost : AccountGhost) : AccountRequest → Prop
  | .begin => ghost.number = none ∧ ghost.stage = .before
  | .vault number kind request =>
    ghost.number = some number ∧ ghost.kind = kind ∧ stageAsks kind ghost.stage request
  | .remove => True

def callNext (ghost : AccountGhost) :
    (request : AccountRequest) → AccountAnswer request → AccountGhost
  | .begin, number => { ghost with number := some number }
  | .vault _ _ request, answer => { ghost with stage := stageNext ghost.stage request answer }
  | .remove, _ => ghost

def calling : Runtime.Protocol AccountRequest AccountAnswer AccountGhost where
  asks := callAsks
  gets _ _ _ := True
  next := callNext

theorem follows_asPart {Value : Type} (number : ℕ) {kind : AccountKind}
    {operation : VaultAction Value} {stage : VaultStage} (goes : Goes kind operation stage) :
    calling.Follows (fun _ later => later.kind = kind ∧ later.number = some number)
      (asPart number kind operation) ⟨kind, some number, stage⟩ := by
  have wide := @Runtime.Protocol.Follows.within VaultRequest String Value VaultStage AccountRequest
    AccountGhost AccountAnswer (AccountRequest.vault number kind) (operating kind) calling
    (fun stage => ⟨kind, some number, stage⟩) (fun stage request asks => ⟨rfl, rfl, asks⟩)
    (fun _ _ _ _ => trivial) (fun _ _ _ => rfl) _ _ _ goes
  refine wide.weaken fun ending later ends => ?_
  obtain ⟨last, rfl, _⟩ := ends
  exact ⟨rfl, rfl⟩

theorem follows_accountCall {Value : Type} {kind : AccountKind} {operation : VaultAction Value}
    (goes : Goes kind operation .before) :
    calling.Follows (fun _ _ => True) (accountCall kind operation) ⟨kind, none, .before⟩ := by
  refine ⟨⟨rfl, rfl⟩, fun number _ => ?_⟩
  exact (follows_asPart number goes).seq (fun _ _ _ => trivial) fun _ _ _ => trivial

theorem follows_destroy :
    calling.Follows (fun _ _ => True) destroy ⟨.removing, none, .before⟩ := by
  refine ⟨⟨rfl, rfl⟩, fun number _ => ?_⟩
  have locks : Goes .removing (awaiting lock) .before :=
    goes_awaiting ⟨trivial, fun _ _ => ⟨trivial, fun _ _ => trivial⟩⟩
  refine (follows_asPart number locks).seq (fun _ _ _ => trivial) fun _ later ends => ?_
  refine ⟨trivial, fun _ _ => ?_⟩
  obtain ⟨kind, known, stage⟩ := later
  obtain ⟨rfl, rfl⟩ := ends
  exact ⟨⟨rfl, rfl, trivial⟩, fun _ _ => trivial⟩

theorem follows_started {keys : KeyLibrary} {program : AccountAction Unit}
    (started : AccountStarted keys program) :
    ∃ kind, calling.Follows (fun _ _ => True) program ⟨kind, none, .before⟩ := by
  rcases started with ⟨passphrase, rfl⟩ | ⟨json, passphrase, rfl⟩ | ⟨input, rfl⟩ | rfl
  · exact ⟨.creating, follows_accountCall (goes_create keys passphrase)⟩
  · exact ⟨.creating, follows_accountCall (goes_importVault keys json passphrase)⟩
  · exact ⟨.completing, follows_accountCall (goes_completeDeviceAuthorization keys input)⟩
  · exact ⟨.removing, follows_destroy⟩

/-! ### Runs -/

/-- The numbers that calls have are given out, and no two have the same. -/
structure Numbered (calls : ℕ) (numbers : List (Option ℕ)) : Prop where
  given : ∀ number, some number ∈ numbers → number < calls
  distinct : ∀ (first second number : ℕ), numbers[first]? = some (some number) →
    numbers[second]? = some (some number) → first = second

/-- A call is where its stage says. -/
def Stands (initial : Option VaultRecord) (writes : List VaultWrite) (looks : List (ℕ × ℕ))
    (ghost : AccountGhost) : Prop :=
  match ghost.stage with
  | .before => True
  | .looked found => ∃ number place, ghost.number = some number ∧
    looks.lookup number = some place ∧ place ≤ writes.length ∧
      found = recordOf initial (writes.drop (writes.length - place))
  | .wrote record => ∃ number, ghost.number = some number ∧
    .stored number ghost.kind record ∈ writes

/-- What holds of the record and of the calls throughout a run. -/
structure Accounted (initial : Option VaultRecord) (world : AccountWorld)
    (ghosts : List AccountGhost) : Prop where
  record : world.record = recordOf initial world.writes
  kept : AccountKept initial world.writes
  numbered : Numbered world.calls (ghosts.map AccountGhost.number)
  stands : ∀ ghost ∈ ghosts, Stands initial world.writes world.looks ghost
  entered : ∀ entry ∈ world.entered, ∃ record,
    .stored entry.1 entry.2.1 record ∈ world.writes ∧ SessionOf entry.2.1 record entry.2.2

section Calls

variable {initial : Option VaultRecord} {writes : List VaultWrite} {looks : List (ℕ × ℕ)}
variable {ghosts : List AccountGhost} {index : ℕ} {ghost next : AccountGhost}

theorem Numbered.begin {calls : ℕ} {numbers : List (Option ℕ)} (numbered : Numbered calls numbers)
    (index : ℕ) : Numbered (calls + 1) (numbers.set index (some calls)) where
  given := by
    intro number member
    rcases List.mem_or_eq_of_mem_set member with old | new
    · exact Nat.lt_succ_of_lt (numbered.given number old)
    · rw [Option.some.inj new]
      exact Nat.lt_succ_self calls
  distinct := by
    have fresh : ∀ (place number : ℕ), (numbers.set index (some calls))[place]? =
        some (some number) → place = index ∧ number = calls ∨
          place ≠ index ∧ numbers[place]? = some (some number) := by
      intro place number found
      by_cases same : index = place
      · subst same
        obtain ⟨inside, whole⟩ := List.getElem?_eq_some_iff.mp found
        rw [List.getElem_set_self] at whole
        exact Or.inl ⟨rfl, (Option.some.inj whole).symm⟩
      · rw [List.getElem?_set_ne same] at found
        exact Or.inr ⟨Ne.symm same, found⟩
    intro first second number one other
    rcases fresh first number one with ⟨rfl, rfl⟩ | ⟨_, old⟩
    · rcases fresh second _ other with ⟨rfl, _⟩ | ⟨_, older⟩
      · rfl
      · exact absurd (numbered.given _ (List.mem_of_getElem? older)) (lt_irrefl _)
    · rcases fresh second number other with ⟨rfl, rfl⟩ | ⟨_, older⟩
      · exact absurd (numbered.given _ (List.mem_of_getElem? old)) (lt_irrefl _)
      · exact numbered.distinct first second number old older

theorem Numbered.append {calls : ℕ} {numbers : List (Option ℕ)} (numbered : Numbered calls numbers) :
    Numbered calls (numbers ++ [none]) := by
  have old : ∀ (place number : ℕ), (numbers ++ [none])[place]? = some (some number) →
      numbers[place]? = some (some number) := by
    intro place number found
    by_cases inside : place < numbers.length
    · rwa [List.getElem?_append_left inside] at found
    · rw [List.getElem?_append_right (not_lt.mp inside)] at found
      have member := List.mem_of_getElem? found
      cases List.mem_singleton.mp member
  refine ⟨fun number member => ?_, fun first second number one other => ?_⟩
  · rcases List.mem_append.mp member with before | new
    · exact numbered.given number before
    · cases List.mem_singleton.mp new
  · exact numbered.distinct first second number (old first number one) (old second number other)

theorem map_number_set (found : ghosts[index]? = some ghost) (same : next.number = ghost.number) :
    (ghosts.set index next).map AccountGhost.number = ghosts.map AccountGhost.number := by
  obtain ⟨inside, rfl⟩ := List.getElem?_eq_some_iff.mp found
  rw [List.map_set, same]
  have long : index < (ghosts.map AccountGhost.number).length := by rwa [List.length_map]
  have whole := List.set_getElem_self long
  rwa [List.getElem_map] at whole

theorem mem_set_cases {other : AccountGhost} (member : other ∈ ghosts.set index next) :
    other = next ∨ ∃ place, place ≠ index ∧ ghosts[place]? = some other := by
  obtain ⟨place, found⟩ := List.mem_iff_getElem?.mp member
  by_cases same : index = place
  · subst same
    obtain ⟨inside, whole⟩ := List.getElem?_eq_some_iff.mp found
    rw [List.getElem_set_self] at whole
    exact Or.inl whole.symm
  · rw [List.getElem?_set_ne same] at found
    exact Or.inr ⟨place, Ne.symm same, found⟩

/-- A later write leaves what was there when a call looked. -/
theorem Stands.later (stands : Stands initial writes looks ghost) (write : VaultWrite) :
    Stands initial (write :: writes) looks ghost := by
  unfold Stands at stands ⊢
  cases stage : ghost.stage with
  | before => exact trivial
  | looked found =>
    rw [stage] at stands
    obtain ⟨number, place, known, look, early, same⟩ := stands
    have more : (write :: writes).length - place = writes.length - place + 1 := by
      rw [List.length_cons]
      omega
    refine ⟨number, place, known, look, Nat.le_succ_of_le early, ?_⟩
    rw [more, List.drop_succ_cons]
    exact same
  | wrote record =>
    rw [stage] at stands
    obtain ⟨number, known, member⟩ := stands
    exact ⟨number, known, List.mem_cons_of_mem _ member⟩

theorem Stands.look_other (stands : Stands initial writes looks ghost) {number : ℕ}
    (other : ghost.number ≠ some number) (place : ℕ) :
    Stands initial writes ((number, place) :: looks) ghost := by
  unfold Stands at stands ⊢
  cases stage : ghost.stage with
  | before => exact trivial
  | looked found =>
    rw [stage] at stands
    obtain ⟨own, spot, known, look, early, same⟩ := stands
    have different : own ≠ number := fun equal => other (equal ▸ known)
    refine ⟨own, spot, known, ?_, early, same⟩
    rw [List.lookup_cons, beq_false_of_ne different]
    exact look
  | wrote record =>
    rw [stage] at stands
    exact stands

end Calls

section Steps

variable {initial : Option VaultRecord} {world after : AccountWorld} {ghosts : List AccountGhost}
variable {index : ℕ} {ghost : AccountGhost}

/-- A creation that is not disturbed stores the first vault, and a completion one of the account
that is stored. -/
theorem mayStore_undisturbed (accounted : Accounted initial world ghosts)
    (member : ghost ∈ ghosts) {number : ℕ} (known : ghost.number = some number)
    {record : VaultRecord} (asks : stageAsks ghost.kind ghost.stage (.storeRecord record))
    (calm : Undisturbed world (.vault number ghost.kind (.storeRecord record)) ()) :
    MayStore ghost.kind record world.record := by
  obtain ⟨found, stage, may⟩ := asks
  have stands := accounted.stands ghost member
  unfold Stands at stands
  rw [stage] at stands
  obtain ⟨own, place, same, look, early, was⟩ := stands
  have equal : own = number := Option.some.inj (same.symm.trans known)
  subst equal
  have since : world.since own = world.writes.take (world.writes.length - place) := by
    unfold AccountWorld.since
    rw [look]
    rfl
  have whole := List.take_append_drop (world.writes.length - place) world.writes
  rw [accounted.record]
  unfold Undisturbed at calm
  cases kind : ghost.kind with
  | creating =>
    rw [kind] at calm may
    dsimp only at calm
    rw [since] at calm
    have none := recordOf_removals (was.symm.trans may) calm
    rwa [whole] at none
  | completing =>
    rw [kind] at calm may
    dsimp only at calm
    rw [since] at calm
    obtain ⟨replaced, held, account⟩ := may
    have kept := accounted.kept
    rw [← whole] at kept
    obtain ⟨now, present, unchanged⟩ := recordOf_stores kept (was.symm.trans held) calm
    rw [whole] at present
    exact ⟨now, present, unchanged.trans account⟩
  | removing =>
    rw [kind] at may
    exact may

end Steps

/-! ### Steps -/

section Moves

variable {initial : Option VaultRecord} {world after : AccountWorld} {ghosts : List AccountGhost}
variable {index : ℕ} {ghost : AccountGhost}

/-- A call moves to another stage, with its number; what was written and looked at may have grown. -/
theorem Accounted.move (accounted : Accounted initial world ghosts)
    (found : ghosts[index]? = some ghost) {next : AccountGhost}
    (same : next.number = ghost.number) (calls : after.calls = world.calls)
    (record : after.record = recordOf initial after.writes)
    (kept : AccountKept initial after.writes)
    (own : Stands initial after.writes after.looks next)
    (others : ∀ place other, place ≠ index → ghosts[place]? = some other →
      Stands initial after.writes after.looks other)
    (entered : ∀ entry ∈ after.entered, ∃ record,
      .stored entry.1 entry.2.1 record ∈ after.writes ∧ SessionOf entry.2.1 record entry.2.2) :
    Accounted initial after (ghosts.set index next) where
  record := record
  kept := kept
  numbered := by
    rw [map_number_set found same, calls]
    exact accounted.numbered
  stands := by
    intro other member
    rcases mem_set_cases member with rfl | ⟨place, different, there⟩
    · exact own
    · exact others place other different there
  entered := entered

theorem Accounted.idle (accounted : Accounted initial world ghosts)
    (found : ghosts[index]? = some ghost) : Accounted initial world (ghosts.set index ghost) := by
  obtain ⟨inside, rfl⟩ := List.getElem?_eq_some_iff.mp found
  rwa [List.set_getElem_self inside]

theorem Accounted.others (accounted : Accounted initial world ghosts) (place : ℕ)
    {other : AccountGhost} (there : ghosts[place]? = some other) :
    Stands initial world.writes world.looks other :=
  accounted.stands other (List.mem_of_getElem? there)

/-- Another call has another number. -/
theorem Accounted.number_ne (accounted : Accounted initial world ghosts)
    (found : ghosts[index]? = some ghost) {number : ℕ} (known : ghost.number = some number)
    {place : ℕ} (different : place ≠ index) {other : AccountGhost}
    (there : ghosts[place]? = some other) : other.number ≠ some number := by
  intro same
  refine different (accounted.numbered.distinct place index number ?_ ?_)
  · rw [List.getElem?_map, there]
    exact congrArg some same
  · rw [List.getElem?_map, found]
    exact congrArg some known

theorem Accounted.vault (accounted : Accounted initial world ghosts)
    (found : ghosts[index]? = some ghost) {number : ℕ} (known : ghost.number = some number)
    {request : VaultRequest} {answer : VaultAnswer request}
    (asks : stageAsks ghost.kind ghost.stage request)
    (served : vaultPartServes number ghost.kind world request answer after)
    (calm : Undisturbed world (.vault number ghost.kind request) answer) :
    Accounted initial after (ghosts.set index
      { ghost with stage := stageNext ghost.stage request answer }) := by
  have member := List.mem_of_getElem? found
  cases request with
  | record =>
    obtain ⟨same, rfl⟩ := served
    refine accounted.move found rfl rfl accounted.record accounted.kept ?_ ?_ accounted.entered
    · refine ⟨number, world.writes.length, known, List.lookup_cons_self, le_rfl, ?_⟩
      rw [Nat.sub_self, List.drop_zero]
      exact same.trans accounted.record
    · intro place other different there
      exact (accounted.others place there).look_other
        (accounted.number_ne found known different there) _
  | storeRecord record =>
    obtain rfl := served
    have may := mayStore_undisturbed accounted member known asks calm
    rw [accounted.record] at may
    refine accounted.move found rfl rfl rfl ⟨may, accounted.kept⟩ ?_ ?_ ?_
    · exact ⟨number, known, List.mem_cons_self⟩
    · intro place other _ there
      exact (accounted.others place there).later _
    · intro entry entered
      obtain ⟨stored, written, session⟩ := accounted.entered entry entered
      exact ⟨stored, List.mem_cons_of_mem _ written, session⟩
  | enter session =>
    obtain rfl := served
    refine accounted.move found rfl rfl accounted.record accounted.kept
      (accounted.stands ghost member) (fun place other _ there => accounted.others place there) ?_
    intro entry entered
    rcases List.mem_cons.mp entered with rfl | before
    · obtain ⟨record, stage, isSession⟩ := asks
      have stands := accounted.stands ghost member
      unfold Stands at stands
      rw [stage] at stands
      obtain ⟨own, same, written⟩ := stands
      cases same.symm.trans known
      exact ⟨record, written, isSession⟩
    · exact accounted.entered entry before
  | now => exact served.2 ▸ accounted.idle found
  | _ => exact Eq.symm served ▸ accounted.idle found

/-- Every step of a run in which no call is disturbed keeps what holds of the record. -/
theorem Accounted.serves (accounted : Accounted initial world ghosts)
    (found : ghosts[index]? = some ghost) {request : AccountRequest}
    {answer : AccountAnswer request} (asks : callAsks ghost request)
    (served : accountServes world request answer after) (calm : Undisturbed world request answer) :
    Accounted initial after (ghosts.set index (callNext ghost request answer)) := by
  cases request with
  | begin =>
    obtain ⟨rfl, rfl⟩ := served
    refine ⟨accounted.record, accounted.kept, ?_, fun other member => ?_, accounted.entered⟩
    · rw [List.map_set]
      exact accounted.numbered.begin index
    · rcases mem_set_cases member with rfl | ⟨place, _, there⟩
      · unfold Stands callNext
        rw [asks.2]
        exact trivial
      · exact accounted.others place there
  | vault number kind request =>
    obtain ⟨known, rfl, asked⟩ := asks
    exact accounted.vault found known asked served calm
  | remove =>
    obtain rfl := served
    refine accounted.move found rfl rfl rfl accounted.kept ?_ ?_ ?_
    · exact (accounted.stands ghost (List.mem_of_getElem? found)).later _
    · intro place other _ there
      exact (accounted.others place there).later _
    · intro entry entered
      obtain ⟨stored, written, session⟩ := accounted.entered entry entered
      exact ⟨stored, List.mem_cons_of_mem _ written, session⟩

theorem accounted_reached {keys : KeyLibrary} (reached : AccountReached Undisturbed keys initial world) :
    ∃ ghosts, Accounted initial world ghosts := by
  obtain ⟨time, tasks, run⟩ := reached
  have drifts : ∀ (world later : AccountWorld) (ghosts : List AccountGhost),
      Accounted initial world ghosts →
        (accountRuntime.restrict Undisturbed).drift world later →
          Accounted initial later ghosts := by
    rintro world later ghosts accounted ⟨now, _, rfl⟩
    exact ⟨accounted.record, accounted.kept, accounted.numbered, accounted.stands,
      accounted.entered⟩
  have serves : ∀ (index : ℕ) (world : AccountWorld) (ghosts : List AccountGhost)
      (ghost : AccountGhost) (request : AccountRequest) (answer : AccountAnswer request)
      (after : AccountWorld), Accounted initial world ghosts → ghosts[index]? = some ghost →
        calling.asks ghost request →
          (accountRuntime.restrict Undisturbed).serve world request answer after →
            calling.gets ghost request answer ∧
              Accounted initial after (ghosts.set index (calling.next ghost request answer)) :=
    fun _ _ _ _ _ _ _ accounted found asks served =>
      ⟨trivial, accounted.serves found asks served.1 served.2⟩
  have starts : ∀ (program : AccountAction Unit) (world : AccountWorld)
      (ghosts : List AccountGhost), AccountStarted keys program →
        Accounted initial world ghosts → ∃ ghost,
          calling.Follows (fun _ _ => True) program ghost ∧
            Accounted initial world (ghosts ++ [ghost]) := by
    intro program world ghosts started accounted
    obtain ⟨kind, follows⟩ := follows_started started
    refine ⟨_, follows, accounted.record, accounted.kept, ?_, fun ghost member => ?_,
      accounted.entered⟩
    · rw [List.map_append]
      exact accounted.numbered.append
    · rcases List.mem_append.mp member with old | new
      · exact accounted.stands ghost old
      · rw [List.mem_singleton.mp new]
        exact trivial
  have first : Accounted initial (.started initial time) [] :=
    ⟨rfl, trivial, ⟨fun _ member => (by cases member), fun _ _ _ found => (by cases found)⟩,
      fun _ member => (by cases member), fun _ member => (by cases member)⟩
  obtain ⟨ghosts, accounted, _⟩ :=
    Runtime.invariant_reached drifts serves starts first Runtime.Standing.nil run
  exact ⟨ghosts, accounted⟩

end Moves

/-! ### Accounts -/

section Kept

variable {initial : Option VaultRecord} {writes later before : List VaultWrite}

theorem AccountKept.earlier (kept : AccountKept initial (later ++ before)) :
    AccountKept initial before := by
  induction later with
  | nil => exact kept
  | cons write later inductionHypothesis =>
    cases write with
    | stored number kind record => exact inductionHypothesis kept.2
    | removed => exact inductionHypothesis kept

/-- Between two creations the vault was removed. -/
theorem removed_between {number other : ℕ} {record first : VaultRecord}
    (kept : AccountKept initial
      (.stored number .creating record :: (later ++ .stored other .creating first :: before))) :
    VaultWrite.removed ∈ later := by
  by_contra never
  have stores : ∀ write ∈ later, write.isRemoval = false := by
    intro write member
    cases write with
    | stored number kind record => rfl
    | removed => exact absurd member never
  obtain ⟨now, present, _⟩ := recordOf_stores kept.2 rfl stores
  have none : recordOf initial (later ++ .stored other .creating first :: before) = none := kept.1
  rw [present] at none
  cases none

/-- The account of a vault is the stored one until the vault is removed. -/
theorem held_since {number : ℕ} {kind : AccountKind} {record : VaultRecord}
    (kept : AccountKept initial (later ++ .stored number kind record :: before))
    (never : VaultWrite.removed ∉ later) :
    ∃ now, recordOf initial (later ++ .stored number kind record :: before) = some now ∧
      now.account = record.account := by
  refine recordOf_stores kept rfl fun write member => ?_
  cases write with
  | stored number kind record => rfl
  | removed => exact absurd member never

end Kept

/-- What becomes of created vaults: of two creations the later one comes after a removal, the
account of a created vault is stored until it is removed, and the seed a creation returns is the one
it stored. -/
structure CreatedKept (initial : Option VaultRecord) (world : AccountWorld) : Prop where
  once : ∀ later between before number other record first,
    world.writes = later ++ .stored number .creating record ::
      (between ++ .stored other .creating first :: before) → VaultWrite.removed ∈ between
  held : ∀ later before number record,
    world.writes = later ++ .stored number .creating record :: before →
      VaultWrite.removed ∉ later →
        ∃ now, world.record = some now ∧ now.account = record.account ∧
          (later = [] → now = record)
  returned : ∀ number session, (number, AccountKind.creating, session) ∈ world.entered →
    ∃ record, .stored number .creating record ∈ world.writes ∧
      session.account = record.account ∧ session.ownerSeed = some record.blob.secrets.seed

/-- In every run in which no vault is stored between the look and the store of a creation, and none
is removed between those of a completion, a creation stores a vault only when none is stored, and a
completion only in place of one of the same account. -/
theorem account_kept (keys : KeyLibrary) (initial : Option VaultRecord) (world : AccountWorld)
    (reached : AccountReached Undisturbed keys initial world) :
    AccountKept initial world.writes ∧ world.record = recordOf initial world.writes ∧
      CreatedKept initial world := by
  obtain ⟨ghosts, accounted⟩ := accounted_reached reached
  refine ⟨accounted.kept, accounted.record, ?_, ?_, ?_⟩
  · intro later between before number other record first whole
    have kept := accounted.kept
    rw [whole] at kept
    exact removed_between kept.earlier
  · intro later before number record whole never
    have kept := accounted.kept
    rw [whole] at kept
    obtain ⟨now, present, same⟩ := held_since kept never
    rw [accounted.record, whole]
    refine ⟨now, present, same, fun last => ?_⟩
    rw [last] at present
    exact (Option.some.inj present).symm
  · intro number session entered
    obtain ⟨record, written, isSession⟩ := accounted.entered _ entered
    obtain ⟨account, seed⟩ := isSession rfl
    exact ⟨record, written, account, seed⟩

/-! ### Sample runs -/

section Sample

instance decidableMayStore (kind : AccountKind) (record : VaultRecord)
    (before : Option VaultRecord) : Decidable (MayStore kind record before) :=
  match kind, before with
  | .creating, none => isTrue rfl
  | .creating, some _ => isFalse fun same => by cases same
  | .completing, none => isFalse fun found => by cases found.choose_spec.1
  | .completing, some replaced =>
    decidable_of_iff (replaced.account = record.account)
      ⟨fun same => ⟨replaced, rfl, same⟩, fun found => by
        obtain ⟨other, isOther, same⟩ := found
        cases isOther
        exact same⟩
  | .removing, _ => isFalse id

instance decidableAccountKept (initial : Option VaultRecord) :
    (writes : List VaultWrite) → Decidable (AccountKept initial writes)
  | [] => isTrue trivial
  | .stored _ kind record :: before =>
    have := decidableAccountKept initial before
    inferInstanceAs (Decidable (MayStore kind record (recordOf initial before) ∧
      AccountKept initial before))
  | .removed :: before => decidableAccountKept initial before

/-- What the condition on the interleaving asks, as a check. -/
def undisturbed (world : AccountWorld) : AccountRequest → Bool
  | .vault number .creating (.storeRecord _) => (world.since number).all VaultWrite.isRemoval
  | .vault number .completing (.storeRecord _) =>
    (world.since number).all fun write => !write.isRemoval
  | _ => true

theorem undisturbed_of_check {world : AccountWorld} {request : AccountRequest}
    (answer : AccountAnswer request) (checked : undisturbed world request = true) :
    Undisturbed world request answer := by
  unfold Undisturbed
  unfold undisturbed at checked
  split
  · exact List.all_eq_true.mp checked
  · intro write member
    have each := List.all_eq_true.mp checked write member
    rwa [Bool.not_eq_true'] at each
  · trivial

/-- Serve a request of the vault; the random value of a call is made of its number. -/
def vaultPartAct (number : ℕ) (kind : AccountKind) (world : AccountWorld) :
    (request : VaultRequest) → VaultAnswer request × AccountWorld
  | .opening => ((), world)
  | .closing _ => ((), world)
  | .now => (world.time, world)
  | .random => (List.replicate 32 (UInt8.ofNat number), world)
  | .tick => ((), world)
  | .record =>
    (world.record, { world with looks := (number, world.writes.length) :: world.looks })
  | .storeRecord record =>
    ((), { world with
      record := some record
      writes := .stored number kind record :: world.writes })
  | .cached => (none, world)
  | .session _ => (none, world)
  | .stored => (none, world)
  | .cacheStored _ => ((), world)
  | .enter session => (0, { world with entered := (number, kind, session) :: world.entered })
  | .clear => ((), world)
  | .storeActivity _ _ => ((), world)

def accountAct (world : AccountWorld) :
    (request : AccountRequest) → AccountAnswer request × AccountWorld
  | .begin => (world.calls, { world with calls := world.calls + 1 })
  | .vault number kind request => vaultPartAct number kind world request
  | .remove => ((), { world with record := none, writes := .removed :: world.writes })

theorem accountAct_serves (world : AccountWorld) (request : AccountRequest) :
    accountServes world request (accountAct world request).1 (accountAct world request).2 := by
  cases request with
  | begin => exact ⟨rfl, rfl⟩
  | remove => rfl
  | vault number kind request =>
    cases request with
    | now => exact ⟨rfl, rfl⟩
    | record => exact ⟨rfl, rfl⟩
    | _ => rfl

/-- Keys whose accounts tell the seeds of the first call from all others. -/
def accountKeys : KeyLibrary where
  account seed := if seed.head? = some 0 then "first" else "other"
  encryptionSecret _ _ := List.replicate 32 2
  encryptionPublicKey secret := secret
  address _ := "device"
  importIdentity _ := .error "not an identity file"

/-- The vault of an account with a device. -/
def heldVault : VaultRecord where
  account := "first"
  mode := .owner
  keyVersion := 1
  blob :=
    { secrets :=
        { seed := List.replicate 32 0
          keyVersion := 1
          account := "first"
          deviceSecret := some (List.replicate 32 3)
          deviceAddress := some "device"
          mode := some .owner
          device := none }
      passphrase := "passphrase" }
  device := none
  createdAt := 0
  updatedAt := 0

def heldAuthorization : DeviceAuthorization where
  passphrase := "passphrase"
  keepOwnerSeed := true
  device := ⟨"device", 15, "0", 0, none, "browser"⟩

/-- The calls of the sample runs. -/
inductive SampleCall where
  | create
  | complete
  | destroy

def SampleCall.program : SampleCall → AccountAction Unit
  | .create => accountCall .creating (Extension.create accountKeys "passphrase")
  | .complete => accountCall .completing (completeDeviceAuthorization accountKeys heldAuthorization)
  | .destroy => Extension.destroy

theorem SampleCall.started (call : SampleCall) : AccountStarted accountKeys call.program := by
  cases call with
  | create => exact Or.inl ⟨_, rfl⟩
  | complete => exact Or.inr (Or.inr (Or.inl ⟨_, rfl⟩))
  | destroy => exact Or.inr (Or.inr (Or.inr rfl))

abbrev AccountTurn := Runtime.Turn AccountRequest AccountAnswer AccountWorld String Unit

/-- A call begins, or the one at an index goes on. -/
def accountTurn : SampleCall ⊕ ℕ → AccountTurn
  | .inl call => .start call.program
  | .inr index => .resume index accountAct

def accountPlayed (initial : Option VaultRecord) (turns : List (SampleCall ⊕ ℕ)) :
    AccountWorld × List (AccountAction Unit) :=
  Runtime.play accountWaits accountAct (.started initial 0, []) (turns.map accountTurn)

theorem accountReached_played (initial : Option VaultRecord) (turns : List (SampleCall ⊕ ℕ)) :
    AccountReached (fun _ _ _ => True) accountKeys initial (accountPlayed initial turns).1 := by
  refine ⟨0, (accountPlayed initial turns).2, ?_⟩
  have serving : ∀ (world : AccountWorld) (request : AccountRequest),
      (accountRuntime.restrict fun _ _ _ => True).serve world request
        (accountAct world request).1 (accountAct world request).2 :=
    fun world request => ⟨accountAct_serves world request, trivial⟩
  refine Runtime.reaches_play (fun world request _ => serving world request) _
    (fun turn member => ?_) _
  obtain ⟨step, _, rfl⟩ := List.mem_map.mp member
  cases step with
  | inl call => exact call.started
  | inr index => exact fun world request _ => serving world request

theorem accountReached_permitted (initial : Option VaultRecord) (turns : List (SampleCall ⊕ ℕ))
    (checked : Runtime.permitsPlay accountWaits accountAct undisturbed (.started initial 0, [])
      (turns.map accountTurn) = true) :
    AccountReached Undisturbed accountKeys initial (accountPlayed initial turns).1 := by
  refine ⟨0, (accountPlayed initial turns).2, ?_⟩
  have serving : ∀ (world : AccountWorld) (request : AccountRequest),
      (accountRuntime.restrict Undisturbed).awaits request = false →
        undisturbed world request = true →
          (accountRuntime.restrict Undisturbed).serve world request
            (accountAct world request).1 (accountAct world request).2 :=
    fun world request _ checked =>
      ⟨accountAct_serves world request, undisturbed_of_check _ checked⟩
  refine Runtime.reaches_permitted serving _ (fun turn member => ?_) _ checked
  obtain ⟨step, _, rfl⟩ := List.mem_map.mp member
  cases step with
  | inl call => exact call.started
  | inr index =>
    intro world request waits
    refine ⟨accountAct_serves world request, ?_⟩
    cases request with
    | begin => cases waits
    | remove => cases waits
    | vault number kind request =>
      cases request with
      | tick => cases kind <;> trivial
      | _ => cases waits

/-- A call goes on to its end. -/
def untilDone (index : ℕ) : List (SampleCall ⊕ ℕ) := List.replicate 10 (.inr index)

/-- Two creations at once, and a removal during a completion. -/
def twoCreations : List (SampleCall ⊕ ℕ) := [.inl .create, .inl .create] ++ untilDone 0 ++ untilDone 1

def removedCompletion : List (SampleCall ⊕ ℕ) :=
  [.inl .complete, .inl .destroy] ++ untilDone 1 ++ untilDone 0

/-- Both creations succeed and the account of the first is overwritten; a completion brings a
removed account back. -/
theorem account_overwritten :
    (¬ ∀ (keys : KeyLibrary) (initial : Option VaultRecord) (world : AccountWorld),
        AccountReached (fun _ _ _ => True) keys initial world → AccountKept initial world.writes) ∧
      (accountPlayed none twoCreations).1.entered.map (fun entry => entry.2.2.account) =
        ["other", "first"] ∧
      (accountPlayed none twoCreations).1.record.map VaultRecord.account = some "other" ∧
      (accountPlayed (some heldVault) removedCompletion).1.record.map VaultRecord.account =
        some "first" ∧
      ¬ AccountKept (some heldVault) (accountPlayed (some heldVault) removedCompletion).1.writes := by
  refine ⟨fun always => ?_, by decide +kernel, by decide +kernel, by decide +kernel,
    by decide +kernel⟩
  have kept := always _ _ _ (accountReached_played none twoCreations)
  exact absurd kept (by decide +kernel)

/-- One call after the other: a vault is created, its device is authorized, it is removed, and
another one is created. -/
def orderlyCalls : List (SampleCall ⊕ ℕ) :=
  [.inl .create] ++ untilDone 0 ++ [.inl .complete] ++ untilDone 1 ++ [.inl .destroy] ++
    untilDone 2 ++ [.inl .create] ++ untilDone 3

theorem account_kept_orderlyCalls :
    (accountPlayed none orderlyCalls).1.writes.length = 4 ∧
      CreatedKept none (accountPlayed none orderlyCalls).1 := by
  have kept := account_kept accountKeys none _ (accountReached_permitted none orderlyCalls
    (by decide +kernel))
  exact ⟨by decide +kernel, kept.2.2⟩

end Sample

end OpenSocial.Extension
