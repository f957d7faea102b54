/-
This file proves when locking the vault and dropping its seed are final.

A call that read a session may go on after the vault was locked or the seed was
dropped, and write back what it read. Both are final in every run in which nobody
takes the session or the seed away between a call's read and its write.
-/

import OpenSocial.Extension.Vault
import OpenSocial.Library.History

namespace OpenSocial.Extension

open Library

/-! ### Concurrent calls -/

/-- The sessions allocated so far, the one in memory, session storage, the stored record and the
clock. The rest records the run: how many calls that enter a session are under way, whether the
vault was locked with none of them under way and none started since, and whether a call that drops
the seed has finished. -/
structure VaultWorld where
  objects : List UnlockedSession
  cached : Option ℕ
  sessionArea : Option UnlockedSession
  record : Option VaultRecord
  time : ℕ
  entering : ℕ
  locked : Bool
  dropped : Bool

/-- A service worker that was just started. -/
def VaultWorld.started (record : Option VaultRecord) (sessionArea : Option UnlockedSession)
    (time : ℕ) : VaultWorld :=
  ⟨[], none, sessionArea, record, time, 0, false, false⟩

/-- The session in memory. -/
def VaultWorld.held (world : VaultWorld) : Option UnlockedSession :=
  world.cached.bind fun reference => world.objects[reference]?

/-- `this.cached = session`. -/
def VaultWorld.hold (world : VaultWorld) (session : UnlockedSession) : VaultWorld :=
  { world with objects := world.objects ++ [session], cached := some world.objects.length }

/-- Record activity in a session and store it. -/
def VaultWorld.touched (world : VaultWorld) (reference time : ℕ) : VaultWorld :=
  match world.objects[reference]? with
  | none => world
  | some session =>
    { world with
      objects := world.objects.set reference { session with lastActivity := time }
      sessionArea := some { session with lastActivity := time } }

def vaultWaits : VaultRequest → Bool
  | .tick => true
  | _ => false

/-- How the requests of a call are served; a random value may be any. -/
def vaultServes (world : VaultWorld) :
    (request : VaultRequest) → VaultAnswer request → VaultWorld → Prop
  | .opening, _, after =>
    after = { world with entering := world.entering + 1, locked := false }
  | .closing dropsSeed, _, after =>
    after = { world with
      entering := world.entering - 1
      dropped := world.dropped || dropsSeed }
  | .now, answer, after => answer = world.time ∧ after = world
  | .random, _, after => after = world
  | .tick, _, after => after = world
  | .record, answer, after => answer = world.record ∧ after = world
  | .storeRecord record, _, after => after = { world with record := some record }
  | .cached, answer, after => answer = world.cached ∧ after = world
  | .session reference, answer, after => answer = world.objects[reference]? ∧ after = world
  | .stored, answer, after => answer = world.sessionArea ∧ after = world
  | .cacheStored session, _, after => after = world.hold session
  | .enter session, answer, after =>
    answer = world.objects.length ∧
      after = { world.hold session with sessionArea := some session }
  | .clear, _, after =>
    after = { world with
      cached := none
      sessionArea := none
      locked := world.entering == 0 }
  | .storeActivity reference time, _, after => after = world.touched reference time

/-- The clock runs. -/
def vaultRuntime : Runtime VaultRequest VaultAnswer VaultWorld where
  awaits := vaultWaits
  serve := vaultServes
  drift world later := ∃ time, world.time ≤ time ∧ later = { world with time := time }

/-- Every task is a call of the vault. -/
def VaultStarted (keys : KeyLibrary) (program : VaultAction VaultOutcome) : Prop :=
  ∃ call, program = perform keys call

abbrev VaultCalls := List (VaultAction VaultOutcome)

/-- A run of calls reaches this world. -/
def VaultReached (keys : KeyLibrary) (world : VaultWorld) : Prop :=
  ∃ (record : Option VaultRecord) (sessionArea : Option UnlockedSession) (time : ℕ)
    (calls : VaultCalls),
    vaultRuntime.Reaches (VaultStarted keys) (.started record sessionArea time, []) (world, calls)

/-! ### What is final -/

/-- The session holds the identity seed. -/
def UnlockedSession.hasSeed (session : UnlockedSession) : Bool := session.ownerSeed.isSome

/-- The record's blob holds the identity seed. -/
def VaultRecord.hasSeed (record : VaultRecord) : Bool := record.sealedMode == .owner

/-- There is a record, without the seed. -/
def RecordSeedless (world : VaultWorld) : Prop :=
  ∃ record, world.record = some record ∧ record.hasSeed = false

/-- Neither the record nor a session holds the seed. -/
structure SeedFree (world : VaultWorld) : Prop where
  record : RecordSeedless world
  held : ∀ session, world.held = some session → session.hasSeed = false
  stored : ∀ session, world.sessionArea = some session → session.hasSeed = false

/-- There is no session in memory and none in session storage. -/
structure Shut (world : VaultWorld) : Prop where
  cached : world.cached = none
  stored : world.sessionArea = none

/-- A locked vault has no session, and a dropped seed is nowhere. -/
structure Final (world : VaultWorld) : Prop where
  locked : world.locked = true → Shut world
  dropped : world.dropped = true → SeedFree world

/-! ### Between a read and a write -/

/-- What the calls asked, the last first. -/
abbrev VaultHistory := History VaultRequest VaultAnswer

def readsSession : VaultRequest → Bool
  | .cached => true
  | .stored => true
  | _ => false

def readsRecord : VaultRequest → Bool
  | .record => true
  | _ => false

/-- A session without the seed is entered. -/
def entersSeedless : VaultRequest → Bool
  | .enter session => !session.hasSeed
  | _ => false

/-- The session is taken away, or replaced by one without the seed. -/
def endsSession : VaultRequest → Bool
  | .clear => true
  | request => entersSeedless request

/-- A record without the seed is stored. -/
def storesSeedless : VaultRequest → Bool
  | .storeRecord record => !record.hasSeed
  | _ => false

/-- Since the call last asked a request that is marked, nothing of some kind happened. -/
def NoneSince (history : VaultHistory) (task : ℕ) (marks kind : VaultRequest → Bool) : Prop :=
  ∀ earlier ∈ history.since task marks, kind earlier.request = false

instance (history : VaultHistory) (task : ℕ) (marks kind : VaultRequest → Bool) :
    Decidable (NoneSince history task marks kind) :=
  inferInstanceAs (Decidable (∀ earlier ∈ history.since task marks, _))

/-- A call writes only what was not overtaken: a session it read is cached or stored while nobody
ended it since, one with the seed is entered while nobody entered one without since the call read the
record, and a record with the seed is stored while nobody stored one without since. -/
def Timely (history : VaultHistory) (task : ℕ) : VaultRequest → Prop
  | .cacheStored _ => NoneSince history task readsSession endsSession
  | .storeActivity _ _ => NoneSince history task readsSession endsSession
  | .enter session => session.hasSeed = true →
      NoneSince history task readsRecord entersSeedless
  | .storeRecord record => record.hasSeed = true →
      NoneSince history task readsRecord storesSeedless
  | _ => True

def TimelyEvent (history : VaultHistory) (event : Event VaultRequest VaultAnswer) : Prop :=
  Timely history event.task event.request

/-- A run in which nothing out of date is written back reaches this world. -/
def ReachedTimely (keys : KeyLibrary) (world : VaultWorld) : Prop :=
  ∃ (record : Option VaultRecord) (sessionArea : Option UnlockedSession) (time : ℕ)
    (history : VaultHistory) (calls : VaultCalls),
    vaultRuntime.Records TimelyEvent (VaultStarted keys) (.started record sessionArea time)
      (world, history) calls

/-! ### What the writes do -/

section Writes

variable {world : VaultWorld}

theorem held_hold (session : UnlockedSession) : (world.hold session).held = some session :=
  List.getElem?_concat_length

/-- Recording activity leaves who holds the seed. -/
theorem touched_cases (reference time : ℕ) :
    world.touched reference time = world ∨ ∃ session,
      world.objects[reference]? = some session ∧
        world.touched reference time =
          { world with
            objects := world.objects.set reference { session with lastActivity := time }
            sessionArea := some { session with lastActivity := time } } := by
  unfold VaultWorld.touched
  split
  · exact .inl rfl
  · next session found => exact .inr ⟨session, found, rfl⟩

theorem seed_of_touched {reference time : ℕ} {session : UnlockedSession}
    (found : world.objects[reference]? = some session) {held : UnlockedSession}
    (kept : ({ world with
      objects := world.objects.set reference { session with lastActivity := time }
      sessionArea := some { session with lastActivity := time } } : VaultWorld).held =
        some held) :
    ∃ before, world.held = some before ∧ held.hasSeed = before.hasSeed := by
  unfold VaultWorld.held at kept ⊢
  cases cached : world.cached with
  | none =>
    rw [cached] at kept
    cases kept
  | some other =>
    rw [cached] at kept
    rw [Option.bind_some] at kept ⊢
    by_cases same : reference = other
    · subst same
      refine ⟨session, found, ?_⟩
      have inside := (List.getElem?_eq_some_iff.mp found).1
      have given := (List.getElem?_set_self inside).symm.trans kept
      obtain rfl := Option.some.inj given
      rfl
    · refine ⟨held, ?_, rfl⟩
      exact (List.getElem?_set_ne same).symm.trans kept

end Writes

/-! ### Steps -/

/-- If the request writes a session or a record, then one without the seed. -/
def WritesSeedless (world : VaultWorld) : VaultRequest → Prop
  | .cacheStored session => session.hasSeed = false
  | .storeActivity reference _ =>
    ∀ session, world.objects[reference]? = some session → session.hasSeed = false
  | .enter session => session.hasSeed = false
  | .storeRecord record => record.hasSeed = false
  | _ => True

/-- Requests that change nothing. -/
def reads : VaultRequest → Bool
  | .now => true
  | .random => true
  | .tick => true
  | .record => true
  | .cached => true
  | .session _ => true
  | .stored => true
  | _ => false

section Steps

variable {world after : VaultWorld} {request : VaultRequest} {answer : VaultAnswer request}

theorem still_serves (only : reads request = true) (served : vaultServes world request answer after) :
    after = world := by
  cases request with
  | now => exact served.2
  | record => exact served.2
  | cached => exact served.2
  | session reference => exact served.2
  | stored => exact served.2
  | random => exact served
  | tick => exact served
  | _ => cases only

theorem recordSeedless_serves (seedless : RecordSeedless world)
    (served : vaultServes world request answer after)
    (writes : ∀ record, request = .storeRecord record → record.hasSeed = false) :
    RecordSeedless after := by
  cases request with
  | storeRecord record =>
    obtain rfl := served
    exact ⟨record, rfl, writes record rfl⟩
  | storeActivity reference time =>
    obtain rfl := served
    rcases @touched_cases world reference time with same | ⟨session, found, written⟩
    · rw [same]
      exact seedless
    · rw [written]
      exact seedless
  | opening => exact Eq.symm served ▸ seedless
  | closing dropsSeed => exact Eq.symm served ▸ seedless
  | cacheStored session => exact Eq.symm served ▸ seedless
  | enter session => exact served.2 ▸ seedless
  | clear => exact Eq.symm served ▸ seedless
  | _ => exact still_serves rfl served ▸ seedless

theorem seedFree_serves (free : SeedFree world) (served : vaultServes world request answer after)
    (writes : WritesSeedless world request) : SeedFree after := by
  have record : RecordSeedless after :=
    recordSeedless_serves free.record served fun record same => by
      subst same
      exact writes
  cases request with
  | cacheStored session =>
    obtain rfl := served
    refine ⟨record, fun held kept => ?_, free.stored⟩
    obtain rfl := Option.some.inj ((held_hold session).symm.trans kept)
    exact writes
  | storeActivity reference time =>
    obtain rfl := served
    rcases @touched_cases world reference time with same | ⟨session, found, written⟩
    · rw [same]
      exact free
    · rw [written] at record ⊢
      refine ⟨record, fun later kept => ?_, fun stored present => ?_⟩
      · obtain ⟨before, was, same⟩ := seed_of_touched found kept
        rw [same]
        exact free.held before was
      · obtain rfl := Option.some.inj present
        exact writes session found
  | enter session =>
    obtain ⟨_, rfl⟩ := served
    refine ⟨record, fun held kept => ?_, fun stored present => ?_⟩
    · obtain rfl := Option.some.inj ((held_hold session).symm.trans kept)
      exact writes
    · obtain rfl := Option.some.inj present
      exact writes
  | clear =>
    obtain rfl := served
    exact ⟨record, fun held kept => (by cases kept), fun stored present => (by cases present)⟩
  | opening =>
    obtain rfl := served
    exact ⟨record, free.held, free.stored⟩
  | closing dropsSeed =>
    obtain rfl := served
    exact ⟨record, free.held, free.stored⟩
  | storeRecord stored =>
    obtain rfl := served
    exact ⟨record, free.held, free.stored⟩
  | _ => exact still_serves rfl served ▸ free

end Steps

/-! ### Phases of a call -/

/-- A call enters no session now, may still enter one, has stored a record without the seed, or has
entered its session after that. -/
inductive VaultPhase where
  | outside
  | opened
  | recorded
  | entered
  deriving DecidableEq

/-- What every call may ask at any time. -/
def common : VaultRequest → Bool
  | .opening => false
  | .closing _ => false
  | .storeRecord _ => false
  | .enter _ => false
  | _ => true

/-- What a call may ask beyond that. -/
def phaseAsks : VaultPhase → VaultRequest → Prop
  | .outside, .opening => True
  | .opened, .storeRecord _ => True
  | .opened, .enter _ => True
  | .opened, .closing dropsSeed => dropsSeed = false
  | .recorded, .enter session => session.hasSeed = false
  | .recorded, .closing dropsSeed => dropsSeed = false
  | .entered, .closing _ => True
  | _, _ => False

def phaseNext : VaultPhase → VaultRequest → VaultPhase
  | .outside, .opening => .opened
  | .opened, .storeRecord record => if record.hasSeed then .opened else .recorded
  | .recorded, .enter _ => .entered
  | _, .closing _ => .outside
  | phase, _ => phase

def entry : Runtime.Protocol VaultRequest VaultAnswer VaultPhase where
  asks phase request := common request = true ∨ phaseAsks phase request
  gets _ _ _ := True
  next phase request _ := phaseNext phase request

theorem phaseNext_common {phase : VaultPhase} {request : VaultRequest}
    (free : common request = true) : phaseNext phase request = phase := by
  cases request with
  | opening => cases free
  | closing dropsSeed => cases free
  | storeRecord record => cases free
  | enter session => cases free
  | _ => cases phase <;> rfl

section Follows

variable {Value : Type} {phase : VaultPhase}

/-- The operation may be part of any call: it asks what is common and leaves the phase. -/
def Common (operation : VaultAction Value) : Prop :=
  ∀ phase, entry.Follows (fun _ later => later = phase) operation phase

theorem follows_lift {computation : Except String Value} :
    entry.Follows (fun ending later => ending = computation ∧ later = phase)
      (Program.lift computation : VaultAction Value) phase := by
  cases computation with
  | ok value => exact ⟨rfl, rfl⟩
  | error message => exact ⟨rfl, rfl⟩

theorem common_obtain {request : VaultRequest} (free : common request = true) :
    Common (obtainValue request) :=
  fun _ => ⟨.inl free, fun _ _ => phaseNext_common free⟩

theorem common_tick : Common tick := common_obtain rfl

theorem common_pure (value : Value) : Common (pure value : VaultAction Value) := fun _ => rfl

theorem Common.seq {Result : Type} {operation : VaultAction Value}
    {next : Value → VaultAction Result} (first : Common operation)
    (second : ∀ value, Common (next value)) : Common (operation >>= next) := by
  intro phase
  refine Runtime.Protocol.Follows.seq (first phase) (fun _ _ same => same) fun value later same => ?_
  subst same
  exact second value _

theorem common_issue {request : VaultRequest} (free : common request = true) :
    Common (issue request) :=
  (common_obtain free).seq fun _ => common_tick.seq fun _ => common_pure _

/-- Waiting for an operation ends as the operation does. -/
theorem follows_awaiting {post : Except String Value → VaultPhase → Prop}
    {operation : VaultAction Value} (follows : entry.Follows post operation phase) :
    entry.Follows post (awaiting operation) phase := by
  refine Runtime.Protocol.Follows.attempt_seq follows fun ending later ends => ?_
  have still : phaseNext later .tick = later := phaseNext_common rfl
  cases ending with
  | ok value =>
    refine ⟨.inl rfl, fun _ _ => ?_⟩
    show post (.ok value) (phaseNext later .tick)
    rw [still]
    exact ends
  | error message =>
    refine ⟨.inl rfl, fun _ _ => ?_⟩
    show post (.error message) (phaseNext later .tick)
    rw [still]
    exact ends

theorem Common.awaiting {operation : VaultAction Value} (first : Common operation) :
    Common (awaiting operation) :=
  fun phase => follows_awaiting (first phase)

theorem common_record : Common record := common_issue rfl

theorem common_current : Common current := by
  refine (common_obtain rfl).seq fun cached => ?_
  cases cached with
  | some reference => exact common_pure _
  | none =>
    refine (common_issue rfl).seq fun stored => ?_
    cases stored with
    | some session => exact (common_obtain rfl).seq fun _ => common_obtain rfl
    | none => exact common_obtain rfl

theorem common_lock : Common lock := common_issue rfl

theorem common_status : Common status := by
  refine common_record.awaiting.seq fun found => ?_
  cases found with
  | none => exact common_pure _
  | some record =>
    refine common_current.awaiting.seq fun session => ?_
    cases session with
    | none => exact common_pure _
    | some reference => exact (common_obtain rfl).seq fun _ => common_pure _

theorem common_touch : Common touch := by
  refine common_current.awaiting.seq fun session => ?_
  cases session with
  | none => exact common_pure _
  | some reference => exact (common_obtain rfl).seq fun _ => common_issue rfl

theorem common_checkAutoLock (autoLockMs time : ℕ) : Common (checkAutoLock autoLockMs time) := by
  refine common_current.awaiting.seq fun session => ?_
  cases session with
  | none => exact common_pure _
  | some reference =>
    refine (common_obtain rfl).seq fun session => ?_
    show Common (if _ then _ else if _ then _ else _)
    split
    · exact common_pure _
    · split
      · exact common_lock.awaiting.seq fun _ => common_pure _
      · exact common_pure _

end Follows

/-! ### The calls that enter a session -/

section Entering

variable {Value Result : Type} {phase : VaultPhase} {post : Except String Result → VaultPhase → Prop}

theorem Common.follows_seq {operation : VaultAction Value} {next : Value → VaultAction Result}
    (first : Common operation) (failed : ∀ message, post (.error message) phase)
    (second : ∀ value, entry.Follows post (next value) phase) :
    entry.Follows post (operation >>= next) phase := by
  refine Runtime.Protocol.Follows.seq (first phase) (fun message later same => ?_)
    fun value later same => ?_
  · subst same
    exact failed message
  · subst same
    exact second value

/-- Waiting for a computation that asks nothing. -/
theorem follows_lifted {computation : Except String Value} {next : Value → VaultAction Result}
    (failed : ∀ message, post (.error message) phase)
    (second : ∀ value, computation = .ok value → entry.Follows post (next value) phase) :
    entry.Follows post (awaiting (Program.lift computation) >>= next) phase := by
  refine Runtime.Protocol.Follows.seq (follows_awaiting follows_lift) (fun message later ends => ?_)
    fun value later ends => ?_
  · obtain ⟨_, rfl⟩ := ends
    exact failed message
  · obtain ⟨same, rfl⟩ := ends
    exact second value same.symm

/-- A storage operation that moves the phase. -/
theorem follows_issue {request : VaultRequest} {later : VaultPhase}
    (asks : phaseAsks phase request) (moves : phaseNext phase request = later) :
    entry.Follows (fun ending last => (∃ answer, ending = .ok answer) ∧ last = later)
      (issue request) phase := by
  refine ⟨.inr asks, fun answer _ => ⟨.inl rfl, fun _ _ => ⟨⟨answer, rfl⟩, ?_⟩⟩⟩
  show phaseNext (phaseNext phase request) .tick = later
  rw [moves]
  exact phaseNext_common rfl

theorem follows_issue_seq {request : VaultRequest} (later : VaultPhase)
    {next : VaultAnswer request → VaultAction Result} (asks : phaseAsks phase request)
    (moves : phaseNext phase request = later)
    (second : ∀ answer, entry.Follows post (next answer) later) :
    entry.Follows post (issue request >>= next) phase := by
  refine Runtime.Protocol.Follows.seq (follows_issue asks moves) (fun message last ends => ?_)
    fun answer last ends => ?_
  · obtain ⟨⟨_, impossible⟩, _⟩ := ends
    cases impossible
  · obtain ⟨_, rfl⟩ := ends
    exact second answer

theorem opened_enter (session : UnlockedSession) :
    entry.Follows (fun _ later => later = .opened) (awaiting (enter session)) .opened := by
  have asks : phaseAsks .opened (.enter session) := trivial
  exact follows_awaiting ((follows_issue asks rfl).weaken fun _ _ ends => ends.2)

theorem opened_storeOwnerVault (keys : KeyLibrary) (seed : Bytes) (keyVersion : ℕ)
    (passphrase : String) : entry.Follows (fun _ later => later = .opened)
      (storeOwnerVault keys seed keyVersion passphrase) .opened := by
  refine (common_obtain rfl).follows_seq (fun _ => rfl) fun deviceSecret => ?_
  refine follows_lifted (fun _ => rfl) fun blob locked => ?_
  refine (common_obtain rfl).follows_seq (fun _ => rfl) fun time => ?_
  refine follows_issue_seq .opened trivial ?_ fun _ => opened_enter _
  -- The blob was locked in owner mode, so the record holds the seed.
  unfold lockVault at locked
  split at locked
  · cases locked
  · split at locked
    · cases locked
    · obtain rfl := Except.ok.inj locked
      rfl

theorem opened_lift_seq {computation : Except String Value} {next : Value → VaultAction Result}
    (second : ∀ value, entry.Follows (fun _ later => later = .opened) (next value) .opened) :
    entry.Follows (fun _ later => later = .opened) (Program.lift computation >>= next) .opened :=
  Runtime.Protocol.Follows.lift_seq (fun _ _ => rfl) fun value _ => second value

theorem opened_create (keys : KeyLibrary) (passphrase : String) :
    entry.Follows (fun _ later => later = .opened) (create keys passphrase) .opened := by
  refine opened_lift_seq fun _ => ?_
  refine common_record.awaiting.follows_seq (fun _ => rfl) fun existing => ?_
  refine opened_lift_seq fun _ => ?_
  refine (common_obtain rfl).follows_seq (fun _ => rfl) fun seed => ?_
  exact follows_awaiting (opened_storeOwnerVault keys seed 1 passphrase)

theorem opened_importVault (keys : KeyLibrary) (json passphrase : String) :
    entry.Follows (fun _ later => later = .opened) (importVault keys json passphrase) .opened := by
  refine opened_lift_seq fun _ => ?_
  refine common_record.awaiting.follows_seq (fun _ => rfl) fun existing => ?_
  refine opened_lift_seq fun _ => ?_
  refine opened_lift_seq fun imported => ?_
  exact follows_awaiting (opened_storeOwnerVault keys imported.1 imported.2 passphrase)

theorem opened_unlock (keys : KeyLibrary) (passphrase : String) :
    entry.Follows (fun _ later => later = .opened) (unlock keys passphrase) .opened := by
  refine common_record.awaiting.follows_seq (fun _ => rfl) fun found => ?_
  refine opened_lift_seq fun record => ?_
  refine follows_lifted (fun _ => rfl) fun secrets _ => ?_
  refine (common_obtain rfl).follows_seq (fun _ => rfl) fun time => ?_
  exact opened_lift_seq fun session => opened_enter session

/-- Secrets in device mode open a session without the seed. -/
theorem seedless_of_device {keys : KeyLibrary} {record : VaultRecord} {secrets : VaultSecrets}
    {time : ℕ} {session : UnlockedSession} (device : secrets.mode.getD record.mode = .device)
    (made : sessionFromSecrets keys record secrets time = .ok session) :
    session.hasSeed = false := by
  unfold sessionFromSecrets at made
  split at made
  · split at made
    · cases made
    · obtain rfl := Except.ok.inj made
      rfl
  · cases made

/-- How an authorization ends: with the seed dropped, it has entered its session. -/
def Authorized (keepOwnerSeed : Bool) (ending : Except String Value) (later : VaultPhase) : Prop :=
  later ≠ .outside ∧ (keepOwnerSeed = false → ∀ value, ending = .ok value → later = .entered)

theorem authorized_failed (keepOwnerSeed : Bool) (message : String) {later : VaultPhase}
    (inside : later ≠ .outside) :
    Authorized keepOwnerSeed (.error message : Except String Value) later :=
  ⟨inside, fun _ _ impossible => by cases impossible⟩

theorem opened_completeDeviceAuthorization (keys : KeyLibrary) (input : DeviceAuthorization) :
    entry.Follows (Authorized input.keepOwnerSeed) (completeDeviceAuthorization keys input)
      .opened := by
  have inside : VaultPhase.opened ≠ .outside := fun same => by cases same
  have failed : ∀ message, Authorized input.keepOwnerSeed (.error message : Except String ℕ)
      .opened := fun message => authorized_failed _ message inside
  refine common_record.awaiting.follows_seq failed fun found => ?_
  refine Runtime.Protocol.Follows.lift_seq (fun message _ => failed message) fun record _ => ?_
  refine follows_lifted failed fun secrets _ => ?_
  refine Runtime.Protocol.Follows.lift_seq (fun message _ => failed message) fun _ _ => ?_
  refine (common_obtain rfl).follows_seq failed fun time => ?_
  refine follows_lifted failed fun blob locked => ?_
  have sealed : blob = ⟨authorizedSecrets keys secrets input, input.passphrase⟩ := by
    unfold lockVault at locked
    split at locked
    · cases locked
    · split at locked
      · cases locked
      · exact (Except.ok.inj locked).symm
  subst sealed
  by_cases keep : input.keepOwnerSeed = true
  · have mode : (authorizedSecrets keys secrets input).mode = some .owner := by
      rw [authorizedSecrets, if_pos keep]
    have authorized : ∀ ending : Except String ℕ, Authorized input.keepOwnerSeed ending .opened :=
      fun ending => ⟨inside, fun dropped => by rw [keep] at dropped; cases dropped⟩
    refine follows_issue_seq .opened trivial ?_ fun _ => ?_
    · show (if VaultRecord.hasSeed _ then VaultPhase.opened else .recorded) = _
      rw [VaultRecord.hasSeed, VaultRecord.sealedMode, mode]
      rfl
    · refine follows_lifted failed fun opened _ => ?_
      refine (common_obtain rfl).follows_seq failed fun entered => ?_
      refine Runtime.Protocol.Follows.lift_seq (fun message _ => failed message) fun session _ => ?_
      refine (opened_enter session).weaken fun ending later same => ?_
      subst same
      exact authorized ending
  · have mode : (authorizedSecrets keys secrets input).mode = some .device := by
      rw [authorizedSecrets, if_neg keep]
    have failed : ∀ message, Authorized input.keepOwnerSeed (.error message : Except String ℕ)
        .recorded := fun message => authorized_failed _ message fun same => by cases same
    refine follows_issue_seq .recorded trivial ?_ fun _ => ?_
    · show (if VaultRecord.hasSeed _ then VaultPhase.opened else .recorded) = _
      rw [VaultRecord.hasSeed, VaultRecord.sealedMode, mode]
      rfl
    · refine follows_lifted failed fun opened unlocked => ?_
      have same : opened = authorizedSecrets keys secrets input := by
        unfold unlockVault at unlocked
        rw [if_pos rfl] at unlocked
        exact (Except.ok.inj unlocked).symm
      subst same
      refine (common_obtain rfl).follows_seq failed fun entered => ?_
      refine Runtime.Protocol.Follows.lift_seq (fun message _ => failed message)
        fun session made => ?_
      have asks : phaseAsks .recorded (.enter session) := seedless_of_device (by rw [mode]; rfl) made
      refine follows_awaiting ((follows_issue asks rfl).weaken fun ending later ends => ?_)
      obtain ⟨_, rfl⟩ := ends
      exact ⟨fun same => (by cases same), fun _ _ _ => rfl⟩

/-- A call that enters a session begins and ends outside. -/
theorem follows_entering {dropsSeed : Value → Bool} {operation : VaultAction Value}
    (follows : entry.Follows (fun ending later => later ≠ .outside ∧
      ∀ value, ending = .ok value → dropsSeed value = true → later = .entered) operation .opened) :
    entry.Follows (fun _ later => later = .outside) (entering dropsSeed operation) .outside := by
  have closes : ∀ (later : VaultPhase) (drops : Bool), later ≠ .outside →
      (drops = true → later = .entered) → phaseAsks later (.closing drops) := by
    intro later drops inside entered
    cases later with
    | outside => exact absurd rfl inside
    | opened => exact Bool.eq_false_iff.mpr fun dropped => by cases entered dropped
    | recorded => exact Bool.eq_false_iff.mpr fun dropped => by cases entered dropped
    | entered => trivial
  have moves : ∀ (later : VaultPhase) (drops : Bool),
      phaseNext later (.closing drops) = .outside := fun later drops => by cases later <;> rfl
  refine ⟨.inr trivial, fun _ _ => ?_⟩
  refine Runtime.Protocol.Follows.attempt_seq follows fun ending later ends => ?_
  cases ending with
  | ok value =>
    exact ⟨.inr (closes later _ ends.1 (ends.2 value rfl)), fun _ _ => moves later _⟩
  | error message =>
    exact ⟨.inr (closes later false ends.1 fun impossible => by cases impossible),
      fun _ _ => moves later false⟩

theorem entering_opened {operation : VaultAction Value}
    (follows : entry.Follows (fun _ later => later = .opened) operation .opened) :
    entry.Follows (fun _ later => later = .outside) (entering (fun _ => false) operation)
      .outside := by
  refine follows_entering (follows.weaken fun ending later same => ?_)
  subst same
  exact ⟨fun outside => (by cases outside), fun _ _ impossible => (by cases impossible)⟩

/-- What comes of a call's value is common, so the call is followed to its end. -/
theorem follows_outcome {operation : VaultAction Value} {next : Value → VaultAction VaultOutcome}
    (first : entry.Follows (fun _ later => later = .outside) operation .outside)
    (second : ∀ value, Common (next value)) :
    entry.Follows (fun _ _ => True) (operation >>= next) .outside := by
  refine Runtime.Protocol.Follows.seq first (fun _ _ _ => trivial) fun value later _ => ?_
  exact (second value later).weaken fun _ _ _ => trivial

theorem follows_perform (keys : KeyLibrary) (call : VaultCall) :
    entry.Follows (fun _ _ => True) (perform keys call) .outside := by
  cases call with
  | status => exact follows_outcome (common_status _) fun _ => common_pure _
  | current => exact follows_outcome (common_current _) fun _ => common_pure _
  | touch => exact follows_outcome (common_touch _) fun _ => common_pure _
  | checkAutoLock autoLockMs time =>
    exact follows_outcome (common_checkAutoLock autoLockMs time _) fun _ => common_pure _
  | lock => exact follows_outcome (common_lock _) fun _ => common_pure _
  | create passphrase =>
    exact follows_outcome (entering_opened (opened_create keys passphrase)) fun _ => common_pure _
  | importVault json passphrase =>
    exact follows_outcome (entering_opened (opened_importVault keys json passphrase))
      fun _ => common_pure _
  | unlock passphrase =>
    exact follows_outcome (entering_opened (opened_unlock keys passphrase)) fun _ => common_pure _
  | completeDeviceAuthorization input =>
    refine follows_outcome (follows_entering
      ((opened_completeDeviceAuthorization keys input).weaken fun ending later ends => ?_))
      fun _ => common_pure _
    refine ⟨ends.1, fun value same drops => ends.2 ?_ value same⟩
    rw [← Bool.not_eq_true']
    exact drops

end Entering

/-! ### What a call read -/

/-- The session a call last read: the one in session storage, or the object in memory. -/
inductive SessionRead where
  | stored (session : UnlockedSession)
  | held (reference : ℕ)

/-- What a call last read: a session, unless there was none, and the record, if it looked. -/
structure Recollection where
  session : Option SessionRead
  record : Option (Option VaultRecord)

/-- The call found the seed in the record, or found no record. -/
def Recollection.MayWriteSeed (memory : Recollection) : Prop :=
  ∃ found, memory.record = some found ∧ ∀ record, found = some record → record.hasSeed = true

/-- A call writes the session it read, and the seed only as it found it. -/
def recollection : Runtime.Protocol VaultRequest VaultAnswer Recollection where
  asks memory request := match request with
    | .cacheStored session => memory.session = some (.stored session)
    | .storeActivity reference _ => memory.session = some (.held reference)
    | .storeRecord record => record.hasSeed = true → memory.MayWriteSeed
    | .enter session => session.hasSeed = true → memory.MayWriteSeed
    | _ => True
  gets _ _ _ := True
  next memory request answer := match request, answer with
    | .cached, reference => { memory with session := reference.map .held }
    | .stored, session => { memory with session := session.map .stored }
    | .record, found => { memory with record := some found }
    | _, _ => memory

section Recollection

variable {Value Result : Type} {memory : Recollection}

/-- Whatever a program ends with is fine. -/
abbrev Recalls (operation : VaultAction Value) (memory : Recollection) : Prop :=
  recollection.Follows (fun _ _ => True) operation memory

theorem recalls_awaiting {post : Except String Value → Recollection → Prop}
    {operation : VaultAction Value} (follows : recollection.Follows post operation memory) :
    recollection.Follows post (awaiting operation) memory := by
  refine Runtime.Protocol.Follows.attempt_seq follows fun ending later ends => ?_
  cases ending with
  | ok value => exact ⟨trivial, fun _ _ => ends⟩
  | error message => exact ⟨trivial, fun _ _ => ends⟩

/-- Waiting for a computation that asks nothing. -/
theorem recalls_lifted {computation : Except String Value} {next : Value → VaultAction Result}
    (second : ∀ value, computation = .ok value → Recalls (next value) memory) :
    Recalls (awaiting (Program.lift computation) >>= next) memory := by
  cases computation with
  | ok value => exact ⟨trivial, fun _ _ => second value rfl⟩
  | error message => exact ⟨trivial, fun _ _ => trivial⟩

theorem recalls_lift_seq {computation : Except String Value} {next : Value → VaultAction Result}
    (second : ∀ value, computation = .ok value → Recalls (next value) memory) :
    Recalls (Program.lift computation >>= next) memory :=
  Runtime.Protocol.Follows.lift_seq (fun _ _ => trivial) second

theorem recalls_now_seq {next : ℕ → VaultAction Result}
    (second : ∀ time, Recalls (next time) memory) : Recalls (obtainValue .now >>= next) memory :=
  ⟨trivial, fun time _ => second time⟩

theorem recalls_random_seq {next : Bytes → VaultAction Result}
    (second : ∀ bytes, Recalls (next bytes) memory) : Recalls (obtainValue .random >>= next) memory :=
  ⟨trivial, fun bytes _ => second bytes⟩

/-- The record a call looked up is the one it goes on with. -/
theorem recalls_record_seq {next : Option VaultRecord → VaultAction Result}
    (second : ∀ found, Recalls (next found) { memory with record := some found }) :
    Recalls (awaiting record >>= next) memory :=
  ⟨trivial, fun found _ => ⟨trivial, fun _ _ => ⟨trivial, fun _ _ => second found⟩⟩⟩

/-- The session a call got is the object it goes on with. -/
theorem recalls_current : recollection.Follows (fun ending later =>
    ∀ reference, ending = .ok (some reference) → later.session = some (.held reference))
      current memory := by
  have held : ∀ (memory : Recollection) (answer : Option ℕ) (reference : ℕ),
      (.ok answer : Except String (Option ℕ)) = .ok (some reference) →
        (recollection.next memory .cached answer).session = some (.held reference) := by
    intro memory answer reference same
    obtain rfl := Except.ok.inj same
    rfl
  refine ⟨trivial, fun cached _ => ?_⟩
  cases cached with
  | some reference => exact held _ (some reference)
  | none =>
    refine ⟨trivial, fun stored _ => ⟨trivial, fun _ _ => ?_⟩⟩
    cases stored with
    | some session => exact ⟨rfl, fun _ _ => ⟨trivial, fun answer _ => held _ answer⟩⟩
    | none => exact ⟨trivial, fun answer _ => held _ answer⟩

theorem recalls_current_seq {next : Option ℕ → VaultAction Result}
    (none : ∀ memory, Recalls (next none) memory)
    (some : ∀ reference memory, memory.session = some (.held reference) →
      Recalls (next (some reference)) memory) :
    Recalls (awaiting current >>= next) memory := by
  refine (recalls_awaiting recalls_current).seq (fun _ _ _ => trivial) fun session later got => ?_
  cases session with
  | none => exact none later
  | some reference => exact some reference later (got reference rfl)

theorem recalls_status : Recalls status memory := by
  refine recalls_record_seq fun found => ?_
  cases found with
  | none => exact trivial
  | some record =>
    exact recalls_current_seq (fun _ => trivial) fun _ _ _ => ⟨trivial, fun _ _ => trivial⟩

theorem recalls_touch : Recalls touch memory :=
  recalls_current_seq (fun _ => trivial) fun _ _ held =>
    ⟨trivial, fun _ _ => ⟨held, fun _ _ => ⟨trivial, fun _ _ => trivial⟩⟩⟩

theorem recalls_lock : Recalls lock memory :=
  ⟨trivial, fun _ _ => ⟨trivial, fun _ _ => trivial⟩⟩

theorem recalls_checkAutoLock (autoLockMs time : ℕ) :
    Recalls (checkAutoLock autoLockMs time) memory := by
  refine recalls_current_seq (fun _ => trivial) fun reference memory _ => ?_
  refine ⟨trivial, fun session _ => ?_⟩
  show Recalls (if _ then _ else if _ then _ else _) memory
  split
  · exact trivial
  · split
    · exact (recalls_awaiting recalls_lock).seq (fun _ _ _ => trivial) fun _ _ _ => trivial
    · exact trivial

theorem recalls_enter {session : UnlockedSession}
    (may : session.hasSeed = true → memory.MayWriteSeed) :
    Recalls (awaiting (enter session)) memory :=
  recalls_awaiting ⟨may, fun _ _ => ⟨trivial, fun _ _ => trivial⟩⟩

theorem recalls_storeOwnerVault (keys : KeyLibrary) (seed : Bytes) (keyVersion : ℕ)
    (passphrase : String) (may : memory.MayWriteSeed) :
    Recalls (storeOwnerVault keys seed keyVersion passphrase) memory := by
  refine recalls_random_seq fun deviceSecret => ?_
  refine recalls_lifted fun blob _ => ?_
  refine recalls_now_seq fun time => ?_
  exact ⟨fun _ => may, fun _ _ => ⟨trivial, fun _ _ => recalls_enter fun _ => may⟩⟩

/-- No record was found. -/
theorem mayWriteSeed_absent :
    ({ memory with record := some none } : Recollection).MayWriteSeed := by
  refine ⟨none, rfl, fun record impossible => ?_⟩
  cases impossible

/-- The vault of a new identity is stored where no record was found. -/
theorem recalls_absent_seq {next : VaultAction Result}
    (second : Recalls next { memory with record := some none }) (message : String)
    {existing : Option VaultRecord} :
    Recalls ((Program.lift (if existing.isSome then .error message else .ok ()) :
      VaultAction Unit) >>= fun _ => next) { memory with record := some existing } := by
  cases existing with
  | some record => exact trivial
  | none => exact second

theorem recalls_create (keys : KeyLibrary) (passphrase : String) :
    Recalls (create keys passphrase) memory := by
  refine recalls_lift_seq fun _ _ => ?_
  refine recalls_record_seq fun existing => ?_
  refine recalls_absent_seq ?_ ALREADY_HELD
  refine recalls_random_seq fun seed => recalls_awaiting ?_
  exact recalls_storeOwnerVault keys seed 1 passphrase mayWriteSeed_absent

theorem recalls_importVault (keys : KeyLibrary) (json passphrase : String) :
    Recalls (importVault keys json passphrase) memory := by
  refine recalls_lift_seq fun _ _ => ?_
  refine recalls_record_seq fun existing => ?_
  refine recalls_absent_seq ?_ ALREADY_HELD
  refine recalls_lift_seq fun imported _ => recalls_awaiting ?_
  exact recalls_storeOwnerVault keys imported.1 imported.2 passphrase mayWriteSeed_absent

/-- What a record was opened with is what it seals. -/
theorem secrets_of_unlockVault {blob : VaultBlob} {passphrase : String} {secrets : VaultSecrets}
    (opened : unlockVault blob passphrase = .ok secrets) : secrets = blob.secrets := by
  unfold unlockVault at opened
  split at opened
  · exact (Except.ok.inj opened).symm
  · cases opened

/-- A session with the seed is opened by a record with the seed. -/
theorem hasSeed_of_opened {keys : KeyLibrary} {record : VaultRecord} {time : ℕ}
    {session : UnlockedSession}
    (made : sessionFromSecrets keys record record.blob.secrets time = .ok session)
    (seed : session.hasSeed = true) : record.hasSeed = true := by
  unfold VaultRecord.hasSeed VaultRecord.sealedMode
  cases mode : record.blob.secrets.mode.getD record.mode with
  | owner => rfl
  | device =>
    rw [seedless_of_device mode made] at seed
    cases seed

/-- A record that was found with the seed. -/
theorem mayWriteSeed_found {record : VaultRecord} (seed : record.hasSeed = true) :
    ({ memory with record := some (some record) } : Recollection).MayWriteSeed := by
  refine ⟨some record, rfl, fun other same => ?_⟩
  obtain rfl := Option.some.inj same
  exact seed

theorem recalls_found_seq {next : VaultRecord → VaultAction Result}
    (second : ∀ record, Recalls (next record) { memory with record := some (some record) })
    {found : Option VaultRecord} :
    Recalls ((Program.lift (found.elim (.error NO_ACCOUNT) .ok) : VaultAction VaultRecord) >>= next)
      { memory with record := some found } := by
  cases found with
  | none => exact trivial
  | some record => exact second record

theorem recalls_unlock (keys : KeyLibrary) (passphrase : String) :
    Recalls (unlock keys passphrase) memory := by
  refine recalls_record_seq fun found => ?_
  refine recalls_found_seq fun record => ?_
  refine recalls_lifted fun secrets opened => ?_
  obtain rfl := secrets_of_unlockVault opened
  refine recalls_now_seq fun time => ?_
  refine recalls_lift_seq fun session made => ?_
  exact recalls_enter fun seed => mayWriteSeed_found (hasSeed_of_opened made seed)

theorem recalls_completeDeviceAuthorization (keys : KeyLibrary) (input : DeviceAuthorization) :
    Recalls (completeDeviceAuthorization keys input) memory := by
  refine recalls_record_seq fun found => ?_
  refine recalls_found_seq fun record => ?_
  refine recalls_lifted fun secrets opened => ?_
  obtain rfl := secrets_of_unlockVault opened
  refine recalls_lift_seq fun _ checked => ?_
  have seed : record.hasSeed = true := by
    unfold checkAuthorization at checked
    split at checked
    · cases checked
    · next owner => exact beq_iff_eq.mpr (not_not.mp owner)
  have may : ({ memory with record := some (some record) } : Recollection).MayWriteSeed :=
    mayWriteSeed_found seed
  refine recalls_now_seq fun time => ?_
  refine recalls_lifted fun blob _ => ?_
  refine ⟨fun _ => may, fun _ _ => ⟨trivial, fun _ _ => ?_⟩⟩
  refine recalls_lifted fun reopened _ => ?_
  refine recalls_now_seq fun entered => ?_
  refine recalls_lift_seq fun session _ => ?_
  exact recalls_enter fun _ => may

theorem recalls_entering {dropsSeed : Value → Bool} {operation : VaultAction Value}
    (follows : ∀ memory, Recalls operation memory) : Recalls (entering dropsSeed operation) memory := by
  refine ⟨trivial, fun _ _ => ?_⟩
  refine Runtime.Protocol.Follows.attempt_seq (follows memory) fun ending later _ => ?_
  cases ending with
  | ok value => exact ⟨trivial, fun _ _ => trivial⟩
  | error message => exact ⟨trivial, fun _ _ => trivial⟩

theorem recalls_perform (keys : KeyLibrary) (call : VaultCall) :
    Recalls (perform keys call) memory := by
  cases call with
  | status => exact recalls_status.seq (fun _ _ _ => trivial) fun _ _ _ => trivial
  | current =>
    exact recalls_current.seq (fun _ _ _ => trivial) fun _ _ _ => trivial
  | touch => exact recalls_touch.seq (fun _ _ _ => trivial) fun _ _ _ => trivial
  | checkAutoLock autoLockMs time =>
    exact (recalls_checkAutoLock autoLockMs time).seq (fun _ _ _ => trivial) fun _ _ _ => trivial
  | lock => exact recalls_lock.seq (fun _ _ _ => trivial) fun _ _ _ => trivial
  | create passphrase =>
    exact (recalls_entering fun _ => recalls_create keys passphrase).seq (fun _ _ _ => trivial)
      fun _ _ _ => trivial
  | importVault json passphrase =>
    exact (recalls_entering fun _ => recalls_importVault keys json passphrase).seq
      (fun _ _ _ => trivial) fun _ _ _ => trivial
  | unlock passphrase =>
    exact (recalls_entering fun _ => recalls_unlock keys passphrase).seq (fun _ _ _ => trivial)
      fun _ _ _ => trivial
  | completeDeviceAuthorization input =>
    exact (recalls_entering fun _ => recalls_completeDeviceAuthorization keys input).seq
      (fun _ _ _ => trivial) fun _ _ _ => trivial

end Recollection

/-! ### Runs -/

section Runs

/-- A call that may enter a session is under way. -/
def VaultPhase.inside (phase : VaultPhase) : Bool := phase != .outside

/-- The seed was dropped: a call has entered its session without it, or has finished so. -/
def Discarded (world : VaultWorld) (phases : List VaultPhase) : Prop :=
  VaultPhase.entered ∈ phases ∨ world.dropped = true

/-- The calls that may enter a session are counted, and what is final so far stays so. -/
structure VaultKept (world : VaultWorld) (phases : List VaultPhase) : Prop where
  counted : phases.countP VaultPhase.inside = world.entering
  locked : world.locked = true → world.entering = 0 ∧ Shut world
  recorded : VaultPhase.recorded ∈ phases → RecordSeedless world
  discarded : Discarded world phases → SeedFree world

/-- A session is written only where there is one. -/
def SessionThere (world : VaultWorld) : VaultRequest → Prop
  | .cacheStored _ => world.sessionArea.isSome = true
  | .storeActivity _ _ => world.cached.isSome = true
  | _ => True

/-- A request that brings back no session and no seed. -/
structure Harmless (world : VaultWorld) (phases : List VaultPhase) (request : VaultRequest) :
    Prop where
  there : SessionThere world request
  record : RecordSeedless world → ∀ record, request = .storeRecord record → record.hasSeed = false
  seedless : Discarded world phases → WritesSeedless world request

variable {world after : VaultWorld} {phases : List VaultPhase} {phase : VaultPhase} {index : ℕ}
  {request : VaultRequest} {answer : VaultAnswer request}

/-- A locked vault stays so while nothing enters it. -/
theorem shut_serves (shut : Shut world) (free : common request = true)
    (served : vaultServes world request answer after) (there : SessionThere world request) :
    Shut after := by
  cases request with
  | cacheStored session =>
    unfold SessionThere at there
    rw [shut.stored] at there
    cases there
  | storeActivity reference time =>
    unfold SessionThere at there
    rw [shut.cached] at there
    cases there
  | clear =>
    obtain rfl := served
    exact ⟨rfl, rfl⟩
  | opening => cases free
  | closing dropsSeed => cases free
  | storeRecord record => cases free
  | enter session => cases free
  | _ => exact still_serves rfl served ▸ shut

/-- What is common to all calls is recorded as a lock at most. -/
theorem record_serves (free : common request = true)
    (served : vaultServes world request answer after) :
    after.entering = world.entering ∧ after.dropped = world.dropped ∧
      (after.locked = true → world.locked = true ∨ (world.entering = 0 ∧ Shut after)) := by
  cases request with
  | storeActivity reference time =>
    obtain rfl := served
    rcases @touched_cases world reference time with same | ⟨session, found, written⟩
    · rw [same]
      exact ⟨rfl, rfl, .inl⟩
    · rw [written]
      exact ⟨rfl, rfl, .inl⟩
  | clear =>
    obtain rfl := served
    exact ⟨rfl, rfl, fun locked => .inr ⟨of_decide_eq_true locked, rfl, rfl⟩⟩
  | cacheStored session =>
    obtain rfl := served
    exact ⟨rfl, rfl, .inl⟩
  | opening => cases free
  | closing dropsSeed => cases free
  | storeRecord record => cases free
  | enter session => cases free
  | _ => exact still_serves rfl served ▸ ⟨rfl, rfl, .inl⟩

theorem mem_set_of {other : VaultPhase} (different : other ≠ phase)
    (member : other ∈ phases.set index phase) : other ∈ phases := by
  rcases List.mem_or_eq_of_mem_set member with old | new
  · exact old
  · exact absurd new different

/-- Moving one call counts it where it is now. -/
theorem countP_moved (found : phases[index]? = some phase) (next : VaultPhase) :
    (phases.set index next).countP VaultPhase.inside + (if phase.inside then 1 else 0) =
      phases.countP VaultPhase.inside + (if next.inside then 1 else 0) := by
  obtain ⟨inside, rfl⟩ := List.getElem?_eq_some_iff.mp found
  have counted : (if phases[index].inside = true then 1 else 0) ≤
      phases.countP VaultPhase.inside := by
    split
    · next counts => exact List.countP_pos_iff.mpr ⟨_, List.getElem_mem inside, counts⟩
    · exact Nat.zero_le _
  rw [List.countP_set inside]
  omega

/-- A call that stays in its phase is left as it is. -/
theorem set_found (found : phases[index]? = some phase) : phases.set index phase = phases := by
  obtain ⟨inside, rfl⟩ := List.getElem?_eq_some_iff.mp found
  exact List.set_getElem_self inside

/-- While a call may enter a session the vault is not locked. -/
theorem VaultKept.unlocked (kept : VaultKept world phases) (found : phases[index]? = some phase)
    (inside : phase.inside = true) : world.locked ≠ true := by
  intro locked
  have positive : 0 < phases.countP VaultPhase.inside :=
    List.countP_pos_iff.mpr ⟨phase, List.mem_of_getElem? found, inside⟩
  rw [kept.counted, (kept.locked locked).1] at positive
  exact lt_irrefl _ positive

theorem Harmless.recordSeedless (harmless : Harmless world phases request)
    (served : vaultServes world request answer after) (before : RecordSeedless world) :
    RecordSeedless after :=
  recordSeedless_serves before served (harmless.record before)

theorem VaultKept.seedFree (kept : VaultKept world phases)
    (served : vaultServes world request answer after) (harmless : Harmless world phases request)
    (discarded : Discarded world phases) : SeedFree after :=
  seedFree_serves (kept.discarded discarded) served (harmless.seedless discarded)

theorem VaultKept.shared (kept : VaultKept world phases) (free : common request = true)
    (served : vaultServes world request answer after) (harmless : Harmless world phases request) :
    VaultKept after phases := by
  obtain ⟨entering, dropped, locked⟩ := record_serves free served
  refine ⟨kept.counted.trans entering.symm, fun now => ?_,
    fun is => harmless.recordSeedless served (kept.recorded is),
    fun is => kept.seedFree served harmless (is.imp_right fun now => dropped ▸ now)⟩
  rcases locked now with before | ⟨none, shut⟩
  · obtain ⟨none, shut⟩ := kept.locked before
    exact ⟨entering.trans none, shut_serves shut free served harmless.there⟩
  · exact ⟨entering.trans none, shut⟩

theorem VaultKept.opening {answer : VaultAnswer .opening} (kept : VaultKept world phases)
    (found : phases[index]? = some .outside) (served : vaultServes world .opening answer after)
    (harmless : Harmless world phases .opening) :
    VaultKept after (phases.set index .opened) := by
  have moved := countP_moved found .opened
  rw [kept.counted] at moved
  have recorded : VaultPhase.recorded ∈ phases.set index .opened → RecordSeedless after :=
    fun is => harmless.recordSeedless served
      (kept.recorded (mem_set_of (fun same => by cases same) is))
  have discarded : Discarded world (phases.set index .opened) → SeedFree after :=
    fun is => kept.seedFree served harmless (is.imp_left (mem_set_of fun same => by cases same))
  obtain rfl := served
  exact ⟨moved, fun locked => (by cases locked), recorded, discarded⟩

/-- A record with the seed is stored while no call has found one without it. -/
theorem VaultKept.storedSeed {record : VaultRecord} {answer : VaultAnswer (.storeRecord record)}
    (kept : VaultKept world phases) (found : phases[index]? = some .opened)
    (served : vaultServes world (.storeRecord record) answer after)
    (harmless : Harmless world phases (.storeRecord record)) : VaultKept after phases := by
  have recorded : VaultPhase.recorded ∈ phases → RecordSeedless after :=
    fun is => harmless.recordSeedless served (kept.recorded is)
  have discarded : Discarded world phases → SeedFree after := kept.seedFree served harmless
  obtain rfl := served
  exact ⟨kept.counted, fun locked => absurd locked (kept.unlocked found rfl), recorded, discarded⟩

theorem VaultKept.storedSeedless {record : VaultRecord}
    {answer : VaultAnswer (.storeRecord record)} (kept : VaultKept world phases)
    (found : phases[index]? = some .opened) (seed : record.hasSeed = false)
    (served : vaultServes world (.storeRecord record) answer after)
    (harmless : Harmless world phases (.storeRecord record)) :
    VaultKept after (phases.set index .recorded) := by
  have moved := countP_moved found .recorded
  rw [kept.counted] at moved
  have discarded : Discarded world (phases.set index .recorded) → SeedFree after :=
    fun is => kept.seedFree served harmless (is.imp_left (mem_set_of fun same => by cases same))
  obtain rfl := served
  exact ⟨Nat.add_right_cancel moved, fun locked => absurd locked (kept.unlocked found rfl),
    fun _ => ⟨record, rfl, seed⟩, discarded⟩

/-- A session is entered by a call that stored no record without the seed. -/
theorem VaultKept.entersOpened {session : UnlockedSession} {answer : VaultAnswer (.enter session)}
    (kept : VaultKept world phases) (found : phases[index]? = some .opened)
    (served : vaultServes world (.enter session) answer after)
    (harmless : Harmless world phases (.enter session)) : VaultKept after phases := by
  have recorded : VaultPhase.recorded ∈ phases → RecordSeedless after :=
    fun is => harmless.recordSeedless served (kept.recorded is)
  have discarded : Discarded world phases → SeedFree after := kept.seedFree served harmless
  obtain ⟨_, rfl⟩ := served
  exact ⟨kept.counted, fun locked => absurd locked (kept.unlocked found rfl), recorded, discarded⟩

theorem VaultKept.entersRecorded {session : UnlockedSession}
    {answer : VaultAnswer (.enter session)} (kept : VaultKept world phases)
    (found : phases[index]? = some .recorded) (seed : session.hasSeed = false)
    (served : vaultServes world (.enter session) answer after)
    (harmless : Harmless world phases (.enter session)) :
    VaultKept after (phases.set index .entered) := by
  have moved := countP_moved found .entered
  rw [kept.counted] at moved
  have record : RecordSeedless after :=
    harmless.recordSeedless served (kept.recorded (List.mem_of_getElem? found))
  obtain ⟨_, rfl⟩ := served
  refine ⟨Nat.add_right_cancel moved, fun locked => absurd locked (kept.unlocked found rfl),
    fun _ => record, fun _ => ⟨record, fun held now => ?_, fun stored now => ?_⟩⟩
  · obtain rfl := Option.some.inj ((held_hold session).symm.trans now)
    exact seed
  · obtain rfl := Option.some.inj now
    exact seed

/-- A call ends; only one that entered without the seed tells that it was dropped. -/
theorem VaultKept.closing {dropsSeed : Bool} {answer : VaultAnswer (.closing dropsSeed)}
    (kept : VaultKept world phases) (found : phases[index]? = some phase)
    (inside : phase.inside = true) (drops : dropsSeed = true → phase = .entered)
    (served : vaultServes world (.closing dropsSeed) answer after)
    (harmless : Harmless world phases (.closing dropsSeed)) :
    VaultKept after (phases.set index .outside) := by
  have moved := countP_moved found .outside
  rw [kept.counted, inside, if_pos rfl] at moved
  have recorded : VaultPhase.recorded ∈ phases.set index .outside → RecordSeedless after :=
    fun is => harmless.recordSeedless served
      (kept.recorded (mem_set_of (fun same => by cases same) is))
  have seedFree : Discarded world phases → SeedFree after := kept.seedFree served harmless
  obtain rfl := served
  refine ⟨Nat.eq_sub_of_add_eq moved, fun locked => absurd locked (kept.unlocked found inside),
    recorded, fun is => seedFree ?_⟩
  rcases is with entered | dropped
  · exact .inl (mem_set_of (fun same => by cases same) entered)
  · rcases (Bool.or_eq_true _ _).mp dropped with before | now
    · exact .inr before
    · exact .inl (drops now ▸ List.mem_of_getElem? found)

theorem VaultKept.serves (kept : VaultKept world phases) (found : phases[index]? = some phase)
    (asks : common request = true ∨ phaseAsks phase request)
    (served : vaultServes world request answer after) (harmless : Harmless world phases request) :
    VaultKept after (phases.set index (phaseNext phase request)) := by
  rcases asks with free | asks
  · rw [phaseNext_common free, set_found found]
    exact kept.shared free served harmless
  -- The phase says which of the other requests it is.
  cases request with
  | opening =>
    cases phase with
    | outside => exact kept.opening found served harmless
    | _ => cases asks
  | storeRecord record =>
    cases phase with
    | opened =>
      by_cases seed : record.hasSeed = true
      · have still : phaseNext .opened (.storeRecord record) = .opened := if_pos seed
        rw [still, set_found found]
        exact kept.storedSeed found served harmless
      · have next : phaseNext .opened (.storeRecord record) = .recorded := if_neg seed
        rw [next]
        exact kept.storedSeedless found (Bool.eq_false_iff.mpr seed) served harmless
    | _ => cases asks
  | enter session =>
    cases phase with
    | opened =>
      have still : phaseNext .opened (.enter session) = .opened := rfl
      rw [still, set_found found]
      exact kept.entersOpened found served harmless
    | recorded => exact kept.entersRecorded found asks served harmless
    | _ => cases asks
  | closing dropsSeed =>
    cases phase with
    | outside => cases asks
    | opened =>
      exact kept.closing found rfl (fun drops => by cases drops.symm.trans asks) served harmless
    | recorded =>
      exact kept.closing found rfl (fun drops => by cases drops.symm.trans asks) served harmless
    | entered => exact kept.closing found rfl (fun _ => rfl) served harmless
  | _ => cases phase <;> cases asks

end Runs

/-! ### What was read and still holds -/

/-- The session that was read is still there, and has no seed once that was dropped. -/
def SessionRead.Lasts (world : VaultWorld) (discarded : Prop) : SessionRead → Prop
  | .stored session =>
    world.sessionArea.isSome = true ∧ (discarded → session.hasSeed = false)
  | .held reference => world.cached.isSome = true ∧
      (discarded → ∀ session, world.objects[reference]? = some session → session.hasSeed = false)

/-- Until it is overtaken, what a call read still holds. -/
structure Recalled (world : VaultWorld) (history : VaultHistory) (discarded : Prop) (task : ℕ)
    (memory : Recollection) : Prop where
  session : NoneSince history task readsSession endsSession →
    ∀ read, memory.session = some read → read.Lasts world discarded
  stored : NoneSince history task readsRecord storesSeedless → RecordSeedless world →
    ¬ memory.MayWriteSeed
  entered : NoneSince history task readsRecord entersSeedless → discarded →
    ¬ memory.MayWriteSeed

section Recalled

variable {world after : VaultWorld} {history : VaultHistory} {discarded now : Prop}
  {task index : ℕ} {memory : Recollection} {phases : List VaultPhase} {phase : VaultPhase}
  {request : VaultRequest} {answer : VaultAnswer request}

theorem undisturbed_cons {marks kind : VaultRequest → Bool}
    (other : index ≠ task ∨ marks request = false)
    (still : NoneSince (⟨index, request, answer⟩ :: history) task marks kind) :
    kind request = false ∧ NoneSince history task marks kind := by
  unfold NoneSince at still
  rw [History.since_cons other] at still
  exact ⟨still _ List.mem_cons_self, fun earlier member => still earlier (List.mem_cons_of_mem _ member)⟩

theorem entersSeedless_of_endsSession (keeps : endsSession request = false) :
    entersSeedless request = false := by
  cases request with
  | clear => rfl
  | _ => exact keeps

/-- Only a lock takes the session away. -/
theorem session_serves (served : vaultServes world request answer after)
    (keeps : endsSession request = false) :
    (world.sessionArea.isSome = true → after.sessionArea.isSome = true) ∧
      (world.cached.isSome = true → after.cached.isSome = true) := by
  cases request with
  | opening => exact Eq.symm served ▸ ⟨id, id⟩
  | closing dropsSeed => exact Eq.symm served ▸ ⟨id, id⟩
  | storeRecord record => exact Eq.symm served ▸ ⟨id, id⟩
  | cacheStored session => exact Eq.symm served ▸ ⟨id, fun _ => rfl⟩
  | enter session => exact served.2 ▸ ⟨fun _ => rfl, fun _ => rfl⟩
  | clear => cases keeps
  | storeActivity reference time =>
    obtain rfl := served
    rcases @touched_cases world reference time with same | ⟨session, found, written⟩
    · rw [same]
      exact ⟨id, id⟩
    · rw [written]
      exact ⟨fun _ => rfl, id⟩
  | _ => exact still_serves rfl served ▸ ⟨id, id⟩

theorem seedless_hold {reference : ℕ}
    (seedless : ∀ session, world.objects[reference]? = some session → session.hasSeed = false)
    {added : UnlockedSession} (without : added.hasSeed = false) (session : UnlockedSession)
    (found : (world.hold added).objects[reference]? = some session) : session.hasSeed = false := by
  unfold VaultWorld.hold at found
  by_cases old : reference < world.objects.length
  · rw [List.getElem?_append_left old] at found
    exact seedless session found
  · rw [List.getElem?_append_right (not_lt.mp old), List.getElem?_singleton] at found
    split at found
    · obtain rfl := Option.some.inj found
      exact without
    · cases found

/-- An object without the seed stays so, as no object with the seed is added. -/
theorem objects_serves (served : vaultServes world request answer after)
    (writes : WritesSeedless world request) {reference : ℕ}
    (seedless : ∀ session, world.objects[reference]? = some session → session.hasSeed = false) :
    ∀ session, after.objects[reference]? = some session → session.hasSeed = false := by
  cases request with
  | opening => exact Eq.symm served ▸ seedless
  | closing dropsSeed => exact Eq.symm served ▸ seedless
  | storeRecord record => exact Eq.symm served ▸ seedless
  | clear => exact Eq.symm served ▸ seedless
  | cacheStored added =>
    obtain rfl := served
    exact seedless_hold seedless writes
  | enter added =>
    obtain ⟨_, rfl⟩ := served
    exact seedless_hold seedless writes
  | storeActivity other time =>
    obtain rfl := served
    rcases @touched_cases world other time with same | ⟨touched, present, written⟩
    · rw [same]
      exact seedless
    · rw [written]
      intro session found
      by_cases same : other = reference
      · subst same
        rw [List.getElem?_set_self (List.getElem?_eq_some_iff.mp present).1] at found
        obtain rfl := Option.some.inj found
        exact seedless touched present
      · rw [List.getElem?_set_ne same] at found
        exact seedless session found
  | _ => exact still_serves rfl served ▸ seedless

/-- A record without the seed was there before, unless it is the one that is stored. -/
theorem recordSeedless_of_serves (served : vaultServes world request answer after)
    (keeps : storesSeedless request = false) (seedless : RecordSeedless after) :
    RecordSeedless world := by
  cases request with
  | storeRecord record =>
    obtain rfl := served
    obtain ⟨stored, same, without⟩ := seedless
    obtain rfl := Option.some.inj same
    have seed : (!record.hasSeed) = false := keeps
    rw [without] at seed
    cases seed
  | storeActivity reference time =>
    obtain rfl := served
    rcases @touched_cases world reference time with same | ⟨session, found, written⟩
    · rwa [same] at seedless
    · rwa [written] at seedless
  | opening => rwa [show after = _ from served] at seedless
  | closing dropsSeed => rwa [show after = _ from served] at seedless
  | cacheStored session => rwa [show after = _ from served] at seedless
  | enter session => rwa [show after = _ from served.2] at seedless
  | clear => rwa [show after = _ from served] at seedless
  | _ => rwa [still_serves rfl served] at seedless

theorem SessionRead.Lasts.serves {read : SessionRead} (lasts : read.Lasts world discarded)
    (served : vaultServes world request answer after) (keeps : endsSession request = false)
    (writes : discarded → WritesSeedless world request) (before : now → discarded) :
    read.Lasts after now := by
  obtain ⟨stored, cached⟩ := session_serves served keeps
  cases read with
  | stored session => exact ⟨stored lasts.1, fun dropped => lasts.2 (before dropped)⟩
  | held reference =>
    exact ⟨cached lasts.1, fun dropped =>
      objects_serves served (writes (before dropped)) (lasts.2 (before dropped))⟩

/-- What a call read of a session lasts through an answer to another request. -/
theorem Recalled.session_cons (recalled : Recalled world history discarded task memory)
    (other : index ≠ task ∨ readsSession request = false)
    (served : vaultServes world request answer after)
    (writes : discarded → WritesSeedless world request)
    (before : now → discarded ∨ entersSeedless request = true)
    (still : NoneSince (⟨index, request, answer⟩ :: history) task readsSession endsSession)
    (read : SessionRead) (was : memory.session = some read) : read.Lasts after now := by
  obtain ⟨keeps, earlier⟩ := undisturbed_cons other still
  refine (recalled.session earlier read was).serves served keeps writes fun dropped => ?_
  refine (before dropped).resolve_right fun enters => ?_
  rw [entersSeedless_of_endsSession keeps] at enters
  cases enters

theorem Recalled.stored_cons (recalled : Recalled world history discarded task memory)
    (other : index ≠ task ∨ readsRecord request = false)
    (served : vaultServes world request answer after)
    (still : NoneSince (⟨index, request, answer⟩ :: history) task readsRecord storesSeedless)
    (seedless : RecordSeedless after) : ¬ memory.MayWriteSeed := by
  obtain ⟨keeps, earlier⟩ := undisturbed_cons other still
  exact recalled.stored earlier (recordSeedless_of_serves served keeps seedless)

theorem Recalled.entered_cons (recalled : Recalled world history discarded task memory)
    (other : index ≠ task ∨ readsRecord request = false)
    (before : now → discarded ∨ entersSeedless request = true)
    (still : NoneSince (⟨index, request, answer⟩ :: history) task readsRecord entersSeedless)
    (dropped : now) : ¬ memory.MayWriteSeed := by
  obtain ⟨keeps, earlier⟩ := undisturbed_cons other still
  refine recalled.entered earlier ((before dropped).resolve_right fun enters => ?_)
  rw [keeps] at enters
  cases enters

/-- A record without the seed, just looked up. -/
theorem not_mayWriteSeed (seedless : RecordSeedless world) :
    ¬ ({ memory with record := some world.record } : Recollection).MayWriteSeed := by
  rintro ⟨found, same, seeds⟩
  obtain rfl := Option.some.inj same
  obtain ⟨record, present, without⟩ := seedless
  rw [seeds record present] at without
  cases without

/-- What a call read holds after an answer of its own. -/
theorem Recalled.next (recalled : Recalled world history discarded task memory)
    (served : vaultServes world request answer after)
    (free : discarded → SeedFree world)
    (writes : discarded → WritesSeedless world request)
    (before : now → discarded ∨ entersSeedless request = true) :
    Recalled after (⟨task, request, answer⟩ :: history) now task
      (recollection.next memory request answer) := by
  have same (session : readsSession request = false) (record : readsRecord request = false) :
      Recalled after (⟨task, request, answer⟩ :: history) now task memory :=
    ⟨recalled.session_cons (.inr session) served writes before,
      recalled.stored_cons (.inr record) served, recalled.entered_cons (.inr record) before⟩
  cases request with
  | cached =>
    refine ⟨fun _ read was => ?_, recalled.stored_cons (.inr rfl) served,
      recalled.entered_cons (.inr rfl) before⟩
    obtain ⟨rfl, rfl⟩ := served
    obtain ⟨reference, cached, rfl⟩ := Option.map_eq_some_iff.mp was
    refine ⟨by rw [cached]; rfl, fun dropped session found => ?_⟩
    refine (free ((before dropped).resolve_right nofun)).held session ?_
    unfold VaultWorld.held
    rw [cached]
    exact found
  | stored =>
    refine ⟨fun _ read was => ?_, recalled.stored_cons (.inr rfl) served,
      recalled.entered_cons (.inr rfl) before⟩
    obtain ⟨rfl, rfl⟩ := served
    obtain ⟨session, present, rfl⟩ := Option.map_eq_some_iff.mp was
    refine ⟨by rw [present]; rfl, fun dropped => ?_⟩
    exact (free ((before dropped).resolve_right nofun)).stored session present
  | record =>
    refine ⟨recalled.session_cons (.inr rfl) served writes before, fun _ seedless => ?_,
      fun _ dropped => ?_⟩
    · obtain ⟨rfl, rfl⟩ := served
      exact not_mayWriteSeed seedless
    · obtain ⟨rfl, rfl⟩ := served
      exact not_mayWriteSeed (free ((before dropped).resolve_right nofun)).record
  | _ => exact same rfl rfl

/-- The seed is dropped by a call that enters a session without it. -/
theorem discarded_serves (found : phases[index]? = some phase)
    (asks : common request = true ∨ phaseAsks phase request)
    (served : vaultServes world request answer after)
    (dropped : Discarded after (phases.set index (phaseNext phase request))) :
    Discarded world phases ∨ entersSeedless request = true := by
  have member : phase ∈ phases := List.mem_of_getElem? found
  rcases asks with free | asks
  · obtain ⟨inside, rfl⟩ := List.getElem?_eq_some_iff.mp found
    rw [phaseNext_common free, List.set_getElem_self inside] at dropped
    exact .inl (dropped.imp_right fun is => (record_serves free served).2.1 ▸ is)
  rcases dropped with entered | dropped
  · rcases List.mem_or_eq_of_mem_set entered with old | new
    · exact .inl (.inl old)
    · unfold phaseNext at new
      split at new
      · cases new
      · split at new <;> cases new
      · next session =>
        have without : session.hasSeed = false := asks
        exact .inr (show (!session.hasSeed) = true by rw [without]; rfl)
      · cases new
      · exact .inl (.inl (new ▸ member))
  · cases request with
    | opening =>
      obtain rfl := served
      exact .inl (.inr dropped)
    | storeRecord record =>
      obtain rfl := served
      exact .inl (.inr dropped)
    | enter session =>
      obtain ⟨_, rfl⟩ := served
      exact .inl (.inr dropped)
    | closing drops =>
      obtain rfl := served
      rcases (Bool.or_eq_true _ _).mp dropped with before | drops
      · exact .inl (.inr before)
      · cases phase with
        | entered => exact .inl (.inl member)
        | outside => cases asks
        | opened => cases drops.symm.trans asks
        | recorded => cases drops.symm.trans asks
    | _ => cases phase <;> cases asks

end Recalled

/-! ### Timely runs -/

/-- What is final stays so, and every call remembers what still holds. -/
structure VaultRun (world : VaultWorld) (history : VaultHistory)
    (ghosts : List (VaultPhase × Recollection)) : Prop where
  kept : VaultKept world (ghosts.map Prod.fst)
  recalled : ∀ task ghost, ghosts[task]? = some ghost →
    Recalled world history (Discarded world (ghosts.map Prod.fst)) task ghost.2

section Run

variable {world after : VaultWorld} {history : VaultHistory}
  {ghosts : List (VaultPhase × Recollection)} {ghost : VaultPhase × Recollection} {index : ℕ}
  {request : VaultRequest} {answer : VaultAnswer request}

/-- A call that writes what it read, and was not overtaken, brings nothing back. -/
theorem VaultRun.harmless (run : VaultRun world history ghosts)
    (found : ghosts[index]? = some ghost) (asks : recollection.asks ghost.2 request)
    (timely : Timely history index request) :
    Harmless world (ghosts.map Prod.fst) request := by
  have recalled := run.recalled index ghost found
  cases request with
  | cacheStored session =>
    have lasts := recalled.session timely _ asks
    exact ⟨lasts.1, fun _ _ impossible => (by cases impossible), lasts.2⟩
  | storeActivity reference time =>
    have lasts := recalled.session timely _ asks
    exact ⟨lasts.1, fun _ _ impossible => (by cases impossible), lasts.2⟩
  | enter session =>
    refine ⟨trivial, fun _ _ impossible => (by cases impossible), fun dropped => ?_⟩
    exact Bool.eq_false_iff.mpr fun seed => recalled.entered (timely seed) dropped (asks seed)
  | storeRecord record =>
    have without (seedless : RecordSeedless world) : record.hasSeed = false :=
      Bool.eq_false_iff.mpr fun seed => recalled.stored (timely seed) seedless (asks seed)
    refine ⟨trivial, fun seedless stored same => ?_, fun dropped => ?_⟩
    · obtain rfl := VaultRequest.storeRecord.inj same
      exact without seedless
    · exact without (run.kept.discarded dropped).record
  | _ => exact ⟨trivial, fun _ _ impossible => (by cases impossible), fun _ => trivial⟩

theorem VaultRun.serves (run : VaultRun world history ghosts)
    (found : ghosts[index]? = some ghost) (asks : (entry.both recollection).asks ghost request)
    (timely : Timely history index request) (served : vaultServes world request answer after) :
    VaultRun after (⟨index, request, answer⟩ :: history)
      (ghosts.set index ((entry.both recollection).next ghost request answer)) := by
  have harmless := run.harmless found asks.2 timely
  have phase : (ghosts.map Prod.fst)[index]? = some ghost.1 := by
    rw [List.getElem?_map, found]
    rfl
  have moved : (ghosts.set index ((entry.both recollection).next ghost request answer)).map Prod.fst =
      (ghosts.map Prod.fst).set index (phaseNext ghost.1 request) := List.map_set
  have before := discarded_serves phase asks.1 served
  refine ⟨moved ▸ run.kept.serves phase asks.1 served harmless, fun task later present => ?_⟩
  rw [moved]
  by_cases own : index = task
  · subst own
    rw [List.getElem?_set_self (List.getElem?_eq_some_iff.mp found).1] at present
    obtain rfl := Option.some.inj present
    exact (run.recalled index ghost found).next served run.kept.discarded harmless.seedless before
  · rw [List.getElem?_set_ne own] at present
    have recalled := run.recalled task later present
    exact ⟨recalled.session_cons (.inl own) served harmless.seedless before,
      recalled.stored_cons (.inl own) served, recalled.entered_cons (.inl own) before⟩

/-- A call that starts has read nothing. -/
theorem VaultRun.start (run : VaultRun world history ghosts) :
    VaultRun world history (ghosts ++ [(.outside, ⟨none, none⟩)]) := by
  have phases : (ghosts ++ [(VaultPhase.outside, (⟨none, none⟩ : Recollection))]).map Prod.fst =
      ghosts.map Prod.fst ++ [.outside] := List.map_append
  have old : ∀ phase, phase ≠ .outside → phase ∈ ghosts.map Prod.fst ++ [VaultPhase.outside] →
      phase ∈ ghosts.map Prod.fst := by
    intro phase other member
    rcases List.mem_append.mp member with old | new
    · exact old
    · exact absurd (List.mem_singleton.mp new) other
  have before : Discarded world (ghosts.map Prod.fst ++ [.outside]) →
      Discarded world (ghosts.map Prod.fst) :=
    Or.imp_left (old .entered fun same => by cases same)
  constructor
  · rw [phases]
    refine ⟨?_, run.kept.locked, fun is => ?_, fun is => run.kept.discarded (before is)⟩
    · rw [List.countP_append, run.kept.counted]
      rfl
    · exact run.kept.recorded (old .recorded (fun same => by cases same) is)
  · intro task ghost present
    rw [phases]
    by_cases inside : task < ghosts.length
    · rw [List.getElem?_append_left inside] at present
      have recalled := run.recalled task ghost present
      refine ⟨fun still read was => ?_, recalled.stored, fun still is =>
        recalled.entered still (before is)⟩
      have lasts := recalled.session still read was
      cases read with
      | stored session => exact ⟨lasts.1, fun is => lasts.2 (before is)⟩
      | held reference => exact ⟨lasts.1, fun is => lasts.2 (before is)⟩
    · rw [List.getElem?_append_right (not_lt.mp inside), List.getElem?_singleton] at present
      split at present
      · obtain rfl := Option.some.inj present
        exact ⟨fun _ _ impossible => (by cases impossible),
          fun _ _ ⟨_, impossible, _⟩ => (by cases impossible),
          fun _ _ ⟨_, impossible, _⟩ => (by cases impossible)⟩
      · cases present

/-- The clock changes nothing of it. -/
theorem VaultRun.drift {later : VaultWorld} (run : VaultRun world history ghosts)
    (drift : vaultRuntime.drift world later) : VaultRun later history ghosts := by
  obtain ⟨now, _, rfl⟩ := drift
  have discarded : Discarded { world with time := now } (ghosts.map Prod.fst) ↔
      Discarded world (ghosts.map Prod.fst) := Iff.rfl
  refine ⟨⟨run.kept.counted, fun locked => ?_, fun is => run.kept.recorded is, fun is => ?_⟩,
    fun task ghost found => ?_⟩
  · obtain ⟨none, shut⟩ := run.kept.locked locked
    exact ⟨none, shut.cached, shut.stored⟩
  · have free := run.kept.discarded (discarded.mp is)
    exact ⟨free.record, free.held, free.stored⟩
  · have recalled := run.recalled task ghost found
    refine ⟨fun still read was => ?_, recalled.stored, recalled.entered⟩
    have lasts := recalled.session still read was
    cases read with
    | stored session => exact lasts
    | held reference => exact lasts

/-- Throughout a run in which nothing out of date is written back, what is final stays so. -/
theorem vaultRun_reached {keys : KeyLibrary} (reached : ReachedTimely keys world) :
    ∃ history ghosts, VaultRun world history ghosts := by
  obtain ⟨record, sessionArea, time, history, calls, recorded⟩ := reached
  have starts : ∀ (program : VaultAction VaultOutcome) (world : VaultWorld)
      (history : VaultHistory) (ghosts : List (VaultPhase × Recollection)),
      VaultStarted keys program → VaultRun world history ghosts →
        ∃ ghost, (entry.both recollection).Follows (fun _ _ => True) program ghost ∧
          VaultRun world history (ghosts ++ [ghost]) := by
    rintro program world history ghosts ⟨call, rfl⟩ run
    exact ⟨_, ((follows_perform keys call).both (recalls_perform keys call)).weaken
      fun _ _ _ => trivial, run.start⟩
  have serves : ∀ (index : ℕ) (world : VaultWorld) (history : VaultHistory)
      (ghosts : List (VaultPhase × Recollection)) (ghost : VaultPhase × Recollection)
      (request : VaultRequest) (answer : VaultAnswer request) (after : VaultWorld),
      VaultRun world history ghosts → ghosts[index]? = some ghost →
      (entry.both recollection).asks ghost request → TimelyEvent history ⟨index, request, answer⟩ →
      vaultRuntime.serve world request answer after →
        (entry.both recollection).gets ghost request answer ∧
          VaultRun after (⟨index, request, answer⟩ :: history)
            (ghosts.set index ((entry.both recollection).next ghost request answer)) :=
    fun _ _ _ _ _ _ _ _ run found asks timely served =>
      ⟨⟨trivial, trivial⟩, run.serves found asks timely served⟩
  have fresh : VaultRun (.started record sessionArea time) [] [] := by
    refine ⟨⟨rfl, fun locked => ?_, fun is => absurd is List.not_mem_nil, fun is => ?_⟩,
      fun task ghost impossible => ?_⟩
    · cases locked
    · cases is.resolve_left List.not_mem_nil
    · cases impossible
  obtain ⟨ghosts, run, _⟩ : ∃ ghosts, VaultRun world history ghosts ∧
      Runtime.Standing (entry.both recollection) calls ghosts :=
    Runtime.invariant_records (fun _ _ _ _ run drift => run.drift drift) serves starts fresh
      recorded
  exact ⟨history, ghosts, run⟩

end Run

/-! ### Sample runs -/

section Sample

instance (history : VaultHistory) (task : ℕ) :
    (request : VaultRequest) → Decidable (Timely history task request)
  | .cacheStored _ => inferInstanceAs (Decidable (NoneSince history task _ _))
  | .storeActivity _ _ => inferInstanceAs (Decidable (NoneSince history task _ _))
  | .enter session =>
    inferInstanceAs (Decidable (session.hasSeed = true → NoneSince history task _ _))
  | .storeRecord record =>
    inferInstanceAs (Decidable (record.hasSeed = true → NoneSince history task _ _))
  | .opening => .isTrue trivial
  | .closing _ => .isTrue trivial
  | .now => .isTrue trivial
  | .random => .isTrue trivial
  | .tick => .isTrue trivial
  | .record => .isTrue trivial
  | .cached => .isTrue trivial
  | .session _ => .isTrue trivial
  | .stored => .isTrue trivial
  | .clear => .isTrue trivial

/-- Serve a request; every random value is a seed of ones. -/
def vaultAct (world : VaultWorld) : (request : VaultRequest) → VaultAnswer request × VaultWorld
  | .opening => ((), { world with entering := world.entering + 1, locked := false })
  | .closing dropsSeed =>
    ((), { world with entering := world.entering - 1, dropped := world.dropped || dropsSeed })
  | .now => (world.time, world)
  | .random => (List.replicate 32 1, world)
  | .tick => ((), world)
  | .record => (world.record, world)
  | .storeRecord record => ((), { world with record := some record })
  | .cached => (world.cached, world)
  | .session reference => (world.objects[reference]?, world)
  | .stored => (world.sessionArea, world)
  | .cacheStored session => ((), world.hold session)
  | .enter session =>
    (world.objects.length, { world.hold session with sessionArea := some session })
  | .clear =>
    ((), { world with cached := none, sessionArea := none, locked := world.entering == 0 })
  | .storeActivity reference time => ((), world.touched reference time)

theorem vaultAct_serves (world : VaultWorld) (request : VaultRequest) :
    vaultServes world request (vaultAct world request).1 (vaultAct world request).2 := by
  cases request with
  | now => exact ⟨rfl, rfl⟩
  | record => exact ⟨rfl, rfl⟩
  | cached => exact ⟨rfl, rfl⟩
  | session reference => exact ⟨rfl, rfl⟩
  | stored => exact ⟨rfl, rfl⟩
  | enter session => exact ⟨rfl, rfl⟩
  | _ => rfl

def sampleKeys : KeyLibrary where
  account _ := "account"
  encryptionSecret _ _ := List.replicate 32 2
  encryptionPublicKey secret := secret
  address _ := "device"
  importIdentity _ := .error "not an identity file"

/-- The vault of a seed of ones. -/
def sampleVault : VaultRecord where
  account := "account"
  mode := .owner
  keyVersion := 1
  blob :=
    { secrets :=
        { seed := List.replicate 32 1
          keyVersion := 1
          account := "account"
          deviceSecret := some (List.replicate 32 3)
          deviceAddress := some "device"
          mode := some .owner
          device := none }
      passphrase := "passphrase" }
  device := none
  createdAt := 0
  updatedAt := 0

def sampleAuthorization : DeviceAuthorization where
  passphrase := "passphrase"
  keepOwnerSeed := false
  device := ⟨"device", 15, "0", 0, none, "browser"⟩

abbrev VaultTurn := Runtime.Turn VaultRequest VaultAnswer VaultWorld String VaultOutcome

/-- A call begins, or the one at an index goes on. -/
def turnOf : VaultCall ⊕ ℕ → VaultTurn
  | .inl call => .start (perform sampleKeys call)
  | .inr index => .resume index vaultAct

/-- What some turns make of a vault that was just started. -/
def vaultPlayed (turns : List (VaultCall ⊕ ℕ)) : VaultWorld × VaultCalls :=
  Runtime.play vaultWaits vaultAct (.started (some sampleVault) none 0, []) (turns.map turnOf)

theorem vaultReached_played (turns : List (VaultCall ⊕ ℕ)) :
    VaultReached sampleKeys (vaultPlayed turns).1 := by
  refine ⟨some sampleVault, none, 0, (vaultPlayed turns).2, ?_⟩
  have serving : ∀ (world : VaultWorld) (request : VaultRequest),
      vaultRuntime.awaits request = false →
        vaultRuntime.serve world request (vaultAct world request).1 (vaultAct world request).2 :=
    fun world request _ => vaultAct_serves world request
  refine Runtime.reaches_play serving _ (fun turn member => ?_) _
  obtain ⟨step, _, rfl⟩ := List.mem_map.mp member
  cases step with
  | inl call => exact ⟨call, rfl⟩
  | inr index => exact fun world request _ => vaultAct_serves world request

/-- A call begins, or the one at an index goes on. -/
def vaultStep : VaultCall ⊕ ℕ → VaultAction VaultOutcome ⊕ ℕ
  | .inl call => .inl (perform sampleKeys call)
  | .inr index => .inr index

/-- The same, with a record of what was asked. -/
def vaultRecorded (turns : List (VaultCall ⊕ ℕ)) : VaultWorld :=
  (Runtime.playRecorded (fun _ _ => vaultAct) vaultWaits (.started (some sampleVault) none 0)
    (turns.map vaultStep)).1.1

theorem reachedTimely_recorded (turns : List (VaultCall ⊕ ℕ))
    (checked : Runtime.permitsEach vaultWaits (Runtime.recorded fun _ _ => vaultAct)
      (fun task both request => decide (Timely both.2 task request))
      ((.started (some sampleVault) none 0, []), [])
      ((turns.map vaultStep).map (Runtime.stepTurn fun _ _ => vaultAct)) = true) :
    ReachedTimely sampleKeys (vaultRecorded turns) := by
  have serving : ∀ (task : ℕ) (history : VaultHistory) (world : VaultWorld)
      (request : VaultRequest),
      vaultRuntime.serve world request (vaultAct world request).1 (vaultAct world request).2 :=
    fun _ _ world request => vaultAct_serves world request
  refine ⟨some sampleVault, none, 0, _, _, Runtime.records_playRecorded serving
    (fun task history world request either => ?_) (fun program member => ?_) checked⟩
  · rcases either with waits | permitted
    · cases request with
      | tick => exact trivial
      | _ => cases waits
    · exact (of_decide_eq_true permitted : Timely history task request)
  · obtain ⟨step, _, same⟩ := List.mem_map.mp member
    cases step with
    | inl call => exact ⟨call, (Sum.inl.inj same).symm⟩
    | inr index => cases same

/-- A call goes on to its end. -/
def toItsEnd (index : ℕ) : List (VaultCall ⊕ ℕ) := List.replicate 12 (.inr index)

/-- A call records activity while the vault is locked. -/
def lockedTurns : List (VaultCall ⊕ ℕ) :=
  [.inl (.unlock "passphrase")] ++ toItsEnd 0 ++ [.inl .touch, .inl .lock] ++ toItsEnd 1

/-- A call records activity while the seed is dropped. -/
def droppedTurns : List (VaultCall ⊕ ℕ) :=
  [.inl (.unlock "passphrase")] ++ toItsEnd 0 ++
    [.inl .touch, .inl (.completeDeviceAuthorization sampleAuthorization)] ++ toItsEnd 2 ++
      toItsEnd 1

/-- One call after the other: the vault is unlocked, used, authorized and locked. -/
def orderlyTurns : List (VaultCall ⊕ ℕ) :=
  [.inl (.unlock "passphrase")] ++ toItsEnd 0 ++ [.inl .touch] ++ toItsEnd 1 ++
    [.inl (.completeDeviceAuthorization sampleAuthorization)] ++ toItsEnd 2 ++ [.inl .lock] ++
      toItsEnd 3

end Sample

end OpenSocial.Extension
