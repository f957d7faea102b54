/-
This file says when a client that polls its notifications misses none.

The client is compared with a reader who does not know of ids or cursors: it counts
the notifications of the chain and remembers how far it has come. A block that
replaces another and gives the account a notification in a place the reader is past
is what the client misses, for the ids of the table are the places in it.
-/

import OpenSocial.Indexer.Notifications

namespace OpenSocial.Indexer

open Library

/-! ### A reader of the chain's notifications -/

/-- The account's notifications, each with the number of notifications before it. -/
def placesOf (db : Database) (account : Address) : List (NotificationRow × ℕ) :=
  db.notifications.zipIdx.filter fun entry => entry.1.account = account

/-- How many notifications of the chain there are up to the last one the reader was shown, whether
it has polled yet, and what it was shown. -/
structure Reader where
  read : ℕ
  polled : Bool
  shown : List NotificationView

namespace Reader

def start : Reader := ⟨0, false, []⟩

variable (reader : Reader) (db : Database) (account : Address) (limit : ℕ)

/-- What a poll shows: the last ones to a reader who was shown none, else the next ones. -/
def page : List (NotificationRow × ℕ) :=
  if reader.read = 0 then
    (placesOf db account).drop ((placesOf db account).length - limit)
  else ((placesOf db account).filter fun entry => reader.read ≤ entry.2).take limit

def poll : Reader where
  read := ((reader.page db account limit).getLast?.map fun entry => entry.2 + 1).getD reader.read
  polled := true
  shown := reader.shown ++ (reader.page db account limit).map fun entry => notificationView entry.1

end Reader

section Reading

variable {runtime : Runtime} (startHeight : ℕ) (account : Address)

/-- The indexer and the reader. -/
def observe (state : IndexerDb × Reader) : PollStep runtime → IndexerDb × Reader
  | .log call => ((perform startHeight state.1 call).2, state.2)
  | .poll limit => (state.1, state.2.poll state.1.projections account limit)

def observed (steps : List (PollStep runtime)) : IndexerDb × Reader :=
  steps.foldl (observe startHeight account) (.empty, .start)

/-- After the first poll, no block puts a notification of the account into a place that the reader is
past, unless the reader was shown it; and a poll of a reader who was shown none has room for all of
the account's notifications. -/
def Allowed (state : IndexerDb × Reader) : PollStep runtime → Prop
  | .log call => state.2.polled = true →
    ∀ entry ∈ placesOf (perform startHeight state.1 call).2.projections account,
      state.1.projections.notifications.length ≤ entry.2 →
        notificationView entry.1 ∈ state.2.shown ∨ state.2.read ≤ entry.2
  | .poll limit => state.2.polled = true → state.2.read = 0 →
    (notificationsOf state.1.projections account).length ≤ limit

instance decidableAllowed (state : IndexerDb × Reader) : (step : PollStep runtime) →
    Decidable (Allowed startHeight account state step)
  | .log call => inferInstanceAs (Decidable (state.2.polled = true →
    ∀ entry ∈ placesOf (perform startHeight state.1 call).2.projections account,
      state.1.projections.notifications.length ≤ entry.2 →
        notificationView entry.1 ∈ state.2.shown ∨ state.2.read ≤ entry.2))
  | .poll limit => inferInstanceAs (Decidable (state.2.polled = true → state.2.read = 0 →
    (notificationsOf state.1.projections account).length ≤ limit))

/-- Every step is allowed where it is taken. -/
def AllAllowed : IndexerDb × Reader → List (PollStep runtime) → Prop
  | _, [] => True
  | state, step :: rest =>
    Allowed startHeight account state step ∧
      AllAllowed (observe startHeight account state step) rest

instance decidableAllAllowed : (state : IndexerDb × Reader) → (steps : List (PollStep runtime)) →
    Decidable (AllAllowed startHeight account state steps)
  | _, [] => inferInstanceAs (Decidable True)
  | state, step :: rest =>
    have := decidableAllowed startHeight account state step
    have := decidableAllAllowed (observe startHeight account state step) rest
    inferInstanceAs (Decidable (Allowed startHeight account state step ∧ _))

end Reading

/-! ### The client reads as the reader does -/

/-- The client's cursor is the place the reader has come to, and the client was told of what the
reader was shown. -/
structure ReadsAs (state : Polling) (seen : IndexerDb × Reader) : Prop where
  db : seen.1 = state.db
  polled : seen.2.polled = state.polled
  cursor : state.cursor = if seen.2.read = 0 then none else some seen.2.read
  shown : seen.2.shown = state.returned

section Places

variable {db : Database} {account : Address}

theorem mem_placesOf {entry : NotificationRow × ℕ} :
    entry ∈ placesOf db account ↔
      db.notifications[entry.2]? = some entry.1 ∧ entry.1.account = account := by
  rw [placesOf, List.mem_filter, List.mem_zipIdx_iff_getElem?, decide_eq_true_eq]

/-- The ids count the notifications up to their own. -/
theorem id_of_place (numbered : Numbered db.notifications) {entry : NotificationRow × ℕ}
    (member : entry ∈ placesOf db account) : entry.1.id = entry.2 + 1 := by
  have listed := (mem_placesOf.mp member).1
  have inside : entry.2 < db.notifications.length := (List.getElem?_eq_some_iff.mp listed).1
  have ids : (db.notifications.map NotificationRow.id)[entry.2]? = some entry.1.id := by
    rw [List.getElem?_map, listed]
    rfl
  rw [numbered, List.getElem?_range' inside] at ids
  have same := Option.some.inj ids
  omega

theorem placesOf_map : (placesOf db account).map Prod.fst = notificationsOf db account := by
  have rows := @List.filter_map _ _ Prod.fst (fun row => decide (row.account = account))
    db.notifications.zipIdx
  rw [List.zipIdx_map_fst] at rows
  exact rows.symm

theorem placesOf_beyond (numbered : Numbered db.notifications) (read : ℕ) :
    ((placesOf db account).filter fun entry => read ≤ entry.2).map Prod.fst =
      unseen db account (some read) := by
  have rows := @List.filter_map _ _ Prod.fst (fun row : NotificationRow => decide (read < row.id))
    (placesOf db account)
  rw [placesOf_map] at rows
  refine (congrArg (List.map Prod.fst) (List.filter_congr fun entry member => ?_)).trans rows.symm
  have same := id_of_place numbered member
  refine decide_eq_decide.mpr ?_
  show read ≤ entry.2 ↔ read < entry.1.id
  omega

variable {reader : Reader} {cursor : Option ℕ} (numbered : Numbered db.notifications)
  (same : cursor = if reader.read = 0 then none else some reader.read)
include numbered same

/-- A poll shows the reader the rows of the page. -/
theorem page_rows (limit : ℕ) :
    (reader.page db account limit).map Prod.fst = notificationRows db account cursor limit := by
  have ordered := ordered_of_numbered numbered
  unfold Reader.page
  split
  · next none_read =>
    rw [same, if_pos none_read, notificationRows_none ordered, List.map_drop, placesOf_map,
      ← placesOf_map, List.length_map]
  · next some_read =>
    rw [same, if_neg some_read, notificationRows_some ordered, List.map_take,
      placesOf_beyond numbered]

/-- The next cursor is the place the reader has come to. -/
theorem nextCursor_read (limit : ℕ) :
    (notifications db account cursor limit).nextCursor =
      if (reader.poll db account limit).read = 0 then none
      else some (reader.poll db account limit).read := by
  rw [nextCursor_eq, ← page_rows numbered same limit, List.getLast?_map]
  have read : (reader.poll db account limit).read =
      ((reader.page db account limit).getLast?.map fun entry => entry.2 + 1).getD reader.read := rfl
  rw [read]
  cases last : (reader.page db account limit).getLast? with
  | none => exact same
  | some entry =>
    have member : entry ∈ placesOf db account := by
      have inside := List.mem_of_getLast? last
      unfold Reader.page at inside
      split at inside
      · exact List.mem_of_mem_drop inside
      · exact (List.mem_filter.mp (List.mem_of_mem_take inside)).1
    show (some entry.1.id).or cursor = if entry.2 + 1 = 0 then none else some (entry.2 + 1)
    rw [id_of_place numbered member, if_neg (Nat.succ_ne_zero _)]
    rfl

end Places

section Following

variable {runtime : Runtime} {startHeight : ℕ} {account : Address} {state : Polling}
  {seen : IndexerDb × Reader}

/-- The database is one that linked blocks fill. -/
abbrev Filled (startHeight : ℕ) (runtime : Runtime) (db : IndexerDb) : Prop :=
  ∃ blocks : List (ChainBlock runtime.codec), Linked startHeight blocks ∧
    db = databaseOf runtime blocks

theorem follows_start : ReadsAs .start (.empty, .start) := ⟨rfl, rfl, rfl, rfl⟩

theorem follows_step (filled : Filled startHeight runtime state.db) (follows : ReadsAs state seen)
    (step : PollStep runtime) :
    ReadsAs (advance startHeight account state step) (observe startHeight account seen step) := by
  cases step with
  | log call =>
    refine ⟨?_, follows.polled, follows.cursor, follows.shown⟩
    show (perform startHeight seen.1 call).2 = (perform startHeight state.db call).2
    rw [follows.db]
  | poll limit =>
    have numbered := numbered_of_filled filled
    refine ⟨follows.db, rfl, ?_, ?_⟩
    · show (notifications state.db.projections account state.cursor limit).nextCursor = _
      rw [nextCursor_read numbered follows.cursor limit, ← follows.db]
      rfl
    · show seen.2.shown ++ (seen.2.page seen.1.projections account limit).map _ =
        state.returned ++ (notificationRows state.db.projections account state.cursor limit).map _
      rw [follows.shown, follows.db, ← page_rows numbered follows.cursor limit, List.map_map]
      rfl

/-- What is beyond the cursor is what the reader has not come to. -/
theorem due_iff {db : Database} (numbered : Numbered db.notifications)
    (follows : ReadsAs state seen) {entry : NotificationRow × ℕ}
    (member : entry ∈ placesOf db account) :
    Due state entry.1 ↔ notificationView entry.1 ∈ seen.2.shown ∨ seen.2.read ≤ entry.2 := by
  have id := id_of_place numbered member
  unfold Due
  rw [follows.shown, follows.cursor]
  refine or_congr Iff.rfl ?_
  split
  · next none_read =>
    rw [none_read]
    exact iff_of_true (fun _ impossible => by cases impossible) (Nat.zero_le _)
  · constructor
    · intro beyond
      have above := beyond _ rfl
      omega
    · rintro reached _ ⟨⟩
      omega

/-- What a call writes of the account stands behind what there was. -/
theorem mem_written {call : LogCall runtime} {row : NotificationRow} :
    row ∈ written startHeight state.db call ∧ row.account = account ↔
      ∃ place, (row, place) ∈ placesOf (perform startHeight state.db call).2.projections account ∧
        state.db.projections.notifications.length ≤ place := by
  unfold written
  rw [List.mem_iff_getElem?]
  constructor
  · rintro ⟨⟨index, listed⟩, mine⟩
    rw [List.getElem?_drop] at listed
    exact ⟨_, mem_placesOf.mpr ⟨listed, mine⟩, Nat.le_add_right _ _⟩
  · rintro ⟨place, member, behind⟩
    obtain ⟨listed, mine⟩ := mem_placesOf.mp member
    refine ⟨⟨place - state.db.projections.notifications.length, ?_⟩, mine⟩
    rw [List.getElem?_drop, Nat.add_sub_cancel' behind]
    exact listed

theorem timely_iff (filled : Filled startHeight runtime state.db) (follows : ReadsAs state seen)
    (step : PollStep runtime) :
    Timely startHeight account state step ↔ Allowed startHeight account seen step := by
  cases step with
  | log call =>
    have after : Filled startHeight runtime (perform startHeight state.db call).2 :=
      @filled_advance runtime startHeight account state filled (.log call)
    obtain ⟨blocks, _, same⟩ := after
    have numbered : Numbered (perform startHeight state.db call).2.projections.notifications := by
      rw [same]
      exact numbered_blockNotifications blocks
    show (state.polled = true → _) ↔ (seen.2.polled = true → _)
    rw [follows.polled, follows.db]
    refine imp_congr_right fun _ => ⟨fun due entry member behind => ?_, fun due row new mine => ?_⟩
    · obtain ⟨new, mine⟩ := mem_written.mpr ⟨entry.2, member, behind⟩
      exact (due_iff numbered follows member).mp (due entry.1 new mine)
    · obtain ⟨place, member, behind⟩ := mem_written.mp ⟨new, mine⟩
      exact (due_iff numbered follows member).mpr (due _ member behind)
  | poll limit =>
    show (state.polled = true → state.cursor = none → _) ↔ (seen.2.polled = true → seen.2.read = 0 → _)
    rw [follows.polled, follows.db, follows.cursor]
    refine imp_congr_right fun _ => imp_congr_left ?_
    split
    · next none_read => exact iff_of_true rfl none_read
    · next some_read => exact iff_of_false (Option.some_ne_none _) some_read

theorem allTimely_of_allAllowed (filled : Filled startHeight runtime state.db)
    (follows : ReadsAs state seen) {steps : List (PollStep runtime)}
    (allowed : AllAllowed startHeight account seen steps) :
    AllTimely startHeight account state steps := by
  induction steps generalizing state seen with
  | nil => trivial
  | cons step rest inductionHypothesis =>
    exact ⟨(timely_iff filled follows step).mpr allowed.1,
      inductionHypothesis (filled_advance filled step) (follows_step filled follows step) allowed.2⟩

theorem follows_run (filled : Filled startHeight runtime state.db) (follows : ReadsAs state seen)
    (steps : List (PollStep runtime)) :
    ReadsAs (steps.foldl (advance startHeight account) state)
      (steps.foldl (observe startHeight account) seen) := by
  induction steps generalizing state seen with
  | nil => exact follows
  | cons step rest inductionHypothesis =>
    exact inductionHypothesis (filled_advance filled step) (follows_step filled follows step)

end Following

/-! ### The runs that miss nothing -/

section Runs

variable (runtime : Runtime) (startHeight : ℕ) (account : Address)

theorem stateAfter_append (steps more : List (PollStep runtime)) :
    stateAfter startHeight account (steps ++ more) =
      more.foldl (advance startHeight account) (stateAfter startHeight account steps) :=
  List.foldl_append

theorem stateAfter_polls (steps : List (PollStep runtime)) (limits : List ℕ+) :
    stateAfter startHeight account (steps ++ limits.map .poll) =
      limits.foldl (Polling.poll account) (stateAfter startHeight account steps) := by
  rw [stateAfter_append, List.foldl_map]
  rfl

theorem filled_stateAfter (steps : List (PollStep runtime)) :
    ∃ blocks : List (ChainBlock runtime.codec), Linked startHeight blocks ∧
      (stateAfter startHeight account steps).db = databaseOf runtime blocks := by
  induction steps using List.reverseRecOn with
  | nil => exact ⟨[], linked_nil, rfl⟩
  | append_singleton steps step inductionHypothesis =>
    rw [stateAfter_append]
    exact filled_advance inductionHypothesis step

/-- In every state that allowed steps reach, enough allowed polls tell the client of every
notification that is fresh; and a step that is not allowed leaves one that no polls tell of. -/
theorem polls_miss_nothing (steps : List (PollStep runtime))
    (allowed : AllAllowed startHeight account (.empty, .start) steps) :
    (∀ limits : List ℕ+,
      @AllAllowed runtime startHeight account (observed startHeight account steps)
        (limits.map .poll) →
      (notificationsOf (stateAfter startHeight account steps).db.projections account).length ≤
        limits.length →
      ∀ row ∈ fresh account (stateAfter startHeight account steps),
        notificationView row ∈
          (stateAfter startHeight account (steps ++ limits.map .poll)).returned) ∧
    ∀ step, ¬ Allowed startHeight account (observed startHeight account steps) step →
      ∃ row ∈ fresh account (stateAfter startHeight account (steps ++ [step])),
        ∀ limits : List ℕ+, notificationView row ∉
          (stateAfter startHeight account (steps ++ [step] ++ limits.map .poll)).returned := by
  have filled : Filled startHeight runtime Polling.start.db := ⟨[], linked_nil, rfl⟩
  have kept : Kept startHeight account runtime (stateAfter startHeight account steps) :=
    kept_run kept_start (allTimely_of_allAllowed filled follows_start allowed)
  have follows : ReadsAs (stateAfter startHeight account steps)
      (observed startHeight account steps) :=
    follows_run filled follows_start steps
  constructor
  · intro limits allows enough row member
    have polls := allTimely_of_allAllowed kept.filled follows allows
    have later : Kept startHeight account runtime
        (stateAfter startHeight account (steps ++ limits.map .poll)) := by
      rw [stateAfter_append]
      exact kept_run kept polls
    have still : row ∈ fresh account
        (stateAfter startHeight account (steps ++ limits.map PollStep.poll)) := by
      rw [stateAfter_polls, fresh_polls]
      exact member
    refine (later.owed row still).resolve_right fun ahead => ?_
    have left : row ∈ unseen _ account _ := mem_unseen.mpr ⟨(mem_fresh.mp still).1, ahead⟩
    rw [stateAfter_polls] at left
    have fewer : (unseen _ account _).length ≤ _ :=
      length_unseen_polls limits (ordered_of_filled kept.filled)
    have bound : (unseen (stateAfter startHeight account steps).db.projections account
        (stateAfter startHeight account steps).cursor).length ≤ limits.length :=
      List.filter_sublist.length_le.trans enough
    have some_left := List.length_pos_of_mem left
    omega
  · intro step violates
    obtain ⟨row, member, passed⟩ :=
      passed_of_not_timely kept fun timely => violates ((timely_iff kept.filled follows step).mp timely)
    have reached : stateAfter startHeight account (steps ++ [step]) =
        advance startHeight account (stateAfter startHeight account steps) step :=
      stateAfter_append runtime startHeight account steps [step]
    rw [← reached] at member passed
    refine ⟨row, member, fun limits told => ?_⟩
    rw [stateAfter_polls] at told
    exact not_due_polls limits passed
      (ordered_of_filled (filled_stateAfter runtime startHeight account _)) (.inl told)

end Runs

section Example

/-- The raw data of the events by which the first account revokes these devices. -/
def revocations : List (String × UInt8) :=
  [("ChkBAQEBAQEBAQEBAQEBAQEBAQEBAQEBAQEBEhkHBwcHBwcHBwcHBwcHBwcHBwcHBwcHBwcHGAU=", 7),
    ("ChkBAQEBAQEBAQEBAQEBAQEBAQEBAQEBAQEBEhkICAgICAgICAgICAgICAgICAgICAgICAgIGAU=", 8),
    ("ChkBAQEBAQEBAQEBAQEBAQEBAQEBAQEBAQEBEhkJCQkJCQkJCQkJCQkJCQkJCQkJCQkJCQkJGAU=", 9)]

def revocation (device : UInt8) : ProtocolEvent :=
  .identity (.deviceRevoked (Address.repeated 1) (Address.repeated device) 5)

/-- A runtime that decodes these events. -/
def revocationRuntime : Runtime where
  codec :=
    { decode := fun name raw =>
        if name = "osp.identity.device_revoked" then (revocations.lookup raw).map revocation
        else none
      toJsonValue := fun _ => .object [("timestamp", .string "5")] }
  sdk := .standard
  sha256 := fun _ _ => ""

/-- A block in which the first account revokes the devices at these places of the list. -/
def revocationBlock (height : ℕ) (id previous : String) (places : List (Fin 3)) :
    ChainBlock revocationRuntime.codec where
  height := height
  id := if id = "" then "block" else id
  previous := previous
  timestamp := 5
  events := places.zipIdx.map fun entry =>
    ⟨0, entry.2, "tx", "osp.identity.device_revoked", (revocations.get entry.1).1,
      revocation (revocations.get entry.1).2, []⟩
  identified := by
    split
    · decide
    · assumption
  ordered := by
    refine List.pairwise_map.mpr ((pairwise_zipIdx places).imp fun before => ?_)
    exact Prod.Lex.toLex_lt_toLex.mpr (Or.inr ⟨rfl, before⟩)
  decoded := by
    intro event member
    obtain ⟨entry, _, rfl⟩ := List.mem_map.mp member
    exact (by decide +kernel : ∀ place : Fin 3, revocationRuntime.codec.decode
      "osp.identity.device_revoked" (revocations.get place).1 =
        some (revocation (revocations.get place).2)) entry.1

/-- Two devices are revoked in the second block; after a rollback a third one is instead. -/
def replacedBlock : List (PollStep revocationRuntime) :=
  [.poll 50, .log (.applyBlock (revocationBlock 1 "a" "" []) []),
    .log (.applyBlock (revocationBlock 2 "b" "a" [0, 1]) []), .poll 50,
    .log (.rollbackTo 1 []), .log (.applyBlock (revocationBlock 2 "c" "a" [2]) [])]

/-- What the first account is told of the third device. -/
def replacedNotification : NotificationRow :=
  ⟨1, Address.repeated 1, .device, Address.repeated 9, none, none,
    .deviceRevoked (Address.repeated 9), 5, 2, 0, 0⟩

/-- The client is not told of the third device: its cursor has passed the id. -/
theorem notification_missed :
    ¬ ∀ (runtime : Runtime) (startHeight : ℕ) (account : Address)
        (steps : List (PollStep runtime)) (limits : List ℕ+),
      (notificationsOf (stateAfter startHeight account steps).db.projections account).length ≤
        limits.length →
      ∀ row ∈ fresh account (stateAfter startHeight account steps),
        notificationView row ∈
          (stateAfter startHeight account (steps ++ limits.map .poll)).returned := by
  intro all
  have told := all revocationRuntime 1 (Address.repeated 1) replacedBlock [50, 50]
    (by decide +kernel) replacedNotification (by decide +kernel)
  exact absurd told (by decide +kernel)

/-- The second block is dropped and added again, after a poll that had room for its first
notification only. -/
def replayedBlock : List (PollStep revocationRuntime) :=
  [.poll 50, .log (.applyBlock (revocationBlock 1 "a" "" [0]) []), .poll 50,
    .log (.applyBlock (revocationBlock 2 "b" "a" [1, 2]) []), .poll 1, .log (.rollbackTo 1 []),
    .log (.applyBlock (revocationBlock 2 "b" "a" [1, 2]) [])]

theorem polls_miss_nothing_replayed :
    notificationView ⟨3, Address.repeated 1, .device, Address.repeated 9, none, none,
        .deviceRevoked (Address.repeated 9), 5, 2, 0, 1⟩ ∈
      (stateAfter 1 (Address.repeated 1)
        (replayedBlock ++ [1, 1, 1].map PollStep.poll)).returned := by
  obtain ⟨told, _⟩ := polls_miss_nothing revocationRuntime 1 (Address.repeated 1) replayedBlock
    (by decide +kernel)
  exact told [1, 1, 1] (by decide +kernel) (by decide +kernel) _ (by decide +kernel)

end Example

end OpenSocial.Indexer
