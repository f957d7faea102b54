/-
This file gives scripts of database statements and the transactions around them.

A session holds the data, how deep the script is inside transactions, and a plan
of disturbances: for each statement to come, whether the medium lets it run or
makes it fail, and what a failing statement leaves behind. A transaction opened
inside another one joins it, and only the outermost one commits or restores the
data it began with.

`Answers` says what a script does inside a transaction from given data. It is
proved by one rule per statement, along the text of the script, and a whole
transaction then either does just that or fails and changes nothing.
-/

import Mathlib

namespace Library

/-- A connection to a database: its data, its transaction depth, and what will disturb the next
statements. -/
structure Session (Data Failure : Type) where
  data : Data
  depth : ℕ
  plan : List (Option (Failure × (Data → Data)))

/-- A script reads and writes a session; what it wrote before it failed stays written. -/
abbrev Script (Data Failure : Type) := ExceptT Failure (StateM (Session Data Failure))

namespace Script

variable {Data Failure Value Result : Type}

/-- What disturbs the next statement, if anything does. -/
def disturbance (session : Session Data Failure) : Option (Failure × (Data → Data)) :=
  session.plan.head?.join

/-- The session with the next statement's share of the plan used up. -/
def advance (session : Session Data Failure) : Session Data Failure :=
  { session with plan := session.plan.tail }

/-- One statement: it does its effect, unless it is disturbed. -/
def statement (effect : Data → Except Failure (Value × Data)) : Script Data Failure Value :=
  fun session =>
    match disturbance session with
    | some (failure, leave) =>
      (.error failure, { advance session with data := leave session.data })
    | none =>
      match effect session.data with
      | .ok (value, data) => (.ok value, { advance session with data := data })
      | .error failure => (.error failure, advance session)

/-- A statement that only reads. -/
def query (read : Data → Value) : Script Data Failure Value :=
  statement fun data => .ok (read data, data)

/-- A statement that only writes. -/
def run (write : Data → Data) : Script Data Failure Unit :=
  statement fun data => .ok ((), write data)

/-- What a computation outside the database answers or fails with. -/
def check (outcome : Except Failure Value) : Script Data Failure Value := fun session =>
  (outcome, session)

/-- The data as they stand, read by no statement. -/
def peek : Script Data Failure Data := fun session => (.ok session.data, session)

/-- A script inside a transaction; the outermost transaction commits, or restores what it found. -/
def transaction (body : Script Data Failure Value) : Script Data Failure Value := fun session =>
  if 0 < session.depth then
    let (answer, after) := body { session with depth := session.depth + 1 }
    (answer, { after with depth := after.depth - 1 })
  else
    match disturbance session with
    | some (failure, _) => (.error failure, advance session)
    | none =>
      let (answer, after) := body { advance session with depth := 1 }
      match answer with
      | .error failure => (.error failure, { after with data := session.data, depth := 0 })
      | .ok value =>
        match disturbance after with
        | some (failure, _) =>
          (.error failure, { advance after with data := session.data, depth := 0 })
        | none => (.ok value, { advance after with depth := 0 })

/-- Run a script on a fresh connection, with a plan of disturbances. -/
def call (script : Script Data Failure Value) (data : Data)
    (plan : List (Option (Failure × (Data → Data)))) : Except Failure Value × Data :=
  let (answer, after) := script ⟨data, 0, plan⟩
  (answer, after.data)

/-! ### What a script answers -/

/-- Inside a transaction and from the given data, the script keeps the depth, whatever it answers is
the given answer, and nothing but a disturbance keeps it from giving it. -/
structure Answers (script : Script Data Failure Value) (data : Data)
    (answer : Except Failure (Value × Data)) : Prop where
  depth : ∀ session, session.data = data → 0 < session.depth →
    (script session).2.depth = session.depth
  sound : ∀ session, session.data = data → 0 < session.depth → ∀ value,
    (script session).1 = .ok value → answer = .ok (value, (script session).2.data)
  quiet : ∀ session, session.data = data → 0 < session.depth → session.plan = [] →
    (script session).1 = answer.map Prod.fst ∧ (script session).2.plan = []

variable {data : Data}

theorem answers_pure (value : Value) :
    Answers (pure value : Script Data Failure Value) data (.ok (value, data)) where
  depth session same inside := rfl
  sound session same inside other given := by
    cases given
    rw [← same]
    rfl
  quiet session same inside idle := ⟨rfl, idle⟩

theorem statement_disturbed {effect : Data → Except Failure (Value × Data)}
    {session : Session Data Failure} {failure : Failure} {leave : Data → Data}
    (disturbed : disturbance session = some (failure, leave)) :
    statement effect session =
      (.error failure, { advance session with data := leave session.data }) := by
  unfold statement
  rw [disturbed]

theorem statement_ok {effect : Data → Except Failure (Value × Data)}
    {session : Session Data Failure} {value : Value} {after : Data}
    (undisturbed : disturbance session = none) (done : effect session.data = .ok (value, after)) :
    statement effect session = (.ok value, { advance session with data := after }) := by
  unfold statement
  rw [undisturbed]
  simp only [done]

theorem statement_error {effect : Data → Except Failure (Value × Data)}
    {session : Session Data Failure} {failure : Failure}
    (undisturbed : disturbance session = none) (failed : effect session.data = .error failure) :
    statement effect session = (.error failure, advance session) := by
  unfold statement
  rw [undisturbed]
  simp only [failed]

theorem answers_statement (effect : Data → Except Failure (Value × Data)) :
    Answers (statement effect) data (effect data) := by
  refine ⟨fun session same inside => ?_, fun session same inside value given => ?_,
    fun session same inside idle => ?_⟩
  · cases disturbed : disturbance session with
    | some disturbance =>
      rw [statement_disturbed disturbed]
      rfl
    | none =>
      cases done : effect session.data with
      | ok outcome =>
        rw [statement_ok disturbed done]
        rfl
      | error failure =>
        rw [statement_error disturbed done]
        rfl
  · cases disturbed : disturbance session with
    | some disturbance =>
      rw [statement_disturbed disturbed] at given
      cases given
    | none =>
      cases done : effect session.data with
      | ok outcome =>
        rw [statement_ok disturbed done] at given ⊢
        cases given
        rw [← same, done]
      | error failure =>
        rw [statement_error disturbed done] at given
        cases given
  · have undisturbed : disturbance session = none := by rw [disturbance, idle]; rfl
    have used : (advance session).plan = [] := by rw [advance, idle]; rfl
    cases done : effect session.data with
    | ok outcome =>
      rw [statement_ok undisturbed done, ← same, done]
      exact ⟨rfl, used⟩
    | error failure =>
      rw [statement_error undisturbed done, ← same, done]
      exact ⟨rfl, used⟩

theorem answers_query (read : Data → Value) :
    Answers (query read : Script Data Failure Value) data (.ok (read data, data)) :=
  answers_statement fun data => .ok (read data, data)

theorem answers_run (write : Data → Data) :
    Answers (run write : Script Data Failure Unit) data (.ok ((), write data)) :=
  answers_statement fun data => .ok ((), write data)

theorem answers_check (outcome : Except Failure Value) :
    Answers (check outcome : Script Data Failure Value) data
      (outcome.map fun value => (value, data)) where
  depth session same inside := rfl
  sound session same inside value given := by
    cases outcome with
    | error failure => cases given
    | ok found =>
      cases given
      rw [← same]
      rfl
  quiet session same inside idle := by
    cases outcome with
    | error failure => exact ⟨rfl, idle⟩
    | ok found => exact ⟨rfl, idle⟩

theorem answers_peek : Answers (peek : Script Data Failure Data) data (.ok (data, data)) where
  depth session same inside := rfl
  sound session same inside value given := by
    cases given
    rw [← same]
    rfl
  quiet session same inside idle := ⟨congrArg Except.ok same, idle⟩

theorem bind_apply_ok {first : Script Data Failure Value}
    {rest : Value → Script Data Failure Result} {session : Session Data Failure} {value : Value}
    (given : (first session).1 = .ok value) :
    (first >>= rest) session = rest value (first session).2 := by
  cases outcome : first session with
  | mk answer after =>
    rw [outcome] at given
    simp only at given
    show (ExceptT.bind first rest) session = _
    simp only [ExceptT.bind, ExceptT.mk, bind, StateT.bind, outcome, given, ExceptT.bindCont]

theorem bind_apply_error {first : Script Data Failure Value}
    {rest : Value → Script Data Failure Result} {session : Session Data Failure}
    {failure : Failure} (given : (first session).1 = .error failure) :
    (first >>= rest) session = (.error failure, (first session).2) := by
  cases outcome : first session with
  | mk answer after =>
    rw [outcome] at given
    simp only at given
    show (ExceptT.bind first rest) session = _
    simp only [ExceptT.bind, ExceptT.mk, bind, StateT.bind, outcome, given, ExceptT.bindCont]
    rfl

/-- Sequencing: the rest starts from what the first part answered. -/
theorem answers_bind {first : Script Data Failure Value}
    {rest : Value → Script Data Failure Result} {value : Value} {middle : Data}
    {answer : Except Failure (Result × Data)} (before : Answers first data (.ok (value, middle)))
    (after : Answers (rest value) middle answer) : Answers (first >>= rest) data answer := by
  have reached : ∀ session, session.data = data → 0 < session.depth → ∀ found,
      (first session).1 = .ok found → found = value ∧ (first session).2.data = middle := by
    intro session same inside found given
    have told := Except.ok.inj (before.sound session same inside found given)
    exact ⟨(congrArg Prod.fst told).symm, (congrArg Prod.snd told).symm⟩
  refine ⟨fun session same inside => ?_, fun session same inside result given => ?_,
    fun session same inside idle => ?_⟩
  · have kept := before.depth session same inside
    cases outcome : (first session).1 with
    | error failure => rw [bind_apply_error outcome, kept]
    | ok found =>
      obtain ⟨rfl, there⟩ := reached session same inside found outcome
      rw [bind_apply_ok outcome, after.depth _ there (kept.symm ▸ inside), kept]
  · have kept := before.depth session same inside
    cases outcome : (first session).1 with
    | error failure =>
      rw [bind_apply_error outcome] at given
      cases given
    | ok found =>
      obtain ⟨rfl, there⟩ := reached session same inside found outcome
      rw [bind_apply_ok outcome] at given ⊢
      exact after.sound _ there (kept.symm ▸ inside) result given
  · have kept := before.depth session same inside
    obtain ⟨told, used⟩ := before.quiet session same inside idle
    obtain ⟨_, there⟩ := reached session same inside value told
    rw [bind_apply_ok told]
    exact after.quiet _ there (kept.symm ▸ inside) used

/-- A failure of the first part is the failure of the whole. -/
theorem answers_bind_error {first : Script Data Failure Value}
    {rest : Value → Script Data Failure Result} {failure : Failure}
    (before : Answers first data (.error failure)) :
    Answers (first >>= rest) data (.error failure) := by
  have never : ∀ session, session.data = data → 0 < session.depth → ∀ found,
      (first session).1 ≠ .ok found := by
    intro session same inside found given
    cases before.sound session same inside found given
  refine ⟨fun session same inside => ?_, fun session same inside result given => ?_,
    fun session same inside idle => ?_⟩
  · cases outcome : (first session).1 with
    | error failure => rw [bind_apply_error outcome, before.depth session same inside]
    | ok found => exact absurd outcome (never session same inside found)
  · cases outcome : (first session).1 with
    | error failure =>
      rw [bind_apply_error outcome] at given
      cases given
    | ok found => exact absurd outcome (never session same inside found)
  · obtain ⟨told, used⟩ := before.quiet session same inside idle
    rw [bind_apply_error told]
    exact ⟨rfl, used⟩

/-- A loop whose rounds all succeed folds what they do. -/
theorem answers_foldlM {Item : Type} {body : Value → Item → Script Data Failure Value}
    {round : Value × Data → Item → Value × Data}
    (each : ∀ value data item, Answers (body value item) data (.ok (round (value, data) item)))
    (items : List Item) (value : Value) :
    Answers (items.foldlM body value) data (.ok (items.foldl round (value, data))) := by
  induction items generalizing value data with
  | nil => exact answers_pure value
  | cons item rest inductionHypothesis =>
    rw [List.foldlM_cons, List.foldl_cons]
    exact answers_bind (each value data item) (inductionHypothesis _)

/-- A loop over items that fit the data one after another writes them one after another. -/
theorem answers_forM {Item : Type} {body : Item → Script Data Failure Unit}
    {write : Data → Item → Data} (fits : Data → List Item → Prop)
    (each : ∀ data item rest, fits data (item :: rest) →
      Answers (body item) data (.ok ((), write data item)) ∧ fits (write data item) rest)
    (items : List Item) (fitting : fits data items) :
    Answers (items.forM body) data (.ok ((), items.foldl write data)) := by
  induction items generalizing data with
  | nil => exact answers_pure ()
  | cons item rest inductionHypothesis =>
    obtain ⟨written, later⟩ := each data item rest fitting
    show Answers (body item >>= fun _ => rest.forM body) data _
    exact answers_bind written (inductionHypothesis later)

/-- A transaction inside a transaction answers what its body answers. -/
theorem answers_transaction {body : Script Data Failure Value}
    {answer : Except Failure (Value × Data)} (inner : Answers body data answer) :
    Answers (transaction body) data answer := by
  have nested : ∀ session : Session Data Failure, 0 < session.depth → transaction body session =
      ((body { session with depth := session.depth + 1 }).1,
        { (body { session with depth := session.depth + 1 }).2 with
          depth := (body { session with depth := session.depth + 1 }).2.depth - 1 }) := by
    intro session inside
    unfold transaction
    rw [if_pos inside]
    rfl
  refine ⟨fun session same inside => ?_, fun session same inside value given => ?_,
    fun session same inside idle => ?_⟩
  · rw [nested session inside]
    have kept := inner.depth { session with depth := session.depth + 1 } same (Nat.succ_pos _)
    simp only [kept, Nat.add_sub_cancel]
  · rw [nested session inside] at given ⊢
    exact inner.sound { session with depth := session.depth + 1 } same (Nat.succ_pos _) value given
  · rw [nested session inside]
    exact inner.quiet { session with depth := session.depth + 1 } same (Nat.succ_pos _) idle

/-! ### A transaction on its own -/

/-- An outermost transaction that nothing disturbs commits what its body did. -/
theorem transaction_committed {body : Script Data Failure Value} {session later : Session Data Failure}
    {value : Value} (outside : session.depth = 0) (begins : disturbance session = none)
    (done : body { advance session with depth := 1 } = (.ok value, later))
    (commits : disturbance later = none) :
    transaction body session = (.ok value, { advance later with depth := 0 }) := by
  unfold transaction
  rw [if_neg (by omega), begins]
  simp only [done, commits]

section Call

variable {body : Script Data Failure Value} {answer : Except Failure (Value × Data)}
  (plan : List (Option (Failure × (Data → Data))))

/-- A transaction either fails and changes nothing, or does what its body answers. -/
theorem call_transaction (inner : Answers body data answer) :
    (∃ failure, call (transaction body) data plan = (.error failure, data)) ∨
      ∃ value after, answer = .ok (value, after) ∧
        call (transaction body) data plan = (.ok value, after) := by
  have opened : ∀ session : Session Data Failure, session.data = data → session.depth = 0 →
      (∃ failure, (transaction body session).1 = .error failure ∧
          (transaction body session).2.data = data) ∨
        ∃ value after, answer = .ok (value, after) ∧ (transaction body session).1 = .ok value ∧
          (transaction body session).2.data = after := by
    intro session same outside
    unfold transaction
    rw [if_neg (by omega)]
    cases disturbance session with
    | some disturbed => exact .inl ⟨disturbed.1, rfl, same⟩
    | none =>
      have inside := inner.sound { advance session with depth := 1 } same Nat.one_pos
      cases outcome : body { advance session with depth := 1 } with
      | mk told after =>
        rw [outcome] at inside
        cases told with
        | error failure => exact .inl ⟨failure, rfl, same⟩
        | ok value =>
          simp only
          cases disturbance after with
          | some disturbed => exact .inl ⟨disturbed.1, rfl, same⟩
          | none => exact .inr ⟨value, after.data, inside value rfl, rfl, rfl⟩
  rcases opened ⟨data, 0, plan⟩ rfl rfl with ⟨failure, told, kept⟩ | ⟨value, after, given, told, kept⟩
  · exact .inl ⟨failure, Prod.ext told kept⟩
  · exact .inr ⟨value, after, given, Prod.ext told kept⟩

/-- A transaction that succeeds does what its body answers. -/
theorem call_transaction_ok (inner : Answers body data answer) {value : Value}
    (done : (call (transaction body) data plan).1 = .ok value) :
    answer = .ok (value, (call (transaction body) data plan).2) := by
  rcases call_transaction plan inner with ⟨failure, same⟩ | ⟨found, after, given, same⟩
  · rw [same] at done
    cases done
  · rw [same] at done ⊢
    cases done
    exact given

/-- An undisturbed transaction succeeds whenever its body does. -/
theorem call_transaction_quiet {value : Value} {after : Data}
    (inner : Answers body data (.ok (value, after))) :
    call (transaction body) data [] = (.ok value, after) := by
  obtain ⟨told, used⟩ := inner.quiet ⟨data, 1, []⟩ rfl Nat.one_pos rfl
  have done : (call (transaction body) data []).1 = .ok value := by
    cases outcome : body ⟨data, 1, []⟩ with
    | mk found later =>
      rw [outcome] at told used
      have undisturbed : disturbance later = none := by rw [disturbance, used]; rfl
      have committed : transaction body ⟨data, 0, []⟩ = _ :=
        transaction_committed rfl rfl (outcome.trans (congrArg (·, later) told)) undisturbed
      unfold call
      rw [committed]
  have given := call_transaction_ok [] inner done
  exact Prod.ext done (congrArg Prod.snd (Except.ok.inj given)).symm

end Call

end Script

end Library
