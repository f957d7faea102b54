/-
This file compares settling an account often with settling it once.

A settlement rounds the regenerated credits down and forgets the remainder when
it advances `updated_at`. Settling in turn therefore agrees with settling once
exactly when the remainders add up to less than one credit or the account is
full anyway. In a run the settlements of an account that does not pay are forced
by others, who send it tokens or support its posts; the same condition on the
times of these settlements decides whether a day refills the account.
-/

import OpenSocial.Token.Arithmetic
import OpenSocial.Token.Usage

namespace OpenSocial.Token

open Library

/-! ### Settling in turn -/

/-- Settle an account and store it: `load`, then `save`. -/
def resettle (env : Env) (account : Bytes) (state : State) : Except Failure State := do
  let loaded ← load env state account
  pure (save env state account loaded).1

/-- Settle an account at several block times in turn. -/
def resettleAll (env : Env) (account : Bytes) : List ℕ → State → Except Failure State
  | [], state => pure state
  | time :: rest, state => do
    let after ← resettle { env with now := time } account state
    resettleAll env account rest after

section Settling

variable {state : State}

theorem overflow_checked (value : Option ℕ) :
    Meets (fun failure => failure = .overflow) (checked value) fun _ => True := by
  cases value with
  | none => exact Meets.error rfl
  | some result => exact Meets.ok trivial

theorem overflow_elapsed (now updatedAt : ℕ) :
    Meets (fun failure => failure = .overflow) (elapsed now updatedAt) fun _ => True := by
  refine Meets.branch (fun _ => ?_) fun _ => Meets.ret trivial
  exact Meets.seq (overflow_checked _) fun _ _ => Meets.ret trivial

theorem overflow_regained (capacity gap : ℕ) :
    Meets (fun failure => failure = .overflow) (regained capacity gap) fun _ => True :=
  Meets.seq (overflow_checked _) fun _ _ => overflow_checked _

variable (state) in
/-- Settling fails in no other way than by leaving the integer type. -/
theorem overflow_load (env : Env) (account : Bytes) :
    Meets (fun failure => failure = .overflow) (load env state account) fun _ => True := by
  unfold load
  split
  · exact Meets.ret trivial
  · refine Meets.seq (overflow_elapsed _ _) fun _ _ => ?_
    refine Meets.seq (overflow_checked _) fun _ _ => ?_
    refine Meets.seq (overflow_regained _ _) fun _ _ => ?_
    refine Meets.seq (overflow_checked _) fun _ _ => ?_
    refine Meets.seq (overflow_regained _ _) fun _ _ => ?_
    refine Meets.seq (overflow_checked _) fun _ _ => ?_
    exact Meets.ret trivial

theorem load_eq (conserved : Conserved state) (env : Env) (account : Bytes) :
    load env state account = .ok (settled state account env.now) := by
  cases answer : load env state account with
  | ok loaded => rw [load_eq_ok answer]
  | error failure =>
    have overflow := overflow_load state env account
    have sound := sound_load conserved env account
    rw [answer] at overflow sound
    exact absurd overflow sound

theorem charge_nothing (value : AccountState) : charge 0 value = value := by
  simp [charge, freePart, backedPart]

/-- Settling keeps conservation. -/
theorem conserved_settled (conserved : Conserved state) (account : Bytes) (now : ℕ) :
    Conserved (state.putAccount account (settled state account now)) := by
  have kept := conserved_charge conserved account 0 now
  rw [charge_nothing] at kept
  exact kept

theorem resettle_eq (conserved : Conserved state) (env : Env) (account : Bytes) :
    resettle env account state =
      .ok (state.putAccount account (settled state account env.now)) := by
  rw [resettle, load_eq conserved env account]
  rfl

/-- The stored account after settling it at several block times in turn. -/
theorem resettleAll_eq (conserved : Conserved state) (env : Env) {account : Bytes}
    {stored : AccountState} (present : state.accounts.get account = some stored)
    (times : List ℕ) :
    ∃ after, resettleAll env account times state = .ok after ∧
      after.accounts.get account =
        some (times.foldl (fun value time => settle time value) stored) := by
  induction times generalizing state stored with
  | nil => exact ⟨state, rfl, present⟩
  | cons time rest inductionHypothesis =>
    have settles : settled state account time = settle time stored := by
      rw [settled, present]
    have written : (state.putAccount account (settle time stored)).accounts.get account =
        some (settle time stored) := by
      rw [State.putAccount, Store.get_put, if_pos rfl]
    rw [resettleAll, resettle_eq conserved, settles]
    exact inductionHypothesis (settles ▸ conserved_settled conserved account time) written

/-- Settling in turn refills at the end of each gap and leaves the balance as it was. -/
theorem foldl_settle (stored : AccountState) (times : List ℕ) :
    times.foldl (fun value time => settle time value) stored =
      { balance := stored.balance
        freeCredits := Credit.refillAll FREE DAY stored.freeCredits
          (Credit.gaps stored.updatedAt times)
        tokenCredits := Credit.refillAll (stored.balance * PER_TOKEN) DAY stored.tokenCredits
          (Credit.gaps stored.updatedAt times)
        updatedAt := times.getLastD stored.updatedAt } := by
  induction times generalizing stored with
  | nil => rfl
  | cons time rest inductionHypothesis =>
    rw [List.foldl_cons, inductionHypothesis, List.getLastD_cons]
    rfl

end Settling

/-! ### Idle accounts -/

section Idle

variable {host : Host}

/-- The account whose credits or tokens a call uses up. -/
def payer : Operation → Option Bytes
  | .init _ => none
  | .setRewardPolicy _ => none
  | .consume args => some args.account
  | .transfer args => some args.sender
  | .burn args => some args.sender
  | .support args => some args.actor

/-- The account spends nothing and gives up no tokens. -/
def Idle (account : Bytes) (history : List (machine host).Accepted) : Prop :=
  ∀ entry ∈ history, payer entry.call.operation ≠ some account

instance (account : Bytes) (history : List (machine host).Accepted) :
    Decidable (Idle account history) :=
  inferInstanceAs (Decidable (∀ entry ∈ history, payer entry.call.operation ≠ some account))

/-- Whether an event reports the account as updated. -/
def reports (account : Bytes) : Event → Bool
  | .accountUpdated updated _ _ => updated == account
  | _ => false

/-- Whether an accepted call settled the account. -/
def settles (account : Bytes) (entry : (machine host).Accepted) : Bool :=
  entry.output.events.any (reports account)

/-- The block times at which the account was settled. -/
def settlementTimes (account : Bytes) (history : List (machine host).Accepted) : List ℕ :=
  (history.filter (settles account)).map fun entry => entry.call.env.now

/-- What is stored for an account; an unknown account has its free credits. -/
def holding (state : State) (account : Bytes) (since : ℕ) : AccountState :=
  (state.accounts.get account).getD ⟨0, FREE, 0, since⟩

theorem holding_of_get {state : State} {account : Bytes} {stored : AccountState}
    (present : state.accounts.get account = some stored) (since : ℕ) :
    holding state account since = stored := by
  rw [holding, present, Option.getD_some]

theorem settle_unknown (now since : ℕ) :
    settle now ⟨0, FREE, 0, since⟩ = ⟨0, FREE, 0, now⟩ := by
  have free : FREE ≤ Credit.refill FREE DAY FREE (now - since) := Credit.le_refill _ _ le_rfl
  have full : Credit.refill FREE DAY FREE (now - since) ≤ FREE := Credit.refill_le _ _
  have none : Credit.refill 0 DAY 0 (now - since) ≤ 0 := Credit.refill_le _ _
  simp only [settle, Nat.zero_mul, AccountState.mk.injEq, true_and, and_true]
  exact ⟨full.antisymm free, Nat.le_zero.mp none⟩

theorem settled_eq_settle_holding (state : State) (account : Bytes) (since now : ℕ) :
    settled state account now = settle now (holding state account since) := by
  unfold settled holding
  split
  · next absent => rw [absent, Option.getD_none, settle_unknown]
  · next stored present => rw [present, Option.getD_some]

/-- What an accepted call does to an account that does not pay for it: nothing, or it settles
the account and adds tokens and credits. -/
theorem holding_of_idle (entry : (machine host).Accepted) {account : Bytes}
    (idle : payer entry.call.operation ≠ some account) :
    (settles account entry = false ∧
        entry.after.accounts.get account = entry.before.accounts.get account) ∨
      (settles account entry = true ∧ ∃ value credits, entry.after.accounts.get account =
        some (credit value credits (settled entry.before account entry.call.env.now))) := by
  have effect := effect_of_entry entry
  unfold settles
  generalize entry.call.operation = operation at effect idle
  generalize entry.after = after at effect ⊢
  generalize entry.output = output at effect ⊢
  generalize entry.call.env = env at effect ⊢
  cases effect with
  | initialized => exact .inl ⟨rfl, rfl⟩
  | policyChanged => exact .inl ⟨rfl, rfl⟩
  | consumed spender units =>
    have other : spender.val ≠ account := fun same => idle (congrArg some same)
    refine .inl ⟨?_, ?_⟩
    · simpa [reports] using other
    · rw [State.putAccount, Store.get_put, if_neg other.symm]
  | transferred sender recipient value =>
    have other : sender.val ≠ account := fun same => idle (congrArg some same)
    by_cases received : recipient.val = account
    · refine .inr ⟨by simp [reports, received], value,
        movedWith value (settled entry.before sender.val env.now), ?_⟩
      rw [State.putAccount, Store.get_put, if_pos received.symm, received]
    · refine .inl ⟨by simp [reports, other, received], ?_⟩
      rw [State.putAccount, Store.get_put, if_neg (Ne.symm received), State.putAccount,
        Store.get_put, if_neg other.symm]
  | burnt sender value =>
    have other : sender.val ≠ account := fun same => idle (congrArg some same)
    refine .inl ⟨by simp [reports, other], ?_⟩
    rw [State.putAccount, Store.get_put, if_neg other.symm]
    rfl
  | supported actor id device config post =>
    have other : actor.val ≠ account := fun same => idle (congrArg some same)
    have untouched : (countedState entry.before actor post.author id
        (rewardOf entry.before config post.author.val env.now) env.now).accounts.get account =
        entry.before.accounts.get account := by
      show (paidState entry.before actor env.now).accounts.get account = _
      rw [paidState, State.putAccount, Store.get_put, if_neg other.symm]
    unfold mintedState mintEvents
    by_cases rewarded : 0 < rewardOf entry.before config post.author.val env.now
    · rw [if_pos rewarded, if_pos rewarded]
      by_cases received : post.author.val = account
      · subst received
        refine .inr ⟨by simp [reports],
          rewardOf entry.before config post.author.val env.now,
          rewardOf entry.before config post.author.val env.now * PER_TOKEN, ?_⟩
        rw [State.putAccount, Store.get_put, if_pos rfl]
        unfold settled
        rw [untouched]
      · refine .inl ⟨by simp [reports, other, received], ?_⟩
        rw [State.putAccount, Store.get_put, if_neg (Ne.symm received)]
        exact untouched
    · rw [if_neg rewarded, if_neg rewarded]
      exact .inl ⟨by simp [reports, other], untouched⟩

/-- How an idle account stands after settlements at some times: its free credits are those of
settling alone, its balance and its token-backed credits are at least so. -/
structure Regenerated (opening : AccountState) (times : List ℕ) (current : AccountState) :
    Prop where
  settledAt : current.updatedAt = times.getLastD opening.updatedAt
  balance : opening.balance ≤ current.balance
  free : current.freeCredits =
    Credit.refillAll FREE DAY opening.freeCredits (Credit.gaps opening.updatedAt times)
  backed : Credit.refillAll (opening.balance * PER_TOKEN) DAY opening.tokenCredits
    (Credit.gaps opening.updatedAt times) ≤ current.tokenCredits

/-- Settling an idle account once more. -/
theorem Regenerated.settle {opening current : AccountState} {times : List ℕ}
    (regenerated : Regenerated opening times current) (now : ℕ) :
    Regenerated opening (times ++ [now]) (settle now current) := by
  obtain ⟨settledAt, balance, free, backed⟩ := regenerated
  refine ⟨?_, balance, ?_, ?_⟩
  · rw [List.getLastD_concat]
    rfl
  · rw [Credit.gaps_concat, Credit.refillAll_concat, ← free, ← settledAt]
    rfl
  · rw [Credit.gaps_concat, Credit.refillAll_concat, ← settledAt]
    exact Credit.refill_mono (Nat.mul_le_mul_right PER_TOKEN balance) backed _

/-- Receiving tokens and credits leaves an idle account at least as it was. -/
theorem Regenerated.credit {opening current : AccountState} {times : List ℕ}
    (regenerated : Regenerated opening times current) (value credits : ℕ) :
    Regenerated opening times (credit value credits current) :=
  ⟨regenerated.settledAt, regenerated.balance.trans (Nat.le_add_right _ _), regenerated.free,
    regenerated.backed.trans (Nat.le_add_right _ _)⟩

/-- Over every stretch of a run in which it is idle, an account regenerates at the settlements
that others force on it. -/
theorem regenerated_final (host : Host) (opening : State) (account : Bytes) (since : ℕ)
    (calls : List Call) (idle : Idle account ((machine host).history opening calls)) :
    Regenerated (holding opening account since)
      (settlementTimes account ((machine host).history opening calls))
      (holding ((machine host).final opening calls) account since) := by
  refine (machine host).run_induction opening (fun history state => Idle account history →
    Regenerated (holding opening account since) (settlementTimes account history)
      (holding state account since)) ?_ ?_ calls idle
  · intro _
    exact ⟨rfl, le_rfl, rfl, le_rfl⟩
  · intro history entry inductionHypothesis idle
    have before := inductionHypothesis fun earlier member =>
      idle earlier (List.mem_append_left _ member)
    have last := idle entry (List.mem_append_right _ List.mem_cons_self)
    rw [settlementTimes, List.filter_append, List.map_append]
    rcases holding_of_idle entry last with ⟨quiet, kept⟩ | ⟨settling, value, credits, added⟩
    · have same : holding entry.after account since = holding entry.before account since := by
        unfold holding
        rw [kept]
      rw [List.filter_cons_of_neg (by simp [quiet]), List.filter_nil, List.map_nil,
        List.append_nil, same]
      exact before
    · rw [List.filter_cons_of_pos settling, List.filter_nil, List.map_singleton,
        holding_of_get added, settled_eq_settle_holding entry.before account since]
      exact (before.settle entry.call.env.now).credit value credits

end Idle

/-! ### When a day refills an account -/

/-- The state of a run when a window closes. -/
def leaving (host : Host) (start length : ℕ) (calls : List Call) : State :=
  (machine host).final (entering host start calls)
    (Machine.during Call.time start (start + length) calls)

/-- Settling an account in turn loses no credit: neither free nor token-backed. -/
def LosslessFor (opening : AccountState) (times : List ℕ) : Prop :=
  Credit.Lossless FREE DAY opening.freeCredits (Credit.gaps opening.updatedAt times) ∧
    Credit.Lossless (opening.balance * PER_TOKEN) DAY opening.tokenCredits
      (Credit.gaps opening.updatedAt times)

/-- Settling in turn gives the credits of settling once exactly when nothing is lost. -/
theorem foldl_settle_iff {state : State} (conserved : Conserved state) {account : Bytes}
    {stored : AccountState} (present : state.accounts.get account = some stored)
    {times : List ℕ} {last : ℕ}
    (ordered : (stored.updatedAt :: (times ++ [last])).Pairwise (· ≤ ·)) :
    ((times ++ [last]).foldl (fun value time => settle time value) stored).freeCredits =
          (settle last stored).freeCredits ∧
        ((times ++ [last]).foldl (fun value time => settle time value) stored).tokenCredits =
          (settle last stored).tokenCredits ↔
      LosslessFor stored (times ++ [last]) := by
  have free := Credit.refillAll_eq_refill_iff day_pos stored.freeCredits
    (Credit.gaps stored.updatedAt (times ++ [last])) (conserved.free account stored present)
  have backed := Credit.refillAll_eq_refill_iff day_pos stored.tokenCredits
    (Credit.gaps stored.updatedAt (times ++ [last])) (conserved.backed account stored present)
  rw [Credit.gaps_sum ordered] at free backed
  rw [foldl_settle]
  exact and_congr free backed

/-- After a day of idling the free credits are full exactly when the settlements lost none, and
token-backed credits cover the tokens held at its start when the settlements lost none. -/
theorem idle_day {host : Host} {calls : List Call}
    (chronological : Machine.Chronological Call.time 0 calls) {account : Bytes} {start : ℕ}
    (idle : Idle account (window host start DAY calls)) :
    ((settled (leaving host start DAY calls) account (start + DAY)).freeCredits = FREE ↔
        Credit.Lossless FREE DAY (holding (entering host start calls) account start).freeCredits
          (Credit.gaps (holding (entering host start calls) account start).updatedAt
            (settlementTimes account (window host start DAY calls) ++ [start + DAY]))) ∧
      (Credit.Lossless
          ((holding (entering host start calls) account start).balance * PER_TOKEN) DAY
          (holding (entering host start calls) account start).tokenCredits
          (Credit.gaps (holding (entering host start calls) account start).updatedAt
            (settlementTimes account (window host start DAY calls) ++ [start + DAY])) →
        (holding (entering host start calls) account start).balance * PER_TOKEN ≤
          (settled (leaving host start DAY calls) account (start + DAY)).tokenCredits) := by
  have conserved : Conserved (entering host start calls) := (invariant_final host _).conserved
  have settledBy : SettledBy (entering host start calls) start :=
    settledBy_final host (Machine.chronological_before Call.time start chronological)
      (Machine.early_of_before Call.time start calls)
  have windowed : window host start DAY calls = (machine host).history (entering host start calls)
      (Machine.during Call.time start (start + DAY) calls) :=
    (machine host).history_window Call.time start (start + DAY) chronological
      (Nat.le_add_right _ _) (machine host).initial
  have past : (holding (entering host start calls) account start).updatedAt ≤ start := by
    unfold holding
    cases present : (entering host start calls).accounts.get account with
    | none => exact le_rfl
    | some stored => exact settledBy account stored present
  have bounded : (holding (entering host start calls) account start).freeCredits ≤ FREE ∧
      (holding (entering host start calls) account start).tokenCredits ≤
        (holding (entering host start calls) account start).balance * PER_TOKEN := by
    unfold holding
    cases present : (entering host start calls).accounts.get account with
    | none => exact ⟨le_rfl, Nat.zero_le _⟩
    | some stored =>
      exact ⟨conserved.free account stored present, conserved.backed account stored present⟩
  rw [windowed] at idle ⊢
  have closing := (regenerated_final host (entering host start calls) account start _ idle).settle
    (start + DAY)
  have whole := Credit.sub_le_gaps_sum
    (holding (entering host start calls) account start).updatedAt
    (settlementTimes account ((machine host).history (entering host start calls)
      (Machine.during Call.time start (start + DAY) calls))) (start + DAY)
  have day : DAY ≤ (Credit.gaps (holding (entering host start calls) account start).updatedAt
      (settlementTimes account ((machine host).history (entering host start calls)
        (Machine.during Call.time start (start + DAY) calls)) ++ [start + DAY])).sum := by
    refine le_trans ?_ whole
    omega
  rw [settled_eq_settle_holding _ account start]
  refine ⟨?_, fun lossless => ?_⟩
  · rw [← Credit.refillAll_full_iff day_pos _ _ bounded.1 day]
    exact ⟨fun full => closing.free.symm.trans full, fun full => closing.free.trans full⟩
  · have full := (Credit.refillAll_full_iff day_pos _ _ bounded.2 day).mpr lossless
    exact full ▸ closing.backed

/-- Regeneration in turn: in every state a run reaches, settling an account at several block
times in turn gives the credits of settling it once exactly when the settlements lose nothing;
and when the settlements of an idle day lose nothing, it ends with full free credits and with
token-backed credits for every token held at its start. -/
theorem regeneration_of_lossless (host : Host) (calls : List Call)
    (chronological : Machine.Chronological Call.time 0 calls) :
    (∀ (env : Env) (account : Bytes) (stored : AccountState) (times : List ℕ) (last : ℕ),
      ((machine host).final (machine host).initial calls).accounts.get account = some stored →
      (stored.updatedAt :: (times ++ [last])).Pairwise (· ≤ ·) →
      ∃ pieces once inTurn atOnce,
        resettleAll env account (times ++ [last])
          ((machine host).final (machine host).initial calls) = .ok pieces ∧
        resettleAll env account [last]
          ((machine host).final (machine host).initial calls) = .ok once ∧
        pieces.accounts.get account = some inTurn ∧ once.accounts.get account = some atOnce ∧
        (inTurn.freeCredits = atOnce.freeCredits ∧ inTurn.tokenCredits = atOnce.tokenCredits ↔
          LosslessFor stored (times ++ [last]))) ∧
      ∀ (account : Bytes) (start : ℕ), Idle account (window host start DAY calls) →
        LosslessFor (holding (entering host start calls) account start)
          (settlementTimes account (window host start DAY calls) ++ [start + DAY]) →
        (settled (leaving host start DAY calls) account (start + DAY)).freeCredits = FREE ∧
          (holding (entering host start calls) account start).balance * PER_TOKEN ≤
            (settled (leaving host start DAY calls) account (start + DAY)).tokenCredits := by
  refine ⟨fun env account stored times last present ordered => ?_,
    fun account start idle lossless => ?_⟩
  · have conserved := (invariant_final host calls).conserved
    obtain ⟨pieces, pieces_eq, inTurn⟩ :=
      resettleAll_eq conserved env present (times ++ [last])
    obtain ⟨once, once_eq, atOnce⟩ := resettleAll_eq conserved env present [last]
    exact ⟨pieces, once, _, _, pieces_eq, once_eq, inTurn, atOnce,
      foldl_settle_iff conserved present ordered⟩
  · obtain ⟨free, backed⟩ := idle_day chronological idle
    exact ⟨free.mpr lossless.1, backed lossless.2⟩

/-- A run in which an account spends all its free credits, then idles, and is sent a token. -/
def sentRun : List Call :=
  let contract := Address.repeated 9
  let idler := Address.repeated 1
  let author := Address.repeated 2
  let post : PostRecord :=
    ⟨author, 1, 1, List.replicate 34 5, .active, [], .everyone, 0, 0⟩
  let env := fun now => { Env.signedBy contract.val now with getPost := fun _ _ => some (some post) }
  [⟨env 0, .init ⟨contract.val, contract.val, contract.val, contract.val⟩⟩,
    ⟨env 0, .support ⟨idler.val, List.replicate 32 4, []⟩⟩,
    ⟨env 0, .consume ⟨idler.val, 99⟩⟩,
    ⟨env 500, .transfer ⟨author.val, idler.val, 1⟩⟩]

/-- Being sent a token costs the idle account one of its credits for good. -/
theorem regeneration_lost :
    Machine.Chronological Call.time 0 sentRun ∧
      Idle (Address.repeated 1).val (window ⟨[], [], id⟩ 1 DAY sentRun) ∧
      (settled (leaving ⟨[], [], id⟩ 1 DAY sentRun) (Address.repeated 1).val
        (1 + DAY)).freeCredits ≠ FREE := by
  exact ⟨⟨by decide, by decide⟩, by decide +kernel, by decide +kernel⟩

/-- Without the transfer the same day refills the account. -/
theorem regeneration_of_lossless_sentRun :
    (settled (leaving ⟨[], [], id⟩ 1 DAY (sentRun.take 3)) (Address.repeated 1).val
      (1 + DAY)).freeCredits = FREE := by
  obtain ⟨_, day⟩ := regeneration_of_lossless ⟨[], [], id⟩ (sentRun.take 3)
    ⟨by decide, by decide⟩
  exact (day (Address.repeated 1).val 1 (by decide +kernel)
    ⟨by decide +kernel, by decide +kernel⟩).1

end OpenSocial.Token
