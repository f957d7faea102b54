/-
This file proves that the token contract conserves tokens, bounds every stored
quantity, and never leaves 64-bit arithmetic.

One invariant carries all of it: the configured supply is the sum of the stored
balances, no account holds more credits than its capacity, and the reward
counters stay within the pilot bounds. `Effect` gives its preservation, one case
for each method. The same bounds discharge every checked operation of the
methods, so no call of any run ends in an overflow.
-/

import OpenSocial.Token.Effects

namespace OpenSocial.Token

open Library

/-! ### The invariant -/

/-- The configured supply, zero before `init`. -/
def supplyOf (state : State) : ℕ :=
  state.config.elim 0 fun config => config.supply

/-- The sum of all stored balances. -/
def balances (state : State) : ℕ :=
  state.accounts.total fun _ account => account.balance

/-- Tokens are conserved and every stored account is within its capacity. -/
structure Conserved (state : State) : Prop where
  supply_eq : supplyOf state = balances state
  supply_le : supplyOf state ≤ MAX_SUPPLY
  backed : ∀ account stored, state.accounts.get account = some stored →
    stored.tokenCredits ≤ stored.balance * PER_TOKEN
  free : ∀ account stored, state.accounts.get account = some stored →
    stored.freeCredits ≤ FREE

/-- Conservation reads only the configuration and the accounts. -/
theorem Conserved.of_same {state other : State} (conserved : Conserved state)
    (config : other.config = state.config) (accounts : other.accounts = state.accounts) :
    Conserved other := by
  refine ⟨?_, ?_, ?_, ?_⟩
  · rw [supplyOf, balances, config, accounts]
    exact conserved.supply_eq
  · rw [supplyOf, config]
    exact conserved.supply_le
  · rw [accounts]
    exact conserved.backed
  · rw [accounts]
    exact conserved.free

/-- The reward policy and the reward counters are within the pilot bounds. -/
structure RewardsBounded (state : State) : Prop where
  amount : ∀ config, state.config = some config → config.rewardAmount ≤ 10
  daily : ∀ config, state.config = some config → config.dailyRewardCap ≤ 10000
  recipient : ∀ config, state.config = some config → config.recipientDailyCap ≤ 100
  minted : ∀ counter, state.global = some counter → counter.minted ≤ 10000
  mintedTo : ∀ account counter, state.rewards.get account = some counter → counter.minted ≤ 100

/-! ### Settled accounts -/

section Settled

variable {state : State} (account : Bytes) (now : ℕ)

theorem settled_freeCredits_le : (settled state account now).freeCredits ≤ FREE := by
  unfold settled
  split
  · exact le_rfl
  · exact Credit.refill_le _ _

variable (state) in
theorem settled_tokenCredits_le :
    (settled state account now).tokenCredits ≤
      (settled state account now).balance * PER_TOKEN := by
  unfold settled
  split
  · exact Nat.zero_le _
  · exact Credit.refill_le _ _

variable (state) in
theorem settled_putAccount_other {other : Bytes} (value : AccountState)
    (different : account ≠ other) :
    settled (state.putAccount other value) account now = settled state account now := by
  unfold settled State.putAccount
  rw [Store.get_put, if_neg different]

theorem settled_balance_eq :
    (settled state account now).balance =
      (state.accounts.get account).elim 0 fun stored => stored.balance := by
  unfold settled
  split
  · next absent => rw [absent, Option.elim_none]
  · next stored present => rw [present, Option.elim_some, settle]

variable (state) in
/-- Writing an account replaces its settled balance in the sum of balances. -/
theorem balances_putAccount (value : AccountState) :
    balances (state.putAccount account value) + (settled state account now).balance =
      balances state + value.balance := by
  have before := Store.total_eq_get_add_remove state.accounts
    (fun _ stored => stored.balance) account
  rw [← settled_balance_eq account now] at before
  unfold balances State.putAccount
  rw [Store.total_put, before]
  omega

theorem settled_balance_le (conserved : Conserved state) :
    (settled state account now).balance ≤ MAX_SUPPLY := by
  have whole := Store.total_eq_get_add_remove state.accounts
    (fun _ stored => stored.balance) account
  rw [← settled_balance_eq account now] at whole
  have supply := conserved.supply_le
  rw [conserved.supply_eq, balances, whole] at supply
  omega

theorem movedWith_le {value : ℕ} (funded : value ≤ (settled state account now).balance) :
    movedWith value (settled state account now) ≤ (settled state account now).tokenCredits :=
  Credit.share_le funded

variable (state) in
theorem movedWith_within (value : ℕ) :
    movedWith value (settled state account now) ≤ value * PER_TOKEN :=
  Credit.share_within (settled_tokenCredits_le _ account now)

theorem debit_within {value : ℕ} (positive : 0 < value)
    (funded : value ≤ (settled state account now).balance) :
    (debit value (settled state account now)).tokenCredits ≤
      (debit value (settled state account now)).balance * PER_TOKEN :=
  Credit.rest_within (positive.trans_le funded) funded (settled_tokenCredits_le _ account now)

end Settled

/-! ### Every method keeps the invariant -/

section Preservation

variable {state : State}

/-- Writing an account within its capacity keeps every account within its capacity. -/
theorem capped_putAccount (config : Option Config) (conserved : Conserved state) (account : Bytes)
    (value : AccountState) (backed : value.tokenCredits ≤ value.balance * PER_TOKEN)
    (free : value.freeCredits ≤ FREE)
    (supply_eq : supplyOf { state.putAccount account value with config := config } =
      balances (state.putAccount account value))
    (supply_le : supplyOf { state.putAccount account value with config := config } ≤ MAX_SUPPLY) :
    Conserved { state.putAccount account value with config := config } := by
  refine ⟨supply_eq, supply_le, fun other stored present => ?_, fun other stored present => ?_⟩
  · simp only [State.putAccount, Store.get_put] at present
    split at present
    · cases present
      exact backed
    · exact conserved.backed other stored present
  · simp only [State.putAccount, Store.get_put] at present
    split at present
    · cases present
      exact free
    · exact conserved.free other stored present

/-- Paying a cost keeps conservation. -/
theorem conserved_charge (conserved : Conserved state) (account : Bytes) (cost now : ℕ) :
    Conserved (state.putAccount account (charge cost (settled state account now))) := by
  have sum := balances_putAccount state account now
    (charge cost (settled state account now))
  have same : balances (state.putAccount account (charge cost (settled state account now))) =
      balances state := by
    simp only [charge] at sum ⊢
    omega
  refine capped_putAccount _ conserved account _ ?_ ?_ ?_ conserved.supply_le
  · exact (Nat.sub_le _ _).trans (settled_tokenCredits_le _ account now)
  · exact (Nat.sub_le _ _).trans (settled_freeCredits_le account now)
  · rw [same]
    exact conserved.supply_eq

/-- A transfer keeps conservation: what one account gives up the other receives. -/
theorem conserved_transfer (conserved : Conserved state) {sender recipient : Bytes} {value now : ℕ}
    (different : sender ≠ recipient) (positive : 0 < value)
    (funded : value ≤ (settled state sender now).balance) :
    Conserved ((state.putAccount sender (debit value (settled state sender now))).putAccount
      recipient (credit value (movedWith value (settled state sender now))
        (settled state recipient now))) := by
  have debited := balances_putAccount state sender now
    (debit value (settled state sender now))
  have credited := balances_putAccount
    (state.putAccount sender (debit value (settled state sender now))) recipient now
    (credit value (movedWith value (settled state sender now)) (settled state recipient now))
  rw [settled_putAccount_other _ recipient now _ different.symm] at credited
  have same : balances ((state.putAccount sender
      (debit value (settled state sender now))).putAccount recipient
      (credit value (movedWith value (settled state sender now)) (settled state recipient now))) =
        balances state := by
    simp only [debit, credit] at debited credited ⊢
    omega
  refine ⟨same ▸ conserved.supply_eq, conserved.supply_le, fun other stored present => ?_,
    fun other stored present => ?_⟩
  · simp only [State.putAccount, Store.get_put] at present
    split at present
    · cases present
      have moved := movedWith_within state sender now value
      have within := settled_tokenCredits_le state recipient now
      simp only [credit]
      rw [Nat.add_mul]
      omega
    · split at present
      · cases present
        exact debit_within sender now positive funded
      · exact conserved.backed other stored present
  · simp only [State.putAccount, Store.get_put] at present
    split at present
    · cases present
      exact settled_freeCredits_le recipient now
    · split at present
      · cases present
        exact settled_freeCredits_le sender now
      · exact conserved.free other stored present

/-- Burning tokens lowers the supply with the balance. -/
theorem conserved_burn (conserved : Conserved state) {sender : Bytes} {config : Config}
    {value now : ℕ} (configured : state.config = some config) (positive : 0 < value)
    (funded : value ≤ (settled state sender now).balance) :
    Conserved ((state.putConfig { config with supply := config.supply - value }).putAccount sender
      (debit value (settled state sender now))) := by
  have sum := balances_putAccount state sender now
    (debit value (settled state sender now))
  have supply_eq := conserved.supply_eq
  have supply_le := conserved.supply_le
  simp only [supplyOf, configured, Option.elim_some] at supply_eq supply_le
  refine capped_putAccount (some { config with supply := config.supply - value }) conserved
    sender _ (debit_within sender now positive funded) (settled_freeCredits_le sender now) ?_ ?_
  · simp only [supplyOf, Option.elim_some]
    simp only [debit] at sum ⊢
    omega
  · simp only [supplyOf, Option.elim_some]
    omega

/-- Minting a reward raises the supply with the balance. -/
theorem conserved_mint (conserved : Conserved state) {recipient : Bytes} {config : Config}
    {reward now : ℕ} (configured : state.config = some config)
    (room : config.supply + reward ≤ MAX_SUPPLY) :
    Conserved (mintedState state config recipient reward now) := by
  unfold mintedState
  split
  · have sum := balances_putAccount state recipient now
      (credit reward (reward * PER_TOKEN) (settled state recipient now))
    have supply_eq := conserved.supply_eq
    simp only [supplyOf, configured, Option.elim_some] at supply_eq
    refine capped_putAccount (some { config with supply := config.supply + reward })
      conserved recipient _ ?_ (settled_freeCredits_le recipient now) ?_ ?_
    · have within := settled_tokenCredits_le state recipient now
      simp only [credit]
      rw [Nat.add_mul]
      omega
    · simp only [supplyOf, Option.elim_some]
      simp only [credit] at sum ⊢
      omega
    · simpa only [supplyOf, Option.elim_some] using room
  · exact conserved

variable (state) in
theorem rewardOf_le_room (config : Config) (recipient : Bytes) (now : ℕ) :
    rewardOf state config recipient now ≤ MAX_SUPPLY - config.supply :=
  min_le_right _ _

/-- A daily counter never exceeds a bound on the stored counter and on its cap. -/
theorem counter_add_le {cap bound day reward : ℕ} {stored : Option RewardState}
    (counted : ∀ counter, stored = some counter → counter.minted ≤ bound) (cap_le : cap ≤ bound)
    (capped : reward ≤ cap - (currentCounter day stored).minted) :
    (currentCounter day stored).minted + reward ≤ bound := by
  have minted : (currentCounter day stored).minted ≤ bound := by
    unfold currentCounter
    split
    · exact Nat.zero_le _
    · next counter =>
      split
      · exact counted counter rfl
      · exact Nat.zero_le _
  omega

variable (state) in
theorem rewardOf_le_daily (config : Config) (recipient : Bytes) (now : ℕ) :
    rewardOf state config recipient now ≤
      config.dailyRewardCap - (globalCounter state now).minted :=
  ((min_le_left _ _).trans (min_le_left _ _)).trans (min_le_right _ _)

variable (state) in
theorem rewardOf_le_recipient (config : Config) (recipient : Bytes) (now : ℕ) :
    rewardOf state config recipient now ≤
      config.recipientDailyCap - (recipientCounter state recipient now).minted :=
  (min_le_left _ _).trans (min_le_right _ _)

/-- What a support leaves of the configuration: the same policy. -/
theorem mintedState_config {config other : Config} {recipient : Bytes} {reward now : ℕ}
    (configured : state.config = some config)
    (stored : (mintedState state config recipient reward now).config = some other) :
    other.rewardAmount = config.rewardAmount ∧ other.dailyRewardCap = config.dailyRewardCap ∧
      other.recipientDailyCap = config.recipientDailyCap := by
  unfold mintedState at stored
  split at stored
  · cases stored
    exact ⟨rfl, rfl, rfl⟩
  · cases configured.symm.trans stored
    exact ⟨rfl, rfl, rfl⟩

@[simp] theorem mintedState_global (config : Config) (recipient : Bytes) (reward now : ℕ) :
    (mintedState state config recipient reward now).global = state.global := by
  unfold mintedState
  split <;> rfl

@[simp] theorem mintedState_rewards (config : Config) (recipient : Bytes) (reward now : ℕ) :
    (mintedState state config recipient reward now).rewards = state.rewards := by
  unfold mintedState
  split <;> rfl

@[simp] theorem mintedState_supports (config : Config) (recipient : Bytes) (reward now : ℕ) :
    (mintedState state config recipient reward now).supports = state.supports := by
  unfold mintedState
  split <;> rfl

end Preservation

/-- Conservation and the reward bounds together. -/
structure Invariant (state : State) : Prop where
  conserved : Conserved state
  rewards : RewardsBounded state

theorem invariant_empty : Invariant empty := by
  refine ⟨⟨rfl, Nat.zero_le _, ?_, ?_⟩, ⟨?_, ?_, ?_, ?_, ?_⟩⟩
  all_goals simp [empty]

/-- Every accepted call keeps the invariant. -/
theorem invariant_step {host : Host} {env : Env} {state after : State} {operation : Operation}
    {output : Output} (effect : Effect host env state operation after output)
    (invariant : Invariant state) : Invariant after := by
  obtain ⟨conserved, rewards⟩ := invariant
  cases effect with
  | initialized identity relationships publications messaging authorized unset =>
    have none := conserved.supply_eq
    rw [supplyOf, unset, Option.elim_none] at none
    refine ⟨⟨none, Nat.zero_le _, conserved.backed, conserved.free⟩, ⟨?_, ?_, ?_, ?_, ?_⟩⟩
    · rintro config ⟨⟩
      exact Nat.le_of_ble_eq_true rfl
    · rintro config ⟨⟩
      exact Nat.le_of_ble_eq_true rfl
    · rintro config ⟨⟩
      exact Nat.le_of_ble_eq_true rfl
    · exact rewards.minted
    · exact rewards.mintedTo
  | policyChanged rewardAmount dailyRewardCap recipientDailyCap config authorized configured
      amountBound dailyBound recipientBound =>
    have supply_eq := conserved.supply_eq
    have supply_le := conserved.supply_le
    rw [supplyOf, configured, Option.elim_some] at supply_eq supply_le
    refine ⟨⟨supply_eq, supply_le, conserved.backed, conserved.free⟩, ⟨?_, ?_, ?_, ?_, ?_⟩⟩
    · rintro other ⟨⟩
      exact amountBound
    · rintro other ⟨⟩
      exact dailyBound
    · rintro other ⟨⟩
      exact recipientBound
    · exact rewards.minted
    · exact rewards.mintedTo
  | consumed account units config configured positive bounded affordable =>
    exact ⟨conserved_charge conserved account.val _ env.now,
      ⟨rewards.amount, rewards.daily, rewards.recipient, rewards.minted, rewards.mintedTo⟩⟩
  | transferred sender recipient value config signer different configured authorized positive
      funded =>
    have distinct : sender.val ≠ recipient.val := fun same => different (Subtype.ext same)
    exact ⟨conserved_transfer conserved distinct positive funded,
      ⟨rewards.amount, rewards.daily, rewards.recipient, rewards.minted, rewards.mintedTo⟩⟩
  | burnt sender value config signer configured authorized positive funded =>
    refine ⟨conserved_burn conserved configured positive funded,
      ⟨?_, ?_, ?_, rewards.minted, rewards.mintedTo⟩⟩
    · rintro other ⟨⟩
      exact rewards.amount config configured
    · rintro other ⟨⟩
      exact rewards.daily config configured
    · rintro other ⟨⟩
      exact rewards.recipient config configured
  | supported actor id device config post signer configured idLength authorized found active
      different fresh affordable =>
    have counted : Conserved (countedState state actor post.author id
        (rewardOf state config post.author.val env.now) env.now) :=
      (conserved_charge conserved actor.val 1000 env.now).of_same rfl rfl
    have room : config.supply + rewardOf state config post.author.val env.now ≤ MAX_SUPPLY := by
      have supply_le := conserved.supply_le
      rw [supplyOf, configured, Option.elim_some] at supply_le
      have reward_le := rewardOf_le_room state config post.author.val env.now
      omega
    have configured' : (countedState state actor post.author id
        (rewardOf state config post.author.val env.now) env.now).config = some config := configured
    refine ⟨conserved_mint counted configured' room, ⟨?_, ?_, ?_, ?_, ?_⟩⟩
    · intro other stored
      rw [(mintedState_config configured' stored).1]
      exact rewards.amount config configured
    · intro other stored
      rw [(mintedState_config configured' stored).2.1]
      exact rewards.daily config configured
    · intro other stored
      rw [(mintedState_config configured' stored).2.2]
      exact rewards.recipient config configured
    · intro counter stored
      rw [mintedState_global] at stored
      cases stored
      exact counter_add_le rewards.minted (rewards.daily config configured)
        (rewardOf_le_daily _ config post.author.val env.now)
    · intro account counter stored
      rw [mintedState_rewards] at stored
      simp only [countedState, Store.get_put] at stored
      split at stored
      · cases stored
        exact counter_add_le (fun counter => rewards.mintedTo post.author.val counter)
          (rewards.recipient config configured)
          (rewardOf_le_recipient _ config post.author.val env.now)
      · exact rewards.mintedTo account counter stored

/-- The invariant holds after every run. -/
theorem invariant_final (host : Host) (calls : List Call) :
    Invariant ((machine host).final (machine host).initial calls) :=
  (machine host).invariant_final (machine host).initial Invariant invariant_empty
    (fun entry => invariant_step (effect_of_entry entry)) calls

end OpenSocial.Token
