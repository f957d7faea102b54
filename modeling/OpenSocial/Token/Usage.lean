/-
This file bounds what any accounts can spend in any window of a run.

The argument is a potential. The exact free level of an account and the exact
token-backed level of all accounts together are what regeneration without
rounding would hold at a given time. Waiting raises them at most at the rate of
the capacity, every accepted call pays what it spends out of them, and only a
minted reward adds to them. Moving tokens moves credits in the same proportion,
so it leaves the sum of settled credits as it was.
-/

import OpenSocial.Token.Conservation

namespace OpenSocial.Token

open Library

/-! ### What a call spends and mints -/

/-- The free credits of an account that an accepted call spends. -/
def freeSpent {host : Host} (account : Bytes) (entry : (machine host).Accepted) : ℕ :=
  match entry.call.operation with
  | .consume args =>
    if args.account = account then
      freePart (args.units * 1000) (settled entry.before account entry.call.env.now)
    else 0
  | .support args =>
    if args.actor = account then
      freePart 1000 (settled entry.before account entry.call.env.now)
    else 0
  | _ => 0

/-- The token-backed credits that an accepted call spends. -/
def backedSpent {host : Host} (entry : (machine host).Accepted) : ℕ :=
  match entry.call.operation with
  | .consume args =>
    backedPart (args.units * 1000) (settled entry.before args.account entry.call.env.now)
  | .support args =>
    backedPart 1000 (settled entry.before args.actor entry.call.env.now)
  | _ => 0

/-- The tokens an accepted call mints: the reward it answers. -/
def mintedBy {host : Host} (entry : (machine host).Accepted) : ℕ :=
  entry.output.reward.getD 0

/-- The largest supply from a state on, over the states a history reaches. -/
def peakSupply {host : Host} (start : State) (history : List (machine host).Accepted) : ℕ :=
  history.foldl (fun peak entry => max peak (supplyOf entry.after)) (supplyOf start)

/-! ### Levels -/

/-- The exact free credits of an account at a time. -/
def freeLevel (state : State) (account : Bytes) (now : ℕ) : ℚ :=
  match state.accounts.get account with
  | none => FREE
  | some stored => Credit.level FREE DAY stored.freeCredits (now - stored.updatedAt)

/-- The exact token-backed credits of a stored account at a time. -/
def backedLevel (now : ℕ) (account : AccountState) : ℚ :=
  Credit.level (account.balance * PER_TOKEN) DAY account.tokenCredits (now - account.updatedAt)

/-- The exact token-backed credits of all accounts together at a time. -/
def capacityLevel (state : State) (now : ℕ) : ℚ :=
  state.accounts.total fun _ account => backedLevel now account

/-- The settled token-backed credits of all accounts together at a time. -/
def settledCredits (state : State) (now : ℕ) : ℕ :=
  state.accounts.total fun _ account => (settle now account).tokenCredits

theorem day_pos : 0 < DAY := by
  unfold DAY
  exact Nat.succ_pos _

/-- Every stored account was last settled in the past. -/
def SettledBy (state : State) (now : ℕ) : Prop :=
  ∀ account stored, state.accounts.get account = some stored → stored.updatedAt ≤ now

theorem freeLevel_putConfig (state : State) (config : Config) (account : Bytes) (now : ℕ) :
    freeLevel (state.putConfig config) account now = freeLevel state account now := rfl

theorem freeLevel_nonneg (state : State) (account : Bytes) (now : ℕ) :
    0 ≤ freeLevel state account now := by
  unfold freeLevel
  split
  · exact Nat.cast_nonneg FREE
  · exact Credit.level_nonneg _ _ _ _

theorem freeLevel_le (state : State) (account : Bytes) (now : ℕ) :
    freeLevel state account now ≤ FREE := by
  unfold freeLevel
  split
  · exact le_rfl
  · exact Credit.level_le _ _ _ _

theorem settled_free_le_level (state : State) (account : Bytes) (now : ℕ) :
    ((settled state account now).freeCredits : ℚ) ≤ freeLevel state account now := by
  cases present : state.accounts.get account with
  | none => simp only [settled, freeLevel, present, le_refl]
  | some stored =>
    simp only [settled, freeLevel, present, settle]
    exact Credit.refill_le_level _ _ day_pos _ _

/-- Waiting raises the free level at most at the free rate. -/
theorem freeLevel_wait {state : State} (account : Bytes) {now later : ℕ}
    (settledBy : SettledBy state now) (passed : now ≤ later) :
    freeLevel state account later ≤
      freeLevel state account now + FREE * ((later - now : ℕ) : ℚ) / DAY := by
  have gain : (0 : ℚ) ≤ FREE * ((later - now : ℕ) : ℚ) / DAY := by positivity
  unfold freeLevel
  split
  · exact le_add_of_nonneg_right gain
  · next stored present =>
    have past := settledBy account stored present
    have gap : later - stored.updatedAt = now - stored.updatedAt + (later - now) := by omega
    rw [gap]
    exact Credit.level_wait _ _ _ _ _

theorem backedLevel_wait {stored : AccountState} {now later : ℕ} (past : stored.updatedAt ≤ now)
    (passed : now ≤ later) :
    backedLevel later stored ≤ backedLevel now stored +
      stored.balance * ((PER_TOKEN : ℚ) * ((later - now : ℕ) : ℚ) / DAY) := by
  have gap : later - stored.updatedAt = now - stored.updatedAt + (later - now) := by omega
  have waited := Credit.level_wait (stored.balance * PER_TOKEN) DAY stored.tokenCredits
    (now - stored.updatedAt) (later - now)
  unfold backedLevel
  rw [gap]
  refine waited.trans (le_of_eq ?_)
  push_cast
  ring

/-- Waiting raises the level of all accounts together at most at the rate of the supply. -/
theorem capacityLevel_wait {state : State} {now later : ℕ} (conserved : Conserved state)
    (settledBy : SettledBy state now) (passed : now ≤ later) :
    capacityLevel state later ≤ capacityLevel state now +
      PER_TOKEN * supplyOf state * ((later - now : ℕ) : ℚ) / DAY := by
  have bound := Store.total_le_total state.accounts (fun _ stored => backedLevel later stored)
    (fun _ stored => backedLevel now stored +
      stored.balance * ((PER_TOKEN : ℚ) * ((later - now : ℕ) : ℚ) / DAY))
    fun account stored present => backedLevel_wait (settledBy account stored present) passed
  rw [Store.total_add] at bound
  have sum : (state.accounts.total fun _ stored => (stored.balance : ℚ) *
      ((PER_TOKEN : ℚ) * ((later - now : ℕ) : ℚ) / DAY)) =
      balances state * ((PER_TOKEN : ℚ) * ((later - now : ℕ) : ℚ) / DAY) := by
    unfold balances Store.total
    rw [Multiset.sum_map_mul_right, Nat.cast_multiset_sum, Multiset.map_map]
    rfl
  rw [sum, ← conserved.supply_eq] at bound
  refine bound.trans (le_of_eq ?_)
  unfold capacityLevel
  ring

/-! ### Writing an account -/

section Writing

variable {state : State} {now : ℕ}

theorem freeLevel_putAccount {account : Bytes} (other : Bytes) (value : AccountState)
    (fresh : value.updatedAt = now) (within : value.freeCredits ≤ FREE) :
    freeLevel (state.putAccount other value) account now =
      if account = other then (value.freeCredits : ℚ) else freeLevel state account now := by
  unfold freeLevel State.putAccount
  rw [Store.get_put]
  split
  · next absent =>
    split at absent
    · exact absurd absent (by simp)
    · next different => rw [if_neg different, absent]
  · next stored present =>
    split at present
    · next same =>
      rw [if_pos same, ← Option.some.inj present, fresh, Nat.sub_self,
        Credit.level_zero _ _ _ within]
    · next different => rw [if_neg different, present]

theorem backedLevel_fresh {value : AccountState} (fresh : value.updatedAt = now)
    (within : value.tokenCredits ≤ value.balance * PER_TOKEN) :
    backedLevel now value = value.tokenCredits := by
  rw [backedLevel, fresh, Nat.sub_self, Credit.level_zero _ _ _ within]

variable (state) in
/-- Writing a settled account replaces its settled credits by the new ones, at most. -/
theorem capacityLevel_putAccount (account : Bytes) (value : AccountState)
    (fresh : value.updatedAt = now) (within : value.tokenCredits ≤ value.balance * PER_TOKEN) :
    capacityLevel (state.putAccount account value) now +
        (settled state account now).tokenCredits ≤
      capacityLevel state now + value.tokenCredits := by
  have before := Store.total_eq_get_add_remove state.accounts
    (fun _ stored => backedLevel now stored) account
  have held : ((settled state account now).tokenCredits : ℚ) ≤
      (state.accounts.get account).elim 0 (backedLevel now) := by
    unfold settled
    split
    · next absent => rw [absent, Option.elim_none, Nat.cast_zero]
    · next stored present =>
      rw [present, Option.elim_some]
      exact Credit.refill_le_level _ _ day_pos _ _
  unfold capacityLevel State.putAccount
  rw [Store.total_put, before, backedLevel_fresh fresh within]
  linarith

/-- Settling a settled account changes nothing. -/
theorem settle_fresh_tokenCredits {value : AccountState} (fresh : value.updatedAt = now)
    (within : value.tokenCredits ≤ value.balance * PER_TOKEN) :
    (settle now value).tokenCredits = value.tokenCredits := by
  show Credit.refill _ _ _ _ = _
  rw [Credit.refill_eq day_pos, fresh, Nat.sub_self, Nat.mul_zero, Nat.zero_div, Nat.add_zero]
  exact min_eq_right within

variable (state) in
theorem settledCredits_putAccount (account : Bytes) (value : AccountState)
    (fresh : value.updatedAt = now) (within : value.tokenCredits ≤ value.balance * PER_TOKEN) :
    settledCredits (state.putAccount account value) now +
        (settled state account now).tokenCredits =
      settledCredits state now + value.tokenCredits := by
  have before := Store.total_eq_get_add_remove state.accounts
    (fun _ stored => (settle now stored).tokenCredits) account
  have held : (settled state account now).tokenCredits =
      (state.accounts.get account).elim 0 fun stored => (settle now stored).tokenCredits := by
    unfold settled
    split
    · next absent => rw [absent, Option.elim_none]
    · next stored present => rw [present, Option.elim_some]
  unfold settledCredits State.putAccount
  rw [Store.total_put, before, held, settle_fresh_tokenCredits fresh within]
  omega

variable (state) in
theorem settledBy_putAccount (settledBy : SettledBy state now) (account : Bytes)
    (value : AccountState) (fresh : value.updatedAt = now) :
    SettledBy (state.putAccount account value) now := by
  intro other stored present
  simp only [State.putAccount, Store.get_put] at present
  split at present
  · cases present
    exact fresh.le
  · exact settledBy other stored present

theorem settled_updatedAt (account : Bytes) : (settled state account now).updatedAt = now := by
  unfold settled
  split
  · rfl
  · rfl

end Writing

/-! ### What one call does to the levels -/

section Step

variable {host : Host} {state after : State} {env : Env} {operation : Operation} {output : Output}

theorem charge_within (account : Bytes) (cost now : ℕ) :
    (charge cost (settled state account now)).tokenCredits ≤
      (charge cost (settled state account now)).balance * PER_TOKEN :=
  (Nat.sub_le _ _).trans (settled_tokenCredits_le _ account now)

theorem credit_within {account : Bytes} {value credits now : ℕ}
    (carried : credits ≤ value * PER_TOKEN) :
    (credit value credits (settled state account now)).tokenCredits ≤
      (credit value credits (settled state account now)).balance * PER_TOKEN := by
  have within := settled_tokenCredits_le state account now
  simp only [credit]
  rw [Nat.add_mul]
  omega

/-- A transfer leaves the sum of settled credits as it was. -/
theorem settledCredits_transfer {sender recipient : Bytes} {value now : ℕ}
    (different : sender ≠ recipient) (positive : 0 < value)
    (funded : value ≤ (settled state sender now).balance) :
    settledCredits ((state.putAccount sender (debit value (settled state sender now))).putAccount
      recipient (credit value (movedWith value (settled state sender now))
        (settled state recipient now))) now = settledCredits state now := by
  have debited := settledCredits_putAccount state sender
    (debit value (settled state sender now)) (settled_updatedAt sender)
    (debit_within sender now positive funded)
  have credited := settledCredits_putAccount
    (state.putAccount sender (debit value (settled state sender now))) recipient
    (credit value (movedWith value (settled state sender now)) (settled state recipient now))
    (settled_updatedAt recipient) (credit_within (movedWith_within _ sender now value))
  rw [settled_putAccount_other _ recipient now _ different.symm] at credited
  have moved := movedWith_le sender now funded
  simp only [debit, credit] at debited credited ⊢
  omega

/-- A transfer never raises the exact level of all accounts together. -/
theorem capacityLevel_transfer {sender recipient : Bytes} {value now : ℕ}
    (different : sender ≠ recipient) (positive : 0 < value)
    (funded : value ≤ (settled state sender now).balance) :
    capacityLevel ((state.putAccount sender (debit value (settled state sender now))).putAccount
      recipient (credit value (movedWith value (settled state sender now))
        (settled state recipient now))) now ≤ capacityLevel state now := by
  have debited := capacityLevel_putAccount state sender
    (debit value (settled state sender now)) (settled_updatedAt sender)
    (debit_within sender now positive funded)
  have credited := capacityLevel_putAccount
    (state.putAccount sender (debit value (settled state sender now))) recipient
    (credit value (movedWith value (settled state sender now)) (settled state recipient now))
    (settled_updatedAt recipient) (credit_within (movedWith_within _ sender now value))
  rw [settled_putAccount_other _ recipient now _ different.symm] at credited
  have moved := movedWith_le sender now funded
  simp only [debit, credit, Nat.cast_add, Nat.cast_sub moved] at debited credited ⊢
  linarith

/-- A cost is paid out of the level of all accounts together. -/
theorem capacityLevel_charge {account : Bytes} {cost now : ℕ}
    (affordable : cost ≤ (settled state account now).freeCredits +
      (settled state account now).tokenCredits) :
    capacityLevel (state.putAccount account (charge cost (settled state account now))) now +
      backedPart cost (settled state account now) ≤ capacityLevel state now := by
  have charged := capacityLevel_putAccount state account
    (charge cost (settled state account now)) (settled_updatedAt account)
    (charge_within account cost now)
  have enough : backedPart cost (settled state account now) ≤
      (settled state account now).tokenCredits := by
    unfold backedPart freePart
    omega
  simp only [charge, Nat.cast_sub enough] at charged ⊢
  linarith

variable (state) in
/-- A minted reward adds its credits to the level of all accounts together, and no more. -/
theorem capacityLevel_mint (config : Config) (recipient : Bytes) (reward now : ℕ) :
    capacityLevel (mintedState state config recipient reward now) now ≤
      capacityLevel state now + PER_TOKEN * reward := by
  unfold mintedState
  split
  · have credited := capacityLevel_putAccount
      (state.putConfig { config with supply := config.supply + reward }) recipient
      (credit reward (reward * PER_TOKEN) (settled state recipient now))
      (settled_updatedAt recipient) (credit_within le_rfl)
    have same : settled (state.putConfig { config with supply := config.supply + reward }) recipient
        now = settled state recipient now := rfl
    have unmoved : capacityLevel (state.putConfig { config with supply := config.supply + reward })
        now = capacityLevel state now := rfl
    rw [same, unmoved] at credited
    simp only [credit, Nat.cast_add, Nat.cast_mul] at credited ⊢
    linarith
  · have gain : (0 : ℚ) ≤ PER_TOKEN * reward := by positivity
    linarith

variable (state) in
theorem freeLevel_charge (account : Bytes) (spender : Bytes) (cost now : ℕ) :
    freeLevel (state.putAccount spender (charge cost (settled state spender now))) account now +
      ((if spender = account then freePart cost (settled state account now) else 0 : ℕ) : ℚ) ≤
      freeLevel state account now := by
  rw [freeLevel_putAccount spender (charge cost (settled state spender now))
    (settled_updatedAt spender) ((Nat.sub_le _ _).trans (settled_freeCredits_le spender now))]
  by_cases same : account = spender
  · subst same
    have held := settled_free_le_level state account now
    have part : freePart cost (settled state account now) ≤
        (settled state account now).freeCredits := min_le_left _ _
    simp only [if_pos, charge, Nat.cast_sub part]
    linarith
  · rw [if_neg same, if_neg (Ne.symm same), Nat.cast_zero, add_zero]

variable (state) in
/-- Writing an account without touching its free credits never raises a free level. -/
theorem freeLevel_keep (account : Bytes) (other : Bytes) (value : AccountState) {now : ℕ}
    (fresh : value.updatedAt = now) (kept : value.freeCredits = (settled state other now).freeCredits) :
    freeLevel (state.putAccount other value) account now ≤ freeLevel state account now := by
  rw [freeLevel_putAccount other value fresh
    (kept ▸ settled_freeCredits_le other now)]
  by_cases same : account = other
  · subst same
    rw [if_pos rfl, kept]
    exact settled_free_le_level state account now
  · rw [if_neg same]

variable (state) in
/-- Minting a reward never raises a free level. -/
theorem freeLevel_mint (config : Config) (recipient account : Bytes) (reward now : ℕ) :
    freeLevel (mintedState state config recipient reward now) account now ≤
      freeLevel state account now := by
  unfold mintedState
  split
  · refine freeLevel_keep (state.putConfig { config with supply := config.supply + reward }) _
      recipient (credit reward (reward * PER_TOKEN) (settled state recipient now))
      (settled_updatedAt recipient) rfl
  · exact le_rfl

theorem settledBy_mint {config : Config} {recipient : Bytes} {reward now : ℕ}
    (settledBy : SettledBy state now) :
    SettledBy (mintedState state config recipient reward now) now := by
  unfold mintedState
  split
  · exact settledBy_putAccount
      (state.putConfig { config with supply := config.supply + reward }) settledBy recipient
      (credit reward (reward * PER_TOKEN) (settled state recipient now))
      (settled_updatedAt recipient)
  · exact settledBy

end Step

section Entry

variable {host : Host} (entry : (machine host).Accepted)

/-- An accepted call pays the free credits it spends out of the account's free level. -/
theorem freeLevel_step (account : Bytes) :
    freeLevel entry.after account entry.call.env.now + (freeSpent account entry : ℚ) ≤
      freeLevel entry.before account entry.call.env.now := by
  have effect := effect_of_entry entry
  unfold freeSpent
  generalize entry.call.operation = operation at effect ⊢
  generalize entry.after = after at effect ⊢
  generalize entry.output = output at effect
  generalize entry.call.env = env at effect ⊢
  cases effect with
  | initialized => simp [freeLevel, State.putConfig]
  | policyChanged => simp [freeLevel, State.putConfig]
  | consumed spender units => exact freeLevel_charge _ _ spender.val _ _
  | transferred sender recipient value config signer different =>
    have distinct : recipient.val ≠ sender.val := fun same => different (Subtype.ext same.symm)
    have debited := freeLevel_keep entry.before account sender.val
      (debit value (settled entry.before sender.val env.now)) (settled_updatedAt sender.val) rfl
    have unmoved := settled_putAccount_other entry.before recipient.val env.now
      (debit value (settled entry.before sender.val env.now)) distinct
    have credited := freeLevel_keep
      (entry.before.putAccount sender.val
        (debit value (settled entry.before sender.val env.now))) account recipient.val
      (credit value (movedWith value (settled entry.before sender.val env.now))
        (settled entry.before recipient.val env.now)) (settled_updatedAt recipient.val)
      (by rw [unmoved]; rfl)
    rw [Nat.cast_zero, add_zero]
    exact credited.trans debited
  | burnt sender value config =>
    rw [Nat.cast_zero, add_zero]
    have kept := freeLevel_keep
      (entry.before.putConfig { config with supply := config.supply - value }) account sender.val
      (debit value (settled entry.before sender.val env.now)) (settled_updatedAt sender.val) rfl
    rw [freeLevel_putConfig] at kept
    exact kept
  | supported actor id device config post =>
    have charged := freeLevel_charge entry.before account actor.val 1000
      env.now
    have mintedLevel := freeLevel_mint
      (countedState entry.before actor post.author id
        (rewardOf entry.before config post.author.val env.now) env.now)
      config post.author.val account (rewardOf entry.before config post.author.val env.now) env.now
    have same : freeLevel (countedState entry.before actor post.author id
        (rewardOf entry.before config post.author.val env.now) env.now) account env.now =
        freeLevel (entry.before.putAccount actor.val
          (charge 1000 (settled entry.before actor.val env.now))) account env.now := rfl
    rw [same] at mintedLevel
    exact (add_le_add mintedLevel le_rfl).trans charged

/-- An accepted call pays the token-backed credits it spends out of the level of all accounts,
and adds to it only what it mints. -/
theorem capacityLevel_step :
    capacityLevel entry.after entry.call.env.now + (backedSpent entry : ℚ) ≤
      capacityLevel entry.before entry.call.env.now + PER_TOKEN * (mintedBy entry : ℚ) := by
  have effect := effect_of_entry entry
  unfold backedSpent mintedBy
  generalize entry.call.operation = operation at effect ⊢
  generalize entry.after = after at effect ⊢
  generalize entry.output = output at effect ⊢
  generalize entry.call.env = env at effect ⊢
  cases effect with
  | initialized => simp [capacityLevel, State.putConfig]
  | policyChanged => simp [capacityLevel, State.putConfig]
  | consumed spender units config configured positive bounded affordable =>
    have charged := capacityLevel_charge affordable
    simpa using charged
  | transferred sender recipient value config signer different configured authorized positive
      funded =>
    have distinct : sender.val ≠ recipient.val := fun same => different (Subtype.ext same)
    have moved := capacityLevel_transfer distinct positive funded
    simpa using moved
  | burnt sender value config signer configured authorized positive funded =>
    have debited := capacityLevel_putAccount
      (entry.before.putConfig { config with supply := config.supply - value }) sender.val
      (debit value (settled entry.before sender.val env.now)) (settled_updatedAt sender.val)
      (debit_within sender.val env.now positive funded)
    have less : ((debit value (settled entry.before sender.val env.now)).tokenCredits : ℚ) ≤
        (settled entry.before sender.val env.now).tokenCredits := by
      exact_mod_cast Nat.sub_le _ _
    have same : settled (entry.before.putConfig { config with supply := config.supply - value })
        sender.val env.now = settled entry.before sender.val env.now := rfl
    have unmoved : capacityLevel (entry.before.putConfig
        { config with supply := config.supply - value }) env.now =
        capacityLevel entry.before env.now := rfl
    rw [same, unmoved] at debited
    simp only [Option.getD_none, Nat.cast_zero, mul_zero, add_zero]
    linarith
  | supported actor id device config post signer configured idLength authorized found active
      different fresh affordable =>
    have charged := capacityLevel_charge affordable
    have mintedLevel := capacityLevel_mint
      (countedState entry.before actor post.author id
        (rewardOf entry.before config post.author.val env.now) env.now)
      config post.author.val (rewardOf entry.before config post.author.val env.now) env.now
    have same : capacityLevel (countedState entry.before actor post.author id
        (rewardOf entry.before config post.author.val env.now) env.now) env.now =
        capacityLevel (entry.before.putAccount actor.val
          (charge 1000 (settled entry.before actor.val env.now))) env.now := rfl
    rw [same] at mintedLevel
    simp only [Option.getD_some]
    linarith

theorem settledBy_step (settledBy : SettledBy entry.before entry.call.env.now) :
    SettledBy entry.after entry.call.env.now := by
  have effect := effect_of_entry entry
  generalize entry.call.operation = operation at effect
  generalize entry.after = after at effect ⊢
  generalize entry.output = output at effect
  generalize entry.call.env = env at effect settledBy ⊢
  cases effect with
  | initialized => exact settledBy
  | policyChanged => exact settledBy
  | consumed spender units =>
    exact settledBy_putAccount _ settledBy spender.val
      (charge (units * 1000) (settled entry.before spender.val env.now))
      (settled_updatedAt spender.val)
  | transferred sender recipient value =>
    exact settledBy_putAccount _ (settledBy_putAccount _ settledBy sender.val
        (debit value (settled entry.before sender.val env.now)) (settled_updatedAt sender.val))
      recipient.val
      (credit value (movedWith value (settled entry.before sender.val env.now))
        (settled entry.before recipient.val env.now)) (settled_updatedAt recipient.val)
  | burnt sender value config =>
    exact settledBy_putAccount
      (entry.before.putConfig { config with supply := config.supply - value }) settledBy
      sender.val (debit value (settled entry.before sender.val env.now))
      (settled_updatedAt sender.val)
  | supported actor id device config post =>
    have paid := settledBy_putAccount _ settledBy actor.val
      (charge 1000 (settled entry.before actor.val env.now)) (settled_updatedAt actor.val)
    exact settledBy_mint paid

end Entry

/-! ### Windows -/

section Window

variable {host : Host}

/-- The free credits of an account spent in a history. -/
def freeSpentIn (account : Bytes) (history : List (machine host).Accepted) : ℕ :=
  (history.map (freeSpent account)).sum

/-- The token-backed credits spent in a history. -/
def backedSpentIn (history : List (machine host).Accepted) : ℕ :=
  (history.map backedSpent).sum

/-- The tokens minted in a history. -/
def mintedIn (history : List (machine host).Accepted) : ℕ :=
  (history.map mintedBy).sum

theorem peakSupply_concat (start : State) (history : List (machine host).Accepted)
    (entry : (machine host).Accepted) :
    peakSupply start (history ++ [entry]) =
      max (peakSupply start history) (supplyOf entry.after) := by
  rw [peakSupply, List.foldl_append]
  rfl

/-- What holds of a history that began in the state `entered` at the time `start`: whatever was
spent, and the level that is left, came from the level at the start, regeneration and minting. -/
structure UsageBounded (entered : State) (start now : ℕ) (history : List (machine host).Accepted)
    (state : State) : Prop where
  invariant : Invariant state
  settledBy : SettledBy state now
  started : start ≤ now
  peak : supplyOf state ≤ peakSupply entered history
  free : ∀ account, (freeSpentIn account history : ℚ) + freeLevel state account now ≤
    FREE + FREE * ((now - start : ℕ) : ℚ) / DAY
  backed : (backedSpentIn history : ℚ) + capacityLevel state now ≤
    capacityLevel entered start + PER_TOKEN * mintedIn history +
      PER_TOKEN * peakSupply entered history * ((now - start : ℕ) : ℚ) / DAY

variable {entered : State} {start : ℕ}

theorem usageBounded_enter (invariant : Invariant entered) (settledBy : SettledBy entered start) :
    UsageBounded entered start start ([] : List (machine host).Accepted) entered := by
  refine ⟨invariant, settledBy, le_rfl, le_rfl, fun account => ?_, ?_⟩
  · have level := freeLevel_le entered account start
    simp [freeSpentIn, level]
  · simp [backedSpentIn, mintedIn]

theorem usageBounded_wait {now later : ℕ} {history : List (machine host).Accepted} {state : State}
    (passed : now ≤ later) (bounded : UsageBounded entered start now history state) :
    UsageBounded entered start later history state := by
  obtain ⟨invariant, settledBy, started, peak, free, backed⟩ := bounded
  have elapsed : ((later - start : ℕ) : ℚ) = ((now - start : ℕ) : ℚ) + ((later - now : ℕ) : ℚ) := by
    rw [← Nat.cast_add]
    congr 1
    omega
  refine ⟨invariant, fun account stored present => (settledBy account stored present).trans passed,
    started.trans passed, peak, fun account => ?_, ?_⟩
  · have waited := freeLevel_wait account settledBy passed
    have bound := free account
    rw [elapsed, mul_add, add_div]
    linarith
  · have waited := capacityLevel_wait invariant.conserved settledBy passed
    have rate : (PER_TOKEN : ℚ) * supplyOf state * ((later - now : ℕ) : ℚ) / DAY ≤
        PER_TOKEN * peakSupply entered history * ((later - now : ℕ) : ℚ) / DAY := by
      have peak' : (supplyOf state : ℚ) ≤ peakSupply entered history := by exact_mod_cast peak
      gcongr
    rw [elapsed, mul_add, add_div]
    linarith

theorem usageBounded_step {history : List (machine host).Accepted}
    (entry : (machine host).Accepted)
    (bounded : UsageBounded entered start entry.call.env.now history entry.before) :
    UsageBounded entered start entry.call.env.now (history ++ [entry]) entry.after := by
  obtain ⟨invariant, settledBy, started, peak, free, backed⟩ := bounded
  refine ⟨invariant_step (effect_of_entry entry) invariant, settledBy_step entry settledBy, started,
    ?_, fun account => ?_, ?_⟩
  · rw [peakSupply_concat]
    exact le_max_right _ _
  · have step := freeLevel_step entry account
    have bound := free account
    simp only [freeSpentIn, List.map_append, List.map_cons, List.map_nil, List.sum_append,
      List.sum_singleton, Nat.cast_add] at bound ⊢
    linarith
  · have step := capacityLevel_step entry
    have higher : (PER_TOKEN : ℚ) * peakSupply entered history *
        ((entry.call.env.now - start : ℕ) : ℚ) / DAY ≤
        PER_TOKEN * peakSupply entered (history ++ [entry]) *
          ((entry.call.env.now - start : ℕ) : ℚ) / DAY := by
      have peak' : (peakSupply entered history : ℚ) ≤ peakSupply entered (history ++ [entry]) := by
        rw [peakSupply_concat]
        exact_mod_cast le_max_left _ _
      gcongr
    simp only [backedSpentIn, mintedIn, List.map_append, List.map_cons, List.map_nil,
      List.sum_append, List.sum_singleton, Nat.cast_add] at backed ⊢
    linarith

/-- After every chronological run every stored account was last settled in the past. -/
theorem settledBy_final (host : Host) {calls : List Call} {now : ℕ}
    (chronological : Machine.Chronological Call.time 0 calls)
    (passed : ∀ call ∈ calls, call.time ≤ now) :
    SettledBy ((machine host).final (machine host).initial calls) now :=
  (machine host).timed_induction Call.time (machine host).initial 0
    (fun clock _ state => SettledBy state clock)
    (fun account stored present => absurd present (by simp [machine, empty]))
    (fun clock later _ state passed settledBy account stored present =>
      (settledBy account stored present).trans passed)
    calls (fun _ entry _ settledBy => settledBy_step entry settledBy) chronological now
    (Nat.zero_le now) passed

/-- The accepted calls of a run inside the window of a given length. -/
def window (host : Host) (start length : ℕ) (calls : List Call) : List (machine host).Accepted :=
  ((machine host).history (machine host).initial calls).filter
    fun entry => start ≤ entry.call.time ∧ entry.call.time ≤ start + length

/-- The state of a run when a window opens. -/
def entering (host : Host) (start : ℕ) (calls : List Call) : State :=
  (machine host).final (machine host).initial (Machine.before Call.time start calls)

theorem usageBounded_window (host : Host) {calls : List Call}
    (chronological : Machine.Chronological Call.time 0 calls) (start length : ℕ) :
    ∃ state, UsageBounded (entering host start calls) start (start + length)
      (window host start length calls) state := by
  have enter : UsageBounded (entering host start calls) start start
      ([] : List (machine host).Accepted) (entering host start calls) :=
    usageBounded_enter (invariant_final host _)
      (settledBy_final host (Machine.chronological_before Call.time start chronological)
        (Machine.early_of_before Call.time start calls))
  refine ⟨(machine host).final (entering host start calls)
    (Machine.during Call.time start (start + length) calls), ?_⟩
  rw [window, (machine host).history_window Call.time start (start + length) chronological
    (Nat.le_add_right _ _)]
  refine (machine host).timed_induction Call.time (entering host start calls) start
    (UsageBounded (entering host start calls) start) enter
    (fun now later history state passed bounded => usageBounded_wait passed bounded) _
    (fun history entry _ bounded => usageBounded_step entry bounded)
    (Machine.chronological_during Call.time start (start + length) chronological) _
    (Nat.le_add_right _ _) fun call member => ?_
  have inside := (List.mem_filter.mp member).2
  simp only [decide_eq_true_eq] at inside
  exact inside.2

end Window

/-! ### Moving tokens -/

section Moving

variable {host : Host}

/-- A transfer neither raises nor lowers the settled credits of all accounts together. -/
theorem settledCredits_of_transfer (entry : (machine host).Accepted) {args : TransferArguments}
    (moved : entry.call.operation = .transfer args) :
    settledCredits entry.after entry.call.env.now =
      settledCredits entry.before entry.call.env.now := by
  have effect := effect_of_entry entry
  rw [moved] at effect
  generalize entry.after = after at effect ⊢
  generalize entry.output = output at effect
  generalize entry.call.env = env at effect ⊢
  cases effect with
  | transferred sender recipient value config signer different configured authorized positive
      funded =>
    have distinct : sender.val ≠ recipient.val := fun same => different (Subtype.ext same)
    exact settledCredits_transfer distinct positive funded

/-- The balance stored for an account. -/
def balanceIn (state : State) (account : Bytes) : ℕ :=
  (state.accounts.get account).elim 0 fun stored => stored.balance

/-- What a transfer does to the balances. -/
theorem balanceIn_of_transfer (entry : (machine host).Accepted) {args : TransferArguments}
    (moved : entry.call.operation = .transfer args) :
    args.sender ≠ args.recipient ∧ args.value ≤ balanceIn entry.before args.sender ∧
      ∀ account, balanceIn entry.after account =
        if account = args.recipient then balanceIn entry.before account + args.value
        else if account = args.sender then balanceIn entry.before account - args.value
        else balanceIn entry.before account := by
  have effect := effect_of_entry entry
  rw [moved] at effect
  generalize entry.after = after at effect ⊢
  generalize entry.output = output at effect
  generalize entry.call.env = env at effect
  cases effect with
  | transferred sender recipient value config signer different configured authorized positive
      funded =>
    have distinct : sender.val ≠ recipient.val := fun same => different (Subtype.ext same)
    rw [settled_balance_eq] at funded
    refine ⟨distinct, funded, fun account => ?_⟩
    unfold balanceIn State.putAccount
    rw [Store.get_put, Store.get_put]
    split
    · next at_recipient =>
      rw [Option.elim_some, at_recipient]
      exact congrArg (· + value) (settled_balance_eq recipient.val env.now)
    · split
      · next at_sender =>
        rw [Option.elim_some, at_sender]
        exact congrArg (· - value) (settled_balance_eq sender.val env.now)
      · rfl

/-- Sending tokens and getting them back restores every balance, and so every capacity. -/
theorem balanceIn_of_round_trip (first second : (machine host).Accepted) {args : TransferArguments}
    (there : first.call.operation = .transfer args)
    (back : second.call.operation = .transfer ⟨args.recipient, args.sender, args.value⟩)
    (next : second.before = first.after) (account : Bytes) :
    balanceIn second.after account = balanceIn first.before account := by
  obtain ⟨different, funded, forth⟩ := balanceIn_of_transfer first there
  obtain ⟨_, _, returned⟩ := balanceIn_of_transfer second back
  rw [returned account, next, forth account]
  simp only
  split
  · next at_sender =>
    rw [at_sender, if_neg different]
    exact Nat.sub_add_cancel funded
  · next elsewhere =>
    split
    · exact Nat.add_sub_cancel _ _
    · rfl

end Moving

/-- Usage bounds: in every window of every chronological run, no account spends more free credits
than a full allowance and its regeneration, all accounts together spend no more token-backed
credits than they held, regenerated and were minted, and moving tokens creates neither credits
nor capacity. -/
theorem usage_bounded (host : Host) (calls : List Call)
    (chronological : Machine.Chronological Call.time 0 calls) (start length : ℕ) :
    (∀ account, (freeSpentIn account (window host start length calls) : ℚ) ≤
        FREE + FREE * length / DAY) ∧
      (backedSpentIn (window host start length calls) : ℚ) ≤
        capacityLevel (entering host start calls) start +
          PER_TOKEN * mintedIn (window host start length calls) +
          PER_TOKEN * peakSupply (entering host start calls) (window host start length calls) *
            length / DAY ∧
      (∀ entry : (machine host).Accepted, ∀ args, entry.call.operation = .transfer args →
        settledCredits entry.after entry.call.env.now =
            settledCredits entry.before entry.call.env.now ∧
          capacityLevel entry.after entry.call.env.now ≤
            capacityLevel entry.before entry.call.env.now) ∧
      ∀ first second : (machine host).Accepted, ∀ args, first.call.operation = .transfer args →
        second.call.operation = .transfer ⟨args.recipient, args.sender, args.value⟩ →
        second.before = first.after →
        ∀ account, balanceIn second.after account = balanceIn first.before account := by
  obtain ⟨state, bounded⟩ := usageBounded_window host chronological start length
  have whole : ((start + length - start : ℕ) : ℚ) = length := by rw [Nat.add_sub_cancel_left]
  refine ⟨fun account => ?_, ?_, fun entry args moved => ⟨settledCredits_of_transfer entry moved, ?_⟩,
    fun first second args there back next account =>
      balanceIn_of_round_trip first second there back next account⟩
  · have free := bounded.free account
    have level := freeLevel_nonneg state account (start + length)
    rw [whole] at free
    linarith
  · have backed := bounded.backed
    have level : 0 ≤ capacityLevel state (start + length) := by
      have none := Store.total_le_total state.accounts (fun _ _ => (0 : ℚ))
        (fun _ stored => backedLevel (start + length) stored)
        fun _ stored _ => Credit.level_nonneg _ _ _ _
      refine le_trans ?_ none
      simp [Store.total]
    rw [whole] at backed
    linarith
  · have step := capacityLevel_step entry
    have nothing : backedSpent entry = 0 ∧ mintedBy entry = 0 := by
      have effect := effect_of_entry entry
      unfold backedSpent mintedBy
      rw [moved] at effect ⊢
      generalize entry.after = after at effect
      generalize entry.output = output at effect ⊢
      cases effect
      exact ⟨rfl, rfl⟩
    rw [nothing.1, nothing.2] at step
    simpa using step

/-- A run with a payment, a support that mints a reward, and a transfer of the reward. -/
def usageRun : List Call :=
  let contract := Address.repeated 9
  let reader := Address.repeated 1
  let author := Address.repeated 2
  let post : PostRecord :=
    ⟨author, 1, 1, List.replicate 34 5, .active, [], .everyone, 0, 0⟩
  let env := fun now => { Env.signedBy contract.val now with getPost := fun _ _ => some (some post) }
  [⟨env 0, .init ⟨contract.val, contract.val, contract.val, contract.val⟩⟩,
    ⟨env 5, .consume ⟨reader.val, 3⟩⟩,
    ⟨env 8, .support ⟨reader.val, List.replicate 32 4, []⟩⟩,
    ⟨env 9, .transfer ⟨author.val, reader.val, 1⟩⟩]

theorem usage_bounded_usageRun :
    (window ⟨[], [], id⟩ 0 10 usageRun).length = 4 ∧
      mintedIn (window ⟨[], [], id⟩ 0 10 usageRun) = 1 ∧
      freeSpentIn (Address.repeated 1).val (window ⟨[], [], id⟩ 0 10 usageRun) = 4000 ∧
      (freeSpentIn (Address.repeated 1).val (window ⟨[], [], id⟩ 0 10 usageRun) : ℚ) ≤
        FREE + FREE * (10 : ℕ) / DAY := by
  obtain ⟨free, _⟩ := usage_bounded ⟨[], [], id⟩ usageRun ⟨by decide, by decide⟩ 0 10
  exact ⟨by decide +kernel, by decide +kernel, by decide +kernel, free _⟩

end OpenSocial.Token
