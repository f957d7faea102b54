/-
This file states once what an accepted token call can do.

Settling, charging, debiting and crediting an account are pure functions of the
stored account and the block time; each accepted call is a composition of them.
`Effect` has one case for each way a method can succeed, with the guards that
held, the state it left and what it emitted. Later arguments are case analyses
over `Effect` and never unfold a method or its checked arithmetic.
-/

import OpenSocial.Library.Credit
import OpenSocial.Token.Contract

namespace OpenSocial.Token

open Library

/-! ### Accounts as pure functions -/

/-- An account settled at a block time. -/
def settle (now : ℕ) (account : AccountState) : AccountState where
  balance := account.balance
  freeCredits := Credit.refill FREE DAY account.freeCredits (now - account.updatedAt)
  tokenCredits := Credit.refill (account.balance * PER_TOKEN) DAY account.tokenCredits
    (now - account.updatedAt)
  updatedAt := now

/-- The settled account a call sees; an unknown account has only its free credits. -/
def settled (state : State) (account : Bytes) (now : ℕ) : AccountState :=
  match state.accounts.get account with
  | none => ⟨0, FREE, 0, now⟩
  | some stored => settle now stored

/-- The free credits a cost takes from an account. -/
def freePart (cost : ℕ) (account : AccountState) : ℕ :=
  min account.freeCredits cost

/-- The token-backed credits a cost takes from an account. -/
def backedPart (cost : ℕ) (account : AccountState) : ℕ :=
  cost - freePart cost account

/-- An account after paying a cost. -/
def charge (cost : ℕ) (account : AccountState) : AccountState :=
  { account with
    freeCredits := account.freeCredits - freePart cost account
    tokenCredits := account.tokenCredits - backedPart cost account }

/-- The credits that leave with some of an account's tokens. -/
def movedWith (value : ℕ) (account : AccountState) : ℕ :=
  account.tokenCredits * value / account.balance

/-- An account after giving up tokens. -/
def debit (value : ℕ) (account : AccountState) : AccountState :=
  { account with
    balance := account.balance - value
    tokenCredits := account.tokenCredits - movedWith value account }

/-- An account after receiving tokens and credits. -/
def credit (value credits : ℕ) (account : AccountState) : AccountState :=
  { account with
    balance := account.balance + value
    tokenCredits := account.tokenCredits + credits }

/-! ### Rewards as pure functions -/

/-- Today's global reward counter. -/
def globalCounter (state : State) (now : ℕ) : RewardState :=
  currentCounter (now / DAY) state.global

/-- Today's reward counter of a recipient. -/
def recipientCounter (state : State) (recipient : Bytes) (now : ℕ) : RewardState :=
  currentCounter (now / DAY) (state.rewards.get recipient)

/-- The reward a support mints: the configured amount under both caps and the supply. -/
def rewardOf (state : State) (config : Config) (recipient : Bytes) (now : ℕ) : ℕ :=
  min (min (min config.rewardAmount (config.dailyRewardCap - (globalCounter state now).minted))
    (config.recipientDailyCap - (recipientCounter state recipient now).minted))
    (MAX_SUPPLY - config.supply)

/-- The state after the supporter paid. -/
def paidState (state : State) (actor : Address) (now : ℕ) : State :=
  state.putAccount actor.val (charge 1000 (settled state actor.val now))

/-- The state after a reward was counted but not yet minted. -/
def countedState (state : State) (actor recipient : Address) (id : Bytes) (reward now : ℕ) :
    State :=
  { paidState state actor now with
    supports := state.supports.put (Util.concat [actor.val, id]) ⟨now / DAY, reward⟩
    global := some ⟨now / DAY, (globalCounter state now).minted + reward⟩
    rewards := state.rewards.put recipient.val
      ⟨now / DAY, (recipientCounter state recipient.val now).minted + reward⟩ }

/-- The state after a reward was minted. -/
def mintedState (state : State) (config : Config) (recipient : Bytes) (reward now : ℕ) : State :=
  if 0 < reward then
    (state.putConfig { config with supply := config.supply + reward }).putAccount recipient
      (credit reward (reward * PER_TOKEN) (settled state recipient now))
  else state

/-- The events of minting a reward. -/
def mintEvents (state : State) (recipient : Bytes) (reward now : ℕ) : List Event :=
  if 0 < reward then
    [.accountUpdated recipient (credit reward (reward * PER_TOKEN) (settled state recipient now))
      now]
  else []

/-! ### Effects -/

/-- What an accepted call of each method does. -/
inductive Effect (host : Host) (env : Env) (state : State) : Operation → State → Output → Prop where
  | initialized (identity relationships publications messaging : Address)
      (authorized : env.authority host.contractId = true) (unset : state.config = none) :
      Effect host env state
        (.init ⟨identity.val, relationships.val, publications.val, messaging.val⟩)
        (state.putConfig ⟨identity, relationships, publications, messaging, 1, 1000, 10, 0⟩)
        ⟨[], none⟩
  | policyChanged (rewardAmount dailyRewardCap recipientDailyCap : ℕ) (config : Config)
      (authorized : env.authority host.contractId = true)
      (configured : state.config = some config)
      (amountBound : rewardAmount ≤ 10) (dailyBound : dailyRewardCap ≤ 10000)
      (recipientBound : recipientDailyCap ≤ 100) :
      Effect host env state
        (.setRewardPolicy ⟨rewardAmount, dailyRewardCap, recipientDailyCap⟩)
        (state.putConfig { config with
          rewardAmount := rewardAmount, dailyRewardCap := dailyRewardCap,
          recipientDailyCap := recipientDailyCap })
        ⟨[.policyChanged rewardAmount dailyRewardCap recipientDailyCap env.now], none⟩
  | consumed (account : Address) (units : ℕ) (config : Config)
      (configured : state.config = some config) (positive : 0 < units) (bounded : units ≤ 100)
      (affordable : units * 1000 ≤ (settled state account.val env.now).freeCredits +
        (settled state account.val env.now).tokenCredits) :
      Effect host env state (.consume ⟨account.val, units⟩)
        (state.putAccount account.val (charge (units * 1000) (settled state account.val env.now)))
        ⟨[.accountUpdated account.val (charge (units * 1000) (settled state account.val env.now))
          env.now], none⟩
  | transferred (sender recipient : Address) (value : ℕ) (config : Config) (signer : Bytes)
      (different : sender ≠ recipient) (configured : state.config = some config)
      (authorized :
        Actor.requireAuthorized env config.identity.val sender.val [] 0 = .ok signer)
      (positive : 0 < value) (funded : value ≤ (settled state sender.val env.now).balance) :
      Effect host env state (.transfer ⟨sender.val, recipient.val, value⟩)
        ((state.putAccount sender.val (debit value (settled state sender.val env.now))).putAccount
          recipient.val (credit value (movedWith value (settled state sender.val env.now))
            (settled state recipient.val env.now)))
        ⟨[.accountUpdated sender.val (debit value (settled state sender.val env.now)) env.now,
          .accountUpdated recipient.val
            (credit value (movedWith value (settled state sender.val env.now))
              (settled state recipient.val env.now)) env.now,
          .transfer sender recipient value env.now], none⟩
  | burnt (sender : Address) (value : ℕ) (config : Config) (signer : Bytes)
      (configured : state.config = some config)
      (authorized :
        Actor.requireAuthorized env config.identity.val sender.val [] 0 = .ok signer)
      (positive : 0 < value) (funded : value ≤ (settled state sender.val env.now).balance) :
      Effect host env state (.burn ⟨sender.val, value⟩)
        ((state.putConfig { config with supply := config.supply - value }).putAccount sender.val
          (debit value (settled state sender.val env.now)))
        ⟨[.accountUpdated sender.val (debit value (settled state sender.val env.now)) env.now,
          .burn sender value env.now], none⟩
  | supported (actor : Address) (id device : Bytes) (config : Config) (post : PostRecord)
      (signer : Bytes) (configured : state.config = some config) (idLength : id.length = 32)
      (authorized : Actor.requireAuthorized env config.identity.val actor.val device
        Capability.SUPPORT = .ok signer)
      (found : env.getPost config.publications.val id = some (some post))
      (active : post.state = .active) (different : actor ≠ post.author)
      (fresh : state.supports.get (Util.concat [actor.val, id]) = none)
      (affordable : 1000 ≤ (settled state actor.val env.now).freeCredits +
        (settled state actor.val env.now).tokenCredits) :
      Effect host env state (.support ⟨actor.val, id, device⟩)
        (mintedState
          (countedState state actor post.author id
            (rewardOf state config post.author.val env.now) env.now)
          config post.author.val (rewardOf state config post.author.val env.now) env.now)
        ⟨[.accountUpdated actor.val (charge 1000 (settled state actor.val env.now)) env.now] ++
          mintEvents
            (countedState state actor post.author id
              (rewardOf state config post.author.val env.now) env.now)
            post.author.val (rewardOf state config post.author.val env.now) env.now ++
          [.supported actor post.author id (rewardOf state config post.author.val env.now)
            env.now],
          some (rewardOf state config post.author.val env.now)⟩

/-! ### Inverting the methods -/

@[simp] theorem add_eq_ok (first second result : ℕ) :
    add first second = .ok result ↔ first + second < 2 ^ 64 ∧ first + second = result := by
  rw [add, checked_eq_ok, Word.checkedAdd_eq_some]

@[simp] theorem sub_eq_ok (first second result : ℕ) :
    sub first second = .ok result ↔ second ≤ first ∧ first - second = result := by
  rw [sub, checked_eq_ok, Word.checkedSub_eq_some]

@[simp] theorem mul_eq_ok (first second result : ℕ) :
    mul first second = .ok result ↔ first * second < 2 ^ 64 ∧ first * second = result := by
  rw [mul, checked_eq_ok, Word.checkedMul_eq_some]

@[simp] theorem div_eq_ok (first second result : ℕ) :
    div first second = .ok result ↔ second ≠ 0 ∧ first / second = result := by
  rw [div, checked_eq_ok, Word.checkedDiv_eq_some]

theorem regained_eq_ok {capacity gap result : ℕ} (answer : regained capacity gap = .ok result) :
    result = capacity * gap / DAY := by
  simp only [regained, bind_eq_ok, mul_eq_ok, div_eq_ok] at answer
  obtain ⟨product, ⟨_, rfl⟩, _, rfl⟩ := answer
  rfl

theorem elapsed_eq_ok {now updatedAt result : ℕ} (answer : elapsed now updatedAt = .ok result) :
    result = min (now - updatedAt) DAY := by
  unfold elapsed at answer
  split at answer
  · simp only [bind_eq_ok, sub_eq_ok, pure_eq_ok] at answer
    obtain ⟨gap, ⟨_, rfl⟩, rfl⟩ := answer
    rfl
  · next passed =>
    rw [← (pure_eq_ok _ _).mp answer, Nat.sub_eq_zero_of_le (Nat.le_of_not_lt passed),
      Nat.zero_min]

theorem load_eq_ok {env : Env} {state : State} {account : Bytes} {result : AccountState}
    (answer : load env state account = .ok result) : result = settled state account env.now := by
  rw [load] at answer
  rw [settled]
  cases present : state.accounts.get account with
  | none =>
    simp only [present, pure_eq_ok] at answer
    exact answer.symm
  | some stored =>
    simp only [present, bind_eq_ok, mul_eq_ok, add_eq_ok, pure_eq_ok] at answer
    obtain ⟨gap, gap_eq, _, ⟨_, rfl⟩, freeGain, freeGained, _, ⟨_, rfl⟩, tokenGain, tokenGained, _,
      ⟨_, rfl⟩, rfl⟩ := answer
    rw [regained_eq_ok freeGained, regained_eq_ok tokenGained, elapsed_eq_ok gap_eq]
    rfl

theorem spend_eq_ok {env : Env} {state after : State} {account : Bytes} {units : ℕ}
    {events : List Event} (answer : spend env state account units = .ok (after, events)) :
    0 < units ∧ units ≤ 100 ∧
      units * 1000 ≤ (settled state account env.now).freeCredits +
        (settled state account env.now).tokenCredits ∧
      after = state.putAccount account (charge (units * 1000) (settled state account env.now)) ∧
      events = [.accountUpdated account
        (charge (units * 1000) (settled state account env.now)) env.now] := by
  simp only [spend, save, bind_eq_ok, require_eq_ok, pure_eq_ok, mul_eq_ok, add_eq_ok, sub_eq_ok,
    exists_const, Bool.and_eq_true, decide_eq_true_eq, Prod.mk.injEq] at answer
  obtain ⟨⟨positive, bounded⟩, _, ⟨_, rfl⟩, loaded, answer, _, ⟨_, rfl⟩, affordable, _, ⟨_, rfl⟩,
    _, ⟨_, rfl⟩, _, ⟨_, rfl⟩, rfl, rfl⟩ := answer
  rw [load_eq_ok answer] at affordable ⊢
  exact ⟨positive, bounded, affordable, rfl, rfl⟩

theorem remaining_eq_ok {cap minted result : ℕ} (answer : remaining cap minted = .ok result) :
    result = cap - minted := by
  unfold remaining at answer
  split at answer
  · exact ((sub_eq_ok _ _ _).mp answer).2.symm
  · next exhausted =>
    rw [← (pure_eq_ok _ _).mp answer]
    omega

@[simp] theorem currentCounter_day (day : ℕ) (stored : Option RewardState) :
    (currentCounter day stored).day = day := by
  unfold currentCounter
  split
  · rfl
  · split
    · next same => exact same
    · rfl

theorem mint_eq_ok {env : Env} {state after : State} {config : Config} {recipient : Bytes}
    {reward : ℕ} {events : List Event}
    (answer : mint env state config recipient reward = .ok (after, events)) :
    after = mintedState state config recipient reward env.now ∧
      events = mintEvents state recipient reward env.now := by
  unfold mint at answer
  unfold mintedState mintEvents
  split at answer
  · next positive =>
    simp only [save, bind_eq_ok, pure_eq_ok, mul_eq_ok, add_eq_ok, Prod.mk.injEq] at answer
    obtain ⟨loaded, answer, _, ⟨_, rfl⟩, _, ⟨_, rfl⟩, _, ⟨_, rfl⟩, _, ⟨_, rfl⟩, rfl, rfl⟩ := answer
    rw [load_eq_ok answer, if_pos positive, if_pos positive]
    exact ⟨rfl, rfl⟩
  · next nothing =>
    rw [pure_eq_ok, Prod.mk.injEq] at answer
    rw [if_neg nothing, if_neg nothing]
    exact ⟨answer.1.symm, answer.2.symm⟩

/-- Every accepted call has the effect of its method. -/
theorem effect_of_accepted {host : Host} {env : Env} {operation : Operation} {state after : State}
    {output : Output} (answer : execute host state ⟨env, operation⟩ = .ok (after, output)) :
    Effect host env state operation after output := by
  cases operation with
  | init args =>
    obtain ⟨identity, relationships, publications, messaging⟩ := args
    simp only [execute, init, bind_eq_ok, pure_eq_ok, require_eq_ok, requireAuthority_eq_ok,
      Util.requireAddress_eq_ok, exists_const, Prod.mk.injEq, Option.isNone_iff_eq_none] at answer
    obtain ⟨authorized, unset, identity, rfl, relationships, rfl, publications, rfl, messaging, rfl,
      rfl, rfl⟩ := answer
    exact .initialized identity relationships publications messaging authorized unset
  | setRewardPolicy args =>
    obtain ⟨rewardAmount, dailyRewardCap, recipientDailyCap⟩ := args
    simp only [execute, setRewardPolicy, cfg, bind_eq_ok, pure_eq_ok, require_eq_ok,
      requireSome_eq_ok, requireAuthority_eq_ok, exists_const, Prod.mk.injEq, Bool.and_eq_true,
      decide_eq_true_eq] at answer
    obtain ⟨authorized, ⟨⟨amountBound, dailyBound⟩, recipientBound⟩, config, configured, rfl, rfl⟩ :=
      answer
    exact .policyChanged rewardAmount dailyRewardCap recipientDailyCap config authorized configured
      amountBound dailyBound recipientBound
  | consume args =>
    obtain ⟨account, units⟩ := args
    simp only [execute, consume, cfg, bind_eq_ok, pure_eq_ok, require_eq_ok, requireSome_eq_ok,
      Util.requireAddress_eq_ok, exists_const, Prod.mk.injEq, Prod.exists] at answer
    obtain ⟨config, configured, _, account, rfl, _, _, spent, rfl, rfl⟩ := answer
    obtain ⟨positive, bounded, affordable, rfl, rfl⟩ := spend_eq_ok spent
    exact .consumed account units config configured positive bounded affordable
  | transfer args =>
    obtain ⟨sender, recipient, value⟩ := args
    simp only [execute, transfer, cfg, save, bind_eq_ok, pure_eq_ok, require_eq_ok,
      requireSome_eq_ok, mul_eq_ok, div_eq_ok, sub_eq_ok, add_eq_ok, Util.requireAddress_eq_ok,
      exists_const, Prod.mk.injEq, Bool.and_eq_true, decide_eq_true_eq, bne_iff_ne] at answer
    obtain ⟨sender, rfl, recipient, rfl, different, config, configured, signer, authorized,
      registered, _, _, source, source_eq, target, target_eq, ⟨positive, funded⟩, _, ⟨_, rfl⟩, _,
      ⟨_, rfl⟩, _, ⟨_, rfl⟩, _, ⟨_, rfl⟩, _, ⟨_, rfl⟩, _, ⟨_, rfl⟩, rfl, rfl⟩ := answer
    have source_eq := load_eq_ok source_eq
    have target_eq := load_eq_ok target_eq
    subst source_eq target_eq
    exact .transferred sender recipient value config signer different configured authorized
      positive funded
  | burn args =>
    obtain ⟨sender, value⟩ := args
    simp only [execute, burn, cfg, save, bind_eq_ok, pure_eq_ok, require_eq_ok, requireSome_eq_ok,
      mul_eq_ok, div_eq_ok, sub_eq_ok, Util.requireAddress_eq_ok, exists_const, Prod.mk.injEq,
      Bool.and_eq_true, decide_eq_true_eq] at answer
    obtain ⟨sender, rfl, config, configured, signer, authorized, source, source_eq,
      ⟨positive, funded⟩, _, ⟨_, rfl⟩, _, ⟨_, rfl⟩, _, ⟨_, rfl⟩, _, ⟨_, rfl⟩, _, ⟨_, rfl⟩, rfl,
      rfl⟩ := answer
    have source_eq := load_eq_ok source_eq
    subst source_eq
    exact .burnt sender value config signer configured authorized positive funded
  | support args =>
    obtain ⟨actor, id, device⟩ := args
    simp only [execute, support, cfg, requireUnblocked, bind_eq_ok, pure_eq_ok, require_eq_ok,
      requireSome_eq_ok, div_eq_ok, sub_eq_ok, add_eq_ok, Util.requireAddress_eq_ok,
      Util.requireBytes_eq_ok, exists_const, Prod.mk.injEq, Prod.exists, bne_iff_ne, beq_iff_eq,
      Bool.not_eq_eq_eq_not, Bool.not_true, Store.has_eq_false, Option.filter_eq_some_iff] at answer
    obtain ⟨actor, rfl, id, ⟨rfl, _, _⟩, config, configured, idLength, signer, authorized, found,
      found_eq, post, ⟨rfl, active⟩, different, _, _, fresh, paid, spendEvents, spent, _, ⟨_, rfl⟩,
      dailyLeft, daily_eq, recipientLeft, recipient_eq, _, ⟨_, rfl⟩, _, ⟨_, rfl⟩, _, ⟨_, rfl⟩,
      _, _, minted, rfl, rfl⟩ := answer
    obtain ⟨_, _, affordable, rfl, rfl⟩ := spend_eq_ok spent
    obtain ⟨rfl, rfl⟩ := mint_eq_ok minted
    have daily_eq := remaining_eq_ok daily_eq
    have recipient_eq := remaining_eq_ok recipient_eq
    subst daily_eq recipient_eq
    simp only [currentCounter_day]
    exact .supported actor id device config post signer configured idLength authorized found_eq
      active different fresh affordable

/-- The effect of an entry of a history. -/
theorem effect_of_entry {host : Host} (entry : (machine host).Accepted) :
    Effect host entry.call.env entry.before entry.call.operation entry.after entry.output :=
  effect_of_accepted entry.accepted

end OpenSocial.Token
