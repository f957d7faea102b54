/-
This file counts what supports mint, by day and by recipient.

The contract keeps one counter for everything minted today and one for each
recipient, restarts them on the first support of a new day, and mints no more
than either leaves. The counters are compared with the history: over every
chronological run each equals the sum of the rewards of the day, whatever was
changed about the reward policy meanwhile.
-/

import OpenSocial.Token.Usage

namespace OpenSocial.Token

open Library

section Rewards

variable {host : Host}

/-! ### What a support does -/

/-- An accepted support: who supported whom, what was found and what it changed. -/
structure Supports (entry : (machine host).Accepted) (actor recipient : Address) (id : Bytes)
    (config : Config) (reward : ℕ) : Prop where
  called : ∃ device, entry.call.operation = .support ⟨actor.val, id, device⟩
  configured : entry.before.config = some config
  different : actor ≠ recipient
  fresh : entry.before.supports.get (Util.concat [actor.val, id]) = none
  capped : reward = rewardOf entry.before config recipient.val entry.call.env.now
  recorded : entry.after.supports = entry.before.supports.put (Util.concat [actor.val, id])
    ⟨entry.call.env.now / DAY, reward⟩
  counted : entry.after.global = some ⟨entry.call.env.now / DAY,
    (globalCounter entry.before entry.call.env.now).minted + reward⟩
  countedTo : entry.after.rewards = entry.before.rewards.put recipient.val
    ⟨entry.call.env.now / DAY,
      (recipientCounter entry.before recipient.val entry.call.env.now).minted + reward⟩
  answered : entry.output.reward = some reward
  reported : .supported actor recipient id reward entry.call.env.now ∈ entry.output.events
  supply : supplyOf entry.after = supplyOf entry.before + reward
  balance : ∀ account, balanceIn entry.after account =
    balanceIn entry.before account + if account = recipient.val then reward else 0

theorem balanceIn_putAccount (state : State) (account other : Bytes) (value : AccountState) :
    balanceIn (state.putAccount other value) account =
      if account = other then value.balance else balanceIn state account := by
  unfold balanceIn State.putAccount
  rw [Store.get_put]
  split
  · rfl
  · rfl

theorem settled_balance_eq_balanceIn (state : State) (account : Bytes) (now : ℕ) :
    (settled state account now).balance = balanceIn state account :=
  settled_balance_eq account now

/-- Minting raises the supply by the reward. -/
theorem supplyOf_minted {state : State} {config : Config} (configured : state.config = some config)
    (recipient : Bytes) (reward now : ℕ) :
    supplyOf (mintedState state config recipient reward now) = supplyOf state + reward := by
  have supply : supplyOf state = config.supply := by
    rw [supplyOf, configured, Option.elim_some]
  unfold mintedState
  split
  · rw [supply]
    rfl
  · next nothing => rw [Nat.eq_zero_of_not_pos nothing, Nat.add_zero]

/-- Minting raises the recipient's balance by the reward and no other. -/
theorem balanceIn_minted (state : State) (config : Config) (recipient account : Bytes)
    (reward now : ℕ) :
    balanceIn (mintedState state config recipient reward now) account =
      balanceIn state account + if account = recipient then reward else 0 := by
  unfold mintedState
  split
  · rw [balanceIn_putAccount]
    by_cases same : account = recipient
    · rw [if_pos same, if_pos same, same]
      exact congrArg (· + reward) (settled_balance_eq_balanceIn state recipient now)
    · rw [if_neg same, if_neg same, Nat.add_zero]
      rfl
  · next nothing =>
    rw [Nat.eq_zero_of_not_pos nothing, ite_self, Nat.add_zero]

/-- Paying for a support changes no balance. -/
theorem balanceIn_paid (state : State) (actor : Address) (account : Bytes) (now : ℕ) :
    balanceIn (paidState state actor now) account = balanceIn state account := by
  rw [paidState, balanceIn_putAccount]
  by_cases same : account = actor.val
  · rw [if_pos same, same]
    exact settled_balance_eq_balanceIn state actor.val now
  · rw [if_neg same]

/-- An accepted support is described by `Supports`. -/
theorem supports_of_support (entry : (machine host).Accepted) {args : SupportArguments}
    (called : entry.call.operation = .support args) :
    ∃ actor recipient config reward, args.actor = actor.val ∧
      Supports entry actor recipient args.postId config reward := by
  have effect := effect_of_entry entry
  rw [called] at effect
  generalize afterDef : entry.after = after at effect
  generalize outputDef : entry.output = output at effect
  generalize envDef : entry.call.env = env at effect
  cases effect with
  | supported actor id device config post signer configured idLength authorized found active
      different fresh affordable =>
    refine ⟨actor, post.author, config, rewardOf entry.before config post.author.val env.now, rfl,
      ⟨device, called⟩, configured, different, fresh, ?_, ?_, ?_, ?_, ?_, ?_, ?_, fun account => ?_⟩
    · rw [envDef]
    · rw [afterDef, mintedState_supports, envDef]
      rfl
    · rw [afterDef, mintedState_global, envDef]
      rfl
    · rw [afterDef, mintedState_rewards, envDef]
      rfl
    · rw [outputDef]
    · rw [outputDef, envDef]
      exact List.mem_append_right _ List.mem_cons_self
    · have configured' : (countedState entry.before actor post.author id
          (rewardOf entry.before config post.author.val env.now) env.now).config = some config :=
        configured
      rw [afterDef]
      exact supplyOf_minted configured' post.author.val _ env.now
    · rw [afterDef, balanceIn_minted]
      exact congrArg (· + _) (balanceIn_paid entry.before actor account env.now)

/-- No other method touches the supports or the counters, or answers a reward. -/
theorem kept_of_not_support (entry : (machine host).Accepted)
    (other : ∀ args, entry.call.operation ≠ .support args) :
    entry.after.supports = entry.before.supports ∧ entry.after.global = entry.before.global ∧
      entry.after.rewards = entry.before.rewards ∧ entry.output.reward = none := by
  have effect := effect_of_entry entry
  generalize entry.call.operation = operation at effect other
  generalize entry.after = after at effect ⊢
  generalize entry.output = output at effect ⊢
  generalize entry.call.env = env at effect
  cases effect with
  | initialized => exact ⟨rfl, rfl, rfl, rfl⟩
  | policyChanged => exact ⟨rfl, rfl, rfl, rfl⟩
  | consumed => exact ⟨rfl, rfl, rfl, rfl⟩
  | transferred => exact ⟨rfl, rfl, rfl, rfl⟩
  | burnt => exact ⟨rfl, rfl, rfl, rfl⟩
  | supported => exact absurd rfl (other _)

/-! ### Amounts of a day -/

/-- The day of an accepted call. -/
def dayOf (entry : (machine host).Accepted) : ℕ := entry.call.env.now / DAY

/-- The tokens an accepted call rewards an account with: what a support adds to its balance. -/
def rewardedTo (recipient : Bytes) (entry : (machine host).Accepted) : ℕ :=
  match entry.call.operation with
  | .support _ => balanceIn entry.after recipient - balanceIn entry.before recipient
  | _ => 0

/-- The sum of an amount over the accepted calls of a day. -/
def amountOn (amount : (machine host).Accepted → ℕ) (day : ℕ)
    (history : List (machine host).Accepted) : ℕ :=
  ((history.filter fun entry => dayOf entry = day).map amount).sum

/-- The daily reward cap a state has in force. -/
def dailyCapOf (state : State) : ℕ :=
  state.config.elim 0 fun config => config.dailyRewardCap

/-- The daily cap for one recipient a state has in force. -/
def recipientCapOf (state : State) : ℕ :=
  state.config.elim 0 fun config => config.recipientDailyCap

/-- The largest cap in force on a day: over the states its accepted calls found. -/
def peakOn (cap : State → ℕ) (day : ℕ) (history : List (machine host).Accepted) : ℕ :=
  (history.filter fun entry => dayOf entry = day).foldl
    (fun peak entry => max peak (cap entry.before)) 0

/-- The author and post of every accepted support. -/
def supportKeys (history : List (machine host).Accepted) : List (Bytes × Bytes) :=
  history.filterMap fun entry =>
    match entry.call.operation with
    | .support args => some (args.actor, args.postId)
    | _ => none

theorem amountOn_concat (amount : (machine host).Accepted → ℕ) (day : ℕ)
    (history : List (machine host).Accepted) (entry : (machine host).Accepted) :
    amountOn amount day (history ++ [entry]) =
      amountOn amount day history + if dayOf entry = day then amount entry else 0 := by
  unfold amountOn
  rw [List.filter_append, List.map_append, List.sum_append]
  by_cases today : dayOf entry = day
  · rw [List.filter_cons_of_pos (by simpa using today), if_pos today, List.filter_nil,
      List.map_singleton, List.sum_singleton]
  · rw [List.filter_cons_of_neg (by simpa using today), if_neg today]
    rfl

theorem peakOn_concat (cap : State → ℕ) (day : ℕ) (history : List (machine host).Accepted)
    (entry : (machine host).Accepted) :
    peakOn cap day (history ++ [entry]) =
      max (peakOn cap day history) (if dayOf entry = day then cap entry.before else 0) := by
  unfold peakOn
  rw [List.filter_append, List.foldl_append]
  by_cases today : dayOf entry = day
  · rw [List.filter_cons_of_pos (by simpa using today), if_pos today]
    rfl
  · rw [List.filter_cons_of_neg (by simpa using today), if_neg today]
    exact (Nat.max_zero _).symm

/-- Nothing was minted on days that have not come. -/
theorem amountOn_future (amount : (machine host).Accepted → ℕ) {day : ℕ}
    {history : List (machine host).Accepted} (past : ∀ entry ∈ history, dayOf entry < day) :
    amountOn amount day history = 0 := by
  unfold amountOn
  rw [List.filter_eq_nil_iff.mpr fun entry member => ?_]
  · rfl
  · simpa using (past entry member).ne

/-! ### Daily counters -/

/-- A stored counter equals an amount of the history, today and on every later day. -/
def Counted (amount : (machine host).Accepted → ℕ) (now : ℕ)
    (history : List (machine host).Accepted) (stored : Option RewardState) : Prop :=
  ∀ day, now / DAY ≤ day → (currentCounter day stored).minted = amountOn amount day history

section Counters

variable {amount : (machine host).Accepted → ℕ} {history : List (machine host).Accepted}
  {stored : Option RewardState}

theorem counted_nil (now : ℕ) : Counted amount now [] none := by
  intro day _
  rfl

theorem Counted.wait {now later : ℕ} (counted : Counted amount now history stored)
    (passed : now ≤ later) : Counted amount later history stored :=
  fun day today => counted day ((Nat.div_le_div_right passed).trans today)

/-- A call that adds nothing to the amount leaves the counter right. -/
theorem Counted.keep {now : ℕ} (counted : Counted amount now history stored)
    {entry : (machine host).Accepted} (nothing : amount entry = 0) :
    Counted amount now (history ++ [entry]) stored := by
  intro day today
  rw [amountOn_concat, nothing, ite_self, Nat.add_zero]
  exact counted day today

/-- A call that adds its amount to today's counter leaves the counter right. -/
theorem Counted.add {entry : (machine host).Accepted}
    (counted : Counted amount entry.call.env.now history stored)
    (past : ∀ earlier ∈ history, earlier.call.env.now ≤ entry.call.env.now) :
    Counted amount entry.call.env.now (history ++ [entry])
      (some ⟨entry.call.env.now / DAY,
        (currentCounter (entry.call.env.now / DAY) stored).minted + amount entry⟩) := by
  intro day today
  rw [amountOn_concat]
  by_cases same : dayOf entry = day
  · have same' : entry.call.env.now / DAY = day := same
    rw [if_pos same, currentCounter, if_pos same', same', counted day today]
  · have different : entry.call.env.now / DAY ≠ day := same
    have future : amountOn amount day history = 0 := amountOn_future amount fun earlier member =>
      (Nat.div_le_div_right (past earlier member)).trans_lt (lt_of_le_of_ne today different)
    rw [if_neg same, currentCounter, if_neg different, future]

/-- An amount that fits what the cap leaves stays under the largest cap in force. -/
theorem peak_step {cap : State → ℕ} {entry : (machine host).Accepted} {day : ℕ}
    (below : amountOn amount day history ≤ peakOn cap day history)
    (fits : dayOf entry = day → amount entry ≤ cap entry.before - amountOn amount day history) :
    amountOn amount day (history ++ [entry]) ≤ peakOn cap day (history ++ [entry]) := by
  rw [amountOn_concat, peakOn_concat]
  by_cases today : dayOf entry = day
  · have room := fits today
    rw [if_pos today, if_pos today]
    omega
  · rw [if_neg today, if_neg today]
    omega

end Counters

/-! ### Every call keeps the counts -/

/-- What holds of the rewards of a history at a time. -/
structure RewardsCounted (now : ℕ) (history : List (machine host).Accepted) (state : State) :
    Prop where
  past : ∀ entry ∈ history, entry.call.env.now ≤ now
  unique : (supportKeys history).Nodup
  recorded : ∀ key ∈ supportKeys history, state.supports.has (Util.concat [key.1, key.2]) = true
  counted : Counted mintedBy now history state.global
  countedTo : ∀ recipient, Counted (rewardedTo recipient) now history (state.rewards.get recipient)
  daily : ∀ day, amountOn mintedBy day history ≤ peakOn dailyCapOf day history
  recipient : ∀ account day,
    amountOn (rewardedTo account) day history ≤ peakOn recipientCapOf day history

theorem rewardsCounted_empty (now : ℕ) :
    RewardsCounted now ([] : List (machine host).Accepted) empty := by
  refine ⟨?_, List.nodup_nil, ?_, counted_nil now, fun recipient => ?_, fun _ => le_rfl,
    fun _ _ => le_rfl⟩
  · exact fun entry member => absurd member List.not_mem_nil
  · exact fun key member => absurd member List.not_mem_nil
  · exact counted_nil now

theorem rewardsCounted_wait {now later : ℕ} {history : List (machine host).Accepted}
    {state : State} (passed : now ≤ later) (counts : RewardsCounted now history state) :
    RewardsCounted later history state :=
  ⟨fun entry member => (counts.past entry member).trans passed, counts.unique, counts.recorded,
    counts.counted.wait passed, fun recipient => (counts.countedTo recipient).wait passed,
    counts.daily, counts.recipient⟩

theorem rewardedTo_of_supports {entry : (machine host).Accepted} {actor recipient : Address}
    {id : Bytes} {config : Config} {reward : ℕ}
    (supports : Supports entry actor recipient id config reward) (account : Bytes) :
    rewardedTo account entry = if account = recipient.val then reward else 0 := by
  obtain ⟨device, called⟩ := supports.called
  rw [rewardedTo, called, supports.balance account]
  exact Nat.add_sub_cancel_left _ _

theorem supportKeys_concat (history : List (machine host).Accepted)
    (entry : (machine host).Accepted) :
    supportKeys (history ++ [entry]) = supportKeys history ++ supportKeys [entry] :=
  List.filterMap_append

/-- A call that is no support keeps the counts. -/
theorem rewardsCounted_other {history : List (machine host).Accepted}
    (entry : (machine host).Accepted) (other : ∀ args, entry.call.operation ≠ .support args)
    (counts : RewardsCounted entry.call.env.now history entry.before) :
    RewardsCounted entry.call.env.now (history ++ [entry]) entry.after := by
  obtain ⟨supports, global, rewards, unanswered⟩ := kept_of_not_support entry other
  have unminted : mintedBy entry = 0 := by rw [mintedBy, unanswered, Option.getD_none]
  have unrewarded : ∀ recipient, rewardedTo recipient entry = 0 := by
    intro recipient
    unfold rewardedTo
    split
    · next args called => exact absurd called (other args)
    · rfl
  have unsupported : supportKeys [entry] = [] := by
    unfold supportKeys
    rw [List.filterMap_cons]
    split
    · rfl
    · next key found =>
      split at found
      · next args called => exact absurd called (other args)
      · exact absurd found (by simp)
  refine ⟨?_, ?_, ?_, ?_, fun recipient => ?_, fun day => ?_, fun account day => ?_⟩
  · intro earlier member
    rcases List.mem_append.mp member with old | new
    · exact counts.past earlier old
    · rw [List.mem_singleton.mp new]
  · rw [supportKeys_concat, unsupported, List.append_nil]
    exact counts.unique
  · rw [supportKeys_concat, unsupported, List.append_nil, supports]
    exact counts.recorded
  · rw [global]
    exact counts.counted.keep unminted
  · rw [rewards]
    exact (counts.countedTo recipient).keep (unrewarded recipient)
  · exact peak_step (counts.daily day) fun _ => by rw [unminted]; exact Nat.zero_le _
  · exact peak_step (counts.recipient account day) fun _ => by
      rw [unrewarded]
      exact Nat.zero_le _

/-- A support keeps the counts. -/
theorem rewardsCounted_support {history : List (machine host).Accepted}
    (entry : (machine host).Accepted) {actor recipient : Address} {id : Bytes} {config : Config}
    {reward : ℕ} (supports : Supports entry actor recipient id config reward)
    (counts : RewardsCounted entry.call.env.now history entry.before) :
    RewardsCounted entry.call.env.now (history ++ [entry]) entry.after := by
  obtain ⟨device, called⟩ := supports.called
  have minted : mintedBy entry = reward := by rw [mintedBy, supports.answered, Option.getD_some]
  have supported : supportKeys [entry] = [(actor.val, id)] := by
    unfold supportKeys
    rw [List.filterMap_cons, called]
    rfl
  have globalToday := counts.counted (entry.call.env.now / DAY) le_rfl
  have userToday := counts.countedTo recipient.val (entry.call.env.now / DAY) le_rfl
  have dailyCap : dailyCapOf entry.before = config.dailyRewardCap := by
    rw [dailyCapOf, supports.configured, Option.elim_some]
  have recipientCap : recipientCapOf entry.before = config.recipientDailyCap := by
    rw [recipientCapOf, supports.configured, Option.elim_some]
  refine ⟨?_, ?_, ?_, ?_, fun account => ?_, fun day => ?_, fun account day => ?_⟩
  · intro earlier member
    rcases List.mem_append.mp member with old | new
    · exact counts.past earlier old
    · rw [List.mem_singleton.mp new]
  · rw [supportKeys_concat, supported]
    refine List.nodup_append.mpr ⟨counts.unique, List.nodup_singleton _, ?_⟩
    intro key old other new same
    have stored := counts.recorded key old
    rw [same, List.mem_singleton.mp new] at stored
    have absent := (Store.has_eq_false _ _).mpr supports.fresh
    exact Bool.false_ne_true (absent.symm.trans stored)
  · intro key member
    rw [supportKeys_concat, supported] at member
    rw [supports.recorded, Store.has, Store.get_put]
    split
    · rfl
    · next different =>
      rcases List.mem_append.mp member with old | new
      · exact counts.recorded key old
      · rw [List.mem_singleton.mp new] at different
        exact absurd rfl different
  · rw [supports.counted, ← minted]
    exact counts.counted.add counts.past
  · rw [supports.countedTo, Store.get_put]
    by_cases same : account = recipient.val
    · have rewarded := rewardedTo_of_supports supports account
      rw [if_pos same] at rewarded
      rw [if_pos same, ← rewarded, recipientCounter, ← same]
      exact (counts.countedTo account).add counts.past
    · have unrewarded := rewardedTo_of_supports supports account
      rw [if_neg same] at unrewarded
      rw [if_neg same]
      exact (counts.countedTo account).keep unrewarded
  · refine peak_step (counts.daily day) fun today => ?_
    rw [← today, minted, supports.capped, dailyCap, dayOf, ← globalToday]
    exact rewardOf_le_daily _ config recipient.val entry.call.env.now
  · refine peak_step (counts.recipient account day) fun today => ?_
    rw [rewardedTo_of_supports supports account]
    by_cases same : account = recipient.val
    · rw [if_pos same, ← today, same, supports.capped, recipientCap, dayOf, ← userToday]
      exact rewardOf_le_recipient _ config recipient.val entry.call.env.now
    · rw [if_neg same]
      exact Nat.zero_le _

theorem rewardsCounted_step {history : List (machine host).Accepted}
    (entry : (machine host).Accepted)
    (counts : RewardsCounted entry.call.env.now history entry.before) :
    RewardsCounted entry.call.env.now (history ++ [entry]) entry.after := by
  by_cases support : ∃ args, entry.call.operation = .support args
  · obtain ⟨args, called⟩ := support
    obtain ⟨actor, recipient, config, reward, _, supports⟩ := supports_of_support entry called
    exact rewardsCounted_support entry supports counts
  · exact rewardsCounted_other entry (fun args called => support ⟨args, called⟩) counts

end Rewards

/-- Support rewards: no actor supports a post twice; what is minted on a day, in total and to one
recipient, is at most the largest cap in force that day; the stored counters of the current day
are the sums minted; and a support rewards its recipient, never its own actor. -/
theorem support_rewards (host : Host) (calls : List Call)
    (chronological : Machine.Chronological Call.time 0 calls) (now : ℕ)
    (passed : ∀ call ∈ calls, call.time ≤ now) :
    (supportKeys ((machine host).history (machine host).initial calls)).Nodup ∧
      (∀ day, amountOn mintedBy day ((machine host).history (machine host).initial calls) ≤
        peakOn dailyCapOf day ((machine host).history (machine host).initial calls)) ∧
      (∀ recipient day, amountOn (rewardedTo recipient) day
          ((machine host).history (machine host).initial calls) ≤
        peakOn recipientCapOf day ((machine host).history (machine host).initial calls)) ∧
      (globalCounter ((machine host).final (machine host).initial calls) now).minted =
        amountOn mintedBy (now / DAY) ((machine host).history (machine host).initial calls) ∧
      (∀ recipient, (recipientCounter ((machine host).final (machine host).initial calls) recipient
          now).minted = amountOn (rewardedTo recipient) (now / DAY)
        ((machine host).history (machine host).initial calls)) ∧
      ∀ entry : (machine host).Accepted, ∀ args, entry.call.operation = .support args →
        ∃ actor recipient : Address, args.actor = actor.val ∧ actor ≠ recipient ∧
          .supported actor recipient args.postId (mintedBy entry) entry.call.env.now ∈
            entry.output.events ∧
          supplyOf entry.after = supplyOf entry.before + mintedBy entry ∧
          ∀ account, rewardedTo account entry =
            if account = recipient.val then mintedBy entry else 0 := by
  have counts : RewardsCounted now ((machine host).history (machine host).initial calls)
      ((machine host).final (machine host).initial calls) :=
    (machine host).timed_induction Call.time (machine host).initial 0 RewardsCounted
      (rewardsCounted_empty 0) (fun _ _ _ _ passed counts => rewardsCounted_wait passed counts) calls
      (fun _ entry _ counts => rewardsCounted_step entry counts) chronological now
      (Nat.zero_le now) passed
  refine ⟨counts.unique, counts.daily, counts.recipient, counts.counted (now / DAY) le_rfl,
    fun recipient => counts.countedTo recipient (now / DAY) le_rfl, fun entry args called => ?_⟩
  obtain ⟨actor, recipient, config, reward, same, supports⟩ := supports_of_support entry called
  have minted : mintedBy entry = reward := by rw [mintedBy, supports.answered, Option.getD_some]
  rw [minted]
  exact ⟨actor, recipient, same, supports.different, supports.reported, supports.supply,
    rewardedTo_of_supports supports⟩

theorem support_rewards_usageRun :
    amountOn mintedBy 0 ((machine ⟨[], [], id⟩).history (machine ⟨[], [], id⟩).initial usageRun) =
        1 ∧
      (globalCounter ((machine ⟨[], [], id⟩).final (machine ⟨[], [], id⟩).initial usageRun)
        9).minted = 1 := by
  obtain ⟨_, _, _, counted, _⟩ :=
    support_rewards ⟨[], [], id⟩ usageRun ⟨by decide, by decide⟩ 9 (by decide)
  have minted : amountOn mintedBy 0
      ((machine ⟨[], [], id⟩).history (machine ⟨[], [], id⟩).initial usageRun) = 1 := by
    decide +kernel
  exact ⟨minted, counted.trans minted⟩

end OpenSocial.Token
