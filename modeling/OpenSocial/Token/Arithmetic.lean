/-
This file proves that the token contract never leaves 64-bit arithmetic.

Under the invariant of conservation every sum, difference, product and quotient
that `load`, `spend`, `transfer`, `burn` and `support` compute fits a u64, borrows
nothing and divides by nothing zero. The proofs walk the methods step by step
with the sequencing rule; a step that checks an operation is discharged by the
bound the invariant gives for its operands.
-/

import OpenSocial.Token.Conservation

namespace OpenSocial.Token

open Library

/-! ### Checked operations that succeed -/

theorem sound_add {first second : ℕ} (fits : first + second < 2 ^ 64) :
    Sound (add first second) fun result => result = first + second :=
  sound_checked ((Word.checkedAdd_eq_some _ _ _ _).mpr ⟨fits, rfl⟩)

theorem sound_sub {first second : ℕ} (enough : second ≤ first) :
    Sound (sub first second) fun result => result = first - second :=
  sound_checked ((Word.checkedSub_eq_some _ _ _).mpr ⟨enough, rfl⟩)

theorem sound_mul {first second : ℕ} (fits : first * second < 2 ^ 64) :
    Sound (mul first second) fun result => result = first * second :=
  sound_checked ((Word.checkedMul_eq_some _ _ _ _).mpr ⟨fits, rfl⟩)

theorem sound_div {first second : ℕ} (nonzero : second ≠ 0) :
    Sound (div first second) fun result => result = first / second :=
  sound_checked ((Word.checkedDiv_eq_some _ _ _).mpr ⟨nonzero, rfl⟩)

theorem day_ne_zero : DAY ≠ 0 := by
  unfold DAY
  exact Nat.succ_ne_zero _

/-- The largest number of token-backed credits anyone can hold. -/
def MAX_CREDITS : ℕ := MAX_SUPPLY * PER_TOKEN

theorem sound_regained {capacity gap : ℕ} (bounded : capacity ≤ MAX_CREDITS) (short : gap ≤ DAY) :
    Sound (regained capacity gap) fun gain => gain ≤ capacity := by
  have fits : capacity * gap ≤ MAX_CREDITS * DAY := Nat.mul_le_mul bounded short
  refine Meets.seq (sound_mul (fits.trans_lt (by decide))) fun product product_eq => ?_
  refine (sound_div day_ne_zero).weaken fun gain gain_eq => ?_
  rw [gain_eq, product_eq]
  exact Nat.div_le_of_le_mul (by rw [Nat.mul_comm]; exact Nat.mul_le_mul_right _ short)

theorem sound_elapsed (now updatedAt : ℕ) :
    Sound (elapsed now updatedAt) fun gap => gap ≤ DAY := by
  unfold elapsed
  refine Meets.branch (fun passed => ?_) fun _ => Meets.ret (Nat.zero_le _)
  refine Meets.seq (sound_sub passed.le) fun gap _ => ?_
  exact Meets.ret (min_le_right _ _)

section Methods

variable {state : State}

theorem stored_balance_le (conserved : Conserved state) {account : Bytes} {stored : AccountState}
    (present : state.accounts.get account = some stored) : stored.balance ≤ MAX_SUPPLY := by
  have total := Store.le_total state.accounts (fun _ stored => stored.balance) account stored present
  have supply := conserved.supply_le
  rw [conserved.supply_eq] at supply
  exact total.trans supply

/-- Loading an account settles it without overflow. -/
theorem sound_load (conserved : Conserved state) (env : Env) (account : Bytes) :
    Sound (load env state account) fun loaded => loaded = settled state account env.now := by
  suffices total : Sound (load env state account) fun _ => True from
    total.remember.weaken fun loaded answer => load_eq_ok answer
  unfold load
  split
  · exact Meets.ret trivial
  · next stored present =>
    have balance_le := stored_balance_le conserved present
    have free_le := conserved.free account stored present
    have backed_le := conserved.backed account stored present
    have capacity_le : stored.balance * PER_TOKEN ≤ MAX_CREDITS :=
      Nat.mul_le_mul_right PER_TOKEN balance_le
    have credits_lt : MAX_CREDITS + MAX_CREDITS < 2 ^ 64 := by decide
    have free_small : FREE ≤ MAX_CREDITS := by decide
    refine Meets.seq (sound_elapsed _ _) fun gap short => ?_
    refine Meets.seq (sound_mul (by omega)) fun capacity capacity_eq => ?_
    subst capacity_eq
    refine Meets.seq (sound_regained free_small short) fun freeGain freeGain_le => ?_
    refine Meets.seq (sound_add (by omega)) fun free _ => ?_
    refine Meets.seq (sound_regained capacity_le short) fun tokenGain tokenGain_le => ?_
    refine Meets.seq (sound_add (by omega)) fun tokens _ => ?_
    exact Meets.ret trivial

/-- The bounds every settled account satisfies, with the numbers spelled out. -/
theorem settled_bounds (conserved : Conserved state) (account : Bytes) (now : ℕ) :
    (settled state account now).balance ≤ 1000000 ∧
      (settled state account now).freeCredits ≤ 100000 ∧
      (settled state account now).tokenCredits ≤ (settled state account now).balance * 1000 :=
  ⟨settled_balance_le account now conserved, settled_freeCredits_le account now,
    settled_tokenCredits_le _ account now⟩

theorem sound_spend (conserved : Conserved state) (env : Env) (account : Bytes) (units : ℕ) :
    Sound (spend env state account units) fun _ => True := by
  obtain ⟨balance_le, free_le, backed_le⟩ := settled_bounds conserved account env.now
  refine Meets.seq (sound_require _ _) fun _ valid => ?_
  simp only [Bool.and_eq_true, decide_eq_true_eq] at valid
  refine Meets.seq (sound_mul (by omega)) fun cost cost_eq => ?_
  refine Meets.seq (sound_load conserved env account) fun loaded loaded_eq => ?_
  subst loaded_eq
  refine Meets.seq (sound_add (by omega)) fun available available_eq => ?_
  refine Meets.seq (sound_require _ _) fun _ affordable => ?_
  rw [decide_eq_true_eq, available_eq] at affordable
  refine Meets.seq (sound_sub (min_le_left _ _)) fun freeLeft _ => ?_
  refine Meets.seq (sound_sub (min_le_right _ _)) fun backed backed_eq => ?_
  refine Meets.seq (sound_sub (by omega)) fun tokensLeft _ => ?_
  exact Meets.ret trivial

theorem sound_transfer (conserved : Conserved state) (env : Env) (args : TransferArguments) :
    Sound (transfer env args state) fun _ => True := by
  refine Meets.seq (Util.sound_requireAddress _ _) fun sender _ => ?_
  refine Meets.seq (Util.sound_requireAddress _ _) fun recipient _ => ?_
  refine Meets.seq (sound_require _ _) fun _ _ => ?_
  refine Meets.seq (sound_requireSome _ _) fun config _ => ?_
  refine Meets.seq (Actor.sound_requireAuthorized _ _ _ _ _) fun _ _ => ?_
  refine Meets.seq (Actor.sound_existsIdentity _ _ _) fun _ _ => ?_
  refine Meets.seq (sound_require _ _) fun _ _ => ?_
  refine Meets.seq (sound_load conserved env sender.val) fun source source_eq => ?_
  refine Meets.seq (sound_load conserved env recipient.val) fun target target_eq => ?_
  refine Meets.seq (sound_require _ _) fun _ valid => ?_
  simp only [Bool.and_eq_true, decide_eq_true_eq] at valid
  subst source_eq target_eq
  obtain ⟨balance_le, _, backed_le⟩ := settled_bounds conserved sender.val env.now
  obtain ⟨targetBalance_le, _, targetBacked_le⟩ := settled_bounds conserved recipient.val env.now
  have moved_le := movedWith_le sender.val env.now valid.2
  have fits : (settled state sender.val env.now).tokenCredits * args.value ≤
      1000000000 * 1000000 := Nat.mul_le_mul (by omega) (by omega)
  refine Meets.seq (sound_mul (by omega)) fun product product_eq => ?_
  subst product_eq
  refine Meets.seq (sound_div (by omega)) fun moved moved_eq => ?_
  subst moved_eq
  unfold movedWith at moved_le
  refine Meets.seq (sound_sub valid.2) fun _ _ => ?_
  refine Meets.seq (sound_sub moved_le) fun _ _ => ?_
  refine Meets.seq (sound_add (by omega)) fun _ _ => ?_
  refine Meets.seq (sound_add (by omega)) fun _ _ => ?_
  exact Meets.ret trivial

theorem sound_burn (conserved : Conserved state) (env : Env) (args : BurnArguments) :
    Sound (burn env args state) fun _ => True := by
  refine Meets.seq (Util.sound_requireAddress _ _) fun sender _ => ?_
  refine Meets.seq (sound_requireSome _ _) fun config configured => ?_
  refine Meets.seq (Actor.sound_requireAuthorized _ _ _ _ _) fun _ _ => ?_
  refine Meets.seq (sound_load conserved env sender.val) fun source source_eq => ?_
  refine Meets.seq (sound_require _ _) fun _ valid => ?_
  simp only [Bool.and_eq_true, decide_eq_true_eq] at valid
  subst source_eq
  obtain ⟨balance_le, _, backed_le⟩ := settled_bounds conserved sender.val env.now
  have moved_le := movedWith_le sender.val env.now valid.2
  have fits : (settled state sender.val env.now).tokenCredits * args.value ≤
      1000000000 * 1000000 := Nat.mul_le_mul (by omega) (by omega)
  have held : (settled state sender.val env.now).balance ≤ config.supply := by
    have whole := Store.total_eq_get_add_remove state.accounts
      (fun _ stored => stored.balance) sender.val
    rw [← settled_balance_eq sender.val env.now] at whole
    have supply_eq := conserved.supply_eq
    rw [supplyOf, configured, Option.elim_some, balances, whole] at supply_eq
    omega
  refine Meets.seq (sound_mul (by omega)) fun product product_eq => ?_
  subst product_eq
  refine Meets.seq (sound_div (by omega)) fun moved moved_eq => ?_
  subst moved_eq
  unfold movedWith at moved_le
  refine Meets.seq (sound_sub moved_le) fun _ _ => ?_
  refine Meets.seq (sound_sub valid.2) fun _ _ => ?_
  refine Meets.seq (sound_sub (by omega)) fun _ _ => ?_
  exact Meets.ret trivial

theorem sound_remaining (cap minted : ℕ) :
    Sound (remaining cap minted) fun left => left = cap - minted := by
  suffices total : Sound (remaining cap minted) fun _ => True from
    total.remember.weaken fun left answer => remaining_eq_ok answer
  unfold remaining
  refine Meets.branch (fun room => ?_) fun _ => Meets.ret trivial
  exact (sound_sub room.le).weaken fun _ _ => trivial

theorem sound_mint (conserved : Conserved state) (env : Env) (config : Config) (recipient : Bytes)
    {reward : ℕ} (room : config.supply + reward ≤ MAX_SUPPLY) :
    Sound (mint env state config recipient reward) fun _ => True := by
  obtain ⟨balance_le, _, backed_le⟩ := settled_bounds conserved recipient env.now
  simp only [MAX_SUPPLY] at room
  refine Meets.branch (fun _ => ?_) fun _ => Meets.ret trivial
  refine Meets.seq (sound_load conserved env recipient) fun loaded loaded_eq => ?_
  subst loaded_eq
  refine Meets.seq (sound_add (by omega)) fun _ _ => ?_
  refine Meets.seq (sound_mul (by simp only [PER_TOKEN]; omega)) fun credits credits_eq => ?_
  refine Meets.seq (sound_add (by simp only [PER_TOKEN] at credits_eq; omega)) fun _ _ => ?_
  refine Meets.seq (sound_add (by omega)) fun _ _ => ?_
  exact Meets.ret trivial

theorem sound_requireUnblocked (env : Env) (relationships actor target : Bytes) :
    Sound (requireUnblocked env relationships actor target) fun _ => True := by
  refine Meets.seq (sound_requireSome _ _) fun _ _ => ?_
  exact (sound_require _ _).weaken fun _ _ => trivial

theorem sound_support (invariant : Invariant state) (env : Env) (args : SupportArguments) :
    Sound (support env args state) fun _ => True := by
  obtain ⟨conserved, rewards⟩ := invariant
  refine Meets.seq (Util.sound_requireAddress _ _) fun actor _ => ?_
  refine Meets.seq (Util.sound_requireBytes _ _ _) fun id _ => ?_
  refine Meets.seq (sound_requireSome _ _) fun config configured => ?_
  refine Meets.seq (sound_require _ _) fun _ _ => ?_
  refine Meets.seq (Actor.sound_requireAuthorized _ _ _ _ _) fun _ _ => ?_
  refine Meets.seq (sound_requireSome _ _) fun _ _ => ?_
  refine Meets.seq (sound_requireSome _ _) fun post _ => ?_
  refine Meets.seq (sound_require _ _) fun _ _ => ?_
  refine Meets.seq (sound_requireUnblocked _ _ _ _) fun _ _ => ?_
  refine Meets.seq (sound_requireUnblocked _ _ _ _) fun _ _ => ?_
  refine Meets.seq (sound_require _ _) fun _ _ => ?_
  refine Meets.seq (sound_spend conserved env actor.val 1).remember fun paid spent => ?_
  obtain ⟨paid, spendEvents⟩ := paid
  obtain ⟨_, _, _, rfl, _⟩ := spend_eq_ok spent
  refine Meets.seq (sound_div day_ne_zero) fun day day_eq => ?_
  subst day_eq
  refine Meets.seq (sound_remaining _ _) fun dailyLeft daily_eq => ?_
  refine Meets.seq (sound_remaining _ _) fun recipientLeft recipient_eq => ?_
  have supply_le := conserved.supply_le
  rw [supplyOf, configured, Option.elim_some] at supply_le
  refine Meets.seq (sound_sub supply_le) fun supplyLeft supply_eq => ?_
  subst daily_eq recipient_eq supply_eq
  have global_le := counter_add_le rewards.minted (rewards.daily config configured)
    (rewardOf_le_daily state config post.author.val env.now)
  have user_le := counter_add_le (fun counter => rewards.mintedTo post.author.val counter)
    (rewards.recipient config configured)
    (rewardOf_le_recipient state config post.author.val env.now)
  have room := rewardOf_le_room state config post.author.val env.now
  refine Meets.seq (sound_add (global_le.trans_lt (by decide))) fun _ _ => ?_
  refine Meets.seq (sound_add (user_le.trans_lt (by decide))) fun _ _ => ?_
  have counted := conserved_charge conserved actor.val (1 * 1000) env.now
  refine Meets.seq (sound_mint (counted.of_same ?_ ?_) env config post.author.val ?_) fun _ _ => ?_
  · rfl
  · rfl
  · exact (Nat.add_le_add_left room _).trans (by omega)
  · exact Meets.ret trivial

/-- No method overflows in a state that satisfies the invariant. -/
theorem sound_execute (host : Host) (invariant : Invariant state) (call : Call) :
    Sound (execute host state call) fun _ => True := by
  obtain ⟨env, operation⟩ := call
  cases operation with
  | init args =>
    refine Meets.seq (sound_requireAuthority _ _) fun _ _ => ?_
    refine Meets.seq (sound_require _ _) fun _ _ => ?_
    refine Meets.seq (Util.sound_requireAddress _ _) fun _ _ => ?_
    refine Meets.seq (Util.sound_requireAddress _ _) fun _ _ => ?_
    refine Meets.seq (Util.sound_requireAddress _ _) fun _ _ => ?_
    refine Meets.seq (Util.sound_requireAddress _ _) fun _ _ => ?_
    exact Meets.ret trivial
  | setRewardPolicy args =>
    refine Meets.seq (sound_requireAuthority _ _) fun _ _ => ?_
    refine Meets.seq (sound_require _ _) fun _ _ => ?_
    refine Meets.seq (sound_requireSome _ _) fun _ _ => ?_
    exact Meets.ret trivial
  | consume args =>
    refine Meets.seq (sound_requireSome _ _) fun _ _ => ?_
    refine Meets.seq (sound_require _ _) fun _ _ => ?_
    refine Meets.seq (Util.sound_requireAddress _ _) fun account _ => ?_
    refine Meets.seq (sound_spend invariant.conserved env account.val args.units) fun _ _ => ?_
    exact Meets.ret trivial
  | transfer args => exact sound_transfer invariant.conserved env args
  | burn args => exact sound_burn invariant.conserved env args
  | support args => exact sound_support invariant env args

end Methods

/-- After every run the supply is the sum of the balances and bounded, every stored account is
within its capacity, and no further call overflows, borrows or divides by zero. -/
theorem token_conservation (host : Host) (calls : List Call) :
    Conserved ((machine host).final (machine host).initial calls) ∧
      ∀ call, (machine host).step ((machine host).final (machine host).initial calls) call ≠
        .error .overflow := by
  have invariant := invariant_final host calls
  exact ⟨invariant.conserved, fun call =>
    (sound_execute host invariant call).ne_error fun allowed => allowed rfl⟩

end OpenSocial.Token
