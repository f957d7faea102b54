/-
This file models the token contract: pilot tokens, usage credits that regenerate
over a day, and support rewards under daily caps.

Credits regenerate lazily. An account stores its credits and the time they were
last settled, and `load` settles it at the block time before anything else reads
it. All u64 arithmetic of the source is written with checked operations, which
fail where the machine word would wrap, borrow or divide by zero; that such a
failure never happens is proved over every run, so the checked reading and the
machine's agree.
-/

import OpenSocial.Common.Actor
import OpenSocial.Library.Machine
import OpenSocial.Library.Store
import OpenSocial.Library.Word

namespace OpenSocial.Token

open Library

/-! ### Limits -/

def DAY : ℕ := 86400000
def FREE : ℕ := 100000
def PER_TOKEN : ℕ := 1000
def MAX_SUPPLY : ℕ := 1000000

/-! ### Records -/

structure AccountState where
  balance : ℕ
  freeCredits : ℕ
  tokenCredits : ℕ
  updatedAt : ℕ
  deriving DecidableEq, Repr

structure RewardState where
  day : ℕ
  minted : ℕ
  deriving DecidableEq, Repr

structure Config where
  identity : Address
  relationships : Address
  publications : Address
  messaging : Address
  rewardAmount : ℕ
  dailyRewardCap : ℕ
  recipientDailyCap : ℕ
  supply : ℕ
  deriving DecidableEq, Repr

/-- The contract's objects and maps; supports are keyed by actor then post id. -/
structure State where
  config : Option Config
  accounts : Store Bytes AccountState
  supports : Store Bytes RewardState
  rewards : Store Bytes RewardState
  global : Option RewardState

/-- The `osp.token.*` events. -/
inductive Event where
  | policyChanged (rewardAmount dailyRewardCap recipientDailyCap timestamp : ℕ)
  | accountUpdated (account : Bytes) (value : AccountState) (timestamp : ℕ)
  | supported (actor recipient : Address) (postId : Bytes) (reward timestamp : ℕ)
  | transfer (sender recipient : Address) (value timestamp : ℕ)
  | burn (sender : Address) (value timestamp : ℕ)
  deriving DecidableEq, Repr

/-- What an accepted call emits and answers; only `support` answers a reward. -/
structure Output where
  events : List Event
  reward : Option ℕ

/-! ### Arguments -/

structure InitArguments where
  identity : Bytes
  relationships : Bytes
  publications : Bytes
  messaging : Bytes

structure SetRewardPolicyArguments where
  rewardAmount : ℕ
  dailyRewardCap : ℕ
  recipientDailyCap : ℕ

structure ConsumeArguments where
  account : Bytes
  units : ℕ

structure TransferArguments where
  sender : Bytes
  recipient : Bytes
  value : ℕ

structure BurnArguments where
  sender : Bytes
  value : ℕ

structure SupportArguments where
  actor : Bytes
  postId : Bytes
  device : Bytes

/-! ### Checked u64 arithmetic -/

def add (first second : ℕ) : Except Failure ℕ := checked (Word.checkedAdd 64 first second)
def sub (first second : ℕ) : Except Failure ℕ := checked (Word.checkedSub first second)
def mul (first second : ℕ) : Except Failure ℕ := checked (Word.checkedMul 64 first second)
def div (first second : ℕ) : Except Failure ℕ := checked (Word.checkedDiv first second)

/-! ### Internal helpers -/

/-- The configuration, or revert before `init`. -/
def cfg (state : State) : Except Failure Config :=
  requireSome state.config "token not configured"

/-- `accounts.put`. -/
def State.putAccount (state : State) (account : Bytes) (value : AccountState) : State :=
  { state with accounts := state.accounts.put account value }

/-- `config.put`. -/
def State.putConfig (state : State) (config : Config) : State :=
  { state with config := some config }

/-- Credits regenerated over a gap: the capacity pro rata of the day, rounded down. -/
def regained (capacity gap : ℕ) : Except Failure ℕ := do
  let product ← mul capacity gap
  div product DAY

/-- Time since an account was settled, at most a day. -/
def elapsed (now updatedAt : ℕ) : Except Failure ℕ :=
  if updatedAt < now then do
    let gap ← sub now updatedAt
    pure (min gap DAY)
  else
    pure 0

/-- The account settled at the block time; an unknown account starts with free credits. -/
def load (env : Env) (state : State) (account : Bytes) : Except Failure AccountState :=
  match state.accounts.get account with
  | none => pure ⟨0, FREE, 0, env.now⟩
  | some stored => do
    let gap ← elapsed env.now stored.updatedAt
    let capacity ← mul stored.balance PER_TOKEN
    let freeGain ← regained FREE gap
    let free ← add stored.freeCredits freeGain
    let tokenGain ← regained capacity gap
    let tokens ← add stored.tokenCredits tokenGain
    pure ⟨stored.balance, min FREE free, min capacity tokens, env.now⟩

/-- Store an account and report it. -/
def save (env : Env) (state : State) (account : Bytes) (value : AccountState) :
    State × List Event :=
  (state.putAccount account value, [.accountUpdated account value env.now])

/-- Pay a usage cost, free credits first. -/
def spend (env : Env) (state : State) (account : Bytes) (units : ℕ) :
    Except Failure (State × List Event) := do
  require (0 < units && units ≤ 100) "invalid usage cost"
  let cost ← mul units 1000
  let loaded ← load env state account
  let available ← add loaded.freeCredits loaded.tokenCredits
  require (cost ≤ available) "usage allowance exhausted; wait for regeneration"
  let free := min loaded.freeCredits cost
  let freeLeft ← sub loaded.freeCredits free
  let backed ← sub cost free
  let tokensLeft ← sub loaded.tokenCredits backed
  pure (save env state account { loaded with freeCredits := freeLeft, tokenCredits := tokensLeft })

/-- A daily counter, restarted when the stored one is of another day. -/
def currentCounter (day : ℕ) (stored : Option RewardState) : RewardState :=
  match stored with
  | none => ⟨day, 0⟩
  | some counter => if counter.day = day then counter else ⟨day, 0⟩

/-- What a cap leaves to mint. -/
def remaining (cap minted : ℕ) : Except Failure ℕ :=
  if minted < cap then sub cap minted else pure 0

/-! ### Methods -/

def init (host : Host) (env : Env) (args : InitArguments) (state : State) :
    Except Failure (State × Output) := do
  requireAuthority env host.contractId
  require state.config.isNone "already initialized"
  let identity ← Util.requireAddress args.identity "identity"
  let relationships ← Util.requireAddress args.relationships "relationships"
  let publications ← Util.requireAddress args.publications "publications"
  let messaging ← Util.requireAddress args.messaging "messaging"
  pure (state.putConfig ⟨identity, relationships, publications, messaging, 1, 1000, 10, 0⟩,
    ⟨[], none⟩)

def setRewardPolicy (host : Host) (env : Env) (args : SetRewardPolicyArguments) (state : State) :
    Except Failure (State × Output) := do
  requireAuthority env host.contractId
  require (args.rewardAmount ≤ 10 && args.dailyRewardCap ≤ 10000 && args.recipientDailyCap ≤ 100)
    "reward policy exceeds pilot bounds"
  let config ← cfg state
  let updated := { config with
    rewardAmount := args.rewardAmount, dailyRewardCap := args.dailyRewardCap,
    recipientDailyCap := args.recipientDailyCap }
  pure (state.putConfig updated,
    ⟨[.policyChanged args.rewardAmount args.dailyRewardCap args.recipientDailyCap env.now], none⟩)

def consume (env : Env) (args : ConsumeArguments) (state : State) :
    Except Failure (State × Output) := do
  let config ← cfg state
  require (env.caller == config.publications.val || env.caller == config.messaging.val ||
    env.caller == config.relationships.val) "only protocol contracts may consume credits"
  let account ← Util.requireAddress args.account "account"
  let (after, events) ← spend env state account.val args.units
  pure (after, ⟨events, none⟩)

/-- Move tokens, and with them the same fraction of the sender's token-backed credits. -/
def transfer (env : Env) (args : TransferArguments) (state : State) :
    Except Failure (State × Output) := do
  let sender ← Util.requireAddress args.sender "from"
  let recipient ← Util.requireAddress args.recipient "to"
  require (sender != recipient) "cannot transfer to yourself"
  let config ← cfg state
  let _ ← Actor.requireAuthorized env config.identity.val sender.val [] 0
  let registered ← Actor.existsIdentity env config.identity.val recipient.val
  require registered "recipient not registered"
  let source ← load env state sender.val
  let target ← load env state recipient.val
  require (0 < args.value && args.value ≤ source.balance) "insufficient balance"
  let product ← mul source.tokenCredits args.value
  let moved ← div product source.balance
  let sourceBalance ← sub source.balance args.value
  let sourceTokens ← sub source.tokenCredits moved
  let targetBalance ← add target.balance args.value
  let targetTokens ← add target.tokenCredits moved
  let (debited, debitEvents) := save env state sender.val
    { source with balance := sourceBalance, tokenCredits := sourceTokens }
  let (credited, creditEvents) := save env debited recipient.val
    { target with balance := targetBalance, tokenCredits := targetTokens }
  pure (credited,
    ⟨debitEvents ++ creditEvents ++ [.transfer sender recipient args.value env.now], none⟩)

def burn (env : Env) (args : BurnArguments) (state : State) :
    Except Failure (State × Output) := do
  let sender ← Util.requireAddress args.sender "from"
  let config ← cfg state
  let _ ← Actor.requireAuthorized env config.identity.val sender.val [] 0
  let source ← load env state sender.val
  require (0 < args.value && args.value ≤ source.balance) "insufficient balance"
  let product ← mul source.tokenCredits args.value
  let burnt ← div product source.balance
  let tokens ← sub source.tokenCredits burnt
  let balance ← sub source.balance args.value
  let supply ← sub config.supply args.value
  let (after, events) := save env (state.putConfig { config with supply := supply }) sender.val
    { source with balance := balance, tokenCredits := tokens }
  pure (after, ⟨events ++ [.burn sender args.value env.now], none⟩)

/-- One of the two block checks of `support`. -/
def requireUnblocked (env : Env) (relationships actor target : Bytes) : Except Failure Unit := do
  let blocked ← requireSome (env.isBlocked relationships actor target) "block lookup failed"
  require (!blocked) "support blocked"

/-- Mint a reward to the recipient; nothing changes when there is nothing to mint. -/
def mint (env : Env) (state : State) (config : Config) (recipient : Bytes) (reward : ℕ) :
    Except Failure (State × List Event) :=
  if 0 < reward then do
    let loaded ← load env state recipient
    let balance ← add loaded.balance reward
    let credits ← mul reward PER_TOKEN
    let tokens ← add loaded.tokenCredits credits
    let supply ← add config.supply reward
    pure (save env (state.putConfig { config with supply := supply }) recipient
      { loaded with balance := balance, tokenCredits := tokens })
  else
    pure (state, [])

def support (env : Env) (args : SupportArguments) (state : State) :
    Except Failure (State × Output) := do
  let actor ← Util.requireAddress args.actor "actor"
  let id ← Util.requireBytes args.postId 32 "post id"
  let config ← cfg state
  require (id.length == 32) "post id must be 32 bytes"
  let _ ← Actor.requireAuthorized env config.identity.val actor.val args.device Capability.SUPPORT
  let found ← requireSome (env.getPost config.publications.val id) "post lookup failed"
  let post ← requireSome (found.filter fun post => post.state == .active) "post is not active"
  let recipient := post.author
  require (actor != recipient) "cannot support your own post"
  requireUnblocked env config.relationships.val actor.val recipient.val
  requireUnblocked env config.relationships.val recipient.val actor.val
  let key := Util.concat [actor.val, id]
  require (!state.supports.has key) "already supported this post"
  let (paid, spendEvents) ← spend env state actor.val 1
  let day ← div env.now DAY
  let global := currentCounter day paid.global
  let user := currentCounter day (paid.rewards.get recipient.val)
  let dailyLeft ← remaining config.dailyRewardCap global.minted
  let recipientLeft ← remaining config.recipientDailyCap user.minted
  let supplyLeft ← sub MAX_SUPPLY config.supply
  let reward := min (min (min config.rewardAmount dailyLeft) recipientLeft) supplyLeft
  let globalMinted ← add global.minted reward
  let userMinted ← add user.minted reward
  let counted : State := { paid with
    supports := paid.supports.put key ⟨day, reward⟩
    global := some ⟨global.day, globalMinted⟩
    rewards := paid.rewards.put recipient.val ⟨user.day, userMinted⟩ }
  let (after, mintEvents) ← mint env counted config recipient.val reward
  pure (after,
    ⟨spendEvents ++ mintEvents ++ [.supported actor recipient id reward env.now], some reward⟩)

/-! ### The contract as a transaction machine -/

/-- One call of a mutating method. -/
inductive Operation where
  | init (args : InitArguments)
  | setRewardPolicy (args : SetRewardPolicyArguments)
  | consume (args : ConsumeArguments)
  | transfer (args : TransferArguments)
  | burn (args : BurnArguments)
  | support (args : SupportArguments)

/-- A method call together with the environment it runs in. -/
structure Call where
  env : Env
  operation : Operation

/-- The block time of a call. -/
def Call.time (call : Call) : ℕ := call.env.now

def execute (host : Host) (state : State) (call : Call) : Except Failure (State × Output) :=
  match call.operation with
  | .init args => init host call.env args state
  | .setRewardPolicy args => setRewardPolicy host call.env args state
  | .consume args => consume call.env args state
  | .transfer args => transfer call.env args state
  | .burn args => burn call.env args state
  | .support args => support call.env args state

def empty : State := ⟨none, ∅, ∅, ∅, none⟩

/-- The token contract from its empty store. -/
def machine (host : Host) : Machine State Call Output Failure := ⟨empty, execute host⟩

/-! ### Read methods -/

/-- `get_account`: the settled account and its full capacity. -/
def getAccount (env : Env) (state : State) (account : Bytes) :
    Except Failure (AccountState × ℕ) := do
  let account ← Util.requireAddress account "account"
  let loaded ← load env state account.val
  let backed ← mul loaded.balance PER_TOKEN
  let capacity ← add FREE backed
  pure (loaded, capacity)

def balanceOf (env : Env) (state : State) (owner : Bytes) : Except Failure ℕ := do
  let owner ← Util.requireAddress owner "owner"
  let loaded ← load env state owner.val
  pure loaded.balance

def totalSupply (state : State) : Except Failure ℕ := do
  let config ← cfg state
  pure config.supply

end OpenSocial.Token
