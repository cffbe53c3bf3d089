import DropContracts.Core.State

set_option relaxedAutoImplicit false
set_option autoImplicit false

/-!
# The exchange rate and the messages of a tick

The functions of `contracts/core/src/contract.rs` that the entry points are made of: the exchange
rate, and the six `get_*_msg` functions that decide what a tick asks of the puppeteer.

## Main definitions

* `Core.Querier` — what the contract learns from the bank, the chain and the other contracts.
* `Core.CoreMsg` — a message to another contract.
* `Core.queryExchangeRate` — the exchange rate, over `Core.exchangeRateNumerator` and
  `Core.unprocessedUnbondedAmount`.
* `Core.getUnbondingMsg`, `Core.getStakeMsg`, `Core.getTransferPendingBalanceMsg`,
  `Core.getNonNativeRewardsAndFeeTransferMsg`, `Core.getPendingRedeemMsg`,
  `Core.getPendingLsmShareMsg`.

## Main results

* `Core.getUnbondingMsg_ok`, `Core.getStakeMsg_ok`, `Core.getPendingRedeemMsg_ok`,
  `Core.getPendingLsmShareMsg_ok` — everything each of them can do.
-/

namespace DropContracts

namespace Core

open Exec

/-! ## Queries and messages -/

/-- The IBC trace of a denomination. -/
structure DenomTrace where
  path : String
  baseDenom : String
  deriving DecidableEq, Repr

/-- What the contract learns from outside during one call: the bank (total supplies and its own
balances), the puppeteer, the strategy, the validator set, the IBC module, and the address check
of the chain. -/
structure Querier where
  supply : String → ℕ
  balance : String → ℕ
  delegations : Except String DelegationsResponse
  balances : Except String BalancesResponse
  nonNativeRewardsBalances : Except String BalancesResponse
  validators : Except String (List ValidatorInfo)
  validator : String → Except String (Option ValidatorInfo)
  calcDeposit : ℕ → Except String (List IdealDelegation)
  calcWithdraw : ℕ → Except String (List IdealDelegation)
  denomTrace : String → Except String DenomTrace
  addrValidate : String → Bool

/-- The answer to a query, or the error the contract passes on. -/
def ask {α : Type} : Except String α → Result α
  | .ok a => .ok a
  | .error msg => fail (.std (.querierContractErr msg))

/-- A query returns exactly what it was answered. -/
@[simp] theorem ask_eq_ok {α : Type} {x : Except String α} {a : α} :
    ask x = .ok a ↔ x = .ok a := by
  cases x <;> simp [ask]

/-- A failing query fails with an error of the virtual machine. -/
theorem ask_eq_error {α : Type} {x : Except String α} {f : Fault ContractError} :
    ask x = .error f ↔ ∃ msg, x = .error msg ∧ f = .error (.std (.querierContractErr msg)) := by
  cases x <;> simp [ask]

/-- What a withdrawal voucher records. -/
structure Metadata where
  batchId : String
  amount : ℕ
  expectedAmount : ℕ
  deriving DecidableEq, Repr

/-- A message to another contract. -/
inductive CoreMsg where
  | puppeteer (contractAddr : String) (msg : PuppeteerExecuteMsg) (funds : List Coin)
  | tokenMint (contractAddr : String) (amount : ℕ) (receiver : String)
  | tokenBurn (contractAddr : String) (funds : List Coin)
  | voucherMint (contractAddr owner tokenId : String) (extension : Metadata)
  deriving DecidableEq, Repr

/-! ## The exchange rate -/

/-- The part of `unprocessed_unbonded_amount` that comes from the batch before the current one:
its total, if it is requested. -/
def addRequestedAmount (s : Storage) (amount : ℕ) : Result ℕ :=
  if 0 < s.unbondBatchId then do
    let batch ← s.loadBatch (s.unbondBatchId - 1)
    if batch.status = .unbondRequested then checkedAdd Uint128.bound amount batch.totalAmount
    else .ok amount
  else .ok amount

/-- The part of `unprocessed_unbonded_amount` that comes from the failed batch. -/
def addFailedAmount (s : Storage) (amount : ℕ) : Result ℕ :=
  match s.failedBatchId with
  | some failedBatchId => do
    let failedBatch ← s.loadBatch failedBatchId
    checkedAdd Uint128.bound amount failedBatch.totalAmount
  | none => .ok amount

/-- The `unprocessed_unbonded_amount` of `query_exchange_rate`: the current batch if it is new, the
one before it if it is requested, and the failed one. -/
def unprocessedUnbondedAmount (s : Storage) : Result ℕ := do
  let batch ← s.loadBatch s.unbondBatchId
  let amount := if batch.status = .new then batch.totalAmount else 0
  let amount ← addRequestedAmount s amount
  addFailedAmount s amount

/-- The numerator of the exchange rate: delegations, core balance and LSM shares, less the stake
that comes in with this call and the unprocessed unbonded amount. -/
def exchangeRateNumerator (s : Storage) (q : Querier) (currentStake : Option ℕ) : Result ℕ := do
  let (delegations, _, _) ← ask q.delegations
  let delegationsAmount ← checkedSum Uint128.bound (delegations.map fun d => d.amount.amount)
  let unprocessed ← unprocessedUnbondedAmount s
  let coreBalance := q.balance s.config.baseDenom
  let assets ← checkedAdd Uint128.bound delegationsAmount coreBalance
  let assets ← checkedAdd Uint128.bound assets s.totalLsmShares
  let assets ← checkedSub assets (currentStake.getD 0)
  checkedSub assets unprocessed

/-- `query_exchange_rate`. Outside of `Idle` the cached rate is served. -/
def queryExchangeRate (s : Storage) (q : Querier) (currentStake : Option ℕ) : Result Decimal :=
  if s.fsmState ≠ .idle then .ok (s.exchangeRate.getD (Decimal.one, 0)).1
  else do
    let ldDenom ← orError s.config.ldDenom .ldDenomIsNotSet
    let ldTotalAmount := q.supply ldDenom
    if ldTotalAmount = 0 then .ok Decimal.one
    else do
      let numerator ← exchangeRateNumerator s q currentStake
      Decimal.fromRatio numerator ldTotalAmount

/-- `cache_exchange_rate`. -/
def cacheExchangeRate (s : Storage) (q : Querier) (env : Env) (currentStake : Option ℕ) :
    Result Storage := do
  let exchangeRate ← queryExchangeRate s q currentStake
  return { s with exchangeRate := some (exchangeRate, env.height) }

/-- Caching the rate changes nothing but the cache. -/
theorem cacheExchangeRate_ok {s s' : Storage} {q : Querier} {env : Env} {cs : Option ℕ}
    (h : cacheExchangeRate s q env cs = .ok s') :
    ∃ r, queryExchangeRate s q cs = .ok r ∧
      s' = { s with exchangeRate := some (r, env.height) } := by
  simp only [cacheExchangeRate, pure_eq_ok, bind_eq_ok, Except.ok.injEq] at h
  obtain ⟨r, hr, rfl⟩ := h
  exact ⟨r, hr, rfl⟩

/-! ## Balances of the interchain account -/

/-- `get_ica_balance_by_denom`: the balance with the local height and time (in seconds) it was
stored at. -/
def getIcaBalanceByDenom (q : Querier) (remoteDenom : String) (canBeZero : Bool) :
    Result (ℕ × ℕ × ℕ) := do
  let (icaBalances, localHeight, localTime) ← ask q.balances
  let balance := (icaBalances.find? fun c => c.denom = remoteDenom).map Coin.amount
  let amount ← if canBeZero then .ok (balance.getD 0) else orError balance .icaBalanceZero
  return (amount, localHeight, localTime.seconds)

/-- The balance of `remoteDenom` in an answer of the puppeteer, zero if it lists none. -/
def icaBalance (balances : BalancesResponse) (remoteDenom : String) : ℕ :=
  ((balances.1.find? fun c => c.denom = remoteDenom).map Coin.amount).getD 0

/-- With `can_be_zero` the balance is read whenever the puppeteer answers. -/
theorem getIcaBalanceByDenom_eq_ok {q : Querier} {denom : String} {n height time : ℕ} :
    getIcaBalanceByDenom q denom true = .ok (n, height, time) ↔
      ∃ b, q.balances = .ok b ∧ n = icaBalance b denom ∧ height = b.2.1 ∧
        time = b.2.2.seconds := by
  simp only [getIcaBalanceByDenom, bind_eq_ok, ask_eq_ok, pure_eq_ok, ↓reduceIte,
    Except.ok.injEq, Prod.mk.injEq, exists_eq_left']
  constructor
  · rintro ⟨b, hb, rfl, rfl, rfl⟩
    exact ⟨b, hb, rfl, rfl, rfl⟩
  · rintro ⟨b, hb, rfl, rfl, rfl⟩
    exact ⟨b, hb, rfl, rfl, rfl⟩

/-- The balance that is read from an answer of the puppeteer. -/
theorem getIcaBalanceByDenom_of_answer {q : Querier} {balances : BalancesResponse}
    (h : q.balances = .ok balances) (denom : String) :
    getIcaBalanceByDenom q denom true =
      .ok (icaBalance balances denom, balances.2.1, balances.2.2.seconds) :=
  getIcaBalanceByDenom_eq_ok.2 ⟨balances, h, rfl, rfl, rfl⟩

/-! ## Transfer of the pending balance -/

/-- `get_transfer_pending_balance_msg`: send the whole base balance of core to the interchain
account. -/
def getTransferPendingBalanceMsg (q : Querier) (env : Env) (config : Config) (funds : List Coin) :
    Option (CoreMsg × ℕ) :=
  let pendingAmount := q.balance config.baseDenom
  if pendingAmount = 0 then none
  else some
    (.puppeteer config.puppeteerContract
      (.ibcTransfer config.puppeteerTimeout .stake env.contractAddress)
      (⟨config.baseDenom, pendingAmount⟩ :: funds),
    pendingAmount)

/-! ## Staking -/

/-- The entry of `COLLECTED_FEES` after `fee` is added to it. -/
def addCollectedFee (config : Config) (feeAddress : String) (fee : ℕ) :
    Option FeeItem → Result FeeItem
  | some feeItem => do
    let amount ← checkedAdd Uint128.bound feeItem.amount fee
    return { feeItem with amount := amount }
  | none => .ok ⟨feeAddress, config.remoteDenom, fee⟩

/-- Adds the fee on a stake to `COLLECTED_FEES`, if there is one and somebody to receive it. -/
def collectFee (s : Storage) (config : Config) (fee : ℕ) : Result Storage :=
  match config.feeAddress with
  | some feeAddress =>
    if 0 < fee then do
      let feeItem ← addCollectedFee config feeAddress fee
        (s.collectedFees.load config.remoteDenom)
      return { s with collectedFees := s.collectedFees.save config.remoteDenom feeItem }
    else .ok s
  | none => .ok s

/-- Collecting a fee changes nothing but the collected fees. -/
theorem collectFee_ok {s s' : Storage} {config : Config} {fee : ℕ}
    (h : collectFee s config fee = .ok s') : ∃ fees, s' = { s with collectedFees := fees } := by
  unfold collectFee at h
  cases hfa : config.feeAddress with
  | none =>
    simp only [hfa, Except.ok.injEq] at h
    exact ⟨s.collectedFees, by rw [← h]⟩
  | some feeAddress =>
    simp only [hfa] at h
    split_ifs at h with hfee
    · simp only [bind_eq_ok, pure_eq_ok, Except.ok.injEq] at h
      obtain ⟨feeItem, -, rfl⟩ := h
      exact ⟨_, rfl⟩
    · exact ⟨s.collectedFees, by rw [← Except.ok.inj h]⟩

/-- `get_stake_msg`: delegate the balance of the interchain account less the fee on it, which is
added to `COLLECTED_FEES`. -/
def getStakeMsg (s : Storage) (q : Querier) (env : Env) (config : Config) (info : MessageInfo) :
    Result (Storage × Option CoreMsg) := do
  let (balance, balanceHeight, _) ← getIcaBalanceByDenom q config.remoteDenom true
  if balance < config.minStakeAmount then .ok (s, none)
  else do
    ensure (s.lastIcaBalanceChangeHeight ≤ balanceHeight)
      (.puppeteerBalanceOutdated s.lastIcaBalanceChangeHeight balanceHeight)
    let fee ← Decimal.mulUint balance (config.fee.getD Decimal.zero)
    let depositAmount ← checkedSub balance fee
    let toDelegate ← ask (q.calcDeposit depositAmount)
    let s ← collectFee s config fee
    return (s, some (.puppeteer config.puppeteerContract
      (.delegate (toDelegate.map fun d => (d.valoperAddress, d.stakeChange))
        (some config.puppeteerTimeout) env.contractAddress)
      info.funds))

/-- **Everything `get_stake_msg` can do**: nothing, below the minimum; otherwise it asks for a
delegation and may change the collected fees. -/
theorem getStakeMsg_ok {s s' : Storage} {q : Querier} {env : Env} {config : Config}
    {info : MessageInfo} {m : Option CoreMsg}
    (h : getStakeMsg s q env config info = .ok (s', m)) :
    ∃ b, q.balances = .ok b ∧
      (icaBalance b config.remoteDenom < config.minStakeAmount ∧ s' = s ∧ m = none ∨
        config.minStakeAmount ≤ icaBalance b config.remoteDenom ∧
        (∃ fees, s' = { s with collectedFees := fees }) ∧
        ∃ items, m = some (.puppeteer config.puppeteerContract
          (.delegate items (some config.puppeteerTimeout) env.contractAddress) info.funds)) := by
  simp only [getStakeMsg, bind_eq_ok] at h
  obtain ⟨⟨n, height, time⟩, hbal, h⟩ := h
  obtain ⟨b, hb, rfl, rfl, rfl⟩ := getIcaBalanceByDenom_eq_ok.1 hbal
  refine ⟨b, hb, ?_⟩
  split_ifs at h with hmin
  · left
    obtain ⟨rfl, rfl⟩ := Prod.mk.inj (Except.ok.inj h)
    exact ⟨hmin, rfl, rfl⟩
  · right
    simp only [bind_eq_ok, pure_eq_ok, Except.ok.injEq, Prod.mk.injEq] at h
    obtain ⟨-, -, fee, -, dep, -, und, -, s₁, hs₁, rfl, rfl⟩ := h
    exact ⟨not_lt.1 hmin, collectFee_ok hs₁, _, rfl⟩

/-! ## Unbonding -/

/-- The batch that `get_unbonding_msg` looks at: the failed one if there is one, else the current
one. -/
def Storage.nextBatchId (s : Storage) : ℕ := s.failedBatchId.getD s.unbondBatchId

/-- The condition of `get_unbonding_msg` on a batch: its switch time has not come, and it holds
requests of a positive total. -/
def UnbondBatch.isReady (batch : UnbondBatch) (config : Config) (now : Timestamp) :
    Result Bool := do
  let created ← Timestamp.fromSeconds batch.created
  let switchTime ← created.plusSeconds config.unbondBatchSwitchTime
  return decide (now.nanos < switchTime.nanos) && !batch.unbondItems.isEmpty &&
    decide (batch.totalAmount ≠ 0)

/-- The switch time of a batch can be computed. -/
def UnbondBatch.SwitchFits (batch : UnbondBatch) (config : Config) : Prop :=
  (batch.created + config.unbondBatchSwitchTime) * nanosPerSecond < U64.bound

/-- A batch that is asked for when its turn has come: its switch time has not come, and it holds
requests of a positive total. -/
def UnbondBatch.IsOpen (batch : UnbondBatch) (config : Config) (now : Timestamp) : Prop :=
  now.nanos < (batch.created + config.unbondBatchSwitchTime) * nanosPerSecond ∧
    batch.unbondItems ≠ [] ∧ batch.totalAmount ≠ 0

instance (batch : UnbondBatch) (config : Config) : Decidable (batch.SwitchFits config) :=
  inferInstanceAs (Decidable (_ < _))

instance (batch : UnbondBatch) (config : Config) (now : Timestamp) :
    Decidable (batch.IsOpen config now) :=
  inferInstanceAs (Decidable (_ ∧ _ ∧ _))

/-- The condition is decided exactly when the switch time can be computed. -/
theorem UnbondBatch.isReady_eq_ok {batch : UnbondBatch} {config : Config} {now : Timestamp}
    {ready : Bool} :
    batch.isReady config now = .ok ready ↔
      batch.SwitchFits config ∧ (ready = true ↔ batch.IsOpen config now) := by
  have hitems : (!batch.unbondItems.isEmpty) = true ↔ batch.unbondItems ≠ [] := by
    cases batch.unbondItems <;> simp
  simp only [isReady, Timestamp.fromSeconds, Timestamp.plusSeconds, SwitchFits, IsOpen,
    bind_eq_ok, checkedMul_eq_ok, checkedAdd_eq_ok, pure_eq_ok, Except.ok.injEq, Nat.add_mul]
  constructor
  · rintro ⟨_, ⟨_, ⟨rfl, -⟩, rfl⟩, _, ⟨_, ⟨rfl, -⟩, _, ⟨rfl, hfit⟩, rfl⟩, rfl⟩
    refine ⟨hfit, ?_⟩
    rw [Bool.and_eq_true, Bool.and_eq_true, decide_eq_true_eq, decide_eq_true_eq, hitems,
      and_assoc]
  · rintro ⟨hfit, hready⟩
    refine ⟨_, ⟨_, ⟨rfl, by omega⟩, rfl⟩, _, ⟨_, ⟨rfl, by omega⟩, _, ⟨rfl, hfit⟩, rfl⟩, ?_⟩
    rw [Bool.eq_iff_iff, Bool.and_eq_true, Bool.and_eq_true, decide_eq_true_eq,
      decide_eq_true_eq, hitems, and_assoc]
    exact hready.symm

/-- `get_unbonding_msg`: ask the strategy for the total of the next batch, mark the batch as
requested, and start the batch after it. -/
def getUnbondingMsg (s : Storage) (q : Querier) (env : Env) (config : Config)
    (info : MessageInfo) : Result (Storage × Option CoreMsg) := do
  let batchId := s.nextBatchId
  let unbond ← s.loadBatch batchId
  let ready ← unbond.isReady config env.time
  if ready then do
    let (preUnbondingBalance, _, _) ← getIcaBalanceByDenom q config.remoteDenom true
    let undelegations ← ask (q.calcWithdraw unbond.totalAmount)
    let next ← checkedAdd Uint128.bound batchId 1
    let s := { s with preUnbondingBalance := some preUnbondingBalance }
    let s := s.saveBatch batchId { unbond with status := .unbondRequested }
    let s := { s with unbondBatchId := next }
    let s := s.saveBatch next (newUnbond env.time.seconds)
    return (s, some (.puppeteer config.puppeteerContract
      (.undelegate (undelegations.map fun d => (d.valoperAddress, d.stakeChange)) batchId
        (some config.puppeteerTimeout) env.contractAddress)
      info.funds))
  else return (s, none)

/-- The storage after a batch has been handed to the puppeteer. -/
def Storage.requestBatch (s : Storage) (batch : UnbondBatch) (balance now : ℕ) : Storage :=
  { s with
    preUnbondingBalance := some balance
    unbondBatchId := s.nextBatchId + 1
    unbondBatches := (s.unbondBatches.save s.nextBatchId
      { batch with status := .unbondRequested }).save (s.nextBatchId + 1) (newUnbond now) }

/-- **Everything `get_unbonding_msg` can do**: nothing, when the batch is not ready; otherwise it
asks for the undelegation of the batch's total and starts the batch after it. -/
theorem getUnbondingMsg_ok {s s' : Storage} {q : Querier} {env : Env} {config : Config}
    {info : MessageInfo} {m : Option CoreMsg}
    (h : getUnbondingMsg s q env config info = .ok (s', m)) :
    ∃ batch, s.unbondBatches.load s.nextBatchId = some batch ∧
      (batch.isReady config env.time = .ok false ∧ s' = s ∧ m = none ∨
        batch.isReady config env.time = .ok true ∧
        ∃ balances undelegations, q.balances = .ok balances ∧
          q.calcWithdraw batch.totalAmount = .ok undelegations ∧
          s' = s.requestBatch batch (icaBalance balances config.remoteDenom) env.time.seconds ∧
          m = some (.puppeteer config.puppeteerContract
            (.undelegate (undelegations.map fun d => (d.valoperAddress, d.stakeChange))
              s.nextBatchId (some config.puppeteerTimeout) env.contractAddress) info.funds)) := by
  simp only [getUnbondingMsg, bind_eq_ok, Storage.loadBatch_eq_ok] at h
  obtain ⟨batch, hb, ready, hready, h⟩ := h
  refine ⟨batch, hb, ?_⟩
  cases ready with
  | false =>
    simp only [Bool.false_eq_true, ↓reduceIte, pure_eq_ok, Except.ok.injEq, Prod.mk.injEq] at h
    exact Or.inl ⟨hready, h.1.symm, h.2.symm⟩
  | true =>
    simp only [↓reduceIte, bind_eq_ok, ask_eq_ok, checkedAdd_eq_ok, pure_eq_ok,
      Except.ok.injEq, Prod.mk.injEq] at h
    obtain ⟨⟨n, height, time⟩, hbal, und, hund, next, ⟨rfl, -⟩, hs, hm⟩ := h
    obtain ⟨b, hb', rfl, rfl, rfl⟩ := getIcaBalanceByDenom_eq_ok.1 hbal
    exact Or.inr ⟨hready, b, und, hb', hund, hs.symm, hm.symm⟩

/-! ## Rewards, fees and LSM shares -/

/-- The items for one receiver of non-native rewards: the reward less the fee, and the fee. -/
def rewardItems (rewards : List Coin) (item : NonNativeRewardsItem) :
    Result (List (String × Coin)) :=
  -- the answer is collected into a hash map, where a later coin of a denomination wins
  let amount := ((rewards.reverse.find? fun c => c.denom = item.denom).map Coin.amount).getD 0
  if item.minAmount < amount then do
    let fee ← Decimal.mulUint amount item.fee
    let rest ← checkedSub amount fee
    return (item.address, ⟨item.denom, rest⟩) ::
      if 0 < item.fee.atomics ∧ 0 < fee then [(item.feeAddress, ⟨item.denom, fee⟩)] else []
  else .ok []

/-- The items for all receivers of non-native rewards, in their order. -/
def allRewardItems (rewards : List Coin) : List NonNativeRewardsItem → Result (List (String × Coin))
  | [] => .ok []
  | item :: rest => do
    let items ← rewardItems rewards item
    let others ← allRewardItems rewards rest
    return items ++ others

/-- `get_non_native_rewards_and_fee_transfer_msg`. -/
def getNonNativeRewardsAndFeeTransferMsg (s : Storage) (q : Querier) (info : MessageInfo)
    (env : Env) : Result (Option CoreMsg) := do
  let config := s.config
  let receivers ← orError s.nonNativeRewardsConfig (.std (.notFound "non_native_rewards_config"))
  let (rewards, _, _) ← ask q.nonNativeRewardsBalances
  let rewardItems ← allRewardItems rewards receivers
  let feeItems := s.collectedFees.entries.map fun e =>
    (e.2.address, (⟨e.2.denom, e.2.amount⟩ : Coin))
  let items := rewardItems ++ feeItems
  if items.isEmpty then return none
  else return some (.puppeteer config.puppeteerContract
    (.transfer items (some config.puppeteerTimeout) env.contractAddress) info.funds)

/-- A reward transfer asks the puppeteer for a bank transfer and nothing else. -/
theorem getNonNativeRewardsAndFeeTransferMsg_ok {s : Storage} {q : Querier} {info : MessageInfo}
    {env : Env} {m : Option CoreMsg}
    (h : getNonNativeRewardsAndFeeTransferMsg s q info env = .ok m) :
    m = none ∨ ∃ items, m = some (.puppeteer s.config.puppeteerContract
      (.transfer items (some s.config.puppeteerTimeout) env.contractAddress) info.funds) := by
  simp only [getNonNativeRewardsAndFeeTransferMsg, bind_eq_ok, orError_eq_ok, ask_eq_ok,
    Prod.exists] at h
  obtain ⟨receivers, -, rewards, _, _, -, items, -, h⟩ := h
  split_ifs at h with hempty
  · exact Or.inl (Except.ok.inj h).symm
  · exact Or.inr ⟨_, (Except.ok.inj h).symm⟩

/-- The redeem items of the stored shares. -/
def redeemItems (shares : StorageMap String (String × ℕ)) : List RedeemShareItem :=
  shares.entries.map fun e => ⟨e.2.2, e.2.1, e.1⟩

/-- The condition under which `get_pending_redeem_msg` sends nothing. The threshold is cast to the
32-bit `usize` of the virtual machine, and the time is only computed when the count does not
decide. -/
def redeemHasToWait (s : Storage) (config : Config) (env : Env) : Result Bool :=
  let pendingLsmSharesCount := s.lsmSharesToRedeem.entries.length
  let lsmRedeemThreshold := config.lsmRedeemThreshold % 2 ^ 32
  if pendingLsmSharesCount = 0 ∨ pendingLsmSharesCount < lsmRedeemThreshold then .ok true
  else do
    let next ← checkedAdd U64.bound s.lastLsmRedeem config.lsmRedeemMaximumInterval
    return decide (env.time.seconds < next)

/-- `get_pending_redeem_msg`: redeem every share waiting for it. -/
def getPendingRedeemMsg (s : Storage) (config : Config) (env : Env) (funds : List Coin) :
    Result (Option CoreMsg) := do
  let wait ← redeemHasToWait s config env
  if wait then return none
  else return some (.puppeteer config.puppeteerContract
    (.redeemShares (redeemItems s.lsmSharesToRedeem) (some config.puppeteerTimeout)
      env.contractAddress) funds)

/-- A redeem message lists every share waiting for redemption. -/
theorem getPendingRedeemMsg_ok {s : Storage} {config : Config} {env : Env} {funds : List Coin}
    {m : Option CoreMsg} (h : getPendingRedeemMsg s config env funds = .ok m) :
    m = none ∨ m = some (.puppeteer config.puppeteerContract
      (.redeemShares (redeemItems s.lsmSharesToRedeem) (some config.puppeteerTimeout)
        env.contractAddress) funds) := by
  simp only [getPendingRedeemMsg, bind_eq_ok] at h
  obtain ⟨wait, -, h⟩ := h
  cases wait with
  | true => exact Or.inl (Except.ok.inj h).symm
  | false => exact Or.inr (Except.ok.inj h).symm

/-- `get_pending_lsm_share_msg`: send the first pending share to the remote chain. -/
def getPendingLsmShareMsg (s : Storage) (config : Config) (env : Env) (funds : List Coin) :
    Option CoreMsg :=
  match s.pendingLsmShares.first with
  | some (denom, (_, amount)) =>
    some (.puppeteer config.puppeteerContract
      (.ibcTransfer config.puppeteerTimeout .lsmShare env.contractAddress)
      (⟨denom, amount⟩ :: funds))
  | none => none

/-- A share transfer attaches what is pending of the share's denomination. -/
theorem getPendingLsmShareMsg_ok {s : Storage} {config : Config} {env : Env} {funds : List Coin}
    {m : CoreMsg} (h : getPendingLsmShareMsg s config env funds = some m) :
    ∃ denom remote amount, s.pendingLsmShares.load denom = some (remote, amount) ∧
      m = .puppeteer config.puppeteerContract
        (.ibcTransfer config.puppeteerTimeout .lsmShare env.contractAddress)
        (⟨denom, amount⟩ :: funds) := by
  unfold getPendingLsmShareMsg at h
  cases hf : s.pendingLsmShares.first with
  | none => simp [hf] at h
  | some e =>
    obtain ⟨denom, remote, amount⟩ := e
    simp only [hf, Option.some.injEq] at h
    exact ⟨denom, remote, amount, StorageMap.load_of_first hf, h.symm⟩

end Core

end DropContracts
