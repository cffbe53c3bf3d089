import DropContracts.Core.TickCase

set_option relaxedAutoImplicit false
set_option autoImplicit false

/-!
# The other entry points of the core contract

`execute_bond` with `check_denom`, `execute_unbond`, `execute_puppeteer_hook`,
`execute_update_config` and the owner's switches, and the dispatch of `execute`.

## Main definitions

* `Core.checkDenom`, `Core.executeBond`, `Core.executeUnbond`.
* `Core.processSuccess`, `Core.processError`, `Core.executePuppeteerHook`.
* `Core.executeUpdateConfig`, `Core.execPause`, `Core.execUnpause`,
  `Core.executeResetBondedAmount`, `Core.executeSetNonNativeRewardsReceivers`.
* `Core.ExecuteMsg`, `Core.execute`.

## Main results

* `Core.executeBond_ok`, `Core.executeUnbond_ok`, `Core.executePuppeteerHook_changes` — everything
  each of them can do.
-/

namespace DropContracts

namespace Core

open Exec

/-! ## Denominations -/

/-- `str::split_once`: the text before and after the first `c`. -/
def splitOnce (c : Char) (s : String) : Option (String × String) :=
  match s.toList.dropWhile (fun x => x ≠ c) with
  | [] => none
  | _ :: rest => some (String.ofList (s.toList.takeWhile fun x => x ≠ c), String.ofList rest)

/-- What a bonded denomination is. -/
inductive DenomType where
  | base
  | lsmShare (remoteDenom : String)
  deriving DecidableEq, Repr

/-- `query_denom_trace`. -/
def queryDenomTrace (q : Querier) (denom : String) : Result DenomTrace :=
  match q.denomTrace denom with
  | .ok trace => .ok trace
  | .error e => fail (.std (.genericErr
      ("Query denom trace for denom " ++ denom ++ " failed: " ++ e ++
        ", perhaps, this is not an IBC denom?")))

/-- `check_denom`: the base denomination, or an LSM share of a member of the validator set. A
trace is refused when neither its port nor its channel is the expected one. -/
def checkDenom (q : Querier) (denom : String) (config : Config) : Result DenomType :=
  if denom = config.baseDenom then .ok .base
  else do
    let trace ← queryDenomTrace q denom
    let (port, channel) ← orError (splitOnce '/' trace.path) .invalidDenom
    ensure (¬ (port ≠ "transfer" ∧ channel ≠ config.channel)) .invalidDenom
    let (validator, _) ← orError (splitOnce '/' trace.baseDenom) .invalidDenom
    let validatorInfo ← ask (q.validator validator)
    ensure (validatorInfo ≠ none) .invalidDenom
    return .lsmShare trace.baseDenom

/-! ## Bond -/

/-- The bond limit, when one is set. -/
def checkBondLimit (s : Storage) (amount : ℕ) : Result Unit :=
  match s.config.bondLimit with
  | some bondLimit => do
    let bonded ← checkedAdd Uint128.bound s.bondedAmount amount
    ensure (bonded ≤ bondLimit) .bondLimitExceeded
  | none => .ok ()

/-- What a bond of LSM shares records. -/
def recordLsmShare (s : Storage) (coin : Coin) : DenomType → Result Storage
  | .base => .ok s
  | .lsmShare remoteDenom => do
    ensure (s.config.lsmMinBondAmount ≤ coin.amount)
      (.lsmBondAmountIsBelowMinimum s.config.lsmMinBondAmount coin.amount)
    let total ← checkedAdd Uint128.bound s.totalLsmShares coin.amount
    let pending := (s.pendingLsmShares.load coin.denom).getD (remoteDenom, 0)
    let amount ← checkedAdd Uint128.bound pending.2 coin.amount
    return { s with
      totalLsmShares := total
      pendingLsmShares := s.pendingLsmShares.save coin.denom (pending.1, amount) }

/-- The receiver of the minted tokens: the sender, or a valid address that it names. -/
def bondReceiver (q : Querier) (sender : String) : Option String → Result String
  | none => .ok sender
  | some receiver => do
    ensure (q.addrValidate receiver = true) (.std (.genericErr "addr_validate errored"))
    return receiver

/-- `execute_bond`. -/
def executeBond (s : Storage) (q : Querier) (info : MessageInfo) (receiver : Option String) :
    Result (Storage × List CoreMsg) := do
  let config := s.config
  let coin ← (oneCoin info).mapError .paymentError
  checkBondLimit s coin.amount
  let bonded ← checkedAdd Uint128.bound s.bondedAmount coin.amount
  let s := { s with bondedAmount := bonded }
  let denomType ← checkDenom q coin.denom config
  let s ← recordLsmShare s coin denomType
  let exchangeRate ← queryExchangeRate s q (some coin.amount)
  let ratio ← Decimal.div Decimal.one exchangeRate
  let issueAmount ← Decimal.mulUint coin.amount ratio
  let receiver ← bondReceiver q info.sender receiver
  return (s, [.tokenMint config.tokenContract issueAmount receiver])

/-- The fields that an accounting of LSM shares leaves alone. -/
structure LsmFrame (s s' : Storage) : Prop where
  config : s'.config = s.config
  unbondBatchId : s'.unbondBatchId = s.unbondBatchId
  unbondBatches : s'.unbondBatches = s.unbondBatches
  failedBatchId : s'.failedBatchId = s.failedBatchId
  isPaused : s'.isPaused = s.isPaused
  fsmState : s'.fsmState = s.fsmState
  lastPuppeteerResponse : s'.lastPuppeteerResponse = s.lastPuppeteerResponse
  lastIcaBalanceChangeHeight :
    s'.lastIcaBalanceChangeHeight = s.lastIcaBalanceChangeHeight

/-- What recording a bonded coin does to the storage. -/
inductive BondRecord (s : Storage) (coin : Coin) : DenomType → Storage → Prop
  | base : BondRecord s coin .base s
  | lsmShare (remoteDenom : String)
      (hfit : s.totalLsmShares + coin.amount < Uint128.bound) :
      BondRecord s coin (.lsmShare remoteDenom)
        { s with
          totalLsmShares := s.totalLsmShares + coin.amount
          pendingLsmShares := s.pendingLsmShares.save coin.denom
            (((s.pendingLsmShares.load coin.denom).getD (remoteDenom, 0)).1,
              ((s.pendingLsmShares.load coin.denom).getD (remoteDenom, 0)).2 + coin.amount) }

/-- A recorded coin is the base coin, or is added to the pending shares and their total. -/
theorem recordLsmShare_ok {s s' : Storage} {coin : Coin} {denomType : DenomType}
    (h : recordLsmShare s coin denomType = .ok s') : BondRecord s coin denomType s' := by
  cases denomType with
  | base =>
    rw [← Except.ok.inj h]
    exact .base
  | lsmShare remoteDenom =>
    simp only [recordLsmShare, bind_eq_ok, ensure_eq_ok, checkedAdd_eq_ok, pure_eq_ok,
      Except.ok.injEq] at h
    obtain ⟨-, -, total, ⟨rfl, hfit⟩, amount, ⟨rfl, -⟩, rfl⟩ := h
    exact .lsmShare remoteDenom hfit

/-- Recording a coin touches the pending shares and their total only. -/
theorem BondRecord.frame {s s' : Storage} {coin : Coin} {denomType : DenomType}
    (h : BondRecord s coin denomType s') : LsmFrame s s' := by
  cases h <;> exact ⟨rfl, rfl, rfl, rfl, rfl, rfl, rfl, rfl⟩

/-- **Everything a bond can do**: one coin is recorded, and its worth in liquid tokens at the rate
without it is minted. -/
theorem executeBond_ok {s s' : Storage} {q : Querier} {info : MessageInfo}
    {receiver : Option String} {msgs : List CoreMsg}
    (h : executeBond s q info receiver = .ok (s', msgs)) :
    ∃ coin denomType rate issueAmount receiver',
      info.funds = [coin] ∧ coin.amount ≠ 0 ∧ checkDenom q coin.denom s.config = .ok denomType ∧
      BondRecord { s with bondedAmount := s.bondedAmount + coin.amount } coin denomType s' ∧
      queryExchangeRate s' q (some coin.amount) = .ok rate ∧
      msgs = [.tokenMint s.config.tokenContract issueAmount receiver'] := by
  simp only [executeBond, bind_eq_ok, mapError_eq_ok, oneCoin_eq_ok, checkedAdd_eq_ok,
    pure_eq_ok, Except.ok.injEq, Prod.mk.injEq] at h
  obtain ⟨coin, ⟨hfunds, hpos⟩, -, -, bonded, ⟨rfl, -⟩, denomType, hdenom, s₁, hrecord, rate,
    hrate, ratio, -, issueAmount, -, receiver', -, rfl, rfl⟩ := h
  exact ⟨coin, denomType, rate, issueAmount, receiver', hfunds, hpos, hdenom,
    recordLsmShare_ok hrecord, hrate, rfl⟩

/-- A bond leaves the batches and the state machine alone. -/
theorem executeBond_frame {s s' : Storage} {q : Querier} {info : MessageInfo}
    {receiver : Option String} {msgs : List CoreMsg}
    (h : executeBond s q info receiver = .ok (s', msgs)) : LsmFrame s s' := by
  obtain ⟨coin, denomType, -, -, -, -, -, -, hrecord, -, -⟩ := executeBond_ok h
  obtain ⟨h₁, h₂, h₃, h₄, h₅, h₆, h₇, h₈⟩ := hrecord.frame
  exact ⟨h₁, h₂, h₃, h₄, h₅, h₆, h₇, h₈⟩

/-! ## Unbond -/

/-- A batch with one more request. -/
def UnbondBatch.push (batch : UnbondBatch) (item : UnbondItem) : UnbondBatch :=
  { batch with
    unbondItems := batch.unbondItems ++ [item]
    totalAmount := batch.totalAmount + item.amount
    expectedAmount := batch.expectedAmount + item.expectedAmount }

/-- The id of the voucher of the request number `count` of a batch. -/
def voucherTokenId (batchId : ℕ) (sender : String) (count : ℕ) : String :=
  toString batchId ++ "_" ++ sender ++ "_" ++ toString count

/-- `execute_unbond`. -/
def executeUnbond (s : Storage) (q : Querier) (info : MessageInfo) :
    Result (Storage × List CoreMsg) := do
  let unbondBatchId := s.unbondBatchId
  let config := s.config
  let ldDenom ← orError config.ldDenom .ldDenomIsNotSet
  let amount ← (mustPay info ldDenom).mapError .paymentError
  let unbondBatch ← s.loadBatch unbondBatchId
  let exchangeRate ← queryExchangeRate s q none
  let expectedAmount ← Decimal.mulUint amount exchangeRate
  let _ ← checkedAdd Uint128.bound unbondBatch.totalAmount amount
  let _ ← checkedAdd Uint128.bound unbondBatch.expectedAmount expectedAmount
  let unbondBatch := unbondBatch.push ⟨info.sender, amount, expectedAmount⟩
  let s := s.saveBatch unbondBatchId unbondBatch
  return (s, [
    .voucherMint config.withdrawalVoucherContract info.sender
      (voucherTokenId unbondBatchId info.sender unbondBatch.unbondItems.length)
      ⟨toString unbondBatchId, amount, expectedAmount⟩,
    .tokenBurn config.tokenContract [⟨ldDenom, amount⟩]])

/-- **Everything an unbond can do**: the paid amount, valued at the rate, becomes a request of the
current batch; a voucher for it is minted and the paid tokens are burnt. -/
theorem executeUnbond_ok {s s' : Storage} {q : Querier} {info : MessageInfo}
    {msgs : List CoreMsg} (h : executeUnbond s q info = .ok (s', msgs)) :
    ∃ ldDenom amount batch rate expectedAmount,
      s.config.ldDenom = some ldDenom ∧ info.funds = [⟨ldDenom, amount⟩] ∧ amount ≠ 0 ∧
      s.unbondBatches.load s.unbondBatchId = some batch ∧
      queryExchangeRate s q none = .ok rate ∧
      amount * rate.atomics / Decimal.fractional = expectedAmount ∧
      s' = s.saveBatch s.unbondBatchId (batch.push ⟨info.sender, amount, expectedAmount⟩) ∧
      msgs = [
        .voucherMint s.config.withdrawalVoucherContract info.sender
          (voucherTokenId s.unbondBatchId info.sender (batch.unbondItems.length + 1))
          ⟨toString s.unbondBatchId, amount, expectedAmount⟩,
        .tokenBurn s.config.tokenContract [⟨ldDenom, amount⟩]] := by
  simp only [executeUnbond, bind_eq_ok, orError_eq_ok, mapError_eq_ok, mustPay_eq_ok,
    Storage.loadBatch_eq_ok, Decimal.mulUint_eq_ok, checkedAdd_eq_ok, pure_eq_ok,
    Except.ok.injEq, Prod.mk.injEq] at h
  obtain ⟨ldDenom, hld, amount, ⟨hfunds, hpos⟩, batch, hbatch, rate, hrate, expectedAmount,
    ⟨hexpected, -⟩, -, -, -, -, rfl, rfl⟩ := h
  refine ⟨ldDenom, amount, batch, rate, expectedAmount, hld, hfunds, hpos, hbatch, hrate,
    hexpected, rfl, ?_⟩
  simp [UnbondBatch.push]

/-- The request of an unbond is added within the bounds of the totals. -/
theorem executeUnbond_fits {s s' : Storage} {q : Querier} {info : MessageInfo}
    {msgs : List CoreMsg} (h : executeUnbond s q info = .ok (s', msgs)) :
    ∃ batch item, s.unbondBatches.load s.unbondBatchId = some batch ∧
      s' = s.saveBatch s.unbondBatchId (batch.push item) ∧
      (batch.push item).expectedAmount < Uint128.bound := by
  simp only [executeUnbond, bind_eq_ok, Storage.loadBatch_eq_ok, checkedAdd_eq_ok, pure_eq_ok,
    Except.ok.injEq, Prod.mk.injEq] at h
  obtain ⟨-, -, amount, -, batch, hbatch, rate, -, expectedAmount, -, -, -, _, ⟨rfl, hfit⟩, rfl,
    -⟩ := h
  exact ⟨batch, ⟨info.sender, amount, expectedAmount⟩, hbatch, rfl, hfit⟩

/-- An unbond changes nothing but the current batch. -/
theorem executeUnbond_saves {s s' : Storage} {q : Querier} {info : MessageInfo}
    {msgs : List CoreMsg} (h : executeUnbond s q info = .ok (s', msgs)) :
    ∃ batch item, s.unbondBatches.load s.unbondBatchId = some batch ∧
      s' = s.saveBatch s.unbondBatchId (batch.push item) := by
  obtain ⟨batch, item, hbatch, hs, -⟩ := executeUnbond_fits h
  exact ⟨batch, item, hbatch, hs⟩

/-! ## The hook of the puppeteer -/

/-- The move of sent LSM shares from the pending map to the map of shares to redeem. -/
def recordSentShares (s : Storage) (denom : String) (sentAmount : ℕ) : Result Storage :=
  match s.pendingLsmShares.load denom with
  | some (remoteDenom, currentAmount) => do
    let one := (s.lsmSharesToRedeem.load denom).getD (remoteDenom, 0)
    let amount ← checkedAdd Uint128.bound one.2 sentAmount
    let s := { s with lsmSharesToRedeem := s.lsmSharesToRedeem.save denom (one.1, amount) }
    if currentAmount = sentAmount then
      return { s with pendingLsmShares := s.pendingLsmShares.remove denom }
    else do
      let rest ← checkedSub currentAmount sentAmount
      return { s with pendingLsmShares := s.pendingLsmShares.save denom (remoteDenom, rest) }
  | none => .ok s

/-- The removal of redeemed shares. -/
def recordRedeemedShares (s : Storage) (now : ℕ) (items : List RedeemShareItem) :
    Result Storage := do
  let sum ← checkedSum Uint128.bound (items.map RedeemShareItem.amount)
  let total ← checkedSub s.totalLsmShares sum
  return { s with
    lsmSharesToRedeem := items.foldl (fun m item => m.remove item.localDenom) s.lsmSharesToRedeem
    totalLsmShares := total
    lastLsmRedeem := now }

/-- What the hook does with a transaction that succeeded. -/
def processSuccess (s : Storage) (env : Env) : Transaction → Result Storage
  | .ibcTransfer denom amount _ reason =>
    if reason = .lsmShare then recordSentShares s denom amount else .ok s
  | .redeemShares _ items => recordRedeemedShares s env.time.seconds items
  | _ => .ok s

/-- Whether the hook moves the state machine to `Idle` when the transaction has failed. -/
def Transaction.resetsOnError : Transaction → Bool
  | .transfer _ _ => true
  | .redeemShares _ _ => true
  | .claimRewardsAndOptionalyTransfer _ _ _ _ => true
  | .ibcTransfer _ _ _ reason => reason = .lsmShare
  | _ => false

/-- What the hook does with a transaction that failed. -/
def processError (s : Storage) (transaction : Transaction) : Result Storage :=
  if Transaction.resetsOnError transaction then s.goTo .idle else .ok s

/-- What the hook does with an outcome. -/
def processOutcome (s : Storage) (env : Env) : ResponseHookMsg → Result Storage
  | .success successMsg =>
    processSuccess { s with lastIcaBalanceChangeHeight := env.height } env successMsg.transaction
  | .error errMsg => processError s errMsg.transaction

/-- `execute_puppeteer_hook`. -/
def executePuppeteerHook (s : Storage) (env : Env) (info : MessageInfo) (msg : ResponseHookMsg) :
    Result Storage := do
  ensure (info.sender = s.config.puppeteerContract) .unauthorized
  let s ← processOutcome s env msg
  return { s with lastPuppeteerResponse := some msg }

/-- What the hook leaves alone, and where it leaves the state machine. -/
structure HookFrame (s s' : Storage) (msg : ResponseHookMsg) : Prop where
  config : s'.config = s.config
  unbondBatchId : s'.unbondBatchId = s.unbondBatchId
  unbondBatches : s'.unbondBatches = s.unbondBatches
  failedBatchId : s'.failedBatchId = s.failedBatchId
  isPaused : s'.isPaused = s.isPaused
  lastPuppeteerResponse : s'.lastPuppeteerResponse = some msg
  fsmState : s'.fsmState =
    if msg.isError = true ∧ Transaction.resetsOnError msg.transaction = true then .idle
    else s.fsmState

/-- The hook leaves the batch that core looks at next alone. -/
theorem HookFrame.load_nextBatch {s s' : Storage} {msg : ResponseHookMsg}
    (h : HookFrame s s' msg) :
    s'.unbondBatches.load s'.nextBatchId = s.unbondBatches.load s.nextBatchId := by
  rw [h.unbondBatches, Storage.nextBatchId, h.failedBatchId, h.unbondBatchId]
  rfl

/-- The move of sent shares touches the two maps of shares only. -/
theorem recordSentShares_ok {s s' : Storage} {denom : String} {sentAmount : ℕ}
    (h : recordSentShares s denom sentAmount = .ok s') :
    ∃ pending toRedeem,
      s' = { s with pendingLsmShares := pending, lsmSharesToRedeem := toRedeem } := by
  unfold recordSentShares at h
  cases hpending : s.pendingLsmShares.load denom with
  | none =>
    simp only [hpending, Except.ok.injEq] at h
    exact ⟨s.pendingLsmShares, s.lsmSharesToRedeem, h.symm⟩
  | some pending =>
    obtain ⟨remoteDenom, currentAmount⟩ := pending
    simp only [hpending, bind_eq_ok] at h
    obtain ⟨amount, -, h⟩ := h
    split_ifs at h
    · exact ⟨_, _, (Except.ok.inj h).symm⟩
    · simp only [bind_eq_ok, pure_eq_ok, Except.ok.injEq] at h
      obtain ⟨rest, -, rfl⟩ := h
      exact ⟨_, _, rfl⟩

/-- The handling of a success touches the LSM shares only. -/
theorem processSuccess_ok {s s' : Storage} {env : Env} {transaction : Transaction}
    (h : processSuccess s env transaction = .ok s') :
    ∃ pending toRedeem total lastRedeem, s' = { s with
      pendingLsmShares := pending
      lsmSharesToRedeem := toRedeem
      totalLsmShares := total
      lastLsmRedeem := lastRedeem } := by
  unfold processSuccess at h
  split at h
  · split_ifs at h
    · obtain ⟨pending, toRedeem, rfl⟩ := recordSentShares_ok h
      exact ⟨pending, toRedeem, _, _, rfl⟩
    · exact ⟨_, _, _, _, (Except.ok.inj h).symm⟩
  · simp only [recordRedeemedShares, bind_eq_ok, pure_eq_ok, Except.ok.injEq] at h
    obtain ⟨-, -, total, -, rfl⟩ := h
    exact ⟨_, _, _, _, rfl⟩
  · exact ⟨_, _, _, _, (Except.ok.inj h).symm⟩

/-- The handling of a failure touches the state of the state machine only. -/
theorem processError_ok {s s' : Storage} {transaction : Transaction}
    (h : processError s transaction = .ok s') :
    s' = { s with
      fsmState := if Transaction.resetsOnError transaction then .idle else s.fsmState } := by
  unfold processError at h
  split_ifs at h with hresets
  · obtain ⟨-, rfl⟩ := Storage.goTo_eq_ok.1 h
    rw [if_pos hresets]
  · rw [← Except.ok.inj h, if_neg hresets]

/-- **Everything the hook can do**: it stores the outcome; besides, a success moves the height of
the last change to its block and may touch the LSM shares, and a failure of a transaction that
resets moves the state machine to `Idle`. -/
theorem executePuppeteerHook_changes {s s' : Storage} {env : Env} {info : MessageInfo}
    {msg : ResponseHookMsg} (h : executePuppeteerHook s env info msg = .ok s') :
    ∃ pending toRedeem total lastRedeem, s' = { s with
      pendingLsmShares := pending
      lsmSharesToRedeem := toRedeem
      totalLsmShares := total
      lastLsmRedeem := lastRedeem
      lastIcaBalanceChangeHeight :=
        if msg.isError then s.lastIcaBalanceChangeHeight else env.height
      lastPuppeteerResponse := some msg
      fsmState :=
        if msg.isError = true ∧ Transaction.resetsOnError msg.transaction = true then .idle
        else s.fsmState } := by
  simp only [executePuppeteerHook, bind_eq_ok, ensure_eq_ok, pure_eq_ok, Except.ok.injEq] at h
  obtain ⟨-, -, t, hprocess, rfl⟩ := h
  cases msg with
  | success successMsg =>
    obtain ⟨pending, toRedeem, total, lastRedeem, rfl⟩ := processSuccess_ok hprocess
    exact ⟨pending, toRedeem, total, lastRedeem, by simp [ResponseHookMsg.isError]⟩
  | error errMsg =>
    obtain rfl := processError_ok hprocess
    exact ⟨s.pendingLsmShares, s.lsmSharesToRedeem, s.totalLsmShares, s.lastLsmRedeem,
      by simp [ResponseHookMsg.isError, ResponseHookMsg.transaction]⟩

/-- What the hook leaves alone besides the LSM shares. -/
theorem executePuppeteerHook_ok {s s' : Storage} {env : Env} {info : MessageInfo}
    {msg : ResponseHookMsg} (h : executePuppeteerHook s env info msg = .ok s') :
    HookFrame s s' msg := by
  obtain ⟨_, _, _, _, rfl⟩ := executePuppeteerHook_changes h
  exact ⟨rfl, rfl, rfl, rfl, rfl, rfl, rfl⟩

/-- The hook of a success moves the height of the last change to its block; that of an error leaves
it. -/
theorem hook_changeHeight {s s' : Storage} {env : Env} {info : MessageInfo}
    {msg : ResponseHookMsg} (h : executePuppeteerHook s env info msg = .ok s') :
    s'.lastIcaBalanceChangeHeight =
      if msg.isError then s.lastIcaBalanceChangeHeight else env.height := by
  obtain ⟨_, _, _, _, rfl⟩ := executePuppeteerHook_changes h
  rfl

/-- Every other state may be left for `Idle`, but `Idle` itself may not be entered from `Idle`. -/
theorem goTo_idle_ok_iff {s : Storage} : (∃ s', s.goTo .idle = .ok s') ↔ s.fsmState ≠ .idle := by
  simp only [Storage.goTo_eq_ok]
  cases s.fsmState <;> simp [TRANSITIONS]

/-! ## Administration -/

/-- The fields of a configuration to change. -/
structure ConfigOptional where
  tokenContract : Option String
  puppeteerContract : Option String
  puppeteerTimeout : Option ℕ
  strategyContract : Option String
  withdrawalVoucherContract : Option String
  withdrawalManagerContract : Option String
  validatorsSetContract : Option String
  baseDenom : Option String
  remoteDenom : Option String
  idleMinInterval : Option ℕ
  unbondingPeriod : Option ℕ
  unbondingSafePeriod : Option ℕ
  unbondBatchSwitchTime : Option ℕ
  pumpAddress : Option String
  channel : Option String
  ldDenom : Option String
  lsmMinBondAmount : Option ℕ
  lsmRedeemThreshold : Option ℕ
  lsmRedeemMaximumInterval : Option ℕ
  bondLimit : Option ℕ
  fee : Option Decimal
  feeAddress : Option String
  emergencyAddress : Option String
  minStakeAmount : Option ℕ
  deriving DecidableEq, Repr

/-- The update that gives nothing. -/
def ConfigOptional.empty : ConfigOptional where
  tokenContract := none
  puppeteerContract := none
  puppeteerTimeout := none
  strategyContract := none
  withdrawalVoucherContract := none
  withdrawalManagerContract := none
  validatorsSetContract := none
  baseDenom := none
  remoteDenom := none
  idleMinInterval := none
  unbondingPeriod := none
  unbondingSafePeriod := none
  unbondBatchSwitchTime := none
  pumpAddress := none
  channel := none
  ldDenom := none
  lsmMinBondAmount := none
  lsmRedeemThreshold := none
  lsmRedeemMaximumInterval := none
  bondLimit := none
  fee := none
  feeAddress := none
  emergencyAddress := none
  minStakeAmount := none

/-- The configuration that `execute_update_config` stores. A bond limit of zero removes the limit,
and `remoteDenom` is read by no branch of it. -/
def Config.update (config : Config) (new : ConfigOptional) : Config where
  tokenContract := new.tokenContract.getD config.tokenContract
  puppeteerContract := new.puppeteerContract.getD config.puppeteerContract
  puppeteerTimeout := new.puppeteerTimeout.getD config.puppeteerTimeout
  strategyContract := new.strategyContract.getD config.strategyContract
  withdrawalVoucherContract :=
    new.withdrawalVoucherContract.getD config.withdrawalVoucherContract
  withdrawalManagerContract :=
    new.withdrawalManagerContract.getD config.withdrawalManagerContract
  pumpAddress := new.pumpAddress.or config.pumpAddress
  validatorsSetContract := new.validatorsSetContract.getD config.validatorsSetContract
  baseDenom := new.baseDenom.getD config.baseDenom
  remoteDenom := config.remoteDenom
  idleMinInterval := new.idleMinInterval.getD config.idleMinInterval
  unbondingPeriod := new.unbondingPeriod.getD config.unbondingPeriod
  unbondingSafePeriod := new.unbondingSafePeriod.getD config.unbondingSafePeriod
  unbondBatchSwitchTime := new.unbondBatchSwitchTime.getD config.unbondBatchSwitchTime
  lsmMinBondAmount := new.lsmMinBondAmount.getD config.lsmMinBondAmount
  lsmRedeemMaximumInterval := new.lsmRedeemMaximumInterval.getD config.lsmRedeemMaximumInterval
  lsmRedeemThreshold := new.lsmRedeemThreshold.getD config.lsmRedeemThreshold
  bondLimit := match new.bondLimit with
    | some limit => if limit = 0 then none else some limit
    | none => config.bondLimit
  ldDenom := new.ldDenom.or config.ldDenom
  channel := new.channel.getD config.channel
  fee := new.fee.or config.fee
  feeAddress := new.feeAddress.or config.feeAddress
  emergencyAddress := new.emergencyAddress.or config.emergencyAddress
  minStakeAmount := new.minStakeAmount.getD config.minStakeAmount

/-- `cw_ownable::assert_owner`. -/
def assertOwner (s : Storage) (info : MessageInfo) : Result Unit :=
  ensure (info.sender = s.owner) .ownershipError

/-- `execute_update_config`. -/
def executeUpdateConfig (s : Storage) (info : MessageInfo) (newConfig : ConfigOptional) :
    Result Storage := do
  assertOwner s info
  return { s with config := s.config.update newConfig }

/-- `execute_set_non_native_rewards_receivers`. -/
def executeSetNonNativeRewardsReceivers (s : Storage) (info : MessageInfo)
    (items : List NonNativeRewardsItem) : Result Storage := do
  assertOwner s info
  return { s with nonNativeRewardsConfig := some items }

/-- `execute_reset_bonded_amount`. -/
def executeResetBondedAmount (s : Storage) (info : MessageInfo) : Result Storage := do
  assertOwner s info
  return { s with bondedAmount := 0 }

/-- `exec_pause`. -/
def execPause (s : Storage) (info : MessageInfo) : Result Storage := do
  assertOwner s info
  return { s with isPaused := true }

/-- `exec_unpause`. -/
def execUnpause (s : Storage) (info : MessageInfo) : Result Storage := do
  assertOwner s info
  return { s with isPaused := false }

/-! ## Dispatch -/

/-- The requests of the contract. -/
inductive ExecuteMsg where
  | bond (receiver : Option String)
  | unbond
  | updateConfig (newConfig : ConfigOptional)
  | resetBondedAmount
  | updateNonNativeRewardsReceivers (items : List NonNativeRewardsItem)
  | tick
  | puppeteerHook (msg : ResponseHookMsg)
  | pause
  | unpause
  deriving DecidableEq, Repr

/-- Whether a request is one that only the owner may make. -/
def ExecuteMsg.isAdmin : ExecuteMsg → Bool
  | .updateConfig _ => true
  | .resetBondedAmount => true
  | .updateNonNativeRewardsReceivers _ => true
  | .pause => true
  | .unpause => true
  | _ => false

/-- A call that changes the storage and sends nothing. -/
def silently (x : Result Storage) : Result (Storage × List CoreMsg) := do
  let s ← x
  return (s, [])

/-- `execute`. -/
def execute (s : Storage) (q : Querier) (env : Env) (info : MessageInfo) :
    ExecuteMsg → Result (Storage × List CoreMsg)
  | .bond receiver => executeBond s q info receiver
  | .unbond => executeUnbond s q info
  | .updateConfig newConfig => silently (executeUpdateConfig s info newConfig)
  | .resetBondedAmount => silently (executeResetBondedAmount s info)
  | .updateNonNativeRewardsReceivers items =>
    silently (executeSetNonNativeRewardsReceivers s info items)
  | .tick => executeTick s q env info
  | .puppeteerHook msg => silently (executePuppeteerHook s env info msg)
  | .pause => silently (execPause s info)
  | .unpause => silently (execUnpause s info)

end Core

end DropContracts
