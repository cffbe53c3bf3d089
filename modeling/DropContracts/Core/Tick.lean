import DropContracts.Core.Messages

set_option relaxedAutoImplicit false
set_option autoImplicit false

/-!
# The tick of the core contract

`execute_tick` and its five handlers. Three handlers end in the same cascade (transfer the pending
balance, else stake, else unbond, else go back to `Idle`), which is written once here, in the
order of the source.

## Main definitions

* `Core.unbondOrIdle`, `Core.stakeOrUnbond`, `Core.transferStakeOrUnbond` — the cascade.
* `Core.markReadyBatches` — the payout of matured batches that an idle tick prepares.
* `Core.executeTickIdle`, `Core.executeTickClaiming`, `Core.executeTickTransfering`,
  `Core.executeTickStaking`, `Core.executeTickUnbonding`, `Core.executeTick`.
-/

namespace DropContracts

namespace Core

open Exec

/-! ## The cascade -/

section Handlers

variable (s : Storage) (q : Querier) (env : Env) (info : MessageInfo) (config : Config)

/-- Ask for the next undelegation and enter `Unbonding`, or go to `Idle`. -/
def unbondOrIdle : Result (Storage × List CoreMsg) := do
  let (s, unbondMessage) ← getUnbondingMsg s q env config info
  match unbondMessage with
  | some unbondMessage => do
    let s ← s.goTo .unbonding
    return (s, [unbondMessage])
  | none => do
    let s ← s.goTo .idle
    return (s, [])

/-- Stake and enter `Staking`, or go on with the undelegation. -/
def stakeOrUnbond : Result (Storage × List CoreMsg) := do
  let (s, stakeMsg) ← getStakeMsg s q env config info
  match stakeMsg with
  | some stakeMsg => do
    let s ← s.goTo .staking
    return (s, [stakeMsg])
  | none => unbondOrIdle s q env info config

/-- Transfer the pending balance and enter `Transfering`, or go on with the stake. -/
def transferStakeOrUnbond : Result (Storage × List CoreMsg) :=
  match getTransferPendingBalanceMsg q env config info.funds with
  | some (transferMsg, pendingAmount) => do
    let s ← s.goTo .transfering
    return ({ s with pendingTransfer := some pendingAmount }, [transferMsg])
  | none => stakeOrUnbond s q env info config

/-! ## The idle handler -/

/-- `is_unbonding_time_close`. The subtraction is only made for batches that are still
unbonding at `now`. -/
def isUnbondingTimeClose (now safePeriod : ℕ) : List (ℕ × UnbondBatch) → Result Bool
  | [] => .ok false
  | (_, unbondBatch) :: rest =>
    let expected := unbondBatch.expectedRelease
    if now < expected then do
      let start ← checkedSub expected safePeriod
      if start < now then .ok true else isUnbondingTimeClose now safePeriod rest
    else isUnbondingTimeClose now safePeriod rest

/-- What a single matured batch is paid, and the slashing this means. -/
def slashedAmount (icaBalance expectedAmount : ℕ) : Result (ℕ × Decimal) :=
  if icaBalance < expectedAmount then do
    let slashingEffect ← Decimal.fromRatio icaBalance expectedAmount
    return (icaBalance, slashingEffect)
  else .ok (expectedAmount, Decimal.one)

/-- A batch whose payout has been decided. -/
def UnbondBatch.withdraw (batch : UnbondBatch) (unbondedAmount : ℕ) (slashingEffect : Decimal) :
    UnbondBatch :=
  { batch with
    unbondedAmount := some unbondedAmount
    slashingEffect := some slashingEffect
    status := .withdrawing }

/-- A batch that is paid through the emergency address. -/
def UnbondBatch.withdrawEmergency (batch : UnbondBatch) : UnbondBatch :=
  { batch with
    unbondedAmount := none
    slashingEffect := none
    status := .withdrawingEmergency }

/-- Saves every listed batch as `f` changes it, one after the other. -/
def Storage.saveBatches (f : UnbondBatch → UnbondBatch) (batches : List (ℕ × UnbondBatch)) :
    Storage :=
  { s with unbondBatches := s.unbondBatches.saveAll f batches }

/-- The payout of the matured batches: none, one (which bears the slashing alone), or several
(which go to the emergency address when the balance does not cover them). -/
def markReadyBatches (pumpAddress : String) (icaBalance : ℕ) :
    List (ℕ × UnbondBatch) → Result (Storage × Option TransferReadyBatchesMsg)
  | [] => .ok (s, none)
  | [(id, unbondingBatch)] => do
    let (unbondedAmount, slashingEffect) ← slashedAmount icaBalance unbondingBatch.expectedAmount
    return (s.saveBatch id (unbondingBatch.withdraw unbondedAmount slashingEffect),
      some ⟨[id], false, unbondedAmount, pumpAddress⟩)
  | unbondedBatches => do
    let totalExpectedAmount ← checkedSum Uint128.bound
      (unbondedBatches.map fun e => e.2.expectedAmount)
    let batchIds := unbondedBatches.map Prod.fst
    if icaBalance < totalExpectedAmount then do
      let recipient ← orError config.emergencyAddress .emergencyAddressIsNotSet
      return (s.saveBatches UnbondBatch.withdrawEmergency unbondedBatches,
        some ⟨batchIds, true, icaBalance, recipient⟩)
    else
      return (s.saveBatches (fun batch => batch.withdraw batch.expectedAmount Decimal.one)
          unbondedBatches,
        some ⟨batchIds, false, totalExpectedAmount, pumpAddress⟩)

/-- The batches an idle tick pays out: unbonding, released by now, and released before the balance
of the interchain account was read. -/
def Storage.maturedBatches (now icaBalanceLocalTime : ℕ) : List (ℕ × UnbondBatch) :=
  (s.batchesWithStatus .unbonding).filter fun e =>
    e.2.expectedRelease ≤ now ∧ e.2.expectedRelease < icaBalanceLocalTime

/-- The validators of the set that have a delegation. -/
def validatorsToClaim (validators : List ValidatorInfo) (delegations : List Delegation) :
    List String :=
  (delegations.filter fun d => validators.any fun v => v.valoperAddress = d.validator).map
    Delegation.validator

/-- The message of an idle tick within the interval: a reward transfer, else a redemption of LSM
shares, else a transfer of LSM shares. -/
def getIdleIntervalMsg : Result CoreMsg := do
  let transferMsg ← getNonNativeRewardsAndFeeTransferMsg s q info env
  match transferMsg with
  | some transferMsg => .ok transferMsg
  | none => do
    let redeemMsg ← getPendingRedeemMsg s config env info.funds
    match redeemMsg with
    | some redeemMsg => .ok redeemMsg
    | none => orError (getPendingLsmShareMsg s config env info.funds) .idleMinIntervalIsNotReached

/-- The end of an idle tick after the interval: with validators to claim from, the claim together
with the payout; else the cascade, which leaves the payout out. -/
def claimOrCascade (transfer : Option TransferReadyBatchesMsg) (validators : List String) :
    Result (Storage × List CoreMsg) :=
  if validators = [] then transferStakeOrUnbond s q env info config
  else .ok (s, [.puppeteer config.puppeteerContract
    (.claimRewardsAndOptionalyTransfer validators transfer (some config.puppeteerTimeout)
      env.contractAddress) info.funds])

/-- `execute_tick_idle` once the interval has passed. -/
def executeTickIdleLong : Result (Storage × List CoreMsg) := do
  let now := env.time.seconds
  let unbondingBatches := s.batchesWithStatus .unbonding
  let close ← isUnbondingTimeClose now config.unbondingSafePeriod unbondingBatches
  ensure (close = false) .unbondingTimeIsClose
  let pumpAddress ← orError config.pumpAddress .pumpAddressIsNotSet
  let (icaBalance, _, icaBalanceLocalTime) ← getIcaBalanceByDenom q config.remoteDenom true
  let unbondedBatches := s.maturedBatches now icaBalanceLocalTime
  let (s, transfer) ← markReadyBatches s config pumpAddress icaBalance unbondedBatches
  let validators ← ask q.validators
  let (delegations, _, _) ← ask q.delegations
  let s ← s.goTo .claiming
  let (s, messages) ←
    claimOrCascade s q env info config transfer (validatorsToClaim validators delegations)
  return ({ s with lastIdleCall := now }, messages)

/-- `execute_tick_idle`. -/
def executeTickIdle : Result (Storage × List CoreMsg) := do
  let s ← cacheExchangeRate s q env none
  let elapsed ← checkedSub env.time.seconds s.lastIdleCall
  if elapsed < config.idleMinInterval then do
    let message ← getIdleIntervalMsg s q env info config
    return (s, [message])
  else executeTickIdleLong s q env info config

/-! ## The waiting handlers -/

/-- `get_received_puppeteer_response`. -/
def getReceivedPuppeteerResponse : Result ResponseHookMsg :=
  orError s.lastPuppeteerResponse .puppeteerResponseIsNotReceived

/-- The status of a batch whose payout succeeded. -/
def withdrawnStatus (emergency : Bool) : UnbondBatchStatus :=
  if emergency then .withdrawnEmergency else .withdrawn

/-- Marks the batches of a payout that succeeded, one after the other. -/
def markWithdrawn (emergency : Bool) (s : Storage) : List ℕ → Result Storage
  | [] => .ok s
  | id :: rest => do
    let batch ← s.loadBatch id
    markWithdrawn emergency
      (s.saveBatch id { batch with status := withdrawnStatus emergency }) rest

/-- What a claiming tick does with the response it finds. -/
def processClaimResponse : ResponseHookMsg → Result Storage
  | .success successMsg =>
    match successMsg.transaction with
    | .claimRewardsAndOptionalyTransfer _ _ _ (some transfer) =>
      markWithdrawn transfer.emergency s transfer.batchIds
    | .claimRewardsAndOptionalyTransfer _ _ _ none => .ok s
    | _ => fail .invalidTransaction
  | .error _ => .ok s

/-- `execute_tick_claiming`. -/
def executeTickClaiming : Result (Storage × List CoreMsg) := do
  let response ← getReceivedPuppeteerResponse s
  let s ← processClaimResponse { s with lastPuppeteerResponse := none } response
  transferStakeOrUnbond s q env info config

/-- `execute_tick_transfering`. -/
def executeTickTransfering : Result (Storage × List CoreMsg) := do
  let _ ← getReceivedPuppeteerResponse s
  stakeOrUnbond { s with lastPuppeteerResponse := none } q env info config

/-- `execute_tick_staking`. -/
def executeTickStaking : Result (Storage × List CoreMsg) := do
  let response ← getReceivedPuppeteerResponse s
  ensure (response.isError = false) .previousStakingWasFailed
  unbondOrIdle { s with lastPuppeteerResponse := none } q env info config

/-- What an unbonding tick does with the response it finds. A response that is an error stays
stored. -/
def processUndelegateResponse : ResponseHookMsg → Result Storage
  | .success response =>
    match response.transaction with
    | .undelegate _ _ _ batchId => do
      let unbond ← s.loadBatch batchId
      let expectedRelease ← checkedAdd U64.bound env.time.seconds config.unbondingPeriod
      let s := { s with lastPuppeteerResponse := none }
      let s := s.saveBatch batchId
        { unbond with status := .unbonding, expectedRelease := expectedRelease }
      return { s with failedBatchId := none }
    | _ => fail .invalidTransaction
  | .error response =>
    match response.transaction with
    | .undelegate _ _ _ batchId => do
      let unbond ← s.loadBatch batchId
      let s := s.saveBatch batchId { unbond with status := .unbondFailed }
      return { s with failedBatchId := some batchId }
    | _ => fail .invalidTransaction

/-- `execute_tick_unbonding`. -/
def executeTickUnbonding : Result (Storage × List CoreMsg) := do
  let response ← getReceivedPuppeteerResponse s
  let s ← processUndelegateResponse s env config response
  let s ← s.goTo .idle
  return (s, [])

/-- `execute_tick`. -/
def executeTick : Result (Storage × List CoreMsg) := do
  ensure (s.isPaused = false) .paused
  match s.fsmState with
  | .idle => executeTickIdle s q env info s.config
  | .claiming => executeTickClaiming s q env info s.config
  | .transfering => executeTickTransfering s q env info s.config
  | .unbonding => executeTickUnbonding s env s.config
  | .staking => executeTickStaking s q env info s.config

end Handlers

end Core

end DropContracts
