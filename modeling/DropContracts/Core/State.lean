import DropContracts.Base.Decimal
import DropContracts.Base.StorageMap
import DropContracts.Packages.PuppeteerMsg

set_option relaxedAutoImplicit false
set_option autoImplicit false

/-!
# The storage of the core contract

`packages/base/src/state/core.rs` and `contracts/core/src/error.rs`: the configuration, the unbond
batches, the finite state machine with its table, and every storage item, as they stand after
`instantiate`. An item that `instantiate` does not set is an `Option`.

## Main definitions

* `Core.Config`, `Core.UnbondBatch`, `Core.ContractState`, `Core.TRANSITIONS`.
* `Core.Storage` — every storage item of the contract.
* `Core.Storage.goTo` — `FSM.go_to` on the storage.
* `Core.newUnbond`, `Core.instantiate` — the first batch and the first storage.

## Main results

* `Core.Storage.goTo_eq_ok` — what a move of the state machine does to the storage.
-/

namespace DropContracts

namespace Core

open Exec

/-! ## Data -/

/-- The configuration. -/
structure Config where
  tokenContract : String
  puppeteerContract : String
  puppeteerTimeout : ℕ
  strategyContract : String
  withdrawalVoucherContract : String
  withdrawalManagerContract : String
  validatorsSetContract : String
  baseDenom : String
  remoteDenom : String
  idleMinInterval : ℕ
  unbondingPeriod : ℕ
  unbondingSafePeriod : ℕ
  unbondBatchSwitchTime : ℕ
  pumpAddress : Option String
  channel : String
  ldDenom : Option String
  lsmMinBondAmount : ℕ
  lsmRedeemThreshold : ℕ
  lsmRedeemMaximumInterval : ℕ
  bondLimit : Option ℕ
  fee : Option Decimal
  feeAddress : Option String
  emergencyAddress : Option String
  minStakeAmount : ℕ
  deriving DecidableEq, Repr

/-- A user's request inside an unbond batch. -/
structure UnbondItem where
  sender : String
  amount : ℕ
  expectedAmount : ℕ
  deriving DecidableEq, Repr

/-- The life cycle of an unbond batch. -/
inductive UnbondBatchStatus where
  | new
  | unbondRequested
  | unbondFailed
  | unbonding
  | withdrawing
  | withdrawn
  | withdrawingEmergency
  | withdrawnEmergency
  deriving DecidableEq, Repr

/-- An unbond batch. -/
structure UnbondBatch where
  totalAmount : ℕ
  expectedAmount : ℕ
  expectedRelease : ℕ
  unbondItems : List UnbondItem
  status : UnbondBatchStatus
  slashingEffect : Option Decimal
  unbondedAmount : Option ℕ
  withdrawedAmount : Option ℕ
  created : ℕ
  deriving DecidableEq, Repr

/-- The states of the contract. -/
inductive ContractState where
  | idle
  | claiming
  | unbonding
  | staking
  | transfering
  deriving DecidableEq, Repr

/-- The table of allowed moves. -/
def TRANSITIONS : List (Transition ContractState) := [
  ⟨.idle, .claiming⟩,
  ⟨.idle, .staking⟩,
  ⟨.idle, .transfering⟩,
  ⟨.claiming, .transfering⟩,
  ⟨.transfering, .staking⟩,
  ⟨.staking, .unbonding⟩,
  ⟨.claiming, .staking⟩,
  ⟨.staking, .idle⟩,
  ⟨.unbonding, .idle⟩,
  ⟨.transfering, .idle⟩,
  ⟨.claiming, .idle⟩]

/-- The state machine of the contract. -/
def FSM : Fsm ContractState := ⟨TRANSITIONS⟩

/-- Where a non-native reward goes, and the fee on it. -/
structure NonNativeRewardsItem where
  denom : String
  address : String
  minAmount : ℕ
  feeAddress : String
  fee : Decimal
  deriving DecidableEq, Repr

/-- A collected fee waiting to be sent. -/
structure FeeItem where
  address : String
  denom : String
  amount : ℕ
  deriving DecidableEq, Repr

/-- The errors of the contract. -/
inductive ContractError where
  | std (e : StdError)
  | paymentError (e : PaymentError)
  | unauthorized
  | ownershipError
  | ldDenomIsNotSet
  | invalidDenom
  | idleMinIntervalIsNotReached
  | unbondingTimeIsClose
  | pumpAddressIsNotSet
  | emergencyAddressIsNotSet
  | invalidTransaction
  | icaBalanceZero
  | lsmBondAmountIsBelowMinimum (minStakeAmount bondAmount : ℕ)
  | puppeteerResponseIsNotReceived
  | puppeteerBalanceOutdated (icaHeight puppeteerHeight : ℕ)
  | bondLimitExceeded
  | previousStakingWasFailed
  | paused
  deriving DecidableEq, Repr

/-- A call of the contract. -/
abbrev Result (α : Type) := Exec ContractError α

/-! ## Storage -/

/-- Every storage item of the contract. -/
structure Storage where
  config : Config
  owner : String
  unbondBatchId : ℕ
  unbondBatches : StorageMap ℕ UnbondBatch
  totalLsmShares : ℕ
  pendingLsmShares : StorageMap String (String × ℕ)
  lsmSharesToRedeem : StorageMap String (String × ℕ)
  fsmState : ContractState
  lastIdleCall : ℕ
  lastIcaBalanceChangeHeight : ℕ
  lastPuppeteerResponse : Option ResponseHookMsg
  collectedFees : StorageMap String FeeItem
  failedBatchId : Option ℕ
  preUnbondingBalance : Option ℕ
  pendingTransfer : Option ℕ
  nonNativeRewardsConfig : Option (List NonNativeRewardsItem)
  bondedAmount : ℕ
  lastLsmRedeem : ℕ
  exchangeRate : Option (Decimal × ℕ)
  isPaused : Bool

/-- An empty batch created at `now`. -/
def newUnbond (now : ℕ) : UnbondBatch where
  totalAmount := 0
  expectedAmount := 0
  unbondItems := []
  status := .new
  expectedRelease := 0
  slashingEffect := none
  unbondedAmount := none
  withdrawedAmount := none
  created := now

namespace Storage

/-- `unbond_batches_map().load(id)`. -/
def loadBatch (s : Storage) (id : ℕ) : Result UnbondBatch :=
  orError (s.unbondBatches.load id) (.std (.notFound "UnbondBatch"))

/-- `unbond_batches_map().save(id, batch)`. -/
def saveBatch (s : Storage) (id : ℕ) (batch : UnbondBatch) : Storage :=
  { s with unbondBatches := s.unbondBatches.save id batch }

/-- The batches with the given status, in the order of their ids (the `status` index). -/
def batchesWithStatus (s : Storage) (status : UnbondBatchStatus) : List (ℕ × UnbondBatch) :=
  s.unbondBatches.entries.filter fun e => e.2.status = status

/-- `FSM.go_to(target)`. -/
def goTo (s : Storage) (target : ContractState) : Result Storage := do
  let state ← (FSM.goTo s.fsmState target).mapError .std
  return { s with fsmState := state }

/-- The error of a move that the table does not have. -/
def notAllowed : ContractError := .std Fsm.notAllowed

/-- **A move of the state machine** succeeds exactly when the table has it, and then changes
nothing but the state. -/
theorem goTo_eq_ok {s t : Storage} {target : ContractState} :
    s.goTo target = .ok t ↔
      ⟨s.fsmState, target⟩ ∈ TRANSITIONS ∧ t = { s with fsmState := target } := by
  simp only [goTo, pure_eq_ok, bind_eq_ok, mapError_eq_ok, Fsm.goTo_eq_ok, FSM]
  constructor
  · rintro ⟨_, ⟨hmem, rfl⟩, ht⟩
    exact ⟨hmem, (Except.ok.inj ht).symm⟩
  · rintro ⟨hmem, rfl⟩
    exact ⟨_, ⟨hmem, rfl⟩, rfl⟩

/-- A refused move fails with the error of the state machine. -/
theorem goTo_of_not_mem {s : Storage} {target : ContractState}
    (h : ⟨s.fsmState, target⟩ ∉ TRANSITIONS) : s.goTo target = .error (.error notAllowed) := by
  revert h
  cases hs : s.fsmState <;> cases target <;> simp [TRANSITIONS] <;>
    simp [goTo, Fsm.goTo, FSM, TRANSITIONS, hs, fail, mapError, notAllowed]

/-- A batch is loaded exactly when it is stored. -/
@[simp] theorem loadBatch_eq_ok {s : Storage} {id : ℕ} {b : UnbondBatch} :
    s.loadBatch id = .ok b ↔ s.unbondBatches.load id = some b := by
  simp [loadBatch]

/-- The batches of a status are the stored batches with that status. -/
theorem mem_batchesWithStatus {s : Storage} {status : UnbondBatchStatus} {id : ℕ}
    {b : UnbondBatch} :
    (id, b) ∈ s.batchesWithStatus status ↔
      s.unbondBatches.load id = some b ∧ b.status = status := by
  simp [batchesWithStatus, StorageMap.mem_entries]

end Storage

/-! ## Instantiation -/

/-- The storage after `instantiate` with this configuration and owner, at `now`. The liquid
denomination is not known yet, and a bond limit of zero means none. -/
def instantiate (config : Config) (owner : String) (now : ℕ) : Storage where
  config := { config with
    ldDenom := none
    bondLimit := config.bondLimit.bind fun limit => if limit = 0 then none else some limit }
  owner := owner
  unbondBatchId := 0
  unbondBatches := StorageMap.empty.save 0 (newUnbond now)
  totalLsmShares := 0
  pendingLsmShares := StorageMap.empty
  lsmSharesToRedeem := StorageMap.empty
  fsmState := .idle
  lastIdleCall := 0
  lastIcaBalanceChangeHeight := 0
  lastPuppeteerResponse := none
  collectedFees := StorageMap.empty
  failedBatchId := none
  preUnbondingBalance := none
  pendingTransfer := none
  nonNativeRewardsConfig := none
  bondedAmount := 0
  lastLsmRedeem := 0
  exchangeRate := none
  isPaused := false

end Core

end DropContracts
