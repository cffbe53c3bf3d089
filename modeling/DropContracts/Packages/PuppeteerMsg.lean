import DropContracts.Packages.Cosmos

set_option relaxedAutoImplicit false
set_option autoImplicit false

/-!
# The messages between core and the puppeteer

`packages/puppeteer-base/src/msg.rs` and `packages/base/src/msg/puppeteer.rs`: what can be asked
of the puppeteer, the transaction it remembers while the answer is on its way, the hook it calls
with the outcome, and the query answers it serves.

Of a hook message only the request id and the transaction are kept: no contract reads the packet
or the decoded answers.

## Main definitions

* `Transaction` — a submitted remote transaction.
* `ResponseHookMsg` — the outcome of a transaction, success or error.
* `PuppeteerExecuteMsg` — the requests core sends and the two that anyone may send.
-/

namespace DropContracts

/-- Why tokens are sent to the remote chain. -/
inductive IBCTransferReason where
  | lsmShare
  | stake
  deriving DecidableEq, Repr

/-- A payout of unbonded batches, made together with the claim of rewards. -/
structure TransferReadyBatchesMsg where
  batchIds : List ℕ
  emergency : Bool
  amount : ℕ
  recipient : String
  deriving DecidableEq, Repr

/-- The batches that a payout lists. -/
def listedBatches : Option TransferReadyBatchesMsg → List ℕ
  | some transfer => transfer.batchIds
  | none => []

/-- One liquid-staking share to redeem. -/
structure RedeemShareItem where
  amount : ℕ
  remoteDenom : String
  localDenom : String
  deriving DecidableEq, Repr

/-- A transaction submitted to the remote chain. -/
inductive Transaction where
  | delegate (interchainAccountId denom : String) (items : List (String × ℕ))
  | undelegate (interchainAccountId : String) (items : List (String × ℕ)) (denom : String)
      (batchId : ℕ)
  | redelegate (interchainAccountId validatorFrom validatorTo denom : String) (amount : ℕ)
  | withdrawReward (interchainAccountId validator : String)
  | tokenizeShare (interchainAccountId validator denom : String) (amount : ℕ)
  | redeemShares (interchainAccountId : String) (items : List RedeemShareItem)
  | claimRewardsAndOptionalyTransfer (interchainAccountId : String) (validators : List String)
      (denom : String) (transfer : Option TransferReadyBatchesMsg)
  | ibcTransfer (denom : String) (amount : ℕ) (recipient : String) (reason : IBCTransferReason)
  | transfer (interchainAccountId : String) (items : List (String × Coin))
  deriving DecidableEq, Repr

/-- The batches that a transaction pays out. -/
def Transaction.batchIds : Transaction → List ℕ
  | .claimRewardsAndOptionalyTransfer _ _ _ payout => listedBatches payout
  | _ => []

/-- The hook message of a transaction that succeeded. -/
structure ResponseHookSuccessMsg where
  requestId : ℕ
  transaction : Transaction
  deriving DecidableEq, Repr

/-- The hook message of a transaction that failed or timed out. -/
structure ResponseHookErrorMsg where
  requestId : ℕ
  transaction : Transaction
  details : String
  deriving DecidableEq, Repr

/-- The outcome of a transaction. -/
inductive ResponseHookMsg where
  | success (msg : ResponseHookSuccessMsg)
  | error (msg : ResponseHookErrorMsg)
  deriving DecidableEq, Repr

namespace ResponseHookMsg

/-- The transaction an outcome is about. -/
def transaction : ResponseHookMsg → Transaction
  | success msg => msg.transaction
  | error msg => msg.transaction

/-- The request an outcome answers. -/
def requestId : ResponseHookMsg → ℕ
  | success msg => msg.requestId
  | error msg => msg.requestId

/-- Whether an outcome is an error. -/
def isError : ResponseHookMsg → Bool
  | success _ => false
  | error _ => true

/-- The batches that an outcome says have been paid out. -/
def paidBatches : ResponseHookMsg → List ℕ
  | success msg => msg.transaction.batchIds
  | error _ => []

end ResponseHookMsg

/-- The fees of one packet, in the local denomination. -/
structure IbcFee where
  recvFee : ℕ
  ackFee : ℕ
  timeoutFee : ℕ
  deriving DecidableEq, Repr

/-- The requests the puppeteer serves here: the remote transactions, and the two requests of the
base contract that set the interchain account and the fees up. -/
inductive PuppeteerExecuteMsg where
  | registerICA
  | setFees (recvFee ackFee timeoutFee registerFee : ℕ)
  | delegate (items : List (String × ℕ)) (timeout : Option ℕ) (replyTo : String)
  | undelegate (items : List (String × ℕ)) (batchId : ℕ) (timeout : Option ℕ) (replyTo : String)
  | redelegate (validatorFrom validatorTo : String) (amount : ℕ) (timeout : Option ℕ)
      (replyTo : String)
  | tokenizeShare (validator : String) (amount : ℕ) (timeout : Option ℕ) (replyTo : String)
  | redeemShares (items : List RedeemShareItem) (timeout : Option ℕ) (replyTo : String)
  | ibcTransfer (timeout : ℕ) (reason : IBCTransferReason) (replyTo : String)
  | transfer (items : List (String × Coin)) (timeout : Option ℕ) (replyTo : String)
  | claimRewardsAndOptionalyTransfer (validators : List String)
      (transfer : Option TransferReadyBatchesMsg) (timeout : Option ℕ) (replyTo : String)
  deriving DecidableEq, Repr

/-! ## Query answers -/

/-- A delegation of the interchain account. -/
structure Delegation where
  delegator : String
  validator : String
  amount : Coin
  deriving DecidableEq, Repr

/-- The delegations, and the local height and time they were stored at. -/
abbrev DelegationsResponse := List Delegation × ℕ × Timestamp

/-- The balances of the interchain account, and the local height and time they were stored at. -/
abbrev BalancesResponse := List Coin × ℕ × Timestamp

/-- The validators the strategy changes stakes of, with the change. -/
structure IdealDelegation where
  valoperAddress : String
  idealStake : ℕ
  currentStake : ℕ
  stakeChange : ℕ
  weight : ℕ
  deriving DecidableEq, Repr

/-- A member of the validator set. -/
structure ValidatorInfo where
  valoperAddress : String
  weight : ℕ
  deriving DecidableEq, Repr

end DropContracts
