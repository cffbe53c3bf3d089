import DropContracts.Packages.PuppeteerMsg

set_option relaxedAutoImplicit false
set_option autoImplicit false

/-!
# The puppeteer contract

`contracts/puppeteer/src/contract.rs` over `packages/puppeteer-base` and
`packages/helpers/src/ica.rs`. The puppeteer holds an account on the remote chain. It takes one
transaction at a time from its allowed senders, submits it, and when the outcome arrives it reports
it to the address that the request named. The protobuf encoding of the remote messages is left out.

## Main definitions

* `Puppeteer.Storage` — the storage items, with `Puppeteer.TxState` and `Puppeteer.IcaState`.
* `Puppeteer.submitTx`, `Puppeteer.executeIbcTransfer`, `Puppeteer.execute` — the requests.
* `Puppeteer.submitTxReply` — the reply that learns the sequence number.
* `Puppeteer.sudoResponse`, `Puppeteer.sudoError`, `Puppeteer.sudoTimeout` — the outcomes.
* `Puppeteer.ExecuteCase` — the things a successful request can do.

## Main results

* `Puppeteer.execute_ok` — a request that returns does one of the things of `ExecuteCase`.
* `Puppeteer.sudoResponse_eq_ok`, `Puppeteer.sudoError_eq_ok`, `Puppeteer.sudoTimeout_eq_ok`.
-/

namespace DropContracts

namespace Puppeteer

open Exec

/-! ## Data -/

/-- The denomination of fees, which is never sent to the remote chain. -/
def LOCAL_DENOM : String := "untrn"

/-- The name of the interchain account. -/
def ICA_ID : String := "DROP"

/-- The timeout of a transaction that asks for none. -/
def DEFAULT_TIMEOUT_SECONDS : ℕ := 60

/-- The configuration. -/
structure Config where
  connectionId : String
  portId : String
  updatePeriod : ℕ
  remoteDenom : String
  owner : String
  allowedSenders : List String
  proxyAddress : Option String
  transferChannelId : String
  sdkVersion : String
  deriving DecidableEq, Repr

/-- The state of the interchain account. -/
inductive IcaState where
  | none
  | inProgress
  | timeout
  | registered (icaAddress : String)
  deriving DecidableEq, Repr

/-- The phase of the current transaction. -/
inductive TxStateStatus where
  | idle
  | inProgress
  | waitingForAck
  deriving DecidableEq, Repr

/-- The current transaction. -/
structure TxState where
  status : TxStateStatus
  seqId : Option ℕ
  transaction : Option Transaction
  replyTo : Option String
  deriving DecidableEq, Repr

/-- The state without a transaction. -/
def TxState.empty : TxState := ⟨.idle, none, none, none⟩

/-- What the balance and delegations query has found. -/
structure BalancesAndDelegations where
  balances : List Coin
  delegations : List Delegation
  deriving DecidableEq, Repr

/-- The storage items. -/
structure Storage where
  config : Config
  ica : IcaState
  txState : Option TxState
  ibcFee : Option IbcFee
  registerFee : Option Coin
  delegationsAndBalance : BalancesAndDelegations × ℕ × Timestamp
  nonNativeRewardBalances : Option (List Coin × ℕ × Timestamp)
  deriving DecidableEq, Repr

/-- The errors of the contract. -/
inductive ContractError where
  | std (e : StdError)
  | neutronError (e : StdError)
  | unauthorized
  | invalidFunds (reason : String)
  deriving DecidableEq, Repr

/-- A call of the contract. -/
abbrev Result (α : Type) := Exec ContractError α

/-- A message for the remote chain. -/
inductive RemoteMsg where
  | delegate (delegator validator : String) (amount : Coin)
  | undelegate (delegator validator : String) (amount : Coin)
  | beginRedelegate (delegator validatorSrc validatorDst : String) (amount : Coin)
  | tokenizeShares (delegator validator tokenizedShareOwner : String) (amount : Coin)
  | redeemTokensForShares (delegator : String) (amount : Coin)
  | send (fromAddress toAddress : String) (amount : List Coin)
  | withdrawDelegatorReward (delegator validator : String)
  deriving DecidableEq, Repr

/-- A message to the local chain. The first two are answered by a reply with a sequence number. -/
inductive NeutronMsg where
  | submitTx (connectionId interchainAccountId : String) (msgs : List RemoteMsg) (timeout : ℕ)
      (fee : IbcFee)
  | ibcTransfer (sourcePort sourceChannel : String) (token : Coin) (sender receiver : String)
      (timeoutTimestamp : ℕ) (fee : IbcFee)
  | registerInterchainAccount (connectionId interchainAccountId : String) (registerFee : Coin)
  deriving DecidableEq, Repr

/-- The storage after `instantiate`. -/
def instantiate (config : Config) : Storage where
  config := config
  ica := .none
  txState := none
  ibcFee := none
  registerFee := none
  delegationsAndBalance := (⟨[], []⟩, 0, ⟨0⟩)
  nonNativeRewardBalances := none

/-! ## Queries -/

/-- `query_delegations`. -/
def queryDelegations (s : Storage) : DelegationsResponse :=
  (s.delegationsAndBalance.1.delegations, s.delegationsAndBalance.2)

/-- `query_balances`. -/
def queryBalances (s : Storage) : BalancesResponse :=
  (s.delegationsAndBalance.1.balances, s.delegationsAndBalance.2)

/-- `query_non_native_rewards_balances`, which fails until a first result was stored. -/
def queryNonNativeRewardsBalances (s : Storage) : Except String BalancesResponse :=
  match s.nonNativeRewardBalances with
  | some balances => .ok balances
  | none => .error "non_native_reward_balances not found"

/-! ## Requests -/

/-- The text of a transaction state. -/
def TxStateStatus.text : TxStateStatus → String
  | idle => "Idle"
  | inProgress => "InProgress"
  | waitingForAck => "WaitingForAck"

/-- The stored transaction state, or the default. -/
def Storage.currentTxState (s : Storage) : TxState := s.txState.getD TxState.empty

/-- `validate_tx_state`. -/
def validateTxState (s : Storage) (status : TxStateStatus) : Result Unit :=
  ensure (s.currentTxState.status = status) (.neutronError (.genericErr
    ("Transaction txState is not equal to expected: " ++ status.text)))

/-- `validate_sender`. -/
def validateSender (config : Config) (sender : String) : Result Unit :=
  ensure (sender ∈ config.allowedSenders) (.std (.genericErr "Sender is not allowed"))

/-- `Ica::get_address`. -/
def getAddress : IcaState → Result String
  | .registered icaAddress => .ok icaAddress
  | .none => fail (.std (.genericErr
      "Interchain account is not registered. Please register it first"))
  | .inProgress => fail (.std (.genericErr
      "Interchain account registration in progress. Please wait until it is finished"))
  | .timeout => fail (.std (.genericErr
      "Interchain account registration timed out. Please register it again"))

/-- `addr_validate`. -/
def validateAddr (addrValidate : String → Bool) (address : String) : Result Unit :=
  ensure (addrValidate address = true) (.std (.genericErr "addr_validate errored"))

/-- `msg_with_sudo_callback`: the transaction is in progress until the reply. -/
def msgWithSudoCallback (s : Storage) (transaction : Transaction) (replyTo : String) : Storage :=
  { s with txState := some ⟨.inProgress, none, some transaction, some replyTo⟩ }

/-- `compose_submsg`. -/
def composeSubmsg (s : Storage) (anyMsgs : List RemoteMsg) (transaction : Transaction)
    (timeout : Option ℕ) (replyTo : String) : Result (Storage × NeutronMsg) := do
  let ibcFee ← orError s.ibcFee (.std (.notFound "ibc_fee"))
  return (msgWithSudoCallback s transaction replyTo,
    .submitTx s.config.connectionId ICA_ID anyMsgs (timeout.getD DEFAULT_TIMEOUT_SECONDS) ibcFee)

/-- The requests of one shape: check the reply address, the sender, the transaction state and the
account, then submit the messages that `anyMsgs` builds for the account. -/
def submitTx (s : Storage) (addrValidate : String → Bool) (info : MessageInfo)
    (anyMsgs : String → List RemoteMsg) (transaction : Transaction) (timeout : Option ℕ)
    (replyTo : String) : Result (Storage × NeutronMsg) := do
  validateAddr addrValidate replyTo
  validateSender s.config info.sender
  validateTxState s .idle
  let ica ← getAddress s.ica
  composeSubmsg s (anyMsgs ica) transaction timeout replyTo

section Requests

variable (s : Storage) (addrValidate : String → Bool) (info : MessageInfo)

/-- `execute_delegate`. -/
def executeDelegate (items : List (String × ℕ)) (timeout : Option ℕ) (replyTo : String) :
    Result (Storage × NeutronMsg) :=
  submitTx s addrValidate info
    (fun ica => items.map fun item => .delegate ica item.1 ⟨s.config.remoteDenom, item.2⟩)
    (.delegate ICA_ID s.config.remoteDenom items) timeout replyTo

/-- `execute_undelegate`. -/
def executeUndelegate (items : List (String × ℕ)) (batchId : ℕ) (timeout : Option ℕ)
    (replyTo : String) : Result (Storage × NeutronMsg) :=
  submitTx s addrValidate info
    (fun ica => items.map fun item => .undelegate ica item.1 ⟨s.config.remoteDenom, item.2⟩)
    (.undelegate ICA_ID items s.config.remoteDenom batchId) timeout replyTo

/-- `execute_redelegate`. -/
def executeRedelegate (validatorFrom validatorTo : String) (amount : ℕ) (timeout : Option ℕ)
    (replyTo : String) : Result (Storage × NeutronMsg) :=
  submitTx s addrValidate info
    (fun ica => [.beginRedelegate ica validatorFrom validatorTo ⟨s.config.remoteDenom, amount⟩])
    (.redelegate ICA_ID validatorFrom validatorTo s.config.remoteDenom amount) timeout replyTo

/-- `execute_tokenize_share`. -/
def executeTokenizeShare (validator : String) (amount : ℕ) (timeout : Option ℕ)
    (replyTo : String) : Result (Storage × NeutronMsg) :=
  submitTx s addrValidate info
    (fun ica => [.tokenizeShares ica validator ica ⟨s.config.remoteDenom, amount⟩])
    (.tokenizeShare ICA_ID validator s.config.remoteDenom amount) timeout replyTo

/-- `execute_transfer`. -/
def executeTransfer (items : List (String × Coin)) (timeout : Option ℕ) (replyTo : String) :
    Result (Storage × NeutronMsg) :=
  submitTx s addrValidate info
    (fun ica => items.map fun item => .send ica item.1 [item.2])
    (.transfer ICA_ID items) timeout replyTo

/-- The bank message of a payout. -/
def payoutMsgs (remoteDenom ica : String) : Option TransferReadyBatchesMsg → List RemoteMsg
  | some payout => [.send ica payout.recipient [⟨remoteDenom, payout.amount⟩]]
  | none => []

/-- `execute_claim_rewards_and_optionaly_transfer`. -/
def executeClaimRewardsAndOptionalyTransfer (validators : List String)
    (payout : Option TransferReadyBatchesMsg) (timeout : Option ℕ) (replyTo : String) :
    Result (Storage × NeutronMsg) :=
  submitTx s addrValidate info
    (fun ica => payoutMsgs s.config.remoteDenom ica payout ++
      validators.map fun validator => .withdrawDelegatorReward ica validator)
    (.claimRewardsAndOptionalyTransfer ICA_ID validators s.config.remoteDenom payout) timeout
    replyTo

/-- `execute_redeem_shares`, which checks the transaction state before the sender. -/
def executeRedeemShares (items : List RedeemShareItem) (timeout : Option ℕ) (replyTo : String) :
    Result (Storage × NeutronMsg) := do
  validateAddr addrValidate replyTo
  validateTxState s .idle
  validateSender s.config info.sender
  let ica ← getAddress s.ica
  composeSubmsg s
    (items.map fun one => .redeemTokensForShares ica ⟨one.remoteDenom, one.amount⟩)
    (.redeemShares ICA_ID items) timeout replyTo

/-- The only coin of a list. -/
def onlyCoin : List Coin → Result Coin
  | [coin] => .ok coin
  | _ => fail (.invalidFunds "Only one coin is allowed")

/-- `execute_ibc_transfer`: the one attached coin that is not a fee goes to the account. -/
def executeIbcTransfer (env : Env) (reason : IBCTransferReason) (timeout : ℕ)
    (replyTo : String) : Result (Storage × NeutronMsg) := do
  validateSender s.config info.sender
  validateTxState s .idle
  let coin ← onlyCoin (info.funds.filter fun f => f.denom ≠ LOCAL_DENOM)
  let icaAddress ← getAddress s.ica
  let timeoutTime ← env.time.plusSeconds timeout
  let fee ← orError s.ibcFee (.std (.notFound "ibc_fee"))
  return (msgWithSudoCallback s (.ibcTransfer coin.denom coin.amount icaAddress reason) replyTo,
    .ibcTransfer s.config.portId s.config.transferChannelId coin env.contractAddress icaAddress
      timeoutTime.nanos fee)

/-- `execute_register_ica`. -/
def executeRegisterIca : Result (Storage × NeutronMsg) := do
  let registerFee ← orError s.registerFee (.std (.notFound "register_fee"))
  match s.ica with
  | .inProgress => fail (.std (.genericErr "ICA registration is in progress right now"))
  | .registered _ => fail (.std (.genericErr "ICA is already registered"))
  | .timeout | .none =>
    return ({ s with ica := .inProgress },
      .registerInterchainAccount s.config.connectionId ICA_ID registerFee)

/-- `execute_set_fees`. -/
def executeSetFees (recvFee ackFee timeoutFee registerFee : ℕ) : Result Storage := do
  ensure (s.config.owner = info.sender) .unauthorized
  return { s with
    ibcFee := some ⟨recvFee, ackFee, timeoutFee⟩
    registerFee := some ⟨LOCAL_DENOM, registerFee⟩ }

/-- A request that sends one message. -/
def sending (x : Result (Storage × NeutronMsg)) : Result (Storage × Option NeutronMsg) := do
  let (s, msg) ← x
  return (s, some msg)

/-- A request that sends nothing. -/
def silently (x : Result Storage) : Result (Storage × Option NeutronMsg) := do
  let s ← x
  return (s, none)

/-- `execute`. -/
def execute (env : Env) : PuppeteerExecuteMsg → Result (Storage × Option NeutronMsg)
  | .registerICA => sending (executeRegisterIca s)
  | .setFees recvFee ackFee timeoutFee registerFee =>
    silently (executeSetFees s info recvFee ackFee timeoutFee registerFee)
  | .delegate items timeout replyTo =>
    sending (executeDelegate s addrValidate info items timeout replyTo)
  | .undelegate items batchId timeout replyTo =>
    sending (executeUndelegate s addrValidate info items batchId timeout replyTo)
  | .redelegate validatorFrom validatorTo amount timeout replyTo =>
    sending (executeRedelegate s addrValidate info validatorFrom validatorTo amount timeout
      replyTo)
  | .tokenizeShare validator amount timeout replyTo =>
    sending (executeTokenizeShare s addrValidate info validator amount timeout replyTo)
  | .redeemShares items timeout replyTo =>
    sending (executeRedeemShares s addrValidate info items timeout replyTo)
  | .ibcTransfer timeout reason replyTo =>
    sending (executeIbcTransfer s info env reason timeout replyTo)
  | .transfer items timeout replyTo =>
    sending (executeTransfer s addrValidate info items timeout replyTo)
  | .claimRewardsAndOptionalyTransfer validators payout timeout replyTo =>
    sending (executeClaimRewardsAndOptionalyTransfer s addrValidate info validators payout timeout
      replyTo)

end Requests

/-! ## Replies and outcomes -/

/-- `submit_tx_reply`: the transaction now waits for the acknowledgement of packet `seq`. -/
def submitTxReply (s : Storage) (seq : ℕ) : Result Storage := do
  let txState ← orError s.txState (.std (.notFound "sudo_payload"))
  return { s with txState := some { txState with seqId := some seq, status := .waitingForAck } }

/-- The report of an outcome, and the address it goes to. -/
structure Report where
  receiver : String
  msg : ResponseHookMsg
  deriving DecidableEq, Repr

/-- `sudo_response` for the packet `seq`. -/
def sudoResponse (s : Storage) (seq : ℕ) : Result (Storage × Report) := do
  let txState ← orError s.txState (.std (.notFound "sudo_payload"))
  validateTxState s .waitingForAck
  let replyTo ← orError txState.replyTo (.std (.genericErr "reply_to not found"))
  let transaction ← orError txState.transaction (.std (.genericErr "transaction not found"))
  return ({ s with txState := some TxState.empty }, ⟨replyTo, .success ⟨seq, transaction⟩⟩)

/-- `sudo_error` for the packet `seq`. -/
def sudoError (s : Storage) (seq : ℕ) (details : String) : Result (Storage × Report) := do
  let txState ← orError s.txState (.std (.notFound "sudo_payload"))
  validateTxState s .waitingForAck
  let transaction ← orError txState.transaction (.std (.genericErr "transaction not found"))
  let replyTo ← orError txState.replyTo (.std (.genericErr "reply_to not found"))
  return ({ s with txState := some TxState.empty }, ⟨replyTo, .error ⟨seq, transaction, details⟩⟩)

/-- `sudo_timeout` for the packet `seq`. The account is marked as timed out. -/
def sudoTimeout (s : Storage) (seq : ℕ) : Result (Storage × Report) := do
  let txState ← orError s.txState (.std (.notFound "sudo_payload"))
  let transaction ← orError txState.transaction (.std (.genericErr "transaction not found"))
  validateTxState s .waitingForAck
  let replyTo ← orError txState.replyTo (.std (.genericErr "reply_to not found"))
  return ({ s with ica := .timeout, txState := some TxState.empty },
    ⟨replyTo, .error ⟨seq, transaction, "Timeout"⟩⟩)

/-- `sudo_open_ack`, with the address that the counterparty version holds, if it can be parsed. -/
def sudoOpenAck (s : Storage) (address : Option String) : Result Storage := do
  let address ← orError address (.neutronError (.genericErr "can't parse version"))
  return { s with ica := .registered address }

/-- `sudo_kv_query_result` of the query for balances and delegations. -/
def sudoDelegationsAndBalance (s : Storage) (env : Env) (data : BalancesAndDelegations) :
    Storage :=
  { s with delegationsAndBalance := (data, env.height, env.time) }

/-- `sudo_kv_query_result` of the query for the balances of non-native rewards. -/
def sudoNonNativeRewardsBalances (s : Storage) (env : Env) (coins : List Coin) : Storage :=
  { s with nonNativeRewardBalances := some (coins, env.height, env.time) }

/-! ## What a request can do -/

/-- The transaction that a request submits, and where its outcome is reported. -/
inductive Requests (config : Config) (ica : String) (funds : List Coin) :
    PuppeteerExecuteMsg → Transaction → String → Prop
  | delegate (items : List (String × ℕ)) (timeout : Option ℕ) (replyTo : String) :
      Requests config ica funds (.delegate items timeout replyTo)
        (.delegate ICA_ID config.remoteDenom items) replyTo
  | undelegate (items : List (String × ℕ)) (batchId : ℕ) (timeout : Option ℕ)
      (replyTo : String) :
      Requests config ica funds (.undelegate items batchId timeout replyTo)
        (.undelegate ICA_ID items config.remoteDenom batchId) replyTo
  | redelegate (validatorFrom validatorTo : String) (amount : ℕ) (timeout : Option ℕ)
      (replyTo : String) :
      Requests config ica funds (.redelegate validatorFrom validatorTo amount timeout replyTo)
        (.redelegate ICA_ID validatorFrom validatorTo config.remoteDenom amount) replyTo
  | tokenizeShare (validator : String) (amount : ℕ) (timeout : Option ℕ) (replyTo : String) :
      Requests config ica funds (.tokenizeShare validator amount timeout replyTo)
        (.tokenizeShare ICA_ID validator config.remoteDenom amount) replyTo
  | redeemShares (items : List RedeemShareItem) (timeout : Option ℕ) (replyTo : String) :
      Requests config ica funds (.redeemShares items timeout replyTo)
        (.redeemShares ICA_ID items) replyTo
  | transfer (items : List (String × Coin)) (timeout : Option ℕ) (replyTo : String) :
      Requests config ica funds (.transfer items timeout replyTo) (.transfer ICA_ID items) replyTo
  | claim (validators : List String) (payout : Option TransferReadyBatchesMsg)
      (timeout : Option ℕ) (replyTo : String) :
      Requests config ica funds
        (.claimRewardsAndOptionalyTransfer validators payout timeout replyTo)
        (.claimRewardsAndOptionalyTransfer ICA_ID validators config.remoteDenom payout) replyTo
  | ibcTransfer (coin : Coin) (timeout : ℕ) (reason : IBCTransferReason) (replyTo : String)
      (hcoin : (funds.filter fun f => f.denom ≠ LOCAL_DENOM) = [coin]) :
      Requests config ica funds (.ibcTransfer timeout reason replyTo)
        (.ibcTransfer coin.denom coin.amount ica reason) replyTo

/-- Whether the chain answers a message with a sequence number. -/
def NeutronMsg.isPacket : NeutronMsg → Bool
  | submitTx .. => true
  | ibcTransfer .. => true
  | registerInterchainAccount .. => false

/-- The things a request that returns can have done. -/
inductive ExecuteCase (s : Storage) (info : MessageInfo) :
    PuppeteerExecuteMsg → Storage → Option NeutronMsg → Prop
  | registerICA (registerFee : Coin) (hfee : s.registerFee = some registerFee)
      (hica : s.ica = .timeout ∨ s.ica = .none) :
      ExecuteCase s info .registerICA { s with ica := .inProgress }
        (some (.registerInterchainAccount s.config.connectionId ICA_ID registerFee))
  | setFees (recvFee ackFee timeoutFee registerFee : ℕ) (howner : s.config.owner = info.sender) :
      ExecuteCase s info (.setFees recvFee ackFee timeoutFee registerFee)
        { s with
          ibcFee := some ⟨recvFee, ackFee, timeoutFee⟩
          registerFee := some ⟨LOCAL_DENOM, registerFee⟩ } none
  | submit (msg : PuppeteerExecuteMsg) (transaction : Transaction) (replyTo ica : String)
      (fee : IbcFee) (neutronMsg : NeutronMsg)
      (hrequests : Requests s.config ica info.funds msg transaction replyTo)
      (hsender : info.sender ∈ s.config.allowedSenders) (hidle : s.currentTxState.status = .idle)
      (hica : s.ica = .registered ica) (hfee : s.ibcFee = some fee)
      (hpacket : neutronMsg.isPacket = true) :
      ExecuteCase s info msg (msgWithSudoCallback s transaction replyTo) (some neutronMsg)

section Cases

variable {s s' : Storage} {addrValidate : String → Bool} {info : MessageInfo} {env : Env}

/-- The address is known exactly when the account is registered. -/
@[simp] theorem getAddress_eq_ok {ica : IcaState} {address : String} :
    getAddress ica = .ok address ↔ ica = .registered address := by
  cases ica <;> simp [getAddress]

/-- A state is validated exactly when it is the current one. -/
@[simp] theorem validateTxState_eq_ok {status : TxStateStatus} {u : Unit} :
    validateTxState s status = .ok u ↔ s.currentTxState.status = status := by
  simp [validateTxState]

/-- The only coin is returned exactly when there is only one. -/
@[simp] theorem onlyCoin_eq_ok {coins : List Coin} {coin : Coin} :
    onlyCoin coins = .ok coin ↔ coins = [coin] := by
  unfold onlyCoin
  split <;> simp_all

/-- A submission returns exactly when all checks pass, and then the transaction is in progress. -/
theorem submitTx_eq_ok {anyMsgs : String → List RemoteMsg} {transaction : Transaction}
    {timeout : Option ℕ} {replyTo : String} {m : NeutronMsg} :
    submitTx s addrValidate info anyMsgs transaction timeout replyTo = .ok (s', m) ↔
      addrValidate replyTo = true ∧ info.sender ∈ s.config.allowedSenders ∧
      s.currentTxState.status = .idle ∧
      ∃ ica fee, s.ica = .registered ica ∧ s.ibcFee = some fee ∧
        s' = msgWithSudoCallback s transaction replyTo ∧
        m = .submitTx s.config.connectionId ICA_ID (anyMsgs ica)
          (timeout.getD DEFAULT_TIMEOUT_SECONDS) fee := by
  simp only [submitTx, validateAddr, validateSender, composeSubmsg, bind_eq_ok, ensure_eq_ok,
    validateTxState_eq_ok, getAddress_eq_ok, orError_eq_ok, pure_eq_ok, Except.ok.injEq,
    Prod.mk.injEq]
  constructor
  · rintro ⟨-, haddr, -, hsender, -, hidle, ica, hica, fee, hfee, rfl, rfl⟩
    exact ⟨haddr, hsender, hidle, ica, fee, hica, hfee, rfl, rfl⟩
  · rintro ⟨haddr, hsender, hidle, ica, fee, hica, hfee, rfl, rfl⟩
    exact ⟨(), haddr, (), hsender, (), hidle, ica, hica, fee, hfee, rfl, rfl⟩

/-- A submission of what a request asks for is one of the cases. -/
theorem executeCase_of_submitTx {anyMsgs : String → List RemoteMsg} {transaction : Transaction}
    {timeout : Option ℕ} {replyTo : String} {m : Option NeutronMsg} {msg : PuppeteerExecuteMsg}
    (hrequests : ∀ ica, Requests s.config ica info.funds msg transaction replyTo)
    (h : sending (submitTx s addrValidate info anyMsgs transaction timeout replyTo) =
      .ok (s', m)) : ExecuteCase s info msg s' m := by
  simp only [sending, bind_eq_ok, pure_eq_ok, Except.ok.injEq, Prod.mk.injEq] at h
  obtain ⟨⟨_, m'⟩, h, rfl, rfl⟩ := h
  obtain ⟨-, hsender, hidle, ica, fee, hica, hfee, rfl, rfl⟩ := submitTx_eq_ok.1 h
  exact .submit msg transaction replyTo ica fee _ (hrequests ica) hsender hidle hica hfee rfl

/-- An IBC transfer that returns has a timeout that can be computed. -/
theorem expires_of_execute {timeout : ℕ} {reason : IBCTransferReason} {replyTo : String}
    {m : Option NeutronMsg}
    (h : execute s addrValidate info env (.ibcTransfer timeout reason replyTo) = .ok (s', m)) :
    env.time.nanos + timeout * nanosPerSecond < U64.bound := by
  simp only [execute, sending, executeIbcTransfer, Timestamp.plusSeconds, bind_eq_ok,
    checkedMul_eq_ok, checkedAdd_eq_ok] at h
  obtain ⟨_, ⟨-, -, -, -, -, -, -, -, _, ⟨_, ⟨rfl, -⟩, _, ⟨rfl, hfit⟩, -⟩, -⟩, -⟩ := h
  exact hfit

/-- **Everything a request can do**: register the account, set the fees, or submit the requested
transaction, which needs an allowed sender and no other transaction. -/
theorem execute_ok {msg : PuppeteerExecuteMsg} {m : Option NeutronMsg}
    (h : execute s addrValidate info env msg = .ok (s', m)) : ExecuteCase s info msg s' m := by
  cases msg with
  | registerICA =>
    simp only [execute, sending, executeRegisterIca, bind_eq_ok, orError_eq_ok, pure_eq_ok,
      Except.ok.injEq, Prod.mk.injEq] at h
    obtain ⟨⟨t, m'⟩, ⟨fee, hfee, h⟩, rfl, rfl⟩ := h
    cases hica : s.ica with
    | inProgress => simp [hica] at h
    | registered _ => simp [hica] at h
    | timeout =>
      simp only [hica, Except.ok.injEq, Prod.mk.injEq] at h
      obtain ⟨rfl, rfl⟩ := h
      exact .registerICA fee hfee (.inl hica)
    | none =>
      simp only [hica, Except.ok.injEq, Prod.mk.injEq] at h
      obtain ⟨rfl, rfl⟩ := h
      exact .registerICA fee hfee (.inr hica)
  | setFees recvFee ackFee timeoutFee registerFee =>
    simp only [execute, silently, executeSetFees, bind_eq_ok, ensure_eq_ok, pure_eq_ok,
      Except.ok.injEq, Prod.mk.injEq] at h
    obtain ⟨_, ⟨-, howner, rfl⟩, rfl, rfl⟩ := h
    exact .setFees recvFee ackFee timeoutFee registerFee howner
  | delegate items timeout replyTo =>
    exact executeCase_of_submitTx (fun _ => .delegate items timeout replyTo) h
  | undelegate items batchId timeout replyTo =>
    exact executeCase_of_submitTx (fun _ => .undelegate items batchId timeout replyTo) h
  | redelegate validatorFrom validatorTo amount timeout replyTo =>
    exact executeCase_of_submitTx
      (fun _ => .redelegate validatorFrom validatorTo amount timeout replyTo) h
  | tokenizeShare validator amount timeout replyTo =>
    exact executeCase_of_submitTx (fun _ => .tokenizeShare validator amount timeout replyTo) h
  | transfer items timeout replyTo =>
    exact executeCase_of_submitTx (fun _ => .transfer items timeout replyTo) h
  | claimRewardsAndOptionalyTransfer validators payout timeout replyTo =>
    exact executeCase_of_submitTx (fun _ => .claim validators payout timeout replyTo) h
  | redeemShares items timeout replyTo =>
    simp only [execute, sending, executeRedeemShares, validateAddr, validateSender,
      composeSubmsg, bind_eq_ok, ensure_eq_ok, validateTxState_eq_ok, getAddress_eq_ok,
      orError_eq_ok, pure_eq_ok, Except.ok.injEq, Prod.mk.injEq] at h
    obtain ⟨⟨_, _⟩, ⟨-, -, -, hidle, -, hsender, ica, hica, fee, hfee, rfl, rfl⟩, rfl, rfl⟩ := h
    exact .submit _ _ replyTo ica fee _ (.redeemShares items timeout replyTo) hsender hidle hica
      hfee rfl
  | ibcTransfer timeout reason replyTo =>
    simp only [execute, sending, executeIbcTransfer, validateSender, bind_eq_ok, ensure_eq_ok,
      validateTxState_eq_ok, onlyCoin_eq_ok, getAddress_eq_ok, orError_eq_ok, pure_eq_ok,
      Except.ok.injEq, Prod.mk.injEq] at h
    obtain ⟨⟨_, _⟩, ⟨-, hsender, -, hidle, coin, hcoin, ica, hica, time, -, fee, hfee, rfl, rfl⟩,
      rfl, rfl⟩ := h
    exact .submit _ _ replyTo ica fee _ (.ibcTransfer coin timeout reason replyTo hcoin) hsender
      hidle hica hfee rfl

/-- The outcome of a waiting transaction is reported to the address its request named. -/
theorem sudoResponse_eq_ok {seq : ℕ} {r : Report} :
    sudoResponse s seq = .ok (s', r) ↔
      ∃ txState transaction replyTo, s.txState = some txState ∧
        txState.status = .waitingForAck ∧ txState.transaction = some transaction ∧
        txState.replyTo = some replyTo ∧ s' = { s with txState := some TxState.empty } ∧
        r = ⟨replyTo, .success ⟨seq, transaction⟩⟩ := by
  simp only [sudoResponse, bind_eq_ok, orError_eq_ok, validateTxState_eq_ok, pure_eq_ok,
    Except.ok.injEq, Prod.mk.injEq, Storage.currentTxState]
  constructor
  · rintro ⟨tx, htx, -, hstatus, replyTo, hreply, transaction, htrans, rfl, rfl⟩
    rw [htx] at hstatus
    exact ⟨tx, transaction, replyTo, htx, hstatus, htrans, hreply, rfl, rfl⟩
  · rintro ⟨tx, transaction, replyTo, htx, hstatus, htrans, hreply, rfl, rfl⟩
    exact ⟨tx, htx, (), by rw [htx]; exact hstatus, replyTo, hreply, transaction, htrans, rfl,
      rfl⟩

/-- The failure of a waiting transaction is reported to the address its request named. -/
theorem sudoError_eq_ok {seq : ℕ} {details : String} {r : Report} :
    sudoError s seq details = .ok (s', r) ↔
      ∃ txState transaction replyTo, s.txState = some txState ∧
        txState.status = .waitingForAck ∧ txState.transaction = some transaction ∧
        txState.replyTo = some replyTo ∧ s' = { s with txState := some TxState.empty } ∧
        r = ⟨replyTo, .error ⟨seq, transaction, details⟩⟩ := by
  simp only [sudoError, bind_eq_ok, orError_eq_ok, validateTxState_eq_ok, pure_eq_ok,
    Except.ok.injEq, Prod.mk.injEq, Storage.currentTxState]
  constructor
  · rintro ⟨tx, htx, -, hstatus, transaction, htrans, replyTo, hreply, rfl, rfl⟩
    rw [htx] at hstatus
    exact ⟨tx, transaction, replyTo, htx, hstatus, htrans, hreply, rfl, rfl⟩
  · rintro ⟨tx, transaction, replyTo, htx, hstatus, htrans, hreply, rfl, rfl⟩
    exact ⟨tx, htx, (), by rw [htx]; exact hstatus, transaction, htrans, replyTo, hreply, rfl,
      rfl⟩

/-- The timeout of a waiting transaction is reported as a failure, and the account is marked. -/
theorem sudoTimeout_eq_ok {seq : ℕ} {r : Report} :
    sudoTimeout s seq = .ok (s', r) ↔
      ∃ txState transaction replyTo, s.txState = some txState ∧
        txState.status = .waitingForAck ∧ txState.transaction = some transaction ∧
        txState.replyTo = some replyTo ∧
        s' = { s with ica := .timeout, txState := some TxState.empty } ∧
        r = ⟨replyTo, .error ⟨seq, transaction, "Timeout"⟩⟩ := by
  simp only [sudoTimeout, bind_eq_ok, orError_eq_ok, validateTxState_eq_ok, pure_eq_ok,
    Except.ok.injEq, Prod.mk.injEq, Storage.currentTxState]
  constructor
  · rintro ⟨tx, htx, transaction, htrans, -, hstatus, replyTo, hreply, rfl, rfl⟩
    rw [htx] at hstatus
    exact ⟨tx, transaction, replyTo, htx, hstatus, htrans, hreply, rfl, rfl⟩
  · rintro ⟨tx, transaction, replyTo, htx, hstatus, htrans, hreply, rfl, rfl⟩
    exact ⟨tx, htx, transaction, htrans, (), by rw [htx]; exact hstatus, replyTo, hreply, rfl,
      rfl⟩

end Cases

end Puppeteer

end DropContracts
