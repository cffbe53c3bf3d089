import DropContracts.Puppeteer.Contract

set_option relaxedAutoImplicit false
set_option autoImplicit false

/-!
# The pump contract

`contracts/pump/src/contract.rs`. The pump holds an account on the remote chain, and anybody who
pays the fees can make it push coins of this account over IBC to the one destination that is
configured. The protobuf encoding of the transfers is left out, and so are `sudo_response` and
`sudo_error`, which change nothing.

## Main definitions

* `Pump.Config`, `Pump.Storage` — the storage items.
* `Pump.checkFunds`, `Pump.executePush`, `Pump.executeRegisterIca`, `Pump.executeRefund`,
  `Pump.executeUpdateConfig`, `Pump.execute` — the messages.
* `Pump.sudoOpenAck`, `Pump.sudoTimeout` — what the chain tells about the account.

## Main results

* `Pump.executePush_eq_ok` — when a push is accepted, and what it submits.
-/

namespace DropContracts

namespace Pump

open Exec

/-! ## Data -/

/-- The name of the interchain account. -/
def ICA_ID : String := "drop_PUMP"

/-- The timeout of a transaction when none is configured. -/
def DEFAULT_TIMEOUT_SECONDS : ℕ := 60

/-- The type of the one message of a transaction. -/
def MSG_TRANSFER_TYPE_URL : String := "/ibc.applications.transfer.v1.MsgTransfer"

/-- The fees of a transaction and of a registration. -/
structure IBCFees where
  recvFee : ℕ
  ackFee : ℕ
  timeoutFee : ℕ
  registerFee : ℕ
  deriving DecidableEq, Repr

/-- The timeouts of the transaction and of the transfers in it, in seconds. -/
structure PumpTimeout where
  localTimeout : Option ℕ
  remoteTimeout : ℕ
  deriving DecidableEq, Repr

/-- The configuration. -/
structure Config where
  destAddress : Option String
  destChannel : Option String
  destPort : Option String
  connectionId : String
  refundee : Option String
  owner : String
  ibcFees : IBCFees
  timeout : PumpTimeout
  localDenom : String
  deriving DecidableEq, Repr

/-- The storage items. -/
structure Storage where
  config : Config
  ica : Puppeteer.IcaState
  deriving DecidableEq, Repr

/-- The errors of the contract. -/
inductive ContractError where
  | std (e : StdError)
  | neutronError (e : StdError)
  | paymentError (e : PaymentError)
  | unauthorized
  | invalidFunds (reason : String)
  | noDestinationAddress
  | noDestinationPort
  | noDestinationChannel
  | refundeeIsNotSet
  deriving DecidableEq, Repr

/-- A call of the contract. -/
abbrev Result (α : Type) := Exec ContractError α

/-- The message of `instantiate`. -/
structure InstantiateMsg where
  destAddress : Option String
  destChannel : Option String
  destPort : Option String
  connectionId : String
  ibcFees : IBCFees
  refundee : Option String
  timeout : PumpTimeout
  localDenom : String
  owner : Option String
  deriving DecidableEq, Repr

/-- An update of the configuration. -/
structure UpdateConfigMsg where
  destAddress : Option String
  destChannel : Option String
  destPort : Option String
  connectionId : Option String
  refundee : Option String
  admin : Option String
  ibcFees : Option IBCFees
  timeout : Option PumpTimeout
  localDenom : Option String
  deriving DecidableEq, Repr

/-- The messages of the contract. -/
inductive ExecuteMsg where
  | registerICA
  | push (coins : List Coin)
  | refund
  | updateConfig (newConfig : UpdateConfigMsg)
  deriving DecidableEq, Repr

/-- A transfer on the remote chain. -/
structure MsgTransfer where
  sourcePort : String
  sourceChannel : String
  token : Coin
  sender : String
  receiver : String
  timeoutTimestamp : ℕ
  deriving DecidableEq, Repr

/-- The fees that are attached to a transaction. -/
structure IbcFee where
  recvFee : List Coin
  ackFee : List Coin
  timeoutFee : List Coin
  deriving DecidableEq, Repr

/-- The messages that the contract sends. -/
inductive Msg where
  | bankSend (toAddress : String) (amount : List Coin)
  | registerInterchainAccount (connectionId interchainAccountId : String) (registerFee : List Coin)
  | submitTx (connectionId interchainAccountId : String) (msgs : List (String × MsgTransfer))
      (memo : String) (timeout : ℕ) (fee : IbcFee)
  deriving DecidableEq, Repr

/-! ## Messages -/

/-- An optional address, which must be valid. -/
def validateOption (addrValidate : String → Bool) : Option String → Exec StdError (Option String)
  | none => .ok none
  | some address => do
    ensure (addrValidate address = true) (.genericErr "addr_validate errored")
    return some address

/-- `instantiate`. Without an owner the sender owns the contract. -/
def instantiate (addrValidate : String → Bool) (info : MessageInfo) (msg : InstantiateMsg) :
    Result Storage := do
  let refundee ← (validateOption addrValidate msg.refundee).mapError .neutronError
  let owner ← (validateOption addrValidate msg.owner).mapError .neutronError
  return {
    config := {
      destAddress := msg.destAddress
      destChannel := msg.destChannel
      destPort := msg.destPort
      connectionId := msg.connectionId
      refundee := refundee
      owner := owner.getD info.sender
      ibcFees := msg.ibcFees
      timeout := msg.timeout
      localDenom := msg.localDenom }
    ica := .none }

/-- `uint_into_vec_coin`. -/
def uintIntoVecCoin (amount : ℕ) (denom : String) : List Coin := [⟨denom, amount⟩]

/-- `check_funds`. The text of the error always names the fee of a registration. -/
def checkFunds (info : MessageInfo) (config : Config) (amount : ℕ) : Result Unit := do
  let infoAmount ← (mustPay info config.localDenom).mapError .paymentError
  ensure (amount ≤ infoAmount) (.invalidFunds ("invalid amount: expected at least " ++
    toString config.ibcFees.registerFee ++ ", got " ++ toString infoAmount))

/-- The errors of the interchain account as the pump returns them. -/
def ofIca : Puppeteer.ContractError → ContractError
  | .std e => .std e
  | .neutronError e => .neutronError e
  | .unauthorized => .unauthorized
  | .invalidFunds reason => .invalidFunds reason

/-- The fees that every transaction carries. -/
def Config.fee (config : Config) : IbcFee where
  recvFee := uintIntoVecCoin config.ibcFees.recvFee config.localDenom
  ackFee := uintIntoVecCoin config.ibcFees.ackFee config.localDenom
  timeoutFee := uintIntoVecCoin config.ibcFees.timeoutFee config.localDenom

/-- `compose_msg`. -/
def composeMsg (config : Config) (msg : MsgTransfer) (fee : IbcFee) (timeout : Option ℕ) : Msg :=
  .submitTx config.connectionId ICA_ID [(MSG_TRANSFER_TYPE_URL, msg)] ""
    (timeout.getD DEFAULT_TIMEOUT_SECONDS) fee

section Messages

variable (s : Storage) (addrValidate : String → Bool) (env : Env) (info : MessageInfo)

/-- `execute_register_ica`. -/
def executeRegisterIca : Result (Storage × List Msg) := do
  checkFunds info s.config s.config.ibcFees.registerFee
  match s.ica with
  | .inProgress => fail (.std (.genericErr "ICA registration is in progress right now"))
  | .registered _ => fail (.std (.genericErr "ICA is already registered"))
  | .timeout | .none =>
    return ({ s with ica := .inProgress }, [.registerInterchainAccount s.config.connectionId ICA_ID
      [⟨s.config.localDenom, s.config.ibcFees.registerFee⟩]])

/-- `execute_push`: the funds are checked once, and every coin gets a transaction of its own. -/
def executePush (coins : List Coin) : Result (Storage × List Msg) := do
  let ackAndRecv ← checkedAdd Uint128.bound s.config.ibcFees.ackFee s.config.ibcFees.recvFee
  let amount ← checkedAdd Uint128.bound ackAndRecv s.config.ibcFees.timeoutFee
  checkFunds info s.config amount
  let ica ← (Puppeteer.getAddress s.ica).mapError ofIca
  let timeoutTimestamp ← env.time.plusSeconds s.config.timeout.remoteTimeout
  let dstPort ← orError s.config.destPort .noDestinationPort
  let dstChannel ← orError s.config.destChannel .noDestinationChannel
  let dstAddress ← orError s.config.destAddress .noDestinationAddress
  return (s, coins.map fun coin => composeMsg s.config
    ⟨dstPort, dstChannel, coin, ica, dstAddress, timeoutTimestamp.nanos⟩ s.config.fee
    s.config.timeout.localTimeout)

/-- `execute_refund`, with all balances of the contract: they go to the refundee. -/
def executeRefund (balances : List Coin) : Result (Storage × List Msg) := do
  let refundee ← orError s.config.refundee .refundeeIsNotSet
  return (s, [.bankSend refundee balances])

/-- `execute_update_config`. The destination address is not validated. -/
def executeUpdateConfig (new : UpdateConfigMsg) : Result (Storage × List Msg) := do
  let config := s.config
  ensure (info.sender = config.owner) .unauthorized
  let refundee ← (validateOption addrValidate new.refundee).mapError .std
  let admin ← (validateOption addrValidate new.admin).mapError .std
  return ({ s with config := {
    destAddress := new.destAddress.or config.destAddress
    destChannel := new.destChannel.or config.destChannel
    destPort := new.destPort.or config.destPort
    connectionId := new.connectionId.getD config.connectionId
    refundee := refundee.or config.refundee
    owner := admin.getD config.owner
    ibcFees := new.ibcFees.getD config.ibcFees
    timeout := new.timeout.getD config.timeout
    localDenom := new.localDenom.getD config.localDenom } }, [])

/-- `execute`, with all balances of the contract. -/
def execute (balances : List Coin) : ExecuteMsg → Result (Storage × List Msg)
  | .registerICA => executeRegisterIca s info
  | .push coins => executePush s env info coins
  | .refund => executeRefund s balances
  | .updateConfig newConfig => executeUpdateConfig s addrValidate info newConfig

end Messages

/-- `sudo_open_ack`, with the address that the counterparty version holds, if it can be parsed. -/
def sudoOpenAck (s : Storage) (address : Option String) : Result Storage := do
  let address ← orError address (.neutronError (.genericErr "can't parse version"))
  return { s with ica := .registered address }

/-- `sudo_timeout`. -/
def sudoTimeout (s : Storage) : Storage := { s with ica := .timeout }

/-! ## Pushes -/

/-- What one transaction costs. -/
def IBCFees.perTransaction (fees : IBCFees) : ℕ := fees.recvFee + fees.ackFee + fees.timeoutFee

section Push

variable {s s' : Storage} {env : Env} {info : MessageInfo} {coins : List Coin} {msgs : List Msg}

/-- The funds suffice when the one attached coin pays the amount. -/
theorem checkFunds_eq_ok {config : Config} {amount : ℕ} {u : Unit} :
    checkFunds info config amount = .ok u ↔
      ∃ paid, info.funds = [⟨config.localDenom, paid⟩] ∧ paid ≠ 0 ∧ amount ≤ paid := by
  simp only [checkFunds, bind_eq_ok, mapError_eq_ok, mustPay_eq_ok, ensure_eq_ok, and_assoc]

/-- **When a push is accepted, and what it submits**: one transaction for each coin, in their order,
when the attached coin pays the fees of one transaction. -/
theorem executePush_eq_ok : executePush s env info coins = .ok (s', msgs) ↔
    ∃ paid ica dstPort dstChannel dstAddress,
      s.config.ibcFees.perTransaction < Uint128.bound ∧
      info.funds = [⟨s.config.localDenom, paid⟩] ∧ paid ≠ 0 ∧
      s.config.ibcFees.perTransaction ≤ paid ∧ s.ica = .registered ica ∧
      env.time.nanos + s.config.timeout.remoteTimeout * nanosPerSecond < U64.bound ∧
      s.config.destPort = some dstPort ∧ s.config.destChannel = some dstChannel ∧
      s.config.destAddress = some dstAddress ∧ s' = s ∧
      msgs = coins.map fun coin => composeMsg s.config
        ⟨dstPort, dstChannel, coin, ica, dstAddress,
          env.time.nanos + s.config.timeout.remoteTimeout * nanosPerSecond⟩ s.config.fee
        s.config.timeout.localTimeout := by
  simp only [executePush, IBCFees.perTransaction, bind_eq_ok, checkedAdd_eq_ok, checkFunds_eq_ok,
    mapError_eq_ok, Puppeteer.getAddress_eq_ok, Timestamp.plusSeconds, checkedMul_eq_ok,
    orError_eq_ok, pure_eq_ok, Except.ok.injEq, Prod.mk.injEq]
  constructor
  · rintro ⟨_, ⟨rfl, -⟩, _, ⟨rfl, hfits⟩, -, ⟨paid, hfunds, hpos, hpaid⟩, ica, hica, _,
      ⟨_, ⟨rfl, -⟩, _, ⟨rfl, htime⟩, rfl⟩, port, hport, channel, hchannel, address, haddress, rfl,
      rfl⟩
    exact ⟨paid, ica, port, channel, address, by omega, hfunds, hpos, by omega, hica, htime, hport,
      hchannel, haddress, rfl, rfl⟩
  · rintro ⟨paid, ica, port, channel, address, hfits, hfunds, hpos, hpaid, hica, htime, hport,
      hchannel, haddress, rfl, rfl⟩
    exact ⟨_, ⟨rfl, by omega⟩, _, ⟨rfl, by omega⟩, (), ⟨paid, hfunds, hpos, by omega⟩, ica, hica,
      _, ⟨_, ⟨rfl, by omega⟩, _, ⟨rfl, htime⟩, rfl⟩, port, hport, channel, hchannel, address,
      haddress, rfl, rfl⟩

end Push

end Pump

end DropContracts
