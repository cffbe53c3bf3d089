import DropContracts.AutoWithdrawer.Contract
import DropContracts.Factory.Contract
import DropContracts.RewardsManager.Contract
import DropContracts.Strategy.Contract
import DropContracts.Token.Contract
import DropContracts.WithdrawalManager.Contract

set_option relaxedAutoImplicit false
set_option autoImplicit false

/-!
# The factory

`contracts/factory/src/contract.rs`: one message of its owner instantiates the nine contracts of a
deployment at addresses that are computed beforehand, so that each of them can be told the addresses
of the others. From then on the factory, which owns the contracts, passes the messages of its owner
on to them.

The query of the state only reads the storage and is left out. A message that the owner sends with
`AdminExecute` is one of a contract of the deployment; the factory does not call itself so.

## Main definitions

* `Factory.Config`, `Factory.FullState`, `Factory.FullStorage` — the storage items.
* `Factory.Querier` — what the chain and the token contract answer.
* `Factory.InstantiateMsg`, `Factory.ContractMsg`, `Factory.Msg` — what the factory sends.
* `Factory.executeInit`, `Factory.executePostInit` — the deployment.
* `Factory.instantiate`, `Factory.execute` — the entry points.

## Main results

* `Factory.execute_config` — no message changes the configuration.
* `Factory.execute_ok` — but for the callback, a message comes from the owner or the proposed one.
-/

namespace DropContracts

namespace Factory

open Exec

/-! ## Data -/

/-- The ids of the codes of the contracts. -/
structure CodeIds where
  tokenCodeId : ℕ
  coreCodeId : ℕ
  puppeteerCodeId : ℕ
  withdrawalVoucherCodeId : ℕ
  withdrawalManagerCodeId : ℕ
  strategyCodeId : ℕ
  validatorsSetCodeId : ℕ
  distributionCodeId : ℕ
  rewardsManagerCodeId : ℕ
  deriving DecidableEq, Repr

/-- How the puppeteer reaches the remote chain. -/
structure RemoteOpts where
  denom : String
  updatePeriod : ℕ
  connectionId : String
  portId : String
  transferChannelId : String
  deriving DecidableEq, Repr

/-- The configuration. -/
structure Config where
  codeIds : CodeIds
  remoteOpts : RemoteOpts
  salt : String
  subdenom : String
  sdkVersion : String
  tokenMetadata : Token.DenomMetadata
  deriving DecidableEq, Repr

/-- The parameters of core that the owner chooses. -/
structure CoreParams where
  idleMinInterval : ℕ
  puppeteerTimeout : ℕ
  unbondingPeriod : ℕ
  unbondingSafePeriod : ℕ
  unbondBatchSwitchTime : ℕ
  lsmMinBondAmount : ℕ
  lsmRedeemThreshold : ℕ
  lsmRedeemMaxInterval : ℕ
  channel : String
  bondLimit : Option ℕ
  minStakeAmount : ℕ
  deriving DecidableEq, Repr

/-- The addresses of all contracts of the deployment. -/
structure FullState extends State where
  tokenContract : String
  withdrawalVoucherContract : String
  withdrawalManagerContract : String
  strategyContract : String
  distributionContract : String
  rewardsManagerContract : String
  deriving DecidableEq, Repr

/-- The ids of the codes in the order in which the contracts are instantiated. -/
def CodeIds.list (ids : CodeIds) : List ℕ := [ids.tokenCodeId, ids.validatorsSetCodeId,
  ids.distributionCodeId, ids.puppeteerCodeId, ids.strategyCodeId, ids.coreCodeId,
  ids.withdrawalVoucherCodeId, ids.withdrawalManagerCodeId, ids.rewardsManagerCodeId]

/-- The addresses in the order in which the contracts are instantiated. -/
def FullState.addresses (state : FullState) : List String := [state.tokenContract,
  state.validatorsSetContract, state.distributionContract, state.puppeteerContract,
  state.strategyContract, state.coreContract, state.withdrawalVoucherContract,
  state.withdrawalManagerContract, state.rewardsManagerContract]

/-- Every storage item of the contract. -/
structure FullStorage where
  ownership : Ownership
  config : Config
  state : Option FullState
  deriving DecidableEq, Repr

/-- The errors of the contract. -/
inductive FullError where
  | contract (e : ContractError)
  | ownershipError (e : OwnershipError)
  | instantiate2AddressError (text : String)
  deriving DecidableEq, Repr

/-- A call of the contract. -/
abbrev FullResult (α : Type) := Exec FullError α

/-- What the factory learns from others: the checksum of a code, the address of a contract with a
checksum, a creator and a salt, the denomination of the token contract at an address, and the address
check of the chain. -/
structure Querier where
  codeChecksum : ℕ → Except String String
  instantiate2Address : String → String → String → Except String String
  tokenDenom : String → Except String String
  addrValidate : String → Bool

/-! ## Messages -/

/-- The messages of the instantiations. -/
inductive InstantiateMsg where
  | token (coreAddress subdenom : String) (tokenMetadata : Token.DenomMetadata) (owner : String)
  | validatorsSet (statsContract owner : String)
  | distribution
  | puppeteer (config : Puppeteer.Config)
  | strategy (msg : Strategy.InstantiateMsg)
  | core (config : Core.Config) (owner : String)
  | withdrawalVoucher (name symbol minter : String)
  | withdrawalManager (config : WithdrawalManager.Config)
  | rewardsManager (owner : String)
  deriving DecidableEq, Repr

/-- A message to a contract of the deployment, or the callback of the factory itself. -/
inductive ContractMsg where
  | core (msg : Core.ExecuteMsg)
  | puppeteer (msg : Puppeteer.FullMsg)
  | token (msg : Token.ExecuteMsg)
  | withdrawalVoucher (msg : Cw721Msg AutoWithdrawer.Payload)
  | withdrawalManager (msg : WithdrawalManager.ExecuteMsg)
  | strategy (msg : Strategy.ExecuteMsg)
  | validatorsSet (msg : ValidatorsSet.ExecuteMsg)
  | rewardsManager (msg : RewardsManager.ExecuteMsg)
  | postInit

/-- The messages of the factory to the chain: `WasmMsg::Instantiate2` and `WasmMsg::Execute`. -/
inductive Msg where
  | instantiate2 (admin : Option String) (codeId : ℕ) (label : String) (msg : InstantiateMsg)
      (salt : String)
  | execute (contractAddr : String) (msg : ContractMsg) (funds : List Coin)

/-- A proxied message. -/
def WasmMsg.toMsg : WasmMsg → Msg
  | .core contractAddr msg funds => .execute contractAddr (.core msg) funds
  | .puppeteer contractAddr msg funds => .execute contractAddr (.puppeteer msg) funds
  | .validatorsSet contractAddr msg funds => .execute contractAddr (.validatorsSet msg) funds

/-- The fees of the puppeteer. -/
structure FeesMsg where
  recvFee : ℕ
  ackFee : ℕ
  timeoutFee : ℕ
  registerFee : ℕ
  deriving DecidableEq, Repr

/-- The updates of configurations that the factory passes on. -/
inductive UpdateConfigMsg where
  | core (newConfig : Core.ConfigOptional)
  | validatorsSet (newConfig : ValidatorsSet.ConfigOptional)
  | puppeteerFees (fees : FeesMsg)
  deriving DecidableEq, Repr

/-- The messages of the contract. -/
inductive ExecuteMsg where
  | init (baseDenom : String) (coreParams : CoreParams)
  | callbackPostInit
  | updateOwnership (action : OwnershipAction)
  | updateConfig (msg : UpdateConfigMsg)
  | proxy (msg : ProxyMsg)
  | adminExecute (addr : String) (msg : ContractMsg)
  | pause
  | unpause

/-! ## The deployment -/

section Entry

variable (s : FullStorage) (q : Querier) (env : Env) (info : MessageInfo)

/-- `cw_ownable::assert_owner`. -/
def assertOwner : FullResult Unit := mapError .ownershipError (s.ownership.assertOwner info.sender)

/-- The stored addresses, without which a message fails. -/
def loadState : FullResult FullState := orError s.state (.contract (.std (.notFound "State")))

/-- A query; its failure is passed on. -/
def ask {α : Type} : Except String α → FullResult α
  | .ok a => .ok a
  | .error e => fail (.contract (.std (.querierContractErr e)))

/-- `get_code_checksum`. -/
def getCodeChecksum (codeId : ℕ) : FullResult String := ask (q.codeChecksum codeId)

/-- `instantiate2_address` for a contract that the factory creates. -/
def instantiate2Address (checksum salt : String) : FullResult String :=
  match q.instantiate2Address checksum env.contractAddress salt with
  | .ok address => .ok address
  | .error e => fail (.instantiate2AddressError e)

/-- `get_contract_label`. -/
def getContractLabel (base : String) : String := "drop-staking-" ++ base

/-- The configuration that core is instantiated with. -/
def coreConfig (config : Config) (state : FullState) (baseDenom : String)
    (coreParams : CoreParams) : Core.Config where
  tokenContract := state.tokenContract
  puppeteerContract := state.puppeteerContract
  puppeteerTimeout := coreParams.puppeteerTimeout
  strategyContract := state.strategyContract
  withdrawalVoucherContract := state.withdrawalVoucherContract
  withdrawalManagerContract := state.withdrawalManagerContract
  validatorsSetContract := state.validatorsSetContract
  baseDenom := baseDenom
  remoteDenom := config.remoteOpts.denom
  idleMinInterval := coreParams.idleMinInterval
  unbondingPeriod := coreParams.unbondingPeriod
  unbondingSafePeriod := coreParams.unbondingSafePeriod
  unbondBatchSwitchTime := coreParams.unbondBatchSwitchTime
  pumpAddress := none
  channel := coreParams.channel
  ldDenom := none
  lsmMinBondAmount := coreParams.lsmMinBondAmount
  lsmRedeemThreshold := coreParams.lsmRedeemThreshold
  lsmRedeemMaximumInterval := coreParams.lsmRedeemMaxInterval
  bondLimit := coreParams.bondLimit
  fee := none
  feeAddress := none
  emergencyAddress := none
  minStakeAmount := coreParams.minStakeAmount

/-- The configuration that the puppeteer is instantiated with: only core may send requests. -/
def puppeteerConfig (factory : String) (config : Config) (state : FullState) :
    Puppeteer.Config where
  connectionId := config.remoteOpts.connectionId
  portId := config.remoteOpts.portId
  updatePeriod := config.remoteOpts.updatePeriod
  remoteDenom := config.remoteOpts.denom
  owner := factory
  allowedSenders := [state.coreContract]
  proxyAddress := none
  transferChannelId := config.remoteOpts.transferChannelId
  sdkVersion := config.sdkVersion

/-- The message that the strategy is instantiated with. The address of core is that of the
factory. -/
def strategyMsg (factory : String) (config : Config) (state : FullState) :
    Strategy.InstantiateMsg where
  coreAddress := factory
  puppeteerAddress := state.puppeteerContract
  validatorSetAddress := state.validatorsSetContract
  distributionAddress := state.distributionContract
  denom := config.remoteOpts.denom

/-- The nine instantiations of `execute_init`, in their order: the code, the label, the message. -/
def instantiations (factory : String) (config : Config) (state : FullState) (baseDenom : String)
    (coreParams : CoreParams) : List (ℕ × String × InstantiateMsg) := [
  (config.codeIds.tokenCodeId, getContractLabel "token",
    .token state.coreContract config.subdenom config.tokenMetadata factory),
  (config.codeIds.validatorsSetCodeId, "validators set",
    .validatorsSet "neutron1x69dz0c0emw8m2c6kp5v6c08kgjxmu30f4a8w5" factory),
  (config.codeIds.distributionCodeId, "distribution", .distribution),
  (config.codeIds.puppeteerCodeId, getContractLabel "puppeteer",
    .puppeteer (puppeteerConfig factory config state)),
  (config.codeIds.strategyCodeId, "strategy", .strategy (strategyMsg factory config state)),
  (config.codeIds.coreCodeId, getContractLabel "core",
    .core (coreConfig config state baseDenom coreParams) factory),
  (config.codeIds.withdrawalVoucherCodeId, getContractLabel "withdrawal-voucher",
    .withdrawalVoucher "Drop Voucher" "LDOV" state.coreContract),
  (config.codeIds.withdrawalManagerCodeId, getContractLabel "withdrawal-manager",
    .withdrawalManager
      ⟨state.coreContract, state.withdrawalVoucherContract, baseDenom, factory⟩),
  (config.codeIds.rewardsManagerCodeId, getContractLabel "rewards manager",
    .rewardsManager factory)]

/-- The addresses that `execute_init` computes. -/
def deployedState : FullResult FullState := do
  let config := s.config
  let tokenChecksum ← getCodeChecksum q config.codeIds.tokenCodeId
  let coreChecksum ← getCodeChecksum q config.codeIds.coreCodeId
  let withdrawalVoucherChecksum ← getCodeChecksum q config.codeIds.withdrawalVoucherCodeId
  let withdrawalManagerChecksum ← getCodeChecksum q config.codeIds.withdrawalManagerCodeId
  let strategyChecksum ← getCodeChecksum q config.codeIds.strategyCodeId
  let validatorsSetChecksum ← getCodeChecksum q config.codeIds.validatorsSetCodeId
  let distributionChecksum ← getCodeChecksum q config.codeIds.distributionCodeId
  let puppeteerChecksum ← getCodeChecksum q config.codeIds.puppeteerCodeId
  let rewardsManagerChecksum ← getCodeChecksum q config.codeIds.rewardsManagerCodeId
  let tokenContract ← instantiate2Address q env tokenChecksum config.salt
  let coreContract ← instantiate2Address q env coreChecksum config.salt
  let puppeteerContract ← instantiate2Address q env puppeteerChecksum config.salt
  let withdrawalVoucherContract ← instantiate2Address q env withdrawalVoucherChecksum config.salt
  let withdrawalManagerContract ← instantiate2Address q env withdrawalManagerChecksum config.salt
  let strategyContract ← instantiate2Address q env strategyChecksum config.salt
  let validatorsSetContract ← instantiate2Address q env validatorsSetChecksum config.salt
  let distributionContract ← instantiate2Address q env distributionChecksum config.salt
  let rewardsManagerContract ← instantiate2Address q env rewardsManagerChecksum config.salt
  return {
    coreContract := coreContract
    puppeteerContract := puppeteerContract
    validatorsSetContract := validatorsSetContract
    tokenContract := tokenContract
    withdrawalVoucherContract := withdrawalVoucherContract
    withdrawalManagerContract := withdrawalManagerContract
    strategyContract := strategyContract
    distributionContract := distributionContract
    rewardsManagerContract := rewardsManagerContract }

/-- `execute_init`. -/
def executeInit (baseDenom : String) (coreParams : CoreParams) :
    FullResult (FullStorage × List Msg) := do
  assertOwner s info
  let state ← deployedState s q env
  let self := env.contractAddress
  return ({ s with state := some state },
    (instantiations self s.config state baseDenom coreParams).map
        (fun i => .instantiate2 (some self) i.1 i.2.1 i.2.2 s.config.salt) ++
      [.execute self .postInit []])

/-- `execute_post_init`, which does not ask who calls: core learns the denomination of the token
contract. -/
def executePostInit : FullResult (List Msg) := do
  let state ← loadState s
  let denom ← ask (q.tokenDenom state.tokenContract)
  return [.execute state.coreContract
    (.core (.updateConfig { Core.ConfigOptional.empty with ldDenom := some denom })) []]

/-! ## The other messages -/

/-- `execute_update_config`. -/
def executeUpdateConfig (msg : UpdateConfigMsg) : FullResult (List Msg) := do
  assertOwner s info
  let state ← loadState s
  match msg with
  | .core newConfig =>
    return [.execute state.coreContract (.core (.updateConfig newConfig)) info.funds]
  | .validatorsSet newConfig => return [
      .execute state.validatorsSetContract (.validatorsSet (.updateConfig newConfig)) info.funds]
  | .puppeteerFees fees => return [
      .execute state.puppeteerContract (.puppeteer (.request
        (.setFees fees.recvFee fees.ackFee fees.timeoutFee fees.registerFee))) info.funds]

/-- `execute_proxy_msg`, without an owner as with a wrong one. -/
def executeProxy (msg : ProxyMsg) : FullResult (List Msg) :=
  match s.ownership.owner with
  | some owner => do
    let msgs ← mapError .contract
      (executeProxyMsg ⟨owner, s.state.map FullState.toState⟩ info msg)
    return msgs.map WasmMsg.toMsg
  | none => do
    let _ ← loadState s
    fail (.ownershipError .noOwner)

/-- `execute_admin_execute`. -/
def executeAdminExecute (addr : String) (msg : ContractMsg) : FullResult (List Msg) := do
  assertOwner s info
  return [.execute addr msg []]

/-- `exec_pause`. -/
def execPause : FullResult (List Msg) := do
  assertOwner s info
  let state ← loadState s
  return [
    .execute state.coreContract (.core .pause) [],
    .execute state.withdrawalManagerContract (.withdrawalManager .pause) [],
    .execute state.rewardsManagerContract (.rewardsManager .pause) []]

/-- `exec_unpause`. -/
def execUnpause : FullResult (List Msg) := do
  assertOwner s info
  let state ← loadState s
  return [
    .execute state.coreContract (.core .unpause) [],
    .execute state.rewardsManagerContract (.rewardsManager .unpause) [],
    .execute state.withdrawalManagerContract (.withdrawalManager .unpause) []]

/-- A call that sends messages and leaves the storage alone. -/
def passingOn (x : FullResult (List Msg)) : FullResult (FullStorage × List Msg) := do
  let msgs ← x
  return (s, msgs)

/-- `execute`. -/
def execute : ExecuteMsg → FullResult (FullStorage × List Msg)
  | .init baseDenom coreParams => executeInit s q env info baseDenom coreParams
  | .callbackPostInit => passingOn s (executePostInit s q)
  | .updateOwnership action => do
    let ownership ← mapError .ownershipError
      (s.ownership.update env q.addrValidate info.sender action)
    return ({ s with ownership := ownership }, [])
  | .updateConfig msg => passingOn s (executeUpdateConfig s info msg)
  | .proxy msg => passingOn s (executeProxy s info msg)
  | .adminExecute addr msg => passingOn s (executeAdminExecute s info addr msg)
  | .pause => passingOn s (execPause s info)
  | .unpause => passingOn s (execUnpause s info)

end Entry

/-- `instantiate`: the sender becomes the owner. -/
def instantiate (addrValidate : String → Bool) (info : MessageInfo) (config : Config) :
    FullResult FullStorage := do
  let ownership ← mapError .ownershipError (Ownership.initializeOwner addrValidate info.sender)
  return ⟨ownership, config, none⟩

/-! ## What a call can do -/

section Effects

variable {s s' : FullStorage} {q : Querier} {env : Env} {info : MessageInfo} {msgs : List Msg}

/-- A query returns what is answered. -/
@[simp] theorem ask_eq_ok {α : Type} {x : Except String α} {a : α} : ask x = .ok a ↔ x = .ok a := by
  cases x <;> simp [ask]

/-- The computed address is the one that the chain gives. -/
theorem instantiate2Address_eq_ok {checksum salt address : String} :
    instantiate2Address q env checksum salt = .ok address ↔
      q.instantiate2Address checksum env.contractAddress salt = .ok address := by
  unfold instantiate2Address
  cases q.instantiate2Address checksum env.contractAddress salt <;> simp

/-- **The addresses are those that the chain gives** to contracts with these codes. -/
theorem deployedState_ok {state : FullState} (h : deployedState s q env = .ok state) :
    List.Forall₂ (fun codeId address => ∃ checksum, q.codeChecksum codeId = .ok checksum ∧
      q.instantiate2Address checksum env.contractAddress s.config.salt = .ok address)
      s.config.codeIds.list state.addresses := by
  simp only [deployedState, getCodeChecksum, bind_eq_ok, ask_eq_ok, instantiate2Address_eq_ok,
    pure_eq_ok, Except.ok.injEq] at h
  obtain ⟨_, hc₁, _, hc₂, _, hc₃, _, hc₄, _, hc₅, _, hc₆, _, hc₇, _, hc₈, _, hc₉, _, ha₁, _, ha₂,
    _, ha₃, _, ha₄, _, ha₅, _, ha₆, _, ha₇, _, ha₈, _, ha₉, rfl⟩ := h
  exact .cons ⟨_, hc₁, ha₁⟩ (.cons ⟨_, hc₆, ha₇⟩ (.cons ⟨_, hc₇, ha₈⟩ (.cons ⟨_, hc₈, ha₃⟩
    (.cons ⟨_, hc₅, ha₆⟩ (.cons ⟨_, hc₂, ha₂⟩ (.cons ⟨_, hc₃, ha₄⟩ (.cons ⟨_, hc₄, ha₅⟩
      (.cons ⟨_, hc₉, ha₉⟩ .nil))))))))

/-- A call that sends messages leaves the storage alone. -/
theorem passingOn_eq_ok {x : FullResult (List Msg)} :
    passingOn s x = .ok (s', msgs) ↔ x = .ok msgs ∧ s' = s := by
  simp only [passingOn, bind_eq_ok, pure_eq_ok, Except.ok.injEq, Prod.mk.injEq]
  constructor
  · rintro ⟨_, hx, rfl, rfl⟩
    exact ⟨hx, rfl⟩
  · rintro ⟨hx, rfl⟩
    exact ⟨msgs, hx, rfl, rfl⟩

/-- Everything that an initialization does to the storage, and the messages that it sends. -/
theorem executeInit_ok {baseDenom : String} {coreParams : CoreParams}
    (h : executeInit s q env info baseDenom coreParams = .ok (s', msgs)) :
    s.ownership.owner = some info.sender ∧ ∃ state,
      deployedState s q env = .ok state ∧ s' = { s with state := some state } ∧
      msgs = (instantiations env.contractAddress s.config state baseDenom coreParams).map
          (fun i => .instantiate2 (some env.contractAddress) i.1 i.2.1 i.2.2 s.config.salt) ++
        [.execute env.contractAddress .postInit []] := by
  simp only [executeInit, assertOwner, bind_eq_ok, mapError_eq_ok, Ownership.assertOwner_eq_ok,
    pure_eq_ok, Except.ok.injEq, Prod.mk.injEq] at h
  obtain ⟨-, howner, state, hstate, rfl, rfl⟩ := h
  exact ⟨howner, state, hstate, rfl, rfl⟩

/-- **What a message does to the storage**: an initialization of the owner stores the addresses, an
update of the ownership is one of the owner or of the proposed owner, and all others leave the storage
alone. -/
theorem execute_storage {msg : ExecuteMsg} (h : execute s q env info msg = .ok (s', msgs)) :
    (∃ baseDenom coreParams, msg = .init baseDenom coreParams ∧
      executeInit s q env info baseDenom coreParams = .ok (s', msgs)) ∨
    (∃ action ownership, msg = .updateOwnership action ∧
      s.ownership.update env q.addrValidate info.sender action = .ok ownership ∧
      s' = { s with ownership := ownership } ∧ msgs = []) ∨
    s' = s := by
  cases msg with
  | init baseDenom coreParams => exact .inl ⟨baseDenom, coreParams, rfl, h⟩
  | updateOwnership action =>
    simp only [execute, bind_eq_ok, mapError_eq_ok, pure_eq_ok, Except.ok.injEq,
      Prod.mk.injEq] at h
    obtain ⟨ownership, hupdate, rfl, rfl⟩ := h
    exact .inr (.inl ⟨action, ownership, rfl, hupdate, rfl, rfl⟩)
  | callbackPostInit => exact .inr (.inr (passingOn_eq_ok.1 h).2)
  | updateConfig msg => exact .inr (.inr (passingOn_eq_ok.1 h).2)
  | proxy msg => exact .inr (.inr (passingOn_eq_ok.1 h).2)
  | adminExecute addr msg => exact .inr (.inr (passingOn_eq_ok.1 h).2)
  | pause => exact .inr (.inr (passingOn_eq_ok.1 h).2)
  | unpause => exact .inr (.inr (passingOn_eq_ok.1 h).2)

/-- **No message changes the configuration.** -/
theorem execute_config {msg : ExecuteMsg} (h : execute s q env info msg = .ok (s', msgs)) :
    s'.config = s.config := by
  rcases execute_storage h with ⟨_, _, -, hinit⟩ | ⟨_, _, -, -, rfl, -⟩ | rfl
  · obtain ⟨-, state, -, rfl, -⟩ := executeInit_ok hinit
    rfl
  · rfl
  · rfl

/-- A proxied message comes from the owner. -/
theorem executeProxy_owner {msg : ProxyMsg} (h : executeProxy s info msg = .ok msgs) :
    s.ownership.owner = some info.sender := by
  unfold executeProxy at h
  split at h
  next owner howner =>
    simp only [executeProxyMsg, bind_eq_ok, mapError_eq_ok, ensure_eq_ok] at h
    obtain ⟨_, ⟨_, -, -, hsender, -⟩, -⟩ := h
    rw [howner, hsender]
  next =>
    simp only [bind_eq_ok, fail_ne_ok, and_false, exists_false] at h

/-- **But for the callback, every message comes from the owner**, or accepts the ownership that was
proposed. -/
theorem execute_ok {msg : ExecuteMsg} (h : execute s q env info msg = .ok (s', msgs)) :
    s.ownership.owner = some info.sender ∨ s.ownership.pendingOwner = some info.sender ∨
      (msg = .callbackPostInit ∧ s' = s ∧ executePostInit s q = .ok msgs) := by
  cases msg with
  | init baseDenom coreParams => exact .inl (executeInit_ok h).1
  | callbackPostInit =>
    obtain ⟨hpost, rfl⟩ := passingOn_eq_ok.1 h
    exact .inr (.inr ⟨rfl, rfl, hpost⟩)
  | updateOwnership action =>
    simp only [execute, bind_eq_ok, mapError_eq_ok, pure_eq_ok, Except.ok.injEq,
      Prod.mk.injEq] at h
    obtain ⟨ownership, hupdate, -, -⟩ := h
    rcases Ownership.update_ok hupdate with howner | hpending
    · exact .inl howner
    · exact .inr (.inl hpending)
  | updateConfig msg =>
    obtain ⟨hupdate, -⟩ := passingOn_eq_ok.1 h
    simp only [executeUpdateConfig, assertOwner, bind_eq_ok, mapError_eq_ok,
      Ownership.assertOwner_eq_ok] at hupdate
    obtain ⟨-, howner, -⟩ := hupdate
    exact .inl howner
  | proxy msg => exact .inl (executeProxy_owner (passingOn_eq_ok.1 h).1)
  | adminExecute addr msg =>
    obtain ⟨hadmin, -⟩ := passingOn_eq_ok.1 h
    simp only [executeAdminExecute, assertOwner, bind_eq_ok, mapError_eq_ok,
      Ownership.assertOwner_eq_ok] at hadmin
    obtain ⟨-, howner, -⟩ := hadmin
    exact .inl howner
  | pause =>
    obtain ⟨hpause, -⟩ := passingOn_eq_ok.1 h
    simp only [execPause, assertOwner, bind_eq_ok, mapError_eq_ok,
      Ownership.assertOwner_eq_ok] at hpause
    obtain ⟨-, howner, -⟩ := hpause
    exact .inl howner
  | unpause =>
    obtain ⟨hunpause, -⟩ := passingOn_eq_ok.1 h
    simp only [execUnpause, assertOwner, bind_eq_ok, mapError_eq_ok,
      Ownership.assertOwner_eq_ok] at hunpause
    obtain ⟨-, howner, -⟩ := hunpause
    exact .inl howner

end Effects

end Factory

end DropContracts
