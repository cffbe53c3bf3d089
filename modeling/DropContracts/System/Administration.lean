import DropContracts.Factory.Deployment
import DropContracts.System.Instantiation
import DropContracts.System.Observation
import DropContracts.System.Rules

set_option relaxedAutoImplicit false
set_option autoImplicit false

/-!
# The administration of a deployment

The factory with the contracts of a deployment: core, the puppeteer with its queries, the token, the
vouchers, the withdrawal manager, the validator set, the strategy and the rewards manager. Anybody
may send any message to any of them, the factory included; the factory sends its own messages to the
others. Only its owner changes the rules that the contracts work by, but for the strategy, which
anybody may direct elsewhere.

## Main definitions

* `Puppeteer.QueryItems` — the items of the puppeteer that the queries use.
* `System.AdminDeployment`, `System.Administered`, `System.AdminAction` — the addresses, the states
  and the steps of the system.
* `System.Governed` — the factory owns the other contracts, and core mints the vouchers.
* `System.AdminAction.Outside` — a step that the owner of the factory does not take.
* `System.Administered.SameRules` — the contracts work by the same rules.

## Main results

* `System.sameRules_of_adminStep` — a step that the owner does not take leaves the rules alone.
* `System.rules_kept` — the same for a run.
* `System.governed_of_init` — a deployment of the factory is one that it governs.

## Design

The distribution contract has no state. Core mints and burns at the bank, which is what the token
contract does for it, as `System.token_contract_refines` shows. A second deployment is refused, as
`System.init_once` shows for the chain. A rewards handler is an account of its own: it
acts in a later step, and when it refuses the rewards, the exchange does not take place. Core and the
validator set always have an owner: the factory does not give them up.
-/

namespace DropContracts

open Exec

/-! ## The puppeteer with its queries -/

namespace Puppeteer

open Icq

/-- The storage items of the puppeteer that its requests do not use, and the queries that are
registered on the chain. -/
structure QueryItems where
  cwOwner : String
  kvQueries : StorageMap ℕ KVQueryType
  unbondingDelegations : StorageMap String UnbondingDelegation
  unbondingDelegationsReplyIdStorage : StorageMap ℕ UnbondingDelegation
  recipientTransfers : List Transfer
  queries : StorageMap ℕ (List KVKey)
  lastQueryId : ℕ

/-- The whole puppeteer. -/
def QueryItems.full (i : QueryItems) (s : Storage) : WithQueries where
  puppeteer := {
    toStorage := s
    cwOwner := i.cwOwner
    kvQueries := i.kvQueries
    unbondingDelegations := i.unbondingDelegations
    unbondingDelegationsReplyIdStorage := i.unbondingDelegationsReplyIdStorage
    recipientTransfers := i.recipientTransfers }
  queries := i.queries
  lastQueryId := i.lastQueryId

/-- The items of the queries. -/
def WithQueries.items (w : WithQueries) : QueryItems where
  cwOwner := w.puppeteer.cwOwner
  kvQueries := w.puppeteer.kvQueries
  unbondingDelegations := w.puppeteer.unbondingDelegations
  unbondingDelegationsReplyIdStorage := w.puppeteer.unbondingDelegationsReplyIdStorage
  recipientTransfers := w.puppeteer.recipientTransfers
  queries := w.queries
  lastQueryId := w.lastQueryId

/-- A message to the query module among the messages of the puppeteer. -/
def Outgoing.toIcq : Outgoing → Option IcqMsg
  | .icq msg => some msg
  | .neutron _ => none

/-- **But for requests, others may only register the query for transfers**, which leaves the storage
alone. -/
theorem executeFull_of_ne_owner {s s' : FullStorage} {a : Addresses} {info : MessageInfo} {env : Env}
    {msg : FullMsg} {out : List Outgoing} (hsender : info.sender ≠ s.cwOwner)
    (h : executeFull s a info env msg = .ok (s', out)) :
    (∃ request, msg = .request request) ∨ s' = s ∧ ∃ connectionId recipient updatePeriod,
      out = [.icq (.registerTransfers connectionId recipient updatePeriod)] := by
  cases msg with
  | request request => exact .inl ⟨request, rfl⟩
  | registerQuery =>
    simp only [executeFull, registerTransfersQuery, bind_eq_ok, pure_eq_ok, Except.ok.injEq,
      Prod.mk.injEq] at h
    obtain ⟨_, ⟨ica, -, rfl⟩, rfl, rfl⟩ := h
    exact .inr ⟨rfl, _, _, _, rfl⟩
  | registerBalanceAndDelegatorDelegationsQuery validators =>
    simp only [executeFull, registerBalanceDelegationsQuery, assertOwner, bind_eq_ok,
      ensure_eq_ok] at h
    obtain ⟨_, ⟨-, howner, -⟩, -⟩ := h
    exact absurd howner hsender
  | registerDelegatorUnbondingDelegationsQuery validators =>
    simp only [executeFull, registerUnbondingDelegationsQuery, assertOwner, bind_eq_ok,
      ensure_eq_ok] at h
    obtain ⟨_, ⟨-, howner, -⟩, -⟩ := h
    exact absurd howner hsender
  | registerNonNativeRewardsBalancesQuery denoms =>
    simp only [executeFull, registerNonNativeRewardsBalancesQuery, assertOwner, bind_eq_ok,
      ensure_eq_ok] at h
    obtain ⟨_, ⟨-, howner, -⟩, -⟩ := h
    exact absurd howner hsender
  | updateConfig newConfig =>
    simp only [executeFull, executeUpdateConfig, assertOwner, bind_eq_ok, ensure_eq_ok] at h
    obtain ⟨_, ⟨-, howner, -⟩, -⟩ := h
    exact absurd howner hsender

end Puppeteer

namespace System

open AutoWithdrawer
open Puppeteer (Addresses FullMsg)

/-! ## The system -/

/-- The owner that has been proposed for a contract, and until when he may accept. -/
structure Proposal where
  pendingOwner : Option String
  pendingExpiry : Option Expiration
  deriving DecidableEq, Repr

/-- The ownership of a contract that has an owner. -/
def Proposal.ownership (p : Proposal) (owner : String) : Ownership :=
  ⟨some owner, p.pendingOwner, p.pendingExpiry⟩

/-- The addresses of a deployment with its factory. -/
structure AdminDeployment extends SettlementDeployment where
  factory : String
  validatorsSet : String
  strategy : String
  rewardsManager : String
  factory_new : factory ∉ [core, puppeteer, token, voucher, manager]
  rewardsManager_new : rewardsManager ∉ [core, puppeteer, token, voucher, manager]

/-- The contracts of the system. -/
def AdminDeployment.contracts (d : AdminDeployment) : List String := [d.factory, d.core,
  d.puppeteer, d.token, d.voucher, d.manager, d.validatorsSet, d.strategy, d.rewardsManager]

/-- The state of the system. -/
structure Administered (σ : Type) where
  factory : Factory.FullStorage
  settlement : Settlement σ
  items : Puppeteer.QueryItems
  token : Token.Storage
  metadata : Option Token.Metadata
  validatorsSet : ValidatorsSet.Storage
  strategy : Strategy.Storage
  rewardsManager : RewardsManager.Storage
  coreProposal : Proposal
  validatorsProposal : Proposal

/-- The steps: those of the settlement, the messages to the other contracts, and the results of the
queries of the puppeteer. `balances` is what the bank answers to the rewards manager. -/
inductive AdminAction where
  | settlement (a : SettlementAction)
  | puppeteer (a : Addresses) (info : MessageInfo) (msg : FullMsg)
  | kvQueryResult (queryId : ℕ) (result : Puppeteer.KvResult)
  | txQueryResult (transfers : List Puppeteer.Transfer)
  | token (addrValidate : String → Bool) (info : MessageInfo) (msg : Token.ExecuteMsg)
  | strategy (addrValidate : String → Bool) (info : MessageInfo) (msg : Strategy.ExecuteMsg)
  | validatorsSet (addrValidate : String → Bool) (info : MessageInfo)
      (msg : ValidatorsSet.ExecuteMsg)
  | rewardsManager (addrValidate : String → Bool) (balances : List Coin) (info : MessageInfo)
      (msg : RewardsManager.ExecuteMsg)
  | coreOwnership (addrValidate : String → Bool) (info : MessageInfo) (action : OwnershipAction)
  | validatorsOwnership (addrValidate : String → Bool) (info : MessageInfo)
      (action : OwnershipAction)
  | factory (q : Factory.Querier) (answers : Answers) (a : Addresses) (balances : List Coin)
      (info : MessageInfo) (msg : Factory.ExecuteMsg)

/-- The account that takes a step, if it is an account. -/
def AdminAction.sender : AdminAction → Option String
  | .settlement a => a.sender
  | .puppeteer _ info _ => some info.sender
  | .kvQueryResult _ _ => none
  | .txQueryResult _ => none
  | .token _ info _ => some info.sender
  | .strategy _ info _ => some info.sender
  | .validatorsSet _ info _ => some info.sender
  | .rewardsManager _ _ info _ => some info.sender
  | .coreOwnership _ info _ => some info.sender
  | .validatorsOwnership _ info _ => some info.sender
  | .factory _ _ _ _ info _ => some info.sender

namespace Administered

variable {σ : Type} (d : AdminDeployment) (C : OwnedCw721 σ Payload) (s : Administered σ)

/-- Core and the puppeteer. -/
abbrev world : World := s.settlement.world

/-- The state with another bank. -/
def withBank (bank : Bank) : Administered σ :=
  { s with settlement := { s.settlement with world := { s.world with bank := bank } } }

/-- The puppeteer with its queries. -/
def puppeteer : Puppeteer.WithQueries := s.items.full s.world.puppeteer

/-- The state with another puppeteer. -/
def withPuppeteer (w : Puppeteer.WithQueries) : Administered σ :=
  { s with
    settlement := { s.settlement with world := { s.world with puppeteer := w.puppeteer.toStorage } }
    items := w.items }

/-- A step of the settlement. -/
def step (a : SettlementAction) : Option (Administered σ) := do
  let settlement ← s.settlement.exec d.toSettlementDeployment C.toCw721 a
  some { s with settlement := settlement }

/-- A message to the puppeteer that is about its queries or its configuration. -/
def callQueries (a : Addresses) (info : MessageInfo) (msg : FullMsg) : Option (Administered σ) := do
  let bank ← s.world.bank.send info.sender d.puppeteer info.funds
  let (puppeteer, out) ← (Puppeteer.executeFull s.puppeteer.puppeteer a info
    (s.world.puppeteerEnv d.toDeployment) msg).toOption
  let w ← { s.puppeteer with puppeteer := puppeteer }.dispatchAll
    (out.filterMap Puppeteer.Outgoing.toIcq)
  some ((s.withBank bank).withPuppeteer w)

/-- A message to the puppeteer. A request is a step of the settlement. -/
def callPuppeteer (a : Addresses) (info : MessageInfo) : FullMsg → Option (Administered σ)
  | .request msg =>
    s.step d C (.world (.executePuppeteer a.addrValidate info.sender info.funds msg))
  | msg => s.callQueries d a info msg

/-- A message to the token contract, and what the contract sends to the chain. -/
def callToken (addrValidate : String → Bool) (info : MessageInfo) (msg : Token.ExecuteMsg) :
    Option (Administered σ) := do
  let tw ← (⟨s.world, s.token, s.metadata⟩ : TokenWorld).callToken d.toDeployment addrValidate info
    msg
  some { s with
    settlement := { s.settlement with world := tw.world }
    token := tw.token
    metadata := tw.metadata }

/-- A message to the strategy. -/
def callStrategy (addrValidate : String → Bool) (info : MessageInfo) (msg : Strategy.ExecuteMsg) :
    Option (Administered σ) := do
  let bank ← s.world.bank.send info.sender d.strategy info.funds
  let strategy ← (Strategy.execute addrValidate s.strategy info msg).toOption
  some { s.withBank bank with strategy := strategy }

/-- A message to the validator set. -/
def callValidatorsSet (addrValidate : String → Bool) (info : MessageInfo)
    (msg : ValidatorsSet.ExecuteMsg) : Option (Administered σ) := do
  let bank ← s.world.bank.send info.sender d.validatorsSet info.funds
  let validatorsSet ← (ValidatorsSet.execute s.validatorsSet info addrValidate msg).toOption
  some { s.withBank bank with validatorsSet := validatorsSet }

/-- The rewards that go to one handler, which none of the contracts is. -/
def handOver (bank : Bank) (msg : RewardsManager.ExchangeMsg) : Option Bank := do
  guard (msg.contractAddr ∉ d.contracts)
  bank.send d.rewardsManager msg.contractAddr msg.funds

/-- A message to the rewards manager, with the rewards that it hands over. -/
def callRewardsManager (addrValidate : String → Bool) (balances : List Coin) (info : MessageInfo)
    (msg : RewardsManager.ExecuteMsg) : Option (Administered σ) := do
  let bank ← s.world.bank.send info.sender d.rewardsManager info.funds
  let (rewardsManager, msgs) ←
    (RewardsManager.execute s.rewardsManager addrValidate info balances msg).toOption
  let bank ← msgs.foldlM (handOver d) bank
  some { s.withBank bank with rewardsManager := rewardsManager }

/-- `UpdateOwnership`, for the contract at `address` that belongs to `owner`: the bank, the owner and
the proposal after the message. -/
def updateOwnership (address owner : String) (p : Proposal) (addrValidate : String → Bool)
    (info : MessageInfo) (action : OwnershipAction) : Option (Bank × String × Proposal) := do
  let bank ← s.world.bank.send info.sender address info.funds
  let o ← ((p.ownership owner).update ⟨s.world.height, s.world.time, address⟩ addrValidate
    info.sender action).toOption
  let owner ← o.owner
  some (bank, owner, ⟨o.pendingOwner, o.pendingExpiry⟩)

/-- `UpdateOwnership` of core. -/
def callCoreOwnership (addrValidate : String → Bool) (info : MessageInfo)
    (action : OwnershipAction) : Option (Administered σ) := do
  let (bank, owner, proposal) ← s.updateOwnership d.core s.world.core.owner s.coreProposal
    addrValidate info action
  some { s with
    settlement := { s.settlement with
      world := { s.world with bank := bank, core := { s.world.core with owner := owner } } }
    coreProposal := proposal }

/-- `UpdateOwnership` of the validator set. -/
def callValidatorsOwnership (addrValidate : String → Bool) (info : MessageInfo)
    (action : OwnershipAction) : Option (Administered σ) := do
  let (bank, owner, proposal) ← s.updateOwnership d.validatorsSet s.validatorsSet.cwOwner
    s.validatorsProposal addrValidate info action
  some { s.withBank bank with
    validatorsSet := { s.validatorsSet with cwOwner := owner }
    validatorsProposal := proposal }

/-- What the factory learns: the denomination that the token contract has created. -/
def factoryQuerier (q : Factory.Querier) : Factory.Querier :=
  { q with tokenDenom := fun contract =>
      if contract = d.token then .ok d.tokenDenom else .error "not found" }

/-- A message of the factory to another contract. A contract takes the messages of its own kind; what
goes to a contract outside of the system is coins that are sent to it. -/
def call (answers : Answers) (a : Addresses) (balances : List Coin) (contractAddr : String)
    (funds : List Coin) (msg : Factory.ContractMsg) : Option (Administered σ) :=
  if contractAddr ∉ d.contracts then do
    let bank ← s.world.bank.send d.factory contractAddr funds
    some (s.withBank bank)
  else match msg with
  | .core msg => do
    guard (contractAddr = d.core)
    s.step d C (.world (.execute answers d.factory funds msg))
  | .puppeteer msg => do
    guard (contractAddr = d.puppeteer)
    s.callPuppeteer d C a ⟨d.factory, funds⟩ msg
  | .withdrawalVoucher msg => do
    guard (contractAddr = d.voucher ∧ funds = [])
    s.step d C (.voucher a.addrValidate d.factory msg)
  | .withdrawalManager msg => do
    guard (contractAddr = d.manager)
    s.step d C (.manager a.addrValidate ⟨d.factory, funds⟩ msg)
  | .validatorsSet msg => do
    guard (contractAddr = d.validatorsSet)
    s.callValidatorsSet d a.addrValidate ⟨d.factory, funds⟩ msg
  | .rewardsManager msg => do
    guard (contractAddr = d.rewardsManager)
    s.callRewardsManager d a.addrValidate balances ⟨d.factory, funds⟩ msg
  | .token msg => do
    guard (contractAddr = d.token)
    s.callToken d a.addrValidate ⟨d.factory, funds⟩ msg
  | .strategy msg => do
    guard (contractAddr = d.strategy)
    s.callStrategy d a.addrValidate ⟨d.factory, funds⟩ msg
  | .postInit => none

/-- A message of the factory. -/
def dispatch (answers : Answers) (a : Addresses) (balances : List Coin) (s : Administered σ) :
    Factory.Msg → Option (Administered σ)
  | .instantiate2 _ _ _ _ _ => none
  | .execute contractAddr msg funds => s.call d C answers a balances contractAddr funds msg

/-- A message to the factory, and what it sends. -/
def callFactory (q : Factory.Querier) (answers : Answers) (a : Addresses) (balances : List Coin)
    (info : MessageInfo) (msg : Factory.ExecuteMsg) : Option (Administered σ) := do
  let bank ← s.world.bank.send info.sender d.factory info.funds
  let (factory, msgs) ← (Factory.execute s.factory (factoryQuerier d q)
    ⟨s.world.height, s.world.time, d.factory⟩ info msg).toOption
  msgs.foldlM (dispatch d C answers a balances) { s.withBank bank with factory := factory }

/-- The state after a step. The contracts send nothing but what they send here. -/
def exec (action : AdminAction) : Option (Administered σ) :=
  if ∃ contract ∈ d.contracts, action.sender = some contract then none
  else match action with
  | .settlement a => s.step d C a
  | .puppeteer a info msg => s.callPuppeteer d C a info msg
  | .kvQueryResult queryId result => do
    let puppeteer ← (Puppeteer.sudoKvQueryResult s.puppeteer.puppeteer
      (s.world.puppeteerEnv d.toDeployment) queryId result).toOption
    some (s.withPuppeteer { s.puppeteer with puppeteer := puppeteer })
  | .txQueryResult transfers => do
    let puppeteer ← (Puppeteer.sudoTxQueryResult s.puppeteer.puppeteer transfers).toOption
    some (s.withPuppeteer { s.puppeteer with puppeteer := puppeteer })
  | .token addrValidate info msg => s.callToken d addrValidate info msg
  | .strategy addrValidate info msg => s.callStrategy d addrValidate info msg
  | .validatorsSet addrValidate info msg => s.callValidatorsSet d addrValidate info msg
  | .rewardsManager addrValidate balances info msg =>
    s.callRewardsManager d addrValidate balances info msg
  | .coreOwnership addrValidate info action => s.callCoreOwnership d addrValidate info action
  | .validatorsOwnership addrValidate info action =>
    s.callValidatorsOwnership d addrValidate info action
  | .factory q answers a balances info msg => s.callFactory d C q answers a balances info msg

end Administered

/-- A step of the system. -/
def AdminStep {σ : Type} (d : AdminDeployment) (C : OwnedCw721 σ Payload) (s : Administered σ)
    (a : AdminAction) (s' : Administered σ) : Prop :=
  s.exec d C a = some s'

/-- A step that the owner of the factory does not take, nor the owner that has been proposed. -/
def AdminAction.Outside {σ : Type} (s : Administered σ) : AdminAction → Prop
  | .factory _ _ _ _ info _ => s.factory.ownership.owner ≠ some info.sender ∧
      s.factory.ownership.pendingOwner ≠ some info.sender
  | _ => True

/-! ## Whom the contracts belong to -/

/-- The factory owns the other contracts and has proposed no other owner, stores their addresses, and
has told core the denomination of the token. Core mints the tokens and the vouchers. -/
structure Governed {σ : Type} (d : AdminDeployment) (C : OwnedCw721 σ Payload)
    (s : Administered σ) : Prop where
  stored : ∃ state, s.factory.state = some state ∧ state.coreContract = d.core ∧
    state.tokenContract = d.token ∧ state.withdrawalManagerContract = d.manager ∧
    state.rewardsManagerContract = d.rewardsManager
  core : s.world.core.owner = d.factory
  wired : Wired d.toDeployment s.world.core.config
  ldDenom : s.world.core.config.ldDenom = some d.tokenDenom
  puppeteer : s.items.cwOwner = d.factory ∧ s.world.puppeteer.config.owner = d.factory
  manager : s.settlement.manager.ownership = d.factory
  configured : d.Configured s.settlement.manager.config
  validatorsSet : s.validatorsSet.cwOwner = d.factory
  keyed : s.validatorsSet.Keyed
  rewardsManager : s.rewardsManager.ownership = d.factory
  token : TokenDeployed d.toDeployment s.token
  tokenOwner : s.token.ownership.owner = some d.factory
  minter : C.minter s.settlement.nft = some d.core
  proposedMinter : C.proposedMinter s.settlement.nft = none
  strategy : s.strategy.cwOwner = d.factory
  proposals : s.coreProposal.pendingOwner = none ∧ s.validatorsProposal.pendingOwner = none

/-- The contracts work by the same rules in two states: configurations, owners, minters, pauses,
fees, the key-value queries that are registered, the validators with their weights, the handlers of
rewards. Of the strategy it is the owner alone. -/
structure Administered.SameRules {σ : Type} (C : OwnedCw721 σ Payload) (s s' : Administered σ) :
    Prop where
  factory : s'.factory = s.factory
  world : s.world.SameRules s'.world
  puppeteerOwner : s'.items.cwOwner = s.items.cwOwner
  kvQueries : s'.items.kvQueries = s.items.kvQueries
  queries : s'.items.queries = s.items.queries
  manager : s'.settlement.manager = s.settlement.manager
  validatorsSet : ValidatorsSet.SameValidators s.validatorsSet s'.validatorsSet
  rewardsManager : s'.rewardsManager = s.rewardsManager
  token : s'.token = s.token ∧ s'.metadata = s.metadata
  minter : C.minter s'.settlement.nft = C.minter s.settlement.nft ∧
    C.proposedMinter s'.settlement.nft = C.proposedMinter s.settlement.nft
  strategyOwner : s'.strategy.cwOwner = s.strategy.cwOwner
  proposals : s'.coreProposal = s.coreProposal ∧ s'.validatorsProposal = s.validatorsProposal

section Rules

variable {σ : Type} {d : AdminDeployment} {C : OwnedCw721 σ Payload} {s s' s'' : Administered σ}
  {a : Addresses} {addrValidate : String → Bool} {balances : List Coin} {info : MessageInfo}

/-- Nothing has changed. -/
theorem Administered.SameRules.refl (hkeyed : s.validatorsSet.Keyed) : s.SameRules C s :=
  ⟨rfl, .refl _, rfl, rfl, rfl, rfl, .refl hkeyed, rfl, ⟨rfl, rfl⟩, ⟨rfl, rfl⟩, rfl, rfl, rfl⟩

/-- Two changes, one after the other. -/
theorem Administered.SameRules.trans (h : s.SameRules C s') (h' : s'.SameRules C s'') :
    s.SameRules C s'' :=
  ⟨h'.factory.trans h.factory, h.world.trans h'.world, h'.puppeteerOwner.trans h.puppeteerOwner,
    h'.kvQueries.trans h.kvQueries, h'.queries.trans h.queries, h'.manager.trans h.manager,
    h.validatorsSet.trans h'.validatorsSet, h'.rewardsManager.trans h.rewardsManager,
    ⟨h'.token.1.trans h.token.1, h'.token.2.trans h.token.2⟩,
    ⟨h'.minter.1.trans h.minter.1, h'.minter.2.trans h.minter.2⟩,
    h'.strategyOwner.trans h.strategyOwner, h'.proposals.1.trans h.proposals.1,
    h'.proposals.2.trans h.proposals.2⟩

/-- Whom the contracts belong to is one of the rules. -/
theorem Governed.of_sameRules (h : Governed d C s) (hsame : s.SameRules C s') :
    Governed d C s' where
  stored := by
    rw [hsame.factory]
    exact h.stored
  core := hsame.world.core.owner.trans h.core
  wired := by
    rw [hsame.world.core.config]
    exact h.wired
  ldDenom := by
    rw [hsame.world.core.config]
    exact h.ldDenom
  puppeteer := ⟨hsame.puppeteerOwner.trans h.puppeteer.1,
    (congrArg Puppeteer.Config.owner hsame.world.puppeteer.config).trans h.puppeteer.2⟩
  manager := by
    rw [hsame.manager]
    exact h.manager
  configured := by
    rw [hsame.manager]
    exact h.configured
  validatorsSet := hsame.validatorsSet.cwOwner.trans h.validatorsSet
  keyed := hsame.validatorsSet.keyed
  rewardsManager := by
    rw [hsame.rewardsManager]
    exact h.rewardsManager
  token := by
    rw [hsame.token.1]
    exact h.token
  tokenOwner := by
    rw [hsame.token.1]
    exact h.tokenOwner
  minter := hsame.minter.1.trans h.minter
  proposedMinter := hsame.minter.2.trans h.proposedMinter
  strategy := hsame.strategyOwner.trans h.strategy
  proposals := by
    rw [hsame.proposals.1, hsame.proposals.2]
    exact h.proposals

/-- The factory is none of the contracts of the settlement. -/
theorem AdminDeployment.factory_ne (d : AdminDeployment) : d.factory ≠ d.core ∧
    d.factory ≠ d.puppeteer ∧ d.factory ≠ d.token ∧ d.factory ≠ d.voucher ∧
    d.factory ≠ d.manager := by
  simpa only [List.mem_cons, List.not_mem_nil, or_false, not_or] using d.factory_new

/-! ## What others leave alone -/

/-- Coins that change hands leave the rules alone. -/
theorem sameRules_withBank (h : Governed d C s) (bank : Bank) : s.SameRules C (s.withBank bank) :=
  ⟨rfl, ⟨⟨rfl, rfl, rfl, rfl⟩, ⟨rfl, rfl, rfl⟩⟩, rfl, rfl, rfl, rfl, .refl h.keyed, rfl, ⟨rfl, rfl⟩,
    ⟨rfl, rfl⟩, rfl, rfl, rfl⟩

/-- A step of the settlement that the factory does not take leaves the rules alone. -/
theorem sameRules_of_settlement (h : Governed d C s) {b : SettlementAction}
    (hsender : b.sender ≠ some d.factory) (hstep : s.step d C b = some s') : s.SameRules C s' := by
  simp only [Administered.step, Option.bind_eq_bind, Option.bind_eq_some_iff,
    Option.some.injEq] at hstep
  obtain ⟨t, ht, rfl⟩ := hstep
  obtain ⟨hcore, -, -, hvoucher, -⟩ := d.factory_ne
  obtain ⟨hmanager, hworld⟩ := settlement_sameRules h.wired
    (by rw [h.puppeteer.2]; exact hcore.symm) (by rw [h.manager]; exact hvoucher.symm)
    ⟨by rw [h.core]; exact hsender, by rw [h.puppeteer.2]; exact hsender,
      by rw [h.manager]; exact hsender⟩ ht
  exact ⟨rfl, hworld, rfl, rfl, rfl, hmanager, .refl h.keyed, rfl, ⟨rfl, rfl⟩,
    settlement_sameMinter h.configured h.minter h.proposedMinter ht, rfl, rfl, rfl⟩

/-- A message about the queries or the configuration of the puppeteer leaves the rules alone, unless
the factory sends it. -/
theorem sameRules_of_callQueries (h : Governed d C s) (hsender : info.sender ≠ d.factory)
    {msg : FullMsg} (hmsg : ∀ request, msg ≠ .request request)
    (hcall : s.callQueries d a info msg = some s') : s.SameRules C s' := by
  simp only [Administered.callQueries, Option.bind_eq_bind, Option.bind_eq_some_iff,
    toOption_eq_some, Option.some.injEq] at hcall
  obtain ⟨bank, -, ⟨puppeteer, out⟩, hexec, w, hdispatch, rfl⟩ := hcall
  have howner : info.sender ≠ s.puppeteer.puppeteer.cwOwner := by
    rw [Administered.puppeteer, Puppeteer.QueryItems.full, h.puppeteer.1]
    exact hsender
  rcases Puppeteer.executeFull_of_ne_owner howner hexec with ⟨request, hrequest⟩ | ⟨rfl, _, _, _, rfl⟩
  · exact absurd hrequest (hmsg request)
  · simp only [List.filterMap_cons, Puppeteer.Outgoing.toIcq, List.filterMap_nil,
      Puppeteer.WithQueries.dispatchAll, Puppeteer.WithQueries.dispatch, Option.bind_some,
      Option.some.injEq] at hdispatch
    rw [← hdispatch]
    exact ⟨rfl, ⟨⟨rfl, rfl, rfl, rfl⟩, ⟨rfl, rfl, rfl⟩⟩, rfl, rfl, rfl, rfl, .refl h.keyed, rfl,
      ⟨rfl, rfl⟩, ⟨rfl, rfl⟩, rfl, rfl, rfl⟩

/-- A message to the puppeteer leaves the rules alone, unless the factory sends it. -/
theorem sameRules_of_callPuppeteer (h : Governed d C s) (hsender : info.sender ≠ d.factory)
    {msg : FullMsg} (hcall : s.callPuppeteer d C a info msg = some s') : s.SameRules C s' := by
  cases msg with
  | request request =>
    have hother : (SettlementAction.world (.executePuppeteer a.addrValidate info.sender info.funds
        request)).sender ≠ some d.factory := by
      simpa only [SettlementAction.sender, Action.sender, ne_eq, Option.some.injEq] using hsender
    exact sameRules_of_settlement h hother hcall
  | _ => exact sameRules_of_callQueries h hsender (by simp) hcall

/-- The result of a query leaves the rules alone. -/
theorem sameRules_of_withPuppeteer (h : Governed d C s) {puppeteer : Puppeteer.FullStorage}
    (hitems : puppeteer.kvQueries = s.items.kvQueries ∧ puppeteer.cwOwner = s.items.cwOwner)
    (hstorage : puppeteer.config = s.world.puppeteer.config ∧
      puppeteer.ibcFee = s.world.puppeteer.ibcFee ∧
      puppeteer.registerFee = s.world.puppeteer.registerFee) :
    s.SameRules C (s.withPuppeteer { s.puppeteer with puppeteer := puppeteer }) :=
  ⟨rfl, ⟨⟨rfl, rfl, rfl, rfl⟩, ⟨hstorage.1, hstorage.2.1, hstorage.2.2⟩⟩, hitems.2, hitems.1, rfl,
    rfl, .refl h.keyed, rfl, ⟨rfl, rfl⟩, ⟨rfl, rfl⟩, rfl, rfl, rfl⟩

/-- A message to the strategy may direct it elsewhere, and leaves its owner alone. -/
theorem sameRules_of_callStrategy (h : Governed d C s) {msg : Strategy.ExecuteMsg}
    (hcall : s.callStrategy d addrValidate info msg = some s') : s.SameRules C s' := by
  simp only [Administered.callStrategy, Option.bind_eq_bind, Option.bind_eq_some_iff,
    toOption_eq_some, Option.some.injEq] at hcall
  obtain ⟨bank, -, strategy, hexec, rfl⟩ := hcall
  obtain ⟨msg⟩ := msg
  have howner : strategy.cwOwner = s.strategy.cwOwner := by
    rw [(Strategy.execConfigUpdate_eq_ok.1 hexec).2]
  exact ⟨rfl, ⟨⟨rfl, rfl, rfl, rfl⟩, ⟨rfl, rfl, rfl⟩⟩, rfl, rfl, rfl, rfl, .refl h.keyed, rfl,
    ⟨rfl, rfl⟩, ⟨rfl, rfl⟩, howner, rfl, rfl⟩

/-- Nobody but core can call the token contract. -/
theorem callToken_eq_none (h : Governed d C s) (hsender : info.sender ≠ d.core)
    (msg : Token.ExecuteMsg) : s.callToken d addrValidate info msg = none := by
  have hdeployed : TokenDeployed d.toDeployment
      (⟨s.world, s.token, s.metadata⟩ : TokenWorld).token := h.token
  rw [Administered.callToken, callToken_outside hdeployed hsender]
  rfl

/-- A message to the validator set leaves the rules alone, unless the factory sends it. -/
theorem sameRules_of_callValidatorsSet (h : Governed d C s) (hsender : info.sender ≠ d.factory)
    {msg : ValidatorsSet.ExecuteMsg}
    (hcall : s.callValidatorsSet d addrValidate info msg = some s') : s.SameRules C s' := by
  simp only [Administered.callValidatorsSet, Option.bind_eq_bind, Option.bind_eq_some_iff,
    toOption_eq_some, Option.some.injEq] at hcall
  obtain ⟨bank, -, validatorsSet, hexec, rfl⟩ := hcall
  have hsame := ValidatorsSet.execute_sameValidators h.keyed
    (by rw [h.validatorsSet]; exact hsender) hexec
  exact ⟨rfl, ⟨⟨rfl, rfl, rfl, rfl⟩, ⟨rfl, rfl, rfl⟩⟩, rfl, rfl, rfl, rfl, hsame, rfl, ⟨rfl, rfl⟩,
    ⟨rfl, rfl⟩, rfl, rfl, rfl⟩

/-- A message to the rewards manager leaves the rules alone, unless the factory sends it. -/
theorem sameRules_of_callRewardsManager (h : Governed d C s) (hsender : info.sender ≠ d.factory)
    {msg : RewardsManager.ExecuteMsg}
    (hcall : s.callRewardsManager d addrValidate balances info msg = some s') :
    s.SameRules C s' := by
  simp only [Administered.callRewardsManager, Option.bind_eq_bind, Option.bind_eq_some_iff,
    toOption_eq_some, Option.some.injEq] at hcall
  obtain ⟨bank, -, ⟨rewardsManager, msgs⟩, hexec, bank', -, rfl⟩ := hcall
  rcases RewardsManager.execute_ok hexec with ⟨-, -, rfl, -⟩ | ⟨howner, -⟩
  · exact sameRules_withBank h bank'
  · exact absurd (howner.trans h.rewardsManager) hsender

/-- Nobody but the owner of a contract updates its ownership while no other owner has been
proposed. -/
theorem updateOwnership_eq_none {address owner : String} {p : Proposal} {action : OwnershipAction}
    (hsender : info.sender ≠ owner) (hnone : p.pendingOwner = none) :
    s.updateOwnership address owner p addrValidate info action = none := by
  rw [Option.eq_none_iff_forall_ne_some]
  intro r h
  simp only [Administered.updateOwnership, Option.bind_eq_bind, Option.bind_eq_some_iff,
    toOption_eq_some] at h
  obtain ⟨bank, -, o, hupdate, -⟩ := h
  rcases Ownership.update_ok hupdate with howner | hpending
  · exact hsender (Option.some.inj howner).symm
  · rw [Proposal.ownership, hnone] at hpending
    cases hpending

/-- Nobody but the factory updates the ownership of core. -/
theorem callCoreOwnership_eq_none (h : Governed d C s) {action : OwnershipAction}
    (hsender : info.sender ≠ d.factory) : s.callCoreOwnership d addrValidate info action = none := by
  rw [Administered.callCoreOwnership, h.core, updateOwnership_eq_none hsender h.proposals.1]
  rfl

/-- Nobody but the factory updates the ownership of the validator set. -/
theorem callValidatorsOwnership_eq_none (h : Governed d C s) {action : OwnershipAction}
    (hsender : info.sender ≠ d.factory) :
    s.callValidatorsOwnership d addrValidate info action = none := by
  rw [Administered.callValidatorsOwnership, h.validatorsSet,
    updateOwnership_eq_none hsender h.proposals.2]
  rfl

/-! ## The callback of the factory -/

/-- Core is told the denomination that it knows. -/
theorem update_knowDenom {config : Core.Config} {denom : String} (h : config.ldDenom = some denom) :
    config.update (knowDenom denom) = config := by
  cases config
  simp only at h
  subst h
  rfl

/-- A step that tells core the denomination that it knows changes nothing. -/
theorem step_knownDenom {d : Deployment} {w w' : World} {answers : Answers} {sender denom : String}
    (hdenom : w.core.config.ldDenom = some denom)
    (hstep : Step d w (.execute answers sender [] (.updateConfig (knowDenom denom))) w') :
    w' = w := by
  obtain ⟨-, -, bank, core, msgs, after, hbank, hexec, -, hafter, rfl⟩ := execute_ok hstep
  simp only [Core.execute, Core.silently, Core.executeUpdateConfig, bind_eq_ok, pure_eq_ok,
    Except.ok.injEq, Prod.mk.injEq, update_knowDenom hdenom] at hexec
  obtain ⟨_, ⟨-, -, rfl⟩, rfl, rfl⟩ := hexec
  rw [← Option.some.inj hafter, ← Option.some.inj hbank]
  simp only [World.noteEntered, ↓reduceIte]

/-- What others send to the factory changes no more than the coins that they attach. -/
theorem callFactory_outside (h : Governed d C s) {q : Factory.Querier} {answers : Answers}
    {msg : Factory.ExecuteMsg}
    (houtside : AdminAction.Outside s (.factory q answers a balances info msg))
    (hcall : s.callFactory d C q answers a balances info msg = some s') :
    ∃ bank, s.world.bank.send info.sender d.factory info.funds = some bank ∧
      s' = s.withBank bank := by
  simp only [Administered.callFactory, Option.bind_eq_bind, Option.bind_eq_some_iff,
    toOption_eq_some] at hcall
  obtain ⟨bank, hbank, ⟨factory, msgs⟩, hexec, hall⟩ := hcall
  obtain ⟨howner, hpending⟩ := houtside
  rcases Factory.execute_ok hexec with hsender | hsender | ⟨-, rfl, hpost⟩
  · exact absurd hsender howner
  · exact absurd hsender hpending
  · obtain ⟨state, hstate, hcore, htoken, -⟩ := h.stored
    simp only [Factory.executePostInit, Factory.loadState, bind_eq_ok, orError_eq_ok,
      Factory.ask_eq_ok, pure_eq_ok, Except.ok.injEq] at hpost
    obtain ⟨state', hstate', denom, hdenom, rfl⟩ := hpost
    obtain rfl := Option.some.inj (hstate.symm.trans hstate')
    rw [htoken] at hdenom
    simp only [Administered.factoryQuerier, ↓reduceIte, Except.ok.injEq] at hdenom
    subst hdenom
    refine ⟨bank, hbank, ?_⟩
    have hmem : d.core ∈ d.contracts := by simp [AdminDeployment.contracts]
    simp only [List.foldlM_cons, List.foldlM_nil, Administered.dispatch, Administered.call, hcore,
      hmem, not_true_eq_false, ↓reduceIte, guard_true, Administered.step, Settlement.exec,
      Option.bind_eq_bind, Option.bind_eq_some_iff, Option.pure_def, Option.some.injEq] at hall
    obtain ⟨_, ⟨-, -, t, ⟨-, -, w, hworld, nft, hmint, rfl⟩, rfl⟩, rfl⟩ := hall
    have hsame := step_knownDenom (w := (s.withBank bank).world) h.ldDenom hworld
    subst hsame
    rw [Administered.withBank, List.drop_length] at hmint
    rw [← Option.some.inj hmint]
    rfl

/-! ## Runs without the owner -/

/-- **A step that the owner of the factory does not take leaves the rules alone.** -/
theorem sameRules_of_adminStep (h : Governed d C s) {action : AdminAction}
    (houtside : AdminAction.Outside s action) (hstep : AdminStep d C s action s') :
    s.SameRules C s' := by
  simp only [AdminStep, Administered.exec] at hstep
  split_ifs at hstep with hcontract
  have hsender : action.sender ≠ some d.factory := fun heq =>
    hcontract ⟨d.factory, by simp [AdminDeployment.contracts], heq⟩
  cases action with
  | settlement b => exact sameRules_of_settlement h hsender hstep
  | puppeteer a info msg =>
    exact sameRules_of_callPuppeteer h (fun heq => hsender (congrArg some heq)) hstep
  | kvQueryResult queryId result =>
    simp only [Option.bind_eq_bind, Option.bind_eq_some_iff, toOption_eq_some,
      Option.some.injEq] at hstep
    obtain ⟨puppeteer, hresult, rfl⟩ := hstep
    obtain ⟨snapshot, rewards, hstorage⟩ := Puppeteer.sudoKvQueryResult_toStorage hresult
    refine sameRules_of_withPuppeteer h (sudoKvQueryResult_kvQueries hresult) ?_
    rw [hstorage]
    exact ⟨rfl, rfl, rfl⟩
  | txQueryResult transfers =>
    simp only [Option.bind_eq_bind, Option.bind_eq_some_iff, toOption_eq_some,
      Option.some.injEq] at hstep
    obtain ⟨puppeteer, hresult, rfl⟩ := hstep
    simp only [Puppeteer.sudoTxQueryResult, bind_eq_ok, pure_eq_ok, Except.ok.injEq] at hresult
    obtain ⟨ica, -, -, -, rfl⟩ := hresult
    exact sameRules_of_withPuppeteer h ⟨rfl, rfl⟩ ⟨rfl, rfl, rfl⟩
  | token addrValidate info msg =>
    have hcore : info.sender ≠ d.core := fun heq =>
      hcontract ⟨d.core, by simp [AdminDeployment.contracts], congrArg some heq⟩
    change s.callToken d addrValidate info msg = some s' at hstep
    rw [callToken_eq_none h hcore] at hstep
    cases hstep
  | strategy addrValidate info msg => exact sameRules_of_callStrategy h hstep
  | validatorsSet addrValidate info msg =>
    exact sameRules_of_callValidatorsSet h (fun heq => hsender (congrArg some heq)) hstep
  | rewardsManager addrValidate balances info msg =>
    exact sameRules_of_callRewardsManager h (fun heq => hsender (congrArg some heq)) hstep
  | coreOwnership addrValidate info action =>
    change s.callCoreOwnership d addrValidate info action = some s' at hstep
    rw [callCoreOwnership_eq_none h (fun heq => hsender (congrArg some heq))] at hstep
    cases hstep
  | validatorsOwnership addrValidate info action =>
    change s.callValidatorsOwnership d addrValidate info action = some s' at hstep
    rw [callValidatorsOwnership_eq_none h (fun heq => hsender (congrArg some heq))] at hstep
    cases hstep
  | factory q answers a balances info msg =>
    obtain ⟨bank, -, rfl⟩ := callFactory_outside h houtside hstep
    exact sameRules_withBank h bank

/-- **Only its owner governs a deployment**: along every run in which neither the owner of the
factory nor the owner that has been proposed sends a message to the factory, whatever anybody sends
to any of the contracts and whatever the chain answers, the rules that the contracts work by stay as
they are.

**Proof sketch.** The factory owns the contracts, and its messages come from its owner; but for the
callback of a deployment, which tells core the denomination that it knows. So whom the contracts
belong to is kept by every step. -/
theorem rules_kept (h : Governed d C s)
    (hrun : RunWhere (AdminStep d C) AdminAction.Outside s s') : s.SameRules C s' := by
  refine hrun.preserves (P := fun t => s.SameRules C t) ?_ (.refl h.keyed)
  intro t action t' houtside hstep hsame
  exact hsame.trans (sameRules_of_adminStep (h.of_sameRules hsame) houtside hstep)

/-! ## A deployment of the factory -/

/-- The contracts of a chain are in the states that they have in the system. -/
structure Chain.Administers (c : Chain) (d : AdminDeployment) (s : Administered Cw721Base) : Prop where
  factory : c.contracts.load d.factory = some (.factory s.factory)
  core : c.contracts.load d.core = some (.core s.world.core)
  puppeteer : c.contracts.load d.puppeteer = some (.puppeteer s.puppeteer.puppeteer)
  token : c.contracts.load d.token = some (.token s.token)
  strategy : c.contracts.load d.strategy = some (.strategy s.strategy)
  voucher : ∃ name symbol,
    c.contracts.load d.voucher = some (.withdrawalVoucher name symbol s.settlement.nft)
  manager : c.contracts.load d.manager = some (.withdrawalManager s.settlement.manager)
  validatorsSet : c.contracts.load d.validatorsSet = some (.validatorsSet s.validatorsSet)
  rewardsManager : c.contracts.load d.rewardsManager = some (.rewardsManager s.rewardsManager)

/-- The addresses of a deployment, with its factory. -/
theorem Chain.Deploys.exists_deployment {r : Registry} {c c₁ c' : Chain} {factory baseDenom : String}
    {coreParams : Factory.CoreParams} {d₀ : SettlementDeployment} {f : Factory.FullStorage}
    {state : Factory.FullState} {metadata : Token.Metadata} {token : Token.Storage}
    {manager : WithdrawalManager.Storage}
    (h : c.Deploys c₁ c' r factory baseDenom coreParams d₀ f state metadata token manager) :
    ∃ d : AdminDeployment, d.toSettlementDeployment = d₀ ∧ d.factory = factory ∧
      d.validatorsSet = state.validatorsSetContract ∧ d.strategy = state.strategyContract ∧
      d.rewardsManager = state.rewardsManagerContract := by
  have hnodup := h.nodup
  have hself : ∀ a ∈ state.addresses, factory ≠ a := fun a ha => (h.free a ha).1.symm
  simp only [Factory.FullState.addresses, List.mem_cons, List.not_mem_nil, or_false, forall_eq_or_imp,
    forall_eq] at hself
  simp only [Factory.FullState.addresses, List.nodup_cons, List.mem_cons, List.not_mem_nil, or_false,
    not_or] at hnodup
  refine ⟨{
    toSettlementDeployment := d₀
    factory := factory
    validatorsSet := state.validatorsSetContract
    strategy := state.strategyContract
    rewardsManager := state.rewardsManagerContract
    factory_new := ?_
    rewardsManager_new := ?_ }, rfl, rfl, rfl, rfl, rfl⟩
  all_goals
    rw [h.stored.core, h.stored.puppeteer, h.stored.token, h.stored.voucher, h.stored.manager]
    simp only [List.mem_cons, List.not_mem_nil, or_false, not_or]
    tauto

/-- **A deployment of the factory is one that it governs**, with core as the only contract whose
requests the puppeteer takes, and in a state from which the results about runs apply. -/
theorem governed_of_init {r : Registry} {c c' : Chain} {factory baseDenom : String}
    {coreParams : Factory.CoreParams} (h : c.init r factory info baseDenom coreParams = some c')
    (hlocal : baseDenom ≠ Puppeteer.LOCAL_DENOM)
    (hbase : ∀ address subdenom, r.fullDenom address subdenom ≠ .ok baseDenom)
    (hsupply : ∀ address subdenom denom, r.fullDenom address subdenom = .ok denom →
      denom ∉ c.denoms → c.bank.supply denom = 0)
    (htime : c.time.nanos < U64.bound) :
    ∃ d s, d.factory = factory ∧ d.baseDenom = baseDenom ∧ c'.Administers d s ∧
      Governed d (ownedCw721Base Payload) s ∧
      s.world.puppeteer.config.allowedSenders = [d.core] ∧
      SettlementReachable d.toSettlementDeployment (cw721Base Payload) s.settlement := by
  obtain ⟨c₁, d₀, f, state, metadata, token, manager, hdeploys⟩ := deploys_of_init h hlocal hbase
  obtain ⟨d, rfl, hfactory, hvalidators, hstrategyAddress, hrewards⟩ := hdeploys.exists_deployment
  obtain ⟨hnodup, hfree, hloaded, hstate, hcreated, hstored, rfl, hdenom, hfull, hnewDenom, hsupplies,
    htimes, hknown⟩ := hdeploys
  obtain ⟨v, hv, hvalidatorsOwner, hkeyed⟩ := hcreated.validatorsSet
  obtain ⟨p, hp, hstorage, hpuppeteerOwner⟩ := hcreated.puppeteer
  obtain ⟨m, hm, hrewardsOwner⟩ := hcreated.rewardsManager
  obtain ⟨t, ht, -⟩ := hcreated.strategy
  have hfirst : TokenInitial d.toDeployment ⟨deployedWorld c₁ (Core.instantiate
      (Factory.coreConfig f.config state d.baseDenom coreParams) factory 0) p.toStorage, token,
      some metadata⟩ := by
    obtain ⟨addrValidate, s, msg, env, fullDenom, sender, hinst, hquery, hreply⟩ :=
      hcreated.tokenSet
    rw [← hstored.core] at hinst
    rw [← hdenom] at hquery
    exact ⟨addrValidate, f.config.subdenom, f.config.tokenMetadata, factory, s, msg, env, fullDenom,
      sender, metadata, hinst, hquery, hreply, rfl⟩
  obtain ⟨q, hmanager⟩ := hcreated.managerSet
  have hwired₀ : Wired d.toDeployment (Factory.coreConfig f.config state d.baseDenom coreParams) :=
    ⟨hstored.puppeteer.symm, hstored.token.symm, hstored.voucher.symm, rfl, .inl rfl⟩
  have hconfigured : d.Configured ⟨state.coreContract, state.withdrawalVoucherContract, d.baseDenom,
      factory⟩ := ⟨hstored.core.symm, hstored.voucher.symm, rfl⟩
  have hsenders : (Factory.puppeteerConfig factory f.config state).allowedSenders = [d.core] := by
    rw [hstored.core]
    rfl
  obtain ⟨hcoreNe, hpuppeteerNe, -, -, hmanagerNe⟩ := d.factory_ne
  rw [hfactory] at hcoreNe hpuppeteerNe hmanagerNe
  have hreachable := settlementReachable_of_made (d := d.toSettlementDeployment) (c := c₁)
    state.coreContract hwired₀ hsenders hmanager hconfigured
    (by rw [hsupplies, hdenom]; exact hsupply _ _ _ hfull hnewDenom) (by rw [htimes]; exact htime)
    hcoreNe hpuppeteerNe hmanagerNe
  rw [← hstorage, hdenom] at hreachable
  simp only [WithdrawalManager.instantiate, WithdrawalManager.initializeOwner, bind_eq_ok,
    pure_eq_ok, Except.ok.injEq] at hmanager
  obtain ⟨-, -, rfl⟩ := hmanager
  obtain ⟨core, hcoreOwner, hwired, hknows, hreachable, rfl⟩ : ∃ core : Core.Storage,
      core.owner = factory ∧ Wired d.toDeployment core.config ∧
      core.config.ldDenom = some d.tokenDenom ∧
      SettlementReachable d.toSettlementDeployment (cw721Base Payload) {
        world := deployedWorld c₁ core p.toStorage
        manager := _
        nft := ⟨StorageMap.empty, [], some state.coreContract, none⟩
        payments := [] } ∧ c' = c₁.setCore state.coreContract core :=
    ⟨_, rfl, ⟨hstored.puppeteer.symm, hstored.token.symm, hstored.voucher.symm, rfl,
      .inr (by rw [hdenom]; rfl)⟩, by rw [hdenom]; rfl, hreachable, hknown⟩
  have hne := coreContract_not_mem hnodup
  simp only [List.mem_cons, List.not_mem_nil, or_false, not_or] at hne
  obtain ⟨hne₁, hne₂, -, hne₄, hne₅, hne₆, hne₇, hne₈⟩ := hne
  obtain ⟨htokenOwner, hstrategyOwner⟩ := hcreated.owners hnodup ht
  have hself := (hfree state.coreContract (by simp [Factory.FullState.addresses])).1
  have hload : ∀ {a}, state.coreContract ≠ a →
      (c₁.setCore state.coreContract core).contracts.load a = c₁.contracts.load a :=
    fun ha => StorageMap.load_save_of_ne _ _ (Ne.symm ha)
  refine ⟨d, {
      factory := f
      settlement := {
        world := deployedWorld c₁ core p.toStorage
        manager := _
        nft := _
        payments := [] }
      items := Puppeteer.WithQueries.items ⟨p, StorageMap.empty, 0⟩
      token := token
      metadata := some metadata
      validatorsSet := v
      strategy := t
      rewardsManager := m
      coreProposal := ⟨none, none⟩
      validatorsProposal := ⟨none, none⟩ }, hfactory, rfl, {
    factory := by rw [hfactory, hload hself]; exact hloaded
    core := by rw [hstored.core]; exact StorageMap.load_save_self _ _ _
    puppeteer := by rw [hstored.puppeteer, hload hne₄]; exact hp
    token := by rw [hstored.token, hload hne₁]; exact hcreated.token
    strategy := by rw [hstrategyAddress, hload hne₅]; exact ht
    voucher := ⟨_, _, by rw [hstored.voucher, hload hne₆]; exact hcreated.voucher⟩
    manager := by rw [hstored.manager, hload hne₇]; exact hcreated.manager
    validatorsSet := by rw [hvalidators, hload hne₂]; exact hv
    rewardsManager := by rw [hrewards, hload hne₈]; exact hm }, {
    stored := ⟨state, hstate, hstored.core.symm, hstored.token.symm, hstored.manager.symm,
      hrewards.symm⟩
    core := hcoreOwner.trans hfactory.symm
    wired := hwired
    ldDenom := hknows
    puppeteer := ⟨hpuppeteerOwner.trans hfactory.symm, ?_⟩
    manager := hfactory.symm
    configured := ⟨hstored.core.symm, hstored.voucher.symm, rfl⟩
    validatorsSet := hvalidatorsOwner.trans hfactory.symm
    keyed := hkeyed
    rewardsManager := hrewardsOwner.trans hfactory.symm
    token := hfirst.deployed
    tokenOwner := by rw [hfactory]; exact htokenOwner
    minter := by rw [hstored.core]; rfl
    proposedMinter := rfl
    strategy := hstrategyOwner.trans hfactory.symm
    proposals := ⟨rfl, rfl⟩ }, ?_, hreachable⟩
  · show p.toStorage.config.owner = d.factory
    rw [hstorage, hfactory]
    rfl
  · show p.toStorage.config.allowedSenders = [d.core]
    rw [hstorage, hstored.core]
    rfl

end Rules

/-! ## A deployment with its factory -/

namespace Sample

/-- The addresses of a deployment with its factory. -/
def adminDeployment : AdminDeployment where
  toSettlementDeployment := settlementDeployment
  factory := "factory"
  validatorsSet := "validators"
  strategy := "strategy"
  rewardsManager := "rewards"
  factory_new := by decide
  rewardsManager_new := by decide

/-- The addresses that the factory stores. -/
def fullState : Factory.FullState where
  coreContract := "core"
  puppeteerContract := "puppeteer"
  validatorsSetContract := "validators"
  tokenContract := "token"
  withdrawalVoucherContract := "voucher"
  withdrawalManagerContract := "manager"
  strategyContract := "strategy"
  distributionContract := "distribution"
  rewardsManagerContract := "rewards"

/-- Core and the puppeteer right after a deployment by the factory. -/
def ownedWorld : World :=
  { initial with
    core := { Core.instantiate config "factory" 1000 with
      config := { config with ldDenom := some "udatom" } }
    puppeteer := Puppeteer.instantiate { puppeteerConfig with owner := "factory" } }

/-- The contracts right after a deployment by the factory of the account `dao`. -/
def administered : Administered Cw721Base where
  factory := ⟨⟨some "dao", none, none⟩, factoryConfig, some fullState⟩
  settlement := { settlement with
    world := ownedWorld
    manager := ⟨⟨"core", "voucher", "ibc/uatom", "factory"⟩, "factory", false⟩ }
  items := ⟨"factory", StorageMap.empty, StorageMap.empty, StorageMap.empty, [], StorageMap.empty, 0⟩
  token := ⟨⟨some "factory", none, none⟩, "core", "udatom", none⟩
  metadata := none
  validatorsSet := ⟨⟨"factory", "stats", none⟩, "factory", StorageMap.empty⟩
  strategy := ⟨"factory", "puppeteer", "validators", "distribution", "uatom", "factory"⟩
  rewardsManager := ⟨"factory", StorageMap.empty, false⟩
  coreProposal := ⟨none, none⟩
  validatorsProposal := ⟨none, none⟩

/-- The factory governs the contracts. -/
theorem administered_governed :
    Governed adminDeployment (ownedCw721Base Payload) administered where
  stored := ⟨fullState, rfl, rfl, rfl, rfl, rfl⟩
  core := rfl
  wired := by decide
  ldDenom := rfl
  puppeteer := ⟨rfl, rfl⟩
  manager := rfl
  configured := ⟨rfl, rfl, rfl⟩
  validatorsSet := rfl
  keyed := fun _ _ hload => by cases hload
  rewardsManager := rfl
  token := ⟨rfl, rfl⟩
  tokenOwner := rfl
  minter := rfl
  proposedMinter := rfl
  strategy := rfl
  proposals := ⟨rfl, rfl⟩

/-- Whether the owner of the factory is not concerned with a step. -/
def outside (s : Administered Cw721Base) : AdminAction → Bool
  | .factory _ _ _ _ info _ => decide (s.factory.ownership.owner ≠ some info.sender ∧
      s.factory.ownership.pendingOwner ≠ some info.sender)
  | _ => true

/-- The state after a list of steps that the owner of the factory does not take. -/
def runOutside (s : Administered Cw721Base) (actions : List AdminAction) :
    Option (Administered Cw721Base) :=
  runList (Administered.exec adminDeployment (ownedCw721Base Payload)) outside s actions

/-- A list of steps is run by evaluation. -/
theorem run_of_runOutside {s s' : Administered Cw721Base} {actions : List AdminAction}
    (h : runOutside s actions = some s') :
    RunWhere (AdminStep adminDeployment (ownedCw721Base Payload)) AdminAction.Outside s s' := by
  refine runList_eq_some (fun _ _ _ hexec => hexec) (fun s a _ houtside => ?_) h
  cases a with
  | factory q answers a balances info msg =>
    simpa only [outside, AdminAction.Outside, decide_eq_true_eq] using houtside
  | _ => trivial

/-- What the factory of the sample chain learns. -/
def factoryQuerier : Factory.Querier := chain.querier registry

/-- Mallory calls the callback of the factory, Alice bonds, and the rewards are handed over. -/
def others : List AdminAction := [
  .factory factoryQuerier (answers members) addresses [] ⟨"mallory", []⟩ .callbackPostInit,
  .settlement (.world (bond 1000)),
  .rewardsManager (fun _ => true) [] ⟨"mallory", []⟩ .exchangeRewards]

end Sample

open Sample

/-- Others act on the sample deployment, and Alice's coins are bonded by the same rules. -/
theorem rules_kept_sample : ∃ s, runOutside administered others = some s ∧
    s.world.bank.balance "core" "ibc/uatom" = 1000 ∧
      administered.SameRules (ownedCw721Base Payload) s := by
  have hrun : (runOutside administered others).any (fun s =>
      decide (s.world.bank.balance "core" "ibc/uatom" = 1000)) = true := by
    decide
  obtain ⟨s, hs, hcheck⟩ := (Option.any_eq_true _ _).1 hrun
  exact ⟨s, hs, of_decide_eq_true hcheck,
    rules_kept administered_governed (run_of_runOutside hs)⟩

end System

end DropContracts
