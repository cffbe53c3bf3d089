import DropContracts.Factory.Deployment
import DropContracts.System.Settlement
import DropContracts.System.TokenContract

set_option relaxedAutoImplicit false
set_option autoImplicit false

/-!
# The deployment by the factory

The other modules start from contracts that have just been instantiated and know each other. Here the
factory instantiates them: one transaction of its owner, in which the chain puts nine contracts at the
addresses that the factory has computed, and the factory tells core the denomination of the token
contract. When the transaction goes through, the contracts are in a reachable state of the systems
that the other modules are about.

## Main definitions

* `System.Registry`, `System.Contract`, `System.Chain` — the codes of a chain, a contract with its
  storage, and the state of the chain.
* `System.Chain.instantiate2` — a new contract, at an address that is free.
* `System.Chain.init` — the transaction of the owner.
* `System.Chain.Hosts` — the contracts of a deployment are at their addresses.
* `System.ChainStep` — the steps of a chain with the factory.

## Main results

* `System.instantiateAll_ok` — a list of instantiations puts new contracts at different addresses.
* `System.init_deploys` — the contracts are wired, and the systems are in reachable states.
* `System.init_once` — the factory deploys once, and its addresses never change.

## Design

The codes of a chain are those of this repository, and instantiating a contract with the message of
another one fails. What wallets show of a denomination is left out. A contract at its address stays
there.
-/

namespace DropContracts

namespace System

open Exec

/-! ## The chain -/

/-- The codes of the contracts. -/
inductive Code where
  | token
  | validatorsSet
  | distribution
  | puppeteer
  | strategy
  | core
  | withdrawalVoucher
  | withdrawalManager
  | rewardsManager
  deriving DecidableEq, Repr

/-- What stays fixed on a chain: the codes with their checksums, the address of a contract with a
checksum, a creator and a salt, the full name of a denomination of a creator, the address check. -/
structure Registry where
  code : ℕ → Option Code
  checksum : ℕ → Except String String
  instantiate2Address : String → String → String → Except String String
  fullDenom : String → String → Except String String
  addrValidate : String → Bool

/-- A contract with its storage. -/
inductive Contract where
  | factory (s : Factory.FullStorage)
  | token (s : Token.Storage)
  | validatorsSet (s : ValidatorsSet.Storage)
  | distribution
  | puppeteer (s : Puppeteer.FullStorage)
  | strategy (s : Strategy.Storage)
  | core (s : Core.Storage)
  | withdrawalVoucher (name symbol : String) (s : Cw721Base)
  | withdrawalManager (s : WithdrawalManager.Storage)
  | rewardsManager (s : RewardsManager.Storage)

/-- The owner of a contract; that of a voucher contract is who may mint. -/
def Contract.owner : Contract → Option String
  | .factory s => s.ownership.owner
  | .token s => s.ownership.owner
  | .validatorsSet s => some s.cwOwner
  | .distribution => none
  | .puppeteer s => some s.cwOwner
  | .strategy s => some s.cwOwner
  | .core s => some s.owner
  | .withdrawalVoucher _ _ s => s.cwOwner
  | .withdrawalManager s => some s.ownership
  | .rewardsManager s => some s.ownership

/-- The state of the chain: the contracts by their addresses, the denominations that contracts have
created, the bank, the present block. -/
structure Chain where
  contracts : StorageMap String Contract
  denoms : List String
  bank : Bank
  height : ℕ
  time : Timestamp

/-- A contract that has no questions while it is instantiated. -/
def managerQuerier (addrValidate : String → Bool) : WithdrawalManager.Querier where
  nftInfo _ _ := .error "no answer"
  unbondBatch _ _ := .error "no answer"
  addrValidate := addrValidate

/-- The contract that an instantiation makes, and the message that it sends. A contract with the
voucher code is that of the token library: its minter owns it. -/
def Registry.create (r : Registry) (now : Timestamp) :
    Code → Factory.InstantiateMsg → Option (Contract × Option Token.Msg)
  | .token, .token coreAddress subdenom tokenMetadata owner => do
    let (s, msg) ←
      (Token.instantiate r.addrValidate coreAddress subdenom tokenMetadata owner).toOption
    some (.token s, some msg)
  | .validatorsSet, .validatorsSet statsContract owner => do
    let s ← (ValidatorsSet.instantiate r.addrValidate owner statsContract).toOption
    some (.validatorsSet s, none)
  | .distribution, .distribution => some (.distribution, none)
  | .puppeteer, .puppeteer config => do
    let s ← (Puppeteer.instantiateFull r.addrValidate config).toOption
    some (.puppeteer s, none)
  | .strategy, .strategy msg => do
    let s ← (Strategy.instantiate r.addrValidate msg).toOption
    some (.strategy s, none)
  | .core, .core config owner => do
    guard (r.addrValidate owner = true)
    some (.core (Core.instantiate config owner now.seconds), none)
  | .withdrawalVoucher, .withdrawalVoucher name symbol minter => do
    guard (r.addrValidate minter = true)
    some (.withdrawalVoucher name symbol ⟨StorageMap.empty, [], some minter, none⟩, none)
  | .withdrawalManager, .withdrawalManager config => do
    let s ← (WithdrawalManager.instantiate (managerQuerier r.addrValidate) config).toOption
    some (.withdrawalManager s, none)
  | .rewardsManager, .rewardsManager owner => do
    let s ← (RewardsManager.instantiate r.addrValidate owner).toOption
    some (.rewardsManager s, none)
  | _, _ => none

namespace Chain

variable (r : Registry) (c : Chain)

/-- What the factory learns from the chain and from the token contract. -/
def querier : Factory.Querier where
  codeChecksum := r.checksum
  instantiate2Address := r.instantiate2Address
  tokenDenom address :=
    match c.contracts.load address with
    | some (.token s) => .ok s.denom
    | _ => .error "not found"
  addrValidate := r.addrValidate

/-- The message that a token contract sends while it is instantiated: its denomination is created,
which has to be new, and the contract takes the reply. -/
def createDenom (address : String) (s : Token.Storage) : Token.Msg → Option Chain
  | .createDenom subdenom replyId => do
    let denom ← (r.fullDenom address subdenom).toOption
    guard (denom ∉ c.denoms)
    let (s, _) ←
      (Token.reply s ⟨c.height, c.time, address⟩ (r.fullDenom address) replyId).toOption
    some { c with
      contracts := c.contracts.save address (.token s)
      denoms := denom :: c.denoms }
  | _ => none

/-- A new contract, at the address that the chain gives it, which has to be free. -/
def instantiate2 (creator salt : String) (codeId : ℕ) (msg : Factory.InstantiateMsg) :
    Option Chain := do
  let checksum ← (r.checksum codeId).toOption
  let address ← (r.instantiate2Address checksum creator salt).toOption
  guard ((c.contracts.load address).isNone = true)
  let code ← r.code codeId
  match ← r.create c.time code msg with
  | (.token s, some out) => c.createDenom r address s out
  | (contract, _) => some { c with contracts := c.contracts.save address contract }

/-- The core contract at an address has another storage. -/
def setCore (address : String) (s : Core.Storage) : Chain :=
  { c with contracts := c.contracts.save address (.core s) }

/-- An update of the configuration of the core contract at an address. -/
def updateCore (sender address : String) (newConfig : Core.ConfigOptional) : Option Chain :=
  match c.contracts.load address with
  | some (.core s) => do
    let s ← (Core.executeUpdateConfig s ⟨sender, []⟩ newConfig).toOption
    some (c.setCore address s)
  | _ => none

/-- The callback of the factory, with what it sends: an update of core. -/
def postInit (factory : String) : Option Chain :=
  match c.contracts.load factory with
  | some (.factory s) => do
    match ← (Factory.executePostInit s (c.querier r)).toOption with
    | [.execute contractAddr (.core (.updateConfig newConfig)) []] =>
      c.updateCore factory contractAddr newConfig
    | _ => none
  | _ => none

/-- A message of the factory that a deployment sends: an instantiation, or the callback. -/
def dispatch (factory : String) (c : Chain) : Factory.Msg → Option Chain
  | .instantiate2 _ codeId _ msg salt => c.instantiate2 r factory salt codeId msg
  | .execute contractAddr .postInit [] =>
    if contractAddr = factory then c.postInit r factory else none
  | _ => none

/-- **The deployment**: a call of the factory with `Init`, and all that follows. -/
def init (factory : String) (info : MessageInfo) (baseDenom : String)
    (coreParams : Factory.CoreParams) : Option Chain :=
  match c.contracts.load factory with
  | some (.factory s) => do
    let bank ← c.bank.send info.sender factory info.funds
    let (s, msgs) ← (Factory.executeInit s (c.querier r) ⟨c.height, c.time, factory⟩ info
      baseDenom coreParams).toOption
    msgs.foldlM (dispatch r factory)
      { c with bank := bank, contracts := c.contracts.save factory (.factory s) }
  | _ => none

end Chain

/-! ## Instantiations -/

/-- Core is told the denomination of the token. -/
def knowDenom (denom : String) : Core.ConfigOptional :=
  { Core.ConfigOptional.empty with ldDenom := some denom }

/-- What an instantiation has made: a contract at an address, after a list of denominations had been
created. -/
inductive Made (r : Registry) (denoms : List String) (env : Env) :
    Factory.InstantiateMsg → Contract → Prop
  | token {coreAddress subdenom owner denom sender : String} {tokenMetadata : Token.DenomMetadata}
      {metadata : Token.Metadata} {s s' : Token.Storage} {msg : Token.Msg}
      (hinst : Token.instantiate r.addrValidate coreAddress subdenom tokenMetadata owner =
        .ok (s, msg))
      (hdenom : r.fullDenom env.contractAddress subdenom = .ok denom) (hnew : denom ∉ denoms)
      (hreply : Token.reply s env (r.fullDenom env.contractAddress) Token.CREATE_DENOM_REPLY_ID =
        .ok (s', .setDenomMetadata sender metadata)) :
      Made r denoms env (.token coreAddress subdenom tokenMetadata owner) (.token s')
  | validatorsSet {statsContract owner : String} {s : ValidatorsSet.Storage}
      (hinst : ValidatorsSet.instantiate r.addrValidate owner statsContract = .ok s) :
      Made r denoms env (.validatorsSet statsContract owner) (.validatorsSet s)
  | distribution : Made r denoms env .distribution .distribution
  | puppeteer {config : Puppeteer.Config} {s : Puppeteer.FullStorage}
      (hinst : Puppeteer.instantiateFull r.addrValidate config = .ok s) :
      Made r denoms env (.puppeteer config) (.puppeteer s)
  | strategy {msg : Strategy.InstantiateMsg} {s : Strategy.Storage}
      (hinst : Strategy.instantiate r.addrValidate msg = .ok s) :
      Made r denoms env (.strategy msg) (.strategy s)
  | core {config : Core.Config} {owner : String} :
      Made r denoms env (.core config owner)
        (.core (Core.instantiate config owner env.time.seconds))
  | withdrawalVoucher {name symbol minter : String} :
      Made r denoms env (.withdrawalVoucher name symbol minter)
        (.withdrawalVoucher name symbol ⟨StorageMap.empty, [], some minter, none⟩)
  | withdrawalManager {config : WithdrawalManager.Config} {s : WithdrawalManager.Storage}
      (hinst : WithdrawalManager.instantiate (managerQuerier r.addrValidate) config = .ok s) :
      Made r denoms env (.withdrawalManager config) (.withdrawalManager s)
  | rewardsManager {owner : String} {s : RewardsManager.Storage}
      (hinst : RewardsManager.instantiate r.addrValidate owner = .ok s) :
      Made r denoms env (.rewardsManager owner) (.rewardsManager s)

/-- What is new after more denominations were created, is new. -/
theorem Made.mono {r : Registry} {denoms denoms' : List String} {env : Env}
    {msg : Factory.InstantiateMsg} {contract : Contract} (h : Made r denoms' env msg contract)
    (hsub : denoms ⊆ denoms') : Made r denoms env msg contract := by
  cases h with
  | token hinst hdenom hnew hreply => exact .token hinst hdenom (fun h => hnew (hsub h)) hreply
  | validatorsSet hinst => exact .validatorsSet hinst
  | distribution => exact .distribution
  | puppeteer hinst => exact .puppeteer hinst
  | strategy hinst => exact .strategy hinst
  | core => exact .core
  | withdrawalVoucher => exact .withdrawalVoucher
  | withdrawalManager hinst => exact .withdrawalManager hinst
  | rewardsManager hinst => exact .rewardsManager hinst

/-- The owner that an instantiation names. -/
def instantiateOwner : Factory.InstantiateMsg → Option String
  | .token _ _ _ owner => some owner
  | .validatorsSet _ owner => some owner
  | .distribution => none
  | .puppeteer config => some config.owner
  | .strategy msg => some msg.coreAddress
  | .core _ owner => some owner
  | .withdrawalVoucher _ _ minter => some minter
  | .withdrawalManager config => some config.owner
  | .rewardsManager owner => some owner

/-- **A new contract belongs to the owner that its instantiation names.** -/
theorem Made.owner {r : Registry} {denoms : List String} {env : Env}
    {msg : Factory.InstantiateMsg} {contract : Contract} (h : Made r denoms env msg contract) :
    contract.owner = instantiateOwner msg := by
  cases h with
  | token hinst hdenom hnew hreply =>
    simp only [Token.instantiate, Ownership.initializeOwner, bind_eq_ok, mapError_eq_ok,
      pure_eq_ok, Except.ok.injEq, Prod.mk.injEq] at hinst
    obtain ⟨_, ⟨-, -, rfl⟩, -, -, rfl, -⟩ := hinst
    simp only [Token.reply, ↓reduceIte, hdenom, ok_bind, bind_eq_ok, orError_eq_ok, pure_eq_ok,
      Except.ok.injEq, Prod.mk.injEq] at hreply
    obtain ⟨-, -, rfl, -⟩ := hreply
    rfl
  | validatorsSet hinst =>
    simp only [ValidatorsSet.instantiate, bind_eq_ok, pure_eq_ok, Except.ok.injEq] at hinst
    obtain ⟨-, -, -, -, rfl⟩ := hinst
    rfl
  | distribution => rfl
  | puppeteer hinst =>
    simp only [Puppeteer.instantiateFull, bind_eq_ok, pure_eq_ok, Except.ok.injEq] at hinst
    obtain ⟨-, -, -, -, rfl⟩ := hinst
    rfl
  | strategy hinst =>
    simp only [Strategy.instantiate, bind_eq_ok, Strategy.validateAddr_eq_ok, pure_eq_ok,
      Except.ok.injEq] at hinst
    obtain ⟨_, ⟨-, rfl⟩, _, -, _, -, _, -, rfl⟩ := hinst
    rfl
  | core => rfl
  | withdrawalVoucher => rfl
  | withdrawalManager hinst =>
    simp only [WithdrawalManager.instantiate, WithdrawalManager.initializeOwner, bind_eq_ok,
      pure_eq_ok, Except.ok.injEq] at hinst
    obtain ⟨-, -, rfl⟩ := hinst
    rfl
  | rewardsManager hinst =>
    simp only [RewardsManager.instantiate, bind_eq_ok, pure_eq_ok, Except.ok.injEq] at hinst
    obtain ⟨-, -, rfl⟩ := hinst
    rfl

/-- The chain has got new contracts, each at an address of its own that was free, and nothing else
has happened to the contracts and the bank. -/
structure Chain.Extended (c : Chain) (placed : List (String × Contract)) (c' : Chain) : Prop where
  nodup : (placed.map Prod.fst).Nodup
  free : ∀ p ∈ placed, c.contracts.load p.1 = none
  load : ∀ p ∈ placed, c'.contracts.load p.1 = some p.2
  kept : ∀ a ∉ placed.map Prod.fst, c'.contracts.load a = c.contracts.load a
  bank : c'.bank = c.bank
  height : c'.height = c.height
  time : c'.time = c.time
  denoms : c.denoms ⊆ c'.denoms

section Instantiations

variable {r : Registry} {c c' c'' : Chain} {creator salt : String}

/-- Nothing new. -/
theorem Chain.Extended.refl (c : Chain) : c.Extended [] c :=
  ⟨List.nodup_nil, by simp, by simp, fun _ _ => rfl, rfl, rfl, rfl, List.Subset.refl _⟩

/-- One new contract and then others. -/
theorem Chain.Extended.cons {p : String × Contract} {placed : List (String × Contract)}
    (h : c.Extended [p] c') (hrest : c'.Extended placed c'') : c.Extended (p :: placed) c'' := by
  have hp : c'.contracts.load p.1 = some p.2 := h.load p (List.mem_singleton_self p)
  have hfresh : ∀ e ∈ placed, e.1 ≠ p.1 := by
    intro e he heq
    have hnone := hrest.free e he
    rw [heq, hp] at hnone
    cases hnone
  have hnotin : p.1 ∉ placed.map Prod.fst := by
    intro hmem
    obtain ⟨e, he, heq⟩ := List.mem_map.1 hmem
    exact hfresh e he heq
  refine ⟨?_, ?_, ?_, ?_, hrest.bank.trans h.bank, hrest.height.trans h.height,
    hrest.time.trans h.time, List.Subset.trans h.denoms hrest.denoms⟩
  · rw [List.map_cons]
    exact List.nodup_cons.2 ⟨hnotin, hrest.nodup⟩
  · intro e he
    rcases List.mem_cons.1 he with rfl | he
    · exact h.free e (List.mem_singleton_self e)
    · rw [← h.kept e.1 (by simpa using hfresh e he)]
      exact hrest.free e he
  · intro e he
    rcases List.mem_cons.1 he with rfl | he
    · rw [hrest.kept _ hnotin]
      exact hp
    · exact hrest.load e he
  · intro a ha
    rw [List.map_cons, List.mem_cons, not_or] at ha
    rw [hrest.kept a ha.2, h.kept a (by simpa using ha.1)]

/-- A contract put at a free address. -/
theorem Chain.extended_save {address : String} {contract : Contract} {denoms : List String}
    (hfree : c.contracts.load address = none) (hsub : c.denoms ⊆ denoms) :
    c.Extended [(address, contract)]
      { c with contracts := c.contracts.save address contract, denoms := denoms } := by
  refine ⟨List.nodup_singleton _, by simpa using hfree, by simp, fun a ha => ?_, rfl, rfl, rfl,
    hsub⟩
  rw [List.map_singleton, List.mem_singleton] at ha
  exact StorageMap.load_save_of_ne _ _ ha

/-- What an instantiation makes, but for the denomination of a token contract. -/
theorem create_ok {now : Timestamp} {code : Code} {msg : Factory.InstantiateMsg}
    {contract : Contract} {out : Option Token.Msg} {denoms : List String} {env : Env}
    (hnow : env.time = now) (h : r.create now code msg = some (contract, out)) :
    (out = none ∧ Made r denoms env msg contract) ∨ ∃ s out' coreAddress subdenom tokenMetadata owner,
      contract = .token s ∧ out = some out' ∧
      msg = .token coreAddress subdenom tokenMetadata owner ∧
      Token.instantiate r.addrValidate coreAddress subdenom tokenMetadata owner = .ok (s, out') := by
  subst hnow
  cases code <;> cases msg <;>
    simp only [Registry.create, Option.bind_eq_bind, Option.bind_eq_some_iff, toOption_eq_some,
      Option.guard_eq_some', Option.some.injEq, Prod.mk.injEq, reduceCtorEq] at h
  case token.token =>
    obtain ⟨⟨s, msg⟩, hinst, rfl, rfl⟩ := h
    exact .inr ⟨s, msg, _, _, _, _, rfl, rfl, rfl, hinst⟩
  case validatorsSet.validatorsSet =>
    obtain ⟨s, hinst, rfl, hout⟩ := h
    exact .inl ⟨hout.symm, .validatorsSet hinst⟩
  case distribution.distribution =>
    obtain ⟨rfl, hout⟩ := h
    exact .inl ⟨hout.symm, .distribution⟩
  case puppeteer.puppeteer =>
    obtain ⟨s, hinst, rfl, hout⟩ := h
    exact .inl ⟨hout.symm, .puppeteer hinst⟩
  case strategy.strategy =>
    obtain ⟨s, hinst, rfl, hout⟩ := h
    exact .inl ⟨hout.symm, .strategy hinst⟩
  case core.core =>
    obtain ⟨-, -, rfl, hout⟩ := h
    exact .inl ⟨hout.symm, .core⟩
  case withdrawalVoucher.withdrawalVoucher =>
    obtain ⟨-, -, rfl, hout⟩ := h
    exact .inl ⟨hout.symm, .withdrawalVoucher⟩
  case withdrawalManager.withdrawalManager =>
    obtain ⟨s, hinst, rfl, hout⟩ := h
    exact .inl ⟨hout.symm, .withdrawalManager hinst⟩
  case rewardsManager.rewardsManager =>
    obtain ⟨s, hinst, rfl, hout⟩ := h
    exact .inl ⟨hout.symm, .rewardsManager hinst⟩

/-- A query that answers. -/
theorem answer_eq_some {α : Type} {x : Except String α} {a : α} :
    x.toOption = some a ↔ x = .ok a := by
  cases x <;> simp [Except.toOption]

/-- A token contract that has been instantiated knows its denomination, which is new. -/
theorem createDenom_ok {address coreAddress subdenom owner : String}
    {tokenMetadata : Token.DenomMetadata} {s : Token.Storage} {out : Token.Msg}
    (hfree : c.contracts.load address = none)
    (hinst : Token.instantiate r.addrValidate coreAddress subdenom tokenMetadata owner =
      .ok (s, out))
    (h : c.createDenom r address s out = some c') :
    ∃ contract, Made r c.denoms ⟨c.height, c.time, address⟩
        (.token coreAddress subdenom tokenMetadata owner) contract ∧
      c.Extended [(address, contract)] c' := by
  have hout : out = .createDenom subdenom Token.CREATE_DENOM_REPLY_ID := by
    simp only [Token.instantiate, bind_eq_ok, mapError_eq_ok, pure_eq_ok, Except.ok.injEq,
      Prod.mk.injEq] at hinst
    obtain ⟨-, -, -, -, -, hout⟩ := hinst
    exact hout.symm
  subst hout
  simp only [Chain.createDenom, Option.bind_eq_bind, Option.bind_eq_some_iff, toOption_eq_some,
    answer_eq_some, Option.guard_eq_some'] at h
  obtain ⟨denom, hdenom, -, hnew, ⟨s', msg⟩, hreply, h⟩ := h
  obtain ⟨sender, metadata, rfl⟩ := Token.reply_ok hreply
  rw [← Option.some.inj h]
  exact ⟨.token s', .token hinst hdenom hnew hreply,
    Chain.extended_save hfree (List.subset_cons_self denom c.denoms)⟩

/-- **An instantiation** puts a new contract at the address that the factory can compute
beforehand. -/
theorem instantiate2_ok {codeId : ℕ} {msg : Factory.InstantiateMsg}
    (h : c.instantiate2 r creator salt codeId msg = some c') :
    ∃ checksum address contract, r.checksum codeId = .ok checksum ∧
      r.instantiate2Address checksum creator salt = .ok address ∧
      Made r c.denoms ⟨c.height, c.time, address⟩ msg contract ∧
      c.Extended [(address, contract)] c' := by
  simp only [Chain.instantiate2, Option.bind_eq_bind, Option.bind_eq_some_iff, answer_eq_some,
    Option.isNone_iff_eq_none, Option.guard_eq_some'] at h
  obtain ⟨checksum, hchecksum, address, haddress, -, hfree, code, -, ⟨contract, out⟩, hcreate, h⟩ :=
    h
  have hnow : (⟨c.height, c.time, address⟩ : Env).time = c.time := rfl
  rcases create_ok hnow hcreate with
    ⟨rfl, hmade⟩ | ⟨s, out', coreAddress, subdenom, tokenMetadata, owner, rfl, rfl, rfl, hinst⟩
  · split at h
    next heq => cases heq
    next heq =>
      cases heq
      rw [← Option.some.inj h]
      exact ⟨checksum, address, contract, hchecksum, haddress, hmade,
        Chain.extended_save hfree (List.Subset.refl c.denoms)⟩
  · obtain ⟨contract, hmade, hextended⟩ := createDenom_ok hfree hinst h
    exact ⟨checksum, address, contract, hchecksum, haddress, hmade, hextended⟩

/-- The address of a contract with this code, creator and salt. -/
def Registry.Gives (r : Registry) (creator salt : String) (codeId : ℕ) (address : String) : Prop :=
  ∃ checksum, r.checksum codeId = .ok checksum ∧
    r.instantiate2Address checksum creator salt = .ok address

/-- There is one such address. -/
theorem Registry.gives_unique (r : Registry) (creator salt : String) :
    Relator.RightUnique (r.Gives creator salt) := by
  rintro codeId address address' ⟨checksum, hchecksum, haddress⟩ ⟨checksum', hchecksum', haddress'⟩
  rw [hchecksum] at hchecksum'
  cases hchecksum'
  rw [haddress] at haddress'
  exact Except.ok.inj haddress'

/-- **A list of instantiations** puts new contracts at different addresses, which are those that can
be computed beforehand. The induction is on the list: each instantiation finds the contracts before
it at their addresses, so its own address is another one. -/
theorem instantiateAll_ok {admin : Option String} {l : List (ℕ × String × Factory.InstantiateMsg)}
    (h : (l.map fun i => Factory.Msg.instantiate2 admin i.1 i.2.1 i.2.2 salt).foldlM
      (Chain.dispatch r creator) c = some c') :
    ∃ placed, List.Forall₂ (fun i p => r.Gives creator salt i.1 p.1 ∧
        Made r c.denoms ⟨c.height, c.time, p.1⟩ i.2.2 p.2) l placed ∧
      c.Extended placed c' := by
  induction l generalizing c with
  | nil =>
    rw [← Option.some.inj h]
    exact ⟨[], .nil, .refl c⟩
  | cons i l ih =>
    rw [List.map_cons, List.foldlM_cons, Option.bind_eq_bind, Option.bind_eq_some_iff] at h
    obtain ⟨c₁, hfirst, hrest⟩ := h
    obtain ⟨checksum, address, contract, hchecksum, haddress, hmade, hextended⟩ :=
      instantiate2_ok hfirst
    obtain ⟨placed, hplaced, hextended'⟩ := ih hrest
    refine ⟨(address, contract) :: placed, .cons ⟨⟨checksum, hchecksum, haddress⟩, hmade⟩ ?_,
      hextended.cons hextended'⟩
    refine hplaced.imp fun i p hp => ⟨hp.1, ?_⟩
    have hmade' := hp.2.mono hextended.denoms
    rw [hextended.height, hextended.time] at hmade'
    exact hmade'

/-- The contracts of a deployment are put at the addresses that the factory stores. -/
theorem placed_addresses {s : Factory.FullStorage} {env : Env} {state : Factory.FullState}
    {baseDenom : String} {coreParams : Factory.CoreParams} {placed : List (String × Contract)}
    {P : Factory.InstantiateMsg → String × Contract → Prop}
    (hstate : Factory.deployedState s (c.querier r) env = .ok state)
    (hplaced : List.Forall₂ (fun i p => r.Gives env.contractAddress s.config.salt i.1 p.1 ∧
      P i.2.2 p)
      (Factory.instantiations env.contractAddress s.config state baseDenom coreParams) placed) :
    placed.map Prod.fst = state.addresses := by
  have hcodes : List.Forall₂ (r.Gives env.contractAddress s.config.salt)
      ((Factory.instantiations env.contractAddress s.config state baseDenom coreParams).map
        Prod.fst) (placed.map Prod.fst) :=
    List.forall₂_map_left_iff.2 (List.forall₂_map_right_iff.2 (hplaced.imp fun _ _ h => h.1))
  exact (r.gives_unique _ _).forall₂ hcodes (Factory.deployedState_ok hstate)

/-- Every contract of a deployment is at the address that the factory stores, as it was made. -/
theorem deployed_contracts {s : Factory.FullStorage} {env : Env} {state : Factory.FullState}
    {baseDenom : String} {coreParams : Factory.CoreParams} {admin : Option String}
    (hstate : Factory.deployedState s (c.querier r) env = .ok state)
    (h : ((Factory.instantiations env.contractAddress s.config state baseDenom coreParams).map
        fun i => Factory.Msg.instantiate2 admin i.1 i.2.1 i.2.2 s.config.salt).foldlM
      (Chain.dispatch r env.contractAddress) c = some c') :
    ∃ placed, placed.map Prod.fst = state.addresses ∧ c.Extended placed c' ∧
      List.Forall₂ (fun i address => ∃ contract, c'.contracts.load address = some contract ∧
          Made r c.denoms ⟨c'.height, c'.time, address⟩ i.2.2 contract)
        (Factory.instantiations env.contractAddress s.config state baseDenom coreParams)
        state.addresses := by
  obtain ⟨placed, hplaced, hextended⟩ := instantiateAll_ok h
  have haddresses := placed_addresses hstate
    (P := fun msg p => Made r c.denoms ⟨c.height, c.time, p.1⟩ msg p.2) hplaced
  refine ⟨placed, haddresses, hextended, ?_⟩
  rw [← haddresses, List.forall₂_map_right_iff, hextended.height, hextended.time]
  obtain ⟨hlength, hall⟩ := List.forall₂_iff_zip.1 hplaced
  refine List.forall₂_iff_zip.2 ⟨hlength, fun {i p} hmem => ?_⟩
  exact ⟨p.2, hextended.load p (List.of_mem_zip hmem).2, (hall hmem).2⟩

/-- The callback tells core the denomination of the token contract, when the factory owns core. -/
theorem postInit_ok {factory : String} (h : c.postInit r factory = some c') :
    ∃ f state token core, c.contracts.load factory = some (.factory f) ∧ f.state = some state ∧
      c.contracts.load state.tokenContract = some (.token token) ∧
      c.contracts.load state.coreContract = some (.core core) ∧ core.owner = factory ∧
      c' = c.setCore state.coreContract
        { core with config := core.config.update (knowDenom token.denom) } := by
  unfold Chain.postInit at h
  split at h
  next f hfactory =>
    simp only [Option.bind_eq_bind, Option.bind_eq_some_iff, toOption_eq_some,
      Factory.executePostInit, Factory.loadState, bind_eq_ok, orError_eq_ok, Factory.ask_eq_ok,
      pure_eq_ok, Except.ok.injEq] at h
    obtain ⟨_, ⟨state, hstate, denom, hdenom, rfl⟩, h⟩ := h
    simp only [Chain.querier] at hdenom
    split at hdenom
    next token htoken =>
      cases hdenom
      simp only [Chain.updateCore] at h
      split at h
      next core hcore =>
        simp only [Core.executeUpdateConfig, Core.assertOwner, Option.bind_eq_bind,
          Option.bind_eq_some_iff, toOption_eq_some, bind_eq_ok, ensure_eq_ok, pure_eq_ok,
          Except.ok.injEq, Option.some.injEq] at h
        obtain ⟨_, ⟨-, howner, rfl⟩, rfl⟩ := h
        exact ⟨f, state, token, core, hfactory, hstate, htoken, hcore, howner.symm, rfl⟩
      next => cases h
    next => cases hdenom
  next => cases h

end Instantiations

/-! ## The deployment -/

/-- The queries of a call of core that makes none. -/
def noAnswers : Answers where
  validators := .error "no answer"
  validator _ := .error "no answer"
  calcDeposit _ := .error "no answer"
  calcWithdraw _ := .error "no answer"
  denomTrace _ := .error "no answer"
  addrValidate _ := true
  local_not_traced _ := nofun

/-- The owner of core may tell it the denomination of the token of the deployment. -/
theorem step_knowDenom {d : Deployment} {w : World} (hcore : w.core.owner ≠ d.core)
    (hpuppeteer : w.core.owner ≠ d.puppeteer) (hwired : Wired d w.core.config) :
    Step d w (.execute noAnswers w.core.owner [] (.updateConfig (knowDenom d.tokenDenom)))
      { w with core := { w.core with config := w.core.config.update (knowDenom d.tokenDenom) } } := by
  have hwired' : Wired d (w.core.config.update (knowDenom d.tokenDenom)) :=
    ⟨hwired.puppeteer, hwired.token, hwired.voucher, hwired.baseDenom, .inr rfl⟩
  simp [Step, World.exec, World.execute, hcore, hpuppeteer, Bank.send, Core.execute, Core.silently,
    Core.executeUpdateConfig, Core.assertOwner, ensure, hwired', World.dispatchAll,
    World.noteEntered, Except.toOption]

/-- The addresses that the factory stores are those of the deployment. -/
structure SettlementDeployment.Stored (d : SettlementDeployment) (state : Factory.FullState) :
    Prop where
  core : d.core = state.coreContract
  puppeteer : d.puppeteer = state.puppeteerContract
  token : d.token = state.tokenContract
  voucher : d.voucher = state.withdrawalVoucherContract
  manager : d.manager = state.withdrawalManagerContract

/-- The contracts of a deployment are at the addresses that the factory stores, in the states that
they have in the systems of the other modules. Each of them knows the others. The factory owns all but
the distribution, which nobody owns, and the vouchers, which core mints. -/
structure Chain.Hosts (c : Chain) (factory : String) (state : Factory.FullState)
    (s : Settlement Cw721Base) (tw : TokenWorld) : Prop where
  stored : ∃ f, c.contracts.load factory = some (.factory f) ∧ f.state = some state
  core : c.contracts.load state.coreContract = some (.core s.world.core)
  coreStrategy : s.world.core.config.strategyContract = state.strategyContract
  coreManager : s.world.core.config.withdrawalManagerContract = state.withdrawalManagerContract
  coreValidators : s.world.core.config.validatorsSetContract = state.validatorsSetContract
  token : c.contracts.load state.tokenContract = some (.token tw.token)
  puppeteer : ∃ p, c.contracts.load state.puppeteerContract = some (.puppeteer p) ∧
    p.toStorage = s.world.puppeteer
  voucher : ∃ name symbol, c.contracts.load state.withdrawalVoucherContract =
    some (.withdrawalVoucher name symbol s.nft)
  minter : s.nft.cwOwner = some state.coreContract
  manager : c.contracts.load state.withdrawalManagerContract = some (.withdrawalManager s.manager)
  validatorsSet : ∃ v, c.contracts.load state.validatorsSetContract = some (.validatorsSet v)
  strategy : ∃ t, c.contracts.load state.strategyContract = some (.strategy t) ∧
    t.puppeteerAddress = state.puppeteerContract ∧
    t.validatorSetAddress = state.validatorsSetContract ∧
    t.distributionAddress = state.distributionContract
  distribution : c.contracts.load state.distributionContract = some .distribution
  rewardsManager : ∃ m, c.contracts.load state.rewardsManagerContract = some (.rewardsManager m)
  owned : ∀ a ∈ state.addresses, a ≠ state.distributionContract →
    a ≠ state.withdrawalVoucherContract →
    ∃ contract, c.contracts.load a = some contract ∧ contract.owner = some factory
  bank : s.world.bank = c.bank
  height : s.world.height = c.height
  time : s.world.time = c.time

section Deployment

variable {r : Registry} {c c' : Chain} {factory baseDenom : String} {info : MessageInfo}
  {coreParams : Factory.CoreParams}

/-- **What the transaction of the owner does**: the contracts are at their addresses, as they were
made, but for core, which has been told the denomination of the token contract. -/
theorem init_ok (h : c.init r factory info baseDenom coreParams = some c') :
    ∃ f state placed c₁, c.contracts.load factory = some (.factory f) ∧
      placed.map Prod.fst = state.addresses ∧
      (∃ bank, c.bank.send info.sender factory info.funds = some bank ∧
        Chain.Extended { c with
          bank := bank
          contracts := c.contracts.save factory (.factory { f with state := some state }) }
          placed c₁) ∧
      List.Forall₂ (fun i address => ∃ contract, c₁.contracts.load address = some contract ∧
          Made r c.denoms ⟨c₁.height, c₁.time, address⟩ i.2.2 contract)
        (Factory.instantiations factory f.config state baseDenom coreParams) state.addresses ∧
      List.Forall₂ (r.Gives factory f.config.salt) f.config.codeIds.list state.addresses ∧
      c₁.postInit r factory = some c' := by
  unfold Chain.init at h
  split at h
  next f hfactory =>
    simp only [Option.bind_eq_bind, Option.bind_eq_some_iff, toOption_eq_some] at h
    obtain ⟨bank, hbank, ⟨f', msgs⟩, hinit, h⟩ := h
    obtain ⟨-, state, hstate, rfl, rfl⟩ := Factory.executeInit_ok hinit
    rw [List.foldlM_append, Option.bind_eq_bind, Option.bind_eq_some_iff] at h
    obtain ⟨c₁, hall, hpost⟩ := h
    obtain ⟨placed, haddresses, hextended, hmade⟩ := @deployed_contracts r { c with
        bank := bank
        contracts := c.contracts.save factory (.factory { f with state := some state }) }
      _ f ⟨c.height, c.time, factory⟩ _ _ _ _ hstate hall
    refine ⟨f, state, placed, c₁, hfactory, haddresses, ⟨bank, hbank, hextended⟩, hmade,
      Factory.deployedState_ok hstate, ?_⟩
    simpa [Chain.dispatch] using hpost
  next => cases h

/-- The system of core and the puppeteer right after their instantiation. -/
def deployedWorld (c : Chain) (core : Core.Storage) (puppeteer : Puppeteer.Storage) : World where
  core := core
  puppeteer := puppeteer
  bank := c.bank
  vouchers := []
  inFlight := []
  nextSeq := 0
  height := c.height
  time := c.time
  entered := none
  channelOpen := false

/-- Core is at an address of its own. -/
theorem coreContract_not_mem {state : Factory.FullState} (h : state.addresses.Nodup) :
    state.coreContract ∉ [state.tokenContract, state.validatorsSetContract,
      state.distributionContract, state.puppeteerContract, state.strategyContract,
      state.withdrawalVoucherContract, state.withdrawalManagerContract,
      state.rewardsManagerContract] := by
  have hperm : state.addresses.Perm (state.coreContract :: [state.tokenContract,
      state.validatorsSetContract, state.distributionContract, state.puppeteerContract,
      state.strategyContract, state.withdrawalVoucherContract, state.withdrawalManagerContract,
      state.rewardsManagerContract]) :=
    @List.perm_middle _ _ [_, _, _, _, _] _
  exact (List.nodup_cons.1 (hperm.nodup_iff.1 h)).1

/-- **The states right after a deployment.** What the factory has sent puts the contracts into an
initial state, and the callback is a step of core's owner. -/
theorem settlementReachable_of_made {d : SettlementDeployment} {c : Chain} {factory : String}
    {config : Core.Config} {p : Puppeteer.Config} {q : WithdrawalManager.Querier}
    {m : WithdrawalManager.Config} {manager : WithdrawalManager.Storage} (minter : String)
    (hwired : Wired d.toDeployment config) (hsenders : p.allowedSenders = [d.core])
    (hmanager : WithdrawalManager.instantiate q m = .ok manager) (hm : d.Configured m)
    (hsupply : c.bank.supply d.tokenDenom = 0) (htime : c.time.nanos < U64.bound)
    (hcore : factory ≠ d.core) (hpuppeteer : factory ≠ d.puppeteer) (hself : factory ≠ d.manager) :
    SettlementReachable d (cw721Base AutoWithdrawer.Payload) {
      world := deployedWorld c
        { Core.instantiate config factory c.time.seconds with
          config := (Core.instantiate config factory c.time.seconds).config.update
            (knowDenom d.tokenDenom) } (Puppeteer.instantiate p)
      manager := manager
      nft := ⟨StorageMap.empty, [], some minter, none⟩
      payments := [] } := by
  have hinitial : SettlementInitial d (cw721Base AutoWithdrawer.Payload) {
      world := deployedWorld c (Core.instantiate config factory c.time.seconds)
        (Puppeteer.instantiate p)
      manager := manager
      nft := ⟨StorageMap.empty, [], some minter, none⟩
      payments := [] } := by
    refine ⟨⟨⟨config, factory, rfl⟩, ⟨hwired.puppeteer, hwired.token, hwired.voucher,
      hwired.baseDenom, .inl rfl⟩, ⟨p, rfl⟩, hsenders, hsupply, rfl, rfl, rfl, htime⟩,
      ⟨q, m, hm, hmanager⟩, fun _ => rfl, ?_, rfl⟩
    rintro o operator ⟨e, he, -⟩
    cases he
  refine ⟨_, hinitial, RunWhere.single (a := .world (.execute noAnswers factory []
    (.updateConfig (knowDenom d.tokenDenom)))) ?_ ?_⟩
  · trivial
  · have hstep := step_knowDenom (d := d.toDeployment)
      (w := deployedWorld c (Core.instantiate config factory c.time.seconds)
        (Puppeteer.instantiate p)) hcore hpuppeteer
      ⟨hwired.puppeteer, hwired.token, hwired.voucher, hwired.baseDenom, .inl rfl⟩
    simp only [SettlementStep, Settlement.exec, Action.sender, Option.bind_eq_bind,
      Option.bind_eq_some_iff, Option.pure_def, Option.some.injEq]
    exact ⟨(), by simpa using hself, _, hstep, _, rfl, rfl⟩

/-- Every contract of a deployment is at its address, as the factory has asked for it. -/
structure Chain.Created (c : Chain) (factory : String) (config : Factory.Config)
    (state : Factory.FullState) (baseDenom : String) (coreParams : Factory.CoreParams)
    (metadata : Token.Metadata) (denom : String) (t : Token.Storage)
    (m : WithdrawalManager.Storage) : Prop where
  token : c.contracts.load state.tokenContract = some (.token t)
  tokenSet : ∃ addrValidate s msg env fullDenom sender,
    Token.instantiate addrValidate state.coreContract config.subdenom config.tokenMetadata factory =
      .ok (s, msg) ∧ fullDenom config.subdenom = .ok denom ∧
    Token.reply s env fullDenom Token.CREATE_DENOM_REPLY_ID =
      .ok (t, .setDenomMetadata sender metadata)
  validatorsSet : ∃ v, c.contracts.load state.validatorsSetContract = some (.validatorsSet v) ∧
    v.cwOwner = factory ∧ v.Keyed
  distribution : c.contracts.load state.distributionContract = some .distribution
  puppeteer : ∃ p, c.contracts.load state.puppeteerContract = some (.puppeteer p) ∧
    p.toStorage = Puppeteer.instantiate (Factory.puppeteerConfig factory config state) ∧
    p.cwOwner = factory
  strategy : ∃ s, c.contracts.load state.strategyContract = some (.strategy s) ∧
    s.puppeteerAddress = state.puppeteerContract ∧
    s.validatorSetAddress = state.validatorsSetContract ∧
    s.distributionAddress = state.distributionContract
  core : c.contracts.load state.coreContract = some (.core (Core.instantiate
    (Factory.coreConfig config state baseDenom coreParams) factory c.time.seconds))
  voucher : c.contracts.load state.withdrawalVoucherContract = some
    (.withdrawalVoucher "Drop Voucher" "LDOV"
      ⟨StorageMap.empty, [], some state.coreContract, none⟩)
  manager : c.contracts.load state.withdrawalManagerContract = some (.withdrawalManager m)
  managerSet : ∃ q, WithdrawalManager.instantiate q ⟨state.coreContract,
    state.withdrawalVoucherContract, baseDenom, factory⟩ = .ok m
  rewardsManager : ∃ s, c.contracts.load state.rewardsManagerContract = some (.rewardsManager s) ∧
    s.ownership = factory
  owned : ∀ a ∈ state.addresses, a ≠ state.distributionContract →
    a ≠ state.withdrawalVoucherContract →
    ∃ contract, c.contracts.load a = some contract ∧ contract.owner = some factory

/-- The factory owns the token and the strategy contract. -/
theorem Chain.Created.owners {config : Factory.Config} {state : Factory.FullState}
    {metadata : Token.Metadata} {denom : String} {token : Token.Storage}
    {manager : WithdrawalManager.Storage} {strategy : Strategy.Storage}
    (h : c.Created factory config state baseDenom coreParams metadata denom token manager)
    (hnodup : state.addresses.Nodup)
    (hstrategy : c.contracts.load state.strategyContract = some (.strategy strategy)) :
    token.ownership.owner = some factory ∧ strategy.cwOwner = factory := by
  simp only [Factory.FullState.addresses, List.nodup_cons, List.mem_cons, List.not_mem_nil, or_false,
    not_or] at hnodup
  obtain ⟨⟨-, htoken, -, -, -, htoken', -⟩, -, ⟨-, hdistribution, -⟩, -, ⟨-, hvoucher, -⟩, -⟩ :=
    hnodup
  obtain ⟨contract, hload, howner⟩ := h.owned state.tokenContract
    (by simp [Factory.FullState.addresses]) htoken htoken'
  obtain ⟨contract', hload', howner'⟩ := h.owned state.strategyContract
    (by simp [Factory.FullState.addresses]) (Ne.symm hdistribution) hvoucher
  rw [h.token, Option.some.injEq] at hload
  rw [hstrategy, Option.some.injEq] at hload'
  rw [← hload] at howner
  rw [← hload'] at howner'
  exact ⟨howner, Option.some.inj howner'⟩

/-- **What the instantiations have made**, read off the list that the factory sends. -/
theorem created_of_made {f : Factory.FullStorage} {state : Factory.FullState} {denoms : List String}
    (h : List.Forall₂ (fun i address => ∃ contract, c.contracts.load address = some contract ∧
        Made r denoms ⟨c.height, c.time, address⟩ i.2.2 contract)
      (Factory.instantiations factory f.config state baseDenom coreParams) state.addresses) :
    ∃ metadata denom token manager,
      c.Created factory f.config state baseDenom coreParams metadata denom token manager ∧
      r.fullDenom state.tokenContract f.config.subdenom = .ok denom ∧ denom ∉ denoms := by
  simp only [Factory.instantiations, Factory.FullState.addresses, List.forall₂_cons,
    List.forall₂_nil_left_iff] at h
  obtain ⟨⟨_, htoken, m₁⟩, ⟨_, hvalidators, m₂⟩, ⟨_, hdistribution, m₃⟩, ⟨_, hpuppeteer, m₄⟩,
    ⟨_, hstrategy, m₅⟩, ⟨_, hcore, m₆⟩, ⟨_, hvoucher, m₇⟩, ⟨_, hmanager, m₈⟩, ⟨_, hrewards, m₉⟩, -⟩ := h
  have howned : ∀ a ∈ state.addresses, a ≠ state.distributionContract →
      a ≠ state.withdrawalVoucherContract →
      ∃ contract, c.contracts.load a = some contract ∧ contract.owner = some factory := by
    intro a ha hdist hvouch
    simp only [Factory.FullState.addresses, List.mem_cons, List.not_mem_nil, or_false] at ha
    rcases ha with rfl | rfl | rfl | rfl | rfl | rfl | rfl | rfl | rfl
    · exact ⟨_, htoken, m₁.owner⟩
    · exact ⟨_, hvalidators, m₂.owner⟩
    · exact absurd rfl hdist
    · exact ⟨_, hpuppeteer, m₄.owner⟩
    · exact ⟨_, hstrategy, m₅.owner⟩
    · exact ⟨_, hcore, m₆.owner⟩
    · exact absurd rfl hvouch
    · exact ⟨_, hmanager, m₈.owner⟩
    · exact ⟨_, hrewards, m₉.owner⟩
  cases m₁ with
  | @token _ _ _ denom sender _ metadata s₀ token msg hinst hdenom hnew hreply => ?_
  cases m₂ with | @validatorsSet _ _ v hv => ?_
  cases m₃
  cases m₄ with | @puppeteer _ p hp => ?_
  cases m₅ with | @strategy _ t ht => ?_
  cases m₆
  cases m₇
  cases m₈ with | @withdrawalManager _ manager hm => ?_
  cases m₉ with | @rewardsManager _ m hrm => ?_
  have hkeyed : v.cwOwner = factory ∧ v.Keyed := by
    simp only [ValidatorsSet.instantiate, bind_eq_ok, ensure_eq_ok, pure_eq_ok,
      Except.ok.injEq] at hv
    obtain ⟨-, -, -, -, rfl⟩ := hv
    exact ⟨rfl, fun address validator hload => by cases hload⟩
  have hrewarded : m.ownership = factory := by
    simp only [RewardsManager.instantiate, bind_eq_ok, pure_eq_ok, Except.ok.injEq] at hrm
    obtain ⟨-, -, rfl⟩ := hrm
    rfl
  simp only [Puppeteer.instantiateFull, bind_eq_ok, pure_eq_ok, Except.ok.injEq] at hp
  obtain ⟨-, -, -, -, hp⟩ := hp
  simp only [Strategy.instantiate, bind_eq_ok, Strategy.validateAddr_eq_ok, pure_eq_ok,
    Except.ok.injEq] at ht
  obtain ⟨_, -, _, ⟨-, hpuppeteer'⟩, _, ⟨-, hvalidators'⟩, _, ⟨-, hdistribution'⟩, ht⟩ := ht
  exact ⟨metadata, denom, token, manager, ⟨htoken, ⟨_, s₀, msg, _, _, sender, hinst, hdenom, hreply⟩,
    ⟨v, hvalidators, hkeyed⟩, hdistribution, ⟨p, hpuppeteer, by rw [← hp]; rfl, by rw [← hp]; rfl⟩,
    ⟨t, hstrategy, by rw [← ht]; exact hpuppeteer', by rw [← ht]; exact hvalidators',
      by rw [← ht]; exact hdistribution'⟩, hcore, hvoucher, hmanager, ⟨_, hm⟩,
    ⟨m, hrewards, hrewarded⟩, howned⟩, hdenom, hnew⟩

/-- The token contract knows its denomination. -/
theorem Chain.Created.denom_eq {config : Factory.Config} {state : Factory.FullState}
    {metadata : Token.Metadata} {denom : String} {token : Token.Storage}
    {manager : WithdrawalManager.Storage}
    (h : c.Created factory config state baseDenom coreParams metadata denom token manager) :
    token.denom = denom := by
  obtain ⟨addrValidate, s, msg, env, fullDenom, sender, hinst, hname, hreply⟩ := h.tokenSet
  simp only [Token.instantiate, bind_eq_ok, mapError_eq_ok, pure_eq_ok, Except.ok.injEq,
    Prod.mk.injEq] at hinst
  obtain ⟨_, -, -, -, rfl, -⟩ := hinst
  simp only [Token.reply, ↓reduceIte, hname, ok_bind, bind_eq_ok, orError_eq_ok, pure_eq_ok,
    Except.ok.injEq, Prod.mk.injEq] at hreply
  obtain ⟨-, -, rfl, -⟩ := hreply
  rfl

/-- **The deployment once core knows the denomination.** -/
theorem Chain.Created.hosts {f : Factory.FullStorage} {state : Factory.FullState}
    {config : Factory.Config} {metadata : Token.Metadata} {denom : String} {token : Token.Storage}
    {manager : WithdrawalManager.Storage} {core : Core.Storage}
    (h : c.Created factory config state baseDenom coreParams metadata denom token manager)
    (hstored : c.contracts.load factory = some (.factory f)) (hstate : f.state = some state)
    (hself : ∀ a ∈ state.addresses, factory ≠ a) (hnodup : state.addresses.Nodup)
    (hcore : core = { Core.instantiate (Factory.coreConfig config state baseDenom coreParams) factory
        c.time.seconds with
      config := (Core.instantiate (Factory.coreConfig config state baseDenom coreParams) factory
        c.time.seconds).config.update (knowDenom denom) }) :
    (c.setCore state.coreContract core).Hosts factory state {
        world := deployedWorld c core
          (Puppeteer.instantiate (Factory.puppeteerConfig factory config state))
        manager := manager
        nft := ⟨StorageMap.empty, [], some state.coreContract, none⟩
        payments := [] }
      ⟨deployedWorld c core
        (Puppeteer.instantiate (Factory.puppeteerConfig factory config state)), token,
        some metadata⟩ := by
  have hne := coreContract_not_mem hnodup
  simp only [List.mem_cons, List.not_mem_nil, or_false, not_or] at hne
  obtain ⟨hne₁, hne₂, hne₃, hne₄, hne₅, hne₆, hne₇, hne₈⟩ := hne
  have hload : ∀ a, state.coreContract ≠ a →
      (c.setCore state.coreContract core).contracts.load a = c.contracts.load a :=
    fun a ha => StorageMap.load_save_of_ne _ _ (Ne.symm ha)
  have hloadCore : (c.setCore state.coreContract core).contracts.load state.coreContract =
      some (.core core) := StorageMap.load_save_self _ _ _
  obtain ⟨v, hv, -⟩ := h.validatorsSet
  obtain ⟨p, hp, hstorage, -⟩ := h.puppeteer
  obtain ⟨t, ht, hstrategy⟩ := h.strategy
  obtain ⟨m, hm, -⟩ := h.rewardsManager
  refine {
    stored := ⟨f, ?_, hstate⟩
    core := hloadCore
    coreStrategy := by rw [hcore]; rfl
    coreManager := by rw [hcore]; rfl
    coreValidators := by rw [hcore]; rfl
    token := by rw [hload _ hne₁]; exact h.token
    puppeteer := ⟨p, by rw [hload _ hne₄]; exact hp, hstorage⟩
    voucher := ⟨_, _, by rw [hload _ hne₆]; exact h.voucher⟩
    minter := rfl
    manager := by rw [hload _ hne₇]; exact h.manager
    validatorsSet := ⟨v, by rw [hload _ hne₂]; exact hv⟩
    strategy := ⟨t, by rw [hload _ hne₅]; exact ht, hstrategy⟩
    distribution := by rw [hload _ hne₃]; exact h.distribution
    rewardsManager := ⟨m, by rw [hload _ hne₈]; exact hm⟩
    owned := ?_
    bank := rfl
    height := rfl
    time := rfl }
  · rw [hload _ (hself _ (by simp [Factory.FullState.addresses])).symm]
    exact hstored
  · intro a ha hdist hvoucher
    by_cases hcoreA : state.coreContract = a
    · subst hcoreA
      exact ⟨_, hloadCore, by rw [hcore]; rfl⟩
    · rw [hload a hcoreA]
      exact h.owned a ha hdist hvoucher

/-- The factory has deployed its contracts, from the chain `c` by way of `c₁`, on which core does not
know the denomination yet, to `c'`. -/
structure Chain.Deploys (c c₁ c' : Chain) (r : Registry) (factory baseDenom : String)
    (coreParams : Factory.CoreParams) (d : SettlementDeployment) (f : Factory.FullStorage)
    (state : Factory.FullState) (metadata : Token.Metadata) (token : Token.Storage)
    (manager : WithdrawalManager.Storage) : Prop where
  nodup : state.addresses.Nodup
  free : ∀ a ∈ state.addresses, a ≠ factory ∧ c.contracts.load a = none
  loaded : c₁.contracts.load factory = some (.factory f)
  deployed : f.state = some state
  created : c₁.Created factory f.config state baseDenom coreParams metadata token.denom token manager
  stored : d.Stored state
  base : d.baseDenom = baseDenom
  liquid : d.tokenDenom = token.denom
  fullDenom : r.fullDenom state.tokenContract f.config.subdenom = .ok token.denom
  new : token.denom ∉ c.denoms
  supply : c₁.bank.supply = c.bank.supply
  time : c₁.time = c.time
  known : c' = c₁.setCore state.coreContract
    { Core.instantiate (Factory.coreConfig f.config state baseDenom coreParams) factory
        c₁.time.seconds with
      config := (Core.instantiate (Factory.coreConfig f.config state baseDenom coreParams) factory
        c₁.time.seconds).config.update (knowDenom token.denom) }

/-- **The transaction of the owner deploys the contracts.** Every instantiation finds the contracts
before it at their addresses, so all addresses differ. -/
theorem deploys_of_init (h : c.init r factory info baseDenom coreParams = some c')
    (hlocal : baseDenom ≠ Puppeteer.LOCAL_DENOM)
    (hbase : ∀ address subdenom, r.fullDenom address subdenom ≠ .ok baseDenom) :
    ∃ c₁ d f state metadata token manager,
      c.Deploys c₁ c' r factory baseDenom coreParams d f state metadata token manager := by
  obtain ⟨f, state, placed, c₁, hfactory, haddresses, ⟨bank, hbank, hextended⟩, hmade, -, hpost⟩ :=
    init_ok h
  obtain ⟨f', state', token', core, hstored, hstate, htoken, hcore, howner, rfl⟩ := postInit_ok hpost
  obtain ⟨metadata, denom, token, manager, hcreated, hdenom, hnew⟩ := created_of_made hmade
  have hnodup : state.addresses.Nodup := haddresses ▸ hextended.nodup
  have hfree : ∀ a ∈ state.addresses, a ≠ factory ∧ c.contracts.load a = none := by
    intro a ha
    rw [← haddresses] at ha
    obtain ⟨p, hp, rfl⟩ := List.mem_map.1 ha
    have hnone := hextended.free p hp
    rw [StorageMap.load_save] at hnone
    split_ifs at hnone with hself
    exact ⟨hself, hnone⟩
  have hkept := hextended.kept factory
    (by rw [haddresses]; exact fun hmem => (hfree _ hmem).1 rfl)
  rw [hstored, StorageMap.load_save_self] at hkept
  obtain rfl := Contract.factory.inj (Option.some.inj hkept)
  obtain rfl := Option.some.inj hstate
  obtain rfl := Contract.token.inj (Option.some.inj (htoken.symm.trans hcreated.token))
  obtain rfl := Contract.core.inj (Option.some.inj (hcore.symm.trans hcreated.core))
  obtain rfl := hcreated.denom_eq
  have hne := coreContract_not_mem hnodup
  simp only [List.mem_cons, List.not_mem_nil, or_false, not_or] at hne
  obtain ⟨hne₁, -, -, hne₄, -, -, hne₇, -⟩ := hne
  let d : SettlementDeployment := {
    core := state.coreContract
    puppeteer := state.puppeteerContract
    token := state.tokenContract
    voucher := state.withdrawalVoucherContract
    tokenDenom := token'.denom
    baseDenom := baseDenom
    core_ne_puppeteer := hne₄
    core_ne_token := hne₁
    base_ne_token := by
      rintro rfl
      exact hbase _ _ hdenom
    base_ne_local := hlocal
    manager := state.withdrawalManagerContract
    manager_ne_core := Ne.symm hne₇
    manager_ne_puppeteer := by
      intro heq
      simp [Factory.FullState.addresses, heq] at hnodup
    manager_ne_voucher := by
      intro heq
      simp [Factory.FullState.addresses, heq] at hnodup }
  refine ⟨c₁, d, { f with state := some state }, state, metadata, token', manager, ?_⟩
  exact {
    nodup := hnodup
    free := hfree
    loaded := hstored
    deployed := rfl
    created := hcreated
    stored := ⟨rfl, rfl, rfl, rfl, rfl⟩
    base := rfl
    liquid := rfl
    fullDenom := hdenom
    new := hnew
    supply := by rw [hextended.bank, (Bank.send_ok hbank).1]
    time := hextended.time
    known := rfl }

/-- **A deployment that goes through is one that the other modules are about.** The nine contracts
are new, at addresses of their own; each knows the addresses of the others; the systems of core, the
puppeteer, the vouchers and the withdrawal manager are in a reachable state, in which core knows the
denomination of the token, and the token contract is set up for them.

The base denomination must not be one that contracts create, nor the one of the fees, and a
denomination that has not been created has no supply.

**Proof sketch.** The messages of the instantiations are read off the list that the factory sends.
The update that the callback sends to core is a step of the system, which its owner may take. -/
theorem init_deploys (h : c.init r factory info baseDenom coreParams = some c')
    (hlocal : baseDenom ≠ Puppeteer.LOCAL_DENOM)
    (hbase : ∀ address subdenom, r.fullDenom address subdenom ≠ .ok baseDenom)
    (hsupply : ∀ address subdenom denom, r.fullDenom address subdenom = .ok denom →
      denom ∉ c.denoms → c.bank.supply denom = 0)
    (htime : c.time.nanos < U64.bound) :
    ∃ state d s tw, state.addresses.Nodup ∧
      (∀ a ∈ state.addresses, a ≠ factory ∧ c.contracts.load a = none) ∧
      SettlementDeployment.Stored d state ∧ d.baseDenom = baseDenom ∧
      c'.Hosts factory state s tw ∧ tw.world = s.world ∧
      SettlementReachable d (cw721Base AutoWithdrawer.Payload) s ∧
      TokenInitial d.toDeployment tw ∧ s.world.core.config.ldDenom = some d.tokenDenom := by
  obtain ⟨c₁, d, f, state, metadata, token, manager, hdeploys⟩ := deploys_of_init h hlocal hbase
  obtain ⟨hnodup, hfree, hfactory, hstate, hcreated, hstored, rfl, hdenom, hfull, hnew, hsupplies,
    htimes, rfl⟩ := hdeploys
  have hself : ∀ a ∈ state.addresses, factory ≠ a := fun a ha => (hfree a ha).1.symm
  have hcore : factory ≠ d.core := by
    rw [hstored.core]
    exact hself _ (by simp [Factory.FullState.addresses])
  have htoken : ∀ w, TokenInitial d.toDeployment ⟨w, token, some metadata⟩ := by
    obtain ⟨addrValidate, s, msg, env, fullDenom, sender, hinst, hname, hreply⟩ := hcreated.tokenSet
    rw [← hstored.core] at hinst
    exact fun w => ⟨addrValidate, _, _, factory, s, msg, env, fullDenom, sender, metadata,
      hinst, hdenom ▸ hname, hreply, rfl⟩
  obtain ⟨q, hmanager⟩ := hcreated.managerSet
  have hwired : Wired d.toDeployment (Factory.coreConfig f.config state d.baseDenom coreParams) :=
    ⟨hstored.puppeteer.symm, hstored.token.symm, hstored.voucher.symm, rfl, .inl rfl⟩
  have hconfigured : d.Configured ⟨state.coreContract, state.withdrawalVoucherContract, d.baseDenom,
      factory⟩ := ⟨hstored.core.symm, hstored.voucher.symm, rfl⟩
  have hsenders : (Factory.puppeteerConfig factory f.config state).allowedSenders = [d.core] := by
    rw [hstored.core]
    rfl
  refine ⟨state, d, _, _, hnodup, hfree, hstored, rfl,
    hcreated.hosts hfactory hstate hself hnodup rfl, rfl, ?_, htoken _, by rw [hdenom]; rfl⟩
  rw [← hdenom]
  exact settlementReachable_of_made (d := d) (c := c₁) _ hwired hsenders hmanager hconfigured
    (by rw [hsupplies, hdenom]; exact hsupply _ _ _ hfull hnew) (by rw [htimes]; exact htime) hcore
    (by rw [hstored.puppeteer]; exact hself _ (by simp [Factory.FullState.addresses]))
    (by rw [hstored.manager]; exact hself _ (by simp [Factory.FullState.addresses]))

end Deployment

/-! ## A chain -/

namespace Sample

/-- The codes of the sample chain, in the order of their ids. -/
def codes : List Code := [.token, .validatorsSet, .distribution, .puppeteer, .strategy, .core,
  .withdrawalVoucher, .withdrawalManager, .rewardsManager]

/-- A chain whose addresses tell the creator and the code. -/
def registry : Registry where
  code id := codes[id]?
  checksum id := .ok (toString id)
  instantiate2Address checksum creator salt := .ok (creator ++ "/" ++ checksum ++ salt)
  fullDenom creator subdenom := .ok ("factory/" ++ creator ++ "/" ++ subdenom)
  addrValidate _ := true

/-- The configuration of the sample factory. -/
def factoryConfig : Factory.Config where
  codeIds := ⟨0, 5, 3, 6, 7, 4, 1, 2, 8⟩
  remoteOpts := ⟨"uatom", 100, "connection-0", "transfer", "channel-0"⟩
  salt := "salt"
  subdenom := "udatom"
  sdkVersion := "0.47.10"
  tokenMetadata := tokenMetadata

/-- The parameters of core. -/
def coreParams : Factory.CoreParams where
  idleMinInterval := 10
  puppeteerTimeout := 60
  unbondingPeriod := 100
  unbondingSafePeriod := 10
  unbondBatchSwitchTime := 1000000
  lsmMinBondAmount := 100
  lsmRedeemThreshold := 10
  lsmRedeemMaxInterval := 100
  channel := "channel-0"
  bondLimit := none
  minStakeAmount := 100

/-- A chain with nothing but a factory. -/
def chain : Chain where
  contracts := StorageMap.empty.save "factory" (.factory ⟨⟨some "admin", none, none⟩, factoryConfig,
    none⟩)
  denoms := []
  bank := ⟨fun _ _ => 0, fun _ => 0⟩
  height := 1
  time := ⟨1000⟩

/-- The owner of the sample factory can deploy. -/
theorem chain_init : ∃ c, chain.init registry "factory" ⟨"admin", []⟩ "ibc/uatom" coreParams =
    some c :=
  Option.isSome_iff_exists.1 (by decide)

/-- The contracts of the sample chain create other denominations. -/
theorem fullDenom_ne (address subdenom : String) :
    registry.fullDenom address subdenom ≠ .ok "ibc/uatom" := by
  intro h
  have hchars := congrArg String.toList (Except.ok.inj h)
  simp at hchars

end Sample

open Sample

/-- The contracts of the sample factory can be deployed, and know each other then. -/
theorem init_deploys_sample : ∃ c state d s tw,
    chain.init registry "factory" ⟨"admin", []⟩ "ibc/uatom" coreParams = some c ∧
      state.addresses.Nodup ∧ c.Hosts "factory" state s tw ∧
      SettlementReachable d (cw721Base AutoWithdrawer.Payload) s ∧ d.baseDenom = "ibc/uatom" ∧
      s.world.core.config.ldDenom = some d.tokenDenom := by
  obtain ⟨c, hinit⟩ := chain_init
  obtain ⟨state, d, s, tw, hnodup, -, -, hd, hhosts, -, hreachable, -, hdenom⟩ :=
    init_deploys hinit (by decide) fullDenom_ne (fun _ _ _ _ _ => rfl) (by decide)
  exact ⟨c, state, d, s, tw, hinit, hnodup, hhosts, hreachable, hd, hdenom⟩

/-! ## Once and for all -/

/-- What happens outside of the factory: contracts change and new ones are made, but a contract stays
at its address, and the factory alone writes its storage. -/
structure Chain.Others (c : Chain) (factory : String) (c' : Chain) : Prop where
  factory : c'.contracts.load factory = c.contracts.load factory
  stay : ∀ a, c.contracts.load a ≠ none → c'.contracts.load a ≠ none

/-- The steps of a chain with the factory: a deployment, another message of the factory with what
follows from it, and everything else. -/
inductive ChainAction where
  | init (info : MessageInfo) (baseDenom : String) (coreParams : Factory.CoreParams)
  | message (info : MessageInfo) (msg : Factory.ExecuteMsg)
  | others

/-- A step of a chain. -/
inductive ChainStep (r : Registry) (factory : String) (c : Chain) : ChainAction → Chain → Prop
  | init {info : MessageInfo} {baseDenom : String} {coreParams : Factory.CoreParams} {c' : Chain}
      (hinit : c.init r factory info baseDenom coreParams = some c') :
      ChainStep r factory c (.init info baseDenom coreParams) c'
  | message {info : MessageInfo} {msg : Factory.ExecuteMsg} {s s' : Factory.FullStorage}
      {msgs : List Factory.Msg} {c' : Chain}
      (hload : c.contracts.load factory = some (.factory s))
      (hmsg : ∀ baseDenom coreParams, msg ≠ .init baseDenom coreParams)
      (hexec : Factory.execute s (c.querier r) ⟨c.height, c.time, factory⟩ info msg =
        .ok (s', msgs))
      (hothers : Chain.Others { c with contracts := c.contracts.save factory (.factory s') }
        factory c') :
      ChainStep r factory c (.message info msg) c'
  | others {c' : Chain} (hothers : c.Others factory c') : ChainStep r factory c .others c'

/-- The factory has deployed the contracts with these addresses, which are in use. -/
structure Chain.Settled (c : Chain) (r : Registry) (factory : String) (config : Factory.Config)
    (state : Factory.FullState) : Prop where
  stored : ∃ f, c.contracts.load factory = some (.factory f) ∧ f.config = config ∧
    f.state = some state
  gives : List.Forall₂ (r.Gives factory config.salt) config.codeIds.list state.addresses
  inUse : ∀ a ∈ state.addresses, c.contracts.load a ≠ none

section Once

variable {r : Registry} {c c' c₁ c₂ : Chain} {factory baseDenom : String} {info : MessageInfo}
  {coreParams : Factory.CoreParams} {config : Factory.Config} {state : Factory.FullState}

/-- After a deployment the contracts are at their addresses. -/
theorem settled_of_init (h : c.init r factory info baseDenom coreParams = some c') :
    ∃ config state, c'.Settled r factory config state := by
  obtain ⟨f, state, placed, c₁, hfactory, haddresses, ⟨bank, hbank, hextended⟩, -, hgives, hpost⟩ :=
    init_ok h
  obtain ⟨f', state', token, core, hstored, hstate, htoken, hcore, howner, rfl⟩ := postInit_ok hpost
  have hnotin : factory ∉ placed.map Prod.fst := by
    intro hmem
    obtain ⟨p, hp, heq⟩ := List.mem_map.1 hmem
    have hnone := hextended.free p hp
    rw [heq, StorageMap.load_save_self] at hnone
    cases hnone
  have hkept := hextended.kept factory hnotin
  rw [hstored, StorageMap.load_save_self] at hkept
  obtain rfl := Contract.factory.inj (Option.some.inj hkept)
  obtain rfl := Option.some.inj hstate
  have hself : factory ≠ state.coreContract := by
    intro heq
    rw [haddresses, heq] at hnotin
    simp [Factory.FullState.addresses] at hnotin
  refine ⟨f.config, state, ⟨{ f with state := some state }, ?_, rfl, rfl⟩, hgives, fun a ha => ?_⟩
  · rw [Chain.setCore, StorageMap.load_save_of_ne _ _ hself]
    exact hstored
  · rw [← haddresses] at ha
    obtain ⟨p, hp, rfl⟩ := List.mem_map.1 ha
    rw [Chain.setCore, StorageMap.load_save]
    split_ifs
    · exact Option.some_ne_none _
    · rw [hextended.load p hp]
      exact Option.some_ne_none _

/-- **A second deployment fails**: its addresses are in use. -/
theorem Chain.Settled.init_eq_none (h : c.Settled r factory config state) :
    c.init r factory info baseDenom coreParams = none := by
  rw [Option.eq_none_iff_forall_ne_some]
  intro c' hinit
  obtain ⟨f, state', placed, c₁, hfactory, haddresses, ⟨bank, -, hextended⟩, -, hgives, -⟩ :=
    init_ok hinit
  obtain ⟨f', hfactory', rfl, -⟩ := h.stored
  rw [hfactory] at hfactory'
  cases hfactory'
  have hsame : state'.addresses = state.addresses := (r.gives_unique _ _).forall₂ hgives h.gives
  have hmem : state.tokenContract ∈ placed.map Prod.fst := by
    rw [haddresses, hsame]
    simp [Factory.FullState.addresses]
  obtain ⟨p, hp, heq⟩ := List.mem_map.1 hmem
  have hnone := hextended.free p hp
  rw [heq, StorageMap.load_save] at hnone
  split_ifs at hnone
  exact h.inUse _ (by simp [Factory.FullState.addresses]) hnone

/-- What others do leaves a deployment in place. -/
theorem Chain.Settled.others (h : c.Settled r factory config state) (hothers : c.Others factory c') :
    c'.Settled r factory config state := by
  obtain ⟨f, hstored, hf⟩ := h.stored
  exact ⟨⟨f, hothers.factory.trans hstored, hf⟩, h.gives, fun a ha => hothers.stay a (h.inUse a ha)⟩

/-- **Every step leaves a deployment in place.** -/
theorem Chain.Settled.step (h : c.Settled r factory config state) {a : ChainAction}
    (hstep : ChainStep r factory c a c') : c'.Settled r factory config state := by
  cases hstep with
  | init hinit =>
    rw [h.init_eq_none] at hinit
    cases hinit
  | @message _ _ s s' msgs _ hload hmsg hexec hothers =>
    refine Chain.Settled.others ⟨⟨s', StorageMap.load_save_self _ _ _, ?_⟩, h.gives, fun a ha => ?_⟩
      hothers
    · obtain ⟨f, hstored, hf⟩ := h.stored
      rw [hload] at hstored
      cases hstored
      rcases Factory.execute_storage hexec with
        ⟨baseDenom, coreParams, hinit, -⟩ | ⟨_, _, -, -, rfl, -⟩ | rfl
      · exact absurd hinit (hmsg baseDenom coreParams)
      · exact hf
      · exact hf
    · rw [StorageMap.load_save]
      split_ifs
      · exact Option.some_ne_none _
      · exact h.inUse a ha
  | others hothers => exact h.others hothers

/-- **The factory deploys once.** Once it has deployed the contracts, then whatever it is told and
whatever else happens on the chain, the addresses that it stores are those of these contracts, and it
never deploys again. -/
theorem init_once (h : c.init r factory info baseDenom coreParams = some c₁)
    (hrun : Run (ChainStep r factory) c₁ c₂) :
    (∃ f₁ f₂ state, c₁.contracts.load factory = some (.factory f₁) ∧ f₁.state = some state ∧
      c₂.contracts.load factory = some (.factory f₂) ∧ f₂.state = some state) ∧
    ∀ info baseDenom coreParams, c₂.init r factory info baseDenom coreParams = none := by
  obtain ⟨config, state, hsettled⟩ := settled_of_init h
  have hend : c₂.Settled r factory config state :=
    hrun.preserves (P := fun c => c.Settled r factory config state)
      (fun _ _ _ _ hstep hs => hs.step hstep) hsettled
  obtain ⟨f₁, hf₁, -, hstate₁⟩ := hsettled.stored
  obtain ⟨f₂, hf₂, -, hstate₂⟩ := hend.stored
  exact ⟨⟨f₁, f₂, state, hf₁, hstate₁, hf₂, hstate₂⟩, fun _ _ _ => hend.init_eq_none⟩

end Once

/-- A deployment of the sample factory, a call of its callback by somebody else, and no second
deployment. -/
theorem init_once_sample : ∃ c₁ c₂,
    chain.init registry "factory" ⟨"admin", []⟩ "ibc/uatom" coreParams = some c₁ ∧
      ChainStep registry "factory" c₁ (.message ⟨"mallory", []⟩ .callbackPostInit) c₂ ∧
      c₂.init registry "factory" ⟨"admin", []⟩ "ibc/uatom" coreParams = none := by
  have hcalls : ((chain.init registry "factory" ⟨"admin", []⟩ "ibc/uatom" coreParams).bind fun c =>
      match c.contracts.load "factory" with
      | some (.factory s) => (Factory.execute s (c.querier registry) ⟨c.height, c.time, "factory"⟩
          ⟨"mallory", []⟩ .callbackPostInit).toOption.map fun r => (c, s, r.1, r.2)
      | _ => none).isSome = true := by
    decide
  obtain ⟨⟨c₁, s, s', msgs⟩, hcalls⟩ := Option.isSome_iff_exists.1 hcalls
  simp only [Option.bind_eq_some_iff] at hcalls
  obtain ⟨c, hinit, hcalls⟩ := hcalls
  split at hcalls
  next f hload =>
    simp only [Option.map_eq_some_iff, toOption_eq_some, Prod.mk.injEq, Prod.exists] at hcalls
    obtain ⟨_, _, hexec, rfl, rfl, rfl, rfl⟩ := hcalls
    have hstep : ChainStep registry "factory" c (.message ⟨"mallory", []⟩ .callbackPostInit)
        { c with contracts := c.contracts.save "factory" (.factory _) } :=
      .message hload (by simp) hexec ⟨rfl, fun _ h => h⟩
    exact ⟨c, _, hinit, hstep, (init_once hinit (RunWhere.single trivial hstep)).2 _ _ _⟩
  next => cases hcalls

end System

end DropContracts
