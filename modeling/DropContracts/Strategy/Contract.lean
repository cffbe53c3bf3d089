import DropContracts.Distribution.Contract
import Mathlib.Data.List.ReduceOption

set_option relaxedAutoImplicit false
set_option autoImplicit false

/-!
# The strategy contract

`contracts/strategy/src/contract.rs`: the addresses of the contracts that know the delegations, the
validators and the distribution, and the two queries that core turns into stake changes. What the
other contracts answer is a parameter, given by address.

The entry point does not look at the caller. So a message changes the storage exactly when it is
accepted and carries a new value, whoever sends it.

## Main definitions

* `Strategy.Storage`, `Strategy.execute` — the stored addresses and the entry point.
* `Strategy.queryCalcDeposit`, `Strategy.queryCalcWithdraw` — the two queries.
* `Strategy.Storage.afterAll` — the storage after a sequence of messages.
* `Strategy.Harmless` — the messages that leave the storage alone.

## Main results

* `Strategy.after_eq_self_iff` — what one message does.
* `Strategy.unsteered_iff` — which sequences of messages leave the stake distribution alone.
-/

namespace DropContracts

namespace Strategy

open Exec

/-! ## Data -/

/-- The storage items. The owner is that of `cw_ownable`. -/
structure Storage where
  coreAddress : String
  puppeteerAddress : String
  validatorSetAddress : String
  distributionAddress : String
  denom : String
  cwOwner : String
  deriving DecidableEq, Repr

/-- The message of the instantiation. -/
structure InstantiateMsg where
  coreAddress : String
  puppeteerAddress : String
  validatorSetAddress : String
  distributionAddress : String
  denom : String
  deriving DecidableEq, Repr

/-- The values that an update carries. -/
structure UpdateConfigMsg where
  coreAddress : Option String
  puppeteerAddress : Option String
  validatorSetAddress : Option String
  distributionAddress : Option String
  denom : Option String
  deriving DecidableEq, Repr

/-- The only message of the contract. -/
inductive ExecuteMsg where
  | updateConfig (msg : UpdateConfigMsg)
  deriving DecidableEq, Repr

/-- A call of the contract. -/
abbrev Result (α : Type) := Exec StdError α

/-- What the contracts at the addresses answer. -/
structure Querier where
  delegations : String → Except String DelegationsResponse
  validators : String → Except String (List ValidatorInfo)
  calcDeposit : String → ℕ → List Distribution.Delegation → Except String (List IdealDelegation)
  calcWithdraw : String → ℕ → List Distribution.Delegation → Except String (List IdealDelegation)

/-! ## Instantiation and queries -/

/-- `addr_validate`. -/
def validateAddr (addrValidate : String → Bool) (address : String) : Result String := do
  ensure (addrValidate address = true) (.genericErr "addr_validate errored")
  return address

/-- `instantiate`. Core owns the contract. -/
def instantiate (addrValidate : String → Bool) (msg : InstantiateMsg) : Result Storage := do
  let coreAddress ← validateAddr addrValidate msg.coreAddress
  let puppeteerAddress ← validateAddr addrValidate msg.puppeteerAddress
  let validatorSetAddress ← validateAddr addrValidate msg.validatorSetAddress
  let distributionAddress ← validateAddr addrValidate msg.distributionAddress
  return ⟨coreAddress, puppeteerAddress, validatorSetAddress, distributionAddress, msg.denom,
    coreAddress⟩

/-- A query of another contract. -/
def smartQuery {α : Type} : Except String α → Result α
  | .ok answer => .ok answer
  | .error text => fail (.querierContractErr text)

/-- The delegation to a validator in the map that is collected from a list of pairs: a later pair
replaces an earlier one. -/
def collected (pairs : List (String × ℕ)) (validator : String) : ℕ :=
  ((pairs.reverse.find? fun p => p.1 = validator).map Prod.snd).getD 0

/-- `prepare_delegation_data`: each validator of the set with its weight and what is delegated to
it in the denomination. -/
def prepareDelegationData (s : Storage) (q : Querier) : Result (List Distribution.Delegation) := do
  let accountDelegations ← smartQuery (q.delegations s.puppeteerAddress)
  let validatorSet ← smartQuery (q.validators s.validatorSetAddress)
  let delegationValidatorMap := collected
    ((accountDelegations.1.filter fun d => d.amount.denom = s.denom).map
      fun d => (d.validator, d.amount.amount))
  return validatorSet.map fun v =>
    ⟨v.valoperAddress, delegationValidatorMap v.valoperAddress, v.weight⟩

/-- `query_calc_deposit`. -/
def queryCalcDeposit (s : Storage) (q : Querier) (deposit : ℕ) :
    Result (List IdealDelegation) := do
  let delegations ← prepareDelegationData s q
  smartQuery (q.calcDeposit s.distributionAddress deposit delegations)

/-- `query_calc_withdraw`. -/
def queryCalcWithdraw (s : Storage) (q : Querier) (withdraw : ℕ) :
    Result (List IdealDelegation) := do
  let delegations ← prepareDelegationData s q
  smartQuery (q.calcWithdraw s.distributionAddress withdraw delegations)

/-! ## Messages -/

section Messages

variable (addrValidate : String → Bool)

/-- The new value of an address: the one of the message, if it carries one. -/
def updatedAddr (new : Option String) (stored : String) : Result String :=
  match new with
  | some address => validateAddr addrValidate address
  | none => .ok stored

/-- `exec_config_update`. -/
def execConfigUpdate (s : Storage) (msg : UpdateConfigMsg) : Result Storage := do
  let coreAddress ← updatedAddr addrValidate msg.coreAddress s.coreAddress
  let puppeteerAddress ← updatedAddr addrValidate msg.puppeteerAddress s.puppeteerAddress
  let validatorSetAddress ← updatedAddr addrValidate msg.validatorSetAddress s.validatorSetAddress
  let distributionAddress ← updatedAddr addrValidate msg.distributionAddress s.distributionAddress
  return { s with
    coreAddress := coreAddress
    puppeteerAddress := puppeteerAddress
    validatorSetAddress := validatorSetAddress
    distributionAddress := distributionAddress
    denom := msg.denom.getD s.denom }

/-- `execute`, which never uses who the caller is. -/
def execute (s : Storage) (_info : MessageInfo) : ExecuteMsg → Result Storage
  | .updateConfig msg => execConfigUpdate addrValidate s msg

/-- The storage after a message; a message that fails changes nothing. -/
def Storage.after (s : Storage) (m : MessageInfo × ExecuteMsg) : Storage :=
  match execute addrValidate s m.1 m.2 with
  | .ok s' => s'
  | .error _ => s

/-- The storage after a sequence of messages. -/
def Storage.afterAll (s : Storage) (msgs : List (MessageInfo × ExecuteMsg)) : Storage :=
  msgs.foldl (Storage.after addrValidate) s

end Messages

/-! ## Which messages change nothing -/

section Harmless

variable {addrValidate : String → Bool} {s : Storage}

/-- The addresses that an update carries. -/
def UpdateConfigMsg.addresses (msg : UpdateConfigMsg) : List String :=
  [msg.coreAddress, msg.puppeteerAddress, msg.validatorSetAddress,
    msg.distributionAddress].reduceOption

/-- Every value that an update carries is the stored one. -/
structure UpdateConfigMsg.Repeats (msg : UpdateConfigMsg) (s : Storage) : Prop where
  coreAddress : ∀ address ∈ msg.coreAddress, address = s.coreAddress
  puppeteerAddress : ∀ address ∈ msg.puppeteerAddress, address = s.puppeteerAddress
  validatorSetAddress : ∀ address ∈ msg.validatorSetAddress, address = s.validatorSetAddress
  distributionAddress : ∀ address ∈ msg.distributionAddress, address = s.distributionAddress
  denom : ∀ denom ∈ msg.denom, denom = s.denom

/-- An update that carries an invalid address or nothing new. -/
def Harmless (addrValidate : String → Bool) (s : Storage) : ExecuteMsg → Prop
  | .updateConfig msg => (∃ address ∈ msg.addresses, addrValidate address = false) ∨ msg.Repeats s

/-- A valid address is passed on. -/
@[simp] theorem validateAddr_eq_ok {address result : String} :
    validateAddr addrValidate address = .ok result ↔ addrValidate address = true ∧
      result = address := by
  simp only [validateAddr, bind_eq_ok, ensure_eq_ok, pure_eq_ok, Except.ok.injEq]
  constructor
  · rintro ⟨-, hvalid, rfl⟩
    exact ⟨hvalid, rfl⟩
  · rintro ⟨hvalid, rfl⟩
    exact ⟨(), hvalid, rfl⟩

/-- An address is updated exactly when the new one is valid. -/
theorem updatedAddr_eq_ok {new : Option String} {stored result : String} :
    updatedAddr addrValidate new stored = .ok result ↔
      (∀ address ∈ new, addrValidate address = true) ∧ result = new.getD stored := by
  cases new with
  | none => simpa [updatedAddr] using eq_comm
  | some address => simp [updatedAddr]

/-- **What an update does**: it is accepted exactly when all addresses it carries are valid, and
then replaces exactly the values it carries. -/
theorem execConfigUpdate_eq_ok {msg : UpdateConfigMsg} {s' : Storage} :
    execConfigUpdate addrValidate s msg = .ok s' ↔
      (∀ address ∈ msg.addresses, addrValidate address = true) ∧
      s' = ⟨msg.coreAddress.getD s.coreAddress, msg.puppeteerAddress.getD s.puppeteerAddress,
        msg.validatorSetAddress.getD s.validatorSetAddress,
        msg.distributionAddress.getD s.distributionAddress, msg.denom.getD s.denom, s.cwOwner⟩ := by
  have hmem : ∀ address, address ∈ msg.addresses ↔ address ∈ msg.coreAddress ∨
      address ∈ msg.puppeteerAddress ∨ address ∈ msg.validatorSetAddress ∨
      address ∈ msg.distributionAddress := by
    intro address
    simp [UpdateConfigMsg.addresses, List.reduceOption_mem_iff, eq_comm (a := some address)]
  simp only [execConfigUpdate, bind_eq_ok, updatedAddr_eq_ok, pure_eq_ok, Except.ok.injEq, hmem]
  constructor
  · rintro ⟨_, ⟨hcore, rfl⟩, _, ⟨hpuppeteer, rfl⟩, _, ⟨hset, rfl⟩, _, ⟨hdistribution, rfl⟩, rfl⟩
    refine ⟨?_, rfl⟩
    rintro address (h | h | h | h)
    · exact hcore address h
    · exact hpuppeteer address h
    · exact hset address h
    · exact hdistribution address h
  · rintro ⟨hvalid, rfl⟩
    exact ⟨_, ⟨fun a h => hvalid a (.inl h), rfl⟩, _, ⟨fun a h => hvalid a (.inr (.inl h)), rfl⟩,
      _, ⟨fun a h => hvalid a (.inr (.inr (.inl h))), rfl⟩,
      _, ⟨fun a h => hvalid a (.inr (.inr (.inr h))), rfl⟩, rfl⟩

/-- A value is kept exactly when the new one, if any, is the stored one. -/
theorem getD_eq_self {new : Option String} {stored : String} :
    new.getD stored = stored ↔ ∀ value ∈ new, value = stored := by
  cases new <;> simp

/-- **What one message does**: it leaves the storage alone exactly when it is harmless. -/
theorem after_eq_self_iff {m : MessageInfo × ExecuteMsg} :
    s.after addrValidate m = s ↔ Harmless addrValidate s m.2 := by
  obtain ⟨info, msg⟩ := m
  obtain ⟨msg⟩ := msg
  show (match execConfigUpdate addrValidate s msg with | .ok s' => s' | .error _ => s) = s ↔ _
  by_cases hvalid : ∀ address ∈ msg.addresses, addrValidate address = true
  · rw [execConfigUpdate_eq_ok.2 ⟨hvalid, rfl⟩]
    have hnone : ¬ ∃ address ∈ msg.addresses, addrValidate address = false := by
      rintro ⟨address, hmem, hfalse⟩
      simp [hvalid address hmem] at hfalse
    simp only [Harmless, hnone, false_or]
    constructor
    · intro h
      rw [Storage.mk.injEq] at h
      obtain ⟨hcore, hpuppeteer, hset, hdistribution, hdenom, -⟩ := h
      exact ⟨getD_eq_self.1 hcore, getD_eq_self.1 hpuppeteer, getD_eq_self.1 hset,
        getD_eq_self.1 hdistribution, getD_eq_self.1 hdenom⟩
    · rintro ⟨hcore, hpuppeteer, hset, hdistribution, hdenom⟩
      rw [getD_eq_self.2 hcore, getD_eq_self.2 hpuppeteer, getD_eq_self.2 hset,
        getD_eq_self.2 hdistribution, getD_eq_self.2 hdenom]
  · have hsome : ∃ address ∈ msg.addresses, addrValidate address = false := by
      simpa using hvalid
    cases hresult : execConfigUpdate addrValidate s msg with
    | ok s' => exact absurd (execConfigUpdate_eq_ok.1 hresult).1 hvalid
    | error e => exact iff_of_true rfl (.inl hsome)

/-- No message changes the owner. -/
@[simp] theorem after_cwOwner (m : MessageInfo × ExecuteMsg) :
    (s.after addrValidate m).cwOwner = s.cwOwner := by
  obtain ⟨info, msg⟩ := m
  obtain ⟨msg⟩ := msg
  show (match execConfigUpdate addrValidate s msg with | .ok s' => s' | .error _ => s).cwOwner = _
  cases hresult : execConfigUpdate addrValidate s msg with
  | ok s' => rw [(execConfigUpdate_eq_ok.1 hresult).2]
  | error e => rfl

/-- No sequence of messages changes the owner. -/
theorem afterAll_cwOwner (msgs : List (MessageInfo × ExecuteMsg)) :
    (s.afterAll addrValidate msgs).cwOwner = s.cwOwner := by
  induction msgs generalizing s with
  | nil => rfl
  | cons m msgs ih =>
    show (Storage.afterAll addrValidate (s.after addrValidate m) msgs).cwOwner = s.cwOwner
    rw [ih, after_cwOwner]

/-- Harmless messages leave the storage alone. -/
theorem afterAll_eq_self {msgs : List (MessageInfo × ExecuteMsg)}
    (h : ∀ m ∈ msgs, Harmless addrValidate s m.2) : s.afterAll addrValidate msgs = s := by
  induction msgs with
  | nil => rfl
  | cons m msgs ih =>
    have hfirst : s.after addrValidate m = s := after_eq_self_iff.2 (h m List.mem_cons_self)
    show Storage.afterAll addrValidate (s.after addrValidate m) msgs = s
    rw [hfirst]
    exact ih fun m hm => h m (List.mem_cons_of_mem _ hm)

end Harmless

/-! ## Sequences of messages -/

section Sequences

variable {addrValidate : String → Bool} {s : Storage}

/-- Two storages agree on everything that the stake distribution is computed from, and answer the
two queries alike whatever the other contracts answer. -/
structure Unsteered (s t : Storage) : Prop where
  coreAddress : t.coreAddress = s.coreAddress
  puppeteerAddress : t.puppeteerAddress = s.puppeteerAddress
  validatorSetAddress : t.validatorSetAddress = s.validatorSetAddress
  distributionAddress : t.distributionAddress = s.distributionAddress
  denom : t.denom = s.denom
  calcDeposit : ∀ q deposit, queryCalcDeposit t q deposit = queryCalcDeposit s q deposit
  calcWithdraw : ∀ q withdraw, queryCalcWithdraw t q withdraw = queryCalcWithdraw s q withdraw

/-- A storage is not steered away from itself. -/
theorem Unsteered.refl (s : Storage) : Unsteered s s :=
  ⟨rfl, rfl, rfl, rfl, rfl, fun _ _ => rfl, fun _ _ => rfl⟩

/-- Messages that do not steer the storage leave it alone. -/
theorem eq_of_unsteered {msgs : List (MessageInfo × ExecuteMsg)}
    (h : Unsteered s (s.afterAll addrValidate msgs)) : s.afterAll addrValidate msgs = s := by
  have howner : (s.afterAll addrValidate msgs).cwOwner = s.cwOwner := afterAll_cwOwner msgs
  obtain ⟨hcore, hpuppeteer, hset, hdistribution, hdenom, -, -⟩ := h
  rw [Storage.mk.injEq]
  exact ⟨hcore, hpuppeteer, hset, hdistribution, hdenom, howner⟩

/-- **Which messages leave the stake distribution alone**, whoever sends them: all storages that a
sequence of messages leads through have the addresses and the denomination of the first, and answer
the two queries as it does, exactly when every message carries an invalid address or nothing but
the stored values.

**Proof sketch.** Only harmless messages leave the storage alone. In one direction the storage
never changes along the sequence, so the condition can be read at the first storage; in the other
the messages before a given one have left the storage alone, and so has the message. -/
theorem unsteered_iff {msgs : List (MessageInfo × ExecuteMsg)} :
    (∀ before, before <+: msgs → Unsteered s (s.afterAll addrValidate before)) ↔
      ∀ m ∈ msgs, Harmless addrValidate s m.2 := by
  constructor
  · intro h m hm
    obtain ⟨before, rest, rfl⟩ := List.append_of_mem hm
    have hbefore : s.afterAll addrValidate before = s :=
      eq_of_unsteered (h before (List.prefix_append before (m :: rest)))
    have hthrough : s.afterAll addrValidate (before ++ [m]) = s := by
      refine eq_of_unsteered (h (before ++ [m]) ⟨rest, ?_⟩)
      simp
    have hstep : s.after addrValidate m = s := by
      rw [Storage.afterAll, List.foldl_append] at hthrough
      rw [Storage.afterAll] at hbefore
      rw [hbefore] at hthrough
      exact hthrough
    exact after_eq_self_iff.1 hstep
  · intro h before hbefore
    have hsame : s.afterAll addrValidate before = s :=
      afterAll_eq_self fun m hm => h m (hbefore.subset hm)
    rw [hsame]
    exact Unsteered.refl s

end Sequences

/-! ## A deployment -/

section Sample

/-- Every address but the empty one is valid. -/
def sampleAddrs (address : String) : Bool := address ≠ ""

/-- A deployment of the contract. -/
def sample : Storage :=
  ⟨"core", "puppeteer", "validators_set", "distribution", "uatom", "core"⟩

/-- A message of an outsider that replaces the distribution contract. -/
def steeringMsgs : List (MessageInfo × ExecuteMsg) :=
  [(⟨"mallory", []⟩, .updateConfig ⟨none, none, none, some "mallory", none⟩)]

/-- One validator, nothing delegated, and a second distribution contract that names a validator of
its own. -/
def sampleQuerier : Querier where
  delegations _ := .ok ([], 0, ⟨0⟩)
  validators _ := .ok [⟨"valoper1", 1⟩]
  calcDeposit address deposit delegations :=
    if address = "distribution" then
      match Distribution.calcDeposit deposit delegations with
      | .ok answer => .ok answer
      | .error _ => .error "overflow"
    else .ok [⟨"valoper_of_mallory", deposit, 0, deposit, 1⟩]
  calcWithdraw _ _ _ := .error "not asked"

/-- An outsider replaces the distribution contract, and a deposit of core goes to another
validator. -/
theorem distribution_steered :
    instantiate sampleAddrs ⟨"core", "puppeteer", "validators_set", "distribution", "uatom"⟩ =
      .ok sample ∧
    (∀ m ∈ steeringMsgs, m.1.sender ≠ sample.cwOwner) ∧
    (sample.afterAll sampleAddrs steeringMsgs).distributionAddress = "mallory" ∧
    queryCalcDeposit sample sampleQuerier 10 = .ok [⟨"valoper1", 10, 0, 10, 1⟩] ∧
    queryCalcDeposit (sample.afterAll sampleAddrs steeringMsgs) sampleQuerier 10 =
      .ok [⟨"valoper_of_mallory", 10, 0, 10, 1⟩] := by
  refine ⟨by rfl, by decide, by rfl, by rfl, by rfl⟩

end Sample

end Strategy

end DropContracts
