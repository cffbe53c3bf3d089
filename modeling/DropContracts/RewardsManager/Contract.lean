import DropContracts.Base.StorageMap
import DropContracts.Packages.Cosmos

set_option relaxedAutoImplicit false
set_option autoImplicit false

/-!
# The rewards manager

`contracts/rewards-manager/src/contract.rs`: the contract holds rewards in foreign denominations, and
hands all that it has of a denomination to the handler that is registered for it, once there is
enough of it. The queries only read the storage and are left out.

## Main definitions

* `RewardsManager.HandlerConfig`, `RewardsManager.Storage`, `RewardsManager.ExecuteMsg`.
* `RewardsManager.execExchangeRewards` — the rewards that are handed over.
* `RewardsManager.instantiate`, `RewardsManager.execute` — the entry points.

## Main results

* `RewardsManager.mem_exchangeMsgs` — which rewards are handed over, and to whom.
* `RewardsManager.execute_ok` — only the owner changes the storage, and only an exchange that is not
  paused hands something over.
-/

namespace DropContracts

namespace RewardsManager

open Exec

/-! ## Data -/

/-- The handler of a denomination, and from which amount on it is called. -/
structure HandlerConfig where
  address : String
  denom : String
  minRewards : ℕ
  deriving DecidableEq, Repr

/-- The storage items; `ownership` is the owner that `cw_ownable` keeps. -/
structure Storage where
  ownership : String
  rewardsHandlers : StorageMap String HandlerConfig
  isPaused : Bool

/-- The errors of the contract. -/
inductive ContractError where
  | std (e : StdError)
  | ownershipError
  | paused
  deriving DecidableEq, Repr

/-- A call of the contract. -/
abbrev Result (α : Type) := Exec ContractError α

/-- The messages of the contract. -/
inductive ExecuteMsg where
  | updateConfig (owner : Option String)
  | addHandler (config : HandlerConfig)
  | removeHandler (denom : String)
  | exchangeRewards
  | pause
  | unpause
  deriving DecidableEq, Repr

/-- A call of a handler, `HandlerExecuteMsg::Exchange`, with the rewards that go along. -/
structure ExchangeMsg where
  contractAddr : String
  funds : List Coin
  deriving DecidableEq, Repr

/-! ## Entry points -/

section Entry

variable (s : Storage) (addrValidate : String → Bool) (info : MessageInfo)

/-- `cw_ownable::assert_owner`. -/
def assertOwner : Result Unit := ensure (info.sender = s.ownership) .ownershipError

/-- `assert_paused`, which passes when the contract is not paused. -/
def assertPaused : Result Unit := ensure (s.isPaused = false) .paused

/-- `exec_pause`. -/
def execPause : Result Storage := do
  assertOwner s info
  return { s with isPaused := true }

/-- `exec_unpause`. -/
def execUnpause : Result Storage := do
  assertOwner s info
  return { s with isPaused := false }

/-- `exec_update_config`. -/
def execUpdateConfig (owner : Option String) : Result Storage := do
  assertOwner s info
  match owner with
  | some owner => do
    ensure (addrValidate owner = true) (.std (.genericErr "addr_validate errored"))
    return { s with ownership := owner }
  | none => return s

/-- `exec_add_handler`. A handler that is registered for the denomination already is replaced. -/
def execAddHandler (config : HandlerConfig) : Result Storage := do
  assertOwner s info
  return { s with rewardsHandlers := s.rewardsHandlers.save config.denom config }

/-- `exec_remove_handler`. -/
def execRemoveHandler (denom : String) : Result Storage := do
  assertOwner s info
  return { s with rewardsHandlers := s.rewardsHandlers.remove denom }

/-- The round of `exec_exchange_rewards` for one of the balances. -/
def exchangeMsg (balance : Coin) : Option ExchangeMsg := do
  let handler ← s.rewardsHandlers.load balance.denom
  if balance.amount < handler.minRewards then none
  else return ⟨handler.address, [balance]⟩

/-- The calls that `exec_exchange_rewards` makes for the `balances` of the contract. -/
def exchangeMsgs (balances : List Coin) : List ExchangeMsg := balances.filterMap (exchangeMsg s)

/-- `exec_exchange_rewards`, for the `balances` that the bank answers. -/
def execExchangeRewards (balances : List Coin) : Result (List ExchangeMsg) := do
  assertPaused s
  return exchangeMsgs s balances

/-- `execute`: the storage afterwards, and the calls of handlers. -/
def execute (balances : List Coin) : ExecuteMsg → Result (Storage × List ExchangeMsg)
  | .updateConfig owner => do
    let s ← execUpdateConfig s addrValidate info owner
    return (s, [])
  | .addHandler config => do
    let s ← execAddHandler s info config
    return (s, [])
  | .removeHandler denom => do
    let s ← execRemoveHandler s info denom
    return (s, [])
  | .exchangeRewards => do
    let msgs ← execExchangeRewards s balances
    return (s, msgs)
  | .pause => do
    let s ← execPause s info
    return (s, [])
  | .unpause => do
    let s ← execUnpause s info
    return (s, [])

end Entry

/-- `instantiate`. -/
def instantiate (addrValidate : String → Bool) (owner : String) : Result Storage := do
  ensure (addrValidate owner = true) (.std (.genericErr "addr_validate errored"))
  return ⟨owner, StorageMap.empty, false⟩

/-! ## What a call can do -/

section Effects

variable {s s' : Storage} {addrValidate : String → Bool} {info : MessageInfo}
  {balances : List Coin} {msgs : List ExchangeMsg}

/-- **Which rewards are handed over**: of a balance all or nothing, to the handler that is registered
for its denomination, when it is enough for the handler. -/
theorem mem_exchangeMsgs {msg : ExchangeMsg} :
    msg ∈ exchangeMsgs s balances ↔ ∃ balance ∈ balances, ∃ handler,
      s.rewardsHandlers.load balance.denom = some handler ∧
      handler.minRewards ≤ balance.amount ∧ msg = ⟨handler.address, [balance]⟩ := by
  simp only [exchangeMsgs, List.mem_filterMap, exchangeMsg, Option.bind_eq_bind,
    Option.bind_eq_some_iff, Option.ite_none_left_eq_some, Option.pure_def, Option.some.injEq,
    not_lt]
  constructor
  · rintro ⟨balance, hmem, handler, hload, hmin, rfl⟩
    exact ⟨balance, hmem, handler, hload, hmin, rfl⟩
  · rintro ⟨balance, hmem, handler, hload, hmin, rfl⟩
    exact ⟨balance, hmem, handler, hload, hmin, rfl⟩

/-- **Exchanges and changes are apart**: a call that hands rewards over is an exchange of a contract
that is not paused, and leaves the storage alone; every other call comes from the owner. -/
theorem execute_ok {msg : ExecuteMsg}
    (h : execute s addrValidate info balances msg = .ok (s', msgs)) :
    (msg = .exchangeRewards ∧ s.isPaused = false ∧ s' = s ∧ msgs = exchangeMsgs s balances) ∨
      (info.sender = s.ownership ∧ msgs = []) := by
  cases msg with
  | updateConfig owner =>
    simp only [execute, execUpdateConfig, assertOwner, bind_eq_ok, ensure_eq_ok, pure_eq_ok,
      Except.ok.injEq, Prod.mk.injEq] at h
    obtain ⟨-, ⟨-, howner, -⟩, -, rfl⟩ := h
    exact .inr ⟨howner, rfl⟩
  | addHandler config =>
    simp only [execute, execAddHandler, assertOwner, bind_eq_ok, ensure_eq_ok, pure_eq_ok,
      Except.ok.injEq, Prod.mk.injEq] at h
    obtain ⟨-, ⟨-, howner, -⟩, -, rfl⟩ := h
    exact .inr ⟨howner, rfl⟩
  | removeHandler denom =>
    simp only [execute, execRemoveHandler, assertOwner, bind_eq_ok, ensure_eq_ok, pure_eq_ok,
      Except.ok.injEq, Prod.mk.injEq] at h
    obtain ⟨-, ⟨-, howner, -⟩, -, rfl⟩ := h
    exact .inr ⟨howner, rfl⟩
  | exchangeRewards =>
    simp only [execute, execExchangeRewards, assertPaused, bind_eq_ok, ensure_eq_ok, pure_eq_ok,
      Except.ok.injEq, Prod.mk.injEq] at h
    obtain ⟨_, ⟨-, hpaused, rfl⟩, rfl, rfl⟩ := h
    exact .inl ⟨rfl, hpaused, rfl, rfl⟩
  | pause =>
    simp only [execute, execPause, assertOwner, bind_eq_ok, ensure_eq_ok, pure_eq_ok,
      Except.ok.injEq, Prod.mk.injEq] at h
    obtain ⟨-, ⟨-, howner, -⟩, -, rfl⟩ := h
    exact .inr ⟨howner, rfl⟩
  | unpause =>
    simp only [execute, execUnpause, assertOwner, bind_eq_ok, ensure_eq_ok, pure_eq_ok,
      Except.ok.injEq, Prod.mk.injEq] at h
    obtain ⟨-, ⟨-, howner, -⟩, -, rfl⟩ := h
    exact .inr ⟨howner, rfl⟩

end Effects

end RewardsManager

end DropContracts
