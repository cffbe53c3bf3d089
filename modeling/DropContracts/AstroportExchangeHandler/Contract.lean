import DropContracts.Base.Decimal
import DropContracts.Packages.Cosmos

set_option relaxedAutoImplicit false
set_option autoImplicit false

/-!
# The handler that exchanges rewards

`contracts/astroport-exchange-handler/src/contract.rs`: the contract offers all that it has of one
denomination to a pair contract, or to a router along stored operations, in a swap whose proceeds go
to core. The operations of a swap are a type of the exchange, which the contract only passes on.

## Main definitions

* `AstroportExchangeHandler.Config`, `AstroportExchangeHandler.Storage`,
  `AstroportExchangeHandler.ExecuteMsg`.
* `AstroportExchangeHandler.SwapMsg` — what the contract sends.
* `AstroportExchangeHandler.instantiate`, `AstroportExchangeHandler.execute` — the entry points.

## Main results

* `AstroportExchangeHandler.execute_ok` — an exchange is anybody's, offers the whole balance and
  leaves the storage alone; everything else is the owner's and offers nothing.
-/

namespace DropContracts

namespace AstroportExchangeHandler

open Exec

/-! ## Data -/

/-- The configuration. -/
structure Config where
  owner : String
  coreContract : String
  cronAddress : String
  routerContract : String
  pairContract : String
  fromDenom : String
  minRewards : ℕ
  deriving DecidableEq, Repr

/-- The storage items; `cwOwner` is the owner that `cw_ownable` keeps. -/
structure Storage (ω : Type) where
  config : Config
  cwOwner : String
  swapOperations : Option (List ω)
  deriving DecidableEq, Repr

/-- The errors of the contract. -/
inductive ContractError where
  | std (e : StdError)
  | neutronError (msg : String)
  | ownershipError
  | unauthorized
  | lowBalance (minAmount amount : ℕ) (denom : String)
  deriving DecidableEq, Repr

/-- A call of the contract. -/
abbrev Result (α : Type) := Exec ContractError α

/-- The messages of the contract. -/
inductive ExecuteMsg (ω : Type) where
  | updateConfig (owner coreContract cronAddress routerContract pairContract fromDenom :
      Option String) (minRewards : Option ℕ)
  | updateSwapOperations (operations : Option (List ω))
  | exchange
  deriving DecidableEq, Repr

/-- The message of an exchange: `RouterExecuteMsg::ExecuteSwapOperations` or
`PairExecuteMsg::Swap`, whose `to` is the recipient here. -/
inductive SwapMsg (ω : Type) where
  | executeSwapOperations (contractAddr : String) (operations : List ω)
      (minimumReceive : Option ℕ) (recipient : Option String) (maxSpread : Option Decimal)
      (funds : List Coin)
  | swap (contractAddr : String) (offerAsset : Coin) (askAssetInfo : Option String)
      (beliefPrice maxSpread : Option Decimal) (recipient : Option String) (funds : List Coin)

/-- The contract that is to swap. -/
def SwapMsg.contractAddr {ω : Type} : SwapMsg ω → String
  | .executeSwapOperations contractAddr _ _ _ _ _ => contractAddr
  | .swap contractAddr _ _ _ _ _ _ => contractAddr

/-- Who is to get the proceeds. -/
def SwapMsg.recipient {ω : Type} : SwapMsg ω → Option String
  | .executeSwapOperations _ _ _ recipient _ _ => recipient
  | .swap _ _ _ _ _ recipient _ => recipient

/-- The coins that are offered. -/
def SwapMsg.funds {ω : Type} : SwapMsg ω → List Coin
  | .executeSwapOperations _ _ _ _ _ funds => funds
  | .swap _ _ _ _ _ _ funds => funds

/-! ## Entry points -/

/-- A new value of an address, which must be valid, or the stored one. -/
def validated (addrValidate : String → Bool) (new : Option String) (stored : String) :
    Result String :=
  match new with
  | some address => do
    ensure (addrValidate address = true) (.std (.genericErr "addr_validate errored"))
    return address
  | none => return stored

/-- `instantiate`. There are no swap operations, so the pair is asked. -/
def instantiate (ω : Type) (addrValidate : String → Bool) (msg : Config) :
    Result (Storage ω) := do
  let owner ← validated addrValidate (some msg.owner) ""
  let cron ← validated addrValidate (some msg.cronAddress) ""
  let coreContract ← validated addrValidate (some msg.coreContract) ""
  let pairContract ← validated addrValidate (some msg.pairContract) ""
  let routerContract ← validated addrValidate (some msg.routerContract) ""
  return ⟨⟨msg.owner, coreContract, cron, routerContract, pairContract, msg.fromDenom,
    msg.minRewards⟩, owner, none⟩

section Entry

variable {ω : Type} (s : Storage ω) (addrValidate : String → Bool) (info : MessageInfo)

/-- `cw_ownable::assert_owner`. -/
def assertOwner : Result Unit := ensure (info.sender = s.cwOwner) .ownershipError

/-- `exec_update_config`. A new owner becomes the owner of the contract as well. -/
def execUpdateConfig (owner coreContract cronAddress routerContract pairContract fromDenom :
    Option String) (minRewards : Option ℕ) : Result (Storage ω) := do
  assertOwner s info
  let newOwner ← validated addrValidate owner s.config.owner
  let coreContract ← validated addrValidate coreContract s.config.coreContract
  let cronAddress ← validated addrValidate cronAddress s.config.cronAddress
  let routerContract ← validated addrValidate routerContract s.config.routerContract
  let pairContract ← validated addrValidate pairContract s.config.pairContract
  return { s with
    config := ⟨newOwner, coreContract, cronAddress, routerContract, pairContract,
      fromDenom.getD s.config.fromDenom, minRewards.getD s.config.minRewards⟩
    cwOwner := owner.getD s.cwOwner }

/-- `exec_update_swap_operations`. -/
def execUpdateSwapOperations (operations : Option (List ω)) : Result (Storage ω) := do
  assertOwner s info
  return { s with swapOperations := operations }

/-- The message that offers the coin: to the router when there are operations, else to the pair. No
least amount of proceeds is asked for. -/
def Storage.swapMsg (balance : Coin) : SwapMsg ω :=
  match s.swapOperations with
  | some operations => .executeSwapOperations s.config.routerContract operations none
      (some s.config.coreContract) none [balance]
  | none => .swap s.config.pairContract balance none none none (some s.config.coreContract)
      [balance]

/-- `exec_exchange`, when the bank answers `balance`. -/
def execExchange (balance : ℕ) : Result (SwapMsg ω) := do
  ensure (s.config.minRewards ≤ balance)
    (.lowBalance s.config.minRewards balance s.config.fromDenom)
  return s.swapMsg ⟨s.config.fromDenom, balance⟩

/-- `execute`: the storage afterwards, and the swap that is asked for. -/
def execute (balance : ℕ) : ExecuteMsg ω → Result (Storage ω × Option (SwapMsg ω))
  | .updateConfig owner coreContract cronAddress routerContract pairContract fromDenom
      minRewards => do
    let s ← execUpdateConfig s addrValidate info owner coreContract cronAddress routerContract
      pairContract fromDenom minRewards
    return (s, none)
  | .exchange => do
    let msg ← execExchange s balance
    return (s, some msg)
  | .updateSwapOperations operations => do
    let s ← execUpdateSwapOperations s info operations
    return (s, none)

end Entry

/-! ## What a call can do -/

section Effects

variable {ω : Type} {s s' : Storage ω} {addrValidate : String → Bool} {info : MessageInfo}
  {balance : ℕ} {swap : Option (SwapMsg ω)}

/-- What is offered, and for whom. -/
theorem swapMsg_eq (coin : Coin) :
    (s.swapMsg coin).funds = [coin] ∧ (s.swapMsg coin).recipient = some s.config.coreContract ∧
      ((s.swapMsg coin).contractAddr = s.config.routerContract ∨
        (s.swapMsg coin).contractAddr = s.config.pairContract) := by
  unfold Storage.swapMsg
  cases s.swapOperations with
  | none => exact ⟨rfl, rfl, .inr rfl⟩
  | some operations => exact ⟨rfl, rfl, .inl rfl⟩

/-- **Exchanges and changes are apart**: an exchange, which anybody may ask for, offers all that the
contract has when it is enough, and leaves the storage alone; every other call comes from the
owner. -/
theorem execute_ok {msg : ExecuteMsg ω}
    (h : execute s addrValidate info balance msg = .ok (s', swap)) :
    (msg = .exchange ∧ s.config.minRewards ≤ balance ∧ s' = s ∧
        swap = some (s.swapMsg ⟨s.config.fromDenom, balance⟩)) ∨
      (msg ≠ .exchange ∧ info.sender = s.cwOwner ∧ swap = none) := by
  cases msg with
  | updateConfig owner coreContract cronAddress routerContract pairContract fromDenom
      minRewards =>
    simp only [execute, execUpdateConfig, assertOwner, bind_eq_ok, ensure_eq_ok, pure_eq_ok,
      Except.ok.injEq, Prod.mk.injEq] at h
    obtain ⟨-, ⟨-, howner, -⟩, -, rfl⟩ := h
    exact .inr ⟨by simp, howner, rfl⟩
  | updateSwapOperations operations =>
    simp only [execute, execUpdateSwapOperations, assertOwner, bind_eq_ok, ensure_eq_ok,
      pure_eq_ok, Except.ok.injEq, Prod.mk.injEq] at h
    obtain ⟨-, ⟨-, howner, -⟩, -, rfl⟩ := h
    exact .inr ⟨by simp, howner, rfl⟩
  | exchange =>
    simp only [execute, execExchange, bind_eq_ok, ensure_eq_ok, pure_eq_ok, Except.ok.injEq,
      Prod.mk.injEq] at h
    obtain ⟨-, ⟨-, hmin, rfl⟩, rfl, rfl⟩ := h
    exact .inl ⟨rfl, hmin, rfl, rfl⟩

end Effects

end AstroportExchangeHandler

end DropContracts
