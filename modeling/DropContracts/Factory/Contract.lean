import DropContracts.Core.Execute
import DropContracts.Puppeteer.Queries
import DropContracts.ValidatorsSet.Contract

set_option relaxedAutoImplicit false
set_option autoImplicit false

/-!
# The proxy messages of the factory

`execute_proxy_msg` of `contracts/factory/src/contract.rs`: the owner of the factory speaks to the
contracts that the factory owns. Of the stored addresses only those of these contracts are kept.

## Main definitions

* `Factory.Storage`, `Factory.ProxyMsg` — the storage items and the messages.
* `Factory.WasmMsg` — a message that the factory sends.
* `Factory.executeProxyMsg` — what the factory sends for a message of its owner.
-/

namespace DropContracts

namespace Factory

open Exec

/-- The addresses of the contracts, once they have been deployed. -/
structure State where
  coreContract : String
  puppeteerContract : String
  validatorsSetContract : String
  deriving DecidableEq, Repr

/-- The storage items. -/
structure Storage where
  cwOwner : String
  state : Option State
  deriving DecidableEq, Repr

/-- The errors of a proxy message. -/
inductive ContractError where
  | std (e : StdError)
  | ownershipError
  deriving DecidableEq, Repr

/-- A call of the factory. -/
abbrev Result (α : Type) := Exec ContractError α

/-- The proxy messages for the validator set. -/
inductive ValidatorSetMsg where
  | updateValidators (validators : List ValidatorsSet.ValidatorData)
  | updateValidator (validator : ValidatorsSet.ValidatorData)
  deriving DecidableEq, Repr

/-- The proxy messages for core. -/
inductive CoreMsg where
  | updateNonNativeRewardsReceivers (items : List Core.NonNativeRewardsItem)
  | pause
  | unpause
  deriving DecidableEq, Repr

/-- The proxy messages. -/
inductive ProxyMsg where
  | validatorSet (msg : ValidatorSetMsg)
  | core (msg : CoreMsg)
  deriving DecidableEq, Repr

/-- A message to one of the contracts, with the coins that go along. -/
inductive WasmMsg where
  | core (contractAddr : String) (msg : Core.ExecuteMsg) (funds : List Coin)
  | puppeteer (contractAddr : String) (msg : Puppeteer.FullMsg) (funds : List Coin)
  | validatorsSet (contractAddr : String) (msg : ValidatorsSet.ExecuteMsg) (funds : List Coin)
  deriving DecidableEq, Repr

/-- `execute_proxy_msg`. A new list of validators is sent to the validator set and to the query of
the puppeteer; a single validator is only sent to the validator set. -/
def executeProxyMsg (s : Storage) (info : MessageInfo) (msg : ProxyMsg) :
    Result (List WasmMsg) := do
  let state ← orError s.state (.std (.notFound "State"))
  ensure (info.sender = s.cwOwner) .ownershipError
  match msg with
  | .validatorSet (.updateValidators validators) => return [
      .validatorsSet state.validatorsSetContract (.updateValidators validators) [],
      .puppeteer state.puppeteerContract
        (.registerBalanceAndDelegatorDelegationsQuery
          (validators.map ValidatorsSet.ValidatorData.valoperAddress)) info.funds]
  | .validatorSet (.updateValidator validator) => return [
      .validatorsSet state.validatorsSetContract (.updateValidator validator) info.funds]
  | .core (.updateNonNativeRewardsReceivers items) => return [
      .core state.coreContract (.updateNonNativeRewardsReceivers items) [],
      .puppeteer state.puppeteerContract
        (.registerNonNativeRewardsBalancesQuery (items.map Core.NonNativeRewardsItem.denom))
        info.funds]
  | .core .pause => return [.core state.coreContract .pause []]
  | .core .unpause => return [.core state.coreContract .unpause []]

end Factory

end DropContracts
