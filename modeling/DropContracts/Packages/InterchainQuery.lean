import Mathlib.Algebra.BigOperators.Group.List.Basic
import DropContracts.Base.Exec
import DropContracts.Base.StorageMap
import DropContracts.Packages.Cosmos

set_option relaxedAutoImplicit false
set_option autoImplicit false

/-!
# Interchain queries

`packages/helpers/src/icq.rs`, `packages/helpers/src/version.rs` and
`packages/helpers/src/query_id.rs`: the keys of the remote store that an interchain query reads, the
messages that register and update a query, and the id in the reply. A key is kept with the addresses
that it was made from, and its encoding is left out; whether an address can be decoded is a
parameter.

## Main definitions

* `Icq.versionToU32` — the version of the remote chain as a number.
* `Icq.KVKey`, `Icq.getBalanceAndDelegationsKeys`, `Icq.getMultipleBalancesKeys` — the keys.
* `Icq.IcqMsg` — the messages to the query module of the chain.
* `Icq.getQueryId` — the id of a query in the reply to a message.
* `Icq.observed` — the validators whose delegations are read.

## Main results

* `Icq.getBalanceAndDelegationsKeys_eq` — the layout of the keys.
* `Icq.observed_getBalanceAndDelegationsKeys` — the query for delegations reads those to the given
  validators.
-/

namespace DropContracts

namespace Icq

open Exec

/-! ## Versions -/

/-- The errors of the helpers. -/
inductive IcqError where
  | parseErr (target msg : String)
  | bech32 (address : String)
  deriving DecidableEq, Repr

/-- `str::parse::<u32>`: decimal digits, after an optional plus sign. -/
def parseU32 (part : List Char) : Option ℕ :=
  let digits := if part.head? = some '+' then part.tail else part
  let value := digits.foldl (fun n c => n * 10 + (c.toNat - '0'.toNat)) 0
  if digits ≠ [] ∧ digits.all Char.isDigit ∧ value < 2 ^ 32 then some value else none

/-- The decimal text of a number has no sign. -/
theorem head?_toDigits_ne_plus (n : ℕ) : (Nat.toDigits 10 n).head? ≠ some '+' := by
  intro h
  have hdigit : ('+' : Char).isDigit = true :=
    Nat.isDigit_of_mem_toDigits (b := 10) (by decide) (by decide) (List.mem_of_head? h)
  exact absurd hdigit (by decide)

/-- The number of one part of a version, which takes ten bits. -/
def versionPart (version : String) (part : List Char) : Exec IcqError ℕ := do
  let num ← orError (parseU32 part)
    (.parseErr version ("Invalid number in version: " ++ String.ofList part))
  ensure (num < 1024) (.parseErr version "Version string invalid, number too large")
  return num

/-- `version_to_u32`. The last part is parsed first. -/
def versionToU32 (version : String) : Exec IcqError ℕ :=
  match version.toList.splitOn '.' with
  | [major, minor, patch] => do
    let patch ← versionPart version patch
    let minor ← versionPart version minor
    let major ← versionPart version major
    return patch ||| minor <<< 10 ||| major <<< 20
  | _ => fail (.parseErr version "Received invalid version string")

/-! ## Keys -/

/-- A key of the remote store. -/
inductive KVKey where
  | balance (address denom : String)
  | bondDenom
  | stakingParams
  | delegation (delegator validator : String)
  | validator (validator : String)
  | unbondingDelegation (delegator validator : String)
  deriving DecidableEq, Repr

section Keys

variable (decodes : String → Bool)

/-- `decode_and_convert`. -/
def decodeAndConvert (address : String) : Exec IcqError Unit :=
  ensure (decodes address = true) (.bech32 address)

/-- `get_multiple_balances_keys`. -/
def getMultipleBalancesKeys (address : String) (denoms : List String) :
    Exec IcqError (List KVKey) := do
  decodeAndConvert decodes address
  return denoms.map (.balance address)

/-- The two keys of each validator, for the delegation to it and for the validator itself. -/
def validatorKeys (delegator : String) : List String → Exec IcqError (List KVKey)
  | [] => .ok []
  | v :: validators => do
    decodeAndConvert decodes v
    let keys ← validatorKeys delegator validators
    return .delegation delegator v :: .validator v :: keys

/-- `get_balance_and_delegations_keys`: the balance of the delegator, the denomination that is
staked, and the delegations. -/
def getBalanceAndDelegationsKeys (delegator denom : String) (validators : List String)
    (sdkVersion : String) : Exec IcqError (List KVKey) := do
  decodeAndConvert decodes delegator
  let version ← versionToU32 sdkVersion
  let params ← versionToU32 "0.47.0"
  let keys ← validatorKeys decodes delegator validators
  return .balance delegator denom ::
    (if version < params then .bondDenom else .stakingParams) :: keys

end Keys

/-! ## Messages -/

/-- What the reply to a registered query is for. -/
inductive ReplyMsg where
  | kvDelegationsAndBalance
  | kvNonNativeRewardsBalances
  | kvUnbondingDelegations (validatorIndex : ℕ)
  deriving DecidableEq, Repr

/-- A message to the query module: a new query, which is answered by a reply with its id, new keys
for a query, or a query for the transfers to an address. -/
inductive IcqMsg where
  | register (connectionId : String) (keys : List KVKey) (updatePeriod : ℕ) (reply : ReplyMsg)
  | update (queryId : ℕ) (keys : List KVKey)
  | registerTransfers (connectionId recipient : String) (updatePeriod : ℕ)
  deriving DecidableEq, Repr

/-! ## Replies -/

/-- The outcome of a submessage: the data of the response, if it has any, or an error. The data is
kept as the id that is parsed out of it, or the error of the parser. -/
inductive SubMsgResult where
  | ok (data : Option (Except String ℕ))
  | err (error : String)
  deriving Repr

/-- `get_query_id`. -/
def getQueryId : SubMsgResult → Exec StdError ℕ
  | .err error => fail (.genericErr error)
  | .ok none => fail (.genericErr "no result")
  | .ok (some (.error e)) => fail (.genericErr ("failed to parse response: " ++ e))
  | .ok (some (.ok id)) => .ok id

/-- An id is read exactly when the data of the response holds it. -/
theorem getQueryId_eq_ok {result : SubMsgResult} {id : ℕ} :
    getQueryId result = .ok id ↔ result = .ok (some (.ok id)) := by
  unfold getQueryId
  split <;> simp [fail]

/-! ## What a query reads -/

/-- The validator of a delegation key. -/
def KVKey.observedValidator : KVKey → Option String
  | .delegation _ v => some v
  | _ => none

/-- The validators whose delegations the keys read. -/
def observed (keys : List KVKey) : List String := keys.filterMap KVKey.observedValidator

section Observed

variable {decodes : String → Bool} {delegator denom sdkVersion : String}
  {validators : List String} {keys : List KVKey}

/-- The keys of the validators are two for each, in the order of the list. -/
theorem validatorKeys_eq (h : validatorKeys decodes delegator validators = .ok keys) :
    keys = validators.flatMap fun v => [.delegation delegator v, .validator v] := by
  induction validators generalizing keys with
  | nil =>
    rw [← Except.ok.inj h]
    rfl
  | cons v validators ih =>
    simp only [validatorKeys, bind_eq_ok, pure_eq_ok, Except.ok.injEq] at h
    obtain ⟨-, -, rest, hrest, rfl⟩ := h
    rw [List.flatMap_cons, ← ih hrest]
    rfl

/-- **The layout of the keys**: the balance, the denomination that is staked, and two keys for each
validator. -/
theorem getBalanceAndDelegationsKeys_eq
    (h : getBalanceAndDelegationsKeys decodes delegator denom validators sdkVersion = .ok keys) :
    ∃ version sdk047, versionToU32 sdkVersion = .ok version ∧
      versionToU32 "0.47.0" = .ok sdk047 ∧
      keys = .balance delegator denom ::
        (if version < sdk047 then .bondDenom else .stakingParams) ::
        validators.flatMap fun v => [.delegation delegator v, .validator v] := by
  simp only [getBalanceAndDelegationsKeys, bind_eq_ok, pure_eq_ok, Except.ok.injEq] at h
  obtain ⟨-, -, version, hversion, sdk047, hsdk047, rest, hrest, rfl⟩ := h
  exact ⟨version, sdk047, hversion, hsdk047, by rw [validatorKeys_eq hrest]⟩

/-- **The query for delegations** reads those to the given validators, whatever the version. -/
theorem observed_getBalanceAndDelegationsKeys
    (h : getBalanceAndDelegationsKeys decodes delegator denom validators sdkVersion = .ok keys) :
    observed keys = validators := by
  obtain ⟨version, sdk047, -, -, rfl⟩ := getBalanceAndDelegationsKeys_eq h
  have hhead : ∀ rest, observed (.balance delegator denom ::
      (if version < sdk047 then .bondDenom else .stakingParams) :: rest) = observed rest := by
    intro rest
    split_ifs <;> rfl
  rw [hhead, observed, List.filterMap_flatMap]
  exact List.flatMap_singleton' validators

end Observed

end Icq

end DropContracts
