import DropContracts.Packages.Ownable

set_option relaxedAutoImplicit false
set_option autoImplicit false

/-!
# The token contract

`contracts/token/src/contract.rs`: the contract creates the denomination of the liquid tokens, and
mints and burns them for core. The denomination that is stored is the short one until the chain has
replied with the full one. The queries only read the storage and are left out.

## Main definitions

* `Token.DenomMetadata`, `Token.Storage`, `Token.ExecuteMsg` — the storage items and the messages.
* `Token.Msg` — the messages to the chain.
* `Token.instantiate`, `Token.reply`, `Token.execute` — the entry points.

## Main results

* `Token.execute_ok` — everything a call can do.
* `Token.execute_of_foreign_owner` — when core is not the owner, a call mints or burns.
-/

namespace DropContracts

namespace Token

open Exec

/-! ## Data -/

/-- What wallets show of the token. -/
structure DenomMetadata where
  exponent : ℕ
  display : String
  name : String
  description : String
  symbol : String
  uri : Option String
  uriHash : Option String
  deriving DecidableEq, Repr

/-- A unit of a denomination. -/
structure DenomUnit where
  denom : String
  exponent : ℕ
  aliases : List String
  deriving DecidableEq, Repr

/-- The metadata of a denomination at the bank of the chain. -/
structure Metadata where
  denomUnits : List DenomUnit
  base : String
  display : String
  name : String
  description : String
  symbol : String
  uri : String
  uriHash : String
  deriving DecidableEq, Repr

/-- The storage items; the metadata is kept between the instantiation and the reply. -/
structure Storage where
  ownership : Ownership
  coreAddress : String
  denom : String
  tokenMetadata : Option DenomMetadata
  deriving DecidableEq, Repr

/-- The errors of the contract. -/
inductive ContractError where
  | std (e : StdError)
  | paymentError (e : PaymentError)
  | ownershipError (e : OwnershipError)
  | unauthorized
  | nothingToMint
  | unknownReplyId (id : ℕ)
  deriving DecidableEq, Repr

/-- A call of the contract. -/
abbrev Result (α : Type) := Exec ContractError α

/-- The messages of the contract. -/
inductive ExecuteMsg where
  | updateOwnership (action : OwnershipAction)
  | mint (amount : ℕ) (receiver : String)
  | burn
  | setTokenMetadata (tokenMetadata : DenomMetadata)

/-- The messages to the chain. -/
inductive Msg where
  | createDenom (subdenom : String) (replyId : ℕ)
  | mintTokens (denom : String) (amount : ℕ) (mintToAddress : String)
  | burnTokens (denom : String) (amount : ℕ)
  | setDenomMetadata (sender : String) (metadata : Metadata)
  deriving DecidableEq, Repr

/-- The id of the reply to the creation of the denomination. -/
def CREATE_DENOM_REPLY_ID : ℕ := 1

/-! ## Entry points -/

/-- `instantiate`. -/
def instantiate (addrValidate : String → Bool) (coreAddress subdenom : String)
    (tokenMetadata : DenomMetadata) (owner : String) : Result (Storage × Msg) := do
  let ownership ← mapError .ownershipError (Ownership.initializeOwner addrValidate owner)
  ensure (addrValidate coreAddress = true) (.std (.genericErr "addr_validate errored"))
  return (⟨ownership, coreAddress, subdenom, some tokenMetadata⟩,
    .createDenom subdenom CREATE_DENOM_REPLY_ID)

/-- `create_set_denom_metadata_msg`. -/
def createSetDenomMetadataMsg (contractAddress denom : String) (tokenMetadata : DenomMetadata) :
    Msg :=
  .setDenomMetadata contractAddress {
    denomUnits := [⟨denom, 0, []⟩, ⟨tokenMetadata.display, tokenMetadata.exponent, []⟩]
    base := denom
    display := tokenMetadata.display
    name := tokenMetadata.name
    description := tokenMetadata.description
    symbol := tokenMetadata.symbol
    uri := tokenMetadata.uri.getD ""
    uriHash := tokenMetadata.uriHash.getD "" }

/-- `reply`, of a submessage that has succeeded. `queryFullDenom` is the answer of the chain for the
address of the contract. -/
def reply (s : Storage) (env : Env) (queryFullDenom : String → Except String String) (id : ℕ) :
    Result (Storage × Msg) :=
  if id = CREATE_DENOM_REPLY_ID then do
    let fullDenom ← match queryFullDenom s.denom with
      | .ok fullDenom => .ok fullDenom
      | .error e => fail (.std (.querierContractErr e))
    let tokenMetadata ← orError s.tokenMetadata (.std (.notFound "DenomMetadata"))
    return ({ s with denom := fullDenom, tokenMetadata := none },
      createSetDenomMetadataMsg env.contractAddress fullDenom tokenMetadata)
  else fail (.unknownReplyId id)

section Entry

variable (s : Storage) (env : Env) (addrValidate : String → Bool) (info : MessageInfo)

/-- `mint`. -/
def mint (amount : ℕ) (receiver : String) : Result Msg := do
  ensure (amount ≠ 0) .nothingToMint
  return .mintTokens s.denom amount receiver

/-- `burn`. -/
def burn : Result Msg := do
  let amount ← mapError .paymentError (mustPay info s.denom)
  return .burnTokens s.denom amount

/-- `set_token_metadata`. -/
def setTokenMetadata (tokenMetadata : DenomMetadata) : Result Msg := do
  mapError .ownershipError (s.ownership.assertOwner info.sender)
  return createSetDenomMetadataMsg env.contractAddress s.denom tokenMetadata

/-- `execute`. Every message has to come from core, also those that ask for the owner. -/
def execute (msg : ExecuteMsg) : Result (Storage × Option Msg) := do
  ensure (info.sender = s.coreAddress) .unauthorized
  match msg with
  | .updateOwnership action =>
    let ownership ← mapError .ownershipError
      (s.ownership.update env addrValidate info.sender action)
    return ({ s with ownership := ownership }, none)
  | .mint amount receiver =>
    let msg ← mint s amount receiver
    return (s, some msg)
  | .burn =>
    let msg ← burn s info
    return (s, some msg)
  | .setTokenMetadata tokenMetadata =>
    let msg ← setTokenMetadata s env info tokenMetadata
    return (s, some msg)

end Entry

/-! ## What a call can do -/

section Effects

variable {s s' : Storage} {env : Env} {addrValidate : String → Bool} {info : MessageInfo}
  {out : Option Msg}

/-- With the reply the contract describes its denomination. -/
theorem reply_ok {queryFullDenom : String → Except String String} {id : ℕ} {msg : Msg}
    (h : reply s env queryFullDenom id = .ok (s', msg)) :
    ∃ sender metadata, msg = .setDenomMetadata sender metadata := by
  unfold reply at h
  split_ifs at h
  · cases hquery : queryFullDenom s.denom with
    | error e => simp [hquery, fail] at h
    | ok fullDenom =>
      simp only [hquery, ok_bind, bind_eq_ok, pure_eq_ok, Except.ok.injEq, Prod.mk.injEq] at h
      obtain ⟨tokenMetadata, -, -, hmsg⟩ := h
      exact ⟨_, _, hmsg.symm⟩
  · exact absurd h fail_ne_ok

/-- What a call has done. -/
inductive ExecuteCase (s : Storage) (env : Env) (info : MessageInfo) :
    ExecuteMsg → Storage → Option Msg → Prop
  | mint (amount : ℕ) (receiver : String) (hamount : amount ≠ 0) :
      ExecuteCase s env info (.mint amount receiver) s
        (some (.mintTokens s.denom amount receiver))
  | burn (amount : ℕ) (hfunds : info.funds = [⟨s.denom, amount⟩]) (hamount : amount ≠ 0) :
      ExecuteCase s env info .burn s (some (.burnTokens s.denom amount))
  | updateOwnership (action : OwnershipAction) (ownership : Ownership)
      (howner : s.ownership.owner = some info.sender ∨
        s.ownership.pendingOwner = some info.sender) :
      ExecuteCase s env info (.updateOwnership action) { s with ownership := ownership } none
  | setTokenMetadata (tokenMetadata : DenomMetadata)
      (howner : s.ownership.owner = some info.sender) :
      ExecuteCase s env info (.setTokenMetadata tokenMetadata) s
        (some (createSetDenomMetadataMsg env.contractAddress s.denom tokenMetadata))

/-- **Everything a call can do.** It comes from core, and what else changes than the supply is
changed for an owner. -/
theorem execute_ok {msg : ExecuteMsg}
    (h : execute s env addrValidate info msg = .ok (s', out)) :
    info.sender = s.coreAddress ∧ ExecuteCase s env info msg s' out := by
  simp only [execute, bind_eq_ok, ensure_eq_ok] at h
  obtain ⟨-, hcore, h⟩ := h
  refine ⟨hcore, ?_⟩
  cases msg with
  | updateOwnership action =>
    simp only [bind_eq_ok, mapError_eq_ok, pure_eq_ok, Except.ok.injEq, Prod.mk.injEq] at h
    obtain ⟨ownership, hupdate, rfl, rfl⟩ := h
    exact .updateOwnership action ownership (Ownership.update_ok hupdate)
  | mint amount receiver =>
    simp only [mint, bind_eq_ok, ensure_eq_ok, pure_eq_ok, Except.ok.injEq, Prod.mk.injEq] at h
    obtain ⟨_, ⟨-, hamount, rfl⟩, rfl, rfl⟩ := h
    exact .mint amount receiver hamount
  | burn =>
    simp only [burn, bind_eq_ok, mapError_eq_ok, mustPay_eq_ok, pure_eq_ok, Except.ok.injEq,
      Prod.mk.injEq] at h
    obtain ⟨_, ⟨amount, ⟨hfunds, hamount⟩, rfl⟩, rfl, rfl⟩ := h
    exact .burn amount hfunds hamount
  | setTokenMetadata tokenMetadata =>
    simp only [setTokenMetadata, bind_eq_ok, mapError_eq_ok, Ownership.assertOwner_eq_ok,
      pure_eq_ok, Except.ok.injEq, Prod.mk.injEq] at h
    obtain ⟨_, ⟨-, howner, rfl⟩, rfl, rfl⟩ := h
    exact .setTokenMetadata tokenMetadata howner

/-- **When core is neither the owner nor proposed as one**, a call mints or burns for core, and
leaves the storage alone: nobody can change the owner or the metadata. -/
theorem execute_of_foreign_owner {msg : ExecuteMsg}
    (howner : s.ownership.owner ≠ some s.coreAddress)
    (hpending : s.ownership.pendingOwner ≠ some s.coreAddress)
    (h : execute s env addrValidate info msg = .ok (s', out)) :
    info.sender = s.coreAddress ∧ s' = s ∧
      ((∃ amount receiver, amount ≠ 0 ∧ msg = .mint amount receiver ∧
          out = some (.mintTokens s.denom amount receiver)) ∨
        ∃ amount, amount ≠ 0 ∧ msg = .burn ∧ info.funds = [⟨s.denom, amount⟩] ∧
          out = some (.burnTokens s.denom amount)) := by
  obtain ⟨hcore, hcase⟩ := execute_ok h
  refine ⟨hcore, ?_⟩
  cases hcase with
  | mint amount receiver hamount => exact ⟨rfl, .inl ⟨amount, receiver, hamount, rfl, rfl⟩⟩
  | burn amount hfunds hamount => exact ⟨rfl, .inr ⟨amount, hamount, rfl, hfunds, rfl⟩⟩
  | updateOwnership action ownership hright =>
    rw [hcore] at hright
    exact absurd hright (not_or.2 ⟨howner, hpending⟩)
  | setTokenMetadata tokenMetadata hright =>
    rw [hcore] at hright
    exact absurd hright howner

end Effects

end Token

end DropContracts
