import DropContracts.Core.Messages

set_option relaxedAutoImplicit false
set_option autoImplicit false

/-!
# The withdrawal manager

`contracts/withdrawal-manager/src/contract.rs`: a voucher that is sent to the contract is exchanged
for the part of its batch that it stands for.

## Main definitions

* `WithdrawalManager.Config`, `WithdrawalManager.Storage`, `WithdrawalManager.Querier`.
* `WithdrawalManager.payoutAmount` — what a voucher is worth.
* `WithdrawalManager.executeReceiveNftWithdraw` — the exchange of a voucher.
* `WithdrawalManager.instantiate`, `WithdrawalManager.ExecuteMsg`, `WithdrawalManager.execute`.

## Main results

* `WithdrawalManager.payoutAmount_eq_ok` — the worth of a voucher, and when it can be computed.
* `WithdrawalManager.executeReceiveNftWithdraw_ok`, `WithdrawalManager.executeReceiveNftWithdraw_of` —
  everything an exchange can do, and when it goes through.
* `WithdrawalManager.execute_ok` — only an exchange pays, and only the owner changes the storage.
-/

namespace DropContracts

namespace WithdrawalManager

open Exec

/-! ## Data -/

/-- The configuration. -/
structure Config where
  coreContract : String
  withdrawalVoucherContract : String
  baseDenom : String
  owner : String
  deriving DecidableEq, Repr

/-- Every storage item of the contract; `ownership` is the owner that `cw_ownable` keeps. -/
structure Storage where
  config : Config
  ownership : String
  isPaused : Bool
  deriving DecidableEq, Repr

/-- The errors of the contract. -/
inductive ContractError where
  | std (e : StdError)
  | invalidNFT (reason : String)
  | unauthorized
  | batchIsNotWithdrawn
  | batchSlashingEffectIsEmpty
  | ownershipError
  | paused
  deriving DecidableEq, Repr

/-- A call of the contract. -/
abbrev Result (α : Type) := Exec ContractError α

/-- The answers of the queried contracts, each at its address: the extension of a voucher at the
voucher contract, a batch at core, and the address check of the chain. -/
structure Querier where
  nftInfo : String → String → Except String (Option Core.Metadata)
  unbondBatch : String → ℕ → Except String Core.UnbondBatch
  addrValidate : String → Bool

/-- A smart query; its failure is passed on. -/
def ask {α : Type} : Except String α → Result α
  | .ok a => .ok a
  | .error e => fail (.std (.querierContractErr e))

/-- A query returns what the contract answers. -/
@[simp] theorem ask_eq_ok {α : Type} {x : Except String α} {a : α} :
    ask x = .ok a ↔ x = .ok a := by
  cases x <;> simp [ask]

/-- The payment that an exchange makes: `BankMsg::Send`. -/
structure BankSend where
  toAddress : String
  amount : List Coin
  deriving DecidableEq, Repr

/-! ## The worth of a voucher -/

/-- The decimal digits of a text as a number: `None` when there are none or other characters. -/
def parseDigits (l : List Char) : Option ℕ :=
  if l = [] ∨ ¬ l.all Char.isDigit then none
  else some (l.foldl (fun n c => 10 * n + (c.toNat - '0'.toNat)) 0)

/-- `str::parse::<u128>`: digits after an optional plus sign, within 128 bits. -/
def parseU128 (s : String) : Option ℕ :=
  let digits := match s.toList with
    | '+' :: rest => rest
    | l => l
  (parseDigits digits).filter fun n => n < Uint128.bound

/-- The amount that a voucher is exchanged for: what the slashing leaves of the promised amount,
and no more than the promised amount. -/
def payoutAmount (slashingEffect : Decimal) (expectedAmount : ℕ) : Result ℕ := do
  let amount ← Decimal.mulUint expectedAmount slashingEffect
  return min amount expectedAmount

/-- **What a voucher is worth**, and when this can be computed. -/
theorem payoutAmount_eq_ok {slashingEffect : Decimal} {expectedAmount n : ℕ} :
    payoutAmount slashingEffect expectedAmount = .ok n ↔
      expectedAmount * slashingEffect.atomics / Decimal.fractional < Uint128.bound ∧
        n = min (expectedAmount * slashingEffect.atomics / Decimal.fractional)
          expectedAmount := by
  simp only [payoutAmount, bind_eq_ok, Decimal.mulUint_eq_ok, pure_eq_ok, Except.ok.injEq]
  constructor
  · rintro ⟨amount, ⟨rfl, hfit⟩, rfl⟩
    exact ⟨hfit, rfl⟩
  · rintro ⟨hfit, rfl⟩
    exact ⟨_, ⟨rfl, hfit⟩, rfl⟩

/-! ## Entry points -/

section Entry

variable (s : Storage) (q : Querier) (info : MessageInfo)

/-- `cw_ownable::assert_owner`. -/
def assertOwner : Result Unit := ensure (info.sender = s.ownership) .ownershipError

/-- `assert_paused`, which passes when the contract is not paused. -/
def assertPaused : Result Unit := ensure (s.isPaused = false) .paused

/-- `cw_ownable::initialize_owner`: the new owner, which has to be a valid address. -/
def initializeOwner (owner : String) : Result Storage := do
  ensure (q.addrValidate owner = true) (.std (.genericErr "addr_validate errored"))
  return { s with ownership := owner }

/-- `exec_pause`. -/
def execPause : Result Storage := do
  assertOwner s info
  return { s with isPaused := true }

/-- `exec_unpause`. -/
def execUnpause : Result Storage := do
  assertOwner s info
  return { s with isPaused := false }

/-- `execute_update_config`. -/
def executeUpdateConfig (owner coreContract voucherContract : Option String) : Result Storage := do
  assertOwner s info
  let s ← match owner with
    | some owner => do
      let s ← initializeOwner s q owner
      return { s with config := { s.config with owner := owner } }
    | none => .ok s
  return { s with config := { s.config with
    coreContract := coreContract.getD s.config.coreContract
    withdrawalVoucherContract := voucherContract.getD s.config.withdrawalVoucherContract } }

/-- `execute_receive_nft_withdraw`: the voucher contract calls it for the `sender` who has sent
the voucher `tokenId`. -/
def executeReceiveNftWithdraw (sender tokenId : String) (receiver : Option String) :
    Result BankSend := do
  assertPaused s
  let config := s.config
  ensure (config.withdrawalVoucherContract = info.sender) .unauthorized
  let extension ← ask (q.nftInfo config.withdrawalVoucherContract tokenId)
  let voucherExtension ← orError extension (.invalidNFT "extension is not set")
  let batchId ← orError (parseU128 voucherExtension.batchId) (.invalidNFT "invalid batch_id")
  let unbondBatch ← ask (q.unbondBatch config.coreContract batchId)
  ensure (unbondBatch.status = .withdrawn) .batchIsNotWithdrawn
  let slashingEffect ← orError unbondBatch.slashingEffect .batchSlashingEffectIsEmpty
  let payout ← payoutAmount slashingEffect voucherExtension.expectedAmount
  return ⟨receiver.getD sender, [⟨config.baseDenom, payout⟩]⟩

end Entry

/-- `instantiate`: the storage of a contract with this configuration. -/
def instantiate (q : Querier) (config : Config) : Result Storage :=
  initializeOwner ⟨config, config.owner, false⟩ q config.owner

/-- The messages of the contract. A received voucher comes with its sender and with the one request
there is, a withdrawal for an optional receiver. -/
inductive ExecuteMsg where
  | updateConfig (owner coreContract voucherContract : Option String)
  | receiveNft (sender tokenId : String) (receiver : Option String)
  | pause
  | unpause
  deriving DecidableEq, Repr

/-- `execute`: the storage afterwards, and the payment. -/
def execute (s : Storage) (q : Querier) (info : MessageInfo) :
    ExecuteMsg → Result (Storage × Option BankSend)
  | .updateConfig owner coreContract voucherContract => do
    let s ← executeUpdateConfig s q info owner coreContract voucherContract
    return (s, none)
  | .receiveNft sender tokenId receiver => do
    let payment ← executeReceiveNftWithdraw s q info sender tokenId receiver
    return (s, some payment)
  | .pause => do
    let s ← execPause s info
    return (s, none)
  | .unpause => do
    let s ← execUnpause s info
    return (s, none)

/-- **Everything an exchange can do.** The voucher contract has called, the batch of the voucher
has been withdrawn, and the receiver is paid what the voucher is worth. -/
theorem executeReceiveNftWithdraw_ok {s : Storage} {q : Querier} {info : MessageInfo}
    {sender tokenId : String} {receiver : Option String} {payment : BankSend}
    (h : executeReceiveNftWithdraw s q info sender tokenId receiver = .ok payment) :
    ∃ voucher batchId batch slashingEffect payout,
      s.isPaused = false ∧ info.sender = s.config.withdrawalVoucherContract ∧
      q.nftInfo info.sender tokenId = .ok (some voucher) ∧
      parseU128 voucher.batchId = some batchId ∧
      q.unbondBatch s.config.coreContract batchId = .ok batch ∧
      batch.status = .withdrawn ∧ batch.slashingEffect = some slashingEffect ∧
      payoutAmount slashingEffect voucher.expectedAmount = .ok payout ∧
      payment = ⟨receiver.getD sender, [⟨s.config.baseDenom, payout⟩]⟩ := by
  simp only [executeReceiveNftWithdraw, assertPaused, bind_eq_ok, ensure_eq_ok, ask_eq_ok,
    orError_eq_ok, pure_eq_ok, Except.ok.injEq] at h
  obtain ⟨-, hpaused, -, hsender, extension, hinfo, voucher, rfl, batchId, hparse, batch, hbatch,
    -, hstatus, slashingEffect, hslash, payout, hpayout, rfl⟩ := h
  rw [hsender] at hinfo
  exact ⟨voucher, batchId, batch, slashingEffect, payout, hpaused, hsender.symm, hinfo, hparse,
    hbatch, hstatus, hslash, hpayout, rfl⟩

/-- **When an exchange goes through.** The contract is not paused, the voucher contract has called,
and the voucher is of a withdrawn batch. -/
theorem executeReceiveNftWithdraw_of {s : Storage} {q : Querier} {info : MessageInfo}
    {sender tokenId : String} {receiver : Option String} {voucher : Core.Metadata}
    {batchId payout : ℕ} {batch : Core.UnbondBatch} {slashingEffect : Decimal}
    (hpaused : s.isPaused = false) (hsender : info.sender = s.config.withdrawalVoucherContract)
    (hinfo : q.nftInfo info.sender tokenId = .ok (some voucher))
    (hparse : parseU128 voucher.batchId = some batchId)
    (hbatch : q.unbondBatch s.config.coreContract batchId = .ok batch)
    (hstatus : batch.status = .withdrawn) (heffect : batch.slashingEffect = some slashingEffect)
    (hpayout : payoutAmount slashingEffect voucher.expectedAmount = .ok payout) :
    executeReceiveNftWithdraw s q info sender tokenId receiver =
      .ok ⟨receiver.getD sender, [⟨s.config.baseDenom, payout⟩]⟩ := by
  rw [hsender] at hinfo
  simp [executeReceiveNftWithdraw, assertPaused, ensure, ask, orError, hpaused, hsender, hinfo,
    hparse, hbatch, hstatus, heffect, hpayout]

/-- **Payments and changes are apart**: a message that pays is an exchange and leaves the storage
alone, and a message that does not pay comes from the owner. -/
theorem execute_ok {s s' : Storage} {q : Querier} {info : MessageInfo} {msg : ExecuteMsg}
    {payment : Option BankSend} (h : execute s q info msg = .ok (s', payment)) :
    (∃ sender tokenId receiver paid, msg = .receiveNft sender tokenId receiver ∧
      payment = some paid ∧ s' = s ∧
      executeReceiveNftWithdraw s q info sender tokenId receiver = .ok paid) ∨
    payment = none ∧ info.sender = s.ownership := by
  cases msg with
  | updateConfig owner coreContract voucherContract =>
    simp only [execute, executeUpdateConfig, assertOwner, bind_eq_ok, ensure_eq_ok, pure_eq_ok,
      Except.ok.injEq, Prod.mk.injEq] at h
    obtain ⟨-, ⟨-, howner, -⟩, -, rfl⟩ := h
    exact .inr ⟨rfl, howner⟩
  | receiveNft sender tokenId receiver =>
    simp only [execute, bind_eq_ok, pure_eq_ok, Except.ok.injEq, Prod.mk.injEq] at h
    obtain ⟨paid, hpaid, rfl, rfl⟩ := h
    exact .inl ⟨sender, tokenId, receiver, paid, rfl, rfl, rfl, hpaid⟩
  | pause =>
    simp only [execute, execPause, assertOwner, bind_eq_ok, ensure_eq_ok, pure_eq_ok,
      Except.ok.injEq, Prod.mk.injEq] at h
    obtain ⟨-, ⟨-, howner, -⟩, -, rfl⟩ := h
    exact .inr ⟨rfl, howner⟩
  | unpause =>
    simp only [execute, execUnpause, assertOwner, bind_eq_ok, ensure_eq_ok, pure_eq_ok,
      Except.ok.injEq, Prod.mk.injEq] at h
    obtain ⟨-, ⟨-, howner, -⟩, -, rfl⟩ := h
    exact .inr ⟨rfl, howner⟩

end WithdrawalManager

end DropContracts
