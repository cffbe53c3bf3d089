import DropContracts.AutoWithdrawer.Contract
import DropContracts.Base.Tally
import DropContracts.Puppeteer.Reconstruct
import DropContracts.System.Solvency
import DropContracts.System.Spending
import DropContracts.System.VoucherRequests

set_option relaxedAutoImplicit false
set_option autoImplicit false

/-!
# The settlement of vouchers

Core and the puppeteer together with the voucher contract and the withdrawal manager, on one bank.
An unbond of core mints a voucher at the voucher contract, vouchers change hands, and a voucher
that is sent to the withdrawal manager is paid for: the manager asks the voucher contract for the
promise and core for the batch. Anybody else, the auto-withdrawer included, is an account that
calls these contracts in any order.

## Main definitions

* `System.SettlementDeployment`, `System.Settlement`, `System.SettlementAction` — the addresses, the
  states and the steps of the system.
* `System.Settlement.querier` — what the withdrawal manager learns from the other contracts.
* `System.Priced` — a payment is what the voucher of a withdrawn batch is worth.
* `System.Settled` — the invariant.
* `System.SettlementCase`, `System.SettlementReached` — what a step does, and the states of the runs
  that may wipe batches out.

## Main results

* `System.Settlement.callManager_ok` — a call of the withdrawal manager pays what a voucher is worth,
  or nothing.
* `System.Priced.step` — a payment stays what its voucher is worth.
* `System.Settled.step`, `System.settled_of_run` — every step that wipes no batch out keeps the
  invariant.
* `System.settlement_run_world`, `System.Settled.run_world` — a run of the system is a run of core
  and the puppeteer.

## Design

Only its minter, which is core, mints at the voucher contract. The owner of the withdrawal manager
may change its configuration as long as it keeps talking to this core and this voucher contract:
`System.SettlementDeployment.Configured` is a condition on the runs, which the code does not check
and `System.Settlement.callManager` guards.
A message of a contract is executed with the call that it follows, or the whole call fails.
-/

namespace DropContracts

namespace System

open Exec AutoWithdrawer

/-! ## The system -/

/-- The addresses of a deployment with the withdrawal manager. -/
structure SettlementDeployment extends Deployment where
  manager : String
  manager_ne_core : manager ≠ core
  manager_ne_puppeteer : manager ≠ puppeteer
  manager_ne_voucher : manager ≠ voucher

/-- A payment of the withdrawal manager: the voucher it is for, and the base coins that are sent. -/
structure VoucherPayment where
  tokenId : String
  amount : ℕ
  deriving DecidableEq, Repr

/-- The state of the system, with the payments of the withdrawal manager so far, which no step
reads. -/
structure Settlement (σ : Type) where
  world : World
  manager : WithdrawalManager.Storage
  nft : σ
  payments : List VoucherPayment

/-- The steps: those of core and the puppeteer, and calls of the voucher contract and of the
withdrawal manager. -/
inductive SettlementAction where
  | world (a : Action)
  | voucher (addrValidate : String → Bool) (sender : String) (msg : Cw721Msg Payload)
  | manager (addrValidate : String → Bool) (info : MessageInfo)
    (msg : WithdrawalManager.ExecuteMsg)

/-- Whether a message asks for a new voucher. -/
def isMint : Cw721Msg Payload → Bool
  | .mint _ _ => true
  | _ => false

/-- A configuration of the withdrawal manager for this deployment. -/
def SettlementDeployment.Configured (d : SettlementDeployment) (config : WithdrawalManager.Config) :
    Prop :=
  config.coreContract = d.core ∧ config.withdrawalVoucherContract = d.voucher ∧
    config.baseDenom = d.baseDenom

instance (d : SettlementDeployment) (config : WithdrawalManager.Config) :
    Decidable (d.Configured config) := by
  unfold SettlementDeployment.Configured
  infer_instance

namespace Settlement

variable {σ : Type} (d : SettlementDeployment) (C : Cw721 σ Payload) (s : Settlement σ)

/-- The environment of a call of the voucher contract. -/
def voucherEnv : Env := ⟨s.world.height, s.world.time, d.voucher⟩

/-- What the withdrawal manager learns from the other contracts. -/
def querier (addrValidate : String → Bool) : WithdrawalManager.Querier where
  nftInfo contract tokenId :=
    if contract = d.voucher ∧ (C.custody s.nft).owner tokenId ≠ none then
      match s.world.vouchers.find? fun v => v.tokenId = tokenId with
      | some v => .ok (some v.extension)
      | none => .error "not found"
    else .error "not found"
  unbondBatch contract id :=
    if contract = d.core then
      match s.world.core.unbondBatches.load id with
      | some batch => .ok batch
      | none => .error "not found"
    else .error "not found"
  addrValidate := addrValidate

/-- The vouchers that core has minted are new tokens of the voucher contract. -/
def mintAll (vouchers : List Voucher) : Option σ :=
  vouchers.foldlM (fun nft v => C.execute nft (s.voucherEnv d) d.core (.mint v.tokenId v.owner))
    s.nft

/-- A payment of the withdrawal manager, if there is one. -/
def pay (tokenId : String) : Option WithdrawalManager.BankSend → Option (Settlement σ)
  | some payment => do
    let bank ← s.world.bank.send d.manager payment.toAddress payment.amount
    return { s with
      world := { s.world with bank := bank }
      payments := s.payments ++ [⟨tokenId, coinsOf payment.amount d.baseDenom⟩] }
  | none => some s

/-- The voucher that a message brings. -/
def broughtToken : WithdrawalManager.ExecuteMsg → String
  | .receiveNft _ tokenId _ => tokenId
  | _ => ""

/-- A call of the withdrawal manager. An update of the configuration that takes it away from the
deployment is no step of the system. -/
def callManager (addrValidate : String → Bool) (info : MessageInfo)
    (msg : WithdrawalManager.ExecuteMsg) : Option (Settlement σ) := do
  let bank ← s.world.bank.send info.sender d.manager info.funds
  let (manager, payment) ←
    (WithdrawalManager.execute s.manager (s.querier d C addrValidate) info msg).toOption
  guard (d.Configured manager.config)
  pay d { s with world := { s.world with bank := bank }, manager := manager } (broughtToken msg)
    payment

/-- The call of the contract that a voucher was sent to. The withdrawal manager takes a request that
it can read, the other contracts take none. -/
def receiveNft (addrValidate : String → Bool) (sender : String) :
    Cw721Msg Payload → Option (Settlement σ)
  | .sendNft contract tokenId payload =>
    if contract = d.manager then
      match payload with
      | some (.withdraw receiver) =>
        s.callManager d C addrValidate ⟨d.voucher, []⟩ (.receiveNft sender tokenId receiver)
      | none => none
    else if contract ∈ [d.core, d.puppeteer, d.token, d.voucher] then none
    else some s
  | _ => some s

/-- The state after a step. -/
def exec : SettlementAction → Option (Settlement σ)
  | .world a => do
    guard (a.sender ≠ some d.manager)
    let world ← s.world.exec d.toDeployment a
    let nft ← s.mintAll d C (world.vouchers.drop s.world.vouchers.length)
    return { s with world := world, nft := nft }
  | .voucher addrValidate sender msg => do
    guard (sender ≠ d.manager ∧ sender ≠ d.core ∧ isMint msg = false)
    let nft ← C.execute s.nft (s.voucherEnv d) sender msg
    receiveNft d C { s with nft := nft } addrValidate sender msg
  | .manager addrValidate info msg => do
    guard (info.sender ∉ [d.manager, d.voucher, d.core, d.puppeteer])
    s.callManager d C addrValidate info msg

end Settlement

section Runs

variable {σ : Type} (d : SettlementDeployment) (C : Cw721 σ Payload)

/-- A step of the system. -/
def SettlementStep (s : Settlement σ) (a : SettlementAction) (s' : Settlement σ) : Prop :=
  s.exec d C a = some s'

/-- The contracts right after instantiation, when no voucher has been minted. -/
structure SettlementInitial (s : Settlement σ) : Prop where
  world : Initial d.toDeployment s.world
  manager : ∃ q config, d.Configured config ∧ WithdrawalManager.instantiate q config = .ok s.manager
  owner : ∀ tokenId, (C.custody s.nft).owner tokenId = none
  operator : ∀ owner operator, ¬ (C.custody s.nft).operator owner operator
  payments : s.payments = []

/-- A state of some run. -/
def SettlementReached (s : Settlement σ) : Prop :=
  ∃ s₀, SettlementInitial d C s₀ ∧ Run (SettlementStep d C) s₀ s

/-- A step that wipes no batch out. -/
def KeepsVouchers (s : Settlement σ) : SettlementAction → Prop
  | .world a => KeepsRequests s.world a
  | _ => True

/-- A state of some run that wipes no batch out. -/
def SettlementReachable (s : Settlement σ) : Prop :=
  ∃ s₀, SettlementInitial d C s₀ ∧ RunWhere (SettlementStep d C) KeepsVouchers s₀ s

end Runs

/-! ## Payments -/

/-- A payment is for a minted voucher of a withdrawn batch, and is what the voucher is worth. -/
def Priced (w : World) (p : VoucherPayment) : Prop :=
  ∃ v ∈ w.vouchers, v.tokenId = p.tokenId ∧ ∃ id batch slashingEffect,
    v.extension.batchId = toString id ∧ w.core.unbondBatches.load id = some batch ∧
    batch.status = .withdrawn ∧ batch.slashingEffect = some slashingEffect ∧
    WithdrawalManager.payoutAmount slashingEffect v.extension.expectedAmount = .ok p.amount

/-- **A withdrawn batch is final**: a step leaves its status, its slashing and its amount alone. -/
theorem withdrawn_final {d : Deployment} {w w' : World} {a : Action} (hw : Reachable d w)
    (hstep : Step d w a w') {id : ℕ} {batch : Core.UnbondBatch}
    (hbatch : w.core.unbondBatches.load id = some batch) (hstatus : batch.status = .withdrawn) :
    ∃ batch', w'.core.unbondBatches.load id = some batch' ∧ batch'.status = .withdrawn ∧
      batch'.slashingEffect = batch.slashingEffect ∧
      batch'.unbondedAmount = batch.unbondedAmount := by
  obtain ⟨batch', hbatch', hages⟩ := batch_ages hw hstep hbatch
  have hleaving : batch.status.isLeaving = true := by
    rw [hstatus]
    rfl
  refine ⟨batch', hbatch', ?_, hages.fixed.slashingEffect hleaving,
    hages.fixed.unbondedAmount hleaving⟩
  rcases hages.status with hsame | hnext
  · rw [hsame, hstatus]
  · rw [hstatus] at hnext
    cases hnext

/-- **A payment stays what its voucher is worth**: vouchers stay, and a withdrawn batch is final. -/
theorem Priced.step {d : Deployment} {w w' : World} {a : Action} {p : VoucherPayment}
    (h : Priced w p) (hw : Reachable d w) (hstep : Step d w a w') : Priced w' p := by
  obtain ⟨v, hv, htoken, id, batch, effect, hid, hbatch, hstatus, heffect, hamount⟩ := h
  obtain ⟨batch', hbatch', hstatus', heffect', -⟩ := withdrawn_final hw hstep hbatch hstatus
  exact ⟨v, (vouchers_grow hw hstep).subset hv, htoken, id, batch', effect, hid, hbatch', hstatus',
    heffect'.trans heffect, hamount⟩

/-! ## A call of the withdrawal manager -/

/-- What the withdrawal manager has paid so far. -/
def Settlement.paidTotal {σ : Type} (s : Settlement σ) : ℕ :=
  (s.payments.map VoucherPayment.amount).sum

section Calls

variable {σ : Type} {d : SettlementDeployment} {C : Cw721 σ Payload} {s s' : Settlement σ}
  {addrValidate : String → Bool} {info : MessageInfo}

/-- What the voucher contract answers: the extension of a minted voucher that somebody owns. -/
theorem nftInfo_eq_ok {contract tokenId : String} {extension : Option Core.Metadata}
    (h : (s.querier d C addrValidate).nftInfo contract tokenId = .ok extension) :
    ∃ v ∈ s.world.vouchers, v.tokenId = tokenId ∧ extension = some v.extension := by
  simp only [Settlement.querier] at h
  split_ifs at h with hcontract
  split at h
  next v hfind =>
    have hname := List.find?_some hfind
    exact ⟨v, List.mem_of_find?_eq_some hfind, of_decide_eq_true hname, (Except.ok.inj h).symm⟩
  next => cases h

/-- What core answers: a stored batch. -/
theorem unbondBatch_eq_ok {contract : String} {id : ℕ} {batch : Core.UnbondBatch}
    (h : (s.querier d C addrValidate).unbondBatch contract id = .ok batch) :
    s.world.core.unbondBatches.load id = some batch := by
  simp only [Settlement.querier] at h
  split_ifs at h with hcontract
  split at h
  next _ hload => rw [hload, Except.ok.inj h]
  next => cases h

/-- What a call of the withdrawal manager does: coins change hands, and at most one payment is
made, for the voucher that the voucher contract has brought, and of what it is worth when the
vouchers say what was requested. What the withdrawal manager has and what it has paid do not shrink
together. -/
structure CalledManager (d : SettlementDeployment) (s : Settlement σ) (info : MessageInfo)
    (msg : WithdrawalManager.ExecuteMsg) (s' : Settlement σ) : Prop where
  world : ∃ bank, s'.world = { s.world with bank := bank }
  run : RunWhere (Step d.toDeployment) KeepsRequests s.world s'.world
  configured : d.Configured s'.manager.config
  nft : s'.nft = s.nft
  payments : s'.payments = s.payments ∨ ∃ sender tokenId receiver amount,
    msg = .receiveNft sender tokenId receiver ∧ info.sender = d.voucher ∧
      s'.payments = s.payments ++ [⟨tokenId, amount⟩] ∧
      (VouchersMatch s.world → Priced s.world ⟨tokenId, amount⟩)
  books : s.world.bank.balance d.manager d.baseDenom + s.paidTotal ≤
    s'.world.bank.balance d.manager d.baseDenom + s'.paidTotal

/-- A transfer between accounts is a step of the world. -/
theorem run_bankSend {d : Deployment} {w : World} {bank : Bank} {sender receiver : String}
    {coins : List Coin} (hcore : sender ≠ d.core) (hpuppeteer : sender ≠ d.puppeteer)
    (h : w.bank.send sender receiver coins = some bank) :
    RunWhere (Step d) KeepsRequests w { w with bank := bank } := by
  have hstep : Step d w (.bankSend sender receiver coins) { w with bank := bank } := by
    simp [Step, World.exec, World.bankSend, hcore, hpuppeteer, h]
  have hok : KeepsRequests w (.bankSend sender receiver coins) := trivial
  exact RunWhere.single hok hstep

/-- What a caller attaches comes to the withdrawal manager. -/
theorem attached_ok {bank : Bank}
    (hinfo : info.funds = [] ∨ info.sender ∉ [d.manager, d.voucher, d.core, d.puppeteer])
    (h : s.world.bank.send info.sender d.manager info.funds = some bank) :
    RunWhere (Step d.toDeployment) KeepsRequests s.world { s.world with bank := bank } ∧
      s.world.bank.balance d.manager d.baseDenom ≤ bank.balance d.manager d.baseDenom := by
  rcases hinfo with hnone | hsender
  · rw [hnone] at h
    rw [← Option.some.inj h]
    exact ⟨RunWhere.refl _, le_rfl⟩
  · simp only [List.mem_cons, List.not_mem_nil, or_false, not_or] at hsender
    obtain ⟨hmanager, -, hcore, hpuppeteer⟩ := hsender
    exact ⟨run_bankSend hcore hpuppeteer h, Bank.le_balance_send h (Ne.symm hmanager) _⟩

/-- **A call of the withdrawal manager** pays what a voucher of a withdrawn batch is worth, or
nothing. The slashing is that of the batch whose number is written on the voucher. -/
theorem Settlement.callManager_ok {msg : WithdrawalManager.ExecuteMsg}
    (hconfigured : d.Configured s.manager.config)
    (hinfo : info.funds = [] ∨ info.sender ∉ [d.manager, d.voucher, d.core, d.puppeteer])
    (h : s.callManager d C addrValidate info msg = some s') : CalledManager d s info msg s' := by
  simp only [Settlement.callManager, Option.bind_eq_bind, Option.bind_eq_some_iff,
    toOption_eq_some, Option.guard_eq_some'] at h
  obtain ⟨bank, hbank, ⟨manager, payment⟩, hexec, -, hconfigured', h⟩ := h
  obtain ⟨hrun, hattached⟩ := attached_ok hinfo hbank
  rcases WithdrawalManager.execute_ok hexec with
    ⟨sender, tokenId, receiver, paid, rfl, rfl, rfl, hpaid⟩ | ⟨rfl, -⟩
  · obtain ⟨voucher, batchId, batch, effect, payout, -, hsender, hnft, hparse, hbatch, hstatus,
      heffect, hpayout, rfl⟩ := WithdrawalManager.executeReceiveNftWithdraw_ok hpaid
    obtain ⟨hcore, hvoucher, hbase⟩ := hconfigured
    obtain ⟨v, hv, htoken, hextension⟩ := nftInfo_eq_ok hnft
    obtain rfl := Option.some.inj hextension
    have hload := unbondBatch_eq_ok hbatch
    have hpriced : VouchersMatch s.world → Priced s.world ⟨tokenId, payout⟩ := by
      intro hmatch
      obtain ⟨id, b, hb, hid⟩ := hmatch.stored v hv
      rw [hid] at hparse
      obtain rfl := Puppeteer.parseU128_toString hparse
      exact ⟨v, hv, htoken, _, batch, effect, hid, hload, hstatus, heffect, hpayout⟩
    simp only [Settlement.pay, Settlement.broughtToken, Option.bind_eq_bind,
      Option.bind_eq_some_iff, Option.pure_def, Option.some.injEq, hbase, coinsOf_cons, coinsOf_nil,
      ↓reduceIte, Nat.add_zero] at h
    obtain ⟨bank', hbank', rfl⟩ := h
    refine ⟨⟨bank', rfl⟩, hrun.trans (run_bankSend d.manager_ne_core d.manager_ne_puppeteer hbank'),
      hconfigured', rfl, .inr ⟨sender, tokenId, receiver, payout, rfl, hsender.trans hvoucher, rfl,
        hpriced⟩, ?_⟩
    have hsent := Bank.le_balance_sender hbank' d.baseDenom
    simp only [coinsOf_cons, coinsOf_nil, ↓reduceIte, Nat.add_zero] at hsent
    simp only [Settlement.paidTotal, List.map_append, List.map_cons, List.map_nil,
      List.sum_append, List.sum_cons, List.sum_nil]
    omega
  · simp only [Settlement.pay, Option.some.injEq] at h
    subst h
    exact ⟨⟨bank, rfl⟩, hrun, hconfigured', rfl, .inl rfl, Nat.add_le_add_right hattached _⟩

/-- What follows a call of the voucher contract: nothing, or the call of the withdrawal manager that a
voucher was sent to. -/
theorem receiveNft_cases {sender : String} {msg : Cw721Msg Payload}
    (h : s.receiveNft d C addrValidate sender msg = some s') :
    s' = s ∨ ∃ tokenId receiver, msg = .sendNft d.manager tokenId (some (.withdraw receiver)) ∧
      s.callManager d C addrValidate ⟨d.voucher, []⟩ (.receiveNft sender tokenId receiver) =
        some s' := by
  cases msg with
  | sendNft contract tokenId payload =>
    simp only [Settlement.receiveNft] at h
    split_ifs at h with hmanager hcontract
    · rcases payload with _ | request
      · cases h
      · cases request with
        | withdraw receiver => exact .inr ⟨tokenId, receiver, by rw [hmanager], h⟩
    · exact .inl (Option.some.inj h).symm
  | _ => exact .inl (Option.some.inj h).symm

/-- The things a step can do: a step of core's system, whose vouchers are minted; a call of the
voucher contract that brings the withdrawal manager nothing, or a voucher; or a call of the
withdrawal manager. -/
inductive SettlementCase (d : SettlementDeployment) (C : Cw721 σ Payload) (s : Settlement σ) :
    SettlementAction → Settlement σ → Prop
  | world (a : Action) (w' : World) (nft : σ) (hsender : a.sender ≠ some d.manager)
      (hworld : Step d.toDeployment s.world a w')
      (hmint : s.mintAll d C (w'.vouchers.drop s.world.vouchers.length) = some nft) :
      SettlementCase d C s (.world a) { s with world := w', nft := nft }
  | voucher (addrValidate : String → Bool) (sender : String) (msg : Cw721Msg Payload) (nft : σ)
      (hsender : sender ≠ d.manager) (hcore : sender ≠ d.core)
      (hexec : C.execute s.nft (s.voucherEnv d) sender msg = some nft) :
      SettlementCase d C s (.voucher addrValidate sender msg) { s with nft := nft }
  | brought (addrValidate : String → Bool) (sender tokenId : String) (receiver : Option String)
      (nft : σ) (s' : Settlement σ) (hsender : sender ≠ d.manager) (hcore : sender ≠ d.core)
      (hexec : C.execute s.nft (s.voucherEnv d) sender
        (.sendNft d.manager tokenId (some (.withdraw receiver))) = some nft)
      (hcalled : CalledManager d { s with nft := nft } ⟨d.voucher, []⟩
        (.receiveNft sender tokenId receiver) s') :
      SettlementCase d C s (.voucher addrValidate sender
        (.sendNft d.manager tokenId (some (.withdraw receiver)))) s'
  | manager (addrValidate : String → Bool) (info : MessageInfo)
      (msg : WithdrawalManager.ExecuteMsg) (s' : Settlement σ)
      (hsender : info.sender ∉ [d.manager, d.voucher, d.core, d.puppeteer])
      (hcalled : CalledManager d s info msg s') :
      SettlementCase d C s (.manager addrValidate info msg) s'

/-- **A step** is one of the cases. -/
theorem settlementStep_cases (hconfigured : d.Configured s.manager.config) {a : SettlementAction}
    (hstep : SettlementStep d C s a s') : SettlementCase d C s a s' := by
  cases a with
  | world a =>
    simp only [SettlementStep, Settlement.exec, Option.bind_eq_bind, Option.bind_eq_some_iff,
      Option.guard_eq_some', Option.pure_def, Option.some.injEq] at hstep
    obtain ⟨-, hsender, world, hworld, nft, hmint, rfl⟩ := hstep
    exact .world a world nft hsender hworld hmint
  | voucher addrValidate sender msg =>
    simp only [SettlementStep, Settlement.exec, Option.bind_eq_bind, Option.bind_eq_some_iff,
      Option.guard_eq_some'] at hstep
    obtain ⟨-, ⟨hsender, hcore, -⟩, nft, hexec, hreceive⟩ := hstep
    rcases receiveNft_cases hreceive with rfl | ⟨tokenId, receiver, rfl, hcall⟩
    · exact .voucher addrValidate sender msg nft hsender hcore hexec
    · exact .brought addrValidate sender tokenId receiver nft s' hsender hcore hexec
        (Settlement.callManager_ok hconfigured (.inl rfl) hcall)
  | manager addrValidate info msg =>
    simp only [SettlementStep, Settlement.exec, Option.bind_eq_bind, Option.bind_eq_some_iff,
      Option.guard_eq_some'] at hstep
    obtain ⟨-, hsender, hcall⟩ := hstep
    exact .manager addrValidate info msg s' hsender
      (Settlement.callManager_ok hconfigured (.inr hsender) hcall)

/-- A step keeps the withdrawal manager set up, and is some steps of core and the puppeteer: the
step itself, or the transfers of coins that come with a call. -/
theorem run_of_settlementStep (ok : World → Action → Prop) {a : SettlementAction}
    (hok : ∀ a', a = .world a' → ok s.world a')
    (hkeeps : ∀ w a', KeepsRequests w a' → ok w a')
    (hconfigured : d.Configured s.manager.config) (hstep : SettlementStep d C s a s') :
    d.Configured s'.manager.config ∧ RunWhere (Step d.toDeployment) ok s.world s'.world := by
  cases settlementStep_cases hconfigured hstep with
  | world a w' nft hsender hworld => exact ⟨hconfigured, RunWhere.single (hok a rfl) hworld⟩
  | voucher => exact ⟨hconfigured, RunWhere.refl _⟩
  | brought _ _ _ _ _ _ _ _ _ hcalled => exact ⟨hcalled.configured, hcalled.run.mono hkeeps⟩
  | manager _ _ _ _ _ hcalled => exact ⟨hcalled.configured, hcalled.run.mono hkeeps⟩

/-- **A step of the settlement is some steps of core and the puppeteer.** -/
theorem settlementStep_world {a : SettlementAction} (hconfigured : d.Configured s.manager.config)
    (hstep : SettlementStep d C s a s') :
    d.Configured s'.manager.config ∧ Run (Step d.toDeployment) s.world s'.world :=
  run_of_settlementStep (fun _ _ => True) (fun _ _ => trivial) (fun _ _ _ => trivial) hconfigured
    hstep

/-- **A run of the settlement is a run of core and the puppeteer.** -/
theorem settlement_run_world (hconfigured : d.Configured s.manager.config)
    (hrun : Run (SettlementStep d C) s s') :
    d.Configured s'.manager.config ∧ Run (Step d.toDeployment) s.world s'.world := by
  refine hrun.preserves (P := fun t => d.Configured t.manager.config ∧
    Run (Step d.toDeployment) s.world t.world) ?_ ⟨hconfigured, RunWhere.refl _⟩
  rintro t a t' - hstep ⟨ht, hsofar⟩
  obtain ⟨ht', hlast⟩ := settlementStep_world ht hstep
  exact ⟨ht', hsofar.trans hlast⟩

/-- What the withdrawal manager has and what it has paid never shrink together. -/
theorem books_of_settlementStep {a : SettlementAction} (hconfigured : d.Configured s.manager.config)
    (hstep : SettlementStep d C s a s') :
    s.world.bank.balance d.manager d.baseDenom + s.paidTotal ≤
      s'.world.bank.balance d.manager d.baseDenom + s'.paidTotal := by
  cases settlementStep_cases hconfigured hstep with
  | world a w' nft hsender hworld =>
    exact Nat.add_le_add_right (le_balance_of_step d.manager_ne_core d.manager_ne_puppeteer
      d.base_ne_token hsender hworld) _
  | voucher => exact le_rfl
  | brought _ _ _ _ _ _ _ _ _ hcalled => exact hcalled.books
  | manager _ _ _ _ _ hcalled => exact hcalled.books

end Calls

/-! ## The invariant -/

/-- The world is one of a run that wipes no batch out, the withdrawal manager is set up for it and
lets nobody move its vouchers, and it owns every voucher that it has paid for, once, what the
voucher is worth. -/
structure Settled {σ : Type} (d : SettlementDeployment) (C : Cw721 σ Payload) (s : Settlement σ) :
    Prop where
  world : ReachableWhere d.toDeployment KeepsRequests s.world
  configured : d.Configured s.manager.config
  managerSealed : (C.custody s.nft).Sealed d.manager
  held : ∀ p ∈ s.payments, (C.custody s.nft).owner p.tokenId = some d.manager
  nodup : (s.payments.map VoucherPayment.tokenId).Nodup
  priced : ∀ p ∈ s.payments, Priced s.world p

section Invariant

variable {σ : Type} {d : SettlementDeployment} {C : Cw721 σ Payload} {s s' : Settlement σ}

/-- Nothing has been paid right after instantiation. -/
theorem SettlementInitial.settled (h : SettlementInitial d C s) : Settled d C s := by
  obtain ⟨q, config, hconfigured, hmanager⟩ := h.manager
  have hconfig : s.manager.config = config := by
    simp only [WithdrawalManager.instantiate, WithdrawalManager.initializeOwner, bind_eq_ok,
      pure_eq_ok, Except.ok.injEq] at hmanager
    obtain ⟨-, -, hmanager⟩ := hmanager
    rw [← hmanager]
  refine ⟨⟨s.world, h.world, RunWhere.refl _⟩, hconfig ▸ hconfigured,
    ⟨fun t ht => ?_, h.operator d.manager⟩, ?_, ?_, ?_⟩
  · rw [h.owner t] at ht
    cases ht
  · rw [h.payments]
    exact fun p hp => absurd hp List.not_mem_nil
  · rw [h.payments]
    exact List.nodup_nil
  · rw [h.payments]
    exact fun p hp => absurd hp List.not_mem_nil

/-- **Others leave the vouchers of the withdrawal manager alone.** -/
theorem Settled.called (h : Settled d C s) {nft : σ} {env : Env} {sender : String}
    {msg : Cw721Msg Payload} (hsender : sender ≠ d.manager)
    (hexec : C.execute s.nft env sender msg = some nft) :
    Settled d C { s with nft := nft } := by
  have hchange := (C.execute_effect hexec).change
  exact ⟨h.world, h.configured, hchange.sealed hsender h.managerSealed,
    fun p hp => hchange.owner_eq_of_sealed hsender h.managerSealed (h.held p hp), h.nodup, h.priced⟩

/-- Vouchers that core mints leave those of the withdrawal manager alone. -/
theorem Settled.minted (h : Settled d C s) {vouchers : List Voucher} {nft : σ}
    (hmint : s.mintAll d C vouchers = some nft) : Settled d C { s with nft := nft } := by
  refine foldlM_preserves (P := fun nft => Settled d C { s with nft := nft }) ?_ hmint h
  intro nft v nft' hexec hnft
  exact hnft.called d.manager_ne_core.symm hexec

/-- A step of core's system keeps the payments priced. -/
theorem Settled.stepped (h : Settled d C s) {a : Action} {w' : World}
    (hok : KeepsRequests s.world a) (hstep : Step d.toDeployment s.world a w') :
    Settled d C { s with world := w' } := by
  obtain ⟨w₀, hinit, hrun⟩ := h.world
  exact ⟨⟨w₀, hinit, hrun.tail hok hstep⟩, h.configured, h.managerSealed, h.held, h.nodup,
    fun p hp => (h.priced p hp).step h.world.reachable hstep⟩

/-- A call of the withdrawal manager keeps the invariant, when a voucher that is brought is its own
by then and has not been paid for. -/
theorem Settled.paid (h : Settled d C s) {info : MessageInfo} {msg : WithdrawalManager.ExecuteMsg}
    (hcall : CalledManager d s info msg s')
    (hbrought : ∀ sender tokenId receiver, msg = .receiveNft sender tokenId receiver →
      info.sender = d.voucher → (C.custody s.nft).owner tokenId = some d.manager ∧
        ∀ p ∈ s.payments, p.tokenId ≠ tokenId) : Settled d C s' := by
  obtain ⟨⟨bank, hworld⟩, hrun, hconfigured, hnft, hpayments, -⟩ := hcall
  obtain ⟨w₀, hinit, hrun₀⟩ := h.world
  have hpriced : ∀ p, Priced s.world p → Priced s'.world p := fun p hp => by
    rw [hworld]
    exact hp
  rcases hpayments with hsame | ⟨sender, tokenId, receiver, amount, rfl, hsender, happend, hnew⟩
  · refine ⟨⟨w₀, hinit, hrun₀.trans hrun⟩, hconfigured, ?_, ?_, ?_, ?_⟩
    · rw [hnft]
      exact h.managerSealed
    · rw [hnft, hsame]
      exact h.held
    · rw [hsame]
      exact h.nodup
    · rw [hsame]
      exact fun p hp => hpriced p (h.priced p hp)
  · obtain ⟨howner, hunpaid⟩ := hbrought sender tokenId receiver rfl hsender
    have hmatch := vouchersMatch_of_run h.world
    refine ⟨⟨w₀, hinit, hrun₀.trans hrun⟩, hconfigured, ?_, ?_, ?_, ?_⟩
    · rw [hnft]
      exact h.managerSealed
    · rw [hnft, happend]
      intro p hp
      rcases List.mem_append.1 hp with hp | hp
      · exact h.held p hp
      · rw [List.mem_singleton.1 hp]
        exact howner
    · rw [happend]
      exact Tally.nodup_keys_concat h.nodup hunpaid
    · rw [happend]
      intro p hp
      rcases List.mem_append.1 hp with hp | hp
      · exact hpriced p (h.priced p hp)
      · rw [List.mem_singleton.1 hp]
        exact hpriced _ (hnew hmatch)

/-- A voucher that somebody else sends to the withdrawal manager is its own then, and has not been
paid for. -/
theorem Settled.brought (h : Settled d C s) {nft : σ} {env : Env} {sender tokenId : String}
    {payload : Payload} (hsender : sender ≠ d.manager)
    (hexec : C.execute s.nft env sender (.sendNft d.manager tokenId payload) = some nft) :
    (C.custody nft).owner tokenId = some d.manager ∧ ∀ p ∈ s.payments, p.tokenId ≠ tokenId := by
  obtain ⟨hmove, hplace⟩ := C.execute_effect hexec
  refine ⟨by rw [hplace, Custody.owner_place_self], ?_⟩
  rintro p hp rfl
  exact h.managerSealed.not_mayMove hsender (h.held p hp) hmove

/-- **Every step that wipes no batch out keeps the invariant.** -/
theorem Settled.step (h : Settled d C s) {a : SettlementAction} (hok : KeepsVouchers s a)
    (hstep : SettlementStep d C s a s') : Settled d C s' := by
  cases settlementStep_cases h.configured hstep with
  | world a w' nft hsender hworld hmint => exact (h.minted hmint).stepped hok hworld
  | voucher _ _ _ nft hsender _ hexec => exact h.called hsender hexec
  | brought _ sender tokenId receiver nft _ hsender _ hexec hcalled =>
    refine (h.called hsender hexec).paid hcalled ?_
    rintro _ _ _ heq -
    cases heq
    exact h.brought hsender hexec
  | manager _ info msg _ hsender hcalled =>
    refine h.paid hcalled ?_
    intro _ _ _ _ heq
    simp [heq] at hsender

/-- Of a step that wipes no batch out, so are the steps of core and the puppeteer. -/
theorem Settled.run_step (h : Settled d C s) {a : SettlementAction} (hok : KeepsVouchers s a)
    (hstep : SettlementStep d C s a s') :
    RunWhere (Step d.toDeployment) KeepsRequests s.world s'.world := by
  refine (run_of_settlementStep KeepsRequests (fun b hb => ?_) (fun _ _ => id) h.configured hstep).2
  rw [hb] at hok
  exact hok

/-- The withdrawal manager is set up in every run, and the world is one that core and the puppeteer
reach. -/
theorem configured_of_reached (h : SettlementReached d C s) :
    d.Configured s.manager.config ∧ Reachable d.toDeployment s.world := by
  obtain ⟨s₀, hinit, hrun⟩ := h
  obtain ⟨hconfigured, hworld⟩ := settlement_run_world hinit.settled.configured hrun
  exact ⟨hconfigured, hinit.settled.world.reachable.trans hworld⟩

/-- **A run is a run of core and the puppeteer** when the vouchers and the withdrawal manager are
looked through. -/
theorem Settled.run_world (h : Settled d C s)
    (hrun : RunWhere (SettlementStep d C) KeepsVouchers s s') :
    Settled d C s' ∧ RunWhere (Step d.toDeployment) KeepsRequests s.world s'.world := by
  refine hrun.preserves (P := fun t => Settled d C t ∧
    RunWhere (Step d.toDeployment) KeepsRequests s.world t.world) ?_ ⟨h, RunWhere.refl _⟩
  rintro t a t' hok hstep ⟨ht, hsofar⟩
  exact ⟨ht.step hok hstep, hsofar.trans (ht.run_step hok hstep)⟩

/-- **Along runs that wipe no batch out the invariant holds.** -/
theorem settled_of_run (h : SettlementReachable d C s) : Settled d C s := by
  obtain ⟨s₀, hinit, hrun⟩ := h
  exact (hinit.settled.run_world hrun).1

end Invariant

/-! ## A deployment -/

namespace Sample

/-- The addresses of a deployment with the withdrawal manager. -/
def settlementDeployment : SettlementDeployment where
  toDeployment := deployment
  manager := "manager"
  manager_ne_core := by decide
  manager_ne_puppeteer := by decide
  manager_ne_voucher := by decide

/-- The contracts right after instantiation. -/
def settlement : Settlement Cw721Base where
  world := initial
  manager := ⟨⟨"core", "voucher", "ibc/uatom", "owner"⟩, "owner", false⟩
  nft := ⟨StorageMap.empty, [], some "core", none⟩
  payments := []

/-- The contracts are in an initial state. -/
theorem settlement_spec :
    SettlementInitial settlementDeployment (cw721Base Payload) settlement where
  world := initial_spec
  manager := ⟨⟨fun _ _ => .ok none, fun _ _ => .error "", fun _ => true⟩,
    settlement.manager.config, ⟨rfl, rfl, rfl⟩, rfl⟩
  owner _ := rfl
  operator := by
    rintro o s ⟨e, he, -⟩
    cases he
  payments := rfl

/-- Whether a step is taken while no batch has failed. -/
def nothingFailed (s : Settlement Cw721Base) (_ : SettlementAction) : Bool :=
  s.world.core.failedBatchId = none

/-- The state after a list of steps, if all of them can be taken and no batch fails. -/
def runSettlement (s : Settlement Cw721Base) (actions : List SettlementAction) :
    Option (Settlement Cw721Base) :=
  runList (Settlement.exec settlementDeployment (cw721Base Payload)) nothingFailed s actions

/-- A list of steps is run by evaluation. -/
theorem run_of_runSettlement {s s' : Settlement Cw721Base} {actions : List SettlementAction}
    (h : runSettlement s actions = some s') :
    RunWhere (SettlementStep settlementDeployment (cw721Base Payload)) KeepsVouchers s s' := by
  refine runList_eq_some (fun _ _ _ hexec => hexec) (fun s a _ hnone => ?_) h
  cases a with
  | world a => exact keepsRequests_of_noFailed (of_decide_eq_true hnone) a
  | voucher addrValidate sender msg => trivial
  | manager addrValidate info msg => trivial

/-- The end of a list of steps from the start is reachable. -/
theorem reachable_of_runSettlement {s : Settlement Cw721Base} {actions : List SettlementAction}
    (h : runSettlement settlement actions = some s) :
    SettlementReachable settlementDeployment (cw721Base Payload) s :=
  ⟨settlement, settlement_spec, run_of_runSettlement h⟩

/-- A batch with one request of Alice is withdrawn, slashed to three fifths, and the withdrawal
manager receives what was sent for it. -/
def withdrawnBatch : List SettlementAction :=
  (matured ++ [remote 60 900, tick, .deliver 4 .response, tick,
    .bankSend "alice" "manager" [⟨"ibc/uatom", 60⟩]]).map .world

/-- Alice sends her voucher to the withdrawal manager. -/
def aliceWithdraws : SettlementAction :=
  .voucher (fun _ => true) "alice" (.sendNft "manager" "0_alice_1" (some (.withdraw none)))

end Sample

end System

end DropContracts
