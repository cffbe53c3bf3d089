import DropContracts.AutoWithdrawer.Contract
import DropContracts.Base.Run
import DropContracts.System.Bank
import DropContracts.WithdrawalManager.Contract

set_option relaxedAutoImplicit false
set_option autoImplicit false

/-!
# The contracts that handle vouchers

The auto-withdrawer, the withdrawal manager and the voucher contract, called by any accounts in any
order. The voucher contract is any token contract with the documented effects; core is an account
that mints a new voucher for an unbonding of the auto-withdrawer. The messages of a call are
executed with the call, or the whole call fails.

Two histories are kept beside the state, which no step reads: who brought a voucher to the
auto-withdrawer, and for which vouchers the withdrawal manager has paid.

## Main definitions

* `System.VoucherDeployment`, `System.Vouchers`, `System.VoucherAction` — the addresses, the states
  and the steps of the system.
* `System.Vouchers.callManager`, `System.Vouchers.callVoucher`, `System.Vouchers.dispatch` — calls
  of the contracts and the messages that follow.
* `System.Taken`, `System.Given`, `System.OutsideStep` — what a step does: a voucher is taken into
  custody, a voucher is given away, or somebody else acts.

## Main results

* `System.exec_cases` — every step is one of the three.
* `System.VouchersReachable.custodial` — the auto-withdrawer owns every recorded voucher, and
  neither contract lets anybody else move its vouchers.
-/

namespace DropContracts

namespace System

open Exec AutoWithdrawer

/-! ## The system -/

/-- The addresses of the contracts. -/
structure VoucherDeployment where
  auto : String
  manager : String
  voucher : String
  core : String
  auto_ne_manager : auto ≠ manager
  auto_ne_voucher : auto ≠ voucher
  auto_ne_core : auto ≠ core
  manager_ne_core : manager ≠ core

/-- The accounts that act on their own: a call in the name of the auto-withdrawer or of the
withdrawal manager is a message of these contracts. -/
abbrev VoucherDeployment.Outside (d : VoucherDeployment) (a : String) : Prop :=
  a ≠ d.auto ∧ a ≠ d.manager

/-- The state of the contracts and of the bank. The histories: the account that a voucher in
custody came from, and the calling contract and voucher of each payment. -/
structure Vouchers (σ : Type) where
  auto : AutoWithdrawer.Storage
  manager : WithdrawalManager.Storage
  nft : σ
  bank : Bank
  broughtBy : String → Option String
  payments : List (String × String)

/-- A call of the auto-withdrawer, with the answers to the queries it leads to, and the voucher that
core mints and the events that core replies when the call unbonds LD tokens. -/
structure AutoCall where
  env : Env
  info : MessageInfo
  msg : AutoWithdrawer.ExecuteMsg
  querier : WithdrawalManager.Querier
  minted : String
  events : List Event

/-- The steps: calls of the three contracts, and the bank. -/
inductive VoucherAction where
  | autoWithdrawer (call : AutoCall)
  | voucher (env : Env) (q : WithdrawalManager.Querier) (sender : String) (msg : Cw721Msg Payload)
  | manager (q : WithdrawalManager.Querier) (info : MessageInfo)
    (msg : WithdrawalManager.ExecuteMsg)
  | bankSend (sender receiver : String) (coins : List Coin)
  | bankMint (receiver : String) (coin : Coin)
  | bankBurn (holder : String) (coin : Coin)

variable {σ : Type} (d : VoucherDeployment) (C : Cw721 σ Payload)

/-- The voucher that a payment is for, with the contract that has called. -/
def paidVouchers (contract : String) :
    WithdrawalManager.ExecuteMsg → Option WithdrawalManager.BankSend → List (String × String)
  | .receiveNft _ tokenId _, some _ => [(contract, tokenId)]
  | _, _ => []

/-- The bank after a payment of the withdrawal manager, if there is one. -/
def sendPayment (bank : Bank) : Option WithdrawalManager.BankSend → Option Bank
  | some payment => bank.send d.manager payment.toAddress payment.amount
  | none => some bank

/-- A call of the withdrawal manager. -/
def Vouchers.callManager (w : Vouchers σ) (q : WithdrawalManager.Querier) (info : MessageInfo)
    (msg : WithdrawalManager.ExecuteMsg) : Option (Vouchers σ) := do
  let bank ← w.bank.send info.sender d.manager info.funds
  let (manager, payment) ← (WithdrawalManager.execute w.manager q info msg).toOption
  let bank ← sendPayment d bank payment
  return { w with
    manager := manager
    bank := bank
    payments := w.payments ++ paidVouchers info.sender msg payment }

/-- The call of the contract that a voucher was sent to. The withdrawal manager takes a request that
it can read; the auto-withdrawer takes none. -/
def Vouchers.receiveNft (w : Vouchers σ) (q : WithdrawalManager.Querier) (sender : String) :
    Cw721Msg Payload → Option (Vouchers σ)
  | .sendNft contract tokenId payload =>
    if contract = d.auto then none
    else if contract = d.manager then
      match payload with
      | some (.withdraw receiver) =>
        w.callManager d q ⟨d.voucher, []⟩ (.receiveNft sender tokenId receiver)
      | none => none
    else some w
  | _ => some w

/-- Who brought a voucher to the auto-withdrawer: the owner before it came. -/
def broughtAfter (before after : Custody String String) (broughtBy : String → Option String)
    (tokenId : String) : Option String :=
  if after.owner tokenId = some d.auto ∧ before.owner tokenId ≠ some d.auto then
    before.owner tokenId
  else broughtBy tokenId

/-- A call of the voucher contract, and of the contract that a voucher was sent to. -/
def Vouchers.callVoucher (w : Vouchers σ) (env : Env) (q : WithdrawalManager.Querier)
    (sender : String) (msg : Cw721Msg Payload) : Option (Vouchers σ) := do
  let nft ← C.execute w.nft { env with contractAddress := d.voucher } sender msg
  Vouchers.receiveNft d { w with
    nft := nft
    broughtBy := broughtAfter d (C.custody w.nft) (C.custody nft) w.broughtBy } q sender msg

/-- A message of the auto-withdrawer. Core mints a voucher for the tokens it is sent, and the reply
comes with events that tell this voucher; what core does with the tokens is its own step. -/
def Vouchers.dispatch (call : AutoCall) (w : Vouchers σ) :
    AutoWithdrawer.Msg → Option (Vouchers σ)
  | .coreUnbond contractAddr funds replyId => do
    guard (contractAddr = d.core ∧ tokenIdOf call.events = some call.minted)
    let bank ← w.bank.send d.auto d.core funds
    let w ← Vouchers.callVoucher d C { w with bank := bank } call.env call.querier d.core
      (.mint call.minted d.auto)
    let auto ← (AutoWithdrawer.reply w.auto replyId call.events).toOption
    return { w with
      auto := auto
      broughtBy := Function.update w.broughtBy call.minted (some call.info.sender) }
  | .voucher contractAddr msg => do
    guard (contractAddr = d.voucher)
    w.callVoucher d C call.env call.querier d.auto msg
  | .bankSend toAddress amount => do
    let bank ← w.bank.send d.auto toAddress amount
    return { w with bank := bank }

/-- The state after a step. -/
def Vouchers.exec (w : Vouchers σ) : VoucherAction → Option (Vouchers σ)
  | .autoWithdrawer call => do
    guard (d.Outside call.info.sender)
    let bank ← w.bank.send call.info.sender d.auto call.info.funds
    let (auto, msgs) ← (AutoWithdrawer.execute w.auto
      { call.env with contractAddress := d.auto } call.info call.msg).toOption
    msgs.foldlM (Vouchers.dispatch d C call) { w with auto := auto, bank := bank }
  | .voucher env q sender msg => do
    guard (d.Outside sender)
    w.callVoucher d C env q sender msg
  | .manager q info msg => do
    guard (d.Outside info.sender ∧ info.sender ≠ d.voucher)
    w.callManager d q info msg
  | .bankSend sender receiver coins => do
    guard (d.Outside sender)
    let bank ← w.bank.send sender receiver coins
    return { w with bank := bank }
  | .bankMint receiver coin => some { w with bank := w.bank.mint receiver coin }
  | .bankBurn holder coin => do
    guard (d.Outside holder)
    let bank ← w.bank.burn holder coin
    return { w with bank := bank }

/-- A step of the system. -/
def VoucherStep (w : Vouchers σ) (action : VoucherAction) (w' : Vouchers σ) : Prop :=
  w.exec d C action = some w'

/-- The contracts right after instantiation, when no voucher has been minted. -/
structure VouchersInitial (w : Vouchers σ) : Prop where
  auto : ∃ addrValidate ldToken,
    AutoWithdrawer.instantiate addrValidate d.core d.voucher d.manager ldToken = .ok w.auto
  manager : ∃ q config, config.withdrawalVoucherContract = d.voucher ∧
    WithdrawalManager.instantiate q config = .ok w.manager
  owner : ∀ tokenId, (C.custody w.nft).owner tokenId = none
  operator : ∀ owner operator, ¬ (C.custody w.nft).operator owner operator
  payments : w.payments = []

/-- A state of some run whose steps all satisfy `ok`. -/
def VouchersReachable (ok : Vouchers σ → VoucherAction → Prop) (w : Vouchers σ) : Prop :=
  ∃ w₀, VouchersInitial d C w₀ ∧ RunWhere (VoucherStep d C) ok w₀ w

/-! ## What a call does -/

section Calls

variable {d C} {w w' : Vouchers σ} {q : WithdrawalManager.Querier} {info : MessageInfo}
  {env : Env} {sender : String}

/-- A payment of the withdrawal manager takes nothing from anybody else. -/
theorem le_balance_sendPayment {bank bank' : Bank} {payment : Option WithdrawalManager.BankSend}
    (h : sendPayment d bank payment = some bank') {a : String} (ha : a ≠ d.manager)
    (denom : String) : bank.balance a denom ≤ bank'.balance a denom := by
  cases payment with
  | none => rw [← Option.some.inj h]
  | some payment => exact Bank.le_balance_send h ha denom

/-- A payment is for the voucher that was received. -/
theorem paidVouchers_cases (contract : String) (msg : WithdrawalManager.ExecuteMsg)
    (payment : Option WithdrawalManager.BankSend) :
    paidVouchers contract msg payment = [] ∨ ∃ sender tokenId receiver,
      msg = .receiveNft sender tokenId receiver ∧
        paidVouchers contract msg payment = [(contract, tokenId)] := by
  unfold paidVouchers
  split
  · exact .inr ⟨_, _, _, rfl, rfl⟩
  · exact .inl rfl

/-- The part of the system that a call of the withdrawal manager leaves alone, and the payment. -/
theorem callManager_ok {msg : WithdrawalManager.ExecuteMsg}
    (h : w.callManager d q info msg = some w') :
    w'.auto = w.auto ∧ w'.nft = w.nft ∧ w'.broughtBy = w.broughtBy ∧
      (info.sender ≠ d.auto → ∀ denom,
        w.bank.balance d.auto denom ≤ w'.bank.balance d.auto denom) ∧
      (w'.payments = w.payments ∨ ∃ sender tokenId receiver,
        msg = .receiveNft sender tokenId receiver ∧
          w'.payments = w.payments ++ [(info.sender, tokenId)]) := by
  simp only [Vouchers.callManager, Option.bind_eq_bind, Option.bind_eq_some_iff, Option.pure_def,
    Option.some.injEq] at h
  obtain ⟨bank, hbank, ⟨manager, payment⟩, -, bank', hbank', rfl⟩ := h
  refine ⟨rfl, rfl, rfl, fun hsender denom => ?_, ?_⟩
  · exact (Bank.le_balance_send hbank hsender.symm denom).trans
      (le_balance_sendPayment hbank' d.auto_ne_manager denom)
  · rcases paidVouchers_cases info.sender msg payment with hnone | ⟨s, t, r, hmsg, hpaid⟩
    · left
      simp [hnone]
    · right
      exact ⟨s, t, r, hmsg, by simp [hpaid]⟩

/-- What a call of the voucher contract does. -/
structure CalledVoucher (d : VoucherDeployment) (C : Cw721 σ Payload) (w : Vouchers σ)
    (sender : String) (msg : Cw721Msg Payload) (w' : Vouchers σ) : Prop where
  auto : w'.auto = w.auto
  effect : Cw721Effect (C.custody w.nft) sender (C.custody w'.nft) msg
  broughtBy : w'.broughtBy = broughtAfter d (C.custody w.nft) (C.custody w'.nft) w.broughtBy
  balance : ∀ denom, w.bank.balance d.auto denom ≤ w'.bank.balance d.auto denom
  payments : w'.payments = w.payments ∨ ∃ tokenId payload,
    msg = .sendNft d.manager tokenId payload ∧ w'.payments = w.payments ++ [(d.voucher, tokenId)]

/-- The contract that a voucher was sent to can only be the withdrawal manager, if any. -/
theorem receiveNft_ok {msg : Cw721Msg Payload} (h : w.receiveNft d q sender msg = some w') :
    w' = w ∨ ∃ tokenId receiver, msg = .sendNft d.manager tokenId (some (.withdraw receiver)) ∧
      w.callManager d q ⟨d.voucher, []⟩ (.receiveNft sender tokenId receiver) = some w' := by
  cases msg with
  | sendNft contract tokenId payload =>
    simp only [Vouchers.receiveNft] at h
    split_ifs at h with hauto hmanager
    · rcases payload with _ | receiver
      · cases h
      · subst hmanager
        cases receiver with
        | withdraw receiver => exact .inr ⟨tokenId, receiver, rfl, h⟩
    · exact .inl (Option.some.inj h).symm
  | _ => exact .inl (Option.some.inj h).symm

/-- **A call of the voucher contract** has the documented effect; the withdrawal manager pays only
for a voucher that is sent to it. -/
theorem callVoucher_ok {msg : Cw721Msg Payload}
    (h : w.callVoucher d C env q sender msg = some w') : CalledVoucher d C w sender msg w' := by
  simp only [Vouchers.callVoucher, Option.bind_eq_bind, Option.bind_eq_some_iff] at h
  obtain ⟨nft, hnft, h⟩ := h
  have heffect := C.execute_effect hnft
  rcases receiveNft_ok h with rfl | ⟨tokenId, receiver, rfl, hcall⟩
  · exact ⟨rfl, heffect, rfl, fun _ => le_rfl, .inl rfl⟩
  · obtain ⟨hauto, hnft', hbrought, hbalance, hpayments⟩ := callManager_ok hcall
    refine ⟨hauto, by rw [hnft']; exact heffect, by rw [hbrought, hnft'],
      hbalance d.auto_ne_voucher.symm, ?_⟩
    rcases hpayments with hsame | ⟨s, t, r, hmsg, hpaid⟩
    · exact .inl hsame
    · cases hmsg
      exact .inr ⟨tokenId, _, rfl, hpaid⟩

end Calls

/-! ## The three kinds of steps -/

/-- The addresses that the auto-withdrawer has stored are those of the deployment. -/
structure VoucherDeployment.StoredIn (d : VoucherDeployment) (s : AutoWithdrawer.Storage) :
    Prop where
  core : s.coreAddress = d.core
  voucher : s.withdrawalVoucherAddress = d.voucher
  manager : s.withdrawalManagerAddress = d.manager

/-- A voucher is taken into custody with a deposit: a minted one, or one that the auto-withdrawer
may move. -/
structure Taken (d : VoucherDeployment) (C : Cw721 σ Payload) (w : Vouchers σ) (call : AutoCall)
    (tokenId : String) (deposit : List Coin) (w' : Vouchers σ) : Prop where
  stored : d.StoredIn w'.auto
  bondings : w'.auto.bondings = w.auto.bondings.save tokenId ⟨call.info.sender, deposit⟩
  custody : C.custody w'.nft = (C.custody w.nft).place tokenId (some d.auto)
  origin :
    call.msg = .bond .withLdAssets ∧ (C.custody w.nft).owner tokenId = none ∧
      w'.broughtBy = Function.update w.broughtBy tokenId (some call.info.sender) ∨
    call.msg = .bond (.withNFT tokenId) ∧ (C.custody w.nft).MayMove d.auto tokenId ∧
      w'.broughtBy = broughtAfter d (C.custody w.nft) (C.custody w'.nft) w.broughtBy
  payments : w'.payments = w.payments
  balance : ∀ denom,
    w.bank.balance d.auto denom + coinsOf deposit denom ≤ w'.bank.balance d.auto denom

/-- A recorded voucher is given away: back to its bonder, or to the withdrawal manager, which may
pay for it. -/
structure Given (d : VoucherDeployment) (C : Cw721 σ Payload) (w : Vouchers σ) (call : AutoCall)
    (tokenId : String) (bonding : BondingRecord) (receiver : String) (w' : Vouchers σ) : Prop where
  stored : d.StoredIn w'.auto
  load : w.auto.bondings.load tokenId = some bonding
  bondings : w'.auto.bondings = w.auto.bondings.remove tokenId
  right : (C.custody w.nft).MayMove d.auto tokenId
  custody : C.custody w'.nft = (C.custody w.nft).place tokenId (some receiver)
  receiver_ne : receiver ≠ d.auto
  broughtBy : w'.broughtBy = broughtAfter d (C.custody w.nft) (C.custody w'.nft) w.broughtBy
  caller : call.msg = .unbond tokenId ∧ call.info.sender = bonding.bonder ∨
    call.msg = .withdraw tokenId
  payments : w'.payments = w.payments ∨
    receiver = d.manager ∧ w'.payments = w.payments ++ [(d.voucher, tokenId)]
  balance : ∀ denom,
    w.bank.balance d.auto denom ≤ w'.bank.balance d.auto denom + coinsOf bonding.deposit denom

/-- Somebody else acts: the records stay, and vouchers move as the rights of the caller allow. The
withdrawal manager pays for a voucher that it is sent, or for one of another contract. -/
structure OutsideStep (d : VoucherDeployment) (C : Cw721 σ Payload) (w : Vouchers σ)
    (sender : String) (w' : Vouchers σ) : Prop where
  outside : d.Outside sender
  auto : w'.auto = w.auto
  change : (C.custody w.nft).Change sender (C.custody w'.nft)
  broughtBy : w'.broughtBy = broughtAfter d (C.custody w.nft) (C.custody w'.nft) w.broughtBy
  payments : w'.payments = w.payments ∨
    (∃ tokenId, (C.custody w.nft).MayMove sender tokenId ∧
      C.custody w'.nft = (C.custody w.nft).place tokenId (some d.manager) ∧
      w'.payments = w.payments ++ [(d.voucher, tokenId)]) ∨
    ∃ contract tokenId, contract ≠ d.voucher ∧ w'.payments = w.payments ++ [(contract, tokenId)]
  balance : ∀ denom, w.bank.balance d.auto denom ≤ w'.bank.balance d.auto denom

section Steps

variable {d C} {w w' : Vouchers σ} {call : AutoCall} {tokenId : String}

/-- When no voucher changes hands, the history of the custody stays. -/
theorem broughtAfter_self (custody : Custody String String) (broughtBy : String → Option String) :
    broughtAfter d custody custody broughtBy = broughtBy := by
  funext t
  simp [broughtAfter]

/-- The history of the other vouchers stays when one changes hands. -/
theorem broughtAfter_place_of_ne {custody : Custody String String}
    {broughtBy : String → Option String} {t : String} {o : Option String} (h : t ≠ tokenId) :
    broughtAfter d custody (custody.place tokenId o) broughtBy t = broughtBy t := by
  simp [broughtAfter, h]

/-- A call of the auto-withdrawer: the attached coins, the call itself, and its messages. -/
theorem exec_autoWithdrawer (h : w.exec d C (.autoWithdrawer call) = some w') :
    d.Outside call.info.sender ∧ ∃ bank auto msgs,
      w.bank.send call.info.sender d.auto call.info.funds = some bank ∧
      AutoWithdrawer.execute w.auto { call.env with contractAddress := d.auto } call.info call.msg =
        .ok (auto, msgs) ∧
      msgs.foldlM (Vouchers.dispatch d C call) { w with auto := auto, bank := bank } = some w' := by
  simp only [Vouchers.exec, Option.bind_eq_bind, Option.bind_eq_some_iff, Option.guard_eq_some',
    toOption_eq_some] at h
  obtain ⟨-, houtside, bank, hbank, ⟨auto, msgs⟩, hexec, h⟩ := h
  exact ⟨houtside, bank, auto, msgs, hbank, hexec, h⟩

/-- A step that leaves the vouchers and the records alone, and takes nothing from the
auto-withdrawer. -/
theorem OutsideStep.of_same {sender : String} (houtside : d.Outside sender)
    (hauto : w'.auto = w.auto) (hnft : w'.nft = w.nft) (hbrought : w'.broughtBy = w.broughtBy)
    (hpayments : w'.payments = w.payments ∨ ∃ contract tokenId, contract ≠ d.voucher ∧
      w'.payments = w.payments ++ [(contract, tokenId)])
    (hbalance : ∀ denom, w.bank.balance d.auto denom ≤ w'.bank.balance d.auto denom) :
    OutsideStep d C w sender w' where
  outside := houtside
  auto := hauto
  change := by
    rw [hnft]
    exact .grant _ ⟨rfl, fun _ _ h => .inl h, fun _ _ h => .inl h⟩
  broughtBy := by rw [hnft, hbrought, broughtAfter_self]
  payments := hpayments.imp_right .inr
  balance := hbalance

/-- **A bonding of LD tokens** takes the minted voucher into custody, for the caller. -/
theorem exec_bondWithLdAssets (hstored : d.StoredIn w.auto)
    (hmsg : call.msg = .bond .withLdAssets) (h : w.exec d C (.autoWithdrawer call) = some w') :
    ∃ deposit, Taken d C w call call.minted deposit w' := by
  obtain ⟨⟨hsender, -⟩, bank, auto, msgs, hbank, hexec, h⟩ := exec_autoWithdrawer h
  rw [hmsg] at hexec
  obtain ⟨ldAsset, deposit, hperm, -, -, rfl, rfl⟩ := executeBondWithLdAssets_ok hexec
  simp only [List.foldlM_cons, List.foldlM_nil, Vouchers.dispatch, Option.bind_eq_bind,
    Option.bind_eq_some_iff, Option.guard_eq_some', toOption_eq_some, Option.pure_def,
    Option.some.injEq] at h
  obtain ⟨_, ⟨-, ⟨-, htold⟩, bank', hbank', w₁, hcall, auto, hreply, rfl⟩, rfl⟩ := h
  have hvoucher := callVoucher_ok hcall
  obtain ⟨coreUnbond, tokenId, hslot, htoken, rfl⟩ := coreUnbondReply_ok hreply
  obtain rfl : call.minted = tokenId := Option.some.inj (htold.symm.trans htoken)
  rw [hvoucher.auto] at hslot
  obtain rfl := Option.some.inj hslot
  obtain ⟨hnew, hplace⟩ := hvoucher.effect
  refine ⟨deposit, ⟨?_, ?_, hplace, .inl ⟨hmsg, hnew, ?_⟩, ?_, fun denom => ?_⟩⟩
  · rw [hvoucher.auto]
    exact ⟨hstored.core, hstored.voucher, hstored.manager⟩
  · rw [hvoucher.auto]
  · funext t
    by_cases ht : t = call.minted
    · simp [ht]
    · show Function.update w₁.broughtBy call.minted (some call.info.sender) t = _
      rw [Function.update_of_ne ht, Function.update_of_ne ht, hvoucher.broughtBy, hplace]
      exact broughtAfter_place_of_ne ht
  · rcases hvoucher.payments with hsame | ⟨t, payload, hsend, -⟩
    · exact hsame
    · cases hsend
  · have hin := (Bank.balance_send hbank hsender denom).2
    have hout := (Bank.balance_send hbank' d.auto_ne_core denom).1
    have hcoins := coinsOf_perm hperm denom
    have hkeep := hvoucher.balance denom
    simp only [coinsOf_cons, coinsOf_nil] at hcoins hout
    show _ ≤ w₁.bank.balance d.auto denom
    change bank'.balance d.auto denom ≤ _ at hkeep
    omega

/-- **A bonding of a voucher** takes it into custody for the caller, when the auto-withdrawer may
move it. -/
theorem exec_bondWithNft (hstored : d.StoredIn w.auto)
    (hmsg : call.msg = .bond (.withNFT tokenId))
    (h : w.exec d C (.autoWithdrawer call) = some w') :
    Taken d C w call tokenId call.info.funds w' := by
  obtain ⟨⟨hsender, -⟩, bank, auto, msgs, hbank, hexec, h⟩ := exec_autoWithdrawer h
  rw [hmsg] at hexec
  obtain ⟨-, rfl, rfl⟩ := executeBondWithNft_ok hexec
  simp only [List.foldlM_cons, List.foldlM_nil, Vouchers.dispatch, Option.bind_eq_bind,
    Option.bind_eq_some_iff, Option.guard_eq_some', Option.pure_def, Option.some.injEq] at h
  obtain ⟨_, ⟨-, -, hcall⟩, rfl⟩ := h
  have hvoucher := callVoucher_ok hcall
  obtain ⟨hright, hplace⟩ := hvoucher.effect
  refine ⟨?_, ?_, hplace, .inr ⟨hmsg, hright, hvoucher.broughtBy⟩, ?_, fun denom => ?_⟩
  · rw [hvoucher.auto]
    exact ⟨hstored.core, hstored.voucher, hstored.manager⟩
  · rw [hvoucher.auto]
  · rcases hvoucher.payments with hsame | ⟨t, payload, hsend, -⟩
    · exact hsame
    · cases hsend
  · have hin := (Bank.balance_send hbank hsender denom).2
    have hkeep := hvoucher.balance denom
    change bank.balance d.auto denom ≤ _ at hkeep
    omega

/-- **An unbonding** gives the voucher back to its bonder. -/
theorem exec_unbond (hstored : d.StoredIn w.auto) (hmsg : call.msg = .unbond tokenId)
    (h : w.exec d C (.autoWithdrawer call) = some w') :
    ∃ bonding, Given d C w call tokenId bonding call.info.sender w' := by
  obtain ⟨⟨hsender, -⟩, bank, auto, msgs, hbank, hexec, h⟩ := exec_autoWithdrawer h
  rw [hmsg] at hexec
  obtain ⟨bonding, hload, hbonder, rfl, rfl⟩ := executeUnbond_ok hexec
  simp only [List.foldlM_cons, List.foldlM_nil, Vouchers.dispatch, Option.bind_eq_bind,
    Option.bind_eq_some_iff, Option.guard_eq_some', Option.pure_def, Option.some.injEq] at h
  obtain ⟨w₁, ⟨-, -, hcall⟩, _, ⟨bank', hbank', rfl⟩, rfl⟩ := h
  have hvoucher := callVoucher_ok hcall
  obtain ⟨hright, hplace⟩ := hvoucher.effect
  refine ⟨bonding, ⟨?_, hload, ?_, hright, hplace, hsender, hvoucher.broughtBy,
    .inl ⟨hmsg, hbonder⟩, ?_, fun denom => ?_⟩⟩
  · rw [hvoucher.auto]
    exact ⟨hstored.core, hstored.voucher, hstored.manager⟩
  · rw [hvoucher.auto]
  · rcases hvoucher.payments with hsame | ⟨t, payload, hsend, -⟩
    · exact .inl hsame
    · cases hsend
  · have hin := (Bank.balance_send hbank hsender denom).2
    have hkeep := hvoucher.balance denom
    have hout := (Bank.balance_send hbank' hsender.symm denom).1
    change bank.balance d.auto denom ≤ _ at hkeep
    show _ ≤ bank'.balance d.auto denom + _
    omega

/-- **A withdrawal** gives the voucher to the withdrawal manager, and the deposit to the caller. -/
theorem exec_withdraw (hstored : d.StoredIn w.auto) (hmsg : call.msg = .withdraw tokenId)
    (h : w.exec d C (.autoWithdrawer call) = some w') :
    ∃ bonding, Given d C w call tokenId bonding d.manager w' := by
  obtain ⟨⟨hsender, -⟩, bank, auto, msgs, hbank, hexec, h⟩ := exec_autoWithdrawer h
  rw [hmsg] at hexec
  obtain ⟨bonding, hload, rfl, rfl⟩ := executeWithdraw_ok hexec
  simp only [List.foldlM_cons, List.foldlM_nil, Vouchers.dispatch, Option.bind_eq_bind,
    Option.bind_eq_some_iff, Option.guard_eq_some', Option.pure_def, Option.some.injEq,
    hstored.manager] at h
  obtain ⟨w₁, ⟨-, -, hcall⟩, _, ⟨bank', hbank', rfl⟩, rfl⟩ := h
  have hvoucher := callVoucher_ok hcall
  obtain ⟨hright, hplace⟩ := hvoucher.effect
  refine ⟨bonding, ⟨?_, hload, ?_, hright, hplace, d.auto_ne_manager.symm,
    hvoucher.broughtBy, .inr hmsg, ?_, fun denom => ?_⟩⟩
  · rw [hvoucher.auto]
    exact ⟨hstored.core, hstored.voucher, rfl⟩
  · rw [hvoucher.auto]
  · rcases hvoucher.payments with hsame | ⟨t, payload, hsend, hpaid⟩
    · exact .inl hsame
    · cases hsend
      exact .inr ⟨rfl, hpaid⟩
  · have hin := (Bank.balance_send hbank hsender denom).2
    have hkeep := hvoucher.balance denom
    have hout := (Bank.balance_send hbank' hsender.symm denom).1
    change bank.balance d.auto denom ≤ _ at hkeep
    show _ ≤ bank'.balance d.auto denom + _
    omega

/-- **Every step is one of the three**: a voucher is taken into custody, a recorded voucher is given
away, or somebody else acts. -/
theorem exec_cases {action : VoucherAction} (hstored : d.StoredIn w.auto)
    (h : VoucherStep d C w action w') :
    (∃ call tokenId deposit, action = .autoWithdrawer call ∧ Taken d C w call tokenId deposit w') ∨
    (∃ call tokenId bonding receiver, action = .autoWithdrawer call ∧
      Given d C w call tokenId bonding receiver w') ∨
    ∃ sender, (∀ call, action ≠ .autoWithdrawer call) ∧ OutsideStep d C w sender w' := by
  cases action with
  | autoWithdrawer call =>
    rcases hmsg : call.msg with (_ | tokenId) | tokenId | tokenId
    · obtain ⟨deposit, htaken⟩ := exec_bondWithLdAssets hstored hmsg h
      exact .inl ⟨call, call.minted, deposit, rfl, htaken⟩
    · exact .inl ⟨call, tokenId, call.info.funds, rfl, exec_bondWithNft hstored hmsg h⟩
    · obtain ⟨bonding, hgiven⟩ := exec_unbond hstored hmsg h
      exact .inr (.inl ⟨call, tokenId, bonding, _, rfl, hgiven⟩)
    · obtain ⟨bonding, hgiven⟩ := exec_withdraw hstored hmsg h
      exact .inr (.inl ⟨call, tokenId, bonding, _, rfl, hgiven⟩)
  | voucher env q sender msg =>
    simp only [VoucherStep, Vouchers.exec, Option.bind_eq_bind, Option.bind_eq_some_iff,
      Option.guard_eq_some'] at h
    obtain ⟨-, houtside, hcall⟩ := h
    have hvoucher := callVoucher_ok hcall
    refine .inr (.inr ⟨sender, fun _ heq => (by cases heq), houtside, hvoucher.auto,
      hvoucher.effect.change, hvoucher.broughtBy, ?_, hvoucher.balance⟩)
    rcases hvoucher.payments with hsame | ⟨tokenId, payload, rfl, hpaid⟩
    · exact .inl hsame
    · obtain ⟨hright, hplace⟩ := hvoucher.effect
      exact .inr (.inl ⟨tokenId, hright, hplace, hpaid⟩)
  | manager q info msg =>
    simp only [VoucherStep, Vouchers.exec, Option.bind_eq_bind, Option.bind_eq_some_iff,
      Option.guard_eq_some'] at h
    obtain ⟨-, ⟨houtside, hvoucher⟩, hcall⟩ := h
    obtain ⟨hauto, hnft, hbrought, hbalance, hpayments⟩ := callManager_ok hcall
    refine .inr (.inr ⟨info.sender, fun _ heq => (by cases heq),
      OutsideStep.of_same houtside hauto hnft hbrought ?_ (hbalance houtside.1)⟩)
    rcases hpayments with hsame | ⟨s, t, r, -, hpaid⟩
    · exact .inl hsame
    · exact .inr ⟨info.sender, t, hvoucher, hpaid⟩
  | bankSend sender receiver coins =>
    simp only [VoucherStep, Vouchers.exec, Option.bind_eq_bind, Option.bind_eq_some_iff,
      Option.guard_eq_some', Option.pure_def, Option.some.injEq] at h
    obtain ⟨-, houtside, bank, hbank, rfl⟩ := h
    exact .inr (.inr ⟨sender, fun _ heq => (by cases heq), OutsideStep.of_same houtside rfl rfl rfl
      (.inl rfl) fun denom => Bank.le_balance_send hbank houtside.1.symm denom⟩)
  | bankMint receiver coin =>
    simp only [VoucherStep, Vouchers.exec, Option.some.injEq] at h
    subst h
    -- the chain mints, so any account will do
    refine .inr (.inr ⟨d.core, fun _ heq => (by cases heq), OutsideStep.of_same
      ⟨d.auto_ne_core.symm, d.manager_ne_core.symm⟩ rfl rfl rfl (.inl rfl) fun denom => ?_⟩)
    simp only [Bank.mint, Bank.creditCoin]
    split_ifs <;> omega
  | bankBurn holder coin =>
    simp only [VoucherStep, Vouchers.exec, Option.bind_eq_bind, Option.bind_eq_some_iff,
      Option.guard_eq_some', Option.pure_def, Option.some.injEq] at h
    obtain ⟨-, houtside, bank, hbank, rfl⟩ := h
    refine .inr (.inr ⟨holder, fun _ heq => (by cases heq), OutsideStep.of_same houtside rfl rfl rfl
      (.inl rfl) fun denom => ?_⟩)
    have hburn := (Bank.burn_ok hbank).2.2 d.auto denom
    simp only [houtside.1.symm, false_and, ↓reduceIte] at hburn
    exact hburn.ge

end Steps

/-! ## Custody -/

/-- The auto-withdrawer owns every recorded voucher, and neither the auto-withdrawer nor the
withdrawal manager has granted anything to anybody. -/
structure Custodial (d : VoucherDeployment) (C : Cw721 σ Payload) (w : Vouchers σ) : Prop where
  stored : d.StoredIn w.auto
  autoSealed : (C.custody w.nft).Sealed d.auto
  managerSealed : (C.custody w.nft).Sealed d.manager
  held : ∀ tokenId bonding, w.auto.bondings.load tokenId = some bonding →
    (C.custody w.nft).owner tokenId = some d.auto

section Custody

variable {d C} {w w' : Vouchers σ}

/-- Right after instantiation there is nothing in custody. -/
theorem VouchersInitial.custodial (h : VouchersInitial d C w) :
    Custodial d C w ∧ w.auto.bondings = StorageMap.empty := by
  obtain ⟨addrValidate, ldToken, hauto⟩ := h.auto
  simp only [AutoWithdrawer.instantiate, bind_eq_ok, pure_eq_ok, Except.ok.injEq] at hauto
  obtain ⟨-, -, -, -, -, -, hauto⟩ := hauto
  have hempty : w.auto.bondings = StorageMap.empty := by rw [← hauto]
  have hsealed : ∀ o, (C.custody w.nft).Sealed o := fun o =>
    ⟨fun t ht => absurd ((h.owner t).symm.trans ht) (by simp), h.operator o⟩
  refine ⟨⟨⟨by rw [← hauto], by rw [← hauto], by rw [← hauto]⟩, hsealed _, hsealed _, ?_⟩, hempty⟩
  intro tokenId bonding hload
  rw [hempty] at hload
  cases hload

/-- **Every step keeps the custody.**

**Proof sketch.** A voucher that is taken goes to the auto-withdrawer with its record, and one that
is given away leaves with its record; either way its approvals are gone. Nobody else may move a
voucher of a sealed account. -/
theorem Custodial.step {action : VoucherAction} (hw : Custodial d C w)
    (h : VoucherStep d C w action w') : Custodial d C w' := by
  rcases exec_cases hw.stored h with ⟨call, tokenId, deposit, rfl, hcase⟩ |
    ⟨call, tokenId, bonding, receiver, rfl, hcase⟩ | ⟨sender, -, hcase⟩
  · refine ⟨hcase.stored, ?_, ?_, fun t bonding hload => ?_⟩
    · rw [hcase.custody]
      exact hw.autoSealed.place tokenId _
    · rw [hcase.custody]
      exact hw.managerSealed.place tokenId _
    · rw [hcase.custody]
      by_cases ht : t = tokenId
      · rw [ht, Custody.owner_place_self]
      · rw [hcase.bondings, StorageMap.load_save_of_ne _ _ ht] at hload
        rw [Custody.owner_place_of_ne _ _ ht]
        exact hw.held t bonding hload
  · refine ⟨hcase.stored, ?_, ?_, fun t bonding' hload => ?_⟩
    · rw [hcase.custody]
      exact hw.autoSealed.place tokenId _
    · rw [hcase.custody]
      exact hw.managerSealed.place tokenId _
    · rw [hcase.bondings, StorageMap.load_remove] at hload
      split_ifs at hload with ht
      rw [hcase.custody, Custody.owner_place_of_ne _ _ ht]
      exact hw.held t bonding' hload
  · obtain ⟨hauto, hmanager⟩ := hcase.outside
    refine ⟨hcase.auto ▸ hw.stored, hcase.change.sealed hauto hw.autoSealed,
      hcase.change.sealed hmanager hw.managerSealed, fun t bonding hload => ?_⟩
    rw [hcase.auto] at hload
    exact hcase.change.owner_eq_of_sealed hauto hw.autoSealed (hw.held t bonding hload)

/-- **In every reachable state** the auto-withdrawer owns every recorded voucher. -/
theorem VouchersReachable.custodial {ok : Vouchers σ → VoucherAction → Prop}
    (h : VouchersReachable d C ok w) : Custodial d C w := by
  obtain ⟨w₀, hinit, hrun⟩ := h
  exact hrun.preserves (fun _ _ _ _ hstep hs => hs.step hstep) hinit.custodial.1

end Custody

/-! ## A deployment -/

namespace Sample

/-- The addresses of a deployment. -/
def voucherDeployment : VoucherDeployment where
  auto := "auto"
  manager := "manager"
  voucher := "voucher"
  core := "core"
  auto_ne_manager := by decide
  auto_ne_voucher := by decide
  auto_ne_core := by decide
  manager_ne_core := by decide

/-- The contracts right after instantiation, and accounts with coins. -/
def vouchers : Vouchers Cw721Base where
  auto := ⟨"core", "voucher", "manager", "ld", StorageMap.empty, none⟩
  manager := ⟨⟨"core", "voucher", "base", "owner"⟩, "owner", false⟩
  nft := ⟨StorageMap.empty, [], some "core", none⟩
  bank := ⟨fun a _ => if a = "auto" then 0 else 1000, fun _ => 1000000⟩
  broughtBy := fun _ => none
  payments := []

/-- A batch that has been withdrawn, of which every voucher has a hundredth. -/
def voucherQuerier : WithdrawalManager.Querier where
  nftInfo _ _ := .ok (some ⟨"0", 10, 10⟩)
  unbondBatch _ _ := .ok ⟨1000, 1000, 0, [], .withdrawn, some Decimal.one, some 1000, none, 0⟩
  addrValidate a := a ≠ ""

/-- The contracts are in an initial state. -/
theorem vouchers_spec : VouchersInitial voucherDeployment (cw721Base Payload) vouchers where
  auto := ⟨fun _ => true, "ld", rfl⟩
  manager := ⟨voucherQuerier, vouchers.manager.config, rfl, rfl⟩
  owner _ := rfl
  operator := by
    rintro o s ⟨e, he, -⟩
    cases he
  payments := rfl

/-- The block of the sample runs. -/
def voucherEnv : Env := ⟨1, ⟨1000⟩, ""⟩

/-- A call of the voucher contract. -/
def voucherCall (sender : String) (msg : Cw721Msg Payload) : VoucherAction :=
  .voucher voucherEnv voucherQuerier sender msg

/-- A call of the auto-withdrawer; a voucher that core mints for it has the id `minted`. -/
def autoCall (sender : String) (funds : List Coin) (msg : AutoWithdrawer.ExecuteMsg) :
    VoucherAction :=
  .autoWithdrawer ⟨voucherEnv, ⟨sender, funds⟩, msg, voucherQuerier, "minted",
    [⟨"transfer", [⟨"token_id", "other"⟩]⟩, ⟨"wasm", [⟨"action", "mint"⟩, ⟨"token_id", "minted"⟩]⟩]⟩

/-- Alice gets a voucher, lets the auto-withdrawer take it, and bonds it. -/
def bondedVoucher : List VoucherAction := [
  voucherCall "core" (.mint "v" "alice"),
  voucherCall "alice" (.approve "auto" "v" none),
  autoCall "alice" [⟨"base", 10⟩] (.bond (.withNFT "v"))]

/-- A list of actions is run by evaluation. -/
theorem vouchersReachable_of_runList {ok : Vouchers Cw721Base → VoucherAction → Prop}
    {check : Vouchers Cw721Base → VoucherAction → Bool} {actions : List VoucherAction}
    {w : Vouchers Cw721Base}
    (hok : ∀ s, ∀ action ∈ actions, check s action = true → ok s action)
    (h : runList (Vouchers.exec voucherDeployment (cw721Base Payload)) check vouchers actions =
      some w) :
    VouchersReachable voucherDeployment (cw721Base Payload) ok w :=
  ⟨vouchers, vouchers_spec, runList_eq_some (fun _ _ _ hstep => hstep) hok h⟩

end Sample

end System

end DropContracts
