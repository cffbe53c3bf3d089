import DropContracts.System.Settlement

set_option relaxedAutoImplicit false
set_option autoImplicit false

/-!
# What the withdrawal manager pays, and can pay

The withdrawal manager keeps no books: it pays every voucher that it is sent out of one purse. What
it has paid for a batch is covered by what was sent for the batch, in every order in which the
vouchers come. So a purse that has received what was sent for all withdrawn batches never runs dry.

## Main definitions

* `System.voucherWorth`, `System.World.worthOf` — what vouchers are worth.
* `Core.UnbondBatch.sentAmount` — what was sent for the vouchers of a batch.
* `System.Settlement.paymentsFor` — the payments for the vouchers of a batch.
* `System.Settlement.Funded` — the withdrawal manager has received what was sent for the batches.

## Main results

* `System.worthOf_le` — what was sent for a batch covers what its vouchers are worth.
* `System.settled_payments` — the payments are covered, batch by batch and altogether.
* `System.funded_manager_pays` — a funded withdrawal manager pays every voucher it is sent.
* `System.funded_until_withdrawn` — it stays funded until another batch is withdrawn.
-/

namespace DropContracts

/-- What was sent for the vouchers of a batch: nothing before the batch is withdrawn. -/
def Core.UnbondBatch.sentAmount (batch : UnbondBatch) : ℕ :=
  if batch.status = .withdrawn then batch.unbondedAmount.getD 0 else 0

namespace System

open Exec AutoWithdrawer Sample

/-! ## The worth of the vouchers -/

/-- What a voucher is worth when its batch was slashed. -/
def voucherWorth (slashingEffect : Decimal) (expectedAmount : ℕ) : ℕ :=
  min (expectedAmount * slashingEffect.atomics / Decimal.fractional) expectedAmount

/-- What the vouchers of a withdrawn batch are worth, each under its name. -/
def World.worthOf (w : World) (e : ℕ × Core.UnbondBatch) : List (String × ℕ) :=
  if e.2.status = .withdrawn then
    (w.vouchersOf e.1).map fun v =>
      (v.tokenId, voucherWorth (e.2.slashingEffect.getD Decimal.one) v.extension.expectedAmount)
  else []

/-- A payment under the name of its voucher. -/
def VoucherPayment.entry (p : VoucherPayment) : String × ℕ := (p.tokenId, p.amount)

section Worth

variable {d : Deployment} {w : World} {id : ℕ} {batch : Core.UnbondBatch}

/-- What is paid for the requests of a batch is what their vouchers are worth. -/
theorem payouts_eq_worth {slashingEffect : Decimal} {items : List Core.UnbondItem}
    {payouts : List ℕ} (h : List.Forall₂ (fun item payout =>
      WithdrawalManager.payoutAmount slashingEffect item.expectedAmount = .ok payout)
        items payouts) :
    payouts = items.map fun item => voucherWorth slashingEffect item.expectedAmount := by
  induction h with
  | nil => rfl
  | cons hfirst _ ih =>
    rw [List.map_cons, ← ih, (WithdrawalManager.payoutAmount_eq_ok.1 hfirst).2]
    rfl

/-- **What was sent for a batch covers what its vouchers are worth.** The vouchers say what the
requests of the batch say, and the batch is solvent. -/
theorem worthOf_le (h : ReachableWhere d KeepsRequests w)
    (hbatch : w.core.unbondBatches.load id = some batch) :
    Tally.sum (w.worthOf (id, batch)) ≤ batch.sentAmount := by
  unfold World.worthOf Core.UnbondBatch.sentAmount
  by_cases hstatus : batch.status = .withdrawn
  · obtain ⟨effect, amount, payouts, heffect, hamount, -, hpaid, hsum⟩ :=
      (solvencyInv_of_reachable h.reachable).core.solvent id batch hbatch (.inr hstatus)
    have hrequests := (vouchersMatch_of_run h).requests id batch hbatch
    have hworth : payouts = (w.vouchersOf id).map fun v =>
        voucherWorth effect v.extension.expectedAmount := by
      rw [payouts_eq_worth hpaid, ← hrequests, List.map_map]
      rfl
    simp only [hstatus, ↓reduceIte, heffect, hamount, Option.getD_some]
    rw [Tally.sum, List.map_map]
    rw [hworth] at hsum
    exact hsum
  · rw [if_neg hstatus, if_neg hstatus]
    exact Nat.zero_le _

/-- A priced payment is one of what the vouchers of a batch are worth. -/
theorem Priced.exists_batch {p : VoucherPayment} (h : Priced w p) :
    ∃ id batch, w.core.unbondBatches.load id = some batch ∧ p.entry ∈ w.worthOf (id, batch) ∧
      ∃ v ∈ w.vouchersOf id, v.tokenId = p.tokenId := by
  obtain ⟨v, hv, htoken, id, batch, effect, hid, hbatch, hstatus, heffect, hamount⟩ := h
  have hmem := mem_vouchersOf.2 ⟨hv, hid⟩
  refine ⟨id, batch, hbatch, ?_, v, hmem, htoken⟩
  unfold World.worthOf
  simp only [hstatus, ↓reduceIte, heffect, Option.getD_some]
  refine List.mem_map.2 ⟨v, hmem, ?_⟩
  rw [VoucherPayment.entry, ← htoken, (WithdrawalManager.payoutAmount_eq_ok.1 hamount).2]
  rfl

/-- A voucher is one of one batch only. -/
theorem VouchersMatch.batch_unique (h : VouchersMatch w) {id' : ℕ} {v v' : Voucher}
    (hv : v ∈ w.vouchersOf id) (hv' : v' ∈ w.vouchersOf id') (htoken : v.tokenId = v'.tokenId) :
    v = v' ∧ id = id' := by
  obtain ⟨hmem, hid⟩ := mem_vouchersOf.1 hv
  obtain ⟨hmem', hid'⟩ := mem_vouchersOf.1 hv'
  obtain rfl := List.inj_on_of_nodup_map h.nodup hmem hmem' htoken
  exact ⟨rfl, Fields.toString_inj (hid.symm.trans hid')⟩

end Worth

/-! ## What has been paid -/

section Paid

variable {σ : Type} {d : SettlementDeployment} {C : Cw721 σ Payload} {s s' : Settlement σ}

/-- The payments for the vouchers of a batch. -/
def Settlement.paymentsFor (s : Settlement σ) (id : ℕ) : List VoucherPayment :=
  s.payments.filter fun p => (s.world.vouchersOf id).any fun v => v.tokenId = p.tokenId

/-- Payments for different vouchers, priced in a world of a run, are covered altogether. -/
theorem sum_payments_le {w : World} {payments : List VoucherPayment}
    (hw : ReachableWhere d.toDeployment KeepsRequests w)
    (hnodup : (payments.map VoucherPayment.tokenId).Nodup) (hpriced : ∀ p ∈ payments, Priced w p) :
    (payments.map VoucherPayment.amount).sum ≤
      w.core.unbondBatches.total Core.UnbondBatch.sentAmount := by
  have hkeys : ((payments.map VoucherPayment.entry).map Prod.fst).Nodup := by
    rw [List.map_map]
    exact hnodup
  have hsub : payments.map VoucherPayment.entry ⊆
      w.core.unbondBatches.entries.flatMap w.worthOf := by
    intro e he
    obtain ⟨p, hp, rfl⟩ := List.mem_map.1 he
    obtain ⟨id, batch, hbatch, hentry, -⟩ := (hpriced p hp).exists_batch
    exact List.mem_flatMap.2 ⟨(id, batch), StorageMap.mem_entries.2 hbatch, hentry⟩
  calc (payments.map VoucherPayment.amount).sum
      = Tally.sum (payments.map VoucherPayment.entry) := by
        rw [Tally.sum, List.map_map]
        rfl
    _ ≤ Tally.sum (w.core.unbondBatches.entries.flatMap w.worthOf) :=
        Tally.sum_le_of_subset hkeys hsub
    _ ≤ (w.core.unbondBatches.entries.map fun e => e.2.sentAmount).sum :=
        Tally.sum_flatMap_le fun e he => worthOf_le hw (StorageMap.mem_entries.1 he)

/-- The payments for the vouchers of one batch are covered by what was sent for it. -/
theorem Settled.paymentsFor_le (h : Settled d C s) {id : ℕ} {batch : Core.UnbondBatch}
    (hbatch : s.world.core.unbondBatches.load id = some batch) :
    ((s.paymentsFor id).map VoucherPayment.amount).sum ≤ batch.sentAmount := by
  have hmatch := vouchersMatch_of_run h.world
  have hkeys : (((s.paymentsFor id).map VoucherPayment.entry).map Prod.fst).Nodup := by
    rw [List.map_map]
    exact h.nodup.sublist (List.filter_sublist.map _)
  have hsub : (s.paymentsFor id).map VoucherPayment.entry ⊆ s.world.worthOf (id, batch) := by
    intro e he
    obtain ⟨p, hp, rfl⟩ := List.mem_map.1 he
    obtain ⟨hp, hfor⟩ := List.mem_filter.1 hp
    obtain ⟨v, hv, htoken⟩ := List.any_eq_true.1 hfor
    obtain ⟨id', batch', hbatch', hentry, v', hv', htoken'⟩ := (h.priced p hp).exists_batch
    obtain ⟨-, rfl⟩ := hmatch.batch_unique hv hv' ((of_decide_eq_true htoken).trans htoken'.symm)
    rw [hbatch] at hbatch'
    obtain rfl := Option.some.inj hbatch'
    exact hentry
  calc ((s.paymentsFor id).map VoucherPayment.amount).sum
      = Tally.sum ((s.paymentsFor id).map VoucherPayment.entry) := by
        rw [Tally.sum, List.map_map]
        rfl
    _ ≤ Tally.sum (s.world.worthOf (id, batch)) := Tally.sum_le_of_subset hkeys hsub
    _ ≤ batch.sentAmount := worthOf_le h.world hbatch

/-- **Payments are covered by what core has sent**, in every run that wipes no batch out: each
voucher is paid at most once; what has been paid for the vouchers of a batch is at most what was
sent for it, and nothing before the batch is withdrawn; and all payments together are at most what
was sent for all batches.

**Proof sketch.** A paid voucher is the withdrawal manager's own and stays so, so the payments have
different names. Each is what its voucher is worth, and the vouchers of a batch are its requests,
which the sent amount covers. -/
theorem settled_payments (h : SettlementReachable d C s) :
    (s.payments.map VoucherPayment.tokenId).Nodup ∧
    (∀ id batch, s.world.core.unbondBatches.load id = some batch →
      ((s.paymentsFor id).map VoucherPayment.amount).sum ≤
        if batch.status = .withdrawn then batch.unbondedAmount.getD 0 else 0) ∧
    s.paidTotal ≤ s.world.core.unbondBatches.total Core.UnbondBatch.sentAmount := by
  have hsettled := settled_of_run h
  exact ⟨hsettled.nodup, fun id batch hbatch => hsettled.paymentsFor_le hbatch,
    sum_payments_le hsettled.world hsettled.nodup hsettled.priced⟩

/-- Alice has been paid sixty for the voucher of a batch that was slashed. -/
theorem settled_payments_sample : ∃ (s : Settlement Cw721Base) (batch : Core.UnbondBatch),
    s.world.core.unbondBatches.load 0 = some batch ∧ s.payments = [⟨"0_alice_1", 60⟩] ∧
      ((s.paymentsFor 0).map VoucherPayment.amount).sum ≤
        (if batch.status = .withdrawn then batch.unbondedAmount.getD 0 else 0) ∧
      batch.unbondedAmount = some 60 := by
  have hrun : (runSettlement settlement (withdrawnBatch ++ [aliceWithdraws])).any (fun s =>
      (s.world.core.unbondBatches.load 0).any fun b => decide
        (s.payments = [⟨"0_alice_1", 60⟩] ∧ b.unbondedAmount = some 60)) = true := by
    decide
  obtain ⟨s, hs, hcheck⟩ := (Option.any_eq_true _ _).1 hrun
  obtain ⟨batch, hbatch, hcheck⟩ := (Option.any_eq_true _ _).1 hcheck
  obtain ⟨hpayments, hamount⟩ := of_decide_eq_true hcheck
  obtain ⟨-, hcovered, -⟩ := settled_payments (reachable_of_runSettlement hs)
  exact ⟨s, batch, hbatch, hpayments, hcovered 0 batch hbatch, hamount⟩

/-! ## What can be paid -/

/-- What the withdrawal manager has and what it has paid is together at least what was sent for the
batches. -/
def Settlement.Funded (d : SettlementDeployment) (s : Settlement σ) : Prop :=
  s.world.core.unbondBatches.total Core.UnbondBatch.sentAmount ≤
    s.world.bank.balance d.manager d.baseDenom + s.paidTotal

instance (d : SettlementDeployment) (s : Settlement σ) : Decidable (s.Funded d) := by
  unfold Settlement.Funded
  infer_instance

/-- **One more payment is covered**: a funded withdrawal manager has what a voucher is worth that it
has not paid for. -/
theorem Settled.le_balance (h : Settled d C s) (hfunded : s.Funded d) {p : VoucherPayment}
    (hpriced : Priced s.world p) (hunpaid : ∀ p' ∈ s.payments, p'.tokenId ≠ p.tokenId) :
    p.amount ≤ s.world.bank.balance d.manager d.baseDenom := by
  have hnodup := Tally.nodup_keys_concat h.nodup hunpaid
  have hall : ∀ p' ∈ s.payments ++ [p], Priced s.world p' := by
    intro p' hp'
    rcases List.mem_append.1 hp' with hp' | hp'
    · exact h.priced p' hp'
    · rw [List.mem_singleton.1 hp']
      exact hpriced
  have hsum := sum_payments_le h.world hnodup hall
  rw [List.map_append, List.sum_append, List.map_singleton, List.sum_singleton] at hsum
  unfold Settlement.Funded Settlement.paidTotal at hfunded
  omega

/-! ### The next payment -/

/-- The decimal text of a number of 128 bits is read as this number. -/
theorem parseU128_toString_of_lt {n : ℕ} (h : n < Uint128.bound) :
    WithdrawalManager.parseU128 (toString n) = some n := by
  have hplus := Icq.head?_toDigits_ne_plus n
  unfold WithdrawalManager.parseU128
  rw [Fields.toList_toString]
  split
  next rest hdigits =>
    rw [hdigits] at hplus
    exact absurd rfl hplus
  next =>
    simp only [Puppeteer.parseDigits_toDigits, Option.filter_some, h, decide_true, ↓reduceIte]

/-- The voucher contract tells the extension of a minted voucher that somebody owns. -/
theorem nftInfo_of_mem {addrValidate : String → Bool} (hmatch : VouchersMatch s.world) {v : Voucher}
    (hv : v ∈ s.world.vouchers) (howner : (C.custody s.nft).owner v.tokenId ≠ none) :
    (s.querier d C addrValidate).nftInfo d.voucher v.tokenId = .ok (some v.extension) := by
  simp only [Settlement.querier, howner, ne_eq, not_false_eq_true, and_self, ↓reduceIte]
  cases hfind : s.world.vouchers.find? fun v' => v'.tokenId = v.tokenId with
  | none =>
    have hnone := List.find?_eq_none.1 hfind v hv
    simp at hnone
  | some v' =>
    have hname := List.find?_some hfind
    have hmem := List.mem_of_find?_eq_some hfind
    rw [List.inj_on_of_nodup_map hmatch.nodup hmem hv (of_decide_eq_true hname)]

/-- **The exchange of a voucher** of a withdrawn batch, which the withdrawal manager does unless it
is paused. -/
theorem exchange_ok {addrValidate : String → Bool} (hconfigured : d.Configured s.manager.config)
    (hunpaused : s.manager.isPaused = false) (hmatch : VouchersMatch s.world) {id amount : ℕ}
    {batch : Core.UnbondBatch} {slashingEffect : Decimal} {v : Voucher} (hid : id < Uint128.bound)
    (hv : v ∈ s.world.vouchersOf id) (howner : (C.custody s.nft).owner v.tokenId ≠ none)
    (hbatch : s.world.core.unbondBatches.load id = some batch)
    (hstatus : batch.status = .withdrawn) (heffect : batch.slashingEffect = some slashingEffect)
    (hamount : WithdrawalManager.payoutAmount slashingEffect v.extension.expectedAmount =
      .ok amount) (sender : String) (receiver : Option String) :
    WithdrawalManager.execute s.manager (s.querier d C addrValidate) ⟨d.voucher, []⟩
        (.receiveNft sender v.tokenId receiver) =
      .ok (s.manager, some ⟨receiver.getD sender, [⟨d.baseDenom, amount⟩]⟩) := by
  obtain ⟨hcore, hvoucher, hbase⟩ := hconfigured
  obtain ⟨hmem, hwritten⟩ := mem_vouchersOf.1 hv
  have hinfo := @nftInfo_of_mem _ d C s addrValidate hmatch _ hmem howner
  have hload : (s.querier d C addrValidate).unbondBatch d.core id = .ok batch := by
    simp [Settlement.querier, hbatch]
  have hparse : WithdrawalManager.parseU128 v.extension.batchId = some id := by
    rw [hwritten]
    exact parseU128_toString_of_lt hid
  have hexchange : WithdrawalManager.executeReceiveNftWithdraw s.manager
      (s.querier d C addrValidate) ⟨d.voucher, []⟩ sender v.tokenId receiver =
        .ok ⟨receiver.getD sender, [⟨s.manager.config.baseDenom, amount⟩]⟩ :=
    WithdrawalManager.executeReceiveNftWithdraw_of hunpaused hvoucher.symm hinfo hparse
      (hcore.symm ▸ hload) hstatus heffect hamount
  rw [hbase] at hexchange
  rw [WithdrawalManager.execute, hexchange]
  rfl

/-- A call of the voucher contract that pays, when the balance covers the payment. -/
theorem callManager_of_execute {addrValidate : String → Bool} {manager : WithdrawalManager.Storage}
    {sender tokenId : String} {receiver : Option String} {payment : WithdrawalManager.BankSend}
    {bank : Bank} (hconfigured : d.Configured manager.config)
    (hexec : WithdrawalManager.execute s.manager (s.querier d C addrValidate) ⟨d.voucher, []⟩
      (.receiveNft sender tokenId receiver) = .ok (manager, some payment))
    (hbank : s.world.bank.send d.manager payment.toAddress payment.amount = some bank) :
    s.callManager d C addrValidate ⟨d.voucher, []⟩ (.receiveNft sender tokenId receiver) =
      some ⟨{ s.world with bank := bank }, manager, s.nft,
        s.payments ++ [⟨tokenId, coinsOf payment.amount d.baseDenom⟩]⟩ := by
  simp only [Settlement.callManager, Bank.send, hexec, Option.bind_eq_bind, Option.bind_some,
    Option.bind_eq_some_iff, toOption_eq_some, Option.guard_eq_some']
  refine ⟨(manager, some payment), rfl, (), hconfigured, ?_⟩
  simp only [Settlement.pay, hbank, Option.bind_eq_bind, Option.bind_some, Option.pure_def,
    Settlement.broughtToken]

/-- **A funded withdrawal manager pays.** In every run that wipes no batch out: when the withdrawal
manager is not paused and is funded, whoever may send it a voucher of a withdrawn batch is paid
what the voucher is worth, whichever vouchers have been paid before. A bank sends no coin of amount
zero, so the voucher has to be worth something.

**Proof sketch.** The voucher can be sent, so it is not the withdrawal manager's and has not been
paid. With its payment, all payments are still covered by what was sent for the batches, so the
balance covers the payment. -/
theorem funded_manager_pays (h : SettlementReachable d C s) (hfunded : s.Funded d)
    (hunpaused : s.manager.isPaused = false) {addrValidate : String → Bool} {sender : String}
    {receiver : Option String} {id : ℕ} {batch : Core.UnbondBatch} {v : Voucher} {nft : σ}
    (hsender : sender ≠ d.manager ∧ sender ≠ d.core) (hid : id < Uint128.bound)
    (hbatch : s.world.core.unbondBatches.load id = some batch)
    (hstatus : batch.status = .withdrawn) (hv : v ∈ s.world.vouchersOf id)
    (hsend : C.execute s.nft (s.voucherEnv d) sender
      (.sendNft d.manager v.tokenId (some (.withdraw receiver))) = some nft) :
    ∃ slashingEffect amount, batch.slashingEffect = some slashingEffect ∧
      WithdrawalManager.payoutAmount slashingEffect v.extension.expectedAmount = .ok amount ∧
      (0 < amount → ∃ s', SettlementStep d C s (.voucher addrValidate sender
          (.sendNft d.manager v.tokenId (some (.withdraw receiver)))) s' ∧
        s'.payments = s.payments ++ [⟨v.tokenId, amount⟩] ∧
        s.world.bank.send d.manager (receiver.getD sender) [⟨d.baseDenom, amount⟩] =
          some s'.world.bank) := by
  have hsettled := settled_of_run h
  have hmatch := vouchersMatch_of_run hsettled.world
  obtain ⟨effect, sent, payouts, heffect, -, -, hpaid, -⟩ :=
    (solvencyInv_of_reachable hsettled.world.reachable).core.solvent id batch hbatch (.inr hstatus)
  have hitem : v.request ∈ batch.unbondItems := by
    rw [← hmatch.requests id batch hbatch]
    exact List.mem_map_of_mem hv
  obtain ⟨amount, hamount⟩ : ∃ amount,
      WithdrawalManager.payoutAmount effect v.extension.expectedAmount = .ok amount := by
    obtain ⟨k, hk, hget⟩ := List.mem_iff_getElem.1 hitem
    have hpair := hpaid.get hk (hpaid.length_eq ▸ hk)
    rw [List.get_eq_getElem, hget] at hpair
    exact ⟨_, hpair⟩
  refine ⟨effect, amount, heffect, hamount, fun _ => ?_⟩
  obtain ⟨hmem, hwritten⟩ := mem_vouchersOf.1 hv
  obtain ⟨howner, hunpaid⟩ := hsettled.brought hsender.1 hsend
  have hpriced : Priced s.world ⟨v.tokenId, amount⟩ :=
    ⟨v, hmem, rfl, id, batch, effect, hwritten, hbatch, hstatus, heffect, hamount⟩
  have hle := hsettled.le_balance hfunded hpriced hunpaid
  obtain ⟨bank, hbank⟩ : ∃ bank, s.world.bank.send d.manager (receiver.getD sender)
      [⟨d.baseDenom, amount⟩] = some bank := Bank.exists_send_singleton hle
  have hexchange : WithdrawalManager.execute s.manager
      (({ s with nft := nft } : Settlement σ).querier d C addrValidate) ⟨d.voucher, []⟩
        (.receiveNft sender v.tokenId receiver) =
      .ok (s.manager, some ⟨receiver.getD sender, [⟨d.baseDenom, amount⟩]⟩) :=
    exchange_ok (s := { s with nft := nft }) hsettled.configured hunpaused hmatch hid hv
      (by rw [howner]; simp) hbatch hstatus heffect hamount sender receiver
  refine ⟨⟨{ s.world with bank := bank }, s.manager, nft, s.payments ++ [⟨v.tokenId, amount⟩]⟩,
    ?_, rfl, hbank⟩
  have hcall := callManager_of_execute (s := { s with nft := nft }) (C := C) hsettled.configured
    hexchange hbank
  simp only [coinsOf_cons, coinsOf_nil, ↓reduceIte, Nat.add_zero] at hcall
  simp [SettlementStep, Settlement.exec, hsender, isMint, hsend, Settlement.receiveNft, hcall]

/-- Alice can be paid for her voucher by the funded withdrawal manager. -/
theorem funded_manager_pays_sample : ∃ s s' : Settlement Cw721Base,
    SettlementStep settlementDeployment (cw721Base Payload) s aliceWithdraws s' ∧
      s'.payments = s.payments ++ [⟨"0_alice_1", 60⟩] := by
  have hrun : (runSettlement settlement withdrawnBatch).any (fun s =>
      (s.world.core.unbondBatches.load 0).any fun b => decide (b.status = .withdrawn ∧
        b.slashingEffect = some ⟨600000000000000000⟩ ∧ s.Funded settlementDeployment ∧
        s.manager.isPaused = false ∧ ⟨"0_alice_1", "alice", ⟨"0", 100, 100⟩⟩ ∈ s.world.vouchersOf 0)
        && (Cw721Base.execute s.nft (s.voucherEnv settlementDeployment) "alice"
          (.sendNft "manager" "0_alice_1" (some (.withdraw none)) : Cw721Msg Payload)).isSome) =
        true := by
    decide
  obtain ⟨s, hs, hcheck⟩ := (Option.any_eq_true _ _).1 hrun
  obtain ⟨batch, hbatch, hcheck⟩ := (Option.any_eq_true _ _).1 hcheck
  obtain ⟨hcheck, hsend⟩ := Bool.and_eq_true_iff.1 hcheck
  obtain ⟨hstatus, heffect, hfunded, hunpaused, hv⟩ := of_decide_eq_true hcheck
  obtain ⟨nft, hnft⟩ := Option.isSome_iff_exists.1 hsend
  have hreachable := reachable_of_runSettlement hs
  obtain ⟨effect, amount, heffect', hamount, hpays⟩ := @funded_manager_pays _ _ _ _ hreachable
    hfunded hunpaused (fun _ => true) _ _ _ _ _ _ (by decide) (by decide) hbatch hstatus hv hnft
  obtain rfl := Option.some.inj (heffect.symm.trans heffect')
  have hsixty : WithdrawalManager.payoutAmount ⟨600000000000000000⟩ 100 = .ok 60 := by decide
  obtain rfl := Except.ok.inj (hamount.symm.trans hsixty)
  obtain ⟨s', hstep, hpayments, -⟩ := hpays (by decide)
  exact ⟨s, s', hstep, hpayments⟩

/-! ### Staying funded -/

/-- Along every run the books of the withdrawal manager do not shrink, and core and the puppeteer
take some steps. -/
theorem books_of_reached (h : SettlementReached d C s) (hrun : Run (SettlementStep d C) s s') :
    s.world.bank.balance d.manager d.baseDenom + s.paidTotal ≤
        s'.world.bank.balance d.manager d.baseDenom + s'.paidTotal ∧
      Run (Step d.toDeployment) s.world s'.world := by
  refine (hrun.preserves (P := fun t => d.Configured t.manager.config ∧
    s.world.bank.balance d.manager d.baseDenom + s.paidTotal ≤
      t.world.bank.balance d.manager d.baseDenom + t.paidTotal ∧
    Run (Step d.toDeployment) s.world t.world) ?_
      ⟨(configured_of_reached h).1, le_rfl, RunWhere.refl _⟩).2
  rintro t a t' - hstep ⟨hconfigured, hle, hsofar⟩
  obtain ⟨hconfigured', hsteps⟩ := settlementStep_world hconfigured hstep
  exact ⟨hconfigured', hle.trans (books_of_settlementStep hconfigured hstep), hsofar.trans hsteps⟩

/-- What was sent for a withdrawn batch stays. -/
theorem sentAmount_of_run {d : Deployment} {w w' : World} (h : Reachable d w)
    (hrun : Run (Step d) w w') {id : ℕ} {batch : Core.UnbondBatch}
    (hbatch : w.core.unbondBatches.load id = some batch) (hstatus : batch.status = .withdrawn) :
    ∃ batch', w'.core.unbondBatches.load id = some batch' ∧ batch'.status = .withdrawn ∧
      batch'.unbondedAmount = batch.unbondedAmount := by
  refine h.preserves (P := fun t => ∃ batch', t.core.unbondBatches.load id = some batch' ∧
    batch'.status = .withdrawn ∧ batch'.unbondedAmount = batch.unbondedAmount) hrun ?_
    ⟨batch, hbatch, hstatus, rfl⟩
  rintro t a t' ht - hstep ⟨b, hb, hwithdrawn, hamount⟩
  obtain ⟨b', hb', hwithdrawn', -, hamount'⟩ := withdrawn_final ht hstep hb hwithdrawn
  exact ⟨b', hb', hwithdrawn', hamount'.trans hamount⟩

/-- A batch has been withdrawn between two states. -/
def Withdraws (s s' : Settlement σ) : Prop :=
  ∃ id batch, s'.world.core.unbondBatches.load id = some batch ∧ batch.status = .withdrawn ∧
    ∀ batch', s.world.core.unbondBatches.load id = some batch' → batch'.status ≠ .withdrawn

/-- **It stays funded until another batch is withdrawn**, whatever anybody does: payments, calls,
transfers and the steps of core leave a funded withdrawal manager funded, as long as no batch is
withdrawn that was not withdrawn before.

**Proof sketch.** What the withdrawal manager has and has paid does not shrink, since nobody takes
from it and it sends payments only. What was sent for the batches does not grow, since what was
sent for a withdrawn batch stays. -/
theorem funded_until_withdrawn (h : SettlementReached d C s) (hfunded : s.Funded d)
    (hrun : Run (SettlementStep d C) s s') (hnot : ¬ Withdraws s s') : s'.Funded d := by
  have hreachable := (configured_of_reached h).2
  obtain ⟨hbooks, hworld⟩ := books_of_reached h hrun
  have hsent : s'.world.core.unbondBatches.total Core.UnbondBatch.sentAmount ≤
      s.world.core.unbondBatches.total Core.UnbondBatch.sentAmount := by
    refine StorageMap.total_le_total fun id batch hbatch => ?_
    by_cases hstatus : batch.status = .withdrawn
    · obtain ⟨batch', hbatch', hstatus'⟩ : ∃ batch',
          s.world.core.unbondBatches.load id = some batch' ∧ batch'.status = .withdrawn := by
        by_contra hnone
        exact hnot ⟨id, batch, hbatch, hstatus, fun b hb hwithdrawn => hnone ⟨b, hb, hwithdrawn⟩⟩
      obtain ⟨b, hb, -, hamount⟩ :=
        sentAmount_of_run hreachable hworld hbatch' hstatus'
      obtain rfl := Option.some.inj (hbatch.symm.trans hb)
      simp only [hbatch', Option.map_some, Option.getD_some, Core.UnbondBatch.sentAmount, hstatus,
        hstatus', ↓reduceIte, hamount, le_refl]
    · rw [Core.UnbondBatch.sentAmount, if_neg hstatus]
      exact Nat.zero_le _
  exact hsent.trans (hfunded.trans hbooks)

/-- The withdrawal manager is still funded when it has paid Alice. -/
theorem funded_until_withdrawn_sample : ∃ s s' : Settlement Cw721Base,
    s.payments = [] ∧ s'.payments = [⟨"0_alice_1", 60⟩] ∧ s.Funded settlementDeployment ∧
      s'.Funded settlementDeployment := by
  have hrun : ((runSettlement settlement withdrawnBatch).bind fun s =>
      (runSettlement s [aliceWithdraws]).map fun s' => (s, s')).any (fun r =>
        decide (r.1.payments = [] ∧ r.2.payments = [⟨"0_alice_1", 60⟩] ∧
          r.1.Funded settlementDeployment ∧ r.2.world.core.unbondBatches.entries =
            r.1.world.core.unbondBatches.entries)) = true := by
    decide
  obtain ⟨⟨_, _⟩, hrun, hcheck⟩ := (Option.any_eq_true _ _).1 hrun
  simp only [Option.bind_eq_some_iff, Option.map_eq_some_iff, Prod.mk.injEq] at hrun
  obtain ⟨s, hs, s', hs', rfl, rfl⟩ := hrun
  obtain ⟨hnone, hpaid, hfunded, hentries⟩ := of_decide_eq_true hcheck
  obtain ⟨s₀, hinit, hreach⟩ := reachable_of_runSettlement hs
  refine ⟨s, s', hnone, hpaid, hfunded, funded_until_withdrawn
    ⟨s₀, hinit, hreach.mono fun _ _ _ => trivial⟩ hfunded
    ((run_of_runSettlement hs').mono fun _ _ _ => trivial) ?_⟩
  rintro ⟨id, batch, hbatch, hstatus, hnot⟩
  have hmem : (id, batch) ∈ s.world.core.unbondBatches.entries := by
    rw [← hentries]
    exact StorageMap.mem_entries.2 hbatch
  exact hnot batch (StorageMap.mem_entries.1 hmem) hstatus

end Paid

end System

end DropContracts
