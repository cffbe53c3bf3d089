import Mathlib.Algebra.Order.BigOperators.Group.List
import DropContracts.Core.Forward
import DropContracts.Core.LifeCycle
import DropContracts.System.Payouts
import DropContracts.System.Undelegations
import DropContracts.WithdrawalManager.Contract

set_option relaxedAutoImplicit false
set_option autoImplicit false

/-!
# Withdrawn batches are solvent

When a batch is handed to the payout, core records how much of it is sent to the pump and by how
much its vouchers are slashed. The vouchers are then paid one by one by the withdrawal manager,
each rounded down. What is recorded covers what is paid, whether the batch was paid alone and bore
the slashing, or together with others and without one.

## Main definitions

* `Core.UnbondBatch.Solvent` — what was sent for a batch covers its vouchers.
* `Transaction.pumpedBatches` — the batches that a transaction pays to the pump.
* `System.SolvencyInv` — the invariant.

## Main results

* `Core.solvent_of_covers` — a slashing below one, and an amount that covers the slashed total.
* `Core.markReadyBatches_solvent`, `Core.markReadyBatches_pays` — the payout records a solvent
  decision, and sends what it records.
* `System.SolvencyInv.step`, `System.solvencyInv_of_reachable` — every step keeps the invariant.
* `System.pumped_amount` — the amount that is sent to the pump is the recorded one.
* `System.withdrawn_solvent` — every withdrawn batch is solvent.
-/

namespace DropContracts

open Exec

/-- The batches that a transaction pays to the pump, and not to the emergency address. -/
def Transaction.pumpedBatches : Transaction → List ℕ
  | .claimRewardsAndOptionalyTransfer _ _ _ (some payout) =>
    if payout.emergency then [] else payout.batchIds
  | _ => []

namespace Core

/-! ## Solvent batches -/

/-- The slashing and the sent amount of a batch are recorded, the slashing is at most one, and what
the withdrawal manager pays for the vouchers of the batch is together at most the sent amount. -/
def UnbondBatch.Solvent (batch : UnbondBatch) : Prop :=
  ∃ slashingEffect unbondedAmount payouts,
    batch.slashingEffect = some slashingEffect ∧ batch.unbondedAmount = some unbondedAmount ∧
    slashingEffect.atomics ≤ Decimal.one.atomics ∧
    List.Forall₂ (fun item payout =>
      WithdrawalManager.payoutAmount slashingEffect item.expectedAmount = .ok payout)
      batch.unbondItems payouts ∧
    payouts.sum ≤ unbondedAmount

/-- Every voucher of a slashed batch can be paid, and is paid its rounded part. -/
theorem payouts_forall₂ {slashingEffect : Decimal}
    (hslash : slashingEffect.atomics ≤ Decimal.fractional) {items : List UnbondItem}
    (hfits : ∀ item ∈ items, item.expectedAmount < Uint128.bound) :
    List.Forall₂ (fun item payout =>
      WithdrawalManager.payoutAmount slashingEffect item.expectedAmount = .ok payout)
      items (items.map fun item =>
        item.expectedAmount * slashingEffect.atomics / Decimal.fractional) := by
  induction items with
  | nil => exact .nil
  | cons item items ih =>
    have hle : item.expectedAmount * slashingEffect.atomics / Decimal.fractional ≤
        item.expectedAmount := by
      refine Nat.div_le_of_le_mul ?_
      rw [Nat.mul_comm Decimal.fractional]
      exact Nat.mul_le_mul_left _ hslash
    refine .cons ?_ (ih fun item' hitem' => hfits item' (List.mem_cons_of_mem _ hitem'))
    rw [WithdrawalManager.payoutAmount_eq_ok]
    exact ⟨hle.trans_lt (hfits item List.mem_cons_self), (min_eq_left hle).symm⟩

/-- **A batch is solvent** when its slashing is at most one and the sent amount covers the slashed
total of its requests.

**Proof sketch.** The total is the sum over the requests, and rounding every part down loses at
least as much as rounding the whole down. -/
theorem solvent_of_covers {batch : UnbondBatch} {slashingEffect : Decimal} {unbondedAmount : ℕ}
    (hsums : batch.WellSummed) (hfit : batch.expectedAmount < Uint128.bound)
    (heffect : batch.slashingEffect = some slashingEffect)
    (hamount : batch.unbondedAmount = some unbondedAmount)
    (hslash : slashingEffect.atomics ≤ Decimal.fractional)
    (hcovers : batch.expectedAmount * slashingEffect.atomics / Decimal.fractional ≤
      unbondedAmount) : batch.Solvent := by
  have hitems : ∀ item ∈ batch.unbondItems, item.expectedAmount < Uint128.bound := by
    intro item hitem
    have hle := List.single_le_sum (fun _ _ => Nat.zero_le _) _
      (List.mem_map_of_mem (f := UnbondItem.expectedAmount) hitem)
    rw [← hsums.expectedAmount] at hle
    exact hle.trans_lt hfit
  refine ⟨slashingEffect, unbondedAmount, _, heffect, hamount, hslash,
    payouts_forall₂ hslash hitems, ?_⟩
  have hparts := Decimal.sum_mul_div_le slashingEffect.atomics Decimal.fractional
    (batch.unbondItems.map UnbondItem.expectedAmount)
  rw [← hsums.expectedAmount, List.map_map] at hparts
  exact hparts.trans hcovers

/-! ## The mark -/

section Marks

variable {s s' t : Storage} {q : Querier} {env : Env} {info : MessageInfo} {msgs : List CoreMsg}

/-- Without a slashing, the promised total covers the vouchers. -/
theorem solvent_withdraw_one {batch : UnbondBatch} (hsums : batch.WellSummed)
    (hfit : batch.expectedAmount < Uint128.bound) :
    (batch.withdraw batch.expectedAmount Decimal.one).Solvent := by
  have hcovers : batch.expectedAmount * Decimal.one.atomics / Decimal.fractional ≤
      batch.expectedAmount := by
    rw [Decimal.one_atomics, Nat.mul_div_cancel _ Decimal.fractional_pos]
  exact solvent_of_covers ⟨hsums.totalAmount, hsums.expectedAmount⟩ hfit rfl rfl le_rfl hcovers

/-- A batch that is paid alone is solvent: it gets the whole balance, and the slashing is the
balance over the promised total, rounded down. -/
theorem slashedAmount_solvent {batch : UnbondBatch} {icaBalance unbondedAmount : ℕ}
    {slashingEffect : Decimal} (hsums : batch.WellSummed)
    (hfit : batch.expectedAmount < Uint128.bound)
    (h : slashedAmount icaBalance batch.expectedAmount = .ok (unbondedAmount, slashingEffect)) :
    (batch.withdraw unbondedAmount slashingEffect).Solvent := by
  unfold slashedAmount at h
  split_ifs at h with hshort
  · simp only [bind_eq_ok, Decimal.fromRatio_eq_ok, pure_eq_ok, Except.ok.injEq,
      Prod.mk.injEq] at h
    obtain ⟨effect, ⟨hpos, heffect, -⟩, rfl, rfl⟩ := h
    refine solvent_of_covers ⟨hsums.totalAmount, hsums.expectedAmount⟩ hfit rfl rfl ?_ ?_
    · rw [← heffect]
      refine Nat.div_le_of_le_mul ?_
      exact Nat.mul_le_mul_right _ hshort.le
    · rw [← heffect]
      exact Decimal.mul_rate_le le_rfl
  · obtain ⟨rfl, rfl⟩ := Prod.mk.inj (Except.ok.inj h)
    exact solvent_withdraw_one hsums hfit

/-- **The payout records a solvent decision** for every batch that it does not hand to the
emergency address, and these are the batches of its message. -/
theorem markReadyBatches_solvent {config : Config} {pumpAddress : String} {icaBalance : ℕ}
    {batches : List (ℕ × UnbondBatch)} {transfer : Option TransferReadyBatchesMsg}
    (h : markReadyBatches s config pumpAddress icaBalance batches = .ok (s', transfer))
    (hsums : ∀ e ∈ batches, e.2.WellSummed ∧ e.2.expectedAmount < Uint128.bound) :
    ∃ f : UnbondBatch → UnbondBatch, s' = s.saveBatches f batches ∧
      (∀ e ∈ batches, (f e.2).expectedAmount = e.2.expectedAmount) ∧
      (∀ e ∈ batches, (f e.2).status = .withdrawing → (f e.2).Solvent) ∧
      ∀ payout, transfer = some payout → payout.batchIds = batches.map Prod.fst ∧
        (payout.emergency = false → ∀ e ∈ batches, (f e.2).status = .withdrawing) := by
  cases markReadyBatches_cases h with
  | nothing =>
    exact ⟨id, rfl, fun _ he => absurd he List.not_mem_nil,
      fun _ he => absurd he List.not_mem_nil, fun payout hpayout => by cases hpayout⟩
  | single id batch amount effect hslashed =>
    refine ⟨fun b => b.withdraw amount effect, rfl, fun _ _ => rfl, ?_, ?_⟩
    · intro e he _
      obtain rfl := List.mem_singleton.1 he
      obtain ⟨hsum, hfit⟩ := hsums _ he
      exact slashedAmount_solvent hsum hfit hslashed
    · rintro payout hpayout
      rw [← Option.some.inj hpayout]
      exact ⟨rfl, fun _ _ _ => rfl⟩
  | emergency =>
    refine ⟨UnbondBatch.withdrawEmergency, rfl, fun _ _ => rfl, ?_, ?_⟩
    · intro e _ hstatus
      cases hstatus
    · rintro payout hpayout
      rw [← Option.some.inj hpayout]
      exact ⟨rfl, fun hregular => by cases hregular⟩
  | full =>
    refine ⟨fun b => b.withdraw b.expectedAmount Decimal.one, rfl, fun _ _ => rfl, ?_, ?_⟩
    · intro e he _
      obtain ⟨hsum, hfit⟩ := hsums _ he
      exact solvent_withdraw_one hsum hfit
    · rintro payout hpayout
      rw [← Option.some.inj hpayout]
      exact ⟨rfl, fun _ _ _ => rfl⟩

/-- **A payout to the pump** sends what is recorded for its batches, together. -/
theorem markReadyBatches_pays {config : Config} {pumpAddress : String} {icaBalance : ℕ}
    {batches : List (ℕ × UnbondBatch)} {payout : TransferReadyBatchesMsg}
    (h : markReadyBatches s config pumpAddress icaBalance batches = .ok (s', some payout))
    (hstored : ∀ e ∈ batches, s.unbondBatches.load e.1 = some e.2)
    (hregular : payout.emergency = false) :
    payout.recipient = pumpAddress ∧ payout.amount = (payout.batchIds.map fun id =>
      ((s'.unbondBatches.load id).bind UnbondBatch.unbondedAmount).getD 0).sum := by
  cases markReadyBatches_cases h with
  | single id batch amount effect =>
    refine ⟨rfl, ?_⟩
    simp [Storage.saveBatch, UnbondBatch.withdraw]
  | emergency => cases hregular
  | full =>
    refine ⟨rfl, ?_⟩
    simp only [List.map_map]
    refine congrArg List.sum (List.map_congr_left fun e he => ?_)
    rw [Function.comp_apply, Storage.saveBatches, StorageMap.load_saveAll _ _ hstored,
      if_pos (List.mem_map_of_mem he), hstored e he]
    rfl

/-- The mark of an idle tick records solvent decisions, and a claim that pays to the pump lists
batches that are solvent. -/
theorem Marked.solvent {balances : BalancesResponse} {transfer : Option TransferReadyBatchesMsg}
    (h : Marked s s' q env msgs balances transfer)
    (hsums : ∀ id b, s.unbondBatches.load id = some b →
      b.WellSummed ∧ b.expectedAmount < Uint128.bound) :
    (∀ id b, s'.unbondBatches.load id = some b → b.status = .withdrawing →
      s.unbondBatches.load id = some b ∨ b.Solvent) ∧
    ∀ payout, transfer = some payout → payout.emergency = false → ∀ id ∈ payout.batchIds,
      ∃ b, s'.unbondBatches.load id = some b ∧ b.status = .withdrawing ∧ b.Solvent := by
  obtain ⟨t, u, pumpAddress, -, ht, hu, hmark⟩ := h.decided
  have hmatured : ∀ e ∈ s.maturedBatches env.time.seconds balances.2.2.seconds,
      s.unbondBatches.load e.1 = some e.2 := fun e he => (mem_maturedBatches.1 he).1
  obtain ⟨f, rfl, -, hsolvent, hpayout⟩ :=
    markReadyBatches_solvent hmark fun e he => hsums e.1 e.2 (hmatured e he)
  have hload : ∀ id, s'.unbondBatches.load id =
      if id ∈ (s.maturedBatches env.time.seconds balances.2.2.seconds).map Prod.fst
      then (s.unbondBatches.load id).map f else s.unbondBatches.load id := by
    intro id
    rw [hu, Storage.saveBatches, ht]
    exact StorageMap.load_saveAll _ _ hmatured id
  constructor
  · intro id b hb hstatus
    rw [hload] at hb
    split_ifs at hb with hid
    · obtain ⟨e, he, rfl⟩ := List.mem_map.1 hid
      rw [hmatured e he] at hb
      obtain rfl := Option.some.inj hb
      exact .inr (hsolvent e he hstatus)
    · exact .inl hb
  · intro payout htransfer hregular id hid
    obtain ⟨hids, hwithdrawing⟩ := hpayout payout htransfer
    rw [hids] at hid
    obtain ⟨e, he, rfl⟩ := List.mem_map.1 hid
    refine ⟨f e.2, ?_, hwithdrawing hregular e he, hsolvent e he (hwithdrawing hregular e he)⟩
    rw [hload, if_pos hid, hmatured e he]
    rfl

end Marks

/-! ## The claim -/

section Claims

variable {s s' t : Storage} {q : Querier} {env : Env} {info : MessageInfo} {msgs : List CoreMsg}
  {r : ResponseHookMsg}

/-- A response that says that it has paid a batch, and not to the emergency address, has paid it to
the pump. -/
theorem mem_pumpedBatches {id : ℕ} (h : id ∈ r.paidBatches)
    (hregular : ∀ msg payout, r = .success msg → msg.transaction.payout = some payout →
      payout.emergency = false) : id ∈ r.transaction.pumpedBatches := by
  obtain ⟨msg, payout, rfl, hpayout, hid⟩ := ResponseHookMsg.exists_payout h
  have hflag := hregular msg payout rfl hpayout
  unfold Transaction.payout at hpayout
  split at hpayout
  next _ _ _ _ htx =>
    simp only [ResponseHookMsg.transaction, htx, hpayout, Transaction.pumpedBatches, hflag,
      Bool.false_eq_true, ↓reduceIte]
    exact hid
  · cases hpayout

/-! ## One tick -/

/-- The batch `id` is on its way out, and solvent. -/
def Storage.Covers (s : Storage) (id : ℕ) : Prop :=
  ∃ b, s.unbondBatches.load id = some b ∧ b.status.isLeaving = true ∧ b.Solvent

/-- The totals fit, the batches that were or will be withdrawn are solvent, and the stored response
only speaks of payments of such batches. -/
structure Solvency (s : Storage) : Prop where
  fits : ∀ id b, s.unbondBatches.load id = some b → b.expectedAmount < Uint128.bound
  solvent : ∀ id b, s.unbondBatches.load id = some b →
    b.status = .withdrawing ∨ b.status = .withdrawn → b.Solvent
  answered : ∀ r, s.lastPuppeteerResponse = some r → ∀ id ∈ r.transaction.pumpedBatches,
    s.Covers id

/-- A tick keeps a batch covered. -/
theorem tick_covers (h : BatchesInv s) (hfits : ResponseFits s)
    (hcase : TickCase s q env info s' msgs) {id : ℕ} (hid : s.Covers id) : s'.Covers id := by
  obtain ⟨b, hb, hleaving, hsolvent⟩ := hid
  obtain ⟨b', hb', hslot⟩ := tick_slot h hfits hcase hb
  rcases slot_of_leaving h hb hslot hleaving with rfl | ⟨r, emergency, -, -, rfl⟩
  · exact ⟨b', hb', hleaving, hsolvent⟩
  · exact ⟨_, hb', isLeaving_withdrawnStatus emergency, hsolvent⟩

/-- The totals fit after a tick. -/
theorem Solvency.fits_tick (h : Solvency s) (hbatches : BatchesInv s) (hfits : ResponseFits s)
    (hcase : TickCase s q env info s' msgs) {id : ℕ} {b' : UnbondBatch}
    (hb' : s'.unbondBatches.load id = some b') : b'.expectedAmount < Uint128.bound := by
  have hnew : (newUnbond env.time.seconds).expectedAmount < Uint128.bound := Uint128.bound_pos
  rcases tick_origin hbatches hfits hcase hb' with rfl | ⟨b, hb, hslot⟩
  · exact hnew
  · have hfit := h.fits id b hb
    cases hslot with
    | reset => exact hnew
    | withdrawing _ _ _ _ hsame => rw [hsame.expectedAmount]; exact hfit
    | _ => exact hfit

/-- A batch that an idle tick marks as `Withdrawing` is solvent. -/
theorem Solvency.marked (h : Solvency s) (hbatches : BatchesInv s)
    (htick : executeTick s q env info = .ok (s', msgs)) (hidle : s.fsmState = .idle) {id : ℕ}
    {b b' : UnbondBatch} (hb : s.unbondBatches.load id = some b)
    (hb' : s'.unbondBatches.load id = some b') (hunbonding : b.status = .unbonding)
    (hmarked : b'.status = .withdrawing) : b'.Solvent := by
  have hnot : s.unbondBatches.load id ≠ some b' := by
    intro heq
    rw [hb] at heq
    rw [Option.some.inj heq, hmarked] at hunbonding
    cases hunbonding
  rcases executeTick_marks hidle htick with ⟨hkept, -⟩ | ⟨balances, transfer, hmark⟩
  · rw [hkept] at hb'
    exact absurd hb' hnot
  · have hsums := fun id b hb => (⟨hbatches.wellSummed id b hb, h.fits id b hb⟩ :
      b.WellSummed ∧ b.expectedAmount < Uint128.bound)
    exact ((hmark.solvent hsums).1 id b' hb' hmarked).resolve_left hnot

/-- A batch that is `Withdrawn` after a tick of `Claiming` is solvent: it was before, or the
response has paid it to the pump. -/
theorem Solvency.claimed (h : Solvency s) (htick : executeTick s q env info = .ok (s', msgs))
    (hclaiming : s.fsmState = .claiming) {id : ℕ} {b b' : UnbondBatch}
    (hb : s.unbondBatches.load id = some b) (hb' : s'.unbondBatches.load id = some b')
    (hstatus : b'.status = .withdrawing ∨ b'.status = .withdrawn) : b'.Solvent := by
  obtain ⟨r', emergency, hr', -, hflag, hload⟩ := executeTick_paid hclaiming htick
  rw [hload, hb] at hb'
  split_ifs at hb' with hpaid
  · obtain rfl := Option.some.inj hb'
    have hregular : emergency = false := by
      cases emergency with
      | false => rfl
      | true => rcases hstatus with hstatus | hstatus <;> cases hstatus
    rw [hregular] at hflag
    obtain ⟨b₀, hb₀, -, hsolvent⟩ := h.answered r' hr' id (mem_pumpedBatches hpaid hflag)
    rw [hb] at hb₀
    obtain rfl := Option.some.inj hb₀
    exact hsolvent
  · obtain rfl := Option.some.inj hb'
    exact h.solvent id b hb hstatus

/-- **A tick keeps the batches solvent.**

**Proof sketch.** A batch becomes `Withdrawing` only by the mark of an idle tick, which decides
solvently; and it becomes `Withdrawn` only by a response that pays it to the pump, which speaks of
a covered batch. -/
theorem Solvency.tick (h : Solvency s) (hbatches : BatchesInv s) (hfits : ResponseFits s)
    (htick : executeTick s q env info = .ok (s', msgs)) : Solvency s' := by
  have hcase := (executeTick_ok htick).2
  refine ⟨fun id b' hb' => h.fits_tick hbatches hfits hcase hb', fun id b' hb' hstatus => ?_,
    fun r hr id hid => ?_⟩
  · rcases tick_origin hbatches hfits hcase hb' with rfl | ⟨b, hb, hslot⟩
    · rcases hstatus with hstatus | hstatus <;> cases hstatus
    · cases hslot with
      | same => exact h.solvent id b' hb hstatus
      | requested => rcases hstatus with hstatus | hstatus <;> cases hstatus
      | reset => rcases hstatus with hstatus | hstatus <;> cases hstatus
      | undelegated => rcases hstatus with hstatus | hstatus <;> cases hstatus
      | undelegateFailed => rcases hstatus with hstatus | hstatus <;> cases hstatus
      | withdrawing _ emergency hidle hunbonding _ hwithdrawing =>
        refine h.marked hbatches htick hidle hb hb' hunbonding ?_
        rcases hstatus with hstatus | hstatus
        · exact hstatus
        · rw [hstatus] at hwithdrawing
          cases emergency <;> cases hwithdrawing
      | withdrawn r emergency hclaiming => exact h.claimed htick hclaiming hb hb' hstatus
  · rcases tick_response hcase with hnone | hsame
    · rw [hnone] at hr
      cases hr
    · exact tick_covers hbatches hfits hcase (h.answered r (hsame ▸ hr) id hid)

end Claims

end Core

namespace System

/-! ## The invariant -/

section Invariant

variable {d : Deployment} {w w' : World}

/-- The batches are solvent, and a packet in flight only pays solvent batches to the pump. -/
structure SolvencyInv (w : World) : Prop where
  core : Core.Solvency w.core
  carried : ∀ p ∈ w.inFlight, ∀ id ∈ p.transaction.pumpedBatches, w.core.Covers id

/-- The invariant holds right after instantiation. -/
theorem solvencyInv_initial (h : Initial d w) : SolvencyInv w := by
  obtain ⟨config, owner, hcore⟩ := h.core
  have hload : ∀ id b, w.core.unbondBatches.load id = some b →
      b = Core.newUnbond w.time.seconds := by
    intro id b hb
    rw [hcore, Core.instantiate, StorageMap.load_save, StorageMap.load_empty] at hb
    split_ifs at hb
    exact (Option.some.inj hb).symm
  have hnone : w.core.lastPuppeteerResponse = none := by rw [hcore]; rfl
  refine ⟨⟨fun id b hb => ?_, fun id b hb hstatus => ?_, fun r hr => ?_⟩, fun p hp => ?_⟩
  · rw [hload id b hb]
    exact Uint128.bound_pos
  · rw [hload id b hb] at hstatus
    rcases hstatus with hstatus | hstatus <;> cases hstatus
  · rw [hnone] at hr
    cases hr
  · rw [h.inFlight] at hp
    cases hp

/-- The invariant only depends on the packets, the batches and the response slot. -/
theorem SolvencyInv.of_same (h : SolvencyInv w) (hsame : SameBatches w w')
    (hinFlight : ∀ p ∈ w'.inFlight, p ∈ w.inFlight) : SolvencyInv w' := by
  refine ⟨⟨?_, ?_, ?_⟩, fun p hp => ?_⟩
  · rw [hsame.unbondBatches]
    exact h.core.fits
  · rw [hsame.unbondBatches]
    exact h.core.solvent
  · rw [hsame.lastPuppeteerResponse]
    intro r hr id hid
    rw [Core.Storage.Covers, hsame.unbondBatches]
    exact h.core.answered r hr id hid
  · intro id hid
    rw [Core.Storage.Covers, hsame.unbondBatches]
    exact h.carried p (hinFlight p hp) id hid

/-- The invariant after an unbond, which adds a request to the current batch. -/
theorem SolvencyInv.push (h : SolvencyInv w) (hpayout : PayoutInv w) {batch : Core.UnbondBatch}
    {item : Core.UnbondItem} (hbatch : w.core.unbondBatches.load w.core.unbondBatchId = some batch)
    (hcore : w'.core = w.core.saveBatch w.core.unbondBatchId (batch.push item))
    (hfit : (batch.push item).expectedAmount < Uint128.bound)
    (hinFlight : w'.inFlight = w.inFlight) : SolvencyInv w' := by
  have hload : ∀ id, w'.core.unbondBatches.load id = if id = w.core.unbondBatchId then
      some (batch.push item) else w.core.unbondBatches.load id := by
    intro id
    rw [hcore, Core.Storage.saveBatch, StorageMap.load_save]
  have hnew : batch.status = .new := (hpayout.batches.new_iff _ batch hbatch).2 rfl
  -- the current batch is not on its way out
  have hcovers : ∀ id, w.core.Covers id → w'.core.Covers id := by
    rintro id ⟨b, hb, hleaving, hsolvent⟩
    refine ⟨b, ?_, hleaving, hsolvent⟩
    rw [hload, if_neg, hb]
    rintro rfl
    rw [(hpayout.batches.new_iff _ b hb).2 rfl] at hleaving
    cases hleaving
  refine ⟨⟨fun id b hb => ?_, fun id b hb hstatus => ?_, fun r hr id hid => ?_⟩,
    fun p hp id hid => ?_⟩
  · rw [hload] at hb
    split_ifs at hb
    · rw [← Option.some.inj hb]
      exact hfit
    · exact h.core.fits id b hb
  · rw [hload] at hb
    split_ifs at hb
    · have hpushed : b.status = .new := by
        rw [← Option.some.inj hb]
        exact hnew
      rw [hpushed] at hstatus
      rcases hstatus with hstatus | hstatus <;> cases hstatus
    · exact h.core.solvent id b hb hstatus
  · rw [hcore] at hr
    exact hcovers id (h.core.answered r hr id hid)
  · rw [hinFlight] at hp
    exact hcovers id (h.carried p hp id hid)

/-- The invariant after a tick: the packet of a claim pays solvent batches to the pump. -/
theorem SolvencyInv.tickSubmit (h : SolvencyInv w) (hflow : FlowInv d w) (hpayout : PayoutInv w)
    {q : Core.Querier} {info : MessageInfo} {contract : String} {msg : PuppeteerExecuteMsg}
    {funds : List Coin} {p : Packet}
    (htick : Core.executeTick w.core q (w.env d) info =
      .ok (w'.core, [.puppeteer contract msg funds]))
    (hsub : Submission w w' ⟨d.core, funds⟩ msg p) : SolvencyInv w' := by
  refine ⟨h.core.tick hpayout.batches hpayout.fits htick, fun p' hp' id hid => ?_⟩
  rw [hflow.inFlight_of_submission hsub, List.mem_singleton] at hp'
  subst hp'
  obtain ⟨ica, replyTo, -, hrequests, -⟩ := hsub.requested
  generalize p'.transaction = transaction at hrequests hid
  cases hrequests with
  | claim validators payout timeout _ =>
    have hcase := (Core.executeTick_ok htick).2
    have hmem := List.mem_singleton_self (Core.CoreMsg.puppeteer contract
      (.claimRewardsAndOptionalyTransfer validators payout timeout replyTo) funds)
    obtain ⟨transfer, rfl, hregular, hlisted⟩ : ∃ transfer, payout = some transfer ∧
        transfer.emergency = false ∧ id ∈ transfer.batchIds := by
      cases payout with
      | none => cases hid
      | some transfer =>
        simp only [Transaction.pumpedBatches] at hid
        split_ifs at hid with hemergency
        · cases hid
        · exact ⟨transfer, rfl, Bool.eq_false_iff.2 hemergency, hid⟩
    have hsums := fun id b hb =>
      (⟨hpayout.batches.wellSummed id b hb, h.core.fits id b hb⟩ :
        b.WellSummed ∧ b.expectedAmount < Uint128.bound)
    rcases Core.executeTick_marks (tick_claim hcase).1 htick with
      ⟨-, hnot⟩ | ⟨balances, transfer', hmark⟩
    · exact absurd ⟨_, _, _, _, _, hmem⟩ (hnot (some transfer))
    · obtain ⟨b, hb, hstatus, hsolvent⟩ := (hmark.solvent hsums).2 transfer
        (hmark.claim _ ⟨_, _, _, _, _, hmem⟩).symm hregular id hlisted
      exact ⟨b, hb, by rw [hstatus]; rfl, hsolvent⟩
  | _ => cases hid

/-- The invariant after an outcome that core accepts: the packet has carried solvent batches. -/
theorem SolvencyInv.accepted (h : SolvencyInv w) {p : Packet} {outcome : World.Outcome}
    (hmem : w.inFlight = [p]) (hhook : Core.HookFrame w.core w'.core (p.outcomeMsg outcome))
    (hinFlight : w'.inFlight = []) : SolvencyInv w' := by
  refine ⟨⟨?_, ?_, fun r hr id hid => ?_⟩, by simp [hinFlight]⟩
  · rw [hhook.unbondBatches]
    exact h.core.fits
  · rw [hhook.unbondBatches]
    exact h.core.solvent
  · rw [hhook.lastPuppeteerResponse] at hr
    rw [← Option.some.inj hr, outcomeMsg_transaction] at hid
    rw [Core.Storage.Covers, hhook.unbondBatches]
    exact h.carried p (by rw [hmem]; exact List.mem_singleton_self p) id hid

/-- **Every step keeps the invariant.** -/
theorem SolvencyInv.step {a : Action} (h : SolvencyInv w) (hflow : FlowInv d w)
    (hpayout : PayoutInv w) (hstep : Step d w a w') : SolvencyInv w' := by
  cases step_batches hflow hstep with
  | quiet a _ hquiet hsame hinFlight => exact h.of_same hsame hinFlight
  | unbond answers sender funds batch item _ hbatch hcore hfit hinFlight =>
    exact h.push hpayout hbatch hcore hfit hinFlight
  | tick answers sender funds bank _ htick hinFlight =>
    refine ⟨h.core.tick hpayout.batches hpayout.fits htick, fun p hp id hid => ?_⟩
    rw [hinFlight] at hp
    exact Core.tick_covers hpayout.batches hpayout.fits (Core.executeTick_ok htick).2
      (h.carried p hp id hid)
  | tickSubmit answers sender funds bank contract msg msgFunds p _ htick hsub =>
    exact h.tickSubmit hflow hpayout htick hsub
  | accepted outcome p _ hmem hhook hinFlight => exact h.accepted hmem hhook hinFlight

/-- **Every reachable state has the invariant.** -/
theorem solvencyInv_of_reachable (h : Reachable d w) : SolvencyInv w := by
  refine h.invariant (fun w₀ hinit => solvencyInv_initial hinit) ?_
  intro s a t hs hstep hinv
  exact hinv.step (flowInv_of_reachable hs) (payoutInv_of_reachable hs) hstep

/-- **The amount that is sent for the batches**: a tick that submits a payout to the pump sends what
it has recorded as the unbonded amounts of the listed batches, together. -/
theorem pumped_amount {answers : Answers} {sender account denom : String} {funds : List Coin}
    {validators : List String} {payout : TransferReadyBatchesMsg} (h : Reachable d w)
    (hstep : Step d w (.execute answers sender funds .tick) w')
    (hsubmits : Submits w w'
      (.claimRewardsAndOptionalyTransfer account validators denom (some payout)))
    (hregular : payout.emergency = false) :
    w.core.config.pumpAddress = some payout.recipient ∧
      payout.amount = (payout.batchIds.map fun id =>
        ((w'.core.unbondBatches.load id).bind Core.UnbondBatch.unbondedAmount).getD 0).sum := by
  obtain ⟨bank, ica, replyTo, contract, msg, msgFunds, -, hrequests, htick⟩ :=
    tick_of_submits (flowInv_of_reachable h) hstep hsubmits
  cases hrequests with
  | claim _ _ timeout =>
    have hidle := (tick_claim (Core.executeTick_ok htick).2).1
    have hmem := List.mem_singleton_self (Core.CoreMsg.puppeteer contract
      (.claimRewardsAndOptionalyTransfer validators (some payout) timeout replyTo) msgFunds)
    rcases Core.executeTick_marks hidle htick with ⟨-, hnot⟩ | ⟨balances, transfer, hmark⟩
    · exact absurd ⟨_, _, _, _, _, hmem⟩ (hnot (some payout))
    · obtain ⟨t, u, pumpAddress, hpump, ht, hu, hdecided⟩ := hmark.decided
      rw [← hmark.claim _ ⟨_, _, _, _, _, hmem⟩] at hdecided
      have hstored : ∀ e ∈ w.core.maturedBatches (w.env d).time.seconds balances.2.2.seconds,
          t.unbondBatches.load e.1 = some e.2 := by
        rw [ht]
        exact fun e he => (Core.mem_maturedBatches.1 he).1
      obtain ⟨rfl, hamount⟩ := Core.markReadyBatches_pays hdecided hstored hregular
      exact ⟨hpump, by rw [hamount, hu]⟩

/-- **Withdrawn batches are solvent.** In every reachable state, a withdrawn batch has its slashing
and the amount that was sent for it recorded, the slashing is at most one, and what the withdrawal
manager pays for the vouchers of its requests is together at most that amount. -/
theorem withdrawn_solvent (h : Reachable d w) {id : ℕ} {batch : Core.UnbondBatch}
    (hbatch : w.core.unbondBatches.load id = some batch) (hstatus : batch.status = .withdrawn) :
    ∃ slashingEffect unbondedAmount payouts,
      batch.slashingEffect = some slashingEffect ∧ batch.unbondedAmount = some unbondedAmount ∧
      slashingEffect.atomics ≤ Decimal.one.atomics ∧
      List.Forall₂ (fun item payout =>
        WithdrawalManager.payoutAmount slashingEffect item.expectedAmount = .ok payout)
        batch.unbondItems payouts ∧
      payouts.sum ≤ unbondedAmount :=
  (solvencyInv_of_reachable h).core.solvent id batch hbatch (.inr hstatus)

end Invariant

/-- A batch that was slashed to three fifths has been withdrawn, and is solvent. -/
theorem withdrawn_solvent_sample : ∃ (w : World) (batch : Core.UnbondBatch),
    Reachable Sample.deployment w ∧ w.core.unbondBatches.load 0 = some batch ∧
      batch.status = .withdrawn ∧ batch.slashingEffect = some ⟨600000000000000000⟩ ∧
      batch.unbondedAmount = some 60 ∧ ∃ payouts,
        List.Forall₂ (fun item payout => WithdrawalManager.payoutAmount ⟨600000000000000000⟩
          item.expectedAmount = .ok payout) batch.unbondItems payouts ∧ payouts.sum ≤ 60 := by
  have hrun : (Sample.initial.runAll Sample.deployment (matured ++
      [Sample.remote 60 900, Sample.tick, .deliver 4 .response, Sample.tick])).any
      (fun w => (w.core.unbondBatches.load 0).any fun b => decide (b.status = .withdrawn ∧
        b.slashingEffect = some ⟨600000000000000000⟩ ∧ b.unbondedAmount = some 60)) = true := by
    decide
  obtain ⟨w, hw, hcheck⟩ := (Option.any_eq_true _ _).1 hrun
  obtain ⟨batch, hbatch, hcheck⟩ := (Option.any_eq_true _ _).1 hcheck
  obtain ⟨hstatus, heffect, hamount⟩ := of_decide_eq_true hcheck
  have hreachable := reachable_of_runAll Sample.initial_spec hw
  obtain ⟨effect, amount, payouts, heffect', hamount', -, hpaid, hsum⟩ :=
    withdrawn_solvent hreachable hbatch hstatus
  obtain rfl := Option.some.inj (heffect.symm.trans heffect')
  obtain rfl := Option.some.inj (hamount.symm.trans hamount')
  exact ⟨w, batch, hreachable, hbatch, hstatus, heffect, hamount, payouts, hpaid, hsum⟩

end System

end DropContracts
