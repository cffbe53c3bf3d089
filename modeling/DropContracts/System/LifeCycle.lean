import DropContracts.Core.ExchangeRate
import DropContracts.Core.LifeCycle
import DropContracts.System.Payouts

set_option relaxedAutoImplicit false
set_option autoImplicit false

/-!
# The life of the batches along a run

Five operations write batches, two of them under ids that an asynchronous response names. That the
response is about batches of the right status is an invariant of the packets in flight and of the
response slot: a payout is only asked for once, and its response is consumed once.

## Main definitions

* `System.PaymentInv` — payouts in flight, and answered payouts, are of batches that wait for them.
* `System.BatchesCounted` — where the new, the requested and the failed batch are.

## Main results

* `System.paymentInv_of_reachable` — every reachable state has the invariant.
* `System.batch_ages` — what a step does to a batch.
* `System.batches_follow_life_cycle` — the life of a batch over a step and over a run.
* `System.unprocessed_counted_once` — the rate counts every waiting batch once.
-/

namespace DropContracts

namespace System

open Sample

/-! ## Payouts that are under way -/

/-- The batches of a payout have the status of its flag. -/
def Waits (s : Core.Storage) (payout : TransferReadyBatchesMsg) : Prop :=
  ∀ id ∈ payout.batchIds, ∃ b, s.unbondBatches.load id = some b ∧
    b.status = Core.withdrawingStatus payout.emergency

/-- Every payout that is in flight, and every successful one whose response is in the slot, is of
batches that wait for it. -/
structure PaymentInv (w : World) : Prop where
  inFlight : ∀ p ∈ w.inFlight, ∀ payout, p.transaction.payout = some payout → Waits w.core payout
  answered : ∀ msg, w.core.lastPuppeteerResponse = some (.success msg) →
    ∀ payout, msg.transaction.payout = some payout → Waits w.core payout

section Payments

variable {d : Deployment} {w w' : World} {payout : TransferReadyBatchesMsg}

/-- Only a claim is a payout. -/
theorem payout_of_requests {config : Puppeteer.Config} {ica replyTo : String} {funds : List Coin}
    {msg : PuppeteerExecuteMsg} {transaction : Transaction}
    (h : Puppeteer.Requests config ica funds msg transaction replyTo)
    (hpayout : transaction.payout = some payout) :
    ∃ validators timeout, msg =
      .claimRewardsAndOptionalyTransfer validators (some payout) timeout replyTo := by
  cases h with
  | claim validators payout' timeout =>
    change payout' = some payout at hpayout
    exact ⟨validators, timeout, by rw [hpayout]⟩
  | delegate => cases hpayout
  | undelegate => cases hpayout
  | redelegate => cases hpayout
  | tokenizeShare => cases hpayout
  | redeemShares => cases hpayout
  | transfer => cases hpayout
  | ibcTransfer => cases hpayout

/-- The batches of a payout are batches of its transaction. -/
theorem mem_batchIds_of_payout {transaction : Transaction}
    (hpayout : transaction.payout = some payout) {id : ℕ} (hid : id ∈ payout.batchIds) :
    id ∈ transaction.batchIds := by
  rw [Transaction.batchIds_eq, hpayout]
  exact hid

/-- A request that is added to the current batch leaves the batches of a payout alone. -/
theorem Waits.push (h : Waits w.core payout) (hinv : Core.BatchesInv w.core)
    {batch : Core.UnbondBatch} {item : Core.UnbondItem} :
    Waits (w.core.saveBatch w.core.unbondBatchId (batch.push item)) payout := by
  intro id hid
  obtain ⟨b, hb, hstatus⟩ := h id hid
  have hne : id ≠ w.core.unbondBatchId := by
    intro heq
    rw [(hinv.new_iff id b hb).2 heq] at hstatus
    revert hstatus
    cases payout.emergency <;> simp [Core.withdrawingStatus]
  refine ⟨b, ?_, hstatus⟩
  rw [Core.Storage.saveBatch, StorageMap.load_save_of_ne _ _ hne]
  exact hb

/-- A tick leaves the batches of a payout alone, unless the response in the slot lists them. -/
theorem Waits.tick (h : Waits w.core payout) (hinv : PayoutInv w) {q : Core.Querier}
    {info : MessageInfo} {msgs : List Core.CoreMsg} {s' : Core.Storage}
    (hcase : Core.TickCase w.core q (w.env d) info s' msgs)
    (hnot : ∀ id ∈ payout.batchIds, ∀ r, w.core.lastPuppeteerResponse = some r →
      w.core.fsmState = .claiming → id ∉ r.paidBatches) : Waits s' payout := by
  intro id hid
  obtain ⟨b, hb, hstatus⟩ := h id hid
  obtain ⟨b', hb', hslot⟩ := Core.tick_slot hinv.batches hinv.fits hcase hb
  have hleaving : b.status.isLeaving = true := by
    rw [hstatus]
    exact Core.isLeaving_of_isPaying (Core.isPaying_withdrawingStatus _)
  refine ⟨b', hb', ?_⟩
  cases hslot with
  | same => exact hstatus
  | withdrawn r emergency hclaiming hresponse hpaid =>
    exact absurd hpaid (hnot id hid r hresponse hclaiming)
  | requested hstate hnext =>
    rw [hnext] at hb
    rcases hinv.batches.nextBatch (by simp [hstate]) hb with ⟨-, -, hnew⟩ | ⟨-, -, hfailed⟩
    · rw [hnew] at hleaving
      cases hleaving
    · rw [hfailed] at hleaving
      cases hleaving
  | reset failedId failed hstate hfailed hnext =>
    have hcurrent : id = w.core.unbondBatchId := by
      rw [hnext, (hinv.batches.failed_succ _ hfailed).1]
    rw [(hinv.batches.new_iff id b hb).2 hcurrent] at hleaving
    cases hleaving
  | undelegated _ _ hrequested =>
    rw [hrequested] at hleaving
    cases hleaving
  | undelegateFailed _ hrequested =>
    rw [hrequested] at hleaving
    cases hleaving
  | withdrawing _ _ _ hunbonding =>
    rw [hunbonding] at hleaving
    cases hleaving

/-- Payouts wait when the batches stay the same. -/
theorem Waits.of_eq {s s' : Core.Storage} (h : Waits s payout)
    (hbatches : s'.unbondBatches = s.unbondBatches) : Waits s' payout := by
  intro id hid
  rw [hbatches]
  exact h id hid

/-- The invariant holds right after instantiation. -/
theorem paymentInv_initial (h : Initial d w) : PaymentInv w := by
  obtain ⟨config, owner, hcore⟩ := h.core
  have hnone : w.core.lastPuppeteerResponse = none := by rw [hcore]; rfl
  refine ⟨by simp [h.inFlight], fun msg hmsg => ?_⟩
  rw [hnone] at hmsg
  cases hmsg

/-- The invariant only depends on the packets, the batches and the response slot. -/
theorem PaymentInv.of_same (h : PaymentInv w) (hsame : SameBatches w w')
    (hinFlight : ∀ p ∈ w'.inFlight, p ∈ w.inFlight) : PaymentInv w' := by
  refine ⟨fun p hp payout hpayout => ?_, fun msg hmsg payout hpayout => ?_⟩
  · have hwaits := h.inFlight p (hinFlight p hp) payout hpayout
    exact hwaits.of_eq hsame.unbondBatches
  · rw [hsame.lastPuppeteerResponse] at hmsg
    exact (h.answered msg hmsg payout hpayout).of_eq hsame.unbondBatches

/-- The invariant after an unbond. -/
theorem PaymentInv.push (h : PaymentInv w) (hinv : PayoutInv w) {batch : Core.UnbondBatch}
    {item : Core.UnbondItem}
    (hcore : w'.core = w.core.saveBatch w.core.unbondBatchId (batch.push item))
    (hinFlight : w'.inFlight = w.inFlight) : PaymentInv w' := by
  refine ⟨fun p hp payout hpayout => ?_, fun msg hmsg payout hpayout => ?_⟩
  · rw [hinFlight] at hp
    rw [hcore]
    exact (h.inFlight p hp payout hpayout).push hinv.batches
  · rw [hcore] at hmsg ⊢
    exact (h.answered msg hmsg payout hpayout).push hinv.batches

/-- A response that is still in the slot after a tick was in it before, and the tick did not pay
the batches that it lists. -/
theorem PaymentInv.answered_tick (h : PaymentInv w) (hinv : PayoutInv w) {q : Core.Querier}
    {info : MessageInfo} {msgs : List Core.CoreMsg} {s' : Core.Storage}
    (htick : Core.executeTick w.core q (w.env d) info = .ok (s', msgs)) :
    ∀ msg, s'.lastPuppeteerResponse = some (.success msg) →
      ∀ payout, msg.transaction.payout = some payout → Waits s' payout := by
  have hcase := (Core.executeTick_ok htick).2
  intro msg hmsg payout hpayout
  have hsame : w.core.lastPuppeteerResponse = some (.success msg) := by
    rcases Core.tick_response hcase with hnone | hsame
    · rw [hnone] at hmsg
      cases hmsg
    · rw [← hsame, hmsg]
  refine (h.answered msg hsame payout hpayout).tick hinv hcase fun id _ r _ hclaiming => ?_
  -- a claiming tick empties the slot
  obtain ⟨_, _, _, hnone, -⟩ := Core.executeTick_paid hclaiming htick
  rw [hnone] at hmsg
  cases hmsg

/-- The invariant after a tick that sends nothing. -/
theorem PaymentInv.tick (h : PaymentInv w) (hinv : PayoutInv w) {q : Core.Querier}
    {info : MessageInfo} (htick : Core.executeTick w.core q (w.env d) info = .ok (w'.core, []))
    (hinFlight : w'.inFlight = w.inFlight) : PaymentInv w' := by
  refine ⟨fun p hp payout hpayout => ?_, h.answered_tick hinv htick⟩
  rw [hinFlight] at hp
  refine (h.inFlight p hp payout hpayout).tick hinv (Core.executeTick_ok htick).2 ?_
  intro id hid r hr _ hpaid
  have hlisted := mem_batchIds_of_payout hpayout hid
  exact (hinv.paying p hp id hlisted).2 r hr (Core.mem_batchIds_of_paid hpaid)

/-- The invariant after a tick that submits a packet. -/
theorem PaymentInv.tickSubmit (h : PaymentInv w) (hflow : FlowInv d w) (hinv : PayoutInv w)
    {q : Core.Querier} {info : MessageInfo} {contract : String} {msg : PuppeteerExecuteMsg}
    {funds : List Coin} {p : Packet}
    (htick : Core.executeTick w.core q (w.env d) info =
      .ok (w'.core, [.puppeteer contract msg funds]))
    (hsub : Submission w w' ⟨d.core, funds⟩ msg p) : PaymentInv w' := by
  obtain ⟨ica, replyTo, -, hrequests, -⟩ := hsub.requested
  refine ⟨fun p' hp' payout hpayout => ?_, h.answered_tick hinv htick⟩
  rw [hflow.inFlight_of_submission hsub, List.mem_singleton] at hp'
  subst hp'
  obtain ⟨validators, timeout, rfl⟩ := payout_of_requests hrequests hpayout
  exact Core.executeTick_claim htick

/-- The invariant after an outcome that both contracts accepted. -/
theorem PaymentInv.accepted (h : PaymentInv w) {p : Packet} {outcome : World.Outcome}
    (hmem : w.inFlight = [p]) (hhook : Core.HookFrame w.core w'.core (p.outcomeMsg outcome))
    (hinFlight : w'.inFlight = []) : PaymentInv w' := by
  refine ⟨by simp [hinFlight], fun msg hmsg payout hpayout => ?_⟩
  rw [hhook.lastPuppeteerResponse] at hmsg
  have htx : msg.transaction = p.transaction := by
    have htx := outcomeMsg_transaction p outcome
    rw [Option.some.inj hmsg] at htx
    exact htx
  rw [htx] at hpayout
  have hp : p ∈ w.inFlight := by rw [hmem]; exact List.mem_singleton_self p
  exact (h.inFlight p hp payout hpayout).of_eq hhook.unbondBatches

/-- **Every step keeps the invariant.** -/
theorem PaymentInv.step {a : Action} (h : PaymentInv w) (hflow : FlowInv d w) (hinv : PayoutInv w)
    (hstep : Step d w a w') : PaymentInv w' := by
  cases step_batches hflow hstep with
  | quiet a _ hquiet hsame hinFlight => exact h.of_same hsame hinFlight
  | unbond answers sender funds batch item _ hbatch hcore hfit hinFlight =>
    exact h.push hinv hcore hinFlight
  | tick answers sender funds bank _ htick hinFlight => exact h.tick hinv htick hinFlight
  | tickSubmit answers sender funds bank contract msg msgFunds p _ htick hsub =>
    exact h.tickSubmit hflow hinv htick hsub
  | accepted outcome p _ hmem hhook hinFlight => exact h.accepted hmem hhook hinFlight

/-- **Every reachable state has the invariant.** -/
theorem paymentInv_of_reachable (h : Reachable d w) : PaymentInv w := by
  refine h.invariant (fun w₀ hinit => paymentInv_initial hinit) ?_
  intro s a t hs hstep hinv
  exact hinv.step (flowInv_of_reachable hs) (payoutInv_of_reachable hs) hstep

end Payments

/-! ## The life of a batch -/

section Ages

variable {d : Deployment} {w w' : World} {id : ℕ} {b : Core.UnbondBatch}

/-- A request that is added to the current batch. -/
theorem push_ages (hinv : Core.BatchesInv w.core) {batch : Core.UnbondBatch}
    {item : Core.UnbondItem}
    (hbatch : w.core.unbondBatches.load w.core.unbondBatchId = some batch)
    (hb : w.core.unbondBatches.load id = some b) :
    ∃ b', (w.core.saveBatch w.core.unbondBatchId (batch.push item)).unbondBatches.load id =
      some b' ∧ b.Ages b' := by
  rw [Core.Storage.saveBatch, StorageMap.load_save]
  split_ifs with heq
  · rw [heq, hbatch] at hb
    obtain rfl := Option.some.inj hb
    have hnew := (hinv.new_iff _ batch hbatch).2 rfl
    exact ⟨_, rfl, .inl rfl, .of_new hnew _⟩
  · exact ⟨b, hb, .refl b⟩

/-- **What a tick does to a batch**: it goes along at most one arrow. -/
theorem tick_ages (hinv : PayoutInv w) (hpayment : PaymentInv w) {q : Core.Querier}
    {info : MessageInfo} {msgs : List Core.CoreMsg} {s' : Core.Storage}
    (htick : Core.executeTick w.core q (w.env d) info = .ok (s', msgs))
    (hb : w.core.unbondBatches.load id = some b) :
    ∃ b', s'.unbondBatches.load id = some b' ∧ b.Ages b' := by
  obtain ⟨b', hb', hslot⟩ :=
    Core.tick_slot hinv.batches hinv.fits (Core.executeTick_ok htick).2 hb
  refine ⟨b', hb', ?_⟩
  cases hslot with
  | same => exact .refl b
  | requested hstate hnext =>
    rw [hnext] at hb
    refine ⟨.inr ?_, fun _ => rfl, fun _ => rfl, fun _ => rfl, fun _ => rfl, fun _ => rfl⟩
    rcases hinv.batches.nextBatch (by simp [hstate]) hb with ⟨-, -, hnew⟩ | ⟨-, -, hfailed⟩
    · rw [hnew]
      exact .requested
    · rw [hfailed]
      exact .retried
  | reset failedId failed hstate hfailed hnext =>
    -- the batch that is written over is the current one, which is new
    have hcurrent : id = w.core.unbondBatchId := by
      rw [hnext, (hinv.batches.failed_succ _ hfailed).1]
    have hnew := (hinv.batches.new_iff id b hb).2 hcurrent
    exact ⟨.inl hnew.symm, .of_new hnew _⟩
  | undelegated _ _ hrequested =>
    refine ⟨.inr ?_, fun _ => rfl, fun _ => rfl, fun _ => rfl, fun _ => rfl, fun _ => rfl⟩
    rw [hrequested]
    exact .unbonding
  | undelegateFailed _ hrequested =>
    refine ⟨.inr ?_, fun _ => rfl, fun _ => rfl, fun _ => rfl, fun _ => rfl, fun _ => rfl⟩
    rw [hrequested]
    exact .failed
  | withdrawing b' emergency _ hunbonding hsame hstatus' =>
    have hopen : b.status.isLeaving ≠ true := by
      rw [hunbonding]
      simp [Core.UnbondBatchStatus.isLeaving]
    refine ⟨.inr ?_, fun _ => hsame.unbondItems, fun _ => hsame.totalAmount,
      fun _ => hsame.expectedAmount, fun h => absurd h hopen, fun h => absurd h hopen⟩
    rw [hunbonding, hstatus']
    exact Core.next_withdrawingStatus emergency
  | withdrawn r emergency hclaiming hresponse hpaid =>
    -- the response speaks about a payout that the batch has been waiting for
    obtain ⟨r', emergency', hr', -, hflag, hload⟩ := Core.executeTick_paid hclaiming htick
    rw [hresponse] at hr'
    obtain rfl := Option.some.inj hr'
    obtain ⟨msg, payout, rfl, hpayout, hid⟩ := ResponseHookMsg.exists_payout hpaid
    obtain ⟨b₀, hb₀, hstatus⟩ := hpayment.answered msg hresponse payout hpayout id hid
    rw [hb] at hb₀
    obtain rfl := Option.some.inj hb₀
    rw [hload, if_pos hpaid, hb] at hb'
    have hsame : b.withdrawn emergency' = b.withdrawn emergency := Option.some.inj hb'
    rw [← hsame]
    refine ⟨.inr ?_, fun _ => rfl, fun _ => rfl, fun _ => rfl, fun _ => rfl, fun _ => rfl⟩
    rw [hstatus, hflag msg payout rfl hpayout]
    exact Core.next_withdrawnStatus emergency'

/-- **What a step does to a batch**: it goes along at most one arrow. -/
theorem batch_ages {a : Action} (h : Reachable d w) (hstep : Step d w a w')
    (hb : w.core.unbondBatches.load id = some b) :
    ∃ b', w'.core.unbondBatches.load id = some b' ∧ b.Ages b' := by
  have hinv := payoutInv_of_reachable h
  have hpayment := paymentInv_of_reachable h
  cases step_batches (flowInv_of_reachable h) hstep with
  | quiet a _ hquiet hsame => exact ⟨b, by rw [hsame.unbondBatches, hb], .refl b⟩
  | unbond answers sender funds batch item _ hbatch hcore =>
    rw [hcore]
    exact push_ages hinv.batches hbatch hb
  | tick answers sender funds bank _ htick => exact tick_ages hinv hpayment htick hb
  | tickSubmit answers sender funds bank contract msg msgFunds p _ htick =>
    exact tick_ages hinv hpayment htick hb
  | accepted outcome p _ hmem hhook => exact ⟨b, by rw [hhook.unbondBatches, hb], .refl b⟩

/-- **A batch that a step adds** is new. -/
theorem batch_fresh {a : Action} (h : Reachable d w) (hstep : Step d w a w')
    (hnone : w.core.unbondBatches.load id = none)
    (hb : w'.core.unbondBatches.load id = some b) : b.status = .new := by
  have hsame : w'.core.unbondBatches = w.core.unbondBatches → b.status = .new := by
    intro hbatches
    rw [hbatches, hnone] at hb
    cases hb
  cases step_batches (flowInv_of_reachable h) hstep with
  | quiet a _ hquiet hbatches => exact hsame hbatches.unbondBatches
  | unbond answers sender funds batch item _ hbatch hcore =>
    rw [hcore, Core.Storage.saveBatch, StorageMap.load_save_eq_none _ hbatch hnone] at hb
    cases hb
  | tick answers sender funds bank _ htick =>
    rw [Core.tick_fresh (Core.executeTick_ok htick).2 hb hnone]
    rfl
  | tickSubmit answers sender funds bank contract msg msgFunds p _ htick =>
    rw [Core.tick_fresh (Core.executeTick_ok htick).2 hb hnone]
    rfl
  | accepted outcome p _ hmem hhook => exact hsame hhook.unbondBatches

/-- **Batches follow their life cycle.** They start as new ones. Each step moves a batch along at
most one arrow, and a run moves it along a path of arrows; on the way the requests of a batch are
fixed from the moment it leaves `New`, and its payout from the moment it leaves `Unbonding`.

**Proof sketch.** A tick moves a batch by its status, except at the end of a payout, where the
response names the batch. That response answers a payout for which the batch has been waiting
since the tick that asked for it, and the tick that reads the response empties the slot. -/
theorem batches_follow_life_cycle (h : Reachable d w) :
    (∀ a w', Step d w a w' → ∀ id b, w.core.unbondBatches.load id = some b →
      ∃ b', w'.core.unbondBatches.load id = some b' ∧ b.Ages b') ∧
    (∀ a w', Step d w a w' → ∀ id b, w.core.unbondBatches.load id = none →
      w'.core.unbondBatches.load id = some b → b.status = .new) ∧
    ∀ w', Run (Step d) w w' → ∀ id b, w.core.unbondBatches.load id = some b →
      ∃ b', w'.core.unbondBatches.load id = some b' ∧ b.Aged b' := by
  refine ⟨fun a w' hstep id b hb => batch_ages h hstep hb,
    fun a w' hstep id b hnone hb => batch_fresh h hstep hnone hb, fun w' hrun id b hb => ?_⟩
  refine h.preserves hrun (P := fun t => ∃ b', t.core.unbondBatches.load id = some b' ∧ b.Aged b')
    ?_ ⟨b, hb, .refl b⟩
  rintro s a t hs - hstep ⟨b', hb', haged⟩
  obtain ⟨b'', hb'', hages⟩ := batch_ages hs hstep hb'
  exact ⟨b'', hb'', haged.tail hages⟩

/-- The matured batch of the sample deployment is asked for by the next tick. -/
theorem batches_follow_life_cycle_sample : ∃ (w w' : World) (b b' : Core.UnbondBatch),
    Step deployment w tick w' ∧ w.core.unbondBatches.load 0 = some b ∧ b.status = .unbonding ∧
      w'.core.unbondBatches.load 0 = some b' ∧ b'.status = .withdrawing ∧ b.Ages b' := by
  have hrun : ((initial.runAll deployment matured).bind fun w =>
      (w.exec deployment tick).map fun w' => (w, w')).any
      (fun r => decide (
        (r.1.core.unbondBatches.load 0).map Core.UnbondBatch.status = some .unbonding ∧
        (r.2.core.unbondBatches.load 0).map Core.UnbondBatch.status = some .withdrawing)) =
          true := by
    decide
  obtain ⟨w, w', hw, hw', hcheck⟩ := exists_step_of_runWhere hrun
  obtain ⟨hbefore, hafter⟩ := of_decide_eq_true hcheck
  obtain ⟨b, hb, hstatus⟩ := Option.map_eq_some_iff.1 hbefore
  obtain ⟨b', hb', hstatus'⟩ := Option.map_eq_some_iff.1 hafter
  obtain ⟨b'', hb'', hages⟩ :=
    (batches_follow_life_cycle (reachable_of_runAll initial_spec hw)).1 tick w' hw' 0 b hb
  rw [hb'] at hb''
  obtain rfl := Option.some.inj hb''
  exact ⟨w, w', b, b', hw', hb, hstatus, hb', hstatus', hages⟩

end Ages

/-! ## The batches that the rate counts -/

section Counting

variable {d : Deployment} {w : World}

/-- Where the batches are that have not been unbonded: the ids are those up to the current one, the
current batch is the only new one, only the batch before it can be requested or failed, and the
failed id names it. -/
structure BatchesCounted (s : Core.Storage) : Prop where
  stored : ∀ id, (∃ b, s.unbondBatches.load id = some b) ↔ id ≤ s.unbondBatchId
  new_iff : ∀ id b, s.unbondBatches.load id = some b → (b.status = .new ↔ id = s.unbondBatchId)
  previous : ∀ id b, s.unbondBatches.load id = some b →
    b.status = .unbondRequested ∨ b.status = .unbondFailed → id + 1 = s.unbondBatchId
  failed : ∀ id, s.failedBatchId = some id → id + 1 = s.unbondBatchId ∧
    ∃ b, s.unbondBatches.load id = some b ∧
      (b.status = .unbondRequested ∨ b.status = .unbondFailed)

/-- The invariant of the batch store says where the batches are. -/
theorem batchesCounted_of_inv {s : Core.Storage} (h : Core.BatchesInv s) : BatchesCounted s := by
  refine ⟨h.stored, h.new_iff, fun id b hb hstatus => ?_, fun id hid => ?_⟩
  · rcases hstatus with hrequested | hfailed
    · exact (h.requested id b hb hrequested).1
    · exact (h.failed_succ id (h.failed id b hb hfailed)).1
  · obtain ⟨hsucc, hstored⟩ := h.failed_succ id hid
    refine ⟨hsucc, ?_⟩
    by_cases hstate : s.fsmState = .unbonding
    · -- while the retry is under way, the failed batch is the requested one
      obtain ⟨id', b, hsucc', hb, hrequested⟩ := h.unbonding hstate
      obtain rfl : id' = id := by omega
      exact ⟨b, hb, .inl hrequested⟩
    · obtain ⟨b, hb, hfailed⟩ := hstored hstate
      exact ⟨b, hb, .inr hfailed⟩

/-- **The rate counts every unprocessed batch exactly once.** In `Idle`, what it subtracts is the
sum over all batches that have not been unbonded; the only other outcome of the computation is the
abort of a sum that does not fit.

**Proof sketch.** Outside of `Unbonding` no batch is requested, so that the current batch and the
failed one are all that wait; the total over the store is theirs, since every other batch adds
nothing. -/
theorem unprocessed_counted_once (h : Reachable d w) :
    BatchesCounted w.core ∧
      (w.core.fsmState = .idle →
        (∀ n, Core.unprocessedUnbondedAmount w.core = .ok n → n = w.core.waitingTotal) ∧
        (w.core.waitingTotal < Uint128.bound →
          Core.unprocessedUnbondedAmount w.core = .ok w.core.waitingTotal)) := by
  have hinv := (payoutInv_of_reachable h).batches
  refine ⟨batchesCounted_of_inv hinv, fun hidle => ?_⟩
  have hstate : w.core.fsmState ≠ .unbonding := by simp [hidle]
  have hamount := Core.unprocessedUnbondedAmount_eq hinv hstate
  rw [Core.unbondedTotal_eq_waiting hinv hstate] at hamount
  refine ⟨fun n hn => ?_, fun hfits => ?_⟩
  · rw [hamount] at hn
    split_ifs at hn
    · exact (Except.ok.inj hn).symm
    · exact absurd hn Exec.abort_ne_ok
  · rw [hamount, if_pos (.inr hfits)]

/-- In the sample deployment one request is waiting while its batch is open. -/
theorem unprocessed_counted_once_sample : ∃ w : World, w.core.fsmState = .idle ∧
    BatchesCounted w.core ∧ Core.unprocessedUnbondedAmount w.core = .ok 100 := by
  have hrun : (initial.runAll deployment (setup ++ [bond 1000, unbond 100])).any
      (fun w => decide (w.core.fsmState = .idle ∧ w.core.waitingTotal = 100)) = true := by
    decide
  obtain ⟨w, hw, hcheck⟩ := (Option.any_eq_true _ _).1 hrun
  obtain ⟨hidle, htotal⟩ := of_decide_eq_true hcheck
  obtain ⟨hcounted, hamount⟩ := unprocessed_counted_once (reachable_of_runAll initial_spec hw)
  have hok := (hamount hidle).2 (by rw [htotal]; decide)
  rw [htotal] at hok
  exact ⟨w, hidle, hcounted, hok⟩

end Counting

end System

end DropContracts
