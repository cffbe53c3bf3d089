import DropContracts.Core.Batches
import DropContracts.System.BatchStep

set_option relaxedAutoImplicit false
set_option autoImplicit false

/-!
# Batches and the packets that carry them

The invariant of the batch store along a run. A packet in flight may carry batches: an undelegation
is one of the batch before the current one, and a payout lists batches that are being paid and that
no stored response speaks about.

## Main definitions

* `System.PayoutInv` — the invariant.

## Main results

* `System.PayoutInv.step`, `System.payoutInv_of_reachable` — every step keeps the invariant, so
  every reachable state has it.
-/

namespace DropContracts

namespace System

/-- The invariant of the batches and the packets in flight. -/
structure PayoutInv (w : World) : Prop where
  batches : Core.BatchesInv w.core
  fits : Core.ResponseFits w.core
  undelegating : ∀ p ∈ w.inFlight, ∀ account items denom batchId,
    p.transaction = .undelegate account items denom batchId →
      batchId + 1 = w.core.unbondBatchId
  paying : ∀ p ∈ w.inFlight, ∀ id ∈ p.transaction.batchIds,
    (∃ b, w.core.unbondBatches.load id = some b ∧ b.status.isPaying = true) ∧
      ∀ r, w.core.lastPuppeteerResponse = some r → id ∉ r.transaction.batchIds

/-! ## Ticks -/

section Ticks

variable {s s' : Core.Storage} {q : Core.Querier} {env : Env} {info : MessageInfo}
  {msgs : List Core.CoreMsg} {contract : String} {funds : List Coin}

/-- **An undelegation** that a tick asks for is one of the batch it has just requested. -/
theorem tick_undelegate {items : List (String × ℕ)} {batchId : ℕ} {timeout : Option ℕ}
    {replyTo : String} (h : Core.TickCase s q env info s'
      [.puppeteer contract (.undelegate items batchId timeout replyTo) funds]) :
    s.fsmState = .staking ∧ s'.unbondBatchId = batchId + 1 ∧ batchId = s.nextBatchId ∧
      ∃ batch undelegations, s.unbondBatches.load batchId = some batch ∧
        q.calcWithdraw batch.totalAmount = .ok undelegations ∧
        items = undelegations.map fun d => (d.valoperAddress, d.stakeChange) := by
  cases h with
  | idleInterval rate m hstate hinterval hmsg => cases hmsg
  | idleCascade t u transfer validators _ hstate hprepared hvalidators hcascade =>
    cases hcascade with
    | unbond batch balances undelegations hstaking =>
      rw [fsmState_idlePrepared hprepared] at hstaking
      cases hstaking
  | claiming r batches emergency t _ hstate hresponse hload hcascade =>
    cases hcascade with
    | unbond batch balances undelegations hstaking =>
      change s.fsmState = .staking at hstaking
      rw [hstate] at hstaking
      cases hstaking
  | transfering r t _ hstate hresponse hcascade =>
    cases hcascade with
    | unbond batch balances undelegations hstaking =>
      change s.fsmState = .staking at hstaking
      rw [hstate] at hstaking
      cases hstaking
  | staking r t _ hstate hresponse hsuccess hcascade =>
    cases hcascade with
    | unbond batch balances undelegations hstaking hbatch hready hcalc =>
      exact ⟨hstate, rfl, rfl, batch, undelegations, hbatch, hcalc, rfl⟩

/-- **A payout** that a tick asks for lists exactly the batches that have matured, and each of
them is being paid afterwards. -/
theorem tick_claim {validators : List String} {transfer : Option TransferReadyBatchesMsg}
    {timeout : Option ℕ} {replyTo : String} (h : Core.TickCase s q env info s'
      [.puppeteer contract
        (.claimRewardsAndOptionalyTransfer validators transfer timeout replyTo) funds]) :
    s.fsmState = .idle ∧ s'.fsmState = .claiming ∧
      s'.lastPuppeteerResponse = s.lastPuppeteerResponse ∧
      ∀ id ∈ listedBatches transfer,
        (∃ b, s.unbondBatches.load id = some b ∧ b.status = .unbonding) ∧
        ∃ b', s'.unbondBatches.load id = some b' ∧ b'.status.isPaying = true := by
  cases h with
  | idleInterval rate m hstate hinterval hmsg => cases hmsg
  | idleCascade t u _ _ _ hstate hprepared hvalidators hcascade => cases hcascade
  | claiming r batches emergency t _ hstate hresponse hload hcascade => cases hcascade
  | transfering r t _ hstate hresponse hcascade => cases hcascade
  | staking r t _ hstate hresponse hsuccess hcascade => cases hcascade
  | idleClaim t _ _ hstate hprepared hvalidators =>
    cases hprepared with
    | intro rate balances f emergency members delegations _ _ _ _ _ hf hlist =>
      refine ⟨hstate, rfl, rfl, fun id hid => ?_⟩
      rw [hlist] at hid
      obtain ⟨⟨id', b⟩, he, rfl⟩ := List.mem_map.1 hid
      obtain ⟨hb, hstatus, -, -⟩ := Core.mem_maturedBatches.1 he
      refine ⟨⟨b, hb, hstatus⟩, f b, ?_, ?_⟩
      · show (s.unbondBatches.saveAll f _).load id' = some (f b)
        rw [StorageMap.load_saveAll _ _ (fun e he => (Core.mem_maturedBatches.1 he).1), if_pos hid,
          hb]
        rfl
      · rw [(hf b).2, Core.isPaying_withdrawingStatus]

end Ticks

/-! ## The invariant -/

section Invariant

variable {d : Deployment} {w w' : World}

/-- The invariant holds right after instantiation. -/
theorem payoutInv_initial (h : Initial d w) : PayoutInv w := by
  obtain ⟨config, owner, hcore⟩ := h.core
  have hnone : w.core.lastPuppeteerResponse = none := by rw [hcore]; rfl
  have hidle : w.core.fsmState = .idle := by rw [hcore]; rfl
  refine ⟨by rw [hcore]; exact Core.BatchesInv.instantiate config owner _,
    ⟨by simp [hnone], by simp [hidle]⟩, by simp [h.inFlight], by simp [h.inFlight]⟩

/-- The invariant only depends on the packets, the batches, the state machine and the response
slot. -/
theorem PayoutInv.of_same (h : PayoutInv w) (hsame : SameBatches w w')
    (hinFlight : ∀ p ∈ w'.inFlight, p ∈ w.inFlight) : PayoutInv w' := by
  refine ⟨h.batches.of_same hsame.unbondBatches hsame.unbondBatchId hsame.failedBatchId
    hsame.fsmState, ⟨?_, ?_⟩, fun p hp => ?_, fun p hp => ?_⟩
  · rw [hsame.lastPuppeteerResponse, hsame.unbondBatches]
    exact h.fits.listed
  · rw [hsame.lastPuppeteerResponse, hsame.fsmState, hsame.unbondBatchId]
    exact h.fits.undelegated
  · rw [hsame.unbondBatchId]
    exact h.undelegating p (hinFlight p hp)
  · rw [hsame.unbondBatches, hsame.lastPuppeteerResponse]
    exact h.paying p (hinFlight p hp)

/-- The invariant after an unbond, which adds a request to the current batch. -/
theorem PayoutInv.push (h : PayoutInv w) {batch : Core.UnbondBatch} {item : Core.UnbondItem}
    (hbatch : w.core.unbondBatches.load w.core.unbondBatchId = some batch)
    (hcore : w'.core = w.core.saveBatch w.core.unbondBatchId (batch.push item))
    (hinFlight : w'.inFlight = w.inFlight) : PayoutInv w' := by
  -- a batch whose payout has been decided is not the current one
  have hleaving : ∀ id b, w.core.unbondBatches.load id = some b → b.status.isLeaving = true →
      w'.core.unbondBatches.load id = some b := by
    intro id b hb hstatus
    have hne : id ≠ w.core.unbondBatchId := by
      intro heq
      rw [(h.batches.new_iff id b hb).2 heq] at hstatus
      cases hstatus
    rw [hcore, Core.Storage.saveBatch, StorageMap.load_save_of_ne _ _ hne]
    exact hb
  refine ⟨by rw [hcore]; exact h.batches.push hbatch, ⟨?_, ?_⟩, ?_, ?_⟩
  · intro r hr id hid
    rw [hcore] at hr
    obtain ⟨b, hb, hstatus⟩ := h.fits.listed r hr id hid
    exact ⟨b, hleaving id b hb hstatus, hstatus⟩
  · rw [hcore]
    exact h.fits.undelegated
  · rw [hinFlight, hcore]
    exact h.undelegating
  · intro p hp id hid
    rw [hinFlight] at hp
    obtain ⟨⟨b, hb, hstatus⟩, hlisted⟩ := h.paying p hp id hid
    refine ⟨⟨b, hleaving id b hb (Core.isLeaving_of_isPaying hstatus), hstatus⟩, ?_⟩
    rw [hcore]
    exact hlisted

/-- What a tick leaves of the facts about the response in the slot. -/
theorem PayoutInv.fits_tick (h : PayoutInv w) {q : Core.Querier} {info : MessageInfo}
    {msgs : List Core.CoreMsg}
    (hcase : Core.TickCase w.core q (w.env d) info w'.core msgs)
    (hunbonding : w'.core.fsmState = .unbonding → w'.core.lastPuppeteerResponse = none) :
    Core.ResponseFits w'.core := by
  refine ⟨?_, ?_⟩
  · intro r hr id hid
    rcases Core.tick_response hcase with hnone | hsame
    · rw [hnone] at hr
      cases hr
    · rw [hsame] at hr
      obtain ⟨b, hb, hstatus⟩ := h.fits.listed r hr id hid
      exact Core.tick_leaving h.batches h.fits hcase hb hstatus
  · intro hstate r account items denom batchId hr
    rw [hunbonding hstate] at hr
    cases hr

/-- The invariant after a tick that sends nothing. -/
theorem PayoutInv.tick (h : PayoutInv w) (hflow : FlowInv d w) {q : Core.Querier}
    {info : MessageInfo} (hcase : Core.TickCase w.core q (w.env d) info w'.core [])
    (hinFlight : w'.inFlight = w.inFlight) : PayoutInv w' := by
  obtain ⟨hidle, hunbonding⟩ := tick_silent hcase
  refine ⟨h.batches.tick h.fits hcase, h.fits_tick hcase (by simp [hidle]), ?_, ?_⟩
  · -- an undelegation is only in flight in `Unbonding`, and there is no response then
    intro p hp account items denom batchId htx
    rw [hinFlight] at hp
    have hawaits := hflow.awaited p hp
    have hstate : w.core.fsmState = .unbonding := by
      rw [htx] at hawaits
      revert hawaits
      cases w.core.fsmState <;> simp [awaits]
    exact absurd (hflow.unanswered hstate (List.ne_nil_of_mem hp)) (hunbonding hstate)
  · intro p hp id hid
    rw [hinFlight] at hp
    obtain ⟨⟨b, hb, hstatus⟩, hlisted⟩ := h.paying p hp id hid
    refine ⟨⟨b, ?_, hstatus⟩, ?_⟩
    · exact Core.tick_paying h.batches h.fits hcase hb hstatus
        (fun r hr hpaid => hlisted r hr (Core.mem_batchIds_of_paid hpaid))
    · intro r hr
      rcases Core.tick_response hcase with hnone | hsame
      · rw [hnone] at hr
        cases hr
      · exact hlisted r (hsame ▸ hr)

/-- The invariant after a tick that submits a packet. -/
theorem PayoutInv.tickSubmit (h : PayoutInv w) (hflow : FlowInv d w) {q : Core.Querier}
    {info : MessageInfo} {contract : String} {msg : PuppeteerExecuteMsg} {funds : List Coin}
    {p : Packet}
    (hcase : Core.TickCase w.core q (w.env d) info w'.core [.puppeteer contract msg funds])
    (hsub : Submission w w' ⟨d.core, funds⟩ msg p) : PayoutInv w' := by
  obtain ⟨ica, replyTo, -, hrequests, -⟩ := hsub.requested
  obtain ⟨-, -, hunbonding⟩ := tick_submits hcase hrequests
  have hinFlight := hflow.inFlight_of_submission hsub
  refine ⟨h.batches.tick h.fits hcase, h.fits_tick hcase hunbonding, ?_, ?_⟩
  · intro p' hp' account items denom batchId htx
    rw [hinFlight, List.mem_singleton] at hp'
    subst hp'
    rw [htx] at hrequests
    cases hrequests
    exact (tick_undelegate hcase).2.1.symm
  · intro p' hp' id hid
    rw [hinFlight, List.mem_singleton] at hp'
    subst hp'
    generalize htx : p'.transaction = transaction at hrequests hid
    cases hrequests with
    | claim validators payout timeout _ =>
      obtain ⟨-, -, hresponse, hlisted⟩ := tick_claim hcase
      obtain ⟨⟨b, hb, hstatus⟩, hpaying⟩ := hlisted id hid
      refine ⟨hpaying, fun r hr hmem => ?_⟩
      -- the stored response speaks about batches that have left `Unbonding` before
      rw [hresponse] at hr
      obtain ⟨b', hb', hleaving⟩ := h.fits.listed r hr id hmem
      rw [hb] at hb'
      rw [← Option.some.inj hb', hstatus] at hleaving
      cases hleaving
    | _ => cases hid

/-- The invariant after an outcome that both contracts accepted. -/
theorem PayoutInv.accepted (h : PayoutInv w) (hflow : FlowInv d w) {p : Packet}
    {outcome : World.Outcome} (hmem : w.inFlight = [p])
    (hhook : Core.HookFrame w.core w'.core (p.outcomeMsg outcome)) (hinFlight : w'.inFlight = []) :
    PayoutInv w' := by
  have hp : p ∈ w.inFlight := by rw [hmem]; exact List.mem_singleton_self p
  have hstate := hhook.fsmState
  refine ⟨?_, ⟨?_, ?_⟩, by simp [hinFlight], by simp [hinFlight]⟩
  · split_ifs at hstate with hreset
    · -- an undelegation does not reset the state machine
      have hne : w.core.fsmState ≠ .unbonding := by
        intro hunbonding
        have hawaits := hflow.awaited p hp
        have hresets := hreset.2
        rw [outcomeMsg_transaction] at hresets
        rw [hunbonding] at hawaits
        cases htx : p.transaction <;> rw [htx] at hawaits hresets <;> cases hawaits
        cases hresets
      refine h.batches.moved (fun id => ?_) hhook.unbondBatchId hhook.failedBatchId hne
        (by rw [hstate]; simp)
      rw [hhook.unbondBatches]
      exact .same _
    · exact h.batches.of_same hhook.unbondBatches hhook.unbondBatchId hhook.failedBatchId hstate
  · intro r hr id hid
    rw [hhook.lastPuppeteerResponse] at hr
    rw [← Option.some.inj hr, outcomeMsg_transaction] at hid
    obtain ⟨⟨b, hb, hstatus⟩, -⟩ := h.paying p hp id hid
    rw [hhook.unbondBatches]
    exact ⟨b, hb, Core.isLeaving_of_isPaying hstatus⟩
  · intro _ r account items denom batchId hr htx
    rw [hhook.lastPuppeteerResponse] at hr
    rw [← Option.some.inj hr, outcomeMsg_transaction] at htx
    rw [hhook.unbondBatchId]
    exact h.undelegating p hp account items denom batchId htx

/-- **Every step keeps the invariant.** -/
theorem PayoutInv.step {a : Action} (hflow : FlowInv d w) (h : PayoutInv w)
    (hstep : Step d w a w') : PayoutInv w' := by
  cases step_batches hflow hstep with
  | quiet a _ hquiet hsame hinFlight => exact h.of_same hsame hinFlight
  | unbond answers sender funds batch item _ hbatch hcore hfit hinFlight =>
    exact h.push hbatch hcore hinFlight
  | tick answers sender funds bank _ htick hinFlight =>
    exact h.tick hflow (Core.executeTick_ok htick).2 hinFlight
  | tickSubmit answers sender funds bank contract msg msgFunds p _ htick hsub =>
    exact h.tickSubmit hflow (Core.executeTick_ok htick).2 hsub
  | accepted outcome p _ hmem hhook hinFlight => exact h.accepted hflow hmem hhook hinFlight

/-- **Every reachable state has the invariant.** -/
theorem payoutInv_of_reachable (h : Reachable d w) : PayoutInv w := by
  refine h.invariant (fun w₀ hinit => payoutInv_initial hinit) ?_
  intro s a t hs hstep hinv
  exact PayoutInv.step (flowInv_of_reachable hs) hinv hstep

end Invariant

end System

end DropContracts
