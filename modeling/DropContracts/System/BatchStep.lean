import DropContracts.System.FlowInvariant

set_option relaxedAutoImplicit false
set_option autoImplicit false

/-!
# Steps and unbonding batches

Most steps leave the unbonding batches of core alone, together with the state machine and the
response slot, and submit no packet. This file groups the cases of a step accordingly, so that an
invariant of the batches only has to look at unbonds, ticks and accepted outcomes.

## Main definitions

* `System.SameBatches` — what stays the same in the other steps.
* `System.BatchStep` — the cases of a step.

## Main results

* `System.step_batches` — every step from a reachable state is one of the cases.
-/

namespace DropContracts

namespace System

/-- The batches, the state machine and the response slot of core are the same in two worlds. -/
structure SameBatches (w w' : World) : Prop where
  unbondBatches : w'.core.unbondBatches = w.core.unbondBatches
  unbondBatchId : w'.core.unbondBatchId = w.core.unbondBatchId
  failedBatchId : w'.core.failedBatchId = w.core.failedBatchId
  fsmState : w'.core.fsmState = w.core.fsmState
  lastPuppeteerResponse : w'.core.lastPuppeteerResponse = w.core.lastPuppeteerResponse

/-- The cases of a step as far as the batches are concerned. A `quiet` step submits no packet; it
can take one away, whose outcome core has refused. -/
inductive BatchStep (d : Deployment) (w : World) : Action → World → Prop
  | quiet (a : Action) (w' : World)
      (hquiet : ∀ answers sender funds, a ≠ .execute answers sender funds .tick)
      (hsame : SameBatches w w') (hinFlight : ∀ p ∈ w'.inFlight, p ∈ w.inFlight)
      (htime : w.time.nanos ≤ w'.time.nanos) : BatchStep d w a w'
  | unbond (answers : Answers) (sender : String) (funds : List Coin) (batch : Core.UnbondBatch)
      (item : Core.UnbondItem) (w' : World)
      (hbatch : w.core.unbondBatches.load w.core.unbondBatchId = some batch)
      (hcore : w'.core = w.core.saveBatch w.core.unbondBatchId (batch.push item))
      (hfit : (batch.push item).expectedAmount < Uint128.bound)
      (hinFlight : w'.inFlight = w.inFlight) (htime : w'.time = w.time) :
      BatchStep d w (.execute answers sender funds .unbond) w'
  | tick (answers : Answers) (sender : String) (funds : List Coin) (bank : Bank) (w' : World)
      (htick : Core.executeTick w.core (({ w with bank := bank } : World).querier d answers)
        (w.env d) ⟨sender, funds⟩ = .ok (w'.core, []))
      (hinFlight : w'.inFlight = w.inFlight) (htime : w'.time = w.time) :
      BatchStep d w (.execute answers sender funds .tick) w'
  | tickSubmit (answers : Answers) (sender : String) (funds : List Coin) (bank : Bank)
      (contract : String) (msg : PuppeteerExecuteMsg) (msgFunds : List Coin) (p : Packet)
      (w' : World)
      (htick : Core.executeTick w.core (({ w with bank := bank } : World).querier d answers)
        (w.env d) ⟨sender, funds⟩ = .ok (w'.core, [.puppeteer contract msg msgFunds]))
      (hsubmission : Submission w w' ⟨d.core, msgFunds⟩ msg p) (htime : w'.time = w.time) :
      BatchStep d w (.execute answers sender funds .tick) w'
  | accepted (outcome : World.Outcome) (p : Packet) (w' : World) (hmem : w.inFlight = [p])
      (hhook : Core.HookFrame w.core w'.core (p.outcomeMsg outcome)) (hinFlight : w'.inFlight = [])
      (htime : w'.time = w.time) : BatchStep d w (.deliver p.seq outcome) w'

variable {d : Deployment} {w w' : World}

/-- A core that is the same has the same batches. -/
theorem SameBatches.of_core (h : w'.core = w.core) : SameBatches w w' := by
  refine ⟨?_, ?_, ?_, ?_, ?_⟩ <;> rw [h]

/-- A bond leaves the batches alone. -/
theorem SameBatches.of_bond (h : Core.LsmFrame w.core w'.core) : SameBatches w w' :=
  ⟨h.unbondBatches, h.unbondBatchId, h.failedBatchId, h.fsmState, h.lastPuppeteerResponse⟩

/-- The calls of the owner leave the batches alone. -/
theorem SameBatches.of_admin (h : AdminCase w.core w'.core) : SameBatches w w' := by
  generalize hcore : w'.core = core at h
  cases h <;> refine ⟨?_, ?_, ?_, ?_, ?_⟩ <;> rw [hcore]

/-- **Every step is one of the cases**, as long as the packets and the state machine fit. -/
theorem step_batches {a : Action} (h : FlowInv d w) (hstep : Step d w a w') :
    BatchStep d w a w' := by
  cases step_cases h.wired hstep with
  | environment _ _ henvironment hcore hsame _ htime =>
    refine .quiet a w' ?_ (.of_core hcore.core) (by rw [hsame.inFlight]; exact fun _ hp => hp) htime
    rintro answers sender funds rfl
    cases henvironment
  | foreign _ _ _ _ _ p hsender hsub => exact absurd hsub (h.not_foreign hsender)
  | bond answers sender funds receiver q core msgs _ hq hbond hcore _ _ hsame _ htime =>
    rw [← hcore] at hbond
    exact .quiet _ w' (by simp) (.of_bond (Core.executeBond_frame hbond))
      (by rw [hsame.inFlight]; exact fun _ hp => hp) (by rw [htime])
  | unbond answers sender funds q bank core msgs _ _ _ hunbond hcore _ _ _ _ _ hsame _ htime =>
    obtain ⟨batch, item, hbatch, hs, hfit⟩ := Core.executeUnbond_fits hunbond
    exact .unbond answers sender funds batch item w' hbatch (hcore.trans hs) hfit hsame.inFlight
      htime
  | admin answers sender funds msg core _ hmsg hadmin _ hwired hcore _ _ hsame _ htime =>
    rw [← hcore] at hadmin
    refine .quiet _ w' ?_ (.of_admin hadmin) (by rw [hsame.inFlight]; exact fun _ hp => hp)
      (by rw [htime])
    rintro answers' sender' funds' heq
    cases heq
    cases hmsg
  | tick answers sender funds q bank core _ hbank hq htick hcore _ _ hsame _ htime =>
    rw [hq, ← hcore] at htick
    exact .tick answers sender funds bank w' htick hsame.inFlight htime
  | tickSubmit answers sender funds q bank core msg msgFunds _ p hbank hq htick hcore _ _ hsub _
      htime =>
    rw [hq, ← hcore] at htick
    exact .tickSubmit answers sender funds bank _ msg msgFunds p w' htick hsub htime
  | accepted seq outcome p txState transaction core _ hp htx hwaiting htrans hhook hcore _ _
      hinFlight _ _ _ _ htime =>
    obtain ⟨rfl, hmem, rfl⟩ := h.of_accepted hp htx htrans
    rw [← hcore] at hhook
    exact .accepted outcome p w' hmem (Core.executePuppeteerHook_ok hhook)
      (by rw [hinFlight, hmem]; simp) htime
  | refused seq outcome p _ hp hrefused hcore hinFlight _ _ _ htime =>
    refine .quiet _ w' (by simp) (.of_core hcore.core) (fun p' hp' => ?_) (by rw [htime])
    rw [hinFlight] at hp'
    exact List.mem_of_mem_filter hp'

end System

end DropContracts
