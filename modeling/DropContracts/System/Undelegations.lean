import DropContracts.System.BatchInvariant
import DropContracts.System.Scenario

set_option relaxedAutoImplicit false
set_option autoImplicit false

/-!
# What is undelegated for a batch

A batch carries two totals: the liquid tokens that its users gave up, and the base tokens that
they were promised for them. The undelegation asks for as many base tokens as the batch holds
liquid tokens.

## Main definitions

* `System.Answers.SplitsExactly` — the strategy divides what it is asked for without a rest.
* `System.Submits` — a step that submits a transaction.

## Main results

* `System.submits_undelegate` — the batch and the amount behind an undelegation.
* `System.undelegated_iff` — when the undelegated amount is the promised one.
* `System.undelegated_other` — it is not always.
-/

namespace DropContracts

namespace System

section Undelegations

open Sample

variable {d : Deployment} {w w' : World}

/-- The strategy divides what it is asked to withdraw among the validators without a rest. -/
def Answers.SplitsExactly (answers : Answers) : Prop :=
  ∀ amount undelegations, answers.calcWithdraw amount = .ok undelegations →
    (undelegations.map IdealDelegation.stakeChange).sum = amount

/-- The step from `w` to `w'` submits the transaction. -/
def Submits (w w' : World) (transaction : Transaction) : Prop :=
  ∃ p, p ∈ w'.inFlight ∧ p ∉ w.inFlight ∧ p.transaction = transaction

/-- The only transaction in flight after a step that started with none was submitted by it. -/
theorem submits_of_inFlight {transaction : Transaction} (hnil : w.inFlight = [])
    (htransactions : w'.inFlight.map Packet.transaction = [transaction]) :
    Submits w w' transaction := by
  have hmem : transaction ∈ w'.inFlight.map Packet.transaction := by
    rw [htransactions]
    exact List.mem_singleton_self _
  obtain ⟨p, hp, htx⟩ := List.mem_map.1 hmem
  refine ⟨p, hp, ?_, htx⟩
  rw [hnil]
  exact List.not_mem_nil

/-- A tick that submits a transaction has asked the puppeteer for it. -/
theorem tick_of_submits {answers : Answers} {sender : String} {funds : List Coin}
    {transaction : Transaction} (h : FlowInv d w)
    (hstep : Step d w (.execute answers sender funds .tick) w')
    (hsubmits : Submits w w' transaction) :
    ∃ bank ica replyTo contract msg msgFunds,
      w.bank.send sender d.core funds = some bank ∧
      Puppeteer.Requests w.puppeteer.config ica (mergeCoins msgFunds) msg transaction replyTo ∧
      Core.executeTick w.core (({ w with bank := bank } : World).querier d answers) (w.env d)
        ⟨sender, funds⟩ = .ok (w'.core, [.puppeteer contract msg msgFunds]) := by
  obtain ⟨p, hp, hnot, rfl⟩ := hsubmits
  cases step_cases h.wired hstep with
  | environment _ _ henvironment => cases henvironment
  | admin _ _ _ _ core _ hmsg => cases hmsg
  | tick _ _ _ q bank core _ hbank hq htick hcore _ _ hsame =>
    rw [hsame.inFlight] at hp
    exact absurd hp hnot
  | tickSubmit _ _ _ q bank core msg msgFunds _ p' hbank hq htick hcore _ _ hsub =>
    rw [hsub.inFlight, List.mem_append, List.mem_singleton] at hp
    obtain rfl := hp.resolve_left hnot
    obtain ⟨ica, replyTo, -, hrequests, -⟩ := hsub.requested
    rw [← hcore, hq] at htick
    exact ⟨bank, ica, replyTo, _, msg, msgFunds, hbank, hrequests, htick⟩

/-- **The batch behind an undelegation.** The tick has asked the strategy to withdraw the liquid
tokens of the batch, and undelegates what the strategy answered. -/
theorem submits_undelegate {answers : Answers} {sender account denom : String}
    {funds : List Coin} {items : List (String × ℕ)} {batchId : ℕ} (h : FlowInv d w)
    (hstep : Step d w (.execute answers sender funds .tick) w')
    (hsubmits : Submits w w' (.undelegate account items denom batchId)) :
    ∃ batch undelegations, w.core.unbondBatches.load batchId = some batch ∧
      answers.calcWithdraw batch.totalAmount = .ok undelegations ∧
      items = undelegations.map fun d => (d.valoperAddress, d.stakeChange) := by
  obtain ⟨bank, ica, replyTo, contract, msg, msgFunds, -, hrequests, htick⟩ :=
    tick_of_submits h hstep hsubmits
  cases hrequests
  obtain ⟨-, -, -, batch, undelegations, hbatch, hcalc, hitems⟩ :=
    tick_undelegate (Core.executeTick_ok htick).2
  exact ⟨batch, undelegations, hbatch, hcalc, hitems⟩

/-- **When the undelegated amount is the promised one.** The amount that a tick requests from the
strategy for a batch, and with a strategy that splits exactly also the sum of the undelegated
items, is the base amount that the holders of the batch's vouchers were promised exactly when the
liquid tokens of its requests sum up to their base tokens.

**Proof sketch.** The strategy is asked for the total of liquid tokens, and both totals of a batch
are the sums over its requests. -/
theorem undelegated_iff {answers : Answers} {sender account denom : String}
    {funds : List Coin} {items : List (String × ℕ)} {batchId : ℕ} (h : Reachable d w)
    (hstep : Step d w (.execute answers sender funds .tick) w')
    (hsubmits : Submits w w' (.undelegate account items denom batchId)) :
    ∃ batch requested undelegations, w.core.unbondBatches.load batchId = some batch ∧
      answers.calcWithdraw requested = .ok undelegations ∧
      items = undelegations.map (fun d => (d.valoperAddress, d.stakeChange)) ∧
      batch.expectedAmount = (batch.unbondItems.map Core.UnbondItem.expectedAmount).sum ∧
      (requested = batch.expectedAmount ↔
        (batch.unbondItems.map Core.UnbondItem.amount).sum =
          (batch.unbondItems.map Core.UnbondItem.expectedAmount).sum) ∧
      (answers.SplitsExactly → ((items.map Prod.snd).sum = batch.expectedAmount ↔
        (batch.unbondItems.map Core.UnbondItem.amount).sum =
          (batch.unbondItems.map Core.UnbondItem.expectedAmount).sum)) := by
  obtain ⟨batch, undelegations, hbatch, hcalc, rfl⟩ :=
    submits_undelegate (flowInv_of_reachable h) hstep hsubmits
  have hsums := (payoutInv_of_reachable h).batches.wellSummed batchId batch hbatch
  have hrequested : batch.totalAmount = batch.expectedAmount ↔
      (batch.unbondItems.map Core.UnbondItem.amount).sum =
        (batch.unbondItems.map Core.UnbondItem.expectedAmount).sum := by
    rw [hsums.totalAmount, hsums.expectedAmount]
  refine ⟨batch, batch.totalAmount, undelegations, hbatch, hcalc, rfl, hsums.expectedAmount,
    hrequested, fun hsplit => ?_⟩
  have hsum : ((undelegations.map fun d => (d.valoperAddress, d.stakeChange)).map
      Prod.snd).sum = batch.totalAmount := by
    rw [List.map_map]
    exact hsplit _ _ hcalc
  rw [hsum]
  exact hrequested

/-- The strategy of the sample deployment splits exactly. -/
theorem splitsExactly_answers (validators : List ValidatorInfo) :
    (answers validators).SplitsExactly := by
  intro amount undelegations h
  rw [← Except.ok.inj h]
  rfl

/-- A run that brings a request for 100 liquid tokens, made while `delegation` base tokens were
delegated, to the point where the next tick undelegates its batch. -/
def requested (delegation : ℕ) : List Action :=
  setup ++ staked ++ [remote 0 delegation, unbond 100, block 4 1040, remote 500 delegation, tick,
    .deliver 3 .response, tick, .deliver 4 .response]

/-- At rate one the promised amount is undelegated. -/
theorem undelegated_sample : ∃ w w' : World, ∃ batch,
    Submits w w' (.undelegate "DROP" [("val", 100)] "uatom" 0) ∧
      w.core.unbondBatches.load 0 = some batch ∧ batch.expectedAmount = 100 := by
  have hrun : ((initial.runAll deployment (requested 1000)).bind fun w =>
      (w.exec deployment tick).map fun w' => (w, w')).any
      (fun r => decide (r.1.inFlight = [] ∧
        r.2.inFlight.map Packet.transaction = [.undelegate "DROP" [("val", 100)] "uatom" 0] ∧
        (r.1.core.unbondBatches.load 0).map Core.UnbondBatch.unbondItems =
          some [⟨"alice", 100, 100⟩])) = true := by
    decide
  obtain ⟨w, w', hw, hw', hcheck⟩ := exists_step_of_runWhere hrun
  obtain ⟨hnil, htransactions, hitems⟩ := of_decide_eq_true hcheck
  have hsubmits := submits_of_inFlight hnil htransactions
  obtain ⟨batch, _, _, hbatch, -, -, -, -, hiff⟩ :=
    undelegated_iff (reachable_of_runAll initial_spec hw) hw' hsubmits
  have hiff := hiff (splitsExactly_answers members)
  rw [hbatch, Option.map_some, Option.some.injEq] at hitems
  rw [hitems] at hiff
  exact ⟨w, w', batch, hsubmits, hbatch, (hiff.2 rfl).symm⟩

/-- **Another amount than the promised one can be undelegated.** At rate two, the batch is promised
200 base tokens, and 100 are undelegated. -/
theorem undelegated_other : ¬ ∀ (d : Deployment) (w w' : World) (answers : Answers)
    (sender account denom : String) (funds : List Coin) (items : List (String × ℕ))
    (batchId : ℕ), Reachable d w → answers.SplitsExactly →
      Step d w (.execute answers sender funds .tick) w' →
      Submits w w' (.undelegate account items denom batchId) →
      ∃ batch, w.core.unbondBatches.load batchId = some batch ∧
        (items.map Prod.snd).sum = batch.expectedAmount := by
  intro hall
  have hrun : ((initial.runAll deployment (requested 2000)).bind fun w =>
      (w.exec deployment tick).map fun w' => (w, w')).any
      (fun r => decide (r.1.inFlight = [] ∧
        r.2.inFlight.map Packet.transaction = [.undelegate "DROP" [("val", 100)] "uatom" 0] ∧
        (r.1.core.unbondBatches.load 0).map Core.UnbondBatch.expectedAmount = some 200)) =
          true := by
    decide
  obtain ⟨w, w', hw, hw', hcheck⟩ := exists_step_of_runWhere hrun
  obtain ⟨hnil, htransactions, hexpected⟩ := of_decide_eq_true hcheck
  have hsubmits := submits_of_inFlight hnil htransactions
  obtain ⟨batch, hbatch, hsum⟩ := hall deployment w w' _ _ _ _ _ _ _
    (reachable_of_runAll initial_spec hw) (splitsExactly_answers members) hw' hsubmits
  rw [hbatch, Option.map_some, Option.some.injEq] at hexpected
  rw [hexpected] at hsum
  cases hsum

end Undelegations

end System

end DropContracts
