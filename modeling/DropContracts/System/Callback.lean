import DropContracts.System.LsmInvariant
import DropContracts.System.Scenario

set_option relaxedAutoImplicit false
set_option autoImplicit false

/-!
# The callback of the puppeteer

The puppeteer reports the outcome of a packet to core in the call in which it learns the outcome,
so when core's hook fails, the puppeteer does not learn it either and waits for good. The hook
fails when it moves the state machine to `Idle` while it is in `Idle`, which the table does not
allow, and the accounting of a success fails when a transfer carried more LSM shares than are
pending.

## Main results

* `System.hook_ok_iff` — when the hook returns.
* `System.callback_iff` — when the outcome of a packet reaches both contracts.
* `System.callback_refused` — it does not always.
-/

namespace DropContracts

namespace System

open Exec Sample

section Callback

variable {d : Deployment} {w w' : World} {p : Packet} {outcome : World.Outcome}

/-- **When the hook returns**: it does for every packet that can be in flight, unless the packet
has failed, the hook moves the state machine to `Idle` for it, and the state is `Idle`, or the
packet has arrived with more LSM shares than are pending. -/
theorem hook_ok_iff (hwired : Wired d w.core.config) (hlsm : LsmFlowInv w)
    (hp : p ∈ w.inFlight) :
    (∃ s', Core.executePuppeteerHook w.core (w.env d) ⟨d.puppeteer, []⟩
        (p.outcomeMsg outcome) = .ok s') ↔
      ¬ (w.core.fsmState = .idle ∧ outcome ≠ .response ∧
          Core.Transaction.resetsOnError p.transaction = true) ∧
        ¬ (outcome = .response ∧ w.oversends p = true) := by
  have hprocess : (∃ s', Core.executePuppeteerHook w.core (w.env d) ⟨d.puppeteer, []⟩
      (p.outcomeMsg outcome) = .ok s') ↔
        ∃ t, Core.processOutcome w.core (w.env d) (p.outcomeMsg outcome) = .ok t := by
    simp only [Core.executePuppeteerHook, bind_eq_ok, ensure_eq_ok, pure_eq_ok,
      hwired.puppeteer, true_and, exists_const]
    constructor
    · rintro ⟨_, t, ht, -⟩
      exact ⟨t, ht⟩
    · rintro ⟨t, ht⟩
      exact ⟨_, t, ht, rfl⟩
  have herror : (∃ t, Core.processError w.core p.transaction = .ok t) ↔
      ¬ (w.core.fsmState = .idle ∧ Core.Transaction.resetsOnError p.transaction = true) := by
    unfold Core.processError
    split_ifs with hresets
    · rw [Core.goTo_idle_ok_iff]
      simp [hresets]
    · simp [hresets]
  rw [hprocess]
  cases outcome with
  | response =>
    have hsame : Core.SameLsm w.core
        { w.core with lastIcaBalanceChangeHeight := w.height } := ⟨rfl, rfl, rfl⟩
    cases hover : w.oversends p with
    | false =>
      obtain ⟨t, ht, -⟩ := hlsm.success_ok hp hover hsame (w.env d)
      exact iff_of_true ⟨t, ht⟩ (by simp)
    | true =>
      refine iff_of_false ?_ (by simp)
      rintro ⟨t, ht⟩
      have habort := ht.symm.trans (hlsm.success_abort hp hover hsame (w.env d))
      cases habort
  | error details =>
    refine herror.trans ?_
    simp
  | timeout =>
    refine herror.trans ?_
    simp

/-- **When the outcome of a packet reaches both contracts**, core's hook returning and the
puppeteer being ready for the next transaction: unless core is in `Idle` and a packet has failed
for which the hook moves the state machine to `Idle`, which are the transfers of rewards and of LSM
shares, the redemptions and the claims, and unless a packet has arrived that carried more LSM
shares than are pending.

**Proof sketch.** Outside of `Idle` the table has a move to `Idle`. A redemption in flight lists the
shares that wait for it, and a transfer of shares those of a denomination that is pending, so the
accounting of a success fails for a transfer that carried too many only. -/
theorem callback_iff (h : Reachable d w) (hp : p ∈ w.inFlight)
    (hstep : Step d w (.deliver p.seq outcome) w') :
    ((∃ s', Core.executePuppeteerHook w.core (w.env d) ⟨d.puppeteer, []⟩
        (p.outcomeMsg outcome) = .ok s') ∧ w'.puppeteer.currentTxState.status = .idle) ↔
      ¬ (w.core.fsmState = .idle ∧ outcome ≠ .response ∧
          Core.Transaction.resetsOnError p.transaction = true) ∧
        ¬ (outcome = .response ∧ w.oversends p = true) := by
  have hflow := flowInv_of_reachable h
  rw [← hook_ok_iff hflow.wired (lsmFlowInv_of_reachable h) hp]
  cases step_cases hflow.wired hstep with
  | environment _ _ henvironment => cases henvironment
  | accepted _ _ p' txState transaction core _ hp' htx hwaiting htrans hhook hcore _ _ hinFlight
      hempty =>
    refine and_iff_left ?_
    rw [Puppeteer.Storage.currentTxState, hempty]
    rfl
  | refused _ _ p' _ hp' hrefused hcore hinFlight hpuppeteer =>
    obtain ⟨hseq, hmem, htx⟩ := hflow.of_find hp'
    obtain rfl : p = p' := by
      rw [hmem, List.mem_singleton] at hp
      exact hp
    have hnot := (report_eq_none_iff htx).1 hrefused
    refine iff_of_false (fun hboth => ?_) (fun hok => hok.elim hnot)
    obtain ⟨⟨s', hs'⟩, -⟩ := hboth
    exact hnot s' hs'

/-- A run that leaves a transfer of rewards in flight, which was submitted in `Idle`. -/
def rewarded : List Action :=
  setup ++ [admin (.updateNonNativeRewardsReceivers [⟨"uosmo", "receiver", 0, "fees", ⟨0⟩⟩]),
    .nonNativeRewardsBalances [⟨"uosmo", 5⟩], block 2 1020, tick, tick]

/-- The success of a transfer of rewards is reported. -/
theorem callback_sample : ∃ (w w' : World) (p : Packet), p ∈ w.inFlight ∧
    w.core.fsmState = .idle ∧ Step deployment w (.deliver p.seq .response) w' ∧
      w'.puppeteer.currentTxState.status = .idle := by
  have hrun : ((initial.runAll deployment rewarded).bind fun w =>
      (w.exec deployment (.deliver 1 .response)).map fun w' => (w, w')).any
      (fun r => decide (r.1.core.fsmState = .idle) &&
        r.1.inFlight.any fun p => decide (p.seq = 1 ∧ r.1.oversends p = false)) = true := by
    decide
  obtain ⟨w, w', hw, hw', hcheck⟩ := exists_step_of_runWhere hrun
  rw [Bool.and_eq_true, decide_eq_true_eq] at hcheck
  obtain ⟨p, hp, hsent⟩ := List.any_eq_true.1 hcheck.2
  obtain ⟨hseq, hover⟩ := of_decide_eq_true hsent
  rw [← hseq] at hw'
  have hcallback := callback_iff (reachable_of_runAll initial_spec hw) hp hw'
  exact ⟨w, w', p, hp, hcheck.1, hw', (hcallback.2 (by simp [hover])).2⟩

/-- **The outcome of a packet can be refused.** A transfer of rewards, which is submitted in
`Idle`, fails, and the puppeteer keeps waiting. -/
theorem callback_refused : ¬ ∀ (d : Deployment) (w w' : World) (p : Packet)
    (outcome : World.Outcome), Reachable d w → p ∈ w.inFlight →
      Step d w (.deliver p.seq outcome) w' →
      (∃ s', Core.executePuppeteerHook w.core (w.env d) ⟨d.puppeteer, []⟩
        (p.outcomeMsg outcome) = .ok s') ∧ w'.puppeteer.currentTxState.status = .idle := by
  intro hall
  have hrun : ((initial.runAll deployment rewarded).bind fun w =>
      (w.exec deployment (.deliver 1 (.error "failed"))).map fun w' => (w, w')).any
      (fun r => decide (r.2.puppeteer.currentTxState.status ≠ .idle) &&
        r.1.inFlight.any fun p => decide (p.seq = 1)) = true := by
    decide
  obtain ⟨w, w', hw, hw', hcheck⟩ := exists_step_of_runWhere hrun
  rw [Bool.and_eq_true, decide_eq_true_eq] at hcheck
  obtain ⟨p, hp, hseq⟩ := List.any_eq_true.1 hcheck.2
  rw [← of_decide_eq_true hseq] at hw'
  exact hcheck.1 (hall deployment w w' p (.error "failed") (reachable_of_runAll initial_spec hw)
    hp hw').2

end Callback

end System

end DropContracts
