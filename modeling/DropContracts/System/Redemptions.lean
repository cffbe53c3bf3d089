import DropContracts.Core.Redemption
import DropContracts.System.BatchInvariant
import DropContracts.System.Scenario

set_option relaxedAutoImplicit false
set_option autoImplicit false

/-!
# The redemption of waiting LSM shares

When an idle tick of a reachable system moves on the LSM shares that are due. The redemption waits
for enough shares *and* for the interval, so shares that are due by one of the two are held back;
and without receivers of non-native rewards no share is moved at all.

## Main results

* `System.due_shares_sent_iff` — when a tick moves on the shares that are due.
* `System.old_shares_held_back` — it does not always.
-/

namespace DropContracts

namespace System

open Sample

/-- **When a tick moves on the LSM shares that are due**, in a reachable `Idle` state within the
interval, with no reward and no fee to transfer: where there is something to send, exactly when the
tick gets to the shares and no redemption that is due is held back. -/
theorem due_shares_sent_iff {d : Deployment} {w : World} {answers : Answers} {info : MessageInfo}
    (hreach : Reachable d w) (hidle : w.core.fsmState = .idle)
    (hsince : w.core.lastIdleCall ≤ w.time.seconds)
    (hwithin : w.time.seconds < w.core.lastIdleCall + w.core.config.idleMinInterval)
    (hrewards : Core.RewardsBelow w.core (w.querier d answers))
    (hfees : w.core.collectedFees.entries = []) :
    ((Core.RedeemDue w.core w.time.seconds →
        Core.EmitsRedeem w.core (w.querier d answers) (w.env d) info) ∧
      (¬ Core.RedeemDue w.core w.time.seconds → w.core.pendingLsmShares.entries ≠ [] →
        Core.EmitsShareTransfer w.core (w.querier d answers) (w.env d) info)) ↔
      (Core.RedeemDue w.core w.time.seconds ∨ w.core.pendingLsmShares.entries ≠ [] →
        Core.ReadyWithin w.core (w.querier d answers) ∧
          Core.RedeemsInTime w.core w.time.seconds) := by
  have hbatches := (payoutInv_of_reachable hreach).batches
  have hsince' : w.core.lastIdleCall ≤ (w.env d).time.seconds := hsince
  apply Core.lsm_shares_sent_iff hbatches hidle ?_ hsince' hwithin hrewards hfees
  exact ⟨Puppeteer.queryDelegations w.puppeteer, rfl⟩

/-- A run in which 1000 LSM shares have arrived on the remote chain, within the idle interval, with
the given threshold for their redemption. -/
def sharesWaiting (threshold : ℕ) : List Action :=
  setup ++ [
    admin (.updateConfig { Core.ConfigOptional.empty with lsmRedeemThreshold := some threshold }),
    .nonNativeRewardsBalances [], bondShares "transfer/channel-0" 1000, tick, tick,
    .deliver 1 .response]

/-- What a tick of some user fails with, if it fails. -/
def tickFault (w : World) : Option (Fault Core.ContractError) :=
  match Core.executeTick w.core (w.querier deployment (answers members)) (w.env deployment)
    ⟨"bob", []⟩ with
  | .ok _ => none
  | .error f => some f

/-- **Shares that are due by their age can be held back.** There are fewer of them than the
threshold, so that the tick sends nothing and fails, although the interval has passed. -/
theorem old_shares_held_back : ∃ w : World, Reachable deployment w ∧
    w.core.fsmState = .idle ∧ w.core.lastIdleCall ≤ w.time.seconds ∧
    w.time.seconds < w.core.lastIdleCall + w.core.config.idleMinInterval ∧
    w.core.nonNativeRewardsConfig = some [] ∧ w.core.collectedFees.entries = [] ∧
    w.puppeteer.currentTxState.status = .idle ∧ Core.RedeemDue w.core w.time.seconds ∧
    tickFault w = some (.error .idleMinIntervalIsNotReached) := by
  have hrun : (initialShares.runAll deployment (sharesWaiting 10)).any
      (fun w => decide (w.core.fsmState = .idle ∧ w.core.lastIdleCall ≤ w.time.seconds ∧
        w.time.seconds < w.core.lastIdleCall + w.core.config.idleMinInterval ∧
        w.core.nonNativeRewardsConfig = some [] ∧ w.core.collectedFees.entries = [] ∧
        w.puppeteer.currentTxState.status = .idle ∧ Core.RedeemDue w.core w.time.seconds ∧
        tickFault w = some (.error .idleMinIntervalIsNotReached))) = true := by
    decide
  obtain ⟨w, hw, hcheck⟩ := (Option.any_eq_true _ _).1 hrun
  exact ⟨w, reachable_of_runAll initialShares_spec hw, of_decide_eq_true hcheck⟩

/-- A single share that is due is redeemed when the threshold is one. -/
theorem due_shares_sent_sample : ∃ w : World, Reachable deployment w ∧
    Core.EmitsRedeem w.core (w.querier deployment (answers members)) (w.env deployment)
      ⟨"bob", []⟩ ∧
    Core.RedeemsInTime w.core w.time.seconds := by
  have hrun : ((initialShares.runAll deployment (sharesWaiting 1)).bind fun w =>
      (Core.executeTick w.core (w.querier deployment (answers members)) (w.env deployment)
        ⟨"bob", []⟩).toOption.map fun r => (w, r.1, r.2)).any
      (fun r => decide (r.1.core.fsmState = .idle ∧ r.1.core.lastIdleCall ≤ r.1.time.seconds ∧
        r.1.time.seconds < r.1.core.lastIdleCall + r.1.core.config.idleMinInterval ∧
        r.1.core.nonNativeRewardsConfig = some [] ∧ r.1.core.collectedFees.entries = [] ∧
        Core.RedeemDue r.1.core r.1.time.seconds ∧
        r.2.2 = [.puppeteer r.1.core.config.puppeteerContract (.redeemShares
          (r.1.core.lsmSharesToRedeem.entries.map fun e => ⟨e.2.2, e.2.1, e.1⟩)
          (some r.1.core.config.puppeteerTimeout) "core") []])) = true := by
    decide
  obtain ⟨w, s', msgs, hw, htick, hcheck⟩ := exists_tick_of_runAll hrun
  obtain ⟨hidle, hsince, hwithin, hreceivers, hfees, hdue, hmsgs⟩ := of_decide_eq_true hcheck
  simp only at hmsgs
  have hemits : Core.EmitsRedeem w.core (w.querier deployment (answers members))
      (w.env deployment) ⟨"bob", []⟩ := by
    rw [hmsgs] at htick
    exact ⟨s', htick⟩
  have hrewards : Core.RewardsBelow w.core (w.querier deployment (answers members)) := by
    intro receivers balances hconfig _ item hitem
    rw [hreceivers, Option.some.injEq] at hconfig
    subst hconfig
    cases hitem
  have hreach := reachable_of_runAll initialShares_spec hw
  have hready := (due_shares_sent_iff hreach hidle hsince hwithin hrewards hfees).1
    ⟨fun _ => hemits, fun hnot => absurd hdue hnot⟩ (.inl hdue)
  exact ⟨w, hreach, hemits, hready.2⟩

end System

end DropContracts
