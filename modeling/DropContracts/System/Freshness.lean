import DropContracts.System.Heights
import DropContracts.System.Scenario
import DropContracts.System.Snapshots

set_option relaxedAutoImplicit false
set_option autoImplicit false

/-!
# Fresh balances

A delegation is computed from the balance that the puppeteer has stored. Core refuses a balance
that is older than the last transaction that changed the account: it compares the height at which
the balance was stored with the height of the last successful hook. Within one block the two heights
do not tell which of the two came first.

## Main definitions

* `System.noteFresh` — whether the balance was stored after the last success, along a run.
* `System.InOrder` — no success is reported in the block in which the balance was stored.
* `System.FreshStaking` — only fresh balances are staked, and outdated ones are refused.

## Main results

* `System.freshStaking_of_run` — the property holds along every run of such steps.
* `System.freshInv_after_success_iff` — after a success the heights tell the order exactly when the
  balance was stored in an earlier block.
* `System.stale_delegated` — a success in the block of the balance.
-/

namespace DropContracts

open Exec

namespace Core

section Heights

variable {s s' : Storage} {q : Querier} {env : Env} {info : MessageInfo} {config : Config}
  {msgs : List CoreMsg} {balances : BalancesResponse}

/-- A balance that is staked is not older than the last change. -/
theorem changeHeight_le_of_stake {m : CoreMsg} (hbalances : q.balances = .ok balances)
    (h : getStakeMsg s q env config info = .ok (s', some m)) :
    s.lastIcaBalanceChangeHeight ≤ balances.2.1 := by
  simp only [getStakeMsg, getIcaBalanceByDenom_of_answer hbalances, ok_bind] at h
  split_ifs at h
  · cases h
  · simp only [bind_eq_ok, ensure_eq_ok] at h
    obtain ⟨-, hheight, -⟩ := h
    exact hheight

/-- **An older balance is refused.** -/
theorem getStakeMsg_outdated (hbalances : q.balances = .ok balances)
    (hmin : config.minStakeAmount ≤ icaBalance balances config.remoteDenom)
    (hold : balances.2.1 < s.lastIcaBalanceChangeHeight) :
    getStakeMsg s q env config info =
      fail (.puppeteerBalanceOutdated s.lastIcaBalanceChangeHeight balances.2.1) := by
  simp only [getStakeMsg, getIcaBalanceByDenom_of_answer hbalances, ok_bind]
  rw [if_neg (not_lt.2 hmin), ensure, if_neg (not_le.2 hold)]
  rfl

/-- **A tick that delegates** does so from a balance that is not older than the last change. -/
theorem changeHeight_le_of_tick (hbalances : q.balances = .ok balances)
    (h : executeTick s q env info = .ok (s', msgs)) (hdelegates : Delegates msgs) :
    s.lastIcaBalanceChangeHeight ≤ balances.2.1 := by
  rcases executeTick_asksToStake h with ⟨-, hnot⟩ | ⟨t, t', m, -, hheight, hmsg, -, -⟩
  · exact absurd hdelegates hnot
  · rw [← hheight]
    exact changeHeight_le_of_stake hbalances hmsg

end Heights

end Core

namespace System

/-! ## The history -/

/-- A step that stores the balances of the interchain account. -/
def Action.storesBalance : Action → Bool
  | .delegationsAndBalance _ => true
  | _ => false

/-- Whether the balances were stored after the hook of the last success, after one more step. -/
def noteFresh (d : Deployment) (fresh : Bool) (w : World) (a : Action) (_ : World) : Bool :=
  a.storesBalance || fresh && !w.confirms d a

/-- The steps of the system together with this history. -/
abbrev FreshStep (d : Deployment) : World × Bool → Action → World × Bool → Prop :=
  Recorded (Step d) (noteFresh d)

/-- No success is reported in the block in which the stored balances were stored. -/
def InOrder (d : Deployment) (w : World) (a : Action) : Prop :=
  w.confirms d a = true → w.snapshot.2.1 ≠ w.height

instance (d : Deployment) (w : World) (a : Action) : Decidable (InOrder d w a) :=
  inferInstanceAs (Decidable (w.confirms d a = true → w.snapshot.2.1 ≠ w.height))

/-- A state with its history, of some run whose steps all satisfy `ok`. Before the first success
there is nothing that the balances could be older than. -/
def FreshReachable (d : Deployment) (ok : World → Action → Prop) (x : World × Bool) : Prop :=
  ∃ w₀, Initial d w₀ ∧ RunWhere (FreshStep d) (fun x a => ok x.1 a) (w₀, true) x

/-- **Staking decisions use a fresh balance**: a delegation that `get_stake_msg` asks for, and one
that a step submits, is computed from balances that were stored after the hook of the last success;
balances that were stored before are refused, in whatever storage the check is made. -/
structure FreshStaking (d : Deployment) (x : World × Bool) : Prop where
  emits : ∀ (bank : Bank) (answers : Answers) (info : MessageInfo) (s s' : Core.Storage)
    (m : Core.CoreMsg), s.lastIcaBalanceChangeHeight = x.1.core.lastIcaBalanceChangeHeight →
    Core.getStakeMsg s (({ x.1 with bank := bank } : World).querier d answers) (x.1.env d)
      x.1.core.config info = .ok (s', some m) → x.2 = true
  delegates : ∀ a w' account denom items, Step d x.1 a w' →
    x.1.submits w' = some (.delegate account denom items) → x.2 = true
  refused : x.2 = false → x.1.core.config.minStakeAmount ≤ x.1.stakeBalance →
    ∀ (bank : Bank) (answers : Answers) (info : MessageInfo) (s : Core.Storage),
      s.lastIcaBalanceChangeHeight = x.1.core.lastIcaBalanceChangeHeight →
      Core.getStakeMsg s (({ x.1 with bank := bank } : World).querier d answers) (x.1.env d)
        x.1.core.config info = fail (.puppeteerBalanceOutdated
          x.1.core.lastIcaBalanceChangeHeight x.1.snapshot.2.1)

/-! ## The heights -/

section Heights

variable {d : Deployment} {w w' : World} {x y : World × Bool}

/-- **The heights tell the order**: the balances were stored after the hook of the last success
exactly when the height of the last change is not above theirs. They were stored in the past. -/
structure FreshInv (x : World × Bool) : Prop where
  past : x.1.snapshot.2.1 ≤ x.1.height
  fresh_iff : x.2 = true ↔ x.1.core.lastIcaBalanceChangeHeight ≤ x.1.snapshot.2.1

/-- Initially nothing was stored and nothing has changed. -/
theorem freshInv_initial (h : Initial d w) : FreshInv (w, true) := by
  obtain ⟨config, owner, hcore⟩ := h.core
  obtain ⟨pconfig, hpuppeteer⟩ := h.puppeteer
  have hzero : w.snapshot.2.1 = 0 := by
    unfold World.snapshot
    rw [hpuppeteer]
    rfl
  refine ⟨?_, iff_of_true rfl ?_⟩
  · show w.snapshot.2.1 ≤ w.height
    rw [hzero]
    exact Nat.zero_le _
  · show w.core.lastIcaBalanceChangeHeight ≤ _
    rw [hcore]
    exact Nat.zero_le _

/-- The invariant after balances were stored. -/
theorem FreshInv.store {data : Puppeteer.BalancesAndDelegations} (hw : Reachable d x.1)
    (hstep : FreshStep d x (.delegationsAndBalance data) y) : FreshInv y := by
  have hy : _ = y.1 := Option.some.inj hstep.1
  have hfresh : y.2 = true := hstep.2
  have hsnapshot : y.1.snapshot.2.1 = x.1.height := by rw [← hy]; rfl
  have hheight : y.1.height = x.1.height := by rw [← hy]
  have hcore : y.1.core = x.1.core := by rw [← hy]
  refine ⟨by rw [hsnapshot, hheight], iff_of_true hfresh ?_⟩
  rw [hcore, hsnapshot]
  exact changeHeight_le_of_reachable hw

/-- **After a success** the heights tell the order exactly when the balances were stored in an
earlier block. -/
theorem freshInv_after_success_iff {a : Action} (h : FreshInv x) (hw : Reachable d x.1)
    (hconfirms : x.1.confirms d a = true) (hstep : FreshStep d x a y) :
    FreshInv y ↔ x.1.snapshot.2.1 ≠ x.1.height := by
  obtain ⟨hchange, hheight⟩ := step_changeHeight (flowInv_of_reachable hw) hstep.1
  rw [if_pos hconfirms] at hchange
  have hstores : a.storesBalance = false := by
    cases a with
    | delegationsAndBalance data => cases hconfirms
    | _ => rfl
  have hstale : y.2 = false := by
    rw [hstep.2, noteFresh, hstores, hconfirms]
    simp
  have hsnapshot : y.1.snapshot = x.1.snapshot := by
    rcases step_snapshot hstep.1 with hsame | ⟨data, rfl⟩
    · exact hsame
    · cases hstores
  have hpast := h.past
  constructor
  · intro hy hsame
    have hfresh : y.2 = true := hy.fresh_iff.2 (by rw [hchange, hsnapshot, hsame])
    rw [hstale] at hfresh
    cases hfresh
  · intro hearlier
    refine ⟨by rw [hsnapshot]; exact hpast.trans hheight, ?_⟩
    rw [hstale, hchange, hsnapshot]
    simp only [Bool.false_eq_true, false_iff, not_le]
    omega

/-- **Every step that is in order keeps the heights telling the order.** -/
theorem FreshInv.step {a : Action} (h : FreshInv x) (hw : Reachable d x.1)
    (hok : InOrder d x.1 a) (hstep : FreshStep d x a y) : FreshInv y := by
  by_cases hconfirms : x.1.confirms d a = true
  · exact (freshInv_after_success_iff h hw hconfirms hstep).2 (hok hconfirms)
  · rcases step_snapshot hstep.1 with hsnapshot | ⟨data, rfl⟩
    · by_cases hstores : a.storesBalance = true
      · cases a with
        | delegationsAndBalance data => exact FreshInv.store hw hstep
        | _ => cases hstores
      · obtain ⟨hchange, hheight⟩ := step_changeHeight (flowInv_of_reachable hw) hstep.1
        rw [if_neg hconfirms] at hchange
        have hsame : y.2 = x.2 := by
          rw [hstep.2, noteFresh, Bool.eq_false_of_not_eq_true hstores,
            Bool.eq_false_of_not_eq_true hconfirms]
          simp
        refine ⟨by rw [hsnapshot]; exact h.past.trans hheight, ?_⟩
        rw [hsame, hchange, hsnapshot]
        exact h.fresh_iff
    · exact FreshInv.store hw hstep

/-- A state with a history is reachable. -/
theorem FreshReachable.reachable {ok : World → Action → Prop} (h : FreshReachable d ok x) :
    Reachable d x.1 := by
  obtain ⟨w₀, hinit, hrun⟩ := h
  exact ⟨w₀, hinit, hrun.forget⟩

/-- The heights tell the order in every state that such steps reach. -/
theorem freshInv_of_run (h : FreshReachable d (InOrder d) x) : FreshInv x := by
  obtain ⟨w₀, hinit, hrun⟩ := h
  have hreachable : Reachable d w₀ := ⟨w₀, hinit, RunWhere.refl w₀⟩
  exact hrun.preserves_of (I := fun x => Reachable d x.1)
    (fun x a y hstep hx => hx.tail hstep.1)
    (fun x a y hx hok hstep hinv => hinv.step hx hok hstep) hreachable (freshInv_initial hinit)

/-- **Staking decisions use a fresh balance**, along every run in which no success is reported in
the block in which the stored balances were stored.

**Proof sketch.** Along such a run the comparison of the two heights tells whether the balances were
stored after the last success. A tick that delegates has made this comparison. -/
theorem freshStaking_of_run (h : FreshReachable d (InOrder d) x) : FreshStaking d x := by
  have hinv := freshInv_of_run h
  have hflow := flowInv_of_reachable h.reachable
  have hbalances : ∀ (bank : Bank) (answers : Answers),
      (({ x.1 with bank := bank } : World).querier d answers).balances =
        .ok (Puppeteer.queryBalances x.1.puppeteer) := fun _ _ => rfl
  refine ⟨?_, ?_, ?_⟩
  · intro bank answers info s s' m hsame hstake
    have hle := Core.changeHeight_le_of_stake (hbalances bank answers) hstake
    rw [hsame] at hle
    exact hinv.fresh_iff.2 hle
  · intro a w' account denom items hstep hsubmits
    obtain ⟨answers, sender, funds, bank, msgs, -, htick, hdelegates⟩ :=
      tick_of_delegation hflow hstep hsubmits
    have hle := Core.changeHeight_le_of_tick (hbalances bank answers) htick hdelegates
    exact hinv.fresh_iff.2 hle
  · intro hstale hmin bank answers info s hsame
    have hold : x.1.snapshot.2.1 < s.lastIcaBalanceChangeHeight := by
      rw [hsame]
      by_contra hle
      have hfresh := hinv.fresh_iff.2 (not_lt.1 hle)
      rw [hstale] at hfresh
      cases hfresh
    have hrefused : Core.getStakeMsg s _ (x.1.env d) x.1.core.config info = _ :=
      Core.getStakeMsg_outdated (hbalances bank answers) hmin hold
    rw [hrefused, hsame]
    rfl

end Heights

/-! ## Runs of the sample deployment -/

/-- The world and the history after a step, if the step can be taken. -/
def World.execFresh (d : Deployment) (x : World × Bool) (a : Action) : Option (World × Bool) :=
  (x.1.exec d a).map fun w => (w, noteFresh d x.2 x.1 a w)

/-- An evaluated list of steps is a run with its history. -/
theorem freshReachable_of_runList {d : Deployment} {w₀ : World} {x : World × Bool}
    {ok : World → Action → Prop} {check : World × Bool → Action → Bool} {actions : List Action}
    (hinit : Initial d w₀) (hcheck : ∀ x, ∀ a ∈ actions, check x a = true → ok x.1 a)
    (h : runList (World.execFresh d) check (w₀, true) actions = some x) :
    FreshReachable d ok x := by
  refine ⟨w₀, hinit, runList_eq_some ?_ hcheck h⟩
  exact fun _ _ _ hst => Recorded.of_map (fun _ _ _ hw => hw) hst

section Samples

open Sample

namespace Sample

/-- A balance is stored in block 2, and the success of a transfer is reported in block 3. -/
def outdated : List Action :=
  setup ++ [bond 1000, block 2 1020, remote 1000 0, tick, block 3 1025, .deliver 1 .response]

/-- A balance is stored and the success of a transfer is reported, both in block 3. -/
def sameBlock : List Action :=
  setup ++ [bond 1000, block 2 1020, tick, block 3 1025, remote 1000 0, .deliver 1 .response]

end Sample

/-- A balance that was stored in an earlier block is refused. -/
theorem freshStaking_of_run_sample : ∃ x : World × Bool, x.2 = false ∧
    x.1.core.config.minStakeAmount ≤ x.1.stakeBalance ∧ FreshStaking deployment x := by
  have hrun : (runList (World.execFresh deployment)
      (fun x a => decide (InOrder deployment x.1 a)) (initial, true) outdated).any
      (fun x => decide (x.2 = false ∧ x.1.core.config.minStakeAmount ≤ x.1.stakeBalance)) =
        true := by
    decide
  obtain ⟨x, hx, hcheck⟩ := (Option.any_eq_true _ _).1 hrun
  obtain ⟨hstale, hmin⟩ := of_decide_eq_true hcheck
  have hreachable : FreshReachable deployment (InOrder deployment) x :=
    freshReachable_of_runList initial_spec (fun _ _ _ => of_decide_eq_true) hx
  exact ⟨x, hstale, hmin, freshStaking_of_run hreachable⟩

/-- **A balance that was stored before the last success is staked** when the success was reported in
the same block. -/
theorem stale_delegated : ¬ ∀ (d : Deployment) (x : World × Bool),
    FreshReachable d (fun _ _ => True) x → FreshStaking d x := by
  intro hall
  have hrun : ((runList (World.execFresh deployment) (fun _ _ => true) (initial, true)
      sameBlock).bind fun x => (x.1.exec deployment tick).map fun w => (x, w)).any
      (fun r => decide ((r.1.1.submits r.2).bind Transaction.delegated = some 1000 ∧
        r.1.2 = false)) = true := by
    decide
  obtain ⟨⟨x, w'⟩, hstep, hcheck⟩ := (Option.any_eq_true _ _).1 hrun
  simp only [Option.bind_eq_some_iff, Option.map_eq_some_iff, Prod.mk.injEq] at hstep
  obtain ⟨_, hx, _, hw', rfl, rfl⟩ := hstep
  obtain ⟨hdelegated, hstale⟩ := of_decide_eq_true hcheck
  obtain ⟨transaction, hsubmits, hdelegated⟩ := Option.bind_eq_some_iff.1 hdelegated
  have hfresh := hall deployment _
    (freshReachable_of_runList initial_spec (fun _ _ _ _ => trivial) hx)
  cases transaction with
  | delegate account denom items =>
    have htrue := hfresh.delegates tick _ account denom items hw' hsubmits
    rw [hstale] at htrue
    cases htrue
  | _ => cases hdelegated

end Samples

end System

end DropContracts
