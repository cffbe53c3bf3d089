import Mathlib.Algebra.Order.BigOperators.Group.List
import DropContracts.Distribution.Contract
import DropContracts.System.FeeLedger

set_option relaxedAutoImplicit false
set_option autoImplicit false

/-!
# What the fee is taken of

The fee of a delegation is computed from the whole balance of the interchain account, wherever the
balance comes from: rewards, transferred deposits, or fees that were collected before and are not
paid yet. So deposits are charged, and fees that wait on the account are delegated.

## Main definitions

* `System.Answers.DepositsExactly`, `System.Answers.DepositsAtMost` — the strategy divides a deposit
  without a rest, or no more than it, as the distribution contract does
  (`System.Answers.Distributes`).
* `System.FixedFee` — the fee has the given rate.
* `System.Stake.Reserved` — a delegation leaves the waiting fees on the account.
* `System.PaysFirst` — no fees wait when a step delegates.
* `System.Account`, `System.AccountRun` — the interchain account behind the reported balances.

## Main results

* `System.stakes_of_accounted` — the amounts of every delegation of a run.
* `System.fee_of_balances` — what is collected is the fee on the delegated balances.
* `System.fee_of_deposits` — also when there never were rewards.
* `System.reserved_iff_paysFirst` — when the waiting fees are left on the account.
-/

namespace DropContracts

/-- What an executed transaction brings to the interchain account: transferred base tokens. -/
def Transaction.brings (baseDenom : String) : Transaction → ℕ
  | .ibcTransfer denom amount _ _ => if denom = baseDenom then amount else 0
  | _ => 0

/-- What an executed transaction takes from the interchain account in the given denomination. -/
def Transaction.takes (denom : String) : Transaction → ℕ
  | .delegate _ _ items => (items.map Prod.snd).sum
  | .claimRewardsAndOptionalyTransfer _ _ _ (some payout) => payout.amount
  | .transfer _ items => coinsOf (items.map Prod.snd) denom
  | _ => 0

namespace System

section Bases

variable {d : Deployment} {w w' : World} {l : Ledger} {x y : World × Ledger}

/-! ## The amounts of a delegation -/

/-- The strategy divides a deposit among the validators without a rest. -/
def Answers.DepositsExactly (answers : Answers) : Prop :=
  ∀ amount plan, answers.calcDeposit amount = .ok plan →
    (plan.map IdealDelegation.stakeChange).sum = amount

/-- The strategy asks the distribution contract for its plans. -/
def Answers.Distributes (answers : Answers) (delegations : List Distribution.Delegation) : Prop :=
  ∀ amount plan, answers.calcDeposit amount = .ok plan →
    Distribution.calcDeposit amount delegations = .ok plan

/-- **The distribution contract divides deposits without a rest**, up to a total weight of
`10 ^ 18`. -/
theorem Answers.Distributes.depositsExactly {answers : Answers}
    {delegations : List Distribution.Delegation} (h : answers.Distributes delegations)
    (hweight : (delegations.map Distribution.Delegation.weight).sum ≤ Decimal.fractional) :
    answers.DepositsExactly := by
  intro amount plan hplan
  exact Distribution.sum_calcDeposit hweight (h amount plan hplan)

/-- The strategy divides no more than the deposit. -/
def Answers.DepositsAtMost (answers : Answers) : Prop :=
  ∀ amount plan, answers.calcDeposit amount = .ok plan →
    (plan.map IdealDelegation.stakeChange).sum ≤ amount

/-- **The distribution contract divides no more than the deposit**, whatever the weights are. -/
theorem Answers.Distributes.depositsAtMost {answers : Answers}
    {delegations : List Distribution.Delegation} (h : answers.Distributes delegations) :
    answers.DepositsAtMost := by
  intro amount plan hplan
  exact Distribution.sum_calcDeposit_le (h amount plan hplan)

/-- A strategy that leaves no rest divides no more than the deposit. -/
theorem Answers.DepositsExactly.atMost {answers : Answers} (h : answers.DepositsExactly) :
    answers.DepositsAtMost :=
  fun amount plan hplan => (h amount plan hplan).le

/-- The strategy that a call of core asks divides deposits without a rest. -/
def Action.DepositsExactly : Action → Prop
  | .execute answers _ _ _ => answers.DepositsExactly
  | _ => True

/-- The amounts of a delegation: it delegates the balance without the fee, and all of the fee is
kept or nothing. -/
structure Stake.Exact (s : Stake) : Prop where
  delegated : s.delegated + s.fee = s.balance
  kept : s.kept = 0 ∨ s.kept = s.fee

/-- No more is kept than the fee. -/
theorem Stake.Exact.kept_le {s : Stake} (h : s.Exact) : s.kept ≤ s.fee := by
  rcases h.kept with hkept | hkept <;> omega

/-- All of a fee is kept or nothing. -/
theorem keeps_eq (config : Core.Config) (fee : ℕ) :
    config.keeps fee = 0 ∨ config.keeps fee = fee := by
  unfold Core.Config.keeps
  split_ifs
  · exact .inl rfl
  · exact .inr rfl

/-- The delegation of a step: the step is a tick, and the delegation has these amounts. -/
theorem stakeOf_exact {a : Action} {n : ℕ} {s : Stake} (hflow : FlowInv d w)
    (hstep : Step d w a w') (hexact : a.DepositsExactly) (hs : w.stakeOf w' n = some s) :
    s.Exact ∧ w.executes a = none ∧ s = ⟨w.core.config.remoteDenom, w.stakeBalance, w.stakeFee,
      w.core.config.keeps w.stakeFee, s.delegated, n⟩ := by
  obtain ⟨delegated, hdelegated, rfl⟩ := Option.map_eq_some_iff.1 hs
  cases step_fees hflow hstep with
  | silent _ hsubmits =>
    rw [hsubmits] at hdelegated
    cases hdelegated
  | submit p _ hsubmits _ _ hdelegate =>
    rw [hsubmits, Option.bind_some, hdelegate] at hdelegated
    cases hdelegated
  | stake p plan _ _ _ hstakes =>
    obtain ⟨answers, sender, funds, rfl, hasked⟩ := hstakes.tick
    obtain ⟨account, denom, hsubmits⟩ := hstakes.submits
    have hsum : delegated = w.stakeBalance - w.stakeFee := by
      rw [hsubmits, Option.bind_some, Transaction.delegated, List.map_map] at hdelegated
      rw [← Option.some.inj hdelegated]
      exact hexact _ _ hasked
    have hle := hstakes.fee_le
    refine ⟨⟨?_, keeps_eq _ _⟩, rfl, rfl⟩
    show delegated + w.stakeFee = w.stakeBalance
    omega

/-- The delegations after a step: those before it, and the one it submits. -/
theorem mem_stakes_record {a : Action} {s : Stake} : s ∈ (l.record w a w').stakes ↔
    s ∈ l.stakes ∨
      w.stakeOf w' ((l.recordFees w a w').waiting w.core.config.remoteDenom) = some s := by
  rw [Ledger.record, List.mem_append, Option.mem_toList]

/-! ## The fee of the balances -/

/-- The fee has the rate `f`. Without a fee the rate is zero. -/
def FixedFee (f : Decimal) (w : World) : Prop := w.core.config.fee.getD Decimal.zero = f

instance (f : Decimal) (w : World) : Decidable (FixedFee f w) :=
  inferInstanceAs (Decidable (_ = _))

/-- **The amounts of every delegation** of a run with a fixed rate. -/
theorem stakes_of_accounted {f : Decimal}
    (h : AccountedWhere d (fun x a => FixedFee f x.1 ∧ a.DepositsExactly) x) :
    ∀ s ∈ x.2.stakes, s.Exact ∧ s.fee = s.balance * f.atomics / Decimal.fractional := by
  refine AccountedWhere.invariant (P := fun x => ∀ s ∈ x.2.stakes, s.Exact ∧
    s.fee = s.balance * f.atomics / Decimal.fractional) h ?_ ?_
  · intro w₀ _ s hs
    exact absurd hs List.not_mem_nil
  · rintro x a ⟨w', l⟩ hx ⟨hfee, hexact⟩ ⟨hstep, hrecord⟩ hinv s hs
    obtain rfl : l = x.2.record x.1 a w' := hrecord
    rcases mem_stakes_record.1 hs with hs | hs
    · exact hinv s hs
    · obtain ⟨hs, -, heq⟩ := stakeOf_exact (flowInv_of_reachable hx.reachable) hstep hexact hs
      refine ⟨hs, ?_⟩
      rw [heq]
      simp only [World.stakeFee]
      rw [hfee]

/-- **What is collected is the fee on the delegated balances.** In every run with a fixed rate, each
delegation takes the fee of its whole balance, rounded down, and delegates the rest. What was ever
added to the collected fees is what the delegations have kept of their fees, so it is at most the
fee on the sum of their balances. -/
theorem fee_of_balances {f : Decimal}
    (h : AccountedWhere d (fun x a => FixedFee f x.1 ∧ a.DepositsExactly) x) :
    (∀ s ∈ x.2.stakes, s.Exact ∧ s.fee = s.balance * f.atomics / Decimal.fractional) ∧
      ∀ denom, x.2.added denom = x.2.sumStakes Stake.kept denom ∧
        x.2.added denom ≤
          x.2.sumStakes Stake.balance denom * f.atomics / Decimal.fractional := by
  have hstakes := stakes_of_accounted h
  refine ⟨hstakes, fun denom => ?_⟩
  have hkept := (ledgerInv_of_accounted h.accounted).kept denom
  refine ⟨hkept, ?_⟩
  have hterm : ∀ s ∈ x.2.stakes, (if s.denom = denom then s.kept else 0) ≤
      (if s.denom = denom then s.balance else 0) * f.atomics / Decimal.fractional := by
    intro s hs
    obtain ⟨hexact, hfee⟩ := hstakes s hs
    have hle := hexact.kept_le
    split_ifs
    · omega
    · exact Nat.zero_le _
  calc x.2.added denom = (x.2.stakes.map fun s => if s.denom = denom then s.kept else 0).sum :=
        hkept
    _ ≤ (x.2.stakes.map fun s =>
          (if s.denom = denom then s.balance else 0) * f.atomics / Decimal.fractional).sum :=
        List.sum_le_sum hterm
    _ = ((x.2.stakes.map fun s => if s.denom = denom then s.balance else 0).map fun balance =>
          balance * f.atomics / Decimal.fractional).sum := by
        rw [List.map_map]
        rfl
    _ ≤ x.2.sumStakes Stake.balance denom * f.atomics / Decimal.fractional :=
        Decimal.sum_mul_div_le _ _ _

/-! ## The fees that wait on the account -/

/-- A delegation leaves the fees that wait on the account. -/
def Stake.Reserved (s : Stake) : Prop := s.delegated + s.waiting ≤ s.balance

instance (s : Stake) : Decidable s.Reserved := inferInstanceAs (Decidable (_ ≤ _))

/-- The part of a fee that is neither delegated nor collected. -/
def World.uncollected (w : World) : ℕ := w.stakeFee - w.core.config.keeps w.stakeFee

/-- When a step delegates, the fees that were collected before it are paid, but for as much as the
step leaves on the account without collecting it. -/
def PaysFirst (d : Deployment) (x : World × Ledger) (a : Action) : Prop :=
  ∀ w', Step d x.1 a w' → ((x.1.submits w').bind Transaction.delegated).isSome = true →
    x.2.waiting x.1.core.config.remoteDenom ≤ x.1.uncollected

/-- **When a delegation leaves the waiting fees on the account.**

**Proof sketch.** The delegation takes the balance without the fee, so the waiting fees fit exactly
when they are no more than the fee. The fee itself waits as well, as far as it is collected. -/
theorem reserved_iff {a : Action} {s : Stake} (hinv : LedgerInv w l) (hflow : FlowInv d w)
    (hstep : Step d w a w') (hexact : a.DepositsExactly)
    (hs : w.stakeOf w' ((l.recordFees w a w').waiting w.core.config.remoteDenom) = some s) :
    s.Reserved ↔ l.waiting w.core.config.remoteDenom ≤ w.uncollected := by
  obtain ⟨hamounts, hexecutes, heq⟩ := stakeOf_exact hflow hstep hexact hs
  have hadded := ((step_fees hflow hstep).fees hinv.keyed
    ((l.recordFees w a w').waiting w.core.config.remoteDenom)).2 w.core.config.remoteDenom
  rw [hs] at hadded
  have hdenom : s.denom = w.core.config.remoteDenom := by rw [heq]
  have hbalance : s.balance = w.stakeBalance := by rw [heq]
  have hfee : s.fee = w.stakeFee := by rw [heq]
  have hkept : s.kept = w.core.config.keeps w.stakeFee := by rw [heq]
  have hwaiting : s.waiting = l.waiting w.core.config.remoteDenom + s.kept := by
    rw [heq]
    simp only [Ledger.recordFees, Ledger.paysOf, Ledger.pays, World.collects, hexecutes, hadded]
    simp [hdenom, hkept]
  have hle := hamounts.kept_le
  have hdelegated := hamounts.delegated
  unfold Stake.Reserved World.uncollected
  omega

/-- Whether a step delegates does not depend on what waits. -/
theorem isSome_stakeOf {n : ℕ} : (w.stakeOf w' n).isSome =
    ((w.submits w').bind Transaction.delegated).isSome := by
  rw [World.stakeOf, Option.isSome_map]

/-- **Collected fees stay reserved** exactly along the runs in which they are paid first: a state is
the end of a run whose delegations all leave the waiting fees on the account if and only if it is
the end of a run in which no fees wait when a step delegates.

**Proof sketch.** Forwards, each new delegation is reserved by the step equivalence. Backwards, all
delegations before a step are among those after it, and the step equivalence says that the new one
meets the condition. -/
theorem reserved_iff_paysFirst : (AccountedWhere d (fun _ a => a.DepositsExactly) x ∧
    ∀ s ∈ x.2.stakes, s.Reserved) ↔
      AccountedWhere d (fun x a => a.DepositsExactly ∧ PaysFirst d x a) x := by
  constructor
  · rintro ⟨⟨w₀, hinit, hrun⟩, hreserved⟩
    refine ⟨w₀, hinit, hrun.of_end (I := Accounted d) (P := fun x => ∀ s ∈ x.2.stakes, s.Reserved)
      (fun s a t hst hs => hs.tail hst) ?_ ⟨w₀, hinit, RunWhere.refl _⟩ hreserved⟩
    rintro x a ⟨w', l⟩ hx hexact ⟨hstep, hrecord⟩ hend
    obtain rfl : l = x.2.record x.1 a w' := hrecord
    refine ⟨fun s hs => hend s (mem_stakes_record.2 (.inl hs)), hexact, fun w'' hstep' hsome => ?_⟩
    obtain rfl : w'' = w' := Option.some.inj (hstep'.symm.trans hstep)
    rw [← isSome_stakeOf, Option.isSome_iff_exists] at hsome
    obtain ⟨s, hs⟩ := hsome
    exact (reserved_iff (ledgerInv_of_accounted hx) (flowInv_of_reachable hx.reachable) hstep
      hexact hs).1 (hend s (mem_stakes_record.2 (.inr hs)))
  · intro h
    refine ⟨?_, ?_⟩
    · obtain ⟨w₀, hinit, hrun⟩ := h
      exact ⟨w₀, hinit, hrun.mono fun _ _ ha => ha.1⟩
    · refine AccountedWhere.invariant (P := fun x => ∀ s ∈ x.2.stakes, s.Reserved) h ?_ ?_
      · intro w₀ _ s hs
        exact absurd hs List.not_mem_nil
      · rintro x a ⟨w', l⟩ hx ⟨hexact, hfirst⟩ ⟨hstep, hrecord⟩ hinv s hs
        obtain rfl : l = x.2.record x.1 a w' := hrecord
        rcases mem_stakes_record.1 hs with hs | hs
        · exact hinv s hs
        · refine (reserved_iff (ledgerInv_of_accounted hx) (flowInv_of_reachable hx.reachable)
            hstep hexact hs).2 (hfirst w' hstep ?_)
          rw [← isSome_stakeOf, hs]
          rfl

end Bases

/-! ## Deposits are charged -/

/-- What staking pays to the interchain account during one step: rewards, and tokens whose
unbonding has ended. -/
structure Income where
  rewards : ℕ
  released : ℕ

/-- The interchain account on the remote chain: its balance of the remote denomination, and all
rewards that it was ever paid. -/
structure Account where
  balance : ℕ
  rewards : ℕ

/-- The interchain account after a step, during which it is paid what staking pays. -/
def Account.record (d : Deployment) (account : Account) (w : World) (a : Action × Income) :
    Account where
  balance := account.balance + ((w.executes a.1).map (Transaction.brings d.baseDenom)).getD 0 +
    a.2.rewards + a.2.released -
      ((w.executes a.1).map (Transaction.takes w.core.config.remoteDenom)).getD 0
  rewards := account.rewards + a.2.rewards

/-- A query result tells the balance of the interchain account. -/
def Account.ReportedBy (account : Account) (denom : String) : Action → Prop
  | .delegationsAndBalance data => coinsOf data.balances denom = account.balance
  | _ => True

instance (account : Account) (denom : String) (a : Action) :
    Decidable (account.ReportedBy denom a) := by
  unfold Account.ReportedBy
  split <;> infer_instance

/-- A state of a run with its ledger and its interchain account. The rate of the fee is `f`, and the
query results tell the balance of the interchain account. -/
def AccountRun (d : Deployment) (f : Decimal) (x : World × Ledger × Account) : Prop :=
  ∃ w₀, Initial d w₀ ∧ RunWhere (Recorded (fun w (a : Action × Income) w' => Step d w a.1 w')
      fun (y : Ledger × Account) w a w' => (y.1.record w a.1 w', y.2.record d w a))
    (fun x a => FixedFee f x.1 ∧ a.1.DepositsExactly ∧
      x.2.2.ReportedBy x.1.core.config.remoteDenom a.1)
    (w₀, Ledger.empty, ⟨0, 0⟩) x

section Samples

open Sample

namespace Sample

/-- A second cycle of the deployment with a fee: after a claim, the 200 are delegated as well. -/
def restaked : List Action :=
  settled ++ [block 4 1040, tick, .deliver 3 .response, block 5 1045, remote 200 900, tick]

/-- The strategy of the sample deployment divides exactly. -/
theorem depositsExactly_answers (validators : List ValidatorInfo) :
    (answers validators).DepositsExactly := by
  intro amount plan hplan
  rw [← Except.ok.inj hplan]
  simp

/-- In the sample runs, every strategy divides exactly. -/
theorem depositsExactly_of_mem : ∀ a ∈ restaked, a.DepositsExactly := by
  simp only [restaked, settled, charged, setup, List.cons_append, List.nil_append,
    List.forall_mem_cons, Action.DepositsExactly, admin, bond, tick, tickWith, block, remote,
    depositsExactly_answers, true_and]
  exact fun _ hmem => absurd hmem List.not_mem_nil

/-- The first steps of the second cycle. -/
theorem charged_subset : charged ⊆ restaked := by
  simp [restaked, settled]

end Sample

/-- A run of the sample deployment that delegates 900 out of 1000. -/
theorem fee_of_balances_sample : ∃ x : World × Ledger, x.2.added "uatom" = 100 ∧
    (∀ s ∈ x.2.stakes, s.Exact) ∧ x.2.added "uatom" ≤
      x.2.sumStakes Stake.balance "uatom" * (Decimal.fractional / 10) / Decimal.fractional := by
  have hrun : (runList (World.execRecorded deployment)
      (fun x _ => decide (FixedFee ⟨Decimal.fractional / 10⟩ x.1))
      (initialFee, Ledger.empty) charged).any (fun x => decide (x.2.added "uatom" = 100)) =
        true := by
    decide
  obtain ⟨x, hrun, hadded⟩ := (Option.any_eq_true _ _).1 hrun
  have hx : AccountedWhere deployment
      (fun x a => FixedFee ⟨Decimal.fractional / 10⟩ x.1 ∧ a.DepositsExactly) x :=
    accountedWhere_of_runList initialFee_spec
      (fun _ a ha hfee => ⟨of_decide_eq_true hfee, depositsExactly_of_mem a (charged_subset ha)⟩)
      hrun
  obtain ⟨hstakes, hfees⟩ := fee_of_balances hx
  exact ⟨x, of_decide_eq_true hadded, fun s hs => (hstakes s hs).1, (hfees "uatom").2⟩

/-- **The fee is not charged on rewards only**: a bonded deposit is charged when it is delegated,
although the interchain account was never paid any rewards. -/
theorem fee_of_deposits : ¬ ∀ (d : Deployment) (f : Decimal) (x : World × Ledger × Account),
    AccountRun d f x → x.2.1.added x.1.core.config.remoteDenom ≤
      x.2.2.rewards * f.atomics / Decimal.fractional := by
  intro hall
  have hrun : (runList (fun (x : World × Ledger × Account) (a : Action × Income) =>
        (x.1.exec deployment a.1).map fun w =>
          (w, x.2.1.record x.1 a.1 w, x.2.2.record deployment x.1 a))
      (fun x a => decide (FixedFee ⟨Decimal.fractional / 10⟩ x.1 ∧
        x.2.2.ReportedBy x.1.core.config.remoteDenom a.1))
      (initialFee, Ledger.empty, ⟨0, 0⟩) (charged.map fun a => (a, ⟨0, 0⟩))).any
      (fun x => decide (x.2.1.added x.1.core.config.remoteDenom = 100 ∧ x.2.2.rewards = 0)) =
        true := by
    decide
  obtain ⟨x, hrun, hend⟩ := (Option.any_eq_true _ _).1 hrun
  obtain ⟨hadded, hrewards⟩ := of_decide_eq_true hend
  have hx : AccountRun deployment ⟨Decimal.fractional / 10⟩ x := by
    refine ⟨initialFee, initialFee_spec, runList_eq_some ?_ ?_ hrun⟩
    · intro x a y hstep
      obtain ⟨w, hw, rfl⟩ := Option.map_eq_some_iff.1 hstep
      exact ⟨hw, rfl⟩
    · intro x a ha hcheck
      obtain ⟨b, hb, rfl⟩ := List.mem_map.1 ha
      obtain ⟨hfee, hreported⟩ := of_decide_eq_true hcheck
      exact ⟨hfee, depositsExactly_of_mem b (charged_subset hb), hreported⟩
  have hle := hall deployment _ x hx
  rw [hadded, hrewards] at hle
  exact absurd hle (by decide)

/-- In the first cycle of the sample deployment, the waiting fee stays on the account. -/
example : ((runList (World.execRecorded deployment) (fun _ _ => true)
    (initialFee, Ledger.empty) charged).any fun x => decide (x.2.stakes.map
      (fun s => (s.balance, s.delegated, s.waiting)) = [(1000, 900, 100)])) = true := by
  decide

/-- **Collected fees are delegated**: the fee of the first cycle is still on the account when the
second cycle delegates the whole balance. -/
theorem fees_delegated : ¬ ∀ (d : Deployment) (x : World × Ledger),
    AccountedWhere d (fun _ a => a.DepositsExactly) x → ∀ s ∈ x.2.stakes, s.Reserved := by
  intro hall
  have hrun : (runList (World.execRecorded deployment) (fun _ _ => true)
      (initialFee, Ledger.empty) restaked).any
      (fun x => decide (∃ s ∈ x.2.stakes, ¬ s.Reserved)) = true := by
    decide
  obtain ⟨x, hrun, hcheck⟩ := (Option.any_eq_true _ _).1 hrun
  obtain ⟨s, hs, hnot⟩ := of_decide_eq_true hcheck
  have hx : AccountedWhere deployment (fun _ a => a.DepositsExactly) x :=
    accountedWhere_of_runList initialFee_spec (fun _ a ha _ => depositsExactly_of_mem a ha) hrun
  exact hnot (hall deployment x hx s hs)

end Samples

end System

end DropContracts
