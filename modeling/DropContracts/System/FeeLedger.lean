import DropContracts.Core.Fees
import DropContracts.System.Bank
import DropContracts.System.Undelegations

set_option relaxedAutoImplicit false
set_option autoImplicit false

/-!
# The ledger of the fees

What was ever collected and what was ever paid is not stored anywhere, so runs are followed
together with a ledger that records it: what is collected when a delegation is submitted, and what
is paid when a transfer is executed, from its items. Nothing takes the fees that a transfer has
paid out of `COLLECTED_FEES`, so the next transfer pays them again.

## Main definitions

* `System.World.submits`, `System.World.executes` — the transaction that a step submits, and the one
  that it executes on the remote chain.
* `System.World.rewardItems` — the items of a transfer before those made of the fees.
* `System.Stake`, `System.Ledger`, `System.Ledger.record` — a delegation, the ledger, and what a
  step adds to it.
* `System.Ledger.pays` — the fee items of the transfer that a step executes.
* `System.AccountedWhere`, `System.Accounted` — the states of runs with their ledgers.
* `System.LedgerInv` — the ledger agrees with the collected fees.
* `System.PaysOnce` — the steps that do not pay after a payment.

## Main results

* `System.step_fees`, `System.FeeStep.fees` — a step delegates and collects the fee, or leaves the
  collected fees alone.
* `System.LedgerInv.step`, `System.ledgerInv_of_accounted` — every step keeps the agreement.
* `System.paid_le_added` — along runs of such steps, no more is paid than was collected.
* `System.paysOnce_iff` — and only along those.
-/

namespace DropContracts

/-- Whether a transaction pays rewards and fees out. -/
def Transaction.isTransfer : Transaction → Bool
  | .transfer _ _ => true
  | _ => false

/-- What a transaction delegates in all, if it delegates. -/
def Transaction.delegated : Transaction → Option ℕ
  | .delegate _ _ items => some (items.map Prod.snd).sum
  | _ => none

namespace System

/-! ## The ledger -/

/-- The transaction that is submitted between two worlds. -/
def World.submits (w w' : World) : Option Transaction :=
  (w'.submitted w.nextSeq).map Packet.transaction

/-- The transaction that a step executes on the remote chain. -/
def World.executes (w : World) : Action → Option Transaction
  | .deliver seq .response => (w.inFlight.find? fun p => p.seq = seq).map Packet.transaction
  | _ => none

/-- The balance of the interchain account that a delegation is computed from. -/
def World.stakeBalance (w : World) : ℕ :=
  Core.icaBalance (Puppeteer.queryBalances w.puppeteer) w.core.config.remoteDenom

/-- The fee on that balance. -/
def World.stakeFee (w : World) : ℕ :=
  w.stakeBalance * (w.core.config.fee.getD Decimal.zero).atomics / Decimal.fractional

/-- A delegation: its denomination; the balance that it was computed from, and the fee on it; the
part of the fee that was collected; what the message delegates; and the fees that were collected
and not yet paid right after it. -/
structure Stake where
  denom : String
  balance : ℕ
  fee : ℕ
  kept : ℕ
  delegated : ℕ
  waiting : ℕ

/-- The delegation that a step submits. -/
def World.stakeOf (w w' : World) (waiting : ℕ) : Option Stake :=
  ((w.submits w').bind Transaction.delegated).map fun delegated =>
    ⟨w.core.config.remoteDenom, w.stakeBalance, w.stakeFee, w.core.config.keeps w.stakeFee,
      delegated, waiting⟩

/-- The rewards that a transfer of this state lists before the collected fees. -/
def World.rewardItems (w : World) : List (String × Coin) :=
  match w.core.nonNativeRewardsConfig, Puppeteer.queryNonNativeRewardsBalances w.puppeteer with
  | some receivers, .ok balances =>
    ((Core.allRewardItems balances.1 receivers).toOption).getD []
  | _, _ => []

/-- What was recorded along a run: for each denomination, the amounts added to `COLLECTED_FEES`,
the amounts that executed transfers paid in items made of it, and the amounts that were added and
not paid yet; the number of rewards in the last submitted transfer; and all delegations. -/
structure Ledger where
  added : String → ℕ
  paid : String → ℕ
  waiting : String → ℕ
  rewards : ℕ
  stakes : List Stake

/-- The ledger of a run that has not begun. -/
def Ledger.empty : Ledger where
  added := fun _ => 0
  paid := fun _ => 0
  waiting := fun _ => 0
  rewards := 0
  stakes := []

/-- The items made of the collected fees in the transfer that a step executes: those after the
rewards. -/
def Ledger.pays (l : Ledger) (w : World) (a : Action) : List (String × Coin) :=
  match w.executes a with
  | some (.transfer _ items) => items.drop l.rewards
  | _ => []

/-- What these items pay in one denomination. -/
def Ledger.paysOf (l : Ledger) (w : World) (a : Action) (denom : String) : ℕ :=
  coinsOf ((l.pays w a).map Prod.snd) denom

/-- What a step adds to the collected fees of one denomination. -/
def World.collects (w w' : World) (denom : String) : ℕ :=
  Core.feesOf w'.core.collectedFees denom - Core.feesOf w.core.collectedFees denom

/-- The sum of `f` over the delegations of one denomination. -/
def Ledger.sumStakes (l : Ledger) (f : Stake → ℕ) (denom : String) : ℕ :=
  (l.stakes.map fun stake => if stake.denom = denom then f stake else 0).sum

/-- The ledger after a step, without the delegation that the step may submit. What is paid beyond
what waits does not count against what is collected later. -/
def Ledger.recordFees (l : Ledger) (w : World) (a : Action) (w' : World) : Ledger where
  added := fun denom => l.added denom + w.collects w' denom
  paid := fun denom => l.paid denom + l.paysOf w a denom
  waiting := fun denom => l.waiting denom - l.paysOf w a denom + w.collects w' denom
  rewards := if (w.submits w').any Transaction.isTransfer then w.rewardItems.length
    else l.rewards
  stakes := l.stakes

/-- What a step adds to the ledger. -/
def Ledger.record (l : Ledger) (w : World) (a : Action) (w' : World) : Ledger :=
  { l.recordFees w a w' with
    stakes := l.stakes ++
      (w.stakeOf w' ((l.recordFees w a w').waiting w.core.config.remoteDenom)).toList }

/-- A state and ledger of some run whose steps all satisfy `ok`. -/
def AccountedWhere (d : Deployment) (ok : World × Ledger → Action → Prop) (x : World × Ledger) :
    Prop :=
  ∃ w₀, Initial d w₀ ∧ RunWhere (Recorded (Step d) Ledger.record) ok (w₀, Ledger.empty) x

/-- A state and ledger of some run. -/
def Accounted (d : Deployment) (x : World × Ledger) : Prop := AccountedWhere d (fun _ _ => True) x

section Ledgers

variable {d : Deployment} {w w' : World} {l : Ledger} {x y : World × Ledger}
  {ok : World × Ledger → Action → Prop}

/-- A state with a ledger is reachable. -/
theorem AccountedWhere.reachable (h : AccountedWhere d ok x) : Reachable d x.1 := by
  obtain ⟨w₀, hinit, hrun⟩ := h
  exact ⟨w₀, hinit, hrun.forget⟩

/-- A state of a run under a condition is a state of a run. -/
theorem AccountedWhere.accounted (h : AccountedWhere d ok x) : Accounted d x := by
  obtain ⟨w₀, hinit, hrun⟩ := h
  exact ⟨w₀, hinit, hrun.run⟩

/-- **Every reachable state has a ledger.** -/
theorem exists_accounted (h : Reachable d w) : ∃ l, Accounted d (w, l) := by
  obtain ⟨w₀, hinit, hrun⟩ := h
  have hrecorded : ∃ l, RunWhere (Recorded (Step d) Ledger.record) (fun _ _ => True)
      (w₀, Ledger.empty) (w, l) := RunWhere.recorded hrun Ledger.empty
  obtain ⟨l, hrecorded⟩ := hrecorded
  exact ⟨l, w₀, hinit, hrecorded⟩

/-- A step from a state with its ledger leads to a state with its ledger. -/
theorem Accounted.tail (h : Accounted d x) {a : Action}
    (hstep : Recorded (Step d) Ledger.record x a y) : Accounted d y := by
  obtain ⟨w₀, hinit, hrun⟩ := h
  exact ⟨w₀, hinit, hrun.tail trivial hstep⟩

/-- **The invariant rule**: what holds initially and is preserved by every allowed step holds of
every state and ledger that allowed steps reach. -/
theorem AccountedWhere.invariant {P : World × Ledger → Prop} (h : AccountedWhere d ok x)
    (hinitial : ∀ w₀, Initial d w₀ → P (w₀, Ledger.empty))
    (hstep : ∀ s a t, Accounted d s → ok s a → Recorded (Step d) Ledger.record s a t → P s →
      P t) : P x := by
  obtain ⟨w₀, hinit, hrun⟩ := h
  exact hrun.preserves_of (I := Accounted d) (P := P) (fun s a t hst hs => hs.tail hst) hstep
    ⟨w₀, hinit, RunWhere.refl _⟩ (hinitial w₀ hinit)

/-! ## What a step does to the fees -/

/-- A step after which nothing else is in flight submits nothing. -/
theorem submits_eq_none (hflow : FlowInv d w) (h : ∀ p ∈ w'.inFlight, p ∈ w.inFlight) :
    w.submits w' = none := by
  have hnone : w'.submitted w.nextSeq = none := by
    refine List.find?_eq_none.2 fun p hp => ?_
    have hlt := hflow.seq_lt p (h p hp)
    simp only [decide_eq_true_eq, not_le]
    exact hlt
  rw [World.submits, hnone]
  rfl

/-- A submission submits its transaction. -/
theorem submits_of_submission (hflow : FlowInv d w) {info : MessageInfo}
    {msg : PuppeteerExecuteMsg} {p : Packet} (hsub : Submission w w' info msg p) :
    w.submits w' = some p.transaction := by
  have hfound : w'.submitted w.nextSeq = some p := by
    rw [World.submitted, hflow.inFlight_of_submission hsub, List.find?_cons, hsub.seq]
    simp
  rw [World.submits, hfound]
  rfl

/-- A step that delegates is a tick, which takes the fee of the reported balance, and collects
it. -/
structure StepStakes (w : World) (a : Action) (w' : World) (toDelegate : List IdealDelegation) :
    Prop where
  tick : ∃ answers sender funds, a = .execute answers sender funds .tick ∧
    answers.calcDeposit (w.stakeBalance - w.stakeFee) = .ok toDelegate
  fee_le : w.stakeFee ≤ w.stakeBalance
  collected : ∃ s s' : Core.Storage, s.collectedFees = w.core.collectedFees ∧
    s'.collectedFees = w'.core.collectedFees ∧
    Core.collectFee s w.core.config w.stakeFee = .ok s'
  submits : ∃ account denom, w.submits w' = some (.delegate account denom
    (toDelegate.map fun d => (d.valoperAddress, d.stakeChange)))

/-- What a step does to the fees and to the packets: it submits nothing, or something that does
not delegate, or it delegates. -/
inductive FeeStep (w : World) (a : Action) (w' : World) : Prop
  | silent (hfees : w'.core.collectedFees = w.core.collectedFees) (hsubmits : w.submits w' = none)
      (hinFlight : ∀ p ∈ w'.inFlight, p ∈ w.inFlight)
  | submit (p : Packet) (hfees : w'.core.collectedFees = w.core.collectedFees)
      (hsubmits : w.submits w' = some p.transaction) (hnil : w.inFlight = [])
      (hinFlight : w'.inFlight = [p]) (hdelegate : p.transaction.delegated = none)
      (hitems : ∀ account items, p.transaction = .transfer account items →
        items = w.rewardItems ++ w.core.feeItems)
  | stake (p : Packet) (toDelegate : List IdealDelegation)
      (hsubmits : w.submits w' = some p.transaction) (hnil : w.inFlight = [])
      (hinFlight : w'.inFlight = [p]) (hstakes : StepStakes w a w' toDelegate)

/-- A submission of a tick: the puppeteer is asked for the packet, and it is the only one. -/
theorem step_fees_of_submission {answers : Answers} {sender : String} {funds msgFunds : List Coin}
    {bank : Bank} {msg : PuppeteerExecuteMsg} {p : Packet} (hflow : FlowInv d w)
    (htick : Core.executeTick w.core (({ w with bank := bank } : World).querier d answers)
      (w.env d) ⟨sender, funds⟩ =
        .ok (w'.core, [.puppeteer w.core.config.puppeteerContract msg msgFunds]))
    (hsub : Submission w w' ⟨d.core, msgFunds⟩ msg p) :
    FeeStep w (.execute answers sender funds .tick) w' := by
  have hsubmits := submits_of_submission hflow hsub
  have hnil := hflow.inFlight_eq_nil hsub.idle
  have hinFlight := hflow.inFlight_of_submission hsub
  obtain ⟨ica, replyTo, -, hrequests, -⟩ := hsub.requested
  rcases Core.executeTick_stakes htick with ⟨hfees, hnot⟩ | ⟨balances, fee, toDelegate, hstakes⟩
  · refine .submit p hfees hsubmits hnil hinFlight ?_ fun account items htx => ?_
    · generalize p.transaction = transaction at hrequests
      cases hrequests with
      | delegate items timeout =>
        exact absurd ⟨_, _, _, _, _, List.mem_singleton_self _⟩ hnot
      | _ => rfl
    · rw [htx] at hrequests
      cases hrequests
      obtain ⟨receivers, balances, rewards, hreceivers, hbalances, hrewards, rfl⟩ :=
        Core.executeTick_transfers htick
      have hbalances' : Puppeteer.queryNonNativeRewardsBalances w.puppeteer = .ok balances :=
        hbalances
      simp only [World.rewardItems, hreceivers, hbalances', hrewards, Except.toOption,
        Option.getD_some]
  · have hmsgs := hstakes.msgs_eq
    injection hmsgs with hmsg
    injection hmsg with _ hmsg _
    subst hmsg
    have hbalances : balances = Puppeteer.queryBalances w.puppeteer :=
      (Except.ok.inj hstakes.known).symm
    have hfee : fee = w.stakeFee := by
      rw [hstakes.fee_eq, hbalances]
      rfl
    have hasked := hstakes.asked
    have hle := hstakes.fee_le
    have hcollected := hstakes.collected
    rw [hfee, hbalances] at hasked hle
    rw [hfee] at hcollected
    generalize htx : p.transaction = transaction at hrequests
    cases hrequests
    have hdelegates : ∃ account denom, w.submits w' = some (.delegate account denom
        (toDelegate.map fun d => (d.valoperAddress, d.stakeChange))) := by
      rw [hsubmits, htx]
      exact ⟨_, _, rfl⟩
    exact .stake p toDelegate hsubmits hnil hinFlight
      ⟨⟨answers, sender, funds, rfl, hasked⟩, hle, hcollected, hdelegates⟩

/-- **Every step is one of these.** -/
theorem step_fees {a : Action} (hflow : FlowInv d w) (hstep : Step d w a w') :
    FeeStep w a w' := by
  have hsilent : w'.core.collectedFees = w.core.collectedFees →
      (∀ p ∈ w'.inFlight, p ∈ w.inFlight) → FeeStep w a w' := fun hfees hinFlight =>
    .silent hfees (submits_eq_none hflow hinFlight) hinFlight
  have hsame : SameFlow w w' → ∀ p ∈ w'.inFlight, p ∈ w.inFlight := by
    intro hsame p hp
    rwa [← hsame.inFlight]
  cases step_cases hflow.wired hstep with
  | environment _ _ henvironment hcore hflow' =>
    exact hsilent (by rw [hcore.core]) (hsame hflow')
  | foreign _ _ _ _ _ p hsender hsub => exact absurd hsub (hflow.not_foreign hsender)
  | bond answers sender funds receiver q core msgs _ hq hbond hcore _ _ hflow' =>
    exact hsilent (by rw [hcore, Core.executeBond_fees hbond]) (hsame hflow')
  | unbond answers sender funds q bank core msgs _ _ _ hunbond hcore _ _ _ _ _ hflow' =>
    obtain ⟨batch, item, -, rfl⟩ := Core.executeUnbond_saves hunbond
    exact hsilent (by rw [hcore]; rfl) (hsame hflow')
  | admin answers sender funds msg core _ hmsg hadmin _ hwired hcore _ _ hflow' =>
    refine hsilent ?_ (hsame hflow')
    rw [hcore]
    cases hadmin <;> rfl
  | tick answers sender funds q bank core _ hbank hq htick hcore _ _ hflow' =>
    refine hsilent ?_ (hsame hflow')
    rcases Core.executeTick_stakes htick with ⟨hfees, -⟩ | ⟨_, _, _, hstakes⟩
    · rw [hcore, hfees]
    · cases hstakes.msgs_eq
  | tickSubmit answers sender funds q bank core msg msgFunds _ p hbank hq htick hcore _ _ hsub =>
    rw [hq, ← hcore] at htick
    exact step_fees_of_submission hflow htick hsub
  | accepted seq outcome p txState transaction core _ hp htx hwaiting htrans hhook hcore _ _
      hinFlight =>
    refine hsilent (by rw [hcore, Core.hook_fees hhook]) fun p' hp' => ?_
    rw [hinFlight] at hp'
    exact List.mem_of_mem_filter hp'
  | refused seq outcome p _ hp hrefused hcore hinFlight =>
    refine hsilent (by rw [hcore.core]) fun p' hp' => ?_
    rw [hinFlight] at hp'
    exact List.mem_of_mem_filter hp'

/-- **What a step adds** to the collected fees is the kept fee of the delegation that it submits. -/
theorem FeeStep.fees {a : Action} (h : FeeStep w a w')
    (hkeyed : Core.FeesKeyed w.core.collectedFees) (waiting : ℕ) :
    Core.FeesKeyed w'.core.collectedFees ∧ ∀ denom, Core.feesOf w'.core.collectedFees denom =
      Core.feesOf w.core.collectedFees denom + ((w.stakeOf w' waiting).toList.map fun stake =>
        if stake.denom = denom then stake.kept else 0).sum := by
  cases h with
  | silent hfees hsubmits => simp [hfees, World.stakeOf, hsubmits, hkeyed]
  | submit p hfees hsubmits _ _ hdelegate =>
    simp [hfees, World.stakeOf, hsubmits, hdelegate, hkeyed]
  | stake p toDelegate _ _ _ hstakes =>
    obtain ⟨s, s', hs, hs', hcollected⟩ := hstakes.collected
    obtain ⟨account, remote, hsubmits⟩ := hstakes.submits
    rw [← hs] at hkeyed ⊢
    rw [← hs']
    obtain ⟨hkeyed', hfees⟩ := Core.collectFee_fees hcollected hkeyed
    refine ⟨hkeyed', fun denom => ?_⟩
    rw [hfees denom]
    simp [World.stakeOf, hsubmits, Transaction.delegated, eq_comm]

/-! ## The ledger and the collected fees -/

/-- The items made of the collected fees carry what is collected. -/
theorem coinsOf_feeItems (s : Core.Storage) (denom : String) :
    coinsOf (s.feeItems.map Prod.snd) denom = Core.feesOf s.collectedFees denom := by
  rw [coinsOf, Core.Storage.feeItems, List.map_map, List.map_map]
  rfl

/-- **The ledger agrees with the storage**: what was added is what is stored there and what the
delegations have kept, and a transfer in flight carries all of it after the rewards. -/
structure LedgerInv (w : World) (l : Ledger) : Prop where
  keyed : Core.FeesKeyed w.core.collectedFees
  added : ∀ denom, l.added denom = Core.feesOf w.core.collectedFees denom
  kept : ∀ denom, l.added denom = l.sumStakes Stake.kept denom
  inFlight : ∀ p ∈ w.inFlight, ∀ account items, p.transaction = .transfer account items →
    items.drop l.rewards = w.core.feeItems

/-- Initially nothing is collected and nothing is in flight. -/
theorem ledgerInv_initial {w₀ : World} (h : Initial d w₀) : LedgerInv w₀ Ledger.empty := by
  obtain ⟨config, owner, hcore⟩ := h.core
  have hfees : w₀.core.collectedFees = StorageMap.empty := by rw [hcore]; rfl
  refine ⟨?_, ?_, fun _ => rfl, ?_⟩
  · intro key item hload
    simp [hfees] at hload
  · intro denom
    simp [hfees, Core.feesOf, Ledger.empty]
  · simp [h.inFlight]

/-- The sum over the delegations after a step. -/
theorem sumStakes_record {a : Action} (f : Stake → ℕ) (denom : String) :
    (l.record w a w').sumStakes f denom = l.sumStakes f denom +
      ((w.stakeOf w' ((l.record w a w').waiting w.core.config.remoteDenom)).toList.map fun stake =>
        if stake.denom = denom then f stake else 0).sum := by
  rw [Ledger.sumStakes, Ledger.sumStakes, ← List.sum_append, ← List.map_append]
  rfl

/-- **Every step keeps the agreement.**

**Proof sketch.** What a step adds to the collected fees is what the delegation that it submits
has kept. A transfer that is submitted is made of the collected fees; while it is in flight no
other packet is submitted, so nothing delegates and the collected fees stay. -/
theorem LedgerInv.step {a : Action} (h : LedgerInv w l) (hflow : FlowInv d w)
    (hstep : Step d w a w') : LedgerInv w' (l.record w a w') := by
  have hfees := step_fees hflow hstep
  obtain ⟨hkeyed, hadded⟩ := hfees.fees h.keyed
    ((l.record w a w').waiting w.core.config.remoteDenom)
  have hrecord : ∀ denom, (l.record w a w').added denom = l.added denom +
      (Core.feesOf w'.core.collectedFees denom - Core.feesOf w.core.collectedFees denom) :=
    fun _ => rfl
  refine ⟨hkeyed, fun denom => ?_, fun denom => ?_, ?_⟩
  · have hold := h.added denom
    have hnew := hadded denom
    rw [hrecord]
    omega
  · have hold := h.kept denom
    have hnew := hadded denom
    rw [sumStakes_record, hrecord]
    omega
  · intro p hp account items htx
    cases hfees with
    | silent hsame hsubmits hinFlight =>
      have hkept : (l.record w a w').rewards = l.rewards := by
        simp [Ledger.record, Ledger.recordFees, hsubmits]
      rw [hkept, Core.Storage.feeItems, hsame]
      exact h.inFlight p (hinFlight p hp) account items htx
    | submit p' hsame hsubmits hnil hinFlight hdelegate hitems =>
      rw [hinFlight, List.mem_singleton] at hp
      subst hp
      have hnew : (l.record w a w').rewards = w.rewardItems.length := by
        simp [Ledger.record, Ledger.recordFees, hsubmits, htx, Transaction.isTransfer]
      rw [hnew, hitems account items htx, List.drop_left, Core.Storage.feeItems,
        Core.Storage.feeItems, hsame]
    | stake p' toDelegate hsubmits hnil hinFlight hstakes =>
      rw [hinFlight, List.mem_singleton] at hp
      subst hp
      obtain ⟨_, _, hdelegate⟩ := hstakes.submits
      rw [hsubmits, htx] at hdelegate
      cases hdelegate

/-- **Every state of a run agrees with its ledger.** -/
theorem ledgerInv_of_accounted (h : Accounted d x) : LedgerInv x.1 x.2 := by
  refine AccountedWhere.invariant (P := fun x => LedgerInv x.1 x.2) h
    (fun w₀ hinit => ledgerInv_initial hinit) ?_
  rintro s a ⟨t, l⟩ hs - ⟨hst, hrecord⟩ hinv
  obtain rfl : l = s.2.record s.1 a t := hrecord
  exact hinv.step (flowInv_of_reachable hs.reachable) hst

/-! ## Paying the fees -/

/-- A transfer that is executed pays no fees of a denomination in which one has paid before. -/
def PaysOnce (x : World × Ledger) (a : Action) : Prop :=
  ∀ item ∈ x.2.pays x.1 a, item.2.amount = 0 ∨ x.2.paid item.2.denom = 0

instance (x : World × Ledger) (a : Action) : Decidable (PaysOnce x a) :=
  inferInstanceAs (Decidable (∀ item ∈ x.2.pays x.1 a, _))

/-- **A step that pays** executes a transfer that carries all that was ever collected, and collects
nothing. -/
theorem pays_cases {a : Action} (h : LedgerInv w l) (hflow : FlowInv d w)
    (hstep : Step d w a w') : l.pays w a = [] ∨
      l.pays w a = w.core.feeItems ∧ w'.core.collectedFees = w.core.collectedFees := by
  unfold Ledger.pays
  split
  next account items hexecutes =>
    cases a with
    | deliver seq outcome =>
      cases outcome with
      | response =>
        obtain ⟨p, hfound, htx⟩ := Option.map_eq_some_iff.1 hexecutes
        refine .inr ⟨h.inFlight p (List.mem_of_find?_eq_some hfound) account items htx, ?_⟩
        cases step_fees hflow hstep with
        | silent hfees => exact hfees
        | submit p' hfees => exact hfees
        | stake p' toDelegate _ _ _ hstakes =>
          obtain ⟨_, _, _, heq, -⟩ := hstakes.tick
          cases heq
      | _ => cases hexecutes
    | _ => cases hexecutes
  · exact .inl rfl

/-- **What a step may pay.** From a state in which no more was paid than was added, a step leads to
another such state exactly when it does not pay twice.

**Proof sketch.** An executed transfer pays all that was ever added, so that after it no more was
paid than was added exactly when nothing was paid before. What was paid before in a denomination
was added before, so the transfer carries it again. -/
theorem paysOnce_iff {a : Action} (h : LedgerInv w l) (hflow : FlowInv d w)
    (hstep : Step d w a w') (hle : ∀ denom, l.paid denom ≤ l.added denom) :
    (∀ denom, (l.record w a w').paid denom ≤ (l.record w a w').added denom) ↔
      PaysOnce (w, l) a := by
  rcases pays_cases h hflow hstep with hnone | ⟨hpays, hfees⟩
  · refine iff_of_true (fun denom => ?_) fun item hitem => ?_
    · have hbefore := hle denom
      simp only [Ledger.record, Ledger.recordFees, Ledger.paysOf, hnone, List.map_nil,
        coinsOf_nil]
      omega
    · rw [hnone] at hitem
      cases hitem
  · have hdue : ∀ denom, l.paysOf w a denom = l.added denom := by
      intro denom
      rw [Ledger.paysOf, hpays, coinsOf_feeItems, h.added denom]
    have honce : PaysOnce (w, l) a ↔ ∀ denom, l.paysOf w a denom = 0 ∨ l.paid denom = 0 := by
      constructor
      · intro honce denom
        by_cases hpaid : l.paid denom = 0
        · exact .inr hpaid
        · refine .inl (coinsOf_eq_zero.2 fun coin hcoin hdenom => ?_)
          obtain ⟨item, hitem, rfl⟩ := List.mem_map.1 hcoin
          have hcase := honce item hitem
          rw [hdenom] at hcase
          exact hcase.resolve_right hpaid
      · intro hall item hitem
        refine (hall item.2.denom).imp_left fun hdue => ?_
        exact coinsOf_eq_zero.1 hdue item.2 (List.mem_map_of_mem hitem) rfl
    rw [honce]
    refine forall_congr' fun denom => ?_
    have hbefore := hle denom
    have hpaid := hdue denom
    simp only [Ledger.record, Ledger.recordFees, World.collects, hfees, Nat.sub_self]
    omega

/-- **Fees are paid at most once** along every run in which no transfer that pays fees succeeds
after one in the same denomination: in every denomination, the successful transfers never pay
more than what the delegations have collected. -/
theorem paid_le_added (h : AccountedWhere d PaysOnce x) (denom : String) :
    x.2.paid denom ≤ x.2.added denom := by
  refine AccountedWhere.invariant (P := fun x => ∀ denom, x.2.paid denom ≤ x.2.added denom) h
    (fun _ _ _ => le_rfl) ?_ denom
  rintro s a ⟨t, l⟩ hs honce ⟨hst, hrecord⟩ hle
  obtain rfl : l = s.2.record s.1 a t := hrecord
  exact (paysOnce_iff (ledgerInv_of_accounted hs) (flowInv_of_reachable hs.reachable) hst hle).2
    honce

end Ledgers

/-! ### Evaluated runs with their ledgers -/

/-- The world and the ledger after a step, if the step can be taken. -/
def World.execRecorded (d : Deployment) (x : World × Ledger) (a : Action) :
    Option (World × Ledger) :=
  (x.1.exec d a).map fun w => (w, x.2.record x.1 a w)

/-- An evaluated list of steps is a run with its ledger. -/
theorem accountedWhere_of_runList {d : Deployment} {w₀ : World} {x : World × Ledger}
    {ok : World × Ledger → Action → Prop} {check : World × Ledger → Action → Bool}
    {actions : List Action} (hinit : Initial d w₀)
    (hcheck : ∀ x, ∀ a ∈ actions, check x a = true → ok x a)
    (h : runList (World.execRecorded d) check (w₀, Ledger.empty) actions = some x) :
    AccountedWhere d ok x := by
  refine ⟨w₀, hinit, runList_eq_some ?_ hcheck h⟩
  exact fun _ _ _ hst => Recorded.of_map (fun _ _ _ hw => hw) hst

section Samples

open Sample

namespace Sample

/-- The configuration of core with a fee of one tenth. -/
def feeConfig : Core.Config :=
  { config with fee := some ⟨Decimal.fractional / 10⟩, feeAddress := some "fee" }

/-- The system right after instantiation, with a fee. -/
def initialFee : World := { initial with core := Core.instantiate feeConfig "admin" 1000 }

/-- The deployment with a fee is an initial state. -/
theorem initialFee_spec : Initial deployment initialFee where
  core := ⟨feeConfig, "admin", rfl⟩
  wired := by decide
  puppeteer := ⟨puppeteerConfig, rfl⟩
  allowedSenders := rfl
  supply := rfl
  vouchers := rfl
  inFlight := rfl
  channel := rfl
  time := by decide

/-- A bond of 1000 is transferred and delegated. -/
def charged : List Action :=
  setup ++ [bond 1000, block 2 1020, tick, .deliver 1 .response, block 3 1025, remote 1000 0, tick]

/-- Then 200 are on the account. -/
def settled : List Action := charged ++ [.deliver 2 .response, remote 200 900, tick]

/-- A tick within the interval, whose transfer succeeds. -/
def payout (seq : ℕ) : List Action := [.nonNativeRewardsBalances [], tick, .deliver seq .response]

end Sample

/-- A run of the sample deployment that pays the collected fee once. -/
theorem paid_le_added_sample : ∃ x : World × Ledger, x.2.paid "uatom" = 100 ∧
    x.2.paid "uatom" ≤ x.2.added "uatom" := by
  have hrun : (runList (World.execRecorded deployment) (fun x a => decide (PaysOnce x a))
      (initialFee, Ledger.empty) (settled ++ payout 3)).any
      (fun x => decide (x.2.paid "uatom" = 100)) = true := by
    decide
  obtain ⟨x, hrun, hpaid⟩ := (Option.any_eq_true _ _).1 hrun
  have hx : AccountedWhere deployment PaysOnce x :=
    accountedWhere_of_runList initialFee_spec (fun _ _ _ => of_decide_eq_true) hrun
  exact ⟨x, of_decide_eq_true hpaid, paid_le_added hx "uatom"⟩

/-- **A fee is paid again**: after a transfer has succeeded, the next one carries the same fees. -/
theorem fee_paid_twice : ¬ ∀ (d : Deployment) (x : World × Ledger), Accounted d x →
    ∀ denom, x.2.paid denom ≤ x.2.added denom := by
  intro hall
  have hrun : (runList (World.execRecorded deployment) (fun _ _ => true)
      (initialFee, Ledger.empty) (settled ++ payout 3 ++ payout 4)).any
      (fun x => decide (x.2.added "uatom" < x.2.paid "uatom")) = true := by
    decide
  obtain ⟨x, hrun, hpaid⟩ := (Option.any_eq_true _ _).1 hrun
  have hx : Accounted deployment x :=
    accountedWhere_of_runList initialFee_spec (fun _ _ _ _ => trivial) hrun
  exact absurd (hall deployment x hx "uatom") (not_le.2 (of_decide_eq_true hpaid))

end Samples

end System

end DropContracts
