import DropContracts.Core.Payout
import DropContracts.Core.Redemption
import DropContracts.Core.Refusals
import DropContracts.System.Liveness
import DropContracts.System.Settlement
import DropContracts.System.Snapshots

set_option relaxedAutoImplicit false
set_option autoImplicit false

/-!
# Batches can be withdrawn

What is unbonding does not stay there. From `Idle`, once the batches that are unbonding have been
released and the puppeteer has been told the state of the interchain account, the upkeep brings
every one of them to its end, and core back to `Idle`.

## Main definitions

* `System.World.reportedAt` — the world after a block in which a report arrives.
* `System.Releasable` — what the next claim and the ticks after it need.
* `System.Covered` — the account can pay for everything that is unbonding.

## Main results

* `Core.executeTick_claims` — an idle tick that claims.
* `System.withdrawn_of_idle` — in `Idle`, a payout that has succeeded has been processed.
* `System.unbonding_can_be_withdrawn` — unbonding batches can be withdrawn.
-/

namespace DropContracts

open Exec

/-! ## The tick that claims -/

namespace Core

/-- The batches of a list have been handed to the payout between two storages: in full when the
balance covers what they expect together. -/
structure HandedOver (s s' : Storage) (balance : ℕ) (batches : List (ℕ × UnbondBatch))
    (transfer : Option TransferReadyBatchesMsg) : Prop where
  listed : listedBatches transfer = batches.map Prod.fst
  marked : ∃ emergency, ∀ e ∈ batches, ∃ b, s'.unbondBatches.load e.1 = some b ∧
    b.status = withdrawingStatus emergency
  full : (batches.map fun e => e.2.expectedAmount).sum ≤ balance → ∀ e ∈ batches,
    s'.unbondBatches.load e.1 = some (e.2.withdraw e.2.expectedAmount Decimal.one)
  paid : transfer.elim 0 TransferReadyBatchesMsg.amount =
    min balance (batches.map fun e => e.2.expectedAmount).sum
  frame : ∀ id, id ∉ batches.map Prod.fst → s'.unbondBatches.load id = s.unbondBatches.load id
  nextBatchId : s'.nextBatchId = s.nextBatchId
  collectedFees : s'.collectedFees = s.collectedFees

section Claim

variable {s t : Storage} {q : Querier} {env : Env} {config : Config} {pumpAddress : String}
  {balance : ℕ} {batches : List (ℕ × UnbondBatch)} {transfer : Option TransferReadyBatchesMsg}

/-- A balance that covers the batches pays each of them in full. -/
theorem markReadyBatches_covered
    (hcovered : (batches.map fun e => e.2.expectedAmount).sum ≤ balance)
    (h : markReadyBatches s config pumpAddress balance batches = .ok (t, transfer)) :
    t = s.saveBatches (fun b => b.withdraw b.expectedAmount Decimal.one) batches := by
  cases markReadyBatches_cases h with
  | nothing => rfl
  | single id batch amount effect hslashed =>
    obtain ⟨rfl, rfl⟩ := slashedAmount_ok hslashed
    have hle : batch.expectedAmount ≤ balance := by simpa using hcovered
    rw [Nat.min_eq_right hle, payoutRatio_self]
    rfl
  | emergency _ recipient hlength hshort => exact absurd hcovered (not_le.2 hshort)
  | full => rfl

/-- The payout pays what the batches expect together, up to the balance. -/
theorem markReadyBatches_paid
    (h : markReadyBatches s config pumpAddress balance batches = .ok (t, transfer)) :
    transfer.elim 0 TransferReadyBatchesMsg.amount =
      min balance (batches.map fun e => e.2.expectedAmount).sum := by
  cases markReadyBatches_cases h with
  | nothing => simp
  | single id batch amount effect hslashed =>
    obtain ⟨rfl, -⟩ := slashedAmount_ok hslashed
    simp
  | emergency _ recipient hlength hshort => exact (Nat.min_eq_left hshort.le).symm
  | full _ hlength hcovered => exact (Nat.min_eq_right hcovered).symm

/-- Stored batches that go through the payout are handed over. -/
theorem handedOver_of_mark (hstored : ∀ e ∈ batches, s.unbondBatches.load e.1 = some e.2)
    (h : markReadyBatches s config pumpAddress balance batches = .ok (t, transfer)) :
    HandedOver s t balance batches transfer := by
  obtain ⟨f, emergency, hf, rfl, hlisted⟩ := markReadyBatches_ok h
  refine ⟨hlisted, ⟨emergency, fun e he => ?_⟩, fun hcovered e he => ?_, markReadyBatches_paid h,
    fun id hid => ?_, rfl, rfl⟩
  · exact ⟨f e.2, load_saveBatches_of_mem hstored he, (hf e.2).2⟩
  · rw [markReadyBatches_covered hcovered h]
    exact load_saveBatches_of_mem hstored he
  · exact load_saveBatches_of_not_mem hstored hid

/-- **An idle tick claims** once the interval has passed, when no batch is about to be released, the
payout can be decided and there is somebody to claim from. The claim hands the matured batches
over. -/
theorem executeTick_claims (hpaused : s.isPaused = false) (hidle : s.fsmState = .idle)
    {rate : Decimal} (hrate : queryExchangeRate s q none = .ok rate)
    (hinterval : IntervalPassed s env) (hfar : NotClose s env) (hpump : s.config.pumpAddress ≠ none)
    {balances : BalancesResponse} (hbalances : q.balances = .ok balances)
    (hpayout : PayoutFits s.config (icaBalance balances s.config.remoteDenom)
      (s.maturedBatches env.time.seconds balances.2.2.seconds))
    {members : List ValidatorInfo} (hmembers : q.validators = .ok members)
    {delegations : DelegationsResponse} (hdelegations : q.delegations = .ok delegations)
    (hclaim : Claimable q) :
    ∃ s' validators transfer, s'.fsmState = .claiming ∧
      HandedOver s s' (icaBalance balances s.config.remoteDenom)
        (s.maturedBatches env.time.seconds balances.2.2.seconds) transfer ∧
      ∀ info, executeTick s q env info = .ok (s', [.puppeteer s.config.puppeteerContract
        (.claimRewardsAndOptionalyTransfer validators transfer (some s.config.puppeteerTimeout)
          env.contractAddress) info.funds]) := by
  obtain ⟨pump, hpump⟩ := Option.ne_none_iff_exists'.1 hpump
  have hcache : cacheExchangeRate s q env none =
      .ok { s with exchangeRate := some (rate, env.height) } := by
    rw [cacheExchangeRate, hrate]
    rfl
  have helapsed : (checkedSub env.time.seconds s.lastIdleCall : Result ℕ) =
      .ok (env.time.seconds - s.lastIdleCall) := by
    rw [checkedSub_eq_ok]
    unfold IntervalPassed at hinterval
    omega
  have hlong : ¬ env.time.seconds - s.lastIdleCall < s.config.idleMinInterval := by
    unfold IntervalPassed at hinterval
    omega
  have hclose := isUnbondingTimeClose_eq_false_iff.2 hfar
  have hbalance := getIcaBalanceByDenom_of_answer hbalances s.config.remoteDenom
  obtain ⟨⟨t, transfer⟩, hmark⟩ := (markReadyBatches_returns_iff
    { s with exchangeRate := some (rate, env.height) } pump).2 hpayout
  have hgo : t.goTo .claiming = .ok { t with fsmState := .claiming } := by
    obtain ⟨_, _, -, rfl, -⟩ := markReadyBatches_ok hmark
    refine Storage.goTo_eq_ok.2 ⟨?_, rfl⟩
    show (⟨s.fsmState, .claiming⟩ : Transition ContractState) ∈ TRANSITIONS
    rw [hidle]
    decide
  have hvalidators : validatorsToClaim members delegations.1 ≠ [] := fun hnil =>
    (validatorsToClaim_eq_nil_iff hmembers hdelegations).1 hnil hclaim
  have hhanded := handedOver_of_mark (fun e he => (mem_maturedBatches.1 he).1) hmark
  refine ⟨{ t with fsmState := .claiming, lastIdleCall := env.time.seconds },
    validatorsToClaim members delegations.1, transfer, rfl,
    ⟨hhanded.listed, hhanded.marked, hhanded.full, hhanded.paid, hhanded.frame,
      hhanded.nextBatchId, hhanded.collectedFees⟩,
    fun info => ?_⟩
  rw [executeTick_of_running hpaused, hidle]
  simp only [executeTickIdle, hcache, ok_bind, helapsed, hlong, ↓reduceIte, executeTickIdleLong,
    bind_eq_ok, ask_eq_ok, ensure_eq_ok, orError_eq_ok, pure_eq_ok]
  refine ⟨false, hclose, (), rfl, pump, hpump, _, hbalance, (t, transfer), hmark, members, hmembers,
    delegations, hdelegations, _, hgo, ({ t with fsmState := .claiming }, [_]), ?_, rfl⟩
  exact if_neg hvalidators

end Claim

end Core

namespace System

section Endings

variable {d : Deployment} {w w' : World} {m m' : Chains}

/-! ## The end of a payout -/

/-- A success that waits for the tick of `Claiming` lists the batch `id`. -/
structure Listed (w : World) (id : ℕ) : Prop where
  state : w.core.fsmState = .claiming
  inFlight : w.inFlight = []
  paid : ∃ r, w.core.lastPuppeteerResponse = some r ∧ id ∈ r.paidBatches

/-- The batch `id` is being withdrawn as `b` says and still listed, or has been withdrawn. -/
def Ending (w : World) (id : ℕ) (b : Core.UnbondBatch) (emergency : Bool) : Prop :=
  ∃ b', w.core.unbondBatches.load id = some b' ∧ b'.unbondedAmount = b.unbondedAmount ∧
    b'.slashingEffect = b.slashingEffect ∧ (b'.status = Core.withdrawnStatus emergency ∨
      b'.status = Core.withdrawingStatus emergency ∧ Listed w id)

/-- The status after the one of a payout under way. -/
theorem status_of_withdrawing {emergency : Bool} {status : Core.UnbondBatchStatus}
    (h : (Core.withdrawingStatus emergency).Next status) :
    status = Core.withdrawnStatus emergency := by
  cases emergency <;> cases h <;> rfl

/-- A listed batch stays listed until a tick records its end. -/
theorem Listed.step {a : Action} {id : ℕ} (h : Listed w id) (hflow : FlowInv d w)
    (hstep : Step d w a w') : Listed w' id ∨ ∀ b, w.core.unbondBatches.load id = some b →
      ∃ emergency, w'.core.unbondBatches.load id = some (b.withdrawn emergency) := by
  obtain ⟨hstate, hinFlight, r, hresponse, hpaid⟩ := h
  have hsame : w'.core.fsmState = w.core.fsmState →
      w'.core.lastPuppeteerResponse = w.core.lastPuppeteerResponse → w'.inFlight = w.inFlight →
      Listed w' id := fun hfsm hslot hflight =>
    ⟨hfsm.trans hstate, hflight.trans hinFlight, r, hslot.trans hresponse, hpaid⟩
  have htick : ∀ {q : Core.Querier} {env : Env} {info : MessageInfo} {msgs : List Core.CoreMsg},
      Core.executeTick w.core q env info = .ok (w'.core, msgs) →
      ∀ b, w.core.unbondBatches.load id = some b →
        ∃ emergency, w'.core.unbondBatches.load id = some (b.withdrawn emergency) := by
    intro q env info msgs htick b hb
    obtain ⟨r', batches, emergency, hresponse', hload, hcascade, -⟩ :=
      (Core.executeTick_ok htick).2.of_claiming hstate
    obtain rfl := Option.some.inj (hresponse.symm.trans hresponse')
    have hbatches := Core.cascade_batches (by simp [hstate]) hcascade
    exact ⟨emergency, by rw [hbatches, hload, if_pos hpaid, hb, Option.map_some]⟩
  cases step_cases hflow.wired hstep with
  | environment _ _ _ hcore hflow' =>
    exact .inl (hsame (by rw [hcore.core]) (by rw [hcore.core]) hflow'.inFlight)
  | foreign addrValidate sender funds msg _ p hsender hsubmission =>
    have hallowed := hsubmission.allowed
    rw [hflow.allowed, List.mem_singleton] at hallowed
    exact absurd hallowed hsender
  | bond _ _ _ _ _ _ _ _ _ hbond hcore _ _ hflow' =>
    have hframe := Core.executeBond_frame hbond
    exact .inl (hsame (by rw [hcore, hframe.fsmState])
      (by rw [hcore, hframe.lastPuppeteerResponse]) hflow'.inFlight)
  | unbond _ _ _ _ _ _ _ _ _ _ hunbond hcore _ _ _ _ _ hflow' =>
    obtain ⟨batch, item, -, hsaved⟩ := Core.executeUnbond_saves hunbond
    refine .inl (hsame ?_ ?_ hflow'.inFlight)
    · rw [hcore, hsaved]
      rfl
    · rw [hcore, hsaved]
      rfl
  | admin _ _ _ _ _ _ _ hadmin _ _ hcore _ _ hflow' =>
    refine .inl (hsame ?_ ?_ hflow'.inFlight)
    · rw [hcore]
      cases hadmin <;> rfl
    · rw [hcore]
      cases hadmin <;> rfl
  | tick _ _ _ _ _ _ _ _ _ htick' hcore =>
    subst hcore
    exact .inr (htick htick')
  | tickSubmit _ _ _ _ _ _ _ _ _ _ _ _ htick' hcore =>
    subst hcore
    exact .inr (htick htick')
  | accepted _ _ _ _ _ _ _ hp =>
    rw [hinFlight] at hp
    cases hp
  | refused _ _ _ _ hp =>
    rw [hinFlight] at hp
    cases hp

/-- **A payout that was confirmed ends as it began**: along every step. -/
theorem Ending.step {a : Action} {id : ℕ} {b : Core.UnbondBatch} {emergency : Bool}
    (h : Ending w id b emergency) (hw : Reachable d w) (hstep : Step d w a w') :
    Ending w' id b emergency := by
  obtain ⟨b₁, hb₁, hamount, heffect, hstatus⟩ := h
  obtain ⟨b₂, hb₂, hages⟩ := batch_ages hw hstep hb₁
  have hleaving : b₁.status.isLeaving = true := by
    rcases hstatus with hstatus | ⟨hstatus, -⟩
    · rw [hstatus, Core.isLeaving_withdrawnStatus]
    · rw [hstatus]
      exact Core.isLeaving_of_isPaying (Core.isPaying_withdrawingStatus emergency)
  refine ⟨b₂, hb₂, (hages.fixed.unbondedAmount hleaving).trans hamount,
    (hages.fixed.slashingEffect hleaving).trans heffect, ?_⟩
  rcases hstatus with hstatus | ⟨hstatus, hlisted⟩
  · rcases hages.status with hsame | hnext
    · exact .inl (hsame.trans hstatus)
    · rw [hstatus] at hnext
      cases emergency <;> cases hnext
  · rcases hages.status with hsame | hnext
    · rcases hlisted.step (flowInv_of_reachable hw) hstep with hlisted' | hrecorded
      · exact .inr ⟨hsame.trans hstatus, hlisted'⟩
      · -- a status that was recorded is not the one of a payout under way
        obtain ⟨emergency', hb₂'⟩ := hrecorded b₁ hb₁
        rw [hb₂, Option.some.injEq] at hb₂'
        rw [hb₂', hstatus] at hsame
        cases emergency <;> cases emergency' <;> cases hsame
    · rw [hstatus] at hnext
      exact .inl (status_of_withdrawing hnext)

/-- **In `Idle` a payout that was confirmed has ended.** -/
theorem withdrawn_of_idle {id : ℕ} {b : Core.UnbondBatch} {emergency : Bool} {c : Circumstances}
    (h : Ending m.world id b emergency) (hm : Reachable d m.world)
    (hrun : RunWhere (Chains.Step d) (Upkeep c) m m')
    (hidle : m'.world.core.fsmState = .idle) :
    ∃ b', m'.world.core.unbondBatches.load id = some b' ∧ b'.unbondedAmount = b.unbondedAmount ∧
      b'.slashingEffect = b.slashingEffect ∧ b'.status = Core.withdrawnStatus emergency := by
  have hend : Ending m'.world id b emergency := by
    refine hrun.preserves_of (I := fun m => Reachable d m.world)
      (P := fun m => Ending m.world id b emergency) ?_ ?_ hm h
    · intro m a m' hstep hm
      exact reachable_of_chainsStep hstep hm
    · intro m a m' hm _ hstep hending
      rcases chains_step_world hstep with ⟨a, hact⟩ | hsame
      · exact hending.step hm hact
      · rwa [hsame]
  obtain ⟨b', hb', hamount, heffect, hstatus | ⟨-, hlisted⟩⟩ := hend
  · exact ⟨b', hb', hamount, heffect, hstatus⟩
  · have hclaiming := hlisted.state
    rw [hidle] at hclaiming
    cases hclaiming

end Endings

/-! ## The report -/

/-- The world after a block at the moment `now`, in which a report arrives. -/
def World.reportedAt (d : Deployment) (w : World) (now : ℕ)
    (data : Puppeteer.BalancesAndDelegations) : World :=
  { w with
    height := w.height + 1
    time := ⟨now⟩
    puppeteer := Puppeteer.sudoDelegationsAndBalance w.puppeteer
      ⟨w.height + 1, ⟨now⟩, d.puppeteer⟩ data }

/-- What the batches that are unbonding expect together. -/
def World.expected (w : World) : ℕ :=
  ((w.core.batchesWithStatus .unbonding).map fun e => e.2.expectedAmount).sum

/-- What the next claim needs at the moment `now`, at which the puppeteer is told `data`: this is
the state of the account; all batches that are unbonding have been released, and what is paid to
them can be decided; some member of the validator set has a delegation; and the numbers that the
tick and the ones after it compute with fit, so that the rest of the balance does not stop them. -/
structure Releasable (d : Deployment) (answers : Answers) (w : World) (remote : Remote) (now : ℕ)
    (data : Puppeteer.BalancesAndDelegations) : Prop where
  later : w.time.nanos < now
  expires : now + w.core.config.puppeteerTimeout * nanosPerSecond < U64.bound
  delegated : (data.delegations.map fun e => e.amount.amount).sum = remote.delegated
  balance : Core.icaBalance (data.balances, 0, ⟨0⟩) w.core.config.remoteDenom = remote.balance
  interval : w.core.lastIdleCall + w.core.config.idleMinInterval ≤ now / nanosPerSecond
  released : ∀ id b, w.core.unbondBatches.load id = some b → b.status = .unbonding →
    b.expectedRelease < now / nanosPerSecond
  pump : w.core.config.pumpAddress ≠ none
  payout : Core.PayoutFits w.core.config remote.balance (w.core.batchesWithStatus .unbonding)
  claimable : ∃ members v delegation, answers.validators = .ok members ∧ v ∈ members ∧
    delegation ∈ data.delegations ∧ v.valoperAddress = delegation.validator
  ldDenom : w.core.config.ldDenom ≠ none
  rate : ∀ ldDenom, w.core.config.ldDenom = some ldDenom → w.bank.supply ldDenom ≠ 0 →
    Core.RateFits (remote.delegated + w.bank.balance d.core w.core.config.baseDenom +
      w.core.totalLsmShares) w.core.unbondedTotal 0 (w.bank.supply ldDenom)
  switch : ∀ batch, w.core.unbondBatches.load w.core.nextBatchId = some batch →
    batch.SwitchFits w.core.config
  stake : w.CanStake (.steady answers) (remote.balance - w.expected) ∨ w.CanStake (.steady answers)
    (remote.balance - w.expected + w.bank.balance d.core w.core.config.baseDenom)

/-- The account can pay what all batches that are unbonding expect together. -/
def Covered (w : World) (remote : Remote) : Prop :=
  w.expected ≤ remote.balance

instance (w : World) (remote : Remote) : Decidable (Covered w remote) :=
  inferInstanceAs (Decidable (_ ≤ _))

section Report

variable {d : Deployment} {answers : Answers} {w : World} {remote : Remote} {now : ℕ}
  {data : Puppeteer.BalancesAndDelegations}

/-- The report can arrive. -/
theorem run_reportedAt (answers : Answers) (data : Puppeteer.BalancesAndDelegations)
    (h : Resting d ⟨w, remote, []⟩) (hlater : w.time.nanos < now)
    (hbound : now < U64.bound) :
    RunWhere (Chains.Step d) (Upkeep (.steady answers)) ⟨w, remote, []⟩
        ⟨w.reportedAt d now data, remote, []⟩ ∧
      Resting d ⟨w.reportedAt d now data, remote, []⟩ := by
  have hblock : Step d w (.nextBlock (w.height + 1) ⟨now⟩)
      { w with height := w.height + 1, time := ⟨now⟩ } := by
    show w.nextBlock (w.height + 1) ⟨now⟩ = _
    unfold World.nextBlock
    rw [if_pos ⟨Nat.lt_succ_self _, hlater, hbound⟩]
  have hreport : Step d { w with height := w.height + 1, time := ⟨now⟩ }
      (.delegationsAndBalance data) (w.reportedAt d now data) := rfl
  refine ⟨(run_act (m := ⟨w, remote, []⟩) (a := .nextBlock _ _) trivial trivial hblock).trans
    (run_act (a := .delegationsAndBalance _) trivial trivial hreport), ?_⟩
  exact ⟨(h.reachable.tail hblock).tail hreport, h.executed, h.inFlight, h.paused⟩

/-- After the report the puppeteer knows the state of the account. -/
theorem Releasable.reflected (h : Releasable d answers w remote now data) :
    (⟨w.reportedAt d now data, remote, []⟩ : Chains).Reflected :=
  ⟨h.delegated, h.balance⟩

/-- The batches that are unbonding have all matured when the report arrives. -/
theorem Releasable.maturedBatches (h : Releasable d answers w remote now data) :
    w.core.maturedBatches (now / nanosPerSecond) (now / nanosPerSecond) =
      w.core.batchesWithStatus .unbonding := by
  unfold Core.Storage.maturedBatches
  rw [List.filter_eq_self]
  intro e he
  obtain ⟨hload, hstatus⟩ := Core.Storage.mem_batchesWithStatus.1 he
  have hlt := h.released e.1 e.2 hload hstatus
  simp only [decide_eq_true_eq]
  omega

/-- The idle tick after the report claims, and hands over every batch that was unbonding. -/
theorem Releasable.exists_tick (h : Reachable d w) (hidle : w.core.fsmState = .idle)
    (hpaused : w.core.isPaused = false) (hready : Releasable d answers w remote now data) :
    ∃ core validators transfer, core.fsmState = .claiming ∧
      Core.HandedOver w.core core remote.balance (w.core.batchesWithStatus .unbonding) transfer ∧
      ∀ info, Core.executeTick w.core ((w.reportedAt d now data).querier d answers)
        ((w.reportedAt d now data).env d) info =
          .ok (core, [.puppeteer w.core.config.puppeteerContract
            (.claimRewardsAndOptionalyTransfer validators transfer
              (some w.core.config.puppeteerTimeout) d.core) info.funds]) := by
  obtain ⟨members, v, delegation, hmembers, hv, hdelegation, haddress⟩ := hready.claimable
  obtain ⟨ldDenom, hld⟩ := Option.ne_none_iff_exists'.1 hready.ldDenom
  have hclaim : Core.Claimable ((w.reportedAt d now data).querier d answers) :=
    ⟨members, _, v, delegation, hmembers, rfl, hv, hdelegation, haddress⟩
  obtain ⟨rate, hrate⟩ := (Core.queryExchangeRate_returns_iff
    (q := (w.reportedAt d now data).querier d answers)
    (payoutInv_of_reachable h).batches hidle rfl).2
      ⟨ldDenom, hld, fun hsupply => by
        have hfits := hready.rate ldDenom hld hsupply
        rw [← hready.delegated] at hfits
        exact hfits⟩
  have hpassed : Core.IntervalPassed w.core ((w.reportedAt d now data).env d) := hready.interval
  have hfar : Core.NotClose w.core ((w.reportedAt d now data).env d) := by
    intro e he hlt
    obtain ⟨hload, hstatus⟩ := Core.Storage.mem_batchesWithStatus.1 he
    have hreleased := hready.released e.1 e.2 hload hstatus
    exact absurd hlt (by show ¬ now / nanosPerSecond < _; omega)
  have hmatured : w.core.maturedBatches ((w.reportedAt d now data).env d).time.seconds
      (⟨now⟩ : Timestamp).seconds = w.core.batchesWithStatus .unbonding := hready.maturedBatches
  have hbalances : ((w.reportedAt d now data).querier d answers).balances =
      .ok (data.balances, w.height + 1, ⟨now⟩) := rfl
  have hbalance : Core.icaBalance (data.balances, w.height + 1, ⟨now⟩) w.core.config.remoteDenom =
      remote.balance := hready.balance
  obtain ⟨core, validators, transfer, hstate, hhanded, htick⟩ :=
    Core.executeTick_claims hpaused hidle hrate hpassed hfar hready.pump hbalances
      (by rw [hmatured, hbalance]; exact hready.payout) hmembers rfl hclaim
  rw [hmatured, hbalance] at hhanded
  exact ⟨core, validators, transfer, hstate, hhanded, htick⟩

/-- A batch that is asked for next is not unbonding, so the claim leaves it alone. -/
theorem load_nextBatch_of_handedOver {core : Core.Storage}
    {transfer : Option TransferReadyBatchesMsg} (h : Reachable d w)
    (hidle : w.core.fsmState = .idle) {balance : ℕ}
    (hhanded : Core.HandedOver w.core core balance (w.core.batchesWithStatus .unbonding)
      transfer) :
    core.unbondBatches.load core.nextBatchId = w.core.unbondBatches.load w.core.nextBatchId := by
  rw [hhanded.nextBatchId]
  refine hhanded.frame _ fun hmem => ?_
  obtain ⟨⟨id, b⟩, he, hid⟩ := List.mem_map.1 hmem
  obtain ⟨hload, hstatus⟩ := Core.Storage.mem_batchesWithStatus.1 he
  obtain rfl : id = w.core.nextBatchId := hid
  rcases (payoutInv_of_reachable h).batches.nextBatch (by simp [hidle]) hload with
    ⟨-, -, hother⟩ | ⟨-, -, hother⟩
  · rw [hstatus] at hother
    cases hother
  · rw [hstatus] at hother
    cases hother

/-- The batches that a tick has handed over to a claim are on the way to their end, once the success
of the claim lists them; in full, when the account covers them. -/
theorem ending_of_handedOver {core : Core.Storage} {transfer : Option TransferReadyBatchesMsg}
    {r : ResponseHookMsg} {m : Chains}
    (hhanded : Core.HandedOver w.core core remote.balance (w.core.batchesWithStatus .unbonding)
      transfer)
    (hbatches : m.world.core.unbondBatches = core.unbondBatches)
    (hclaiming : m.world.core.fsmState = .claiming) (hinFlight : m.world.inFlight = [])
    (hresponse : m.world.core.lastPuppeteerResponse = some r)
    (hpaid : r.paidBatches = (w.core.batchesWithStatus .unbonding).map Prod.fst) :
    ∃ emergency, ∀ e ∈ w.core.batchesWithStatus .unbonding, ∃ b,
      Ending m.world e.1 b emergency ∧
        (Covered w remote → b.unbondedAmount = some e.2.expectedAmount ∧ emergency = false) := by
  obtain ⟨emergency, hmarked⟩ := hhanded.marked
  refine ⟨emergency, fun e he => ?_⟩
  obtain ⟨b, hb, hstatus⟩ := hmarked e he
  have hlisted : Listed m.world e.1 :=
    ⟨hclaiming, hinFlight, r, hresponse, by rw [hpaid]; exact List.mem_map_of_mem he⟩
  refine ⟨b, ⟨b, by rw [hbatches, hb], rfl, rfl, .inr ⟨hstatus, hlisted⟩⟩, fun hcovered => ?_⟩
  obtain rfl := Option.some.inj (hb.symm.trans (hhanded.full hcovered e he))
  refine ⟨rfl, ?_⟩
  cases emergency with
  | false => rfl
  | true => cases hstatus

/-- What the success of the claim has made of an idle state whose batches can be withdrawn. -/
structure Claimed (d : Deployment) (answers : Answers) (w : World) (remote : Remote) (m : Chains) :
    Prop where
  resting : Resting d m
  state : m.world.core.fsmState = .claiming
  nextBatch : m.world.core.unbondBatches.load m.world.core.nextBatchId =
    w.core.unbondBatches.load w.core.nextBatchId
  config : m.world.core.config = w.core.config
  clear : ClearWay d (.steady answers) m.world m.remote.balance
  ending : ∃ emergency, ∀ e ∈ w.core.batchesWithStatus .unbonding, ∃ b,
    Ending m.world e.1 b emergency ∧
      (Covered w remote → b.unbondedAmount = some e.2.expectedAmount ∧ emergency = false)

/-- **The idle tick after the report**, and the success of its claim: every batch that was unbonding
is listed by it, and nothing stands in the way back to `Idle`. -/
theorem exists_claimed (h : Reachable d w) (hidle : w.core.fsmState = .idle)
    (hpaused : w.core.isPaused = false) (hinFlight : w.inFlight = [])
    (hpuppeteer : w.puppeteer.currentTxState.status = .idle) {ica : String}
    (hica : w.puppeteer.ica = .registered ica) (hfee : w.puppeteer.ibcFee ≠ none)
    (hvalid : answers.addrValidate d.core = true)
    (hready : Releasable d answers w remote now data) :
    ∃ m, RunWhere (Chains.Step d) (Upkeep (.steady answers)) ⟨w, remote, []⟩ m ∧
      Claimed d answers w remote m := by
  obtain ⟨core, validators, transfer, hstate, hhanded, htick⟩ := hready.exists_tick h hidle hpaused
  have hresting : Resting d ⟨w, remote, []⟩ :=
    ⟨h, fun _ hseq => absurd hseq List.not_mem_nil, hinFlight, hpaused⟩
  obtain ⟨hreport, hrested⟩ := run_reportedAt answers data hresting hready.later
    (lt_of_le_of_lt (Nat.le_add_right _ _) hready.expires)
  obtain ⟨fee, hfee⟩ := Option.ne_none_iff_exists'.1 hfee
  have hcall := exists_claim answers.addrValidate (w := w.reportedAt d now data) core
    (flowInv_of_reachable hrested.reachable).allowed hpuppeteer hica hfee validators transfer
    (some w.core.config.puppeteerTimeout) hvalid
  -- the account has what the payout takes
  have hpays : transfer.elim 0 TransferReadyBatchesMsg.amount ≤ remote.balance := by
    rw [hhanded.paid]
    exact Nat.min_le_left _ _
  obtain ⟨m, p, ica', replyTo, hrun, hrequests, hended⟩ :=
    exists_ended (c := .steady answers) hrested rfl hready.reflected
      (fun info hfunds => (htick info).trans (by rw [hfunds]; rfl)) hcall (by simp [hstate])
      .response (by
        rintro - _ _ _ ⟨⟩
        refine ⟨?_, Nat.zero_le _⟩
        cases transfer with
        | none => exact Nat.zero_le _
        | some payout => exact hpays)
  have hsuccess : (p.outcomeMsg .response).isError = false := rfl
  have hclaiming : m.world.core.fsmState = .claiming := by
    rw [hended.hook.fsmState, hsuccess, if_neg (by simp), hstate]
  have hframe := (Core.executeTick_ok (htick ⟨"", []⟩)).2.frame
  have hconfig : m.world.core.config = w.core.config := hended.hook.config.trans hframe.config
  have hnext := hended.hook.load_nextBatch.trans (load_nextBatch_of_handedOver h hidle hhanded)
  have hsame : ∀ denom, m.world.bank.balance d.core denom = w.bank.balance d.core denom :=
    hended.spent
  -- the claim lists the batches, and has been paid
  obtain ⟨hlists, hbalance⟩ : p.transaction.batchIds =
      (w.core.batchesWithStatus .unbonding).map Prod.fst ∧
      m.remote.balance = remote.balance - w.expected := by
    have hafter := hended.balance
    have hpaid := hhanded.paid
    generalize p.transaction = transaction at hrequests hafter ⊢
    cases hrequests
    refine ⟨hhanded.listed, hafter.trans ?_⟩
    show remote.balance + 0 - Transaction.takes _ _ = _
    cases transfer <;>
      simp only [Option.elim, Transaction.takes, World.expected] at hpaid ⊢ <;> omega
  have hcan : ∀ {balance}, w.CanStake (.steady answers) balance →
      m.world.CanStake (.steady answers) balance :=
    canStake_of_same hconfig.symm (hended.fees.trans hhanded.collectedFees).symm (by
      rw [hended.ica, if_neg (by simp)]
      exact fun _ => id)
  refine ⟨m, hreport.trans hrun, hended.resting, hclaiming, hnext, hconfig, ?_, ?_⟩
  · refine ⟨fun _ _ batch hbatch => ?_, fun _ _ => ?_, by simp [hclaiming], by simp [hclaiming],
      fun _ => ?_⟩
    · rw [hconfig]
      exact hready.switch batch (by rw [← hnext, hbatch])
    · rw [hconfig, hended.time, hended.ica, if_neg (by simp)]
      exact ⟨hready.expires, ica, hica⟩
    · rw [hbalance, hconfig, hsame]
      exact hready.stake.imp hcan fun hpending => ⟨hclaiming, hcan hpending⟩
  · have hpaid : (p.outcomeMsg .response).paidBatches =
        (w.core.batchesWithStatus .unbonding).map Prod.fst := hlists
    exact ending_of_handedOver hhanded hended.hook.unbondBatches hclaiming hended.resting.inFlight
      hended.hook.lastPuppeteerResponse hpaid

/-- **Unbonding batches can be withdrawn.** From every reachable `Idle` state with nothing in
flight, once all batches that are unbonding have been released, upkeep leads back to `Idle` with
every one of them withdrawn; and in full, when the account can pay for them together.

**Proof sketch.** The report arrives, the next tick hands the batches to its claim, and the claim
succeeds, so the hook stores a response that lists them. From there core can get back to `Idle`. On
the way a listed batch keeps its amounts, and only the tick that leaves `Claiming` takes it off the
list; that tick records its end. -/
theorem unbonding_can_be_withdrawn (h : Reachable d w) (hidle : w.core.fsmState = .idle)
    (hpaused : w.core.isPaused = false) (hinFlight : w.inFlight = [])
    (hpuppeteer : w.puppeteer.currentTxState.status = .idle) {ica : String}
    (hica : w.puppeteer.ica = .registered ica) (hfee : w.puppeteer.ibcFee ≠ none)
    (hvalid : answers.addrValidate d.core = true) (hatMost : answers.DepositsAtMost)
    (hready : Releasable d answers w remote now data) :
    ∃ m, RunWhere (Chains.Step d) (Upkeep (.steady answers)) ⟨w, remote, []⟩ m ∧
      m.world.core.fsmState = .idle ∧
      ∃ emergency, ∀ id b, w.core.unbondBatches.load id = some b → b.status = .unbonding →
        ∃ b', m.world.core.unbondBatches.load id = some b' ∧
          b'.status = Core.withdrawnStatus emergency ∧
          (Covered w remote →
            b'.status = .withdrawn ∧ b'.unbondedAmount = some b.expectedAmount) := by
  obtain ⟨m, hrun, hclaimed⟩ :=
    exists_claimed h hidle hpaused hinFlight hpuppeteer hica hfee hvalid hready
  obtain ⟨emergency, hending⟩ := hclaimed.ending
  have hm := hclaimed.resting.reachable
  obtain ⟨batch, hbatch⟩ := exists_nextBatch hm
  have hfit : batch.SwitchFits m.world.core.config :=
    hclaimed.clear.switch (by simp [hclaimed.state]) (by simp [hclaimed.state]) batch hbatch
  obtain ⟨m', hrun', hidle'⟩ := canReachIdle_of_claiming hclaimed.resting ⟨_, rfl⟩ hclaimed.state
    hbatch hfit hclaimed.clear (Circumstances.forall_steady hvalid)
      (Circumstances.forall_steady hatMost)
  refine ⟨m', hrun.trans hrun', hidle', emergency, fun id b hb hstatus => ?_⟩
  obtain ⟨b₁, hending₁, hfull⟩ :=
    hending (id, b) (Core.Storage.mem_batchesWithStatus.2 ⟨hb, hstatus⟩)
  obtain ⟨b', hb', hamount, -, hstatus'⟩ := withdrawn_of_idle hending₁ hm hrun' hidle'
  refine ⟨b', hb', hstatus', fun hcovered => ?_⟩
  obtain ⟨hexpected, rfl⟩ := hfull hcovered
  exact ⟨hstatus', hamount.trans hexpected⟩

end Report

/-! ## A sample -/

namespace Sample

/-- Core is idle, and a batch is unbonding. -/
def unbondingWorld : World := (initial.runAll deployment unbonding).get (by decide)

/-- The world with a batch that is unbonding is reachable. -/
theorem unbondingWorld_reachable : Reachable deployment unbondingWorld :=
  reachable_of_runAll initial_spec (Option.some_get _).symm

/-- The interchain account after the batch has been released to it. -/
def releasedRemote : Remote := ⟨900, 100⟩

/-- What the puppeteer is told about that account. -/
def released : Puppeteer.BalancesAndDelegations :=
  ⟨[⟨"uatom", 100⟩], [⟨"ica", "val", ⟨"uatom", 900⟩⟩]⟩

/-- The one batch that is unbonding. -/
theorem unbondingWorld_batches :
    (unbondingWorld.core.batchesWithStatus .unbonding).map
      (fun e => (e.1, e.2.expectedAmount, e.2.expectedRelease)) = [(0, 100, 1125)] := by
  decide

/-- The batch can be claimed five seconds after its release. -/
theorem unbondingWorld_releasable :
    Releasable deployment (answers members) unbondingWorld releasedRemote (1130 * nanosPerSecond)
      released where
  later := by decide
  expires := by decide
  delegated := by decide
  balance := by decide
  interval := by decide
  released id b hb hstatus := by
    have hmem := List.mem_map_of_mem (f := fun e => (e.1, e.2.expectedAmount, e.2.expectedRelease))
      (Core.Storage.mem_batchesWithStatus.2 ⟨hb, hstatus⟩)
    rw [unbondingWorld_batches, List.mem_singleton, Prod.mk.injEq, Prod.mk.injEq] at hmem
    rw [hmem.2.2]
    decide
  pump := by decide
  payout := by
    intro hseveral
    have hlength := congrArg List.length unbondingWorld_batches
    rw [List.length_map, List.length_singleton] at hlength
    omega
  claimable := ⟨_, _, _, rfl, List.mem_singleton_self _, List.mem_singleton_self _, rfl⟩
  ldDenom := by decide
  rate ldDenom hld _ := by
    obtain rfl : "udatom" = ldDenom := by simpa using (show some "udatom" = some ldDenom from hld)
    exact ⟨by decide, by decide, by decide⟩
  switch batch hbatch := by
    have hcreated : (unbondingWorld.core.unbondBatches.load unbondingWorld.core.nextBatchId).map
        Core.UnbondBatch.created = some 1025 := by decide
    rw [hbatch, Option.map_some, Option.some.injEq] at hcreated
    rw [Core.UnbondBatch.SwitchFits, hcreated]
    decide
  stake := .inl (World.PassesStake.canStake (.inl (by decide)))

/-- The hundred base coins of the batch are withdrawn in full. -/
theorem unbonding_can_be_withdrawn_sample :
    ∃ m, RunWhere (Chains.Step deployment) (Upkeep (.steady (answers members)))
        ⟨unbondingWorld, releasedRemote, []⟩ m ∧
      m.world.core.fsmState = .idle ∧ ∃ b, m.world.core.unbondBatches.load 0 = some b ∧
        b.status = .withdrawn ∧ b.unbondedAmount = some 100 := by
  have hica : unbondingWorld.puppeteer.ica = .registered "ica" := by decide
  obtain ⟨m, hrun, hidle, emergency, hwithdrawn⟩ :=
    unbonding_can_be_withdrawn unbondingWorld_reachable (by decide) (by decide) (by decide)
      (by decide) hica (by decide) rfl (depositsExactly_answers members).atMost
      unbondingWorld_releasable
  have hcovered : Covered unbondingWorld releasedRemote := by decide
  have hbatch : (unbondingWorld.core.unbondBatches.load 0).map
      (fun b => (b.expectedAmount, b.status)) = some (100, .unbonding) := by
    decide
  obtain ⟨b, hb, hdata⟩ := Option.map_eq_some_iff.1 hbatch
  rw [Prod.mk.injEq] at hdata
  obtain ⟨b', hb', -, hfull⟩ := hwithdrawn 0 b hb hdata.2
  obtain ⟨hstatus, hamount⟩ := hfull hcovered
  exact ⟨m, hrun, hidle, b', hb', hstatus, by rw [hamount, hdata.1]⟩

end Sample

end System

end DropContracts
