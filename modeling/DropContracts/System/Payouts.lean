import DropContracts.Core.IdleTick
import DropContracts.Core.Payout
import DropContracts.System.BatchInvariant
import DropContracts.System.Scenario

set_option relaxedAutoImplicit false
set_option autoImplicit false

/-!
# Payouts

An idle tick marks the batches that have matured as being paid before it decides what to send, so
the mark and the payment can come apart. They do when there is nobody to claim from, since then
the tick sends no claim. And when a claim fails, nothing takes the mark back: the state machine
has gone to `Idle`, and no operation looks at a batch that is being paid except to mark it paid.

## Main definitions

* `System.Stuck` — a batch is being paid, and nothing on its way will pay it.
* `System.RolledBack` — a batch can be selected for a payout again.

## Main results

* `System.payout_listed_iff` — when an idle tick lists exactly the batches that it marks.
* `System.payout_not_listed` — it does not always.
* `System.idle_tick_accounts` — what an idle tick records and sends for the matured batches.
* `System.Stuck.run` — a stuck batch stays stuck.
* `System.failed_payout_stuck` — a payout that fails is never rolled back.
-/

namespace DropContracts

namespace System

open Sample

/-! ## The mark and the message -/

section Marks

variable {s s' : Core.Storage} {q : Core.Querier} {env : Env} {info : MessageInfo}
  {msgs : List Core.CoreMsg}

/-- **When a tick lists exactly the batches that it hands to the payout.** In `Idle` it does so
unless the interval has passed, a batch has matured, and there is nobody to claim from. -/
theorem payout_listed_iff (hidle : s.fsmState = .idle)
    (htick : Core.executeTick s q env info = .ok (s', msgs)) :
    (∀ id, Core.Pays s s' id ↔ Core.Lists msgs id) ↔
      ¬ (Core.IntervalPassed s env ∧ Core.HasMatured s q env ∧ ¬ Core.Claimable q) := by
  cases (Core.executeTick_ok htick).2 with
  | idleInterval rate m hstate hinterval hmsg =>
    refine iff_of_true (fun id => iff_of_false ?_ ?_) fun h => absurd h.1 (not_le.2 hinterval)
    · rintro ⟨⟨b, hb, hstatus⟩, b', hb', hpaying⟩
      change s.unbondBatches.load id = some b' at hb'
      rw [hb] at hb'
      rw [← Option.some.inj hb', hstatus] at hpaying
      cases hpaying
    · rintro ⟨contract, validators, transfer, timeout, replyTo, funds, hmem, -⟩
      rw [List.mem_singleton] at hmem
      subst hmem
      cases hmsg
  | idleClaim t transfer validators hstate hprepared hvalidators =>
    obtain ⟨-, hclaim, -⟩ := Core.idlePrepared_facts hprepared
    refine iff_of_true (fun id => ?_) fun h => hvalidators (hclaim.2 h.2.2)
    refine (Core.pays_idlePrepared hprepared id).trans ⟨fun hid => ?_, ?_⟩
    · exact ⟨_, validators, transfer, _, _, _, List.mem_singleton_self _, hid⟩
    · rintro ⟨contract, validators', transfer', timeout, replyTo, funds, hmem, hid⟩
      rw [List.mem_singleton] at hmem
      injection hmem with _ hmsg _
      injection hmsg with _ htransfer _ _
      rw [← htransfer]
      exact hid
  | idleCascade t u transfer validators _ hstate hprepared hvalidators hcascade =>
    obtain ⟨hinterval, hclaim, -⟩ := Core.idlePrepared_facts hprepared
    have hbatches : u.unbondBatches = t.unbondBatches := by
      refine Core.cascade_batches ?_ hcascade
      cases hprepared
      simp
    have hpays : ∀ id, Core.Pays s { u with lastIdleCall := env.time.seconds } id ↔
        id ∈ listedBatches transfer := by
      intro id
      rw [← Core.pays_idlePrepared hprepared id]
      simp only [Core.Pays, hbatches]
    have hnot := Core.not_lists_cascade hcascade
    constructor
    · rintro hall ⟨-, hmatured, -⟩
      obtain ⟨id, hid⟩ := (Core.hasMatured_idlePrepared hprepared).1 hmatured
      exact hnot id ((hall id).1 ((hpays id).2 hid))
    · intro hcond id
      refine iff_of_false (fun hp => ?_) (hnot id)
      exact hcond ⟨hinterval, (Core.hasMatured_idlePrepared hprepared).2 ⟨id, (hpays id).1 hp⟩,
        hclaim.1 hvalidators⟩
  | claiming _ _ _ _ _ hstate => rw [hidle] at hstate; cases hstate
  | transfering _ _ _ hstate => rw [hidle] at hstate; cases hstate
  | staking _ _ _ hstate => rw [hidle] at hstate; cases hstate
  | unbondingSuccess _ _ _ _ _ _ hstate => rw [hidle] at hstate; cases hstate
  | unbondingFailed _ _ _ _ _ _ _ hstate => rw [hidle] at hstate; cases hstate

/-- A run that brings a request for 100 liquid tokens to the block in which its batch has
matured. -/
def matured : List Action :=
  setup ++ [bond 1000, unbond 100, block 2 1020, tick, .deliver 1 .response, block 3 1025,
    remote 1000 0, tick, .deliver 2 .response, tick, .deliver 3 .response, tick, block 4 1130,
    remote 100 900]

/-- With a validator to claim from, the matured batch is listed by the claim. -/
theorem payout_listed_sample : ∃ (w : World) (s' : Core.Storage) (msgs : List Core.CoreMsg),
    Core.executeTick w.core (w.querier deployment (answers members)) (w.env deployment)
      ⟨"bob", []⟩ = .ok (s', msgs) ∧ Core.Pays w.core s' 0 ∧ Core.Lists msgs 0 := by
  have hrun : ((initial.runAll deployment matured).bind fun w =>
      (Core.executeTick w.core (w.querier deployment (answers members)) (w.env deployment)
        ⟨"bob", []⟩).toOption.map fun r => (w, r.1, r.2)).any
      (fun r => decide (r.1.core.fsmState = .idle ∧
        (Puppeteer.queryDelegations r.1.puppeteer).1 = [⟨"ica", "val", ⟨"uatom", 900⟩⟩] ∧
        (r.1.core.unbondBatches.load 0).map Core.UnbondBatch.status = some .unbonding ∧
        (r.2.1.unbondBatches.load 0).map Core.UnbondBatch.status = some .withdrawing)) =
          true := by
    decide
  obtain ⟨w, s', msgs, hw, htick, hcheck⟩ := exists_tick_of_runAll hrun
  obtain ⟨hidle, hdelegations, hbefore, hafter⟩ := of_decide_eq_true hcheck
  have hpays : Core.Pays w.core s' 0 := Core.pays_of_status hbefore hafter
  have hclaimable : Core.Claimable (w.querier deployment (answers members)) := by
    refine ⟨members, Puppeteer.queryDelegations w.puppeteer, ⟨"val", 1⟩,
      ⟨"ica", "val", ⟨"uatom", 900⟩⟩, rfl, rfl, List.mem_singleton_self _, ?_, rfl⟩
    rw [hdelegations]
    exact List.mem_singleton_self _
  have hlisted := (payout_listed_iff hidle htick).2 (fun h => h.2.2 hclaimable)
  exact ⟨w, s', msgs, htick, hpays, (hlisted 0).1 hpays⟩

/-- **A batch can be marked without a message that pays it.** The validator set has become empty,
so the tick stakes instead of claiming. -/
theorem payout_not_listed : ¬ ∀ (d : Deployment) (w : World) (q : Core.Querier)
    (info : MessageInfo) (s' : Core.Storage) (msgs : List Core.CoreMsg), Reachable d w →
      w.core.fsmState = .idle →
      Core.executeTick w.core q (w.env d) info = .ok (s', msgs) →
      ∀ id, Core.Pays w.core s' id ↔ Core.Lists msgs id := by
  intro hall
  have hrun : ((initial.runAll deployment matured).bind fun w =>
      (Core.executeTick w.core (w.querier deployment (answers [])) (w.env deployment)
        ⟨"bob", []⟩).toOption.map fun r => (w, r.1, r.2)).any
      (fun r => decide (r.1.core.fsmState = .idle ∧
        (r.1.core.unbondBatches.load 0).map Core.UnbondBatch.status = some .unbonding ∧
        (r.2.1.unbondBatches.load 0).map Core.UnbondBatch.status = some .withdrawing ∧
        r.2.2 = [.puppeteer "puppeteer" (.delegate [("val", 100)] (some 60) "core") []])) =
          true := by
    decide
  obtain ⟨w, s', msgs, hw, htick, hcheck⟩ := exists_tick_of_runAll hrun
  obtain ⟨hidle, hbefore, hafter, hmsgs⟩ := of_decide_eq_true hcheck
  have hpays : Core.Pays w.core s' 0 := Core.pays_of_status hbefore hafter
  obtain ⟨contract, validators, transfer, timeout, replyTo, funds, hmem, -⟩ :=
    (hall deployment w _ _ s' msgs (reachable_of_runAll initial_spec hw) hidle htick 0).1 hpays
  simp only at hmsgs
  rw [hmsgs, List.mem_singleton] at hmem
  cases hmem

/-! ### The books of a payout -/

/-- **An idle tick accounts for the batches that have matured.** Whatever payout it decides on, sent
or not, lists exactly these, sends no more than the account holds, and records for each batch what
it is paid; with no payout the batches are left alone.

**Proof sketch.** The batches after the tick are those after the payout was decided: the end of the
tick, a claim or the cascade, leaves them alone. -/
theorem idle_tick_accounts (hidle : s.fsmState = .idle)
    (htick : Core.executeTick s q env info = .ok (s', msgs)) :
    ∃ decided : Option TransferReadyBatchesMsg,
      (∀ payout, Core.Claims msgs payout → payout = decided) ∧
      (decided = none → s'.unbondBatches = s.unbondBatches) ∧
      ∀ payout, decided = some payout → ∃ balances, q.balances = .ok balances ∧
        Core.PayoutBooks s s' env.time.seconds balances.2.2.seconds
          (Core.icaBalance balances s.config.remoteDenom) payout := by
  rcases Core.executeTick_marks hidle htick with ⟨hsame, hnone⟩ | ⟨balances, decided, hmarked⟩
  · refine ⟨none, fun payout hclaims => absurd hclaims (hnone payout), fun _ => hsame, ?_⟩
    intro payout hpayout
    cases hpayout
  · refine ⟨decided, hmarked.claim, ?_, ?_⟩
    · rintro rfl
      exact hmarked.batches_of_none
    · rintro payout rfl
      exact ⟨balances, hmarked.known, hmarked.accounts⟩

/-- A run that brings a request for one liquid token, worth nothing at a rate of one half, to the
block in which its batch has matured. -/
def dust : List Action :=
  setup ++ staked ++ [remote 0 500, unbond 1, bond 1000, block 4 1040, tick, .deliver 3 .response,
    tick, .deliver 4 .response, block 5 1045, remote 1000 500, tick, .deliver 5 .response, tick,
    .deliver 6 .response, tick, block 6 1200, remote 1 1499]

/-- **A batch can be paid that was promised nothing.** It gets the slashing effect one, and no
decimal is the ratio of what it is paid to what it was promised. -/
theorem dust_payout_without_ratio : ∃ (w : World) (s' : Core.Storage) (msgs : List Core.CoreMsg)
    (b b' : Core.UnbondBatch), Reachable deployment w ∧ w.core.fsmState = .idle ∧
      Core.executeTick w.core (w.querier deployment (answers members)) (w.env deployment)
        ⟨"bob", []⟩ = .ok (s', msgs) ∧
      Core.Claims msgs (some ⟨[0], false, 0, "pump"⟩) ∧
      w.core.unbondBatches.load 0 = some b ∧ b.expectedAmount = 0 ∧
      s'.unbondBatches.load 0 = some b' ∧ b'.unbondedAmount = some 0 ∧
      b'.slashingEffect = some Decimal.one ∧
      ∀ ratio, (Decimal.fromRatio 0 b.expectedAmount : Core.Result Decimal) ≠ .ok ratio := by
  have hrun : ((initial.runAll deployment dust).bind fun w =>
      (Core.executeTick w.core (w.querier deployment (answers members)) (w.env deployment)
        ⟨"bob", []⟩).toOption.bind fun r => (w.core.unbondBatches.load 0).bind fun b =>
          (r.1.unbondBatches.load 0).map fun b' => (w, r.1, r.2, b, b')).any
      (fun r => decide (r.1.core.fsmState = .idle ∧ r.2.2.2.1.expectedAmount = 0 ∧
        r.2.2.2.2.unbondedAmount = some 0 ∧ r.2.2.2.2.slashingEffect = some Decimal.one ∧
        r.2.2.1 = [.puppeteer "puppeteer" (.claimRewardsAndOptionalyTransfer ["val"]
          (some ⟨[0], false, 0, "pump"⟩) (some 60) "core") []])) = true := by
    decide
  obtain ⟨⟨_, _, _, _, _⟩, hrun, hcheck⟩ := (Option.any_eq_true _ _).1 hrun
  simp only [Option.bind_eq_some_iff, Option.map_eq_some_iff, Prod.mk.injEq,
    Exec.toOption_eq_some] at hrun
  obtain ⟨w, hw, ⟨s', msgs⟩, htick, b, hb, b', hb', rfl, rfl, rfl, rfl, rfl⟩ := hrun
  obtain ⟨hidle, hnothing, hpaid, heffect, hmsgs⟩ := of_decide_eq_true hcheck
  refine ⟨w, s', msgs, b, b', reachable_of_runAll initial_spec hw, hidle, htick, ?_, hb, hnothing,
    hb', hpaid, heffect, ?_⟩
  · simp only at hmsgs
    rw [hmsgs]
    exact ⟨_, _, _, _, _, List.mem_singleton_self _⟩
  · intro ratio hratio
    simp only at hnothing
    rw [hnothing] at hratio
    exact absurd rfl (Decimal.fromRatio_eq_ok.1 hratio).1

/-- A matured batch that is paid in full. -/
theorem idle_tick_accounts_sample : ∃ (w : World) (s' : Core.Storage) (msgs : List Core.CoreMsg)
    (payout : TransferReadyBatchesMsg),
    Core.executeTick w.core (w.querier deployment (answers members)) (w.env deployment)
      ⟨"bob", []⟩ = .ok (s', msgs) ∧ Core.Claims msgs (some payout) ∧
    ∃ balance now time, Core.PayoutBooks w.core s' now time balance payout := by
  have hrun : ((initial.runAll deployment matured).bind fun w =>
      (Core.executeTick w.core (w.querier deployment (answers members)) (w.env deployment)
        ⟨"bob", []⟩).toOption.map fun r => (w, r.1, r.2)).any
      (fun r => decide (r.1.core.fsmState = .idle ∧
        r.2.2 = [.puppeteer "puppeteer" (.claimRewardsAndOptionalyTransfer ["val"]
          (some ⟨[0], false, 100, "pump"⟩) (some 60) "core") []])) = true := by
    decide
  obtain ⟨w, s', msgs, hw, htick, hcheck⟩ := exists_tick_of_runAll hrun
  obtain ⟨hidle, hmsgs⟩ := of_decide_eq_true hcheck
  simp only at hmsgs
  have hclaims : Core.Claims msgs (some ⟨[0], false, 100, "pump"⟩) := by
    rw [hmsgs]
    exact ⟨_, _, _, _, _, List.mem_singleton_self _⟩
  obtain ⟨decided, hsent, -, hbooks⟩ := idle_tick_accounts hidle htick
  obtain ⟨balances, -, hpayout⟩ := hbooks _ (hsent _ hclaims).symm
  exact ⟨w, s', msgs, _, htick, hclaims, _, _, _, hpayout⟩

end Marks

/-! ## Failed payouts -/

section Failures

variable {d : Deployment} {w w' u : World} {id : ℕ}

/-- The batch is being paid, no packet in flight carries it, and the stored response does not say
that it has been paid. -/
structure Stuck (w : World) (id : ℕ) : Prop where
  paying : ∃ b, w.core.unbondBatches.load id = some b ∧ b.status.isPaying = true
  notCarried : ∀ p ∈ w.inFlight, id ∉ p.transaction.batchIds
  notPaid : ∀ r, w.core.lastPuppeteerResponse = some r → id ∉ r.paidBatches

/-- The batch can be selected for a payout again, and nothing is left of the last one. -/
def RolledBack (w : World) (id : ℕ) : Prop :=
  ∃ b, w.core.unbondBatches.load id = some b ∧ b.status = .unbonding ∧
    b.slashingEffect = none ∧ b.unbondedAmount = none

/-- A stuck batch has not been rolled back. -/
theorem Stuck.not_rolledBack (h : Stuck w id) : ¬ RolledBack w id := by
  rintro ⟨b, hb, hstatus, -⟩
  obtain ⟨b', hb', hpaying⟩ := h.paying
  rw [hb] at hb'
  rw [← Option.some.inj hb', hstatus] at hpaying
  cases hpaying

/-- Being stuck only depends on the batch, the packets and the response slot. -/
theorem Stuck.of_same (h : Stuck w id) (hsame : SameBatches w w')
    (hinFlight : ∀ p ∈ w'.inFlight, p ∈ w.inFlight) : Stuck w' id := by
  refine ⟨by rw [hsame.unbondBatches]; exact h.paying,
    fun p hp => h.notCarried p (hinFlight p hp), ?_⟩
  rw [hsame.lastPuppeteerResponse]
  exact h.notPaid

/-- A tick leaves a stuck batch alone, and does not list it. -/
theorem Stuck.tick (h : Stuck w id) (hpayout : PayoutInv w) {q : Core.Querier} {env : Env}
    {info : MessageInfo} {msgs : List Core.CoreMsg}
    (hcase : Core.TickCase w.core q env info w'.core msgs)
    (hinFlight : ∀ p ∈ w'.inFlight, id ∉ p.transaction.batchIds) : Stuck w' id := by
  obtain ⟨b, hb, hpaying⟩ := h.paying
  refine ⟨⟨b, ?_, hpaying⟩, hinFlight, fun r hr => ?_⟩
  · exact Core.tick_paying hpayout.batches hpayout.fits hcase hb hpaying h.notPaid
  · rcases Core.tick_response hcase with hnone | hsame
    · rw [hnone] at hr
      cases hr
    · exact h.notPaid r (hsame ▸ hr)

/-- A request of the current batch leaves a stuck batch alone. -/
theorem Stuck.push (h : Stuck w id) (hpayout : PayoutInv w) {batch : Core.UnbondBatch}
    {item : Core.UnbondItem}
    (hcore : w'.core = w.core.saveBatch w.core.unbondBatchId (batch.push item))
    (hinFlight : w'.inFlight = w.inFlight) : Stuck w' id := by
  obtain ⟨b, hb, hpaying⟩ := h.paying
  -- the batch that is being paid is not the current one
  have hne : id ≠ w.core.unbondBatchId := by
    intro heq
    rw [(hpayout.batches.new_iff id b hb).2 heq] at hpaying
    cases hpaying
  refine ⟨⟨b, ?_, hpaying⟩, ?_, ?_⟩
  · rw [hcore, Core.Storage.saveBatch, StorageMap.load_save_of_ne _ _ hne]
    exact hb
  · rw [hinFlight]
    exact h.notCarried
  · rw [hcore]
    exact h.notPaid

/-- The claim of a tick does not carry a stuck batch: it only lists batches that are unbonding. -/
theorem Stuck.not_claimed (h : Stuck w id) {q : Core.Querier} {env : Env} {info : MessageInfo}
    {contract : String} {msg : PuppeteerExecuteMsg} {funds paid : List Coin}
    {pconfig : Puppeteer.Config} {ica replyTo : String} {transaction : Transaction}
    (hcase : Core.TickCase w.core q env info w'.core [.puppeteer contract msg funds])
    (hrequests : Puppeteer.Requests pconfig ica paid msg transaction replyTo) :
    id ∉ transaction.batchIds := by
  intro hid
  cases hrequests with
  | claim validators payout timeout _ =>
    obtain ⟨b, hb, hpaying⟩ := h.paying
    obtain ⟨⟨b', hb', hstatus⟩, -⟩ := (tick_claim hcase).2.2.2 id hid
    rw [hb] at hb'
    rw [Option.some.inj hb', hstatus] at hpaying
    cases hpaying
  | _ => cases hid

/-- A stuck batch stays stuck when core accepts an outcome. -/
theorem Stuck.accepted (h : Stuck w id) {p : Packet} {outcome : World.Outcome}
    (hmem : w.inFlight = [p]) (hhook : Core.HookFrame w.core w'.core (p.outcomeMsg outcome))
    (hinFlight : w'.inFlight = []) : Stuck w' id := by
  refine ⟨by rw [hhook.unbondBatches]; exact h.paying, by simp [hinFlight], fun r hr hpaid => ?_⟩
  rw [hhook.lastPuppeteerResponse] at hr
  have hcarried := Core.mem_batchIds_of_paid hpaid
  rw [← Option.some.inj hr, outcomeMsg_transaction] at hcarried
  exact h.notCarried p (by rw [hmem]; exact List.mem_singleton_self p) hcarried

/-- **A stuck batch stays stuck** in every step. -/
theorem Stuck.step {a : Action} (h : Stuck w id) (hflow : FlowInv d w) (hpayout : PayoutInv w)
    (hstep : Step d w a w') : Stuck w' id := by
  cases step_batches hflow hstep with
  | quiet a _ hquiet hsame hinFlight => exact h.of_same hsame hinFlight
  | unbond answers sender funds batch item _ hbatch hcore hfit hinFlight =>
    exact h.push hpayout hcore hinFlight
  | tick answers sender funds bank _ htick hinFlight =>
    refine h.tick hpayout (Core.executeTick_ok htick).2 ?_
    rw [hinFlight]
    exact h.notCarried
  | tickSubmit answers sender funds bank contract msg msgFunds p _ htick hsub =>
    have hcase := (Core.executeTick_ok htick).2
    obtain ⟨ica, replyTo, -, hrequests, -⟩ := hsub.requested
    refine h.tick hpayout hcase fun p' hp' => ?_
    rw [hflow.inFlight_of_submission hsub, List.mem_singleton] at hp'
    rw [hp']
    exact h.not_claimed hcase hrequests
  | accepted outcome p _ hmem hhook hinFlight => exact h.accepted hmem hhook hinFlight

/-- A stuck batch stays stuck along every run. -/
theorem Stuck.run (h : Stuck w id) (hreachable : Reachable d w) (hrun : Run (Step d) w u) :
    Stuck u id := by
  refine hreachable.preserves (P := fun t => Stuck t id) hrun ?_ h
  intro s a t hs _ hstep hstuck
  exact hstuck.step (flowInv_of_reachable hs) (payoutInv_of_reachable hs) hstep

/-- **The failure of a payout** leaves its batches stuck, whether core accepts the outcome or
not. -/
theorem stuck_of_failed (h : Reachable d w) {p : Packet} {outcome : World.Outcome}
    (hp : p ∈ w.inFlight) (hid : id ∈ p.transaction.batchIds) (hfailed : outcome ≠ .response)
    (hstep : Step d w (.deliver p.seq outcome) w') : Stuck w' id := by
  have hflow := flowInv_of_reachable h
  have hpayout := payoutInv_of_reachable h
  obtain ⟨hpaying, hlisted⟩ := hpayout.paying p hp id hid
  cases step_cases hflow.wired hstep with
  | environment _ _ henvironment => cases henvironment
  | accepted seq outcome p' txState transaction core _ hp' htx hwaiting htrans hhook hcore _ _
      hinFlight =>
    obtain ⟨-, hmem, htx'⟩ := hflow.of_find hp'
    have hframe := Core.executePuppeteerHook_ok hhook
    refine ⟨by rw [hcore, hframe.unbondBatches]; exact hpaying, by rw [hinFlight, hmem]; simp, ?_⟩
    rintro r hr hpaid
    rw [hcore, hframe.lastPuppeteerResponse] at hr
    rw [← Option.some.inj hr] at hpaid
    cases outcome with
    | response => exact hfailed rfl
    | error details => cases hpaid
    | timeout => cases hpaid
  | refused seq outcome p' _ hp' hrefused hcore hinFlight =>
    obtain ⟨-, hmem, -⟩ := hflow.of_find hp'
    refine ⟨by rw [hcore.core]; exact hpaying, by rw [hinFlight, hmem]; simp, ?_⟩
    rw [hcore.core]
    exact fun r hr hpaid => hlisted r hr (Core.mem_batchIds_of_paid hpaid)

/-- **A payout that fails is never rolled back.** From the failure on, its batches are being paid
in every state of the run, while no packet in flight carries them and no stored response says that
they have been paid.

**Proof sketch.** A batch in flight is marked, and the failure does not touch the mark. Ticks only
look at batches that are unbonding, or that a successful response lists. -/
theorem failed_payout_stuck (h : Reachable d w) {p : Packet} {outcome : World.Outcome}
    (hp : p ∈ w.inFlight) (hid : id ∈ p.transaction.batchIds) (hfailed : outcome ≠ .response)
    (hstep : Step d w (.deliver p.seq outcome) w') (hrun : Run (Step d) w' u) :
    Stuck u id ∧ ¬ RolledBack u id := by
  have hstuck := (stuck_of_failed h hp hid hfailed hstep).run (h.tail hstep) hrun
  exact ⟨hstuck, hstuck.not_rolledBack⟩

/-- A run of the sample deployment whose claim carries the matured batch and fails. -/
theorem exists_failed_payout : ∃ (w w' : World) (p : Packet), Reachable deployment w ∧
    p ∈ w.inFlight ∧ 0 ∈ p.transaction.batchIds ∧
      Step deployment w (.deliver p.seq (.error "failed")) w' := by
  have hrun : ((initial.runAll deployment (matured ++ [tick])).bind fun w =>
      (w.exec deployment (.deliver 4 (.error "failed"))).map fun w' => (w, w')).any
      (fun r => r.1.inFlight.any fun p =>
        decide (p.seq = 4 ∧ 0 ∈ p.transaction.batchIds)) = true := by
    decide
  obtain ⟨w, w', hw, hw', hcheck⟩ := exists_step_of_runWhere hrun
  obtain ⟨p, hp, hcheck⟩ := List.any_eq_true.1 hcheck
  obtain ⟨hseq, hid⟩ := of_decide_eq_true hcheck
  rw [← hseq] at hw'
  exact ⟨w, w', p, reachable_of_runAll initial_spec hw, hp, hid, hw'⟩

/-- The claim of the sample deployment that carries its matured batch fails. -/
theorem failed_payout_sample : ∃ (w w' : World) (p : Packet),
    p ∈ w.inFlight ∧ 0 ∈ p.transaction.batchIds ∧
      Step deployment w (.deliver p.seq (.error "failed")) w' ∧ Stuck w' 0 := by
  obtain ⟨w, w', p, hreachable, hp, hid, hw'⟩ := exists_failed_payout
  exact ⟨w, w', p, hp, hid, hw',
    (failed_payout_stuck hreachable hp hid (by simp) hw' (RunWhere.refl w')).1⟩

/-- **A payout that fails does not become eligible again**, although its transaction is neither
outstanding nor successful. -/
theorem failed_payout_lost : ¬ ∀ (d : Deployment) (w w' : World) (p : Packet)
    (outcome : World.Outcome) (id : ℕ), Reachable d w → p ∈ w.inFlight →
      id ∈ p.transaction.batchIds → outcome ≠ .response →
      Step d w (.deliver p.seq outcome) w' →
      ∃ u, Run (Step d) w' u ∧ RolledBack u id := by
  intro hall
  obtain ⟨w, w', p, hreachable, hp, hid, hw'⟩ := exists_failed_payout
  obtain ⟨u, hrun, hback⟩ := hall deployment w w' p (.error "failed") 0 hreachable hp hid
    (by simp) hw'
  have hstuck := stuck_of_failed hreachable hp hid (by simp) hw'
  exact (hstuck.run (hreachable.tail hw') hrun).not_rolledBack hback

end Failures

end System

end DropContracts
