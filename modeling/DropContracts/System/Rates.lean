import DropContracts.Core.ExchangeRate
import DropContracts.System.BatchInvariant
import DropContracts.System.Scenario

set_option relaxedAutoImplicit false
set_option autoImplicit false

/-!
# The exchange rate along a run

Two questions about the rate in the reachable states: whether it can be computed, and what an
unbond does to its numerator. Both come down to the two units of the formula. The amount that is
waiting to be unbonded is counted in liquid tokens and taken from base tokens.

## Main definitions

* `System.RateCovered` — the rate can be computed while an amount of base tokens comes in.

## Main results

* `System.rate_ne_abort_iff` — when the computation of the rate returns, for a tick, an unbond
  and a bond.
* `System.unbond_numerator_iff` — when an unbond takes what it promises from the numerator.
* `System.rate_aborts`, `System.unbond_takes_other` — neither is always so.
-/

namespace DropContracts

namespace System

open Exec

section Rates

open Sample

variable {d : Deployment} {w w' : World}

/-- With `assets` behind the liquid tokens, if there are any, their rate can be computed while
`stake` base tokens come in. -/
def RateCovered (w : World) (assets stake : ℕ) : Prop :=
  ∀ ldDenom, w.core.config.ldDenom = some ldDenom → w.bank.supply ldDenom ≠ 0 →
    Core.RateFits assets w.core.unbondedTotal stake (w.bank.supply ldDenom)

/-- The rate of the liquid tokens, if there are any, is not rounded to zero. -/
def RatePositive (w : World) (assets : ℕ) : Prop :=
  ∀ ldDenom, w.core.config.ldDenom = some ldDenom → w.bank.supply ldDenom ≠ 0 →
    w.bank.supply ldDenom ≤ (assets - w.core.unbondedTotal) * Decimal.fractional

/-! ## Whether the rate can be computed -/

/-- What a bond records makes the assets grow by the bonded coin. -/
theorem assets_recordBond {answers : Answers} {sender : String} {funds : List Coin} {bank : Bank}
    (hsender : sender ≠ d.core) (hwired : Wired d w.core.config)
    (hbank : w.bank.send sender d.core funds = some bank) {s : Core.Storage} {coin : Coin}
    (hrecord : Core.recordBond w.core (({ w with bank := bank } : World).querier d answers)
      ⟨sender, funds⟩ = .ok (s, coin)) :
    s.assets (({ w with bank := bank } : World).querier d answers) =
      w.core.assets (w.querier d answers) + coin.amount := by
  obtain ⟨hfunds, hframe, hlsm⟩ := Core.recordBond_ok hrecord
  simp only at hfunds
  rw [hfunds] at hbank
  have hbase := hwired.baseDenom
  unfold Core.Storage.assets
  rw [hframe.config]
  show Core.Querier.delegated _ + bank.balance d.core w.core.config.baseDenom + s.totalLsmShares =
    Core.Querier.delegated _ + w.bank.balance d.core w.core.config.baseDenom +
      w.core.totalLsmShares + coin.amount
  have hdelegated : (({ w with bank := bank } : World).querier d answers).delegated =
      (w.querier d answers).delegated := rfl
  rw [hdelegated]
  rcases hlsm with ⟨hdenom, hlsm⟩ | ⟨hdenom, hlsm⟩
  · rw [hlsm, ← hdenom, Bank.balance_send_singleton hbank hsender]
    omega
  · rw [hlsm, Bank.balance_send_of_ne hbank (by simpa using hdenom)]
    omega

/-- **When the rate can be computed.** In `Idle`, a tick and an unbond can compute it exactly when
the assets cover what is waiting to be unbonded; a bond can exactly when that is so before it, and
the rate is not rounded to zero.

**Proof sketch.** In `Idle` only the current and the failed batch are waiting. The bonded coin is
added to the assets and taken away again. -/
theorem rate_ne_abort_iff (h : Reachable d w) (hidle : w.core.fsmState = .idle)
    (answers : Answers) {sender : String} {funds : List Coin} {bank : Bank}
    (hsender : sender ≠ d.core) (hbank : w.bank.send sender d.core funds = some bank) :
    (Core.queryExchangeRate w.core (({ w with bank := bank } : World).querier d answers) none ≠
        .error .abort ↔
      RateCovered w
        (w.core.assets (({ w with bank := bank } : World).querier d answers)) 0) ∧
    ∀ s coin, Core.recordBond w.core (({ w with bank := bank } : World).querier d answers)
        ⟨sender, funds⟩ = .ok (s, coin) →
      (Core.bondRatio s (({ w with bank := bank } : World).querier d answers) coin.amount ≠
          .error .abort ↔
        RateCovered w (w.core.assets (w.querier d answers)) coin.amount ∧
          RatePositive w (w.core.assets (w.querier d answers))) := by
  have hbatches := (payoutInv_of_reachable h).batches
  have hsupply : bank.supply = w.bank.supply := (Bank.send_ok hbank).1
  constructor
  · rw [Core.queryExchangeRate_ne_abort_iff hbatches hidle rfl none rfl, RateCovered, ← hsupply]
    rfl
  · intro s coin hrecord
    have hassets := assets_recordBond hsender (flowInv_of_reachable h).wired hbank hrecord
    obtain ⟨-, hframe, -⟩ := Core.recordBond_ok hrecord
    have hbatches' : Core.BatchesInv s :=
      hbatches.of_same hframe.unbondBatches hframe.unbondBatchId hframe.failedBatchId
        hframe.fsmState
    have htotal : s.unbondedTotal = w.core.unbondedTotal := by
      rw [Core.Storage.unbondedTotal, hframe.unbondBatches, hframe.unbondBatchId,
        hframe.failedBatchId]
      rfl
    rw [Core.bondRatio_ne_abort_iff hbatches' (hframe.fsmState.trans hidle) rfl hassets,
      RateCovered, RatePositive, hframe.config, htotal, ← hsupply]
    constructor
    · intro hall
      exact ⟨fun ld hld hne => (hall ld hld hne).1, fun ld hld hne => (hall ld hld hne).2⟩
    · rintro ⟨hcovered, hpositive⟩ ld hld hne
      exact ⟨hcovered ld hld hne, hpositive ld hld hne⟩

/-- The sample deployment after a bond, where the rate can be computed for a bond of one coin. -/
theorem rate_ne_abort_sample : ∃ (w : World) (bank : Bank) (s : Core.Storage),
    Reachable deployment w ∧ w.core.fsmState = .idle ∧ w.bank.supply "udatom" = 1000 ∧
      Core.queryExchangeRate w.core
        (({ w with bank := bank } : World).querier deployment (answers members)) none ≠
          .error .abort ∧
      Core.bondRatio s
        (({ w with bank := bank } : World).querier deployment (answers members)) 1 ≠
          .error .abort := by
  have hrun : ((initial.runAll deployment (setup ++ staked)).bind fun w =>
      (w.bank.send "alice" "core" [⟨"ibc/uatom", 1⟩]).bind fun bank =>
        (Core.recordBond w.core
          (({ w with bank := bank } : World).querier deployment (answers members))
          ⟨"alice", [⟨"ibc/uatom", 1⟩]⟩).toOption.map fun r => (w, bank, r.1, r.2)).any
      (fun r => decide (r.1.core.fsmState = .idle ∧ r.1.core.config.ldDenom = some "udatom" ∧
        r.1.bank.supply "udatom" = 1000 ∧
        r.1.core.assets (({ r.1 with bank := r.2.1 } : World).querier deployment
          (answers members)) = 1001 ∧
        r.1.core.assets (r.1.querier deployment (answers members)) = 1000 ∧
        r.1.core.unbondedTotal = 0 ∧ r.2.2.2.amount = 1)) = true := by
    decide
  obtain ⟨⟨_, _, _, _⟩, hrun, hcheck⟩ := (Option.any_eq_true _ _).1 hrun
  simp only [Option.bind_eq_some_iff, Option.map_eq_some_iff, Prod.mk.injEq,
    toOption_eq_some] at hrun
  obtain ⟨w, hw, bank, hbank, ⟨s, coin⟩, hrecord, rfl, rfl, rfl, rfl⟩ := hrun
  obtain ⟨hidle, hld, hsupply, hpaid, hassets, hunbonded, hamount⟩ := of_decide_eq_true hcheck
  have hreachable := reachable_of_runAll initial_spec hw
  obtain ⟨hrate, hratio⟩ :=
    rate_ne_abort_iff hreachable hidle (answers members) (by decide) hbank
  have hratio := hratio s coin hrecord
  rw [hpaid, RateCovered, hld, hunbonded] at hrate
  rw [hassets, RateCovered, RatePositive, hld, hunbonded, hamount] at hratio
  simp only [Option.some.injEq, forall_eq'] at hrate hratio
  rw [hsupply] at hrate hratio
  refine ⟨w, bank, s, hreachable, hidle, hsupply, hrate.2 fun _ => ?_,
    hratio.2 ⟨fun _ => ?_, fun _ => by decide⟩⟩
  · exact ⟨by decide, by decide, by decide⟩
  · exact ⟨by decide, by decide, by decide⟩

/-- **The computation of the rate can abort.** All base tokens are delegated, a request for 600
liquid tokens waits, and a slashing halves the delegation to 500. -/
theorem rate_aborts : ¬ ∀ (d : Deployment) (w : World) (answers : Answers), Reachable d w →
    w.core.fsmState = .idle →
      Core.queryExchangeRate w.core (w.querier d answers) none ≠ .error .abort := by
  intro hall
  have hrun : (initial.runAll deployment (setup ++ staked ++ [unbond 600, remote 0 500])).any
      (fun w => decide (w.core.fsmState = .idle ∧
        Core.queryExchangeRate w.core (w.querier deployment (answers members)) none =
          .error .abort)) = true := by
    decide
  obtain ⟨w, hw, hcheck⟩ := (Option.any_eq_true _ _).1 hrun
  obtain ⟨hidle, habort⟩ := of_decide_eq_true hcheck
  exact hall deployment w (answers members) (reachable_of_runAll initial_spec hw) hidle habort

/-! ## What an unbond does to the rate -/

/-- A payment in liquid tokens leaves the base tokens of core alone. -/
theorem baseBalance_of_send (hwired : Wired d w.core.config) {sender : String} {amount : ℕ}
    {bank : Bank} (hbank : w.bank.send sender d.core [⟨d.tokenDenom, amount⟩] = some bank) :
    bank.balance d.core w.core.config.baseDenom =
      w.bank.balance d.core w.core.config.baseDenom := by
  have hbase : d.tokenDenom ≠ w.core.config.baseDenom := by
    rw [hwired.baseDenom]
    exact d.base_ne_token.symm
  exact Bank.balance_send_of_ne hbank (by simpa using hbase) d.core

/-- A payment in liquid tokens adds nothing to the assets. -/
theorem assets_of_send (hwired : Wired d w.core.config) (answers : Answers) {sender : String}
    {amount : ℕ} {bank : Bank}
    (hbank : w.bank.send sender d.core [⟨d.tokenDenom, amount⟩] = some bank) :
    w.core.assets (({ w with bank := bank } : World).querier d answers) =
      w.core.assets (w.querier d answers) := by
  have hsent := baseBalance_of_send hwired hbank
  unfold Core.Storage.assets
  show _ + bank.balance d.core _ + _ = _
  rw [hsent]
  rfl

/-- A request that is added to a batch adds nothing to the assets. -/
theorem assets_of_saveBatch {batch : Core.UnbondBatch} {id : ℕ} (answers answers' : Answers)
    (hcore : w'.core = w.core.saveBatch id batch) (hpuppeteer : w'.puppeteer = w.puppeteer)
    (hbalance : w'.bank.balance d.core w.core.config.baseDenom =
      w.bank.balance d.core w.core.config.baseDenom) :
    w'.core.assets (w'.querier d answers') = w.core.assets (w.querier d answers) := by
  have hdelegated : (w'.querier d answers').delegated = (w.querier d answers).delegated := by
    show Core.Querier.delegated _ = Core.Querier.delegated _
    simp only [Core.Querier.delegated, World.querier, hpuppeteer]
  unfold Core.Storage.assets
  rw [hcore]
  show Core.Querier.delegated (w'.querier d answers') +
    w'.bank.balance d.core w.core.config.baseDenom + w.core.totalLsmShares = _
  rw [hbalance, hdelegated]
  rfl

/-- **Everything an unbond does** to what the rate is computed from: the request, valued at the
rate before it, is added to the current batch, and its liquid tokens are burnt. -/
theorem unbond_effect (h : Reachable d w) (hidle : w.core.fsmState = .idle) {answers : Answers}
    {sender : String} {amount numerator : ℕ}
    (hnumerator : Core.exchangeRateNumerator w.core (w.querier d answers) none = .ok numerator)
    (hamount : amount < w.bank.supply d.tokenDenom)
    (hstep : Step d w (.execute answers sender [⟨d.tokenDenom, amount⟩] .unbond) w') :
    0 < amount ∧ w'.bank.supply d.tokenDenom = w.bank.supply d.tokenDenom - amount ∧
      ∃ batch, w.core.unbondBatches.load w.core.unbondBatchId = some batch ∧
        w'.core = w.core.saveBatch w.core.unbondBatchId (batch.push ⟨sender, amount,
          amount * (numerator * Decimal.fractional / w.bank.supply d.tokenDenom) /
            Decimal.fractional⟩) ∧
        ∀ answers', w'.core.assets (w'.querier d answers') =
          w.core.assets (w.querier d answers) := by
  have hwired := (flowInv_of_reachable h).wired
  have hbatches := (payoutInv_of_reachable h).batches
  cases step_cases hwired hstep with
  | environment _ _ henvironment => cases henvironment
  | admin _ _ _ _ core _ hmsg => cases hmsg
  | unbond _ _ _ q bank core msgs _ hbank hq hunbond hcore hvouchers hsupply hpuppeteer
      hbalance =>
    obtain ⟨ldDenom, amount', batch, rate, expected, hld, hfunds, hpos, hbatch, hrate, hexpected,
      hs, hmsgs⟩ := Core.executeUnbond_ok hunbond
    obtain ⟨rfl, rfl⟩ : d.tokenDenom = ldDenom ∧ amount = amount' := by simpa using hfunds
    have hbase : w.core.config.baseDenom ≠ d.tokenDenom := by
      rw [hwired.baseDenom]
      exact d.base_ne_token
    -- the payment is made in liquid tokens, and the rate only reads balances of base tokens
    have hassets : w.core.assets q = w.core.assets (w.querier d answers) := by
      rw [hq]
      exact assets_of_send hwired answers hbank
    have hpaid : q.supply d.tokenDenom = w.bank.supply d.tokenDenom := by
      rw [hq]
      show bank.supply d.tokenDenom = _
      rw [(Bank.send_ok hbank).1]
    have hne : q.supply d.tokenDenom ≠ 0 := by omega
    obtain ⟨-, hrest⟩ := (Core.exchangeRateNumerator_eq_ok hbatches (by simp [hidle]) rfl).1
      hnumerator
    have hdelegations : q.delegations = .ok (Puppeteer.queryDelegations w.puppeteer) := by
      rw [hq]
      rfl
    have hnone : w.core.assets q = w.core.assets q + (none : Option ℕ).getD 0 := rfl
    obtain ⟨-, hatomics⟩ := (Core.queryExchangeRate_eq_ok hbatches hidle hdelegations hld hne
      hnone).1 hrate
    have hnum : w.core.assets q - w.core.unbondedTotal = numerator := by
      rw [hassets]
      simp only [Option.getD_none] at hrest
      omega
    rw [hnum, hpaid] at hatomics
    obtain ⟨-, -, hsupply⟩ := hsupply _ _ _ hmsgs
    refine ⟨Nat.pos_of_ne_zero hpos, hsupply, batch, hbatch, ?_, fun answers' => ?_⟩
    · rw [hcore, hs, ← hatomics, hexpected]
    · exact assets_of_saveBatch answers answers' (hcore.trans hs) hpuppeteer (hbalance _ _ hbase)

/-- A request of the current batch adds to what is waiting to be unbonded. -/
theorem unbondedTotal_push {s : Core.Storage} (h : Core.BatchesInv s) {batch : Core.UnbondBatch}
    (hbatch : s.unbondBatches.load s.unbondBatchId = some batch) (item : Core.UnbondItem) :
    (s.saveBatch s.unbondBatchId (batch.push item)).unbondedTotal =
      s.unbondedTotal + item.amount := by
  have hfailed : (s.saveBatch s.unbondBatchId (batch.push item)).failedBatchId.bind
      (s.saveBatch s.unbondBatchId (batch.push item)).unbondBatches.load =
        s.failedBatchId.bind s.unbondBatches.load := by
    show s.failedBatchId.bind _ = _
    cases hid : s.failedBatchId with
    | none => rfl
    | some id =>
      have hsucc := (h.failed_succ id hid).1
      exact StorageMap.load_save_of_ne _ _ (by omega)
  have hcurrent : (s.saveBatch s.unbondBatchId (batch.push item)).unbondBatches.load
      s.unbondBatchId = some (batch.push item) := StorageMap.load_save_self _ _ _
  unfold Core.Storage.unbondedTotal
  rw [hfailed]
  show Core.batchTotal ((s.saveBatch s.unbondBatchId (batch.push item)).unbondBatches.load
    s.unbondBatchId) + _ = _
  rw [hcurrent, hbatch]
  show batch.totalAmount + item.amount + _ = batch.totalAmount + _ + item.amount
  omega

/-- **When an unbond takes what it promises from the numerator.** The numerator after the unbond of
`amount` liquid tokens is the one before less the promised base amount exactly when the rate is not
below one and its surplus over one, on this amount, is rounded away.

**Proof sketch.** What is waiting to be unbonded grows by `amount`, so the numerator falls by
`amount`, while the promised base amount is `amount` at the rate. -/
theorem unbond_numerator_iff (h : Reachable d w) (hidle : w.core.fsmState = .idle)
    {answers : Answers} {sender : String} {amount numerator : ℕ}
    (hnumerator : Core.exchangeRateNumerator w.core (w.querier d answers) none = .ok numerator)
    (hamount : amount < w.bank.supply d.tokenDenom)
    (hstep : Step d w (.execute answers sender [⟨d.tokenDenom, amount⟩] .unbond) w') :
    w'.bank.supply d.tokenDenom = w.bank.supply d.tokenDenom - amount ∧
    ∃ batch expectedAmount, w.core.unbondBatches.load w.core.unbondBatchId = some batch ∧
      w'.core = w.core.saveBatch w.core.unbondBatchId
        (batch.push ⟨sender, amount, expectedAmount⟩) ∧
      ∀ answers', (Core.exchangeRateNumerator w'.core (w'.querier d answers') none =
          .ok (numerator - expectedAmount) ↔
        w.bank.supply d.tokenDenom ≤ numerator ∧
          amount * ((numerator - w.bank.supply d.tokenDenom) * Decimal.fractional /
            w.bank.supply d.tokenDenom) < Decimal.fractional) := by
  have hbatches := (payoutInv_of_reachable h).batches
  obtain ⟨hpos, hsupply, batch, hbatch, hcore, hassets⟩ :=
    unbond_effect h hidle hnumerator hamount hstep
  refine ⟨hsupply, batch, _, hbatch, hcore, fun answers' => ?_⟩
  have hbatches' : Core.BatchesInv w'.core := by
    rw [hcore]
    exact hbatches.push hbatch
  have hidle' : w'.core.fsmState = .idle := by
    rw [hcore]
    exact hidle
  have htotal := unbondedTotal_push hbatches hbatch ⟨sender, amount,
    amount * (numerator * Decimal.fractional / w.bank.supply d.tokenDenom) / Decimal.fractional⟩
  rw [← hcore] at htotal
  obtain ⟨hfits, hrest⟩ := (Core.exchangeRateNumerator_eq_ok hbatches (by simp [hidle]) rfl).1
    hnumerator
  have hle := Decimal.mul_rate_le (n := numerator) hamount.le
  rw [Core.exchangeRateNumerator_eq_ok hbatches' (by simp [hidle']) rfl, hassets, htotal,
    ← Decimal.mul_rate_eq_self_iff hpos (Nat.zero_lt_of_lt hamount)]
  simp only [Option.getD_none] at hrest ⊢
  constructor
  · rintro ⟨-, hrest'⟩
    omega
  · intro hself
    rw [hself]
    exact ⟨hfits, by omega⟩

/-- What is promised to the only request of a batch. -/
theorem expected_of_items {s s' : Core.Storage} {id amount expected expected' : ℕ}
    {sender : String} {batch : Core.UnbondBatch}
    (hcore : s' = s.saveBatch id (batch.push ⟨sender, amount, expected⟩))
    (hitems : (s'.unbondBatches.load id).map Core.UnbondBatch.unbondItems =
      some [⟨sender, amount, expected'⟩]) : expected = expected' := by
  rw [hcore, Core.Storage.saveBatch, StorageMap.load_save_self] at hitems
  have hlast := congrArg List.getLast? (Option.some.inj hitems)
  simpa [Core.UnbondBatch.push] using hlast

/-- An unbond of the sample deployment at rate one, which takes what it promises. -/
theorem unbond_numerator_sample : ∃ w w' : World,
    Step deployment w (unbond 100) w' ∧
      Core.exchangeRateNumerator w.core (w.querier deployment (answers members)) none =
        .ok 1000 ∧
      Core.exchangeRateNumerator w'.core (w'.querier deployment (answers members)) none =
        .ok 900 := by
  have hrun : ((initial.runAll deployment (setup ++ staked)).bind fun w =>
      (w.exec deployment (unbond 100)).map fun w' => (w, w')).any
      (fun r => decide (r.1.core.fsmState = .idle ∧ r.1.bank.supply "udatom" = 1000 ∧
        (r.2.core.unbondBatches.load 0).map Core.UnbondBatch.unbondItems =
          some [⟨"alice", 100, 100⟩] ∧ r.1.core.unbondBatchId = 0 ∧
        Core.exchangeRateNumerator r.1.core (r.1.querier deployment (answers members)) none =
          .ok 1000)) = true := by
    decide
  obtain ⟨w, w', hw, hw', hcheck⟩ := exists_step_of_runWhere hrun
  obtain ⟨hidle, hsupply, hitems, hid, hnumerator⟩ := of_decide_eq_true hcheck
  have hlt : 100 < w.bank.supply deployment.tokenDenom := by
    rw [show deployment.tokenDenom = "udatom" from rfl, hsupply]
    decide
  obtain ⟨-, batch, expected, -, hcore, hiff⟩ := unbond_numerator_iff
    (reachable_of_runAll initial_spec hw) hidle hnumerator hlt hw'
  have hexpected : expected = 100 := expected_of_items (hid ▸ hcore) hitems
  have hiff := hiff (answers members)
  rw [show deployment.tokenDenom = "udatom" from rfl, hsupply, hexpected] at hiff
  exact ⟨w, w', hw', hnumerator, hiff.2 ⟨le_rfl, by decide⟩⟩

/-- **An unbond can take something else than it promises.** At rate two, 100 liquid tokens are
promised 200 base tokens, and the numerator falls by 100. -/
theorem unbond_takes_other : ¬ ∀ (d : Deployment) (w w' : World) (answers : Answers)
    (sender : String) (amount numerator : ℕ), Reachable d w → w.core.fsmState = .idle →
      Core.exchangeRateNumerator w.core (w.querier d answers) none = .ok numerator →
      amount < w.bank.supply d.tokenDenom →
      Step d w (.execute answers sender [⟨d.tokenDenom, amount⟩] .unbond) w' →
      ∃ batch expectedAmount, w.core.unbondBatches.load w.core.unbondBatchId = some batch ∧
        w'.core = w.core.saveBatch w.core.unbondBatchId
          (batch.push ⟨sender, amount, expectedAmount⟩) ∧
        Core.exchangeRateNumerator w'.core (w'.querier d answers) none =
          .ok (numerator - expectedAmount) := by
  intro hall
  have hrun : ((initial.runAll deployment (setup ++ staked ++ [remote 0 2000])).bind fun w =>
      (w.exec deployment (unbond 100)).map fun w' => (w, w')).any
      (fun r => decide (r.1.core.fsmState = .idle ∧ r.1.bank.supply "udatom" = 1000 ∧
        (r.2.core.unbondBatches.load 0).map Core.UnbondBatch.unbondItems =
          some [⟨"alice", 100, 200⟩] ∧ r.1.core.unbondBatchId = 0 ∧
        Core.exchangeRateNumerator r.1.core (r.1.querier deployment (answers members)) none =
          .ok 2000 ∧
        Core.exchangeRateNumerator r.2.core (r.2.querier deployment (answers members)) none =
          .ok 1900)) = true := by
    decide
  obtain ⟨w, w', hw, hw', hcheck⟩ := exists_step_of_runWhere hrun
  obtain ⟨hidle, hsupply, hitems, hid, hnumerator, hafter⟩ := of_decide_eq_true hcheck
  have hlt : 100 < w.bank.supply deployment.tokenDenom := by
    rw [show deployment.tokenDenom = "udatom" from rfl, hsupply]
    decide
  obtain ⟨batch, expected, -, hcore, hclaim⟩ := hall deployment w w' _ _ _ _
    (reachable_of_runAll initial_spec hw) hidle hnumerator hlt hw'
  have hexpected : expected = 200 := expected_of_items (hid ▸ hcore) hitems
  rw [hafter, hexpected] at hclaim
  cases hclaim

end Rates

end System

end DropContracts
