import DropContracts.System.Rates

set_option relaxedAutoImplicit false
set_option autoImplicit false

/-!
# A bond extracts no value

A bond is valued at the rate without it, which is rounded down and so in favour of the depositor,
and is issued liquid tokens by the rounded reciprocal of that rate. The second rounding outweighs
the first: the rate does not fall, and the issued tokens, unbonded at once, are promised at most
what was bonded.

## Main definitions

* `System.BondEffect` — everything a bond does to what the rate is computed from.

## Main results

* `System.bond_effect` — a bond of a reachable state has this effect.
* `System.bond_rate` — in `Idle`, the rate after the bond is computed and is not below the one
  before.
* `System.bond_keeps_value` — the rate does not fall, and an immediate unbond is promised at most
  the bonded amount.
-/

namespace DropContracts

namespace System

section BondValue

open Sample

variable {d : Deployment} {w w' w'' : World}

/-- The rate of the liquid tokens in `Idle`, in atomics. -/
def World.idleRate (d : Deployment) (w : World) (answers : Answers) : ℕ :=
  Shares.rate Decimal.fractional (w.core.assets (w.querier d answers) - w.core.unbondedTotal)
    (w.bank.supply d.tokenDenom)

/-- What a bond does: `issued` liquid tokens are minted for the bonded coin at `rate`, the assets
grow by the coin, and nothing else changes that the rate is computed from. -/
structure BondEffect (d : Deployment) (w w' : World) (coin : Coin) (issued : ℕ) (rate : Decimal) :
    Prop where
  issued_pos : 0 < issued
  issued_eq : issued = Shares.issue Decimal.fractional coin.amount rate.atomics
  supply : w'.bank.supply d.tokenDenom = w.bank.supply d.tokenDenom + issued
  frame : Core.LsmFrame w.core w'.core
  exchangeRate : w'.core.exchangeRate = w.core.exchangeRate
  unbondedTotal : w'.core.unbondedTotal = w.core.unbondedTotal
  assets : ∀ answers, w'.core.assets (w'.querier d answers) =
    w.core.assets (w.querier d answers) + coin.amount
  cached : w.core.fsmState ≠ .idle → rate = (w.core.exchangeRate.getD (Decimal.one, 0)).1
  idle : w.core.fsmState = .idle → w.core.config.ldDenom = some d.tokenDenom ∧
    (w.bank.supply d.tokenDenom ≠ 0 → ∀ answers, rate.atomics = w.idleRate d answers ∧
      Core.RateFits (w.core.assets (w.querier d answers)) w.core.unbondedTotal coin.amount
        (w.bank.supply d.tokenDenom))

/-- **Everything a bond does** to what the rate is computed from. -/
theorem bond_effect (h : Reachable d w) {answers : Answers} {sender : String} {funds : List Coin}
    {receiver : Option String}
    (hstep : Step d w (.execute answers sender funds (.bond receiver)) w') :
    ∃ coin issued rate, funds = [coin] ∧ BondEffect d w w' coin issued rate := by
  have hwired := (flowInv_of_reachable h).wired
  have hbatches := (payoutInv_of_reachable h).batches
  obtain ⟨hsender, -, bank, core, msgs, after, hbank, hexec, -, hafter, rfl⟩ := execute_ok hstep
  obtain ⟨coin, rate, receiver', hrecord, hcache, hrate, hpos, rfl⟩ :=
    Core.executeBond_issue hexec
  obtain ⟨hfunds, hframe, -⟩ := Core.recordBond_ok hrecord
  simp only [World.dispatchAll, World.dispatch, Option.bind_eq_bind, Option.bind_eq_some_iff,
    Option.some.injEq] at hafter
  obtain ⟨w₁, hmint, rfl⟩ := hafter
  split_ifs at hmint
  obtain ⟨hissued, rfl⟩ := tokenMint_ok hmint
  have htotal : core.unbondedTotal = w.core.unbondedTotal := by
    rw [Core.Storage.unbondedTotal, hframe.unbondBatches, hframe.unbondBatchId,
      hframe.failedBatchId]
    rfl
  -- the assets do not depend on what the other contracts answer
  have hrecorded := assets_recordBond hsender hwired hbank hrecord
  have hassets : ∀ answers', core.assets
      (({ w with bank := bank } : World).querier d answers') =
        w.core.assets (w.querier d answers') + coin.amount := fun _ => hrecorded
  have hsupply : bank.supply d.tokenDenom = w.bank.supply d.tokenDenom := by
    rw [(Bank.send_ok hbank).1]
  refine ⟨coin, _, rate, hfunds, Nat.pos_of_ne_zero hissued, rfl, ?_, hframe, hcache, htotal,
    fun answers' => ?_, fun hstate => ?_, fun hidle => ?_⟩
  · show (bank.mint receiver' _).supply d.tokenDenom = _
    simp only [Bank.mint, ↓reduceIte, hsupply]
  · -- the liquid tokens that are minted are no base tokens
    rw [← hassets answers']
    have hbase : core.config.baseDenom ≠ d.tokenDenom := by
      rw [hframe.config, hwired.baseDenom]
      exact d.base_ne_token
    unfold Core.Storage.assets
    show _ + (bank.mint receiver' _).balance d.core core.config.baseDenom + _ =
      _ + bank.balance d.core core.config.baseDenom + _
    simp only [Bank.mint, Bank.creditCoin, hbase, and_false, ↓reduceIte]
    rfl
  · rw [Core.queryExchangeRate, hframe.fsmState, if_pos hstate, hcache] at hrate
    exact (Except.ok.inj hrate).symm
  · have hidle' : core.fsmState = .idle := hframe.fsmState.trans hidle
    have hld : core.config.ldDenom = some d.tokenDenom := by
      rw [hframe.config]
      refine hwired.ldDenom.resolve_left fun hnone => ?_
      rw [Core.queryExchangeRate, if_neg (by simp [hidle']), hframe.config, hnone] at hrate
      cases hrate
    refine ⟨by rw [← hframe.config, hld], fun hne answers' => ?_⟩
    have hbatches' : Core.BatchesInv core :=
      hbatches.of_same hframe.unbondBatches hframe.unbondBatchId hframe.failedBatchId
        hframe.fsmState
    obtain ⟨hfits, hatomics⟩ := (Core.queryExchangeRate_eq_ok hbatches' hidle' rfl hld
      (by show bank.supply d.tokenDenom ≠ 0; rwa [hsupply]) (hassets answers)).1 hrate
    have hpaid : (({ w with bank := bank } : World).querier d answers).supply d.tokenDenom =
        w.bank.supply d.tokenDenom := hsupply
    rw [htotal, hpaid] at hfits hatomics
    exact ⟨hatomics, hfits⟩

/-- **The rate does not fall.** In `Idle`, when there are liquid tokens, the rate can be queried
before and after a bond, and is not lower after it. -/
theorem bond_rate (h : Reachable d w) (h' : Reachable d w') (hidle : w.core.fsmState = .idle)
    (hsupply : w.bank.supply d.tokenDenom ≠ 0) {coin : Coin} {issued : ℕ} {rate : Decimal}
    (heffect : BondEffect d w w' coin issued rate) (answers : Answers) :
    Core.queryExchangeRate w.core (w.querier d answers) none = .ok ⟨w.idleRate d answers⟩ ∧
      Core.queryExchangeRate w'.core (w'.querier d answers) none =
        .ok ⟨w'.idleRate d answers⟩ ∧
      w.idleRate d answers ≤ w'.idleRate d answers ∧
      issued * w'.idleRate d answers ≤ coin.amount * Decimal.fractional := by
  obtain ⟨hld, hrate⟩ := heffect.idle hidle
  obtain ⟨hatomics, hcovered, hassets_lt, hrate_lt⟩ := hrate hsupply answers
  have hframe := heffect.frame
  have hidle' : w'.core.fsmState = .idle := hframe.fsmState.trans hidle
  have hld' : w'.core.config.ldDenom = some d.tokenDenom := by rw [hframe.config, hld]
  have hpos : 0 < w.bank.supply d.tokenDenom := Nat.pos_of_ne_zero hsupply
  have hsupply' : w'.bank.supply d.tokenDenom ≠ 0 := by
    rw [heffect.supply]
    omega
  have hassets := heffect.assets answers
  have hrest : w'.core.assets (w'.querier d answers) - w'.core.unbondedTotal =
      w.core.assets (w.querier d answers) - w.core.unbondedTotal + coin.amount := by
    rw [hassets, heffect.unbondedTotal]
    omega
  have hcost : issued * w.idleRate d answers ≤ coin.amount * Decimal.fractional := by
    rw [← hatomics, heffect.issued_eq]
    exact Shares.issue_mul_le _ _ _
  have hidleRate : w'.idleRate d answers = Shares.rate Decimal.fractional
      (w.core.assets (w.querier d answers) - w.core.unbondedTotal + coin.amount)
      (w.bank.supply d.tokenDenom + issued) := by
    rw [World.idleRate, hrest, heffect.supply]
  have hfits : Core.RateFits (w.core.assets (w.querier d answers)) w.core.unbondedTotal 0
      (w.bank.supply d.tokenDenom) := ⟨hcovered, by omega, hrate_lt⟩
  have hfits' : Core.RateFits (w'.core.assets (w'.querier d answers)) w'.core.unbondedTotal 0
      (w'.bank.supply d.tokenDenom) := by
    refine ⟨by rw [hassets, heffect.unbondedTotal]; omega, by rw [hassets]; omega, ?_⟩
    rw [hrest, heffect.supply, heffect.issued_eq]
    have hissued := heffect.issued_pos
    rw [heffect.issued_eq] at hissued
    exact Shares.rate_add_lt (by decide) hpos hissued hrate_lt
  refine ⟨?_, ?_, ?_, ?_⟩
  · exact Core.queryExchangeRate_of_fits (payoutInv_of_reachable h).batches hidle rfl hld hsupply
      none rfl hfits
  · exact Core.queryExchangeRate_of_fits (payoutInv_of_reachable h').batches hidle' rfl hld'
      hsupply' none rfl hfits'
  · rw [hidleRate]
    exact Shares.rate_le_rate_add hpos hcost
  · rw [hidleRate]
    exact Shares.mul_rate_add_le hpos hcost

/-- A payment in liquid tokens does not change the rate. -/
theorem rate_of_send (hwired : Wired d w.core.config) (answers : Answers) {sender : String}
    {amount : ℕ} {bank : Bank}
    (hbank : w.bank.send sender d.core [⟨d.tokenDenom, amount⟩] = some bank) :
    Core.queryExchangeRate w.core (({ w with bank := bank } : World).querier d answers) none =
      Core.queryExchangeRate w.core (w.querier d answers) none := by
  have hsent := baseBalance_of_send hwired hbank
  unfold Core.queryExchangeRate Core.exchangeRateNumerator
  simp only [World.querier, hsent, (Bank.send_ok hbank).1]
  rfl

/-- **What an unbond promises**: the paid liquid tokens at the rate before it. -/
theorem unbond_promise (hflow : FlowInv d w) {answers : Answers} {sender : String} {amount : ℕ}
    (hstep : Step d w (.execute answers sender [⟨d.tokenDenom, amount⟩] .unbond) w') :
    ∃ batch rate, w.core.unbondBatches.load w.core.unbondBatchId = some batch ∧
      Core.queryExchangeRate w.core (w.querier d answers) none = .ok rate ∧
      w'.core = w.core.saveBatch w.core.unbondBatchId (batch.push ⟨sender, amount,
        Shares.worth Decimal.fractional amount rate.atomics⟩) := by
  cases step_cases hflow.wired hstep with
  | environment _ _ henvironment => cases henvironment
  | admin _ _ _ _ core _ hmsg => cases hmsg
  | unbond _ _ _ q bank core msgs _ hbank hq hunbond hcore =>
    obtain ⟨ldDenom, amount', batch, rate, expected, -, hfunds, -, hbatch, hrate, hexpected, hs,
      -⟩ := Core.executeUnbond_ok hunbond
    obtain ⟨rfl, rfl⟩ : d.tokenDenom = ldDenom ∧ amount = amount' := by simpa using hfunds
    rw [hq, rate_of_send hflow.wired answers hbank] at hrate
    exact ⟨batch, rate, hbatch, hrate, by rw [hcore, hs, Shares.worth, hexpected]⟩

/-- **A bond extracts no value.** When there are liquid tokens and a bond of `amount` succeeds and
mints `issued` of them, then in `Idle` the rate can be queried before and after it and is not lower
after it; and in every state an unbond of the `issued` tokens that follows is promised at most
`amount`.

**Proof sketch.** Both roundings of the issue are against the depositor, so the issued tokens cost
at least their price. Then the floor of the new rate is not below the floor of the old one, and the
issued tokens are not worth more than was paid at either. -/
theorem bond_keeps_value (h : Reachable d w) (hsupply : w.bank.supply d.tokenDenom ≠ 0)
    {answers : Answers} {sender : String} {funds : List Coin} {receiver : Option String}
    (hstep : Step d w (.execute answers sender funds (.bond receiver)) w') :
    ∃ denom amount issued, funds = [⟨denom, amount⟩] ∧ 0 < issued ∧
      w'.bank.supply d.tokenDenom = w.bank.supply d.tokenDenom + issued ∧
      (w.core.fsmState = .idle → ∀ answers', ∃ rate rate',
        Core.queryExchangeRate w.core (w.querier d answers') none = .ok rate ∧
        Core.queryExchangeRate w'.core (w'.querier d answers') none = .ok rate' ∧
        rate.atomics ≤ rate'.atomics) ∧
      ∀ answers' sender' w'',
        Step d w' (.execute answers' sender' [⟨d.tokenDenom, issued⟩] .unbond) w'' →
        ∃ batch expectedAmount, w'.core.unbondBatches.load w'.core.unbondBatchId = some batch ∧
          w''.core = w'.core.saveBatch w'.core.unbondBatchId
            (batch.push ⟨sender', issued, expectedAmount⟩) ∧
          expectedAmount ≤ amount := by
  obtain ⟨⟨denom, amount⟩, issued, rate, hfunds, heffect⟩ := bond_effect h hstep
  have h' : Reachable d w' := h.tail hstep
  refine ⟨denom, amount, issued, hfunds, heffect.issued_pos, heffect.supply,
    fun hidle answers' => ?_, fun answers' sender' w'' hunbond => ?_⟩
  · obtain ⟨hbefore, hafter, hle, -⟩ := bond_rate h h' hidle hsupply heffect answers'
    exact ⟨_, _, hbefore, hafter, hle⟩
  · obtain ⟨batch, rate', hbatch, hrate', hcore⟩ :=
      unbond_promise (flowInv_of_reachable h') hunbond
    refine ⟨batch, _, hbatch, hcore, Shares.worth_le ?_⟩
    by_cases hidle : w.core.fsmState = .idle
    · obtain ⟨-, hafter, -, hcost⟩ := bond_rate h h' hidle hsupply heffect answers'
      rw [hafter] at hrate'
      rw [← Except.ok.inj hrate']
      exact hcost
    · -- the cached rate is the same before and after the bond
      have hstate' : w'.core.fsmState ≠ .idle := by
        rw [heffect.frame.fsmState]
        exact hidle
      rw [Core.queryExchangeRate, if_pos hstate', heffect.exchangeRate,
        ← heffect.cached hidle] at hrate'
      rw [← Except.ok.inj hrate', heffect.issued_eq]
      exact Shares.issue_mul_le _ _ _

/-- In the sample deployment a bond of 7 at a rate of three halves is issued 4 liquid tokens, and
these are promised 6 when they are unbonded at once. -/
theorem bond_keeps_value_sample : ∃ (w w' w'' : World) (batch : Core.UnbondBatch)
    (expectedAmount : ℕ), Reachable deployment w ∧
      Step deployment w (bond 7) w' ∧ Step deployment w' (unbond 4) w'' ∧
      w'.bank.supply "udatom" = w.bank.supply "udatom" + 4 ∧
      w''.core = w'.core.saveBatch w'.core.unbondBatchId
        (batch.push ⟨"alice", 4, expectedAmount⟩) ∧ expectedAmount ≤ 7 := by
  have hrun : ((initial.runAll deployment (setup ++ staked ++ [remote 0 1500])).bind fun w =>
      (w.exec deployment (bond 7)).bind fun w' =>
        (w'.exec deployment (unbond 4)).map fun w'' => (w, w', w'')).any
      (fun r => decide (r.1.bank.supply "udatom" = 1000 ∧
        r.2.1.bank.supply "udatom" = 1004)) = true := by
    decide
  obtain ⟨⟨_, _, _⟩, hrun, hcheck⟩ := (Option.any_eq_true _ _).1 hrun
  simp only [Option.bind_eq_some_iff, Option.map_eq_some_iff, Prod.mk.injEq] at hrun
  obtain ⟨w, hw, w', hbond, w'', hunbond, rfl, rfl, rfl⟩ := hrun
  obtain ⟨hbefore, hafter⟩ := of_decide_eq_true hcheck
  simp only at hbefore hafter
  have hreachable := reachable_of_runAll initial_spec hw
  have hsupply : w.bank.supply deployment.tokenDenom ≠ 0 := by
    show w.bank.supply "udatom" ≠ 0
    rw [hbefore]
    decide
  obtain ⟨denom, amount, issued, hfunds, -, hissued, -, hpromise⟩ :=
    bond_keeps_value hreachable hsupply hbond
  obtain rfl : amount = 7 := by
    injection hfunds with hcoin
    injection hcoin with _ hamount
    exact hamount.symm
  change w'.bank.supply "udatom" = w.bank.supply "udatom" + issued at hissued
  obtain rfl : issued = 4 := by omega
  obtain ⟨batch, expectedAmount, -, hcore, hle⟩ := hpromise _ _ _ hunbond
  exact ⟨w, w', w'', batch, expectedAmount, hreachable, hbond, hunbond, hissued, hcore, hle⟩

end BondValue

end System

end DropContracts
