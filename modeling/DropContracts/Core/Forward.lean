import DropContracts.Core.TickCase

set_option relaxedAutoImplicit false
set_option autoImplicit false

/-!
# Ticks that go through

The other direction of `Core.TickCase`: what a waiting handler returns when its checks pass. The
handlers of `Claiming` and `Transfering` end in the cascade, so each way through the cascade is
described once and the handlers are reduced to it.

## Main definitions

* `Core.Config.feeOn`, `Core.StakeFits` — the fee on a balance, and a balance that can be delegated.

## Main results

* `Core.unbondOrIdle_of_closed`, `Core.stakeOrUnbond_of_below`, `Core.stakeOrUnbond_of_fits`,
  `Core.transferStakeOrUnbond_of_pending` — the ways through the cascade.
* `Core.getStakeMsg_returns_iff` — when a delegation is asked for.
* `Core.executeTick_claiming`, `Core.executeTick_transfering`, `Core.executeTick_staking` — the
  handlers, reduced to the cascade.
* `Core.executeTick_unbonding` — the handler without a cascade.
-/

namespace DropContracts

namespace Core

open Exec

/-! ## The cascade -/

section Cascade

variable {s : Storage} {q : Querier} {env : Env} {info : MessageInfo} {config : Config}

/-- After its switch time, a batch is not asked for. -/
theorem UnbondBatch.isReady_of_late {batch : UnbondBatch} {now : Timestamp}
    (hfit : batch.SwitchFits config)
    (hlate : (batch.created + config.unbondBatchSwitchTime) * nanosPerSecond ≤ now.nanos) :
    batch.isReady config now = .ok false := by
  rw [UnbondBatch.isReady_eq_ok]
  refine ⟨hfit, by simp, fun hopen => ?_⟩
  have hearly := hopen.1
  omega

/-- With a next batch that is not asked for, the last part of the cascade goes back to `Idle`. -/
theorem unbondOrIdle_of_closed {batch : UnbondBatch}
    (hmem : ⟨s.fsmState, .idle⟩ ∈ TRANSITIONS)
    (hbatch : s.unbondBatches.load s.nextBatchId = some batch)
    (hready : batch.isReady config env.time = .ok false) :
    unbondOrIdle s q env info config = .ok ({ s with fsmState := .idle }, []) := by
  have hmsg : getUnbondingMsg s q env config info = .ok (s, none) := by
    simp only [getUnbondingMsg, bind_eq_ok, Storage.loadBatch_eq_ok]
    exact ⟨batch, hbatch, false, hready, rfl⟩
  have hgo : s.goTo .idle = .ok { s with fsmState := .idle } :=
    Storage.goTo_eq_ok.2 ⟨hmem, rfl⟩
  simp only [unbondOrIdle, hmsg, ok_bind, hgo, pure_eq_ok]

/-- Below the minimum nothing is staked. -/
theorem stakeOrUnbond_of_below {balances : BalancesResponse} (hbalances : q.balances = .ok balances)
    (hbelow : icaBalance balances config.remoteDenom < config.minStakeAmount) :
    stakeOrUnbond s q env info config = unbondOrIdle s q env info config := by
  have hbalance := getIcaBalanceByDenom_of_answer hbalances config.remoteDenom
  have hmsg : getStakeMsg s q env config info = .ok (s, none) := by
    simp only [getStakeMsg, hbalance, ok_bind, hbelow, ↓reduceIte]
  simp only [stakeOrUnbond, hmsg, ok_bind]

/-- The fee on a balance of the interchain account. -/
def Config.feeOn (config : Config) (balance : ℕ) : ℕ :=
  balance * (config.fee.getD Decimal.zero).atomics / Decimal.fractional

/-- A balance of the interchain account that can be delegated: the fee on it is part of it, the
fees of the remote denomination stay 128-bit numbers with it, and the strategy divides the rest. -/
structure StakeFits (config : Config) (fees : StorageMap String FeeItem)
    (calcDeposit : ℕ → Except String (List IdealDelegation)) (balance : ℕ) : Prop where
  bounded : config.feeOn balance < Uint128.bound
  covered : config.feeOn balance ≤ balance
  collected : config.feeAddress ≠ none → 0 < config.feeOn balance →
    ∀ item, fees.load config.remoteDenom = some item →
      item.amount + config.feeOn balance < Uint128.bound
  divided : ∃ plan, calcDeposit (balance - config.feeOn balance) = .ok plan

/-- A fee can be collected when it fits the ones that were collected before. -/
theorem collectFee_returns_iff {fee : ℕ} :
    (∃ s', collectFee s config fee = .ok s') ↔ (config.feeAddress ≠ none → 0 < fee →
      ∀ item, s.collectedFees.load config.remoteDenom = some item →
        item.amount + fee < Uint128.bound) := by
  unfold collectFee
  cases config.feeAddress with
  | none => simp
  | some feeAddress =>
    by_cases hfee : 0 < fee
    · cases s.collectedFees.load config.remoteDenom with
      | none => simp [hfee, addCollectedFee]
      | some item => simp [hfee, addCollectedFee, bind_eq_ok, checkedAdd_eq_ok]
    · simp [hfee]

/-- **A delegation is asked for** exactly of a balance that is the minimum at least, is not known
to be outdated, and can be delegated. -/
theorem getStakeMsg_returns_iff {balances : BalancesResponse}
    (hbalances : q.balances = .ok balances) :
    (∃ s' m, getStakeMsg s q env config info = .ok (s', some m)) ↔
      config.minStakeAmount ≤ icaBalance balances config.remoteDenom ∧
        s.lastIcaBalanceChangeHeight ≤ balances.2.1 ∧
        StakeFits config s.collectedFees q.calcDeposit
          (icaBalance balances config.remoteDenom) := by
  simp only [getStakeMsg, getIcaBalanceByDenom_of_answer hbalances, ok_bind]
  by_cases hmin : icaBalance balances config.remoteDenom < config.minStakeAmount
  · simp [hmin]
  · rw [if_neg hmin]
    simp only [bind_eq_ok, ensure_eq_ok, Decimal.mulUint_eq_ok, checkedSub_eq_ok, ask_eq_ok,
      pure_eq_ok, Except.ok.injEq, Prod.mk.injEq, Option.some.injEq]
    constructor
    · rintro ⟨s', m, -, hheight, _, ⟨rfl, hbounded⟩, deposit, hdeposit, plan, hplan, t, hcollect,
        -, -⟩
      have hrest : icaBalance balances config.remoteDenom -
          config.feeOn (icaBalance balances config.remoteDenom) = deposit := by
        unfold Config.feeOn
        omega
      refine ⟨not_lt.1 hmin, hheight, hbounded, ?_, collectFee_returns_iff.1 ⟨t, hcollect⟩, plan,
        ?_⟩
      · unfold Config.feeOn
        omega
      · rw [hrest]
        exact hplan
    · rintro ⟨-, hheight, hfits⟩
      obtain ⟨plan, hplan⟩ := hfits.divided
      obtain ⟨t, hcollect⟩ := collectFee_returns_iff.2 hfits.collected
      exact ⟨t, _, (), hheight, _, ⟨rfl, hfits.bounded⟩, _, Nat.add_sub_cancel' hfits.covered, plan,
        hplan, t, hcollect, rfl, rfl⟩

/-- **A balance that can be delegated is**: what the strategy has answered for the rest. -/
theorem stakeOrUnbond_of_fits {balances : BalancesResponse} (hbalances : q.balances = .ok balances)
    (hmin : config.minStakeAmount ≤ icaBalance balances config.remoteDenom)
    (hheight : s.lastIcaBalanceChangeHeight ≤ balances.2.1)
    (hfits : StakeFits config s.collectedFees q.calcDeposit
      (icaBalance balances config.remoteDenom))
    (hmem : ⟨s.fsmState, .staking⟩ ∈ TRANSITIONS) :
    ∃ fees plan, q.calcDeposit (icaBalance balances config.remoteDenom -
        config.feeOn (icaBalance balances config.remoteDenom)) = .ok plan ∧
      ∀ (env : Env) (info : MessageInfo), stakeOrUnbond s q env info config =
        .ok ({ s with collectedFees := fees, fsmState := .staking },
          [.puppeteer config.puppeteerContract
            (.delegate (plan.map fun d => (d.valoperAddress, d.stakeChange))
              (some config.puppeteerTimeout) env.contractAddress) info.funds]) := by
  obtain ⟨plan, hplan⟩ := hfits.divided
  obtain ⟨t, hcollect⟩ := collectFee_returns_iff.2 hfits.collected
  obtain ⟨fees, rfl⟩ := collectFee_ok hcollect
  have hmsg : ∀ (env : Env) (info : MessageInfo), getStakeMsg s q env config info =
      .ok ({ s with collectedFees := fees }, some (.puppeteer config.puppeteerContract
        (.delegate (plan.map fun d => (d.valoperAddress, d.stakeChange))
          (some config.puppeteerTimeout) env.contractAddress) info.funds)) := by
    intro env info
    simp only [getStakeMsg, getIcaBalanceByDenom_of_answer hbalances, ok_bind, not_lt.2 hmin,
      ↓reduceIte, bind_eq_ok, ensure_eq_ok, Decimal.mulUint_eq_ok, checkedSub_eq_ok, ask_eq_ok,
      pure_eq_ok]
    exact ⟨(), hheight, _, ⟨rfl, hfits.bounded⟩, _, Nat.add_sub_cancel' hfits.covered, plan, hplan,
      _, hcollect, rfl⟩
  have hgo : ({ s with collectedFees := fees } : Storage).goTo .staking =
      .ok { s with collectedFees := fees, fsmState := .staking } :=
    Storage.goTo_eq_ok.2 ⟨hmem, rfl⟩
  refine ⟨fees, plan, hplan, fun env info => ?_⟩
  simp only [stakeOrUnbond, hmsg, ok_bind, hgo, pure_eq_ok]

/-- **Nothing but a delegation** follows a balance that is the minimum at least. -/
theorem fits_of_stakeOrUnbond {s' : Storage} {msgs : List CoreMsg} {balances : BalancesResponse}
    (h : stakeOrUnbond s q env info config = .ok (s', msgs))
    (hbalances : q.balances = .ok balances)
    (hmin : config.minStakeAmount ≤ icaBalance balances config.remoteDenom) :
    StakeFits config s.collectedFees q.calcDeposit (icaBalance balances config.remoteDenom) ∧
      ∃ items, msgs = [.puppeteer config.puppeteerContract
        (.delegate items (some config.puppeteerTimeout) env.contractAddress) info.funds] := by
  simp only [stakeOrUnbond, bind_eq_ok] at h
  obtain ⟨⟨t, m⟩, hmsg, h⟩ := h
  obtain ⟨balances', hbalances', ⟨hbelow, -, -⟩ | ⟨-, -, items, rfl⟩⟩ := getStakeMsg_ok hmsg
  · obtain rfl := Except.ok.inj (hbalances.symm.trans hbalances')
    exact absurd hmin (not_le.2 hbelow)
  · obtain ⟨-, -, hfits⟩ := (getStakeMsg_returns_iff hbalances).1 ⟨t, _, hmsg⟩
    simp only [bind_eq_ok, pure_eq_ok, Except.ok.injEq, Prod.mk.injEq] at h
    obtain ⟨-, -, -, rfl⟩ := h
    exact ⟨hfits, items, rfl⟩

/-- Without a pending balance the cascade starts with the stake. -/
theorem transferStakeOrUnbond_of_none (hbalance : q.balance config.baseDenom = 0) :
    transferStakeOrUnbond s q env info config = stakeOrUnbond s q env info config := by
  simp only [transferStakeOrUnbond, getTransferPendingBalanceMsg, hbalance, ↓reduceIte]

/-- A pending balance is transferred. -/
theorem transferStakeOrUnbond_of_pending (env : Env) (info : MessageInfo)
    (hbalance : q.balance config.baseDenom ≠ 0)
    (hmem : ⟨s.fsmState, .transfering⟩ ∈ TRANSITIONS) :
    transferStakeOrUnbond s q env info config = .ok (
      { s with
        fsmState := .transfering
        pendingTransfer := some (q.balance config.baseDenom) },
      [.puppeteer config.puppeteerContract
        (.ibcTransfer config.puppeteerTimeout .stake env.contractAddress)
        (⟨config.baseDenom, q.balance config.baseDenom⟩ :: info.funds)]) := by
  have hgo : s.goTo .transfering = .ok { s with fsmState := .transfering } :=
    Storage.goTo_eq_ok.2 ⟨hmem, rfl⟩
  simp only [transferStakeOrUnbond, getTransferPendingBalanceMsg, hbalance, ↓reduceIte, hgo,
    ok_bind, pure_eq_ok]

end Cascade

/-! ## The handlers -/

section Handlers

variable {s t : Storage} {q : Querier} {env : Env} {info : MessageInfo} {r : ResponseHookMsg}

/-- A tick of a contract that is not paused is the tick of its state. -/
theorem executeTick_of_running (hpaused : s.isPaused = false) :
    executeTick s q env info = match s.fsmState with
      | .idle => executeTickIdle s q env info s.config
      | .claiming => executeTickClaiming s q env info s.config
      | .transfering => executeTickTransfering s q env info s.config
      | .unbonding => executeTickUnbonding s env s.config
      | .staking => executeTickStaking s q env info s.config := by
  have hrunning : (ensure (s.isPaused = false) .paused : Result Unit) = .ok () :=
    ensure_eq_ok.2 hpaused
  cases hstate : s.fsmState <;> simp only [executeTick, hrunning, ok_bind, hstate]

/-- In `Claiming`, a response that can be processed leads to the cascade. -/
theorem executeTick_claiming (hpaused : s.isPaused = false) (hstate : s.fsmState = .claiming)
    (hresponse : s.lastPuppeteerResponse = some r)
    (hprocess : processClaimResponse { s with lastPuppeteerResponse := none } r = .ok t) :
    executeTick s q env info = transferStakeOrUnbond t q env info s.config := by
  rw [executeTick_of_running hpaused, hstate]
  have hreceived : getReceivedPuppeteerResponse s = .ok r := orError_eq_ok.2 hresponse
  simp only [executeTickClaiming, hreceived, ok_bind, hprocess]

/-- In `Transfering`, every response leads to the stake. -/
theorem executeTick_transfering (hpaused : s.isPaused = false)
    (hstate : s.fsmState = .transfering) (hresponse : s.lastPuppeteerResponse = some r) :
    executeTick s q env info =
      stakeOrUnbond { s with lastPuppeteerResponse := none } q env info s.config := by
  rw [executeTick_of_running hpaused, hstate]
  have hreceived : getReceivedPuppeteerResponse s = .ok r := orError_eq_ok.2 hresponse
  simp only [executeTickTransfering, hreceived, ok_bind, hstate]

/-- A tick of `Transfering`, or of `Claiming` without a pending balance, comes to the stake. -/
theorem executeTick_comesToStake {s' : Storage} {msgs : List CoreMsg}
    (h : executeTick s q env info = .ok (s', msgs))
    (hstate : s.fsmState = .claiming ∧ q.balance s.config.baseDenom = 0 ∨
      s.fsmState = .transfering) :
    ∃ batches, stakeOrUnbond { s with lastPuppeteerResponse := none, unbondBatches := batches } q
      env info s.config = .ok (s', msgs) := by
  have hpaused := (executeTick_ok h).1
  rw [executeTick_of_running hpaused] at h
  rcases hstate with ⟨hstate, hbalance⟩ | hstate
  · rw [hstate] at h
    simp only [executeTickClaiming, bind_eq_ok] at h
    obtain ⟨r, -, t, hprocess, h⟩ := h
    obtain ⟨batches, emergency, rfl, -⟩ := processClaimResponse_ok hprocess
    rw [transferStakeOrUnbond_of_none hbalance] at h
    exact ⟨batches, h⟩
  · rw [hstate] at h
    simp only [executeTickTransfering, bind_eq_ok] at h
    obtain ⟨r, -, h⟩ := h
    exact ⟨s.unbondBatches, h⟩

/-- In `Staking`, a success leads to the end of the cascade. -/
theorem executeTick_staking (hpaused : s.isPaused = false) (hstate : s.fsmState = .staking)
    (hresponse : s.lastPuppeteerResponse = some r) (hsuccess : r.isError = false) :
    executeTick s q env info =
      unbondOrIdle { s with lastPuppeteerResponse := none } q env info s.config := by
  have hensure : (ensure (r.isError = false) .previousStakingWasFailed : Result Unit) = .ok () :=
    ensure_eq_ok.2 hsuccess
  rw [executeTick_of_running hpaused, hstate]
  have hreceived : getReceivedPuppeteerResponse s = .ok r := orError_eq_ok.2 hresponse
  simp only [executeTickStaking, hreceived, ok_bind, hensure, hstate]

/-- In `Unbonding`, a response that can be processed leads back to `Idle`. -/
theorem executeTick_unbonding (hpaused : s.isPaused = false) (hstate : s.fsmState = .unbonding)
    (hresponse : s.lastPuppeteerResponse = some r)
    (hprocess : processUndelegateResponse s env s.config r = .ok t)
    (hkept : t.fsmState = .unbonding) :
    executeTick s q env info = .ok ({ t with fsmState := .idle }, []) := by
  have hgo : t.goTo .idle = .ok { t with fsmState := .idle } := by
    rw [Storage.goTo_eq_ok, hkept]
    exact ⟨by decide, rfl⟩
  rw [executeTick_of_running hpaused, hstate]
  have hreceived : getReceivedPuppeteerResponse s = .ok r := orError_eq_ok.2 hresponse
  simp only [executeTickUnbonding, hreceived, ok_bind, hprocess, hgo, pure_eq_ok]

/-- An undelegation can be processed when its batch is stored and, if it succeeded, its release
can be computed. -/
theorem processUndelegateResponse_of_stored {account denom : String} {items : List (String × ℕ)}
    {batchId : ℕ} {unbond : UnbondBatch}
    (htransaction : r.transaction = .undelegate account items denom batchId)
    (hbatch : s.unbondBatches.load batchId = some unbond)
    (hfit : r.isError = false → env.time.seconds + s.config.unbondingPeriod < U64.bound) :
    ∃ t, processUndelegateResponse s env s.config r = .ok t ∧ t.fsmState = s.fsmState := by
  cases r with
  | success msg =>
    obtain ⟨requestId, transaction⟩ := msg
    simp only [ResponseHookMsg.transaction] at htransaction
    subst htransaction
    simp only [processUndelegateResponse, bind_eq_ok, Storage.loadBatch_eq_ok, checkedAdd_eq_ok,
      pure_eq_ok, Except.ok.injEq]
    exact ⟨_, ⟨unbond, hbatch, _, ⟨rfl, hfit rfl⟩, rfl⟩, rfl⟩
  | error msg =>
    obtain ⟨requestId, transaction, details⟩ := msg
    simp only [ResponseHookMsg.transaction] at htransaction
    subst htransaction
    simp only [processUndelegateResponse, bind_eq_ok, Storage.loadBatch_eq_ok, pure_eq_ok,
      Except.ok.injEq]
    exact ⟨_, ⟨unbond, hbatch, rfl⟩, rfl⟩

end Handlers

end Core

end DropContracts
