import DropContracts.Core.IdleTick

set_option relaxedAutoImplicit false
set_option autoImplicit false

/-!
# Moves that the state machine refuses

The handlers of a tick choose the next state themselves and then ask the state machine for it. The
table has no move from `Claiming` or `Transfering` to `Unbonding`, but the cascade chooses it there
when there is nothing to transfer or to stake and a batch is due.

## Main definitions

* `Core.Refused` — a call that fails because the state machine refuses a move.
* `Core.UnbondingDue` — the next batch is asked for.
* `Core.NothingToStake`, `Core.PayoutFits`, `Core.NotClose` — what the cascade and an idle tick
  check before.
* `Core.ReachesUnbonding` — a tick comes to the undelegation without having staked.

## Main results

* `Core.refused_unbondOrIdle`, `Core.refused_stakeOrUnbond`, `Core.refused_transferStakeOrUnbond` —
  when the cascade is refused.
* `Core.refused_executeTick` — when a tick is refused.
-/

namespace DropContracts

namespace Core

open Exec

/-- The call fails because the state machine refuses a move. -/
def Refused {α : Type} (x : Result α) : Prop := x = .error (.error Storage.notAllowed)

/-! ## Calls that are never refused -/

section Calls

variable {α β : Type}

/-- A sequence of two calls is refused when the first is, or the second after the first. -/
theorem refused_bind {x : Result α} {f : α → Result β} :
    Refused (x >>= f) ↔ Refused x ∨ ∃ a, x = .ok a ∧ Refused (f a) :=
  bind_eq_error

/-- A call that has returned is not refused. -/
@[simp] theorem not_refused_ok (a : α) : ¬ Refused (.ok a : Result α) := by
  simp [Refused]

/-- A guard is not refused, unless it has the error of the state machine. -/
theorem not_refused_ensure {p : Prop} [Decidable p] {e : ContractError}
    (he : e ≠ Storage.notAllowed) : ¬ Refused (ensure p e) := by
  rw [Refused, ensure_eq_error]
  rintro ⟨-, heq⟩
  exact he (Fault.error.inj heq).symm

/-- An empty option is not refused, unless it has the error of the state machine. -/
theorem not_refused_orError {o : Option α} {e : ContractError} (he : e ≠ Storage.notAllowed) :
    ¬ Refused (orError o e) := by
  rw [Refused, orError_eq_error]
  rintro ⟨-, heq⟩
  exact he (Fault.error.inj heq).symm

/-- A failing query is not refused. -/
@[simp] theorem not_refused_ask (x : Except String α) : ¬ Refused (ask x) := by
  rw [Refused, ask_eq_error]
  rintro ⟨msg, -, heq⟩
  cases heq

/-- Arithmetic aborts, but is not refused. -/
@[simp] theorem not_refused_checkedAdd (bound a b : ℕ) :
    ¬ Refused (checkedAdd bound a b : Result ℕ) := by
  simp [Refused]

/-- Arithmetic aborts, but is not refused. -/
@[simp] theorem not_refused_checkedMul (bound a b : ℕ) :
    ¬ Refused (checkedMul bound a b : Result ℕ) := by
  simp [Refused]

/-- Arithmetic aborts, but is not refused. -/
@[simp] theorem not_refused_checkedSub (a b : ℕ) : ¬ Refused (checkedSub a b : Result ℕ) := by
  simp [Refused]

/-- Arithmetic aborts, but is not refused. -/
@[simp] theorem not_refused_checkedSum (l : List ℕ) :
    ¬ Refused (checkedSum Uint128.bound l : Result ℕ) := by
  simp [Refused, checkedSum_eq_error Uint128.bound_pos]

/-- Arithmetic aborts, but is not refused. -/
@[simp] theorem not_refused_fromRatio (n m : ℕ) :
    ¬ Refused (Decimal.fromRatio n m : Result Decimal) := by
  simp [Refused]

/-- Arithmetic aborts, but is not refused. -/
@[simp] theorem not_refused_mulUint (n : ℕ) (r : Decimal) :
    ¬ Refused (Decimal.mulUint n r : Result ℕ) := by
  unfold Decimal.mulUint
  split_ifs
  · exact not_refused_ok 0
  · simp [Refused]

/-- A batch that is not stored is not refused. -/
@[simp] theorem not_refused_loadBatch (s : Storage) (id : ℕ) : ¬ Refused (s.loadBatch id) :=
  not_refused_orError (by simp [Storage.notAllowed, Fsm.notAllowed])

/-- **A move is refused exactly when the table does not have it.** -/
theorem refused_goTo {s : Storage} {target : ContractState} :
    Refused (s.goTo target) ↔ ⟨s.fsmState, target⟩ ∉ TRANSITIONS := by
  constructor
  · intro h hmem
    rw [Storage.goTo_eq_ok.2 ⟨hmem, rfl⟩] at h
    exact not_refused_ok _ h
  · exact Storage.goTo_of_not_mem

end Calls

/-! ## The parts of a tick -/

section Parts

variable {s : Storage} {q : Querier} {env : Env} {info : MessageInfo} {config : Config}

/-- The condition on the next batch is not refused. -/
theorem not_refused_isReady (batch : UnbondBatch) (now : Timestamp) :
    ¬ Refused (batch.isReady config now) := by
  unfold UnbondBatch.isReady Timestamp.fromSeconds Timestamp.plusSeconds
  -- only the calls matter: the bounds are large numbers that `simp` must not compute with
  simp only [refused_bind, not_refused_checkedMul, not_refused_checkedAdd, pure_eq_ok,
    not_refused_ok, and_false, exists_false, or_self, not_false_eq_true]

/-- The balance of the interchain account is not refused. -/
theorem not_refused_getIcaBalanceByDenom (denom : String) :
    ¬ Refused (getIcaBalanceByDenom q denom true) := by
  simp [getIcaBalanceByDenom, refused_bind, pure_eq_ok]

/-- A query for the undelegation is not refused. -/
theorem not_refused_getUnbondingMsg : ¬ Refused (getUnbondingMsg s q env config info) := by
  simp only [getUnbondingMsg, refused_bind, not_refused_loadBatch, not_refused_isReady, false_or,
    not_exists, not_and]
  intro batch _ ready _
  cases ready with
  | true =>
    simp [refused_bind, not_refused_getIcaBalanceByDenom, pure_eq_ok]
  | false =>
    simp only [Bool.false_eq_true, ↓reduceIte, pure_eq_ok, not_refused_ok, not_false_eq_true]

/-- The collection of a fee is not refused. -/
theorem not_refused_collectFee (fee : ℕ) : ¬ Refused (collectFee s config fee) := by
  unfold collectFee
  cases config.feeAddress with
  | none => exact not_refused_ok _
  | some feeAddress =>
    simp only
    split_ifs
    · cases s.collectedFees.load config.remoteDenom <;>
        simp [addCollectedFee, refused_bind, pure_eq_ok]
    · exact not_refused_ok _

/-- The request for a stake is not refused. -/
theorem not_refused_getStakeMsg : ¬ Refused (getStakeMsg s q env config info) := by
  simp only [getStakeMsg, refused_bind, not_refused_getIcaBalanceByDenom, false_or, not_exists,
    not_and]
  rintro ⟨balance, height, time⟩ _
  split_ifs
  · exact not_refused_ok _
  · have hensure := not_refused_ensure (p := s.lastIcaBalanceChangeHeight ≤ height)
      (e := .puppeteerBalanceOutdated s.lastIcaBalanceChangeHeight height)
      (by simp [Storage.notAllowed])
    simp [refused_bind, hensure, not_refused_collectFee, pure_eq_ok]

/-- The exchange rate is not refused. -/
theorem not_refused_cacheExchangeRate (currentStake : Option ℕ) :
    ¬ Refused (cacheExchangeRate s q env currentStake) := by
  have hrequested : ∀ amount, ¬ Refused (addRequestedAmount s amount) := by
    intro amount
    unfold addRequestedAmount
    split_ifs
    · simp only [refused_bind, not_refused_loadBatch, false_or, not_exists, not_and]
      intro batch _
      split_ifs
      · exact not_refused_checkedAdd _ _ _
      · exact not_refused_ok _
    · exact not_refused_ok _
  have hfailed : ∀ amount, ¬ Refused (addFailedAmount s amount) := by
    intro amount
    unfold addFailedAmount
    cases s.failedBatchId <;>
      simp [refused_bind]
  have hunprocessed : ¬ Refused (unprocessedUnbondedAmount s) := by
    simp [unprocessedUnbondedAmount, refused_bind, hrequested, hfailed]
  have hnumerator : ¬ Refused (exchangeRateNumerator s q currentStake) := by
    simp [exchangeRateNumerator, refused_bind, hunprocessed]
  have hdenom := not_refused_orError (o := s.config.ldDenom) (e := .ldDenomIsNotSet)
    (by simp [Storage.notAllowed])
  have hrate : ¬ Refused (queryExchangeRate s q currentStake) := by
    unfold queryExchangeRate
    split_ifs
    · exact not_refused_ok _
    · simp only [refused_bind, hdenom, false_or, not_exists, not_and]
      intro ldDenom _
      split_ifs
      · exact not_refused_ok _
      · simp [refused_bind, hnumerator]
  simp [cacheExchangeRate, refused_bind, hrate, pure_eq_ok]

/-- The items for the receivers of rewards are not refused. -/
theorem not_refused_allRewardItems (rewards : List Coin) (receivers : List NonNativeRewardsItem) :
    ¬ Refused (allRewardItems rewards receivers) := by
  induction receivers with
  | nil => exact not_refused_ok _
  | cons item rest ih =>
    have hitem : ¬ Refused (rewardItems rewards item) := by
      simp only [rewardItems]
      split_ifs <;>
        simp [refused_bind, pure_eq_ok]
    simp [allRewardItems, refused_bind, hitem, ih, pure_eq_ok]

/-- The message of an idle tick within the interval is not refused. -/
theorem not_refused_getIdleIntervalMsg : ¬ Refused (getIdleIntervalMsg s q env info config) := by
  have hrewards : ¬ Refused (getNonNativeRewardsAndFeeTransferMsg s q info env) := by
    have hreceivers := not_refused_orError (o := s.nonNativeRewardsConfig)
      (e := .std (.notFound "non_native_rewards_config"))
      (by simp [Storage.notAllowed, Fsm.notAllowed])
    simp only [getNonNativeRewardsAndFeeTransferMsg, refused_bind, hreceivers, not_refused_ask,
      not_refused_allRewardItems, false_or, not_exists, not_and]
    intro receivers _ rewards _ items _
    split_ifs <;> exact not_refused_ok _
  have hredeem : ¬ Refused (getPendingRedeemMsg s config env info.funds) := by
    have hwait : ¬ Refused (redeemHasToWait s config env) := by
      simp only [redeemHasToWait]
      split_ifs <;>
        simp [refused_bind, pure_eq_ok]
    simp only [getPendingRedeemMsg, refused_bind, hwait, false_or, not_exists, not_and]
    intro wait _
    split_ifs <;> exact not_refused_ok _
  simp only [getIdleIntervalMsg, refused_bind, hrewards, false_or, not_exists, not_and]
  intro transferMsg _
  cases transferMsg with
  | some m => exact not_refused_ok _
  | none =>
    simp only [refused_bind, hredeem, false_or, not_exists, not_and]
    intro redeemMsg _
    cases redeemMsg with
    | some m => exact not_refused_ok _
    | none => exact not_refused_orError (by simp [Storage.notAllowed])

/-- The response of a claim is not refused. -/
theorem not_refused_processClaimResponse (r : ResponseHookMsg) :
    ¬ Refused (processClaimResponse s r) := by
  have hmark : ∀ (emergency : Bool) (ids : List ℕ) (s : Storage),
      ¬ Refused (markWithdrawn emergency s ids) := by
    intro emergency ids
    induction ids with
    | nil => exact fun s => not_refused_ok s
    | cons id rest ih =>
      intro s
      simp [markWithdrawn, refused_bind, ih]
  unfold processClaimResponse
  split
  · split
    · exact hmark _ _ _
    · exact not_refused_ok _
    · simp [Refused, Storage.notAllowed]
  · exact not_refused_ok _

/-- The response of an undelegation is not refused. -/
theorem not_refused_processUndelegateResponse (r : ResponseHookMsg) :
    ¬ Refused (processUndelegateResponse s env config r) := by
  unfold processUndelegateResponse
  split
  · split
    · simp [refused_bind, pure_eq_ok]
    · simp [Refused, Storage.notAllowed]
  · split
    · simp [refused_bind, pure_eq_ok]
    · simp [Refused, Storage.notAllowed]

/-- The preparation of a payout is not refused. -/
theorem not_refused_markReadyBatches (pumpAddress : String) (balance : ℕ)
    (batches : List (ℕ × UnbondBatch)) :
    ¬ Refused (markReadyBatches s config pumpAddress balance batches) := by
  have hslashed : ∀ expectedAmount, ¬ Refused (slashedAmount balance expectedAmount) := by
    intro expectedAmount
    unfold slashedAmount
    split_ifs <;>
      simp [refused_bind, pure_eq_ok]
  have haddress := not_refused_orError (o := config.emergencyAddress)
    (e := .emergencyAddressIsNotSet) (by simp [Storage.notAllowed])
  unfold markReadyBatches
  split
  · exact not_refused_ok _
  · simp [refused_bind, hslashed, pure_eq_ok]
  · simp only [refused_bind, not_refused_checkedSum, false_or, not_exists, not_and]
    intro total _
    split_ifs <;>
      simp [refused_bind, haddress, pure_eq_ok]

end Parts

/-! ## The cascade -/

/-- The next batch is asked for when the cascade comes to it: it is open, the queries are
answered, and there is an id for the batch after it. -/
structure UnbondingDue (s : Storage) (q : Querier) (env : Env) (config : Config) : Prop where
  batch : ∃ batch undelegations, s.unbondBatches.load s.nextBatchId = some batch ∧
    batch.SwitchFits config ∧ batch.IsOpen config env.time ∧
    q.calcWithdraw batch.totalAmount = .ok undelegations
  balances : ∃ balances, q.balances = .ok balances
  next : s.nextBatchId + 1 < Uint128.bound

/-- The balance of the interchain account is below the minimum for a stake. -/
def NothingToStake (q : Querier) (config : Config) : Prop :=
  ∃ balances, q.balances = .ok balances ∧
    icaBalance balances config.remoteDenom < config.minStakeAmount

section Cascade

variable {s : Storage} {q : Querier} {env : Env} {info : MessageInfo} {config : Config}

/-- There is a message for the undelegation exactly when it is due. -/
theorem getUnbondingMsg_some_iff :
    (∃ s' m, getUnbondingMsg s q env config info = .ok (s', some m)) ↔
      UnbondingDue s q env config := by
  simp only [getUnbondingMsg, bind_eq_ok, Storage.loadBatch_eq_ok]
  constructor
  · rintro ⟨s', m, batch, hbatch, ready, hready, h⟩
    cases ready with
    | false => simp at h
    | true =>
      simp only [↓reduceIte, bind_eq_ok, ask_eq_ok, checkedAdd_eq_ok] at h
      obtain ⟨⟨n, height, time⟩, hbalance, undelegations, hcalc, next, ⟨rfl, hnext⟩, -⟩ := h
      obtain ⟨balances, hbalances, -⟩ := getIcaBalanceByDenom_eq_ok.1 hbalance
      obtain ⟨hfit, hopen⟩ := UnbondBatch.isReady_eq_ok.1 hready
      exact ⟨⟨batch, undelegations, hbatch, hfit, hopen.1 rfl, hcalc⟩, ⟨balances, hbalances⟩,
        hnext⟩
  · rintro ⟨⟨batch, undelegations, hbatch, hfit, hopen, hcalc⟩, ⟨balances, hbalances⟩, hnext⟩
    have hready : batch.isReady config env.time = .ok true :=
      UnbondBatch.isReady_eq_ok.2 ⟨hfit, by simp [hopen]⟩
    have hbalance := getIcaBalanceByDenom_of_answer hbalances config.remoteDenom
    refine ⟨s.requestBatch batch (icaBalance balances config.remoteDenom) env.time.seconds,
      .puppeteer config.puppeteerContract
        (.undelegate (undelegations.map fun d => (d.valoperAddress, d.stakeChange)) s.nextBatchId
          (some config.puppeteerTimeout) env.contractAddress) info.funds,
      batch, hbatch, true, hready, ?_⟩
    simp only [↓reduceIte, bind_eq_ok, ask_eq_ok, checkedAdd_eq_ok]
    exact ⟨_, hbalance, undelegations, hcalc, _, ⟨rfl, hnext⟩, rfl⟩

/-- The last part of the cascade is refused when the undelegation is due and `Unbonding` may not
be entered. -/
theorem refused_unbondOrIdle (hidle : ⟨s.fsmState, .idle⟩ ∈ TRANSITIONS) :
    Refused (unbondOrIdle s q env info config) ↔
      UnbondingDue s q env config ∧ s.fsmState ≠ .staking := by
  simp only [unbondOrIdle, refused_bind, not_refused_getUnbondingMsg, false_or]
  constructor
  · rintro ⟨⟨s', m⟩, hmsg, hrefused⟩
    obtain ⟨batch, hbatch, ⟨-, rfl, rfl⟩ | ⟨-, balances, undelegations, -, -, rfl, rfl⟩⟩ :=
      getUnbondingMsg_ok hmsg
    · simp only [refused_bind, refused_goTo, pure_eq_ok, not_refused_ok, and_false, exists_false,
        or_false] at hrefused
      exact absurd hidle hrefused
    · simp only [refused_bind, refused_goTo, pure_eq_ok, not_refused_ok, and_false, exists_false,
        or_false] at hrefused
      refine ⟨getUnbondingMsg_some_iff.1 ⟨_, _, hmsg⟩, fun hstaking => hrefused ?_⟩
      show (⟨s.fsmState, _⟩ : Transition ContractState) ∈ TRANSITIONS
      rw [hstaking]
      decide
  · rintro ⟨hdue, hstate⟩
    obtain ⟨s', m, hmsg⟩ := getUnbondingMsg_some_iff.2 hdue
    refine ⟨(s', some m), hmsg, ?_⟩
    obtain ⟨batch, hbatch, ⟨-, -, hnone⟩ | ⟨-, balances, undelegations, -, -, rfl, -⟩⟩ :=
      getUnbondingMsg_ok hmsg
    · cases hnone
    · simp only [refused_bind, refused_goTo, pure_eq_ok, not_refused_ok, and_false, exists_false,
        or_false]
      exact fun hmem => hstate (staking_of_unbonding_mem hmem)

/-- The cascade without the transfer is refused when, moreover, there is nothing to stake. -/
theorem refused_stakeOrUnbond (hidle : ⟨s.fsmState, .idle⟩ ∈ TRANSITIONS)
    (hstaking : ⟨s.fsmState, .staking⟩ ∈ TRANSITIONS) :
    Refused (stakeOrUnbond s q env info config) ↔
      NothingToStake q config ∧ UnbondingDue s q env config ∧ s.fsmState ≠ .staking := by
  simp only [stakeOrUnbond, refused_bind, not_refused_getStakeMsg, false_or]
  constructor
  · rintro ⟨⟨s', m⟩, hmsg, hrefused⟩
    obtain ⟨balances, hbalances, ⟨hbelow, rfl, rfl⟩ | ⟨hmin, ⟨fees, rfl⟩, items, rfl⟩⟩ :=
      getStakeMsg_ok hmsg
    · exact ⟨⟨balances, hbalances, hbelow⟩, (refused_unbondOrIdle hidle).1 hrefused⟩
    · simp only [refused_bind, refused_goTo, pure_eq_ok, not_refused_ok, and_false, exists_false,
        or_false] at hrefused
      exact absurd hstaking hrefused
  · rintro ⟨⟨balances, hbalances, hbelow⟩, hdue⟩
    have hbalance := getIcaBalanceByDenom_of_answer hbalances config.remoteDenom
    have hmsg : getStakeMsg s q env config info = .ok (s, none) := by
      simp only [getStakeMsg, hbalance, ok_bind, hbelow, ↓reduceIte]
    exact ⟨(s, none), hmsg, (refused_unbondOrIdle hidle).2 hdue⟩

/-- The whole cascade is refused when, moreover, there is nothing to transfer. -/
theorem refused_transferStakeOrUnbond (hidle : ⟨s.fsmState, .idle⟩ ∈ TRANSITIONS)
    (hstaking : ⟨s.fsmState, .staking⟩ ∈ TRANSITIONS)
    (htransfering : ⟨s.fsmState, .transfering⟩ ∈ TRANSITIONS) :
    Refused (transferStakeOrUnbond s q env info config) ↔
      q.balance config.baseDenom = 0 ∧ NothingToStake q config ∧
        UnbondingDue s q env config ∧ s.fsmState ≠ .staking := by
  by_cases hbalance : q.balance config.baseDenom = 0
  · simp only [transferStakeOrUnbond, getTransferPendingBalanceMsg, hbalance, ↓reduceIte,
      refused_stakeOrUnbond hidle hstaking, true_and]
  · simp only [transferStakeOrUnbond, getTransferPendingBalanceMsg, hbalance, ↓reduceIte,
      refused_bind, refused_goTo, pure_eq_ok, not_refused_ok, and_false, exists_false, or_false,
      false_and, iff_false, not_not]
    exact htransfering

/-- Whether the undelegation is due only depends on the requests of the next batch. -/
theorem unbondingDue_congr {t : Storage} {f : UnbondBatch → UnbondBatch}
    (hnext : t.nextBatchId = s.nextBatchId) (hf : ∀ b : UnbondBatch, b.SameRequests (f b))
    (hslot : t.unbondBatches.load s.nextBatchId = (s.unbondBatches.load s.nextBatchId).map f) :
    UnbondingDue t q env config ↔ UnbondingDue s q env config := by
  have hbatch : ∀ b, ((f b).SwitchFits config ↔ b.SwitchFits config) ∧
      ((f b).IsOpen config env.time ↔ b.IsOpen config env.time) := by
    intro b
    obtain ⟨hitems, htotal, -, hcreated⟩ := hf b
    simp only [UnbondBatch.SwitchFits, UnbondBatch.IsOpen, hitems, htotal, hcreated, and_self]
  constructor
  · rintro ⟨⟨b', undelegations, hb', hfit, hopen, hcalc⟩, hbalances, hid⟩
    rw [hnext, hslot, Option.map_eq_some_iff] at hb'
    obtain ⟨b, hb, rfl⟩ := hb'
    rw [(hf b).totalAmount] at hcalc
    rw [hnext] at hid
    exact ⟨⟨b, undelegations, hb, (hbatch b).1.1 hfit, (hbatch b).2.1 hopen, hcalc⟩, hbalances,
      hid⟩
  · rintro ⟨⟨b, undelegations, hb, hfit, hopen, hcalc⟩, hbalances, hid⟩
    rw [← (hf b).totalAmount] at hcalc
    rw [← hnext] at hid
    refine ⟨⟨f b, undelegations, ?_, (hbatch b).1.2 hfit, (hbatch b).2.2 hopen, hcalc⟩, hbalances,
      hid⟩
    rw [hnext, hslot, hb]
    rfl

end Cascade

/-! ## The idle tick -/

/-- No batch is close to its release. -/
def NotClose (s : Storage) (env : Env) : Prop :=
  ∀ e ∈ s.batchesWithStatus .unbonding, env.time.seconds < e.2.expectedRelease →
    env.time.seconds + s.config.unbondingSafePeriod ≤ e.2.expectedRelease

/-- The payout of these batches can be decided: what several batches expect together can be
added up, and is covered by the balance or goes to an emergency address. -/
def PayoutFits (config : Config) (balance : ℕ) (batches : List (ℕ × UnbondBatch)) : Prop :=
  2 ≤ batches.length →
    (batches.map fun e => e.2.expectedAmount).sum < Uint128.bound ∧
      ((batches.map fun e => e.2.expectedAmount).sum ≤ balance ∨ config.emergencyAddress ≠ none)

section Idle

variable {s : Storage} {q : Querier} {env : Env} {info : MessageInfo} {config : Config}

/-- The check for a close release finds none exactly when there is none. The induction is on the
list of unbonding batches. -/
theorem isUnbondingTimeClose_eq_false_iff {now safePeriod : ℕ}
    {batches : List (ℕ × UnbondBatch)} :
    isUnbondingTimeClose now safePeriod batches = .ok false ↔
      ∀ e ∈ batches, now < e.2.expectedRelease → now + safePeriod ≤ e.2.expectedRelease := by
  induction batches with
  | nil => simp [isUnbondingTimeClose]
  | cons e rest ih =>
    rw [List.forall_mem_cons, ← ih]
    simp only [isUnbondingTimeClose]
    split_ifs with hlater
    · simp only [bind_eq_ok, checkedSub_eq_ok]
      constructor
      · rintro ⟨start, hstart, h⟩
        split_ifs at h with hclose
        · simp at h
        · exact ⟨fun _ => by omega, h⟩
      · rintro ⟨hfar, h⟩
        have hle := hfar hlater
        refine ⟨e.2.expectedRelease - safePeriod, by omega, ?_⟩
        rw [if_neg (by omega)]
        exact h
    · simp [hlater]

/-- The check for a close release is not refused. -/
theorem not_refused_isUnbondingTimeClose (now safePeriod : ℕ) (batches : List (ℕ × UnbondBatch)) :
    ¬ Refused (isUnbondingTimeClose now safePeriod batches) := by
  induction batches with
  | nil => exact not_refused_ok false
  | cons e rest ih =>
    simp only [isUnbondingTimeClose]
    split_ifs
    · simp only [refused_bind, not_refused_checkedSub, false_or, not_exists, not_and]
      intro start _
      split_ifs
      · exact not_refused_ok true
      · exact ih
    · exact ih

/-- What a single batch is paid can always be decided. -/
theorem slashedAmount_returns (balance expectedAmount : ℕ) :
    ∃ x, slashedAmount balance expectedAmount = .ok x := by
  unfold slashedAmount
  split_ifs with hslashed
  · have hratio : balance * Decimal.fractional / expectedAmount < Uint128.bound := by
      have hlt : balance * Decimal.fractional / expectedAmount < Decimal.fractional :=
        Nat.div_lt_of_lt_mul (Nat.mul_lt_mul_of_pos_right hslashed Decimal.fractional_pos)
      exact hlt.trans (by decide)
    have heffect : (Decimal.fromRatio balance expectedAmount : Result Decimal) =
        .ok ⟨balance * Decimal.fractional / expectedAmount⟩ :=
      Decimal.fromRatio_eq_ok.2 ⟨by omega, rfl, hratio⟩
    exact ⟨(balance, ⟨balance * Decimal.fractional / expectedAmount⟩), by rw [heffect]; rfl⟩
  · exact ⟨_, rfl⟩

/-- **The payout can be prepared** exactly when it can be decided. -/
theorem markReadyBatches_returns_iff (s : Storage) (pumpAddress : String) {balance : ℕ}
    {batches : List (ℕ × UnbondBatch)} :
    (∃ x, markReadyBatches s config pumpAddress balance batches = .ok x) ↔
      PayoutFits config balance batches := by
  unfold markReadyBatches PayoutFits
  split
  · simp
  next id batch =>
    obtain ⟨⟨amount, effect⟩, hamount⟩ := slashedAmount_returns balance batch.expectedAmount
    simp [hamount]
  next hnil hsingle =>
    have hlength : 2 ≤ batches.length := two_le_length hnil hsingle
    simp only [hlength, true_imp_iff]
    constructor
    · rintro ⟨x, h⟩
      simp only [bind_eq_ok, checkedSum_eq_ok Uint128.bound_pos] at h
      obtain ⟨total, ⟨rfl, hfit⟩, h⟩ := h
      refine ⟨hfit, ?_⟩
      split_ifs at h with hcovered
      · simp only [bind_eq_ok, orError_eq_ok] at h
        obtain ⟨recipient, hrecipient, -⟩ := h
        exact .inr (by simp [hrecipient])
      · exact .inl (not_lt.1 hcovered)
    · rintro ⟨hfit, hcovered⟩
      have hsum : (checkedSum Uint128.bound (batches.map fun e => e.2.expectedAmount) :
          Result ℕ) = .ok (batches.map fun e => e.2.expectedAmount).sum :=
        (checkedSum_eq_ok Uint128.bound_pos).2 ⟨rfl, hfit⟩
      rw [hsum, ok_bind]
      split_ifs with hlt
      · obtain ⟨recipient, hrecipient⟩ :=
          Option.ne_none_iff_exists'.1 (hcovered.resolve_left (not_le.2 hlt))
        rw [hrecipient]
        exact ⟨_, rfl⟩
      · exact ⟨_, rfl⟩

end Idle

/-! ## Ticks -/

/-- A tick comes to an undelegation that is due, without having staked: from `Idle` when nobody is
claimed from, from `Claiming` or from `Transfering`; and there is nothing to transfer or to stake on
the way. -/
inductive ReachesUnbonding (s : Storage) (q : Querier) (env : Env) : Prop
  | idle (balances : BalancesResponse) (members : List ValidatorInfo)
      (delegations : DelegationsResponse) (hstate : s.fsmState = .idle)
      (hrate : ∃ rate, queryExchangeRate s q none = .ok rate)
      (hinterval : IntervalPassed s env) (hclose : NotClose s env)
      (hpump : s.config.pumpAddress ≠ none) (hbalances : q.balances = .ok balances)
      (hpayout : PayoutFits s.config (icaBalance balances s.config.remoteDenom)
        (s.maturedBatches env.time.seconds balances.2.2.seconds))
      (hmembers : q.validators = .ok members) (hdelegations : q.delegations = .ok delegations)
      (hclaim : ¬ Claimable q) (hbalance : q.balance s.config.baseDenom = 0)
      (hstake : NothingToStake q s.config) (hdue : UnbondingDue s q env s.config)
  | claiming (r : ResponseHookMsg) (hstate : s.fsmState = .claiming)
      (hresponse : s.lastPuppeteerResponse = some r) (hclaimed : ResponseHookMsg.Claimed s r)
      (hbalance : q.balance s.config.baseDenom = 0) (hstake : NothingToStake q s.config)
      (hdue : UnbondingDue s q env s.config)
  | transfering (r : ResponseHookMsg) (hstate : s.fsmState = .transfering)
      (hresponse : s.lastPuppeteerResponse = some r) (hstake : NothingToStake q s.config)
      (hdue : UnbondingDue s q env s.config)

section Tick

variable {s : Storage} {q : Querier} {env : Env} {info : MessageInfo}

/-- The response is not refused. -/
theorem not_refused_getReceivedPuppeteerResponse : ¬ Refused (getReceivedPuppeteerResponse s) :=
  not_refused_orError (by simp [Storage.notAllowed])

/-- The cascade out of `Claiming` is refused when it comes to an undelegation. -/
theorem refused_cascade_of_claiming {t : Storage} {config : Config}
    (hstate : t.fsmState = .claiming) :
    Refused (transferStakeOrUnbond t q env info config) ↔
      q.balance config.baseDenom = 0 ∧ NothingToStake q config ∧ UnbondingDue t q env config := by
  rw [refused_transferStakeOrUnbond (by rw [hstate]; decide) (by rw [hstate]; decide)
    (by rw [hstate]; decide)]
  simp [hstate]

/-- Processing the response of a claim changes nothing about whether the undelegation is due. -/
theorem unbondingDue_processClaimResponse (q : Querier) (env : Env) (config : Config) {t : Storage}
    {r : ResponseHookMsg}
    (h : processClaimResponse { s with lastPuppeteerResponse := none } r = .ok t) :
    t.fsmState = s.fsmState ∧ (UnbondingDue t q env config ↔ UnbondingDue s q env config) := by
  obtain ⟨batches, emergency, rfl, hload⟩ := processClaimResponse_ok h
  refine ⟨rfl, ?_⟩
  by_cases hpaid : s.nextBatchId ∈ r.paidBatches
  · refine unbondingDue_congr (f := UnbondBatch.withdrawn emergency) rfl
      (fun _ => ⟨rfl, rfl, rfl, rfl⟩) ?_
    rw [hload, if_pos hpaid]
  · refine unbondingDue_congr (f := fun b => b) rfl (fun _ => ⟨rfl, rfl, rfl, rfl⟩) ?_
    rw [hload, if_neg hpaid, Option.map_id']

/-- **A claiming tick is refused** exactly when it comes to an undelegation. -/
theorem refused_executeTickClaiming (hstate : s.fsmState = .claiming) :
    Refused (executeTickClaiming s q env info s.config) ↔
      ∃ r, s.lastPuppeteerResponse = some r ∧ ResponseHookMsg.Claimed s r ∧
        q.balance s.config.baseDenom = 0 ∧ NothingToStake q s.config ∧
        UnbondingDue s q env s.config := by
  simp only [executeTickClaiming, refused_bind, not_refused_getReceivedPuppeteerResponse,
    not_refused_processClaimResponse, false_or]
  simp only [getReceivedPuppeteerResponse, orError_eq_ok]
  constructor
  · rintro ⟨r, hr, t, ht, hrefused⟩
    obtain ⟨hkept, hdue⟩ := unbondingDue_processClaimResponse q env s.config ht
    rw [refused_cascade_of_claiming (hkept.trans hstate), hdue] at hrefused
    have hclaimed := processClaimResponse_returns_iff.1 ⟨t, ht⟩
    exact ⟨r, hr, hclaimed, hrefused⟩
  · rintro ⟨r, hr, hclaimed, hrest⟩
    obtain ⟨t, ht⟩ := processClaimResponse_returns_iff.2
      (show ResponseHookMsg.Claimed { s with lastPuppeteerResponse := none } r from hclaimed)
    obtain ⟨hkept, hdue⟩ := unbondingDue_processClaimResponse q env s.config ht
    refine ⟨r, hr, t, ht, ?_⟩
    rw [refused_cascade_of_claiming (hkept.trans hstate), hdue]
    exact hrest

/-- **A transfering tick is refused** exactly when it comes to an undelegation. -/
theorem refused_executeTickTransfering (hstate : s.fsmState = .transfering) :
    Refused (executeTickTransfering s q env info s.config) ↔
      ∃ r, s.lastPuppeteerResponse = some r ∧ NothingToStake q s.config ∧
        UnbondingDue s q env s.config := by
  have hdue : UnbondingDue { s with lastPuppeteerResponse := none } q env s.config ↔
      UnbondingDue s q env s.config :=
    unbondingDue_congr (f := fun b => b) rfl (fun _ => ⟨rfl, rfl, rfl, rfl⟩)
      (by rw [Option.map_id'])
  have hrefused : Refused (stakeOrUnbond { s with lastPuppeteerResponse := none } q env info
      s.config) ↔ NothingToStake q s.config ∧ UnbondingDue s q env s.config := by
    rw [refused_stakeOrUnbond, hdue]
    · simp [hstate]
    · show (⟨s.fsmState, _⟩ : Transition ContractState) ∈ TRANSITIONS
      rw [hstate]
      decide
    · show (⟨s.fsmState, _⟩ : Transition ContractState) ∈ TRANSITIONS
      rw [hstate]
      decide
  simp only [executeTickTransfering, refused_bind, not_refused_getReceivedPuppeteerResponse,
    false_or]
  simp only [getReceivedPuppeteerResponse, orError_eq_ok, hrefused]

/-- A staking tick is never refused. -/
theorem not_refused_executeTickStaking (hstate : s.fsmState = .staking) :
    ¬ Refused (executeTickStaking s q env info s.config) := by
  simp only [executeTickStaking, refused_bind, not_refused_getReceivedPuppeteerResponse, false_or,
    not_exists, not_and]
  rintro r -
  have hensure := not_refused_ensure (p := r.isError = false) (e := .previousStakingWasFailed)
    (by simp [Storage.notAllowed])
  simp only [hensure, false_or, not_exists, not_and]
  rintro - -
  rw [refused_unbondOrIdle]
  · simp [hstate]
  · show (⟨s.fsmState, _⟩ : Transition ContractState) ∈ TRANSITIONS
    rw [hstate]
    decide

/-- Processing the response of an undelegation leaves the state machine alone. -/
theorem processUndelegateResponse_fsmState {t : Storage} {r : ResponseHookMsg} {config : Config}
    (h : processUndelegateResponse s env config r = .ok t) : t.fsmState = s.fsmState := by
  unfold processUndelegateResponse at h
  split at h
  · split at h
    · simp only [bind_eq_ok, pure_eq_ok, Except.ok.injEq] at h
      obtain ⟨unbond, -, release, -, rfl⟩ := h
      rfl
    · exact absurd h fail_ne_ok
  · split at h
    · simp only [bind_eq_ok, pure_eq_ok, Except.ok.injEq] at h
      obtain ⟨unbond, -, rfl⟩ := h
      rfl
    · exact absurd h fail_ne_ok

/-- An unbonding tick is never refused. -/
theorem not_refused_executeTickUnbonding (hstate : s.fsmState = .unbonding) :
    ¬ Refused (executeTickUnbonding s env s.config) := by
  simp only [executeTickUnbonding, refused_bind, not_refused_getReceivedPuppeteerResponse,
    not_refused_processUndelegateResponse, refused_goTo, pure_eq_ok, not_refused_ok, and_false,
    exists_false, or_false, false_or, not_exists, not_and, not_not]
  rintro r - t ht
  rw [processUndelegateResponse_fsmState ht, hstate]
  decide

/-- Preparing the payout of the matured batches changes nothing about whether the undelegation is
due. -/
theorem unbondingDue_markReadyBatches (q : Querier) (env : Env) {t : Storage}
    {transfer : Option TransferReadyBatchesMsg} {config : Config} {pumpAddress : String}
    {balance now time : ℕ}
    (h : markReadyBatches s config pumpAddress balance (s.maturedBatches now time) =
      .ok (t, transfer)) :
    t.fsmState = s.fsmState ∧ (UnbondingDue { t with fsmState := .claiming } q env config ↔
      UnbondingDue s q env config) := by
  obtain ⟨f, emergency, hf, rfl, -⟩ := markReadyBatches_ok h
  refine ⟨rfl, ?_⟩
  have hload := StorageMap.load_saveAll s.unbondBatches f
    (fun e (he : e ∈ s.maturedBatches now time) => (mem_maturedBatches.1 he).1) s.nextBatchId
  by_cases hmatured : s.nextBatchId ∈ (s.maturedBatches now time).map Prod.fst
  · rw [if_pos hmatured] at hload
    exact unbondingDue_congr rfl (fun b => (hf b).1) hload
  · rw [if_neg hmatured] at hload
    refine unbondingDue_congr (f := fun b => b) rfl (fun _ => ⟨rfl, rfl, rfl, rfl⟩) ?_
    rw [Option.map_id']
    exact hload

/-- The end of an idle tick is refused when nobody is claimed from and the cascade is refused. -/
theorem refused_claimOrCascade {t : Storage} {config : Config}
    {transfer : Option TransferReadyBatchesMsg} {validators : List String}
    (hstate : t.fsmState = .claiming) :
    Refused (claimOrCascade t q env info config transfer validators) ↔
      validators = [] ∧ q.balance config.baseDenom = 0 ∧ NothingToStake q config ∧
        UnbondingDue t q env config := by
  unfold claimOrCascade
  split_ifs with hvalidators
  · rw [refused_cascade_of_claiming hstate]
    simp [hvalidators]
  · simp [hvalidators]

/-- **An idle tick after the interval is refused** exactly when it comes to an undelegation. -/
theorem refused_executeTickIdleLong (q : Querier) (env : Env) (info : MessageInfo)
    (hstate : s.fsmState = .idle) :
    Refused (executeTickIdleLong s q env info s.config) ↔
      ∃ balances members delegations, NotClose s env ∧ s.config.pumpAddress ≠ none ∧
        q.balances = .ok balances ∧
        PayoutFits s.config (icaBalance balances s.config.remoteDenom)
          (s.maturedBatches env.time.seconds balances.2.2.seconds) ∧
        q.validators = .ok members ∧ q.delegations = .ok delegations ∧ ¬ Claimable q ∧
        q.balance s.config.baseDenom = 0 ∧ NothingToStake q s.config ∧
        UnbondingDue s q env s.config := by
  have hclose := not_refused_isUnbondingTimeClose env.time.seconds s.config.unbondingSafePeriod
    (s.batchesWithStatus .unbonding)
  have hensure : ∀ close : Bool,
      ¬ Refused (ensure (close = false) ContractError.unbondingTimeIsClose) :=
    fun close => not_refused_ensure (by simp [Storage.notAllowed])
  have hpump := not_refused_orError (o := s.config.pumpAddress) (e := .pumpAddressIsNotSet)
    (by simp [Storage.notAllowed])
  simp only [executeTickIdleLong, refused_bind, hclose, hensure, hpump,
    not_refused_getIcaBalanceByDenom, not_refused_markReadyBatches, not_refused_ask, refused_goTo,
    pure_eq_ok, not_refused_ok, and_false, exists_false, or_false, false_or, ensure_eq_ok,
    orError_eq_ok, ask_eq_ok]
  constructor
  · rintro ⟨_, hfar, -, rfl, pump, hpump, ⟨balance, height, time⟩, hbalance, ⟨t, transfer⟩, hmark,
      members, hmembers, delegations, hdelegations, hrefused⟩
    obtain ⟨balances, hbalances, rfl, rfl, rfl⟩ := getIcaBalanceByDenom_eq_ok.1 hbalance
    obtain ⟨hkept, hdue⟩ := unbondingDue_markReadyBatches q env hmark
    obtain hnot | ⟨u, hu, hrefused⟩ := hrefused
    · rw [hkept, hstate] at hnot
      exact absurd (by decide) hnot
    · obtain ⟨-, rfl⟩ := Storage.goTo_eq_ok.1 hu
      rw [refused_claimOrCascade rfl, hdue,
        validatorsToClaim_eq_nil_iff hmembers hdelegations] at hrefused
      exact ⟨balances, members, delegations, isUnbondingTimeClose_eq_false_iff.1 hfar,
        by simp [hpump], hbalances, (markReadyBatches_returns_iff s pump).1 ⟨_, hmark⟩, hmembers,
        hdelegations, hrefused⟩
  · rintro ⟨balances, members, delegations, hfar, hpump, hbalances, hpayout, hmembers,
      hdelegations, hrest⟩
    obtain ⟨pump, hpump⟩ := Option.ne_none_iff_exists'.1 hpump
    obtain ⟨⟨t, transfer⟩, hmark⟩ := (markReadyBatches_returns_iff s pump).2 hpayout
    obtain ⟨hkept, hdue⟩ := unbondingDue_markReadyBatches q env hmark
    have hmem : (⟨t.fsmState, .claiming⟩ : Transition ContractState) ∈ TRANSITIONS := by
      rw [hkept, hstate]
      decide
    refine ⟨false, isUnbondingTimeClose_eq_false_iff.2 hfar, (), rfl, pump, hpump, _,
      getIcaBalanceByDenom_of_answer hbalances s.config.remoteDenom, (t, transfer), hmark, members,
      hmembers, delegations, hdelegations, .inr ⟨_, Storage.goTo_eq_ok.2 ⟨hmem, rfl⟩, ?_⟩⟩
    rw [refused_claimOrCascade rfl, hdue, validatorsToClaim_eq_nil_iff hmembers hdelegations]
    exact hrest

/-- **An idle tick is refused** exactly when the interval has passed and it comes to an
undelegation. -/
theorem refused_executeTickIdle (hstate : s.fsmState = .idle) :
    Refused (executeTickIdle s q env info s.config) ↔
      (∃ rate, queryExchangeRate s q none = .ok rate) ∧ IntervalPassed s env ∧
        Refused (executeTickIdleLong s q env info s.config) := by
  -- the cached rate plays no role in the rest of the tick
  have hrate : ∀ rate, Refused (executeTickIdleLong { s with exchangeRate := some rate } q env info
      s.config) ↔ Refused (executeTickIdleLong s q env info s.config) := by
    intro rate
    have hlong := refused_executeTickIdleLong (s := { s with exchangeRate := some rate }) q env
      info hstate
    have hdue : UnbondingDue { s with exchangeRate := some rate } q env s.config ↔
        UnbondingDue s q env s.config :=
      unbondingDue_congr (f := fun b => b) rfl (fun _ => ⟨rfl, rfl, rfl, rfl⟩)
        (by rw [Option.map_id'])
    rw [hdue] at hlong
    rw [refused_executeTickIdleLong q env info hstate]
    exact hlong
  simp only [executeTickIdle, refused_bind, not_refused_cacheExchangeRate, not_refused_checkedSub,
    false_or, checkedSub_eq_ok]
  constructor
  · rintro ⟨t, ht, elapsed, helapsed, hrefused⟩
    obtain ⟨rate, hquery, rfl⟩ := cacheExchangeRate_ok ht
    simp only at helapsed
    split_ifs at hrefused with hinterval
    · simp only [refused_bind, not_refused_getIdleIntervalMsg, pure_eq_ok, not_refused_ok,
        and_false, exists_false, or_false] at hrefused
    · refine ⟨⟨rate, hquery⟩, ?_, (hrate _).1 hrefused⟩
      unfold IntervalPassed
      omega
  · rintro ⟨⟨rate, hquery⟩, hinterval, hrefused⟩
    unfold IntervalPassed at hinterval
    have hcache : cacheExchangeRate s q env none =
        .ok { s with exchangeRate := some (rate, env.height) } := by
      rw [cacheExchangeRate, hquery]
      rfl
    refine ⟨_, hcache, env.time.seconds - s.lastIdleCall, ?_, ?_⟩
    · show s.lastIdleCall + (env.time.seconds - s.lastIdleCall) = env.time.seconds
      omega
    · rw [if_neg (by omega)]
      exact (hrate _).2 hrefused

/-- **A tick is refused by the state machine** exactly when it comes to an undelegation from
`Idle`, `Claiming` or `Transfering`.

**Proof sketch.** Every call of a tick other than a move of the state machine fails with its own
error or aborts, so only the moves can be refused. The moves into `Claiming`, `Transfering`,
`Staking` and `Idle` are all in the table for the states that they are made from; the move into
`Unbonding` is in the table for `Staking` only. -/
theorem refused_executeTick :
    Refused (executeTick s q env info) ↔ s.isPaused = false ∧ ReachesUnbonding s q env := by
  have hpaused : ¬ Refused (ensure (s.isPaused = false) ContractError.paused) :=
    not_refused_ensure (by simp [Storage.notAllowed])
  simp only [executeTick, refused_bind, hpaused, false_or, ensure_eq_ok, exists_const]
  refine and_congr_right fun _ => ?_
  constructor
  · intro hrefused
    cases hstate : s.fsmState with
    | idle =>
      simp only [hstate, refused_executeTickIdle hstate,
        refused_executeTickIdleLong q env info hstate] at hrefused
      obtain ⟨hrate, hinterval, balances, members, delegations, hclose, hpump, hbalances, hpayout,
        hmembers, hdelegations, hclaim, hbalance, hstake, hdue⟩ := hrefused
      exact .idle balances members delegations hstate hrate hinterval hclose hpump hbalances hpayout
        hmembers hdelegations hclaim hbalance hstake hdue
    | claiming =>
      simp only [hstate, refused_executeTickClaiming hstate] at hrefused
      obtain ⟨r, hresponse, hclaimed, hbalance, hstake, hdue⟩ := hrefused
      exact .claiming r hstate hresponse hclaimed hbalance hstake hdue
    | transfering =>
      simp only [hstate, refused_executeTickTransfering hstate] at hrefused
      obtain ⟨r, hresponse, hstake, hdue⟩ := hrefused
      exact .transfering r hstate hresponse hstake hdue
    | staking =>
      simp only [hstate] at hrefused
      exact absurd hrefused (not_refused_executeTickStaking hstate)
    | unbonding =>
      simp only [hstate] at hrefused
      exact absurd hrefused (not_refused_executeTickUnbonding hstate)
  · intro hreaches
    cases hreaches with
    | idle balances members delegations hstate hrate hinterval hclose hpump hbalances hpayout
        hmembers hdelegations hclaim hbalance hstake hdue =>
      simp only [hstate, refused_executeTickIdle hstate,
        refused_executeTickIdleLong q env info hstate]
      exact ⟨hrate, hinterval, balances, members, delegations, hclose, hpump, hbalances, hpayout,
        hmembers, hdelegations, hclaim, hbalance, hstake, hdue⟩
    | claiming r hstate hresponse hclaimed hbalance hstake hdue =>
      simp only [hstate, refused_executeTickClaiming hstate]
      exact ⟨r, hresponse, hclaimed, hbalance, hstake, hdue⟩
    | transfering r hstate hresponse hstake hdue =>
      simp only [hstate, refused_executeTickTransfering hstate]
      exact ⟨r, hresponse, hstake, hdue⟩

end Tick

end Core

end DropContracts
