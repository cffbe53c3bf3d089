import DropContracts.Base.Shares
import DropContracts.Core.Batches

set_option relaxedAutoImplicit false
set_option autoImplicit false

/-!
# When the exchange rate can be computed

The exchange rate is what backs the liquid tokens, less what is waiting to be unbonded, over the
supply of liquid tokens. The second term is counted in liquid tokens and the first in base tokens,
so that nothing keeps the second below the first; when it is not, the subtraction aborts.

## Main definitions

* `Core.Querier.delegated`, `Core.Storage.assets` — what backs the liquid tokens.
* `Core.Storage.unbondedTotal` — what is waiting to be unbonded, as the rate counts it.
* `Core.Storage.waitingTotal` — what is waiting to be unbonded, over all batches.
* `Core.RateFits` — the rate can be computed.
* `Core.recordBond`, `Core.bondRatio` — the parts of a bond before and at the rate.

## Main results

* `Core.unbondedTotal_eq_waiting` — both totals are the same.
* `Core.exchangeRateNumerator_eq_ok` — the numerator of the rate, and when there is one.
* `Core.queryExchangeRate_ne_abort_iff`, `Core.bondRatio_ne_abort_iff` — when the rate, and its
  inverse, can be computed.
* `Core.executeBond_eq` — a bond is made of the two parts.
* `Core.executeBond_issue` — what a bond issues.
-/

namespace DropContracts

namespace Core

open Exec

/-! ## The terms of the rate -/

/-- The delegations that the puppeteer reports. -/
def Querier.delegated (q : Querier) : ℕ :=
  match q.delegations with
  | .ok response => (response.1.map fun d => d.amount.amount).sum
  | .error _ => 0

/-- What backs the liquid tokens: delegations, core balance and LSM shares. -/
def Storage.assets (s : Storage) (q : Querier) : ℕ :=
  q.delegated + q.balance s.config.baseDenom + s.totalLsmShares

/-- The total of a slot of the batch store. -/
def batchTotal : Option UnbondBatch → ℕ
  | some batch => batch.totalAmount
  | none => 0

/-- The liquid tokens that are waiting to be unbonded: those of the current batch and those of the
failed one. -/
def Storage.unbondedTotal (s : Storage) : ℕ :=
  batchTotal (s.unbondBatches.load s.unbondBatchId) +
    batchTotal (s.failedBatchId.bind s.unbondBatches.load)

/-- The statuses of a batch that has not been unbonded yet. -/
def UnbondBatchStatus.isWaiting : UnbondBatchStatus → Bool
  | new => true
  | unbondRequested => true
  | unbondFailed => true
  | _ => false

/-- What a batch adds to the liquid tokens that are waiting to be unbonded. -/
def UnbondBatch.waiting (batch : UnbondBatch) : ℕ :=
  if batch.status.isWaiting then batch.totalAmount else 0

/-- The liquid tokens of all batches that are waiting to be unbonded. -/
def Storage.waitingTotal (s : Storage) : ℕ := s.unbondBatches.total UnbondBatch.waiting

/-- The rate of `supply` liquid tokens can be computed: the assets cover what is waiting to be
unbonded, and no number along the way is too large. The incoming stake is counted once more on
the way, and is no part of the assets. -/
structure RateFits (assets unbonded stake supply : ℕ) : Prop where
  covered : unbonded ≤ assets
  assets_lt : assets + stake < Uint128.bound
  rate_lt : (assets - unbonded) * Decimal.fractional / supply < Uint128.bound

section Rate

variable {s : Storage} {q : Querier}

/-- Outside of `Unbonding` nothing but the current and the failed batch is waiting. -/
theorem unprocessedUnbondedAmount_eq (h : BatchesInv s) (hstate : s.fsmState ≠ .unbonding) :
    unprocessedUnbondedAmount s =
      if s.failedBatchId = none ∨ s.unbondedTotal < Uint128.bound then .ok s.unbondedTotal
      else abort := by
  obtain ⟨batch, hbatch, hnew⟩ := h.current
  have hrequested : ∀ n, addRequestedAmount s n = .ok n := by
    intro n
    unfold addRequestedAmount
    split_ifs with hpos
    · obtain ⟨b, hb⟩ := (h.stored (s.unbondBatchId - 1)).2 (Nat.sub_le _ _)
      have hload : s.loadBatch (s.unbondBatchId - 1) = .ok b := Storage.loadBatch_eq_ok.2 hb
      have hnot : b.status ≠ .unbondRequested :=
        fun hr => hstate (h.requested _ b hb hr).2
      rw [hload, ok_bind, if_neg hnot]
    · rfl
  have hload : s.loadBatch s.unbondBatchId = .ok batch := Storage.loadBatch_eq_ok.2 hbatch
  rw [unprocessedUnbondedAmount, hload, ok_bind]
  simp only [hnew, ↓reduceIte, hrequested, ok_bind]
  unfold addFailedAmount
  cases hfailed : s.failedBatchId with
  | none => simp [Storage.unbondedTotal, hfailed, hbatch, batchTotal]
  | some failedId =>
    have hle := (h.failed_succ failedId hfailed).1
    obtain ⟨failed, hfailed'⟩ := (h.stored failedId).2 (by omega)
    have hload' : s.loadBatch failedId = .ok failed := Storage.loadBatch_eq_ok.2 hfailed'
    have htotal : s.unbondedTotal = batch.totalAmount + failed.totalAmount := by
      simp [Storage.unbondedTotal, hfailed, hbatch, hfailed', batchTotal]
    rw [htotal]
    simp [hload', checkedAdd]

/-- In `Idle` a batch that is neither the current nor the failed one is not waiting. -/
theorem not_isWaiting_of_ne (h : BatchesInv s) (hstate : s.fsmState ≠ .unbonding) {id : ℕ}
    {b : UnbondBatch} (hb : s.unbondBatches.load id = some b) (hcurrent : id ≠ s.unbondBatchId)
    (hfailed : s.failedBatchId ≠ some id) : b.status.isWaiting = false := by
  have hnew : b.status ≠ .new := fun hnew => hcurrent ((h.new_iff id b hb).1 hnew)
  have hrequested : b.status ≠ .unbondRequested := fun hr => hstate (h.requested id b hb hr).2
  have hnot : b.status ≠ .unbondFailed := fun hf => hfailed (h.failed id b hb hf)
  cases hstatus : b.status <;> simp_all [UnbondBatchStatus.isWaiting]

/-- **Every batch that waits is counted once**: the two batches that the rate looks at are all
those that wait. -/
theorem unbondedTotal_eq_waiting (h : BatchesInv s) (hstate : s.fsmState ≠ .unbonding) :
    s.unbondedTotal = s.waitingTotal := by
  obtain ⟨batch, hbatch, hnew⟩ := h.current
  have hcurrent := StorageMap.total_remove UnbondBatch.waiting s.unbondBatches s.unbondBatchId
  simp only [hbatch, Option.map_some, Option.getD_some, UnbondBatch.waiting, hnew,
    UnbondBatchStatus.isWaiting, ↓reduceIte] at hcurrent
  have hrest : ∀ id b, (s.unbondBatches.remove s.unbondBatchId).load id = some b →
      s.failedBatchId ≠ some id → b.waiting = 0 := by
    intro id b hb hne
    rw [StorageMap.load_remove] at hb
    split_ifs at hb with hid
    rw [UnbondBatch.waiting, not_isWaiting_of_ne h hstate hb hid hne]
    rfl
  unfold Storage.unbondedTotal Storage.waitingTotal
  rw [hbatch]
  cases hf : s.failedBatchId with
  | none =>
    have hzero := StorageMap.total_eq_zero fun id b hb => hrest id b hb (by simp [hf])
    simp only [Option.bind_none, batchTotal]
    omega
  | some failedId =>
    obtain ⟨hsucc, hstored⟩ := h.failed_succ failedId hf
    obtain ⟨failed, hload, hstatus⟩ := hstored hstate
    have hload' : (s.unbondBatches.remove s.unbondBatchId).load failedId = some failed := by
      rw [StorageMap.load_remove, if_neg (by omega), hload]
    have hsecond := StorageMap.total_remove UnbondBatch.waiting
      (s.unbondBatches.remove s.unbondBatchId) failedId
    simp only [hload', Option.map_some, Option.getD_some, UnbondBatch.waiting, hstatus,
      UnbondBatchStatus.isWaiting, ↓reduceIte] at hsecond
    have hzero : ((s.unbondBatches.remove s.unbondBatchId).remove failedId).total
        UnbondBatch.waiting = 0 := by
      refine StorageMap.total_eq_zero fun id b hb => ?_
      rw [StorageMap.load_remove] at hb
      split_ifs at hb with hid
      refine hrest id b hb ?_
      rw [hf]
      exact fun heq => hid (Option.some.inj heq).symm
    simp only [Option.bind_some, hload, batchTotal]
    omega

/-- **The numerator of the rate** is what the assets leave after the incoming stake and the
amount that is waiting; there is none when they do not cover both or do not fit. -/
theorem exchangeRateNumerator_eq_ok (h : BatchesInv s) (hstate : s.fsmState ≠ .unbonding)
    {response : DelegationsResponse} (hdelegations : q.delegations = .ok response)
    {currentStake : Option ℕ} {n : ℕ} :
    exchangeRateNumerator s q currentStake = .ok n ↔
      s.assets q < Uint128.bound ∧
        currentStake.getD 0 + s.unbondedTotal + n = s.assets q := by
  have hdelegated : q.delegated = (response.1.map fun d => d.amount.amount).sum := by
    rw [Querier.delegated, hdelegations]
  simp only [exchangeRateNumerator, hdelegations, ask, ok_bind, bind_eq_ok, checkedAdd_eq_ok,
    checkedSub_eq_ok, checkedSum_eq_ok Uint128.bound_pos, ← hdelegated,
    unprocessedUnbondedAmount_eq h hstate, Storage.assets]
  constructor
  · rintro ⟨_, ⟨rfl, -⟩, unprocessed, hunprocessed, _, ⟨rfl, -⟩, _, ⟨rfl, hfits⟩, rest, hstake,
      hn⟩
    split_ifs at hunprocessed
    · rw [Except.ok.injEq] at hunprocessed
      exact ⟨hfits, by omega⟩
    · exact absurd hunprocessed abort_ne_ok
  · rintro ⟨hfits, hn⟩
    refine ⟨_, ⟨rfl, by omega⟩, s.unbondedTotal, if_pos (.inr (by omega)), _, ⟨rfl, by omega⟩,
      _, ⟨rfl, hfits⟩, s.unbondedTotal + n, by omega, rfl⟩

/-- The numerator fails only by an abort. -/
theorem exchangeRateNumerator_ne_error (h : BatchesInv s) (hstate : s.fsmState ≠ .unbonding)
    {response : DelegationsResponse} (hdelegations : q.delegations = .ok response)
    {currentStake : Option ℕ} (e : ContractError) :
    exchangeRateNumerator s q currentStake ≠ .error (.error e) := by
  intro herror
  simp only [exchangeRateNumerator, hdelegations, ask, ok_bind, bind_eq_error,
    checkedAdd_eq_error, checkedSub_eq_error, checkedSum_eq_error Uint128.bound_pos,
    unprocessedUnbondedAmount_eq h hstate] at herror
  split_ifs at herror <;> simp [abort] at herror

/-- **The rate in `Idle`** is one while there are no liquid tokens, and otherwise the rounded
ratio of the numerator to the supply. -/
theorem queryExchangeRate_of_idle (hidle : s.fsmState = .idle) {ldDenom : String}
    (hld : s.config.ldDenom = some ldDenom) (currentStake : Option ℕ) :
    queryExchangeRate s q currentStake =
      if q.supply ldDenom = 0 then .ok Decimal.one
      else exchangeRateNumerator s q currentStake >>= fun numerator =>
        Decimal.fromRatio numerator (q.supply ldDenom) := by
  simp only [queryExchangeRate, hidle, ne_eq, not_true, ↓reduceIte, hld, orError, ok_bind]

/-- When there are liquid tokens, the rate is computed exactly when everything fits. The stake
that comes in is part of the assets here, and leaves them again. -/
theorem queryExchangeRate_eq_ok (h : BatchesInv s) (hidle : s.fsmState = .idle)
    {response : DelegationsResponse} (hdelegations : q.delegations = .ok response)
    {ldDenom : String} (hld : s.config.ldDenom = some ldDenom) (hsupply : q.supply ldDenom ≠ 0)
    {currentStake : Option ℕ} {assets : ℕ}
    (hassets : s.assets q = assets + currentStake.getD 0) {rate : Decimal} :
    queryExchangeRate s q currentStake = .ok rate ↔
      RateFits assets s.unbondedTotal (currentStake.getD 0) (q.supply ldDenom) ∧
        rate.atomics =
          (assets - s.unbondedTotal) * Decimal.fractional / q.supply ldDenom := by
  have hstate : s.fsmState ≠ .unbonding := by simp [hidle]
  rw [queryExchangeRate_of_idle hidle hld, if_neg hsupply]
  simp only [bind_eq_ok, exchangeRateNumerator_eq_ok h hstate hdelegations,
    Decimal.fromRatio_eq_ok, hassets]
  constructor
  · rintro ⟨n, ⟨hfits, hn⟩, -, hrate, hlt⟩
    have hrest : assets - s.unbondedTotal = n := by omega
    rw [hrest]
    refine ⟨⟨by omega, hfits, ?_⟩, hrate.symm⟩
    rw [hrest, hrate]
    exact hlt
  · rintro ⟨⟨hcovered, hfits, hlt⟩, hrate⟩
    refine ⟨assets - s.unbondedTotal, ⟨hfits, by omega⟩, hsupply, hrate.symm, ?_⟩
    rw [hrate]
    exact hlt

/-- When everything fits, the rate is the rounded ratio of what is left to the supply. -/
theorem queryExchangeRate_of_fits (h : BatchesInv s) (hidle : s.fsmState = .idle)
    {response : DelegationsResponse} (hdelegations : q.delegations = .ok response)
    {ldDenom : String} (hld : s.config.ldDenom = some ldDenom) (hsupply : q.supply ldDenom ≠ 0)
    (currentStake : Option ℕ) {assets : ℕ}
    (hassets : s.assets q = assets + currentStake.getD 0)
    (hfits : RateFits assets s.unbondedTotal (currentStake.getD 0) (q.supply ldDenom)) :
    queryExchangeRate s q currentStake = .ok
      ⟨(assets - s.unbondedTotal) * Decimal.fractional / q.supply ldDenom⟩ :=
  (queryExchangeRate_eq_ok h hidle hdelegations hld hsupply hassets).2 ⟨hfits, rfl⟩

/-- The rate fails by an abort unless it is computed, when there are liquid tokens. -/
theorem queryExchangeRate_ne_error (h : BatchesInv s) (hidle : s.fsmState = .idle)
    {response : DelegationsResponse} (hdelegations : q.delegations = .ok response)
    {ldDenom : String} (hld : s.config.ldDenom = some ldDenom) {currentStake : Option ℕ}
    (e : ContractError) : queryExchangeRate s q currentStake ≠ .error (.error e) := by
  have hstate : s.fsmState ≠ .unbonding := by simp [hidle]
  rw [queryExchangeRate_of_idle hidle hld]
  split_ifs
  · exact ne_error_of_ok rfl _
  · intro herror
    rcases bind_eq_error.1 herror with herror | ⟨n, -, herror⟩
    · exact exchangeRateNumerator_ne_error h hstate hdelegations e herror
    · exact absurd (Decimal.fromRatio_eq_error.1 herror).2 (by simp)

/-- **When the rate can be computed**: always, while there are no liquid tokens; otherwise exactly
when everything fits. -/
theorem queryExchangeRate_ne_abort_iff (h : BatchesInv s) (hidle : s.fsmState = .idle)
    {response : DelegationsResponse} (hdelegations : q.delegations = .ok response)
    (currentStake : Option ℕ) {assets : ℕ}
    (hassets : s.assets q = assets + currentStake.getD 0) :
    queryExchangeRate s q currentStake ≠ .error .abort ↔
      ∀ ldDenom, s.config.ldDenom = some ldDenom → q.supply ldDenom ≠ 0 →
        RateFits assets s.unbondedTotal (currentStake.getD 0) (q.supply ldDenom) := by
  cases hld : s.config.ldDenom with
  | none =>
    refine iff_of_true ?_ (by simp)
    simp [queryExchangeRate, hidle, hld, orError, fail]
  | some ldDenom =>
    simp only [Option.some.injEq, forall_eq']
    constructor
    · intro hne hsupply
      cases hquery : queryExchangeRate s q currentStake with
      | ok rate =>
        exact ((queryExchangeRate_eq_ok h hidle hdelegations hld hsupply hassets).1 hquery).1
      | error f =>
        cases f with
        | abort => exact absurd hquery hne
        | error e => exact absurd hquery (queryExchangeRate_ne_error h hidle hdelegations hld e)
    · intro hfits
      by_cases hsupply : q.supply ldDenom = 0
      · rw [queryExchangeRate_of_idle hidle hld, if_pos hsupply]
        exact ne_error_of_ok rfl _
      · rw [queryExchangeRate_of_fits h hidle hdelegations hld hsupply currentStake hassets
          (hfits hsupply)]
        exact ne_error_of_ok rfl _

end Rate

/-! ## Bonds -/

/-- A bond up to its rate: the payment, the limit, and what is recorded of the coin. -/
def recordBond (s : Storage) (q : Querier) (info : MessageInfo) : Result (Storage × Coin) := do
  let coin ← (oneCoin info).mapError .paymentError
  checkBondLimit s coin.amount
  let bonded ← checkedAdd Uint128.bound s.bondedAmount coin.amount
  let denomType ← checkDenom q coin.denom s.config
  let s ← recordLsmShare { s with bondedAmount := bonded } coin denomType
  return (s, coin)

/-- The rate of a bond, and what it gives for one base token. -/
def bondRatio (s : Storage) (q : Querier) (amount : ℕ) : Result Decimal := do
  let exchangeRate ← queryExchangeRate s q (some amount)
  Decimal.div Decimal.one exchangeRate

section Bond

variable {s s' : Storage} {q : Querier}

/-- **A bond is made of the two parts** and of the mint. -/
theorem executeBond_eq (s : Storage) (q : Querier) (info : MessageInfo)
    (receiver : Option String) :
    executeBond s q info receiver = do
      let (s', coin) ← recordBond s q info
      let ratio ← bondRatio s' q coin.amount
      let issueAmount ← Decimal.mulUint coin.amount ratio
      let receiver ← bondReceiver q info.sender receiver
      return (s', [.tokenMint s.config.tokenContract issueAmount receiver]) := by
  simp only [executeBond, recordBond, bondRatio, bind_assoc, pure_bind]

/-- What a bond records leaves the batches and the state machine alone, and adds the coin to the
LSM shares if it is one. -/
theorem recordBond_ok {info : MessageInfo} {coin : Coin}
    (h : recordBond s q info = .ok (s', coin)) :
    info.funds = [coin] ∧ LsmFrame s s' ∧
      (coin.denom = s.config.baseDenom ∧ s'.totalLsmShares = s.totalLsmShares ∨
        coin.denom ≠ s.config.baseDenom ∧
          s'.totalLsmShares = s.totalLsmShares + coin.amount) := by
  simp only [recordBond, bind_eq_ok, mapError_eq_ok, oneCoin_eq_ok, checkedAdd_eq_ok,
    pure_eq_ok, Except.ok.injEq, Prod.mk.injEq] at h
  obtain ⟨coin', ⟨hfunds, -⟩, -, -, bonded, -, denomType, hdenom, s₁, hrecord, rfl, rfl⟩ := h
  have hrecord := recordLsmShare_ok hrecord
  obtain ⟨h₁, h₂, h₃, h₄, h₅, h₆, h₇, h₈⟩ := hrecord.frame
  refine ⟨hfunds, ⟨h₁, h₂, h₃, h₄, h₅, h₆, h₇, h₈⟩, ?_⟩
  unfold checkDenom at hdenom
  split_ifs at hdenom with hbase
  · rw [← Except.ok.inj hdenom] at hrecord
    cases hrecord
    exact .inl ⟨hbase, rfl⟩
  · simp only [bind_eq_ok, pure_eq_ok, Except.ok.injEq] at hdenom
    obtain ⟨trace, -, path, -, -, -, base, -, validator, -, -, -, hdenom⟩ := hdenom
    rw [← hdenom] at hrecord
    cases hrecord
    exact .inr ⟨hbase, rfl⟩

/-- **When a bond can compute what it gives**: always, while there are no liquid tokens; otherwise
exactly when everything fits and the rate is not rounded to zero. -/
theorem bondRatio_ne_abort_iff (h : BatchesInv s) (hidle : s.fsmState = .idle)
    {response : DelegationsResponse} (hdelegations : q.delegations = .ok response)
    {amount assets : ℕ} (hassets : s.assets q = assets + amount) :
    bondRatio s q amount ≠ .error .abort ↔
      ∀ ldDenom, s.config.ldDenom = some ldDenom → q.supply ldDenom ≠ 0 →
        RateFits assets s.unbondedTotal amount (q.supply ldDenom) ∧
          q.supply ldDenom ≤ (assets - s.unbondedTotal) * Decimal.fractional := by
  have hquery := queryExchangeRate_ne_abort_iff h hidle hdelegations (some amount) hassets
  cases hld : s.config.ldDenom with
  | none =>
    refine iff_of_true ?_ (by simp)
    simp [bondRatio, queryExchangeRate, hidle, hld, orError, fail]
  | some ldDenom =>
    simp only [Option.some.injEq, forall_eq']
    by_cases hsupply : q.supply ldDenom = 0
    · refine iff_of_true ?_ (by simp [hsupply])
      rw [bondRatio, queryExchangeRate_of_idle hidle hld, if_pos hsupply, ok_bind]
      intro herror
      exact absurd (Decimal.one_div_eq_error.1 herror).1 (by decide)
    · simp only [hld, Option.some.injEq, forall_eq', hsupply, ne_eq, not_false_eq_true,
        forall_const, Option.getD_some] at hquery ⊢
      constructor
      · intro hne
        have hfits : RateFits assets s.unbondedTotal amount (q.supply ldDenom) := by
          refine hquery.1 fun herror => hne ?_
          rw [bondRatio, herror, error_bind]
        refine ⟨hfits, not_lt.1 fun hlt => hne ?_⟩
        rw [bondRatio, queryExchangeRate_of_fits h hidle hdelegations hld hsupply (some amount)
          hassets hfits, ok_bind]
        exact Decimal.one_div_eq_error.2 ⟨Nat.div_eq_of_lt hlt, rfl⟩
      · rintro ⟨hfits, hpositive⟩ herror
        rw [bondRatio, queryExchangeRate_of_fits h hidle hdelegations hld hsupply (some amount)
          hassets hfits, ok_bind] at herror
        have hzero := (Decimal.one_div_eq_error.1 herror).1
        exact absurd hzero (Nat.div_pos hpositive (Nat.pos_of_ne_zero hsupply)).ne'

/-- **Everything a bond issues**: the recorded coin, at the rate without it, which is not zero. -/
theorem executeBond_issue {info : MessageInfo} {receiver : Option String} {msgs : List CoreMsg}
    (h : executeBond s q info receiver = .ok (s', msgs)) :
    ∃ coin rate receiver', recordBond s q info = .ok (s', coin) ∧
      s'.exchangeRate = s.exchangeRate ∧
      queryExchangeRate s' q (some coin.amount) = .ok rate ∧ rate.atomics ≠ 0 ∧
      msgs = [.tokenMint s.config.tokenContract
        (Shares.issue Decimal.fractional coin.amount rate.atomics) receiver'] := by
  rw [executeBond_eq] at h
  simp only [bind_eq_ok, bondRatio, Decimal.div, Decimal.one_atomics, Decimal.fromRatio_eq_ok,
    Decimal.mulUint_eq_ok, pure_eq_ok, Except.ok.injEq, Prod.mk.injEq] at h
  obtain ⟨⟨s₁, coin⟩, hrecord, ratio, ⟨rate, hrate, hpos, hratio, -⟩, issued, ⟨hissued, -⟩,
    receiver', -, rfl, rfl⟩ := h
  refine ⟨coin, rate, receiver', hrecord, ?_, hrate, hpos, ?_⟩
  · simp only [recordBond, bind_eq_ok, pure_eq_ok, Except.ok.injEq, Prod.mk.injEq] at hrecord
    obtain ⟨_, -, -, -, bonded, -, denomType, -, s₂, hrecord, rfl, rfl⟩ := hrecord
    have hrecord := recordLsmShare_ok hrecord
    cases hrecord <;> rfl
  · rw [Shares.issue, hratio, hissued]

end Bond

end Core

end DropContracts
