import DropContracts.Core.ExchangeRate
import DropContracts.Core.Fees

set_option relaxedAutoImplicit false
set_option autoImplicit false

/-!
# Tokens on their way

While base tokens are on their way to the interchain account, nothing that the exchange rate adds up
contains them; `PENDING_TRANSFER` says how many they are. A tick moves tokens between the places
that the rate adds up, the messages, and this item. The one tick that loses sight of them is a tick
of `Transfering` that does not delegate at least as many.

## Main definitions

* `Transaction.delegates`, `Transaction.undelegates`, `Transaction.redeems`,
  `Transaction.tokenizes` — what a transaction does to the delegations.
* `Core.Storage.transit` — the tokens on their way to the interchain account.
* `Core.Storage.owed` — the liquid tokens of the batches that have not been handed to the puppeteer.
* `Core.Storage.awaitsStake` — core waits for the answer to a delegation.

## Main results

* `Core.owed_eq_unbondedTotal` — outside of `Unbonding` the rate subtracts what is owed.
* `Core.tick_owed`, `Core.tick_undelegate_owed` — a tick takes from what is owed what it asks to
  withdraw.
* `Core.transfering_stakes` — when a tick of `Transfering` delegates.
* `Core.hook_success` — what the hook does to the shares.
-/

namespace DropContracts

/-! ## What transactions do to the delegations -/

/-- The tokens that an executed transaction delegates. -/
def Transaction.delegates : Transaction → ℕ
  | .delegate _ _ items => (items.map Prod.snd).sum
  | _ => 0

/-- The tokens that an executed transaction starts to unbond. -/
def Transaction.undelegates : Transaction → ℕ
  | .undelegate _ items _ _ => (items.map Prod.snd).sum
  | _ => 0

/-- The shares that an executed transaction turns into delegations. -/
def Transaction.redeems : Transaction → ℕ
  | .redeemShares _ items => (items.map RedeemShareItem.amount).sum
  | _ => 0

/-- The delegations that an executed transaction turns into shares. -/
def Transaction.tokenizes : Transaction → ℕ
  | .tokenizeShare _ _ _ amount => amount
  | _ => 0

namespace Core

open Exec

/-! ## What is owed and what is on its way -/

/-- What a batch adds to the liquid tokens that have not been handed to the puppeteer. -/
def UnbondBatch.owed (batch : UnbondBatch) : ℕ :=
  if batch.status = .new ∨ batch.status = .unbondFailed then batch.totalAmount else 0

/-- The liquid tokens of all batches that have not been handed to the puppeteer. -/
def Storage.owed (s : Storage) : ℕ := s.unbondBatches.total UnbondBatch.owed

/-- The base tokens on their way to the interchain account. -/
def Storage.transit (s : Storage) : ℕ :=
  if s.fsmState = .transfering then s.pendingTransfer.getD 0 else 0

/-- Whether core waits for the answer to a delegation. -/
def Storage.awaitsStake (s : Storage) : Prop :=
  s.fsmState = .staking ∧ s.lastPuppeteerResponse = none

instance (s : Storage) : Decidable s.awaitsStake := inferInstanceAs (Decidable (_ ∧ _))

/-- Outside of `Transfering` nothing is on its way. -/
theorem transit_eq_zero {s : Storage} (hstate : s.fsmState ≠ .transfering) : s.transit = 0 :=
  if_neg hstate

section Owed

variable {s s' : Storage} {q : Querier} {env : Env} {info : MessageInfo} {msgs : List CoreMsg}

/-- **Outside of `Unbonding` the rate subtracts what is owed**: no batch is with the puppeteer. -/
theorem owed_eq_unbondedTotal (h : BatchesInv s) (hstate : s.fsmState ≠ .unbonding) :
    s.owed = s.unbondedTotal := by
  rw [unbondedTotal_eq_waiting h hstate]
  have hsame : ∀ id b, s.unbondBatches.load id = some b → b.owed = b.waiting := by
    intro id b hb
    have hrequested : b.status ≠ .unbondRequested := fun hr => hstate (h.requested id b hb hr).2
    unfold UnbondBatch.owed UnbondBatch.waiting
    cases hstatus : b.status <;> simp_all [UnbondBatchStatus.isWaiting]
  refine le_antisymm (StorageMap.total_le_total ?_) (StorageMap.total_le_total ?_)
  · intro id b hb
    simp [hb, hsame id b hb]
  · intro id b hb
    simp [hb, hsame id b hb]

/-- What is owed by the batch that is handed over next is its total. -/
theorem owed_of_next (h : BatchesInv s) (hstate : s.fsmState ≠ .unbonding) {batch : UnbondBatch}
    (hbatch : s.unbondBatches.load s.nextBatchId = some batch) :
    batch.owed = batch.totalAmount := by
  unfold UnbondBatch.owed
  rcases h.nextBatch hstate hbatch with ⟨-, -, hnew⟩ | ⟨-, -, hfailed⟩
  · rw [if_pos (.inl hnew)]
  · rw [if_pos (.inr hfailed)]

/-- A batch that is handed over is not owed any more, and the one after it starts empty. -/
theorem owed_requestBatch (balance now : ℕ) {batch : UnbondBatch}
    (hbatch : s.unbondBatches.load s.nextBatchId = some batch) :
    (s.requestBatch batch balance now).owed + batch.owed ≤ s.owed := by
  have hrequested := StorageMap.total_save UnbondBatch.owed s.unbondBatches s.nextBatchId
    { batch with status := .unbondRequested }
  have hnext := StorageMap.total_save UnbondBatch.owed
    (s.unbondBatches.save s.nextBatchId { batch with status := .unbondRequested })
    (s.nextBatchId + 1) (newUnbond now)
  have hzero : ({ batch with status := .unbondRequested } : UnbondBatch).owed = 0 := rfl
  have hempty : (newUnbond now).owed = 0 := rfl
  rw [hbatch, hzero] at hrequested
  simp only [Option.map_some, Option.getD_some] at hrequested
  rw [hempty] at hnext
  show ((s.unbondBatches.save s.nextBatchId { batch with status := .unbondRequested }).save
    (s.nextBatchId + 1) (newUnbond now)).total UnbondBatch.owed + batch.owed ≤
      s.unbondBatches.total UnbondBatch.owed
  omega

/-- The payout of matured batches leaves what is owed alone. -/
theorem owed_idlePrepared {transfer : Option TransferReadyBatchesMsg} {validators : List String}
    (h : IdlePrepared s q env s' transfer validators) : s'.owed ≤ s.owed := by
  cases h with
  | intro rate balances f emergency members delegations _ _ _ _ _ hf _ =>
    refine StorageMap.total_le_total fun id b hb => ?_
    simp only [StorageMap.load_saveAll s.unbondBatches f fun e he =>
      (mem_maturedBatches.1 he).1] at hb
    split_ifs at hb with hmatured
    · obtain ⟨old, -, rfl⟩ := Option.map_eq_some_iff.1 hb
      have hzero : (f old).owed = 0 := by
        unfold UnbondBatch.owed
        rw [(hf old).2]
        cases emergency <;> rfl
      rw [hzero]
      exact Nat.zero_le _
    · rw [hb]
      exact le_rfl

/-- **A tick takes from what is owed** what it asks to withdraw, and adds nothing; unless it finds
that an undelegation has failed. -/
theorem tick_owed (hcase : TickCase s q env info s' msgs)
    (hsuccess : s.fsmState = .unbonding → ∀ r, s.lastPuppeteerResponse = some r →
      r.isError = false) : s'.owed ≤ s.owed := by
  cases hcase with
  | idleInterval => exact le_rfl
  | idleClaim t transfer validators hstate hprepared =>
    have hle := owed_idlePrepared hprepared
    exact hle
  | idleCascade t u transfer validators _ hstate hprepared _ hcascade =>
    have hclaiming : t.fsmState ≠ .staking := by
      cases hprepared
      simp
    have hle := owed_idlePrepared hprepared
    rw [Storage.owed, Storage.owed, ← cascade_batches hclaiming hcascade] at hle
    exact hle
  | claiming r batches emergency t _ hstate hresponse hload hcascade =>
    rw [Storage.owed, cascade_batches (by simp [hstate]) hcascade]
    refine StorageMap.total_le_total fun id b hb => ?_
    change batches.load id = some b at hb
    rw [hload] at hb
    split_ifs at hb
    · obtain ⟨old, -, rfl⟩ := Option.map_eq_some_iff.1 hb
      have hzero : (old.withdrawn emergency).owed = 0 := by cases emergency <;> rfl
      rw [hzero]
      exact Nat.zero_le _
    · rw [hb]
      exact le_rfl
  | transfering r t _ hstate hresponse hcascade =>
    rw [Storage.owed, cascade_batches (by simp [hstate]) hcascade]
    exact le_rfl
  | staking r t _ hstate hresponse _ hcascade =>
    cases hcascade with
    | transfer => exact le_rfl
    | stake => exact le_rfl
    | idle => exact le_rfl
    | unbond batch balances undelegations _ hbatch =>
      have hle := owed_requestBatch (s := { s with lastPuppeteerResponse := none })
        (icaBalance balances s.config.remoteDenom) env.time.seconds hbatch
      exact (Nat.le_add_right _ _).trans hle
  | unbondingSuccess requestId account items denom batchId unbond hstate _ hbatch =>
    have htotal := StorageMap.total_save UnbondBatch.owed s.unbondBatches batchId
      { unbond with
        status := .unbonding
        expectedRelease := env.time.seconds + s.config.unbondingPeriod }
    exact (Nat.le_add_right _ _).trans_eq htotal
  | unbondingFailed requestId account items denom batchId details unbond hstate hresponse =>
    exact absurd (hsuccess hstate _ hresponse) (by simp [ResponseHookMsg.isError])

/-- **What an undelegation is asked for** leaves what is owed. -/
theorem tick_undelegate_owed (h : BatchesInv s) (hstate : s.fsmState = .staking)
    {contract : String} {items : List (String × ℕ)} {batchId : ℕ} {timeout : Option ℕ}
    {replyTo : String} {funds : List Coin}
    (hcase : TickCase s q env info s'
      [.puppeteer contract (.undelegate items batchId timeout replyTo) funds]) :
    ∃ amount undelegations, q.calcWithdraw amount = .ok undelegations ∧
      items = undelegations.map (fun d => (d.valoperAddress, d.stakeChange)) ∧
      s'.owed + amount ≤ s.owed := by
  obtain ⟨r, -, -, hcascade⟩ := hcase.of_staking hstate
  cases hcascade with
  | unbond batch balances undelegations _ hbatch _ hcalc =>
    have hle := owed_requestBatch (s := { s with lastPuppeteerResponse := none })
      (icaBalance balances s.config.remoteDenom) env.time.seconds hbatch
    have htotal := owed_of_next h (by simp [hstate]) hbatch
    rw [htotal] at hle
    exact ⟨batch.totalAmount, undelegations, hcalc, rfl, hle⟩

/-- **A tick of `Transfering` delegates** the balance that the puppeteer reports, when that is the
minimum at least. -/
theorem transfering_stakes (hstate : s.fsmState = .transfering)
    (h : executeTick s q env info = .ok (s', msgs)) {balances : BalancesResponse}
    (hbalances : q.balances = .ok balances)
    (hmin : s.config.minStakeAmount ≤ icaBalance balances s.config.remoteDenom) :
    s'.fsmState = .staking ∧ s'.lastPuppeteerResponse = none ∧ ∃ fee toDelegate,
      Stakes s.config q env info s.collectedFees s'.collectedFees msgs balances fee
        toDelegate := by
  simp only [executeTick, executeTickTransfering, getReceivedPuppeteerResponse, stakeOrUnbond,
    hstate, bind_eq_ok, orError_eq_ok] at h
  obtain ⟨-, -, r, -, ⟨t, m⟩, hmsg, h⟩ := h
  obtain ⟨balances', hbalances', ⟨hbelow, -, -⟩ | ⟨-, ⟨fees, rfl⟩, items, rfl⟩⟩ :=
    getStakeMsg_ok hmsg
  · rw [hbalances, Except.ok.injEq] at hbalances'
    rw [← hbalances'] at hbelow
    exact absurd hmin (not_le.2 hbelow)
  · obtain ⟨_, fee, toDelegate, hstakes⟩ := getStakeMsg_stakes hmsg
    obtain rfl := Except.ok.inj (hbalances.symm.trans hstakes.known)
    simp only [bind_eq_ok, Storage.goTo_eq_ok, pure_eq_ok, Except.ok.injEq, Prod.mk.injEq] at h
    obtain ⟨_, ⟨-, rfl⟩, rfl, rfl⟩ := h
    exact ⟨rfl, rfl, fee, toDelegate, hstakes⟩

/-- **What the hook does after a success**: redeemed shares leave the total, and the item of the
transfer stays. -/
theorem hook_success {requestId : ℕ} {transaction : Transaction}
    (h : executePuppeteerHook s env info (.success ⟨requestId, transaction⟩) = .ok s') :
    s'.pendingTransfer = s.pendingTransfer ∧
      s'.totalLsmShares + transaction.redeems = s.totalLsmShares := by
  simp only [executePuppeteerHook, processOutcome, bind_eq_ok, pure_eq_ok, Except.ok.injEq] at h
  obtain ⟨-, -, t, hprocess, rfl⟩ := h
  constructor
  · obtain ⟨_, _, _, _, rfl⟩ := processSuccess_ok hprocess
    rfl
  · unfold processSuccess at hprocess
    split at hprocess
    next denom amount recipient reason =>
      split_ifs at hprocess
      · obtain ⟨_, _, rfl⟩ := recordSentShares_ok hprocess
        rfl
      · rw [← Except.ok.inj hprocess]
        rfl
    next account items =>
      simp only [recordRedeemedShares, bind_eq_ok, checkedSum_eq_ok Uint128.bound_pos,
        checkedSub_eq_ok, pure_eq_ok, Except.ok.injEq] at hprocess
      obtain ⟨_, ⟨rfl, -⟩, total, htotal, rfl⟩ := hprocess
      exact (Nat.add_comm _ _).trans htotal
    next hsent hredeem =>
      rw [← Except.ok.inj hprocess]
      have hzero : transaction.redeems = 0 := by
        cases transaction with
        | redeemShares account items => exact absurd rfl (hredeem account items)
        | _ => rfl
      rw [hzero]
      rfl

end Owed

end Core

end DropContracts
