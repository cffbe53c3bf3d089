import DropContracts.Core.IdleTick

set_option relaxedAutoImplicit false
set_option autoImplicit false

/-!
# The life of a batch

The statuses that a batch goes through, one after the other, and what stays fixed on the way. A
payout that goes to the emergency address has statuses of its own; the payout message carries the
flag that tells the two apart, and so does the response to it.

## Main definitions

* `Core.UnbondBatchStatus.Next` — the arrows between the statuses.
* `Core.UnbondBatch.Ages`, `Core.UnbondBatch.Aged` — a batch after one step, and after many.
* `Transaction.payout` — the payout that a transaction makes.

## Main results

* `Core.UnbondBatch.Aged.tail` — from one step to many.
* `Core.executeTick_claim` — the batches of a payout that a tick asks for.
* `Core.executeTick_paid` — what a claiming tick does to the batches.
-/

namespace DropContracts

/-- The payout that a transaction makes. -/
def Transaction.payout : Transaction → Option TransferReadyBatchesMsg
  | .claimRewardsAndOptionalyTransfer _ _ _ payout => payout
  | _ => none

/-- The batches of a transaction are those of its payout. -/
theorem Transaction.batchIds_eq (transaction : Transaction) :
    transaction.batchIds = listedBatches transaction.payout := by
  cases transaction <;> rfl

/-- A batch that a response says is paid belongs to the payout of a success. -/
theorem ResponseHookMsg.exists_payout {r : ResponseHookMsg} {id : ℕ} (h : id ∈ r.paidBatches) :
    ∃ msg payout, r = .success msg ∧ msg.transaction.payout = some payout ∧
      id ∈ payout.batchIds := by
  cases r with
  | error msg => cases h
  | success msg =>
    simp only [ResponseHookMsg.paidBatches, Transaction.batchIds_eq] at h
    cases hpayout : msg.transaction.payout with
    | none =>
      rw [hpayout] at h
      cases h
    | some payout =>
      rw [hpayout] at h
      exact ⟨msg, payout, rfl, hpayout, h⟩

namespace Core

open Exec

/-! ## The arrows -/

/-- The arrows of the life cycle. -/
inductive UnbondBatchStatus.Next : UnbondBatchStatus → UnbondBatchStatus → Prop
  | requested : Next .new .unbondRequested
  | unbonding : Next .unbondRequested .unbonding
  | withdrawing : Next .unbonding .withdrawing
  | withdrawn : Next .withdrawing .withdrawn
  | failed : Next .unbondRequested .unbondFailed
  | retried : Next .unbondFailed .unbondRequested
  | withdrawingEmergency : Next .unbonding .withdrawingEmergency
  | withdrawnEmergency : Next .withdrawingEmergency .withdrawnEmergency

/-- No arrow leads back to `New`. -/
theorem UnbondBatchStatus.Next.ne_new {status status' : UnbondBatchStatus}
    (h : status.Next status') : status' ≠ .new := by
  cases h <;> simp

/-- An arrow from a batch that has left `Unbonding` stays there. -/
theorem UnbondBatchStatus.Next.isLeaving {status status' : UnbondBatchStatus}
    (h : status.Next status') (hleaving : status.isLeaving = true) :
    status'.isLeaving = true := by
  cases h <;> simp_all [UnbondBatchStatus.isLeaving]

/-- The start of a payout, with or without the emergency address. -/
theorem next_withdrawingStatus (emergency : Bool) :
    UnbondBatchStatus.Next .unbonding (withdrawingStatus emergency) := by
  cases emergency
  · exact .withdrawing
  · exact .withdrawingEmergency

/-- The end of a payout, with or without the emergency address. -/
theorem next_withdrawnStatus (emergency : Bool) :
    UnbondBatchStatus.Next (withdrawingStatus emergency) (withdrawnStatus emergency) := by
  cases emergency
  · exact .withdrawn
  · exact .withdrawnEmergency

/-! ## One step and many -/

/-- What stays the same of a batch with the given status: the requests once it has left `New`, the
payout once it has left `Unbonding`. -/
structure UnbondBatch.Fixed (b b' : UnbondBatch) : Prop where
  unbondItems : b.status ≠ .new → b'.unbondItems = b.unbondItems
  totalAmount : b.status ≠ .new → b'.totalAmount = b.totalAmount
  expectedAmount : b.status ≠ .new → b'.expectedAmount = b.expectedAmount
  slashingEffect : b.status.isLeaving = true → b'.slashingEffect = b.slashingEffect
  unbondedAmount : b.status.isLeaving = true → b'.unbondedAmount = b.unbondedAmount

/-- A batch after one step: it went along at most one arrow. -/
structure UnbondBatch.Ages (b b' : UnbondBatch) : Prop where
  status : b'.status = b.status ∨ b.status.Next b'.status
  fixed : b.Fixed b'

/-- A batch after many steps: it went along arrows. -/
structure UnbondBatch.Aged (b b' : UnbondBatch) : Prop where
  status : Relation.ReflTransGen UnbondBatchStatus.Next b.status b'.status
  fixed : b.Fixed b'

section Ages

variable {b b' b'' : UnbondBatch}

/-- A batch that stays the same. -/
theorem UnbondBatch.Fixed.refl (b : UnbondBatch) : b.Fixed b :=
  ⟨fun _ => rfl, fun _ => rfl, fun _ => rfl, fun _ => rfl, fun _ => rfl⟩

/-- Nothing is fixed of a new batch. -/
theorem UnbondBatch.Fixed.of_new (hnew : b.status = .new) (b' : UnbondBatch) : b.Fixed b' := by
  have hopen : b.status.isLeaving ≠ true := by
    rw [hnew]
    simp [UnbondBatchStatus.isLeaving]
  exact ⟨fun h => absurd hnew h, fun h => absurd hnew h, fun h => absurd hnew h,
    fun h => absurd h hopen, fun h => absurd h hopen⟩

/-- A step that leaves a batch alone. -/
theorem UnbondBatch.Ages.refl (b : UnbondBatch) : b.Ages b := ⟨.inl rfl, .refl b⟩

/-- No step at all. -/
theorem UnbondBatch.Aged.refl (b : UnbondBatch) : b.Aged b := ⟨.refl, .refl b⟩

/-- A batch that is new after many steps was new before them. -/
theorem ne_new_of_arrows {status status' : UnbondBatchStatus}
    (h : Relation.ReflTransGen UnbondBatchStatus.Next status status') (hnew : status ≠ .new) :
    status' ≠ .new := by
  induction h with
  | refl => exact hnew
  | tail _ hlast _ => exact hlast.ne_new

/-- A batch that has left `Unbonding` does not come back. -/
theorem isLeaving_of_arrows {status status' : UnbondBatchStatus}
    (h : Relation.ReflTransGen UnbondBatchStatus.Next status status')
    (hleaving : status.isLeaving = true) : status'.isLeaving = true := by
  induction h with
  | refl => exact hleaving
  | tail _ hlast ih => exact hlast.isLeaving ih

/-- **One more step**: what was fixed before it stays fixed, since no arrow leads back. -/
theorem UnbondBatch.Aged.tail (h : b.Aged b') (hlast : b'.Ages b'') : b.Aged b'' := by
  obtain ⟨harrows, hitems, htotal, hexpected, heffect, hamount⟩ := h
  have hnew := fun hne => ne_new_of_arrows harrows hne
  have hleaving := fun hl => isLeaving_of_arrows harrows hl
  refine ⟨?_, ?_, ?_, ?_, ?_, ?_⟩
  · rcases hlast.status with hsame | hnext
    · rw [hsame]
      exact harrows
    · exact harrows.tail hnext
  · intro hne
    exact (hlast.fixed.unbondItems (hnew hne)).trans (hitems hne)
  · intro hne
    exact (hlast.fixed.totalAmount (hnew hne)).trans (htotal hne)
  · intro hne
    exact (hlast.fixed.expectedAmount (hnew hne)).trans (hexpected hne)
  · intro hl
    exact (hlast.fixed.slashingEffect (hleaving hl)).trans (heffect hl)
  · intro hl
    exact (hlast.fixed.unbondedAmount (hleaving hl)).trans (hamount hl)

end Ages

/-! ## Payouts and their flag -/

section Payouts

variable {s s' : Storage} {q : Querier} {env : Env} {info : MessageInfo} {msgs : List CoreMsg}

/-- The payout that an idle tick prepares carries the flag of the statuses that it sets. -/
theorem markReadyBatches_payout {config : Config} {pumpAddress : String} {balance : ℕ}
    {batches : List (ℕ × UnbondBatch)} {payout : TransferReadyBatchesMsg}
    (h : markReadyBatches s config pumpAddress balance batches = .ok (s', some payout))
    (hstored : ∀ e ∈ batches, s.unbondBatches.load e.1 = some e.2) :
    ∀ id ∈ payout.batchIds, ∃ b, s'.unbondBatches.load id = some b ∧
      b.status = withdrawingStatus payout.emergency := by
  -- whatever is written over the listed batches, it is read back under their ids
  have hread : ∀ f : UnbondBatch → UnbondBatch, ∀ id ∈ batches.map Prod.fst, ∃ b,
      (s.saveBatches f batches).unbondBatches.load id = some (f b) := by
    intro f id hid
    obtain ⟨⟨id', b⟩, he, rfl⟩ := List.mem_map.1 hid
    refine ⟨b, ?_⟩
    rw [Storage.saveBatches, StorageMap.load_saveAll _ _ hstored, if_pos hid, hstored _ he]
    rfl
  cases markReadyBatches_cases h with
  | single id b amount effect =>
    intro id' hid'
    obtain ⟨b', hb'⟩ := hread (fun b => b.withdraw amount effect) id' hid'
    exact ⟨_, hb', rfl⟩
  | emergency =>
    intro id hid
    obtain ⟨b, hb⟩ := hread UnbondBatch.withdrawEmergency id hid
    exact ⟨_, hb, rfl⟩
  | full =>
    intro id hid
    obtain ⟨b, hb⟩ := hread (fun b => b.withdraw b.expectedAmount Decimal.one) id hid
    exact ⟨_, hb, rfl⟩

/-- **The batches of a payout** that a tick asks for have the status of its flag. -/
theorem executeTick_claim {contract : String} {validators : List String}
    {payout : TransferReadyBatchesMsg} {timeout : Option ℕ} {replyTo : String} {funds : List Coin}
    (h : executeTick s q env info = .ok (s', [.puppeteer contract
      (.claimRewardsAndOptionalyTransfer validators (some payout) timeout replyTo) funds])) :
    ∀ id ∈ payout.batchIds, ∃ b, s'.unbondBatches.load id = some b ∧
      b.status = withdrawingStatus payout.emergency := by
  have hstate : s.fsmState = .idle := by
    cases (executeTick_ok h).2 with
    | idleInterval _ _ hidle => exact hidle
    | idleClaim _ _ _ hidle => exact hidle
    | idleCascade _ _ _ _ _ hidle => exact hidle
    | claiming _ _ _ _ _ _ _ _ hcascade => cases hcascade
    | transfering _ _ _ _ _ hcascade => cases hcascade
    | staking _ _ _ _ _ _ hcascade => cases hcascade
  have hclaims : Claims [.puppeteer contract (.claimRewardsAndOptionalyTransfer validators
      (some payout) timeout replyTo) funds] (some payout) :=
    ⟨contract, validators, timeout, replyTo, funds, List.mem_singleton_self _⟩
  rcases executeTick_marks hstate h with ⟨-, hnone⟩ | ⟨balances, transfer, hmarked⟩
  · exact absurd hclaims (hnone _)
  · obtain ⟨t, u, pumpAddress, -, ht, hu, hmark⟩ := hmarked.decided
    rw [← hmarked.claim _ hclaims] at hmark
    rw [hu]
    refine markReadyBatches_payout hmark fun e he => ?_
    rw [ht]
    exact (mem_maturedBatches.1 he).1

/-- The response that a claiming tick processes marks the batches of its payout with the status of
the payout's flag. -/
theorem processClaimResponse_payout {r : ResponseHookMsg} (h : processClaimResponse s r = .ok s') :
    ∃ emergency, (∀ msg payout, r = .success msg → msg.transaction.payout = some payout →
        payout.emergency = emergency) ∧
      ∀ id, s'.unbondBatches.load id =
        if id ∈ r.paidBatches then (s.unbondBatches.load id).map (UnbondBatch.withdrawn emergency)
        else s.unbondBatches.load id := by
  unfold processClaimResponse at h
  split at h
  next msg =>
    split at h
    next _ _ _ transfer htx =>
      obtain ⟨batches, rfl, hload⟩ := markWithdrawn_ok h
      refine ⟨transfer.emergency, ?_, fun id => ?_⟩
      · rintro _ payout ⟨⟩ hpayout
        rw [htx] at hpayout
        rw [← Option.some.inj hpayout]
      · simp only [ResponseHookMsg.paidBatches, htx, Transaction.batchIds, listedBatches]
        exact hload id
    next _ _ _ htx =>
      rw [← Except.ok.inj h]
      refine ⟨false, ?_, fun id => ?_⟩
      · rintro _ payout ⟨⟩ hpayout
        rw [htx] at hpayout
        cases hpayout
      · simp [ResponseHookMsg.paidBatches, htx, Transaction.batchIds, listedBatches]
    · exact absurd h fail_ne_ok
  next msg =>
    rw [← Except.ok.inj h]
    refine ⟨false, ?_, fun id => by simp [ResponseHookMsg.paidBatches]⟩
    rintro _ payout ⟨⟩

/-- **What a claiming tick does to the batches**: it marks those of the payout in the response
slot, with the status of the payout's flag, and empties the slot. -/
theorem executeTick_paid (hstate : s.fsmState = .claiming)
    (h : executeTick s q env info = .ok (s', msgs)) :
    ∃ r emergency, s.lastPuppeteerResponse = some r ∧ s'.lastPuppeteerResponse = none ∧
      (∀ msg payout, r = .success msg → msg.transaction.payout = some payout →
        payout.emergency = emergency) ∧
      ∀ id, s'.unbondBatches.load id =
        if id ∈ r.paidBatches then (s.unbondBatches.load id).map (UnbondBatch.withdrawn emergency)
        else s.unbondBatches.load id := by
  simp only [executeTick, hstate, bind_eq_ok, ensure_eq_ok] at h
  obtain ⟨-, -, h⟩ := h
  simp only [executeTickClaiming, getReceivedPuppeteerResponse, bind_eq_ok, orError_eq_ok] at h
  obtain ⟨r, hr, s₁, hprocess, h⟩ := h
  obtain ⟨batches, _, rfl, -⟩ := processClaimResponse_ok hprocess
  obtain ⟨emergency, hflag, hload⟩ := processClaimResponse_payout hprocess
  have hcascade := (transferStakeOrUnbond_ok h).1
  have hbatches := cascade_batches (by simp [hstate]) hcascade
  refine ⟨r, emergency, hr, cascade_response hcascade rfl, hflag, fun id => ?_⟩
  rw [hbatches]
  exact hload id

end Payouts

end Core

end DropContracts
