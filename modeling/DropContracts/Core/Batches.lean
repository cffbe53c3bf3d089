import DropContracts.Core.Execute

set_option relaxedAutoImplicit false
set_option autoImplicit false

/-!
# The unbond batches of core

The invariant of the batch store: which ids are stored, which of them is open for requests, and
where the requested and the failed batch can be. Each operation on the store has one lemma that it
keeps the invariant.

## Main definitions

* `Core.UnbondBatchStatus.isLeaving`, `Core.UnbondBatchStatus.isPaying` — classes of statuses.
* `Core.UnbondBatch.WellSummed` — the totals of a batch are the sums over its requests.
* `Core.BatchesInv` — the invariant.
* `Core.Moved` — what a payout does to one slot of the store.

## Main results

* `Core.BatchesInv.push`, `Core.BatchesInv.request`, `Core.BatchesInv.moved`,
  `Core.BatchesInv.settled` — the operations.
* `Core.BatchesInv.tick` — a tick keeps the invariant.
-/

namespace DropContracts

namespace Core

/-! ## Statuses and sums -/

/-- The statuses of a batch whose payout has been decided. -/
def UnbondBatchStatus.isLeaving : UnbondBatchStatus → Bool
  | withdrawing => true
  | withdrawn => true
  | withdrawingEmergency => true
  | withdrawnEmergency => true
  | _ => false

/-- The statuses of a batch whose payout has been decided and not yet succeeded. -/
def UnbondBatchStatus.isPaying : UnbondBatchStatus → Bool
  | withdrawing => true
  | withdrawingEmergency => true
  | _ => false

/-- A payout starts with a paying status. -/
@[simp] theorem isPaying_withdrawingStatus (emergency : Bool) :
    (withdrawingStatus emergency).isPaying = true := by
  cases emergency <;> rfl

/-- A paying status is a leaving one. -/
theorem isLeaving_of_isPaying {status : UnbondBatchStatus} (h : status.isPaying = true) :
    status.isLeaving = true := by
  cases status <;> simp_all [UnbondBatchStatus.isPaying, UnbondBatchStatus.isLeaving]

/-- A payout ends with a leaving status. -/
@[simp] theorem isLeaving_withdrawnStatus (emergency : Bool) :
    (withdrawnStatus emergency).isLeaving = true := by
  cases emergency <;> rfl

/-- The totals of a batch are the sums over its requests. -/
structure UnbondBatch.WellSummed (batch : UnbondBatch) : Prop where
  totalAmount : batch.totalAmount = (batch.unbondItems.map UnbondItem.amount).sum
  expectedAmount : batch.expectedAmount = (batch.unbondItems.map UnbondItem.expectedAmount).sum

/-- A new batch has no requests and zero totals. -/
theorem wellSummed_newUnbond (now : ℕ) : (newUnbond now).WellSummed := ⟨rfl, rfl⟩

/-- One more request goes into both totals. -/
theorem UnbondBatch.WellSummed.push {batch : UnbondBatch} (h : batch.WellSummed)
    (item : UnbondItem) : (batch.push item).WellSummed := by
  refine ⟨?_, ?_⟩
  · simp only [UnbondBatch.push, h.totalAmount, List.map_append, List.sum_append, List.map_cons,
      List.map_nil, List.sum_cons, List.sum_nil, Nat.add_zero]
  · simp only [UnbondBatch.push, h.expectedAmount, List.map_append, List.sum_append,
      List.map_cons, List.map_nil, List.sum_cons, List.sum_nil, Nat.add_zero]

/-- Batches with the same requests are well summed together. -/
theorem UnbondBatch.SameRequests.wellSummed {b b' : UnbondBatch} (h : b.SameRequests b')
    (hb : b.WellSummed) : b'.WellSummed := by
  refine ⟨?_, ?_⟩
  · rw [h.totalAmount, h.unbondItems]
    exact hb.totalAmount
  · rw [h.expectedAmount, h.unbondItems]
    exact hb.expectedAmount

/-! ## The invariant -/

/-- The invariant of the batch store: the ids up to the current one are stored; exactly the
current batch is new; only the batch before it can be requested (and only in `Unbonding`) or
failed (and then it is recorded as the failed one). -/
structure BatchesInv (s : Storage) : Prop where
  stored : ∀ id, (∃ b, s.unbondBatches.load id = some b) ↔ id ≤ s.unbondBatchId
  new_iff : ∀ id b, s.unbondBatches.load id = some b →
    (b.status = .new ↔ id = s.unbondBatchId)
  requested : ∀ id b, s.unbondBatches.load id = some b → b.status = .unbondRequested →
    id + 1 = s.unbondBatchId ∧ s.fsmState = .unbonding
  failed : ∀ id b, s.unbondBatches.load id = some b → b.status = .unbondFailed →
    s.failedBatchId = some id
  failed_succ : ∀ id, s.failedBatchId = some id → id + 1 = s.unbondBatchId ∧
    (s.fsmState ≠ .unbonding →
      ∃ b, s.unbondBatches.load id = some b ∧ b.status = .unbondFailed)
  unbonding : s.fsmState = .unbonding → ∃ id b, id + 1 = s.unbondBatchId ∧
    s.unbondBatches.load id = some b ∧ b.status = .unbondRequested
  wellSummed : ∀ id b, s.unbondBatches.load id = some b → b.WellSummed

namespace BatchesInv

variable {s s' : Storage}

/-- The invariant holds after instantiation. -/
theorem instantiate (config : Config) (owner : String) (now : ℕ) :
    BatchesInv (Core.instantiate config owner now) := by
  have hload : ∀ id, (Core.instantiate config owner now).unbondBatches.load id =
      if id = 0 then some (newUnbond now) else none := by
    intro id
    rw [Core.instantiate, StorageMap.load_save, StorageMap.load_empty]
  have hzero : (Core.instantiate config owner now).unbondBatchId = 0 := rfl
  have hidle : (Core.instantiate config owner now).fsmState = .idle := rfl
  have hnone : (Core.instantiate config owner now).failedBatchId = none := rfl
  refine ⟨?_, ?_, ?_, ?_, by simp [hnone], by simp [hidle], ?_⟩
  · intro id
    rw [hload, hzero]
    split_ifs with h
    · simp [h]
    · simp
      omega
  · intro id b hb
    rw [hload] at hb
    split_ifs at hb with h
    rw [← Option.some.inj hb]
    simp [h, hzero, newUnbond]
  · intro id b hb hstatus
    rw [hload] at hb
    split_ifs at hb with h
    rw [← Option.some.inj hb] at hstatus
    cases hstatus
  · intro id b hb hstatus
    rw [hload] at hb
    split_ifs at hb with h
    rw [← Option.some.inj hb] at hstatus
    cases hstatus
  · intro id b hb
    rw [hload] at hb
    split_ifs at hb with h
    rw [← Option.some.inj hb]
    exact wellSummed_newUnbond now

/-- The current batch is stored and new. -/
theorem current (h : BatchesInv s) :
    ∃ b, s.unbondBatches.load s.unbondBatchId = some b ∧ b.status = .new := by
  obtain ⟨b, hb⟩ := (h.stored s.unbondBatchId).2 le_rfl
  exact ⟨b, hb, (h.new_iff _ b hb).2 rfl⟩

/-- The invariant only depends on the batches, the two ids and the state machine. -/
theorem of_same (h : BatchesInv s) (hbatches : s'.unbondBatches = s.unbondBatches)
    (hid : s'.unbondBatchId = s.unbondBatchId) (hfailed : s'.failedBatchId = s.failedBatchId)
    (hstate : s'.fsmState = s.fsmState) : BatchesInv s' := by
  refine ⟨?_, ?_, ?_, ?_, ?_, ?_, ?_⟩
  · rw [hbatches, hid]; exact h.stored
  · rw [hbatches, hid]; exact h.new_iff
  · rw [hbatches, hid, hstate]; exact h.requested
  · rw [hbatches, hfailed]; exact h.failed
  · rw [hbatches, hid, hfailed, hstate]; exact h.failed_succ
  · rw [hbatches, hid, hstate]; exact h.unbonding
  · rw [hbatches]; exact h.wellSummed

/-! ### The operations -/

/-- **A request** that is added to the current batch keeps the invariant. -/
theorem push (h : BatchesInv s) {batch : UnbondBatch} {item : UnbondItem}
    (hbatch : s.unbondBatches.load s.unbondBatchId = some batch) :
    BatchesInv (s.saveBatch s.unbondBatchId (batch.push item)) := by
  have hload : ∀ id b, (s.saveBatch s.unbondBatchId (batch.push item)).unbondBatches.load id =
      some b → ∃ b₀, s.unbondBatches.load id = some b₀ ∧ b.status = b₀.status ∧
        (b₀.WellSummed → b.WellSummed) := by
    intro id b hb
    rw [Storage.saveBatch, StorageMap.load_save] at hb
    split_ifs at hb with hid
    · rw [← Option.some.inj hb, hid]
      exact ⟨batch, hbatch, rfl, fun hsum => hsum.push item⟩
    · exact ⟨b, hb, rfl, fun hsum => hsum⟩
  refine ⟨?_, ?_, ?_, ?_, ?_, ?_, ?_⟩
  · intro id
    rw [Storage.saveBatch, StorageMap.load_save]
    split_ifs with hid
    · simp [hid]
    · exact h.stored id
  · intro id b hb
    obtain ⟨b₀, hb₀, hstatus, -⟩ := hload id b hb
    rw [hstatus]
    exact h.new_iff id b₀ hb₀
  · intro id b hb hrequested
    obtain ⟨b₀, hb₀, hstatus, -⟩ := hload id b hb
    exact h.requested id b₀ hb₀ (hstatus ▸ hrequested)
  · intro id b hb hfailed
    obtain ⟨b₀, hb₀, hstatus, -⟩ := hload id b hb
    exact h.failed id b₀ hb₀ (hstatus ▸ hfailed)
  · intro id hid
    obtain ⟨hsucc, hstored⟩ := h.failed_succ id hid
    refine ⟨hsucc, fun hstate => ?_⟩
    obtain ⟨b, hb, hfailed⟩ := hstored hstate
    refine ⟨b, ?_, hfailed⟩
    rw [Storage.saveBatch, StorageMap.load_save, if_neg (by omega), hb]
  · intro hstate
    obtain ⟨id, b, hsucc, hb, hrequested⟩ := h.unbonding hstate
    refine ⟨id, b, hsucc, ?_, hrequested⟩
    rw [Storage.saveBatch, StorageMap.load_save, if_neg (by omega), hb]
  · intro id b hb
    obtain ⟨b₀, hb₀, -, hsum⟩ := hload id b hb
    exact hsum (h.wellSummed id b₀ hb₀)

end BatchesInv

/-- What a payout does to one slot of the batch store: nothing, or a batch that is unbonding or
leaving gets a leaving status. -/
inductive Moved : Option UnbondBatch → Option UnbondBatch → Prop
  | same (b : Option UnbondBatch) : Moved b b
  | moved (b b' : UnbondBatch) (hsame : b.SameRequests b')
      (hstatus : b.status = .unbonding ∨ b.status.isLeaving = true)
      (hleaving : b'.status.isLeaving = true) : Moved (some b) (some b')

/-- A slot that was moved holds a batch exactly when it did before. -/
theorem Moved.exists_iff {x y : Option UnbondBatch} (h : Moved x y) :
    (∃ b, y = some b) ↔ ∃ b, x = some b := by
  cases h <;> simp

/-- A batch that is not leaving was not moved. -/
theorem Moved.of_not_leaving {x : Option UnbondBatch} {b : UnbondBatch} (h : Moved x (some b))
    (hb : b.status.isLeaving = false) : x = some b := by
  cases h with
  | same => rfl
  | moved _ _ _ _ hleaving => simp [hb] at hleaving

/-- A batch that is neither unbonding nor leaving is not moved. -/
theorem Moved.eq_of_status {y : Option UnbondBatch} {b : UnbondBatch} (h : Moved (some b) y)
    (hunbonding : b.status ≠ .unbonding) (hleaving : b.status.isLeaving = false) :
    y = some b := by
  cases h with
  | same => rfl
  | moved _ _ _ hstatus =>
    rcases hstatus with hstatus | hstatus
    · exact absurd hstatus hunbonding
    · simp [hleaving] at hstatus

namespace BatchesInv

variable {s s' : Storage}

/-- **A payout** keeps the invariant, and so does a move of the state machine that stays away
from `Unbonding`. -/
theorem moved (h : BatchesInv s)
    (hmoved : ∀ id, Moved (s.unbondBatches.load id) (s'.unbondBatches.load id))
    (hid : s'.unbondBatchId = s.unbondBatchId) (hfailed : s'.failedBatchId = s.failedBatchId)
    (hstate : s.fsmState ≠ .unbonding) (hstate' : s'.fsmState ≠ .unbonding) : BatchesInv s' := by
  have hback : ∀ id b, s'.unbondBatches.load id = some b → b.status.isLeaving = false →
      s.unbondBatches.load id = some b := by
    intro id b hb hleaving
    have hm := hmoved id
    rw [hb] at hm
    exact hm.of_not_leaving hleaving
  refine ⟨?_, ?_, ?_, ?_, ?_, fun hu => absurd hu hstate', ?_⟩
  · intro id
    rw [(hmoved id).exists_iff, hid]
    exact h.stored id
  · intro id b hb
    have hm := hmoved id
    rw [hb] at hm
    rw [hid]
    generalize hx : s.unbondBatches.load id = x at hm
    cases hm with
    | same => exact h.new_iff id b hx
    | moved b₀ _ hsame hstatus hleaving =>
      have hnew : b.status ≠ .new := by
        intro heq
        rw [heq] at hleaving
        cases hleaving
      have hold : b₀.status ≠ .new := by
        intro heq
        rw [heq] at hstatus
        rcases hstatus with hstatus | hstatus <;> cases hstatus
      rw [iff_false_left hnew, ← h.new_iff id b₀ hx]
      exact hold
  · intro id b hb hrequested
    have := h.requested id b (hback id b hb (by rw [hrequested]; rfl)) hrequested
    exact absurd this.2 hstate
  · intro id b hb hstatus
    rw [hfailed]
    exact h.failed id b (hback id b hb (by rw [hstatus]; rfl)) hstatus
  · intro id hf
    rw [hfailed] at hf
    obtain ⟨hsucc, hstored⟩ := h.failed_succ id hf
    obtain ⟨b, hb, hstatus⟩ := hstored hstate
    refine ⟨hid ▸ hsucc, fun _ => ⟨b, ?_, hstatus⟩⟩
    have hm := hmoved id
    rw [hb] at hm
    exact hm.eq_of_status (by simp [hstatus]) (by rw [hstatus]; rfl)
  · intro id b hb
    have hm := hmoved id
    rw [hb] at hm
    generalize hx : s.unbondBatches.load id = x at hm
    cases hm with
    | same => exact h.wellSummed id b hx
    | moved b₀ _ hsame => exact hsame.wellSummed (h.wellSummed id b₀ hx)

/-- The batch that is asked for next is the failed one before the current one, or the current
one. -/
theorem nextBatch (h : BatchesInv s) (hstate : s.fsmState ≠ .unbonding) {batch : UnbondBatch}
    (hbatch : s.unbondBatches.load s.nextBatchId = some batch) :
    (s.failedBatchId = none ∧ s.nextBatchId = s.unbondBatchId ∧ batch.status = .new) ∨
      (s.failedBatchId = some s.nextBatchId ∧ s.nextBatchId + 1 = s.unbondBatchId ∧
        batch.status = .unbondFailed) := by
  unfold Storage.nextBatchId at hbatch ⊢
  cases hf : s.failedBatchId with
  | none =>
    rw [hf, Option.getD_none] at hbatch
    exact .inl ⟨rfl, rfl, (h.new_iff _ batch hbatch).2 rfl⟩
  | some id =>
    rw [hf, Option.getD_some] at hbatch
    obtain ⟨hsucc, hstored⟩ := h.failed_succ id hf
    obtain ⟨b, hb, hstatus⟩ := hstored hstate
    rw [hb] at hbatch
    obtain rfl := Option.some.inj hbatch
    exact .inr ⟨rfl, hsucc, hstatus⟩

/-- What is stored after a batch was requested. -/
theorem load_requestBatch (s : Storage) (batch : UnbondBatch) (balance now id : ℕ) :
    (s.requestBatch batch balance now).unbondBatches.load id =
      if id = s.nextBatchId + 1 then some (newUnbond now)
      else if id = s.nextBatchId then some { batch with status := .unbondRequested }
      else s.unbondBatches.load id := by
  simp only [Storage.requestBatch, StorageMap.load_save]

/-- A batch that is stored after a request: the new one, the requested one, or one that the request
leaves alone, which lies before it and has been undelegated before. -/
inductive RequestedCase (s : Storage) (batch : UnbondBatch) (now id : ℕ) (b : UnbondBatch) : Prop
  | new (hid : id = s.nextBatchId + 1) (hb : b = newUnbond now)
  | requested (hid : id = s.nextBatchId) (hb : b = { batch with status := .unbondRequested })
  | other (hb : s.unbondBatches.load id = some b) (hlt : id < s.nextBatchId)
      (hnew : b.status ≠ .new) (hrequested : b.status ≠ .unbondRequested)
      (hfailed : b.status ≠ .unbondFailed)

/-- A batch that a request leaves alone lies before it, and has been undelegated before. -/
theorem other_of_request (h : BatchesInv s) (hstate : s.fsmState ≠ .unbonding)
    {batch b : UnbondBatch} {id : ℕ} (hbatch : s.unbondBatches.load s.nextBatchId = some batch)
    (hb : s.unbondBatches.load id = some b) (h₁ : id ≠ s.nextBatchId)
    (h₂ : id ≠ s.nextBatchId + 1) :
    id < s.nextBatchId ∧ b.status ≠ .new ∧ b.status ≠ .unbondRequested ∧
      b.status ≠ .unbondFailed := by
  have hnext := h.nextBatch hstate hbatch
  have hle := (h.stored id).1 ⟨b, hb⟩
  refine ⟨?_, ?_, ?_, ?_⟩
  · rcases hnext with ⟨-, heq, -⟩ | ⟨-, heq, -⟩ <;> omega
  · intro hnew
    have hcurrent := (h.new_iff id b hb).1 hnew
    rcases hnext with ⟨-, heq, -⟩ | ⟨-, heq, -⟩ <;> omega
  · intro hrequested
    exact absurd (h.requested id b hb hrequested).2 hstate
  · intro hfailed
    have hsome := h.failed id b hb hfailed
    rcases hnext with ⟨hnone, -, -⟩ | ⟨hsome', -, -⟩
    · rw [hnone] at hsome
      cases hsome
    · rw [hsome'] at hsome
      exact h₁ (Option.some.inj hsome).symm

/-- What is stored after a request is one of the three. -/
theorem requested_cases (h : BatchesInv s) (hstate : s.fsmState ≠ .unbonding)
    {batch b : UnbondBatch} {id balance now : ℕ}
    (hbatch : s.unbondBatches.load s.nextBatchId = some batch)
    (hb : (s.requestBatch batch balance now).unbondBatches.load id = some b) :
    RequestedCase s batch now id b := by
  rw [load_requestBatch] at hb
  split_ifs at hb with h₁ h₂
  · exact .new h₁ (Option.some.inj hb).symm
  · exact .requested h₂ (Option.some.inj hb).symm
  · obtain ⟨hlt, hnew, hrequested, hfailed⟩ := h.other_of_request hstate hbatch hb h₂ h₁
    exact .other hb hlt hnew hrequested hfailed

/-- **The request of the next batch** keeps the invariant, although it may put a new batch over
the current one. -/
theorem request (h : BatchesInv s) (hstate : s.fsmState ≠ .unbonding) {batch : UnbondBatch}
    {balance now : ℕ} (hbatch : s.unbondBatches.load s.nextBatchId = some batch) :
    BatchesInv { s.requestBatch batch balance now with fsmState := .unbonding } := by
  have hload := load_requestBatch s batch balance now
  have hle : s.nextBatchId ≤ s.unbondBatchId := (h.stored _).1 ⟨batch, hbatch⟩
  have hnext := h.nextBatch hstate hbatch
  have hcases : ∀ id b, (s.requestBatch batch balance now).unbondBatches.load id = some b →
      RequestedCase s batch now id b := fun id b hb => h.requested_cases hstate hbatch hb
  refine ⟨?_, ?_, ?_, ?_, ?_, ?_, ?_⟩
  · intro id
    show (∃ b, (s.requestBatch batch balance now).unbondBatches.load id = some b) ↔
      id ≤ s.nextBatchId + 1
    rw [hload]
    split_ifs with h₁ h₂
    · simp [h₁]
    · simp [h₂]
    · rw [h.stored id]
      rcases hnext with ⟨-, heq, -⟩ | ⟨-, heq, -⟩ <;> omega
  · intro id b hb
    show b.status = .new ↔ id = s.nextBatchId + 1
    cases hcases id b hb with
    | new hid hb =>
      rw [hb]
      simp [newUnbond, hid]
    | requested hid hb =>
      rw [hb]
      simp [hid]
    | other _ hlt hnew _ _ =>
      rw [iff_false_left hnew]
      omega
  · intro id b hb hrequested
    cases hcases id b hb with
    | new _ hb =>
      rw [hb] at hrequested
      cases hrequested
    | requested hid _ => exact ⟨by rw [hid]; rfl, rfl⟩
    | other _ _ _ hnot _ => exact absurd hrequested hnot
  · intro id b hb hfailed
    cases hcases id b hb with
    | new _ hb =>
      rw [hb] at hfailed
      cases hfailed
    | requested _ hb =>
      rw [hb] at hfailed
      cases hfailed
    | other _ _ _ _ hnot => exact absurd hfailed hnot
  · intro id hf
    change s.failedBatchId = some id at hf
    refine ⟨?_, fun hne => absurd rfl hne⟩
    show id + 1 = s.nextBatchId + 1
    rw [Storage.nextBatchId, hf, Option.getD_some]
  · intro _
    refine ⟨s.nextBatchId, { batch with status := .unbondRequested }, rfl, ?_, rfl⟩
    show (s.requestBatch batch balance now).unbondBatches.load s.nextBatchId = _
    rw [hload, if_neg (by omega), if_pos rfl]
  · intro id b hb
    cases hcases id b hb with
    | new _ hb =>
      rw [hb]
      exact wellSummed_newUnbond now
    | requested _ hb =>
      rw [hb]
      have hsum := h.wellSummed _ batch hbatch
      exact ⟨hsum.totalAmount, hsum.expectedAmount⟩
    | other hb _ _ _ _ => exact h.wellSummed id b hb

/-- Only the batch before the current one can be requested or failed. -/
theorem other_of_settled (h : BatchesInv s) {batchId id : ℕ} {b : UnbondBatch}
    (hid : batchId + 1 = s.unbondBatchId) (hb : s.unbondBatches.load id = some b)
    (hne : id ≠ batchId) : b.status ≠ .unbondRequested ∧ b.status ≠ .unbondFailed := by
  refine ⟨fun hrequested => ?_, fun hfailed => ?_⟩
  · have hsucc := (h.requested id b hb hrequested).1
    omega
  · have hsucc := (h.failed_succ id (h.failed id b hb hfailed)).1
    omega

/-- What the outcome of an undelegation does to the store: the batch before the current one gets
its new status, and the failed id says whether it failed. -/
theorem settled (h : BatchesInv s) {batchId : ℕ} {unbond unbond' : UnbondBatch}
    {failed : Option ℕ} (hid : batchId + 1 = s.unbondBatchId)
    (hbatch : s.unbondBatches.load batchId = some unbond) (hsame : unbond.SameRequests unbond')
    (hstatus : failed = none ∧ unbond'.status = .unbonding ∨
      failed = some batchId ∧ unbond'.status = .unbondFailed)
    (hbatches : s'.unbondBatches = s.unbondBatches.save batchId unbond')
    (hid' : s'.unbondBatchId = s.unbondBatchId) (hfailed : s'.failedBatchId = failed)
    (hstate' : s'.fsmState = .idle) : BatchesInv s' := by
  have hload : ∀ id, s'.unbondBatches.load id =
      if id = batchId then some unbond' else s.unbondBatches.load id := by
    intro id
    rw [hbatches, StorageMap.load_save]
  have hnot_new : unbond'.status ≠ .new := by
    rcases hstatus with ⟨-, h'⟩ | ⟨-, h'⟩ <;> rw [h'] <;> simp
  have hnot_requested : unbond'.status ≠ .unbondRequested := by
    rcases hstatus with ⟨-, h'⟩ | ⟨-, h'⟩ <;> rw [h'] <;> simp
  refine ⟨?_, ?_, ?_, ?_, ?_, by simp [hstate'], ?_⟩
  · intro id
    rw [hload, hid']
    split_ifs with heq
    · simp
      omega
    · exact h.stored id
  · intro id b hb
    rw [hload] at hb
    rw [hid']
    split_ifs at hb with heq
    · rw [← Option.some.inj hb, iff_false_left hnot_new]
      omega
    · exact h.new_iff id b hb
  · intro id b hb hrequested
    rw [hload] at hb
    split_ifs at hb with heq
    · rw [← Option.some.inj hb] at hrequested
      exact absurd hrequested hnot_requested
    · exact absurd hrequested (h.other_of_settled hid hb heq).1
  · intro id b hb hf
    rw [hload] at hb
    rw [hfailed]
    split_ifs at hb with heq
    · rw [← Option.some.inj hb] at hf
      rcases hstatus with ⟨-, h'⟩ | ⟨h', -⟩
      · rw [h'] at hf
        cases hf
      · rw [h', heq]
    · exact absurd hf (h.other_of_settled hid hb heq).2
  · intro id hf
    rw [hfailed] at hf
    rcases hstatus with ⟨h', -⟩ | ⟨h', hs⟩
    · rw [h'] at hf
      cases hf
    · rw [h'] at hf
      obtain rfl := Option.some.inj hf
      exact ⟨by rw [hid']; exact hid, fun _ => ⟨unbond', by rw [hload, if_pos rfl], hs⟩⟩
  · intro id b hb
    rw [hload] at hb
    split_ifs at hb with heq
    · rw [← Option.some.inj hb]
      exact hsame.wellSummed (h.wellSummed _ unbond hbatch)
    · exact h.wellSummed id b hb

end BatchesInv

/-! ## The ticks -/

/-- The response in the slot is about batches that it may be about: a payout lists batches that
are leaving, and in `Unbonding` an undelegation is one of the batch before the current one. -/
structure ResponseFits (s : Storage) : Prop where
  listed : ∀ r, s.lastPuppeteerResponse = some r → ∀ id ∈ r.transaction.batchIds,
    ∃ b, s.unbondBatches.load id = some b ∧ b.status.isLeaving = true
  undelegated : s.fsmState = .unbonding → ∀ r account items denom batchId,
    s.lastPuppeteerResponse = some r →
    r.transaction = .undelegate account items denom batchId → batchId + 1 = s.unbondBatchId

/-- The paid batches of a response are batches of its transaction. -/
theorem mem_batchIds_of_paid {r : ResponseHookMsg} {id : ℕ} (h : id ∈ r.paidBatches) :
    id ∈ r.transaction.batchIds := by
  cases r with
  | success msg => exact h
  | error msg => cases h

namespace BatchesInv

variable {s s' : Storage} {q : Querier} {env : Env} {info : MessageInfo} {msgs : List CoreMsg}

/-- The cascade keeps the invariant. -/
theorem cascade (h : BatchesInv s) {config : Config} (hstate : s.fsmState ≠ .unbonding)
    (hcase : CascadeCase s q env info config s' msgs) : BatchesInv s' := by
  cases hcase with
  | transfer => exact h.moved (fun id => .same _) rfl rfl hstate (by simp)
  | stake => exact h.moved (fun id => .same _) rfl rfl hstate (by simp)
  | unbond batch balances undelegations _ hbatch => exact h.request hstate hbatch
  | idle => exact h.moved (fun id => .same _) rfl rfl hstate (by simp)

/-- What an idle tick does to one slot of the store before it claims. -/
theorem load_maturedBatches (s : Storage) (f : UnbondBatch → UnbondBatch) (id : ℕ) {now time : ℕ} :
    (s.unbondBatches.saveAll f (s.maturedBatches now time)).load id = s.unbondBatches.load id ∨
      ∃ b, s.unbondBatches.load id = some b ∧ b.status = .unbonding ∧
        (s.unbondBatches.saveAll f (s.maturedBatches now time)).load id = some (f b) := by
  have hmatured : ∀ e ∈ s.maturedBatches now time, s.unbondBatches.load e.1 = some e.2 :=
    fun e he => (mem_maturedBatches.1 he).1
  rw [StorageMap.load_saveAll _ _ hmatured]
  split_ifs with hmem
  · obtain ⟨⟨id', b⟩, he, rfl⟩ := List.mem_map.1 hmem
    obtain ⟨hload, hstatus, -, -⟩ := mem_maturedBatches.1 he
    exact .inr ⟨b, hload, hstatus, by rw [hload]; rfl⟩
  · exact .inl rfl

/-- An idle tick that has prepared its payout keeps the invariant. -/
theorem idlePrepared (h : BatchesInv s) {transfer : Option TransferReadyBatchesMsg}
    {validators : List String} (hstate : s.fsmState = .idle)
    (hprepared : IdlePrepared s q env s' transfer validators) : BatchesInv s' := by
  cases hprepared with
  | intro rate balances f emergency members delegations _ _ _ _ _ hf _ =>
    refine h.moved (fun id => ?_) rfl rfl (by simp [hstate]) (by simp)
    rcases load_maturedBatches s f id with hsame | ⟨b, hb, hstatus, hb'⟩
    · rw [hsame]
      exact .same _
    · rw [hb', hb]
      refine .moved b (f b) (hf b).1 (.inl hstatus) (isLeaving_of_isPaying ?_)
      rw [(hf b).2, isPaying_withdrawingStatus]

/-- The store that a claiming tick has marked keeps the invariant. -/
theorem paid (h : BatchesInv s) (hfits : ResponseFits s) {r : ResponseHookMsg}
    {batches : StorageMap ℕ UnbondBatch} {emergency : Bool} (hstate : s.fsmState = .claiming)
    (hresponse : s.lastPuppeteerResponse = some r)
    (hload : ∀ id, batches.load id =
      if id ∈ r.paidBatches then (s.unbondBatches.load id).map (UnbondBatch.withdrawn emergency)
      else s.unbondBatches.load id) :
    BatchesInv { s with lastPuppeteerResponse := none, unbondBatches := batches } := by
  refine h.moved (fun id => ?_) rfl rfl (by simp [hstate]) (by simp [hstate])
  show Moved (s.unbondBatches.load id) (batches.load id)
  rw [hload]
  split_ifs with hmem
  · obtain ⟨b, hb, hleaving⟩ := hfits.listed r hresponse id (mem_batchIds_of_paid hmem)
    rw [hb]
    exact .moved b _ ⟨rfl, rfl, rfl, rfl⟩ (.inr hleaving) (isLeaving_withdrawnStatus emergency)
  · exact .same _

/-- **A tick keeps the invariant.** -/
theorem tick (h : BatchesInv s) (hfits : ResponseFits s)
    (hcase : TickCase s q env info s' msgs) : BatchesInv s' := by
  cases hcase with
  | idleInterval => exact h.of_same rfl rfl rfl rfl
  | idleClaim t transfer validators hstate hprepared =>
    exact (h.idlePrepared hstate hprepared).of_same rfl rfl rfl rfl
  | idleCascade t u transfer validators _ hstate hprepared _ hcascade =>
    have hclaiming : t.fsmState ≠ .unbonding := by
      cases hprepared
      simp
    exact ((h.idlePrepared hstate hprepared).cascade hclaiming hcascade).of_same rfl rfl rfl rfl
  | claiming r batches emergency _ _ hstate hresponse hload hcascade =>
    exact (h.paid hfits hstate hresponse hload).cascade (by simp [hstate]) hcascade
  | transfering r _ _ hstate hresponse hcascade =>
    have hcleared : BatchesInv { s with lastPuppeteerResponse := none } :=
      h.of_same rfl rfl rfl rfl
    exact hcleared.cascade (by simp [hstate]) hcascade
  | staking r _ _ hstate hresponse _ hcascade =>
    have hcleared : BatchesInv { s with lastPuppeteerResponse := none } :=
      h.of_same rfl rfl rfl rfl
    exact hcleared.cascade (by simp [hstate]) hcascade
  | unbondingSuccess requestId account items denom batchId unbond hstate hresponse hbatch =>
    have hid := hfits.undelegated hstate _ account items denom batchId hresponse rfl
    have hsame : unbond.SameRequests { unbond with
        status := .unbonding
        expectedRelease := env.time.seconds + s.config.unbondingPeriod } := ⟨rfl, rfl, rfl, rfl⟩
    exact h.settled hid hbatch hsame (.inl ⟨rfl, rfl⟩) rfl rfl rfl rfl
  | unbondingFailed requestId account items denom batchId details unbond hstate hresponse hbatch =>
    have hid := hfits.undelegated hstate _ account items denom batchId hresponse rfl
    have hsame : unbond.SameRequests { unbond with status := .unbondFailed } :=
      ⟨rfl, rfl, rfl, rfl⟩
    exact h.settled hid hbatch hsame (.inr ⟨rfl, rfl⟩) rfl rfl rfl rfl

end BatchesInv

/-! ## What a tick does to one batch -/

/-- What a tick does to the batch `b` stored under `id`. -/
inductive SlotCase (s : Storage) (env : Env) (id : ℕ) (b : UnbondBatch) : UnbondBatch → Prop
  | same : SlotCase s env id b b
  | requested (hstate : s.fsmState = .staking) (hid : id = s.nextBatchId)
      (hready : b.isReady s.config env.time = .ok true) :
      SlotCase s env id b { b with status := .unbondRequested }
  | reset (failedId : ℕ) (failed : UnbondBatch) (hstate : s.fsmState = .staking)
      (hfailed : s.failedBatchId = some failedId) (hid : id = failedId + 1)
      (hload : s.unbondBatches.load failedId = some failed)
      (hready : failed.isReady s.config env.time = .ok true) :
      SlotCase s env id b (newUnbond env.time.seconds)
  | undelegated (expectedRelease : ℕ) (hstate : s.fsmState = .unbonding)
      (hstatus : b.status = .unbondRequested) :
      SlotCase s env id b { b with status := .unbonding, expectedRelease := expectedRelease }
  | undelegateFailed (hstate : s.fsmState = .unbonding) (hstatus : b.status = .unbondRequested) :
      SlotCase s env id b { b with status := .unbondFailed }
  | withdrawing (b' : UnbondBatch) (emergency : Bool) (hstate : s.fsmState = .idle)
      (hstatus : b.status = .unbonding) (hsame : b.SameRequests b')
      (hstatus' : b'.status = withdrawingStatus emergency) : SlotCase s env id b b'
  | withdrawn (r : ResponseHookMsg) (emergency : Bool) (hstate : s.fsmState = .claiming)
      (hresponse : s.lastPuppeteerResponse = some r) (hpaid : id ∈ r.paidBatches) :
      SlotCase s env id b (b.withdrawn emergency)

section Slots

variable {s s' : Storage} {q : Querier} {env : Env} {info : MessageInfo} {msgs : List CoreMsg}

/-- The cascade without a request leaves the store alone. -/
theorem cascade_batches {config : Config} (hstate : s.fsmState ≠ .staking)
    (hcase : CascadeCase s q env info config s' msgs) : s'.unbondBatches = s.unbondBatches := by
  cases hcase with
  | transfer => rfl
  | stake => rfl
  | unbond batch balances undelegations hstaking => exact absurd hstaking hstate
  | idle => rfl

/-- What the cascade does to one batch when it starts in `Staking`. -/
theorem cascade_slot (h : BatchesInv s) (hstate : s.fsmState = .staking) {t : Storage} {id : ℕ}
    {b : UnbondBatch} (hbatches : t.unbondBatches = s.unbondBatches)
    (hcurrent : t.unbondBatchId = s.unbondBatchId) (hfailed : t.failedBatchId = s.failedBatchId)
    (hcase : CascadeCase t q env info s.config s' msgs)
    (hb : s.unbondBatches.load id = some b) :
    ∃ b', s'.unbondBatches.load id = some b' ∧ SlotCase s env id b b' := by
  cases hcase with
  | transfer => exact ⟨b, by rw [← hb, ← hbatches], .same⟩
  | stake => exact ⟨b, by rw [← hb, ← hbatches], .same⟩
  | idle => exact ⟨b, by rw [← hb, ← hbatches], .same⟩
  | unbond batch balances undelegations _ hbatch hready =>
    have hnext : t.nextBatchId = s.nextBatchId := by
      rw [Storage.nextBatchId, hfailed, hcurrent]
      rfl
    rw [hbatches, hnext] at hbatch
    have hload := BatchesInv.load_requestBatch t batch
      (icaBalance balances s.config.remoteDenom) env.time.seconds id
    rw [hnext, hbatches, hb] at hload
    simp only [hload]
    split_ifs with h₁ h₂
    · -- the slot after the requested batch holds a batch only when a failed batch is retried
      refine ⟨_, rfl, ?_⟩
      rcases h.nextBatch (by simp [hstate]) hbatch with ⟨-, heq, -⟩ | ⟨hsome, -, -⟩
      · have := (h.stored id).1 ⟨b, hb⟩
        omega
      · exact .reset s.nextBatchId batch hstate hsome h₁ hbatch hready
    · rw [h₂, hbatch] at hb
      obtain rfl := Option.some.inj hb
      exact ⟨_, rfl, .requested hstate h₂ hready⟩
    · exact ⟨b, rfl, .same⟩

/-- What a prepared idle tick does to one batch. -/
theorem idlePrepared_slot {transfer : Option TransferReadyBatchesMsg} {validators : List String}
    (hstate : s.fsmState = .idle) (hprepared : IdlePrepared s q env s' transfer validators)
    {id : ℕ} {b : UnbondBatch} (hb : s.unbondBatches.load id = some b) :
    ∃ b', s'.unbondBatches.load id = some b' ∧ SlotCase s env id b b' := by
  cases hprepared with
  | intro rate balances f emergency members delegations _ _ _ _ _ hf _ =>
    rcases BatchesInv.load_maturedBatches s f id with
      hsame | ⟨b₀, hb₀, hstatus, hb'⟩
    · exact ⟨b, hsame.trans hb, .same⟩
    · rw [hb₀] at hb
      obtain rfl := Option.some.inj hb
      exact ⟨f b₀, hb', .withdrawing (f b₀) emergency hstate hstatus (hf b₀).1 (hf b₀).2⟩

/-- In `Unbonding`, the batch before the current one is requested. -/
theorem requested_of_unbonding (h : BatchesInv s) (hstate : s.fsmState = .unbonding) {id : ℕ}
    {b : UnbondBatch} (hid : id + 1 = s.unbondBatchId)
    (hb : s.unbondBatches.load id = some b) : b.status = .unbondRequested := by
  obtain ⟨id', b', hid', hb', hstatus⟩ := h.unbonding hstate
  obtain rfl : id' = id := by omega
  rw [hb'] at hb
  rw [← Option.some.inj hb]
  exact hstatus

/-- **What a tick does to one batch.** No batch is removed, and each goes through one of the cases
of `SlotCase`. -/
theorem tick_slot (h : BatchesInv s) (hfits : ResponseFits s)
    (hcase : TickCase s q env info s' msgs) {id : ℕ} {b : UnbondBatch}
    (hb : s.unbondBatches.load id = some b) :
    ∃ b', s'.unbondBatches.load id = some b' ∧ SlotCase s env id b b' := by
  cases hcase with
  | idleInterval => exact ⟨b, hb, .same⟩
  | idleClaim t transfer validators hstate hprepared =>
    exact idlePrepared_slot hstate hprepared hb
  | idleCascade t u transfer validators _ hstate hprepared _ hcascade =>
    have hclaiming : t.fsmState ≠ .staking := by
      cases hprepared
      simp
    obtain ⟨b', hb', hslot⟩ := idlePrepared_slot hstate hprepared hb
    exact ⟨b', by rw [← hb', ← cascade_batches hclaiming hcascade], hslot⟩
  | claiming r batches emergency _ _ hstate hresponse hload hcascade =>
    have hnot : ({ s with lastPuppeteerResponse := none, unbondBatches := batches } :
        Storage).fsmState ≠ .staking := by simp [hstate]
    have hbatches := cascade_batches hnot hcascade
    simp only at hbatches
    rw [hbatches, hload, hb]
    split_ifs with hmem
    · exact ⟨_, rfl, .withdrawn r emergency hstate hresponse hmem⟩
    · exact ⟨b, rfl, .same⟩
  | transfering r _ _ hstate hresponse hcascade =>
    have hnot : ({ s with lastPuppeteerResponse := none } : Storage).fsmState ≠ .staking := by
      simp [hstate]
    have hbatches := cascade_batches hnot hcascade
    exact ⟨b, by rw [hbatches, ← hb], .same⟩
  | staking r _ _ hstate hresponse _ hcascade =>
    have hslot := cascade_slot (t := { s with lastPuppeteerResponse := none }) h hstate rfl rfl
      rfl hcascade hb
    exact hslot
  | unbondingSuccess requestId account items denom batchId unbond hstate hresponse hbatch =>
    have hid := hfits.undelegated hstate _ account items denom batchId hresponse rfl
    have hrequested := requested_of_unbonding h hstate hid hbatch
    simp only [StorageMap.load_save]
    split_ifs with heq
    · rw [heq, hbatch] at hb
      obtain rfl := Option.some.inj hb
      exact ⟨_, rfl, .undelegated _ hstate hrequested⟩
    · exact ⟨b, hb, .same⟩
  | unbondingFailed requestId account items denom batchId details unbond hstate hresponse hbatch =>
    have hid := hfits.undelegated hstate _ account items denom batchId hresponse rfl
    have hrequested := requested_of_unbonding h hstate hid hbatch
    simp only [StorageMap.load_save]
    split_ifs with heq
    · rw [heq, hbatch] at hb
      obtain rfl := Option.some.inj hb
      exact ⟨_, rfl, .undelegateFailed hstate hrequested⟩
    · exact ⟨b, hb, .same⟩

/-- The only batch that the cascade adds is a new one. -/
theorem cascade_fresh {config : Config} (hcase : CascadeCase s q env info config s' msgs)
    {id : ℕ} {b' : UnbondBatch} (hb' : s'.unbondBatches.load id = some b')
    (hnone : s.unbondBatches.load id = none) : b' = newUnbond env.time.seconds := by
  have hsame : s'.unbondBatches = s.unbondBatches → b' = newUnbond env.time.seconds := by
    intro hbatches
    rw [hbatches, hnone] at hb'
    cases hb'
  cases hcase with
  | transfer => exact hsame rfl
  | stake => exact hsame rfl
  | idle => exact hsame rfl
  | unbond batch balances undelegations _ hbatch =>
    change (s.requestBatch batch (icaBalance balances config.remoteDenom)
      env.time.seconds).unbondBatches.load id = some b' at hb'
    rw [BatchesInv.load_requestBatch] at hb'
    split_ifs at hb' with h₁ h₂
    · exact (Option.some.inj hb').symm
    · rw [h₂, hbatch] at hnone
      cases hnone
    · rw [hnone] at hb'
      cases hb'

/-- **The only batch that a tick adds is a new one.** -/
theorem tick_fresh (hcase : TickCase s q env info s' msgs) {id : ℕ} {b' : UnbondBatch}
    (hb' : s'.unbondBatches.load id = some b') (hnone : s.unbondBatches.load id = none) :
    b' = newUnbond env.time.seconds := by
  have hprepared_none : ∀ {t : Storage} {transfer : Option TransferReadyBatchesMsg}
      {validators : List String}, IdlePrepared s q env t transfer validators →
        t.unbondBatches.load id = none := by
    intro t transfer validators hprepared
    cases hprepared with
    | intro rate balances f =>
      rcases BatchesInv.load_maturedBatches s f id with hsame | ⟨b₀, hb₀, -, -⟩
      · exact hsame.trans hnone
      · rw [hb₀] at hnone
        cases hnone
  cases hcase with
  | idleInterval =>
    change s.unbondBatches.load id = some b' at hb'
    rw [hnone] at hb'
    cases hb'
  | idleClaim t transfer validators hstate hprepared =>
    change t.unbondBatches.load id = some b' at hb'
    rw [hprepared_none hprepared] at hb'
    cases hb'
  | idleCascade t u transfer validators _ hstate hprepared _ hcascade =>
    exact cascade_fresh hcascade hb' (hprepared_none hprepared)
  | claiming r batches emergency _ _ hstate hresponse hload hcascade =>
    have hbatches : batches.load id = none := by
      rw [hload, hnone]
      simp
    exact cascade_fresh hcascade hb' hbatches
  | transfering r _ _ hstate hresponse hcascade => exact cascade_fresh hcascade hb' hnone
  | staking r _ _ hstate hresponse _ hcascade => exact cascade_fresh hcascade hb' hnone
  | unbondingSuccess requestId account items denom batchId unbond hstate hresponse hbatch =>
    simp only [StorageMap.load_save_eq_none _ hbatch hnone] at hb'
    cases hb'
  | unbondingFailed requestId account items denom batchId details unbond hstate hresponse hbatch =>
    simp only [StorageMap.load_save_eq_none _ hbatch hnone] at hb'
    cases hb'

/-- **Where a batch comes from** that is there after a tick: it is new, or it went through one of
the cases of `SlotCase`. -/
theorem tick_origin (h : BatchesInv s) (hfits : ResponseFits s)
    (hcase : TickCase s q env info s' msgs) {id : ℕ} {b' : UnbondBatch}
    (hb' : s'.unbondBatches.load id = some b') :
    b' = newUnbond env.time.seconds ∨
      ∃ b, s.unbondBatches.load id = some b ∧ SlotCase s env id b b' := by
  cases hb : s.unbondBatches.load id with
  | none => exact .inl (tick_fresh hcase hb' hb)
  | some b =>
    obtain ⟨b'', hb'', hslot⟩ := tick_slot h hfits hcase hb
    rw [hb'] at hb''
    obtain rfl := Option.some.inj hb''
    exact .inr ⟨b, rfl, hslot⟩

/-- A batch that is leaving is only moved by the response that says it was paid. -/
theorem slot_of_leaving (h : BatchesInv s) {id : ℕ} {b b' : UnbondBatch}
    (hb : s.unbondBatches.load id = some b) (hslot : SlotCase s env id b b')
    (hleaving : b.status.isLeaving = true) :
    b' = b ∨ ∃ r emergency, s.lastPuppeteerResponse = some r ∧ id ∈ r.paidBatches ∧
      b' = b.withdrawn emergency := by
  cases hslot with
  | same => exact .inl rfl
  | requested hstate hid =>
    rw [hid] at hb
    rcases h.nextBatch (by simp [hstate]) hb with ⟨-, -, hs⟩ | ⟨-, -, hs⟩
    · rw [hs] at hleaving
      cases hleaving
    · rw [hs] at hleaving
      cases hleaving
  | reset failedId failed hstate hfailed hid =>
    have hcurrent : id = s.unbondBatchId := by rw [hid, (h.failed_succ _ hfailed).1]
    rw [(h.new_iff id b hb).2 hcurrent] at hleaving
    cases hleaving
  | undelegated _ _ hs =>
    rw [hs] at hleaving
    cases hleaving
  | undelegateFailed _ hs =>
    rw [hs] at hleaving
    cases hleaving
  | withdrawing _ _ _ hs =>
    rw [hs] at hleaving
    cases hleaving
  | withdrawn r emergency _ hresponse hpaid => exact .inr ⟨r, emergency, hresponse, hpaid, rfl⟩

/-- **A tick keeps a batch that is leaving** leaving. -/
theorem tick_leaving (h : BatchesInv s) (hfits : ResponseFits s)
    (hcase : TickCase s q env info s' msgs) {id : ℕ} {b : UnbondBatch}
    (hb : s.unbondBatches.load id = some b) (hleaving : b.status.isLeaving = true) :
    ∃ b', s'.unbondBatches.load id = some b' ∧ b'.status.isLeaving = true := by
  obtain ⟨b', hb', hslot⟩ := tick_slot h hfits hcase hb
  refine ⟨b', hb', ?_⟩
  rcases slot_of_leaving h hb hslot hleaving with rfl | ⟨r, emergency, -, -, rfl⟩
  · exact hleaving
  · exact isLeaving_withdrawnStatus emergency

/-- **A tick leaves a batch alone that is being paid**, unless the response in the slot says that
it has been paid. -/
theorem tick_paying (h : BatchesInv s) (hfits : ResponseFits s)
    (hcase : TickCase s q env info s' msgs) {id : ℕ} {b : UnbondBatch}
    (hb : s.unbondBatches.load id = some b) (hpaying : b.status.isPaying = true)
    (hid : ∀ r, s.lastPuppeteerResponse = some r → id ∉ r.paidBatches) :
    s'.unbondBatches.load id = some b := by
  obtain ⟨b', hb', hslot⟩ := tick_slot h hfits hcase hb
  rcases slot_of_leaving h hb hslot (isLeaving_of_isPaying hpaying) with
    rfl | ⟨r, emergency, hresponse, hpaid, -⟩
  · exact hb'
  · exact absurd hpaid (hid r hresponse)

/-- The cascade leaves the response slot alone. -/
theorem cascade_response {config : Config} {r : Option ResponseHookMsg}
    (hcase : CascadeCase s q env info config s' msgs) (hs : s.lastPuppeteerResponse = r) :
    s'.lastPuppeteerResponse = r := by
  cases hcase <;> exact hs

/-- A tick empties the response slot or leaves it alone. -/
theorem tick_response (hcase : TickCase s q env info s' msgs) :
    s'.lastPuppeteerResponse = none ∨
      s'.lastPuppeteerResponse = s.lastPuppeteerResponse := by
  cases hcase with
  | idleInterval => exact .inr rfl
  | idleClaim t transfer validators hstate hprepared =>
    cases hprepared
    exact .inr rfl
  | idleCascade t u transfer validators _ hstate hprepared _ hc =>
    cases hprepared
    have hresponse := cascade_response hc rfl
    exact .inr hresponse
  | claiming _ _ _ _ _ _ _ _ hc => exact .inl (cascade_response hc rfl)
  | transfering _ _ _ _ _ hc => exact .inl (cascade_response hc rfl)
  | staking _ _ _ _ _ _ hc => exact .inl (cascade_response hc rfl)
  | unbondingSuccess => exact .inl rfl
  | unbondingFailed => exact .inr rfl

end Slots

end Core

end DropContracts
