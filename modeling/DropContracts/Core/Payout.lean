import DropContracts.Core.IdleTick

set_option relaxedAutoImplicit false
set_option autoImplicit false

/-!
# What the payout of an idle tick accounts for

Once the interval has passed, an idle tick pays out the batches that have matured: one batch bears
what is missing alone, several are paid in full or handed to the emergency address. Here is what
this does to the books, for any number of batches and any balance.

## Main definitions

* `Core.payoutRatio` — what a batch is paid over what it was promised, rounded down.
* `Core.PayoutBooks` — the batches before and after a payout, and its message.

## Main results

* `Core.slashedAmount_ok` — what a single batch is paid.
* `Core.markReadyBatches_accounts` — the books after the payout is decided.
* `Core.Marked.accounts` — the books around an idle tick.
-/

namespace DropContracts

namespace Core

open Exec

/-- What is paid of what was promised, rounded down to 18 places; one where nothing was promised. -/
def payoutRatio (unbondedAmount expectedAmount : ℕ) : Decimal :=
  if expectedAmount = 0 then Decimal.one
  else ⟨unbondedAmount * Decimal.fractional / expectedAmount⟩

/-- What a list of batches was promised. -/
def Storage.expectedTotal (s : Storage) (batchIds : List ℕ) : ℕ :=
  (batchIds.map fun id => ((s.unbondBatches.load id).map UnbondBatch.expectedAmount).getD 0).sum

/-- What is recorded as paid to a list of batches. -/
def Storage.paidTotal (s : Storage) (batchIds : List ℕ) : ℕ :=
  (batchIds.map fun id => ((s.unbondBatches.load id).bind UnbondBatch.unbondedAmount).getD 0).sum

/-- A batch before and after a payout that is no emergency: it is paid no more than it was promised,
and records what it is paid and the ratio of the two, which is at most one. -/
def PaidBatch (before after : Option UnbondBatch) : Prop :=
  ∃ batch unbondedAmount, before = some batch ∧
    after = some (batch.withdraw unbondedAmount
      (payoutRatio unbondedAmount batch.expectedAmount)) ∧
    unbondedAmount ≤ batch.expectedAmount ∧
    (payoutRatio unbondedAmount batch.expectedAmount).atomics ≤ Decimal.fractional

/-- **The books around a payout**, with `balance` on the interchain account at the second `time` of
the remote report: the listed batches are those that have matured, what is sent is on the account,
and nothing else has changed. -/
structure PayoutBooks (s s' : Storage) (now time balance : ℕ) (payout : TransferReadyBatchesMsg) :
    Prop where
  selected : ∀ id, id ∈ payout.batchIds ↔ ∃ batch, s.unbondBatches.load id = some batch ∧
    batch.status = .unbonding ∧ batch.expectedRelease ≤ now ∧ batch.expectedRelease < time
  once : payout.batchIds.Nodup
  amount_le : payout.amount ≤ balance
  emergency_iff : payout.emergency = true ↔
    2 ≤ payout.batchIds.length ∧ balance < s.expectedTotal payout.batchIds
  regular : payout.emergency = false →
    (∀ id ∈ payout.batchIds, PaidBatch (s.unbondBatches.load id) (s'.unbondBatches.load id)) ∧
    s'.paidTotal payout.batchIds = payout.amount
  emergency : payout.emergency = true → payout.amount = balance ∧
    ∀ id ∈ payout.batchIds,
      s'.unbondBatches.load id = (s.unbondBatches.load id).map UnbondBatch.withdrawEmergency
  frame : ∀ id, id ∉ payout.batchIds → s'.unbondBatches.load id = s.unbondBatches.load id

section Payout

variable {s s' : Storage} {config : Config} {pumpAddress : String} {balance now time : ℕ}
  {payout : TransferReadyBatchesMsg}

/-- A batch that is paid in full has the ratio one. -/
theorem payoutRatio_self (n : ℕ) : payoutRatio n n = Decimal.one := by
  unfold payoutRatio
  by_cases hzero : n = 0
  · rw [if_pos hzero]
  · rw [if_neg hzero, Nat.mul_div_cancel_left _ (Nat.pos_of_ne_zero hzero)]
    rfl

/-- A batch that is paid no more than it was promised has at most the ratio one. -/
theorem payoutRatio_le {n expectedAmount : ℕ} (h : n ≤ expectedAmount) :
    (payoutRatio n expectedAmount).atomics ≤ Decimal.fractional := by
  unfold payoutRatio
  split_ifs with hzero
  · exact le_rfl
  · refine Nat.div_le_of_le_mul ?_
    exact Nat.mul_le_mul_right _ h

/-- **What a single batch is paid**: what it was promised, up to the balance. -/
theorem slashedAmount_ok {expectedAmount n : ℕ} {effect : Decimal}
    (h : slashedAmount balance expectedAmount = .ok (n, effect)) :
    n = min balance expectedAmount ∧ effect = payoutRatio n expectedAmount := by
  unfold slashedAmount at h
  by_cases hshort : balance < expectedAmount
  · rw [if_pos hshort] at h
    simp only [bind_eq_ok, Decimal.fromRatio_eq_ok, pure_eq_ok, Except.ok.injEq,
      Prod.mk.injEq] at h
    obtain ⟨ratio, ⟨hne, hratio, -⟩, rfl, rfl⟩ := h
    refine ⟨by omega, ?_⟩
    rw [payoutRatio, if_neg hne, hratio]
  · rw [if_neg hshort] at h
    obtain ⟨rfl, rfl⟩ := Prod.mk.inj (Except.ok.inj h)
    exact ⟨by omega, (payoutRatio_self _).symm⟩

/-- What the listed batches were promised, read off the list or off the storage. -/
theorem expectedTotal_eq {batches : List (ℕ × UnbondBatch)}
    (hstored : ∀ e ∈ batches, s.unbondBatches.load e.1 = some e.2) :
    s.expectedTotal (batches.map Prod.fst) = (batches.map fun e => e.2.expectedAmount).sum := by
  rw [Storage.expectedTotal, List.map_map]
  refine congrArg List.sum (List.map_congr_left fun e he => ?_)
  rw [Function.comp_apply, hstored e he]
  rfl

/-- The batches that are unbonding are listed once each. -/
theorem maturedBatches_nodup (s : Storage) (now time : ℕ) :
    ((s.maturedBatches now time).map Prod.fst).Nodup := by
  have hkeys : (s.unbondBatches.entries.map Prod.fst).Nodup := by
    rw [List.Nodup, List.pairwise_map]
    exact s.unbondBatches.sorted.imp fun h => h.ne
  exact hkeys.sublist (List.Sublist.map _ (List.filter_sublist.trans List.filter_sublist))

/-- The batches of a payout, rewritten by `f` and read back. -/
theorem load_saveBatches {f : UnbondBatch → UnbondBatch} {batches : List (ℕ × UnbondBatch)}
    (hstored : ∀ e ∈ batches, s.unbondBatches.load e.1 = some e.2) (id : ℕ) :
    (s.saveBatches f batches).unbondBatches.load id =
      if id ∈ batches.map Prod.fst then (s.unbondBatches.load id).map f
      else s.unbondBatches.load id :=
  StorageMap.load_saveAll _ _ hstored id

/-- A listed batch after the payout. -/
theorem load_saveBatches_of_mem {f : UnbondBatch → UnbondBatch} {batches : List (ℕ × UnbondBatch)}
    (hstored : ∀ e ∈ batches, s.unbondBatches.load e.1 = some e.2) {e : ℕ × UnbondBatch}
    (he : e ∈ batches) : (s.saveBatches f batches).unbondBatches.load e.1 = some (f e.2) := by
  rw [load_saveBatches hstored, if_pos (List.mem_map_of_mem he), hstored e he]
  rfl

/-- A batch that is not listed after the payout. -/
theorem load_saveBatches_of_not_mem {f : UnbondBatch → UnbondBatch}
    {batches : List (ℕ × UnbondBatch)}
    (hstored : ∀ e ∈ batches, s.unbondBatches.load e.1 = some e.2) {id : ℕ}
    (hid : id ∉ batches.map Prod.fst) :
    (s.saveBatches f batches).unbondBatches.load id = s.unbondBatches.load id := by
  rw [load_saveBatches hstored, if_neg hid]

/-- The books of a single batch: it is paid up to the balance. -/
theorem single_books {id : ℕ} {batch : UnbondBatch} {recipient : String}
    (hload : s.unbondBatches.load id = some batch)
    (hselected : ∀ id', id' ∈ [id] ↔ ∃ batch, s.unbondBatches.load id' = some batch ∧
      batch.status = .unbonding ∧ batch.expectedRelease ≤ now ∧ batch.expectedRelease < time) :
    PayoutBooks s (s.saveBatch id (batch.withdraw (min balance batch.expectedAmount)
        (payoutRatio (min balance batch.expectedAmount) batch.expectedAmount)))
      now time balance ⟨[id], false, min balance batch.expectedAmount, recipient⟩ := by
  have hpaid : (s.saveBatch id (batch.withdraw (min balance batch.expectedAmount)
      (payoutRatio (min balance batch.expectedAmount)
        batch.expectedAmount))).unbondBatches.load id = some (batch.withdraw
          (min balance batch.expectedAmount)
          (payoutRatio (min balance batch.expectedAmount) batch.expectedAmount)) :=
    StorageMap.load_save_self _ _ _
  refine ⟨hselected, by simp, Nat.min_le_left _ _, by simp, fun _ => ⟨?_, ?_⟩,
    fun hemergency => (by cases hemergency), ?_⟩
  · intro id' hid'
    rw [List.mem_singleton.1 hid']
    exact ⟨batch, _, hload, hpaid, Nat.min_le_right _ _, payoutRatio_le (Nat.min_le_right _ _)⟩
  · exact congrArg (fun b => (b.bind UnbondBatch.unbondedAmount).getD 0 + 0) hpaid
  · intro id' hid'
    apply StorageMap.load_save_of_ne
    rintro rfl
    exact hid' (List.mem_singleton_self _)

section Several

variable {batches : List (ℕ × UnbondBatch)} {recipient : String}
  (hstored : ∀ e ∈ batches, s.unbondBatches.load e.1 = some e.2)
  (hselected : ∀ id, id ∈ batches.map Prod.fst ↔ ∃ batch, s.unbondBatches.load id = some batch ∧
    batch.status = .unbonding ∧ batch.expectedRelease ≤ now ∧ batch.expectedRelease < time)
  (honce : (batches.map Prod.fst).Nodup)

include hstored hselected honce

/-- The books of several batches when the balance is short: the balance is handed over. -/
theorem emergency_books (hlength : 2 ≤ (batches.map Prod.fst).length)
    (hshort : balance < s.expectedTotal (batches.map Prod.fst)) :
    PayoutBooks s (s.saveBatches UnbondBatch.withdrawEmergency batches) now time balance
      ⟨batches.map Prod.fst, true, balance, recipient⟩ := by
  refine ⟨hselected, honce, le_rfl, iff_of_true rfl ⟨hlength, hshort⟩,
    fun hregular => (by cases hregular), fun _ => ⟨rfl, ?_⟩,
    fun id hid => load_saveBatches_of_not_mem hstored hid⟩
  intro id hid
  rw [load_saveBatches hstored, if_pos hid]

/-- The books of several batches that the balance covers: each is paid in full. -/
theorem full_books (hcovered : s.expectedTotal (batches.map Prod.fst) ≤ balance) :
    PayoutBooks s (s.saveBatches (fun batch => batch.withdraw batch.expectedAmount Decimal.one)
        batches) now time balance
      ⟨batches.map Prod.fst, false, s.expectedTotal (batches.map Prod.fst), recipient⟩ := by
  refine ⟨hselected, honce, hcovered, ?_, fun _ => ⟨?_, ?_⟩,
    fun hemergency => (by cases hemergency),
    fun id hid => load_saveBatches_of_not_mem hstored hid⟩
  · exact iff_of_false Bool.false_ne_true fun hlt => absurd hlt.2 (not_lt.2 hcovered)
  · intro id hid
    obtain ⟨e, he, rfl⟩ := List.mem_map.1 hid
    refine ⟨e.2, e.2.expectedAmount, hstored e he, ?_, le_rfl, payoutRatio_le le_rfl⟩
    rw [load_saveBatches_of_mem hstored he, payoutRatio_self]
  · show _ = s.expectedTotal (batches.map Prod.fst)
    rw [expectedTotal_eq hstored, Storage.paidTotal, List.map_map]
    apply congrArg List.sum
    apply List.map_congr_left
    intro e he
    rw [Function.comp_apply, load_saveBatches_of_mem hstored he]
    rfl

end Several

/-- **The books after the payout is decided**, for any batches that are the matured ones.

**Proof sketch.** One batch is paid up to the balance, and is no emergency (`single_books`). Several
are rewritten alike: as an emergency when the balance is short of what they were promised together
(`emergency_books`), and else each as paid in full (`full_books`). -/
theorem markReadyBatches_accounts {batches : List (ℕ × UnbondBatch)}
    (hmem : ∀ id b, (id, b) ∈ batches ↔ s.unbondBatches.load id = some b ∧
      b.status = .unbonding ∧ b.expectedRelease ≤ now ∧ b.expectedRelease < time)
    (honce : (batches.map Prod.fst).Nodup)
    (h : markReadyBatches s config pumpAddress balance batches = .ok (s', some payout)) :
    PayoutBooks s s' now time balance payout := by
  have hstored : ∀ e ∈ batches, s.unbondBatches.load e.1 = some e.2 :=
    fun e he => ((hmem e.1 e.2).1 he).1
  have hselected : ∀ id, id ∈ batches.map Prod.fst ↔ ∃ batch,
      s.unbondBatches.load id = some batch ∧ batch.status = .unbonding ∧
        batch.expectedRelease ≤ now ∧ batch.expectedRelease < time := by
    intro id
    simp only [List.mem_map, Prod.exists, exists_and_right, exists_eq_right, hmem]
  have htotal := expectedTotal_eq hstored
  cases markReadyBatches_cases h with
  | single id batch amount effect hslashed =>
    obtain ⟨rfl, rfl⟩ := slashedAmount_ok hslashed
    exact single_books (hstored _ List.mem_cons_self) hselected
  | emergency _ recipient hlength hshort =>
    rw [← htotal] at hshort
    rw [← List.length_map Prod.fst] at hlength
    exact emergency_books hstored hselected honce hlength hshort
  | full _ hlength hcovered =>
    rw [← htotal] at hcovered ⊢
    exact full_books hstored hselected honce hcovered

/-- The books are about the batches alone. -/
theorem PayoutBooks.of_batches {t t' : Storage} (h : PayoutBooks t t' now time balance payout)
    (ht : t.unbondBatches = s.unbondBatches) (ht' : t'.unbondBatches = s'.unbondBatches) :
    PayoutBooks s s' now time balance payout := by
  obtain ⟨hselected, honce, hamount, hiff, hregular, hemergency, hframe⟩ := h
  unfold Storage.expectedTotal at hiff
  unfold Storage.paidTotal at hregular
  rw [ht] at hselected hiff hregular hemergency hframe
  rw [ht'] at hregular hemergency hframe
  exact ⟨hselected, honce, hamount, hiff, hregular, hemergency, hframe⟩

/-- The books around a marked tick. -/
theorem Marked.accounts {q : Querier} {env : Env} {msgs : List CoreMsg}
    {balances : BalancesResponse} (h : Marked s s' q env msgs balances (some payout)) :
    PayoutBooks s s' env.time.seconds balances.2.2.seconds
      (icaBalance balances s.config.remoteDenom) payout := by
  obtain ⟨t, u, pumpAddress, -, ht, hu, hmark⟩ := h.decided
  refine (markReadyBatches_accounts ?_ (maturedBatches_nodup s _ _) hmark).of_batches ht hu.symm
  intro id b
  rw [ht]
  exact mem_maturedBatches

/-- A tick that decides on no payout leaves the batches alone. -/
theorem Marked.batches_of_none {q : Querier} {env : Env} {msgs : List CoreMsg}
    {balances : BalancesResponse} (h : Marked s s' q env msgs balances none) :
    s'.unbondBatches = s.unbondBatches := by
  obtain ⟨t, u, pumpAddress, -, ht, hu, hmark⟩ := h.decided
  obtain ⟨f, emergency, -, rfl, hlisted⟩ := markReadyBatches_ok hmark
  have hnil : s.maturedBatches env.time.seconds balances.2.2.seconds = [] :=
    List.map_eq_nil_iff.1 hlisted.symm
  rw [hu, hnil]
  exact ht

end Payout

end Core

end DropContracts
