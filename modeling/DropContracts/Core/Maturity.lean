import DropContracts.Core.Fees

set_option relaxedAutoImplicit false
set_option autoImplicit false

/-!
# Matured batches during a cycle

An idle tick that starts a cycle hands every batch to the payout that has been released, by now and
before the balance of the interchain account was read. So at that moment, no unbonding batch was
released before the balance was read. The later ticks of the cycle do not look again.

## Main definitions

* `Core.Storage.Unreleased` — no unbonding batch was released before a time.

## Main results

* `Core.unreleased_idlePrepared` — what the payout of an idle tick leaves is unreleased.
* `Core.unreleased_of_tick` — the ticks of a cycle leave it so.
* `Core.delegates_of_tick` — when a tick delegates.
-/

namespace DropContracts

namespace Core

/-- No unbonding batch was released before `time`. -/
def Storage.Unreleased (s : Storage) (time : ℕ) : Prop :=
  ∀ id b, s.unbondBatches.load id = some b → b.status = .unbonding → time ≤ b.expectedRelease

instance (s : Storage) (time : ℕ) : Decidable (s.Unreleased time) :=
  decidable_of_iff (∀ e ∈ s.unbondBatches.entries, e.2.status = .unbonding →
      time ≤ e.2.expectedRelease)
    ⟨fun h id b hb => h (id, b) (StorageMap.mem_entries.2 hb),
      fun h e he => h e.1 e.2 (StorageMap.mem_entries.1 he)⟩

section Ticks

variable {s s' t : Storage} {q : Querier} {env : Env} {info : MessageInfo} {msgs : List CoreMsg}
  {balances : BalancesResponse}

/-- Whether batches are unreleased depends on the batches only. -/
theorem Storage.Unreleased.of_same {time : ℕ} (h : s.Unreleased time)
    (hbatches : s'.unbondBatches = s.unbondBatches) : s'.Unreleased time := by
  intro id b hb
  rw [hbatches] at hb
  exact h id b hb

/-- One more request leaves the batches unreleased. -/
theorem Storage.Unreleased.push {time id : ℕ} {batch : UnbondBatch} (h : s.Unreleased time)
    (hbatch : s.unbondBatches.load id = some batch) (item : UnbondItem) :
    (s.saveBatch id (batch.push item)).Unreleased time := by
  intro id' b hb hstatus
  simp only [Storage.saveBatch, StorageMap.load_save] at hb
  split_ifs at hb
  · rw [← Option.some.inj hb] at hstatus ⊢
    exact h id batch hbatch hstatus
  · exact h id' b hb hstatus

/-- When no batch has matured, none was released before the balance was read. -/
theorem unreleased_of_not_hasMatured (hbalances : q.balances = .ok balances)
    (hpast : balances.2.2.seconds ≤ env.time.seconds) (hnot : ¬ HasMatured s q env) :
    s.Unreleased balances.2.2.seconds := by
  intro id b hb hstatus
  by_contra hreleased
  exact hnot ⟨balances, id, b, hbalances, hb, hstatus, by omega, by omega⟩

/-- **What the payout of an idle tick leaves is unreleased.**

**Proof sketch.** A batch that is still unbonding was not handed to the payout. It was released
later than now, or not before the balance was read, and the balance was read in the past. -/
theorem unreleased_idlePrepared {transfer : Option TransferReadyBatchesMsg}
    {validators : List String} (h : IdlePrepared s q env t transfer validators)
    (hbalances : q.balances = .ok balances) (hpast : balances.2.2.seconds ≤ env.time.seconds) :
    t.Unreleased balances.2.2.seconds := by
  cases h with
  | intro rate balances' f emergency members delegations _ _ hbalances' _ _ hf hlist =>
    obtain rfl : balances' = balances := Except.ok.inj (hbalances'.symm.trans hbalances)
    have hmatured : ∀ e ∈ s.maturedBatches env.time.seconds balances'.2.2.seconds,
        s.unbondBatches.load e.1 = some e.2 := fun e he => (mem_maturedBatches.1 he).1
    intro id b hb hstatus
    simp only [StorageMap.load_saveAll _ _ hmatured] at hb
    split_ifs at hb with hlisted
    · -- a batch that was handed to the payout is not unbonding any more
      obtain ⟨b₀, -, rfl⟩ := Option.map_eq_some_iff.1 hb
      rw [(hf b₀).2] at hstatus
      cases emergency <;> cases hstatus
    · by_contra hreleased
      apply hlisted
      exact List.mem_map.2 ⟨(id, b), mem_maturedBatches.2 ⟨hb, hstatus, by omega, by omega⟩, rfl⟩

/-- A state in the middle of a cycle: something was sent before the next delegation is decided. -/
def ContractState.isCollecting : ContractState → Bool
  | .claiming => true
  | .transfering => true
  | _ => false

/-- **The ticks of a cycle leave its batches unreleased.**

**Proof sketch.** Only an idle tick that starts a cycle, a tick in `Claiming` and a tick in
`Transfering` lead to such a state. The first leaves the batches unreleased; the others change
batches only from being paid to paid. -/
theorem unreleased_of_tick (h : TickCase s q env info s' msgs)
    (hbalances : q.balances = .ok balances) (hpast : balances.2.2.seconds ≤ env.time.seconds)
    (hold : s.fsmState.isCollecting = true → s.Unreleased balances.2.2.seconds)
    (hcollecting : s'.fsmState.isCollecting = true) : s'.Unreleased balances.2.2.seconds := by
  have hkept : ∀ {t u : Storage} {config : Config}, t.fsmState ≠ .staking →
      CascadeCase t q env info config u msgs → t.Unreleased balances.2.2.seconds →
      u.Unreleased balances.2.2.seconds := by
    intro t u config hstaking hcascade hunreleased
    exact hunreleased.of_same (cascade_batches hstaking hcascade)
  cases h with
  | idleInterval rate m hstate =>
    rw [hstate] at hcollecting
    cases hcollecting
  | idleClaim t transfer validators hstate hprepared =>
    have hunreleased := unreleased_idlePrepared hprepared hbalances hpast
    exact hunreleased
  | idleCascade t u transfer validators _ hstate hprepared hvalidators hcascade =>
    have hstaking : t.fsmState ≠ .staking := by
      cases hprepared
      simp
    have hunreleased := hkept hstaking hcascade
      (unreleased_idlePrepared hprepared hbalances hpast)
    exact hunreleased
  | claiming r batches emergency _ _ hstate hresponse hload hcascade =>
    refine hkept (by simp [hstate]) hcascade ?_
    intro id b hb hstatus
    rw [hload] at hb
    split_ifs at hb
    · obtain ⟨b₀, -, rfl⟩ := Option.map_eq_some_iff.1 hb
      cases emergency <;> cases hstatus
    · exact hold (by rw [hstate]; rfl) id b hb hstatus
  | transfering r _ _ hstate hresponse hcascade =>
    exact hkept (by simp [hstate]) hcascade (hold (by rw [hstate]; rfl))
  | staking r _ _ hstate hresponse hsuccess hcascade =>
    cases hcascade with
    | transfer hmem => simp [hstate, TRANSITIONS] at hmem
    | stake _ _ _ hmem => cases hcollecting
    | unbond => cases hcollecting
    | idle => cases hcollecting
  | unbondingSuccess => cases hcollecting
  | unbondingFailed => cases hcollecting

/-- **When a tick delegates**: in the middle of a cycle, or in `Idle` after the interval when there
is nobody to claim from. -/
theorem delegates_of_tick (h : TickCase s q env info s' msgs) (hdelegates : Delegates msgs) :
    s.fsmState.isCollecting = true ∨
      s.fsmState = .idle ∧ IntervalPassed s env ∧ ¬ Claimable q := by
  obtain ⟨contract, items, timeout, replyTo, funds, hmem⟩ := hdelegates
  cases h with
  | idleInterval rate m hstate hinterval hmsg =>
    rw [List.mem_singleton] at hmem
    rw [← hmem] at hmsg
    cases hmsg
  | idleClaim => simp at hmem
  | idleCascade t u transfer validators _ hstate hprepared hvalidators hcascade =>
    obtain ⟨hinterval, hclaim, -⟩ := idlePrepared_facts hprepared
    exact .inr ⟨hstate, hinterval, hclaim.1 hvalidators⟩
  | claiming _ _ _ _ _ hstate => exact .inl (by rw [hstate]; rfl)
  | transfering _ _ _ hstate => exact .inl (by rw [hstate]; rfl)
  | staking r _ _ hstate hresponse hsuccess hcascade =>
    cases hcascade with
    | stake _ _ _ hmem' => simp [hstate, TRANSITIONS] at hmem'
    | transfer => simp at hmem
    | unbond => simp at hmem
    | idle => simp at hmem
  | unbondingSuccess => exact absurd hmem List.not_mem_nil
  | unbondingFailed => exact absurd hmem List.not_mem_nil

end Ticks

end Core

end DropContracts
