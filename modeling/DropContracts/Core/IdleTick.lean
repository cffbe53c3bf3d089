import DropContracts.Core.Batches

set_option relaxedAutoImplicit false
set_option autoImplicit false

/-!
# What an idle tick depends on

Whether an idle tick pays out, claims or moves on is decided by a few facts about the storage and
the answers of the queries. They are named here, and related to what the tick does.

## Main definitions

* `Core.IntervalPassed`, `Core.HasMatured`, `Core.Claimable`, `Core.LeavesIdle` — the facts.
* `Core.Pays`, `Core.Lists` — a batch is handed to the payout, and a message lists it.
* `Core.Claims`, `Core.Marked` — a message claims with a payout, and the mark of an idle tick.

## Main results

* `Core.validatorsToClaim_eq_nil_iff` — when there is nobody to claim from.
* `Core.leavesIdle_of_tick` — what a tick that leaves `Idle` has found.
* `Core.pays_idlePrepared`, `Core.hasMatured_idlePrepared` — the payout that a tick prepares.
* `Core.executeTick_marks` — what an idle tick does to the batches.
-/

namespace DropContracts

namespace Core

open Exec

/-! ## The facts -/

/-- The interval of idle ticks has passed. -/
def IntervalPassed (s : Storage) (env : Env) : Prop :=
  s.lastIdleCall + s.config.idleMinInterval ≤ env.time.seconds

/-- Some batch has been released, by now and before the balance of the interchain account was
read. -/
def HasMatured (s : Storage) (q : Querier) (env : Env) : Prop :=
  ∃ balances id b, q.balances = .ok balances ∧ s.unbondBatches.load id = some b ∧
    b.status = .unbonding ∧ b.expectedRelease ≤ env.time.seconds ∧
    b.expectedRelease < balances.2.2.seconds

/-- Some member of the validator set has a delegation. -/
def Claimable (q : Querier) : Prop :=
  ∃ members delegations v delegation, q.validators = .ok members ∧
    q.delegations = .ok delegations ∧ v ∈ members ∧ delegation ∈ delegations.1 ∧
    v.valoperAddress = delegation.validator

/-- There is something to claim, to transfer or to stake, and the interval has passed. -/
def LeavesIdle (s : Storage) (q : Querier) (env : Env) : Prop :=
  IntervalPassed s env ∧ (Claimable q ∨ q.balance s.config.baseDenom ≠ 0 ∨
    ∃ balances, q.balances = .ok balances ∧
      s.config.minStakeAmount ≤ icaBalance balances s.config.remoteDenom)

/-- The batch `id` is unbonding in `s` and being paid in `s'`. -/
def Pays (s s' : Storage) (id : ℕ) : Prop :=
  (∃ b, s.unbondBatches.load id = some b ∧ b.status = .unbonding) ∧
    ∃ b', s'.unbondBatches.load id = some b' ∧ b'.status.isPaying = true

/-- A batch that goes from `Unbonding` to `Withdrawing` is paid. -/
theorem pays_of_status {s s' : Storage} {id : ℕ}
    (hbefore : (s.unbondBatches.load id).map UnbondBatch.status = some .unbonding)
    (hafter : (s'.unbondBatches.load id).map UnbondBatch.status = some .withdrawing) :
    Pays s s' id := by
  obtain ⟨b, hb, hstatus⟩ := Option.map_eq_some_iff.1 hbefore
  obtain ⟨b', hb', hstatus'⟩ := Option.map_eq_some_iff.1 hafter
  exact ⟨⟨b, hb, hstatus⟩, b', hb', by rw [hstatus']; rfl⟩

/-- One of the messages is a claim whose payout lists the batch `id`. -/
def Lists (msgs : List CoreMsg) (id : ℕ) : Prop :=
  ∃ contract validators transfer timeout replyTo funds,
    .puppeteer contract (.claimRewardsAndOptionalyTransfer validators transfer timeout replyTo)
      funds ∈ msgs ∧ id ∈ listedBatches transfer

section Tick

variable {s s' t : Storage} {q : Querier} {env : Env} {info : MessageInfo} {msgs : List CoreMsg}

/-- **There is nobody to claim from** exactly when no member of the set has a delegation. -/
theorem validatorsToClaim_eq_nil_iff {members : List ValidatorInfo}
    {delegations : DelegationsResponse} (hmembers : q.validators = .ok members)
    (hdelegations : q.delegations = .ok delegations) :
    validatorsToClaim members delegations.1 = [] ↔ ¬ Claimable q := by
  simp only [validatorsToClaim, List.map_eq_nil_iff, List.filter_eq_nil_iff, List.any_eq_true,
    decide_eq_true_eq]
  constructor
  · rintro hnone ⟨members', delegations', v, delegation, hm, hd, hv, hdelegation, heq⟩
    rw [hmembers] at hm
    rw [hdelegations] at hd
    obtain rfl := Except.ok.inj hm
    obtain rfl := Except.ok.inj hd
    exact hnone delegation hdelegation ⟨v, hv, heq⟩
  · rintro hnot delegation hdelegation ⟨v, hv, heq⟩
    exact hnot ⟨members, delegations, v, delegation, hmembers, hdelegations, hv, hdelegation, heq⟩

/-- The facts behind a prepared idle tick. -/
theorem idlePrepared_facts {transfer : Option TransferReadyBatchesMsg}
    {validators : List String} (h : IdlePrepared s q env t transfer validators) :
    IntervalPassed s env ∧ (validators = [] ↔ ¬ Claimable q) ∧ t.config = s.config := by
  cases h with
  | intro rate balances f emergency members delegations _ hinterval _ hmembers hdelegations =>
    exact ⟨hinterval, validatorsToClaim_eq_nil_iff hmembers hdelegations, rfl⟩

/-- **A tick that leaves `Idle`** has found something to claim, to transfer or to stake. -/
theorem leavesIdle_of_tick (h : TickCase s q env info s' msgs) (hidle : s.fsmState = .idle)
    (hleft : s'.fsmState ≠ .idle) : LeavesIdle s q env := by
  cases h with
  | idleInterval => exact absurd hidle hleft
  | idleClaim u transfer validators hstate hprepared hvalidators =>
    obtain ⟨hinterval, hclaim, -⟩ := idlePrepared_facts hprepared
    exact ⟨hinterval, .inl (not_not.1 fun hnot => hvalidators (hclaim.2 hnot))⟩
  | idleCascade u v transfer validators _ hstate hprepared hvalidators hcascade =>
    obtain ⟨hinterval, -, hconfig⟩ := idlePrepared_facts hprepared
    cases hcascade with
    | transfer hmem hbalance => exact ⟨hinterval, .inr (.inl hbalance)⟩
    | stake fees items balances hmem hbalances hmin =>
      exact ⟨hinterval, .inr (.inr ⟨balances, hbalances, hmin⟩)⟩
    | unbond batch balances undelegations hstaking =>
      cases hprepared
      cases hstaking
    | idle => exact absurd rfl hleft
  | claiming _ _ _ _ _ hstate => rw [hidle] at hstate; cases hstate
  | transfering _ _ _ hstate => rw [hidle] at hstate; cases hstate
  | staking _ _ _ hstate => rw [hidle] at hstate; cases hstate
  | unbondingSuccess _ _ _ _ _ _ hstate => rw [hidle] at hstate; cases hstate
  | unbondingFailed _ _ _ _ _ _ _ hstate => rw [hidle] at hstate; cases hstate

/-! ## The payout -/

/-- The batches that an idle tick hands to the payout are the ones that have matured, and they are
the ones of the payout that it prepares. -/
theorem pays_idlePrepared {transfer : Option TransferReadyBatchesMsg} {validators : List String}
    (h : IdlePrepared s q env t transfer validators) (id : ℕ) :
    Pays s t id ↔ id ∈ listedBatches transfer := by
  cases h with
  | intro rate balances f emergency members delegations _ _ hbalances _ _ hf hlist =>
    have hmatured : ∀ e ∈ s.maturedBatches env.time.seconds balances.2.2.seconds,
        s.unbondBatches.load e.1 = some e.2 := fun e he => (mem_maturedBatches.1 he).1
    rw [hlist]
    constructor
    · rintro ⟨⟨b, hb, hstatus⟩, b', hb', hpaying⟩
      by_contra hnot
      simp only [StorageMap.load_saveAll _ _ hmatured, hnot, ↓reduceIte, hb,
        Option.some.injEq] at hb'
      rw [← hb', hstatus] at hpaying
      cases hpaying
    · intro hmem
      obtain ⟨⟨id', b⟩, he, rfl⟩ := List.mem_map.1 hmem
      obtain ⟨hb, hstatus, -, -⟩ := mem_maturedBatches.1 he
      refine ⟨⟨b, hb, hstatus⟩, f b, ?_, ?_⟩
      · simp only [StorageMap.load_saveAll _ _ hmatured, hmem, ↓reduceIte, hb, Option.map_some]
      · rw [(hf b).2, isPaying_withdrawingStatus]

/-- A prepared payout lists a batch exactly when one has matured. -/
theorem hasMatured_idlePrepared {transfer : Option TransferReadyBatchesMsg}
    {validators : List String} (h : IdlePrepared s q env t transfer validators) :
    HasMatured s q env ↔ ∃ id, id ∈ listedBatches transfer := by
  cases h with
  | intro rate balances f emergency members delegations _ _ hbalances _ _ hf hlist =>
    rw [hlist]
    constructor
    · rintro ⟨balances', id, b, hbalances', hb, hstatus, hnow, htime⟩
      rw [hbalances] at hbalances'
      obtain rfl := Except.ok.inj hbalances'
      exact ⟨id, List.mem_map.2 ⟨(id, b), mem_maturedBatches.2 ⟨hb, hstatus, hnow, htime⟩, rfl⟩⟩
    · rintro ⟨id, hid⟩
      obtain ⟨⟨id', b⟩, he, -⟩ := List.mem_map.1 hid
      obtain ⟨hb, hstatus, hnow, htime⟩ := mem_maturedBatches.1 he
      exact ⟨balances, id', b, hbalances, hb, hstatus, hnow, htime⟩

/-- One of the messages is a claim with this payout. -/
def Claims (msgs : List CoreMsg) (payout : Option TransferReadyBatchesMsg) : Prop :=
  ∃ contract validators timeout replyTo funds,
    .puppeteer contract (.claimRewardsAndOptionalyTransfer validators payout timeout replyTo)
      funds ∈ msgs

/-- The mark of an idle tick: after the interval, the matured batches went through the payout, and a
claim carries the payout that was decided. -/
structure Marked (s s' : Storage) (q : Querier) (env : Env) (msgs : List CoreMsg)
    (balances : BalancesResponse) (transfer : Option TransferReadyBatchesMsg) : Prop where
  known : q.balances = .ok balances
  decided : ∃ t u pumpAddress, s.config.pumpAddress = some pumpAddress ∧
    t.unbondBatches = s.unbondBatches ∧ s'.unbondBatches = u.unbondBatches ∧
    markReadyBatches t s.config pumpAddress (icaBalance balances s.config.remoteDenom)
      (s.maturedBatches env.time.seconds balances.2.2.seconds) = .ok (u, transfer)
  claim : ∀ payout, Claims msgs payout → payout = transfer

/-- **What an idle tick does to the batches**: nothing within the interval, and the mark after
it. -/
theorem executeTick_marks (hidle : s.fsmState = .idle)
    (h : executeTick s q env info = .ok (s', msgs)) :
    (s'.unbondBatches = s.unbondBatches ∧ ∀ payout, ¬ Claims msgs payout) ∨
      ∃ balances transfer, Marked s s' q env msgs balances transfer := by
  simp only [executeTick, executeTickIdle, hidle, bind_eq_ok, checkedSub_eq_ok] at h
  obtain ⟨-, -, s₁, hcache, elapsed, -, h⟩ := h
  obtain ⟨rate, -, rfl⟩ := cacheExchangeRate_ok hcache
  split_ifs at h
  · simp only [bind_eq_ok, pure_eq_ok, Except.ok.injEq, Prod.mk.injEq] at h
    obtain ⟨m, hm, rfl, rfl⟩ := h
    refine .inl ⟨rfl, ?_⟩
    rintro payout ⟨contract, validators, timeout, replyTo, funds, hmem⟩
    have hcase := getIdleIntervalMsg_ok hm
    rw [List.mem_singleton] at hmem
    rw [← hmem] at hcase
    cases hcase
  · simp only [executeTickIdleLong, bind_eq_ok, ask_eq_ok, ensure_eq_ok, orError_eq_ok,
      Storage.goTo_eq_ok, pure_eq_ok, Except.ok.injEq, Prod.mk.injEq] at h
    obtain ⟨-, -, -, -, pump, hpump, ⟨balance, height, time⟩, hbal, ⟨t, transfer⟩, hmark, members,
      -, delegations, -, _, ⟨-, rfl⟩, ⟨u, ms⟩, hend, rfl, rfl⟩ := h
    obtain ⟨balances, hbalances, rfl, rfl, rfl⟩ := getIcaBalanceByDenom_eq_ok.1 hbal
    refine .inr ⟨balances, transfer, ?_⟩
    unfold claimOrCascade at hend
    split_ifs at hend
    · have hcascade := (transferStakeOrUnbond_ok hend).1
      refine ⟨hbalances, ⟨{ s with exchangeRate := some (rate, env.height) }, t, pump, hpump,
        rfl, ?_, hmark⟩, ?_⟩
      · have hkept := cascade_batches (by simp) hcascade
        exact hkept
      · rintro payout ⟨contract, validators', timeout, replyTo, funds, hmem⟩
        cases hcascade <;> simp at hmem
    · obtain ⟨rfl, rfl⟩ := Prod.mk.inj (Except.ok.inj hend)
      refine ⟨hbalances, ⟨{ s with exchangeRate := some (rate, env.height) }, t, pump, hpump,
        rfl, rfl, hmark⟩, ?_⟩
      rintro payout ⟨contract, validators', timeout, replyTo, funds, hmem⟩
      rw [List.mem_singleton] at hmem
      injection hmem with _ hmsg _
      injection hmsg

/-- The messages of the cascade list no batch. -/
theorem not_lists_cascade {config : Config} (h : CascadeCase t q env info config s' msgs)
    (id : ℕ) : ¬ Lists msgs id := by
  rintro ⟨contract, validators, transfer, timeout, replyTo, funds, hmem, -⟩
  cases h <;> simp at hmem

end Tick

end Core

end DropContracts
