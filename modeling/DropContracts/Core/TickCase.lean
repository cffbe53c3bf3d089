import DropContracts.Core.Tick

set_option relaxedAutoImplicit false
set_option autoImplicit false

/-!
# What a tick can do

The inversion of `execute_tick`. A tick that returns has taken one of a few paths; each path is a
constructor of `Core.TickCase` that says which response was consumed, how the storage changed and
which message was sent. Every invariant of a tick is proved by cases on it.

## Main definitions

* `Core.UnbondBatch.SameRequests` — two versions of a batch with the same requests.
* `Core.PayoutCase` — the ways to decide a payout.
* `Core.CascadeCase` — the ends of the cascade.
* `Core.TickCase` — the paths of a tick.
* `Core.TickFrame` — what a tick leaves alone.

## Main results

* `Core.markReadyBatches_cases` — a payout that is decided is one of the cases.
* `Core.markReadyBatches_ok`, `Core.markWithdrawn_ok` — how batches are rewritten.
* `Core.transferStakeOrUnbond_ok`, `Core.stakeOrUnbond_ok`, `Core.unbondOrIdle_ok`.
* `Core.executeTick_ok` — a tick that returns is one of the cases.
* `Core.TickCase.frame` — every tick leaves that alone.
* `Core.TickCase.of_claiming`, `Core.TickCase.of_staking`, `Core.TickCase.of_unbonding` — the
  ticks of one state.
-/

namespace DropContracts

namespace Core

open Exec

/-! ## Rewritten batches -/

/-- Two versions of a batch that hold the same requests. -/
structure UnbondBatch.SameRequests (b b' : UnbondBatch) : Prop where
  unbondItems : b'.unbondItems = b.unbondItems
  totalAmount : b'.totalAmount = b.totalAmount
  expectedAmount : b'.expectedAmount = b.expectedAmount
  created : b'.created = b.created

/-- The status of a batch whose payout has been decided. -/
def withdrawingStatus (emergency : Bool) : UnbondBatchStatus :=
  if emergency then .withdrawingEmergency else .withdrawing

/-- Batches that are neither none nor one are several. -/
theorem two_le_length {batches : List (ℕ × UnbondBatch)} (hnil : batches = [] → False)
    (hsingle : ∀ id b, batches = [(id, b)] → False) : 2 ≤ batches.length := by
  rcases batches with _ | ⟨e, _ | ⟨e', rest⟩⟩
  · exact absurd rfl hnil
  · exact absurd rfl (hsingle e.1 e.2)
  · simp

/-- The ways to decide the payout of the given batches from the storage `s`. -/
inductive PayoutCase (s : Storage) (config : Config) (pumpAddress : String) (icaBalance : ℕ) :
    List (ℕ × UnbondBatch) → Storage → Option TransferReadyBatchesMsg → Prop
  | nothing : PayoutCase s config pumpAddress icaBalance [] s none
  | single (id : ℕ) (batch : UnbondBatch) (amount : ℕ) (effect : Decimal)
      (hslashed : slashedAmount icaBalance batch.expectedAmount = .ok (amount, effect)) :
      PayoutCase s config pumpAddress icaBalance [(id, batch)]
        (s.saveBatch id (batch.withdraw amount effect)) (some ⟨[id], false, amount, pumpAddress⟩)
  | emergency (batches : List (ℕ × UnbondBatch)) (recipient : String)
      (hlength : 2 ≤ batches.length)
      (hshort : icaBalance < (batches.map fun e => e.2.expectedAmount).sum)
      (hrecipient : config.emergencyAddress = some recipient) :
      PayoutCase s config pumpAddress icaBalance batches
        (s.saveBatches UnbondBatch.withdrawEmergency batches)
        (some ⟨batches.map Prod.fst, true, icaBalance, recipient⟩)
  | full (batches : List (ℕ × UnbondBatch)) (hlength : 2 ≤ batches.length)
      (hcovered : (batches.map fun e => e.2.expectedAmount).sum ≤ icaBalance) :
      PayoutCase s config pumpAddress icaBalance batches
        (s.saveBatches (fun batch => batch.withdraw batch.expectedAmount Decimal.one) batches)
        (some ⟨batches.map Prod.fst, false, (batches.map fun e => e.2.expectedAmount).sum,
          pumpAddress⟩)

section Payout

variable {s s' : Storage} {config : Config} {pumpAddress : String} {icaBalance : ℕ}
  {batches : List (ℕ × UnbondBatch)} {transfer : Option TransferReadyBatchesMsg}

/-- **A payout that is decided** is one of the cases. -/
theorem markReadyBatches_cases
    (h : markReadyBatches s config pumpAddress icaBalance batches = .ok (s', transfer)) :
    PayoutCase s config pumpAddress icaBalance batches s' transfer := by
  unfold markReadyBatches at h
  split at h
  · obtain ⟨rfl, rfl⟩ := Prod.mk.inj (Except.ok.inj h)
    exact .nothing
  next id batch =>
    simp only [bind_eq_ok, pure_eq_ok, Except.ok.injEq, Prod.mk.injEq] at h
    obtain ⟨⟨amount, effect⟩, hslashed, rfl, rfl⟩ := h
    exact .single id batch amount effect hslashed
  next hnil hsingle =>
    have hlength : 2 ≤ batches.length := two_le_length hnil hsingle
    simp only [bind_eq_ok, checkedSum_eq_ok Uint128.bound_pos] at h
    obtain ⟨total, ⟨rfl, -⟩, h⟩ := h
    split_ifs at h with hshort
    · simp only [bind_eq_ok, orError_eq_ok, pure_eq_ok, Except.ok.injEq, Prod.mk.injEq] at h
      obtain ⟨recipient, hrecipient, rfl, rfl⟩ := h
      exact .emergency batches recipient hlength hshort hrecipient
    · obtain ⟨rfl, rfl⟩ := Prod.mk.inj (Except.ok.inj h)
      exact .full batches hlength (not_lt.1 hshort)

/-- **Everything the payout does**: it rewrites exactly the given batches, keeps their requests,
gives them all one withdrawing status, and lists exactly them. -/
theorem markReadyBatches_ok
    (h : markReadyBatches s config pumpAddress icaBalance batches = .ok (s', transfer)) :
    ∃ (f : UnbondBatch → UnbondBatch) (emergency : Bool),
      (∀ b, b.SameRequests (f b) ∧ (f b).status = withdrawingStatus emergency) ∧
      s' = s.saveBatches f batches ∧ listedBatches transfer = batches.map Prod.fst := by
  cases markReadyBatches_cases h with
  | nothing =>
    exact ⟨fun b => b.withdraw 0 Decimal.one, false,
      fun b => ⟨⟨rfl, rfl, rfl, rfl⟩, rfl⟩, rfl, rfl⟩
  | single id batch amount effect =>
    exact ⟨fun b => b.withdraw amount effect, false,
      fun b => ⟨⟨rfl, rfl, rfl, rfl⟩, rfl⟩, rfl, rfl⟩
  | emergency =>
    exact ⟨UnbondBatch.withdrawEmergency, true,
      fun b => ⟨⟨rfl, rfl, rfl, rfl⟩, rfl⟩, rfl, rfl⟩
  | full =>
    exact ⟨fun b => b.withdraw b.expectedAmount Decimal.one, false,
      fun b => ⟨⟨rfl, rfl, rfl, rfl⟩, rfl⟩, rfl, rfl⟩

end Payout

/-- The matured batches are stored, unbonding, and released. -/
theorem mem_maturedBatches {s : Storage} {now time id : ℕ} {b : UnbondBatch} :
    (id, b) ∈ s.maturedBatches now time ↔
      s.unbondBatches.load id = some b ∧ b.status = .unbonding ∧
        b.expectedRelease ≤ now ∧ b.expectedRelease < time := by
  simp only [Storage.maturedBatches, List.mem_filter, Storage.mem_batchesWithStatus,
    decide_eq_true_eq, and_assoc]

/-- A batch after its payout succeeded. -/
def UnbondBatch.withdrawn (emergency : Bool) (batch : UnbondBatch) : UnbondBatch :=
  { batch with status := withdrawnStatus emergency }

/-- **Everything `markWithdrawn` does**: it sets the status of exactly the listed batches, all of
which are stored. The induction is on the list of ids. -/
theorem markWithdrawn_ok {emergency : Bool} {ids : List ℕ} {s s' : Storage}
    (h : markWithdrawn emergency s ids = .ok s') :
    ∃ batches, s' = { s with unbondBatches := batches } ∧
      ∀ id, batches.load id =
        if id ∈ ids then (s.unbondBatches.load id).map (UnbondBatch.withdrawn emergency)
        else s.unbondBatches.load id := by
  induction ids generalizing s with
  | nil =>
    rw [← Except.ok.inj h]
    exact ⟨s.unbondBatches, rfl, fun id => by simp⟩
  | cons id₀ rest ih =>
    simp only [markWithdrawn, bind_eq_ok, Storage.loadBatch_eq_ok] at h
    obtain ⟨batch, hbatch, h⟩ := h
    obtain ⟨batches, rfl, hload⟩ := ih h
    refine ⟨batches, rfl, fun id => ?_⟩
    rw [hload id, Storage.saveBatch, StorageMap.load_save]
    by_cases hid : id = id₀
    · subst hid
      by_cases hrest : id ∈ rest
      · simp [hrest, hbatch, UnbondBatch.withdrawn]
      · simp [hrest, hbatch, UnbondBatch.withdrawn]
    · simp [hid]

/-- Marking succeeds exactly when every listed batch is stored. -/
theorem markWithdrawn_returns_iff {emergency : Bool} {ids : List ℕ} {s : Storage} :
    (∃ s', markWithdrawn emergency s ids = .ok s') ↔
      ∀ id ∈ ids, ∃ b, s.unbondBatches.load id = some b := by
  induction ids generalizing s with
  | nil => exact ⟨fun _ _ hid => absurd hid List.not_mem_nil, fun _ => ⟨s, rfl⟩⟩
  | cons id₀ rest ih =>
    -- marking the first batch changes nothing about which batches are stored
    have hsame : ∀ batch, s.unbondBatches.load id₀ = some batch → ∀ id,
        (∃ b, (s.saveBatch id₀
          { batch with status := withdrawnStatus emergency }).unbondBatches.load id = some b) ↔
          ∃ b, s.unbondBatches.load id = some b := by
      intro batch hbatch id
      rw [Storage.saveBatch, StorageMap.load_save]
      split_ifs with heq
      · rw [heq]
        exact ⟨fun _ => ⟨batch, hbatch⟩, fun _ => ⟨_, rfl⟩⟩
      · exact Iff.rfl
    simp only [markWithdrawn, bind_eq_ok, Storage.loadBatch_eq_ok]
    constructor
    · rintro ⟨s', batch, hbatch, hs'⟩
      have hrest := ih.1 ⟨s', hs'⟩
      intro id hid
      rcases List.mem_cons.1 hid with rfl | hid
      · exact ⟨batch, hbatch⟩
      · exact (hsame batch hbatch id).1 (hrest id hid)
    · intro h
      obtain ⟨batch, hbatch⟩ := h id₀ List.mem_cons_self
      obtain ⟨s', hs'⟩ := ih.2 fun id hid =>
        (hsame batch hbatch id).2 (h id (List.mem_cons_of_mem _ hid))
      exact ⟨s', batch, hbatch, hs'⟩

/-- A response that a claiming tick can process: a failure, or a claim whose batches are stored. -/
def ResponseHookMsg.Claimed (s : Storage) (r : ResponseHookMsg) : Prop :=
  r.isError = true ∨
    (∃ account validators denom transfer, r.transaction =
      .claimRewardsAndOptionalyTransfer account validators denom transfer) ∧
    ∀ id ∈ r.transaction.batchIds, ∃ b, s.unbondBatches.load id = some b

/-- A claiming tick processes exactly such responses. -/
theorem processClaimResponse_returns_iff {s : Storage} {r : ResponseHookMsg} :
    (∃ s', processClaimResponse s r = .ok s') ↔ ResponseHookMsg.Claimed s r := by
  unfold processClaimResponse ResponseHookMsg.Claimed
  split
  next msg =>
    simp only [ResponseHookMsg.isError, Bool.false_eq_true, false_or, ResponseHookMsg.transaction]
    split
    next account validators denom transfer htx =>
      rw [markWithdrawn_returns_iff]
      simp [htx, Transaction.batchIds, listedBatches]
    next account validators denom htx =>
      simp [htx, Transaction.batchIds, listedBatches]
    next hsome hnone =>
      simp only [fail_ne_ok, exists_false, false_iff, not_and]
      rintro ⟨account, validators, denom, transfer, htx⟩
      cases transfer with
      | none => exact absurd htx (hnone account validators denom)
      | some transfer => exact absurd htx (hsome account validators denom transfer)
  next msg => simp [ResponseHookMsg.isError]

/-- What a claiming tick does with its response: the paid batches are marked. -/
theorem processClaimResponse_ok {s s' : Storage} {r : ResponseHookMsg}
    (h : processClaimResponse s r = .ok s') :
    ∃ batches emergency, s' = { s with unbondBatches := batches } ∧
      ∀ id, batches.load id =
        if id ∈ r.paidBatches then (s.unbondBatches.load id).map (UnbondBatch.withdrawn emergency)
        else s.unbondBatches.load id := by
  unfold processClaimResponse at h
  split at h
  · split at h
    next _ _ _ transfer htx =>
      obtain ⟨batches, rfl, hload⟩ := markWithdrawn_ok h
      refine ⟨batches, transfer.emergency, rfl, fun id => ?_⟩
      simp only [ResponseHookMsg.paidBatches, htx, Transaction.batchIds, listedBatches]
      exact hload id
    next htx =>
      rw [← Except.ok.inj h]
      refine ⟨s.unbondBatches, false, rfl, fun id => ?_⟩
      simp [ResponseHookMsg.paidBatches, htx, Transaction.batchIds, listedBatches]
    · exact absurd h fail_ne_ok
  · rw [← Except.ok.inj h]
    exact ⟨s.unbondBatches, false, rfl, fun id => by simp [ResponseHookMsg.paidBatches]⟩

/-! ## The cascade -/

/-- The ends of the cascade from the storage `s`. -/
inductive CascadeCase (s : Storage) (q : Querier) (env : Env) (info : MessageInfo)
    (config : Config) : Storage → List CoreMsg → Prop
  | transfer (hmem : ⟨s.fsmState, .transfering⟩ ∈ TRANSITIONS)
      (hbalance : q.balance config.baseDenom ≠ 0) :
      CascadeCase s q env info config
        { s with
          fsmState := .transfering
          pendingTransfer := some (q.balance config.baseDenom) }
        [.puppeteer config.puppeteerContract
          (.ibcTransfer config.puppeteerTimeout .stake env.contractAddress)
          (⟨config.baseDenom, q.balance config.baseDenom⟩ :: info.funds)]
  | stake (fees : StorageMap String FeeItem) (items : List (String × ℕ))
      (balances : BalancesResponse) (hmem : ⟨s.fsmState, .staking⟩ ∈ TRANSITIONS)
      (hbalances : q.balances = .ok balances)
      (hmin : config.minStakeAmount ≤ icaBalance balances config.remoteDenom) :
      CascadeCase s q env info config
        { s with collectedFees := fees, fsmState := .staking }
        [.puppeteer config.puppeteerContract
          (.delegate items (some config.puppeteerTimeout) env.contractAddress) info.funds]
  | unbond (batch : UnbondBatch) (balances : BalancesResponse)
      (undelegations : List IdealDelegation) (hstate : s.fsmState = .staking)
      (hbatch : s.unbondBatches.load s.nextBatchId = some batch)
      (hready : batch.isReady config env.time = .ok true)
      (hcalc : q.calcWithdraw batch.totalAmount = .ok undelegations) :
      CascadeCase s q env info config
        { s.requestBatch batch (icaBalance balances config.remoteDenom) env.time.seconds with
          fsmState := .unbonding }
        [.puppeteer config.puppeteerContract
          (.undelegate (undelegations.map fun d => (d.valoperAddress, d.stakeChange))
            s.nextBatchId (some config.puppeteerTimeout) env.contractAddress) info.funds]
  | idle (batch : UnbondBatch) (hmem : ⟨s.fsmState, .idle⟩ ∈ TRANSITIONS)
      (hbatch : s.unbondBatches.load s.nextBatchId = some batch)
      (hready : batch.isReady config env.time = .ok false) :
      CascadeCase s q env info config { s with fsmState := .idle } []

section Cascade

variable {s s' : Storage} {q : Querier} {env : Env} {info : MessageInfo} {config : Config}
  {msgs : List CoreMsg}

/-- Only `Staking` may be left for `Unbonding`. -/
theorem staking_of_unbonding_mem {state : ContractState}
    (h : (⟨state, .unbonding⟩ : Transition ContractState) ∈ TRANSITIONS) : state = .staking := by
  revert h
  cases state <;> decide

/-- The last part of the cascade. -/
theorem unbondOrIdle_ok (h : unbondOrIdle s q env info config = .ok (s', msgs)) :
    CascadeCase s q env info config s' msgs := by
  simp only [unbondOrIdle, bind_eq_ok] at h
  obtain ⟨⟨s₁, m⟩, hmsg, h⟩ := h
  obtain ⟨batch, hbatch, ⟨hready, rfl, rfl⟩ | ⟨hready, balances, und, -, hund, rfl, rfl⟩⟩ :=
    getUnbondingMsg_ok hmsg
  · simp only [bind_eq_ok, Storage.goTo_eq_ok, pure_eq_ok, Except.ok.injEq, Prod.mk.injEq] at h
    obtain ⟨_, ⟨hmem, rfl⟩, rfl, rfl⟩ := h
    exact .idle batch hmem hbatch hready
  · simp only [bind_eq_ok, Storage.goTo_eq_ok, pure_eq_ok, Except.ok.injEq, Prod.mk.injEq] at h
    obtain ⟨_, ⟨hmem, rfl⟩, rfl, rfl⟩ := h
    exact .unbond batch balances und (staking_of_unbonding_mem hmem) hbatch hready hund

/-- The cascade without the transfer. -/
theorem stakeOrUnbond_ok (h : stakeOrUnbond s q env info config = .ok (s', msgs)) :
    CascadeCase s q env info config s' msgs := by
  simp only [stakeOrUnbond, bind_eq_ok] at h
  obtain ⟨⟨s₁, m⟩, hmsg, h⟩ := h
  obtain ⟨balances, hbalances, ⟨-, rfl, rfl⟩ | ⟨hmin, ⟨fees, rfl⟩, items, rfl⟩⟩ :=
    getStakeMsg_ok hmsg
  · exact unbondOrIdle_ok h
  · simp only [bind_eq_ok, Storage.goTo_eq_ok, pure_eq_ok, Except.ok.injEq, Prod.mk.injEq] at h
    obtain ⟨_, ⟨hmem, rfl⟩, rfl, rfl⟩ := h
    exact .stake fees items balances hmem hbalances hmin

/-- The whole cascade, which only passes over the transfer when there is nothing to transfer. -/
theorem transferStakeOrUnbond_ok
    (h : transferStakeOrUnbond s q env info config = .ok (s', msgs)) :
    CascadeCase s q env info config s' msgs ∧
      (s'.fsmState = .transfering ∨ q.balance config.baseDenom = 0) := by
  unfold transferStakeOrUnbond getTransferPendingBalanceMsg at h
  by_cases hbalance : q.balance config.baseDenom = 0
  · simp only [hbalance, ↓reduceIte] at h
    exact ⟨stakeOrUnbond_ok h, .inr hbalance⟩
  · simp only [hbalance, ↓reduceIte, bind_eq_ok, Storage.goTo_eq_ok, pure_eq_ok,
      Except.ok.injEq, Prod.mk.injEq] at h
    obtain ⟨_, ⟨hmem, rfl⟩, rfl, rfl⟩ := h
    exact ⟨.transfer hmem hbalance, .inl rfl⟩

end Cascade

/-! ## The paths of a tick -/

/-- The messages of an idle tick within the interval. -/
inductive IdleIntervalMsg (s : Storage) (env : Env) (info : MessageInfo) : CoreMsg → Prop
  | transfer (items : List (String × Coin)) :
      IdleIntervalMsg s env info (.puppeteer s.config.puppeteerContract
        (.transfer items (some s.config.puppeteerTimeout) env.contractAddress) info.funds)
  | redeem :
      IdleIntervalMsg s env info (.puppeteer s.config.puppeteerContract
        (.redeemShares (redeemItems s.lsmSharesToRedeem) (some s.config.puppeteerTimeout)
          env.contractAddress) info.funds)
  | lsmShare (denom remote : String) (amount : ℕ)
      (hpending : s.pendingLsmShares.load denom = some (remote, amount)) :
      IdleIntervalMsg s env info (.puppeteer s.config.puppeteerContract
        (.ibcTransfer s.config.puppeteerTimeout .lsmShare env.contractAddress)
        (⟨denom, amount⟩ :: info.funds))

/-- An idle tick within the interval sends one of the three messages. -/
theorem getIdleIntervalMsg_ok {s : Storage} {q : Querier} {env : Env} {info : MessageInfo}
    {m : CoreMsg} (h : getIdleIntervalMsg s q env info s.config = .ok m) :
    IdleIntervalMsg s env info m := by
  simp only [getIdleIntervalMsg, bind_eq_ok] at h
  obtain ⟨transferMsg, htransfer, h⟩ := h
  obtain rfl | ⟨items, rfl⟩ := getNonNativeRewardsAndFeeTransferMsg_ok htransfer
  · simp only [bind_eq_ok] at h
    obtain ⟨redeemMsg, hredeem, h⟩ := h
    obtain rfl | rfl := getPendingRedeemMsg_ok hredeem
    · simp only [orError_eq_ok] at h
      obtain ⟨denom, remote, amount, hpending, rfl⟩ := getPendingLsmShareMsg_ok h
      exact .lsmShare denom remote amount hpending
    · rw [← Except.ok.inj h]
      exact .redeem
  · rw [← Except.ok.inj h]
    exact .transfer items

/-- An idle tick after the interval, up to the point where it has entered `Claiming`: the storage
it has, the payout it has prepared, and the validators it may claim from. -/
inductive IdlePrepared (s : Storage) (q : Querier) (env : Env) :
    Storage → Option TransferReadyBatchesMsg → List String → Prop
  | intro (rate : Decimal × ℕ) (balances : BalancesResponse) (f : UnbondBatch → UnbondBatch)
      (emergency : Bool) (members : List ValidatorInfo) (delegations : DelegationsResponse)
      (transfer : Option TransferReadyBatchesMsg)
      (hinterval : s.lastIdleCall + s.config.idleMinInterval ≤ env.time.seconds)
      (hbalances : q.balances = .ok balances)
      (hmembers : q.validators = .ok members) (hdelegations : q.delegations = .ok delegations)
      (hf : ∀ b, b.SameRequests (f b) ∧ (f b).status = withdrawingStatus emergency)
      (hlist : listedBatches transfer =
        (s.maturedBatches env.time.seconds balances.2.2.seconds).map Prod.fst) :
      IdlePrepared s q env
        { s with
          unbondBatches := s.unbondBatches.saveAll f
            (s.maturedBatches env.time.seconds balances.2.2.seconds)
          exchangeRate := some rate
          fsmState := .claiming }
        transfer (validatorsToClaim members delegations.1)

/-- The paths of a tick from the storage `s`. -/
inductive TickCase (s : Storage) (q : Querier) (env : Env) (info : MessageInfo) :
    Storage → List CoreMsg → Prop
  | idleInterval (rate : Decimal × ℕ) (m : CoreMsg) (hstate : s.fsmState = .idle)
      (hinterval : env.time.seconds < s.lastIdleCall + s.config.idleMinInterval)
      (hmsg : IdleIntervalMsg s env info m) :
      TickCase s q env info { s with exchangeRate := some rate } [m]
  | idleClaim (t : Storage) (transfer : Option TransferReadyBatchesMsg)
      (validators : List String) (hstate : s.fsmState = .idle)
      (hprepared : IdlePrepared s q env t transfer validators) (hvalidators : validators ≠ []) :
      TickCase s q env info { t with lastIdleCall := env.time.seconds }
        [.puppeteer s.config.puppeteerContract
          (.claimRewardsAndOptionalyTransfer validators transfer
            (some s.config.puppeteerTimeout) env.contractAddress) info.funds]
  | idleCascade (t u : Storage) (transfer : Option TransferReadyBatchesMsg)
      (validators : List String) (msgs : List CoreMsg) (hstate : s.fsmState = .idle)
      (hprepared : IdlePrepared s q env t transfer validators) (hvalidators : validators = [])
      (hcascade : CascadeCase t q env info s.config u msgs) :
      TickCase s q env info { u with lastIdleCall := env.time.seconds } msgs
  | claiming (r : ResponseHookMsg) (batches : StorageMap ℕ UnbondBatch) (emergency : Bool)
      (t : Storage) (msgs : List CoreMsg) (hstate : s.fsmState = .claiming)
      (hresponse : s.lastPuppeteerResponse = some r)
      (hload : ∀ id, batches.load id =
        if id ∈ r.paidBatches then (s.unbondBatches.load id).map (UnbondBatch.withdrawn emergency)
        else s.unbondBatches.load id)
      (hcascade : CascadeCase { s with lastPuppeteerResponse := none, unbondBatches := batches }
        q env info s.config t msgs)
      (hdrained : t.fsmState = .transfering ∨ q.balance s.config.baseDenom = 0) :
      TickCase s q env info t msgs
  | transfering (r : ResponseHookMsg) (t : Storage) (msgs : List CoreMsg)
      (hstate : s.fsmState = .transfering) (hresponse : s.lastPuppeteerResponse = some r)
      (hcascade : CascadeCase { s with lastPuppeteerResponse := none } q env info s.config t
        msgs) :
      TickCase s q env info t msgs
  | staking (r : ResponseHookMsg) (t : Storage) (msgs : List CoreMsg)
      (hstate : s.fsmState = .staking) (hresponse : s.lastPuppeteerResponse = some r)
      (hsuccess : r.isError = false)
      (hcascade : CascadeCase { s with lastPuppeteerResponse := none } q env info s.config t
        msgs) :
      TickCase s q env info t msgs
  | unbondingSuccess (requestId : ℕ) (account : String) (items : List (String × ℕ))
      (denom : String) (batchId : ℕ) (unbond : UnbondBatch) (hstate : s.fsmState = .unbonding)
      (hresponse : s.lastPuppeteerResponse =
        some (.success ⟨requestId, .undelegate account items denom batchId⟩))
      (hbatch : s.unbondBatches.load batchId = some unbond)
      (hfit : env.time.seconds + s.config.unbondingPeriod < U64.bound) :
      TickCase s q env info
        { s with
          lastPuppeteerResponse := none
          unbondBatches := s.unbondBatches.save batchId { unbond with
            status := .unbonding
            expectedRelease := env.time.seconds + s.config.unbondingPeriod }
          failedBatchId := none
          fsmState := .idle } []
  | unbondingFailed (requestId : ℕ) (account : String) (items : List (String × ℕ))
      (denom : String) (batchId : ℕ) (details : String) (unbond : UnbondBatch)
      (hstate : s.fsmState = .unbonding)
      (hresponse : s.lastPuppeteerResponse =
        some (.error ⟨requestId, .undelegate account items denom batchId, details⟩))
      (hbatch : s.unbondBatches.load batchId = some unbond) :
      TickCase s q env info
        { s with
          unbondBatches :=
            s.unbondBatches.save batchId { unbond with status := .unbondFailed }
          failedBatchId := some batchId
          fsmState := .idle } []

section Tick

variable {s s' : Storage} {q : Querier} {env : Env} {info : MessageInfo} {msgs : List CoreMsg}

/-- The paths of an idle tick after the interval. -/
theorem executeTickIdleLong_ok {rate : Decimal × ℕ} (hstate : s.fsmState = .idle)
    (hinterval : s.lastIdleCall + s.config.idleMinInterval ≤ env.time.seconds)
    (h : executeTickIdleLong { s with exchangeRate := some rate } q env info s.config =
      .ok (s', msgs)) : TickCase s q env info s' msgs := by
  simp only [executeTickIdleLong, bind_eq_ok, ask_eq_ok, ensure_eq_ok, orError_eq_ok,
    Storage.goTo_eq_ok, pure_eq_ok, Except.ok.injEq, Prod.mk.injEq] at h
  obtain ⟨-, -, -, -, pump, -, ⟨balance, height, time⟩, hbal, ⟨t₁, transfer⟩, hmark, members,
    hmembers, delegations, hdel, t, ⟨-, rfl⟩, ⟨u, ms⟩, hend, rfl, rfl⟩ := h
  obtain ⟨balances, hbalances, rfl, rfl, rfl⟩ := getIcaBalanceByDenom_eq_ok.1 hbal
  obtain ⟨f, emergency, hf, rfl, hlist⟩ := markReadyBatches_ok hmark
  have hprepared : IdlePrepared s q env _ transfer _ :=
    .intro rate balances f emergency members delegations transfer hinterval hbalances hmembers
      hdel hf hlist
  unfold claimOrCascade at hend
  split_ifs at hend with hvalidators
  · exact .idleCascade _ _ transfer _ _ hstate hprepared hvalidators
      (transferStakeOrUnbond_ok hend).1
  · obtain ⟨rfl, rfl⟩ := Prod.mk.inj (Except.ok.inj hend)
    exact .idleClaim _ transfer _ hstate hprepared hvalidators

/-- The paths of an idle tick. -/
theorem executeTickIdle_ok (hstate : s.fsmState = .idle)
    (h : executeTickIdle s q env info s.config = .ok (s', msgs)) :
    TickCase s q env info s' msgs := by
  simp only [executeTickIdle, bind_eq_ok, checkedSub_eq_ok] at h
  obtain ⟨s₁, hcache, elapsed, helapsed, h⟩ := h
  obtain ⟨rate, -, rfl⟩ := cacheExchangeRate_ok hcache
  split_ifs at h with hinterval
  · simp only [bind_eq_ok, pure_eq_ok, Except.ok.injEq, Prod.mk.injEq] at h
    obtain ⟨m, hm, rfl, rfl⟩ := h
    obtain hm := getIdleIntervalMsg_ok hm
    have hearly : env.time.seconds < s.lastIdleCall + s.config.idleMinInterval := by
      rw [← helapsed]
      exact Nat.add_lt_add_left hinterval s.lastIdleCall
    refine .idleInterval (rate, env.height) m hstate hearly ?_
    cases hm with
    | transfer items => exact .transfer items
    | redeem => exact .redeem
    | lsmShare denom remote amount hpending => exact .lsmShare denom remote amount hpending
  · refine executeTickIdleLong_ok hstate ?_ h
    rw [← helapsed]
    exact Nat.add_le_add_left (not_lt.1 hinterval) s.lastIdleCall

/-- The paths of a claiming tick. -/
theorem executeTickClaiming_ok (hstate : s.fsmState = .claiming)
    (h : executeTickClaiming s q env info s.config = .ok (s', msgs)) :
    TickCase s q env info s' msgs := by
  simp only [executeTickClaiming, getReceivedPuppeteerResponse, bind_eq_ok, orError_eq_ok] at h
  obtain ⟨r, hr, s₁, hprocess, h⟩ := h
  obtain ⟨batches, emergency, rfl, hload⟩ := processClaimResponse_ok hprocess
  obtain ⟨hcascade, hdrained⟩ := transferStakeOrUnbond_ok h
  exact .claiming r batches emergency _ _ hstate hr hload hcascade hdrained

/-- The paths of a transfering tick. -/
theorem executeTickTransfering_ok (hstate : s.fsmState = .transfering)
    (h : executeTickTransfering s q env info s.config = .ok (s', msgs)) :
    TickCase s q env info s' msgs := by
  simp only [executeTickTransfering, getReceivedPuppeteerResponse, bind_eq_ok,
    orError_eq_ok] at h
  obtain ⟨r, hr, h⟩ := h
  exact .transfering r _ _ hstate hr (stakeOrUnbond_ok h)

/-- The paths of a staking tick. -/
theorem executeTickStaking_ok (hstate : s.fsmState = .staking)
    (h : executeTickStaking s q env info s.config = .ok (s', msgs)) :
    TickCase s q env info s' msgs := by
  simp only [executeTickStaking, getReceivedPuppeteerResponse, bind_eq_ok, orError_eq_ok,
    ensure_eq_ok] at h
  obtain ⟨r, hr, -, hsuccess, h⟩ := h
  exact .staking r _ _ hstate hr hsuccess (unbondOrIdle_ok h)

/-- The paths of an unbonding tick. -/
theorem executeTickUnbonding_ok (hstate : s.fsmState = .unbonding)
    (h : executeTickUnbonding s env s.config = .ok (s', msgs)) :
    TickCase s q env info s' msgs := by
  simp only [executeTickUnbonding, getReceivedPuppeteerResponse, bind_eq_ok, orError_eq_ok,
    Storage.goTo_eq_ok, pure_eq_ok, Except.ok.injEq, Prod.mk.injEq] at h
  obtain ⟨r, hr, s₁, hprocess, _, ⟨-, rfl⟩, rfl, rfl⟩ := h
  unfold processUndelegateResponse at hprocess
  split at hprocess
  next response =>
    obtain ⟨requestId, transaction⟩ := response
    split at hprocess
    next account items denom batchId htx =>
      simp only at htx
      subst htx
      simp only [bind_eq_ok, Storage.loadBatch_eq_ok, checkedAdd_eq_ok, pure_eq_ok,
        Except.ok.injEq] at hprocess
      obtain ⟨unbond, hunbond, _, ⟨rfl, hfit⟩, rfl⟩ := hprocess
      exact .unbondingSuccess requestId account items denom batchId unbond hstate hr hunbond hfit
    · exact absurd hprocess fail_ne_ok
  next response =>
    obtain ⟨requestId, transaction, details⟩ := response
    split at hprocess
    next account items denom batchId htx =>
      simp only at htx
      subst htx
      simp only [bind_eq_ok, Storage.loadBatch_eq_ok, pure_eq_ok, Except.ok.injEq] at hprocess
      obtain ⟨unbond, hunbond, rfl⟩ := hprocess
      exact .unbondingFailed requestId account items denom batchId details unbond hstate hr
        hunbond
    · exact absurd hprocess fail_ne_ok

/-- **A tick that returns has taken one of the paths**, and the contract was not paused. -/
theorem executeTick_ok (h : executeTick s q env info = .ok (s', msgs)) :
    s.isPaused = false ∧ TickCase s q env info s' msgs := by
  simp only [executeTick, bind_eq_ok, ensure_eq_ok] at h
  obtain ⟨-, hpaused, h⟩ := h
  refine ⟨hpaused, ?_⟩
  cases hstate : s.fsmState with
  | idle => exact executeTickIdle_ok hstate (by simpa only [hstate] using h)
  | claiming => exact executeTickClaiming_ok hstate (by simpa only [hstate] using h)
  | transfering => exact executeTickTransfering_ok hstate (by simpa only [hstate] using h)
  | unbonding => exact executeTickUnbonding_ok hstate (by simpa only [hstate] using h)
  | staking => exact executeTickStaking_ok hstate (by simpa only [hstate] using h)

/-! ## What a tick leaves alone -/

/-- What a tick leaves alone. -/
structure TickFrame (s s' : Storage) : Prop where
  config : s'.config = s.config
  owner : s'.owner = s.owner
  isPaused : s'.isPaused = s.isPaused
  bondedAmount : s'.bondedAmount = s.bondedAmount
  nonNativeRewardsConfig : s'.nonNativeRewardsConfig = s.nonNativeRewardsConfig
  lastLsmRedeem : s'.lastLsmRedeem = s.lastLsmRedeem
  lastIcaBalanceChangeHeight : s'.lastIcaBalanceChangeHeight = s.lastIcaBalanceChangeHeight
  totalLsmShares : s'.totalLsmShares = s.totalLsmShares
  pendingLsmShares : s'.pendingLsmShares = s.pendingLsmShares
  lsmSharesToRedeem : s'.lsmSharesToRedeem = s.lsmSharesToRedeem

/-- The cascade leaves alone what a tick leaves alone. -/
theorem CascadeCase.frame {t : Storage} {config : Config}
    (h : CascadeCase t q env info config s' msgs) (hframe : TickFrame s t) : TickFrame s s' := by
  obtain ⟨h₁, h₂, h₃, h₄, h₅, h₆, h₇, h₈, h₉, h₁₀⟩ := hframe
  cases h <;> exact ⟨h₁, h₂, h₃, h₄, h₅, h₆, h₇, h₈, h₉, h₁₀⟩

/-- **A tick leaves** the configuration, the shares and the height of the last change **alone**. -/
theorem TickCase.frame (h : TickCase s q env info s' msgs) : TickFrame s s' := by
  cases h with
  | idleInterval => constructor <;> rfl
  | idleClaim t transfer validators _ hprepared =>
    cases hprepared
    constructor <;> rfl
  | idleCascade t u transfer validators _ _ hprepared hvalidators hcascade =>
    cases hprepared
    have hframe : TickFrame s u := hcascade.frame (by constructor <;> rfl)
    obtain ⟨h₁, h₂, h₃, h₄, h₅, h₆, h₇, h₈, h₉, h₁₀⟩ := hframe
    exact ⟨h₁, h₂, h₃, h₄, h₅, h₆, h₇, h₈, h₉, h₁₀⟩
  | claiming _ _ _ _ _ _ _ _ hcascade => exact hcascade.frame (by constructor <;> rfl)
  | transfering _ _ _ _ _ hcascade => exact hcascade.frame (by constructor <;> rfl)
  | staking _ _ _ _ _ _ hcascade => exact hcascade.frame (by constructor <;> rfl)
  | unbondingSuccess => constructor <;> rfl
  | unbondingFailed => constructor <;> rfl

/-! ## The ticks of one state -/

/-- A tick of `Claiming` goes through the cascade with the paid batches withdrawn. -/
theorem TickCase.of_claiming (h : TickCase s q env info s' msgs) (hstate : s.fsmState = .claiming) :
    ∃ r batches emergency, s.lastPuppeteerResponse = some r ∧
      (∀ id, batches.load id =
        if id ∈ r.paidBatches then (s.unbondBatches.load id).map (UnbondBatch.withdrawn emergency)
        else s.unbondBatches.load id) ∧
      CascadeCase { s with lastPuppeteerResponse := none, unbondBatches := batches } q env info
        s.config s' msgs ∧
      (s'.fsmState = .transfering ∨ q.balance s.config.baseDenom = 0) := by
  cases h with
  | claiming r batches emergency t _ _ hresponse hload hcascade hdrained =>
    exact ⟨r, batches, emergency, hresponse, hload, hcascade, hdrained⟩
  | idleInterval _ _ hidle => simp [hstate] at hidle
  | idleClaim _ _ _ hidle => simp [hstate] at hidle
  | idleCascade _ _ _ _ _ hidle => simp [hstate] at hidle
  | transfering _ _ _ htransfering => simp [hstate] at htransfering
  | staking _ _ _ hstaking => simp [hstate] at hstaking
  | unbondingSuccess _ _ _ _ _ _ hunbonding => simp [hstate] at hunbonding
  | unbondingFailed _ _ _ _ _ _ _ hunbonding => simp [hstate] at hunbonding

/-- A tick of `Transfering` consumes the response and ends in the cascade. -/
theorem TickCase.of_transfering (h : TickCase s q env info s' msgs)
    (hstate : s.fsmState = .transfering) :
    ∃ r, s.lastPuppeteerResponse = some r ∧
      CascadeCase { s with lastPuppeteerResponse := none } q env info s.config s' msgs := by
  cases h with
  | transfering r _ _ _ hresponse hcascade => exact ⟨r, hresponse, hcascade⟩
  | idleInterval _ _ hidle => simp [hstate] at hidle
  | idleClaim _ _ _ hidle => simp [hstate] at hidle
  | idleCascade _ _ _ _ _ hidle => simp [hstate] at hidle
  | claiming _ _ _ _ _ hclaiming => simp [hstate] at hclaiming
  | staking _ _ _ hstaking => simp [hstate] at hstaking
  | unbondingSuccess _ _ _ _ _ _ hunbonding => simp [hstate] at hunbonding
  | unbondingFailed _ _ _ _ _ _ _ hunbonding => simp [hstate] at hunbonding

/-- A tick of `Staking` goes through the cascade after a success. -/
theorem TickCase.of_staking (h : TickCase s q env info s' msgs) (hstate : s.fsmState = .staking) :
    ∃ r, s.lastPuppeteerResponse = some r ∧ r.isError = false ∧
      CascadeCase { s with lastPuppeteerResponse := none } q env info s.config s' msgs := by
  cases h with
  | staking r _ _ _ hresponse hsuccess hcascade => exact ⟨r, hresponse, hsuccess, hcascade⟩
  | idleInterval _ _ hidle => simp [hstate] at hidle
  | idleClaim _ _ _ hidle => simp [hstate] at hidle
  | idleCascade _ _ _ _ _ hidle => simp [hstate] at hidle
  | claiming _ _ _ _ _ hclaiming => simp [hstate] at hclaiming
  | transfering _ _ _ htransfering => simp [hstate] at htransfering
  | unbondingSuccess _ _ _ _ _ _ hunbonding => simp [hstate] at hunbonding
  | unbondingFailed _ _ _ _ _ _ _ hunbonding => simp [hstate] at hunbonding

/-- A tick of `Unbonding` goes back to `Idle`, sends nothing and collects no fee; after a success,
the release of the batch can be computed. -/
theorem TickCase.of_unbonding (h : TickCase s q env info s' msgs)
    (hstate : s.fsmState = .unbonding) :
    ∃ r, s.lastPuppeteerResponse = some r ∧ s'.fsmState = .idle ∧
      s'.collectedFees = s.collectedFees ∧ msgs = [] ∧
      (r.isError = false → env.time.seconds + s.config.unbondingPeriod < U64.bound) := by
  cases h with
  | unbondingSuccess _ _ _ _ _ _ _ hresponse _ hfit =>
    exact ⟨_, hresponse, rfl, rfl, rfl, fun _ => hfit⟩
  | unbondingFailed _ _ _ _ _ _ _ _ hresponse =>
    refine ⟨_, hresponse, rfl, rfl, rfl, fun hsuccess => ?_⟩
    cases hsuccess
  | idleInterval _ _ hidle => simp [hstate] at hidle
  | idleClaim _ _ _ hidle => simp [hstate] at hidle
  | idleCascade _ _ _ _ _ hidle => simp [hstate] at hidle
  | claiming _ _ _ _ _ hclaiming => simp [hstate] at hclaiming
  | transfering _ _ _ htransfering => simp [hstate] at htransfering
  | staking _ _ _ hstaking => simp [hstate] at hstaking

end Tick

end Core

end DropContracts
