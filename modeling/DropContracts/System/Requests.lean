import DropContracts.System.BatchInvariant
import DropContracts.System.Scenario

set_option relaxedAutoImplicit false
set_option autoImplicit false

/-!
# The requests of the users

A request for unbonding is an item of a batch, and the voucher minted for it says which. The items
of a batch are only ever extended, with one exception: when a failed batch is asked for again, a
new batch is put into the slot after it, and that slot is the current batch, which may hold
requests by then.

## Main definitions

* `System.RequestsKept` — every batch still has its items, in their order.
* `System.World.RetriesOver`, `System.KeepsRequests` — the ticks that wipe a batch out, and the
  steps that are no such tick.
* `System.UnbondKept` — the item of an unbond, for which a voucher was minted, is still there.

## Main results

* `System.requestsKept_step_iff` — a step keeps the requests exactly when it is no such tick.
* `System.unbond_kept` — along runs without such ticks no request is lost.
* `System.unbond_lost` — along other runs one can be.
-/

namespace DropContracts

namespace System

/-! ## What has to be kept -/

/-- Every batch of `w` has in `w'` the items it had, possibly followed by more. -/
def RequestsKept (w w' : World) : Prop :=
  ∀ id b, w.core.unbondBatches.load id = some b →
    ∃ b', w'.core.unbondBatches.load id = some b' ∧ b.unbondItems <+: b'.unbondItems

/-- The unbond of `sender` between `w` and `w'` has minted a voucher for a request of a batch, and
in `u` that batch holds the request. -/
def UnbondKept (w w' u : World) (sender : String) : Prop :=
  ∃ id tokenId amount expectedAmount batch,
    w'.vouchers = w.vouchers ++ [⟨tokenId, sender, ⟨toString id, amount, expectedAmount⟩⟩] ∧
    u.core.unbondBatches.load id = some batch ∧
    ⟨sender, amount, expectedAmount⟩ ∈ batch.unbondItems

/-- A tick of `Staking` would ask for the failed batch again, and the slot after it holds
requests. -/
def World.RetriesOver (w : World) : Prop :=
  w.core.fsmState = .staking ∧ ∃ failedId failed next,
    w.core.failedBatchId = some failedId ∧
    w.core.unbondBatches.load failedId = some failed ∧ failed.IsOpen w.core.config w.time ∧
    w.core.unbondBatches.load (failedId + 1) = some next ∧ next.unbondItems ≠ []

/-- A step that is no tick of this kind. -/
def KeepsRequests (w : World) : Action → Prop
  | .execute _ _ _ .tick => ¬ w.RetriesOver
  | _ => True

/-- What is kept twice is kept. -/
theorem RequestsKept.trans {w w' w'' : World} (h : RequestsKept w w')
    (h' : RequestsKept w' w'') : RequestsKept w w'' := by
  intro id b hb
  obtain ⟨b', hb', hprefix⟩ := h id b hb
  obtain ⟨b'', hb'', hprefix'⟩ := h' id b' hb'
  exact ⟨b'', hb'', hprefix.trans hprefix'⟩

/-- The same batches hold the same requests. -/
theorem RequestsKept.of_same {w w' : World}
    (h : w'.core.unbondBatches = w.core.unbondBatches) : RequestsKept w w' := by
  intro id b hb
  exact ⟨b, by rw [h, hb], List.prefix_rfl⟩

/-- One more request in the current batch keeps all requests. -/
theorem RequestsKept.push {w w' : World} {batch : Core.UnbondBatch} {item : Core.UnbondItem}
    (hbatch : w.core.unbondBatches.load w.core.unbondBatchId = some batch)
    (hcore : w'.core = w.core.saveBatch w.core.unbondBatchId (batch.push item)) :
    RequestsKept w w' := by
  intro id b hb
  by_cases hid : id = w.core.unbondBatchId
  · rw [hid, hbatch] at hb
    rw [hid, hcore, ← Option.some.inj hb]
    exact ⟨_, StorageMap.load_save_self _ _ _, List.prefix_append _ _⟩
  · refine ⟨b, ?_, List.prefix_rfl⟩
    rw [hcore, Core.Storage.saveBatch, StorageMap.load_save_of_ne _ _ hid, hb]

/-! ## Ticks -/

section Ticks

variable {d : Deployment} {w w' : World} {q : Core.Querier} {info : MessageInfo}
  {msgs : List Core.CoreMsg}

/-- A tick that is not of this kind keeps the requests. -/
theorem requestsKept_of_tick (h : PayoutInv w)
    (hcase : Core.TickCase w.core q (w.env d) info w'.core msgs) (hok : ¬ w.RetriesOver) :
    RequestsKept w w' := by
  intro id b hb
  obtain ⟨b', hb', hslot⟩ := Core.tick_slot h.batches h.fits hcase hb
  refine ⟨b', hb', ?_⟩
  cases hslot with
  | same => exact List.prefix_rfl
  | requested => exact List.prefix_rfl
  | undelegated => exact List.prefix_rfl
  | undelegateFailed => exact List.prefix_rfl
  | withdrawn => exact List.prefix_rfl
  | withdrawing _ _ _ _ hsame =>
    exact hsame.unbondItems ▸ List.prefix_rfl
  | reset failedId failed hstate hfailed hid hload hready =>
    -- the slot that is written over holds nothing, or the tick is of this kind
    by_cases hitems : b.unbondItems = []
    · rw [hitems]
      exact List.nil_prefix
    · refine absurd ⟨hstate, failedId, failed, b, hfailed, hload, ?_, hid ▸ hb, hitems⟩ hok
      exact (Core.UnbondBatch.isReady_eq_ok.1 hready).2.1 rfl

/-- A tick of this kind asks for the failed batch again. -/
theorem request_of_retriesOver {failedId : ℕ} {failed : Core.UnbondBatch}
    (hcase : Core.TickCase w.core q (w.env d) info w'.core msgs)
    (hstate : w.core.fsmState = .staking) (hfailed : w.core.failedBatchId = some failedId)
    (hload : w.core.unbondBatches.load failedId = some failed)
    (hopen : failed.IsOpen w.core.config w.time) :
    w'.core.unbondBatches.load (failedId + 1) = some (Core.newUnbond w.time.seconds) := by
  have hnext : w.core.nextBatchId = failedId := by
    rw [Core.Storage.nextBatchId, hfailed, Option.getD_some]
  obtain ⟨r, -, -, hcascade⟩ := hcase.of_staking hstate
  generalize w'.core = core at hcascade ⊢
  cases hcascade with
  | transfer hmem => simp [hstate, Core.TRANSITIONS] at hmem
  | stake _ _ _ hmem => simp [hstate, Core.TRANSITIONS] at hmem
  | idle batch hmem hbatch hready =>
    -- the failed batch is open, so the tick does not pass it over
    change w.core.unbondBatches.load w.core.nextBatchId = some batch at hbatch
    rw [hnext, hload] at hbatch
    obtain rfl := Option.some.inj hbatch
    have hnot := (Core.UnbondBatch.isReady_eq_ok.1 hready).2.2 hopen
    cases hnot
  | unbond batch balances undelegations _ hbatch hready hcalc =>
    rw [← hnext]
    exact StorageMap.load_save_self _ _ _

/-- **A tick keeps the requests exactly when it is not of this kind.** -/
theorem requestsKept_tick_iff (h : PayoutInv w)
    (hcase : Core.TickCase w.core q (w.env d) info w'.core msgs) :
    RequestsKept w w' ↔ ¬ w.RetriesOver := by
  refine ⟨?_, requestsKept_of_tick h hcase⟩
  rintro hkept ⟨hstate, failedId, failed, next, hfailed, hload, hopen, hnext, hitems⟩
  obtain ⟨b, hb, hprefix⟩ := hkept (failedId + 1) next hnext
  rw [request_of_retriesOver hcase hstate hfailed hload hopen] at hb
  rw [← Option.some.inj hb] at hprefix
  exact hitems (List.prefix_nil.1 hprefix)

end Ticks

/-! ## Steps and runs -/

section Runs

open Sample

variable {d : Deployment} {w w' u : World}

/-- An unbond adds its request to the current batch, mints a voucher for it, and keeps all other
requests. -/
theorem unbond_recorded {answers : Answers} {sender : String} {funds : List Coin}
    (hwired : Wired d w.core.config)
    (hstep : Step d w (.execute answers sender funds .unbond) w') :
    RequestsKept w w' ∧ UnbondKept w w' w' sender := by
  cases step_cases hwired hstep with
  | environment _ _ henvironment => cases henvironment
  | admin _ _ _ _ core _ hmsg => cases hmsg
  | unbond _ _ _ q bank core msgs _ _ _ hunbond hcore hvouchers =>
    obtain ⟨ldDenom, amount, batch, rate, expected, -, -, -, hbatch, -, -, hs, hmsgs⟩ :=
      Core.executeUnbond_ok hunbond
    rw [← hcore] at hs
    have hload : w'.core.unbondBatches.load w.core.unbondBatchId =
        some (batch.push ⟨sender, amount, expected⟩) := by
      rw [hs]
      exact StorageMap.load_save_self _ _ _
    refine ⟨.push hbatch hs, w.core.unbondBatchId, _, amount, expected, _,
      hvouchers _ _ _ _ _ hmsgs, hload, ?_⟩
    exact List.mem_append_right _ (List.mem_singleton_self _)

/-- **A step keeps the requests exactly when it is no tick that wipes a batch out.** -/
theorem requestsKept_step_iff {a : Action} (h : Reachable d w) (hstep : Step d w a w') :
    RequestsKept w w' ↔ KeepsRequests w a := by
  have hpayout := payoutInv_of_reachable h
  cases step_batches (flowInv_of_reachable h) hstep with
  | quiet a _ hquiet hsame =>
    refine iff_of_true (.of_same hsame.unbondBatches) ?_
    unfold KeepsRequests
    split
    · exact absurd rfl (hquiet _ _ _)
    · trivial
  | unbond answers sender funds batch item _ hbatch hcore =>
    exact iff_of_true (.push hbatch hcore) trivial
  | tick answers sender funds bank _ htick =>
    exact requestsKept_tick_iff hpayout (Core.executeTick_ok htick).2
  | tickSubmit answers sender funds bank contract msg msgFunds p _ htick =>
    exact requestsKept_tick_iff hpayout (Core.executeTick_ok htick).2
  | accepted outcome p _ hmem hhook => exact iff_of_true (.of_same hhook.unbondBatches) trivial

/-- **No request is lost along runs without ticks that wipe a batch out**: the item of every
unbond, for which a voucher was minted, stays in its batch.

**Proof sketch.** The unbond puts its item at the end of the current batch, and each later step
keeps the items of every batch as a prefix. -/
theorem unbond_kept {answers : Answers} {sender : String} {funds : List Coin}
    (h : ReachableWhere d KeepsRequests w)
    (hunbond : Step d w (.execute answers sender funds .unbond) w')
    (hrun : RunWhere (Step d) KeepsRequests w' u) :
    UnbondKept w w' u sender ∧ RequestsKept w' u := by
  have hkept : RequestsKept w' u := by
    refine (h.reachable.tail hunbond).preserves (P := RequestsKept w') hrun ?_ (.of_same rfl)
    intro s a t hs hok hstep hkept
    exact hkept.trans ((requestsKept_step_iff hs hstep).2 hok)
  refine ⟨?_, hkept⟩
  have hwired := (flowInv_of_reachable h.reachable).wired
  obtain ⟨id, tokenId, amount, expected, batch, hvouchers, hload, hmem⟩ :=
    (unbond_recorded hwired hunbond).2
  obtain ⟨batch', hload', hprefix⟩ := hkept id batch hload
  exact ⟨id, tokenId, amount, expected, batch', hvouchers, hload', hprefix.subset hmem⟩

/-- A run of the sample deployment in which the request of an unbond is kept while its batch is
handed over to the puppeteer. -/
theorem unbond_kept_sample : ∃ w w' u : World, u.core.fsmState = .unbonding ∧
    UnbondKept w w' u "alice" ∧ RequestsKept w' u := by
  have hrun : ((runList (World.exec deployment) (fun w _ => w.core.failedBatchId = none) initial
      (setup ++ [bond 1000])).bind fun w => (w.exec deployment (unbond 100)).bind fun w' =>
        (runList (World.exec deployment) (fun w _ => w.core.failedBatchId = none) w'
          [block 2 1020, tick, .deliver 1 .response, block 3 1025, remote 1000 0, tick,
            .deliver 2 .response, remote 0 1000, tick]).map fun u => (w, w', u)).any
        (fun r => decide (r.2.2.core.fsmState = .unbonding)) = true := by
    decide
  obtain ⟨⟨_, _, _⟩, hrun, hstate⟩ := (Option.any_eq_true _ _).1 hrun
  simp only [Option.bind_eq_some_iff, Option.map_eq_some_iff, Prod.mk.injEq] at hrun
  obtain ⟨w, hw, w', hw', u, hu, rfl, rfl, rfl⟩ := hrun
  have hok : ∀ (w : World) (a : Action), decide (w.core.failedBatchId = none) = true →
      KeepsRequests w a := by
    intro w a hnone
    cases a with
    | execute answers sender funds msg =>
      cases msg with
      | tick =>
        rintro ⟨-, failedId, failed, next, hfailed, -⟩
        rw [of_decide_eq_true hnone] at hfailed
        cases hfailed
      | _ => trivial
    | _ => trivial
  exact ⟨w, w', u, of_decide_eq_true hstate,
    unbond_kept ⟨initial, initial_spec, runWhere_eq_some hok hw⟩ hw' (runWhere_eq_some hok hu)⟩

/-- **A request can be lost.** The undelegation of batch 0 fails, batch 1 gets a request before
the undelegation is tried again, and the retry puts a new batch 1 over it. -/
theorem unbond_lost : ¬ ∀ (d : Deployment) (w w' u : World) (answers : Answers) (sender : String)
    (funds : List Coin), Reachable d w →
      Step d w (.execute answers sender funds .unbond) w' → Run (Step d) w' u →
        UnbondKept w w' u sender := by
  intro hall
  have hrun : ((initial.runAll deployment (setup ++ [bond 1000, unbond 100, block 2 1020, tick,
      .deliver 1 .response, block 3 1025, remote 1000 0, tick, .deliver 2 .response, tick,
      .deliver 3 (.error "failed"), tick, block 4 1030, remote 500 1000])).bind fun w =>
        (w.exec deployment (unbond 50)).bind fun w' => (w'.runAll deployment
          [block 5 1050, tickWith [], .deliver 4 .response, tick]).map fun u =>
            (w, w', u)).any
        (fun r => decide (r.2.1.vouchers = r.1.vouchers ++ [⟨"1_alice_1", "alice", "1", 50, 50⟩] ∧
          ∀ e ∈ r.2.2.core.unbondBatches.entries,
            (⟨"alice", 50, 50⟩ : Core.UnbondItem) ∉ e.2.unbondItems)) = true := by
    decide
  obtain ⟨⟨_, _, _⟩, hrun, hlost⟩ := (Option.any_eq_true _ _).1 hrun
  simp only [Option.bind_eq_some_iff, Option.map_eq_some_iff, Prod.mk.injEq] at hrun
  obtain ⟨w, hw, w', hw', u, hu, rfl, rfl, rfl⟩ := hrun
  obtain ⟨hvouchers, hnot⟩ := of_decide_eq_true hlost
  obtain ⟨id, tokenId, amount, expected, batch, hvouchers', hload, hmem⟩ :=
    hall deployment w w' u _ _ _ (reachable_of_runAll initial_spec hw) hw' (runAll_eq_some hu)
  rw [hvouchers] at hvouchers'
  simp only [List.append_cancel_left_eq, List.cons.injEq, Voucher.mk.injEq,
    Core.Metadata.mk.injEq] at hvouchers'
  obtain ⟨⟨-, -, -, rfl, rfl⟩, -⟩ := hvouchers'
  exact hnot (id, batch) (StorageMap.mem_entries.2 hload) hmem

end Runs

end System

end DropContracts
