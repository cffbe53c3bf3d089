import DropContracts.Core.Forward
import DropContracts.Core.Refusals
import DropContracts.System.Undelegations

set_option relaxedAutoImplicit false
set_option autoImplicit false

/-!
# Batches that age out

An unbond batch is asked for only before its switch time, which is its creation time and
`unbond_batch_switch_time`. So waiting can make a batch ineligible, and from then on no tick asks
for it or for any batch after it, unless the owner changes the configuration.

## Main definitions

* `System.TickUndelegates` — a tick asks for the undelegation of a batch.
* `System.Expired` — the switch time of the next batch has come.

## Main results

* `System.tickUndelegates_iff` — when a tick asks for an undelegation.
* `System.undelegation_waits_iff` — how long a request can wait.
* `System.undelegation_missed` — it cannot wait for any time.
* `System.Expired.run` — an expired batch is never asked for.
-/

namespace DropContracts

namespace System

open Exec Sample

/-- A tick returns and asks for the undelegation of the batch `id`. -/
def TickUndelegates (s : Core.Storage) (q : Core.Querier) (env : Env) (info : MessageInfo)
    (id : ℕ) : Prop :=
  ∃ s' msgs, Core.executeTick s q env info = .ok (s', msgs) ∧
    ∃ contract items timeout replyTo funds,
      Core.CoreMsg.puppeteer contract (.undelegate items id timeout replyTo) funds ∈ msgs

/-! ## When a tick asks for an undelegation -/

section Ticks

variable {s : Core.Storage} {q : Core.Querier} {env env' : Env} {info : MessageInfo} {id : ℕ}

/-- The last part of the cascade asks for the next batch exactly when it is due. -/
theorem unbondOrIdle_undelegates_iff {config : Core.Config} (hstate : s.fsmState = .staking) :
    (∃ s' msgs, Core.unbondOrIdle s q env info config = .ok (s', msgs) ∧
        ∃ contract items timeout replyTo funds,
          Core.CoreMsg.puppeteer contract (.undelegate items id timeout replyTo) funds ∈ msgs) ↔
      id = s.nextBatchId ∧ Core.UnbondingDue s q env config := by
  constructor
  · rintro ⟨s', msgs, h, contract, items, timeout, replyTo, funds, hmem⟩
    simp only [Core.unbondOrIdle, bind_eq_ok] at h
    obtain ⟨⟨s₁, m⟩, hmsg, h⟩ := h
    cases m with
    | none =>
      simp only [bind_eq_ok, pure_eq_ok, Except.ok.injEq, Prod.mk.injEq] at h
      obtain ⟨_, -, -, rfl⟩ := h
      cases hmem
    | some m =>
      have hdue := Core.getUnbondingMsg_some_iff.1 ⟨s₁, m, hmsg⟩
      simp only [bind_eq_ok, pure_eq_ok, Except.ok.injEq, Prod.mk.injEq] at h
      obtain ⟨_, -, -, rfl⟩ := h
      obtain ⟨batch, -, ⟨-, -, hnone⟩ | ⟨-, balances, undelegations, -, -, -, hsome⟩⟩ :=
        Core.getUnbondingMsg_ok hmsg
      · cases hnone
      · rw [List.mem_singleton, Option.some.inj hsome] at hmem
        cases hmem
        exact ⟨rfl, hdue⟩
  · rintro ⟨rfl, hdue⟩
    have hsome : ∃ s₁ m, Core.getUnbondingMsg s q env config info = .ok (s₁, some m) :=
      Core.getUnbondingMsg_some_iff.2 hdue
    obtain ⟨s₁, m, hmsg⟩ := hsome
    obtain ⟨batch, -, ⟨-, -, hnone⟩ | ⟨-, balances, undelegations, -, -, hs₁, hsome⟩⟩ :=
      Core.getUnbondingMsg_ok hmsg
    · cases hnone
    · have hgo : s₁.goTo .unbonding = .ok { s₁ with fsmState := .unbonding } := by
        rw [Core.Storage.goTo_eq_ok, hs₁, Core.Storage.requestBatch, hstate]
        exact ⟨by decide, rfl⟩
      have hend : Core.unbondOrIdle s q env info config =
          .ok ({ s₁ with fsmState := .unbonding }, [m]) := by
        simp only [Core.unbondOrIdle, hmsg, ok_bind, hgo, pure_eq_ok]
      exact ⟨_, [m], hend, _, _, _, _, _, List.mem_singleton.2 (Option.some.inj hsome).symm⟩

/-- **When a tick asks for an undelegation**: in `Staking`, after a success, for the next batch,
when that is due. -/
theorem tickUndelegates_iff :
    TickUndelegates s q env info id ↔
      s.isPaused = false ∧ s.fsmState = .staking ∧
        (∃ r, s.lastPuppeteerResponse = some r ∧ r.isError = false) ∧
        id = s.nextBatchId ∧ Core.UnbondingDue s q env s.config := by
  constructor
  · rintro ⟨s', msgs, h, contract, items, timeout, replyTo, funds, hmem⟩
    obtain ⟨hpaused, hcase⟩ := Core.executeTick_ok h
    obtain rfl | ⟨msg, msgFunds, rfl⟩ := tick_messages hcase
    · cases hmem
    · rw [List.mem_singleton] at hmem
      cases hmem
      have hstate := (tick_undelegate hcase).1
      obtain ⟨r, hresponse, hsuccess, -⟩ := hcase.of_staking hstate
      rw [Core.executeTick_staking hpaused hstate hresponse hsuccess] at h
      have hdue := (unbondOrIdle_undelegates_iff (s := { s with lastPuppeteerResponse := none })
        hstate).1 ⟨s', _, h, _, _, _, _, _, List.mem_singleton_self _⟩
      exact ⟨hpaused, hstate, ⟨r, hresponse, hsuccess⟩, hdue.1, hdue.2.batch, hdue.2.balances,
        hdue.2.next⟩
  · rintro ⟨hpaused, hstate, ⟨r, hresponse, hsuccess⟩, hid, hdue⟩
    unfold TickUndelegates
    rw [Core.executeTick_staking hpaused hstate hresponse hsuccess]
    apply (unbondOrIdle_undelegates_iff (s := { s with lastPuppeteerResponse := none })
      hstate).2
    exact ⟨hid, hdue.batch, hdue.balances, hdue.next⟩

/-- **How long a request can wait.** When a tick would ask for the undelegation of the next batch,
a tick at another time, with the same storage and the same answers, asks for it exactly when that
time is before the switch time of the batch. -/
theorem undelegation_waits_iff {batch : Core.UnbondBatch}
    (hbatch : s.unbondBatches.load s.nextBatchId = some batch)
    (h : TickUndelegates s q env info s.nextBatchId) :
    TickUndelegates s q env' info s.nextBatchId ↔
      env'.time.nanos < (batch.created + s.config.unbondBatchSwitchTime) * nanosPerSecond := by
  obtain ⟨hpaused, hstate, hresponse, -, hdue⟩ := tickUndelegates_iff.1 h
  obtain ⟨batch', undelegations, hbatch', hfit, hopen, hcalc⟩ := hdue.batch
  rw [hbatch] at hbatch'
  obtain rfl := Option.some.inj hbatch'
  rw [tickUndelegates_iff]
  constructor
  · rintro ⟨-, -, -, -, hdue'⟩
    obtain ⟨batch', -, hbatch', -, hopen', -⟩ := hdue'.batch
    rw [hbatch] at hbatch'
    obtain rfl := Option.some.inj hbatch'
    exact hopen'.1
  · intro hearly
    refine ⟨hpaused, hstate, hresponse, rfl, ?_, hdue.balances, hdue.next⟩
    exact ⟨batch, undelegations, hbatch, hfit, ⟨hearly, hopen.2⟩, hcalc⟩

end Ticks

/-- A reachable state in which a tick at second 1040 asks for the undelegation of the batch that
was created at second 1000 and has 1000000 seconds. -/
theorem exists_waiting : ∃ w : World, Reachable deployment w ∧
    TickUndelegates w.core (w.querier deployment (answers members)) (w.env deployment)
      ⟨"bob", []⟩ w.core.nextBatchId ∧
    (w.core.unbondBatches.load w.core.nextBatchId).map Core.UnbondBatch.created = some 1000 ∧
    w.core.config.unbondBatchSwitchTime = 1000000 ∧ w.time = ⟨1040 * nanosPerSecond⟩ := by
  have hrun : (initial.runAll deployment (requested 1000)).any
      (fun w => ((Core.executeTick w.core (w.querier deployment (answers members))
          (w.env deployment) ⟨"bob", []⟩).toOption.any fun r => r.2.any fun msg => match msg with
        | .puppeteer _ (.undelegate _ id _ _) _ => decide (id = w.core.nextBatchId)
        | _ => false) &&
        decide ((w.core.unbondBatches.load w.core.nextBatchId).map Core.UnbondBatch.created =
            some 1000 ∧
          w.core.config.unbondBatchSwitchTime = 1000000 ∧
          w.time = ⟨1040 * nanosPerSecond⟩)) = true := by
    decide
  obtain ⟨w, hw, hcheck⟩ := (Option.any_eq_true _ _).1 hrun
  rw [Bool.and_eq_true, decide_eq_true_eq] at hcheck
  obtain ⟨htick, hdata⟩ := hcheck
  refine ⟨w, reachable_of_runAll initial_spec hw, ?_, hdata⟩
  obtain ⟨⟨s', msgs⟩, hok, hany⟩ := (Option.any_eq_true _ _).1 htick
  obtain ⟨msg, hmem, hmsg⟩ := List.any_eq_true.1 hany
  split at hmsg
  next contract items id timeout replyTo funds =>
    rw [decide_eq_true_eq] at hmsg
    subst hmsg
    exact ⟨s', msgs, toOption_eq_some.1 hok, contract, items, timeout, replyTo, funds, hmem⟩
  · cases hmsg

/-- A request of that state can wait for another hour. -/
theorem undelegation_waits_sample : ∃ w : World, Reachable deployment w ∧
    TickUndelegates w.core (w.querier deployment (answers members))
      ⟨w.height, ⟨4640 * nanosPerSecond⟩, "core"⟩ ⟨"bob", []⟩ w.core.nextBatchId := by
  obtain ⟨w, hw, htick, hcreated, hswitch, -⟩ := exists_waiting
  obtain ⟨batch, hbatch, hcreated⟩ := Option.map_eq_some_iff.1 hcreated
  refine ⟨w, hw, (undelegation_waits_iff hbatch htick).2 ?_⟩
  rw [hcreated, hswitch]
  show 4640 * nanosPerSecond < (1000 + 1000000) * nanosPerSecond
  decide

/-- **A request cannot wait for any time.** A million seconds later the switch time of the batch
has come, and the same tick does not ask for it. -/
theorem undelegation_missed : ¬ ∀ (d : Deployment) (w : World) (q : Core.Querier)
    (env env' : Env) (info : MessageInfo), Reachable d w →
      env.time.nanos ≤ env'.time.nanos →
      TickUndelegates w.core q env info w.core.nextBatchId →
      TickUndelegates w.core q env' info w.core.nextBatchId := by
  intro hall
  obtain ⟨w, hw, htick, hcreated, hswitch, htime⟩ := exists_waiting
  have hlater : (w.env deployment).time.nanos ≤ 1001040 * nanosPerSecond := by
    rw [World.env, htime]
    show 1040 * nanosPerSecond ≤ 1001040 * nanosPerSecond
    decide
  have hmissed := hall deployment w _ _ ⟨w.height, ⟨1001040 * nanosPerSecond⟩, "core"⟩ _ hw hlater
    htick
  obtain ⟨-, -, -, -, hdue⟩ := tickUndelegates_iff.1 hmissed
  obtain ⟨batch, -, hbatch, -, hopen, -⟩ := hdue.batch
  rw [hbatch, Option.map_some, Option.some.injEq] at hcreated
  have hearly : 1001040 * nanosPerSecond < _ := hopen.1
  rw [hcreated, hswitch] at hearly
  exact absurd hearly (by decide)

/-! ## Expired batches -/

section Expired

variable {d : Deployment} {w w' u : World} {id : ℕ}

/-- The next batch is `id`, its switch time has come, and no undelegation is being waited for. -/
structure Expired (w : World) (id : ℕ) : Prop where
  next : w.core.nextBatchId = id
  settled : w.core.fsmState ≠ .unbonding
  late : ∃ batch, w.core.unbondBatches.load id = some batch ∧
    (batch.created + w.core.config.unbondBatchSwitchTime) * nanosPerSecond ≤ w.time.nanos

/-- The step does not raise `unbond_batch_switch_time`. -/
def KeepsSwitchTime (d : Deployment) (w : World) (a : Action) : Prop :=
  ∀ w', Step d w a w' →
    w'.core.config.unbondBatchSwitchTime ≤ w.core.config.unbondBatchSwitchTime

/-- No tick asks for an expired batch, nor for any other. -/
theorem Expired.not_undelegates (h : Expired w id) (q : Core.Querier) (info : MessageInfo)
    (id' : ℕ) : ¬ TickUndelegates w.core q (w.env d) info id' := by
  intro htick
  obtain ⟨-, -, -, -, hdue⟩ := tickUndelegates_iff.1 htick
  obtain ⟨batch, -, hbatch, -, hopen, -⟩ := hdue.batch
  obtain ⟨batch', hbatch', hlate⟩ := h.late
  rw [h.next, hbatch'] at hbatch
  obtain rfl := Option.some.inj hbatch
  have hearly : w.time.nanos < _ := hopen.1
  omega

/-- Being expired only depends on the store, the state machine, the switch time and the clock, and
an earlier switch time does not end it. -/
theorem Expired.of_same (h : Expired w id)
    (hbatches : w'.core.unbondBatches = w.core.unbondBatches)
    (hcurrent : w'.core.unbondBatchId = w.core.unbondBatchId)
    (hfailed : w'.core.failedBatchId = w.core.failedBatchId)
    (hstate : w'.core.fsmState ≠ .unbonding)
    (hswitch : w'.core.config.unbondBatchSwitchTime ≤ w.core.config.unbondBatchSwitchTime)
    (htime : w.time.nanos ≤ w'.time.nanos) : Expired w' id := by
  obtain ⟨batch, hbatch, hlate⟩ := h.late
  refine ⟨?_, hstate, batch, by rw [hbatches]; exact hbatch, ?_⟩
  · rw [Core.Storage.nextBatchId, hcurrent, hfailed]
    exact h.next
  · calc (batch.created + w'.core.config.unbondBatchSwitchTime) * nanosPerSecond
        ≤ (batch.created + w.core.config.unbondBatchSwitchTime) * nanosPerSecond :=
          Nat.mul_le_mul_right _ (Nat.add_le_add_left hswitch _)
      _ ≤ w.time.nanos := hlate
      _ ≤ w'.time.nanos := htime

/-- A tick of a storage that is not waiting for an undelegation keeps the next batch, unless it
asks for it. -/
theorem tick_nextBatch {s s' : Core.Storage} {q : Core.Querier} {env : Env} {info : MessageInfo}
    {msgs : List Core.CoreMsg} (hcase : Core.TickCase s q env info s' msgs)
    (hstate : s.fsmState ≠ .unbonding)
    (hclosed : ∀ batch, s.unbondBatches.load s.nextBatchId = some batch →
      batch.isReady s.config env.time ≠ .ok true) :
    s'.nextBatchId = s.nextBatchId ∧ s'.fsmState ≠ .unbonding := by
  have hcascade : ∀ {t t' : Core.Storage}, Core.CascadeCase t q env info s.config t' msgs →
      t.nextBatchId = s.nextBatchId →
      (t.fsmState = .staking → t.unbondBatches = s.unbondBatches) →
      t'.nextBatchId = s.nextBatchId ∧ t'.fsmState ≠ .unbonding := by
    intro t t' hc hnext hbatches
    cases hc with
    | transfer => exact ⟨hnext, by simp⟩
    | stake => exact ⟨hnext, by simp⟩
    | unbond batch balances undelegations hstaking hbatch hready =>
      rw [hbatches hstaking, hnext] at hbatch
      exact absurd hready (hclosed batch hbatch)
    | idle => exact ⟨hnext, by simp⟩
  cases hcase with
  | idleInterval rate m hidle => exact ⟨rfl, hstate⟩
  | idleClaim t transfer validators hidle hprepared =>
    cases hprepared
    exact ⟨rfl, by simp⟩
  | idleCascade t u transfer validators _ hidle hprepared hvalidators hc =>
    have hnext : t.nextBatchId = s.nextBatchId := by
      cases hprepared
      rfl
    have hclaiming : t.fsmState = .staking → t.unbondBatches = s.unbondBatches := by
      intro hstaking
      rw [fsmState_idlePrepared hprepared] at hstaking
      cases hstaking
    obtain ⟨hkept, hsettled⟩ := hcascade hc hnext hclaiming
    exact ⟨hkept, hsettled⟩
  | claiming r batches emergency _ _ hclaiming hresponse hload hc =>
    refine hcascade hc rfl fun hstaking => ?_
    change s.fsmState = .staking at hstaking
    rw [hclaiming] at hstaking
    cases hstaking
  | transfering r _ _ _ _ hc => exact hcascade hc rfl fun _ => rfl
  | staking r _ _ _ _ _ hc => exact hcascade hc rfl fun _ => rfl
  | unbondingSuccess _ _ _ _ _ _ hunbonding => exact absurd hunbonding hstate
  | unbondingFailed _ _ _ _ _ _ _ hunbonding => exact absurd hunbonding hstate

/-- A tick keeps an expired batch expired. -/
theorem Expired.tick (h : Expired w id) (hpayout : PayoutInv w) {q : Core.Querier}
    {info : MessageInfo} {msgs : List Core.CoreMsg}
    (hcase : Core.TickCase w.core q (w.env d) info w'.core msgs) (htime : w'.time = w.time) :
    Expired w' id := by
  obtain ⟨batch, hbatch, hlate⟩ := h.late
  have hclosed : ∀ batch, w.core.unbondBatches.load w.core.nextBatchId = some batch →
      batch.isReady w.core.config (w.env d).time ≠ .ok true := by
    intro batch' hbatch' hready
    rw [h.next, hbatch] at hbatch'
    obtain rfl := Option.some.inj hbatch'
    have hearly : w.time.nanos < _ := ((Core.UnbondBatch.isReady_eq_ok.1 hready).2.1 rfl).1
    omega
  obtain ⟨hnext, hsettled⟩ := tick_nextBatch hcase h.settled hclosed
  obtain ⟨batch', hbatch', hslot⟩ := Core.tick_slot hpayout.batches hpayout.fits hcase hbatch
  have hcreated : batch'.created = batch.created := by
    cases hslot with
    | reset failedId failed hstate hfailed hid =>
      -- only the batch after the next one is started anew
      have hnext' := h.next
      rw [Core.Storage.nextBatchId, hfailed, Option.getD_some] at hnext'
      omega
    | withdrawing _ _ _ _ hsame => exact hsame.created
    | _ => rfl
  refine ⟨hnext.trans h.next, hsettled, batch', hbatch', ?_⟩
  rw [hcreated, hcase.frame.config, htime]
  exact hlate

/-- A request of the current batch leaves an expired batch expired. -/
theorem Expired.push (h : Expired w id) {batch : Core.UnbondBatch} {item : Core.UnbondItem}
    (hbatch : w.core.unbondBatches.load w.core.unbondBatchId = some batch)
    (hcore : w'.core = w.core.saveBatch w.core.unbondBatchId (batch.push item))
    (htime : w'.time = w.time) : Expired w' id := by
  obtain ⟨batch', hbatch', hlate⟩ := h.late
  refine ⟨by rw [hcore]; exact h.next, by rw [hcore]; exact h.settled, ?_⟩
  rw [hcore, Core.Storage.saveBatch, StorageMap.load_save, htime]
  split_ifs with hid
  · rw [hid, hbatch] at hbatch'
    obtain rfl := Option.some.inj hbatch'
    exact ⟨_, rfl, hlate⟩
  · exact ⟨batch', hbatch', hlate⟩

/-- **Every step that does not raise the switch time** keeps an expired batch expired. -/
theorem Expired.step {a : Action} (h : Expired w id) (hreachable : Reachable d w)
    (hkeeps : KeepsSwitchTime d w a) (hstep : Step d w a w') : Expired w' id := by
  have hpayout := payoutInv_of_reachable hreachable
  have hswitch := hkeeps w' hstep
  cases step_batches (flowInv_of_reachable hreachable) hstep with
  | quiet a _ hquiet hsame _ htime =>
    exact h.of_same hsame.unbondBatches hsame.unbondBatchId hsame.failedBatchId
      (by rw [hsame.fsmState]; exact h.settled) hswitch htime
  | unbond answers sender funds batch item _ hbatch hcore _ _ htime =>
    exact h.push hbatch hcore htime
  | tick answers sender funds bank _ htick _ htime =>
    exact h.tick hpayout (Core.executeTick_ok htick).2 htime
  | tickSubmit answers sender funds bank contract msg msgFunds p _ htick _ htime =>
    exact h.tick hpayout (Core.executeTick_ok htick).2 htime
  | accepted outcome p _ hmem hhook _ htime =>
    refine h.of_same hhook.unbondBatches hhook.unbondBatchId hhook.failedBatchId ?_ hswitch
      (by rw [htime])
    rw [hhook.fsmState]
    split_ifs
    · simp
    · exact h.settled

/-- **An expired batch is never asked for**, nor is any batch after it, in any run that does
not raise the switch time. -/
theorem Expired.run (h : Expired w id) (hreachable : Reachable d w)
    (hrun : RunWhere (Step d) (KeepsSwitchTime d) w u) (q : Core.Querier) (info : MessageInfo)
    (id' : ℕ) :
    Expired u id ∧ ¬ TickUndelegates u.core q (u.env d) info id' := by
  have hexpired : Expired u id := by
    refine hreachable.preserves (P := fun t => Expired t id) hrun ?_ h
    intro s a t hs hkeeps hstep hexp
    exact hexp.step hs hkeeps hstep
  exact ⟨hexpired, hexpired.not_undelegates q info id'⟩

end Expired

end System

end DropContracts
