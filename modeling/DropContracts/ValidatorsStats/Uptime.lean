import DropContracts.ValidatorsStats.History

set_option relaxedAutoImplicit false
set_option autoImplicit false

/-!
# Uptimes

The uptime of a validator is one minus the percentage of missed blocks. The counter of each record
is itself a count over the signing window of the remote chain, and the counters of all the records
are added, so the percentage can exceed one; the subtraction then aborts the call.

## Main definitions

* `ValidatorsStats.Fits` — the counters of a validator fit the blocks of the records.

## Main results

* `ValidatorsStats.rounds_return_iff` — when the infos of a result are all processed.
* `ValidatorsStats.uptime_of_run` — the stored uptimes are fractions, and when the next result does
  not abort.
-/

namespace DropContracts

namespace ValidatorsStats

open Exec

variable {κ : Type} {lib : Library κ} {s s' : Storage} {env : Env} {height : ℕ}

/-! ## When an info is processed -/

/-- The counters fit the records that the info of `missed` reads, after the infos of `before`: with
a history the clock has run for 30 days, the sum of the counters of the validator fits 64 bits, and
it is at most the number of blocks since the first record, up to what a decimal rounds away. -/
structure Fits (history : List MissedBlocks) (height now : ℕ)
    (before : List ValidatorMissedBlocksForPeriod) (missed : ValidatorMissedBlocksForPeriod) :
    Prop where
  period : history = [] ∧ before = [] ∨ historyPeriod ≤ now
  total : missedSum (recordsFor history height now (before ++ [missed])) missed.address < U64.bound
  blocks : blocksSince (recordsFor history height now (before ++ [missed])) height = 0 ∨
    (missedSum (recordsFor history height now (before ++ [missed])) missed.address -
        blocksSince (recordsFor history height now (before ++ [missed])) height) *
      Decimal.fractional < blocksSince (recordsFor history height now (before ++ [missed])) height

/-- An info after another fits the history that the other leaves. -/
theorem fits_recordsFor {history : List MissedBlocks} {now : ℕ}
    {first missed : ValidatorMissedBlocksForPeriod}
    {before : List ValidatorMissedBlocksForPeriod} :
    Fits (recordsFor history height now [first]) height now before missed ↔
      Fits history height now (first :: before) missed := by
  have hrecords : recordsFor (recordsFor history height now [first]) height now
      (before ++ [missed]) = recordsFor history height now (first :: before ++ [missed]) :=
    recordsFor_append _ _ _ _ _
  have hne : recordsFor history height now [first] ≠ [] := by simp [recordsFor]
  constructor
  · rintro ⟨hperiod, htotal, hblocks⟩
    rw [hrecords] at htotal hblocks
    exact ⟨.inr (hperiod.resolve_left fun hnone => hne hnone.1), htotal, hblocks⟩
  · rintro ⟨hperiod, htotal, hblocks⟩
    rw [← hrecords] at htotal hblocks
    exact ⟨.inr (hperiod.resolve_left fun hnone => List.cons_ne_nil _ _ hnone.2), htotal, hblocks⟩

/-- The heights of the history after some infos. -/
theorem recordsFor_heights {history : List MissedBlocks} {now : ℕ}
    (hheights : ∀ record ∈ history, record.remoteHeight ≤ height)
    (missed : List ValidatorMissedBlocksForPeriod) :
    ∀ record ∈ recordsFor history height now missed, record.remoteHeight ≤ height := by
  intro record hrecord
  rcases List.mem_append.1 hrecord with hold | hnew
  · exact hheights record ((Window.evict_suffix _ _).subset hold)
  · obtain ⟨m, -, rfl⟩ := List.mem_map.1 hnew
    exact le_rfl

/-- The first info of a known validator is processed exactly when it fits. -/
theorem signingInfoRound_returns_iff {info : ValidatorSigningInfo} {address : String}
    (hload : s.valconsToValoper.load info.address = some address)
    (hheights : ∀ record ∈ s.missedBlocks, record.remoteHeight ≤ height) :
    (∃ s', signingInfoRound env height s info = .ok s') ↔
      Fits s.missedBlocks height env.time.seconds []
        ⟨address, asU64 info.missedBlocksCounter⟩ := by
  have hbase : (Window.evict (expired env.time.seconds) 1 s.missedBlocks).head?.elim height
      MissedBlocks.remoteHeight ≤ height := by
    cases hhead : (Window.evict (expired env.time.seconds) 1 s.missedBlocks).head? with
    | none => exact le_rfl
    | some first =>
      exact hheights first ((Window.evict_suffix _ _).subset (List.mem_of_head? hhead))
  rw [signingInfoRound_iff hload]
  simp only [Decimal.ratio_le_one_iff]
  constructor
  · rintro ⟨hperiod, -, htotal, hblocks⟩
    exact ⟨hperiod.imp_left fun hnone => ⟨hnone, rfl⟩, htotal, hblocks⟩
  · rintro ⟨hperiod, htotal, hblocks⟩
    exact ⟨hperiod.imp_left And.left, hbase, htotal, hblocks⟩

/-- **The infos of a result are all processed** exactly when each of them fits the records that it
reads.

**Proof sketch.** Induction on the infos. The first one is processed exactly when it fits, and the
others then fit the history that it leaves exactly when they fit the history together with it. -/
theorem rounds_return_iff {infos : List ValidatorSigningInfo}
    (hheights : ∀ record ∈ s.missedBlocks, record.remoteHeight ≤ height) :
    (∃ s', infos.foldlM (signingInfoRound env height) s = .ok s') ↔
      ∀ before missed, before ++ [missed] <+: known s infos →
        Fits s.missedBlocks height env.time.seconds before missed := by
  induction infos generalizing s with
  | nil => simp [known, pure_eq_ok]
  | cons info infos ih =>
    rw [known_cons]
    simp only [List.foldlM_cons, bind_eq_ok]
    cases hload : s.valconsToValoper.load info.address with
    | none =>
      have hknown : known s [info] = [] := by simp [known, hload]
      rw [hknown, List.nil_append, ← ih hheights]
      simp only [signingInfoRound_of_none hload, Except.ok.injEq, exists_eq_left']
    | some address =>
      have hknown : known s [info] = [⟨address, asU64 info.missedBlocksCounter⟩] := by
        simp [known, hload]
      have hrest : ∀ next, signingInfoRound env height s info = .ok next →
          ((∃ s', infos.foldlM (signingInfoRound env height) next = .ok s') ↔
            ∀ before missed, before ++ [missed] <+: known s infos →
              Fits s.missedBlocks height env.time.seconds
                (⟨address, asU64 info.missedBlocksCounter⟩ :: before) missed) := by
        intro next hround
        obtain ⟨hhistory, hvalcons⟩ := signingInfoRound_history hround
        rw [hknown] at hhistory
        rw [ih (by rw [hhistory]; exact recordsFor_heights hheights _), known_congr hvalcons]
        simp only [hhistory, fits_recordsFor]
      rw [hknown]
      constructor
      · rintro ⟨s', next, hround, hnext⟩ before missed hprefix
        obtain ⟨rfl, rfl⟩ | ⟨after, rfl, hafter⟩ := append_singleton_prefix_cons.1 hprefix
        · exact (signingInfoRound_returns_iff hload hheights).1 ⟨next, hround⟩
        · exact (hrest next hround).1 ⟨s', hnext⟩ after missed hafter
      · intro hfits
        obtain ⟨next, hround⟩ := (signingInfoRound_returns_iff hload hheights).2
          (hfits [] _ (List.prefix_append _ _))
        obtain ⟨s', hnext⟩ := (hrest next hround).2 fun before missed hprefix =>
          hfits _ missed (append_singleton_prefix_cons.2 (.inr ⟨before, rfl, hprefix⟩))
        exact ⟨s', next, hround, hnext⟩

/-- A round fails only by an abort. -/
theorem signingInfoRound_abort {info : ValidatorSigningInfo} {e : Fault NeutronError}
    (h : signingInfoRound env height s info = .error e) : e = .abort := by
  cases hload : s.valconsToValoper.load info.address with
  | none =>
    rw [signingInfoRound_of_none hload] at h
    cases h
  | some address =>
    simp only [signingInfoRound, hload, bind_eq_error, Decimal.sub_eq_error, pure_eq_ok,
      reduceCtorEq, and_false, exists_false, or_false] at h
    obtain hexpired | ⟨history, -, hpercent | ⟨_, -, -, rfl⟩⟩ := h
    · cases hhistory : s.missedBlocks with
      | nil => simp [removeExpired, hhistory] at hexpired
      | cons first rest =>
        simp only [removeExpired, hhistory, bind_eq_error, checkedSub_eq_error] at hexpired
        obtain ⟨-, rfl⟩ | ⟨_, -, hreturn⟩ := hexpired
        · rfl
        · cases hreturn
    · simp only [calucalateMissedBlocksPercent, bind_eq_error, checkedSub_eq_error,
        checkedSum_eq_error U64.bound_pos, checkedAdd_eq_error] at hpercent
      obtain ⟨-, rfl⟩ | ⟨_, -, ⟨-, rfl⟩ | ⟨_, -, ⟨-, rfl⟩ | ⟨_, -, hratio⟩⟩⟩ := hpercent
      · rfl
      · rfl
      · rfl
      · split_ifs at hratio
        · cases hratio
        · simp only [bind_eq_error, Decimal.fromRatio_eq_error] at hratio
          obtain ⟨-, rfl⟩ | ⟨_, -, hreturn⟩ := hratio
          · rfl
          · cases hreturn
    · rfl

/-! ## Runs -/

section Runs

variable {s₀ : Storage} {last₀ last : ℕ}

/-- An uptime that is not above one. -/
def IsFraction (_address : String) (state : ValidatorState) : Prop :=
  state.uptime.atomics ≤ Decimal.fractional

/-- No update of a state makes its uptime exceed one. -/
theorem kept_isFraction : Kept IsFraction where
  new _ := Nat.zero_le _
  profile env height validator state state' h hstate := by
    show state'.uptime.atomics ≤ _
    rw [(updateProfile_cases h).2.1]
    exact hstate
  signing _ _ _ _ _ huptime _ := huptime

/-- **Uptimes are fractions, and when the next one is computed**: in every run of a new contract in
which the remote heights of the signing infos do not decrease, every stored uptime is at most one,
and the next result does not abort exactly when each of its infos fits the records that it reads.

**Proof sketch.** The heights of the history are in the order of the results, so no difference of
heights is negative. An uptime is one minus something, so it is at most one when it is stored. -/
theorem uptime_of_run (hinit : Initial lib s₀)
    (hrun : RunWhere (Recorded (Step lib) (lastOf remoteHeight)) (InOrder remoteHeight)
      (s₀, last₀) (s, last)) :
    AllStates IsFraction s.stateMap ∧
      ∀ env result infos, last ≤ remoteHeight (env, result) →
        lib.reconstructSigningInfos result.kvResults = .ok infos →
          (sudoSigningInfo lib s env result ≠ .error .abort ↔
            ∀ before missed, before ++ [missed] <+: known s infos →
              Fits s.missedBlocks result.height env.time.seconds before missed) := by
  refine ⟨states_of_run kept_isFraction hinit hrun.forget, ?_⟩
  intro env result infos horder hinfos
  have hsorted : Sorted MissedBlocks.remoteHeight s.missedBlocks last :=
    history_of_run (fun _ _ _ => rfl) hinit hrun
  have hheights : ∀ record ∈ s.missedBlocks, record.remoteHeight ≤ result.height :=
    fun record hrecord => (hsorted.le_last record hrecord).trans horder
  have hreturns : (∃ next, infos.foldlM (signingInfoRound env result.height) s = .ok next) ↔ _ :=
    rounds_return_iff hheights
  rw [← hreturns]
  have hcall : sudoSigningInfo lib s env result =
      infos.foldlM (signingInfoRound env result.height) s >>= fun s => pure (s, []) := by
    simp [sudoSigningInfo, hinfos, ofLibrary]
  rw [hcall]
  cases hrounds : infos.foldlM (signingInfoRound env result.height) s with
  | ok next => simp
  | error e =>
    obtain ⟨_, _, hround⟩ := loop_error hrounds
    rw [signingInfoRound_abort hround]
    simp

/-- **Two samples of a validator that missed half of its window**: the counters of two results, one
block apart, are added, and the second result aborts. -/
theorem repeated_counter_aborts :
    ∃ s lastHeight lastTime,
      Initial sampleLibrary sampleStart ∧
      RunWhere (Recorded (Step sampleLibrary) (lastOf remoteHeight)) (InOrder remoteHeight)
        (sampleStart, 0) (s, lastHeight) ∧
      RunWhere (Recorded (Step sampleLibrary) (lastOf blockTime)) (InOrder blockTime)
        (sampleStart, 0) (s, lastTime) ∧
      lastHeight ≤ 101 ∧ lastTime ≤ 1700000005 ∧
      sudoSigningInfo sampleLibrary s (sampleEnv 1700000005) (sampleInfos 101 50) =
        .error .abort := by
  have hrun : ((runList (recorded sampleLibrary remoteHeight) (inOrder remoteHeight)
      (sampleStart, 0) (sampleSetup ++ [sampleSigning 1700000000 100 50])).map fun x =>
        (x.2, sudoSigningInfo sampleLibrary x.1 (sampleEnv 1700000005) (sampleInfos 101 50))) =
      some (100, .error .abort) := rfl
  obtain ⟨⟨s, lastHeight⟩, hlist, hvalues⟩ := Option.map_eq_some_iff.1 hrun
  simp only [Prod.mk.injEq] at hvalues
  obtain ⟨rfl, hcall⟩ := hvalues
  have hsame : (runList (recorded sampleLibrary blockTime) (inOrder blockTime) (sampleStart, 0)
      (sampleSetup ++ [sampleSigning 1700000000 100 50])) =
        (runList (recorded sampleLibrary remoteHeight) (inOrder remoteHeight) (sampleStart, 0)
          (sampleSetup ++ [sampleSigning 1700000000 100 50])).map fun x =>
            (x.1, 1700000000) := rfl
  rw [hlist] at hsame
  exact ⟨s, 100, 1700000000, sampleStart_initial, run_of_runList hlist, run_of_runList hsame,
    by decide, by decide, hcall⟩

/-- With 100 blocks between the two results the counters fit. -/
theorem uptime_of_run_sample :
    ∃ s, AllStates IsFraction s.stateMap ∧ s.missedBlocks.length = 1 ∧
      sudoSigningInfo sampleLibrary s (sampleEnv 1700000500) (sampleInfos 200 50) ≠
        .error .abort := by
  have hrun : ((runList (recorded sampleLibrary remoteHeight) (inOrder remoteHeight)
      (sampleStart, 0) (sampleSetup ++ [sampleSigning 1700000000 100 50])).map fun x =>
        (x.2, x.1.missedBlocks,
          known x.1 [⟨"cosmosvalcons1ve584t0cv27hwmy0cx9ca8uwyqyfw9y90lquj6", false, 50⟩])) =
      some (100, [⟨100, 1700000000, [⟨sampleOperator, 50⟩]⟩], [⟨sampleOperator, 50⟩]) := rfl
  obtain ⟨⟨s, last⟩, hlist, hvalues⟩ := Option.map_eq_some_iff.1 hrun
  simp only [Prod.mk.injEq] at hvalues
  obtain ⟨rfl, hhistory, hknown⟩ := hvalues
  obtain ⟨hall, hnext⟩ := uptime_of_run sampleStart_initial (run_of_runList hlist)
  refine ⟨s, hall, by rw [hhistory]; rfl, ?_⟩
  refine (hnext (sampleEnv 1700000500) (sampleInfos 200 50) _ (by decide) rfl).2 ?_
  intro before missed hprefix
  rw [hknown] at hprefix
  obtain ⟨rfl, rfl⟩ | ⟨after, -, hafter⟩ := append_singleton_prefix_cons.1 hprefix
  · rw [hhistory]
    exact ⟨.inr (by decide), by decide, .inr (by decide)⟩
  · simp at hafter

end Runs

end ValidatorsStats

end DropContracts
