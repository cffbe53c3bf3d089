import DropContracts.Base.Window
import DropContracts.ValidatorsStats.Contract

set_option relaxedAutoImplicit false
set_option autoImplicit false

/-!
# The history of missed blocks

Each signing info of a known validator adds a record to the history, and its uptime is computed from
all the records that the history then has: from the first one, whose height is the base, and from
those that hold the validator. A record expires after 30 days, but an info removes only the first
one.

## Main definitions

* `ValidatorsStats.known`, `ValidatorsStats.recordsFor` — the infos of known validators, and the
  history after some of them.
* `ValidatorsStats.uptimesComputed` — the uptimes that a call computes.
* `ValidatorsStats.InOrder` — the results come in an order.

## Main results

* `ValidatorsStats.rounds_history` — the history after a result.
* `ValidatorsStats.history_of_run` — the history is in the order of the results.
* `ValidatorsStats.uptimes_recent_iff` — when every uptime is of the last 30 days.
-/

namespace DropContracts

namespace ValidatorsStats

open Exec

variable {κ : Type} {lib : Library κ} {s s' : Storage} {env : Env}

/-! ## One info -/

/-- A record of 30 days ago or older. -/
def expired (now : ℕ) (record : MissedBlocks) : Bool := record.timestamp + historyPeriod ≤ now

/-- The record of one validator. -/
def recordAt (height now : ℕ) (missed : ValidatorMissedBlocksForPeriod) : MissedBlocks :=
  ⟨height, now, [missed]⟩

/-- The blocks that a validator missed by the counters of some records. -/
def missedSum (records : List MissedBlocks) (address : String) : ℕ :=
  (((records.flatMap MissedBlocks.validators).filter (·.address = address)).map
    ValidatorMissedBlocksForPeriod.missedBlocks).sum

/-- The blocks since the first of some records. -/
def blocksSince (records : List MissedBlocks) (height : ℕ) : ℕ :=
  height - records.head?.elim height MissedBlocks.remoteHeight

/-- The counters of two histories together. -/
theorem missedSum_append (records new : List MissedBlocks) (address : String) :
    missedSum (records ++ new) address = missedSum records address + missedSum new address := by
  simp [missedSum]

/-- The counter of a record of one validator. -/
theorem missedSum_recordAt (height now : ℕ) (missed : ValidatorMissedBlocksForPeriod) :
    missedSum [recordAt height now missed] missed.address = missed.missedBlocks := by
  simp [missedSum, recordAt]

/-- The base of a history with a new record is that of the history, or the new height. -/
theorem blocksSince_append (records : List MissedBlocks) (height now : ℕ)
    (missed : ValidatorMissedBlocksForPeriod) :
    blocksSince (records ++ [recordAt height now missed]) height =
      height - records.head?.elim height MissedBlocks.remoteHeight := by
  cases records <;> rfl

/-- The first record goes if it has expired. -/
theorem removeExpired_eq_ok {records rest : List MissedBlocks} {now : ℕ} :
    removeExpired records now = .ok rest ↔
      (records = [] ∨ historyPeriod ≤ now) ∧ rest = Window.evict (expired now) 1 records := by
  cases records with
  | nil => simp [removeExpired, Window.evict, eq_comm]
  | cons first records =>
    simp only [removeExpired, bind_eq_ok, checkedSub_eq_ok, pure_eq_ok, Except.ok.injEq,
      reduceCtorEq, false_or]
    constructor
    · rintro ⟨limit, hlimit, rfl⟩
      refine ⟨by omega, ?_⟩
      have hexpired : first.timestamp ≤ limit ↔ expired now first = true := by
        simp only [expired, decide_eq_true_eq]
        omega
      by_cases hfirst : first.timestamp ≤ limit
      · simp [Window.evict, hfirst, hexpired.1 hfirst]
      · simp [Window.evict, hfirst, mt hexpired.2 hfirst]
    · rintro ⟨hnow, rfl⟩
      refine ⟨now - historyPeriod, by omega, ?_⟩
      have hexpired : first.timestamp ≤ now - historyPeriod ↔ expired now first = true := by
        simp only [expired, decide_eq_true_eq]
        omega
      by_cases hfirst : first.timestamp ≤ now - historyPeriod
      · simp [Window.evict, hfirst, hexpired.1 hfirst]
      · simp [Window.evict, hfirst, mt hexpired.2 hfirst]

/-- **The percentage** of a validator is of the counters that the records hold for it, in the blocks
since the first of them; the new record is one of them.

**Proof sketch.** The base of an empty history is the height of the new record. Without blocks the
quotient is zero, like the percentage. A quotient of a 64-bit integer always fits. -/
theorem calucalateMissedBlocksPercent_eq_ok {history : List MissedBlocks} {height now counter : ℕ}
    {address : String} {record : MissedBlocks} {percent : Decimal} :
    calucalateMissedBlocksPercent history ⟨height, now, []⟩ address counter =
        .ok (record, percent) ↔
      history.head?.elim height MissedBlocks.remoteHeight ≤ height ∧
        record = recordAt height now ⟨address, counter⟩ ∧
        missedSum (history ++ [record]) address < U64.bound ∧
        percent.atomics = missedSum (history ++ [record]) address * Decimal.fractional /
          blocksSince (history ++ [record]) height := by
  have hrecord : (⟨height, now, [] ++ [⟨address, counter⟩]⟩ : MissedBlocks) =
      recordAt height now ⟨address, counter⟩ := rfl
  have hblocks := blocksSince_append history height now ⟨address, counter⟩
  have hsum : missedSum (history ++ [recordAt height now ⟨address, counter⟩]) address =
      missedSum history address + counter := by
    rw [missedSum_append]
    exact congrArg _ (missedSum_recordAt height now ⟨address, counter⟩)
  simp only [calucalateMissedBlocksPercent, bind_eq_ok, checkedSub_eq_ok,
    checkedSum_eq_ok U64.bound_pos, checkedAdd_eq_ok, hrecord]
  constructor
  · rintro ⟨blocks, hblocks', sum, ⟨hcounters, -⟩, total, ⟨htotal, hlt⟩, h⟩
    have htotal' : missedSum history address + counter = total := by
      rw [← htotal, ← hcounters]
      rfl
    have hdiff : height - history.head?.elim height MissedBlocks.remoteHeight = blocks := by omega
    split_ifs at h with hzero
    · simp only [pure_eq_ok, Except.ok.injEq, Prod.mk.injEq] at h
      obtain ⟨rfl, rfl⟩ := h
      rw [hsum, hblocks, htotal', hdiff, hzero, Nat.div_zero]
      exact ⟨by omega, rfl, hlt, rfl⟩
    · simp only [bind_eq_ok, Decimal.fromRatio_eq_ok, pure_eq_ok, Except.ok.injEq,
        Prod.mk.injEq] at h
      obtain ⟨_, ⟨-, hpercent, -⟩, rfl, rfl⟩ := h
      rw [hsum, hblocks, htotal', hdiff]
      exact ⟨by omega, rfl, hlt, hpercent.symm⟩
  · rintro ⟨hbase, rfl, hlt, hpercent⟩
    rw [hsum] at hlt hpercent
    rw [hblocks] at hpercent
    refine ⟨height - history.head?.elim height MissedBlocks.remoteHeight, by omega,
      missedSum history address, ⟨rfl, by omega⟩, missedSum history address + counter,
      ⟨rfl, hlt⟩, ?_⟩
    split_ifs with hzero
    · rw [hzero, Nat.div_zero] at hpercent
      have hpercent' : percent = Decimal.zero := by
        rw [Decimal.zero, ← hpercent]
      rw [hpercent']
      rfl
    · exact bind_eq_ok.2 ⟨percent,
        Decimal.fromRatio_eq_ok.2 ⟨hzero, hpercent.symm, hpercent ▸ Decimal.ratio_lt_of_u64 hlt _⟩,
        rfl⟩

/-! ## The infos of a result -/

section Rounds

variable {height : ℕ} {infos : List ValidatorSigningInfo}

/-- The counters of the known validators among the infos of a result. -/
def known (s : Storage) (infos : List ValidatorSigningInfo) :
    List ValidatorMissedBlocksForPeriod :=
  infos.filterMap fun info =>
    (s.valconsToValoper.load info.address).map (⟨·, asU64 info.missedBlocksCounter⟩)

/-- The history after the infos of some known validators: each removes the first record if that has
expired, and adds its own. -/
def recordsFor (history : List MissedBlocks) (height now : ℕ)
    (missed : List ValidatorMissedBlocksForPeriod) : List MissedBlocks :=
  Window.evict (expired now) missed.length history ++ missed.map (recordAt height now)

/-- A new record has not expired. -/
theorem expired_recordAt (height now : ℕ) (missed : ValidatorMissedBlocksForPeriod) :
    expired now (recordAt height now missed) = false := by
  simp [expired, recordAt, historyPeriod]

/-- The new records of some infos have not expired. -/
theorem not_expired_records (height now : ℕ) (missed : List ValidatorMissedBlocksForPeriod) :
    ∀ record ∈ missed.map (recordAt height now), expired now record = false := by
  intro record hrecord
  obtain ⟨m, -, rfl⟩ := List.mem_map.1 hrecord
  exact expired_recordAt height now m

/-- The history after the infos is the window into which their records have slid. -/
theorem recordsFor_eq_foldl (history : List MissedBlocks) (height now : ℕ)
    (missed : List ValidatorMissedBlocksForPeriod) :
    recordsFor history height now missed =
      (missed.map (recordAt height now)).foldl (Window.slide (expired now)) history := by
  rw [Window.foldl_slide (not_expired_records height now missed), List.length_map]
  rfl

/-- Some infos after others. -/
theorem recordsFor_append (history : List MissedBlocks) (height now : ℕ)
    (missed missed' : List ValidatorMissedBlocksForPeriod) :
    recordsFor (recordsFor history height now missed) height now missed' =
      recordsFor history height now (missed ++ missed') := by
  simp only [recordsFor_eq_foldl, List.map_append, List.foldl_append]

/-- What the round of a known validator does: it returns exactly when the clock has run for 30 days
if there is a history, the heights are in order, the counters fit 64 bits, and the percentage is at
most one. -/
theorem signingInfoRound_iff {info : ValidatorSigningInfo} {address : String}
    (hload : s.valconsToValoper.load info.address = some address) :
    (∃ s', signingInfoRound env height s info = .ok s') ↔
      let missed := ⟨address, asU64 info.missedBlocksCounter⟩
      let records := recordsFor s.missedBlocks height env.time.seconds [missed]
      (s.missedBlocks = [] ∨ historyPeriod ≤ env.time.seconds) ∧
        (Window.evict (expired env.time.seconds) 1 s.missedBlocks).head?.elim height
          MissedBlocks.remoteHeight ≤ height ∧
        missedSum records address < U64.bound ∧
        missedSum records address * Decimal.fractional / blocksSince records height ≤
          Decimal.fractional := by
  simp only [signingInfoRound_of_load hload, removeExpired_eq_ok,
    calucalateMissedBlocksPercent_eq_ok]
  constructor
  · rintro ⟨s', _, _, percent, uptime, ⟨hnow, rfl⟩, ⟨hbase, rfl, hsum, hpercent⟩, huptime, -⟩
    have hle : percent.atomics ≤ Decimal.fractional := by omega
    rw [hpercent] at hle
    exact ⟨hnow, hbase, hsum, hle⟩
  · rintro ⟨hnow, hbase, hsum, hpercent⟩
    exact ⟨_, _, _, ⟨_⟩, ⟨_⟩, ⟨hnow, rfl⟩, ⟨hbase, rfl, hsum, rfl⟩, Nat.add_sub_of_le hpercent,
      rfl⟩

/-- **The history after one info.** -/
theorem signingInfoRound_history {info : ValidatorSigningInfo}
    (h : signingInfoRound env height s info = .ok s') :
    s'.missedBlocks = recordsFor s.missedBlocks height env.time.seconds (known s [info]) ∧
      s'.valconsToValoper = s.valconsToValoper := by
  cases hload : s.valconsToValoper.load info.address with
  | none =>
    rw [signingInfoRound_of_none hload] at h
    rw [← Except.ok.inj h]
    simp [known, hload, recordsFor, Window.evict]
  | some address =>
    obtain ⟨history, record, _, _, hhistory, hpercent, -, rfl⟩ :=
      (signingInfoRound_of_load hload).1 h
    rw [(removeExpired_eq_ok.1 hhistory).2, (calucalateMissedBlocksPercent_eq_ok.1 hpercent).2.1]
    simp [known, hload, recordsFor]

/-- The known validators are those of each info. -/
theorem known_cons (s : Storage) (info : ValidatorSigningInfo)
    (infos : List ValidatorSigningInfo) :
    known s (info :: infos) = known s [info] ++ known s infos := by
  rw [known, known, known, ← List.filterMap_append]
  rfl

/-- The known validators are told by the saved addresses. -/
theorem known_congr (h : s'.valconsToValoper = s.valconsToValoper) : known s' = known s := by
  unfold known
  rw [h]

/-- **The history after a result**: all its infos have added their records. -/
theorem rounds_history (h : infos.foldlM (signingInfoRound env height) s = .ok s') :
    s'.missedBlocks = recordsFor s.missedBlocks height env.time.seconds (known s infos) := by
  induction infos generalizing s with
  | nil =>
    rw [← Except.ok.inj h]
    simp [known, recordsFor, Window.evict]
  | cons info infos ih =>
    obtain ⟨next, hround, hrest⟩ := bind_eq_ok.1 h
    obtain ⟨hhistory, hknown⟩ := signingInfoRound_history hround
    rw [ih hrest, hhistory, known_congr hknown, recordsFor_append, ← known_cons]

end Rounds

/-! ## What an uptime is computed from -/

section Readings

variable {height : ℕ} {infos : List ValidatorSigningInfo}

/-- An uptime that is computed: the validator, and all the records of the history then. -/
structure Reading where
  address : String
  records : List MissedBlocks

/-- A record contributes to an uptime if it is the first one, whose height is the base, or holds a
counter of the validator. -/
def Reading.Contributes (reading : Reading) (record : MissedBlocks) : Prop :=
  reading.records.head? = some record ∨
    record ∈ reading.records ∧ ∃ missed ∈ record.validators, missed.address = reading.address

/-- The uptime that the round of one info computes, if it computes one. -/
def uptimeComputed (env : Env) (height : ℕ) (s : Storage) (info : ValidatorSigningInfo) :
    Option Reading := do
  let address ← s.valconsToValoper.load info.address
  let allMissedBlocks ← (removeExpired s.missedBlocks env.time.seconds).toOption
  let (missedBlocks, _) ← (calucalateMissedBlocksPercent allMissedBlocks
    ⟨height, env.time.seconds, []⟩ address (asU64 info.missedBlocksCounter)).toOption
  return ⟨address, allMissedBlocks ++ [missedBlocks]⟩

/-- The uptimes that the rounds of a call compute. -/
def uptimesComputed (env : Env) (height : ℕ) : Storage → List ValidatorSigningInfo → List Reading
  | _, [] => []
  | s, info :: infos =>
    match signingInfoRound env height s info with
    | .error _ => []
    | .ok next => (uptimeComputed env height s info).toList ++ uptimesComputed env height next infos

/-- The uptime of a known validator is computed from the history that the round leaves. -/
theorem uptimeComputed_of_load {info : ValidatorSigningInfo} {address : String}
    (hload : s.valconsToValoper.load info.address = some address)
    (h : signingInfoRound env height s info = .ok s') :
    uptimeComputed env height s info = some ⟨address, s'.missedBlocks⟩ := by
  obtain ⟨history, record, percent, _, hhistory, hpercent, -, rfl⟩ :=
    (signingInfoRound_of_load hload).1 h
  simp [uptimeComputed, hload, hhistory, hpercent, Except.toOption]

/-- The first counters of a list that starts with another. -/
theorem append_singleton_prefix_cons {α : Type} {a b : α} {before l : List α} :
    before ++ [b] <+: a :: l ↔
      before = [] ∧ b = a ∨ ∃ rest, before = a :: rest ∧ rest ++ [b] <+: l := by
  cases before with
  | nil => simp
  | cons c before => simp [List.cons_append, List.cons_prefix_cons, and_comm, eq_comm]

/-- **The uptimes that a call computes**: one for each info of a known validator, from the history
after the infos up to it. -/
theorem mem_uptimesComputed (h : infos.foldlM (signingInfoRound env height) s = .ok s')
    {reading : Reading} :
    reading ∈ uptimesComputed env height s infos ↔
      ∃ before missed, before ++ [missed] <+: known s infos ∧
        reading = ⟨missed.address,
          recordsFor s.missedBlocks height env.time.seconds (before ++ [missed])⟩ := by
  induction infos generalizing s with
  | nil => simp [uptimesComputed, known]
  | cons info infos ih =>
    obtain ⟨next, hround, hrest⟩ := bind_eq_ok.1 h
    obtain ⟨hhistory, hvalcons⟩ := signingInfoRound_history hround
    rw [known_cons]
    cases hload : s.valconsToValoper.load info.address with
    | none =>
      rw [signingInfoRound_of_none hload] at hround
      obtain rfl := Except.ok.inj hround
      have hcomputed : uptimesComputed env height s (info :: infos) =
          uptimesComputed env height s infos := by
        simp [uptimesComputed, signingInfoRound_of_none hload, uptimeComputed, hload]
      have hknown : known s [info] = [] := by simp [known, hload]
      rw [hcomputed, hknown, List.nil_append]
      exact ih hrest
    | some address =>
      have hknown : known s [info] = [⟨address, asU64 info.missedBlocksCounter⟩] := by
        simp [known, hload]
      have hcomputed : uptimesComputed env height s (info :: infos) =
          ⟨address, next.missedBlocks⟩ :: uptimesComputed env height next infos := by
        simp [uptimesComputed, hround, uptimeComputed_of_load hload hround]
      rw [hcomputed, List.mem_cons, ih hrest, hhistory, hknown, known_congr hvalcons]
      constructor
      · rintro (rfl | ⟨before, missed, hprefix, rfl⟩)
        · exact ⟨[], _, List.prefix_append _ _, rfl⟩
        · refine ⟨_ :: before, missed, append_singleton_prefix_cons.2 (.inr ⟨_, rfl, hprefix⟩), ?_⟩
          rw [recordsFor_append]
          rfl
      · rintro ⟨before, missed, hprefix, rfl⟩
        obtain ⟨rfl, rfl⟩ | ⟨after, rfl, hafter⟩ := append_singleton_prefix_cons.1 hprefix
        · exact .inl rfl
        · refine .inr ⟨after, missed, hafter, ?_⟩
          rw [recordsFor_append]
          rfl

end Readings

/-! ## Results in an order -/

section Order

variable {s₀ : Storage} {last₀ last : ℕ} {measure : Env × QueryResult κ → ℕ}
  {field : MissedBlocks → ℕ}

/-- The remote height of a result of the signing infos. -/
def remoteHeight (r : Env × QueryResult κ) : ℕ := r.2.height

/-- The time of the block in which a result of the signing infos is processed. -/
def blockTime (r : Env × QueryResult κ) : ℕ := r.1.time.seconds

/-- The measure of the last result of the signing infos. -/
def lastOf (measure : Env × QueryResult κ → ℕ) (last : ℕ) (s : Storage) (a : Action κ)
    (_ : Storage) : ℕ :=
  (signingResult s a).elim last measure

/-- The measure of a result of the signing infos is not below that of the last one. -/
def InOrder (measure : Env × QueryResult κ → ℕ) (x : Storage × ℕ) (a : Action κ) : Prop :=
  ∀ r ∈ signingResult x.1 a, x.2 ≤ measure r

/-- A history that is in the order of the results, the last of which measures `last`. -/
structure Sorted (field : MissedBlocks → ℕ) (history : List MissedBlocks) (last : ℕ) : Prop where
  pairwise : history.Pairwise fun a b => field a ≤ field b
  le_last : ∀ record ∈ history, field record ≤ last

/-- One more result. -/
theorem Sorted.recordsFor {history : List MissedBlocks} (h : Sorted field history last)
    {height now next : ℕ} (hnext : last ≤ next)
    (hfield : ∀ missed, field (recordAt height now missed) = next)
    (missed : List ValidatorMissedBlocksForPeriod) :
    Sorted field (recordsFor history height now missed) next := by
  have hnew : ∀ record ∈ missed.map (recordAt height now), field record = next := by
    intro record hrecord
    obtain ⟨m, -, rfl⟩ := List.mem_map.1 hrecord
    exact hfield m
  have hsuffix : Window.evict (expired now) missed.length history <:+ history :=
    Window.evict_suffix _ _
  have hold : ∀ record ∈ Window.evict (expired now) missed.length history, field record ≤ next :=
    fun record hrecord => (h.le_last record (hsuffix.subset hrecord)).trans hnext
  constructor
  · refine List.pairwise_append.2 ⟨h.pairwise.sublist hsuffix.sublist, ?_, ?_⟩
    · exact List.pairwise_of_forall_mem_list fun a ha b hb => by rw [hnew a ha, hnew b hb]
    · intro a ha b hb
      rw [hnew b hb]
      exact hold a ha
  · intro record hrecord
    rcases List.mem_append.1 hrecord with hrecord | hrecord
    · exact hold record hrecord
    · exact (hnew record hrecord).le

/-- **The history is in the order of the results**, in every state of every run of a new contract in
which the results come in this order. -/
theorem history_of_run
    (hfield : ∀ env result missed,
      field (recordAt result.height env.time.seconds missed) = measure (env, result))
    (hinit : Initial lib s₀)
    (hrun : RunWhere (Recorded (Step lib) (lastOf measure)) (InOrder measure) (s₀, last₀)
      (s, last)) :
    Sorted field s.missedBlocks last := by
  refine hrun.preserves (P := fun x => Sorted field x.1.missedBlocks x.2) ?_ ?_
  · rintro ⟨s, last⟩ a ⟨s', last'⟩ horder ⟨hstep, hlast⟩ hsorted
    simp only [lastOf] at hlast
    subst hlast
    show Sorted field s'.missedBlocks _
    cases step_cases hstep with
    | other _ hsigning hhistory _ =>
      rw [hsigning, hhistory]
      exact hsorted
    | profiles _ _ hsigning hhistory _ =>
      rw [hsigning, hhistory]
      exact hsorted
    | signingInfos env result infos _ hsigning _ hrounds =>
      rw [hsigning, rounds_history hrounds]
      exact hsorted.recordsFor (horder _ hsigning) (hfield env result) _
  · show Sorted field s₀.missedBlocks last₀
    rw [hinit.empty.1]
    exact ⟨List.Pairwise.nil, by simp⟩

/-- **Uptimes of the last 30 days**: in every run of a new contract in which the block times do not
decrease, the records that contribute to the uptimes of the next result are all less than 30 days
old, exactly when the result has no known validator or at most one stored record has expired.

**Proof sketch.** The history is sorted by time, so the expired records are at its front. The first
known validator removes one of them; if there is another, it is then the first record and so the
base of the uptime. With at most one, that validator removes it, and nothing expired is left for the
others. -/
theorem uptimes_recent_iff (hinit : Initial lib s₀)
    (hrun : RunWhere (Recorded (Step lib) (lastOf blockTime)) (InOrder blockTime) (s₀, last₀)
      (s, last))
    {result : QueryResult κ} {infos : List ValidatorSigningInfo} {out : Storage × List SubMsg}
    (hinfos : lib.reconstructSigningInfos result.kvResults = .ok infos)
    (hcall : sudoSigningInfo lib s env result = .ok out) :
    (∀ reading ∈ uptimesComputed env result.height s infos, ∀ record,
        reading.Contributes record → env.time.seconds < record.timestamp + historyPeriod) ↔
      known s infos = [] ∨ s.missedBlocks.countP (expired env.time.seconds) ≤ 1 := by
  have hsorted : Sorted MissedBlocks.timestamp s.missedBlocks last :=
    history_of_run (fun _ _ _ => rfl) hinit hrun
  have hfront : s.missedBlocks.Pairwise fun a b =>
      expired env.time.seconds b = true → expired env.time.seconds a = true := by
    refine hsorted.pairwise.imp fun hle hexpired => ?_
    simp only [expired, decide_eq_true_eq] at hexpired ⊢
    omega
  have hrecent : ∀ record : MissedBlocks, expired env.time.seconds record = false ↔
      env.time.seconds < record.timestamp + historyPeriod := by
    intro record
    simp [expired]
  obtain ⟨infos', hinfos', hrounds, -⟩ := sudoSigningInfo_eq_ok.1 hcall
  obtain rfl := Except.ok.inj (hinfos.symm.trans hinfos')
  simp only [mem_uptimesComputed hrounds, ← hrecent]
  constructor
  · intro h
    cases hknown : known s infos with
    | nil => exact .inl rfl
    | cons missed rest =>
      refine .inr (Window.countP_le_of_head hfront fun record hhead => ?_)
      have hprefix : [] ++ [missed] <+: known s infos := by
        rw [hknown]
        exact List.prefix_append [missed] rest
      refine h _ ⟨[], missed, hprefix, rfl⟩ record (.inl ?_)
      show (Window.evict (expired env.time.seconds) 1 s.missedBlocks ++ _).head? = some record
      rw [List.head?_append, Option.mem_def.1 hhead]
      rfl
  · rintro (hnone | hcount) reading ⟨before, missed, hprefix, rfl⟩ record hcontributes
    · rw [hnone] at hprefix
      simp at hprefix
    · have hmem : record ∈ recordsFor s.missedBlocks result.height env.time.seconds
          (before ++ [missed]) := by
        rcases hcontributes with hhead | ⟨hmem, -⟩
        · exact List.mem_of_head? hhead
        · exact hmem
      rcases List.mem_append.1 hmem with hold | hnew
      · refine Window.not_expired_of_countP_le hfront (hcount.trans ?_) record hold
        simp
      · exact not_expired_records _ _ _ record hnew

/-! ### Evaluated runs -/

/-- One evaluated step with the measure of the last result. -/
def recorded (lib : Library κ) (measure : Env × QueryResult κ → ℕ) (x : Storage × ℕ)
    (a : Action κ) : Option (Storage × ℕ) :=
  (act lib x.1 a).map fun s => (s, lastOf measure x.2 x.1 a s)

/-- `InOrder`, evaluated. -/
def inOrder (measure : Env × QueryResult κ → ℕ) (x : Storage × ℕ) (a : Action κ) : Bool :=
  (signingResult x.1 a).all fun r => x.2 ≤ measure r

/-- An evaluated list of actions is a run. -/
theorem run_of_runList {x y : Storage × ℕ} {actions : List (Action κ)}
    (h : runList (recorded lib measure) (inOrder measure) x actions = some y) :
    RunWhere (Recorded (Step lib) (lastOf measure)) (InOrder measure) x y := by
  refine runList_eq_some (fun _ _ _ hstep => Recorded.of_map (fun _ _ _ h => h) hstep) ?_ h
  intro x a _ hcheck r hr
  simpa [inOrder, Option.mem_def.1 hr] using hcheck

/-- An uptime of the sample, computed from two records that are 40 days apart. -/
def sampleReading : Reading := ⟨sampleOperator, [⟨101, 1700000001, [⟨sampleOperator, 0⟩]⟩,
  ⟨102, 1703456001, [⟨sampleOperator, 0⟩]⟩]⟩

/-- **An expired record contributes to an uptime**: two records are stored, no result comes for 40
days, and the next one removes only the first of them. -/
theorem expired_record_contributes :
    ∃ s last out,
      Initial sampleLibrary sampleStart ∧
      RunWhere (Recorded (Step sampleLibrary) (lastOf blockTime)) (InOrder blockTime)
        (sampleStart, 0) (s, last) ∧
      last ≤ 1703456001 ∧
      sudoSigningInfo sampleLibrary s (sampleEnv 1703456001) (sampleInfos 102 0) = .ok out ∧
      ∃ infos, sampleLibrary.reconstructSigningInfos (sampleInfos 102 0).kvResults = .ok infos ∧
        ∃ reading ∈ uptimesComputed (sampleEnv 1703456001) 102 s infos, ∃ record,
          reading.Contributes record ∧ record.timestamp + historyPeriod ≤ 1703456001 := by
  have hrun : ((runList (recorded sampleLibrary blockTime) (inOrder blockTime) (sampleStart, 0)
      (sampleSetup ++ [sampleSigning 1700000000 100 0, sampleSigning 1700000001 101 0])).map
        fun x => (x.2, (sudoSigningInfo sampleLibrary x.1 (sampleEnv 1703456001)
          (sampleInfos 102 0)).toOption.isSome,
          uptimesComputed (sampleEnv 1703456001) 102 x.1
            [⟨"cosmosvalcons1ve584t0cv27hwmy0cx9ca8uwyqyfw9y90lquj6", false, 0⟩])) =
      some (1700000001, true, [sampleReading]) := rfl
  obtain ⟨⟨s, last⟩, hlist, hvalues⟩ := Option.map_eq_some_iff.1 hrun
  simp only [Prod.mk.injEq] at hvalues
  obtain ⟨rfl, hcall, huptimes⟩ := hvalues
  obtain ⟨out, hout⟩ := Option.isSome_iff_exists.1 hcall
  refine ⟨s, 1700000001, out, sampleStart_initial, run_of_runList hlist, by decide,
    toOption_eq_some.1 hout, _, rfl, sampleReading, ?_,
    ⟨101, 1700000001, [⟨sampleOperator, 0⟩]⟩, .inl rfl, by decide⟩
  rw [huptimes]
  exact List.mem_singleton.2 rfl

/-- One expired record is removed by the next result. -/
theorem uptimes_recent_iff_sample :
    ∃ s infos, s.missedBlocks = [⟨100, 1700000000, [⟨sampleOperator, 0⟩]⟩] ∧
      sampleLibrary.reconstructSigningInfos (sampleInfos 102 0).kvResults = .ok infos ∧
      uptimesComputed (sampleEnv 1703456001) 102 s infos =
        [⟨sampleOperator, [⟨102, 1703456001, [⟨sampleOperator, 0⟩]⟩]⟩] ∧
      ∀ reading ∈ uptimesComputed (sampleEnv 1703456001) 102 s infos, ∀ record,
        reading.Contributes record → 1703456001 < record.timestamp + historyPeriod := by
  have hrun : ((runList (recorded sampleLibrary blockTime) (inOrder blockTime) (sampleStart, 0)
      (sampleSetup ++ [sampleSigning 1700000000 100 0])).map
        fun x => (x.1.missedBlocks, (sudoSigningInfo sampleLibrary x.1 (sampleEnv 1703456001)
          (sampleInfos 102 0)).toOption.isSome,
          uptimesComputed (sampleEnv 1703456001) 102 x.1
            [⟨"cosmosvalcons1ve584t0cv27hwmy0cx9ca8uwyqyfw9y90lquj6", false, 0⟩])) =
      some ([⟨100, 1700000000, [⟨sampleOperator, 0⟩]⟩], true,
        [⟨sampleOperator, [⟨102, 1703456001, [⟨sampleOperator, 0⟩]⟩]⟩]) := rfl
  obtain ⟨⟨s, last⟩, hlist, hvalues⟩ := Option.map_eq_some_iff.1 hrun
  simp only [Prod.mk.injEq] at hvalues
  obtain ⟨hhistory, hcall, huptimes⟩ := hvalues
  obtain ⟨out, hout⟩ := Option.isSome_iff_exists.1 hcall
  have hcount : s.missedBlocks.countP (expired (sampleEnv 1703456001).time.seconds) ≤ 1 := by
    rw [hhistory]
    decide
  exact ⟨s, _, hhistory, rfl, huptimes, (uptimes_recent_iff sampleStart_initial
    (run_of_runList hlist) rfl (toOption_eq_some.1 hout)).2 (.inr hcount)⟩

end Order

end ValidatorsStats

end DropContracts
