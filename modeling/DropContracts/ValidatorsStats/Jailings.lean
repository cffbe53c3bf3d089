import DropContracts.ValidatorsStats.Contract

set_option relaxedAutoImplicit false
set_option autoImplicit false

/-!
# Jailings

The state of a validator holds the flag of its last profile, and counts how often the flag became
true. Profiles are only processed once the query for the signing infos is registered; the handlers
of both results load and save whole states.

## Main definitions

* `ValidatorsStats.rises` — the changes from false to true in a list of flags.
* `ValidatorsStats.observed` — the flags of the profiles that are processed in a run.

## Main results

* `ValidatorsStats.step_counted` — what each step does to the numbers and the flags.
* `ValidatorsStats.jailings_of_run` — the numbers and the flags in every state of every run.
-/

namespace DropContracts

namespace ValidatorsStats

open Exec

/-! ## Changes of a flag -/

/-- The number of changes from false to true in a list of flags after the given one. -/
def rises : Bool → List Bool → ℕ
  | _, [] => 0
  | flag, next :: flags => (if flag = false ∧ next = true then 1 else 0) + rises next flags

/-- One more flag. -/
theorem rises_append (flag next : Bool) (flags : List Bool) :
    rises flag (flags ++ [next]) =
      rises flag flags + if flags.getLast?.getD flag = false ∧ next = true then 1 else 0 := by
  induction flags generalizing flag with
  | nil => exact Nat.add_comm _ _
  | cons first flags ih =>
    have hlast : (first :: flags).getLast?.getD flag = flags.getLast?.getD first := by
      cases flags with
      | nil => rfl
      | cons second flags => simp [List.getLast?_cons]
    rw [List.cons_append, rises, ih first, hlast, rises, Nat.add_assoc]

/-- The flags of one address. -/
def flagsOf (address : String) (log : List (String × Bool)) : List Bool :=
  (log.filter (·.1 = address)).map Prod.snd

/-- The flags of one address in two logs. -/
theorem flagsOf_append (address : String) (log new : List (String × Bool)) :
    flagsOf address (log ++ new) = flagsOf address log ++ flagsOf address new := by
  simp [flagsOf]

/-- The flags of one address, if the new ones are of others. -/
theorem flagsOf_append_of_ne {address : String} {log new : List (String × Bool)}
    (hnew : ∀ entry ∈ new, entry.1 ≠ address) :
    flagsOf address (log ++ new) = flagsOf address log := by
  have hnone : new.filter (·.1 = address) = [] :=
    List.filter_eq_nil_iff.2 fun entry hentry => by simpa using hnew entry hentry
  rw [flagsOf_append, flagsOf, flagsOf, hnone, List.map_nil, List.append_nil]

/-! ## The states of the validators -/

section States

variable {κ : Type} {lib : Library κ} {s s' : Storage} {env : Env} {height : ℕ}
  {stateMap : StorageMap String ValidatorState} {log : List (String × Bool)}

/-- The flag of a profile, with the address of its validator. -/
def flagOf (validator : Validator) : String × Bool := (validator.operatorAddress, validator.jailed)

/-- The flags of the profiles that a step processes, at the end of the log. -/
def observed (lib : Library κ) (log : List (String × Bool)) (s : Storage) (a : Action κ)
    (_ : Storage) : List (String × Bool) :=
  log ++ (profiles lib s a).map flagOf

/-- The states count the changes of the flags in a log and hold the last ones. -/
structure Counted (log : List (String × Bool)) (stateMap : StorageMap String ValidatorState) :
    Prop where
  number : ∀ address, (getValidatorState stateMap address).jailedNumber =
    some (rises false (flagsOf address log))
  flag : ∀ address, (getValidatorState stateMap address).prevJailedState =
    (flagsOf address log).getLast?.getD false
  unobserved : ∀ address, stateMap.load address = none → flagsOf address log = []

/-- The state that is read after another one was saved. -/
theorem getValidatorState_save (stateMap : StorageMap String ValidatorState)
    (address address' : String) (state : ValidatorState) :
    getValidatorState (stateMap.save address state) address' =
      if address' = address then state else getValidatorState stateMap address' := by
  unfold getValidatorState
  rw [StorageMap.load_save]
  split_ifs <;> rfl

/-- One profile. -/
theorem Counted.profile {validator : Validator} {stateMap' : StorageMap String ValidatorState}
    (hs : Counted log stateMap)
    (h : validatorInfoRound env height stateMap validator = .ok stateMap') :
    Counted (log ++ [flagOf validator]) stateMap' := by
  simp only [validatorInfoRound, bind_eq_ok, pure_eq_ok, Except.ok.injEq] at h
  obtain ⟨state, hstate, rfl⟩ := h
  obtain ⟨-, -, hflag, hnumber⟩ := updateProfile_cases hstate
  have hself : flagsOf validator.operatorAddress (log ++ [flagOf validator]) =
      flagsOf validator.operatorAddress log ++ [validator.jailed] := by
    simp [flagsOf, flagOf]
  have hother : ∀ address, address ≠ validator.operatorAddress →
      flagsOf address (log ++ [flagOf validator]) = flagsOf address log := by
    intro address hne
    refine flagsOf_append_of_ne fun entry hentry => ?_
    rw [List.mem_singleton.1 hentry]
    exact hne.symm
  refine ⟨fun address => ?_, fun address => ?_, fun address hnone => ?_⟩
  · rw [getValidatorState_save]
    split_ifs with haddress
    · rw [haddress, hself, rises_append, hnumber, hs.number, hs.flag]
      split_ifs
      · rfl
      · rfl
    · rw [hother address haddress, hs.number]
  · rw [getValidatorState_save]
    split_ifs with haddress
    · rw [haddress, hself, hflag]
      simp
    · rw [hother address haddress, hs.flag]
  · rw [StorageMap.load_save] at hnone
    split_ifs at hnone with haddress
    rw [hother address haddress]
    exact hs.unobserved address hnone

/-- The profiles of a result.

**Proof sketch.** Induction on the profiles: each one adds its flag to the log. -/
theorem Counted.profiles {validators : List Validator}
    {stateMap' : StorageMap String ValidatorState} (hs : Counted log stateMap)
    (h : validators.foldlM (validatorInfoRound env height) stateMap = .ok stateMap') :
    Counted (log ++ validators.map flagOf) stateMap' := by
  induction validators generalizing log stateMap with
  | nil =>
    rw [← Except.ok.inj h, List.map_nil, List.append_nil]
    exact hs
  | cons validator validators ih =>
    obtain ⟨next, hround, hrest⟩ := bind_eq_ok.1 h
    rw [List.map_cons, List.append_cons]
    exact ih (hs.profile hround) hrest

/-- A state is saved with the flag and the number that it had. -/
theorem Counted.save {address : String} {state : ValidatorState} (hs : Counted log stateMap)
    (hnumber : state.jailedNumber = (getValidatorState stateMap address).jailedNumber)
    (hflag : state.prevJailedState = (getValidatorState stateMap address).prevJailedState) :
    Counted log (stateMap.save address state) := by
  refine ⟨fun address' => ?_, fun address' => ?_, fun address' hnone => ?_⟩
  · rw [getValidatorState_save]
    split_ifs with haddress
    · rw [hnumber, haddress, hs.number]
    · exact hs.number address'
  · rw [getValidatorState_save]
    split_ifs with haddress
    · rw [hflag, haddress, hs.flag]
    · exact hs.flag address'
  · rw [StorageMap.load_save] at hnone
    split_ifs at hnone
    exact hs.unobserved address' hnone

/-- The signing infos change no flag and no number. -/
theorem Counted.signingInfos {infos : List ValidatorSigningInfo} (hs : Counted log s.stateMap)
    (h : infos.foldlM (signingInfoRound env height) s = .ok s') : Counted log s'.stateMap := by
  refine loop_preserves (P := fun s => Counted log s.stateMap) ?_ h hs
  intro s info s' hround hs
  cases hload : s.valconsToValoper.load info.address with
  | none =>
    rw [signingInfoRound_of_none hload] at hround
    rw [← Except.ok.inj hround]
    exact hs
  | some address =>
    obtain ⟨_, _, _, _, -, -, -, rfl⟩ := (signingInfoRound_of_load hload).1 hround
    exact hs.save rfl rfl

/-- **What each step does to the numbers and the flags.** -/
theorem step_counted {a : Action κ} (h : Step lib s a s') (hs : Counted log s.stateMap) :
    Counted (observed lib log s a s') s'.stateMap := by
  unfold observed
  cases step_cases h with
  | other hprofiles _ _ hstates =>
    rw [hprofiles, hstates, List.map_nil, List.append_nil]
    exact hs
  | profiles env height _ _ hrounds => exact hs.profiles hrounds
  | signingInfos env result infos hprofiles _ _ hrounds =>
    rw [hprofiles, List.map_nil, List.append_nil]
    exact hs.signingInfos hrounds

/-- A new contract has observed nothing. -/
theorem Initial.counted (h : Initial lib s) : Counted [] s.stateMap := by
  rw [h.empty.2]
  exact ⟨fun _ => rfl, fun _ => rfl, fun _ _ => rfl⟩

/-- The numbers and the flags of a run. -/
theorem counted_of_run {s₀ : Storage} (hinit : Initial lib s₀)
    (hrun : Run (Recorded (Step lib) (observed lib)) (s₀, []) (s, log)) :
    Counted log s.stateMap := by
  refine hrun.preserves (P := fun x => Counted x.2 x.1.stateMap) ?_ hinit.counted
  rintro ⟨s, log⟩ a ⟨s', log'⟩ - ⟨hstep, hlog⟩ hs
  simp only at hlog
  subst hlog
  exact step_counted hstep hs

/-- **Jailings are counted exactly**: in every state of every run of a new contract, each stored
state counts how often the flag of its validator changed from false, or from not being observed, to
true in the profiles that were processed, and holds the last flag. A validator without a state was
never observed. A step that processes no profile of a validator leaves its number and its flag.

**Proof sketch.** Each step is one of three cases: it processes nothing, and changes no state; or it
processes profiles, each of which adds its flag to the log and updates the one state in the same
way; or it processes signing infos, which save states with the flag and the number that they had. -/
theorem jailings_of_run {s₀ : Storage} (hinit : Initial lib s₀)
    (hrun : Run (Recorded (Step lib) (observed lib)) (s₀, []) (s, log)) (address : String) :
    (∀ state, s.stateMap.load address = some state →
        state.jailedNumber = some (rises false (flagsOf address log)) ∧
          state.prevJailedState = (flagsOf address log).getLast?.getD false) ∧
      (s.stateMap.load address = none → flagsOf address log = []) ∧
      ∀ a s', Step lib s a s' →
        (∀ validator ∈ profiles lib s a, validator.operatorAddress ≠ address) →
          (getValidatorState s'.stateMap address).jailedNumber =
              (getValidatorState s.stateMap address).jailedNumber ∧
            (getValidatorState s'.stateMap address).prevJailedState =
              (getValidatorState s.stateMap address).prevJailedState := by
  have hs := counted_of_run hinit hrun
  refine ⟨fun state hload => ?_, hs.unobserved address, fun a s' hstep hothers => ?_⟩
  · have hget : getValidatorState s.stateMap address = state := by
      simp [getValidatorState, hload]
    rw [← hget]
    exact ⟨hs.number address, hs.flag address⟩
  · have hs' := step_counted hstep hs
    have hflags : flagsOf address (observed lib log s a s') = flagsOf address log := by
      refine flagsOf_append_of_ne fun entry hentry => ?_
      obtain ⟨validator, hvalidator, rfl⟩ := List.mem_map.1 hentry
      exact hothers validator hvalidator
    rw [hs'.number, hs'.flag, hflags, hs.number, hs.flag]
    exact ⟨rfl, rfl⟩

/-- One evaluated step with the flags of its profiles. -/
def recordedFlags (lib : Library κ) (x : Storage × List (String × Bool)) (a : Action κ) :
    Option (Storage × List (String × Bool)) :=
  (act lib x.1 a).map fun s => (s, observed lib x.2 x.1 a s)

/-- The validator of the sample is jailed twice, with a signing info in between. -/
theorem jailings_of_run_sample :
    ∃ (s : Storage) (log : List (String × Bool)) (state : ValidatorState),
      flagsOf sampleOperator log = [false, true, true, false, true] ∧
      s.stateMap.load sampleOperator = some state ∧ state.jailedNumber = some 2 ∧
      state.prevJailedState = true := by
  have hrun : ((runList (recordedFlags sampleLibrary) (fun _ _ => true) (sampleStart, [])
      (sampleSetup ++ [sampleProfile false, sampleProfile true,
        sampleSigning 1700000000 100 1, sampleProfile true, sampleProfile false,
        sampleProfile true])).map fun x =>
          (flagsOf sampleOperator x.2, (x.1.stateMap.load sampleOperator).isSome)) =
      some ([false, true, true, false, true], true) := rfl
  obtain ⟨⟨s, log⟩, hlist, hvalues⟩ := Option.map_eq_some_iff.1 hrun
  simp only [Prod.mk.injEq] at hvalues
  obtain ⟨hflags, hsome⟩ := hvalues
  obtain ⟨state, hload⟩ := Option.isSome_iff_exists.1 hsome
  have hreached : Run (Recorded (Step sampleLibrary) (observed sampleLibrary)) (sampleStart, [])
      (s, log) :=
    runList_eq_some (fun _ _ _ hstep => Recorded.of_map (fun _ _ _ h => h) hstep)
      (fun _ _ _ _ => trivial) hlist
  obtain ⟨hcounted, -⟩ := jailings_of_run sampleStart_initial hreached sampleOperator
  obtain ⟨hnumber, hflag⟩ := hcounted state hload
  rw [hflags] at hnumber hflag
  exact ⟨s, log, state, hflags, hload, hnumber, hflag⟩

end States

end ValidatorsStats

end DropContracts
