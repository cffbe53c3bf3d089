import DropContracts.Core.IdleTick
import DropContracts.System.BatchInvariant
import DropContracts.System.Scenario

set_option relaxedAutoImplicit false
set_option autoImplicit false

/-!
# The response that a tick consumes

There is one response slot. A waiting state consumes what it finds there, and the slot is not
emptied when a waiting state is entered from `Idle`. As long as no tick leaves `Idle` while an
outcome is stored, every outcome is consumed by the state that has waited for it.

## Main definitions

* `System.FreshStart` — the steps that do not leave `Idle` with a stored response.
* `System.AnswersEntered` — a stored response is the outcome of the packet of the present state.
* `System.EnteredInv` — the invariant behind it.

## Main results

* `System.tick_enters` — where a tick with a message leaves the response slot.
* `System.response_fresh` — along runs of such steps, a waiting state finds its own outcome.
* `System.response_stale` — along other runs it may find an older one.
-/

namespace DropContracts

namespace System

section Responses

open Sample

variable {d : Deployment} {w w' : World}

/-- A step that is no tick which leaves `Idle` while a response is stored. -/
def FreshStart (d : Deployment) (w : World) : Action → Prop
  | .execute answers sender funds .tick =>
    ∀ bank, w.bank.send sender d.core funds = some bank →
      ¬ (w.core.fsmState = .idle ∧ w.core.lastPuppeteerResponse ≠ none ∧
        Core.LeavesIdle w.core (({ w with bank := bank } : World).querier d answers) (w.env d))
  | _ => True

/-- In a waiting state, a stored response is an outcome of the packet that was submitted by the
tick which entered the state. -/
def AnswersEntered (w : World) : Prop :=
  w.core.fsmState ≠ .idle → ∀ r, w.core.lastPuppeteerResponse = some r →
    ∃ p outcome, w.entered = some p ∧ r = p.outcomeMsg outcome

/-- In a waiting state, the packet that entered it is in flight and the slot is empty, or nothing
is in flight and the slot holds an outcome of that packet. -/
def EnteredInv (w : World) : Prop :=
  w.core.fsmState ≠ .idle → ∃ p, w.entered = some p ∧
    (w.inFlight = [p] ∧ w.core.lastPuppeteerResponse = none ∨
      w.inFlight = [] ∧ ∃ outcome, w.core.lastPuppeteerResponse = some (p.outcomeMsg outcome))

/-- The invariant gives the property. -/
theorem EnteredInv.answersEntered (h : EnteredInv w) : AnswersEntered w := by
  intro hstate r hr
  obtain ⟨p, hp, ⟨-, hnone⟩ | ⟨-, outcome, hresponse⟩⟩ := h hstate
  · rw [hnone] at hr
    cases hr
  · rw [hresponse] at hr
    exact ⟨p, outcome, hp, (Option.some.inj hr).symm⟩

/-! ## Ticks -/

/-- No state may be entered from itself. -/
theorem ne_of_mem_transitions {source target : Core.ContractState}
    (h : (⟨source, target⟩ : Transition Core.ContractState) ∈ Core.TRANSITIONS) :
    target ≠ source := by
  revert h
  cases source <;> cases target <;> decide

/-- A message of the cascade is sent on the way to another state. -/
theorem cascade_enters {s s' : Core.Storage} {q : Core.Querier} {env : Env} {info : MessageInfo}
    {config : Core.Config} {m : Core.CoreMsg}
    (h : Core.CascadeCase s q env info config s' [m]) :
    s'.fsmState ≠ s.fsmState ∧ s'.fsmState ≠ .claiming := by
  cases h with
  | transfer hmem => exact ⟨ne_of_mem_transitions hmem, by simp⟩
  | stake _ _ _ hmem => exact ⟨ne_of_mem_transitions hmem, by simp⟩
  | unbond batch balances undelegations hstaking => exact ⟨by simp [hstaking], by simp⟩

/-- **A tick that sends a message and does not end in `Idle`** has entered another state; it has
emptied the slot, or it has come from `Idle` and left the slot alone. -/
theorem tick_enters {s s' : Core.Storage} {q : Core.Querier} {env : Env} {info : MessageInfo}
    {m : Core.CoreMsg} (h : Core.TickCase s q env info s' [m]) (hstate' : s'.fsmState ≠ .idle) :
    s'.fsmState ≠ s.fsmState ∧ (s'.lastPuppeteerResponse = none ∨
      s.fsmState = .idle ∧ s'.lastPuppeteerResponse = s.lastPuppeteerResponse) := by
  cases h with
  | idleInterval _ _ hidle => exact absurd hidle hstate'
  | idleClaim t transfer validators hidle hprepared =>
    cases hprepared
    exact ⟨by simp [hidle], .inr ⟨hidle, rfl⟩⟩
  | idleCascade t u transfer validators _ hidle hprepared hvalidators hcascade =>
    refine ⟨by rw [hidle]; exact hstate', .inr ⟨hidle, ?_⟩⟩
    cases hprepared
    have hresponse := Core.cascade_response hcascade rfl
    exact hresponse
  | claiming _ _ _ _ _ hstate hresponse hload hcascade =>
    have hne := (cascade_enters hcascade).1
    exact ⟨hne, .inl (Core.cascade_response hcascade rfl)⟩
  | transfering _ _ _ hstate hresponse hcascade =>
    have hne := (cascade_enters hcascade).1
    exact ⟨hne, .inl (Core.cascade_response hcascade rfl)⟩
  | staking _ _ _ hstate hresponse hsuccess hcascade =>
    have hne := (cascade_enters hcascade).1
    exact ⟨hne, .inl (Core.cascade_response hcascade rfl)⟩

/-! ## The invariant -/

/-- The invariant holds right after instantiation. -/
theorem enteredInv_initial (h : Initial d w) : EnteredInv w := by
  obtain ⟨config, owner, hcore⟩ := h.core
  intro hstate
  rw [hcore] at hstate
  exact absurd rfl hstate

/-- The invariant only depends on the packets, the state machine and the response slot. -/
theorem EnteredInv.of_same (h : EnteredInv w) (hinFlight : w'.inFlight = w.inFlight)
    (hentered : w'.entered = w.entered) (hstate : w'.core.fsmState = w.core.fsmState)
    (hresponse : w'.core.lastPuppeteerResponse = w.core.lastPuppeteerResponse) :
    EnteredInv w' := by
  unfold EnteredInv
  rw [hinFlight, hentered, hstate, hresponse]
  exact h

/-- **A step that is no stale start keeps the invariant.** -/
theorem EnteredInv.step {a : Action} (h : EnteredInv w) (hflow : FlowInv d w)
    (hok : FreshStart d w a) (hstep : Step d w a w') : EnteredInv w' := by
  cases step_cases hflow.wired hstep with
  | environment _ _ henvironment hcore hsame =>
    exact h.of_same hsame.inFlight hcore.entered (by rw [hcore.core]) (by rw [hcore.core])
  | foreign _ _ _ _ _ p hsender hsub => exact absurd hsub (hflow.not_foreign hsender)
  | bond answers sender funds receiver q core msgs _ hq hbond hcore _ hentered hsame =>
    have hframe := Core.executeBond_frame hbond
    exact h.of_same hsame.inFlight hentered (by rw [hcore, hframe.fsmState])
      (by rw [hcore, hframe.lastPuppeteerResponse])
  | unbond answers sender funds q bank core msgs _ _ _ hunbond hcore _ _ _ _ hentered hsame =>
    obtain ⟨batch, item, -, hs⟩ := Core.executeUnbond_saves hunbond
    exact h.of_same hsame.inFlight hentered (by rw [hcore, hs]; rfl) (by rw [hcore, hs]; rfl)
  | admin answers sender funds msg core _ hmsg hadmin _ hwired hcore _ hentered hsame =>
    refine h.of_same hsame.inFlight hentered ?_ ?_
    · rw [hcore]
      cases hadmin <;> rfl
    · rw [hcore]
      cases hadmin <;> rfl
  | tick answers sender funds q bank core _ hbank hq htick hcore =>
    rw [← hcore] at htick
    intro hstate
    exact absurd (tick_silent (Core.executeTick_ok htick).2).1 hstate
  | tickSubmit answers sender funds q bank core msg msgFunds _ p hbank hq htick hcore _ hentered
      hsub =>
    rw [← hcore] at htick hentered
    have hcase := (Core.executeTick_ok htick).2
    intro hstate
    obtain ⟨hne, hslot⟩ := tick_enters hcase hstate
    have hinFlight := hflow.inFlight_of_submission hsub
    refine ⟨p, ?_, .inl ⟨hinFlight, ?_⟩⟩
    · rw [hentered, if_neg hne, World.submitted, hinFlight]
      simp [hsub.seq]
    · rcases hslot with hnone | ⟨hidle, hsame⟩
      · exact hnone
      · -- a tick that leaves `Idle` has found the slot empty
        rw [hsame]
        by_contra hsome
        refine hok bank hbank ⟨hidle, hsome, ?_⟩
        rw [← hq]
        exact Core.leavesIdle_of_tick hcase hidle hstate
  | accepted seq outcome p txState transaction core _ hp htx hwaiting htrans hhook hcore _
      hentered hinFlight =>
    obtain ⟨rfl, hmem, rfl⟩ := hflow.of_accepted hp htx htrans
    have hframe := Core.executePuppeteerHook_ok hhook
    intro hstate
    have hkept := hframe.fsmState
    rw [← hcore] at hkept
    split_ifs at hkept with hreset
    · exact absurd hkept hstate
    · rw [hkept] at hstate
      obtain ⟨p', hp', ⟨hmem', -⟩ | ⟨hnil, -⟩⟩ := h hstate
      · rw [hmem] at hmem'
        obtain rfl : p = p' := by simpa using hmem'
        refine ⟨p, by rw [hentered, hp'], .inr ⟨by rw [hinFlight, hmem]; simp, outcome, ?_⟩⟩
        rw [hcore, hframe.lastPuppeteerResponse]
      · rw [hmem] at hnil
        cases hnil
  | refused seq outcome p _ hp hrefused hcore =>
    obtain ⟨rfl, hmem, htx⟩ := hflow.of_find hp
    intro hstate
    rw [hcore.core] at hstate
    exact absurd (hflow.idle_of_refused hmem htx hrefused) hstate

/-- **Along runs that never leave `Idle` with a stored response**, a waiting state only finds the
outcome of the packet that was submitted by the tick which entered it. -/
theorem response_fresh (h : ReachableWhere d (FreshStart d) w) : AnswersEntered w := by
  have hinv : EnteredInv w := by
    refine h.invariant (fun w₀ hinit => enteredInv_initial hinit) ?_
    intro s a t hs hok hstep hentered
    exact hentered.step (flowInv_of_reachable hs) hok hstep
  exact hinv.answersEntered

/-- The transfer of the sample deployment has succeeded, and its outcome waits for the next
tick. -/
theorem response_fresh_sample : ∃ w : World, w.core.fsmState = .transfering ∧
    w.core.lastPuppeteerResponse ≠ none ∧ AnswersEntered w := by
  have hrun : (runList (World.exec deployment)
      (fun w _ => w.core.lastPuppeteerResponse.isNone || w.core.fsmState ≠ .idle) initial
      (setup ++ [bond 1000, block 2 1020, tick, .deliver 1 .response])).any
      (fun w => decide (w.core.fsmState = .transfering) && w.core.lastPuppeteerResponse.isSome) =
        true := by
    decide
  obtain ⟨w, hw, hcheck⟩ := (Option.any_eq_true _ _).1 hrun
  rw [Bool.and_eq_true, decide_eq_true_eq] at hcheck
  have hok : ∀ (w : World) (a : Action),
      (w.core.lastPuppeteerResponse.isNone || decide (w.core.fsmState ≠ .idle)) = true →
        FreshStart deployment w a := by
    intro w a hcheck
    cases a with
    | execute answers sender funds msg =>
      cases msg with
      | tick =>
        rintro bank - ⟨hidle, hsome, -⟩
        rw [hidle] at hcheck
        simp only [ne_eq, not_true, decide_false, Bool.or_false, Option.isNone_iff_eq_none]
          at hcheck
        exact hsome hcheck
      | _ => trivial
    | _ => trivial
  exact ⟨w, hcheck.1, Option.isSome_iff_ne_none.1 hcheck.2,
    response_fresh ⟨initial, initial_spec, runWhere_eq_some hok hw⟩⟩

/-- **A waiting state can find an older response.** The failure of an undelegation stays in the
slot when core goes back to `Idle`, and the next claim is entered with it. -/
theorem response_stale : ¬ ∀ (d : Deployment) (w : World), Reachable d w → AnswersEntered w := by
  intro hall
  have hrun : (initial.runAll deployment (setup ++ [bond 1000, unbond 100, block 2 1020, tick,
      .deliver 1 .response, block 3 1025, remote 1000 0, tick, .deliver 2 .response, tick,
      .deliver 3 (.error "failed"), tick, block 4 1040, remote 500 1000, tick])).any
      (fun w => decide (w.core.fsmState = .claiming ∧
        w.core.lastPuppeteerResponse.map ResponseHookMsg.requestId = some 3 ∧
        w.entered.map Packet.seq = some 4)) = true := by
    decide
  obtain ⟨w, hw, hcheck⟩ := (Option.any_eq_true _ _).1 hrun
  obtain ⟨hstate, hresponse, hentered⟩ := of_decide_eq_true hcheck
  obtain ⟨r, hr, hrequest⟩ := Option.map_eq_some_iff.1 hresponse
  obtain ⟨p, outcome, hp, heq⟩ := hall deployment w (reachable_of_runAll initial_spec hw)
    (by simp [hstate]) r hr
  rw [hp, Option.map_some, Option.some.injEq] at hentered
  rw [heq, outcomeMsg_requestId, hentered] at hrequest
  cases hrequest

end Responses

end System

end DropContracts
