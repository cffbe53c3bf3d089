import DropContracts.System.FlowInvariant

set_option relaxedAutoImplicit false
set_option autoImplicit false

/-!
# Fees and heights

What a tick finds in the two contracts once a transaction has been under way: the fees of the
puppeteer are set, and the height at which core noted the last success has been reached.

## Main definitions

* `System.FeesInv` — when the fees of the puppeteer are known.
* `System.World.confirms` — a step that runs the hook of a success.

## Main results

* `System.feesInv_of_reachable` — the fees are known outside of `Idle`.
* `System.step_changeHeight`, `System.changeHeight_le_of_reachable` — what a step does to the height
  of the last change, and that it is never ahead of the block.
-/

namespace DropContracts

namespace System

open Exec

section Bookkeeping

variable {d : Deployment} {w w' : World}

/-! ## The fees of the puppeteer -/

/-- The fees of the puppeteer are set together, and they are set once core has submitted a
packet. -/
structure FeesInv (w : World) : Prop where
  together : w.puppeteer.ibcFee ≠ none → w.puppeteer.registerFee ≠ none
  known : w.core.fsmState ≠ .idle → w.puppeteer.ibcFee ≠ none

/-- The fees stay known as long as no new state is entered without them. -/
theorem FeesInv.of_kept (h : FeesInv w) (hfees : FeesKept w w')
    (hknown : w'.core.fsmState ≠ .idle → w.core.fsmState ≠ .idle ∨ w.puppeteer.ibcFee ≠ none) :
    FeesInv w' := by
  have hactive : w'.core.fsmState ≠ .idle → w.puppeteer.ibcFee ≠ none := by
    intro hstate
    rcases hknown hstate with hactive | hfee
    · exact h.known hactive
    · exact hfee
  rcases hfees with ⟨hfee, hregister⟩ | ⟨hfee, hregister⟩
  · refine ⟨?_, ?_⟩
    · rw [hfee, hregister]
      exact h.together
    · rw [hfee]
      exact hactive
  · exact ⟨fun _ => hregister, fun _ => hfee⟩

/-- Every step keeps the invariant of the fees. -/
theorem FeesInv.step {a : Action} (h : FeesInv w) (hflow : FlowInv d w) (hstep : Step d w a w') :
    FeesInv w' := by
  cases step_cases hflow.wired hstep with
  | environment _ _ henvironment hcore hsame =>
    refine h.of_kept hsame.fees ?_
    rw [hcore.core]
    exact .inl
  | foreign _ _ _ _ _ p hsender hsub => exact absurd hsub (hflow.not_foreign hsender)
  | bond answers sender funds receiver q core msgs _ hq hbond hcore _ _ hsame =>
    refine h.of_kept hsame.fees ?_
    rw [hcore, (Core.executeBond_frame hbond).fsmState]
    exact .inl
  | unbond answers sender funds q bank core msgs _ _ _ hunbond hcore _ _ _ _ _ hsame =>
    obtain ⟨batch, item, -, hs⟩ := Core.executeUnbond_saves hunbond
    refine h.of_kept hsame.fees ?_
    rw [hcore, hs]
    exact .inl
  | admin answers sender funds msg core _ hmsg hadmin _ hwired hcore _ _ hsame =>
    refine h.of_kept hsame.fees ?_
    rw [hcore]
    cases hadmin <;> exact .inl
  | tick answers sender funds q bank core _ hbank hq htick hcore _ _ hsame =>
    refine h.of_kept hsame.fees fun hstate => ?_
    rw [hcore, (tick_silent (Core.executeTick_ok htick).2).1] at hstate
    exact absurd rfl hstate
  | tickSubmit answers sender funds q bank core msg msgFunds _ p hbank hq htick hcore _ _ hsub =>
    exact h.of_kept hsub.fees fun _ => .inr hsub.ibcFee
  | accepted seq outcome p txState transaction core _ hp htx hwaiting htrans hhook hcore _ _ _ _ _
      _ _ _ hfees =>
    refine h.of_kept hfees fun hstate => .inl ?_
    rw [hcore, (Core.executePuppeteerHook_ok hhook).fsmState] at hstate
    split_ifs at hstate with hreset
    · exact absurd rfl hstate
    · exact hstate
  | refused seq outcome p _ hp hrefused hcore _ hpuppeteer =>
    refine h.of_kept (.inl ⟨by rw [hpuppeteer], by rw [hpuppeteer]⟩) ?_
    rw [hcore.core]
    exact .inl

/-- Every reachable state has the invariant of the fees. -/
theorem feesInv_of_reachable (h : Reachable d w) : FeesInv w := by
  refine h.invariant ?_ ?_
  · intro w₀ hinit
    obtain ⟨config, owner, hcore⟩ := hinit.core
    obtain ⟨pconfig, hpuppeteer⟩ := hinit.puppeteer
    refine ⟨?_, ?_⟩
    · rw [hpuppeteer]
      exact fun hne => absurd rfl hne
    · rw [hcore]
      exact fun hne => absurd rfl hne
  · intro s a t hs hstep hfees
    exact hfees.step (flowInv_of_reachable hs) hstep

/-! ## The height of the last change -/

/-- A step that runs the hook of a success. -/
def World.confirms (d : Deployment) (w : World) : Action → Bool
  | .deliver seq .response => (w.inFlight.find? fun p => p.seq = seq).any fun p =>
    ((w.settle d p .response).report d seq .response).isSome
  | _ => false

/-- A success that core has accepted was reported. -/
theorem confirms_of_accepted {seq : ℕ} {p : Packet} (hstep : Step d w (.deliver seq .response) w')
    (hp : w.inFlight.find? (fun p => p.seq = seq) = some p)
    (hchanged : w'.puppeteer ≠ w.puppeteer) : w.confirms d (.deliver seq .response) = true := by
  show (w.inFlight.find? fun p => p.seq = seq).any _ = true
  rw [hp, Option.any_some]
  cases hreport : (w.settle d p .response).report d seq .response with
  | some t => rfl
  | none =>
    have hdeliver : w.deliver d seq .response = some w' := hstep
    simp only [World.deliver, hp, Option.bind_eq_bind, Option.bind_some, hreport,
      Option.getD_none, Option.some.injEq] at hdeliver
    rw [← hdeliver] at hchanged
    exact absurd rfl hchanged

/-- **What a step does to the height of the last change**: the hook of a success moves it to the
present block, and nothing else moves it. Blocks only follow each other. -/
theorem step_changeHeight {a : Action} (hflow : FlowInv d w) (hstep : Step d w a w') :
    w'.core.lastIcaBalanceChangeHeight =
        (if w.confirms d a then w.height else w.core.lastIcaBalanceChangeHeight) ∧
      w.height ≤ w'.height := by
  have hother : a.isEnvironment = true → w.confirms d a = false := by
    intro henvironment
    cases a with
    | deliver seq outcome => cases henvironment
    | _ => rfl
  cases step_cases hflow.wired hstep with
  | environment _ _ henvironment hcore hsame hheight =>
    rw [hother henvironment, hcore.core]
    exact ⟨rfl, hheight⟩
  | foreign _ _ _ _ _ p hsender hsub => exact absurd hsub (hflow.not_foreign hsender)
  | bond answers sender funds receiver q core msgs _ hq hbond hcore _ _ hsame hheight =>
    rw [hcore, (Core.executeBond_frame hbond).lastIcaBalanceChangeHeight]
    exact ⟨rfl, hheight.ge⟩
  | unbond answers sender funds q bank core msgs _ _ _ hunbond hcore _ _ _ _ _ hsame hheight =>
    obtain ⟨batch, item, -, hs⟩ := Core.executeUnbond_saves hunbond
    rw [hcore, hs]
    exact ⟨rfl, hheight.ge⟩
  | admin answers sender funds msg core _ hmsg hadmin _ hwired hcore _ _ hsame hheight =>
    rw [hcore]
    refine ⟨?_, hheight.ge⟩
    cases hadmin <;> rfl
  | tick answers sender funds q bank core _ hbank hq htick hcore _ _ hsame hheight =>
    rw [hcore, (Core.executeTick_ok htick).2.frame.lastIcaBalanceChangeHeight]
    exact ⟨rfl, hheight.ge⟩
  | tickSubmit answers sender funds q bank core msg msgFunds _ p hbank hq htick hcore _ _ hsub
      hheight =>
    rw [hcore, (Core.executeTick_ok htick).2.frame.lastIcaBalanceChangeHeight]
    exact ⟨rfl, hheight.ge⟩
  | accepted seq outcome p txState transaction core _ hp htx hwaiting htrans hhook hcore _ _ _
      hempty _ _ hheight =>
    refine ⟨?_, hheight.ge⟩
    rw [hcore, Core.hook_changeHeight hhook]
    cases outcome with
    | response =>
      have hchanged : w'.puppeteer ≠ w.puppeteer := by
        intro hsame
        rw [hsame, htx] at hempty
        rw [Option.some.inj hempty] at hwaiting
        cases hwaiting
      rw [confirms_of_accepted hstep hp hchanged]
      rfl
    | error details => rfl
    | timeout => rfl
  | refused seq outcome p _ hp hrefused hcore _ _ _ hheight =>
    refine ⟨?_, hheight.ge⟩
    rw [hcore.core]
    cases outcome with
    | response =>
      have hconfirms : w.confirms d (.deliver seq .response) = false := by
        show (w.inFlight.find? fun p => p.seq = seq).any _ = false
        rw [hp, Option.any_some, hrefused]
        rfl
      rw [hconfirms]
      rfl
    | error details => rfl
    | timeout => rfl

/-- In every reachable state, the last change has happened by now. -/
theorem changeHeight_le_of_reachable (h : Reachable d w) :
    w.core.lastIcaBalanceChangeHeight ≤ w.height := by
  refine h.invariant (P := fun w => w.core.lastIcaBalanceChangeHeight ≤ w.height) ?_ ?_
  · intro w₀ hinit
    obtain ⟨config, owner, hcore⟩ := hinit.core
    rw [hcore]
    exact Nat.zero_le _
  · intro s a t hs hstep hheight
    obtain ⟨hchange, hnext⟩ := step_changeHeight (flowInv_of_reachable hs) hstep
    rw [hchange]
    split_ifs
    · exact hnext
    · exact hheight.trans hnext

end Bookkeeping

end System

end DropContracts
