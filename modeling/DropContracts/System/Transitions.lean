import DropContracts.Core.Refusals
import DropContracts.System.Scenario

set_option relaxedAutoImplicit false
set_option autoImplicit false

/-!
# Ticks and the table of moves

A tick chooses the next state of core's state machine, and the table of moves has to allow it. It
does, unless the tick comes to an undelegation from another state than `Staking`.

## Main results

* `System.tick_allowed_iff` — when the moves of a tick are allowed.
* `System.tick_refused` — a reachable state whose tick chooses a move that the table does not have.
-/

namespace DropContracts

namespace System

open Sample

/-- **The moves that a tick chooses are allowed** exactly when it does not come to an undelegation
from `Idle`, `Claiming` or `Transfering`. This holds in every state, for all answers and at every
time. -/
theorem tick_allowed_iff (s : Core.Storage) (q : Core.Querier) (env : Env) (info : MessageInfo) :
    Core.executeTick s q env info ≠ .error (.error Core.Storage.notAllowed) ↔
      ¬ (s.isPaused = false ∧ Core.ReachesUnbonding s q env) :=
  not_congr Core.refused_executeTick

/-- **A tick of a reachable state can be refused by the state machine.** The transfer has succeeded
and its outcome is stored, but the balance that the puppeteer knows of is still empty; the batch of
an unbond is due. -/
theorem tick_refused : ¬ ∀ (d : Deployment) (w : World), Reachable d w →
    ∀ (q : Core.Querier) (env : Env) (info : MessageInfo),
      Core.executeTick w.core q env info ≠ .error (.error Core.Storage.notAllowed) := by
  intro hall
  have hrun : (initial.runAll deployment
      (setup ++ [bond 1000, unbond 100, block 2 1020, tick, .deliver 1 .response])).any
      (fun w => match Core.executeTick w.core (w.querier deployment (answers members))
          (w.env deployment) ⟨"bob", []⟩ with
        | .error (.error e) => decide (e = Core.Storage.notAllowed)
        | _ => false) = true := by
    decide
  obtain ⟨w, hw, hcheck⟩ := (Option.any_eq_true _ _).1 hrun
  have hallowed := hall deployment w (reachable_of_runAll initial_spec hw)
    (w.querier deployment (answers members)) (w.env deployment) ⟨"bob", []⟩
  split at hcheck
  next e heq =>
    rw [decide_eq_true_eq] at hcheck
    rw [heq, hcheck] at hallowed
    exact hallowed rfl
  · cases hcheck

end System

end DropContracts
