import DropContracts.Base.Exec
import Mathlib.Data.String.Basic

set_option relaxedAutoImplicit false
set_option autoImplicit false

/-!
# What the contracts see of the chain

The values every entry point receives (block, caller, attached coins), the payment checks of
`cw_utils`, and the finite state machine of `packages/helpers/src/fsm.rs`.

## Main definitions

* `Coin`, `Timestamp`, `Env`, `MessageInfo`, `StdError` — the chain's data.
* `oneCoin`, `mustPay` — the payment checks.
* `Fsm.goTo` — a guarded transition of a finite state machine.
-/

namespace DropContracts

open Exec

/-! ## Blocks, callers and coins -/

/-- An amount of one denomination. -/
structure Coin where
  denom : String
  amount : ℕ
  deriving DecidableEq, Repr

/-- A point in time, in nanoseconds. -/
structure Timestamp where
  nanos : ℕ
  deriving DecidableEq, Repr

/-- The nanoseconds of one second. -/
def nanosPerSecond : ℕ := 1000000000

namespace Timestamp

/-- The whole seconds of a timestamp. -/
def seconds (t : Timestamp) : ℕ := t.nanos / nanosPerSecond

/-- `Timestamp::from_seconds`. -/
def fromSeconds {ε : Type} (n : ℕ) : Exec ε Timestamp := do
  let nanos ← checkedMul U64.bound n nanosPerSecond
  return ⟨nanos⟩

/-- `Timestamp::plus_seconds`. -/
def plusSeconds {ε : Type} (t : Timestamp) (n : ℕ) : Exec ε Timestamp := do
  let addition ← checkedMul U64.bound n nanosPerSecond
  let nanos ← checkedAdd U64.bound t.nanos addition
  return ⟨nanos⟩

end Timestamp

/-- The block a call runs in, and the address of the called contract. -/
structure Env where
  height : ℕ
  time : Timestamp
  contractAddress : String
  deriving DecidableEq, Repr

/-- The caller and the coins it attached. -/
structure MessageInfo where
  sender : String
  funds : List Coin
  deriving DecidableEq, Repr

/-- The errors of the standard library that the contracts pass on. A failed smart query is a
generic error of the virtual machine with its own text; it has its own constructor here. -/
inductive StdError where
  | genericErr (msg : String)
  | notFound (kind : String)
  | querierContractErr (msg : String)
  deriving DecidableEq, Repr

/-! ## Payments -/

/-- The errors of the payment checks. -/
inductive PaymentError where
  | noFunds
  | multipleDenoms
  | missingDenom (denom : String)
  deriving DecidableEq, Repr

/-- `cw_utils::one_coin`: exactly one coin, of a positive amount. -/
def oneCoin (info : MessageInfo) : Exec PaymentError Coin :=
  match info.funds with
  | [] => fail .noFunds
  | [coin] => if coin.amount = 0 then fail .noFunds else .ok coin
  | _ => fail .multipleDenoms

/-- `cw_utils::must_pay`: exactly one coin of the given denomination; its amount. -/
def mustPay (info : MessageInfo) (denom : String) : Exec PaymentError ℕ := do
  let coin ← oneCoin info
  if coin.denom ≠ denom then fail (.missingDenom denom) else .ok coin.amount

/-- One coin is paid exactly when one coin of a positive amount is attached. -/
@[simp] theorem oneCoin_eq_ok {info : MessageInfo} {coin : Coin} :
    oneCoin info = .ok coin ↔ info.funds = [coin] ∧ coin.amount ≠ 0 := by
  unfold oneCoin
  rcases info.funds with _ | ⟨c, _ | ⟨c', l⟩⟩
  · simp
  · by_cases h : c.amount = 0
    · simp [h]
      rintro rfl
      exact h
    · simp [h]
      rintro rfl
      exact h
  · simp

/-- `mustPay` returns the amount of the one attached coin when that is of the asked denomination. -/
@[simp] theorem mustPay_eq_ok {info : MessageInfo} {denom : String} {amount : ℕ} :
    mustPay info denom = .ok amount ↔ info.funds = [⟨denom, amount⟩] ∧ amount ≠ 0 := by
  unfold mustPay
  rw [bind_eq_ok]
  constructor
  · rintro ⟨⟨d, n⟩, h, hd⟩
    obtain ⟨hf, hn⟩ := oneCoin_eq_ok.1 h
    by_cases hdd : d = denom
    · subst hdd
      simp only [ne_eq, not_true, ↓reduceIte, Except.ok.injEq] at hd
      subst hd
      exact ⟨hf, hn⟩
    · simp [hdd] at hd
  · rintro ⟨hf, hn⟩
    exact ⟨⟨denom, amount⟩, oneCoin_eq_ok.2 ⟨hf, hn⟩, by simp⟩

/-! ## Finite state machines -/

/-- An allowed move of a finite state machine. -/
structure Transition (T : Type) where
  fromState : T
  toState : T
  deriving DecidableEq, Repr

/-- A finite state machine: the table of its allowed moves. -/
structure Fsm (T : Type) where
  transitions : List (Transition T)

namespace Fsm

variable {T : Type} [DecidableEq T]

/-- The error of a move that is not in the table. -/
def notAllowed : StdError := .genericErr "This FSM transition is not allowed"

/-- `Fsm::go_to`: the move from the stored state, when the table has it. -/
def goTo (m : Fsm T) (current target : T) : Exec StdError T :=
  if m.transitions.any fun t => t.fromState = current ∧ t.toState = target then .ok target
  else fail notAllowed

/-- **A move succeeds exactly when the table has it**, and then ends where it was meant to. -/
theorem goTo_eq_ok {m : Fsm T} {current target t : T} :
    m.goTo current target = .ok t ↔ ⟨current, target⟩ ∈ m.transitions ∧ t = target := by
  have hany : (m.transitions.any fun t => t.fromState = current ∧ t.toState = target) = true ↔
      (⟨current, target⟩ : Transition T) ∈ m.transitions := by
    simp only [List.any_eq_true, decide_eq_true_eq]
    constructor
    · rintro ⟨⟨f, g⟩, hmem, rfl, rfl⟩
      exact hmem
    · intro hmem
      exact ⟨_, hmem, rfl, rfl⟩
  unfold goTo
  split_ifs with h
  · simp [hany.1 h, eq_comm]
  · simp only [fail_ne_ok, false_iff, not_and]
    exact fun hmem => absurd (hany.2 hmem) h

end Fsm

end DropContracts
