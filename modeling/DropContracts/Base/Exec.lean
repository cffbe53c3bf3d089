import Mathlib.Algebra.BigOperators.Group.List.Basic
import Mathlib.Algebra.GroupWithZero.Nat

set_option relaxedAutoImplicit false
set_option autoImplicit false

/-!
# Fallible calls and checked machine arithmetic

A call of a contract ends in one of three ways: it returns a value, it returns an error of its
own error type, or it aborts (a panic of the virtual machine: an arithmetic overflow, a division
by zero, an `unwrap` of nothing). Both failures revert the call, but they are different outcomes,
so they are kept apart here.

Machine integers are natural numbers; every operation that can leave the range of its type is a
call that aborts there.

## Main definitions

* `Fault`, `Exec` — a failure and a call that may fail.
* `Exec.ensure`, `Exec.orError`, `Exec.mapError` — the guards `ensure!` and `ok_or`, and `?`.
* `checkedAdd`, `checkedMul`, `checkedSub`, `checkedSum` — arithmetic within a bound.
* `U64.bound`, `Uint128.bound` — the bounds of the two widths in use.

## Main results

* `Exec.bind_eq_ok` — a sequence of two calls returns exactly when both do.
* `Exec.loop_preserves` — the invariant rule for a loop of calls.
* `checkedSum_eq_ok` — a checked sum returns the sum exactly when the sum fits.
-/

/-- Why a call did not return: an error value, or an abort of the virtual machine. -/
inductive Fault (ε : Type) where
  | error (e : ε)
  | abort
  deriving DecidableEq, Repr

/-- A call that returns an `α` or fails. -/
abbrev Exec (ε α : Type) := Except (Fault ε) α

namespace Exec

variable {ε α β : Type}

/-- The call that fails with the error `e`. -/
def fail (e : ε) : Exec ε α := .error (.error e)

/-- The call that aborts. -/
def abort : Exec ε α := .error .abort

/-- The guard `ensure!(p, e)`. -/
def ensure (p : Prop) [Decidable p] (e : ε) : Exec ε Unit := if p then .ok () else fail e

/-- `opt.ok_or(e)?`. -/
def orError (o : Option α) (e : ε) : Exec ε α :=
  match o with
  | some a => .ok a
  | none => fail e

/-- A call whose errors are passed on inside a wider error type (`?` through `From`). -/
def mapError {ε' : Type} (g : ε → ε') : Exec ε α → Exec ε' α
  | .ok a => .ok a
  | .error (.error e) => .error (.error (g e))
  | .error .abort => .error .abort

/-! ### Sequencing -/

/-- Sequencing after a call that returned. -/
@[simp] theorem ok_bind (a : α) (f : α → Exec ε β) : ((.ok a : Exec ε α) >>= f) = f a := rfl

/-- Sequencing after a call that failed. -/
@[simp] theorem error_bind (e : Fault ε) (f : α → Exec ε β) :
    ((.error e : Exec ε α) >>= f) = .error e := rfl

/-- A returned value, written with `pure`. -/
@[simp] theorem pure_eq_ok (a : α) : (pure a : Exec ε α) = .ok a := rfl

/-- **A sequence of two calls returns exactly when both do.** -/
@[simp] theorem bind_eq_ok {x : Exec ε α} {f : α → Exec ε β} {b : β} :
    (x >>= f) = .ok b ↔ ∃ a, x = .ok a ∧ f a = .ok b := by
  cases x with
  | ok a => simp
  | error e => simp

/-- A sequence of two calls fails with `e` exactly when the first does, or the first returns and
the second fails with `e`. -/
theorem bind_eq_error {x : Exec ε α} {f : α → Exec ε β} {e : Fault ε} :
    (x >>= f) = .error e ↔ x = .error e ∨ ∃ a, x = .ok a ∧ f a = .error e := by
  cases x with
  | ok a => simp
  | error e' => simp

/-- A call that does not fail with `e` returns or fails with another fault. -/
theorem ne_error_of_ok {x : Exec ε α} {a : α} (h : x = .ok a) (e : Fault ε) :
    x ≠ .error e := by
  simp [h]

/-- **The invariant rule for a loop of calls**: what each round preserves, the loop preserves. -/
theorem loop_preserves {f : β → α → Exec ε β} {P : β → Prop}
    (hround : ∀ s a t, f s a = .ok t → P s → P t) {l : List α} {s t : β}
    (h : l.foldlM f s = .ok t) (hs : P s) : P t := by
  induction l generalizing s with
  | nil =>
    rw [← Except.ok.inj h]
    exact hs
  | cons a l ih =>
    obtain ⟨u, hu, h⟩ := bind_eq_ok.1 h
    exact ih h (hround s a u hu hs)

/-- A loop of calls fails only if one of its rounds fails in the same way. -/
theorem loop_error {f : β → α → Exec ε β} {l : List α} {s : β} {e : Fault ε}
    (h : l.foldlM f s = .error e) : ∃ t a, f t a = .error e := by
  induction l generalizing s with
  | nil => cases h
  | cons a l ih =>
    obtain hround | ⟨u, -, hrest⟩ := bind_eq_error.1 h
    · exact ⟨s, a, hround⟩
    · exact ih hrest

/-! ### Guards -/

/-- A guard passes exactly when its condition holds. -/
@[simp] theorem ensure_eq_ok {p : Prop} [Decidable p] {e : ε} {u : Unit} :
    ensure p e = .ok u ↔ p := by
  unfold ensure fail
  split <;> simp_all

/-- A guard never aborts: it fails with its own error exactly when its condition fails. -/
@[simp] theorem ensure_eq_error {p : Prop} [Decidable p] {e : ε} {f : Fault ε} :
    ensure p e = .error f ↔ ¬ p ∧ f = .error e := by
  unfold ensure fail
  split <;> simp_all [eq_comm]

/-- `ok_or` returns exactly what the option holds. -/
@[simp] theorem orError_eq_ok {o : Option α} {e : ε} {a : α} :
    orError o e = .ok a ↔ o = some a := by
  cases o <;> simp [orError, fail]

/-- `ok_or` fails with its own error exactly when the option is empty. -/
@[simp] theorem orError_eq_error {o : Option α} {e : ε} {f : Fault ε} :
    orError o e = .error f ↔ o = none ∧ f = .error e := by
  cases o <;> simp [orError, fail, eq_comm]

/-- Passing errors on changes nothing about returned values. -/
@[simp] theorem mapError_eq_ok {ε' : Type} {g : ε → ε'} {x : Exec ε α} {a : α} :
    x.mapError g = .ok a ↔ x = .ok a := by
  rcases x with (e | _) | a' <;> simp [mapError]

/-- A failing call returns nothing. -/
@[simp] theorem fail_ne_ok {e : ε} {a : α} : (fail e : Exec ε α) ≠ .ok a := by simp [fail]

/-- `fail e` fails with `e`. -/
@[simp] theorem fail_eq_error {e : ε} {f : Fault ε} :
    (fail e : Exec ε α) = .error f ↔ f = .error e := by
  simp [fail, eq_comm]

/-- An aborting call returns nothing. -/
@[simp] theorem abort_ne_ok {a : α} : (abort : Exec ε α) ≠ .ok a := by simp [abort]

/-- `abort` aborts. -/
@[simp] theorem abort_eq_error {f : Fault ε} :
    (abort : Exec ε α) = .error f ↔ f = .abort := by
  simp [abort, eq_comm]

/-- A call seen as an option returns what the call returns. -/
@[simp] theorem toOption_eq_some {x : Exec ε α} {a : α} : x.toOption = some a ↔ x = .ok a := by
  cases x <;> simp [Except.toOption]

end Exec

/-! ## Arithmetic within a bound -/

section Checked

variable {ε : Type}

open Exec

/-- Addition within `bound`. -/
def checkedAdd (bound a b : ℕ) : Exec ε ℕ := if a + b < bound then .ok (a + b) else abort

/-- Multiplication within `bound`. -/
def checkedMul (bound a b : ℕ) : Exec ε ℕ := if a * b < bound then .ok (a * b) else abort

/-- Subtraction of unsigned integers. -/
def checkedSub (a b : ℕ) : Exec ε ℕ := if b ≤ a then .ok (a - b) else abort

/-- The fold `iter().sum()` of unsigned integers. -/
def checkedSum (bound : ℕ) : List ℕ → Exec ε ℕ
  | [] => .ok 0
  | a :: l => do
    let rest ← checkedSum bound l
    checkedAdd bound a rest

/-- An addition returns the sum exactly when it fits. -/
@[simp] theorem checkedAdd_eq_ok {bound a b c : ℕ} :
    (checkedAdd bound a b : Exec ε ℕ) = .ok c ↔ a + b = c ∧ c < bound := by
  unfold checkedAdd
  split <;> simp <;> omega

/-- An addition fails only by an abort, exactly when the sum does not fit. -/
@[simp] theorem checkedAdd_eq_error {bound a b : ℕ} {f : Fault ε} :
    (checkedAdd bound a b : Exec ε ℕ) = .error f ↔ bound ≤ a + b ∧ f = .abort := by
  unfold checkedAdd
  split
  · simp; omega
  · simp_all

/-- A multiplication returns the product exactly when it fits. -/
@[simp] theorem checkedMul_eq_ok {bound a b c : ℕ} :
    (checkedMul bound a b : Exec ε ℕ) = .ok c ↔ a * b = c ∧ c < bound := by
  unfold checkedMul
  split
  · simp; intro h; rwa [← h]
  · simp; intro h; rw [← h]; omega

/-- A multiplication fails only by an abort, exactly when the product does not fit. -/
@[simp] theorem checkedMul_eq_error {bound a b : ℕ} {f : Fault ε} :
    (checkedMul bound a b : Exec ε ℕ) = .error f ↔ bound ≤ a * b ∧ f = .abort := by
  unfold checkedMul
  split
  · simp; omega
  · simp_all

/-- A subtraction returns the difference exactly when it does not underflow. -/
@[simp] theorem checkedSub_eq_ok {a b c : ℕ} :
    (checkedSub a b : Exec ε ℕ) = .ok c ↔ b + c = a := by
  unfold checkedSub
  split <;> simp <;> omega

/-- A subtraction fails only by an abort, exactly when it underflows. -/
@[simp] theorem checkedSub_eq_error {a b : ℕ} {f : Fault ε} :
    (checkedSub a b : Exec ε ℕ) = .error f ↔ a < b ∧ f = .abort := by
  unfold checkedSub
  split
  · simp; omega
  · simp_all

/-- **A checked sum returns the sum exactly when the sum fits.**

**Proof sketch.** Induction on the list: a partial sum is at most the whole sum, so no addition
overflows before the last one. -/
@[simp] theorem checkedSum_eq_ok {bound : ℕ} (hb : 0 < bound) {l : List ℕ} {n : ℕ} :
    (checkedSum bound l : Exec ε ℕ) = .ok n ↔ l.sum = n ∧ n < bound := by
  induction l generalizing n with
  | nil => simp [checkedSum]; rintro rfl; exact hb
  | cons a l ih =>
    simp only [checkedSum, bind_eq_ok, ih, checkedAdd_eq_ok, List.sum_cons]
    constructor
    · rintro ⟨r, ⟨rfl, -⟩, h, hn⟩
      exact ⟨h, hn⟩
    · rintro ⟨h, hn⟩
      exact ⟨l.sum, ⟨rfl, by omega⟩, h, hn⟩

/-- A checked sum fails only by an abort, exactly when the sum does not fit. -/
@[simp] theorem checkedSum_eq_error {bound : ℕ} (hb : 0 < bound) {l : List ℕ} {f : Fault ε} :
    (checkedSum bound l : Exec ε ℕ) = .error f ↔ bound ≤ l.sum ∧ f = .abort := by
  have hok := checkedSum_eq_ok (ε := ε) hb (l := l) (n := l.sum)
  have hfault : ∀ g : Fault ε, (checkedSum bound l : Exec ε ℕ) = .error g → g = .abort := by
    intro g
    induction l generalizing g with
    | nil => simp [checkedSum]
    | cons a l ih =>
      simp only [checkedSum, bind_eq_error]
      rintro (h | ⟨r, -, h⟩)
      · exact ih (checkedSum_eq_ok hb) g h
      · exact (checkedAdd_eq_error.1 h).2
  constructor
  · intro h
    refine ⟨?_, hfault f h⟩
    by_contra hlt
    rw [hok.2 ⟨rfl, by omega⟩] at h
    cases h
  · rintro ⟨hle, rfl⟩
    cases hx : (checkedSum bound l : Exec ε ℕ) with
    | ok n =>
      have := (checkedSum_eq_ok hb).1 hx
      omega
    | error g => rw [hfault g hx]

end Checked

/-! ## The widths -/

/-- The number of values of a 64-bit unsigned integer. -/
def U64.bound : ℕ := 2 ^ 64

/-- The number of values of a 128-bit unsigned integer. -/
def Uint128.bound : ℕ := 2 ^ 128

/-- The 64-bit bound is positive. -/
theorem U64.bound_pos : 0 < U64.bound := by decide

/-- The 128-bit bound is positive. -/
theorem Uint128.bound_pos : 0 < Uint128.bound := by decide
