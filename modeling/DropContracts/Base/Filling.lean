import Mathlib.Algebra.BigOperators.Group.List.Basic
import Mathlib.Algebra.GroupWithZero.Nat
import Mathlib.Order.Lattice

set_option relaxedAutoImplicit false
set_option autoImplicit false

/-!
# Filling demands in order

An amount is handed out along a list of demands: each place takes its demand, or all that is left,
and the procedure stops as soon as nothing is left. The first place is always visited. What each
place takes depends only on the demands before it, so that the outcome has a closed form.

## Main definitions

* `Filling.fill` — the procedure.
* `Filling.Reached`, `Filling.part` — the places that are visited, and what each of them takes.

## Main results

* `Filling.fill_eq` — the closed form of the procedure.
-/

namespace Filling

variable {α : Type} {demand : α → ℕ}

/-- Hand out `total` along the list: each place takes its demand or all that is left. -/
def fill (demand : α → ℕ) : ℕ → List α → List (α × ℕ)
  | _, [] => []
  | total, a :: rest =>
    (a, min total (demand a)) ::
      if total ≤ demand a then [] else fill demand (total - demand a) rest

/-- What the places before the place `i` demand. -/
def before (demands : List ℕ) (i : ℕ) : ℕ := (demands.take i).sum

/-- The place `i` is visited: it is the first one, or those before it leave something. -/
def Reached (total : ℕ) (demands : List ℕ) (i : ℕ) : Prop := i = 0 ∨ before demands i < total

instance (total : ℕ) (demands : List ℕ) (i : ℕ) : Decidable (Reached total demands i) :=
  inferInstanceAs (Decidable (i = 0 ∨ before demands i < total))

/-- What the place `i` takes: what its demand adds to those before it, up to the amount. -/
def part (total : ℕ) (demands : List ℕ) (i : ℕ) : ℕ :=
  min total (before demands (i + 1)) - min total (before demands i)

/-! ## The first place and the others -/

section Places

variable {total x : ℕ} {xs : List ℕ}

/-- Nothing is demanded before the first place. -/
@[simp] theorem before_zero (demands : List ℕ) : before demands 0 = 0 := by
  simp [before]

/-- The demand of the first place comes before that of every other one. -/
@[simp] theorem before_cons_succ (x : ℕ) (xs : List ℕ) (i : ℕ) :
    before (x :: xs) (i + 1) = x + before xs i := by
  simp [before]

/-- The first place is visited. -/
@[simp] theorem reached_zero (total : ℕ) (demands : List ℕ) : Reached total demands 0 :=
  .inl rfl

/-- What the first place takes. -/
@[simp] theorem part_cons_zero (total x : ℕ) (xs : List ℕ) :
    part total (x :: xs) 0 = min total x := by
  simp [part]

/-- No other place is visited if the first one uses up the amount. -/
theorem not_reached_cons_succ (h : total ≤ x) (i : ℕ) : ¬ Reached total (x :: xs) (i + 1) := by
  rintro (hzero | hlt)
  · omega
  · rw [before_cons_succ] at hlt
    omega

/-- After the first place the others are visited with what it leaves. -/
theorem reached_cons_succ (h : x < total) (i : ℕ) :
    Reached total (x :: xs) (i + 1) ↔ Reached (total - x) xs i := by
  unfold Reached
  rw [before_cons_succ]
  by_cases hi : i = 0
  · subst hi
    simp only [before_zero, true_or, iff_true]
    omega
  · omega

/-- After the first place the others take from what it leaves. -/
theorem part_cons_succ (h : x < total) (i : ℕ) :
    part total (x :: xs) (i + 1) = part (total - x) xs i := by
  unfold part
  rw [before_cons_succ, before_cons_succ]
  omega

end Places

/-! ## The closed form -/

/-- **The closed form of the procedure**: the places that are visited, each with its part.

**Proof sketch.** Induction on the list. If the first place uses up the amount no other place is
visited; otherwise the others are visited with what it leaves. -/
theorem fill_eq (demand : α → ℕ) (total : ℕ) (l : List α) :
    fill demand total l =
      (l.zipIdx.filter fun p => Reached total (l.map demand) p.2).map
        fun p => (p.1, part total (l.map demand) p.2) := by
  induction l generalizing total with
  | nil => rfl
  | cons a rest ih =>
    rw [fill, List.zipIdx_cons', List.filter_cons_of_pos (by simp), List.filter_map, List.map_cons,
      List.map_map]
    simp only [List.map_cons, part_cons_zero, List.cons.injEq, true_and]
    by_cases hcut : total ≤ demand a
    · have hnone : rest.zipIdx.filter ((fun p => decide (Reached total
          (demand a :: rest.map demand) p.2)) ∘ Prod.map id (· + 1)) = [] := by
        apply List.filter_eq_nil_iff.2
        intro p _
        simpa using not_reached_cons_succ hcut p.2
      rw [if_pos hcut, hnone, List.map_nil]
    · rw [if_neg hcut, ih]
      have hfilter : ((fun p : α × ℕ => decide (Reached total (demand a :: rest.map demand) p.2)) ∘
          Prod.map id (· + 1)) =
            fun p => decide (Reached (total - demand a) (rest.map demand) p.2) := by
        funext p
        simp [reached_cons_succ (Nat.lt_of_not_le hcut)]
      have hpart : ((fun p : α × ℕ => (p.1, part total (demand a :: rest.map demand) p.2)) ∘
          Prod.map id (· + 1)) = fun p => (p.1, part (total - demand a) (rest.map demand) p.2) := by
        funext p
        simp [part_cons_succ (Nat.lt_of_not_le hcut)]
      rw [hfilter, hpart]

end Filling
