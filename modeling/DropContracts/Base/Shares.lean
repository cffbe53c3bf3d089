import Mathlib.Tactic.Ring

set_option relaxedAutoImplicit false
set_option autoImplicit false

/-!
# Shares of a pool, with floor rounding

A pool holds `n` assets against `s` shares. The price of a share is `n / s` and is only known
rounded down to `1 / d`; whoever adds `a` assets is issued shares by the rounded reciprocal of that
price, again rounded down. All numbers are natural, so every quotient is a floor.

## Main definitions

* `Shares.rate` — the price of one share, in units of `1 / d`.
* `Shares.issue` — the shares that are issued for an amount.
* `Shares.worth` — the amount that shares are worth.

## Main results

* `Shares.issue_mul_le` — issued shares cost at least their price.
* `Shares.rate_le_rate_add` — a deposit that costs at least the price does not lower it.
* `Shares.mul_rate_add_le` — nor does the new price make the issued shares worth more than was
  paid.
* `Shares.rate_add_lt` — the new price keeps a bound of the old one.
-/

namespace Shares

variable {d n s a m r : ℕ}

/-- The price of one share. -/
def rate (d n s : ℕ) : ℕ := n * d / s

/-- The shares that are issued for the amount `a` at the price `r`. -/
def issue (d a r : ℕ) : ℕ := a * (d * d / r) / d

/-- The amount that `m` shares are worth at the price `r`. -/
def worth (d m r : ℕ) : ℕ := m * r / d

/-- **Issued shares cost at least their price**: both floors are against the depositor. -/
theorem issue_mul_le (d a r : ℕ) : issue d a r * r ≤ a * d := by
  rcases Nat.eq_zero_or_pos d with rfl | hd
  · simp [issue]
  have hissue : issue d a r * d ≤ a * (d * d / r) := Nat.div_mul_le_self _ _
  have hinverse : d * d / r * r ≤ d * d := Nat.div_mul_le_self _ _
  refine Nat.le_of_mul_le_mul_right ?_ hd
  calc issue d a r * r * d = issue d a r * d * r := Nat.mul_right_comm _ _ _
    _ ≤ a * (d * d / r) * r := Nat.mul_le_mul_right _ hissue
    _ = a * (d * d / r * r) := Nat.mul_assoc _ _ _
    _ ≤ a * (d * d) := Nat.mul_le_mul_left _ hinverse
    _ = a * d * d := (Nat.mul_assoc _ _ _).symm

/-- **A deposit does not lower the price**, when the issued shares cost at least the price. -/
theorem rate_le_rate_add (hs : 0 < s) (h : m * rate d n s ≤ a * d) :
    rate d n s ≤ rate d (n + a) (s + m) := by
  have hold : rate d n s * s ≤ n * d := Nat.div_mul_le_self _ _
  refine (Nat.le_div_iff_mul_le (by omega)).2 ?_
  calc rate d n s * (s + m) = rate d n s * s + m * rate d n s := by
        rw [Nat.mul_add, Nat.mul_comm m]
    _ ≤ n * d + a * d := Nat.add_le_add hold h
    _ = (n + a) * d := (Nat.add_mul _ _ _).symm

/-- **The new price does not make the issued shares worth more than was paid.**

**Proof sketch.** If it did, the old shares at the new price would be worth less than the old
assets. Then the new price is at most the old one, at which the issued shares are not worth more
than was paid. -/
theorem mul_rate_add_le (hs : 0 < s) (h : m * rate d n s ≤ a * d) :
    m * rate d (n + a) (s + m) ≤ a * d := by
  by_contra hlt
  have hnew : rate d (n + a) (s + m) * (s + m) ≤ (n + a) * d := Nat.div_mul_le_self _ _
  rw [Nat.mul_add, Nat.add_mul, Nat.mul_comm _ m] at hnew
  have hold : rate d (n + a) (s + m) * s ≤ n * d := by omega
  have hle : rate d (n + a) (s + m) ≤ rate d n s := (Nat.le_div_iff_mul_le hs).2 hold
  exact hlt ((Nat.mul_le_mul_left m hle).trans h)

/-- Shares that cost at least their price are worth at most what was paid. -/
theorem worth_le (h : m * r ≤ a * d) : worth d m r ≤ a :=
  Nat.div_le_of_le_mul (by rw [Nat.mul_comm d]; exact h)

/-- **The new price keeps a bound of the old one**, when some shares were issued and the bound is
not below two units squared. -/
theorem rate_add_lt {bound : ℕ} (hbound : 2 * (d * d) ≤ bound) (hs : 0 < s)
    (hm : 0 < issue d a r) (hrate : rate d n s < bound) :
    rate d (n + a) (s + issue d a r) < bound := by
  have hd : 0 < d := by
    rcases Nat.eq_zero_or_pos d with rfl | hd
    · simp [issue] at hm
    · exact hd
  -- something was issued, so the reciprocal of the price is not zero
  have hinverse : 0 < d * d / r := by
    rcases Nat.eq_zero_or_pos (d * d / r) with hzero | hpos
    · simp [issue, hzero] at hm
    · exact hpos
  have hpaid : a < d * (issue d a r + 1) := by
    calc a ≤ a * (d * d / r) := Nat.le_mul_of_pos_right _ hinverse
      _ < d * (issue d a r + 1) := Nat.lt_mul_div_succ _ hd
  have hadded : a * d < issue d a r * bound := by
    calc a * d < d * (issue d a r + 1) * d := Nat.mul_lt_mul_of_pos_right hpaid hd
      _ = (issue d a r + 1) * (d * d) := by ring
      _ ≤ (issue d a r * 2) * (d * d) := Nat.mul_le_mul_right _ (by omega)
      _ = issue d a r * (2 * (d * d)) := Nat.mul_assoc _ _ _
      _ ≤ issue d a r * bound := Nat.mul_le_mul_left _ hbound
  have hheld : n * d < s * bound := by
    rw [Nat.mul_comm s]
    exact (Nat.div_lt_iff_lt_mul hs).1 hrate
  rw [rate, Nat.div_lt_iff_lt_mul (by omega), Nat.add_mul, Nat.mul_add, Nat.mul_comm bound,
    Nat.mul_comm bound]
  exact Nat.add_lt_add hheld hadded

end Shares
