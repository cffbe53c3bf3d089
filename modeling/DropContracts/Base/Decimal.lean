import DropContracts.Base.Exec

set_option relaxedAutoImplicit false
set_option autoImplicit false

/-!
# Fixed-point decimals with floor rounding

A decimal is a 128-bit count of atomics, `10 ^ 18` atomics to one unit. Every operation but
`to_uint_ceil` rounds down. The operators abort when their result does not fit 128 bits or when they
divide by zero; the checked operations return nothing then.

## Main definitions

* `Decimal` — a fixed-point decimal; `Decimal.fractional` is the number of atomics in one unit.
* `Uint128.multiplyRatio` — `⌊a · n / d⌋` within 128 bits.
* `Decimal.fromRatio`, `Decimal.div`, `Decimal.sub`, `Decimal.mulUint` — the operations of the type.
* `Decimal.fromAtomics`, `Decimal.checkedMul`, `Decimal.toUintCeil` — the checked ones.

## Main results

* `Decimal.fromRatio_eq_ok`, `Decimal.mulUint_eq_ok` — what each operation returns, and when.
* `Decimal.toUintCeil_le_iff` — rounding up.
* `Decimal.mul_rate_eq_self_iff` — when an amount is worth itself at a rounded rate.
-/

/-- A fixed-point decimal, as its number of atomics. -/
structure Decimal where
  atomics : ℕ
  deriving DecidableEq, Repr

open Exec

variable {ε : Type}

/-- `⌊a · n / d⌋` in 128 bits. -/
def Uint128.multiplyRatio (a n d : ℕ) : Exec ε ℕ :=
  if d = 0 then abort
  else if a * n / d < Uint128.bound then .ok (a * n / d)
  else abort

/-- A ratio is returned exactly when the divisor is not zero and the quotient fits. -/
@[simp] theorem Uint128.multiplyRatio_eq_ok {a n d q : ℕ} :
    (Uint128.multiplyRatio a n d : Exec ε ℕ) = .ok q ↔
      d ≠ 0 ∧ a * n / d = q ∧ q < Uint128.bound := by
  unfold Uint128.multiplyRatio
  split_ifs with h0 h1
  · simp [h0]
  · simp only [Except.ok.injEq, ne_eq, h0, not_false_eq_true, true_and]
    exact ⟨fun h => ⟨h, h ▸ h1⟩, And.left⟩
  · simp only [abort_ne_ok, false_iff, not_and]
    rintro - rfl
    exact h1

/-- A ratio fails only by an abort. -/
@[simp] theorem Uint128.multiplyRatio_eq_error {a n d : ℕ} {f : Fault ε} :
    (Uint128.multiplyRatio a n d : Exec ε ℕ) = .error f ↔
      (d = 0 ∨ Uint128.bound ≤ a * n / d) ∧ f = .abort := by
  unfold Uint128.multiplyRatio
  split_ifs with h0 h1
  · simp [h0]
  · simp [h0]; omega
  · simp [h0]; omega

namespace Decimal

/-- The number of atomics in one unit. -/
def fractional : ℕ := 10 ^ 18

/-- `Decimal::zero()`. -/
def zero : Decimal := ⟨0⟩

/-- `Decimal::one()`. -/
def one : Decimal := ⟨fractional⟩

/-- `Decimal::from_ratio(n, d)`: the ratio rounded down to 18 places. -/
def fromRatio (n d : ℕ) : Exec ε Decimal := do
  let atomics ← Uint128.multiplyRatio n fractional d
  return ⟨atomics⟩

/-- The quotient `a / b` rounded down to 18 places. -/
def div (a b : Decimal) : Exec ε Decimal := fromRatio a.atomics b.atomics

/-- The difference `a - b`. -/
def sub (a b : Decimal) : Exec ε Decimal := do
  let atomics ← checkedSub a.atomics b.atomics
  return ⟨atomics⟩

/-- The product `a * r` of an integer and a decimal, rounded down to an integer. -/
def mulUint (a : ℕ) (r : Decimal) : Exec ε ℕ :=
  if a = 0 ∨ r.atomics = 0 then .ok 0 else Uint128.multiplyRatio a r.atomics fractional

/-- `Decimal::from_atomics` for up to 18 decimal places: nothing when the atomics do not fit. -/
def fromAtomics (atomics decimalPlaces : ℕ) : Option Decimal :=
  if atomics * 10 ^ (18 - decimalPlaces) < Uint128.bound then
    some ⟨atomics * 10 ^ (18 - decimalPlaces)⟩
  else none

/-- `Decimal::checked_mul`: the product rounded down to 18 places, nothing when it does not fit. -/
def checkedMul (a b : Decimal) : Option Decimal :=
  if a.atomics * b.atomics / fractional < Uint128.bound then
    some ⟨a.atomics * b.atomics / fractional⟩
  else none

/-- `Decimal::to_uint_ceil`: the decimal rounded up to an integer. -/
def toUintCeil (a : Decimal) : ℕ :=
  if a.atomics = 0 then 0 else 1 + (a.atomics - 1) / fractional

/-- There are atomics in a unit. -/
theorem fractional_pos : 0 < fractional := by decide

/-- The atomics of one unit. -/
@[simp] theorem one_atomics : one.atomics = fractional := rfl

/-- **A ratio is returned exactly when it divides by something and fits.** -/
@[simp] theorem fromRatio_eq_ok {n d : ℕ} {r : Decimal} :
    (fromRatio n d : Exec ε Decimal) = .ok r ↔
      d ≠ 0 ∧ n * fractional / d = r.atomics ∧ r.atomics < Uint128.bound := by
  obtain ⟨x⟩ := r
  simp [fromRatio]

/-- A ratio fails only by an abort. -/
@[simp] theorem fromRatio_eq_error {n d : ℕ} {f : Fault ε} :
    (fromRatio n d : Exec ε Decimal) = .error f ↔
      (d = 0 ∨ Uint128.bound ≤ n * fractional / d) ∧ f = .abort := by
  simp [fromRatio, bind_eq_error]

/-- A ratio of a 64-bit integer fits. -/
theorem ratio_lt_of_u64 {n : ℕ} (hn : n < U64.bound) (d : ℕ) :
    n * fractional / d < Uint128.bound := by
  have hbound : U64.bound * fractional < Uint128.bound := by decide
  calc n * fractional / d ≤ n * fractional := Nat.div_le_self _ _
    _ < U64.bound * fractional := Nat.mul_lt_mul_of_pos_right hn fractional_pos
    _ < Uint128.bound := hbound

/-- A difference is returned exactly when it is not negative. -/
@[simp] theorem sub_eq_ok {a b r : Decimal} :
    (sub a b : Exec ε Decimal) = .ok r ↔ b.atomics + r.atomics = a.atomics := by
  obtain ⟨x⟩ := r
  simp [sub]

/-- A difference fails only by an abort. -/
@[simp] theorem sub_eq_error {a b : Decimal} {f : Fault ε} :
    (sub a b : Exec ε Decimal) = .error f ↔ a.atomics < b.atomics ∧ f = .abort := by
  simp [sub, bind_eq_error]

/-- **A product is the exact product rounded down, returned exactly when it fits.**

**Proof sketch.** The early return on a zero factor agrees with the rounded product, which is
then zero. -/
@[simp] theorem mulUint_eq_ok {a n : ℕ} {r : Decimal} :
    (mulUint a r : Exec ε ℕ) = .ok n ↔
      a * r.atomics / fractional = n ∧ n < Uint128.bound := by
  unfold mulUint
  split_ifs with h
  · have hz : a * r.atomics / fractional = 0 := by
      rcases h with h | h <;> simp [h]
    rw [hz]
    simp only [Except.ok.injEq]
    exact ⟨fun h0 => ⟨h0, h0 ▸ Uint128.bound_pos⟩, And.left⟩
  · rw [Uint128.multiplyRatio_eq_ok]
    exact and_iff_right (Nat.pos_iff_ne_zero.1 fractional_pos)

/-- The product with the decimal of an integer is exact. -/
theorem checkedMul_integer {a b c : Decimal} {n : ℕ} (hb : fromAtomics n 0 = some b)
    (h : checkedMul a b = some c) : c.atomics = a.atomics * n := by
  unfold fromAtomics at hb
  unfold checkedMul at h
  split_ifs at hb h
  rw [← Option.some.inj h, ← Option.some.inj hb]
  show a.atomics * (n * fractional) / fractional = a.atomics * n
  rw [← Nat.mul_assoc, Nat.mul_div_cancel _ fractional_pos]

/-- **Rounding up** gives the least integer that is not below the decimal. -/
theorem toUintCeil_le_iff {a : Decimal} {n : ℕ} :
    a.toUintCeil ≤ n ↔ a.atomics ≤ n * fractional := by
  have hf := fractional_pos
  unfold toUintCeil
  by_cases hzero : a.atomics = 0
  · simp [hzero]
  · rw [if_neg hzero]
    have hdiv : (a.atomics - 1) / fractional < n ↔ a.atomics - 1 < n * fractional :=
      Nat.div_lt_iff_lt_mul hf
    omega

/-- The quotient of one by a decimal never overflows: it aborts exactly on zero. -/
theorem one_div_eq_error {r : Decimal} {f : Fault ε} :
    (div one r : Exec ε Decimal) = .error f ↔ r.atomics = 0 ∧ f = .abort := by
  have hfit : fractional * fractional < Uint128.bound := by decide
  have hle : fractional * fractional / r.atomics ≤ fractional * fractional := Nat.div_le_self _ _
  simp only [div, one_atomics, fromRatio_eq_error]
  constructor
  · rintro ⟨h | h, rfl⟩
    · exact ⟨h, rfl⟩
    · omega
  · rintro ⟨h, rfl⟩
    exact ⟨.inl h, rfl⟩

/-! ### Rounded rates -/

/-- A rounded ratio is at most one exactly when it exceeds one, if at all, by less than the rounding
takes away. -/
theorem ratio_le_one_iff {n d : ℕ} :
    n * fractional / d ≤ fractional ↔ d = 0 ∨ (n - d) * fractional < d := by
  rcases Nat.eq_zero_or_pos d with rfl | hd
  · simp
  · rw [← Nat.lt_succ_iff, Nat.div_lt_iff_lt_mul hd, Nat.succ_mul]
    rcases Nat.le_total n d with hle | hle
    · have hproduct : n * fractional ≤ d * fractional := Nat.mul_le_mul_right _ hle
      rw [Nat.sub_eq_zero_of_le hle, Nat.mul_comm fractional d]
      omega
    · obtain ⟨k, rfl⟩ := Nat.exists_eq_add_of_le hle
      rw [Nat.add_sub_cancel_left, Nat.add_mul, Nat.mul_comm fractional d]
      omega

/-- At most `s` shares at the rounded rate `n / s` are worth at most `n`. -/
theorem mul_rate_le {x n s : ℕ} (hx : x ≤ s) : x * (n * fractional / s) / fractional ≤ n := by
  have hrate : x * (n * fractional / s) ≤ n * fractional := by
    calc x * (n * fractional / s) ≤ s * (n * fractional / s) := Nat.mul_le_mul_right _ hx
      _ ≤ n * fractional := Nat.mul_div_le _ _
  exact Nat.div_le_of_le_mul (by rw [Nat.mul_comm fractional n]; exact hrate)

/-- The worths of the parts, each rounded down, are together worth no more than the whole. -/
theorem sum_mul_div_le (r d : ℕ) (l : List ℕ) :
    (l.map fun x => x * r / d).sum ≤ l.sum * r / d := by
  induction l with
  | nil => simp
  | cons x l ih =>
    rw [List.map_cons, List.sum_cons, List.sum_cons, Nat.add_mul]
    calc x * r / d + (l.map fun x => x * r / d).sum ≤ x * r / d + l.sum * r / d :=
          Nat.add_le_add_left ih _
      _ ≤ (x * r + l.sum * r) / d := Nat.div_add_div_le_add_div

/-- **A positive amount is worth itself at the rounded rate `n / s`** exactly when the rate is not
below one and what it is above one is rounded away.

**Proof sketch.** For `s ≤ n` the rate is one plus the rounded rate of the surplus `n - s`; for
`n < s` it is below one, and so is the worth below the amount. -/
theorem mul_rate_eq_self_iff {x n s : ℕ} (hx : 0 < x) (hs : 0 < s) :
    x * (n * fractional / s) / fractional = x ↔
      s ≤ n ∧ x * ((n - s) * fractional / s) < fractional := by
  have hf := fractional_pos
  by_cases hle : s ≤ n
  · have hrate : n * fractional / s = fractional + (n - s) * fractional / s := by
      have hsplit : n * fractional = (n - s) * fractional + s * fractional := by
        rw [← Nat.add_mul, Nat.sub_add_cancel hle]
      rw [hsplit, Nat.add_mul_div_left _ _ hs, Nat.add_comm]
    rw [hrate, Nat.mul_add, Nat.add_comm, Nat.add_mul_div_right _ _ hf]
    constructor
    · intro h
      have hzero : x * ((n - s) * fractional / s) / fractional = 0 := by omega
      exact ⟨hle, (Nat.div_eq_zero_iff_lt hf).1 hzero⟩
    · rintro ⟨-, h⟩
      rw [Nat.div_eq_of_lt h]
      omega
  · have hlt : n * fractional / s < fractional := by
      rw [Nat.div_lt_iff_lt_mul hs, Nat.mul_comm fractional s]
      exact Nat.mul_lt_mul_of_pos_right (Nat.lt_of_not_le hle) hf
    have hworth : x * (n * fractional / s) / fractional < x := by
      rw [Nat.div_lt_iff_lt_mul hf]
      exact Nat.mul_lt_mul_of_pos_left hlt hx
    constructor
    · intro h
      omega
    · rintro ⟨h, -⟩
      exact absurd h hle

end Decimal
