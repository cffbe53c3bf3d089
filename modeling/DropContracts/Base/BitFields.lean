import Mathlib.Data.Nat.Bitwise

set_option relaxedAutoImplicit false
set_option autoImplicit false

/-!
# Bit fields

A number is packed together with a second one of at most `w` bits: the first is shifted to the left
by `w` places, and the second is or-ed into the places that this leaves. Nothing is lost, and packed
pairs are ordered as the pairs are.

## Main definitions

* `BitFields.pack` — two numbers in one.

## Main results

* `BitFields.pack_shiftRight`, `BitFields.pack_and_mask` — both numbers are read back.
* `BitFields.pack_lt_pack_iff` — packed pairs compare lexicographically.
-/

namespace BitFields

/-- The number `hi` above a field of `w` bits that holds `lo`. -/
def pack (w hi lo : ℕ) : ℕ := hi <<< w ||| lo

variable {w hi hi' lo lo' : ℕ}

/-- The fields do not overlap, so that packing them is a sum. -/
theorem pack_eq (hlo : lo < 2 ^ w) : pack w hi lo = hi * 2 ^ w + lo := by
  rw [pack, ← Nat.shiftLeft_add_eq_or_of_lt hlo, Nat.shiftLeft_eq]

/-- The upper number is read back. -/
theorem pack_shiftRight (hlo : lo < 2 ^ w) : pack w hi lo >>> w = hi := by
  rw [pack_eq hlo, Nat.shiftRight_eq_div_pow, Nat.add_comm,
    Nat.add_mul_div_right _ _ (Nat.two_pow_pos w), Nat.div_eq_of_lt hlo, Nat.zero_add]

/-- The lower number is read back. -/
theorem pack_mod (hlo : lo < 2 ^ w) : pack w hi lo % 2 ^ w = lo := by
  rw [pack_eq hlo, Nat.mul_add_mod_self_right, Nat.mod_eq_of_lt hlo]

/-- The lower number is what the mask of its field leaves. -/
theorem pack_and_mask (hlo : lo < 2 ^ w) : pack w hi lo &&& (2 ^ w - 1) = lo := by
  rw [Nat.and_two_pow_sub_one_eq_mod, pack_mod hlo]

/-- Two fields take the places of both. -/
theorem pack_lt {k : ℕ} (hhi : hi < 2 ^ k) (hlo : lo < 2 ^ w) : pack w hi lo < 2 ^ (k + w) := by
  have hnext : (hi + 1) * 2 ^ w ≤ 2 ^ k * 2 ^ w := Nat.mul_le_mul_right _ hhi
  rw [Nat.add_mul] at hnext
  rw [pack_eq hlo, pow_add]
  omega

/-- **Packed pairs compare lexicographically.** -/
theorem pack_lt_pack_iff (hlo : lo < 2 ^ w) (hlo' : lo' < 2 ^ w) :
    pack w hi lo < pack w hi' lo' ↔ hi < hi' ∨ hi = hi' ∧ lo < lo' := by
  rw [pack_eq hlo, pack_eq hlo']
  obtain hlt | rfl | hgt := Nat.lt_trichotomy hi hi'
  · have hnext : (hi + 1) * 2 ^ w ≤ hi' * 2 ^ w := Nat.mul_le_mul_right _ hlt
    rw [Nat.add_mul] at hnext
    omega
  · simp
  · have hnext : (hi' + 1) * 2 ^ w ≤ hi * 2 ^ w := Nat.mul_le_mul_right _ hgt
    rw [Nat.add_mul] at hnext
    omega

/-- Packed pairs are equal only for equal pairs. -/
theorem pack_inj (hlo : lo < 2 ^ w) (hlo' : lo' < 2 ^ w) :
    pack w hi lo = pack w hi' lo' ↔ hi = hi' ∧ lo = lo' := by
  constructor
  · intro h
    have hhi := congrArg (· >>> w) h
    have hmod := congrArg (· % 2 ^ w) h
    simp only [pack_shiftRight hlo, pack_shiftRight hlo', pack_mod hlo, pack_mod hlo'] at hhi hmod
    exact ⟨hhi, hmod⟩
  · rintro ⟨rfl, rfl⟩
    rfl

end BitFields
