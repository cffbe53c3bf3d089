import Mathlib.Algebra.GroupWithZero.Nat
import Mathlib.Algebra.Order.BigOperators.Group.List
import Mathlib.Algebra.Order.Group.Nat
import Mathlib.Data.List.Nodup
import Mathlib.Data.List.Perm.Subperm

set_option relaxedAutoImplicit false
set_option autoImplicit false

/-!
# Tallies

A tally is a list of entries, each with a key and an amount. Entries with different keys are counted
once each, so a tally whose entries all occur in another one adds up to no more than it.

## Main definitions

* `Tally.sum` — what the entries add up to.

## Main results

* `Tally.nodup_keys_concat` — one more entry with a new key.
* `Tally.sum_le_of_subset` — entries with different keys, taken from another tally.
* `Tally.sum_flatMap_le` — a tally that is put together from parts, each with a bound of its own.
-/

namespace Tally

variable {κ ι α : Type}

/-- **One more entry with a new key** leaves the keys different. -/
theorem nodup_keys_concat {key : α → κ} {l : List α} {a : α} (h : (l.map key).Nodup)
    (hnew : ∀ b ∈ l, key b ≠ key a) : ((l ++ [a]).map key).Nodup := by
  rw [List.map_append, List.nodup_append]
  refine ⟨h, List.pairwise_singleton _ _, ?_⟩
  intro k hk k' hk' heq
  obtain ⟨b, hb, rfl⟩ := List.mem_map.1 hk
  rw [List.map_singleton, List.mem_singleton] at hk'
  exact hnew b hb (heq.trans hk')

/-- What the entries of a tally add up to. -/
def sum (l : List (κ × ℕ)) : ℕ := (l.map Prod.snd).sum

/-- No entries. -/
@[simp] theorem sum_nil : sum ([] : List (κ × ℕ)) = 0 := rfl

/-- One more entry. -/
@[simp] theorem sum_cons (e : κ × ℕ) (l : List (κ × ℕ)) : sum (e :: l) = e.2 + sum l := rfl

/-- Two tallies together. -/
@[simp] theorem sum_append (l l' : List (κ × ℕ)) : sum (l ++ l') = sum l + sum l' := by
  rw [sum, List.map_append, List.sum_append, sum, sum]

/-- **Entries with different keys** that all occur in another tally add up to no more than that
tally. -/
theorem sum_le_of_subset {l l' : List (κ × ℕ)} (hnodup : (l.map Prod.fst).Nodup) (hsub : l ⊆ l') :
    sum l ≤ sum l' := by
  have hentries : l.Nodup := List.Nodup.of_map Prod.fst hnodup
  obtain ⟨m, hperm, hsublist⟩ := List.subperm_of_subset hentries hsub
  rw [sum, sum, ← (hperm.map Prod.snd).sum_eq]
  exact (hsublist.map Prod.snd).sum_le_sum fun _ _ => Nat.zero_le _

/-- **Parts with a bound each** add up to no more than the bounds together. -/
theorem sum_flatMap_le {groups : List ι} {part : ι → List (κ × ℕ)} {bound : ι → ℕ}
    (h : ∀ i ∈ groups, sum (part i) ≤ bound i) :
    sum (groups.flatMap part) ≤ (groups.map bound).sum := by
  induction groups with
  | nil => exact le_rfl
  | cons i rest ih =>
    rw [List.flatMap_cons, sum_append, List.map_cons, List.sum_cons]
    have hfirst := h i List.mem_cons_self
    have hrest := ih fun j hj => h j (List.mem_cons_of_mem _ hj)
    omega

end Tally
