import Mathlib.Logic.Function.Basic
import Mathlib.Tactic.SplitIfs

set_option relaxedAutoImplicit false
set_option autoImplicit false

/-!
# Custody of unique items

Every item has at most one owner. An owner may let others move a single item (approval) or all of
its items (operator). A change of the owner clears the approvals of the item. An account that has
granted nothing is sealed: as long as it does not call itself, its items stay where they are.

## Main definitions

* `Custody` — the owners, the approvals and the operators.
* `Custody.MayMove`, `Custody.MayApprove` — the rights of a caller.
* `Custody.place` — the custody after an item has changed hands.
* `Custody.Change` — what a call of somebody can do.
* `Custody.Sealed` — an account that has granted nothing.

## Main results

* `Custody.Change.sealed` — a sealed account stays sealed while others call.
* `Custody.Change.owner_eq_of_sealed` — a sealed account keeps its items while others call.
-/

/-- The owners of the items, and who else may move them: the approved callers of an item, and the
operators of an owner. -/
structure Custody (ι τ : Type) where
  owner : τ → Option ι
  approved : τ → ι → Prop
  operator : ι → ι → Prop

namespace Custody

variable {ι τ : Type}

/-! ## Rights -/

/-- The owner of an item, its approved callers and the operators of its owner may move it. -/
def MayMove (c : Custody ι τ) (caller : ι) (item : τ) : Prop :=
  ∃ o, c.owner item = some o ∧ (caller = o ∨ c.approved item caller ∨ c.operator o caller)

/-- The owner of an item and the owner's operators may approve others. -/
def MayApprove (c : Custody ι τ) (caller : ι) (item : τ) : Prop :=
  ∃ o, c.owner item = some o ∧ (caller = o ∨ c.operator o caller)

/-- A change of rights: the owners stay, approvals come from those who may approve, and everybody
makes only its own operators. -/
structure Grants (c : Custody ι τ) (caller : ι) (c' : Custody ι τ) : Prop where
  owner : c'.owner = c.owner
  approved : ∀ t s, c'.approved t s → c.approved t s ∨ c.MayApprove caller t
  operator : ∀ o s, c'.operator o s → c.operator o s ∨ o = caller

/-! ## Sealed accounts -/

/-- The account has granted nothing: its items have no approvals, and it has no operators. -/
structure Sealed (c : Custody ι τ) (o : ι) : Prop where
  approved : ∀ t, c.owner t = some o → ∀ s, ¬ c.approved t s
  operator : ∀ s, ¬ c.operator o s

/-- Nobody else may move an item of a sealed account. -/
theorem Sealed.not_mayMove {c : Custody ι τ} {o caller : ι} (h : c.Sealed o) (hne : caller ≠ o)
    {t : τ} (ht : c.owner t = some o) : ¬ c.MayMove caller t := by
  rintro ⟨o', ho', hright⟩
  obtain rfl : o = o' := Option.some.inj (ht.symm.trans ho')
  rcases hright with heq | happroved | hoperator
  · exact hne heq
  · exact h.approved t ht caller happroved
  · exact h.operator caller hoperator

/-! ## Changes -/

variable [DecidableEq τ]

/-- The custody after an item has been given to a new owner, or has been destroyed. The approvals of
the item are gone. -/
def place (c : Custody ι τ) (item : τ) (o : Option ι) : Custody ι τ where
  owner := Function.update c.owner item o
  approved t caller := t ≠ item ∧ c.approved t caller
  operator := c.operator

/-- The owner of the item that has changed hands. -/
@[simp] theorem owner_place_self (c : Custody ι τ) (item : τ) (o : Option ι) :
    (c.place item o).owner item = o := by
  simp [place]

/-- The owners of the other items. -/
@[simp] theorem owner_place_of_ne (c : Custody ι τ) {item t : τ} (o : Option ι) (h : t ≠ item) :
    (c.place item o).owner t = c.owner t := by
  simp [place, h]

/-- What a call can do: move or destroy an item, create one, or change the rights. -/
inductive Change (c : Custody ι τ) (caller : ι) : Custody ι τ → Prop
  | move (item : τ) (o : Option ι) (h : c.MayMove caller item) : Change c caller (c.place item o)
  | create (item : τ) (o : ι) (h : c.owner item = none) : Change c caller (c.place item (some o))
  | grant (c' : Custody ι τ) (h : c.Grants caller c') : Change c caller c'

variable {c c' : Custody ι τ} {o caller : ι}

/-- An account stays sealed when an item changes hands, also when it gets the item itself. -/
theorem Sealed.place (h : c.Sealed o) (item : τ) (o' : Option ι) : (c.place item o').Sealed o := by
  refine ⟨fun t ht s hs => ?_, h.operator⟩
  obtain ⟨hne, hs⟩ := hs
  rw [owner_place_of_ne c o' hne] at ht
  exact h.approved t ht s hs

/-- **A sealed account stays sealed** while others call. -/
theorem Change.sealed (h : c.Change caller c') (hne : caller ≠ o) (hs : c.Sealed o) :
    c'.Sealed o := by
  cases h with
  | move item o' _ => exact hs.place item o'
  | create item o' _ => exact hs.place item (some o')
  | grant _ hgrant =>
    refine ⟨fun t ht s hts => ?_, fun s hos => ?_⟩
    · rw [hgrant.owner] at ht
      rcases hgrant.approved t s hts with hold | ⟨o', ho', hright⟩
      · exact hs.approved t ht s hold
      · exact hs.not_mayMove hne ht ⟨o', ho', hright.imp_right .inr⟩
    · rcases hgrant.operator o s hos with hold | heq
      · exact hs.operator s hold
      · exact hne heq.symm

/-- **A sealed account keeps its items** while others call. -/
theorem Change.owner_eq_of_sealed (h : c.Change caller c') (hne : caller ≠ o) (hs : c.Sealed o)
    {t : τ} (ht : c.owner t = some o) : c'.owner t = some o := by
  cases h with
  | move item o' hmove =>
    have hitem : t ≠ item := by
      rintro rfl
      exact hs.not_mayMove hne ht hmove
    rw [owner_place_of_ne c o' hitem, ht]
  | create item o' hnone =>
    have hitem : t ≠ item := by
      rintro rfl
      rw [ht] at hnone
      cases hnone
    rw [owner_place_of_ne c (some o') hitem, ht]
  | grant _ hgrant => rw [hgrant.owner, ht]

end Custody
