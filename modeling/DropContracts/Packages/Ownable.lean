import DropContracts.Packages.Cw721

set_option relaxedAutoImplicit false
set_option autoImplicit false

/-!
# Ownership in two steps

`cw_ownable` is a dependency of the repository and not a part of it. What the contracts rely on is
its documented behaviour: the owner proposes another owner, who accepts before the proposal expires;
and the owner may give the ownership up for good.

## Main definitions

* `Ownership`, `OwnershipError` — the storage item and the errors.
* `Ownership.assertOwner`, `Ownership.update` — the check of the owner and the three actions.

## Main results

* `Ownership.update_ok` — only the owner and the proposed owner change the ownership.
-/

namespace DropContracts

open Exec

/-- The owner, and the owner that has been proposed. -/
structure Ownership where
  owner : Option String
  pendingOwner : Option String
  pendingExpiry : Option Expiration
  deriving DecidableEq, Repr

/-- The errors of the ownership. -/
inductive OwnershipError where
  | std (e : StdError)
  | noOwner
  | notOwner
  | notPendingOwner
  | transferNotFound
  | transferExpired
  deriving DecidableEq, Repr

namespace Ownership

variable (o : Ownership) (env : Env) (addrValidate : String → Bool) (sender : String)

/-- `initialize_owner`, for an owner that is given. -/
def initializeOwner (owner : String) : Exec OwnershipError Ownership := do
  ensure (addrValidate owner = true) (.std (.genericErr "addr_validate errored"))
  return ⟨some owner, none, none⟩

/-- `assert_owner`. -/
def assertOwner : Exec OwnershipError Unit :=
  match o.owner with
  | some owner => ensure (sender = owner) .notOwner
  | none => fail .noOwner

/-- `update_ownership`. -/
def update : OwnershipAction → Exec OwnershipError Ownership
  | .transferOwnership newOwner expiry => do
    o.assertOwner sender
    ensure (addrValidate newOwner = true) (.std (.genericErr "addr_validate errored"))
    return { o with pendingOwner := some newOwner, pendingExpiry := expiry }
  | .acceptOwnership => do
    let pendingOwner ← orError o.pendingOwner .transferNotFound
    ensure (sender = pendingOwner) .notPendingOwner
    ensure (o.pendingExpiry.any (fun e => e.isExpired env) = false) .transferExpired
    return ⟨some pendingOwner, none, none⟩
  | .renounceOwnership => do
    o.assertOwner sender
    return ⟨none, none, none⟩

variable {o env addrValidate sender}

/-- The check passes for the owner only. -/
@[simp] theorem assertOwner_eq_ok {u : Unit} :
    o.assertOwner sender = .ok u ↔ o.owner = some sender := by
  unfold assertOwner
  cases o.owner with
  | none => simp
  | some owner =>
    rw [ensure_eq_ok, Option.some.injEq]
    exact eq_comm

/-- **Only the owner and the proposed owner change the ownership.** -/
theorem update_ok {o' : Ownership} {action : OwnershipAction}
    (h : o.update env addrValidate sender action = .ok o') :
    o.owner = some sender ∨ o.pendingOwner = some sender := by
  cases action with
  | transferOwnership newOwner expiry =>
    simp only [update, bind_eq_ok, assertOwner_eq_ok] at h
    obtain ⟨-, howner, -⟩ := h
    exact .inl howner
  | acceptOwnership =>
    simp only [update, bind_eq_ok, orError_eq_ok, ensure_eq_ok] at h
    obtain ⟨pendingOwner, hpending, -, rfl, -⟩ := h
    exact .inr hpending
  | renounceOwnership =>
    simp only [update, bind_eq_ok, assertOwner_eq_ok] at h
    obtain ⟨-, howner, -⟩ := h
    exact .inl howner

end Ownership

end DropContracts
