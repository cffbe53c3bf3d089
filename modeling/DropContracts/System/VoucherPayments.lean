import DropContracts.System.Vouchers

set_option relaxedAutoImplicit false
set_option autoImplicit false

/-!
# A voucher is paid once

The withdrawal manager keeps no record of the vouchers that it has paid for. It pays for a voucher
when it is sent it, so the voucher is its own from then on; and the withdrawal manager sends no
voucher to anybody and grants nothing to anybody.

## Main definitions

* `System.PaidOnce` — paid vouchers are the withdrawal manager's, and were paid once.

## Main results

* `System.paid_at_most_once` — in every run every voucher is paid at most once.
-/

namespace DropContracts

namespace System

open AutoWithdrawer

variable {σ : Type} {d : VoucherDeployment} {C : Cw721 σ Payload} {w w' : Vouchers σ}
  {tokenId : String}

/-- The withdrawal manager owns every voucher that it has paid for, and has paid once for each. -/
structure PaidOnce (d : VoucherDeployment) (C : Cw721 σ Payload) (w : Vouchers σ) : Prop where
  owner : ∀ tokenId, (d.voucher, tokenId) ∈ w.payments →
    (C.custody w.nft).owner tokenId = some d.manager
  count : ∀ tokenId, w.payments.count (d.voucher, tokenId) ≤ 1

/-- A voucher that somebody else may move has not been paid. -/
theorem PaidOnce.not_mem (h : PaidOnce d C w) (hw : Custodial d C w) {caller : String}
    (hne : caller ≠ d.manager) (hmove : (C.custody w.nft).MayMove caller tokenId) :
    (d.voucher, tokenId) ∉ w.payments :=
  fun hmem => hw.managerSealed.not_mayMove hne (h.owner tokenId hmem) hmove

/-- One more payment, for a voucher that has not been paid and is the withdrawal manager's now. -/
theorem PaidOnce.append (h : PaidOnce d C w)
    (howner : ∀ t, (d.voucher, t) ∈ w.payments → (C.custody w'.nft).owner t = some d.manager)
    (hpayments : w'.payments = w.payments ++ [(d.voucher, tokenId)])
    (hnew : (d.voucher, tokenId) ∉ w.payments)
    (hmanager : (C.custody w'.nft).owner tokenId = some d.manager) : PaidOnce d C w' := by
  refine ⟨fun t ht => ?_, fun t => ?_⟩
  · rw [hpayments, List.mem_append, List.mem_singleton] at ht
    rcases ht with hold | heq
    · exact howner t hold
    · rw [(Prod.mk.inj heq).2]
      exact hmanager
  · rw [hpayments, List.count_append, List.count_singleton]
    by_cases ht : t = tokenId
    · subst ht
      rw [List.count_eq_zero.2 hnew]
      simp
    · have hne : ((d.voucher, tokenId) == (d.voucher, t)) = false := by simpa using Ne.symm ht
      rw [hne]
      exact h.count t

/-- The payments of the voucher contract stay when there is none, or one for another contract. -/
theorem PaidOnce.of_other (h : PaidOnce d C w)
    (howner : ∀ t, (d.voucher, t) ∈ w.payments → (C.custody w'.nft).owner t = some d.manager)
    (hpayments : w'.payments = w.payments ∨ ∃ contract t, contract ≠ d.voucher ∧
      w'.payments = w.payments ++ [(contract, t)]) : PaidOnce d C w' := by
  rcases hpayments with hsame | ⟨contract, t', hne, happend⟩
  · exact ⟨fun t ht => howner t (hsame ▸ ht), fun t => by rw [hsame]; exact h.count t⟩
  · refine ⟨fun t ht => ?_, fun t => ?_⟩
    · rw [happend, List.mem_append, List.mem_singleton] at ht
      rcases ht with hold | heq
      · exact howner t hold
      · exact absurd (Prod.mk.inj heq).1.symm hne
    · have hbeq : ((contract, t') == (d.voucher, t)) = false := by simp [hne]
      rw [happend, List.count_append, List.count_singleton, hbeq]
      exact h.count t

/-- **A step pays for no voucher a second time.**

**Proof sketch.** A payment needs a caller who may move the voucher; a paid voucher is owned by the
withdrawal manager, which is sealed. For the same reason the paid vouchers stay where they are. -/
theorem PaidOnce.step {action : VoucherAction} (hw : Custodial d C w) (h : PaidOnce d C w)
    (hstep : VoucherStep d C w action w') : PaidOnce d C w' := by
  rcases exec_cases hw.stored hstep with ⟨call, tokenId, deposit, rfl, hcase⟩ |
    ⟨call, tokenId, bonding, receiver, rfl, hcase⟩ | ⟨sender, -, hcase⟩
  · have hunpaid : (d.voucher, tokenId) ∉ w.payments := by
      rcases hcase.origin with ⟨-, hnew, -⟩ | ⟨-, hmove, -⟩
      · intro hmem
        rw [h.owner tokenId hmem] at hnew
        cases hnew
      · exact h.not_mem hw d.auto_ne_manager hmove
    refine h.of_other (fun t ht => ?_) (.inl hcase.payments)
    have hne : t ≠ tokenId := by
      rintro rfl
      exact hunpaid ht
    rw [hcase.custody, Custody.owner_place_of_ne _ _ hne]
    exact h.owner t ht
  · have hunpaid := h.not_mem hw d.auto_ne_manager hcase.right
    have howner : ∀ t, (d.voucher, t) ∈ w.payments →
        (C.custody w'.nft).owner t = some d.manager := by
      intro t ht
      have hne : t ≠ tokenId := by
        rintro rfl
        exact hunpaid ht
      rw [hcase.custody, Custody.owner_place_of_ne _ _ hne]
      exact h.owner t ht
    rcases hcase.payments with hsame | ⟨rfl, hpaid⟩
    · exact h.of_other howner (.inl hsame)
    · refine h.append howner hpaid hunpaid ?_
      rw [hcase.custody, Custody.owner_place_self]
  · have howner : ∀ t, (d.voucher, t) ∈ w.payments →
        (C.custody w'.nft).owner t = some d.manager := fun t ht =>
      hcase.change.owner_eq_of_sealed hcase.outside.2 hw.managerSealed (h.owner t ht)
    rcases hcase.payments with hsame | ⟨tokenId, hmove, hplace, hpaid⟩ | hother
    · exact h.of_other howner (.inl hsame)
    · refine h.append howner hpaid (h.not_mem hw hcase.outside.2 hmove) ?_
      rw [hplace, Custody.owner_place_self]
    · exact h.of_other howner (.inr hother)

/-- **A voucher is paid at most once**, in every run: at most one payment of the withdrawal manager
is for a given voucher of the voucher contract, and a paid voucher is the withdrawal manager's. -/
theorem paid_at_most_once (h : VouchersReachable d C (fun _ _ => True) w) (tokenId : String) :
    w.payments.count (d.voucher, tokenId) ≤ 1 ∧ ((d.voucher, tokenId) ∈ w.payments →
      (C.custody w.nft).owner tokenId = some d.manager) := by
  obtain ⟨w₀, hinit, hrun⟩ := h
  have hpaid₀ : PaidOnce d C w₀ := by
    refine ⟨fun t ht => ?_, fun t => ?_⟩
    · rw [hinit.payments] at ht
      cases ht
    · rw [hinit.payments]
      exact Nat.zero_le _
  have hpaid : PaidOnce d C w := by
    refine hrun.preserves_of (P := PaidOnce d C) ?_ ?_ hinit.custodial.1 hpaid₀
    · exact fun s action t hstep hs => Custodial.step hs hstep
    · exact fun s action t hs _ hstep hpaid => hpaid.step hs hstep
  exact ⟨hpaid.count tokenId, hpaid.owner tokenId⟩

open Sample

/-- Bob withdraws the voucher of Alice, and Alice sends another voucher herself. -/
theorem paid_at_most_once_sample : ∃ w : Vouchers Cw721Base,
    w.payments.count ("voucher", "v") ≤ 1 ∧
      w.payments = [("voucher", "v"), ("voucher", "u")] ∧
      w.bank.balance "manager" "base" = 980 ∧ w.bank.balance "bob" "base" = 1010 := by
  have hrun : (runList (Vouchers.exec voucherDeployment (cw721Base Payload)) (fun _ _ => true)
      vouchers (bondedVoucher ++ [autoCall "bob" [] (.withdraw "v"),
        voucherCall "core" (.mint "u" "alice"),
        voucherCall "alice" (.sendNft "manager" "u" (some (.withdraw none)))])).any
      (fun w => decide (w.payments = [("voucher", "v"), ("voucher", "u")] ∧
        w.bank.balance "manager" "base" = 980 ∧ w.bank.balance "bob" "base" = 1010)) = true := by
    decide
  obtain ⟨w, hw, hcheck⟩ := (Option.any_eq_true _ _).1 hrun
  have hreachable := vouchersReachable_of_runList (fun _ _ _ _ => trivial) hw
  exact ⟨w, (paid_at_most_once hreachable "v").1, of_decide_eq_true hcheck⟩

end System

end DropContracts
