import DropContracts.System.Vouchers

set_option relaxedAutoImplicit false
set_option autoImplicit false

/-!
# Who a bonding belongs to

A bonding record should belong to the account that brought the voucher: its owner right before it
came into custody, or the account whose LD tokens it was minted for. The record of a bonded voucher
is written for the caller, and then the auto-withdrawer moves the voucher with its own rights. So
the caller has to own the voucher, or to have brought it already, for the record to be right.

## Main definitions

* `System.OwnBondings` — the bonder of every record brought its voucher.
* `System.RecordsKept` — a step leaves the records of other accounts alone, but for withdrawals.
* `System.VoucherAction.BringsOwn` — a voucher is bonded by its owner, or by who brought it.

## Main results

* `System.ownBondings_of_run` — both hold along every run of such steps.
* `System.ownBondings_after_bond_iff` — after a voucher has been bonded, the records belong to those
  who brought the vouchers exactly when the step was one of these.
-/

namespace DropContracts

namespace System

open AutoWithdrawer

variable {σ : Type} (d : VoucherDeployment) (C : Cw721 σ Payload)

/-- The bonder of every record is the account that brought the voucher. -/
def OwnBondings (w : Vouchers σ) : Prop :=
  ∀ tokenId bonding, w.auto.bondings.load tokenId = some bonding →
    w.broughtBy tokenId = some bonding.bonder

/-- A step keeps a record, unless its bonder calls, or the voucher is withdrawn and the record with
it. -/
def RecordsKept (w : Vouchers σ) (action : VoucherAction) (w' : Vouchers σ) : Prop :=
  ∀ tokenId bonding, w.auto.bondings.load tokenId = some bonding →
    w'.auto.bondings.load tokenId = some bonding ∨
      ∃ call, action = .autoWithdrawer call ∧ (call.info.sender = bonding.bonder ∨
        call.msg = .withdraw tokenId ∧ w'.auto.bondings.load tokenId = none)

/-- The caller and the voucher of a bonding of a voucher. -/
def VoucherAction.bonded : VoucherAction → Option (String × String)
  | .autoWithdrawer call =>
    match call.msg with
    | .bond (.withNFT tokenId) => some (call.info.sender, tokenId)
    | _ => none
  | _ => none

/-- A voucher is bonded by its owner, or, while it is in custody, by the account that brought it. -/
def VoucherAction.BringsOwn (w : Vouchers σ) (action : VoucherAction) : Prop :=
  ∀ bonded ∈ action.bonded, (C.custody w.nft).owner bonded.2 = some bonded.1 ∨
    (C.custody w.nft).owner bonded.2 = some d.auto ∧ w.broughtBy bonded.2 = some bonded.1

instance (w : Vouchers σ) (action : VoucherAction) : Decidable (action.BringsOwn d C w) :=
  inferInstanceAs (Decidable (∀ bonded ∈ action.bonded,
    (C.custody w.nft).owner bonded.2 = some bonded.1 ∨
      (C.custody w.nft).owner bonded.2 = some d.auto ∧ w.broughtBy bonded.2 = some bonded.1))

section Steps

variable {d C} {w w' : Vouchers σ} {call : AutoCall} {tokenId : String} {deposit : List Coin}
  {action : VoucherAction}

/-! ## A voucher is taken -/

/-- Who brought the voucher that is taken: its owner, if it was not in custody. -/
theorem broughtAfter_place_self (custody : Custody String String)
    (broughtBy : String → Option String) :
    broughtAfter d custody (custody.place tokenId (some d.auto)) broughtBy tokenId =
      if custody.owner tokenId = some d.auto then broughtBy tokenId
      else custody.owner tokenId := by
  by_cases howner : custody.owner tokenId = some d.auto
  · simp [broughtAfter, howner]
  · simp [broughtAfter, howner]

/-- The history of the other vouchers stays when one is taken. -/
theorem Taken.broughtBy_of_ne (h : Taken d C w call tokenId deposit w') {t : String}
    (ht : t ≠ tokenId) : w'.broughtBy t = w.broughtBy t := by
  rcases h.origin with ⟨-, -, hbrought⟩ | ⟨-, -, hbrought⟩
  · rw [hbrought, Function.update_of_ne ht]
  · rw [hbrought, h.custody]
    exact broughtAfter_place_of_ne ht

/-- A voucher is taken in the right name exactly when the caller brought it. -/
theorem Taken.ownBondings_iff (h : Taken d C w call tokenId deposit w') (hown : OwnBondings w) :
    OwnBondings w' ↔ w'.broughtBy tokenId = some call.info.sender := by
  constructor
  · intro hown'
    refine hown' tokenId ⟨call.info.sender, deposit⟩ ?_
    rw [h.bondings, StorageMap.load_save_self]
  · intro hsender t bonding hload
    rw [h.bondings, StorageMap.load_save] at hload
    split_ifs at hload with ht
    · rw [ht, hsender, ← Option.some.inj hload]
    · rw [h.broughtBy_of_ne ht]
      exact hown t bonding hload

/-- The records of the other vouchers are kept when one is taken; the record of this voucher may be
replaced by its bonder. -/
theorem Taken.recordsKept (h : Taken d C w call tokenId deposit w')
    (hbonder : ∀ bonding, w.auto.bondings.load tokenId = some bonding →
      call.info.sender = bonding.bonder) :
    RecordsKept w (.autoWithdrawer call) w' := by
  intro t bonding hload
  by_cases ht : t = tokenId
  · exact .inr ⟨call, rfl, .inl (hbonder bonding (ht ▸ hload))⟩
  · left
    rw [h.bondings, StorageMap.load_save_of_ne _ _ ht, hload]

/-- **After a voucher has been bonded** the records belong to those who brought the vouchers exactly
when the caller owned the voucher, or had brought it. -/
theorem ownBondings_after_bond_iff (hw : Custodial d C w) (hown : OwnBondings w)
    (hmsg : call.msg = .bond (.withNFT tokenId))
    (h : VoucherStep d C w (.autoWithdrawer call) w') :
    OwnBondings w' ∧ RecordsKept w (.autoWithdrawer call) w' ↔
      VoucherAction.BringsOwn d C w (.autoWithdrawer call) := by
  have htaken := exec_bondWithNft hw.stored hmsg h
  have houtside := (exec_autoWithdrawer h).1
  have hbonded : (VoucherAction.autoWithdrawer call).bonded = some (call.info.sender, tokenId) := by
    simp only [VoucherAction.bonded, hmsg]
  have hbrought : w'.broughtBy tokenId =
      if (C.custody w.nft).owner tokenId = some d.auto then w.broughtBy tokenId
      else (C.custody w.nft).owner tokenId := by
    rcases htaken.origin with ⟨hld, -, -⟩ | ⟨-, -, hbrought⟩
    · rw [hmsg] at hld
      cases hld
    · rw [hbrought, htaken.custody, broughtAfter_place_self]
  rw [htaken.ownBondings_iff hown, hbrought]
  constructor
  · rintro ⟨hsender, -⟩ bonded hmem
    obtain rfl := Option.some.inj (hbonded.symm.trans hmem)
    split_ifs at hsender with hauto
    · exact .inr ⟨hauto, hsender⟩
    · exact .inl hsender
  · intro hbrings
    rcases hbrings _ hbonded with howner | ⟨hauto, hsender⟩
    · -- the caller's own voucher is not in custody, so it has no record
      have hne : (C.custody w.nft).owner tokenId ≠ some d.auto := by
        rw [howner]
        exact fun heq => houtside.1 (Option.some.inj heq)
      rw [if_neg hne]
      exact ⟨howner, htaken.recordsKept fun bonding hload =>
        absurd (hw.held tokenId bonding hload) hne⟩
    · rw [if_pos hauto]
      exact ⟨hsender, htaken.recordsKept fun bonding hload =>
        Option.some.inj (hsender.symm.trans (hown tokenId bonding hload))⟩

/-- A bonding of LD tokens is in the right name: the voucher is new. -/
theorem ownBondings_after_bondWithLdAssets (hw : Custodial d C w) (hown : OwnBondings w)
    (hmsg : call.msg = .bond .withLdAssets) (h : VoucherStep d C w (.autoWithdrawer call) w') :
    OwnBondings w' ∧ RecordsKept w (.autoWithdrawer call) w' := by
  obtain ⟨deposit, htaken⟩ := exec_bondWithLdAssets hw.stored hmsg h
  rcases htaken.origin with ⟨-, hnew, hbrought⟩ | ⟨hnft, -, -⟩
  · refine ⟨(htaken.ownBondings_iff hown).2 ?_, htaken.recordsKept fun bonding hload => ?_⟩
    · rw [hbrought, Function.update_self]
    · have hheld := hw.held _ bonding hload
      rw [hnew] at hheld
      cases hheld
  · rw [hmsg] at hnft
    cases hnft

/-! ## A voucher is given away, and other steps -/

/-- The other records stay when a voucher is given away, to its bonder or by a withdrawal. -/
theorem Given.ownBondings {bonding : BondingRecord} {receiver : String}
    (h : Given d C w call tokenId bonding receiver w') (hown : OwnBondings w) :
    OwnBondings w' ∧ RecordsKept w (.autoWithdrawer call) w' := by
  refine ⟨fun t bonding' hload => ?_, fun t bonding' hload => ?_⟩
  · rw [h.bondings, StorageMap.load_remove] at hload
    split_ifs at hload with ht
    rw [h.broughtBy, h.custody, broughtAfter_place_of_ne ht]
    exact hown t bonding' hload
  · rw [h.bondings, StorageMap.load_remove]
    by_cases ht : t = tokenId
    · subst ht
      obtain rfl := Option.some.inj (h.load.symm.trans hload)
      rcases h.caller with ⟨-, hbonder⟩ | hmsg
      · exact .inr ⟨call, rfl, .inl hbonder⟩
      · exact .inr ⟨call, rfl, .inr ⟨hmsg, if_pos rfl⟩⟩
    · left
      rw [if_neg ht, hload]

/-- The steps of others change no record, and no history of a recorded voucher. -/
theorem OutsideStep.ownBondings {sender : String} (hw : Custodial d C w)
    (h : OutsideStep d C w sender w') (hown : OwnBondings w) :
    OwnBondings w' ∧ RecordsKept w action w' := by
  refine ⟨fun t bonding hload => ?_, fun t bonding hload => .inl (h.auto ▸ hload)⟩
  rw [h.auto] at hload
  rw [h.broughtBy, broughtAfter, if_neg fun hne => hne.2 (hw.held t bonding hload)]
  exact hown t bonding hload

/-- **A step that brings its own voucher** keeps the records with those who brought the vouchers. -/
theorem OwnBondings.step (hw : Custodial d C w) (hown : OwnBondings w)
    (hbrings : action.BringsOwn d C w) (h : VoucherStep d C w action w') :
    OwnBondings w' ∧ RecordsKept w action w' := by
  rcases exec_cases hw.stored h with ⟨call, tokenId, deposit, rfl, hcase⟩ |
    ⟨call, tokenId, bonding, receiver, rfl, hcase⟩ | ⟨sender, -, hcase⟩
  · rcases hcase.origin with ⟨hmsg, -, -⟩ | ⟨hmsg, -, -⟩
    · exact ownBondings_after_bondWithLdAssets hw hown hmsg h
    · exact (ownBondings_after_bond_iff hw hown hmsg h).2 hbrings
  · exact hcase.ownBondings hown
  · exact hcase.ownBondings hw hown

end Steps

/-! ## Runs -/

section Runs

variable {d C} {w : Vouchers σ}

/-- **A bonding belongs to the account that brought it**, in every run whose vouchers are bonded by
their owners, or by who brought them: the bonder of every record brought the voucher, and a further
such step keeps every record unless its bonder calls or the voucher is withdrawn.

**Proof sketch.** A voucher that is taken comes from the caller: it was minted for its tokens, or
the caller owned it. A recorded voucher is in custody and cannot leave it without its record. -/
theorem ownBondings_of_run
    (h : VouchersReachable d C (fun w action => action.BringsOwn d C w) w) :
    OwnBondings w ∧ ∀ action w', action.BringsOwn d C w → VoucherStep d C w action w' →
      RecordsKept w action w' := by
  have hw := h.custodial
  obtain ⟨w₀, hinit, hrun⟩ := h
  obtain ⟨hcustodial, hempty⟩ := hinit.custodial
  have hown₀ : OwnBondings w₀ := by
    intro tokenId bonding hload
    rw [hempty] at hload
    cases hload
  have hown : OwnBondings w := by
    refine hrun.preserves_of (P := OwnBondings) ?_ ?_ hcustodial hown₀
    · exact fun s action t hstep hs => Custodial.step hs hstep
    · exact fun s action t hs hok hstep hown => (hown.step hs hok hstep).1
  exact ⟨hown, fun action w' hbrings hstep => (hown.step hw hbrings hstep).2⟩

open Sample

/-- Alice bonds her voucher, and bonds it again with another deposit. -/
theorem ownBondings_of_run_sample : ∃ w : Vouchers Cw721Base, OwnBondings w ∧
    w.auto.bondings.load "v" = some ⟨"alice", [⟨"base", 20⟩]⟩ := by
  have hrun : (runList (Vouchers.exec voucherDeployment (cw721Base Payload))
      (fun w action => decide (action.BringsOwn voucherDeployment (cw721Base Payload) w)) vouchers
      (bondedVoucher ++ [autoCall "alice" [⟨"base", 20⟩] (.bond (.withNFT "v"))])).any
      (fun w => decide (w.auto.bondings.load "v" = some ⟨"alice", [⟨"base", 20⟩]⟩)) = true := by
    decide
  obtain ⟨w, hw, hcheck⟩ := (Option.any_eq_true _ _).1 hrun
  have hreachable := vouchersReachable_of_runList (fun s action _ h => of_decide_eq_true h) hw
  exact ⟨w, (ownBondings_of_run hreachable).1, of_decide_eq_true hcheck⟩

/-- **A voucher in custody can be bonded by anybody.** The auto-withdrawer moves its own voucher to
itself, the record of Alice becomes one of Mallory, and Mallory can take the voucher away. -/
theorem bonding_replaced : ¬ ∀ w : Vouchers Cw721Base,
    VouchersReachable voucherDeployment (cw721Base Payload) (fun _ _ => True) w →
      OwnBondings w := by
  intro hall
  have hrun : (runList (Vouchers.exec voucherDeployment (cw721Base Payload)) (fun _ _ => true)
      vouchers (bondedVoucher ++ [autoCall "mallory" [⟨"base", 1⟩] (.bond (.withNFT "v"))])).any
      (fun w => decide (w.auto.bondings.load "v" = some ⟨"mallory", [⟨"base", 1⟩]⟩ ∧
        w.broughtBy "v" = some "alice" ∧
        ((w.exec voucherDeployment (cw721Base Payload) (autoCall "mallory" [] (.unbond "v"))).any
          fun w => decide ((w.nft.custody).owner "v" = some "mallory")) = true)) = true := by
    decide
  obtain ⟨w, hw, hcheck⟩ := (Option.any_eq_true _ _).1 hrun
  obtain ⟨hload, hbrought, -⟩ := of_decide_eq_true hcheck
  have hown := hall w (vouchersReachable_of_runList (fun _ _ _ _ => trivial) hw)
  rw [hown "v" _ hload] at hbrought
  exact absurd hbrought (by decide)

end Runs

end System

end DropContracts
