import DropContracts.System.Vouchers

set_option relaxedAutoImplicit false
set_option autoImplicit false

/-!
# The deposits of the auto-withdrawer

Every record of the auto-withdrawer promises its deposit, to the bonder or to whoever withdraws the
voucher. The deposits come in with the bondings and are kept by the contract together with all other
coins that it is sent.

## Main definitions

* `System.depositsOf` — the recorded deposits of a denomination.

## Main results

* `System.deposits_covered` — the auto-withdrawer always has the coins of all recorded deposits.
-/

namespace DropContracts

namespace System

open AutoWithdrawer

variable {σ : Type} {d : VoucherDeployment} {C : Cw721 σ Payload} {w w' : Vouchers σ}

/-- The recorded deposits of a denomination. -/
def depositsOf (w : Vouchers σ) (denom : String) : ℕ :=
  w.auto.bondings.total fun bonding => coinsOf bonding.deposit denom

/-- **A step keeps the deposits covered.**

**Proof sketch.** A bonding brings at least the deposit that it records, and a record that it
replaces only lowers the sum. An unbonding and a withdrawal pay the deposit of the record that they
remove. Nobody else takes coins from the auto-withdrawer. -/
theorem depositsOf_step {action : VoucherAction} (hw : Custodial d C w)
    (hcovered : ∀ denom, depositsOf w denom ≤ w.bank.balance d.auto denom)
    (h : VoucherStep d C w action w') (denom : String) :
    depositsOf w' denom ≤ w'.bank.balance d.auto denom := by
  have hbefore := hcovered denom
  unfold depositsOf at hbefore ⊢
  rcases exec_cases hw.stored h with ⟨call, tokenId, deposit, rfl, hcase⟩ |
    ⟨call, tokenId, bonding, receiver, rfl, hcase⟩ | ⟨sender, -, hcase⟩
  · have htotal := StorageMap.total_save (fun bonding => coinsOf bonding.deposit denom)
      w.auto.bondings tokenId ⟨call.info.sender, deposit⟩
    have hbalance := hcase.balance denom
    rw [hcase.bondings]
    simp only at htotal
    omega
  · have htotal := StorageMap.total_remove (fun bonding => coinsOf bonding.deposit denom)
      w.auto.bondings tokenId
    have hbalance := hcase.balance denom
    rw [hcase.load] at htotal
    rw [hcase.bondings]
    simp only [Option.map_some, Option.getD_some] at htotal
    omega
  · rw [hcase.auto]
    exact hbefore.trans (hcase.balance denom)

/-- **The auto-withdrawer can always pay every recorded deposit**: in every reachable state it has
at least the recorded deposits of every denomination, and each of them can be sent.

**Proof sketch.** The induction is on the run. -/
theorem deposits_covered (h : VouchersReachable d C (fun _ _ => True) w) :
    (∀ denom, depositsOf w denom ≤ w.bank.balance d.auto denom) ∧
      ∀ tokenId bonding, w.auto.bondings.load tokenId = some bonding →
        ∀ receiver, ∃ bank, w.bank.send d.auto receiver bonding.deposit = some bank := by
  obtain ⟨w₀, hinit, hrun⟩ := h
  obtain ⟨hcustodial, hempty⟩ := hinit.custodial
  have hcovered₀ : ∀ denom, depositsOf w₀ denom ≤ w₀.bank.balance d.auto denom := by
    intro denom
    rw [depositsOf, hempty, StorageMap.total_empty]
    exact Nat.zero_le _
  have hcovered : ∀ denom, depositsOf w denom ≤ w.bank.balance d.auto denom := by
    refine hrun.preserves_of
      (P := fun w => ∀ denom, depositsOf w denom ≤ w.bank.balance d.auto denom) ?_ ?_
      hcustodial hcovered₀
    · exact fun s action t hstep hs => Custodial.step hs hstep
    · exact fun s action t hs _ hstep hcovered => depositsOf_step hs hcovered hstep
  refine ⟨hcovered, fun tokenId bonding hload receiver => Bank.exists_send fun denom => ?_⟩
  have hle : coinsOf bonding.deposit denom ≤ depositsOf w denom :=
    StorageMap.le_total (fun bonding => coinsOf bonding.deposit denom) hload
  exact hle.trans (hcovered denom)

open Sample

/-- Alice bonds a voucher, and bonds it again with LD tokens as the deposit; Bob bonds LD tokens
with two other coins. -/
theorem deposits_covered_sample : ∃ w : Vouchers Cw721Base,
    (∀ denom, depositsOf w denom ≤ w.bank.balance "auto" denom) ∧
      depositsOf w "base" = 7 ∧ depositsOf w "ld" = 20 ∧ w.bank.balance "auto" "base" = 17 := by
  have hrun : (runList (Vouchers.exec voucherDeployment (cw721Base Payload)) (fun _ _ => true)
      vouchers (bondedVoucher ++ [autoCall "alice" [⟨"ld", 20⟩] (.bond (.withNFT "v")),
        autoCall "bob" [⟨"base", 7⟩, ⟨"ld", 5⟩, ⟨"atom", 1⟩] (.bond .withLdAssets)])).any
      (fun w => decide (depositsOf w "base" = 7 ∧ depositsOf w "ld" = 20 ∧
        w.bank.balance "auto" "base" = 17)) = true := by
    decide
  obtain ⟨w, hw, hcheck⟩ := (Option.any_eq_true _ _).1 hrun
  have hreachable := vouchersReachable_of_runList (fun _ _ _ _ => trivial) hw
  exact ⟨w, (deposits_covered hreachable).1, of_decide_eq_true hcheck⟩

end System

end DropContracts
