import DropContracts.Core.Execute

set_option relaxedAutoImplicit false
set_option autoImplicit false

/-!
# The accounting of LSM shares

A bonded LSM share is pending until it has been sent to the remote chain, then it waits for its
redemption, and it is forgotten when the redemption has succeeded. `TOTAL_LSM_SHARES` counts it
all the time. The three operations that move shares cannot fail for shares that are pending or
waiting; the success of a transfer of more shares than are pending aborts.

## Main definitions

* `Core.Storage.pendingAmount` — the pending amount of one denomination.
* `Core.LsmInv` — the total is the sum over the two maps, and fits.

## Main results

* `Core.LsmInv.record`, `Core.LsmInv.sent`, `Core.LsmInv.redeemed` — the operations keep the
  invariant, and the last two return.
* `Core.recordSentShares_abort` — the success of a transfer of too many shares aborts.
* `Core.tick_lsm` — a tick moves no shares.
-/

namespace DropContracts

namespace Core

open Exec

/-- The pending amount of one denomination. -/
def Storage.pendingAmount (s : Storage) (denom : String) : ℕ :=
  ((s.pendingLsmShares.load denom).map Prod.snd).getD 0

/-- The total of the LSM shares is the sum over the pending ones and those to redeem. No amount
that is pending is zero. -/
structure LsmInv (s : Storage) : Prop where
  total : s.totalLsmShares =
    s.pendingLsmShares.total Prod.snd + s.lsmSharesToRedeem.total Prod.snd
  fits : s.totalLsmShares < Uint128.bound
  positive : ∀ denom x, s.pendingLsmShares.load denom = some x → x.2 ≠ 0

/-- The three fields of the accounting are the same. -/
structure SameLsm (s s' : Storage) : Prop where
  total : s'.totalLsmShares = s.totalLsmShares
  pending : s'.pendingLsmShares = s.pendingLsmShares
  toRedeem : s'.lsmSharesToRedeem = s.lsmSharesToRedeem

/-! ## The operations -/

section Operations

variable {s s' : Storage}

/-- Nothing is bonded after instantiation. -/
theorem LsmInv.instantiate (config : Config) (owner : String) (now : ℕ) :
    LsmInv (Core.instantiate config owner now) :=
  ⟨rfl, Uint128.bound_pos, fun _ _ hx => by cases hx⟩

/-- The invariant only depends on the fields of the accounting. -/
theorem LsmInv.of_same (h : LsmInv s) (hsame : SameLsm s s') : LsmInv s' := by
  refine ⟨?_, ?_, ?_⟩
  · rw [hsame.total, hsame.pending, hsame.toRedeem]
    exact h.total
  · rw [hsame.total]
    exact h.fits
  · rw [hsame.pending]
    exact h.positive

/-- The amount a map of shares holds under a denomination counts in its total. -/
theorem total_save_add (m : StorageMap String (String × ℕ)) (denom remote : String)
    (amount : ℕ) :
    (m.save denom (((m.load denom).getD (remote, 0)).1,
      ((m.load denom).getD (remote, 0)).2 + amount)).total Prod.snd =
        m.total Prod.snd + amount := by
  have htotal := StorageMap.total_save Prod.snd m denom
    (((m.load denom).getD (remote, 0)).1, ((m.load denom).getD (remote, 0)).2 + amount)
  cases hload : m.load denom with
  | none =>
    simp only [hload, Option.map_none, Option.getD_none] at htotal ⊢
    omega
  | some x =>
    simp only [hload, Option.map_some, Option.getD_some] at htotal ⊢
    omega

/-- **A bond** keeps the invariant: a bonded share is added to the pending ones and the total. -/
theorem LsmInv.record (h : LsmInv s) {coin : Coin} (hcoin : coin.amount ≠ 0)
    {denomType : DenomType} (hrecord : BondRecord s coin denomType s') : LsmInv s' := by
  cases hrecord with
  | base => exact h
  | lsmShare remoteDenom hfit =>
    refine ⟨?_, hfit, fun denom x hx => ?_⟩
    · have htotal := h.total
      dsimp only
      rw [total_save_add]
      omega
    · simp only [StorageMap.load_save] at hx
      split_ifs at hx with hdenom
      · rw [← Option.some.inj hx]
        simp only
        omega
      · exact h.positive denom x hx

/-- **Sent shares** that were pending are moved to the shares to redeem. -/
theorem LsmInv.sent (h : LsmInv s) {denom remote : String} {current amount : ℕ}
    (hload : s.pendingLsmShares.load denom = some (remote, current)) (hle : amount ≤ current) :
    ∃ s', recordSentShares s denom amount = .ok s' ∧ LsmInv s' ∧
      ∀ denom' x, s'.pendingLsmShares.load denom' = some x →
        ∃ x', s.pendingLsmShares.load denom' = some x' := by
  have hpending := StorageMap.le_total Prod.snd hload
  have hone := total_save_add s.lsmSharesToRedeem denom remote amount
  have hle_one : ((s.lsmSharesToRedeem.load denom).getD (remote, 0)).2 ≤
      s.lsmSharesToRedeem.total Prod.snd := by
    cases hredeem : s.lsmSharesToRedeem.load denom with
    | none => exact Nat.zero_le _
    | some x => exact StorageMap.le_total Prod.snd hredeem
  have htotal := h.total
  have hfits := h.fits
  simp only at hpending
  -- the moved amount is part of a total that fits
  have hadd : (checkedAdd Uint128.bound ((s.lsmSharesToRedeem.load denom).getD (remote, 0)).2
      amount : Result ℕ) =
        .ok (((s.lsmSharesToRedeem.load denom).getD (remote, 0)).2 + amount) := by
    rw [checkedAdd_eq_ok]
    exact ⟨rfl, by omega⟩
  simp only [recordSentShares, hload, hadd, ok_bind, pure_eq_ok]
  split_ifs with heq
  · refine ⟨_, rfl, ⟨?_, hfits, fun denom' x hx => ?_⟩, ?_⟩
    · have hremove := StorageMap.total_remove Prod.snd s.pendingLsmShares denom
      simp only [hload, Option.map_some, Option.getD_some] at hremove
      dsimp only
      rw [hone]
      omega
    · simp only [StorageMap.load_remove] at hx
      split_ifs at hx
      exact h.positive denom' x hx
    · intro denom' x hx
      simp only [StorageMap.load_remove] at hx
      split_ifs at hx
      exact ⟨x, hx⟩
  · have hrest : (checkedSub current amount : Result ℕ) = .ok (current - amount) := by
      rw [checkedSub_eq_ok]
      omega
    rw [hrest]
    refine ⟨_, rfl, ⟨?_, hfits, fun denom' x hx => ?_⟩, ?_⟩
    · have hsave := StorageMap.total_save Prod.snd s.pendingLsmShares denom
        (remote, current - amount)
      simp only [hload, Option.map_some, Option.getD_some] at hsave
      dsimp only
      rw [hone]
      omega
    · simp only [StorageMap.load_save] at hx
      split_ifs at hx with hdenom
      · rw [← Option.some.inj hx]
        simp only
        omega
      · exact h.positive denom' x hx
    · intro denom' x hx
      simp only [StorageMap.load_save] at hx
      split_ifs at hx with hdenom
      · exact ⟨_, hdenom ▸ hload⟩
      · exact ⟨x, hx⟩

/-- **More shares than are pending** cannot be accounted for. -/
theorem recordSentShares_abort {denom remote : String} {current amount : ℕ}
    (hload : s.pendingLsmShares.load denom = some (remote, current)) (hlt : current < amount) :
    recordSentShares s denom amount = .error .abort := by
  simp only [recordSentShares, hload]
  cases hadd : (checkedAdd Uint128.bound ((s.lsmSharesToRedeem.load denom).getD (remote, 0)).2
      amount : Result ℕ) with
  | error e => rw [(checkedAdd_eq_error.1 hadd).2, error_bind]
  | ok one =>
    have hrest : (checkedSub current amount : Result ℕ) = .error .abort := if_neg (by omega)
    rw [ok_bind, if_neg (by omega), hrest, error_bind]

/-- The amounts of the redeem items are the amounts of the map. -/
theorem sum_redeemItems (m : StorageMap String (String × ℕ)) :
    ((redeemItems m).map RedeemShareItem.amount).sum = m.total Prod.snd := by
  rw [redeemItems, List.map_map]
  rfl

/-- Removing what the redeem items list leaves nothing. -/
theorem remove_redeemItems (m : StorageMap String (String × ℕ)) :
    (redeemItems m).foldl (fun m item => m.remove item.localDenom) m = StorageMap.empty := by
  apply StorageMap.eq_empty_of_load
  intro denom
  rw [StorageMap.load_foldl_remove RedeemShareItem.localDenom]
  split_ifs with hmem
  · rfl
  · cases hload : m.load denom with
    | none => rfl
    | some x =>
      refine absurd ?_ hmem
      rw [redeemItems, List.map_map]
      exact List.mem_map.2 ⟨(denom, x), StorageMap.mem_entries.2 hload, rfl⟩

/-- **Redeemed shares** are forgotten, when all that were waiting have been redeemed. -/
theorem LsmInv.redeemed (h : LsmInv s) (now : ℕ) :
    ∃ s', recordRedeemedShares s now (redeemItems s.lsmSharesToRedeem) = .ok s' ∧ LsmInv s' ∧
      s'.pendingLsmShares = s.pendingLsmShares := by
  have htotal := h.total
  have hfits := h.fits
  have hsum : (checkedSum Uint128.bound
      ((redeemItems s.lsmSharesToRedeem).map RedeemShareItem.amount) : Result ℕ) =
        .ok (s.lsmSharesToRedeem.total Prod.snd) := by
    rw [checkedSum_eq_ok Uint128.bound_pos, sum_redeemItems]
    exact ⟨rfl, by omega⟩
  have hrest : (checkedSub s.totalLsmShares (s.lsmSharesToRedeem.total Prod.snd) : Result ℕ) =
      .ok (s.pendingLsmShares.total Prod.snd) := by
    rw [checkedSub_eq_ok]
    omega
  simp only [recordRedeemedShares, hsum, hrest, ok_bind, pure_eq_ok, remove_redeemItems]
  refine ⟨_, rfl, ⟨?_, ?_, h.positive⟩, rfl⟩
  · rfl
  · show s.pendingLsmShares.total Prod.snd < Uint128.bound
    omega

end Operations

/-! ## Ticks -/

section Ticks

variable {s s' : Storage} {q : Querier} {env : Env} {info : MessageInfo} {msgs : List CoreMsg}

/-- **A tick moves no shares.** -/
theorem tick_lsm (h : TickCase s q env info s' msgs) : SameLsm s s' :=
  ⟨h.frame.totalLsmShares, h.frame.pendingLsmShares, h.frame.lsmSharesToRedeem⟩

end Ticks

end Core

end DropContracts
