import DropContracts.Base.StorageMap
import DropContracts.Packages.Cw721
import Mathlib.Data.List.Perm.Basic

set_option relaxedAutoImplicit false
set_option autoImplicit false

/-!
# The auto-withdrawer

`contracts/auto-withdrawer/src/contract.rs`: the contract takes vouchers into custody, each with a
deposit that pays whoever withdraws the voucher for its bonder. The query of the vouchers is in the
module of the queries.

## Main definitions

* `AutoWithdrawer.Storage`, `AutoWithdrawer.ExecuteMsg`, `AutoWithdrawer.Msg` — the storage items,
  the messages and the messages that the contract sends.
* `AutoWithdrawer.swapRemove` — the split of the attached coins.
* `AutoWithdrawer.executeBondWithLdAssets`, `AutoWithdrawer.executeBondWithNft`,
  `AutoWithdrawer.executeUnbond`, `AutoWithdrawer.executeWithdraw`, `AutoWithdrawer.reply`.
* `AutoWithdrawer.instantiate`, `AutoWithdrawer.execute` — the entry points.

## Main results

* `AutoWithdrawer.perm_of_swapRemove` — the split loses no coin.
* `AutoWithdrawer.executeBondWithLdAssets_ok`, `AutoWithdrawer.executeBondWithNft_ok`,
  `AutoWithdrawer.executeUnbond_ok`, `AutoWithdrawer.executeWithdraw_ok`,
  `AutoWithdrawer.coreUnbondReply_ok` — everything each of them can do.
-/

namespace DropContracts

namespace AutoWithdrawer

open Exec

/-! ## Data -/

/-- A voucher in custody: who gets what it is worth, and the reward for withdrawing it. -/
structure BondingRecord where
  bonder : String
  deposit : List Coin
  deriving DecidableEq, Repr

/-- What is kept between an unbonding and its reply. -/
structure CoreUnbond where
  sender : String
  deposit : List Coin
  deriving DecidableEq, Repr

/-- The storage items. -/
structure Storage where
  coreAddress : String
  withdrawalVoucherAddress : String
  withdrawalManagerAddress : String
  ldToken : String
  bondings : StorageMap String BondingRecord
  coreUnbond : Option CoreUnbond

/-- The errors of the contract. -/
inductive ContractError where
  | std (e : StdError)
  | unauthorized
  | ldTokenExpected
  | depositExpected
  deriving DecidableEq, Repr

/-- A call of the contract. -/
abbrev Result (α : Type) := Exec ContractError α

/-- The two ways to bond. -/
inductive BondMsg where
  | withLdAssets
  | withNFT (tokenId : String)
  deriving DecidableEq, Repr

/-- The messages of the contract. -/
inductive ExecuteMsg where
  | bond (msg : BondMsg)
  | unbond (tokenId : String)
  | withdraw (tokenId : String)
  deriving DecidableEq, Repr

/-- The request that a voucher carries to the withdrawal manager. -/
inductive ReceiveNftMsg where
  | withdraw (receiver : Option String)
  deriving DecidableEq, Repr

/-- What the payload of a voucher is read as: a request, or nothing that can be read. -/
abbrev Payload := Option ReceiveNftMsg

/-- The messages that the contract sends: an unbonding at core whose success is replied to under an
id, a call of the voucher contract, and a payment. -/
inductive Msg where
  | coreUnbond (contractAddr : String) (funds : List Coin) (replyId : ℕ)
  | voucher (contractAddr : String) (msg : Cw721Msg Payload)
  | bankSend (toAddress : String) (amount : List Coin)

/-- The id of the reply to an unbonding. -/
def coreUnbondReplyId : ℕ := 1

/-- An attribute of an event. -/
structure Attribute where
  key : String
  value : String
  deriving DecidableEq, Repr

/-- An event of a reply. -/
structure Event where
  ty : String
  attributes : List Attribute
  deriving DecidableEq, Repr

/-! ## The split of the coins -/

/-- `Vec::swap_remove`: the element at a position, and the others with the last one in its place. -/
def swapRemove {ε α : Type} (l : List α) (i : ℕ) : Exec ε (α × List α) :=
  match l[i]?, l.getLast? with
  | some a, some last => .ok (a, (l.set i last).dropLast)
  | _, _ => abort

/-- **The split loses nothing**: the list is the removed element and the others, in some order. -/
theorem perm_of_swapRemove {ε α : Type} {l rest : List α} {i : ℕ} {a : α}
    (h : (swapRemove l i : Exec ε (α × List α)) = .ok (a, rest)) :
    l[i]? = some a ∧ l.Perm (a :: rest) := by
  unfold swapRemove at h
  cases hget : l[i]? with
  | none => simp [hget] at h
  | some b =>
    rcases List.eq_nil_or_concat l with rfl | ⟨init, last, rfl⟩
    · simp at hget
    rw [List.concat_eq_append] at h hget ⊢
    simp only [hget, List.getLast?_concat] at h
    obtain ⟨rfl, rfl⟩ := Prod.mk.inj (Except.ok.inj h)
    refine ⟨rfl, ?_⟩
    obtain ⟨hlt, hb⟩ := List.getElem?_eq_some_iff.1 hget
    by_cases hi : i < init.length
    · -- the last element takes the place of the removed one
      rw [List.getElem_append_left hi] at hb
      rw [List.set_append_left _ _ hi, List.dropLast_concat, ← hb]
      calc (init ++ [last]).Perm (last :: init) := List.perm_append_singleton last init
        _ |>.Perm (last :: init[i] :: init.eraseIdx i) :=
          (List.getElem_cons_eraseIdx_perm hi).symm.cons last
        _ |>.Perm (init[i] :: last :: init.eraseIdx i) := List.Perm.swap _ _ _
        _ |>.Perm (init[i] :: init.set i last) :=
          (List.set_perm_cons_eraseIdx hi last).symm.cons init[i]
    · -- the last element itself is removed
      obtain rfl : i = init.length := by
        simp at hlt
        omega
      simp at hb
      rw [List.set_append_right _ _ le_rfl, Nat.sub_self, List.set_cons_zero,
        List.dropLast_concat, hb]
      exact List.perm_append_singleton b init

/-! ## Entry points -/

/-- `instantiate`. -/
def instantiate (addrValidate : String → Bool) (coreAddress withdrawalVoucherAddress
    withdrawalManagerAddress ldToken : String) : Result Storage := do
  let invalid := ContractError.std (.genericErr "addr_validate errored")
  ensure (addrValidate coreAddress = true) invalid
  ensure (addrValidate withdrawalVoucherAddress = true) invalid
  ensure (addrValidate withdrawalManagerAddress = true) invalid
  return ⟨coreAddress, withdrawalVoucherAddress, withdrawalManagerAddress, ldToken,
    StorageMap.empty, none⟩

section Entry

variable (s : Storage) (env : Env) (info : MessageInfo)

/-- `execute_bond_with_ld_assets`: one coin is unbonded, the other coins are the deposit. -/
def executeBondWithLdAssets : Result (Storage × List Msg) := do
  let position ← orError (info.funds.findIdx? fun coin => coin.denom = s.ldToken) .ldTokenExpected
  let (ldAsset, deposit) ← swapRemove info.funds position
  ensure (deposit ≠ []) .depositExpected
  return ({ s with coreUnbond := some ⟨info.sender, deposit⟩ },
    [.coreUnbond s.coreAddress [ldAsset] coreUnbondReplyId])

/-- `execute_bond_with_nft`: the record is written for the caller before the voucher is moved. -/
def executeBondWithNft (tokenId : String) : Result (Storage × List Msg) := do
  let deposit := info.funds
  ensure (deposit ≠ []) .depositExpected
  return ({ s with bondings := s.bondings.save tokenId ⟨info.sender, deposit⟩ },
    [.voucher s.withdrawalVoucherAddress (.transferNft env.contractAddress tokenId)])

/-- `execute_unbond`: the bonder takes the voucher and the deposit back. -/
def executeUnbond (tokenId : String) : Result (Storage × List Msg) := do
  let bonding ← orError (s.bondings.load tokenId) (.std (.notFound "BondingRecord"))
  ensure (info.sender = bonding.bonder) .unauthorized
  return ({ s with bondings := s.bondings.remove tokenId },
    [.voucher s.withdrawalVoucherAddress (.transferNft info.sender tokenId),
      .bankSend info.sender bonding.deposit])

/-- `execute_withdraw`: the voucher is withdrawn for the bonder, and the deposit is the caller's. -/
def executeWithdraw (tokenId : String) : Result (Storage × List Msg) := do
  let bonding ← orError (s.bondings.load tokenId) (.std (.notFound "BondingRecord"))
  return ({ s with bondings := s.bondings.remove tokenId },
    [.voucher s.withdrawalVoucherAddress (.sendNft s.withdrawalManagerAddress tokenId
        (some (.withdraw (some bonding.bonder)))),
      .bankSend info.sender bonding.deposit])

/-- `execute`. -/
def execute : ExecuteMsg → Result (Storage × List Msg)
  | .bond .withLdAssets => executeBondWithLdAssets s info
  | .bond (.withNFT tokenId) => executeBondWithNft s env info tokenId
  | .unbond tokenId => executeUnbond s info tokenId
  | .withdraw tokenId => executeWithdraw s info tokenId

end Entry

/-- The `token_id` that a list of events tells: the first one of the events of type `wasm`. -/
def tokenIdOf (events : List Event) : Option String :=
  (((events.filter fun event => event.ty = "wasm").flatMap Event.attributes).find?
    fun a => a.key = "token_id").map Attribute.value

/-- `reply_core_unbond`: the minted voucher is recorded for the caller of the unbonding. -/
def replyCoreUnbond (s : Storage) (sender : String) (deposit : List Coin) (events : List Event) :
    Result Storage :=
  match tokenIdOf events with
  | some tokenId => .ok { s with bondings := s.bondings.save tokenId ⟨sender, deposit⟩ }
  | none => abort

/-- `reply`, of a submessage that has succeeded. -/
def reply (s : Storage) (id : ℕ) (events : List Event) : Result Storage :=
  if id = coreUnbondReplyId then do
    let coreUnbond ← orError s.coreUnbond (.std (.notFound "CoreUnbond"))
    replyCoreUnbond { s with coreUnbond := none } coreUnbond.sender coreUnbond.deposit events
  else abort

/-! ## What each call can do -/

variable {s s' : Storage} {env : Env} {info : MessageInfo} {tokenId : String} {msgs : List Msg}

/-- A bonding of LD tokens keeps the other coins for the reply, and unbonds the one coin. -/
theorem executeBondWithLdAssets_ok (h : executeBondWithLdAssets s info = .ok (s', msgs)) :
    ∃ ldAsset deposit, info.funds.Perm (ldAsset :: deposit) ∧ ldAsset.denom = s.ldToken ∧
      deposit ≠ [] ∧ s' = { s with coreUnbond := some ⟨info.sender, deposit⟩ } ∧
      msgs = [.coreUnbond s.coreAddress [ldAsset] coreUnbondReplyId] := by
  simp only [executeBondWithLdAssets, bind_eq_ok, orError_eq_ok, ensure_eq_ok, pure_eq_ok,
    Except.ok.injEq, Prod.mk.injEq] at h
  obtain ⟨position, hposition, ⟨ldAsset, deposit⟩, hsplit, -, hdeposit, rfl, rfl⟩ := h
  obtain ⟨hget, hperm⟩ := perm_of_swapRemove hsplit
  obtain ⟨hlt, hdenom, -⟩ := List.findIdx?_eq_some_iff_getElem.1 hposition
  obtain ⟨hlt', heq⟩ := List.getElem?_eq_some_iff.1 hget
  rw [heq] at hdenom
  exact ⟨ldAsset, deposit, hperm, of_decide_eq_true hdenom, hdeposit, rfl, rfl⟩

/-- **A bonding of a voucher** records it for the caller, whoever has the voucher, and asks for the
voucher. -/
theorem executeBondWithNft_ok (h : executeBondWithNft s env info tokenId = .ok (s', msgs)) :
    info.funds ≠ [] ∧
      s' = { s with bondings := s.bondings.save tokenId ⟨info.sender, info.funds⟩ } ∧
      msgs = [.voucher s.withdrawalVoucherAddress (.transferNft env.contractAddress tokenId)] := by
  simp only [executeBondWithNft, bind_eq_ok, ensure_eq_ok, pure_eq_ok, Except.ok.injEq,
    Prod.mk.injEq] at h
  obtain ⟨-, hfunds, rfl, rfl⟩ := h
  exact ⟨hfunds, rfl, rfl⟩

/-- An unbonding is the bonder's; the record is gone, and the bonder is given voucher and
deposit. -/
theorem executeUnbond_ok (h : executeUnbond s info tokenId = .ok (s', msgs)) :
    ∃ bonding, s.bondings.load tokenId = some bonding ∧ info.sender = bonding.bonder ∧
      s' = { s with bondings := s.bondings.remove tokenId } ∧
      msgs = [.voucher s.withdrawalVoucherAddress (.transferNft info.sender tokenId),
        .bankSend info.sender bonding.deposit] := by
  simp only [executeUnbond, bind_eq_ok, orError_eq_ok, ensure_eq_ok, pure_eq_ok, Except.ok.injEq,
    Prod.mk.injEq] at h
  obtain ⟨bonding, hload, -, hsender, rfl, rfl⟩ := h
  exact ⟨bonding, hload, hsender, rfl, rfl⟩

/-- A withdrawal is anybody's; the record is gone, the voucher is sent on for the bonder, and the
caller is given the deposit. -/
theorem executeWithdraw_ok (h : executeWithdraw s info tokenId = .ok (s', msgs)) :
    ∃ bonding, s.bondings.load tokenId = some bonding ∧
      s' = { s with bondings := s.bondings.remove tokenId } ∧
      msgs = [.voucher s.withdrawalVoucherAddress (.sendNft s.withdrawalManagerAddress tokenId
          (some (.withdraw (some bonding.bonder)))),
        .bankSend info.sender bonding.deposit] := by
  simp only [executeWithdraw, bind_eq_ok, orError_eq_ok, pure_eq_ok, Except.ok.injEq,
    Prod.mk.injEq] at h
  obtain ⟨bonding, hload, rfl, rfl⟩ := h
  exact ⟨bonding, hload, rfl, rfl⟩

/-- **A reply** empties the slot and records the voucher that the events tell. -/
theorem coreUnbondReply_ok {events : List Event} (h : reply s coreUnbondReplyId events = .ok s') :
    ∃ coreUnbond tokenId, s.coreUnbond = some coreUnbond ∧ tokenIdOf events = some tokenId ∧
      s' = { s with
        coreUnbond := none
        bondings := s.bondings.save tokenId ⟨coreUnbond.sender, coreUnbond.deposit⟩ } := by
  simp only [reply, ↓reduceIte, bind_eq_ok, orError_eq_ok, replyCoreUnbond] at h
  obtain ⟨coreUnbond, hslot, h⟩ := h
  cases hevents : tokenIdOf events with
  | none => simp [hevents] at h
  | some tokenId =>
    simp only [hevents, Except.ok.injEq] at h
    exact ⟨coreUnbond, tokenId, hslot, rfl, h.symm⟩

end AutoWithdrawer

end DropContracts
