import DropContracts.AutoWithdrawer.Contract
import DropContracts.Base.IndexedMap
import DropContracts.Base.Paging

set_option relaxedAutoImplicit false
set_option autoImplicit false

/-!
# The queries of the auto-withdrawer

`query_all_bondings` of `contracts/auto-withdrawer/src/contract.rs` returns the vouchers in custody
page by page, all of them or those of one bonder. The latter are listed by the index of the map in
`contracts/auto-withdrawer/src/store.rs`.

## Main definitions

* `AutoWithdrawer.Storage.bondingsMap` — the map of the vouchers with its index.
* `AutoWithdrawer.queryAllBondings` — the query.
* `AutoWithdrawer.Listed` — what a reader of all pages is to get.

## Main results

* `AutoWithdrawer.execute_bondingsMap` — the index is kept up with every call.
* `AutoWithdrawer.queryAllBondings_eq` — the answer is a page of the vouchers that are asked for.
* `AutoWithdrawer.bondings_paged` — a reader gets every voucher once.
-/

namespace DropContracts

namespace AutoWithdrawer

open Exec

/-! ## The query -/

/-- The limit of a page when none is given. -/
def PAGINATION_DEFAULT_LIMIT : ℕ := 100

/-- A voucher as it is returned. -/
structure BondingResponse where
  tokenId : String
  bonder : String
  deposit : List Coin
  deriving DecidableEq, Repr

/-- A page of vouchers. -/
structure BondingsResponse where
  bondings : List BondingResponse
  nextPageKey : Option String
  deriving DecidableEq, Repr

/-- The map of the vouchers with the index of their bonders. -/
def Storage.bondingsMap (s : Storage) : IndexedMap String BondingRecord.bonder :=
  IndexedMap.ofMap BondingRecord.bonder s.bondings

/-- A voucher of the map as it is returned. -/
def toResponse (e : String × BondingRecord) : BondingResponse := ⟨e.1, e.2.bonder, e.2.deposit⟩

/-- A user that is given must have a valid address. -/
def validateUser (addrValidate : String → Bool) : Option String → Result Unit
  | none => .ok ()
  | some addr => ensure (addrValidate addr = true) (.std (.genericErr "addr_validate errored"))

/-- The vouchers that are iterated over: all of them, or those that the index lists. -/
def Storage.bondingsOf (s : Storage) : Option String → List (String × BondingRecord)
  | none => s.bondingsMap.primary.entries
  | some addr => s.bondingsMap.prefixRange addr

/-- `query_all_bondings`: `take` leaves the iterator at the entry after the page. -/
def queryAllBondings (s : Storage) (addrValidate : String → Bool) (user : Option String)
    (limit : Option ℕ) (pageKey : Option String) : Result BondingsResponse := do
  validateUser addrValidate user
  let limit := limit.getD PAGINATION_DEFAULT_LIMIT
  let iter := startingAt (s.bondingsOf user) pageKey
  let bondings := (iter.take limit).map toResponse
  let nextPageKey := (iter.drop limit).head?.map fun e => e.1
  return ⟨bondings, nextPageKey⟩

/-- What a reader of all pages is to get: every voucher, of the user if one is given, exactly once
and in ascending order. -/
structure Listed (s : Storage) (user : Option String) (bondings : List BondingResponse) : Prop where
  ascending : bondings.Pairwise fun a b => a.tokenId < b.tokenId
  complete : ∀ bonding, bonding ∈ bondings ↔
    s.bondings.load bonding.tokenId = some ⟨bonding.bonder, bonding.deposit⟩ ∧
      ∀ addr, user = some addr → bonding.bonder = addr

/-! ## The writes of the contract -/

section Writes

variable {s s' : Storage} {env : Env} {info : MessageInfo}

/-- **The index is kept up with every call**: a bonding of a voucher saves a record in the map with
its index, an unbonding and a withdrawal remove one, and a bonding of LD tokens leaves the map alone
until the reply. -/
theorem execute_bondingsMap {msg : ExecuteMsg} {msgs : List Msg}
    (h : execute s env info msg = .ok (s', msgs)) :
    s'.bondingsMap = match msg with
      | .bond .withLdAssets => s.bondingsMap
      | .bond (.withNFT tokenId) => s.bondingsMap.save tokenId ⟨info.sender, info.funds⟩
      | .unbond tokenId => s.bondingsMap.remove tokenId
      | .withdraw tokenId => s.bondingsMap.remove tokenId := by
  cases msg with
  | bond bondMsg =>
    cases bondMsg with
    | withLdAssets =>
      obtain ⟨_, _, -, -, -, rfl, -⟩ := executeBondWithLdAssets_ok h
      rfl
    | withNFT tokenId =>
      obtain ⟨-, rfl, -⟩ := executeBondWithNft_ok h
      exact (IndexedMap.save_ofMap s.bondings tokenId _).symm
  | unbond tokenId =>
    obtain ⟨_, -, -, rfl, -⟩ := executeUnbond_ok h
    exact (IndexedMap.remove_ofMap s.bondings tokenId).symm
  | withdraw tokenId =>
    obtain ⟨_, -, rfl, -⟩ := executeWithdraw_ok h
    exact (IndexedMap.remove_ofMap s.bondings tokenId).symm

/-- A reply saves the record of the voucher that the events tell. -/
theorem reply_bondingsMap {events : List Event} (h : reply s coreUnbondReplyId events = .ok s') :
    ∃ tokenId coreUnbond, tokenIdOf events = some tokenId ∧ s.coreUnbond = some coreUnbond ∧
      s'.bondingsMap = s.bondingsMap.save tokenId ⟨coreUnbond.sender, coreUnbond.deposit⟩ := by
  obtain ⟨coreUnbond, tokenId, hslot, hevents, rfl⟩ := coreUnbondReply_ok h
  exact ⟨tokenId, coreUnbond, hevents, hslot,
    (IndexedMap.save_ofMap s.bondings tokenId _).symm⟩

end Writes

/-! ## Reading all pages -/

section Pages

variable {s : Storage} {addrValidate : String → Bool} {user : Option String} {limit : Option ℕ}

/-- The vouchers that are iterated over are those that are asked for. -/
theorem mem_bondingsOf {e : String × BondingRecord} : e ∈ s.bondingsOf user ↔
    s.bondings.load e.1 = some e.2 ∧ ∀ addr, user = some addr → e.2.bonder = addr := by
  obtain ⟨k, v⟩ := e
  cases user with
  | none => exact StorageMap.mem_entries.trans (and_iff_left nofun).symm
  | some addr =>
    have hmem : (k, v) ∈ s.bondingsMap.prefixRange addr ↔
        s.bondings.load k = some v ∧ v.bonder = addr := by
      rw [IndexedMap.prefixRange_eq, List.mem_filter, StorageMap.mem_entries, decide_eq_true_iff]
      rfl
    rw [Storage.bondingsOf, hmem]
    simp

/-- They are iterated over in ascending order. -/
theorem sorted_bondingsOf : (s.bondingsOf user).Pairwise fun a b => a.1 < b.1 := by
  cases user with
  | none => exact s.bondings.sorted
  | some addr =>
    rw [Storage.bondingsOf, IndexedMap.prefixRange_eq]
    exact s.bondings.sorted.filter _

/-- The vouchers that are iterated over are what a reader is to get. -/
theorem listed_bondingsOf : Listed s user ((s.bondingsOf user).map toResponse) where
  ascending := List.pairwise_map.2 sorted_bondingsOf
  complete bonding := by
    rw [List.mem_map]
    constructor
    · rintro ⟨e, hmem, rfl⟩
      exact mem_bondingsOf.1 hmem
    · intro h
      exact ⟨(bonding.tokenId, ⟨bonding.bonder, bonding.deposit⟩), mem_bondingsOf.2 h, rfl⟩

/-- A page as it is returned. -/
def ofPage (page : Page String BondingRecord) : BondingsResponse :=
  ⟨page.items.map toResponse, page.next⟩

/-- **The answer is a page** of the vouchers that are asked for, when the user is valid. -/
theorem queryAllBondings_eq {pageKey : Option String} {response : BondingsResponse} :
    queryAllBondings s addrValidate user limit pageKey = .ok response ↔
      (∀ addr, user = some addr → addrValidate addr = true) ∧
        response = ofPage (pageFrom (s.bondingsOf user)
          (limit.getD PAGINATION_DEFAULT_LIMIT) pageKey) := by
  have hvalid : validateUser addrValidate user = .ok () ↔
      ∀ addr, user = some addr → addrValidate addr = true := by
    cases user with
    | none => exact iff_of_true rfl nofun
    | some addr => simp [validateUser]
  simp only [queryAllBondings, bind_eq_ok, pure_eq_ok, Except.ok.injEq]
  constructor
  · rintro ⟨u, huser, rfl⟩
    exact ⟨hvalid.1 huser, rfl⟩
  · rintro ⟨huser, rfl⟩
    exact ⟨(), hvalid.2 huser, rfl⟩

/-- **A reader gets every voucher once**: for every valid user and every limit, the pages come to an
end, there is only one list of them, one after the other they list the vouchers, of the user if one
is given, once and in ascending order, and all of them but the last are full. -/
theorem bondings_paged (huser : ∀ addr, user = some addr → addrValidate addr = true)
    (hlimit : ∀ n, limit = some n → 1 ≤ n) :
    ∃ pages, PagesFrom
        (fun start page => queryAllBondings s addrValidate user limit start = .ok page)
        BondingsResponse.nextPageKey none pages ∧
      Listed s user (pages.flatMap BondingsResponse.bondings) ∧
      (∀ page ∈ pages.dropLast,
        page.bondings.length = limit.getD PAGINATION_DEFAULT_LIMIT) ∧
      ∀ pages', PagesFrom
        (fun start page => queryAllBondings s addrValidate user limit start = .ok page)
        BondingsResponse.nextPageKey none pages' → pages' = pages := by
  have hpos : 0 < limit.getD PAGINATION_DEFAULT_LIMIT := by
    cases limit with
    | none => decide
    | some n => exact hlimit n rfl
  obtain ⟨pages, hpages, hlisted, hfull⟩ := exists_pages (sorted_bondingsOf (s := s)) hpos
  have hread : PagesFrom
      (fun start page => queryAllBondings s addrValidate user limit start = .ok page)
      BondingsResponse.nextPageKey none (pages.map ofPage) := by
    refine PagesFrom.map (f := ofPage) (fun start page hpage => ?_) (fun _ => rfl) hpages
    rw [queryAllBondings_eq, hpage]
    exact ⟨huser, rfl⟩
  refine ⟨pages.map ofPage, hread, ?_, ?_, fun pages' hread' => ?_⟩
  · have hall : (pages.map ofPage).flatMap BondingsResponse.bondings =
        (s.bondingsOf user).map toResponse := by
      rw [← hlisted, List.flatMap_map, List.map_flatMap]
      rfl
    rw [hall]
    exact listed_bondingsOf
  · intro page hpage
    rw [← List.map_dropLast] at hpage
    obtain ⟨page', hpage', rfl⟩ := List.mem_map.1 hpage
    rw [ofPage, List.length_map]
    exact hfull page' hpage'
  · refine PagesFrom.unique (fun start page page' h h' => ?_) hread hread'
    rw [h] at h'
    exact (Except.ok.inj h').symm

end Pages

/-! ### An example -/

/-- Three vouchers, two of them of one bonder. -/
def pagedStorage : Storage where
  coreAddress := "core"
  withdrawalVoucherAddress := "voucher"
  withdrawalManagerAddress := "manager"
  ldToken := "udatom"
  bondings := ((StorageMap.empty.save "0_alice_1" ⟨"alice", [⟨"untrn", 1⟩]⟩).save
    "0_bob_2" ⟨"bob", [⟨"untrn", 2⟩]⟩).save "1_alice_3" ⟨"alice", [⟨"untrn", 3⟩]⟩
  coreUnbond := none

/-- The vouchers of one bonder, read one by one. -/
theorem bondings_paged_alice : ∃ pages, PagesFrom
      (fun start page =>
        queryAllBondings pagedStorage (fun _ => true) (some "alice") (some 1) start = .ok page)
      BondingsResponse.nextPageKey none pages ∧
    Listed pagedStorage (some "alice") (pages.flatMap BondingsResponse.bondings) ∧
    (∀ page ∈ pages.dropLast, page.bondings.length = 1) ∧
    ∀ pages', PagesFrom
      (fun start page =>
        queryAllBondings pagedStorage (fun _ => true) (some "alice") (some 1) start = .ok page)
      BondingsResponse.nextPageKey none pages' → pages' = pages := by
  refine bondings_paged (fun _ _ => rfl) ?_
  rintro n ⟨⟩
  exact le_rfl

example : queryAllBondings pagedStorage (fun _ => true) (some "alice") (some 1) none =
    .ok ⟨[⟨"0_alice_1", "alice", [⟨"untrn", 1⟩]⟩], some "1_alice_3"⟩ := by decide

end AutoWithdrawer

end DropContracts
