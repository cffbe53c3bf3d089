import DropContracts.Packages.Version
import DropContracts.Puppeteer.QueryResults

set_option relaxedAutoImplicit false
set_option autoImplicit false

/-!
# The two sides of version 0.47.0

The keys of a query and the reconstruction of its values both compare the version of the remote
chain with 0.47.0, as packed numbers. Here the comparison is taken out of them: each of the two
readers is what it is on one side of that version, and the side is found by comparing the parts of
the version.

## Main definitions

* `Puppeteer.sdk047` — the version 0.47.0; `Puppeteer.isBelow` — the side of a version.
* `Puppeteer.reconstructOn`, `Puppeteer.multiBalancesOn` — the reconstructions on one side.

## Main results

* `Puppeteer.getBalanceAndDelegationsKeys_side`, `Puppeteer.reconstruct_side`,
  `Puppeteer.multiBalances_side` — the keys and the reconstructions, each on the side of the
  version.
* `Puppeteer.versions_compare` — packed versions compare as versions, and the keys and the
  reconstructions are always on the same side.
-/

namespace DropContracts

namespace Puppeteer

open Exec Icq

/-! ## The sides -/

/-- The version 0.47.0. -/
def sdk047 : Version where
  major := 0
  minor := 47
  patch := 0
  major_lt := by decide
  minor_lt := by decide
  patch_lt := by decide

/-- The version is before 0.47.0. -/
def isBelow (v : Version) : Bool := v.triple < sdk047.triple

section Readers

variable (codecs : Codecs) (below : Bool)

/-- The amount of a balance as text, on one side. -/
def balanceTextOn (value : ByteArray) : ReconstructResult String :=
  if below then do
    let balance ← decoded (codecs.coin.decode value)
    return balance.amount
  else orError (String.fromUTF8? value) (.invalidQueryResultFormat "Invalid utf8")

/-- The denomination that is staked, on one side. -/
def bondDenomOn (value : ByteArray) : ReconstructResult String :=
  if below then decoded (codecs.json.decode value)
  else do
    let params ← decoded (codecs.params.decode value)
    return params.bondDenom

/-- The coin of a balance that is not empty, on one side. -/
def coinOn (kv : StorageValue) : ReconstructResult Coin := do
  let denom ← keyDenom codecs kv.key
  let text ← balanceTextOn codecs below kv.value
  let amount ← uint128FromStr text
  return ⟨denom, amount⟩

/-- The coin of a balance, if the value is not empty, on one side. -/
def balanceCoinsOn (kv : StorageValue) : ReconstructResult (List Coin) :=
  if kv.value.isEmpty then .ok [] else (coinOn codecs below kv).map ([·])

/-- `BalancesAndDelegations::reconstruct` on one side. -/
def reconstructOn : List StorageValue → ReconstructResult BalancesAndDelegations
  | [] => fail (.invalidQueryResultFormat "storage_values length is 0")
  | balance :: values => do
    let coins ← balanceCoinsOn codecs below balance
    match values with
    | [] => abort
    | params :: chunks =>
      if params.value.isEmpty then return ⟨coins, []⟩
      else do
        let denom ← bondDenomOn codecs below params.value
        let delegations ← delegationsOf codecs denom chunks
        return ⟨coins, delegations⟩

/-- `MultiBalances::reconstruct` on one side. -/
def multiBalancesOn (storageValues : List StorageValue) : ReconstructResult (List Coin) :=
  (storageValues.filter fun kv => !kv.value.isEmpty).mapM (coinOn codecs below)

end Readers

/-! ## The side of a version -/

variable {codecs : Codecs} {v : Version} {sdkVersion : String}

/-- The number of 0.47.0. -/
theorem versionToU32_sdk047 : versionToU32 "0.47.0" = .ok sdk047.packed := by decide

/-- The comparison of the numbers finds the side. -/
theorem packed_lt_sdk047_iff : v.packed < sdk047.packed ↔ isBelow v = true := by
  rw [Version.packed_lt_packed_iff, isBelow, decide_eq_true_iff]

/-- A test of the numbers takes the branch of the side. -/
theorem ite_side {α : Type} (current below : α) :
    (if sdk047.packed ≤ v.packed then current else below) =
      if isBelow v then below else current := by
  by_cases h : isBelow v = true
  · rw [if_neg (not_le.2 (packed_lt_sdk047_iff.2 h)), if_pos h]
  · rw [if_pos (not_lt.1 (mt packed_lt_sdk047_iff.1 h)), if_neg h]

/-- A balance is read on the side of the version. -/
theorem balanceText_side (value : ByteArray) :
    balanceText codecs v.packed sdk047.packed value = balanceTextOn codecs (isBelow v) value := by
  unfold balanceText balanceTextOn
  exact ite_side _ _

/-- The denomination that is staked is read on the side of the version. -/
theorem bondDenom_side (value : ByteArray) :
    bondDenom codecs v.packed sdk047.packed value = bondDenomOn codecs (isBelow v) value := by
  unfold bondDenom bondDenomOn
  exact ite_side _ _

/-- **The keys** are those for the side of the version. -/
theorem getBalanceAndDelegationsKeys_side {decodes : String → Bool} {delegator denom : String}
    {validators : List String} {keys : List KVKey} (hversion : v.Spells sdkVersion)
    (h : getBalanceAndDelegationsKeys decodes delegator denom validators sdkVersion = .ok keys) :
    keys = .balance delegator denom :: bondDenomKey (isBelow v) ::
      validators.flatMap fun v => [.delegation delegator v, .validator v] := by
  obtain ⟨n, m, hn, hm, rfl⟩ := getBalanceAndDelegationsKeys_eq h
  rw [hversion.versionToU32, Except.ok.injEq] at hn
  rw [versionToU32_sdk047, Except.ok.injEq] at hm
  subst hn hm
  congr 2
  unfold bondDenomKey
  by_cases hbelow : isBelow v = true
  · rw [if_pos (packed_lt_sdk047_iff.2 hbelow), if_pos hbelow]
  · rw [if_neg (mt packed_lt_sdk047_iff.1 hbelow), if_neg hbelow]

/-- The coins of a balance are read on the side of the version. -/
theorem balanceCoins_side (kv : StorageValue) :
    balanceCoins codecs v.packed sdk047.packed kv = balanceCoinsOn codecs (isBelow v) kv := by
  unfold balanceCoins balanceCoinsOn coinOn
  by_cases h : kv.value.isEmpty = true
  · rw [if_pos h, if_pos h]
    rfl
  · rw [if_neg h, if_neg h, balanceText_side]
    cases keyDenom codecs kv.key with
    | error e => rfl
    | ok denom =>
      cases balanceTextOn codecs (isBelow v) kv.value with
      | error e => rfl
      | ok text =>
        simp only [ok_bind]
        cases uint128FromStr text with
        | error e => rfl
        | ok amount => rfl

/-- **The reconstruction of balances and delegations** is that for the side of the version. -/
theorem reconstruct_side (hversion : v.Spells sdkVersion) (storageValues : List StorageValue) :
    reconstruct codecs storageValues sdkVersion =
      reconstructOn codecs (isBelow v) storageValues := by
  unfold reconstruct reconstructOn
  rw [hversion.versionToU32]
  cases storageValues with
  | nil => rfl
  | cons balance values =>
    rw [versionToU32_sdk047]
    cases values with
    | nil => simp only [mapError, ok_bind, balanceCoins_side]
    | cons params chunks => simp only [mapError, ok_bind, balanceCoins_side, bondDenom_side]

/-- **The reconstruction of balances** is that for the side of the version: the value after the
other, and the empty ones without a test of the version. -/
theorem multiBalances_side (hversion : v.Spells sdkVersion) (storageValues : List StorageValue) :
    multiBalances codecs sdkVersion storageValues =
      multiBalancesOn codecs (isBelow v) storageValues := by
  unfold multiBalancesOn
  induction storageValues with
  | nil => rfl
  | cons kv storageValues ih =>
    unfold multiBalances
    by_cases h : kv.value.isEmpty = true
    · rw [if_pos h, ih, List.filter_cons_of_neg (by simp [h])]
    · rw [if_neg h, List.filter_cons_of_pos (by simp [h]), List.mapM_cons, ih,
        hversion.versionToU32, versionToU32_sdk047]
      simp only [coinOn, mapError, ok_bind, balanceText_side, bind_assoc, pure_bind]

/-- Everything that looks at the version of the remote chain is on the side of the version `v`: the
keys of a query, and the reconstructions of its values. -/
structure OnSide (v : Version) (sdkVersion : String) : Prop where
  keys : ∀ (decodes : String → Bool) (delegator denom : String) (validators : List String)
    (keys : List KVKey),
    getBalanceAndDelegationsKeys decodes delegator denom validators sdkVersion = .ok keys →
    keys = .balance delegator denom :: bondDenomKey (isBelow v) ::
      validators.flatMap fun v => [.delegation delegator v, .validator v]
  reconstruct : ∀ (codecs : Codecs) (storageValues : List StorageValue),
    reconstruct codecs storageValues sdkVersion = reconstructOn codecs (isBelow v) storageValues
  multiBalances : ∀ (codecs : Codecs) (storageValues : List StorageValue),
    multiBalances codecs sdkVersion storageValues = multiBalancesOn codecs (isBelow v) storageValues

/-- **Versions are compared as versions.** A string is accepted exactly when it spells a version,
that is, when it has three parts with dots between them that are numbers below 1024. The number of
an accepted string goes back to the canonical spelling of the same version, and the numbers of two
accepted strings compare as the versions do, part by part. The keys of a query and the
reconstructions of its values are on the same side of 0.47.0, the one of the version.

**Proof sketch.** What is accepted is read off the parser (`versionToU32_eq_ok`). The parts are bit
fields that do not overlap, so the numbers compare lexicographically (`Version.compare_packed`), and
every test of the version compares two such numbers. -/
theorem versions_compare :
    (∀ version, (∃ n, versionToU32 version = .ok n) ↔ ∃ v : Version, v.Spells version) ∧
    (∀ (version : String) (v : Version) (n : ℕ), v.Spells version → versionToU32 version = .ok n →
      u32ToVersionString n = v.spelling ∧ v.Spells v.spelling) ∧
    (∀ (version version' : String) (v w : Version) (n m : ℕ), v.Spells version →
      w.Spells version' → versionToU32 version = .ok n → versionToU32 version' = .ok m →
      compare n m = compare v.triple w.triple) ∧
    ∀ (sdkVersion : String) (v : Version), v.Spells sdkVersion → OnSide v sdkVersion := by
  refine ⟨fun version => ?_, ?_, ?_, fun sdkVersion v hversion => ?_⟩
  · constructor
    · rintro ⟨n, h⟩
      obtain ⟨v, hv, -⟩ := versionToU32_eq_ok.1 h
      exact ⟨v, hv⟩
    · rintro ⟨v, hv⟩
      exact ⟨v.packed, hv.versionToU32⟩
  · intro version v n hv hn
    rw [hv.versionToU32, Except.ok.injEq] at hn
    rw [← hn]
    exact ⟨v.u32ToVersionString_packed, v.spells_spelling⟩
  · intro version version' v w n m hv hw hn hm
    rw [hv.versionToU32, Except.ok.injEq] at hn
    rw [hw.versionToU32, Except.ok.injEq] at hm
    rw [← hn, ← hm]
    exact v.compare_packed w
  · exact
      { keys := fun _ _ _ _ _ h => getBalanceAndDelegationsKeys_side hversion h
        reconstruct := fun _ => reconstruct_side hversion
        multiBalances := fun _ => multiBalances_side hversion }

/-- The version 0.45.16. -/
def sdk045 : Version where
  major := 0
  minor := 45
  patch := 16
  major_lt := by decide
  minor_lt := by decide
  patch_lt := by decide

/-- A version before 0.47.0, spelled with leading zeros and a sign. -/
theorem versions_compare_045 :
    (∃ n, versionToU32 "0.+45.016" = .ok n ∧ u32ToVersionString n = "0.45.16" ∧
      ∃ m, versionToU32 "0.47.0" = .ok m ∧ compare n m = .lt) ∧ OnSide sdk045 "0.+45.016" := by
  have hspells : sdk045.Spells "0.+45.016" :=
    ⟨"0".toList, "+45".toList, "016".toList, by decide, by decide, by decide, by decide⟩
  have hspells047 : sdk047.Spells "0.47.0" :=
    ⟨"0".toList, "47".toList, "0".toList, by decide, by decide, by decide, by decide⟩
  obtain ⟨haccepted, hstring, hcompare, hside⟩ := versions_compare
  obtain ⟨n, hn⟩ := (haccepted "0.+45.016").2 ⟨sdk045, hspells⟩
  obtain ⟨m, hm⟩ := (haccepted "0.47.0").2 ⟨sdk047, hspells047⟩
  have hspelling : sdk045.spelling = "0.45.16" := by
    decide +kernel
  have hlt : compare n m = .lt := by
    rw [hcompare _ _ _ _ _ _ hspells hspells047 hn hm]
    decide
  have htext := (hstring _ _ _ hspells hn).1.trans hspelling
  exact ⟨⟨n, hn, htext, m, hm, hlt⟩, hside _ _ hspells⟩

end Puppeteer

end DropContracts
