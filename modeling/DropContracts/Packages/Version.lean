import Mathlib.Data.Prod.Lex
import DropContracts.Base.BitFields
import DropContracts.Packages.InterchainQuery

set_option relaxedAutoImplicit false
set_option autoImplicit false

/-!
# Versions

The numbers that `packages/helpers/src/version.rs` packs versions into: which strings have one, that
the numbers are ordered as the versions are, and the way back to a string.

## Main definitions

* `Icq.u32ToVersionString` — the string of a packed version.
* `Icq.Version` — a version whose parts fit ten bits each; `Icq.Version.triple` is its place in the
  order of versions, and `Icq.Version.packed` its number.
* `Icq.Version.Spells` — the strings that stand for a version.

## Main results

* `Icq.versionToU32_eq_ok` — the strings that are accepted, and the number of each.
* `Icq.Version.compare_packed` — the numbers compare as the versions do.
* `Icq.Version.u32ToVersionString_packed`, `Icq.Version.spells_spelling` — the string of a packed
  version, which is accepted as this version.
-/

namespace DropContracts

namespace Icq

open Exec BitFields

/-- `u32_to_version_string`. -/
def u32ToVersionString (v : ℕ) : String :=
  toString ((v >>> 20) &&& 1023) ++ "." ++ toString ((v >>> 10) &&& 1023) ++ "." ++
    toString (v &&& 1023)

/-! ## Versions and their order -/

/-- A version whose parts are below 1024. -/
@[ext] structure Version where
  major : ℕ
  minor : ℕ
  patch : ℕ
  major_lt : major < 1024
  minor_lt : minor < 1024
  patch_lt : patch < 1024
  deriving DecidableEq, Repr

namespace Version

/-- The parts of a version in the lexicographic order. -/
def triple (v : Version) : ℕ ×ₗ ℕ ×ₗ ℕ := toLex (v.major, toLex (v.minor, v.patch))

/-- The number of a version, ten bits for each part. -/
def packed (v : Version) : ℕ := v.patch ||| v.minor <<< 10 ||| v.major <<< 20

/-- The canonical spelling of a version. -/
def spelling (v : Version) : String :=
  toString v.major ++ "." ++ toString v.minor ++ "." ++ toString v.patch

/-- The string consists of three parts with dots between them, which are parsed to the parts of the
version. -/
def Spells (v : Version) (version : String) : Prop :=
  ∃ major minor patch : List Char,
    version.toList = major ++ '.' :: (minor ++ '.' :: patch) ∧
      parseU32 major = some v.major ∧ parseU32 minor = some v.minor ∧
      parseU32 patch = some v.patch

variable {v w : Version} {version : String}

/-- The number of a version as bit fields, one beside the other. -/
theorem packed_eq_pack (v : Version) : v.packed = pack 10 (pack 10 v.major v.minor) v.patch := by
  rw [packed, pack, pack, Nat.shiftLeft_or_distrib, ← Nat.shiftLeft_add, Nat.lor_assoc,
    Nat.lor_comm, Nat.lor_comm (v.minor <<< 10)]

/-- The number of a version takes thirty bits, so that no part is shifted out of a `u32`. -/
theorem packed_lt (v : Version) : v.packed < 2 ^ 30 := by
  rw [packed_eq_pack]
  exact pack_lt (pack_lt v.major_lt v.minor_lt) v.patch_lt

/-- The order of versions, part by part. -/
theorem triple_lt_triple_iff : v.triple < w.triple ↔
    v.major < w.major ∨ v.major = w.major ∧
      (v.minor < w.minor ∨ v.minor = w.minor ∧ v.patch < w.patch) := by
  simp only [triple, Prod.Lex.toLex_lt_toLex]

/-- The numbers of two versions are ordered as the versions are: the fields are compared one after
the other. -/
theorem packed_lt_packed_iff : v.packed < w.packed ↔ v.triple < w.triple := by
  rw [packed_eq_pack, packed_eq_pack, pack_lt_pack_iff v.patch_lt w.patch_lt,
    pack_lt_pack_iff v.minor_lt w.minor_lt, pack_inj v.minor_lt w.minor_lt, triple_lt_triple_iff]
  tauto

/-- Versions with the same parts are the same. -/
theorem triple_inj : v.triple = w.triple ↔ v = w := by
  constructor
  · intro h
    obtain ⟨hmajor, h⟩ := Prod.mk.inj h
    obtain ⟨hminor, hpatch⟩ := Prod.mk.inj h
    exact Version.ext hmajor hminor hpatch
  · rintro rfl
    rfl

/-- **The numbers of versions compare as the versions do.** -/
theorem compare_packed (v w : Version) : compare v.packed w.packed = compare v.triple w.triple := by
  obtain hlt | heq | hgt := lt_trichotomy v.triple w.triple
  · rw [compare_lt_iff_lt.2 hlt, compare_lt_iff_lt.2 (packed_lt_packed_iff.2 hlt)]
  · rw [triple_inj.1 heq, compare_eq_iff_eq.2 rfl, compare_eq_iff_eq.2 rfl]
  · rw [compare_gt_iff_gt.2 hgt, compare_gt_iff_gt.2 (packed_lt_packed_iff.2 hgt)]

/-- **The string of a packed version** is its canonical spelling. -/
theorem u32ToVersionString_packed (v : Version) : u32ToVersionString v.packed = v.spelling := by
  have hminor : v.packed >>> 10 &&& 1023 = v.minor := by
    rw [packed_eq_pack, pack_shiftRight v.patch_lt]
    exact pack_and_mask v.minor_lt
  have hmajor : v.packed >>> 20 &&& 1023 = v.major := by
    have hshift : v.packed >>> 20 = v.major := by
      rw [packed_eq_pack, Nat.shiftRight_add _ 10 10, pack_shiftRight v.patch_lt,
        pack_shiftRight v.minor_lt]
    rw [hshift]
    exact (Nat.and_two_pow_sub_one_eq_mod _ 10).trans (Nat.mod_eq_of_lt v.major_lt)
  have hpatch : v.packed &&& 1023 = v.patch := by
    rw [packed_eq_pack]
    exact pack_and_mask v.patch_lt
  rw [u32ToVersionString, hmajor, hminor, hpatch, spelling]

end Version

/-! ## The strings that are accepted -/

/-- A part that is parsed is made of digits after an optional plus sign, so it has no dot. -/
theorem parseU32_no_dot {part : List Char} {n : ℕ} (h : parseU32 part = some n) : '.' ∉ part := by
  simp only [parseU32] at h
  split_ifs at h with hplus hdigits hdigits
  · obtain ⟨-, hall, -⟩ := hdigits
    obtain ⟨rest, rfl⟩ := List.head?_eq_some_iff.1 hplus
    intro hmem
    obtain heq | hmem := List.mem_cons.1 hmem
    · exact absurd heq (by decide)
    · exact absurd (List.all_eq_true.1 hall _ hmem) (by decide)
  · obtain ⟨-, hall, -⟩ := hdigits
    intro hmem
    exact absurd (List.all_eq_true.1 hall _ hmem) (by decide)

/-- The decimal digits of a number are parsed to the number. -/
theorem parseU32_toDigits {n : ℕ} (hn : n < 2 ^ 32) : parseU32 (Nat.toDigits 10 n) = some n := by
  have hdigits : ∀ c ∈ Nat.toDigits 10 n, c.isDigit = true := fun c hc =>
    Nat.isDigit_of_mem_toDigits (b := 10) (by decide) (by decide) hc
  have hvalue : (Nat.toDigits 10 n).foldl (fun n c => n * 10 + (c.toNat - '0'.toNat)) 0 = n := by
    simp only [Nat.mul_comm _ 10]
    rw [← Nat.ofDigitChars_eq_foldl, Nat.ofDigitChars_ten_toDigits]
  simp only [parseU32, if_neg (head?_toDigits_ne_plus n), hvalue]
  exact if_pos ⟨Nat.toDigits_ne_nil, List.all_eq_true.2 hdigits, hn⟩

/-- The parts of a string with two dots, when no part has a dot. -/
theorem splitOn_eq_three {l major minor patch : List Char} (hmajor : '.' ∉ major)
    (hminor : '.' ∉ minor) (hpatch : '.' ∉ patch) :
    l.splitOn '.' = [major, minor, patch] ↔ l = major ++ '.' :: (minor ++ '.' :: patch) := by
  constructor
  · intro h
    have hjoin : List.intercalate ['.'] (l.splitOn '.') = l := List.intercalate_splitOn '.'
    rw [h] at hjoin
    rw [← hjoin]
    simp [List.intercalate_cons_cons]
  · rintro rfl
    rw [List.splitOn_append_cons_self_of_not_mem hmajor,
      List.splitOn_append_cons_self_of_not_mem hminor, List.splitOn_eq_singleton hpatch]

/-- A part of a version is a number below 1024. -/
theorem versionPart_eq_ok {version : String} {part : List Char} {n : ℕ} :
    versionPart version part = .ok n ↔ parseU32 part = some n ∧ n < 1024 := by
  simp only [versionPart, bind_eq_ok, orError_eq_ok, ensure_eq_ok, pure_eq_ok, Except.ok.injEq]
  constructor
  · rintro ⟨m, hparse, -, hlt, rfl⟩
    exact ⟨hparse, hlt⟩
  · rintro ⟨hparse, hlt⟩
    exact ⟨n, hparse, (), hlt, rfl⟩

/-- **The strings that are accepted** are those that spell a version, and the number of each is that
of the version. -/
theorem versionToU32_eq_ok {version : String} {n : ℕ} :
    versionToU32 version = .ok n ↔ ∃ v : Version, v.Spells version ∧ v.packed = n := by
  constructor
  · intro h
    unfold versionToU32 at h
    split at h
    · next major minor patch hsplit =>
      simp only [bind_eq_ok, versionPart_eq_ok, pure_eq_ok, Except.ok.injEq] at h
      obtain ⟨z, ⟨hpatch, hz⟩, y, ⟨hminor, hy⟩, x, ⟨hmajor, hx⟩, rfl⟩ := h
      have hparts := (splitOn_eq_three (parseU32_no_dot hmajor) (parseU32_no_dot hminor)
        (parseU32_no_dot hpatch)).1 hsplit
      exact ⟨⟨x, y, z, hx, hy, hz⟩, ⟨major, minor, patch, hparts, hmajor, hminor, hpatch⟩, rfl⟩
    · exact absurd h fail_ne_ok
  · rintro ⟨v, ⟨major, minor, patch, hparts, hmajor, hminor, hpatch⟩, rfl⟩
    have hsplit := (splitOn_eq_three (parseU32_no_dot hmajor) (parseU32_no_dot hminor)
      (parseU32_no_dot hpatch)).2 hparts
    have hpart : ∀ {part : List Char} {n : ℕ}, parseU32 part = some n → n < 1024 →
        versionPart version part = .ok n := fun h h' => versionPart_eq_ok.2 ⟨h, h'⟩
    unfold versionToU32
    rw [hsplit]
    simp only [hpart hmajor v.major_lt, hpart hminor v.minor_lt, hpart hpatch v.patch_lt, ok_bind,
      pure_eq_ok, Version.packed]

namespace Version

variable {v w : Version} {version : String}

/-- The number of a string that spells a version. -/
theorem Spells.versionToU32 (h : v.Spells version) : versionToU32 version = .ok v.packed :=
  versionToU32_eq_ok.2 ⟨v, h, rfl⟩

/-- A string spells at most one version. -/
theorem Spells.unique (hv : v.Spells version) (hw : w.Spells version) : v = w := by
  have hpacked : v.packed = w.packed := Except.ok.inj (hv.versionToU32.symm.trans hw.versionToU32)
  have hcompare := compare_packed v w
  rw [hpacked, compare_eq_iff_eq.2 rfl] at hcompare
  exact triple_inj.1 (compare_eq_iff_eq.1 hcompare.symm)

/-- The canonical spelling of a version spells it. -/
theorem spells_spelling (v : Version) : v.Spells v.spelling := by
  have hu32 : ∀ {n : ℕ}, n < 1024 → n < 2 ^ 32 := fun h => h.trans (by decide)
  refine ⟨Nat.toDigits 10 v.major, Nat.toDigits 10 v.minor, Nat.toDigits 10 v.patch, ?_,
    parseU32_toDigits (hu32 v.major_lt), parseU32_toDigits (hu32 v.minor_lt),
    parseU32_toDigits (hu32 v.patch_lt)⟩
  simp [spelling]

end Version

end Icq

end DropContracts
