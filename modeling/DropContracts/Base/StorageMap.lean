import Mathlib.Algebra.BigOperators.Group.List.Basic
import Mathlib.Algebra.GroupWithZero.Nat
import Mathlib.Data.List.Pairwise
import Mathlib.Order.Lattice

set_option relaxedAutoImplicit false
set_option autoImplicit false

/-!
# Key-ordered storage maps

The storage of a contract holds finite maps that are iterated in key order. Such a map is a list
of entries with strictly increasing keys; the order is part of the value, so every operation that
builds a map proves it again and no later proof has to.

## Main definitions

* `StorageMap` — a finite map with its entries in key order.
* `StorageMap.load`, `StorageMap.save`, `StorageMap.remove` — point access.
* `StorageMap.total` — the sum of a measure over all values.

## Main results

* `StorageMap.load_save`, `StorageMap.load_remove` — the reads after each write.
* `StorageMap.mem_entries` — iteration lists exactly the stored pairs.
* `StorageMap.total_save`, `StorageMap.total_remove` — what each write does to a total.
* `StorageMap.total_le_total` — the comparison of two totals.
-/

/-- A finite map whose entries are listed with strictly increasing keys. -/
structure StorageMap (κ α : Type) [LinearOrder κ] where
  entries : List (κ × α)
  sorted : entries.Pairwise fun a b => a.1 < b.1

namespace StorageMap

variable {κ α : Type} [LinearOrder κ]

/-! ## Operations -/

/-- Put `(k, v)` in its place of a key-ordered list, over an entry of the same key. -/
def insertEntry (k : κ) (v : α) : List (κ × α) → List (κ × α)
  | [] => [(k, v)]
  | e :: l =>
    if k < e.1 then (k, v) :: e :: l
    else if k = e.1 then (k, v) :: l
    else e :: insertEntry k v l

/-- An entry of the list with an entry put in place is that entry or an old one. -/
theorem mem_insertEntry {k : κ} {v : α} {l : List (κ × α)} {e : κ × α}
    (h : e ∈ insertEntry k v l) : e = (k, v) ∨ e ∈ l := by
  induction l with
  | nil => simpa [insertEntry] using h
  | cons x l ih =>
    simp only [insertEntry] at h
    split_ifs at h
    · simpa using h
    · simp only [List.mem_cons] at h ⊢
      tauto
    · rcases List.mem_cons.1 h with rfl | h
      · simp
      · rcases ih h with h | h <;> simp [h]

/-- Putting an entry in place keeps the keys strictly increasing. -/
theorem sorted_insertEntry (k : κ) (v : α) {l : List (κ × α)}
    (h : l.Pairwise fun a b => a.1 < b.1) :
    (insertEntry k v l).Pairwise fun a b => a.1 < b.1 := by
  induction l with
  | nil => simp [insertEntry]
  | cons x l ih =>
    obtain ⟨hx, hl⟩ := List.pairwise_cons.1 h
    simp only [insertEntry]
    split_ifs with h₁ h₂
    · refine List.pairwise_cons.2 ⟨fun e he => ?_, h⟩
      rcases List.mem_cons.1 he with rfl | he
      · exact h₁
      · exact h₁.trans (hx e he)
    · exact List.pairwise_cons.2 ⟨fun e he => h₂ ▸ hx e he, hl⟩
    · refine List.pairwise_cons.2 ⟨fun e he => ?_, ih hl⟩
      rcases mem_insertEntry he with rfl | he
      · exact lt_of_le_of_ne (not_lt.1 h₁) (Ne.symm h₂)
      · exact hx e he

/-- The empty map. -/
def empty : StorageMap κ α := ⟨[], List.Pairwise.nil⟩

/-- The value stored under `k`. -/
def load (m : StorageMap κ α) (k : κ) : Option α := (m.entries.find? fun e => e.1 = k).map Prod.snd

/-- Store `v` under `k`. -/
def save (m : StorageMap κ α) (k : κ) (v : α) : StorageMap κ α :=
  ⟨insertEntry k v m.entries, sorted_insertEntry k v m.sorted⟩

/-- Forget what is stored under `k`. -/
def remove (m : StorageMap κ α) (k : κ) : StorageMap κ α :=
  ⟨m.entries.filter fun e => e.1 ≠ k, m.sorted.filter _⟩

/-- Store `f v` under `k` for every entry `(k, v)` of a list, one after the other. -/
def saveAll (m : StorageMap κ α) (f : α → α) (l : List (κ × α)) : StorageMap κ α :=
  l.foldl (fun m e => m.save e.1 (f e.2)) m

/-- The first entry in key order. -/
def first (m : StorageMap κ α) : Option (κ × α) := m.entries.head?

/-- The sum of `f` over all stored values. -/
def total (f : α → ℕ) (m : StorageMap κ α) : ℕ := (m.entries.map fun e => f e.2).sum

/-! ## Reads after writes -/

/-- A read from a list after an entry was put in place. -/
theorem find?_insertEntry (k k' : κ) (v : α) (l : List (κ × α)) :
    ((insertEntry k v l).find? fun e => e.1 = k').map Prod.snd =
      if k' = k then some v else (l.find? fun e => e.1 = k').map Prod.snd := by
  induction l with
  | nil =>
    by_cases hk : k = k'
    · simp [insertEntry, hk]
    · simp [insertEntry, hk, Ne.symm hk]
  | cons e l ih =>
    simp only [insertEntry]
    split_ifs with h₁ h₂ h₃ h₄ h₅
    · subst h₂; simp
    · simp [List.find?_cons, Ne.symm h₂]
    · subst h₄; simp
    · subst h₃; simp [Ne.symm h₄]
    · have hne : e.1 ≠ k' := by rw [h₅]; exact Ne.symm h₃
      simp only [List.find?_cons, hne, decide_false]
      rw [ih, if_pos h₅]
    · by_cases he : e.1 = k'
      · simp [he]
      · simp only [List.find?_cons, he, decide_false]
        rw [ih, if_neg h₅]

/-- **A read after a write** returns what was written under that key, and what was there before
under every other key. -/
theorem load_save (m : StorageMap κ α) (k k' : κ) (v : α) :
    (m.save k v).load k' = if k' = k then some v else m.load k' :=
  find?_insertEntry k k' v m.entries

/-- Reading back what was written. -/
@[simp] theorem load_save_self (m : StorageMap κ α) (k : κ) (v : α) :
    (m.save k v).load k = some v := by
  simp [load_save]

/-- A write under another key is not seen. -/
theorem load_save_of_ne (m : StorageMap κ α) {k k' : κ} (v : α) (h : k' ≠ k) :
    (m.save k v).load k' = m.load k' := by
  simp [load_save, h]

/-- A write under a key in use adds no key. -/
theorem load_save_eq_none {m : StorageMap κ α} {k k' : κ} {old : α} (v : α)
    (hold : m.load k = some old) (hnone : m.load k' = none) : (m.save k v).load k' = none := by
  have hne : k' ≠ k := by
    rintro rfl
    rw [hold] at hnone
    cases hnone
  rw [load_save_of_ne m v hne, hnone]

/-- Nothing is stored in the empty map. -/
@[simp] theorem load_empty (k : κ) : (empty : StorageMap κ α).load k = none := rfl

/-- Storing a list of entries leaves every other key as it was. -/
theorem load_saveAll_of_not_mem (m : StorageMap κ α) (f : α → α) {l : List (κ × α)} {k : κ}
    (h : k ∉ l.map Prod.fst) : (m.saveAll f l).load k = m.load k := by
  induction l generalizing m with
  | nil => rfl
  | cons e l ih =>
    simp only [List.map_cons, List.mem_cons, not_or] at h
    calc (m.saveAll f (e :: l)).load k = ((m.save e.1 (f e.2)).saveAll f l).load k := rfl
      _ = (m.save e.1 (f e.2)).load k := ih _ h.2
      _ = m.load k := load_save_of_ne m _ h.1

/-- A key that is only listed with the value `v` ends with `f v`, if it is listed or had it. -/
theorem load_saveAll_of_mem (m : StorageMap κ α) (f : α → α) {l : List (κ × α)} {k : κ} {v : α}
    (hv : ∀ e ∈ l, e.1 = k → e.2 = v) (h : k ∈ l.map Prod.fst ∨ m.load k = some (f v)) :
    (m.saveAll f l).load k = some (f v) := by
  induction l generalizing m with
  | nil => simpa [saveAll] using h
  | cons e l ih =>
    refine ih (m.save e.1 (f e.2)) (fun e' he' => hv e' (List.mem_cons_of_mem _ he')) ?_
    by_cases hk : e.1 = k
    · right
      rw [← hk, load_save_self, hv e List.mem_cons_self hk]
    · rcases h with h | h
      · left
        simpa [Ne.symm hk] using h
      · right
        rw [load_save_of_ne m _ (Ne.symm hk), h]

/-- **Rewriting stored entries with `f`** applies `f` to exactly the listed ones. -/
theorem load_saveAll (m : StorageMap κ α) (f : α → α) {l : List (κ × α)}
    (hl : ∀ e ∈ l, m.load e.1 = some e.2) (k : κ) :
    (m.saveAll f l).load k = if k ∈ l.map Prod.fst then (m.load k).map f else m.load k := by
  split_ifs with hk
  · obtain ⟨e, he, rfl⟩ := List.mem_map.1 hk
    rw [hl e he]
    refine load_saveAll_of_mem m f (fun e' he' heq => ?_) (.inl hk)
    have := (hl e' he').symm.trans (heq ▸ hl e he)
    exact Option.some.inj this
  · exact load_saveAll_of_not_mem m f hk

/-- **Iteration lists exactly the stored pairs.**

**Proof sketch.** Keys are strictly increasing, so the first entry with key `k` is the only one. -/
theorem mem_entries {m : StorageMap κ α} {k : κ} {v : α} :
    (k, v) ∈ m.entries ↔ m.load k = some v := by
  obtain ⟨l, hl⟩ := m
  simp only [load]
  induction l with
  | nil => simp
  | cons e l ih =>
    obtain ⟨he, hl⟩ := List.pairwise_cons.1 hl
    by_cases hk : e.1 = k
    · have hnot : (k, v) ∉ l := fun h => absurd (he _ h) (by simp [hk])
      simp only [List.mem_cons, hnot, or_false, List.find?_cons, hk, decide_true, Option.map_some,
        Option.some.injEq]
      exact ⟨fun h => by rw [← h], fun h => Prod.ext hk.symm h.symm⟩
    · have hne : (k, v) ≠ e := fun h => hk (by rw [← h])
      simp only [List.mem_cons, hne, false_or, List.find?_cons, hk, decide_false]
      exact ih hl

/-- **A read after a removal** finds nothing under the removed key and what was there before under
every other key. -/
theorem load_remove (m : StorageMap κ α) (k k' : κ) :
    (m.remove k).load k' = if k' = k then none else m.load k' := by
  refine Option.ext fun v => ?_
  rw [← mem_entries]
  simp only [remove, List.mem_filter, ne_eq, decide_not, Bool.not_eq_eq_eq_not, Bool.not_true,
    decide_eq_false_iff_not, mem_entries]
  by_cases h : k' = k <;> simp [h]

/-- The first entry is a stored pair. -/
theorem load_of_first {m : StorageMap κ α} {k : κ} {v : α} (h : m.first = some (k, v)) :
    m.load k = some v :=
  mem_entries.1 (List.mem_of_mem_head? (by simpa [first] using h))

/-- Removing the keys of a list, one after the other, forgets exactly what is stored under them. -/
theorem load_foldl_remove {β : Type} (f : β → κ) (l : List β) (m : StorageMap κ α) (k : κ) :
    (l.foldl (fun m b => m.remove (f b)) m).load k =
      if k ∈ l.map f then none else m.load k := by
  induction l generalizing m with
  | nil => simp
  | cons b l ih =>
    rw [List.foldl_cons, ih, load_remove]
    by_cases hb : k = f b
    · simp [hb]
    · simp [hb]

/-- A map without stored values is empty. -/
theorem eq_empty_of_load {m : StorageMap κ α} (h : ∀ k, m.load k = none) : m = empty := by
  obtain ⟨l, hl⟩ := m
  cases l with
  | nil => rfl
  | cons e l =>
    have hload : (⟨e :: l, hl⟩ : StorageMap κ α).load e.1 = some e.2 :=
      mem_entries.1 List.mem_cons_self
    rw [h] at hload
    cases hload

/-- Two maps with the same entries are the same map. -/
@[ext] theorem ext {m n : StorageMap κ α} (h : m.entries = n.entries) : m = n := by
  cases m; cases n; simpa using h

/-! ## Totals -/

/-- The total of the empty map. -/
@[simp] theorem total_empty (f : α → ℕ) : (empty : StorageMap κ α).total f = 0 := rfl

/-- Putting an entry in place adds its measure and takes away that of the entry it replaces. -/
theorem sum_insertEntry (f : α → ℕ) (k : κ) (v : α) {l : List (κ × α)}
    (h : l.Pairwise fun a b => a.1 < b.1) :
    ((insertEntry k v l).map fun e => f e.2).sum +
        (((l.find? fun e => e.1 = k).map Prod.snd).map f).getD 0 =
      (l.map fun e => f e.2).sum + f v := by
  induction l with
  | nil => simp [insertEntry]
  | cons e l ih =>
    obtain ⟨he, hl⟩ := List.pairwise_cons.1 h
    simp only [insertEntry]
    split_ifs with h₁ h₂
    · -- every key of the list is above `k`, so nothing is replaced
      have hnone : (e :: l).find? (fun e => decide (e.1 = k)) = none := by
        refine List.find?_eq_none.2 fun x hx => ?_
        have hlt : k < x.1 := by
          rcases List.mem_cons.1 hx with rfl | hx
          · exact h₁
          · exact h₁.trans (he x hx)
        simp [hlt.ne']
      rw [hnone]
      simp only [List.map_cons, List.sum_cons, Option.map_none, Option.getD_none]
      omega
    · simp only [List.find?_cons, h₂, decide_true, List.map_cons, List.sum_cons, Option.map_some,
        Option.getD_some]
      omega
    · have := ih hl
      simp only [List.find?_cons, Ne.symm h₂, decide_false, List.map_cons, List.sum_cons]
      omega

/-- **The total after a write**: the new value comes in, the value it replaces goes out. -/
theorem total_save (f : α → ℕ) (m : StorageMap κ α) (k : κ) (v : α) :
    (m.save k v).total f + ((m.load k).map f).getD 0 = m.total f + f v :=
  sum_insertEntry f k v m.sorted

/-- The total after dropping the entries of key `k` from a key-ordered list. -/
theorem sum_filter_ne (f : α → ℕ) (k : κ) {l : List (κ × α)}
    (h : l.Pairwise fun a b => a.1 < b.1) :
    ((l.filter fun e => e.1 ≠ k).map fun e => f e.2).sum +
        (((l.find? fun e => e.1 = k).map Prod.snd).map f).getD 0 =
      (l.map fun e => f e.2).sum := by
  induction l with
  | nil => simp
  | cons e l ih =>
    obtain ⟨he, hl⟩ := List.pairwise_cons.1 h
    by_cases hk : e.1 = k
    · have hall : l.filter (fun e => e.1 ≠ k) = l :=
        List.filter_eq_self.2 fun x hx => by
          have := he x hx
          rw [hk] at this
          simp [this.ne']
      simp only [List.filter_cons, hk, ne_eq, not_true, decide_false, Bool.false_eq_true,
        ↓reduceIte, List.find?_cons, decide_true, Option.map_some, Option.getD_some,
        List.map_cons, List.sum_cons]
      rw [show (l.filter fun e => decide ¬ e.1 = k) = l from hall]
      omega
    · have := ih hl
      simp only [List.filter_cons, hk, ne_eq, not_false_eq_true, decide_true, ↓reduceIte,
        List.find?_cons, decide_false, List.map_cons, List.sum_cons] at this ⊢
      omega

/-- **The total after a removal**: the removed value goes out. -/
theorem total_remove (f : α → ℕ) (m : StorageMap κ α) (k : κ) :
    (m.remove k).total f + ((m.load k).map f).getD 0 = m.total f :=
  sum_filter_ne f k m.sorted

/-- The total is zero when the measure of every stored value is. -/
theorem total_eq_zero {f : α → ℕ} {m : StorageMap κ α}
    (h : ∀ k v, m.load k = some v → f v = 0) : m.total f = 0 := by
  refine List.sum_eq_zero fun n hn => ?_
  obtain ⟨⟨k, v⟩, he, rfl⟩ := List.mem_map.1 hn
  exact h k v (mem_entries.1 he)

/-- **Totals are compared slot by slot.** The induction is on the number of entries: the first one
is removed from both maps. -/
theorem total_le_total {f g : α → ℕ} {m n : StorageMap κ α}
    (h : ∀ k v, m.load k = some v → f v ≤ ((n.load k).map g).getD 0) : m.total f ≤ n.total g := by
  induction hlength : m.entries.length generalizing m n with
  | zero =>
    rw [total, List.length_eq_zero_iff.1 hlength]
    exact Nat.zero_le _
  | succ l ih =>
    obtain ⟨⟨k, v⟩, rest, hentries⟩ := List.exists_cons_of_length_eq_add_one hlength
    have hload : m.load k = some v :=
      mem_entries.1 (by rw [hentries]; exact List.mem_cons_self)
    have hfirst := h k v hload
    have hm := total_remove f m k
    have hn := total_remove g n k
    simp only [hload, Option.map_some, Option.getD_some] at hm
    have hshorter : (m.remove k).entries.length = l := by
      have hsorted := m.sorted
      rw [hentries] at hsorted hlength
      have hrest : ∀ e ∈ rest, e.1 ≠ k := fun e he =>
        ((List.pairwise_cons.1 hsorted).1 e he).ne'
      show (m.entries.filter fun e => decide (e.1 ≠ k)).length = l
      rw [hentries, List.filter_cons_of_neg (by simp),
        List.filter_eq_self.2 (by simpa using hrest)]
      simpa using hlength
    have hle : (m.remove k).total f ≤ (n.remove k).total g := by
      refine ih ?_ hshorter
      intro k' v' hload'
      rw [load_remove] at hload' ⊢
      split_ifs at hload' ⊢
      exact h k' v' hload'
    omega

/-- One stored value is at most the total. -/
theorem le_total (f : α → ℕ) {m : StorageMap κ α} {k : κ} {v : α} (h : m.load k = some v) :
    f v ≤ m.total f := by
  have := total_remove f m k
  simp only [h, Option.map_some, Option.getD_some] at this
  omega

end StorageMap
