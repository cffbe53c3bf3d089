import DropContracts.Base.StorageMap
import Mathlib.Data.List.Sort
import Mathlib.Data.Prod.Lex

set_option relaxedAutoImplicit false
set_option autoImplicit false

/-!
# Storage maps with an index

A storage map can be kept together with an index that lists its keys by something computed from the
values. The index is a second map, written with every write of the first; that the two agree is
part of the value. Iteration over the part of the index with one index key reads the values back
from the first map.

## Main definitions

* `IndexedMap` — a storage map with an index.
* `IndexedMap.save`, `IndexedMap.remove` — the writes.
* `IndexedMap.ofMap` — the index of a given map.
* `IndexedMap.prefixRange` — iteration over one index key.

## Main results

* `IndexedMap.ext_primary` — the index is determined by the map.
* `IndexedMap.save_ofMap`, `IndexedMap.remove_ofMap` — the writes keep up the index.
* `IndexedMap.prefixRange_eq` — iteration lists exactly the entries with the index key, in the order
  of their keys.
-/

/-! ## Sorted entries -/

namespace StorageMap

variable {κ α : Type} [LinearOrder κ]

/-- No entry is before itself. -/
instance instIrreflKeys : Std.Irrefl fun a b : κ × α => a.1 < b.1 := ⟨fun a => lt_irrefl a.1⟩

/-- No two entries are each before the other. -/
instance instAntisymmKeys : Std.Antisymm fun a b : κ × α => a.1 < b.1 :=
  ⟨fun _ _ h h' => absurd h' h.asymm⟩

/-- Two maps that are read alike are the same map. -/
theorem ext_load {m n : StorageMap κ α} (h : ∀ k, m.load k = n.load k) : m = n := by
  refine StorageMap.ext (m.sorted.eq_of_mem_iff n.sorted fun e => ?_)
  obtain ⟨k, v⟩ := e
  rw [mem_entries, mem_entries, h]

end StorageMap

/-! ## Maps with an index -/

/-- A storage map with an index of its keys, which is ordered by the index key first. -/
structure IndexedMap {ι α : Type} (κ : Type) [LinearOrder ι] [LinearOrder κ] (idx : α → ι) where
  primary : StorageMap κ α
  index : StorageMap (Lex (ι × κ)) Unit
  consistent : ∀ i k, index.load (toLex (i, k)) = some () ↔
    ∃ v, primary.load k = some v ∧ idx v = i

namespace IndexedMap

variable {ι κ α : Type} [LinearOrder ι] [LinearOrder κ] {idx : α → ι}

/-- The index without the entry of one key. -/
def forget (m : IndexedMap κ idx) (k : κ) : StorageMap (Lex (ι × κ)) Unit :=
  match m.primary.load k with
  | some old => m.index.remove (toLex (idx old, k))
  | none => m.index

/-- The index without the entry of one key lists the other keys. -/
theorem load_forget (m : IndexedMap κ idx) (k k' : κ) (i : ι) :
    (m.forget k).load (toLex (i, k')) = some () ↔
      k' ≠ k ∧ m.index.load (toLex (i, k')) = some () := by
  unfold forget
  cases hload : m.primary.load k with
  | none =>
    refine ⟨fun h => ⟨?_, h⟩, And.right⟩
    rintro rfl
    obtain ⟨v, hv, -⟩ := (m.consistent i k').1 h
    rw [hload] at hv
    cases hv
  | some old =>
    simp only [StorageMap.load_remove]
    split_ifs with heq
    · obtain ⟨rfl, rfl⟩ : i = idx old ∧ k' = k := by simpa using heq
      simp
    · refine ⟨fun h => ⟨?_, h⟩, And.right⟩
      rintro rfl
      obtain ⟨v, hv, rfl⟩ := (m.consistent i k').1 h
      rw [hload] at hv
      exact heq (by rw [Option.some.inj hv])

/-- Store `v` under `k`, and keep up the index. -/
def save (m : IndexedMap κ idx) (k : κ) (v : α) : IndexedMap κ idx where
  primary := m.primary.save k v
  index := (m.forget k).save (toLex (idx v, k)) ()
  consistent i k' := by
    rw [StorageMap.load_save, StorageMap.load_save]
    by_cases hk : k' = k
    · subst hk
      have hforgot : (m.forget k').load (toLex (i, k')) ≠ some () := fun h =>
        ((load_forget m k' k' i).1 h).1 rfl
      by_cases hi : i = idx v
      · simp [hi]
      · simp [hi, hforgot, Ne.symm hi]
    · have hne : toLex (i, k') ≠ toLex (idx v, k) := fun h => hk (congrArg Prod.snd h)
      rw [if_neg hne, if_neg hk, load_forget, m.consistent]
      exact and_iff_right hk

/-- Forget what is stored under `k`, also in the index. -/
def remove (m : IndexedMap κ idx) (k : κ) : IndexedMap κ idx where
  primary := m.primary.remove k
  index := m.forget k
  consistent i k' := by
    rw [load_forget, m.consistent, StorageMap.load_remove]
    by_cases hk : k' = k
    · simp [hk]
    · simp [hk]

/-- **The index is determined by the map.** -/
theorem ext_primary {m n : IndexedMap κ idx} (h : m.primary = n.primary) : m = n := by
  have hindex : m.index = n.index := by
    refine StorageMap.ext_load fun k => Option.ext fun u => ?_
    have hm := m.consistent (ofLex k).1 (ofLex k).2
    have hn := n.consistent (ofLex k).1 (ofLex k).2
    rw [h] at hm
    exact hm.trans hn.symm
  cases m
  cases n
  subst h hindex
  rfl

/-! ### The index of a map -/

/-- The keys of a list of entries, stored in an index. -/
def indexOf (idx : α → ι) (entries : List (κ × α)) : StorageMap (Lex (ι × κ)) Unit :=
  entries.foldr (fun e index => index.save (toLex (idx e.2, e.1)) ()) StorageMap.empty

/-- The index lists the keys of the entries, each with the index key of its value. -/
theorem load_indexOf (entries : List (κ × α)) (i : ι) (k : κ) :
    (indexOf idx entries).load (toLex (i, k)) = some () ↔ ∃ v, (k, v) ∈ entries ∧ idx v = i := by
  induction entries with
  | nil => simp [indexOf]
  | cons e entries ih =>
    obtain ⟨k', v'⟩ := e
    simp only [indexOf, List.foldr_cons] at ih ⊢
    rw [StorageMap.load_save]
    split_ifs with heq
    · obtain ⟨rfl, rfl⟩ : i = idx v' ∧ k = k' := by simpa using heq
      simp only [true_iff]
      exact ⟨v', List.mem_cons_self, rfl⟩
    · rw [ih]
      constructor
      · rintro ⟨v, hmem, rfl⟩
        exact ⟨v, List.mem_cons_of_mem _ hmem, rfl⟩
      · rintro ⟨v, hmem, rfl⟩
        obtain heq' | hmem := List.mem_cons.1 hmem
        · obtain ⟨rfl, rfl⟩ := Prod.mk.inj heq'
          exact absurd rfl heq
        · exact ⟨v, hmem, rfl⟩

/-- A map together with its index. -/
def ofMap (idx : α → ι) (m : StorageMap κ α) : IndexedMap κ idx where
  primary := m
  index := indexOf idx m.entries
  consistent i k := by simp only [load_indexOf, StorageMap.mem_entries]

/-- **A write keeps up the index.** -/
theorem save_ofMap (m : StorageMap κ α) (k : κ) (v : α) :
    (ofMap idx m).save k v = ofMap idx (m.save k v) := ext_primary rfl

/-- **A removal keeps up the index.** -/
theorem remove_ofMap (m : StorageMap κ α) (k : κ) :
    (ofMap idx m).remove k = ofMap idx (m.remove k) := ext_primary rfl

/-! ### Iteration -/

/-- Iteration over the keys with one index key, whose values are read from the map. -/
def prefixRange (m : IndexedMap κ idx) (i : ι) : List (κ × α) :=
  (m.index.entries.filter fun e => (ofLex e.1).1 = i).filterMap fun e =>
    (m.primary.load (ofLex e.1).2).map fun v => ((ofLex e.1).2, v)

/-- **Iteration lists the entries with the index key** in the order of their keys.

**Proof sketch.** Both lists have strictly increasing keys and the same members. -/
theorem prefixRange_eq (m : IndexedMap κ idx) (i : ι) :
    m.prefixRange i = m.primary.entries.filter fun e => idx e.2 = i := by
  have hsorted : (m.prefixRange i).Pairwise fun a b => a.1 < b.1 := by
    rw [prefixRange, List.pairwise_filterMap, List.pairwise_filter]
    refine m.index.sorted.imp fun {a b} hlt ha hb e he e' he' => ?_
    obtain ⟨v, -, rfl⟩ := Option.map_eq_some_iff.1 he
    obtain ⟨v', -, rfl⟩ := Option.map_eq_some_iff.1 he'
    obtain hfirst | ⟨-, hsecond⟩ := Prod.Lex.lt_iff.1 hlt
    · rw [of_decide_eq_true ha, of_decide_eq_true hb] at hfirst
      exact absurd hfirst (lt_irrefl i)
    · exact hsecond
  refine hsorted.eq_of_mem_iff (m.primary.sorted.filter _) fun e => ?_
  obtain ⟨k, v⟩ := e
  rw [List.mem_filter, StorageMap.mem_entries, decide_eq_true_iff, prefixRange,
    List.mem_filterMap]
  constructor
  · rintro ⟨⟨x, u⟩, hmem, hread⟩
    obtain ⟨hmem, hx⟩ := List.mem_filter.1 hmem
    obtain ⟨v', hload, heq⟩ := Option.map_eq_some_iff.1 hread
    obtain ⟨rfl, rfl⟩ := Prod.mk.inj heq
    obtain ⟨v'', hload', hidx⟩ :=
      (m.consistent (ofLex x).1 (ofLex x).2).1 (StorageMap.mem_entries.1 hmem)
    rw [hload] at hload'
    rw [← Option.some.inj hload'] at hidx
    exact ⟨hload, hidx.trans (of_decide_eq_true hx)⟩
  · rintro ⟨hload, rfl⟩
    have hmem : (toLex (idx v, k), ()) ∈ m.index.entries :=
      StorageMap.mem_entries.2 ((m.consistent (idx v) k).2 ⟨v, hload, rfl⟩)
    refine ⟨_, List.mem_filter.2 ⟨hmem, by simp⟩, ?_⟩
    simp [hload]

end IndexedMap
