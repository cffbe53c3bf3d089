import Mathlib.Data.List.Induction
import Mathlib.Tactic.SplitIfs

set_option relaxedAutoImplicit false
set_option autoImplicit false

/-!
# Windows that slide by one entry

A window is a list of entries, the oldest first. Each new entry makes room for itself by removing
the oldest one, but only if that one has expired, so entries leave one for each that comes, however
many have expired.

## Main definitions

* `Window.evict` — a window after at most a given number of expired entries are removed.
* `Window.slide` — one entry comes.

## Main results

* `Window.foldl_slide` — a window after a list of entries that have not expired.
* `Window.countP_le_of_head`, `Window.not_expired_of_countP_le` — when nothing expired is left.
-/

namespace Window

variable {α : Type} (expired : α → Bool)

/-- The window after at most `n` entries are removed from its front, each of them expired. -/
def evict : ℕ → List α → List α
  | 0, window => window
  | _ + 1, [] => []
  | n + 1, a :: window => if expired a then evict n window else a :: window

/-- One entry comes, and the oldest one goes if it has expired. -/
def slide (window : List α) (a : α) : List α := evict expired 1 window ++ [a]

variable {expired}

/-- What is left is a suffix. -/
theorem evict_suffix (n : ℕ) (window : List α) : evict expired n window <:+ window := by
  induction n generalizing window with
  | zero => exact List.suffix_refl _
  | succ n ih =>
    cases window with
    | nil => exact List.suffix_refl _
    | cons a window =>
      simp only [evict]
      split_ifs
      · exact (ih window).trans (List.suffix_cons a window)
      · exact List.suffix_refl _

/-- Entries that have not expired keep the rest of the window from being removed, and stay. -/
theorem evict_append {n : ℕ} {window new : List α} (hnew : ∀ a ∈ new, expired a = false) :
    evict expired n (window ++ new) = evict expired n window ++ new := by
  induction n generalizing window with
  | zero => rfl
  | succ n ih =>
    cases window with
    | nil =>
      cases new with
      | nil => rfl
      | cons a new => simp [evict, hnew a List.mem_cons_self]
    | cons a window =>
      by_cases ha : expired a = true
      · simpa [evict, ha] using ih
      · simp [evict, ha]

/-- One more removal. -/
theorem evict_evict (n : ℕ) (window : List α) :
    evict expired 1 (evict expired n window) = evict expired (n + 1) window := by
  induction n generalizing window with
  | zero => rfl
  | succ n ih =>
    cases window with
    | nil => rfl
    | cons a window =>
      by_cases ha : expired a = true
      · simpa [evict, ha] using ih window
      · simp [evict, ha]

/-- **A window after a list of entries that have not expired**: as many have gone as could, and the
new ones are at the end.

**Proof sketch.** Induction on the list from its end. None of the new entries has expired, so what
one more of them removes is the oldest of the entries that were there before. -/
theorem foldl_slide {window new : List α} (hnew : ∀ a ∈ new, expired a = false) :
    new.foldl (slide expired) window = evict expired new.length window ++ new := by
  induction new using List.reverseRecOn with
  | nil => simp [evict]
  | append_singleton new a ih =>
    have hbefore : ∀ b ∈ new, expired b = false :=
      fun b hb => hnew b (List.mem_append_left _ hb)
    rw [List.foldl_append, ih hbefore]
    show evict expired 1 (evict expired new.length window ++ new) ++ [a] = _
    rw [evict_append hbefore, evict_evict, List.length_append, List.append_assoc]
    rfl

/-! ### What is left in the order of time -/

section Ordered

variable {n : ℕ} {window : List α}

/-- If the oldest entry that is left has not expired, at most `n` had. -/
theorem countP_le_of_head (horder : window.Pairwise fun a b => expired b = true → expired a = true)
    (hhead : ∀ a ∈ (evict expired n window).head?, expired a = false) :
    window.countP expired ≤ n := by
  induction n generalizing window with
  | zero =>
    cases window with
    | nil => simp
    | cons a window =>
      have ha : expired a = false := hhead a rfl
      have hrest : ∀ b ∈ window, ¬ expired b = true := by
        intro b hb hexpired
        have := (List.pairwise_cons.1 horder).1 b hb hexpired
        simp [ha] at this
      simp [ha, List.countP_eq_zero.2 hrest]
  | succ n ih =>
    cases window with
    | nil => simp
    | cons a window =>
      obtain ⟨hfirst, hrest⟩ := List.pairwise_cons.1 horder
      by_cases ha : expired a = true
      · simp only [evict, ha, if_true] at hhead
        have := ih hrest hhead
        simp only [List.countP_cons, ha, if_true]
        omega
      · have hnone : ∀ b ∈ window, ¬ expired b = true := fun b hb h => ha (hfirst b hb h)
        simp [ha, List.countP_eq_zero.2 hnone]

/-- If at most `n` entries have expired, none of them is left. -/
theorem not_expired_of_countP_le
    (horder : window.Pairwise fun a b => expired b = true → expired a = true)
    (hcount : window.countP expired ≤ n) : ∀ a ∈ evict expired n window, expired a = false := by
  induction n generalizing window with
  | zero =>
    have hnone := List.countP_eq_zero.1 (Nat.le_zero.1 hcount)
    intro a ha
    simpa using hnone a ha
  | succ n ih =>
    cases window with
    | nil => simp [evict]
    | cons a window =>
      obtain ⟨hfirst, hrest⟩ := List.pairwise_cons.1 horder
      by_cases ha : expired a = true
      · simp only [List.countP_cons, ha, if_true] at hcount
        simp only [evict, ha, if_true]
        exact ih hrest (by omega)
      · simp only [evict, ha]
        intro b hb
        rcases List.mem_cons.1 hb with rfl | hb
        · simpa using ha
        · by_contra hexpired
          exact ha (hfirst b hb (by simpa using hexpired))

end Ordered

end Window
