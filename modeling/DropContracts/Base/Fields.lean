import Mathlib.Data.List.Basic
import Mathlib.Data.Nat.Digits.Defs

set_option relaxedAutoImplicit false
set_option autoImplicit false

/-!
# Texts that are made of fields

A text is put together from fields with a separator between them. The first field can be read back
when it does not have the separator in it, and so can the last one; the field in the middle may
hold anything. Numbers are written with digits, so they never hold a separator that is no digit.

## Main results

* `Fields.first_inj`, `Fields.last_inj` — equal texts have equal first and last fields.
* `Fields.middle_inj` — a text of three fields with numbers at both ends determines the fields.
-/

namespace Fields

variable {α : Type} {s : α}

/-- **The first field** ends at the first separator, and the rest follows it. The induction is on
the first field. -/
theorem first_inj {x y a b : List α} (hx : s ∉ x) (hy : s ∉ y)
    (h : x ++ s :: a = y ++ s :: b) : x = y ∧ a = b := by
  induction x generalizing y with
  | nil =>
    cases y with
    | nil => exact ⟨rfl, (List.cons.inj h).2⟩
    | cons c y =>
      obtain ⟨rfl, -⟩ := List.cons.inj h
      exact absurd List.mem_cons_self hy
  | cons c x ih =>
    cases y with
    | nil =>
      obtain ⟨rfl, -⟩ := List.cons.inj h
      exact absurd List.mem_cons_self hx
    | cons c' y =>
      obtain ⟨rfl, htail⟩ := List.cons.inj h
      obtain ⟨rfl, rfl⟩ := ih (fun hs => hx (List.mem_cons_of_mem _ hs))
        (fun hs => hy (List.mem_cons_of_mem _ hs)) htail
      exact ⟨rfl, rfl⟩

/-- **The last field** begins after the last separator: this is the first field of the text that is
read backwards. -/
theorem last_inj {x y a b : List α} (ha : s ∉ a) (hb : s ∉ b)
    (h : x ++ s :: a = y ++ s :: b) : x = y ∧ a = b := by
  have hreverse : a.reverse ++ s :: x.reverse = b.reverse ++ s :: y.reverse := by
    simpa using congrArg List.reverse h
  obtain ⟨hab, hxy⟩ := first_inj (by simpa using ha) (by simpa using hb) hreverse
  exact ⟨List.reverse_injective hxy, List.reverse_injective hab⟩

/-! ## Numbers -/

/-- The text of a number is the list of its digits. -/
theorem toList_toString (n : ℕ) : (toString n).toList = Nat.toDigits 10 n := Nat.toList_repr

/-- The text of a number does not hold a character that is no digit. -/
theorem notMem_toString {c : Char} (hc : c.isDigit = false) (n : ℕ) : c ∉ (toString n).toList := by
  intro hmem
  rw [toList_toString] at hmem
  have hdigit := Nat.isDigit_of_mem_toDigits (b := 10) (by decide) (by decide) hmem
  rw [hc] at hdigit
  cases hdigit

/-- The number is read back from its digits. -/
theorem toString_inj {n m : ℕ} (h : toString n = toString m) : n = m := by
  have hdigits := congrArg String.toList h
  rw [toList_toString, toList_toString] at hdigits
  rw [← Nat.ofDigitChars_ten_toDigits (n := n), hdigits, Nat.ofDigitChars_ten_toDigits]

/-- **A text of three fields** with numbers at both ends determines the three fields, whatever the
field in the middle is. -/
theorem middle_inj {c : Char} (hc : c.isDigit = false) {n m k l : ℕ} {x y : String}
    (h : toString n ++ String.singleton c ++ x ++ String.singleton c ++ toString k =
      toString m ++ String.singleton c ++ y ++ String.singleton c ++ toString l) :
    n = m ∧ x = y ∧ k = l := by
  have hlist := congrArg String.toList h
  simp only [String.toList_append, String.toList_singleton, List.append_assoc,
    List.singleton_append] at hlist
  obtain ⟨hfirst, hrest⟩ := first_inj (notMem_toString hc n) (notMem_toString hc m) hlist
  obtain ⟨hmiddle, hlast⟩ := last_inj (notMem_toString hc k) (notMem_toString hc l) hrest
  exact ⟨toString_inj (String.toList_inj.1 hfirst), String.toList_inj.1 hmiddle,
    toString_inj (String.toList_inj.1 hlast)⟩

end Fields
