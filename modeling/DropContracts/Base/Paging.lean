import Mathlib.Data.List.Pairwise
import Mathlib.Order.Lattice

set_option relaxedAutoImplicit false
set_option autoImplicit false

/-!
# Reading a sorted list page by page

A query returns the first entries from a key on, up to a limit, and the key of the entry after them.
A reader asks without a key first, and then with the key that the last page has returned, until a
page returns none. When the keys increase strictly, the pages one after the other are the list.

## Main definitions

* `Page`, `pageFrom` — a page, and the page that a query returns.
* `PagesFrom` — the pages that a reader gets from some key on until the end.

## Main results

* `PagesFrom.unique` — a reader of a query with one answer gets one list of pages.
* `exists_pages` — the reader comes to an end, and what the pages list is the whole list; all of
  them but the last are full.
-/

/-- A page: some entries, and the key of the next one. -/
structure Page (κ α : Type) where
  items : List (κ × α)
  next : Option κ

section Paging

variable {κ α : Type} [LinearOrder κ]

/-- The entries from a key on, which is included, or all entries. -/
def startingAt (entries : List (κ × α)) : Option κ → List (κ × α)
  | none => entries
  | some key => entries.filter fun e => key ≤ e.1

/-- The page of at most `limit` entries from a key on, with the key of the entry after them. -/
def pageFrom (entries : List (κ × α)) (limit : ℕ) (start : Option κ) : Page κ α where
  items := (startingAt entries start).take limit
  next := ((startingAt entries start).drop limit).head?.map Prod.fst

/-- The pages from a key on, where each page was answered for the key that the page before it has
returned, and the last one returns no key. -/
inductive PagesFrom {κ π : Type} (query : Option κ → π → Prop) (next : π → Option κ) :
    Option κ → List π → Prop
  | last {start : Option κ} {page : π} (hquery : query start page) (hnext : next page = none) :
      PagesFrom query next start [page]
  | more {start : Option κ} {page : π} {key : κ} {pages : List π} (hquery : query start page)
      (hnext : next page = some key) (hrest : PagesFrom query next (some key) pages) :
      PagesFrom query next start (page :: pages)

/-- **There is one list of pages** when there is one answer. -/
theorem PagesFrom.unique {κ π : Type} {query : Option κ → π → Prop} {next : π → Option κ}
    (hquery : ∀ start page page', query start page → query start page' → page' = page)
    {start : Option κ} {pages pages' : List π} (h : PagesFrom query next start pages)
    (h' : PagesFrom query next start pages') : pages' = pages := by
  induction h generalizing pages' with
  | last hpage hnext =>
    cases h' with
    | last hpage' _ => rw [hquery _ _ _ hpage hpage']
    | more hpage' hnext' _ =>
      rw [hquery _ _ _ hpage hpage', hnext] at hnext'
      cases hnext'
  | more hpage hnext _ ih =>
    cases h' with
    | last hpage' hnext' =>
      rw [hquery _ _ _ hpage hpage', hnext] at hnext'
      cases hnext'
    | more hpage' hnext' hrest =>
      obtain rfl := hquery _ _ _ hpage hpage'
      rw [hnext] at hnext'
      obtain rfl := Option.some.inj hnext'
      rw [ih hrest]

/-- The pages that are made of other pages. -/
theorem PagesFrom.map {κ π π' : Type} {query : Option κ → π → Prop} {next : π → Option κ}
    {query' : Option κ → π' → Prop} {next' : π' → Option κ} {f : π → π'}
    (hquery : ∀ start page, query start page → query' start (f page))
    (hnext : ∀ page, next' (f page) = next page) {start : Option κ} {pages : List π}
    (h : PagesFrom query next start pages) : PagesFrom query' next' start (pages.map f) := by
  induction h with
  | last hpage hlast => exact .last (hquery _ _ hpage) ((hnext _).trans hlast)
  | more hpage hmore _ ih => exact .more (hquery _ _ hpage) ((hnext _).trans hmore) ih

/-- Starting at the key of an entry leaves out the entries before it. -/
theorem startingAt_key {before rest : List (κ × α)} {e : κ × α}
    (hsorted : (before ++ e :: rest).Pairwise fun a b => a.1 < b.1) :
    startingAt (before ++ e :: rest) (some e.1) = e :: rest := by
  obtain ⟨-, hrest, hbefore⟩ := List.pairwise_append.1 hsorted
  have hnone : before.filter (fun x => decide (e.1 ≤ x.1)) = [] := by
    refine List.filter_eq_nil_iff.2 fun x hx => ?_
    simpa using hbefore x hx e List.mem_cons_self
  have hall : (e :: rest).filter (fun x => decide (e.1 ≤ x.1)) = e :: rest := by
    refine List.filter_eq_self.2 fun x hx => ?_
    obtain rfl | hx := List.mem_cons.1 hx
    · simp
    · simpa using ((List.pairwise_cons.1 hrest).1 x hx).le
  rw [startingAt, List.filter_append, hnone, hall, List.nil_append]

/-- The pages from a key on list the entries from that key on. The induction is on their number,
which every page lowers. -/
theorem exists_pages_from {entries : List (κ × α)} {limit : ℕ}
    (hsorted : entries.Pairwise fun a b => a.1 < b.1) (hlimit : 0 < limit) (n : ℕ) :
    ∀ (before rest : List (κ × α)) (start : Option κ), rest.length ≤ n → entries = before ++ rest →
      startingAt entries start = rest →
      ∃ pages, PagesFrom (fun start page => page = pageFrom entries limit start) Page.next start
          pages ∧ pages.flatMap Page.items = rest ∧
        ∀ page ∈ pages.dropLast, page.items.length = limit := by
  induction n with
  | zero =>
    intro before rest start hlength hsplit hstart
    obtain rfl := List.length_eq_zero_iff.1 (Nat.le_zero.1 hlength)
    refine ⟨[pageFrom entries limit start], .last rfl ?_, ?_, by simp⟩
    · simp [pageFrom, hstart]
    · simp [pageFrom, hstart]
  | succ n ih =>
    intro before rest start hlength hsplit hstart
    cases hdrop : rest.drop limit with
    | nil =>
      -- the last page holds all that is left
      refine ⟨[pageFrom entries limit start], .last rfl ?_, ?_, by simp⟩
      · simp [pageFrom, hstart, hdrop]
      · simp [pageFrom, hstart, List.take_of_length_le (List.drop_eq_nil_iff.1 hdrop)]
    | cons e rest' =>
      have hrest : rest = rest.take limit ++ e :: rest' := by
        rw [← hdrop, List.take_append_drop]
      have hentries : entries = (before ++ rest.take limit) ++ e :: rest' := by
        rw [List.append_assoc, ← hrest, ← hsplit]
      have hfull : (rest.take limit).length = limit := by
        have hlong : limit < rest.length := by
          by_contra hle
          rw [List.drop_eq_nil_of_le (not_lt.1 hle)] at hdrop
          cases hdrop
        rw [List.length_take, min_eq_left hlong.le]
      have hshorter : (e :: rest').length ≤ n := by
        have hcount := congrArg List.length hrest
        rw [List.length_append, hfull] at hcount
        omega
      obtain ⟨pages, hpages, hlisted, hfullPages⟩ := ih (before ++ rest.take limit) (e :: rest')
        (some e.1) hshorter hentries (hentries ▸ startingAt_key (hentries ▸ hsorted))
      refine ⟨pageFrom entries limit start :: pages, .more rfl ?_ hpages, ?_, ?_⟩
      · simp [pageFrom, hstart, hdrop]
      · rw [List.flatMap_cons, hlisted, pageFrom, hstart, ← hrest]
      · have hne : pages ≠ [] := by
          rintro rfl
          cases hpages
        rw [List.dropLast_cons_of_ne_nil hne]
        intro page hpage
        obtain rfl | hpage := List.mem_cons.1 hpage
        · simp only [pageFrom, hstart, hfull]
        · exact hfullPages page hpage

/-- **The pages list everything, once and in order**: the reader comes to an end, the pages one
after the other are the list, and all of them but the last are full. -/
theorem exists_pages {entries : List (κ × α)} {limit : ℕ}
    (hsorted : entries.Pairwise fun a b => a.1 < b.1) (hlimit : 0 < limit) :
    ∃ pages, PagesFrom (fun start page => page = pageFrom entries limit start) Page.next none
        pages ∧ pages.flatMap Page.items = entries ∧
      ∀ page ∈ pages.dropLast, page.items.length = limit :=
  exists_pages_from hsorted hlimit entries.length [] entries none le_rfl rfl rfl

end Paging
