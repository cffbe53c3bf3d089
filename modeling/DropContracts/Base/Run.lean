import Mathlib.Logic.Relation
import Mathlib.Tactic.SplitIfs

set_option relaxedAutoImplicit false
set_option autoImplicit false

/-!
# Runs of a labelled transition system

A system is a relation `step s a t`: the action `a` takes the state `s` to `t`. A property of
whole runs is proved from what one step preserves; many properties hold only of the runs whose
steps all avoid some branch, so runs carry a condition on the state and the action of each step.

## Main definitions

* `RunWhere step ok s t` — some run from `s` to `t` whose every step `(s', a)` satisfies `ok`.
* `Run step s t` — some run from `s` to `t`.
* `Recorded step record` — the steps together with a history of the run.

## Main results

* `RunWhere.preserves` — what every allowed step preserves, every allowed run preserves.
* `RunWhere.preserves_of` — the same rule for a property whose step lemma needs an invariant.
* `RunWhere.of_end` — the backward rule.
* `runList_eq_some` — a list of actions that is evaluated is a run.
* `foldlM_preserves_of`, `foldlM_preserves` — the invariant rules for a loop that may stop.
* `RunWhere.forget`, `RunWhere.recorded` — runs and runs with a history are the same.
-/

section Runs

variable {σ α : Type} {step : σ → α → σ → Prop} {ok : σ → α → Prop}

/-- `t` is reached from `s` by a run whose steps all satisfy `ok`. -/
def RunWhere (step : σ → α → σ → Prop) (ok : σ → α → Prop) : σ → σ → Prop :=
  Relation.ReflTransGen fun s t => ∃ a, ok s a ∧ step s a t

/-- `t` is reached from `s` by some run. -/
abbrev Run (step : σ → α → σ → Prop) : σ → σ → Prop := RunWhere step fun _ _ => True

namespace RunWhere

/-- The run without steps. -/
theorem refl (s : σ) : RunWhere step ok s s := Relation.ReflTransGen.refl

/-- One more step. -/
theorem tail {s t u : σ} (h : RunWhere step ok s t) {a : α} (ha : ok t a) (hs : step t a u) :
    RunWhere step ok s u :=
  Relation.ReflTransGen.tail h ⟨a, ha, hs⟩

/-- A run of one step. -/
theorem single {s t : σ} {a : α} (ha : ok s a) (hs : step s a t) : RunWhere step ok s t :=
  (refl s).tail ha hs

/-- Two runs, one after the other. -/
theorem trans {s t u : σ} (h : RunWhere step ok s t) (h' : RunWhere step ok t u) :
    RunWhere step ok s u :=
  Relation.ReflTransGen.trans h h'

/-- A run under a condition is a run under every weaker condition. -/
theorem mono {ok' : σ → α → Prop} (himp : ∀ s a, ok s a → ok' s a) {s t : σ}
    (h : RunWhere step ok s t) : RunWhere step ok' s t :=
  Relation.ReflTransGen.mono (fun _ _ ⟨a, ha, hs⟩ => ⟨a, himp _ _ ha, hs⟩) _ _ h

/-- A run under a condition is a run. -/
theorem run {s t : σ} (h : RunWhere step ok s t) : Run step s t :=
  h.mono fun _ _ _ => trivial

/-- **The invariant rule**: what every allowed step preserves, every allowed run preserves. -/
theorem preserves {P : σ → Prop} (hstep : ∀ s a t, ok s a → step s a t → P s → P t) {s t : σ}
    (h : RunWhere step ok s t) (hs : P s) : P t := by
  induction h with
  | refl => exact hs
  | tail _ hlast ih =>
    obtain ⟨a, ha, hst⟩ := hlast
    exact hstep _ a _ ha hst ih

/-- The invariant rule for a property whose step lemma relies on an invariant `I` of all runs. -/
theorem preserves_of {I P : σ → Prop} (hI : ∀ s a t, step s a t → I s → I t)
    (hstep : ∀ s a t, I s → ok s a → step s a t → P s → P t) {s t : σ}
    (h : RunWhere step ok s t) (hs : I s) (hP : P s) : P t := by
  have hboth : I t ∧ P t :=
    h.preserves (P := fun s => I s ∧ P s)
      (fun s a t ha hst hs => ⟨hI s a t hst hs.1, hstep s a t hs.1 ha hst hs.2⟩) ⟨hs, hP⟩
  exact hboth.2

/-- **The backward rule**: when what holds at the end of a run, held before each step, and only
allowed steps lead there, then all steps of the run are allowed. -/
theorem of_end {ok' : σ → α → Prop} {I P : σ → Prop} (hI : ∀ s a t, step s a t → I s → I t)
    (hback : ∀ s a t, I s → ok s a → step s a t → P t → P s ∧ ok' s a) {s t : σ}
    (h : RunWhere step ok s t) (hs : I s) (hP : P t) : RunWhere step ok' s t := by
  induction h with
  | refl => exact refl s
  | tail hrun hlast ih =>
    obtain ⟨a, ha, hst⟩ := hlast
    have hinv : I _ := RunWhere.preserves (fun s a t _ hst hs => hI s a t hst hs) hrun hs
    obtain ⟨hP', ha'⟩ := hback _ a _ hinv ha hst hP
    exact (ih hP').tail ha' hst

end RunWhere

/-! ### Evaluated runs -/

/-- The state after a list of actions, if all of them pass the check `ok` and can be taken. -/
def runList (exec : σ → α → Option σ) (ok : σ → α → Bool) (s : σ) : List α → Option σ
  | [] => some s
  | a :: rest => if ok s a then (exec s a).bind fun t => runList exec ok t rest else none

/-- **An evaluated list of actions is a run**, under every condition that the check ensures for the
actions of the list. -/
theorem runList_eq_some {exec : σ → α → Option σ} {check : σ → α → Bool}
    (hexec : ∀ s a t, exec s a = some t → step s a t) {s t : σ} {actions : List α}
    (hcheck : ∀ s, ∀ a ∈ actions, check s a = true → ok s a)
    (h : runList exec check s actions = some t) : RunWhere step ok s t := by
  induction actions generalizing s with
  | nil =>
    rw [← Option.some.inj h]
    exact RunWhere.refl s
  | cons a rest ih =>
    simp only [runList] at h
    split_ifs at h with ha
    obtain ⟨u, hstep, h⟩ := Option.bind_eq_some_iff.1 h
    have hrest : ∀ s, ∀ a ∈ rest, check s a = true → ok s a :=
      fun s a hmem => hcheck s a (List.mem_cons_of_mem _ hmem)
    have hfirst : ok s a := hcheck s a List.mem_cons_self ha
    exact (RunWhere.single hfirst (hexec s a u hstep)).trans (ih hrest h)

/-- The invariant rule for a loop over rounds of one kind. -/
theorem foldlM_preserves_of {f : σ → α → Option σ} {Q : α → Prop} {P : σ → Prop}
    (hround : ∀ s a t, Q a → f s a = some t → P s → P t) {l : List α} (hl : ∀ a ∈ l, Q a) {s t : σ}
    (h : l.foldlM f s = some t) (hs : P s) : P t := by
  induction l generalizing s with
  | nil =>
    rw [← Option.some.inj h]
    exact hs
  | cons a l ih =>
    obtain ⟨u, hu, h⟩ := Option.bind_eq_some_iff.1 h
    have hrest : ∀ b ∈ l, Q b := fun b hb => hl b (List.mem_cons_of_mem _ hb)
    exact ih hrest h (hround s a u (hl a List.mem_cons_self) hu hs)

/-- **The invariant rule for a loop that may stop**: what each round preserves, the loop
preserves. -/
theorem foldlM_preserves {f : σ → α → Option σ} {P : σ → Prop}
    (hround : ∀ s a t, f s a = some t → P s → P t) {l : List α} {s t : σ}
    (h : l.foldlM f s = some t) (hs : P s) : P t :=
  foldlM_preserves_of (Q := fun _ => True) (fun s a t _ => hround s a t) (fun _ _ => trivial) h hs

/-! ### Histories -/

variable {η : Type} {record : η → σ → α → σ → η}

/-- The steps of a system together with a history, to which `record` adds what each step does. -/
def Recorded (step : σ → α → σ → Prop) (record : η → σ → α → σ → η) (x : σ × η) (a : α)
    (y : σ × η) : Prop :=
  step x.1 a y.1 ∧ y.2 = record x.2 x.1 a y.1

/-- An evaluated step together with what is recorded of it. -/
theorem Recorded.of_map {exec : σ → α → Option σ} (hexec : ∀ s a t, exec s a = some t → step s a t)
    {x y : σ × η} {a : α} (h : ((exec x.1 a).map fun t => (t, record x.2 x.1 a t)) = some y) :
    Recorded step record x a y := by
  obtain ⟨t, ht, rfl⟩ := Option.map_eq_some_iff.1 h
  exact ⟨hexec _ _ _ ht, rfl⟩

/-- A run with a history is a run. -/
theorem RunWhere.forget {ok : σ × η → α → Prop} {x y : σ × η}
    (h : RunWhere (Recorded step record) ok x y) : Run step x.1 y.1 := by
  induction h with
  | refl => exact RunWhere.refl _
  | tail _ hlast ih =>
    obtain ⟨a, -, hstep, -⟩ := hlast
    exact ih.tail trivial hstep

/-- **Every run has a history.** -/
theorem RunWhere.recorded {ok : σ → α → Prop} {s t : σ} (h : RunWhere step ok s t) (history : η) :
    ∃ history', RunWhere (Recorded step record) (fun x a => ok x.1 a) (s, history)
      (t, history') := by
  induction h with
  | refl => exact ⟨history, RunWhere.refl _⟩
  | tail _ hlast ih =>
    obtain ⟨history', hrun⟩ := ih
    obtain ⟨a, ha, hstep⟩ := hlast
    have hlast' : Recorded step record (_, history') a (_, record history' _ a _) := ⟨hstep, rfl⟩
    exact ⟨_, RunWhere.tail hrun ha hlast'⟩

end Runs
