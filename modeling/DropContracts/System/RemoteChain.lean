import DropContracts.Core.Transit
import DropContracts.System.FeeBase

set_option relaxedAutoImplicit false
set_option autoImplicit false

/-!
# The remote chain

The system together with the interchain account. A packet runs on the remote chain at some point
between its submission and its end, and the contracts learn of it only when it ends. In between the
account is paid by staking, and validators may be slashed.

## Main definitions

* `System.Remote`, `System.Remote.apply` — the interchain account, and what a transaction does to
  it.
* `System.Chains`, `System.ChainsAction`, `System.Chains.exec` — both chains and their steps.
* `System.Chains.Reachable` — the states of runs of both chains.
* `System.Chains.Reflected` — the puppeteer knows the state of the account.

## Main results

* `System.Chains.Reachable.world` — the contracts run as they do without the remote chain.
* `System.Chains.Reachable.executed_lt` — only submitted packets have run.

## Design

What a packet does to the account is decided when it runs there: the run is not possible when the
account does not have the tokens. What the delegations are worth afterwards is up to the chain: a
share of a validator that was slashed before is worth less than a token. That a packet has run is
known at its end, so a packet ends with a response exactly when it has run. The results of the
queries are not tied to the account, since they may be old; `System.Chains.Reflected` says when they
are not.
-/

namespace DropContracts

namespace System

/-! ## Both chains -/

/-- The interchain account: what it has delegated, and its balance of the remote denomination. -/
structure Remote where
  delegated : ℕ
  balance : ℕ
  deriving DecidableEq, Repr

/-- The account after a transaction, which it must be able to pay for, when its delegations are
worth `delegated` after it. -/
def Remote.apply (r : Remote) (baseDenom remoteDenom : String) (t : Transaction) (delegated : ℕ) :
    Option Remote := do
  guard (t.takes remoteDenom ≤ r.balance ∧ t.undelegates + t.tokenizes ≤ r.delegated)
  some ⟨delegated, r.balance + t.brings baseDenom - t.takes remoteDenom⟩

/-- The system and the interchain account. `executed` lists the packets that have run. -/
structure Chains where
  world : World
  remote : Remote
  executed : List ℕ

/-- The steps of both chains: a step of the system; a packet runs, and the delegations are worth
`delegated` after it; the account is paid rewards or unbonded tokens; validators are slashed. -/
inductive ChainsAction where
  | act (a : Action)
  | run (seq delegated : ℕ)
  | receive (amount : ℕ)
  | slash (amount : ℕ)

/-- A packet ends with a response exactly when it has run. -/
def Action.Tells (executed : List ℕ) : Action → Prop
  | .deliver seq outcome => outcome = .response ↔ seq ∈ executed
  | _ => True

instance (executed : List ℕ) (a : Action) : Decidable (a.Tells executed) := by
  unfold Action.Tells
  split <;> infer_instance

/-- The run of a packet that is in flight and has not run. -/
def Chains.runPacket (d : Deployment) (m : Chains) (seq delegated : ℕ) : Option Chains := do
  guard (seq ∉ m.executed)
  let p ← m.world.inFlight.find? fun p => p.seq = seq
  let remote ← m.remote.apply d.baseDenom m.world.puppeteer.config.remoteDenom p.transaction
    delegated
  some { m with remote := remote, executed := seq :: m.executed }

/-- A step of the system, which tells the truth about what has run. -/
def Chains.act (d : Deployment) (m : Chains) (a : Action) : Option Chains := do
  guard (a.Tells m.executed)
  let world ← m.world.exec d a
  some { m with world := world }

/-- Both chains after a step, if the step can be taken. -/
def Chains.exec (d : Deployment) (m : Chains) : ChainsAction → Option Chains
  | .act a => m.act d a
  | .run seq delegated => m.runPacket d seq delegated
  | .receive amount =>
    some { m with remote := { m.remote with balance := m.remote.balance + amount } }
  | .slash amount =>
    some { m with remote := { m.remote with delegated := m.remote.delegated - amount } }

/-- A step of both chains. -/
def Chains.Step (d : Deployment) (m : Chains) (a : ChainsAction) (m' : Chains) : Prop :=
  m.exec d a = some m'

/-- A state of some run of both chains, on which no packet has run initially. -/
def Chains.Reachable (d : Deployment) (m : Chains) : Prop :=
  ∃ w₀ remote, Initial d w₀ ∧ Run (Chains.Step d) ⟨w₀, remote, []⟩ m

/-- **The puppeteer knows the state of the account**: the delegations and the balance that it stores
are those of the account. -/
structure Chains.Reflected (m : Chains) : Prop where
  delegated : ((Puppeteer.queryDelegations m.world.puppeteer).1.map fun d => d.amount.amount).sum =
    m.remote.delegated
  balance : m.world.stakeBalance = m.remote.balance

instance (m : Chains) : Decidable m.Reflected :=
  decidable_of_iff
    (((Puppeteer.queryDelegations m.world.puppeteer).1.map fun d => d.amount.amount).sum =
      m.remote.delegated ∧ m.world.stakeBalance = m.remote.balance)
    ⟨fun ⟨h₁, h₂⟩ => ⟨h₁, h₂⟩, fun ⟨h₁, h₂⟩ => ⟨h₁, h₂⟩⟩

section Runs

variable {d : Deployment} {m m' : Chains}

/-- A step of the system. -/
theorem chains_act_ok {a : Action} (h : m.Step d (.act a) m') :
    a.Tells m.executed ∧ Step d m.world a m'.world ∧ m'.remote = m.remote ∧
      m'.executed = m.executed := by
  simp only [Chains.Step, Chains.exec, Chains.act, Option.bind_eq_bind, Option.bind_eq_some_iff,
    Option.guard_eq_some', Option.some.injEq] at h
  obtain ⟨-, htells, world, hstep, rfl⟩ := h
  exact ⟨htells, hstep, rfl, rfl⟩

/-- **The run of a packet**: the account has the tokens, and the contracts notice nothing. -/
theorem chains_run_ok {seq delegated : ℕ} (h : m.Step d (.run seq delegated) m') :
    ∃ p, m.world.inFlight.find? (fun p => p.seq = seq) = some p ∧ seq ∉ m.executed ∧
      p.transaction.undelegates + p.transaction.tokenizes ≤ m.remote.delegated ∧
      m'.remote.delegated = delegated ∧ m'.world = m.world ∧ m'.executed = seq :: m.executed := by
  simp only [Chains.Step, Chains.exec, Chains.runPacket, Remote.apply, Option.bind_eq_bind,
    Option.bind_eq_some_iff, Option.guard_eq_some', Option.some.injEq] at h
  obtain ⟨-, hnew, p, hp, _, ⟨-, ⟨-, hle⟩, rfl⟩, rfl⟩ := h
  exact ⟨p, hp, hnew, hle, rfl, rfl, rfl⟩

/-- What the run of a packet does to the account. -/
theorem remote_of_run {seq delegated : ℕ} (h : m.Step d (.run seq delegated) m') {p : Packet}
    (hp : m.world.inFlight.find? (fun p => p.seq = seq) = some p) :
    p.transaction.takes m.world.puppeteer.config.remoteDenom ≤ m.remote.balance ∧
      m'.remote.balance = m.remote.balance + p.transaction.brings d.baseDenom -
        p.transaction.takes m.world.puppeteer.config.remoteDenom := by
  simp only [Chains.Step, Chains.exec, Chains.runPacket, Remote.apply, hp, Option.bind_eq_bind,
    Option.bind_some, Option.bind_eq_some_iff, Option.guard_eq_some', Option.some.injEq] at h
  obtain ⟨-, -, _, ⟨-, ⟨hle, -⟩, rfl⟩, rfl⟩ := h
  exact ⟨hle, rfl⟩

/-- A step of both chains is a step of the system, or the contracts notice nothing. -/
theorem chains_step_world {a : ChainsAction} (h : m.Step d a m') :
    (∃ a, Step d m.world a m'.world) ∨ m'.world = m.world := by
  cases a with
  | act a =>
    obtain ⟨-, hstep, -⟩ := chains_act_ok h
    exact .inl ⟨a, hstep⟩
  | run seq delegated =>
    obtain ⟨p, -, -, -, -, hworld, -⟩ := chains_run_ok h
    exact .inr hworld
  | receive amount =>
    rw [← Option.some.inj h]
    exact .inr rfl
  | slash amount =>
    rw [← Option.some.inj h]
    exact .inr rfl

/-- A step keeps the system reachable. -/
theorem reachable_of_chainsStep {a : ChainsAction} (h : m.Step d a m') (hm : Reachable d m.world) :
    Reachable d m'.world := by
  rcases chains_step_world h with ⟨a, hstep⟩ | hsame
  · exact hm.tail hstep
  · rwa [hsame]

/-- **The contracts run as they do without the remote chain.** -/
theorem Chains.Reachable.world (h : Chains.Reachable d m) : System.Reachable d m.world := by
  obtain ⟨w₀, remote, hinit, hrun⟩ := h
  refine hrun.preserves (P := fun m => System.Reachable d m.world) ?_
    ⟨w₀, hinit, RunWhere.refl w₀⟩
  intro m a m' _ hstep hm
  exact reachable_of_chainsStep hstep hm

/-- A step from a state of a run leads to a state of a run. -/
theorem Chains.Reachable.tail (h : Chains.Reachable d m) {a : ChainsAction}
    (hstep : m.Step d a m') : Chains.Reachable d m' := by
  obtain ⟨w₀, remote, hinit, hrun⟩ := h
  exact ⟨w₀, remote, hinit, hrun.tail trivial hstep⟩

/-- Numbers are never given back. -/
theorem nextSeq_le {w w' : World} {a : Action} (hflow : FlowInv d w) (hstep : Step d w a w') :
    w.nextSeq ≤ w'.nextSeq := by
  cases step_cases hflow.wired hstep with
  | environment _ _ _ _ hsame => exact hsame.nextSeq.ge
  | foreign _ _ _ _ _ p _ hsub => exact hsub.nextSeq ▸ Nat.le_succ _
  | bond _ _ _ _ _ _ _ _ _ _ _ _ _ hsame => exact hsame.nextSeq.ge
  | unbond _ _ _ _ _ _ _ _ _ _ _ _ _ _ _ _ _ hsame => exact hsame.nextSeq.ge
  | admin _ _ _ _ _ _ _ _ _ _ _ _ _ hsame => exact hsame.nextSeq.ge
  | tick _ _ _ _ _ _ _ _ _ _ _ _ _ hsame => exact hsame.nextSeq.ge
  | tickSubmit _ _ _ _ _ _ _ _ _ p _ _ _ _ _ _ hsub => exact hsub.nextSeq ▸ Nat.le_succ _
  | accepted _ _ _ _ _ _ _ _ _ _ _ _ _ _ _ _ _ _ hnext => exact hnext.ge
  | refused _ _ _ _ _ _ _ _ _ hnext => exact hnext.ge

/-- Only submitted packets have run, after every step. -/
theorem executed_lt_of_step {a : ChainsAction} (hflow : FlowInv d m.world)
    (h : m.Step d a m') (hm : ∀ seq ∈ m.executed, seq < m.world.nextSeq) :
    ∀ seq ∈ m'.executed, seq < m'.world.nextSeq := by
  cases a with
  | act a =>
    obtain ⟨-, hstep, -, hexecuted⟩ := chains_act_ok h
    rw [hexecuted]
    exact fun seq hseq => (hm seq hseq).trans_le (nextSeq_le hflow hstep)
  | run seq delegated =>
    obtain ⟨p, hp, -, -, -, hworld, hexecuted⟩ := chains_run_ok h
    obtain ⟨hseq, hmem, -⟩ := hflow.of_find hp
    rw [hexecuted, hworld]
    intro seq' hseq'
    rcases List.mem_cons.1 hseq' with rfl | hseq'
    · rw [← hseq]
      exact hflow.seq_lt p (by rw [hmem]; exact List.mem_singleton_self p)
    · exact hm seq' hseq'
  | receive amount =>
    rw [← Option.some.inj h]
    exact hm
  | slash amount =>
    rw [← Option.some.inj h]
    exact hm

/-- **Only submitted packets have run.** -/
theorem Chains.Reachable.executed_lt (h : Chains.Reachable d m) :
    ∀ seq ∈ m.executed, seq < m.world.nextSeq := by
  obtain ⟨w₀, remote, hinit, hrun⟩ := h
  refine hrun.preserves_of (I := fun m => System.Reachable d m.world)
    (P := fun m => ∀ seq ∈ m.executed, seq < m.world.nextSeq) ?_ ?_ ⟨w₀, hinit, RunWhere.refl w₀⟩
    (fun seq hseq => absurd hseq List.not_mem_nil)
  · intro m a m' hstep hm
    exact reachable_of_chainsStep hstep hm
  · intro m a m' hm _ hstep hlt
    exact executed_lt_of_step (flowInv_of_reachable hm) hstep hlt

end Runs

end System

end DropContracts
