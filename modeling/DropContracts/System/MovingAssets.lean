import DropContracts.System.Backing

set_option relaxedAutoImplicit false
set_option autoImplicit false

/-!
# Moving assets and the exchange rate

The exchange rate adds up only some of the places that a base token passes through. It is computed
in `Idle` only, so that tokens may be out of sight in between. A tick of `Transfering` that finds
less than the minimum on the account goes on without delegating it: then core is `Idle` again while
the tokens are on the account, where nothing counts them. `PENDING_TRANSFER`, which says how many
they are, is written and never read.

## Main definitions

* `System.MovingRun` — the runs that only move assets, all of which arrive.
* `System.Segment` — a run from one `Idle` state to the next.
* `System.Chains.Rates` — the rate in `Idle`, while the puppeteer knows the state of the account.
* `System.Chains.Acknowledged` — core knows of every redemption that has run.

## Main results

* `System.keeps_of_movingRun` — along such a run what is left of the backing does not get less.
* `System.rate_of_reflected` — in `Idle` it is the numerator of the rate.
* `System.rate_le_of_moves` — moving assets does not lower the rate, when they arrive.
* `System.rate_drops` — it does otherwise.
-/

namespace DropContracts

namespace System

open Exec

section Steps

variable {d : Deployment} {m m' m'' : Chains}

/-! ## Segments of runs -/

/-- A run whose steps only move assets, in full, and all find what was on its way. -/
abbrev MovingRun (d : Deployment) : Chains → Chains → Prop :=
  RunWhere (Chains.Step d) fun m a => Moves m a ∧ InFull m a ∧ Arrived m a

/-- A run from an `Idle` state to the next one: after its first step, no step is taken in `Idle`. -/
def Segment (d : Deployment) (ok : Chains → ChainsAction → Prop) (m₀ m₁ : Chains) : Prop :=
  m₀.world.core.fsmState = .idle ∧ m₁.world.core.fsmState = .idle ∧
    ∃ a m, ok m₀ a ∧ m₀.Step d a m ∧
      RunWhere (Chains.Step d) (fun m a => ok m a ∧ m.world.core.fsmState ≠ .idle) m m₁

/-- A segment is a run. -/
theorem Segment.run {ok : Chains → ChainsAction → Prop} {m₀ m₁ : Chains}
    (h : Segment d ok m₀ m₁) : RunWhere (Chains.Step d) ok m₀ m₁ := by
  obtain ⟨-, -, a, m, ha, hstep, hrest⟩ := h
  exact (RunWhere.single ha hstep).trans (hrest.mono fun _ _ hok => hok.1)

/-- **Along such a run** nothing is taken away, and the supply stays. -/
theorem keeps_of_movingRun {m₀ : Chains} (h : Chains.Reachable d m₀)
    (hfailure : m₀.NoFailure) (hrun : MovingRun d m₀ m) :
    (Chains.Reachable d m ∧ m.NoFailure) ∧ m₀.Keeps d m ∧
      m.world.bank.supply = m₀.world.bank.supply := by
  refine RunWhere.preserves (P := fun m => (Chains.Reachable d m ∧ m.NoFailure) ∧
    m₀.Keeps d m ∧ m.world.bank.supply = m₀.world.bank.supply) ?_ hrun
    ⟨⟨h, hfailure⟩, le_rfl, rfl⟩
  rintro m a m' ⟨hmoves, hfull, harrived⟩ hstep ⟨⟨hreach, hnone⟩, hkeeps, hsupply⟩
  have hflow := flowInv_of_reachable hreach.world
  have hkeeps' := keeps_of_step hreach.world hreach.executed_lt hnone hmoves hfull harrived
    hstep
  exact ⟨⟨hreach.tail hstep, noFailure_of_step hflow hmoves hstep hnone⟩, hkeeps.trans hkeeps',
    (supply_of_step hflow hmoves hstep).trans hsupply⟩

/-- Core computes this rate in `Idle`, while the puppeteer knows the state of the account. -/
structure Chains.Rates (d : Deployment) (m : Chains) (r : Decimal) : Prop where
  idle : m.world.core.fsmState = .idle
  reflected : m.Reflected
  rate : ∃ answers,
    Core.queryExchangeRate m.world.core (m.world.querier d answers) none = .ok r

/-- No redemption in flight has run, so that no share is counted twice. -/
def Chains.Acknowledged (m : Chains) : Prop :=
  ∀ p ∈ m.world.inFlight, p.seq ∈ m.executed → p.transaction.redeems = 0

instance (m : Chains) : Decidable m.Acknowledged :=
  inferInstanceAs (Decidable (∀ p ∈ m.world.inFlight, p.seq ∈ m.executed → _ = 0))

/-- What the rate adds up, when the puppeteer knows the state of the account. -/
theorem rate_of_reflected (h : Reachable d m.world)
    (hsupply : m.world.bank.supply d.tokenDenom ≠ 0) {r : Decimal} (hr : m.Rates d r) :
    m.world.core.owed ≤ m.remote.delegated + m.world.bank.balance d.core d.baseDenom +
        m.world.core.totalLsmShares ∧
      r.atomics = (m.remote.delegated + m.world.bank.balance d.core d.baseDenom +
          m.world.core.totalLsmShares - m.world.core.owed) * Decimal.fractional /
        m.world.bank.supply d.tokenDenom := by
  obtain ⟨hidle, hreflected, answers, hrate⟩ := hr
  have hwired := (flowInv_of_reachable h).wired
  have hbatches := (payoutInv_of_reachable h).batches
  have hassets : m.world.core.assets (m.world.querier d answers) = m.remote.delegated +
      m.world.bank.balance d.core d.baseDenom + m.world.core.totalLsmShares := by
    rw [Core.Storage.assets, hwired.baseDenom, ← hreflected.delegated]
    rfl
  have hld : m.world.core.config.ldDenom = some d.tokenDenom := by
    refine hwired.ldDenom.resolve_left fun hnone => ?_
    simp [Core.queryExchangeRate, hidle, hnone, orError, fail] at hrate
  -- no stake comes in
  have hstake : m.world.core.assets (m.world.querier d answers) =
      m.world.core.assets (m.world.querier d answers) + (none : Option ℕ).getD 0 := rfl
  rw [Core.queryExchangeRate_eq_ok hbatches hidle rfl hld hsupply hstake] at hrate
  obtain ⟨hfits, hatomics⟩ := hrate
  have howed := Core.owed_eq_unbondedTotal hbatches (by simp [hidle])
  rw [← hassets, howed]
  exact ⟨hfits.covered, hatomics⟩

/-- In `Idle` nothing is on its way that is not acknowledged. -/
theorem backing_of_idle (hidle : m.world.core.fsmState = .idle) :
    m.backing d = m.remote.delegated + m.world.bank.balance d.core d.baseDenom +
      m.world.core.totalLsmShares := by
  have hawaits : ¬ m.world.core.awaitsStake := by
    rintro ⟨hstaking, -⟩
    rw [hidle] at hstaking
    cases hstaking
  have hincoming : m.incoming = 0 := by
    refine List.sum_eq_zero fun n hn => ?_
    obtain ⟨p, -, rfl⟩ := List.mem_map.1 hn
    rw [Chains.incomingOf, if_neg hawaits, ite_self]
  rw [Chains.backing, Core.transit_eq_zero (by simp [hidle]), hincoming, Nat.add_zero]

/-- In `Idle` the packets in flight take nothing, when no redemption has run. -/
theorem taken_of_idle (h : Reachable d m.world) (hidle : m.world.core.fsmState = .idle)
    (hacknowledged : m.Acknowledged) : m.taken = m.world.core.owed := by
  have houtgoing : m.outgoing = 0 := by
    refine List.sum_eq_zero fun n hn => ?_
    obtain ⟨p, hp, rfl⟩ := List.mem_map.1 hn
    have hawaited := (flowInv_of_reachable h).awaited p hp
    rw [Chains.outgoingOf]
    split_ifs with hrun
    · exact hacknowledged p hp hrun
    · -- an undelegation is only in flight in `Unbonding`
      cases htx : p.transaction with
      | undelegate account items denom batchId =>
        rw [htx, hidle] at hawaited
        cases hawaited
      | _ => rfl
  rw [Chains.taken, houtgoing]
  rfl

/-- **Moving assets never lowers the exchange rate**, along every run between two `Idle` states in
which each tick of `Transfering` finds in the reported balance what was on its way, and enough to be
delegated, and each packet brings as many delegated tokens as it lists; no redemption had run before
it without core knowing.

**Proof sketch.** The delegations, the balance of core, the shares, what is on its way and what the
packet in flight is going to delegate, less what is owed and what the packet is going to take, do
not get less in any step. In `Idle` this is what the rate divides by the supply, which stays. -/
theorem rate_le_of_moves {m₀ m₁ : Chains} (h : Chains.Reachable d m₀)
    (hacknowledged : m₀.Acknowledged) (hrun : MovingRun d m₀ m₁)
    (hsupply : m₀.world.bank.supply d.tokenDenom ≠ 0) {r₀ r₁ : Decimal} (hr₀ : m₀.Rates d r₀)
    (hr₁ : m₁.Rates d r₁) : r₀.atomics ≤ r₁.atomics := by
  have hfailure : m₀.NoFailure := by
    intro hunbonding
    rw [hr₀.idle] at hunbonding
    cases hunbonding
  obtain ⟨⟨h₁, -⟩, hkeeps, hsame⟩ := keeps_of_movingRun h hfailure hrun
  obtain ⟨hcovered₀, hatomics₀⟩ := rate_of_reflected h.world hsupply hr₀
  obtain ⟨hcovered₁, hatomics₁⟩ := rate_of_reflected h₁.world (by rwa [hsame]) hr₁
  have hbacking₀ := backing_of_idle (d := d) hr₀.idle
  have hbacking₁ := backing_of_idle (d := d) hr₁.idle
  have htaken₀ := taken_of_idle h.world hr₀.idle hacknowledged
  have htaken₁ : m₁.world.core.owed ≤ m₁.taken := Nat.le_add_right _ _
  rw [hatomics₀, hatomics₁, hsame]
  refine Nat.div_le_div_right (Nat.mul_le_mul_right _ ?_)
  unfold Chains.Keeps at hkeeps
  omega

end Steps

/-! ## Segments of the sample deployment -/

/-- An evaluated list of steps of both chains is a run of them. -/
theorem chainsReachable_of_runList {d : Deployment} {w₀ : World} {remote : Remote} {m : Chains}
    {actions : List ChainsAction} (hinit : Initial d w₀)
    (h : runList (Chains.exec d) (fun _ _ => true) ⟨w₀, remote, []⟩ actions = some m) :
    Chains.Reachable d m :=
  ⟨w₀, remote, hinit, runList_eq_some (fun _ _ _ hexec => hexec) (fun _ _ _ _ => trivial) h⟩

section Samples

open Sample

namespace Sample

/-- A packet runs and ends, and in the block after it the account is queried. -/
def arrives (seq height balance delegation : ℕ) : List ChainsAction := [
  .run seq delegation, .act (.deliver seq .response), .act (block height (1020 + 5 * height)),
  .act (remote balance delegation)]

/-- A bond of 1000 that has been transferred and delegated, and another bond. -/
def bondedTwice (amount : ℕ) : List ChainsAction :=
  (setup ++ [bond 1000, block 2 1020, tick]).map .act ++ arrives 1 3 1000 0 ++ [.act tick] ++
    arrives 2 4 0 1000 ++ [.act tick, .act (bond amount)]

/-- After the tick that leaves `Idle`, the second bond is transferred, and a tick of `Transfering`
finds it on the account. -/
def transferred (amount : ℕ) : List ChainsAction :=
  arrives 3 5 0 1000 ++ [.act tick] ++ arrives 4 6 amount 1000 ++ [.act tick]

/-- The second bond is delegated. -/
def delegatedTwice (amount : ℕ) : List ChainsAction :=
  transferred amount ++ arrives 5 7 0 (1000 + amount) ++ [.act tick]

/-- Both chains before any packet has run. -/
def initialChains : Chains := ⟨initial, ⟨0, 0⟩, []⟩

/-- The rate, if it can be computed. -/
def rate (m : Chains) : Option Decimal :=
  (Core.queryExchangeRate m.world.core (m.world.querier deployment (answers members))
    none).toOption

/-- A state of the sample deployment with this rate. -/
def Rated (r : Decimal) (m : Chains) : Prop :=
  m.world.core.fsmState = .idle ∧ m.Reflected ∧ rate m = some r

instance (r : Decimal) (m : Chains) : Decidable (Rated r m) :=
  inferInstanceAs (Decidable (_ ∧ _))

/-- What is evaluated is the rate. -/
theorem rates_of_rated {r : Decimal} {m : Chains} (h : Rated r m) : m.Rates deployment r :=
  ⟨h.1, h.2.1, answers members, toOption_eq_some.1 h.2.2⟩

/-- The segment after a second bond: a tick leaves `Idle`, and the actions follow it. -/
def segment (check : Chains → ChainsAction → Bool) (amount : ℕ) (actions : List ChainsAction) :
    Option (Chains × Chains) :=
  (runList (Chains.exec deployment) (fun _ _ => true) initialChains (bondedTwice amount)).bind
    fun m₀ => if check m₀ (.act tick) then
      (m₀.exec deployment (.act tick)).bind fun m =>
        (runList (Chains.exec deployment)
          (fun m a => check m a && decide (m.world.core.fsmState ≠ .idle)) m actions).map
            fun m₁ => (m₀, m₁)
    else none

/-- **An evaluated segment is a segment**, under every condition that the check ensures. -/
theorem segment_spec {check : Chains → ChainsAction → Bool} {ok : Chains → ChainsAction → Prop}
    {amount : ℕ} {actions : List ChainsAction} {m₀ m₁ : Chains}
    (hcheck : ∀ m, ∀ a ∈ .act tick :: actions, check m a = true → ok m a)
    (hidle₀ : m₀.world.core.fsmState = .idle) (hidle₁ : m₁.world.core.fsmState = .idle)
    (h : segment check amount actions = some (m₀, m₁)) :
    Chains.Reachable deployment m₀ ∧ Segment deployment ok m₀ m₁ := by
  simp only [segment, Option.bind_eq_some_iff] at h
  obtain ⟨_, hbefore, h⟩ := h
  split_ifs at h with hfirst
  simp only [Option.bind_eq_some_iff, Option.map_eq_some_iff, Prod.mk.injEq] at h
  obtain ⟨m, hstep, _, hrest, rfl, rfl⟩ := h
  refine ⟨chainsReachable_of_runList initial_spec hbefore, hidle₀, hidle₁, _, m,
    hcheck _ _ List.mem_cons_self hfirst, hstep, ?_⟩
  refine runList_eq_some (fun _ _ _ hexec => hexec) (fun m a ha hboth => ?_) hrest
  rw [Bool.and_eq_true] at hboth
  exact ⟨hcheck m a (List.mem_cons_of_mem _ ha) hboth.1, of_decide_eq_true hboth.2⟩

/-- The strategy of the sample deployment withdraws what it is asked for. -/
theorem withdrawsAtMost_answers (validators : List ValidatorInfo) :
    (answers validators).WithdrawsAtMost := by
  intro amount plan hplan
  rw [← Except.ok.inj hplan]
  simp

/-- Without a fee, the actions of the sample segments only move assets. -/
theorem moves_of_mem {amount : ℕ} {m : Chains} (hfee : m.world.core.config.fee = none) :
    ∀ a ∈ .act tick :: delegatedTwice amount, Moves m a := by
  have htick : Moves m (.act tick) :=
    ⟨hfee, depositsExactly_answers members, withdrawsAtMost_answers members⟩
  have harrives : ∀ seq height balance delegation, ∀ a ∈ arrives seq height balance delegation,
      Moves m a := by
    intro seq height balance delegation a ha
    simp only [arrives, List.mem_cons, List.not_mem_nil, or_false] at ha
    rcases ha with rfl | rfl | rfl | rfl
    · exact trivial
    · exact ⟨hfee, rfl⟩
    · exact ⟨hfee, trivial⟩
    · exact ⟨hfee, trivial⟩
  intro a ha
  simp only [delegatedTwice, transferred, List.mem_cons, List.mem_append, List.not_mem_nil,
    or_false] at ha
  rcases ha with rfl | ((((ha | rfl) | ha) | rfl) | ha) | rfl
  · exact htick
  · exact harrives _ _ _ _ a ha
  · exact htick
  · exact harrives _ _ _ _ a ha
  · exact htick
  · exact harrives _ _ _ _ a ha
  · exact htick

end Sample

/-- **A segment that keeps the rate**: the second bond of 200 is delegated. -/
theorem rate_le_of_moves_sample : ∃ (m₀ m₁ : Chains) (r₀ r₁ : Decimal),
    m₀.Rates deployment r₀ ∧ m₁.Rates deployment r₁ ∧ r₀.atomics ≤ r₁.atomics := by
  have hrun : (segment
      (fun m a => decide (m.world.core.config.fee = none ∧ InFull m a ∧ Arrived m a)) 200
      (delegatedTwice 200)).any (fun x => decide (x.1.Acknowledged ∧
        x.1.world.bank.supply "udatom" ≠ 0 ∧ Rated Decimal.one x.1 ∧ Rated Decimal.one x.2)) =
        true := by
    decide
  obtain ⟨⟨m₀, m₁⟩, hsegment, hrated⟩ := (Option.any_eq_true _ _).1 hrun
  obtain ⟨hacknowledged, hsupply, hr₀, hr₁⟩ := of_decide_eq_true hrated
  have hspec : Chains.Reachable deployment m₀ ∧
      Segment deployment (fun m a => Moves m a ∧ InFull m a ∧ Arrived m a) m₀ m₁ := by
    refine segment_spec (fun m a ha hcheck => ?_) hr₀.1 hr₁.1 hsegment
    obtain ⟨hfee, hfull, harrived⟩ := of_decide_eq_true hcheck
    exact ⟨moves_of_mem hfee a ha, hfull, harrived⟩
  obtain ⟨hreach, hmoves⟩ := hspec
  exact ⟨m₀, m₁, _, _, rates_of_rated hr₀, rates_of_rated hr₁, rate_le_of_moves hreach
    hacknowledged hmoves.run hsupply (rates_of_rated hr₀) (rates_of_rated hr₁)⟩

/-- **Tokens on the account are not counted**: a second bond of 50, less than the minimum of a
delegation, has been transferred when core is `Idle` again, and the rate has fallen. -/
theorem rate_drops : ¬ ∀ (d : Deployment) (m₀ m₁ : Chains), Chains.Reachable d m₀ →
    Segment d (fun m a => Moves m a ∧ InFull m a) m₀ m₁ →
    m₀.world.bank.supply d.tokenDenom ≠ 0 → ∀ r₀ r₁ : Decimal,
      m₀.Rates d r₀ → m₁.Rates d r₁ → r₀.atomics ≤ r₁.atomics := by
  intro hall
  have hrun : (segment (fun m a => decide (m.world.core.config.fee = none ∧ InFull m a)) 50
      (transferred 50)).any (fun x => decide (x.1.world.bank.supply "udatom" ≠ 0 ∧
        Rated Decimal.one x.1 ∧ Rated ⟨952380952380952380⟩ x.2)) = true := by
    decide
  obtain ⟨⟨m₀, m₁⟩, hsegment, hrated⟩ := (Option.any_eq_true _ _).1 hrun
  obtain ⟨hsupply, hr₀, hr₁⟩ := of_decide_eq_true hrated
  have hsubset : transferred 50 ⊆ delegatedTwice 50 := by
    rw [delegatedTwice, List.append_assoc]
    exact List.subset_append_left _ _
  have hspec : Chains.Reachable deployment m₀ ∧
      Segment deployment (fun m a => Moves m a ∧ InFull m a) m₀ m₁ := by
    refine segment_spec (fun m a ha hcheck => ?_) hr₀.1 hr₁.1 hsegment
    obtain ⟨hfee, hfull⟩ := of_decide_eq_true hcheck
    exact ⟨moves_of_mem hfee a (List.cons_subset_cons _ hsubset ha), hfull⟩
  obtain ⟨hreach, hmoves⟩ := hspec
  have hle := hall deployment m₀ m₁ hreach hmoves hsupply _ _ (rates_of_rated hr₀)
    (rates_of_rated hr₁)
  exact absurd hle (by decide)

end Samples

end System

end DropContracts
