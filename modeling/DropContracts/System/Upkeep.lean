import DropContracts.Core.Forward
import DropContracts.System.Heights
import DropContracts.System.RemoteChain
import DropContracts.System.Spending
import Mathlib.Algebra.Group.Submonoid.Basic

set_option relaxedAutoImplicit false
set_option autoImplicit false

/-!
# Upkeep

What keeps the two chains going without the owner: ticks, while the puppeteer knows the state of the
interchain account; packets that run and end; results of queries; and later blocks, in which tokens
may arrive on the account. A waiting state that no upkeep can lead back to `Idle` is a dead end.

## Main definitions

* `System.Circumstances` — what the other contracts answer, and what may arrive on the account.
* `System.Upkeep` — the steps of the upkeep.
* `System.World.CanStake` — a balance of the account that does not stop a tick for good.
* `System.DeadEnd` — the dead ends.

## Main results

* `System.DeadEnd.step`, `System.DeadEnd.run` — upkeep leads from a dead end to dead ends only.

## Design

The circumstances are arbitrary: what the strategy answers may depend on the moment, and rewards and
unbonded tokens may arrive or not. Nobody registers the interchain account anew: after a claim it is
registered, and after a transfer that timed out its channel is still open, so that the chain would
refuse.
-/

namespace DropContracts

namespace System

open Exec

/-- What core may be answered by the other contracts, and the amounts of rewards and unbonded tokens
that may arrive on the interchain account. -/
structure Circumstances where
  answers : Set Answers
  arrivals : Set ℕ

/-- The other contracts give the same answers throughout, and nothing arrives. -/
def Circumstances.steady (answers : Answers) : Circumstances := ⟨{answers}, ∅⟩

/-- What holds of the answers that are given throughout. -/
theorem Circumstances.forall_steady {P : Answers → Prop} {answers : Answers} (h : P answers) :
    ∀ answers' ∈ (steady answers).answers, P answers' := by
  rintro answers' rfl
  exact h

/-- The steps of the upkeep. -/
def Upkeep (c : Circumstances) (m : Chains) : ChainsAction → Prop
  | .act (.execute answers _ _ .tick) => answers ∈ c.answers ∧ m.Reflected
  | .act (.deliver _ _) => True
  | .act (.delegationsAndBalance _) => True
  | .act (.nextBlock _ _) => True
  | .run _ _ => True
  | .receive amount => amount ∈ c.arrivals
  | _ => False

/-- A balance of the interchain account that does not stop a tick: it is below the minimum, or the
account is registered and the balance can be delegated. -/
def World.PassesStake (c : Circumstances) (w : World) (balance : ℕ) : Prop :=
  balance < w.core.config.minStakeAmount ∨ (∃ ica, w.puppeteer.ica = .registered ica) ∧
    ∃ answers ∈ c.answers,
      Core.StakeFits w.core.config w.core.collectedFees answers.calcDeposit balance

/-- Such a balance, when enough has arrived. -/
def World.CanStake (c : Circumstances) (w : World) (balance : ℕ) : Prop :=
  ∃ more ∈ AddSubmonoid.closure c.arrivals, w.PassesStake c (balance + more)

/-- A state from which no upkeep leads back to `Idle`: the switch time of the next batch cannot be
computed; the pending balance cannot be transferred; the release of an undelegated batch lies behind
the end of time; a delegation has failed; or the balance of the account cannot be delegated, neither
as it is nor with what core transfers to it. In the last state that transfer is under way. -/
inductive DeadEnd (d : Deployment) (c : Circumstances) (m : Chains) : Prop
  | switch (batch : Core.UnbondBatch)
      (hstate : m.world.core.fsmState = .claiming ∧ m.world.inFlight = [] ∨
        m.world.core.fsmState = .transfering ∨ m.world.core.fsmState = .staking)
      (hbatch : m.world.core.unbondBatches.load m.world.core.nextBatchId = some batch)
      (hfit : ¬ batch.SwitchFits m.world.core.config)
  | transfer (hstate : m.world.core.fsmState = .claiming) (hinFlight : m.world.inFlight = [])
      (hbalance : m.world.bank.balance d.core m.world.core.config.baseDenom ≠ 0)
      (hfit : ¬ (m.world.time.nanos + m.world.core.config.puppeteerTimeout * nanosPerSecond <
        U64.bound ∧ ∃ ica, m.world.puppeteer.ica = .registered ica))
  | release (r : ResponseHookMsg) (hstate : m.world.core.fsmState = .unbonding)
      (hinFlight : m.world.inFlight = [])
      (hresponse : m.world.core.lastPuppeteerResponse = some r) (hsuccess : r.isError = false)
      (hfit : ¬ m.world.time.seconds + m.world.core.config.unbondingPeriod < U64.bound)
  | staked (r : ResponseHookMsg) (hstate : m.world.core.fsmState = .staking)
      (hinFlight : m.world.inFlight = [])
      (hresponse : m.world.core.lastPuppeteerResponse = some r) (herror : r.isError = true)
  | stake (hstate : m.world.core.fsmState = .claiming ∨ m.world.core.fsmState = .transfering)
      (hinFlight : m.world.inFlight = [])
      (hstake : ¬ m.world.CanStake c m.remote.balance)
      (hpending : m.world.core.fsmState = .claiming → ¬ m.world.CanStake c
        (m.remote.balance + m.world.bank.balance d.core m.world.core.config.baseDenom))
  | sent (p : Packet) (hstate : m.world.core.fsmState = .transfering)
      (hinFlight : m.world.inFlight = [p])
      (hresponse : m.world.core.lastPuppeteerResponse = none)
      (hstake : ¬ m.world.CanStake c m.remote.balance)
      (harrives : p.seq ∉ m.executed → ¬ m.world.CanStake c
        (m.remote.balance + p.transaction.brings d.baseDenom))

section Upkeep

variable {d : Deployment} {c : Circumstances} {answers : Answers} {w w' : World} {m m' : Chains}

/-- A dead end is not `Idle`. -/
theorem DeadEnd.ne_idle (h : DeadEnd d c m) : m.world.core.fsmState ≠ .idle := by
  cases h with
  | switch batch hstate hbatch hfit =>
    rcases hstate with ⟨hstate, -⟩ | hstate | hstate <;> simp [hstate]
  | transfer hstate => simp [hstate]
  | release r hstate => simp [hstate]
  | staked r hstate => simp [hstate]
  | stake hstate => rcases hstate with hstate | hstate <;> simp [hstate]
  | sent p hstate => simp [hstate]

/-- Whether a balance stops a tick depends on the configuration, the collected fees and the
registration. -/
theorem canStake_of_same (hconfig : w'.core.config = w.core.config)
    (hfees : w'.core.collectedFees = w.core.collectedFees)
    (hica : ∀ ica, w'.puppeteer.ica = .registered ica → w.puppeteer.ica = .registered ica)
    {balance : ℕ} (h : w'.CanStake c balance) : w.CanStake c balance := by
  obtain ⟨more, hmore, hpasses⟩ := h
  refine ⟨more, hmore, ?_⟩
  unfold World.PassesStake at *
  rw [hconfig, hfees] at hpasses
  exact hpasses.imp_right fun ⟨⟨ica, hregistered⟩, hfits⟩ => ⟨⟨ica, hica ica hregistered⟩, hfits⟩

/-- What does not stop a tick now does not have to wait for more. -/
theorem World.PassesStake.canStake {balance : ℕ} (h : w.PassesStake c balance) :
    w.CanStake c balance :=
  ⟨0, zero_mem _, h⟩

/-- What could be staked after some tokens have arrived can be staked before. -/
theorem canStake_of_arrival {balance amount : ℕ} (hamount : amount ∈ c.arrivals)
    (h : w.CanStake c (balance + amount)) : w.CanStake c balance := by
  obtain ⟨more, hmore, hpasses⟩ := h
  refine ⟨amount + more, add_mem (AddSubmonoid.subset_closure hamount) hmore, ?_⟩
  rwa [← Nat.add_assoc]

/-! ## Ticks -/

/-- The cascade cannot pass a batch whose switch time cannot be computed: it transfers or stakes,
and looks at the same batch afterwards. -/
theorem cascade_blocked {s s' : Core.Storage} {q : Core.Querier} {env : Env} {info : MessageInfo}
    {config : Core.Config} {msgs : List Core.CoreMsg} {batch : Core.UnbondBatch}
    (h : Core.CascadeCase s q env info config s' msgs)
    (hbatch : s.unbondBatches.load s.nextBatchId = some batch)
    (hfit : ¬ batch.SwitchFits config) :
    (s'.fsmState = .transfering ∨ s'.fsmState = .staking) ∧ s'.config = s.config ∧
      s'.unbondBatches.load s'.nextBatchId = some batch := by
  cases h with
  | transfer => exact ⟨.inl rfl, rfl, hbatch⟩
  | stake => exact ⟨.inr rfl, rfl, hbatch⟩
  | unbond batch' balances undelegations hstate hbatch' hready =>
    rw [hbatch, Option.some.injEq] at hbatch'
    subst hbatch'
    exact absurd (Core.UnbondBatch.isReady_eq_ok.1 hready).1 hfit
  | idle batch' hmem hbatch' hready =>
    rw [hbatch, Option.some.injEq] at hbatch'
    subst hbatch'
    exact absurd (Core.UnbondBatch.isReady_eq_ok.1 hready).1 hfit

/-- A tick cannot pass a batch whose switch time cannot be computed. -/
theorem tick_blocked {s s' : Core.Storage} {q : Core.Querier} {env : Env} {info : MessageInfo}
    {msgs : List Core.CoreMsg} {batch : Core.UnbondBatch}
    (h : Core.TickCase s q env info s' msgs)
    (hstate : s.fsmState = .claiming ∨ s.fsmState = .transfering ∨ s.fsmState = .staking)
    (hbatch : s.unbondBatches.load s.nextBatchId = some batch)
    (hfit : ¬ batch.SwitchFits s.config) :
    (s'.fsmState = .transfering ∨ s'.fsmState = .staking) ∧ s'.config = s.config ∧
      ∃ batch', s'.unbondBatches.load s'.nextBatchId = some batch' ∧
        ¬ batch'.SwitchFits s.config := by
  cases h with
  | idleInterval rate m hidle => simp [hidle] at hstate
  | idleClaim t transfer validators hidle => simp [hidle] at hstate
  | idleCascade t u transfer validators _ hidle => simp [hidle] at hstate
  | unbondingSuccess _ _ _ _ _ _ hunbonding => simp [hunbonding] at hstate
  | unbondingFailed _ _ _ _ _ _ _ hunbonding => simp [hunbonding] at hstate
  | claiming r batches emergency t _ _ hresponse hload hcascade =>
    -- a batch that has been paid keeps the time it was created at
    have hnext : ∃ batch', batches.load s.nextBatchId = some batch' ∧
        ¬ batch'.SwitchFits s.config := by
      rw [hload, hbatch]
      split_ifs
      · exact ⟨batch.withdrawn emergency, rfl, hfit⟩
      · exact ⟨batch, rfl, hfit⟩
    obtain ⟨batch', hbatch', hfit'⟩ := hnext
    obtain ⟨hstate', hconfig, hnext⟩ := cascade_blocked hcascade hbatch' hfit'
    exact ⟨hstate', hconfig, batch', hnext, hfit'⟩
  | transfering r t _ _ hresponse hcascade =>
    obtain ⟨hstate', hconfig, hnext⟩ := cascade_blocked hcascade hbatch hfit
    exact ⟨hstate', hconfig, batch, hnext, hfit⟩
  | staking r t _ _ hresponse hsuccess hcascade =>
    obtain ⟨hstate', hconfig, hnext⟩ := cascade_blocked hcascade hbatch hfit
    exact ⟨hstate', hconfig, batch, hnext, hfit⟩

/-- In `Claiming`, a tick with a pending balance asks for its transfer, and nothing else happens to
the fees. -/
theorem tick_transfers {s s' : Core.Storage} {q : Core.Querier} {env : Env} {info : MessageInfo}
    {msgs : List Core.CoreMsg} (h : Core.TickCase s q env info s' msgs)
    (hstate : s.fsmState = .claiming) (hbalance : q.balance s.config.baseDenom ≠ 0) :
    s'.fsmState = .transfering ∧ s'.lastPuppeteerResponse = none ∧
      s'.collectedFees = s.collectedFees ∧ msgs = [.puppeteer s.config.puppeteerContract
        (.ibcTransfer s.config.puppeteerTimeout .stake env.contractAddress)
        (⟨s.config.baseDenom, q.balance s.config.baseDenom⟩ :: info.funds)] := by
  obtain ⟨r, batches, emergency, -, -, hcascade, hdrained⟩ := h.of_claiming hstate
  cases hcascade with
  | transfer => exact ⟨rfl, rfl, rfl, rfl⟩
  | stake => simp [hbalance] at hdrained
  | unbond => simp [hbalance] at hdrained
  | idle => simp [hbalance] at hdrained

/-- **What a tick of anybody is**: core is paid, the tick goes through, and nothing or one packet is
submitted. -/
theorem tick_step {sender : String} {funds : List Coin} (hflow : FlowInv d w)
    (hstep : Step d w (.execute answers sender funds .tick) w') :
    ∃ bank msgs, w.bank.send sender d.core funds = some bank ∧
      Core.executeTick w.core (({ w with bank := bank } : World).querier d answers) (w.env d)
        ⟨sender, funds⟩ = .ok (w'.core, msgs) ∧
      (msgs = [] ∨ ∃ msg msgFunds p,
        msgs = [.puppeteer w.core.config.puppeteerContract msg msgFunds] ∧
        Submission w w' ⟨d.core, msgFunds⟩ msg p) := by
  cases step_cases hflow.wired hstep with
  | environment _ _ henvironment => cases henvironment
  | admin _ _ _ _ _ _ hmsg => cases hmsg
  | tick _ _ _ q bank core _ hbank hq htick hcore =>
    subst hq hcore
    exact ⟨bank, [], hbank, htick, .inl rfl⟩
  | tickSubmit _ _ _ q bank core msg msgFunds _ p hbank hq htick hcore _ _ hsub =>
    subst hq hcore
    exact ⟨bank, _, hbank, htick, .inr ⟨msg, msgFunds, p, rfl, hsub⟩⟩

/-- The transfer that such a step asks for carries the balance of core: with more of its
denomination attached, core could not pay for the message. -/
theorem brings_of_tick {sender : String} {funds : List Coin} {bank : Bank} {timeout : ℕ}
    {contract : String} {p : Packet} (hflow : FlowInv d w)
    (hstep : Step d w (.execute answers sender funds .tick) w')
    (hbank : w.bank.send sender d.core funds = some bank)
    (hpending : bank.balance d.core w.core.config.baseDenom ≠ 0)
    (htick : Core.executeTick w.core (({ w with bank := bank } : World).querier d answers)
      (w.env d) ⟨sender, funds⟩ = .ok (w'.core, [.puppeteer contract
        (.ibcTransfer timeout .stake d.core)
        (⟨w.core.config.baseDenom, bank.balance d.core w.core.config.baseDenom⟩ :: funds)]))
    (hsub : Submission w w' ⟨d.core,
      ⟨w.core.config.baseDenom, bank.balance d.core w.core.config.baseDenom⟩ :: funds⟩
      (.ibcTransfer timeout .stake d.core) p) :
    p.transaction.brings d.baseDenom = w.bank.balance d.core w.core.config.baseDenom := by
  have hsender := (execute_ok hstep).1
  obtain ⟨-, hreceived⟩ := Bank.balance_send hbank hsender w.core.config.baseDenom
  have haffords := tick_affords hstep hbank htick w.core.config.baseDenom
  have hattached : coinsOf funds w.core.config.baseDenom = 0 := by
    rw [coinsOf_cons, if_pos rfl] at haffords
    simp only at haffords
    omega
  obtain ⟨ica, replyTo, -, hrequests, -⟩ := hsub.requested
  have hbase := hflow.wired.baseDenom
  generalize p.transaction = transaction at hrequests ⊢
  cases hrequests with
  | ibcTransfer coin _ _ _ hcoin =>
    obtain rfl := coin_of_filter_mergeCoins hpending
      (decide_eq_true (by rw [hbase]; exact d.base_ne_local)) hcoin
    rw [Transaction.brings, if_pos hbase]
    simp only
    omega

/-- A tick that comes to the stake passes it: the balance is the one of the account. -/
theorem passesStake_of_tick {bank : Bank} {core : Core.Storage} {info : MessageInfo}
    {msgs : List Core.CoreMsg} {contract : String} (hanswers : answers ∈ c.answers)
    (hreflected : m.Reflected)
    (htick : Core.executeTick m.world.core
      (({ m.world with bank := bank } : World).querier d answers) (m.world.env d) info =
        .ok (core, msgs))
    (hcomes : m.world.core.fsmState = .claiming ∧
      bank.balance d.core m.world.core.config.baseDenom = 0 ∨ m.world.core.fsmState = .transfering)
    (hmsgs : msgs = [] ∨ ∃ msg msgFunds p, msgs = [.puppeteer contract msg msgFunds] ∧
      Submission m.world m'.world ⟨d.core, msgFunds⟩ msg p) :
    m.world.PassesStake c m.remote.balance := by
  obtain ⟨batches, hstakes⟩ := Core.executeTick_comesToStake htick hcomes
  have hbalance : Core.icaBalance (Puppeteer.queryBalances m.world.puppeteer)
      m.world.core.config.remoteDenom = m.remote.balance := hreflected.balance
  by_cases hmin : m.remote.balance < m.world.core.config.minStakeAmount
  · exact .inl hmin
  · obtain ⟨hfits, items, rfl⟩ := Core.fits_of_stakeOrUnbond hstakes rfl
      (by rw [hbalance]; exact not_lt.1 hmin)
    rw [hbalance] at hfits
    obtain hnil | ⟨msg, msgFunds, p, -, hsub⟩ := hmsgs
    · cases hnil
    · obtain ⟨ica, replyTo, hica, -⟩ := hsub.requested
      exact .inr ⟨⟨ica, hica⟩, answers, hanswers, hfits⟩

/-! ## Dead ends -/

/-- A tick keeps a dead end a dead end. -/
theorem DeadEnd.of_tick (h : DeadEnd d c m) (hflow : FlowInv d m.world) {sender : String}
    {funds : List Coin} (hanswers : answers ∈ c.answers) (hreflected : m.Reflected)
    (hstep : Step d m.world (.execute answers sender funds .tick) m'.world)
    (hremote : m'.remote = m.remote) : DeadEnd d c m' := by
  obtain ⟨bank, msgs, hbank, htick, hmsgs⟩ := tick_step hflow hstep
  have hcase := (Core.executeTick_ok htick).2
  have hle := Bank.le_balance_send hbank (execute_ok hstep).1.symm m.world.core.config.baseDenom
  cases h with
  | switch batch hstate hbatch hfit =>
    obtain ⟨hstate', hconfig, batch', hbatch', hfit'⟩ :=
      tick_blocked hcase (hstate.imp_left And.left) hbatch hfit
    rw [← hconfig] at hfit'
    exact .switch batch' (.inr hstate') hbatch' hfit'
  | transfer hclaiming hinFlight hbalance hfit =>
    obtain ⟨-, -, -, rfl⟩ := tick_transfers hcase hclaiming
      (show bank.balance d.core m.world.core.config.baseDenom ≠ 0 by omega)
    obtain hnil | ⟨msg, msgFunds, p, heq, hsub⟩ := hmsgs
    · cases hnil
    · cases heq
      obtain ⟨ica, replyTo, hica, -⟩ := hsub.requested
      exact absurd ⟨hsub.expires _ _ _ rfl, ica, hica⟩ hfit
  | release r hstate hinFlight hresponse hsuccess hfit =>
    obtain ⟨r', hresponse', -, -, -, hfit'⟩ := hcase.of_unbonding hstate
    rw [hresponse, Option.some.injEq] at hresponse'
    exact absurd (hfit' (hresponse' ▸ hsuccess)) hfit
  | staked r hstate hinFlight hresponse herror =>
    obtain ⟨r', hresponse', hsuccess, -⟩ := hcase.of_staking hstate
    rw [hresponse, Option.some.injEq] at hresponse'
    rw [← hresponse', herror] at hsuccess
    cases hsuccess
  | sent p hstate hinFlight hresponse =>
    obtain ⟨r, hresponse', -⟩ := hcase.of_transfering hstate
    rw [hresponse] at hresponse'
    cases hresponse'
  | stake hstate hinFlight hstake hpending =>
    by_cases htransfers : m.world.core.fsmState = .claiming ∧
        bank.balance d.core m.world.core.config.baseDenom ≠ 0
    · obtain ⟨hclaiming, hbalance⟩ := htransfers
      obtain ⟨htransfering, hnone, hfees, rfl⟩ := tick_transfers hcase hclaiming hbalance
      obtain hnil | ⟨msg, msgFunds, p, heq, hsub⟩ := hmsgs
      · cases hnil
      · cases heq
        have hbrings := brings_of_tick hflow hstep hbank hbalance htick hsub
        have hsame : ∀ {balance}, m'.world.CanStake c balance →
            m.world.CanStake c balance :=
          canStake_of_same hcase.frame.config hfees (by rw [hsub.ica]; exact fun _ => id)
        refine .sent p htransfering (hflow.inFlight_of_submission hsub) hnone ?_ fun _ => ?_
        · rw [hremote]
          exact fun hcan => hstake (hsame hcan)
        · rw [hremote, hbrings]
          exact fun hcan => hpending hclaiming (hsame hcan)
    · -- the tick comes to the stake, and the balance is the one of the account
      have hcomes : m.world.core.fsmState = .claiming ∧
          bank.balance d.core m.world.core.config.baseDenom = 0 ∨
            m.world.core.fsmState = .transfering := by
        rcases hstate with hstate | hstate
        · exact .inl ⟨hstate, by_contra fun hne => htransfers ⟨hstate, hne⟩⟩
        · exact .inr hstate
      exact absurd (passesStake_of_tick hanswers hreflected htick hcomes hmsgs).canStake hstake

/-- What leaves the contracts, the packets and the account alone keeps a dead end a dead end,
however late it gets. -/
theorem DeadEnd.of_later (h : DeadEnd d c m) (hcore : m'.world.core = m.world.core)
    (hbank : m'.world.bank = m.world.bank) (hinFlight : m'.world.inFlight = m.world.inFlight)
    (hica : m'.world.puppeteer.ica = m.world.puppeteer.ica)
    (htime : m.world.time.nanos ≤ m'.world.time.nanos) (hremote : m'.remote = m.remote)
    (hexecuted : m'.executed = m.executed) : DeadEnd d c m' := by
  have hseconds : m.world.time.seconds ≤ m'.world.time.seconds := Nat.div_le_div_right htime
  have hsame : ∀ {balance}, m'.world.CanStake c balance → m.world.CanStake c balance :=
    canStake_of_same (by rw [hcore]) (by rw [hcore]) (by rw [hica]; exact fun _ => id)
  cases h with
  | switch batch hstate hbatch hfit =>
    rw [← hcore] at hstate hbatch hfit
    rw [← hinFlight] at hstate
    exact .switch batch hstate hbatch hfit
  | transfer hstate hnil hpending hfit =>
    rw [← hcore] at hstate hpending hfit
    rw [← hbank] at hpending
    rw [← hica] at hfit
    refine .transfer hstate (hinFlight.trans hnil) hpending fun ⟨hlater, hregistered⟩ => ?_
    exact hfit ⟨by omega, hregistered⟩
  | release r hstate hnil hresponse hsuccess hfit =>
    rw [← hcore] at hstate hresponse hfit
    exact .release r hstate (hinFlight.trans hnil) hresponse hsuccess (by omega)
  | staked r hstate hnil hresponse herror =>
    rw [← hcore] at hstate hresponse
    exact .staked r hstate (hinFlight.trans hnil) hresponse herror
  | stake hstate hnil hstake hpending =>
    refine .stake (by rw [hcore]; exact hstate) (hinFlight.trans hnil) ?_ ?_
    · rw [hremote]
      exact fun hcan => hstake (hsame hcan)
    · rw [hremote, hbank, hcore]
      exact fun hclaiming hcan => hpending hclaiming (hsame hcan)
  | sent p hstate hmem hresponse hstake harrives =>
    refine .sent p (by rw [hcore]; exact hstate) (hinFlight.trans hmem)
      (by rw [hcore]; exact hresponse) ?_ ?_
    · rw [hremote]
      exact fun hcan => hstake (hsame hcan)
    · rw [hremote, hexecuted]
      exact fun hnew hcan => harrives hnew (hsame hcan)

/-- Tokens that arrive keep a dead end a dead end: what they make possible counts before. -/
theorem DeadEnd.of_receive (h : DeadEnd d c m) {amount : ℕ} (hamount : amount ∈ c.arrivals) :
    DeadEnd d c { m with remote := { m.remote with balance := m.remote.balance + amount } } := by
  cases h with
  | switch batch hstate hbatch hfit => exact .switch batch hstate hbatch hfit
  | transfer hstate hnil hpending hfit => exact .transfer hstate hnil hpending hfit
  | release r hstate hnil hresponse hsuccess hfit =>
    exact .release r hstate hnil hresponse hsuccess hfit
  | staked r hstate hnil hresponse herror => exact .staked r hstate hnil hresponse herror
  | stake hstate hnil hstake hpending =>
    refine .stake hstate hnil (fun hcan => hstake (canStake_of_arrival hamount hcan)) ?_
    intro hclaiming hcan
    rw [Nat.add_right_comm] at hcan
    exact hpending hclaiming (canStake_of_arrival hamount hcan)
  | sent p hstate hmem hresponse hstake harrives =>
    refine .sent p hstate hmem hresponse (fun hcan => hstake (canStake_of_arrival hamount hcan)) ?_
    intro hnew hcan
    rw [Nat.add_right_comm] at hcan
    exact harrives hnew (canStake_of_arrival hamount hcan)

/-- The run of a packet keeps a dead end a dead end: only a transfer can be in the way and run. -/
theorem DeadEnd.of_run (h : DeadEnd d c m) (hflow : FlowInv d m.world)
    {seq delegated : ℕ} (hstep : m.Step d (.run seq delegated) m') : DeadEnd d c m' := by
  obtain ⟨p, hp, hnew, -, -, hworld, hexecuted⟩ := chains_run_ok hstep
  obtain ⟨rfl, hmem, -⟩ := hflow.of_find hp
  cases h with
  | switch batch hstate hbatch hfit =>
    rw [← hworld] at hstate hbatch hfit
    exact .switch batch hstate hbatch hfit
  | transfer hstate hnil => simp [hmem] at hnil
  | release r hstate hnil => simp [hmem] at hnil
  | staked r hstate hnil => simp [hmem] at hnil
  | stake hstate hnil => simp [hmem] at hnil
  | sent p' hstate hmem' hresponse hstake harrives =>
    obtain rfl : p = p' := by simpa [hmem] using hmem'
    have hbalance : m'.remote.balance = m.remote.balance + p.transaction.brings d.baseDenom := by
      have hawaits := hflow.awaited p (by rw [hmem]; exact List.mem_singleton_self p)
      obtain ⟨-, hafter⟩ := remote_of_run hstep hp
      rw [hstate] at hawaits
      rw [hafter]
      cases htx : p.transaction <;> simp [htx, awaits, Transaction.takes] at hawaits ⊢
    refine .sent p (by rw [hworld]; exact hstate) (by rw [hworld]; exact hmem)
      (by rw [hworld]; exact hresponse) ?_ fun hnever => ?_
    · rw [hworld, hbalance]
      exact harrives hnew
    · exact absurd (by rw [hexecuted]; exact List.mem_cons_self) hnever

/-- The end of a packet keeps a dead end a dead end: while a packet is in flight, only the switch
time or the balance of the account can be in the way. -/
theorem DeadEnd.of_deliver (h : DeadEnd d c m) (hflow : FlowInv d m.world) {seq : ℕ}
    {outcome : World.Outcome} (hstep : Step d m.world (.deliver seq outcome) m'.world)
    (hremote : m'.remote = m.remote) : DeadEnd d c m' := by
  cases step_cases hflow.wired hstep with
  | environment _ _ henvironment => cases henvironment
  | refused _ _ p _ hp hrefused hcore =>
    obtain ⟨rfl, hmem, htx⟩ := hflow.of_find hp
    exact absurd (hflow.idle_of_refused hmem htx hrefused) h.ne_idle
  | accepted _ _ p txState transaction core _ hp htx hwaiting htrans hhook hcore _ _ hinFlight
      _ _ _ _ _ _ hica =>
    obtain ⟨rfl, hmem, rfl⟩ := hflow.of_accepted hp htx htrans
    rw [← hcore] at hhook
    have hframe := Core.executePuppeteerHook_ok hhook
    have hnil : m'.world.inFlight = [] := by
      rw [hinFlight, hmem]
      simp
    -- the transactions that these states wait for never reset the state machine
    have hsame : m.world.core.fsmState = .transfering ∨ m.world.core.fsmState = .staking →
        m'.world.core.fsmState = m.world.core.fsmState := by
      intro hstate
      have hawaits := hflow.awaited p (by rw [hmem]; exact List.mem_singleton_self p)
      have hreset : Core.Transaction.resetsOnError p.transaction = false := by
        rcases hstate with hstate | hstate <;>
          exact not_resets_of_awaits hawaits (by simp [hstate]) (by simp [hstate])
      have htransaction : (Packet.outcomeMsg ⟨p.seq, p.msg, p.transaction⟩ outcome).transaction =
          p.transaction := outcomeMsg_transaction p outcome
      rw [hframe.fsmState, htransaction, hreset]
      simp
    cases h with
    | switch batch hstate hbatch hfit =>
      obtain ⟨-, hempty⟩ | hstate := hstate
      · simp [hmem] at hempty
      · rw [← hframe.load_nextBatch] at hbatch
        rw [← hframe.config] at hfit
        exact .switch batch (.inr (by rw [hsame hstate]; exact hstate)) hbatch hfit
    | transfer hstate hempty => simp [hmem] at hempty
    | release r hstate hempty => simp [hmem] at hempty
    | staked r hstate hempty => simp [hmem] at hempty
    | stake hstate hempty => simp [hmem] at hempty
    | sent p' hstate hmem' hresponse hstake harrives =>
      have htransfering : m'.world.core.fsmState = .transfering :=
        (hsame (.inl hstate)).trans hstate
      refine .stake (.inr htransfering) hnil ?_ fun hclaiming => ?_
      · rw [hremote]
        refine fun hcan => hstake (canStake_of_same hframe.config (Core.hook_fees hhook) ?_ hcan)
        rw [hica]
        split_ifs
        · exact fun _ hregistered => by cases hregistered
        · exact fun _ => id
      · rw [htransfering] at hclaiming
        cases hclaiming

/-- **Upkeep keeps a dead end a dead end.** -/
theorem DeadEnd.step {a : ChainsAction} (h : DeadEnd d c m) (hflow : FlowInv d m.world)
    (hupkeep : Upkeep c m a) (hstep : m.Step d a m') : DeadEnd d c m' := by
  cases a with
  | run seq delegated => exact h.of_run hflow hstep
  | receive amount =>
    rw [← Option.some.inj hstep]
    exact h.of_receive hupkeep
  | slash amount => exact absurd hupkeep id
  | act a =>
    obtain ⟨-, hact, hremote, hexecuted⟩ := chains_act_ok hstep
    cases a with
    | execute asked sender funds msg =>
      cases msg with
      | tick =>
        obtain ⟨hanswers, hreflected⟩ := hupkeep
        exact h.of_tick hflow hanswers hreflected hact hremote
      | _ => exact absurd hupkeep id
    | deliver seq outcome => exact h.of_deliver hflow hact hremote
    | delegationsAndBalance data =>
      have hworld := (Option.some.inj hact).symm
      exact h.of_later (by rw [hworld]) (by rw [hworld]) (by rw [hworld]) (by rw [hworld]; rfl)
        (by rw [hworld]) hremote hexecuted
    | nextBlock height time =>
      simp only [Step, World.exec, World.nextBlock] at hact
      split_ifs at hact with hlater
      have hworld := (Option.some.inj hact).symm
      exact h.of_later (by rw [hworld]) (by rw [hworld]) (by rw [hworld]) (by rw [hworld])
        (by rw [hworld]; exact hlater.2.1.le) hremote hexecuted
    | _ => exact absurd hupkeep id

/-- **Upkeep leads from a dead end to dead ends only.** -/
theorem DeadEnd.run (h : DeadEnd d c m) (hm : Reachable d m.world)
    (hrun : RunWhere (Chains.Step d) (Upkeep c) m m') : DeadEnd d c m' := by
  refine hrun.preserves_of (I := fun m => Reachable d m.world) (P := DeadEnd d c) ?_ ?_ hm h
  · intro m a m' hstep hm
    exact reachable_of_chainsStep hstep hm
  · intro m a m' hm hupkeep hstep hdead
    exact hdead.step (flowInv_of_reachable hm) hupkeep hstep

end Upkeep

end System

end DropContracts
