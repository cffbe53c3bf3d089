import DropContracts.System.BatchInvariant
import DropContracts.System.RemoteChain
import DropContracts.System.Shares

set_option relaxedAutoImplicit false
set_option autoImplicit false

/-!
# What backs the liquid tokens

A base token passes through the balance of core, a transfer, the interchain account and a
delegation. What is left of the backing counts it wherever it is: a transferred token from the
transfer to the answer of the delegation, an undelegated one until its packet has run, and a
redeemed share until core knows. No step that only moves assets makes it less, but a tick of
`Transfering` that does not find on the account what was on its way, and a packet that runs and
brings fewer tokens than it lists, as the redemption of shares of a validator that was slashed
before.

## Main definitions

* `System.Chains.backing`, `System.Chains.taken` — what backs the liquid tokens, and what is taken
  from it.
* `System.Chains.Keeps` — what is left does not get less.
* `System.Moves` — the steps that only move assets.
* `System.Arrived` — a tick of `Transfering` finds what was on its way.
* `System.InFull` — a packet that runs brings what it lists.

## Main results

* `System.pendingLsmShares_base` — the base denomination is never pending as a share.
* `System.tick_owes`, `System.tick_sends` — what a tick takes from what is owed, and what it sends.
* `System.keeps_of_run`, `System.keeps_of_deliver`, `System.keeps_of_tick`, `System.keeps_of_step` —
  what is left does not get less.
* `System.noFailure_of_step`, `System.supply_of_step` — what else such a step keeps.
-/

namespace DropContracts

namespace System

open Exec

section Assets

variable {d : Deployment} {w w' : World}

/-! ## The base denomination and the shares -/

/-- **The base denomination is never pending as a share.** -/
theorem pendingLsmShares_base (h : Reachable d w) :
    w.core.pendingLsmShares.load d.baseDenom = none := by
  refine h.invariant (P := fun w => w.core.pendingLsmShares.load d.baseDenom = none)
    (fun w₀ hinit => ?_) ?_
  · obtain ⟨config, owner, hcore⟩ := hinit.core
    rw [hcore]
    rfl
  intro w a w' hw hstep hnone
  have hflow := flowInv_of_reachable hw
  cases step_cases hflow.wired hstep with
  | environment _ _ _ hcore => rw [hcore.core, hnone]
  | foreign _ _ _ _ _ p hsender hsub => exact absurd hsub (hflow.not_foreign hsender)
  | bond answers sender funds receiver q core msgs _ _ hbond hcore =>
    obtain ⟨coin, denomType, -, -, -, -, -, hdenom, hrecord, -, -⟩ := Core.executeBond_ok hbond
    rw [hcore]
    cases hrecord with
    | base => exact hnone
    | lsmShare remoteDenom hfit =>
      have hne := (checkDenom_lsmShare_iff.1 hdenom).1
      rw [hflow.wired.baseDenom] at hne
      simp only [StorageMap.load_save_of_ne _ _ hne.symm, hnone]
  | unbond answers sender funds q bank core msgs _ _ _ hunbond hcore =>
    obtain ⟨batch, item, -, hs⟩ := Core.executeUnbond_saves hunbond
    rw [hcore, hs]
    exact hnone
  | admin answers sender funds msg core _ _ hadmin _ _ hcore =>
    rw [hcore]
    cases hadmin <;> exact hnone
  | tick answers sender funds q bank core _ _ _ htick hcore =>
    rw [hcore, (Core.executeTick_ok htick).2.frame.pendingLsmShares, hnone]
  | tickSubmit answers sender funds q bank core msg msgFunds _ p _ _ htick hcore =>
    rw [hcore, (Core.executeTick_ok htick).2.frame.pendingLsmShares, hnone]
  | accepted seq outcome p txState transaction core _ hp htx _ htrans hhook hcore =>
    obtain ⟨rfl, hmem, rfl⟩ := hflow.of_accepted hp htx htrans
    have hp' := List.mem_of_find?_eq_some hp
    have hpending := (lsmFlowInv_of_reachable hw).hook_pending hp' hhook d.baseDenom
    rw [hcore]
    exact hpending.2 hnone
  | refused seq outcome p _ _ _ hcore => rw [hcore.core, hnone]

end Assets

/-! ## What a tick moves -/

section Ticks

variable {s s' : Core.Storage} {q : Core.Querier} {env : Env} {info : MessageInfo}
  {msgs : List Core.CoreMsg} {contract : String} {msg : PuppeteerExecuteMsg}
  {funds paid : List Coin} {pconfig : Puppeteer.Config} {ica replyTo : String}
  {transaction : Transaction}

/-- **What a tick asks to undelegate** leaves what is owed. -/
theorem tick_owes (hbatches : Core.BatchesInv s)
    (hsuccess : s.fsmState = .unbonding → ∀ r, s.lastPuppeteerResponse = some r →
      r.isError = false)
    (hmost : ∀ amount plan, q.calcWithdraw amount = .ok plan →
      (plan.map IdealDelegation.stakeChange).sum ≤ amount)
    (hcase : Core.TickCase s q env info s' [.puppeteer contract msg funds])
    (hrequests : Puppeteer.Requests pconfig ica paid msg transaction replyTo) :
    s'.owed + transaction.undelegates ≤ s.owed := by
  cases hrequests with
  | undelegate items batchId timeout =>
    obtain ⟨amount, plan, hplan, rfl, hle⟩ :=
      Core.tick_undelegate_owed hbatches (tick_undelegate hcase).1 hcase
    have hsum := hmost amount plan hplan
    simp only [Transaction.undelegates, List.map_map]
    show s'.owed + (plan.map IdealDelegation.stakeChange).sum ≤ s.owed
    omega
  | _ => exact Core.tick_owed hcase hsuccess

/-- The cascade sends on what it puts on the way, and what is attached. -/
theorem cascade_sends {config : Core.Config}
    (hcascade : Core.CascadeCase s q env info config s' [.puppeteer contract msg funds]) :
    coinsOf funds config.baseDenom ≤ s'.transit + coinsOf info.funds config.baseDenom := by
  cases hcascade with
  | transfer =>
    simp [Core.Storage.transit]
  | stake => exact Nat.le_add_left _ _
  | unbond => exact Nat.le_add_left _ _

/-- **What a tick sends** to the puppeteer is put on its way or was attached; what was on its way
is delegated, when the tick finds it in the reported balance. -/
theorem tick_sends (hfee : s.config.fee = none)
    (hshares : s.pendingLsmShares.load s.config.baseDenom = none)
    (hexact : ∀ amount plan, q.calcDeposit amount = .ok plan →
      (plan.map IdealDelegation.stakeChange).sum = amount)
    (hsettled : s.fsmState = .transfering → ∃ balances, q.balances = .ok balances ∧
      s.config.minStakeAmount ≤ Core.icaBalance balances s.config.remoteDenom ∧
      s.pendingTransfer.getD 0 ≤ Core.icaBalance balances s.config.remoteDenom)
    (htick : Core.executeTick s q env info = .ok (s', [.puppeteer contract msg funds]))
    (hrequests : Puppeteer.Requests pconfig ica paid msg transaction replyTo) :
    s.transit + coinsOf funds s.config.baseDenom ≤ s'.transit +
      (if s'.awaitsStake then transaction.delegates else 0) +
        coinsOf info.funds s.config.baseDenom := by
  by_cases hstate : s.fsmState = .transfering
  · obtain ⟨balances, hbalances, hmin, hpending⟩ := hsettled hstate
    obtain ⟨hstaking, hnone, fee, plan, hstakes⟩ :=
      Core.transfering_stakes hstate htick hbalances hmin
    have hmsgs := hstakes.msgs_eq
    injection hmsgs with hmsg
    injection hmsg with _ hmsg hfunds
    subst hmsg hfunds
    have hzero : fee = 0 := by
      rw [hstakes.fee_eq, hfee]
      simp [Decimal.zero]
    have hsum := hexact _ _ hstakes.asked
    have hawaits : s'.awaitsStake := ⟨hstaking, hnone⟩
    have htransit : s.transit = s.pendingTransfer.getD 0 := if_pos hstate
    cases hrequests
    rw [if_pos hawaits, htransit]
    simp only [Transaction.delegates, List.map_map]
    show _ ≤ s'.transit + (plan.map IdealDelegation.stakeChange).sum + _
    omega
  · rw [Core.transit_eq_zero hstate, Nat.zero_add, Nat.add_right_comm]
    refine le_trans ?_ (Nat.le_add_right _ _)
    cases (Core.executeTick_ok htick).2 with
    | idleInterval rate m hidle hinterval hmsg =>
      cases hmsg with
      | transfer => exact Nat.le_add_left _ _
      | redeem => exact Nat.le_add_left _ _
      | lsmShare denom remote amount hpending =>
        have hne : denom ≠ s.config.baseDenom := by
          rintro rfl
          rw [hshares] at hpending
          cases hpending
        rw [coinsOf_cons, if_neg hne, Nat.zero_add]
        exact Nat.le_add_left _ _
    | idleClaim => exact Nat.le_add_left _ _
    | idleCascade t u transfer validators _ hidle hprepared hvalidators hcascade =>
      have hsends := cascade_sends hcascade
      exact hsends
    | claiming r batches emergency t _ _ hresponse hload hcascade => exact cascade_sends hcascade
    | transfering _ _ _ htransfering => exact absurd htransfering hstate
    | staking r t _ _ hresponse hsuccess hcascade => exact cascade_sends hcascade

/-- A tick of `Transfering` that finds the minimum sends something. -/
theorem tick_rests
    (hsettled : s.fsmState = .transfering → ∃ balances, q.balances = .ok balances ∧
      s.config.minStakeAmount ≤ Core.icaBalance balances s.config.remoteDenom)
    (htick : Core.executeTick s q env info = .ok (s', [])) :
    s.fsmState ≠ .transfering := by
  intro hstate
  obtain ⟨balances, hbalances, hmin⟩ := hsettled hstate
  obtain ⟨-, -, fee, plan, hstakes⟩ := Core.transfering_stakes hstate htick hbalances hmin
  cases hstakes.msgs_eq

end Ticks

/-! ## The value behind the liquid tokens -/

section Values

variable (d : Deployment) (m : Chains)

/-- What a packet in flight is going to delegate, while core waits for it. -/
def Chains.incomingOf (p : Packet) : ℕ :=
  if p.seq ∈ m.executed then 0
  else if m.world.core.awaitsStake then p.transaction.delegates else 0

/-- What a packet in flight is going to take: what it undelegates, before it has run, and after that
the shares that it has turned into delegations and that core still counts. -/
def Chains.outgoingOf (p : Packet) : ℕ :=
  if p.seq ∈ m.executed then p.transaction.redeems else p.transaction.undelegates

/-- What the packets in flight are going to delegate. -/
def Chains.incoming : ℕ := (m.world.inFlight.map m.incomingOf).sum

/-- What the packets in flight are going to take. -/
def Chains.outgoing : ℕ := (m.world.inFlight.map m.outgoingOf).sum

/-- Everything that backs the liquid tokens, wherever it is. -/
def Chains.backing : ℕ :=
  m.remote.delegated + m.world.bank.balance d.core d.baseDenom + m.world.core.totalLsmShares +
    m.world.core.transit + m.incoming

/-- Everything that is taken from the backing. -/
def Chains.taken : ℕ := m.world.core.owed + m.outgoing

/-- What is left of the backing does not get less between two states. -/
def Chains.Keeps (m' : Chains) : Prop := m.backing d + m'.taken ≤ m'.backing d + m.taken

/-- Core does not find a failed undelegation. -/
def Chains.NoFailure : Prop :=
  m.world.core.fsmState = .unbonding → ∀ r, m.world.core.lastPuppeteerResponse = some r →
    r.isError = false

end Values

/-- The strategy withdraws no more than it is asked for. -/
def Answers.WithdrawsAtMost (answers : Answers) : Prop :=
  ∀ amount plan, answers.calcWithdraw amount = .ok plan →
    (plan.map IdealDelegation.stakeChange).sum ≤ amount

/-- **The distribution contract withdraws no more than it is asked for.** -/
theorem withdrawsAtMost_of_distribution {answers : Answers}
    {delegations : List Distribution.Delegation}
    (h : ∀ amount plan, answers.calcWithdraw amount = .ok plan →
      Distribution.calcWithdraw amount delegations = .ok plan) : answers.WithdrawsAtMost := by
  intro amount plan hplan
  exact Distribution.sum_calcWithdraw_le (h amount plan hplan)

/-- A step of the system that only moves assets: no bond and no unbond, and every packet succeeds.
The strategy divides what it is asked for. -/
def Action.Moves : Action → Prop
  | .execute _ _ _ (.bond _) => False
  | .execute _ _ _ .unbond => False
  | .execute answers _ _ _ => answers.DepositsExactly ∧ answers.WithdrawsAtMost
  | .deliver _ outcome => outcome = .response
  | _ => True

/-- A step of both chains that only moves assets: there is no fee, and nothing is slashed. -/
def Moves (m : Chains) : ChainsAction → Prop
  | .act a => m.world.core.config.fee = none ∧ a.Moves
  | .slash _ => False
  | _ => True

/-- A tick of `Transfering` finds in the reported balance what was on its way, and enough to be
delegated. -/
def Arrived (m : Chains) : ChainsAction → Prop
  | .act (.execute _ _ _ .tick) => m.world.core.fsmState = .transfering →
      m.world.core.config.minStakeAmount ≤ m.world.stakeBalance ∧
        m.world.core.pendingTransfer.getD 0 ≤ m.world.stakeBalance
  | _ => True

instance (m : Chains) (a : ChainsAction) : Decidable (Arrived m a) := by
  unfold Arrived
  split <;> infer_instance

/-- A packet that runs brings as many delegated tokens as it lists tokens to delegate and shares to
redeem, and takes no more than it lists. -/
def InFull (m : Chains) : ChainsAction → Prop
  | .run seq delegated => ∀ p ∈ m.world.inFlight, p.seq = seq →
      m.remote.delegated + p.transaction.delegates + p.transaction.redeems ≤
        delegated + (p.transaction.undelegates + p.transaction.tokenizes)
  | _ => True

instance (m : Chains) (a : ChainsAction) : Decidable (InFull m a) := by
  unfold InFull
  split <;> infer_instance

section Steps

variable {d : Deployment} {m m' m'' : Chains}

/-- What does not get less twice does not get less. -/
theorem Chains.Keeps.trans (h : m.Keeps d m') (h' : m'.Keeps d m'') : m.Keeps d m'' := by
  unfold Chains.Keeps at *
  omega

/-- A step during which no packet is submitted, runs or ends. -/
theorem keeps_of_quiet (hdelegated : m'.remote.delegated = m.remote.delegated)
    (hexecuted : m'.executed = m.executed) (hinFlight : m'.world.inFlight = m.world.inFlight)
    (hbalance : m.world.bank.balance d.core d.baseDenom ≤
      m'.world.bank.balance d.core d.baseDenom)
    (hshares : m'.world.core.totalLsmShares = m.world.core.totalLsmShares)
    (htransit : m.world.core.transit ≤ m'.world.core.transit)
    (howed : m'.world.core.owed ≤ m.world.core.owed)
    (hawaits : m.world.core.awaitsStake → m'.world.core.awaitsStake) : m.Keeps d m' := by
  have houtgoing : m'.outgoing = m.outgoing := by
    have hsame : m'.outgoingOf = m.outgoingOf := by
      funext p
      rw [Chains.outgoingOf, Chains.outgoingOf, hexecuted]
    rw [Chains.outgoing, Chains.outgoing, hinFlight, hsame]
  have hincoming : m.incoming ≤ m'.incoming := by
    rw [Chains.incoming, Chains.incoming, hinFlight]
    refine List.sum_le_sum fun p _ => ?_
    rw [Chains.incomingOf, Chains.incomingOf, hexecuted]
    split_ifs with hrun hbefore hafter
    · exact le_rfl
    · exact le_rfl
    · exact absurd (hawaits hbefore) hafter
    · exact Nat.zero_le _
    · exact le_rfl
  unfold Chains.Keeps Chains.backing Chains.taken
  omega

/-- The only packet in flight. -/
theorem moving_singleton {p : Packet} (h : m.world.inFlight = [p]) :
    m.incoming = m.incomingOf p ∧ m.outgoing = m.outgoingOf p := by
  rw [Chains.incoming, Chains.outgoing, h]
  simp

/-- No packet in flight. -/
theorem moving_nil (h : m.world.inFlight = []) : m.incoming = 0 ∧ m.outgoing = 0 := by
  rw [Chains.incoming, Chains.outgoing, h]
  exact ⟨rfl, rfl⟩

/-- **The run of a packet** in full moves what it carries to the delegations, or from them. -/
theorem keeps_of_run (hflow : FlowInv d m.world) {seq delegated : ℕ}
    (hfull : InFull m (.run seq delegated)) (hstep : m.Step d (.run seq delegated) m') :
    m.Keeps d m' := by
  obtain ⟨p, hp, hnew, hle, hdelegated, hworld, hexecuted⟩ := chains_run_ok hstep
  obtain ⟨rfl, hmem, -⟩ := hflow.of_find hp
  obtain ⟨hincoming, houtgoing⟩ := moving_singleton hmem
  obtain ⟨hincoming', houtgoing'⟩ := moving_singleton (m := m') (by rw [hworld]; exact hmem)
  have hrun : p.seq ∈ m'.executed := by simp [hexecuted]
  have hbrings := hfull p (by rw [hmem]; exact List.mem_singleton_self p) rfl
  rw [Chains.incomingOf, if_neg hnew] at hincoming
  rw [Chains.outgoingOf, if_neg hnew] at houtgoing
  rw [Chains.incomingOf, if_pos hrun] at hincoming'
  rw [Chains.outgoingOf, if_pos hrun] at houtgoing'
  have hawaited := hflow.awaited p (by rw [hmem]; exact List.mem_singleton_self p)
  -- core never asks for a transaction that turns delegations into shares
  have htokenizes : p.transaction.tokenizes = 0 := by
    cases htx : p.transaction with
    | tokenizeShare account validator denom amount =>
      rw [htx] at hawaited
      cases hstate : m.world.core.fsmState <;> simp [hstate, awaits] at hawaited
    | _ => rfl
  have hbound : m.incoming ≤ p.transaction.delegates := by
    rw [hincoming]
    split_ifs
    · exact le_rfl
    · exact Nat.zero_le _
  unfold Chains.Keeps Chains.backing Chains.taken
  rw [hworld]
  omega

/-- **The end of a packet** that has run: redeemed shares are not counted any more. -/
theorem keeps_of_deliver (hflow : FlowInv d m.world) {seq : ℕ} {outcome : World.Outcome}
    (hsuccess : outcome = .response) (hstep : m.Step d (.act (.deliver seq outcome)) m') :
    m.Keeps d m' := by
  obtain ⟨htells, hact, hremote, hexecuted⟩ := chains_act_ok hstep
  have hrun : seq ∈ m.executed := htells.1 hsuccess
  have hbalance := balance_deliver hact d.core_ne_puppeteer d.baseDenom
  subst hsuccess
  cases step_cases hflow.wired hact with
  | environment _ _ henvironment => cases henvironment
  | accepted _ _ p txState transaction core _ hp htx _ htrans hhook hcore _ _ hinFlight =>
    obtain ⟨rfl, hmem, rfl⟩ := hflow.of_accepted hp htx htrans
    obtain ⟨hincoming, houtgoing⟩ := moving_singleton hmem
    obtain ⟨hincoming', houtgoing'⟩ := moving_nil (m := m')
      (by rw [hinFlight, hmem]; simp)
    rw [Chains.incomingOf, if_pos hrun] at hincoming
    rw [Chains.outgoingOf, if_pos hrun] at houtgoing
    rw [← hcore] at hhook
    obtain ⟨hpending, hredeemed⟩ := Core.hook_success hhook
    have hshares : m'.world.core.totalLsmShares + p.transaction.redeems =
        m.world.core.totalLsmShares := hredeemed
    have hframe := Core.executePuppeteerHook_ok hhook
    have hstate : m'.world.core.fsmState = m.world.core.fsmState := by
      rw [hframe.fsmState, if_neg (by simp [Packet.outcomeMsg, ResponseHookMsg.isError])]
    have htransit : m'.world.core.transit = m.world.core.transit := by
      rw [Core.Storage.transit, Core.Storage.transit, hstate, hpending]
    have howed : m'.world.core.owed = m.world.core.owed := by
      rw [Core.Storage.owed, Core.Storage.owed, hframe.unbondBatches]
    unfold Chains.Keeps Chains.backing Chains.taken
    rw [hremote]
    omega
  | refused _ _ p _ hp hrefused hcore hinFlight =>
    obtain ⟨rfl, hmem, -⟩ := hflow.of_find hp
    obtain ⟨hincoming, houtgoing⟩ := moving_singleton hmem
    obtain ⟨hincoming', houtgoing'⟩ := moving_nil (m := m')
      (by rw [hinFlight, hmem]; simp)
    rw [Chains.incomingOf, if_pos hrun] at hincoming
    unfold Chains.Keeps Chains.backing Chains.taken
    rw [hremote, hcore.core]
    omega

/-- **A tick** keeps what it does not send, and counts what it sends. -/
theorem keeps_of_tick (hm : Reachable d m.world)
    (hexecuted : ∀ seq ∈ m.executed, seq < m.world.nextSeq) (hfailure : m.NoFailure)
    {answers : Answers} {sender : String} {funds : List Coin}
    (hmoves : Moves m (.act (.execute answers sender funds .tick)))
    (harrived : Arrived m (.act (.execute answers sender funds .tick)))
    (hstep : m.Step d (.act (.execute answers sender funds .tick)) m') : m.Keeps d m' := by
  obtain ⟨-, hact, hremote, hsame⟩ := chains_act_ok hstep
  obtain ⟨hfee, hexact, hmost⟩ := hmoves
  have hflow := flowInv_of_reachable hm
  have hbatches := (payoutInv_of_reachable hm).batches
  have hbase := hflow.wired.baseDenom
  have hshares : m.world.core.pendingLsmShares.load m.world.core.config.baseDenom = none := by
    rw [hbase]
    exact pendingLsmShares_base hm
  cases step_cases hflow.wired hact with
  | environment _ _ henvironment => cases henvironment
  | admin _ _ _ _ core _ hmsg => cases hmsg
  | tick _ _ _ q bank core _ hbank hq htick hcore _ _ hquiet =>
    rw [← hcore] at htick
    have hcase := (Core.executeTick_ok htick).2
    have hrest := tick_rests (fun hstate => ⟨_, by rw [hq]; rfl, (harrived hstate).1⟩) htick
    rw [hq] at htick
    have hbalance := execute_balance hact hbank htick d.baseDenom
    refine keeps_of_quiet (by rw [hremote]) hsame hquiet.inFlight ?_ hcase.frame.totalLsmShares
      ?_ (Core.tick_owed hcase hfailure) ?_
    · have hzero : spentOn [] d.baseDenom = 0 := rfl
      omega
    · rw [Core.transit_eq_zero hrest]
      exact Nat.zero_le _
    · rintro ⟨hstaking, hnone⟩
      obtain ⟨r, hr, -⟩ := hcase.of_staking hstaking
      rw [hnone] at hr
      cases hr
  | tickSubmit _ _ _ q bank core msg msgFunds _ p hbank hq htick hcore _ _ hsub =>
    rw [← hcore] at htick
    have hcase := (Core.executeTick_ok htick).2
    obtain ⟨ica, replyTo, -, hrequests, -⟩ := hsub.requested
    have hcalcWithdraw : q.calcWithdraw = answers.calcWithdraw := by rw [hq]; rfl
    have hcalcDeposit : q.calcDeposit = answers.calcDeposit := by rw [hq]; rfl
    have howes := tick_owes hbatches hfailure (by rw [hcalcWithdraw]; exact hmost) hcase hrequests
    have hsends := tick_sends hfee hshares (by rw [hcalcDeposit]; exact hexact)
      (fun hstate => ⟨_, by rw [hq]; rfl, harrived hstate⟩) htick hrequests
    rw [hq] at htick
    have hbalance := execute_balance hact hbank htick d.baseDenom
    have hspent : spentOn [.puppeteer m.world.core.config.puppeteerContract msg msgFunds]
        d.baseDenom = coinsOf msgFunds d.baseDenom := by
      simp [spentOn, Core.CoreMsg.funds]
    rw [hbase] at hsends
    -- nothing was in flight, and the new packet has not run
    have hnew : p.seq ∉ m'.executed := by
      rw [hsame, hsub.seq]
      exact fun hmem => absurd (hexecuted _ hmem) (lt_irrefl _)
    obtain ⟨hincoming, houtgoing⟩ := moving_nil (hflow.inFlight_eq_nil hsub.idle)
    obtain ⟨hincoming', houtgoing'⟩ := moving_singleton (hflow.inFlight_of_submission hsub)
    rw [Chains.incomingOf, if_neg hnew] at hincoming'
    rw [Chains.outgoingOf, if_neg hnew] at houtgoing'
    have htotal := hcase.frame.totalLsmShares
    unfold Chains.Keeps Chains.backing Chains.taken
    rw [hremote]
    simp only at hsends
    omega

/-- **Moving assets takes nothing away**: a step that only moves assets keeps what backs the liquid
tokens, as long as every tick of `Transfering` finds what was on its way, and every packet that
runs does so in full. -/
theorem keeps_of_step (hm : Reachable d m.world)
    (hexecuted : ∀ seq ∈ m.executed, seq < m.world.nextSeq) (hfailure : m.NoFailure)
    {a : ChainsAction} (hmoves : Moves m a) (hfull : InFull m a) (harrived : Arrived m a)
    (hstep : m.Step d a m') : m.Keeps d m' := by
  have hflow := flowInv_of_reachable hm
  cases a with
  | run seq delegated => exact keeps_of_run hflow hfull hstep
  | receive amount =>
    rw [← Option.some.inj hstep]
    exact le_rfl
  | slash amount => exact absurd hmoves id
  | act a =>
    obtain ⟨-, hact, hremote, hsame⟩ := chains_act_ok hstep
    cases step_cases hflow.wired hact with
    | environment _ _ henvironment hcore hquiet =>
      exact keeps_of_quiet (by rw [hremote]) hsame hquiet.inFlight
        (le_balance_of_environment henvironment hact d.baseDenom) (by rw [hcore.core])
        (by rw [hcore.core]) (by rw [hcore.core]) (by rw [hcore.core]; exact id)
    | foreign _ _ _ _ _ p hsender hsub => exact absurd hsub (hflow.not_foreign hsender)
    | bond => exact absurd hmoves.2 id
    | unbond => exact absurd hmoves.2 id
    | admin answers sender funds msg core _ hmsg hadmin _ _ hcore _ _ hquiet =>
      have hkept : core.totalLsmShares = m.world.core.totalLsmShares ∧
          core.transit = m.world.core.transit ∧ core.owed = m.world.core.owed ∧
          (core.awaitsStake ↔ m.world.core.awaitsStake) := by
        cases hadmin <;> exact ⟨rfl, rfl, rfl, Iff.rfl⟩
      obtain ⟨hshares, htransit, howed, hawaits⟩ := hkept
      exact keeps_of_quiet (by rw [hremote]) hsame hquiet.inFlight
        (le_balance_of_admin hmsg hact d.baseDenom)
        (by rw [hcore, hshares]) (by rw [hcore, htransit]) (by rw [hcore, howed])
        (by rw [hcore, hawaits]; exact id)
    | tick => exact keeps_of_tick hm hexecuted hfailure hmoves harrived hstep
    | tickSubmit => exact keeps_of_tick hm hexecuted hfailure hmoves harrived hstep
    | accepted => exact keeps_of_deliver hflow hmoves.2 hstep
    | refused => exact keeps_of_deliver hflow hmoves.2 hstep

/-- A step that only moves assets does not make core find a failed undelegation: `Unbonding` is
entered without an answer, and every answer is a success. -/
theorem noFailure_of_step (hflow : FlowInv d m.world) {a : ChainsAction} (hmoves : Moves m a)
    (hstep : m.Step d a m') (h : m.NoFailure) : m'.NoFailure := by
  cases a with
  | run seq delegated =>
    obtain ⟨p, -, -, -, -, hworld, -⟩ := chains_run_ok hstep
    rw [Chains.NoFailure, hworld]
    exact h
  | receive amount =>
    rw [← Option.some.inj hstep]
    exact h
  | slash amount => exact absurd hmoves id
  | act a =>
    obtain ⟨-, hact, -, -⟩ := chains_act_ok hstep
    unfold Chains.NoFailure at *
    cases step_cases hflow.wired hact with
    | environment _ _ _ hcore => rwa [hcore.core]
    | foreign _ _ _ _ _ p hsender hsub => exact absurd hsub (hflow.not_foreign hsender)
    | bond => exact absurd hmoves.2 id
    | unbond => exact absurd hmoves.2 id
    | admin answers sender funds msg core _ hmsg hadmin _ _ hcore =>
      rw [hcore]
      cases hadmin <;> exact h
    | tick answers sender funds q bank core _ _ _ htick hcore =>
      rw [hcore, (tick_silent (Core.executeTick_ok htick).2).1]
      intro hidle
      cases hidle
    | tickSubmit answers sender funds q bank core msg msgFunds _ p _ _ htick hcore _ _ hsub =>
      obtain ⟨ica, replyTo, -, hrequests, -⟩ := hsub.requested
      obtain ⟨-, -, hempty⟩ := tick_submits (Core.executeTick_ok htick).2 hrequests
      rw [hcore]
      intro hunbonding r hr
      rw [hempty hunbonding] at hr
      cases hr
    | accepted seq outcome p txState transaction core _ _ _ _ _ hhook hcore =>
      obtain rfl : outcome = .response := hmoves.2
      intro _ r hr
      rw [hcore, (Core.executePuppeteerHook_ok hhook).lastPuppeteerResponse] at hr
      rw [← Option.some.inj hr]
      rfl
    | refused seq outcome p _ _ _ hcore => rwa [hcore.core]

/-- A step that only moves assets leaves the supply of the liquid tokens alone. -/
theorem supply_of_step (hflow : FlowInv d m.world) {a : ChainsAction} (hmoves : Moves m a)
    (hstep : m.Step d a m') : m'.world.bank.supply = m.world.bank.supply := by
  cases a with
  | run seq delegated =>
    obtain ⟨p, -, -, -, -, hworld, -⟩ := chains_run_ok hstep
    rw [hworld]
  | receive amount => rw [← Option.some.inj hstep]
  | slash amount => exact absurd hmoves id
  | act a =>
    obtain ⟨-, hact, -, -⟩ := chains_act_ok hstep
    cases step_cases hflow.wired hact with
    | environment _ _ _ hcore => exact hcore.supply
    | foreign _ _ _ _ _ p hsender hsub => exact absurd hsub (hflow.not_foreign hsender)
    | bond => exact absurd hmoves.2 id
    | unbond => exact absurd hmoves.2 id
    | admin answers sender funds msg core _ hmsg => exact execute_supply (.inl hmsg) hact
    | tick => exact execute_supply (.inr rfl) hact
    | tickSubmit => exact execute_supply (.inr rfl) hact
    | accepted => exact supply_deliver hact
    | refused => exact supply_deliver hact

end Steps

end System

end DropContracts
