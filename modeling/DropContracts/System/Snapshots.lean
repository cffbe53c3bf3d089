import DropContracts.Core.Maturity
import DropContracts.System.FeeLedger

set_option relaxedAutoImplicit false
set_option autoImplicit false

/-!
# Balance snapshots and released tokens

A delegation is computed from the balance that the puppeteer has stored, with the time at which it
was stored. The tokens of a batch that has been released before that time are part of the balance.
An idle tick checks this when it starts a cycle; the later ticks of the cycle read the snapshot
again and do not check.

## Main definitions

* `System.World.snapshot`, `System.World.snapshotTime` — the stored balances, and their time.
* `System.World.Unreleased` — no unbonding batch was released before the snapshot.
* `System.InTime` — the steps that bring no released tokens into a cycle.

## Main results

* `System.step_snapshot` — only a query result changes the snapshot.
* `System.snapshotInv_of_reachableWhere` — the snapshot of a cycle is older than all releases.
* `System.delegates_unreleased` — along runs of such steps, no released tokens are delegated.
* `System.delegates_released` — a snapshot that arrives during a cycle can contain them.
-/

namespace DropContracts

namespace Puppeteer

/-- A request leaves the stored balances alone. -/
theorem execute_snapshot {s s' : Storage} {addrValidate : String → Bool} {info : MessageInfo}
    {env : Env} {msg : PuppeteerExecuteMsg} {out : Option NeutronMsg}
    (h : execute s addrValidate info env msg = .ok (s', out)) :
    s'.delegationsAndBalance = s.delegationsAndBalance := by
  cases execute_ok h <;> rfl

end Puppeteer

namespace System

/-- The balances and delegations that the puppeteer has stored, with the height and time. -/
def World.snapshot (w : World) : Puppeteer.BalancesAndDelegations × ℕ × Timestamp :=
  w.puppeteer.delegationsAndBalance

/-- The second in which the stored balances were read. -/
def World.snapshotTime (w : World) : ℕ := w.snapshot.2.2.seconds

section Frames

variable {d : Deployment} {w w' : World} {addrValidate : String → Bool}

/-! ## What changes the snapshot -/

/-- The reply to a packet leaves the snapshot alone. -/
theorem reply_snapshot {m : Puppeteer.NeutronMsg} (h : w.reply m = some w') :
    w'.snapshot = w.snapshot := by
  simp only [World.reply, Puppeteer.submitTxReply, Option.bind_eq_bind, Option.bind_eq_some_iff,
    Exec.toOption_eq_some, Exec.bind_eq_ok, Exec.pure_eq_ok, Except.ok.injEq,
    Option.some.injEq] at h
  obtain ⟨transaction, -, puppeteer, ⟨txState, -, rfl⟩, rfl⟩ := h
  rfl

/-- The submission of a packet leaves the snapshot alone. -/
theorem submit_snapshot {m : Puppeteer.NeutronMsg} (h : w.submit d m = some w') :
    w'.snapshot = w.snapshot := by
  cases m with
  | submitTx connectionId icaId msgs timeout fee => exact reply_snapshot h
  | ibcTransfer port channel token sender receiver timeout fee =>
    simp only [World.submit, Option.bind_eq_bind, Option.bind_eq_some_iff] at h
    obtain ⟨bank, -, h⟩ := h
    have hreply := reply_snapshot h
    exact hreply
  | registerInterchainAccount connectionId icaId fee => rw [submit_register h]

/-- A call of the puppeteer leaves the snapshot alone. -/
theorem callPuppeteer_snapshot {info : MessageInfo} {msg : PuppeteerExecuteMsg}
    (h : w.callPuppeteer d addrValidate info msg = some w') : w'.snapshot = w.snapshot := by
  simp only [World.callPuppeteer, Option.bind_eq_bind, Option.bind_eq_some_iff,
    Exec.toOption_eq_some] at h
  obtain ⟨bank, -, ⟨puppeteer, out⟩, hexec, h⟩ := h
  have hkept : puppeteer.delegationsAndBalance = w.puppeteer.delegationsAndBalance :=
    Puppeteer.execute_snapshot hexec
  cases out with
  | none =>
    rw [← Option.some.inj h]
    exact hkept
  | some m => exact (submit_snapshot h).trans hkept

/-- A message of core leaves the snapshot alone. -/
theorem dispatch_snapshot {msg : Core.CoreMsg} (h : w.dispatch d addrValidate msg = some w') :
    w'.snapshot = w.snapshot := by
  cases msg with
  | puppeteer contractAddr msg funds =>
    simp only [World.dispatch] at h
    split_ifs at h
    exact callPuppeteer_snapshot h
  | tokenMint contractAddr amount receiver =>
    simp only [World.dispatch] at h
    split_ifs at h
    obtain ⟨-, rfl⟩ := tokenMint_ok h
    rfl
  | tokenBurn contractAddr funds =>
    simp only [World.dispatch, World.tokenBurn] at h
    split_ifs at h
    simp only [Option.bind_eq_bind, Option.bind_eq_some_iff, Option.some.injEq] at h
    obtain ⟨bank, -, amount, -, bank', -, rfl⟩ := h
    rfl
  | voucherMint contractAddr owner tokenId extension =>
    simp only [World.dispatch] at h
    split_ifs at h
    rw [voucherMint_ok h]
    rfl

/-- The messages of core leave the snapshot alone. The induction is on the list of messages. -/
theorem dispatchAll_snapshot {msgs : List Core.CoreMsg}
    (h : w.dispatchAll d addrValidate msgs = some w') : w'.snapshot = w.snapshot := by
  induction msgs generalizing w with
  | nil => rw [← Option.some.inj h]
  | cons msg rest ih =>
    simp only [World.dispatchAll, Option.bind_eq_bind, Option.bind_eq_some_iff] at h
    obtain ⟨w₁, hfirst, hrest⟩ := h
    exact (ih hrest).trans (dispatch_snapshot hfirst)

/-- The outcome of a packet leaves the snapshot alone. -/
theorem deliver_snapshot {seq : ℕ} {outcome : World.Outcome}
    (h : w.deliver d seq outcome = some w') : w'.snapshot = w.snapshot := by
  simp only [World.deliver, Option.bind_eq_bind, Option.bind_eq_some_iff, Option.some.injEq] at h
  obtain ⟨p, -, rfl⟩ := h
  cases hreport : (w.settle d p outcome).report d seq outcome with
  | none => rfl
  | some w₁ =>
    simp only [World.report, Option.bind_eq_bind, Option.bind_eq_some_iff, Exec.toOption_eq_some,
      Option.guard_eq_some', Option.some.injEq] at hreport
    obtain ⟨⟨puppeteer, report⟩, houtcome, -, -, core, -, rfl⟩ := hreport
    cases outcome with
    | response =>
      obtain ⟨_, _, _, -, -, -, -, rfl, -⟩ := Puppeteer.sudoResponse_eq_ok.1 houtcome
      rfl
    | error details =>
      obtain ⟨_, _, _, -, -, -, -, rfl, -⟩ := Puppeteer.sudoError_eq_ok.1 houtcome
      rfl
    | timeout =>
      obtain ⟨_, _, _, -, -, -, -, rfl, -⟩ := Puppeteer.sudoTimeout_eq_ok.1 houtcome
      rfl

/-- **Only a query result changes the snapshot.** -/
theorem step_snapshot {a : Action} (hstep : Step d w a w') :
    w'.snapshot = w.snapshot ∨ ∃ data, a = .delegationsAndBalance data := by
  unfold Step at hstep
  cases a with
  | execute answers sender funds msg =>
    obtain ⟨-, -, bank, core, msgs, after, -, -, -, hafter, rfl⟩ := execute_ok hstep
    have hkept := dispatchAll_snapshot hafter
    exact .inl hkept
  | executePuppeteer addrValidate sender funds msg =>
    simp only [World.exec, World.executePuppeteer, Option.bind_eq_bind, Option.bind_eq_some_iff,
      Option.guard_eq_some'] at hstep
    obtain ⟨-, -, hcall⟩ := hstep
    exact .inl (callPuppeteer_snapshot hcall)
  | deliver seq outcome => exact .inl (deliver_snapshot hstep)
  | delegationsAndBalance data => exact .inr ⟨data, rfl⟩
  | nonNativeRewardsBalances coins =>
    rw [← Option.some.inj hstep]
    exact .inl rfl
  | openAck address =>
    simp only [World.exec, World.openAck, Puppeteer.sudoOpenAck, Option.bind_eq_bind,
      Option.bind_eq_some_iff, Exec.toOption_eq_some, Option.guard_eq_some', Exec.bind_eq_ok,
      Exec.pure_eq_ok, Except.ok.injEq, Option.some.injEq] at hstep
    obtain ⟨-, -, p, ⟨_, -, rfl⟩, rfl⟩ := hstep
    exact .inl rfl
  | bankSend sender receiver coins =>
    simp only [World.exec, World.bankSend, Option.bind_eq_bind, Option.bind_eq_some_iff,
      Option.guard_eq_some', Option.some.injEq] at hstep
    obtain ⟨-, -, bank, -, rfl⟩ := hstep
    exact .inl rfl
  | nextBlock height time =>
    simp only [World.exec, World.nextBlock] at hstep
    split_ifs at hstep
    rw [← Option.some.inj hstep]
    exact .inl rfl

end Frames

/-! ## The snapshot of a cycle -/

section Cycles

variable {d : Deployment} {w w' : World}

/-- No unbonding batch was released before the stored balances were read. -/
def World.Unreleased (w : World) : Prop := w.core.Unreleased w.snapshotTime

instance (w : World) : Decidable w.Unreleased :=
  inferInstanceAs (Decidable (w.core.Unreleased w.snapshotTime))

/-- The steps that bring no released tokens into a cycle: a query result that arrives during a cycle
comes before every unbonding batch is released, and an idle tick that finds a matured batch after
the interval has somebody to claim from. -/
def InTime (d : Deployment) (w : World) : Action → Prop
  | .delegationsAndBalance _ =>
    w.core.fsmState.isCollecting = true → w.core.Unreleased w.time.seconds
  | .execute answers _ _ .tick =>
    w.core.fsmState = .idle → Core.IntervalPassed w.core (w.env d) →
      Core.HasMatured w.core (w.querier d answers) (w.env d) →
        Core.Claimable (w.querier d answers)
  | _ => True

/-- **The snapshot of a cycle is older than all releases.** The snapshot was read in the past. -/
structure SnapshotInv (w : World) : Prop where
  past : w.snapshotTime ≤ w.time.seconds
  unreleased : w.core.fsmState.isCollecting = true → w.Unreleased

/-- Initially the contract is idle and nothing was read. -/
theorem snapshotInv_initial (h : Initial d w) : SnapshotInv w := by
  obtain ⟨config, owner, hcore⟩ := h.core
  obtain ⟨pconfig, hpuppeteer⟩ := h.puppeteer
  refine ⟨?_, fun hcollecting => ?_⟩
  · unfold World.snapshotTime World.snapshot
    rw [hpuppeteer]
    show Timestamp.seconds ⟨0⟩ ≤ w.time.seconds
    rw [Timestamp.seconds, Nat.zero_div]
    exact Nat.zero_le _
  · rw [hcore] at hcollecting
    cases hcollecting

/-- Time only passes. -/
theorem seconds_mono {s t : Timestamp} (h : s.nanos ≤ t.nanos) : s.seconds ≤ t.seconds :=
  Nat.div_le_div_right h

/-- The invariant after a step that leaves the snapshot alone, starts no cycle and releases no
batch. -/
theorem SnapshotInv.of_same (h : SnapshotInv w) (hsnapshot : w'.snapshot = w.snapshot)
    (htime : w.time.nanos ≤ w'.time.nanos)
    (hstate : w'.core.fsmState.isCollecting = true → w.core.fsmState.isCollecting = true)
    (hbatches : w.Unreleased → w'.core.Unreleased w.snapshotTime) : SnapshotInv w' := by
  have hsame : w'.snapshotTime = w.snapshotTime := by
    unfold World.snapshotTime
    rw [hsnapshot]
  refine ⟨?_, fun hcollecting => ?_⟩
  · rw [hsame]
    exact h.past.trans (seconds_mono htime)
  · unfold World.Unreleased
    rw [hsame]
    exact hbatches (h.unreleased (hstate hcollecting))

/-- The invariant after a tick. -/
theorem SnapshotInv.tick (h : SnapshotInv w) {answers : Answers} {sender : String}
    {funds : List Coin} {bank : Bank} {msgs : List Core.CoreMsg}
    (hsnapshot : w'.snapshot = w.snapshot) (htime : w'.time = w.time)
    (htick : Core.executeTick w.core (({ w with bank := bank } : World).querier d answers)
      (w.env d) ⟨sender, funds⟩ = .ok (w'.core, msgs)) : SnapshotInv w' := by
  have hsame : w'.snapshotTime = w.snapshotTime := by
    unfold World.snapshotTime
    rw [hsnapshot]
  refine ⟨?_, fun hcollecting => ?_⟩
  · rw [hsame, htime]
    exact h.past
  · unfold World.Unreleased
    rw [hsame]
    have hbalances : (({ w with bank := bank } : World).querier d answers).balances =
        .ok (Puppeteer.queryBalances w.puppeteer) := rfl
    exact Core.unreleased_of_tick (Core.executeTick_ok htick).2 hbalances h.past h.unreleased
      hcollecting

/-- **Every step that brings no released tokens into a cycle keeps the invariant.**

**Proof sketch.** A query result that arrives during a cycle is read now, and no unbonding batch has
been released yet. No other step but a tick changes the batches that are unbonding, and ticks keep
them unreleased during a cycle. -/
theorem SnapshotInv.step {a : Action} (h : SnapshotInv w) (hflow : FlowInv d w)
    (hok : InTime d w a) (hstep : Step d w a w') : SnapshotInv w' := by
  rcases step_snapshot hstep with hsnapshot | ⟨data, rfl⟩
  · cases step_batches hflow hstep with
    | quiet a _ hquiet hsame _ htime =>
      exact h.of_same hsnapshot htime (by rw [hsame.fsmState]; exact id)
        fun hbefore => hbefore.of_same hsame.unbondBatches
    | unbond answers sender funds batch item _ hbatch hcore _ _ htime =>
      refine h.of_same hsnapshot (by rw [htime]) ?_ fun hbefore => ?_
      · rw [hcore]
        exact id
      · rw [hcore]
        exact hbefore.push hbatch item
    | tick answers sender funds bank _ htick _ htime => exact h.tick hsnapshot htime htick
    | tickSubmit answers sender funds bank contract msg msgFunds p _ htick _ htime =>
      exact h.tick hsnapshot htime htick
    | accepted outcome p _ hmem hhook _ htime =>
      refine h.of_same hsnapshot (by rw [htime]) ?_
        fun hbefore => hbefore.of_same hhook.unbondBatches
      rw [hhook.fsmState]
      split_ifs
      · intro hidle
        cases hidle
      · exact id
  · obtain rfl : _ = w' := Option.some.inj hstep
    exact ⟨le_rfl, hok⟩

/-- **Every state that such steps reach has the invariant.** -/
theorem snapshotInv_of_reachableWhere (h : ReachableWhere d (InTime d) w) : SnapshotInv w := by
  refine h.invariant (fun w₀ hinit => snapshotInv_initial hinit) ?_
  intro s a t hs hok hstep hinv
  exact hinv.step (flowInv_of_reachable hs) hok hstep

/-! ## Delegations -/

/-- A step that submits a delegation is a tick, and it delegates. -/
theorem tick_of_delegation {a : Action} {account denom : String} {items : List (String × ℕ)}
    (hflow : FlowInv d w) (hstep : Step d w a w')
    (hsubmits : w.submits w' = some (.delegate account denom items)) :
    ∃ answers sender funds bank msgs, a = .execute answers sender funds .tick ∧
      Core.executeTick w.core (({ w with bank := bank } : World).querier d answers) (w.env d)
        ⟨sender, funds⟩ = .ok (w'.core, msgs) ∧ Core.Delegates msgs := by
  cases step_fees hflow hstep with
  | silent _ hnone =>
    rw [hnone] at hsubmits
    cases hsubmits
  | submit p _ hsome _ _ hdelegate =>
    rw [Option.some.inj (hsome.symm.trans hsubmits)] at hdelegate
    cases hdelegate
  | stake p plan hsome hnil hinFlight hstakes =>
    obtain ⟨answers, sender, funds, rfl, -⟩ := hstakes.tick
    have htx : p.transaction = .delegate account denom items :=
      Option.some.inj (hsome.symm.trans hsubmits)
    have hsubmitted : Submits w w' (.delegate account denom items) :=
      submits_of_inFlight hnil (by rw [hinFlight, ← htx]; rfl)
    obtain ⟨bank, ica, replyTo, contract, msg, msgFunds, -, hrequests, htick⟩ :=
      tick_of_submits hflow hstep hsubmitted
    cases hrequests
    exact ⟨answers, sender, funds, bank, _, rfl, htick,
      ⟨_, _, _, _, _, List.mem_singleton_self _⟩⟩

/-- **When an idle tick may delegate**: exactly when it brings no released tokens into the cycle. -/
theorem inTime_iff_of_delegation {a : Action} {account denom : String}
    {items : List (String × ℕ)} (hinv : SnapshotInv w) (hflow : FlowInv d w)
    (hidle : w.core.fsmState = .idle) (hstep : Step d w a w')
    (hsubmits : w.submits w' = some (.delegate account denom items)) :
    InTime d w a ↔ w.Unreleased := by
  obtain ⟨answers, sender, funds, bank, msgs, rfl, htick, hdelegates⟩ :=
    tick_of_delegation hflow hstep hsubmits
  have hbalances : (w.querier d answers).balances = .ok (Puppeteer.queryBalances w.puppeteer) :=
    rfl
  have hpast : (Puppeteer.queryBalances w.puppeteer).2.2.seconds ≤ (w.env d).time.seconds :=
    hinv.past
  rcases Core.delegates_of_tick (Core.executeTick_ok htick).2 hdelegates with
    hcollecting | ⟨-, hinterval, hnobody⟩
  · rw [hidle] at hcollecting
    cases hcollecting
  · constructor
    · intro hok
      apply Core.unreleased_of_not_hasMatured hbalances hpast
      intro hmatured
      exact hnobody (hok hidle hinterval hmatured)
    · rintro hunreleased - - ⟨balances, id, b, hbalances', hb, hstatus, -, hreleased⟩
      rw [← Except.ok.inj (hbalances.symm.trans hbalances')] at hreleased
      exact absurd (hunreleased id b hb hstatus) (not_le.2 hreleased)

/-- **Released tokens are not delegated** along every run whose steps all bring no released tokens
into a cycle: when a step delegates, no unbonding batch was released before the balance was read
that the delegation is computed from.

**Proof sketch.** In the middle of a cycle this is the invariant. An idle tick that delegates has
nobody to claim from, so no batch has matured; the balance was read in the past. -/
theorem delegates_unreleased {a : Action} {account denom : String} {items : List (String × ℕ)}
    (h : ReachableWhere d (InTime d) w) (hok : InTime d w a) (hstep : Step d w a w')
    (hsubmits : w.submits w' = some (.delegate account denom items)) : w.Unreleased := by
  have hinv := snapshotInv_of_reachableWhere h
  have hflow := flowInv_of_reachable h.reachable
  obtain ⟨answers, sender, funds, bank, msgs, -, htick, hdelegates⟩ :=
    tick_of_delegation hflow hstep hsubmits
  rcases Core.delegates_of_tick (Core.executeTick_ok htick).2 hdelegates with
    hcollecting | ⟨hidle, -, -⟩
  · exact hinv.unreleased hcollecting
  · exact (inTime_iff_of_delegation hinv hflow hidle hstep hsubmits).1 hok

end Cycles

section Samples

open Sample

namespace Sample

/-- The batch of a request for 100 liquid tokens is unbonding until second 1125, and the 900 other
tokens are delegated. -/
def unbonding : List Action :=
  setup ++ [bond 1000, unbond 100, block 2 1020, tick, .deliver 1 .response, block 3 1025,
    remote 1000 0, tick, .deliver 2 .response, tick, .deliver 3 .response, tick, remote 0 900]

/-- A cycle that starts in second `start`: a claim, and five seconds later a query result that tells
a balance of 100. -/
def collected (start : ℕ) : List Action :=
  unbonding ++ [block 4 start, tick, .deliver 4 .response, block 5 (start + 5), remote 100 900]

/-- A check that ensures `InTime`: query results come, and ticks take place, while no unbonding
batch is released. -/
def inTime (w : World) : Action → Bool
  | .delegationsAndBalance _ => decide (w.core.Unreleased w.time.seconds)
  | .execute _ _ _ .tick => decide w.Unreleased
  | _ => true

/-- The check ensures the condition. -/
theorem inTime_of_check {d : Deployment} {w : World} {a : Action} (h : inTime w a = true) :
    InTime d w a := by
  unfold inTime at h
  split at h
  · exact fun _ => of_decide_eq_true h
  · rintro - - ⟨balances, id, b, hbalances, hb, hstatus, -, hreleased⟩
    rw [← Except.ok.inj hbalances] at hreleased
    exact absurd (of_decide_eq_true h id b hb hstatus) (not_le.2 hreleased)
  · next hquery htick =>
    unfold InTime
    split
    · exact absurd rfl (hquery _)
    · exact absurd rfl (htick _ _ _)
    · trivial

/-- A tick that is evaluated together with the delegation that it submits. -/
theorem exists_delegation (ok : World → Action → Bool) (actions : List Action)
    (check : World → Bool)
    (h : ((runList (World.exec deployment) ok initial actions).bind fun w =>
      (w.exec deployment tick).map fun w' => (w, w')).any
      (fun r => decide ((r.1.submits r.2).bind Transaction.delegated = some 100 ∧
        check r.1 = true)) = true) :
    ∃ w w' account denom items, runList (World.exec deployment) ok initial actions = some w ∧
      Step deployment w tick w' ∧ w.submits w' = some (.delegate account denom items) ∧
      check w = true := by
  obtain ⟨w, w', hw, hw', hend⟩ := exists_step_of_runWhere h
  obtain ⟨hdelegated, hcheck⟩ := of_decide_eq_true hend
  obtain ⟨transaction, hsubmits, hdelegated⟩ := Option.bind_eq_some_iff.1 hdelegated
  cases transaction with
  | delegate account denom items => exact ⟨w, w', account, denom, items, hw, hw', hsubmits, hcheck⟩
  | _ => cases hdelegated

end Sample

/-- A cycle of the sample deployment that delegates in second 1045, while a batch is unbonding until
second 1125. -/
theorem delegates_unreleased_sample : ∃ w w' : World, ∃ account denom items,
    w.submits w' = some (.delegate account denom items) ∧
      (∃ e ∈ w.core.unbondBatches.entries, e.2.status = .unbonding) ∧ w.Unreleased := by
  obtain ⟨w, w', account, denom, items, hw, hstep, hsubmits, hcheck⟩ :=
    exists_delegation inTime (collected 1040) (fun w => decide (inTime w tick = true ∧
      ∃ e ∈ w.core.unbondBatches.entries, e.2.status = .unbonding)) (by decide)
  obtain ⟨hok, hunbonding⟩ := of_decide_eq_true hcheck
  have hw : ReachableWhere deployment (InTime deployment) w :=
    ⟨initial, initial_spec, runWhere_eq_some (fun _ _ => inTime_of_check) hw⟩
  exact ⟨w, w', account, denom, items, hsubmits, hunbonding,
    delegates_unreleased hw (inTime_of_check hok) hstep hsubmits⟩

/-- **Released tokens are delegated** when the balance is read again during a cycle: the idle tick
has no balance newer than the release, and the next tick delegates the released tokens. -/
theorem delegates_released : ¬ ∀ (d : Deployment) (w w' : World) (a : Action)
    (account denom : String) (items : List (String × ℕ)), Reachable d w → Step d w a w' →
      w.submits w' = some (.delegate account denom items) → w.Unreleased := by
  intro hall
  obtain ⟨w, w', account, denom, items, hw, hstep, hsubmits, hcheck⟩ :=
    exists_delegation (fun _ _ => true) (collected 1130) (fun w => decide (¬ w.Unreleased))
      (by decide)
  exact of_decide_eq_true hcheck
    (hall deployment w w' tick account denom items (reachable_of_runAll initial_spec hw) hstep
      hsubmits)

end Samples

end System

end DropContracts
