import DropContracts.System.BatchInvariant
import DropContracts.System.Scenario
import DropContracts.System.Upkeep

set_option relaxedAutoImplicit false
set_option autoImplicit false

/-!
# The way back to `Idle`

From which waiting states the upkeep can bring core back to `Idle`. The way back is built step by
step: from `Staking` and `Unbonding` one tick is enough, from `Transfering` and `Claiming` the
balance of the interchain account may have to be delegated and the balance of core transferred
first. Where something stands in the way, the state is a dead end.

## Main definitions

* `System.CanReachIdle` — some upkeep leads to `Idle`.
* `System.ClearWay` — nothing stands in the way.
* `System.Resting` — the states between two packets.

## Main results

* `System.exists_ended` — a tick whose request the puppeteer takes, and the end of its packet.
* `System.canReachIdle_iff` — upkeep leads to `Idle` exactly when nothing stands in the way.
* `System.staking_dead` — after a failed delegation something does.
-/

namespace DropContracts

namespace System

open Exec

/-- Some upkeep leads to `Idle`. -/
def CanReachIdle (d : Deployment) (c : Circumstances) (m : Chains) : Prop :=
  ∃ m', RunWhere (Chains.Step d) (Upkeep c) m m' ∧ m'.world.core.fsmState = .idle

/-- Nothing stands in the way back to `Idle` for an interchain account with this balance: the times
that the next ticks compute with are 64-bit numbers, a delegation has not failed, the account is
registered when core has something to transfer to it, and its balance does not stop a tick, as it is
or after that transfer. -/
structure ClearWay (d : Deployment) (c : Circumstances) (w : World) (balance : ℕ) : Prop where
  switch : w.core.fsmState ≠ .idle → w.core.fsmState ≠ .unbonding → ∀ batch,
    w.core.unbondBatches.load w.core.nextBatchId = some batch → batch.SwitchFits w.core.config
  transfer : w.core.fsmState = .claiming →
    w.bank.balance d.core w.core.config.baseDenom ≠ 0 →
      w.time.nanos + w.core.config.puppeteerTimeout * nanosPerSecond < U64.bound ∧
        ∃ ica, w.puppeteer.ica = .registered ica
  release : w.core.fsmState = .unbonding → ∀ r, w.core.lastPuppeteerResponse = some r →
    r.isError = false → w.time.seconds + w.core.config.unbondingPeriod < U64.bound
  staked : w.core.fsmState = .staking → ∀ r, w.core.lastPuppeteerResponse = some r →
    r.isError = false
  stake : w.core.fsmState = .claiming ∨ w.core.fsmState = .transfering →
    w.CanStake c balance ∨ w.core.fsmState = .claiming ∧
      w.CanStake c (balance + w.bank.balance d.core w.core.config.baseDenom)

/-- A state between two packets, in which core is not paused. -/
structure Resting (d : Deployment) (m : Chains) : Prop where
  reachable : Reachable d m.world
  executed : ∀ seq ∈ m.executed, seq < m.world.nextSeq
  inFlight : m.world.inFlight = []
  paused : m.world.core.isPaused = false

section Liveness

variable {d : Deployment} {c : Circumstances} {answers : Answers} {w w' : World} {m m' : Chains}

/-- Some upkeep in front of a way to `Idle`. -/
theorem CanReachIdle.of_run (hrun : RunWhere (Chains.Step d) (Upkeep c) m m')
    (h : CanReachIdle d c m') : CanReachIdle d c m := by
  obtain ⟨v, hrest, hidle⟩ := h
  exact ⟨v, hrun.trans hrest, hidle⟩

/-- What one step leads to, a run of one step leads to. -/
theorem run_act {a : Action} (hupkeep : Upkeep c m (.act a)) (htells : a.Tells m.executed)
    (hstep : Step d m.world a w') :
    RunWhere (Chains.Step d) (Upkeep c) m { m with world := w' } := by
  refine RunWhere.single hupkeep ?_
  have hact : m.world.exec d a = some w' := hstep
  simp only [Chains.Step, Chains.exec, Chains.act, htells, hact, guard_true, Option.pure_def,
    Option.bind_eq_bind, Option.bind_some]

/-! ## Preparations -/

/-- A report of the account has arrived at the puppeteer, with its delegations as one. -/
def Chains.reported (d : Deployment) (m : Chains) : Chains :=
  { m with world := { m.world with
    puppeteer := Puppeteer.sudoDelegationsAndBalance m.world.puppeteer (m.world.puppeteerEnv d)
      ⟨[⟨m.world.core.config.remoteDenom, m.remote.balance⟩],
        [⟨"", "", ⟨m.world.core.config.remoteDenom, m.remote.delegated⟩⟩]⟩ } }

/-- The report can arrive. -/
theorem run_reported : RunWhere (Chains.Step d) (Upkeep c) m (m.reported d) :=
  run_act (a := .delegationsAndBalance _) trivial trivial rfl

/-- After the report the puppeteer knows the state of the account. -/
theorem reflected_reported : (m.reported d).Reflected where
  delegated := by simp [Chains.reported, Puppeteer.queryDelegations,
    Puppeteer.sudoDelegationsAndBalance]
  balance := by simp [Chains.reported, World.stakeBalance, Core.icaBalance,
    Puppeteer.queryBalances, Puppeteer.sudoDelegationsAndBalance]

/-- A report is no packet. -/
theorem Resting.reported (h : Resting d m) : Resting d (m.reported d) where
  reachable := h.reachable.tail (a := .delegationsAndBalance _) rfl
  executed := h.executed
  inFlight := h.inFlight
  paused := h.paused

/-- Every moment before the end of time is reached by waiting. -/
theorem exists_later (h : Resting d m) {n : ℕ} (hn : n < U64.bound) :
    ∃ height time, RunWhere (Chains.Step d) (Upkeep c) m
        { m with world := { m.world with height := height, time := time } } ∧
      Resting d { m with world := { m.world with height := height, time := time } } ∧
      n ≤ time.nanos := by
  by_cases hlater : n ≤ m.world.time.nanos
  · exact ⟨m.world.height, m.world.time, RunWhere.refl m, h, hlater⟩
  · have hstep : Step d m.world (.nextBlock (m.world.height + 1) ⟨n⟩)
        { m.world with height := m.world.height + 1, time := ⟨n⟩ } := by
      show m.world.nextBlock (m.world.height + 1) ⟨n⟩ = _
      unfold World.nextBlock
      rw [if_pos ⟨Nat.lt_succ_self _, not_le.1 hlater, hn⟩]
    exact ⟨m.world.height + 1, ⟨n⟩, run_act (a := .nextBlock _ _) trivial trivial hstep,
      ⟨h.reachable.tail hstep, h.executed, h.inFlight, h.paused⟩, le_rfl⟩

/-- Some account is neither of the two contracts. -/
theorem exists_user (d : Deployment) : ∃ sender, sender ≠ d.core ∧ sender ≠ d.puppeteer := by
  refine ⟨d.core ++ d.puppeteer ++ "x", ?_, ?_⟩
  · intro h
    have hlength := congrArg String.length h
    simp only [String.length_append] at hlength
    have : "x".length = 1 := rfl
    omega
  · intro h
    have hlength := congrArg String.length h
    simp only [String.length_append] at hlength
    have : "x".length = 1 := rfl
    omega

/-- What may arrive on the account can arrive before the next tick. -/
theorem run_arrivals {more : ℕ} (hmore : more ∈ AddSubmonoid.closure c.arrivals) :
    RunWhere (Chains.Step d) (Upkeep c) m
      { m with remote := { m.remote with balance := m.remote.balance + more } } := by
  induction hmore using AddSubmonoid.closure_induction generalizing m with
  | mem amount hamount => exact RunWhere.single (a := .receive amount) hamount rfl
  | zero => exact RunWhere.refl m
  | add x y _ _ hx hy =>
    rw [← Nat.add_assoc]
    exact hx.trans hy

/-- An arrival is no packet. -/
theorem Resting.receive (h : Resting d m) {more : ℕ} :
    Resting d { m with remote := { m.remote with balance := m.remote.balance + more } } where
  reachable := h.reachable
  executed := h.executed
  inFlight := h.inFlight
  paused := h.paused

/-- A tick whose messages go through can be made by somebody. -/
theorem run_tick {core : Core.Storage} {msgs : List Core.CoreMsg} {after : World}
    (hanswers : answers ∈ c.answers) (hreflected : m.Reflected)
    (htick : ∀ info : MessageInfo, info.funds = [] →
      Core.executeTick m.world.core (m.world.querier d answers) (m.world.env d) info =
        .ok (core, msgs))
    (hwired : Wired d core.config)
    (hafter : ({ m.world with core := core } : World).dispatchAll d answers.addrValidate msgs =
      some after) :
    RunWhere (Chains.Step d) (Upkeep c) m { m with world := after.noteEntered m.world } := by
  obtain ⟨sender, hcore, hpuppeteer⟩ := exists_user d
  refine run_act (a := .execute answers sender [] .tick) ⟨hanswers, hreflected⟩ trivial ?_
  have hexec : Core.execute m.world.core (m.world.querier d answers) (m.world.env d) ⟨sender, []⟩
      .tick = .ok (core, msgs) := htick ⟨sender, []⟩ rfl
  show m.world.execute d answers sender [] .tick = _
  simp only [World.execute, Option.bind_eq_bind, Option.bind_eq_some_iff, Option.guard_eq_some',
    toOption_eq_some]
  exact ⟨(), ⟨hcore, hpuppeteer⟩, m.world.bank, rfl, (core, msgs), hexec, (), hwired, after,
    hafter, rfl⟩

/-- A tick without a message, which leads to `Idle`. -/
theorem canReachIdle_of_tick (core : Core.Storage) (h : Resting d m)
    (hanswers : answers ∈ c.answers) (hreflected : m.Reflected)
    (htick : ∀ info : MessageInfo, info.funds = [] →
      Core.executeTick m.world.core (m.world.querier d answers) (m.world.env d) info =
        .ok (core, []))
    (hidle : core.fsmState = .idle) : CanReachIdle d c m := by
  have hconfig : core.config = m.world.core.config :=
    (Core.executeTick_ok (htick ⟨"", []⟩ rfl)).2.frame.config
  have hwired : Wired d core.config := by
    rw [hconfig]
    exact (flowInv_of_reachable h.reachable).wired
  exact ⟨_, run_tick hanswers hreflected htick hwired rfl, hidle⟩

/-! ## Packets -/

/-- The outcome of an awaited packet can arrive, and core accepts it. -/
theorem exists_delivered (h : Reachable d w) {p : Packet} (hmem : w.inFlight = [p])
    (hstate : w.core.fsmState ≠ .idle) (outcome : World.Outcome) :
    ∃ w', Step d w (.deliver p.seq outcome) w' ∧ w'.inFlight = [] ∧
      Core.HookFrame w.core w'.core (p.outcomeMsg outcome) ∧
      w'.core.collectedFees = w.core.collectedFees ∧ w'.nextSeq = w.nextSeq ∧ w'.time = w.time ∧
      w'.puppeteer.ica = if outcome = .timeout then .timeout else w.puppeteer.ica := by
  have hflow := flowInv_of_reachable h
  have hfind : w.inFlight.find? (fun p' => p'.seq = p.seq) = some p := by
    rw [hmem]
    simp
  have hstep : ∃ w', Step d w (.deliver p.seq outcome) w' := by
    refine ⟨((w.settle d p outcome).report d p.seq outcome).getD (w.settle d p outcome), ?_⟩
    show w.deliver d p.seq outcome = _
    simp only [World.deliver, hfind, Option.bind_eq_bind, Option.bind_some]
  obtain ⟨w', hstep⟩ := hstep
  refine ⟨w', hstep, ?_⟩
  cases step_cases hflow.wired hstep with
  | environment _ _ henvironment => cases henvironment
  | accepted _ _ p' txState transaction core _ hp htx hwaiting htrans hhook hcore _ _ hinFlight _ _
      hnext _ htime _ hica =>
    rw [hfind] at hp
    obtain rfl := Option.some.inj hp
    obtain ⟨-, -, rfl⟩ := hflow.of_accepted hfind htx htrans
    rw [← hcore] at hhook
    refine ⟨?_, Core.executePuppeteerHook_ok hhook, Core.hook_fees hhook, hnext, htime, hica⟩
    rw [hinFlight, hmem]
    simp
  | refused _ _ p' _ hp hrefused =>
    rw [hfind] at hp
    obtain rfl := Option.some.inj hp
    obtain ⟨-, -, htx⟩ := hflow.of_find hfind
    exact absurd (hflow.idle_of_refused hmem htx hrefused) hstate

/-- The balance of the account after a packet has ended. -/
def Remote.after (r : Remote) (d : Deployment) (remoteDenom : String) (t : Transaction) :
    World.Outcome → ℕ
  | .response => r.balance + t.brings d.baseDenom - t.takes remoteDenom
  | .error _ | .timeout => r.balance

/-- What the end of the packet `p` has made of a state in which core has the storage `core` and
sends `funds` with the packet. -/
structure Ended (d : Deployment) (m : Chains) (core : Core.Storage) (funds : List Coin) (p : Packet)
    (outcome : World.Outcome) (m' : Chains) : Prop where
  resting : Resting d m'
  hook : Core.HookFrame core m'.world.core (p.outcomeMsg outcome)
  fees : m'.world.core.collectedFees = core.collectedFees
  time : m'.world.time = m.world.time
  ica : m'.world.puppeteer.ica = if outcome = .timeout then .timeout else m.world.puppeteer.ica
  spent : ∀ denom, m'.world.bank.balance d.core denom + coinsOf funds denom =
    m.world.bank.balance d.core denom
  balance : m'.remote.balance =
    m.remote.after d m.world.puppeteer.config.remoteDenom p.transaction outcome

/-- A packet that the account can pay for can end in every way: it runs first when it succeeds. -/
theorem run_ended (h : Reachable d m.world) (hpaused : m.world.core.isPaused = false)
    (hexecuted : ∀ seq ∈ m.executed, seq < m.world.nextSeq) {p : Packet}
    (hmem : m.world.inFlight = [p]) (hnew : p.seq ∉ m.executed)
    (hstate : m.world.core.fsmState ≠ .idle) (c : Circumstances) (outcome : World.Outcome)
    (hpays : outcome = .response →
      p.transaction.takes m.world.puppeteer.config.remoteDenom ≤ m.remote.balance ∧
        p.transaction.undelegates + p.transaction.tokenizes ≤ m.remote.delegated) :
    ∃ m', RunWhere (Chains.Step d) (Upkeep c) m m' ∧
      Ended d m m.world.core [] p outcome m' := by
  obtain ⟨w', hstep, hnil, hhook, hfees, hnext, htime, hica⟩ :=
    exists_delivered h hmem hstate outcome
  have hseq : p.seq < m.world.nextSeq :=
    (flowInv_of_reachable h).seq_lt p (by rw [hmem]; exact List.mem_singleton_self p)
  have hpaused' : w'.core.isPaused = false := by
    rw [hhook.isPaused]
    exact hpaused
  have hspent : ∀ denom, w'.bank.balance d.core denom + coinsOf [] denom =
      m.world.bank.balance d.core denom := balance_deliver hstep d.core_ne_puppeteer
  by_cases hresponse : outcome = .response
  · subst hresponse
    obtain ⟨htakes, hdelegated⟩ := hpays rfl
    -- the packet runs, and its success is reported
    have hran : m.Step d (.run p.seq (m.remote.delegated + p.transaction.delegates))
        { m with
          remote := ⟨m.remote.delegated + p.transaction.delegates, m.remote.balance +
            p.transaction.brings d.baseDenom -
              p.transaction.takes m.world.puppeteer.config.remoteDenom⟩
          executed := p.seq :: m.executed } := by
      simp [Chains.Step, Chains.exec, Chains.runPacket, Remote.apply, hmem, hnew, htakes,
        hdelegated]
    have hrun : RunWhere (Chains.Step d) (Upkeep c) m _ :=
      RunWhere.single (a := .run _ _) trivial hran
    refine ⟨_, hrun.trans (run_act (a := .deliver p.seq .response) trivial
        (iff_of_true rfl List.mem_cons_self) hstep),
      ⟨h.tail hstep, ?_, hnil, hpaused'⟩, hhook, hfees, htime, hica, hspent, rfl⟩
    intro seq hmem'
    rw [hnext]
    rcases List.mem_cons.1 hmem' with rfl | hmem'
    · exact hseq
    · exact hexecuted seq hmem'
  · refine ⟨_, run_act (a := .deliver p.seq outcome) trivial (iff_of_false hresponse hnew) hstep,
      ⟨h.tail hstep, by rw [hnext]; exact hexecuted, hnil, hpaused'⟩, hhook, hfees, htime, hica,
      hspent, ?_⟩
    cases outcome with
    | response => exact absurd rfl hresponse
    | error details => rfl
    | timeout => rfl

/-- **A tick whose request the puppeteer takes, and the end of its packet.** -/
theorem exists_ended (h : Resting d m) (hanswers : answers ∈ c.answers) (hreflected : m.Reflected)
    {core : Core.Storage} {msg : PuppeteerExecuteMsg} {funds : List Coin}
    (htick : ∀ info : MessageInfo, info.funds = [] →
      Core.executeTick m.world.core (m.world.querier d answers) (m.world.env d) info =
        .ok (core, [.puppeteer m.world.core.config.puppeteerContract msg funds]))
    (hcall : ∃ after, ({ m.world with core := core } : World).callPuppeteer d
      answers.addrValidate ⟨d.core, funds⟩ msg = some after)
    (hstate : core.fsmState ≠ .idle) (outcome : World.Outcome)
    (hpays : outcome = .response → ∀ ica t replyTo,
      Puppeteer.Requests m.world.puppeteer.config ica (mergeCoins funds) msg t replyTo →
        t.takes m.world.puppeteer.config.remoteDenom ≤ m.remote.balance ∧
          t.undelegates + t.tokenizes ≤ m.remote.delegated) :
    ∃ (m' : Chains) (p : Packet) (ica replyTo : String),
      RunWhere (Chains.Step d) (Upkeep c) m m' ∧
      Puppeteer.Requests m.world.puppeteer.config ica (mergeCoins funds) msg p.transaction
        replyTo ∧ Ended d m core funds p outcome m' := by
  have hflow := flowInv_of_reachable h.reachable
  have hcase := (Core.executeTick_ok (htick ⟨"", []⟩ rfl)).2
  have hframe := hcase.frame
  obtain ⟨after, hcall⟩ := hcall
  obtain ⟨hsame, -, htime, ⟨-, hsetup⟩ | ⟨p, hsub⟩⟩ := callPuppeteer_ok hcall
  · obtain ⟨hregister, hfees⟩ := tick_requests hcase
    rcases hsetup with hsetup | ⟨r, a, t, f, hsetup⟩
    · exact absurd hsetup hregister
    · exact absurd hsetup (hfees r a t f)
  have hafter : ({ m.world with core := core } : World).dispatchAll d answers.addrValidate
      [.puppeteer m.world.core.config.puppeteerContract msg funds] = some after := by
    simp only [World.dispatchAll, World.dispatch, hflow.wired.puppeteer, ↓reduceIte, hcall,
      Option.bind_eq_bind, Option.bind_some]
  have hrun : RunWhere (Chains.Step d) (Upkeep c) m
      { m with world := after.noteEntered m.world } :=
    run_tick hanswers hreflected htick (by rw [hframe.config]; exact hflow.wired) hafter
  have hreach : Reachable d (after.noteEntered m.world) := by
    refine RunWhere.preserves (P := fun m => Reachable d m.world) ?_ hrun h.reachable
    intro m a m' _ hstep hm
    exact reachable_of_chainsStep hstep hm
  obtain rfl : after.core = core := hsame.core
  have hmem : after.inFlight = [p] := by
    rw [hsub.inFlight]
    show m.world.inFlight ++ [p] = [p]
    rw [h.inFlight, List.nil_append]
  have hnew : p.seq ∉ m.executed := by
    rw [hsub.seq]
    exact fun hmem => absurd (h.executed _ hmem) (lt_irrefl _)
  have hexecuted : ∀ seq ∈ m.executed, seq < after.nextSeq := by
    intro seq hseq
    rw [hsub.nextSeq]
    exact (h.executed seq hseq).trans (Nat.lt_succ_self _)
  obtain ⟨ica, replyTo, -, hrequests, -⟩ := hsub.requested
  have hconfig : after.puppeteer.config = m.world.puppeteer.config := hsub.config
  have hpaused : after.core.isPaused = false := hframe.isPaused.trans h.paused
  obtain ⟨m', hrun', hended⟩ :=
    run_ended (m := { m with world := after.noteEntered m.world }) hreach hpaused hexecuted hmem
      hnew hstate c outcome fun hresponse => by
        show p.transaction.takes after.puppeteer.config.remoteDenom ≤ _ ∧ _
        rw [hconfig]
        exact hpays hresponse ica p.transaction replyTo hrequests
  refine ⟨m', p, ica, replyTo, hrun.trans hrun', hrequests, hended.resting, hended.hook,
    hended.fees, hended.time.trans htime, ?_, fun denom => ?_, ?_⟩
  · rw [hended.ica]
    show (if outcome = .timeout then _ else after.puppeteer.ica) = _
    rw [hsub.ica]
  · obtain ⟨bank, hbank, hkept⟩ := callPuppeteer_balance hcall
    obtain ⟨hsent, -⟩ := Bank.balance_send hbank d.core_ne_puppeteer denom
    rw [coinsOf_mergeCoins] at hsent
    rw [← hsent, ← hkept _ d.core_ne_puppeteer denom]
    exact congrArg (· + coinsOf funds denom) (hended.spent denom)
  · rw [hended.balance, ← hconfig]
    rfl

/-! ## Requests -/

/-- The submission of a packet goes through when the puppeteer has the coin that it sends. -/
theorem exists_submit {msg : Puppeteer.NeutronMsg} {transaction : Transaction} {replyTo : String}
    (hpacket : msg.isPacket = true)
    (htx : w.puppeteer.txState = some ⟨.inProgress, none, some transaction, some replyTo⟩)
    (hcoin : ∀ port channel token sender receiver timeout fee,
      msg = .ibcTransfer port channel token sender receiver timeout fee →
        token.amount ≤ w.bank.balance d.puppeteer token.denom) :
    ∃ w', w.submit d msg = some w' := by
  have hreply : ∀ v : World, v.puppeteer = w.puppeteer → ∃ w', v.reply msg = some w' := by
    intro v hv
    rw [← hv] at htx
    simp only [World.reply, Puppeteer.Storage.currentTxState, htx, Option.getD_some,
      Option.bind_eq_bind, Option.bind_some, Puppeteer.submitTxReply, orError, ok_bind,
      pure_eq_ok, Except.toOption]
    exact ⟨_, rfl⟩
  cases msg with
  | submitTx connectionId icaId msgs timeout fee => exact hreply w rfl
  | ibcTransfer port channel token sender receiver timeout fee =>
    have hle := hcoin _ _ _ _ _ _ _ rfl
    simp only [World.submit, Bank.debitCoin, hle, ↓reduceIte, Option.bind_eq_bind,
      Option.bind_some]
    exact hreply { w with bank := _ } rfl
  | registerInterchainAccount _ _ _ => cases hpacket

/-- A request that the puppeteer accepts is submitted. -/
theorem exists_call {addrValidate : String → Bool} {info : MessageInfo} {bank : Bank}
    {msg : PuppeteerExecuteMsg} {transaction : Transaction} {replyTo : String}
    {out : Puppeteer.NeutronMsg} {x : Puppeteer.Result (Puppeteer.Storage × Puppeteer.NeutronMsg)}
    (hbank : w.bank.send info.sender d.puppeteer (mergeCoins info.funds) = some bank)
    (hexec : Puppeteer.execute w.puppeteer addrValidate ⟨info.sender, mergeCoins info.funds⟩
      (w.puppeteerEnv d) msg = Puppeteer.sending x)
    (hx : x = .ok (Puppeteer.msgWithSudoCallback w.puppeteer transaction replyTo, out))
    (hpacket : out.isPacket = true)
    (hcoin : ∀ port channel token sender receiver timeout fee,
      out = .ibcTransfer port channel token sender receiver timeout fee →
        token.amount ≤ bank.balance d.puppeteer token.denom) :
    ∃ w', w.callPuppeteer d addrValidate info msg = some w' := by
  obtain ⟨w', hw'⟩ := exists_submit (d := d)
    (w := { w with
      bank := bank
      puppeteer := Puppeteer.msgWithSudoCallback w.puppeteer transaction replyTo })
    hpacket rfl hcoin
  refine ⟨w', ?_⟩
  have hsent : Puppeteer.execute w.puppeteer addrValidate ⟨info.sender, mergeCoins info.funds⟩
      (w.puppeteerEnv d) msg =
        .ok (Puppeteer.msgWithSudoCallback w.puppeteer transaction replyTo, some out) := by
    rw [hexec, hx]
    rfl
  simp only [World.callPuppeteer, Option.bind_eq_bind, Option.bind_eq_some_iff, toOption_eq_some]
  exact ⟨bank, hbank, _, hsent, hw'⟩

section Requests

variable (addrValidate : String → Bool) {ica : String} {fee : IbcFee} (core : Core.Storage)
  (hallowed : w.puppeteer.config.allowedSenders = [d.core])
  (hidle : w.puppeteer.currentTxState.status = .idle)
  (hica : w.puppeteer.ica = .registered ica) (hfee : w.puppeteer.ibcFee = some fee)

include hallowed hidle hica hfee

/-- Core can ask a puppeteer that waits for nothing to delegate. -/
theorem exists_delegate (items : List (String × ℕ)) (timeout : Option ℕ)
    (hvalid : addrValidate d.core = true) :
    ∃ w', ({ w with core := core } : World).callPuppeteer d addrValidate ⟨d.core, []⟩
      (.delegate items timeout d.core) = some w' := by
  have hsender : d.core ∈ w.puppeteer.config.allowedSenders := by
    rw [hallowed]
    exact List.mem_singleton_self _
  have hdelegate : Puppeteer.executeDelegate w.puppeteer addrValidate ⟨d.core, []⟩ items timeout
      d.core = .ok (Puppeteer.msgWithSudoCallback w.puppeteer
        (.delegate Puppeteer.ICA_ID w.puppeteer.config.remoteDenom items) d.core,
        .submitTx w.puppeteer.config.connectionId Puppeteer.ICA_ID
          (items.map fun item => .delegate ica item.1 ⟨w.puppeteer.config.remoteDenom, item.2⟩)
          (timeout.getD Puppeteer.DEFAULT_TIMEOUT_SECONDS) fee) :=
    Puppeteer.submitTx_eq_ok.2 ⟨hvalid, hsender, hidle, ica, fee, hica, hfee, rfl, rfl⟩
  exact exists_call (w := { w with core := core }) rfl rfl hdelegate rfl (by simp)

/-- Core can ask a puppeteer that waits for nothing to claim. -/
theorem exists_claim (validators : List String) (transfer : Option TransferReadyBatchesMsg)
    (timeout : Option ℕ) (hvalid : addrValidate d.core = true) :
    ∃ w', ({ w with core := core } : World).callPuppeteer d addrValidate ⟨d.core, []⟩
      (.claimRewardsAndOptionalyTransfer validators transfer timeout d.core) = some w' := by
  have hsender : d.core ∈ w.puppeteer.config.allowedSenders := by
    rw [hallowed]
    exact List.mem_singleton_self _
  have hclaim : Puppeteer.executeClaimRewardsAndOptionalyTransfer w.puppeteer addrValidate
      ⟨d.core, []⟩ validators transfer timeout d.core = .ok (Puppeteer.msgWithSudoCallback
        w.puppeteer (.claimRewardsAndOptionalyTransfer Puppeteer.ICA_ID validators
          w.puppeteer.config.remoteDenom transfer) d.core, _) :=
    Puppeteer.submitTx_eq_ok.2 ⟨hvalid, hsender, hidle, ica, fee, hica, hfee, rfl, rfl⟩
  exact exists_call (w := { w with core := core }) rfl rfl hclaim rfl (by simp)

/-- Core can ask a puppeteer that waits for nothing to transfer what core has of a denomination
that is not the one of fees. -/
theorem exists_ibcTransfer {denom : String} (timeout : ℕ) (hdenom : denom ≠ Puppeteer.LOCAL_DENOM)
    (hpending : w.bank.balance d.core denom ≠ 0)
    (hfit : w.time.nanos + timeout * nanosPerSecond < U64.bound) :
    ∃ w', ({ w with core := core } : World).callPuppeteer d addrValidate
      ⟨d.core, [⟨denom, w.bank.balance d.core denom⟩]⟩ (.ibcTransfer timeout .stake d.core) =
        some w' := by
  have hsender : d.core ∈ w.puppeteer.config.allowedSenders := by
    rw [hallowed]
    exact List.mem_singleton_self _
  have hmerged : mergeCoins [⟨denom, w.bank.balance d.core denom⟩] =
      [⟨denom, w.bank.balance d.core denom⟩] := mergeCoins_singleton hpending
  obtain ⟨bank, hbank⟩ : ∃ bank, w.bank.send d.core d.puppeteer
      [⟨denom, w.bank.balance d.core denom⟩] = some bank :=
    Bank.exists_send_singleton le_rfl
  have hpaid := Bank.balance_send_singleton hbank d.core_ne_puppeteer
  rw [← hmerged] at hbank
  have htransfer : Puppeteer.executeIbcTransfer w.puppeteer
      ⟨d.core, [⟨denom, w.bank.balance d.core denom⟩]⟩ (w.puppeteerEnv d) .stake timeout d.core =
      .ok (Puppeteer.msgWithSudoCallback w.puppeteer
        (.ibcTransfer denom (w.bank.balance d.core denom) ica .stake) d.core,
        .ibcTransfer w.puppeteer.config.portId w.puppeteer.config.transferChannelId
          ⟨denom, w.bank.balance d.core denom⟩ d.puppeteer ica
          (w.time.nanos + timeout * nanosPerSecond) fee) := by
    simp only [Puppeteer.executeIbcTransfer, Puppeteer.validateSender, Timestamp.plusSeconds,
      bind_eq_ok, ensure_eq_ok, Puppeteer.validateTxState_eq_ok, Puppeteer.onlyCoin_eq_ok,
      Puppeteer.getAddress_eq_ok, orError_eq_ok, checkedMul_eq_ok, checkedAdd_eq_ok, pure_eq_ok]
    exact ⟨(), hsender, (), hidle, ⟨denom, w.bank.balance d.core denom⟩, by simp [hdenom], ica,
      hica, _, ⟨_, ⟨rfl, by omega⟩, _, ⟨rfl, hfit⟩, rfl⟩, fee, hfee, rfl⟩
  refine exists_call (w := { w with core := core }) hbank (by rw [hmerged]; rfl) htransfer rfl ?_
  intro port channel token sender receiver timeout fee hm
  obtain ⟨-, -, rfl, -⟩ := Puppeteer.NeutronMsg.ibcTransfer.inj hm
  exact hpaid ▸ Nat.le_add_left _ _

end Requests

/-! ## The way back -/

/-- From `Staking`, after a delegation that succeeded. -/
theorem canReachIdle_of_staking (h : Resting d m) (hanswers : answers ∈ c.answers)
    (hstate : m.world.core.fsmState = .staking)
    {r : ResponseHookMsg} (hresponse : m.world.core.lastPuppeteerResponse = some r)
    (hsuccess : r.isError = false) {batch : Core.UnbondBatch}
    (hbatch : m.world.core.unbondBatches.load m.world.core.nextBatchId = some batch)
    (hfit : batch.SwitchFits m.world.core.config) : CanReachIdle d c m := by
  obtain ⟨height, time, hrun, hlater, hlate⟩ := exists_later h hfit
  refine CanReachIdle.of_run (hrun.trans run_reported)
    (canReachIdle_of_tick { m.world.core with
      lastPuppeteerResponse := none
      fsmState := .idle }
      hlater.reported hanswers reflected_reported ?_ rfl)
  intro info _
  refine (Core.executeTick_staking h.paused hstate hresponse hsuccess).trans ?_
  exact Core.unbondOrIdle_of_closed (by rw [hstate]; decide) hbatch
    (Core.UnbondBatch.isReady_of_late hfit hlate)

/-- From `Unbonding`, when the release of the batch can be computed or is not needed. -/
theorem canReachIdle_of_unbonding (h : Resting d m) (hanswers : answers ∈ c.answers)
    (hstate : m.world.core.fsmState = .unbonding)
    (hrelease : ∀ r, m.world.core.lastPuppeteerResponse = some r → r.isError = false →
      m.world.time.seconds + m.world.core.config.unbondingPeriod < U64.bound) :
    CanReachIdle d c m := by
  have hpayout := payoutInv_of_reachable h.reachable
  obtain ⟨-, r, hresponse, hawaits, -⟩ :=
    (flowInv_of_reachable h.reachable).answered h.inFlight (by simp [hstate])
  rw [hstate] at hawaits
  cases htransaction : r.transaction with
  | undelegate account items denom batchId =>
    have hsucc := hpayout.fits.undelegated hstate r account items denom batchId hresponse
      htransaction
    obtain ⟨unbond, hunbond⟩ := (hpayout.batches.stored batchId).2 (by omega)
    obtain ⟨t, hprocess, hkept⟩ : ∃ t, Core.processUndelegateResponse m.world.core (m.world.env d)
        m.world.core.config r = .ok t ∧ t.fsmState = m.world.core.fsmState :=
      Core.processUndelegateResponse_of_stored htransaction hunbond (hrelease r hresponse)
    refine CanReachIdle.of_run run_reported (canReachIdle_of_tick { t with fsmState := .idle }
      h.reported hanswers reflected_reported ?_ rfl)
    intro info _
    exact Core.executeTick_unbonding h.paused hstate hresponse hprocess (by rw [hkept, hstate])
  | _ => simp [htransaction, awaits] at hawaits

section Stake

/-- A tick comes to the stake, with these batches, as long as core has the same balances. -/
def ComesToStake (d : Deployment) (w : World) (batches : StorageMap ℕ Core.UnbondBatch) : Prop :=
  ∀ (q : Core.Querier) (env : Env) (info : MessageInfo), q.balance = w.bank.balance d.core →
    Core.executeTick w.core q env info =
      Core.stakeOrUnbond { w.core with lastPuppeteerResponse := none, unbondBatches := batches }
        q env info w.core.config

variable {batches : StorageMap ℕ Core.UnbondBatch} {batch : Core.UnbondBatch}

/-- From a state whose tick comes to the stake, when the balance of the account is below the
minimum: the stake is passed over. -/
theorem canReachIdle_of_below (h : Resting d m) (hanswers : answers ∈ c.answers)
    (hmem : (⟨m.world.core.fsmState, .idle⟩ : Transition Core.ContractState) ∈ Core.TRANSITIONS)
    (htick : ComesToStake d m.world batches)
    (hbatch : batches.load m.world.core.nextBatchId = some batch)
    (hfit : batch.SwitchFits m.world.core.config)
    (hbelow : m.remote.balance < m.world.core.config.minStakeAmount) :
    CanReachIdle d c m := by
  obtain ⟨height, time, hrun, hlater, hlate⟩ := exists_later h hfit
  refine CanReachIdle.of_run (hrun.trans run_reported)
    (canReachIdle_of_tick { m.world.core with
      lastPuppeteerResponse := none
      unbondBatches := batches
      fsmState := .idle }
      hlater.reported hanswers reflected_reported ?_ rfl)
  intro info _
  refine (htick _ _ _ rfl).trans ?_
  rw [Core.stakeOrUnbond_of_below rfl (by
    refine lt_of_eq_of_lt ?_ hbelow
    exact reflected_reported.balance)]
  exact Core.unbondOrIdle_of_closed hmem hbatch (Core.UnbondBatch.isReady_of_late hfit hlate)

/-- From a state whose tick comes to the stake, when the balance of the account can be delegated:
the delegation succeeds, and core is staking. -/
theorem canReachIdle_of_fits (h : Resting d m) (hanswers : answers ∈ c.answers)
    (hactive : m.world.core.fsmState ≠ .idle)
    (hmem : (⟨m.world.core.fsmState, .staking⟩ : Transition Core.ContractState) ∈
      Core.TRANSITIONS)
    (htick : ComesToStake d m.world batches)
    (hbatch : batches.load m.world.core.nextBatchId = some batch)
    (hfit : batch.SwitchFits m.world.core.config)
    (hmin : m.world.core.config.minStakeAmount ≤ m.remote.balance) {ica : String}
    (hica : m.world.puppeteer.ica = .registered ica)
    (hfits : Core.StakeFits m.world.core.config m.world.core.collectedFees answers.calcDeposit
      m.remote.balance)
    (hvalid : answers.addrValidate d.core = true) (hatMost : answers.DepositsAtMost) :
    CanReachIdle d c m := by
  have hflow := flowInv_of_reachable h.reachable
  have hidle := (hflow.answered h.inFlight hactive).1
  obtain ⟨fee, hfee⟩ := Option.ne_none_iff_exists'.1
    ((feesInv_of_reachable h.reachable).known hactive)
  have hbalance : Core.icaBalance (Puppeteer.queryBalances (m.reported d).world.puppeteer)
      m.world.core.config.remoteDenom = m.remote.balance := reflected_reported.balance
  rw [← hbalance] at hmin hfits
  obtain ⟨fees, plan, hplan, hstake⟩ := Core.stakeOrUnbond_of_fits
    (s := { m.world.core with lastPuppeteerResponse := none, unbondBatches := batches })
    (q := (m.reported d).world.querier d answers) rfl hmin
    (changeHeight_le_of_reachable h.reachable) hfits hmem
  rw [hbalance] at hplan
  have hcall := exists_delegate answers.addrValidate (w := (m.reported d).world) { m.world.core with
      lastPuppeteerResponse := none
      unbondBatches := batches
      collectedFees := fees
      fsmState := .staking } hflow.allowed hidle hica hfee
    (plan.map fun d => (d.valoperAddress, d.stakeChange))
    (some m.world.core.config.puppeteerTimeout) hvalid
  obtain ⟨m', p, ica', replyTo, hrun, hrequests, hended⟩ := exists_ended h.reported
    hanswers reflected_reported (fun info hfunds => by
      refine (htick _ _ _ rfl).trans ((hstake _ _).trans ?_)
      rw [hfunds]
      rfl) hcall (by simp) .response (by
      rintro - _ _ _ ⟨⟩
      refine ⟨?_, Nat.zero_le _⟩
      have hsum := hatMost _ _ hplan
      simp only [Transaction.takes, List.map_map]
      show (plan.map IdealDelegation.stakeChange).sum ≤ m.remote.balance
      omega)
  have hsuccess : (p.outcomeMsg .response).isError = false := rfl
  refine CanReachIdle.of_run (run_reported.trans hrun)
    (canReachIdle_of_staking hended.resting hanswers ?_ hended.hook.lastPuppeteerResponse hsuccess
      (hended.hook.load_nextBatch.trans hbatch) ?_)
  · rw [hended.hook.fsmState, hsuccess]
    rfl
  · rw [hended.hook.config]
    exact hfit

/-- From a state whose tick comes to the stake, once enough has arrived. -/
theorem canReachIdle_of_stake (h : Resting d m) (hnonempty : c.answers.Nonempty)
    (hstate : m.world.core.fsmState = .claiming ∨ m.world.core.fsmState = .transfering)
    (htick : ComesToStake d m.world batches)
    (hbatch : batches.load m.world.core.nextBatchId = some batch)
    (hfit : batch.SwitchFits m.world.core.config)
    (hcan : m.world.CanStake c m.remote.balance)
    (hvalid : ∀ answers ∈ c.answers, answers.addrValidate d.core = true)
    (hatMost : ∀ answers ∈ c.answers, answers.DepositsAtMost) :
    CanReachIdle d c m := by
  obtain ⟨more, hmore, hpasses⟩ := hcan
  refine CanReachIdle.of_run (run_arrivals hmore) ?_
  by_cases hmin : m.remote.balance + more < m.world.core.config.minStakeAmount
  · obtain ⟨answers, hanswers⟩ := hnonempty
    refine canReachIdle_of_below h.receive hanswers ?_ htick hbatch hfit hmin
    rcases hstate with hstate | hstate <;> rw [hstate] <;> decide
  · obtain ⟨⟨ica, hica⟩, answers, hanswers, hfits⟩ := hpasses.resolve_left hmin
    refine canReachIdle_of_fits h.receive hanswers ?_ ?_ htick hbatch hfit (not_lt.1 hmin) hica
      hfits (hvalid _ hanswers) (hatMost _ hanswers)
    · rcases hstate with hstate | hstate <;> simp [hstate]
    · rcases hstate with hstate | hstate <;> rw [hstate] <;> decide

end Stake

/-- From `Transfering`. -/
theorem canReachIdle_of_transfering (h : Resting d m) (hnonempty : c.answers.Nonempty)
    (hstate : m.world.core.fsmState = .transfering) {batch : Core.UnbondBatch}
    (hbatch : m.world.core.unbondBatches.load m.world.core.nextBatchId = some batch)
    (hfit : batch.SwitchFits m.world.core.config)
    (hcan : m.world.CanStake c m.remote.balance)
    (hvalid : ∀ answers ∈ c.answers, answers.addrValidate d.core = true)
    (hatMost : ∀ answers ∈ c.answers, answers.DepositsAtMost) :
    CanReachIdle d c m := by
  obtain ⟨-, r, hresponse, -, -⟩ :=
    (flowInv_of_reachable h.reachable).answered h.inFlight (by simp [hstate])
  refine canReachIdle_of_stake h hnonempty (.inr hstate) ?_ hbatch hfit hcan hvalid hatMost
  intro q env info _
  exact Core.executeTick_transfering h.paused hstate hresponse

/-- In `Claiming`, the outcome that has arrived can be processed, and the batch that core looks at
next keeps the time it was created at. -/
theorem exists_claimProcessed (h : Reachable d w) (hinFlight : w.inFlight = [])
    (hstate : w.core.fsmState = .claiming) {batch : Core.UnbondBatch}
    (hbatch : w.core.unbondBatches.load w.core.nextBatchId = some batch)
    (hfit : batch.SwitchFits w.core.config) :
    ∃ r batches batch', w.core.lastPuppeteerResponse = some r ∧
      Core.processClaimResponse { w.core with lastPuppeteerResponse := none } r =
        .ok { w.core with lastPuppeteerResponse := none, unbondBatches := batches } ∧
      batches.load w.core.nextBatchId = some batch' ∧ batch'.SwitchFits w.core.config := by
  obtain ⟨-, r, hresponse, hawaits, -⟩ :=
    (flowInv_of_reachable h).answered hinFlight (by simp [hstate])
  -- the batches that the response lists are stored, so it can be processed
  have hprocess : ∃ t, Core.processClaimResponse { w.core with lastPuppeteerResponse := none } r =
      .ok t := by
    rw [Core.processClaimResponse_returns_iff]
    rw [hstate] at hawaits
    refine .inr ⟨?_, fun id hid => ?_⟩
    · cases htransaction : r.transaction <;> simp_all [awaits]
    · obtain ⟨b, hb, -⟩ := (payoutInv_of_reachable h).fits.listed r hresponse id hid
      exact ⟨b, hb⟩
  obtain ⟨t, hprocess⟩ := hprocess
  obtain ⟨batches, emergency, rfl, hload⟩ := Core.processClaimResponse_ok hprocess
  have hnext : ∃ batch', batches.load w.core.nextBatchId = some batch' ∧
      batch'.SwitchFits w.core.config := by
    rw [hload, hbatch]
    split_ifs
    · exact ⟨batch.withdrawn emergency, rfl, hfit⟩
    · exact ⟨batch, rfl, hfit⟩
  obtain ⟨batch', hbatch', hfit'⟩ := hnext
  exact ⟨r, batches, batch', hresponse, hprocess, hbatch', hfit'⟩

/-- From a claiming state with a balance to transfer, the transfer can end in every way. -/
theorem exists_transferred (h : Resting d m) (hstate : m.world.core.fsmState = .claiming)
    {r : ResponseHookMsg} {batches : StorageMap ℕ Core.UnbondBatch}
    (hresponse : m.world.core.lastPuppeteerResponse = some r)
    (hprocess : Core.processClaimResponse { m.world.core with lastPuppeteerResponse := none } r =
      .ok { m.world.core with lastPuppeteerResponse := none, unbondBatches := batches })
    (hpending : m.world.bank.balance d.core m.world.core.config.baseDenom ≠ 0)
    (htime : m.world.time.nanos + m.world.core.config.puppeteerTimeout * nanosPerSecond < U64.bound)
    {ica : String} (hica : m.world.puppeteer.ica = .registered ica) (hanswers : answers ∈ c.answers)
    (outcome : World.Outcome) :
    ∃ (m' : Chains) (p : Packet), RunWhere (Chains.Step d) (Upkeep c) m m' ∧
      Ended d m { m.world.core with
        lastPuppeteerResponse := none
        unbondBatches := batches
        fsmState := .transfering
        pendingTransfer := some (m.world.bank.balance d.core m.world.core.config.baseDenom) }
        [⟨m.world.core.config.baseDenom,
          m.world.bank.balance d.core m.world.core.config.baseDenom⟩] p outcome m' ∧
      m.remote.after d m.world.puppeteer.config.remoteDenom p.transaction .response =
        m.remote.balance + m.world.bank.balance d.core m.world.core.config.baseDenom ∧
      Core.Transaction.resetsOnError p.transaction = false := by
  have hflow := flowInv_of_reachable h.reachable
  have hactive : m.world.core.fsmState ≠ .idle := by simp [hstate]
  have hidle := (hflow.answered h.inFlight hactive).1
  obtain ⟨fee, hfee⟩ := Option.ne_none_iff_exists'.1
    ((feesInv_of_reachable h.reachable).known hactive)
  have hbase := hflow.wired.baseDenom
  have hdenom : m.world.core.config.baseDenom ≠ Puppeteer.LOCAL_DENOM := by
    rw [hbase]
    exact d.base_ne_local
  have hmem : (⟨m.world.core.fsmState, .transfering⟩ : Transition Core.ContractState) ∈
      Core.TRANSITIONS := by
    rw [hstate]
    decide
  have hcall := exists_ibcTransfer answers.addrValidate (w := (m.reported d).world)
    { m.world.core with
      lastPuppeteerResponse := none
      unbondBatches := batches
      fsmState := .transfering
      pendingTransfer := some (m.world.bank.balance d.core m.world.core.config.baseDenom) }
    hflow.allowed hidle hica hfee _ hdenom hpending htime
  obtain ⟨m', p, ica', replyTo, hrun, hrequests, hended⟩ := exists_ended h.reported
    hanswers reflected_reported (fun info hfunds => by
      have htransfer := Core.transferStakeOrUnbond_of_pending
        (s := { m.world.core with lastPuppeteerResponse := none, unbondBatches := batches })
        (q := (m.reported d).world.querier d answers) ((m.reported d).world.env d) info hpending
        hmem
      rw [hfunds] at htransfer
      exact (Core.executeTick_claiming h.paused hstate hresponse hprocess).trans htransfer)
    hcall (by simp) outcome (by
      rintro - _ _ _ ⟨⟩
      exact ⟨Nat.zero_le _, Nat.zero_le _⟩)
  refine ⟨m', p, run_reported.trans hrun, ⟨hended.resting, hended.hook, hended.fees, hended.time,
    hended.ica, hended.spent, hended.balance⟩, ?_, ?_⟩
  · -- the packet carries the balance of core
    generalize p.transaction = transaction at hrequests ⊢
    cases hrequests with
    | ibcTransfer coin _ _ _ hcoin =>
      obtain rfl := coin_of_filter_mergeCoins hpending (decide_eq_true hdenom) hcoin
      simp only [Remote.after, Transaction.brings, Transaction.takes, hbase, ↓reduceIte]
      rfl
  · generalize p.transaction = transaction at hrequests ⊢
    cases hrequests
    rfl

/-- From a claiming state with a balance to transfer, over `Transfering`: the transfer succeeds when
the balance of the account does not stop a tick after it, and fails when it does not as it is. -/
theorem canReachIdle_of_pending (h : Resting d m) (hnonempty : c.answers.Nonempty)
    (hstate : m.world.core.fsmState = .claiming)
    {r : ResponseHookMsg} {batches : StorageMap ℕ Core.UnbondBatch} {batch : Core.UnbondBatch}
    (hresponse : m.world.core.lastPuppeteerResponse = some r)
    (hprocess : Core.processClaimResponse { m.world.core with lastPuppeteerResponse := none } r =
      .ok { m.world.core with lastPuppeteerResponse := none, unbondBatches := batches })
    (hbatch : batches.load m.world.core.nextBatchId = some batch)
    (hfit : batch.SwitchFits m.world.core.config)
    (hpending : m.world.bank.balance d.core m.world.core.config.baseDenom ≠ 0)
    (hclear : ClearWay d c m.world m.remote.balance)
    (hvalid : ∀ answers ∈ c.answers, answers.addrValidate d.core = true)
    (hatMost : ∀ answers ∈ c.answers, answers.DepositsAtMost) :
    CanReachIdle d c m := by
  obtain ⟨htime, ica, hica⟩ := hclear.transfer hstate hpending
  obtain ⟨outcome, houtcome, hcan⟩ : ∃ outcome, outcome ≠ .timeout ∧ ∀ t,
      m.remote.after d m.world.puppeteer.config.remoteDenom t .response =
        m.remote.balance + m.world.bank.balance d.core m.world.core.config.baseDenom →
      m.world.CanStake c
        (m.remote.after d m.world.puppeteer.config.remoteDenom t outcome) := by
    rcases hclear.stake (.inl hstate) with hcan | ⟨-, hcan⟩
    · exact ⟨.error "", by simp, fun _ _ => hcan⟩
    · refine ⟨.response, by simp, fun t hafter => ?_⟩
      rw [hafter]
      exact hcan
  obtain ⟨answers, hanswers⟩ := hnonempty
  obtain ⟨m', p, hrun, hended, hafter, hreset⟩ :=
    exists_transferred h hstate hresponse hprocess hpending htime hica hanswers outcome
  have hcan' : m'.world.CanStake c m'.remote.balance := by
    rw [hended.balance]
    refine canStake_of_same hended.hook.config.symm hended.fees.symm ?_ (hcan _ hafter)
    rw [hended.ica, if_neg houtcome]
    exact fun _ => id
  refine CanReachIdle.of_run hrun (canReachIdle_of_transfering hended.resting ⟨answers, hanswers⟩ ?_
    (hended.hook.load_nextBatch.trans hbatch) ?_ hcan' hvalid hatMost)
  · rw [hended.hook.fsmState, outcomeMsg_transaction, hreset]
    simp
  · rw [hended.hook.config]
    exact hfit

/-- From `Claiming`. -/
theorem canReachIdle_of_claiming (h : Resting d m) (hnonempty : c.answers.Nonempty)
    (hstate : m.world.core.fsmState = .claiming)
    {batch : Core.UnbondBatch}
    (hbatch : m.world.core.unbondBatches.load m.world.core.nextBatchId = some batch)
    (hfit : batch.SwitchFits m.world.core.config)
    (hclear : ClearWay d c m.world m.remote.balance)
    (hvalid : ∀ answers ∈ c.answers, answers.addrValidate d.core = true)
    (hatMost : ∀ answers ∈ c.answers, answers.DepositsAtMost) :
    CanReachIdle d c m := by
  obtain ⟨r, batches, batch', hresponse, hprocess, hbatch', hfit'⟩ :=
    exists_claimProcessed h.reachable h.inFlight hstate hbatch hfit
  by_cases hpending : m.world.bank.balance d.core m.world.core.config.baseDenom = 0
  · have hcan : m.world.CanStake c m.remote.balance := by
      rcases hclear.stake (.inl hstate) with hcan | ⟨-, hcan⟩
      · exact hcan
      · rwa [hpending] at hcan
    refine canReachIdle_of_stake h hnonempty (.inl hstate) ?_ hbatch' hfit' hcan hvalid hatMost
    intro q env info hq
    rw [Core.executeTick_claiming h.paused hstate hresponse hprocess]
    exact Core.transferStakeOrUnbond_of_none (by rw [hq, hpending])
  · exact canReachIdle_of_pending h hnonempty hstate hresponse hprocess hbatch' hfit' hpending
      hclear hvalid hatMost

/-- The batch that core looks at next is stored. -/
theorem exists_nextBatch (h : Reachable d w) :
    ∃ batch, w.core.unbondBatches.load w.core.nextBatchId = some batch := by
  have hbatches := (payoutInv_of_reachable h).batches
  unfold Core.Storage.nextBatchId
  cases hfailed : w.core.failedBatchId with
  | none => exact (hbatches.stored _).2 le_rfl
  | some id =>
    have hsucc := (hbatches.failed_succ id hfailed).1
    exact (hbatches.stored id).2 (by omega)

/-- With nothing in flight, a state where something stands in the way is a dead end. -/
theorem deadEnd_of_not_clearWay (hinFlight : m.world.inFlight = [])
    (hclear : ¬ ClearWay d c m.world m.remote.balance) : DeadEnd d c m := by
  by_contra hdead
  refine hclear ⟨?_, ?_, ?_, ?_, ?_⟩
  · intro hidle hunbonding batch hbatch
    by_contra hfit
    refine hdead (.switch batch ?_ hbatch hfit)
    revert hidle hunbonding
    cases m.world.core.fsmState <;> simp [hinFlight]
  · intro hstate hbalance
    by_contra hfit
    exact hdead (.transfer hstate hinFlight hbalance hfit)
  · intro hstate r hresponse hsuccess
    by_contra hfit
    exact hdead (.release r hstate hinFlight hresponse hsuccess hfit)
  · intro hstate r hresponse
    by_contra herror
    exact hdead (.staked r hstate hinFlight hresponse (by simpa using herror))
  · intro hstate
    by_contra hstake
    rw [not_or, not_and] at hstake
    exact hdead (.stake hstate hinFlight hstake.1 hstake.2)

/-- **With nothing in flight, upkeep leads back to `Idle` exactly when nothing stands in the way.**

**Proof sketch.** Where something stands in the way, the state is a dead end, and upkeep leads
from dead ends to dead ends only. Otherwise a few ticks and outcomes lead to `Idle`: from `Claiming`
over `Transfering` when core has a balance, from both over `Staking` when the balance of the account
is the minimum at least, and from `Staking` once the switch time of the next batch has passed. -/
theorem canReachIdle_iff (h : Reachable d w) (hinFlight : w.inFlight = [])
    (hpaused : w.core.isPaused = false) (remote : Remote) (hanswers : c.answers.Nonempty)
    (hvalid : ∀ answers ∈ c.answers, answers.addrValidate d.core = true)
    (hatMost : ∀ answers ∈ c.answers, answers.DepositsAtMost) :
    CanReachIdle d c ⟨w, remote, []⟩ ↔ ClearWay d c w remote.balance := by
  constructor
  · rintro ⟨m', hrun, hidle⟩
    by_contra hclear
    have hdead : DeadEnd d c ⟨w, remote, []⟩ := deadEnd_of_not_clearWay hinFlight hclear
    exact (hdead.run h hrun).ne_idle hidle
  · intro hclear
    have hresting : Resting d ⟨w, remote, []⟩ :=
      ⟨h, fun _ hseq => absurd hseq List.not_mem_nil, hinFlight, hpaused⟩
    obtain ⟨batch, hbatch⟩ := exists_nextBatch h
    have hfit := fun hidle hunbonding => hclear.switch hidle hunbonding batch hbatch
    cases hstate : w.core.fsmState with
    | idle => exact ⟨_, RunWhere.refl _, hstate⟩
    | unbonding =>
      exact canReachIdle_of_unbonding hresting hanswers.some_mem hstate (hclear.release hstate)
    | claiming =>
      exact canReachIdle_of_claiming hresting hanswers hstate hbatch
        (hfit (by simp [hstate]) (by simp [hstate])) hclear hvalid hatMost
    | transfering =>
      have hcan := (hclear.stake (.inr hstate)).resolve_right fun hclaiming => by
        simp [hstate] at hclaiming
      exact canReachIdle_of_transfering hresting hanswers hstate hbatch
        (hfit (by simp [hstate]) (by simp [hstate])) hcan hvalid hatMost
    | staking =>
      obtain ⟨-, r, hresponse, -, -⟩ :=
        (flowInv_of_reachable h).answered hinFlight (by simp [hstate])
      exact canReachIdle_of_staking hresting hanswers.some_mem hstate hresponse
        (hclear.staked hstate r hresponse) hbatch (hfit (by simp [hstate]) (by simp [hstate]))

/-- **After a transfer that timed out** there is no way back, when the account has the minimum that
core delegates: the account counts as unregistered, so nothing can be delegated from it. -/
theorem not_canReachIdle_of_timeout (h : Reachable d w) (hinFlight : w.inFlight = [])
    (hstate : w.core.fsmState = .transfering) (hica : w.puppeteer.ica = .timeout)
    {remote : Remote} (hmin : w.core.config.minStakeAmount ≤ remote.balance) :
    ¬ CanReachIdle d c ⟨w, remote, []⟩ := by
  rintro ⟨m', hrun, hidle⟩
  have hstake : ¬ w.CanStake c remote.balance := by
    rintro ⟨more, -, hbelow | ⟨⟨ica, hregistered⟩, -⟩⟩
    · omega
    · rw [hica] at hregistered
      cases hregistered
  have hdead : DeadEnd d c ⟨w, remote, []⟩ := by
    refine .stake (.inr hstate) hinFlight hstake fun hclaiming => ?_
    rw [hstate] at hclaiming
    cases hclaiming
  exact (hdead.run h hrun).ne_idle hidle

end Liveness

open Sample

/-- The transfer of the sample deployment has succeeded, and nothing stands in the way. -/
theorem canReachIdle_sample : ∃ w : World, w.core.fsmState = .transfering ∧
    CanReachIdle deployment (.steady (answers members)) ⟨w, ⟨0, 1000⟩, []⟩ := by
  have hrun : (initial.runAll deployment
      (setup ++ [bond 1000, block 2 1020, tick, .deliver 1 .response])).any
      (fun w => decide (w.core.fsmState = .transfering ∧ w.inFlight = [] ∧
        w.core.isPaused = false ∧ w.puppeteer.ica = .registered "ica" ∧
        w.core.config.feeOn 1000 = 0) &&
        (w.core.unbondBatches.load w.core.nextBatchId).all
          fun batch => decide (batch.SwitchFits w.core.config)) = true := by
    decide
  obtain ⟨w, hw, hcheck⟩ := (Option.any_eq_true _ _).1 hrun
  rw [Bool.and_eq_true, decide_eq_true_eq] at hcheck
  obtain ⟨⟨hstate, hinFlight, hpaused, hica, hfee⟩, hfits⟩ := hcheck
  refine ⟨w, hstate, (canReachIdle_iff (reachable_of_runAll initial_spec hw) hinFlight hpaused _
    ⟨_, rfl⟩ (Circumstances.forall_steady rfl)
    (Circumstances.forall_steady (depositsExactly_answers members).atMost)).2 ?_⟩
  -- there is no fee, so the whole balance can be delegated
  have hstake : Core.StakeFits w.core.config w.core.collectedFees (answers members).calcDeposit
      1000 :=
    ⟨by rw [hfee]; decide, by rw [hfee]; decide, by simp [hfee], _, rfl⟩
  refine ⟨fun _ _ batch hbatch => ?_, by simp [hstate], by simp [hstate], by simp [hstate],
    fun _ => .inl (World.PassesStake.canStake (.inr ⟨⟨"ica", hica⟩, _, rfl, hstake⟩))⟩
  rw [hbatch, Option.all_some, decide_eq_true_eq] at hfits
  exact hfits

/-- **After a failed delegation nothing leads back to `Idle`.** The failure stays in the slot, and
every tick of `Staking` refuses it. -/
theorem staking_dead : ¬ ∀ (d : Deployment) (c : Circumstances) (w : World) (remote : Remote),
    Reachable d w → w.inFlight = [] → w.core.isPaused = false → c.answers.Nonempty →
    (∀ answers ∈ c.answers, answers.addrValidate d.core = true) →
    (∀ answers ∈ c.answers, answers.DepositsExactly) →
    CanReachIdle d c ⟨w, remote, []⟩ := by
  intro hall
  have hrun : (initial.runAll deployment (setup ++ [bond 1000, block 2 1020, tick,
      .deliver 1 .response, block 3 1025, remote 1000 0, tick, .deliver 2 (.error "failed")])).any
      (fun w => decide (w.core.fsmState = .staking ∧ w.inFlight = [] ∧ w.core.isPaused = false) &&
        w.core.lastPuppeteerResponse.any ResponseHookMsg.isError) = true := by
    decide
  obtain ⟨w, hw, hcheck⟩ := (Option.any_eq_true _ _).1 hrun
  rw [Bool.and_eq_true, decide_eq_true_eq] at hcheck
  obtain ⟨⟨hstate, hinFlight, hpaused⟩, hfailed⟩ := hcheck
  obtain ⟨r, hresponse, herror⟩ := (Option.any_eq_true _ _).1 hfailed
  have hreach := reachable_of_runAll initial_spec hw
  -- whatever arrives on the account meanwhile
  have hdead : DeadEnd deployment ⟨{answers members}, Set.univ⟩ ⟨w, ⟨0, 1000⟩, []⟩ :=
    .staked r hstate hinFlight hresponse herror
  obtain ⟨m', hrun', hidle⟩ := hall deployment ⟨{answers members}, Set.univ⟩ w ⟨0, 1000⟩ hreach
    hinFlight hpaused ⟨_, rfl⟩ (by rintro _ rfl; rfl)
    (by rintro _ rfl; exact depositsExactly_answers members)
  exact (hdead.run hreach hrun').ne_idle hidle

end System

end DropContracts
