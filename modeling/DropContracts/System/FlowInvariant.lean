import DropContracts.System.StepCase

set_option relaxedAutoImplicit false
set_option autoImplicit false

/-!
# Packets and the state machine

At most one packet is in flight, the puppeteer waits for it, and the state of core's state machine
says which transactions it can stand for. When core waits and nothing is in flight, the response
slot holds an outcome that the state can consume.

## Main definitions

* `System.awaits` — the transactions that can be in flight in a state of core.
* `System.FlowInv` — the invariant.

## Main results

* `System.tick_submits`, `System.tick_silent` — where a tick leaves the state machine, with and
  without a message.
* `System.hook_ok_of_waiting` — outside of `Idle` the hook accepts every outcome.
* `System.FlowInv.step`, `System.flowInv_of_reachable` — every step keeps the invariant, so every
  reachable state has it.
-/

namespace DropContracts

namespace System

open Exec

/-! ## Which transactions a state waits for -/

/-- The transactions that can be in flight while core is in a state. A transaction outlives its
waiting state when the tick consumes an older response, so in `Idle` all kinds that core submits
can be in flight, except an undelegation. -/
def awaits : Core.ContractState → Transaction → Bool
  | .idle, .delegate _ _ _ => true
  | .idle, .redeemShares _ _ => true
  | .idle, .claimRewardsAndOptionalyTransfer _ _ _ _ => true
  | .idle, .ibcTransfer _ _ _ _ => true
  | .idle, .transfer _ _ => true
  | .claiming, .claimRewardsAndOptionalyTransfer _ _ _ _ => true
  | .transfering, .ibcTransfer _ _ _ reason => reason = .stake
  | .staking, .delegate _ _ _ => true
  | .unbonding, .undelegate _ _ _ _ => true
  | _, _ => false

/-- What a waiting state other than `Unbonding` waits for can still be in flight in `Idle`. -/
theorem awaits_idle {state : Core.ContractState} {t : Transaction} (h : awaits state t = true)
    (hstate : state ≠ .unbonding) : awaits .idle t = true := by
  cases state <;> cases t <;> simp_all [awaits]

/-- Outside of `Idle` and `Claiming`, no awaited transaction resets the state machine when it
fails. -/
theorem not_resets_of_awaits {state : Core.ContractState} {t : Transaction}
    (h : awaits state t = true) (hidle : state ≠ .idle) (hclaiming : state ≠ .claiming) :
    Core.Transaction.resetsOnError t = false := by
  cases state <;> cases t <;> simp_all [awaits, Core.Transaction.resetsOnError]

/-- The invariant of the packets and the state machine. -/
structure FlowInv (d : Deployment) (w : World) : Prop where
  wired : Wired d w.core.config
  allowed : w.puppeteer.config.allowedSenders = [d.core]
  seq_lt : ∀ p ∈ w.inFlight, p.seq < w.nextSeq
  outstanding : w.inFlight = [] ∧ w.puppeteer.currentTxState.status ≠ .inProgress ∨
    ∃ p, w.inFlight = [p] ∧ w.puppeteer.txState =
      some ⟨.waitingForAck, some p.seq, some p.transaction, some d.core⟩
  awaited : ∀ p ∈ w.inFlight, awaits w.core.fsmState p.transaction = true
  answered : w.inFlight = [] → w.core.fsmState ≠ .idle →
    w.puppeteer.currentTxState.status = .idle ∧
    ∃ r, w.core.lastPuppeteerResponse = some r ∧
      awaits w.core.fsmState r.transaction = true ∧
      (w.core.fsmState = .claiming → r.isError = false)
  unanswered : w.core.fsmState = .unbonding → w.inFlight ≠ [] →
    w.core.lastPuppeteerResponse = none

/-! ## Ticks -/

section Ticks

variable {s s' : Core.Storage} {q : Core.Querier} {env : Env} {info : MessageInfo}
  {msgs : List Core.CoreMsg}

/-- The storages of an idle tick that has entered `Claiming`. -/
theorem fsmState_idlePrepared {transfer : Option TransferReadyBatchesMsg}
    {validators : List String} (h : Core.IdlePrepared s q env s' transfer validators) :
    s'.fsmState = .claiming := by
  cases h
  rfl

/-- A path of the cascade without a message ends in `Idle`. -/
theorem cascade_silent {config : Core.Config}
    (h : Core.CascadeCase s q env info config s' []) : s' = { s with fsmState := .idle } := by
  cases h
  rfl

/-- **A tick that sends nothing** ends in `Idle`, and in `Unbonding` it has found a response. -/
theorem tick_silent (h : Core.TickCase s q env info s' []) :
    s'.fsmState = .idle ∧ (s.fsmState = .unbonding → s.lastPuppeteerResponse ≠ none) := by
  cases h with
  | idleCascade t u transfer validators msgs hstate hprepared hvalidators hcascade =>
    rw [cascade_silent hcascade]
    exact ⟨rfl, by simp [hstate]⟩
  | claiming r batches emergency t msgs hstate hresponse hload hcascade =>
    rw [cascade_silent hcascade]
    exact ⟨rfl, by simp [hstate]⟩
  | transfering r t msgs hstate hresponse hcascade =>
    rw [cascade_silent hcascade]
    exact ⟨rfl, by simp [hstate]⟩
  | staking r t msgs hstate hresponse hsuccess hcascade =>
    rw [cascade_silent hcascade]
    exact ⟨rfl, by simp [hstate]⟩
  | unbondingSuccess requestId account items denom batchId unbond hstate hresponse hbatch =>
    exact ⟨rfl, by simp [hresponse]⟩
  | unbondingFailed requestId account items denom batchId details unbond hstate hresponse hbatch =>
    exact ⟨rfl, by simp [hresponse]⟩

/-- The message of the cascade asks for a transaction of the state it enters. -/
theorem cascade_submits {config : Core.Config} {contract : String} {msg : PuppeteerExecuteMsg}
    {funds paid : List Coin} {pconfig : Puppeteer.Config} {ica replyTo : String}
    {transaction : Transaction}
    (h : Core.CascadeCase s q env info config s' [.puppeteer contract msg funds])
    (hrequests : Puppeteer.Requests pconfig ica paid msg transaction replyTo) :
    replyTo = env.contractAddress ∧ awaits s'.fsmState transaction = true ∧
      s'.fsmState ≠ .idle ∧ (s'.fsmState = .unbonding → s.fsmState = .staking) ∧
      s'.lastPuppeteerResponse = s.lastPuppeteerResponse := by
  cases h with
  | transfer =>
    cases hrequests
    exact ⟨rfl, rfl, by simp, by simp, rfl⟩
  | stake =>
    cases hrequests
    exact ⟨rfl, rfl, by simp, by simp, rfl⟩
  | unbond batch balances undelegations hstate =>
    cases hrequests
    exact ⟨rfl, rfl, by simp, fun _ => hstate, rfl⟩

/-- **A tick that sends a message** leaves core in a state that waits for its transaction, or in
`Idle`; the report goes back to core, and `Unbonding` is entered with an empty response slot. -/
theorem tick_submits {contract : String} {msg : PuppeteerExecuteMsg} {funds paid : List Coin}
    {pconfig : Puppeteer.Config} {ica replyTo : String} {transaction : Transaction}
    (h : Core.TickCase s q env info s' [.puppeteer contract msg funds])
    (hrequests : Puppeteer.Requests pconfig ica paid msg transaction replyTo) :
    replyTo = env.contractAddress ∧ awaits s'.fsmState transaction = true ∧
      (s'.fsmState = .unbonding → s'.lastPuppeteerResponse = none) := by
  cases h with
  | idleInterval rate m hstate hinterval hmsg =>
    cases hmsg with
    | transfer =>
      cases hrequests
      exact ⟨rfl, by simp [hstate, awaits], by simp [hstate]⟩
    | redeem =>
      cases hrequests
      exact ⟨rfl, by simp [hstate, awaits], by simp [hstate]⟩
    | lsmShare =>
      cases hrequests
      exact ⟨rfl, by simp [hstate, awaits], by simp [hstate]⟩
  | idleClaim t transfer validators hstate hprepared hvalidators =>
    have hclaiming := fsmState_idlePrepared hprepared
    cases hrequests
    exact ⟨rfl, by simp [hclaiming, awaits], by simp [hclaiming]⟩
  | idleCascade t u transfer validators _ hstate hprepared hvalidators hcascade =>
    obtain ⟨hreply, hawaits, -, hunbonding, -⟩ := cascade_submits hcascade hrequests
    refine ⟨hreply, hawaits, fun hu => ?_⟩
    have hstaking := hunbonding hu
    rw [fsmState_idlePrepared hprepared] at hstaking
    cases hstaking
  | claiming r batches emergency t _ hstate hresponse hload hcascade =>
    obtain ⟨hreply, hawaits, -, -, hresponse'⟩ := cascade_submits hcascade hrequests
    exact ⟨hreply, hawaits, fun _ => hresponse'⟩
  | transfering r t _ hstate hresponse hcascade =>
    obtain ⟨hreply, hawaits, -, -, hresponse'⟩ := cascade_submits hcascade hrequests
    exact ⟨hreply, hawaits, fun _ => hresponse'⟩
  | staking r t _ hstate hresponse hsuccess hcascade =>
    obtain ⟨hreply, hawaits, -, -, hresponse'⟩ := cascade_submits hcascade hrequests
    exact ⟨hreply, hawaits, fun _ => hresponse'⟩

end Ticks

/-! ## Outcomes -/

/-- Outside of `Idle`, the hook accepts every outcome of a transaction that the state waits for.
The LSM accounting, which could fail, only runs for transactions that `Idle` waits for. -/
theorem hook_ok_of_waiting {s : Core.Storage} (env : Env) (info : MessageInfo)
    (msg : ResponseHookMsg) (hsender : info.sender = s.config.puppeteerContract)
    (hstate : s.fsmState ≠ .idle) (hawaits : awaits s.fsmState msg.transaction = true) :
    ∃ s', Core.executePuppeteerHook s env info msg = .ok s' := by
  have hprocess : ∃ t, Core.processOutcome s env msg = .ok t := by
    cases msg with
    | success successMsg =>
      simp only [ResponseHookMsg.transaction] at hawaits
      simp only [Core.processOutcome, Core.processSuccess]
      split
      next denom amount recipient reason htx =>
        rw [htx] at hawaits
        have hreason : reason ≠ .lsmShare := by
          rintro rfl
          revert hawaits hstate
          cases s.fsmState <;> simp [awaits]
        exact ⟨_, if_neg hreason⟩
      next items htx =>
        rw [htx] at hawaits
        revert hawaits hstate
        cases s.fsmState <;> simp [awaits]
      · exact ⟨_, rfl⟩
    | error errMsg =>
      simp only [Core.processOutcome, Core.processError]
      split_ifs
      · exact Core.goTo_idle_ok_iff.2 hstate
      · exact ⟨s, rfl⟩
  obtain ⟨t, ht⟩ := hprocess
  refine ⟨{ t with lastPuppeteerResponse := some msg }, ?_⟩
  simp only [Core.executePuppeteerHook, bind_eq_ok, ensure_eq_ok, pure_eq_ok]
  exact ⟨(), hsender, t, ht, rfl⟩

/-- The transaction of the outcome of a packet. -/
@[simp] theorem outcomeMsg_transaction (p : Packet) (outcome : World.Outcome) :
    (p.outcomeMsg outcome).transaction = p.transaction := by
  cases outcome <;> rfl

/-- The request of the outcome of a packet. -/
@[simp] theorem outcomeMsg_requestId (p : Packet) (outcome : World.Outcome) :
    (p.outcomeMsg outcome).requestId = p.seq := by
  cases outcome <;> rfl

/-- The outcome of the waiting packet is reported exactly when the hook accepts it. -/
theorem report_eq_none_iff {d : Deployment} {w : World} {p : Packet} {outcome : World.Outcome}
    (htx : w.puppeteer.txState =
      some ⟨.waitingForAck, some p.seq, some p.transaction, some d.core⟩) :
    (w.settle d p outcome).report d p.seq outcome = none ↔
      ∀ s', Core.executePuppeteerHook w.core (w.env d) ⟨d.puppeteer, []⟩
        (p.outcomeMsg outcome) ≠ .ok s' := by
  have hsudo : ∃ puppeteer, (w.settle d p outcome).sudoOutcome p.seq outcome =
      .ok (puppeteer, ⟨d.core, p.outcomeMsg outcome⟩) := by
    have hstatus : w.puppeteer.currentTxState.status = .waitingForAck := by
      rw [Puppeteer.Storage.currentTxState, htx]
      rfl
    cases outcome with
    | response =>
      exact ⟨_, Puppeteer.sudoResponse_eq_ok.2
        ⟨_, p.transaction, d.core, htx, rfl, rfl, rfl, rfl, rfl⟩⟩
    | error details =>
      exact ⟨_, Puppeteer.sudoError_eq_ok.2
        ⟨_, p.transaction, d.core, htx, rfl, rfl, rfl, rfl, rfl⟩⟩
    | timeout =>
      exact ⟨_, Puppeteer.sudoTimeout_eq_ok.2
        ⟨_, p.transaction, d.core, htx, rfl, rfl, rfl, rfl, rfl⟩⟩
  obtain ⟨puppeteer, hsudo⟩ := hsudo
  constructor
  · intro hnone s' hhook
    have hsome : ∃ w', (w.settle d p outcome).report d p.seq outcome = some w' := by
      simp only [World.report, Option.bind_eq_bind, Option.bind_eq_some_iff, toOption_eq_some,
        Option.guard_eq_some']
      exact ⟨_, _, hsudo, (), rfl, s', hhook, rfl⟩
    obtain ⟨w', hw'⟩ := hsome
    rw [hnone] at hw'
    cases hw'
  · intro hall
    by_contra hne
    obtain ⟨w', hw'⟩ := Option.ne_none_iff_exists'.1 hne
    simp only [World.report, hsudo, Option.bind_eq_bind, Option.bind_eq_some_iff,
      toOption_eq_some, Except.ok.injEq, exists_eq_left', Option.guard_eq_some'] at hw'
    obtain ⟨-, -, s', hhook, -⟩ := hw'
    exact hall s' hhook

/-! ## The invariant -/

section Invariant

variable {d : Deployment} {w w' : World}

/-- The invariant holds right after instantiation. -/
theorem flowInv_initial (h : Initial d w) : FlowInv d w := by
  obtain ⟨config, owner, hcore⟩ := h.core
  obtain ⟨pconfig, hpuppeteer⟩ := h.puppeteer
  have hidle : w.core.fsmState = .idle := by rw [hcore]; rfl
  refine ⟨h.wired, h.allowedSenders, by simp [h.inFlight], .inl ⟨h.inFlight, ?_⟩,
    by simp [h.inFlight], fun _ hne => absurd hidle hne, by simp [hidle]⟩
  rw [hpuppeteer]
  simp [Puppeteer.Storage.currentTxState, Puppeteer.instantiate, Puppeteer.TxState.empty]

/-- The invariant only depends on the flow, the configuration, the state machine and the response
slot. -/
theorem FlowInv.of_same (h : FlowInv d w) (hflow : SameFlow w w')
    (hwired : Wired d w'.core.config) (hstate : w'.core.fsmState = w.core.fsmState)
    (hresponse : w'.core.lastPuppeteerResponse = w.core.lastPuppeteerResponse) :
    FlowInv d w' := by
  have htx : w'.puppeteer.currentTxState = w.puppeteer.currentTxState := by
    rw [Puppeteer.Storage.currentTxState, hflow.txState]
    rfl
  refine ⟨hwired, by rw [hflow.config]; exact h.allowed, ?_, ?_, ?_, ?_, ?_⟩
  · rw [hflow.inFlight, hflow.nextSeq]
    exact h.seq_lt
  · rw [hflow.inFlight, hflow.txState, htx]
    exact h.outstanding
  · rw [hflow.inFlight, hstate]
    exact h.awaited
  · rw [hflow.inFlight, hstate, hresponse, htx]
    exact h.answered
  · rw [hflow.inFlight, hstate, hresponse]
    exact h.unanswered

/-- A packet is only submitted when none is in flight. -/
theorem FlowInv.inFlight_eq_nil (h : FlowInv d w)
    (hidle : w.puppeteer.currentTxState.status = .idle) : w.inFlight = [] := by
  rcases h.outstanding with ⟨hnil, -⟩ | ⟨p, -, htx⟩
  · exact hnil
  · rw [Puppeteer.Storage.currentTxState, htx] at hidle
    cases hidle

/-- A submitted packet is the only one in flight. -/
theorem FlowInv.inFlight_of_submission (h : FlowInv d w) {info : MessageInfo}
    {msg : PuppeteerExecuteMsg} {p : Packet} (hsub : Submission w w' info msg p) :
    w'.inFlight = [p] := by
  rw [hsub.inFlight, h.inFlight_eq_nil hsub.idle, List.nil_append]

/-- Nobody but core submits packets. -/
theorem FlowInv.not_foreign (h : FlowInv d w) {sender : String} {funds : List Coin}
    {msg : PuppeteerExecuteMsg} {p : Packet} (hsender : sender ≠ d.core) :
    ¬ Submission w w' ⟨sender, funds⟩ msg p := by
  intro hsub
  have hallowed := hsub.allowed
  rw [h.allowed, List.mem_singleton] at hallowed
  exact hsender hallowed

/-- A packet that is found in flight is the only one. -/
theorem FlowInv.of_find (h : FlowInv d w) {seq : ℕ} {p : Packet}
    (hp : w.inFlight.find? (fun p => p.seq = seq) = some p) :
    p.seq = seq ∧ w.inFlight = [p] ∧ w.puppeteer.txState =
      some ⟨.waitingForAck, some p.seq, some p.transaction, some d.core⟩ := by
  rcases h.outstanding with ⟨hnil, -⟩ | ⟨p', hp', htx⟩
  · simp [hnil] at hp
  · rw [hp'] at hp
    simp only [List.find?_cons, List.find?_nil] at hp
    split at hp
    next hseq =>
      obtain rfl := Option.some.inj hp
      exact ⟨by simpa using hseq, hp', htx⟩
    · cases hp

/-- The packet of an accepted outcome is the only one, and its transaction is the one that the
puppeteer reports. -/
theorem FlowInv.of_accepted (h : FlowInv d w) {seq : ℕ} {p : Packet}
    {txState : Puppeteer.TxState} {transaction : Transaction}
    (hp : w.inFlight.find? (fun p => p.seq = seq) = some p)
    (htx : w.puppeteer.txState = some txState) (htrans : txState.transaction = some transaction) :
    p.seq = seq ∧ w.inFlight = [p] ∧ p.transaction = transaction := by
  obtain ⟨hseq, hmem, htx'⟩ := h.of_find hp
  rw [htx] at htx'
  obtain rfl := Option.some.inj htx'
  exact ⟨hseq, hmem, Option.some.inj htrans⟩

/-- The invariant after a tick that sends nothing. -/
theorem FlowInv.tick (h : FlowInv d w) {q : Core.Querier} {info : MessageInfo}
    (hcase : Core.TickCase w.core q (w.env d) info w'.core []) (hflow : SameFlow w w') :
    FlowInv d w' := by
  obtain ⟨hidle, hunbonding⟩ := tick_silent hcase
  have htx : w'.puppeteer.currentTxState = w.puppeteer.currentTxState := by
    rw [Puppeteer.Storage.currentTxState, hflow.txState]
    rfl
  refine ⟨by rw [hcase.frame.config]; exact h.wired, by rw [hflow.config]; exact h.allowed,
    ?_, ?_, ?_, fun _ hne => absurd hidle hne, by simp [hidle]⟩
  · rw [hflow.inFlight, hflow.nextSeq]
    exact h.seq_lt
  · rw [hflow.inFlight, hflow.txState, htx]
    exact h.outstanding
  · rw [hflow.inFlight, hidle]
    intro p hp
    refine awaits_idle (h.awaited p hp) fun hstate => hunbonding hstate (h.unanswered hstate ?_)
    exact List.ne_nil_of_mem hp

/-- The invariant after a tick that submits a packet. -/
theorem FlowInv.tickSubmit (h : FlowInv d w) {q : Core.Querier} {info : MessageInfo}
    {contract : String} {msg : PuppeteerExecuteMsg} {funds : List Coin} {p : Packet}
    (hcase : Core.TickCase w.core q (w.env d) info w'.core [.puppeteer contract msg funds])
    (hsub : Submission w w' ⟨d.core, funds⟩ msg p) : FlowInv d w' := by
  obtain ⟨ica, replyTo, -, hrequests, htx⟩ := hsub.requested
  obtain ⟨hreply, hawaits, hunbonding⟩ := tick_submits hcase hrequests
  have hreply' : replyTo = d.core := hreply
  have hinFlight := h.inFlight_of_submission hsub
  refine ⟨by rw [hcase.frame.config]; exact h.wired, by rw [hsub.config]; exact h.allowed,
    ?_, .inr ⟨p, hinFlight, by rw [htx, hreply']⟩, ?_, ?_, fun hu _ => hunbonding hu⟩
  · intro p' hp'
    rw [hinFlight, List.mem_singleton] at hp'
    rw [hp', hsub.seq, hsub.nextSeq]
    exact Nat.lt_succ_self _
  · intro p' hp'
    rw [hinFlight, List.mem_singleton] at hp'
    rw [hp']
    exact hawaits
  · intro hnil
    rw [hinFlight] at hnil
    cases hnil

/-- The invariant after an outcome that both contracts accepted. -/
theorem FlowInv.accepted (h : FlowInv d w) {p : Packet} {outcome : World.Outcome}
    (hmem : w.inFlight = [p])
    (hhook : Core.HookFrame w.core w'.core (p.outcomeMsg outcome)) (hinFlight : w'.inFlight = [])
    (hempty : w'.puppeteer.txState = some Puppeteer.TxState.empty)
    (hconfig : w'.puppeteer.config = w.puppeteer.config) : FlowInv d w' := by
  have hstatus : w'.puppeteer.currentTxState.status = .idle := by
    rw [Puppeteer.Storage.currentTxState, hempty]
    rfl
  have hawaits := h.awaited p (by rw [hmem]; exact List.mem_singleton_self p)
  refine ⟨by rw [hhook.config]; exact h.wired, by rw [hconfig]; exact h.allowed,
    by simp [hinFlight], .inl ⟨hinFlight, by simp [hstatus]⟩, by simp [hinFlight], ?_,
    by simp [hinFlight]⟩
  intro _ hne
  have hstate := hhook.fsmState
  split_ifs at hstate with hreset
  · exact absurd hstate hne
  · refine ⟨hstatus, _, hhook.lastPuppeteerResponse, ?_, ?_⟩
    · rw [hstate, outcomeMsg_transaction]
      exact hawaits
    · -- a failed claim has moved the state machine to `Idle`
      intro hclaiming
      rw [hstate] at hclaiming
      rw [hclaiming] at hawaits
      rw [outcomeMsg_transaction, not_and] at hreset
      cases htx : p.transaction <;> simp [htx, awaits] at hawaits
      simpa [htx, Core.Transaction.resetsOnError] using hreset

/-- Core only refuses an outcome in `Idle`. -/
theorem FlowInv.idle_of_refused (h : FlowInv d w) {p : Packet} {outcome : World.Outcome}
    (hmem : w.inFlight = [p])
    (htx : w.puppeteer.txState =
      some ⟨.waitingForAck, some p.seq, some p.transaction, some d.core⟩)
    (hrefused : (w.settle d p outcome).report d p.seq outcome = none) :
    w.core.fsmState = .idle := by
  have hawaits := h.awaited p (by rw [hmem]; exact List.mem_singleton_self p)
  by_contra hne
  obtain ⟨s', hs'⟩ := hook_ok_of_waiting (w.env d) ⟨d.puppeteer, []⟩ (p.outcomeMsg outcome)
    h.wired.puppeteer.symm hne (by simpa using hawaits)
  exact (report_eq_none_iff htx).1 hrefused s' hs'

/-- The invariant after an outcome that core refused. -/
theorem FlowInv.refused (h : FlowInv d w) {p : Packet} {outcome : World.Outcome}
    (hmem : w.inFlight = [p])
    (htx : w.puppeteer.txState =
      some ⟨.waitingForAck, some p.seq, some p.transaction, some d.core⟩)
    (hrefused : (w.settle d p outcome).report d p.seq outcome = none)
    (hcore : w'.core = w.core) (hinFlight : w'.inFlight = [])
    (hpuppeteer : w'.puppeteer = w.puppeteer) : FlowInv d w' := by
  have hidle := h.idle_of_refused hmem htx hrefused
  refine ⟨by rw [hcore]; exact h.wired, by rw [hpuppeteer]; exact h.allowed,
    by simp [hinFlight], .inl ⟨hinFlight, ?_⟩, by simp [hinFlight],
    fun _ hne => absurd (hcore ▸ hidle) hne, by simp [hinFlight]⟩
  rw [hpuppeteer, Puppeteer.Storage.currentTxState, htx]
  simp

/-- **Every step keeps the invariant.** -/
theorem FlowInv.step {a : Action} (h : FlowInv d w) (hstep : Step d w a w') : FlowInv d w' := by
  cases step_cases h.wired hstep with
  | environment _ _ henvironment hcore hflow =>
    exact h.of_same hflow (by rw [hcore.core]; exact h.wired) (by rw [hcore.core])
      (by rw [hcore.core])
  | foreign _ _ _ _ _ p hsender hsub => exact absurd hsub (h.not_foreign hsender)
  | bond answers sender funds receiver q core msgs _ hq hbond hcore _ _ hflow =>
    have hframe := Core.executeBond_frame hbond
    exact h.of_same hflow (by rw [hcore, hframe.config]; exact h.wired)
      (by rw [hcore, hframe.fsmState]) (by rw [hcore, hframe.lastPuppeteerResponse])
  | unbond answers sender funds q bank core msgs _ _ _ hunbond hcore _ _ _ _ _ hflow =>
    obtain ⟨batch, item, -, hs⟩ := Core.executeUnbond_saves hunbond
    rw [← hcore] at hs
    exact h.of_same hflow (by rw [hs]; exact h.wired) (by rw [hs]; rfl) (by rw [hs]; rfl)
  | admin answers sender funds msg core _ hmsg hadmin _ hwired hcore _ _ hflow =>
    have hsame : core.fsmState = w.core.fsmState ∧
        core.lastPuppeteerResponse = w.core.lastPuppeteerResponse := by
      cases hadmin <;> exact ⟨rfl, rfl⟩
    exact h.of_same hflow (by rw [hcore]; exact hwired) (by rw [hcore, hsame.1])
      (by rw [hcore, hsame.2])
  | tick answers sender funds q bank core _ hbank hq htick hcore _ _ hflow =>
    rw [← hcore] at htick
    exact h.tick (Core.executeTick_ok htick).2 hflow
  | tickSubmit answers sender funds q bank core msg msgFunds _ p hbank hq htick hcore _ _ hsub =>
    rw [← hcore] at htick
    exact h.tickSubmit (Core.executeTick_ok htick).2 hsub
  | accepted seq outcome p txState transaction core _ hp htx hwaiting htrans hhook hcore _ _
      hinFlight hempty hconfig =>
    obtain ⟨rfl, hmem, rfl⟩ := h.of_accepted hp htx htrans
    rw [← hcore] at hhook
    exact h.accepted hmem (Core.executePuppeteerHook_ok hhook)
      (by rw [hinFlight, hmem]; simp) hempty hconfig
  | refused seq outcome p _ hp hrefused hcore hinFlight hpuppeteer =>
    obtain ⟨rfl, hmem, htx⟩ := h.of_find hp
    exact h.refused hmem htx hrefused hcore.core (by rw [hinFlight, hmem]; simp) hpuppeteer

/-- **Every reachable state has the invariant.** -/
theorem flowInv_of_reachable (h : Reachable d w) : FlowInv d w := by
  refine h.invariant (fun w₀ hinit => flowInv_initial hinit) ?_
  intro s a t hs hstep hinv
  exact hinv.step hstep

end Invariant

end System

end DropContracts
