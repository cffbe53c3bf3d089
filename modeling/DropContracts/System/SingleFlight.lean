import DropContracts.Base.Run
import DropContracts.Puppeteer.Queries
import DropContracts.System.Scenario

set_option relaxedAutoImplicit false
set_option autoImplicit false

/-!
# One transaction at a time

The puppeteer on its own, for any senders and any receivers: messages in any order, query results,
and the outcomes of the packets that it has submitted. The chain runs the reply to a packet within
the call that submits it, and delivers one outcome for each packet. The message to the hook runs
within the call that delivers the outcome, so that a hook that fails takes the whole call back.

## Main definitions

* `System.Submitted` — a transaction that the puppeteer has accepted.
* `System.Flight`, `System.FlightEvent`, `System.Flight.exec` — the system and its steps.
* `System.SingleFlight` — the invariant.
* `System.FlightEvent.HookAccepted` — the hook accepts the outcome.

## Main results

* `System.SingleFlight.step` — the steps keep the invariant.
* `System.single_flight` — it holds in every state that such steps reach.
* `System.singleFlight_after_outcome_iff` — after an outcome it holds exactly when the hook has
  accepted it.

## Design

What was submitted is read off the message, and the histories `accepted` and `hooks` only record
it: the puppeteer itself works from its one slot.
-/

namespace DropContracts

open Exec

namespace Puppeteer

/-- The transaction that a request asks for, and where its outcome is to be reported. -/
def requested (config : Config) (ica : String) (funds : List Coin) :
    PuppeteerExecuteMsg → Option (Transaction × String)
  | .registerICA => none
  | .setFees _ _ _ _ => none
  | .delegate items _ replyTo => some (.delegate ICA_ID config.remoteDenom items, replyTo)
  | .undelegate items batchId _ replyTo =>
    some (.undelegate ICA_ID items config.remoteDenom batchId, replyTo)
  | .redelegate validatorFrom validatorTo amount _ replyTo =>
    some (.redelegate ICA_ID validatorFrom validatorTo config.remoteDenom amount, replyTo)
  | .tokenizeShare validator amount _ replyTo =>
    some (.tokenizeShare ICA_ID validator config.remoteDenom amount, replyTo)
  | .redeemShares items _ replyTo => some (.redeemShares ICA_ID items, replyTo)
  | .ibcTransfer _ reason replyTo =>
    (funds.filter fun f => f.denom ≠ LOCAL_DENOM).head?.map fun coin =>
      (.ibcTransfer coin.denom coin.amount ica reason, replyTo)
  | .transfer items _ replyTo => some (.transfer ICA_ID items, replyTo)
  | .claimRewardsAndOptionalyTransfer validators payout _ replyTo =>
    some (.claimRewardsAndOptionalyTransfer ICA_ID validators config.remoteDenom payout, replyTo)

/-- What a request submits is what it asks for. -/
theorem Requests.requested_eq {config : Config} {ica replyTo : String} {funds : List Coin}
    {msg : PuppeteerExecuteMsg} {transaction : Transaction}
    (h : Requests config ica funds msg transaction replyTo) :
    requested config ica funds msg = some (transaction, replyTo) := by
  cases h with
  | ibcTransfer coin timeout reason _ hcoin => simp only [requested, hcoin]; rfl
  | _ => rfl

/-- The outcome of the packet `seq` at the puppeteer. -/
def sudoOutcome (s : Storage) (seq : ℕ) : System.World.Outcome → Result (Storage × Report)
  | .response => sudoResponse s seq
  | .error details => sudoError s seq details
  | .timeout => sudoTimeout s seq

end Puppeteer

namespace System

open Puppeteer (FullStorage WithQueries FullMsg Outgoing Report Addresses KvResult)

/-! ## The system -/

/-- A transaction that was accepted: the number of its packet, and what the message asked for. -/
structure Submitted where
  seq : ℕ
  transaction : Transaction
  replyTo : String
  deriving DecidableEq, Repr

/-- The hook message that a packet with this outcome calls for. -/
def Submitted.hook (p : Submitted) : World.Outcome → Report
  | .response => ⟨p.replyTo, .success ⟨p.seq, p.transaction⟩⟩
  | .error details => ⟨p.replyTo, .error ⟨p.seq, p.transaction, details⟩⟩
  | .timeout => ⟨p.replyTo, .error ⟨p.seq, p.transaction, "Timeout"⟩⟩

/-- The transaction that a hook message answers. -/
def answeredBy (r : Report) : Submitted := ⟨r.msg.requestId, r.msg.transaction, r.receiver⟩

/-- The hook message of a packet answers it. -/
@[simp] theorem answeredBy_hook (p : Submitted) (outcome : World.Outcome) :
    answeredBy (p.hook outcome) = p := by
  cases outcome <;> rfl

/-- The puppeteer with its queries, the packets that are outstanding, and two histories: the
accepted transactions and the hook messages that were run. -/
structure Flight where
  contract : WithQueries
  outstanding : List Submitted
  accepted : List Submitted
  hooks : List Report

/-- The steps: a message, whose packet the chain gives the number `seq`; the results of queries;
the opening of the account; and the outcome of an outstanding packet, where `accepts` says which
hook messages the contracts at their receivers accept. -/
inductive FlightEvent where
  | execute (a : Addresses) (env : Env) (info : MessageInfo) (msg : FullMsg) (seq : ℕ)
  | kvQueryResult (env : Env) (queryId : ℕ) (result : KvResult)
  | txQueryResult (transfers : List Puppeteer.Transfer)
  | openAck (address : Option String)
  | deliver (p : Submitted) (outcome : World.Outcome) (accepts : String → ResponseHookMsg → Bool)

namespace Flight

variable (m : Flight)

/-- The storage of the puppeteer. -/
def puppeteer : FullStorage := m.contract.puppeteer

/-- The flight with another storage of the puppeteer. -/
def withPuppeteer (s : FullStorage) : Flight :=
  { m with contract := { m.contract with puppeteer := s } }

/-- What the message asks for, in the present configuration. -/
def requested (info : MessageInfo) : FullMsg → Option (Transaction × String)
  | .request msg =>
    Puppeteer.requested m.puppeteer.config
      (match m.puppeteer.ica with
        | .registered ica => ica
        | _ => "") info.funds msg
  | _ => none

/-- A message to the chain, sent by a call that asks for `request`. A packet is accepted with the
number `seq`, and the reply is run. -/
def dispatch (request : Option (Transaction × String)) (seq : ℕ) : Outgoing → Option Flight
  | .icq msg => (m.contract.dispatch msg).map fun contract => { m with contract := contract }
  | .neutron msg =>
    if msg.isPacket then do
      let (transaction, replyTo) ← request
      let s ← (Puppeteer.submitTxReply m.puppeteer.toStorage seq).toOption
      let p : Submitted := ⟨seq, transaction, replyTo⟩
      some { m.withPuppeteer { m.puppeteer with toStorage := s } with
        outstanding := m.outstanding ++ [p]
        accepted := m.accepted ++ [p] }
    else some m

/-- The messages to the chain, one after the other. -/
def dispatchAll (request : Option (Transaction × String)) (seq : ℕ) (m : Flight) :
    List Outgoing → Option Flight
  | [] => some m
  | msg :: rest => (m.dispatch request seq msg).bind fun m => m.dispatchAll request seq rest

/-- A message to the puppeteer. -/
def execute (a : Addresses) (env : Env) (info : MessageInfo) (msg : FullMsg) (seq : ℕ) :
    Option Flight := do
  let (s, out) ← (Puppeteer.executeFull m.puppeteer a info env msg).toOption
  (m.withPuppeteer s).dispatchAll (m.requested info msg) seq out

/-- The outcome at the puppeteer, and the call of the hook. Both happen or none. -/
def report (p : Submitted) (outcome : World.Outcome) (accepts : String → ResponseHookMsg → Bool) :
    Option Flight := do
  let (s, report) ← (Puppeteer.sudoOutcome m.puppeteer.toStorage p.seq outcome).toOption
  guard (accepts report.receiver report.msg)
  some { m.withPuppeteer { m.puppeteer with toStorage := s } with hooks := m.hooks ++ [report] }

/-- The end of an outstanding packet, which is gone even when the call fails. -/
def deliver (p : Submitted) (outcome : World.Outcome)
    (accepts : String → ResponseHookMsg → Bool) : Option Flight := do
  guard (p ∈ m.outstanding)
  let settled := { m with outstanding := m.outstanding.erase p }
  some ((settled.report p outcome accepts).getD settled)

/-- The flight after a step, if the step can be taken. -/
def exec : FlightEvent → Option Flight
  | .execute a env info msg seq => m.execute a env info msg seq
  | .kvQueryResult env queryId result =>
    (Puppeteer.sudoKvQueryResult m.puppeteer env queryId result).toOption.map m.withPuppeteer
  | .txQueryResult transfers =>
    (Puppeteer.sudoTxQueryResult m.puppeteer transfers).toOption.map m.withPuppeteer
  | .openAck address =>
    (Puppeteer.sudoOpenAck m.puppeteer.toStorage address).toOption.map fun s =>
      m.withPuppeteer { m.puppeteer with toStorage := s }
  | .deliver p outcome accepts => m.deliver p outcome accepts

end Flight

/-- A step of the puppeteer. -/
def FlightStep (m : Flight) (e : FlightEvent) (m' : Flight) : Prop := m.exec e = some m'

/-- The puppeteer right after it was instantiated. -/
structure FlightInitial (m : Flight) : Prop where
  contract : ∃ addrValidate config,
    Puppeteer.instantiateFull addrValidate config = .ok m.contract.puppeteer
  outstanding : m.outstanding = []
  accepted : m.accepted = []
  hooks : m.hooks = []

/-- The hook accepts the message that the outcome calls for. -/
def FlightEvent.HookAccepted : FlightEvent → Prop
  | .deliver p outcome accepts => accepts p.replyTo (p.hook outcome).msg = true
  | _ => True

/-! ## The invariant -/

/-- **One transaction at a time**: at most one packet is outstanding, the slot of the puppeteer
describes it and is idle without one, and the hook messages that were run answer the accepted
transactions in order, up to the one that is outstanding. -/
structure SingleFlight (m : Flight) : Prop where
  atMostOne : m.outstanding.length ≤ 1
  waiting : ∀ p ∈ m.outstanding, m.puppeteer.txState =
    some ⟨.waitingForAck, some p.seq, some p.transaction, some p.replyTo⟩
  idle : m.outstanding = [] → m.puppeteer.currentTxState.status = .idle
  answered : m.accepted = m.hooks.map answeredBy ++ m.outstanding

section Invariant

variable {m m' : Flight}

/-- The slot is never seen in progress. -/
theorem SingleFlight.not_inProgress (h : SingleFlight m) :
    m.puppeteer.currentTxState.status ≠ .inProgress := by
  cases hout : m.outstanding with
  | nil =>
    rw [h.idle hout]
    simp
  | cons p rest =>
    have hwaiting := h.waiting p (by rw [hout]; exact List.mem_cons_self)
    simp [Puppeteer.Storage.currentTxState, hwaiting]

/-- The invariant holds right after instantiation. -/
theorem singleFlight_initial (h : FlightInitial m) : SingleFlight m := by
  obtain ⟨addrValidate, config, hcontract⟩ := h.contract
  simp only [Puppeteer.instantiateFull, bind_eq_ok, pure_eq_ok, Except.ok.injEq] at hcontract
  obtain ⟨-, -, -, -, hcontract⟩ := hcontract
  refine ⟨by simp [h.outstanding], by simp [h.outstanding], fun _ => ?_, ?_⟩
  · rw [Flight.puppeteer, ← hcontract]
    rfl
  · simp [h.accepted, h.hooks, h.outstanding]

/-- The invariant only depends on the slot, the packets and the histories. -/
theorem SingleFlight.of_same (h : SingleFlight m)
    (htx : m'.puppeteer.txState = m.puppeteer.txState)
    (houtstanding : m'.outstanding = m.outstanding) (haccepted : m'.accepted = m.accepted)
    (hhooks : m'.hooks = m.hooks) : SingleFlight m' := by
  refine ⟨?_, ?_, ?_, ?_⟩
  · rw [houtstanding]
    exact h.atMostOne
  · rw [houtstanding, htx]
    exact h.waiting
  · rw [houtstanding, Puppeteer.Storage.currentTxState, htx]
    exact h.idle
  · rw [houtstanding, haccepted, hhooks]
    exact h.answered

/-- Without an outstanding packet there is none to describe; with one the slot is not idle. -/
theorem SingleFlight.outstanding_eq_nil (h : SingleFlight m)
    (hidle : m.puppeteer.currentTxState.status = .idle) : m.outstanding = [] := by
  cases hout : m.outstanding with
  | nil => rfl
  | cons p rest =>
    have hwaiting := h.waiting p (by rw [hout]; exact List.mem_cons_self)
    simp [Puppeteer.Storage.currentTxState, hwaiting] at hidle

/-- Messages to the query module leave the flight alone. -/
theorem dispatchAll_icq {request : Option (Transaction × String)} {seq : ℕ}
    {msgs : List Icq.IcqMsg} (h : m.dispatchAll request seq (msgs.map .icq) = some m') :
    m'.puppeteer.txState = m.puppeteer.txState ∧ m'.outstanding = m.outstanding ∧
      m'.accepted = m.accepted ∧ m'.hooks = m.hooks := by
  induction msgs generalizing m with
  | nil =>
    rw [← Option.some.inj h]
    exact ⟨rfl, rfl, rfl, rfl⟩
  | cons msg rest ih =>
    obtain ⟨t, ht, hrest⟩ := Option.bind_eq_some_iff.1 h
    obtain ⟨contract, hcontract, rfl⟩ := Option.map_eq_some_iff.1 ht
    obtain ⟨htx, houtstanding, haccepted, hhooks⟩ := ih hrest
    refine ⟨htx.trans ?_, houtstanding, haccepted, hhooks⟩
    have hdispatched : m.contract.dispatchAll [msg] = some contract := by
      rw [WithQueries.dispatchAll, hcontract]
      rfl
    have hsame := WithQueries.dispatchAll_toStorage hdispatched
    show contract.puppeteer.toStorage.txState = m.contract.puppeteer.toStorage.txState
    rw [hsame]

/-- **A submission**: the slot goes from idle to waiting within the call, and describes the packet
that was accepted. -/
theorem SingleFlight.submit (h : SingleFlight m) {info : MessageInfo} {seq : ℕ}
    {msg : PuppeteerExecuteMsg} {t : Puppeteer.Storage} {neutronMsg : Option Puppeteer.NeutronMsg}
    (hcase : Puppeteer.ExecuteCase m.puppeteer.toStorage info msg t neutronMsg)
    (hdispatch : (m.withPuppeteer { m.puppeteer with toStorage := t }).dispatchAll
      (m.requested info (.request msg)) seq (neutronMsg.toList.map .neutron) = some m') :
    SingleFlight m' := by
  cases hcase with
  | registerICA registerFee hfee hica =>
    simp only [Option.toList, List.map_cons, List.map_nil, Flight.dispatchAll, Flight.dispatch,
      Puppeteer.NeutronMsg.isPacket, Bool.false_eq_true, ↓reduceIte, Option.bind_some,
      Option.some.injEq] at hdispatch
    rw [← hdispatch]
    exact h.of_same rfl rfl rfl rfl
  | setFees recvFee ackFee timeoutFee registerFee howner =>
    simp only [Option.toList, List.map_nil, Flight.dispatchAll, Option.some.injEq] at hdispatch
    rw [← hdispatch]
    exact h.of_same rfl rfl rfl rfl
  | submit _ transaction replyTo ica fee neutronMsg hrequests hsender hidle hica hfee hpacket =>
    have hrequested : m.requested info (.request msg) = some (transaction, replyTo) := by
      have heq := hrequests.requested_eq
      simp only [Flight.requested, hica]
      exact heq
    have hnil := h.outstanding_eq_nil hidle
    have hanswered := h.answered
    rw [hnil, List.append_nil] at hanswered
    simp only [Option.toList, List.map_cons, List.map_nil, Flight.dispatchAll, Flight.dispatch,
      hpacket, ↓reduceIte, hrequested, Option.bind_eq_bind, Option.bind_some,
      Option.bind_eq_some_iff, toOption_eq_some, Option.some.injEq] at hdispatch
    obtain ⟨m₁, ⟨s, hreply, rfl⟩, rfl⟩ := hdispatch
    simp only [Puppeteer.submitTxReply, bind_eq_ok, orError_eq_ok, pure_eq_ok,
      Except.ok.injEq] at hreply
    obtain ⟨txState, htx, rfl⟩ := hreply
    have htx' : txState = ⟨.inProgress, none, some transaction, some replyTo⟩ :=
      (Option.some.inj htx).symm
    refine ⟨?_, ?_, ?_, ?_⟩
    · simp [Flight.withPuppeteer, hnil]
    · intro p hp
      simp only [Flight.withPuppeteer, hnil, List.nil_append, List.mem_singleton] at hp
      rw [hp, htx']
      rfl
    · simp [Flight.withPuppeteer, hnil]
    · simp [Flight.withPuppeteer, hnil, hanswered]

/-- **An outcome**: the puppeteer reports the packet that is outstanding, and the slot is idle
again, unless the hook refuses the report. -/
theorem deliver_ok (h : SingleFlight m) {p : Submitted} {outcome : World.Outcome}
    {accepts : String → ResponseHookMsg → Bool} (hdeliver : m.deliver p outcome accepts = some m') :
    m.outstanding = [p] ∧ m'.outstanding = [] ∧ m'.accepted = m.accepted ∧
      if accepts p.replyTo (p.hook outcome).msg = true then
        m'.puppeteer.currentTxState.status = .idle ∧ m'.hooks = m.hooks ++ [p.hook outcome]
      else m'.puppeteer.txState = m.puppeteer.txState ∧ m'.hooks = m.hooks := by
  simp only [Flight.deliver, Option.bind_eq_bind, Option.bind_eq_some_iff, Option.guard_eq_some',
    Option.some.injEq] at hdeliver
  obtain ⟨-, hp, rfl⟩ := hdeliver
  have hone : m.outstanding = [p] := by
    have hlength := h.atMostOne
    cases hout : m.outstanding with
    | nil => simp [hout] at hp
    | cons q rest =>
      rw [hout] at hp hlength
      obtain rfl : rest = [] := List.length_eq_zero_iff.1 (by simpa using hlength)
      rw [List.mem_singleton.1 hp]
  have hwaiting := h.waiting p hp
  -- the sudo handlers answer from the slot, which describes the packet
  obtain ⟨s, hsudo, hs⟩ : ∃ s, Puppeteer.sudoOutcome m.puppeteer.toStorage p.seq outcome =
      .ok (s, p.hook outcome) ∧ s.txState = some Puppeteer.TxState.empty := by
    cases outcome with
    | response =>
      exact ⟨_, Puppeteer.sudoResponse_eq_ok.2 ⟨_, _, _, hwaiting, rfl, rfl, rfl, rfl, rfl⟩, rfl⟩
    | error details =>
      exact ⟨_, Puppeteer.sudoError_eq_ok.2 ⟨_, _, _, hwaiting, rfl, rfl, rfl, rfl, rfl⟩, rfl⟩
    | timeout =>
      exact ⟨_, Puppeteer.sudoTimeout_eq_ok.2 ⟨_, _, _, hwaiting, rfl, rfl, rfl, rfl, rfl⟩, rfl⟩
  have hreceiver : (p.hook outcome).receiver = p.replyTo := by cases outcome <;> rfl
  have herase : m.outstanding.erase p = [] := by rw [hone]; simp
  set settled : Flight := { m with outstanding := m.outstanding.erase p } with hsettled
  have hsudo' : Puppeteer.sudoOutcome settled.puppeteer.toStorage p.seq outcome =
      .ok (s, p.hook outcome) := hsudo
  refine ⟨hone, ?_⟩
  split_ifs with haccepts
  · have hreport : settled.report p outcome accepts = some
        { settled.withPuppeteer { settled.puppeteer with toStorage := s } with
          hooks := settled.hooks ++ [p.hook outcome] } := by
      rw [Flight.report, hsudo']
      simp [Except.toOption, hreceiver, haccepts]
    rw [hreport]
    refine ⟨herase, rfl, ?_, rfl⟩
    simp [Flight.withPuppeteer, Flight.puppeteer, Puppeteer.Storage.currentTxState, hs,
      Puppeteer.TxState.empty]
  · have hreport : settled.report p outcome accepts = none := by
      rw [Flight.report, hsudo']
      simp [Except.toOption, hreceiver, haccepts]
    rw [hreport]
    exact ⟨herase, rfl, rfl, rfl⟩

/-- **The steps keep the invariant**, as long as hooks accept the outcomes. -/
theorem SingleFlight.step {e : FlightEvent} (h : SingleFlight m) (hok : e.HookAccepted)
    (hstep : FlightStep m e m') : SingleFlight m' := by
  cases e with
  | execute a env info msg seq =>
    simp only [FlightStep, Flight.exec, Flight.execute, Option.bind_eq_bind,
      Option.bind_eq_some_iff, toOption_eq_some] at hstep
    obtain ⟨⟨s, out⟩, hexecute, hdispatch⟩ := hstep
    rcases Puppeteer.executeFull_txState hexecute with
      ⟨request, t, neutronMsg, rfl, hcase, rfl, rfl⟩ | ⟨htx, msgs, rfl⟩
    · exact h.submit hcase hdispatch
    · obtain ⟨htx', houtstanding, haccepted, hhooks⟩ := dispatchAll_icq hdispatch
      exact h.of_same (htx'.trans htx) houtstanding haccepted hhooks
  | kvQueryResult env queryId result =>
    obtain ⟨s, hs, rfl⟩ := Option.map_eq_some_iff.1 hstep
    have htx := Puppeteer.sudoKvQueryResult_txState (toOption_eq_some.1 hs)
    exact h.of_same htx rfl rfl rfl
  | txQueryResult transfers =>
    obtain ⟨s, hs, rfl⟩ := Option.map_eq_some_iff.1 hstep
    have hsame := Puppeteer.sudoTxQueryResult_toStorage (toOption_eq_some.1 hs)
    refine h.of_same ?_ rfl rfl rfl
    show s.toStorage.txState = m.puppeteer.toStorage.txState
    rw [hsame]
  | openAck address =>
    obtain ⟨s, hs, rfl⟩ := Option.map_eq_some_iff.1 hstep
    have hs' := toOption_eq_some.1 hs
    simp only [Puppeteer.sudoOpenAck, bind_eq_ok, pure_eq_ok, Except.ok.injEq] at hs'
    obtain ⟨address', -, rfl⟩ := hs'
    exact h.of_same rfl rfl rfl rfl
  | deliver p outcome accepts =>
    obtain ⟨hone, hnil, haccepted, hcase⟩ := deliver_ok h hstep
    have hok' : accepts p.replyTo (p.hook outcome).msg = true := hok
    rw [if_pos hok'] at hcase
    refine ⟨by simp [hnil], by simp [hnil], fun _ => hcase.1, ?_⟩
    rw [haccepted, hcase.2, hnil, h.answered, hone]
    simp

/-- The hook messages that a step runs. -/
def FlightEvent.hooks : FlightEvent → List Report
  | .deliver p outcome _ => [p.hook outcome]
  | _ => []

/-- The messages to the chain run no hook. -/
theorem dispatchAll_hooks {request : Option (Transaction × String)} {seq : ℕ}
    {out : List Outgoing} (h : m.dispatchAll request seq out = some m') : m'.hooks = m.hooks := by
  induction out generalizing m with
  | nil => rw [← Option.some.inj h]
  | cons msg rest ih =>
    obtain ⟨t, ht, hrest⟩ := Option.bind_eq_some_iff.1 h
    rw [ih hrest]
    cases msg with
    | icq msg =>
      obtain ⟨contract, -, rfl⟩ := Option.map_eq_some_iff.1 ht
      rfl
    | neutron msg =>
      simp only [Flight.dispatch] at ht
      split_ifs at ht
      · simp only [Option.bind_eq_bind, Option.bind_eq_some_iff, Option.some.injEq] at ht
        obtain ⟨_, -, s, -, rfl⟩ := ht
        rfl
      · rw [← Option.some.inj ht]

/-- **Exactly one hook message for an outcome**, and none otherwise. -/
theorem SingleFlight.hooks_step {e : FlightEvent} (h : SingleFlight m) (hok : e.HookAccepted)
    (hstep : FlightStep m e m') : m'.hooks = m.hooks ++ e.hooks := by
  cases e with
  | execute a env info msg seq =>
    simp only [FlightStep, Flight.exec, Flight.execute, Option.bind_eq_bind,
      Option.bind_eq_some_iff] at hstep
    obtain ⟨⟨s, out⟩, -, hdispatch⟩ := hstep
    rw [dispatchAll_hooks hdispatch]
    exact (List.append_nil _).symm
  | kvQueryResult env queryId result =>
    obtain ⟨s, -, rfl⟩ := Option.map_eq_some_iff.1 hstep
    exact (List.append_nil _).symm
  | txQueryResult transfers =>
    obtain ⟨s, -, rfl⟩ := Option.map_eq_some_iff.1 hstep
    exact (List.append_nil _).symm
  | openAck address =>
    obtain ⟨s, -, rfl⟩ := Option.map_eq_some_iff.1 hstep
    exact (List.append_nil _).symm
  | deliver p outcome accepts =>
    obtain ⟨-, -, -, hcase⟩ := deliver_ok h hstep
    have hok' : accepts p.replyTo (p.hook outcome).msg = true := hok
    rw [if_pos hok'] at hcase
    exact hcase.2

/-- **After an outcome** the invariant holds exactly when the hook has accepted it: a refused
outcome leaves the slot waiting for a packet that is gone. -/
theorem singleFlight_after_outcome_iff (h : SingleFlight m) {p : Submitted}
    {outcome : World.Outcome} {accepts : String → ResponseHookMsg → Bool}
    (hstep : FlightStep m (.deliver p outcome accepts) m') :
    SingleFlight m' ↔ accepts p.replyTo (p.hook outcome).msg = true := by
  constructor
  · intro h'
    obtain ⟨hone, hnil, -, hcase⟩ := deliver_ok h hstep
    by_contra hrefused
    rw [if_neg hrefused] at hcase
    have hidle := h'.idle hnil
    have hwaiting := h.waiting p (by rw [hone]; exact List.mem_singleton_self p)
    rw [Puppeteer.Storage.currentTxState, hcase.1, hwaiting] at hidle
    cases hidle
  · intro haccepts
    exact h.step (e := .deliver p outcome accepts) haccepts hstep

end Invariant

/-! ## Runs -/

/-- A state of some run whose steps all satisfy `ok`. -/
def FlightReachable (ok : Flight → FlightEvent → Prop) (m : Flight) : Prop :=
  ∃ m₀, FlightInitial m₀ ∧ RunWhere FlightStep ok m₀ m

section Runs

variable {m : Flight}

/-- **The puppeteer runs one transaction at a time and answers each exactly once**, in every run
whose hooks accept the outcomes.

**Proof sketch.** A request is only taken when the slot is idle, and then nothing is outstanding.
The reply turns the slot into the description of the new packet within the same call, and the
outcome of that packet, the only one there can be, is answered from the slot. -/
theorem single_flight (h : FlightReachable (fun _ e => e.HookAccepted) m) :
    SingleFlight m ∧ m.puppeteer.currentTxState.status ≠ .inProgress ∧
      ∀ e m', e.HookAccepted → FlightStep m e m' → m'.hooks = m.hooks ++ e.hooks := by
  obtain ⟨m₀, hinit, hrun⟩ := h
  have hflight : SingleFlight m :=
    hrun.preserves (fun s e t hok hstep hs => hs.step hok hstep) (singleFlight_initial hinit)
  exact ⟨hflight, hflight.not_inProgress,
    fun e m' hok hstep => hflight.hooks_step hok hstep⟩

namespace Sample

/-- Every address but the empty one is valid. -/
def addresses : Addresses := ⟨fun address => address ≠ "", fun _ => true⟩

/-- The puppeteer right after instantiation, on its own. -/
def flight : Flight where
  contract := ⟨{
    Puppeteer.instantiate puppeteerConfig with
    cwOwner := "admin"
    kvQueries := StorageMap.empty
    unbondingDelegations := StorageMap.empty
    unbondingDelegationsReplyIdStorage := StorageMap.empty
    recipientTransfers := [] }, StorageMap.empty, 0⟩
  outstanding := []
  accepted := []
  hooks := []

/-- The puppeteer on its own is in an initial state. -/
theorem flight_spec : FlightInitial flight :=
  ⟨⟨addresses.addrValidate, puppeteerConfig, rfl⟩, rfl, rfl, rfl⟩

/-- A message to the puppeteer. -/
def message (sender : String) (funds : List Coin) (seq : ℕ) (msg : PuppeteerExecuteMsg) :
    FlightEvent :=
  .execute addresses ⟨1, ⟨1000 * nanosPerSecond⟩, "puppeteer"⟩ ⟨sender, funds⟩ (.request msg) seq

/-- A contract with a hook, at the address of core. -/
def hookOfCore (address : String) (_ : ResponseHookMsg) : Bool := address = "core"

/-- A transfer of 5 base coins whose outcome is to be reported to `replyTo`. -/
def transferFor (replyTo : String) : List FlightEvent := [
  message "admin" [] 0 (.setFees 0 0 0 0),
  message "bob" [] 0 .registerICA,
  .openAck (some "ica"),
  message "core" [⟨"ibc/uatom", 5⟩] 1 (.ibcTransfer 60 .stake replyTo)]

/-- The packet of the transfer. -/
def transferPacket (replyTo : String) : Submitted :=
  ⟨1, .ibcTransfer "ibc/uatom" 5 "ica" .stake, replyTo⟩

end Sample

open Sample

/-- A list of events is run by evaluation. -/
theorem flightReachable_of_runList {ok : Flight → FlightEvent → Prop} {events : List FlightEvent}
    (hok : ∀ s, ∀ e ∈ events, ok s e)
    (h : runList Flight.exec (fun _ _ => true) flight events = some m) : FlightReachable ok m :=
  ⟨flight, flight_spec, runList_eq_some (fun _ _ _ hstep => hstep) (fun s e he _ => hok s e he) h⟩

/-- A transfer whose outcome is reported to core. -/
theorem single_flight_sample : ∃ m : Flight, SingleFlight m ∧
    m.outstanding = [transferPacket "core"] ∧
      m.puppeteer.currentTxState.status = .waitingForAck := by
  have hrun : (runList Flight.exec (fun _ _ => true) flight (transferFor "core")).any
      (fun m => decide (m.outstanding = [transferPacket "core"] ∧
        m.puppeteer.currentTxState.status = .waitingForAck)) = true := by
    decide
  obtain ⟨m, hm, hcheck⟩ := (Option.any_eq_true _ _).1 hrun
  obtain ⟨hout, hwaiting⟩ := of_decide_eq_true hcheck
  have hok : ∀ (s : Flight), ∀ e ∈ transferFor "core", e.HookAccepted := by
    intro s e he
    simp only [transferFor, List.mem_cons, List.not_mem_nil, or_false] at he
    rcases he with rfl | rfl | rfl | rfl <;> trivial
  exact ⟨m, (single_flight (flightReachable_of_runList hok hm)).1, hout, hwaiting⟩

/-- **The reply address of a transfer is not validated.** The outcome of a transfer for an address
that is none cannot be reported, so that the slot still waits when the packet is gone. -/
theorem flight_stuck : ¬ ∀ m, FlightReachable (fun _ _ => True) m → SingleFlight m := by
  intro hall
  have hrun : (runList Flight.exec (fun _ _ => true) flight (transferFor "" ++
      [.deliver (transferPacket "") .response hookOfCore])).any
      (fun m => decide (m.outstanding = [] ∧
        m.puppeteer.currentTxState.status = .waitingForAck)) = true := by
    decide
  obtain ⟨m, hm, hcheck⟩ := (Option.any_eq_true _ _).1 hrun
  obtain ⟨hout, hwaiting⟩ := of_decide_eq_true hcheck
  have hflight := hall m (flightReachable_of_runList (fun _ _ _ => trivial) hm)
  rw [hflight.idle hout] at hwaiting
  cases hwaiting

end Runs

end System

end DropContracts
