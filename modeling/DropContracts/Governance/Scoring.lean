import Mathlib.Algebra.Order.BigOperators.Group.List
import Mathlib.Algebra.Order.Ring.Nat
import Mathlib.Data.List.Nodup
import DropContracts.Governance.ProviderProposals
import DropContracts.Governance.VotesQuery
import DropContracts.ValidatorsSet.Voting

set_option relaxedAutoImplicit false
set_option autoImplicit false

/-!
# Scoring finished proposals

The contract of the proposals, the contract of the votes, the validator set and the window of
proposals that the chain reads for the first one. A call and the messages that it leads to are one
step, which takes place when all of them succeed; a run is kept with the list of its steps.

## Main definitions

* `Governance.World`, `Governance.Deployment` — the contracts and where they are deployed.
* `Governance.Action`, `Governance.World.act` — a call and what it does.
* `Governance.Event` — a step of a run.
* `Governance.ScoredOnce` — every proposal is scored at most once.

## Main results

* `Governance.run_valid` — the events of a run are steps.
* `Governance.scoredOnce_iff` — the runs in which every proposal is scored at most once.

## Design

The result of the query is handled by what its first proposal is, so everything that a run sends to
the validator set is told by the finished first proposals of its results (`Event.finished`). The
three parts of `ScoredOnce` then follow from what one such result does.
-/

namespace DropContracts

namespace Governance

open Exec ProviderProposals

/-! ## The contracts -/

/-- The contracts, and the window of proposals that the chain reads. -/
structure World where
  provider : ProviderProposals.Storage
  validators : ValidatorsSet.Storage
  votes : ProposalVotes.World
  window : List ℕ

/-- Where the contracts are, and what is outside them: which addresses are valid, the query library,
and whether the chain reads a window of proposals. -/
structure Deployment where
  providerProposals : String
  proposalVotes : String
  validatorsSet : String
  addrValidate : String → Bool
  library : List ℕ → Except String Unit
  accepts : List ℕ → Bool
  votes : ProposalVotes.Surroundings

/-- A call of one of the contracts; one by the chain comes with the result of the query. -/
inductive Action where
  | providerProposals (info : MessageInfo) (msg : ProviderProposals.ExecuteMsg)
  | proposalsResult (rawResult : Except String (Except String (List Proposal)))
      (msg : ProviderProposals.SudoMsg)
  | validatorsSet (info : MessageInfo) (msg : ValidatorsSet.ExecuteMsg)
  | proposalVotes (call : ProposalVotes.Action)

/-- A proposal as the validator set receives it. -/
def forValidators (proposal : ProviderProposals.ProposalInfo) : ValidatorsSet.ProposalInfo where
  proposalId := proposal.proposal.proposalId
  votes := proposal.votes.map fun votes => votes.map fun vote => ⟨vote.voter, vote.options⟩
  isSpam := proposal.isSpam

section Steps

variable (d : Deployment)

/-- A message of the contract of the proposals. One to another address than those of the deployment
changes none of the contracts. -/
def World.dispatch (w : World) : ProviderProposals.Msg → Option World
  | .updateGovProposalsQuery _ proposals =>
    if d.accepts proposals then some { w with window := proposals } else none
  | .updateValidatorsVoting contractAddr proposal =>
    if contractAddr = d.validatorsSet then do
      let validators ← (ValidatorsSet.execute w.validators ⟨d.providerProposals, []⟩
        d.addrValidate (.updateValidatorsVoting (forValidators proposal))).toOption
      return { w with validators }
    else some w
  | .updateActiveProposals contractAddr activeProposals =>
    if contractAddr = d.proposalVotes then do
      let votes ← w.votes.act d.votes
        (.execute ⟨d.providerProposals, []⟩ (.updateActiveProposals activeProposals))
      return { w with votes }
    else some w

/-- The state after a call of the contract of the proposals, with its messages. -/
def World.finish (w : World) (out : ProviderProposals.Result (ProviderProposals.Storage × List Msg)) :
    Option World := do
  let (provider, msgs) ← out.toOption
  msgs.foldlM (World.dispatch d) { w with provider }

/-- A message of the contract of the votes. -/
def World.deliverVotes (w : World) : ProposalVotes.WasmMsg → Option World
  | .updateProposalVotes contractAddr votes =>
    if contractAddr = d.providerProposals then
      w.finish d (ProviderProposals.execute d.addrValidate w.provider ⟨d.proposalVotes, []⟩
        (.updateProposalVotes votes))
    else some w

/-- The votes that the contract of the votes reports in a call. -/
def reportedVotes (s : ProposalVotes.Storage) : ProposalVotes.Action → List ProposalVotes.WasmMsg
  | .execute _ _ => []
  | .sudoCall rawResult msg => (ProposalVotes.sudoCall s (fun _ => rawResult) msg).toOption.getD []

/-- The outcome of a call of the contract of the proposals, if the action is one. -/
def World.proposalsCall (w : World) :
    Action → Option (ProviderProposals.Result (ProviderProposals.Storage × List Msg))
  | .providerProposals info msg => some (execute d.addrValidate w.provider info msg)
  | .proposalsResult rawResult msg => some (sudoCall d.library w.provider (fun _ => rawResult) msg)
  | .validatorsSet _ _ => none
  | .proposalVotes _ => none

/-- The state after a call, if it succeeds with all its messages. -/
def World.act (w : World) : Action → Option World
  | .providerProposals info msg => w.finish d (execute d.addrValidate w.provider info msg)
  | .proposalsResult rawResult msg =>
    w.finish d (sudoCall d.library w.provider (fun _ => rawResult) msg)
  | .validatorsSet info msg => do
    let validators ← (ValidatorsSet.execute w.validators info d.addrValidate msg).toOption
    return { w with validators }
  | .proposalVotes call => do
    let votes ← w.votes.act d.votes call
    (reportedVotes w.votes.storage call).foldlM (World.deliverVotes d) { w with votes }

/-- A step of the contracts. -/
def Step (w : World) (a : Action) (w' : World) : Prop := w.act d a = some w'

/-- New contracts: the query of the proposals is registered for the first window, and its id is
stored. -/
structure Initial (w : World) : Prop where
  provider : ∃ msg s register queryId,
    ProviderProposals.instantiate d.library d.addrValidate msg = .ok (s, register) ∧
      reply s proposalsReplyId (.ok (some (.ok queryId))) = .ok w.provider ∧
      w.window = register.proposals
  validators : ∃ owner statsContract,
    ValidatorsSet.instantiate d.addrValidate owner statsContract = .ok w.validators

end Steps

/-! ## Events -/

/-- A step of a run: the state before, the call, and the state after. -/
structure Event where
  before : World
  action : Action
  after : World

/-- The list of the steps of a run, with one more step. -/
def record (log : List Event) (w : World) (a : Action) (w' : World) : List Event :=
  log ++ [⟨w, a, w'⟩]

namespace Event

variable (d : Deployment) (e : Event)

/-- The proposals that are sent to a validator set. -/
def sent : List ProviderProposals.ProposalInfo :=
  let msgs := ((e.before.proposalsCall d e.action).bind fun out => out.toOption).elim [] Prod.snd
  msgs.filterMap Msg.scored

/-- The ids of the proposals that are sent to a validator set. -/
def sentIds : List ℕ := (e.sent d).map fun proposal => proposal.proposal.proposalId

/-- The first proposal of a result of the query of the proposals, if it is finished. -/
def finished : Option Proposal :=
  match e.action with
  | .proposalsResult (.ok (.ok proposals)) (.kvQueryResult queryId) =>
    if some queryId = e.before.provider.queryId then finishedFirst proposals else none
  | _ => none

/-- What the step adds to the number of proposals that were scored for an address. -/
def passedGrowth (address : String) : ℕ :=
  e.after.validators.passedProposals address - e.before.validators.passedProposals address

/-- What the step adds to the number of proposals that an address has voted on. -/
def votedGrowth (address : String) : ℕ :=
  e.after.validators.votedProposals address - e.before.validators.votedProposals address

/-- The sum of a measure over the steps that send a proposal. -/
def total (measure : Event → ℕ) (log : List Event) (proposalId : ℕ) : ℕ :=
  ((log.filter fun e => proposalId ∈ e.sentIds d).map measure).sum

end Event

/-- **Every proposal is scored at most once**: no id is sent twice, after a finished first proposal
the window is past it, and the counters of an address grow by at most one for each id. -/
structure ScoredOnce (d : Deployment) (log : List Event) : Prop where
  sentOnce : (log.flatMap (Event.sentIds d)).Nodup
  advanced : ∀ e ∈ log, ∀ first, e.finished = some first →
    ∀ proposalId ∈ e.after.window, first.proposalId < proposalId
  passedOnce : ∀ proposalId address,
    Event.total d (fun e => e.passedGrowth address) log proposalId ≤ 1
  votedOnce : ∀ proposalId address,
    Event.total d (fun e => e.votedGrowth address) log proposalId ≤ 1

/-! ## What a step does -/

section Valid

variable {d : Deployment} {w w' : World}

/-- A message leaves every entry of the validator set under its own address. -/
theorem dispatch_keyed {msg : Msg} (h : w.dispatch d msg = some w') (hw : w.validators.Keyed) :
    w'.validators.Keyed := by
  cases msg with
  | updateGovProposalsQuery queryId proposals =>
    simp only [World.dispatch] at h
    split_ifs at h
    rw [← Option.some.inj h]
    exact hw
  | updateValidatorsVoting contractAddr proposal =>
    simp only [World.dispatch, Option.bind_eq_bind] at h
    split_ifs at h
    · obtain ⟨validators, hvalidators, h⟩ := Option.bind_eq_some_iff.1 h
      rw [← Option.some.inj h]
      exact (ValidatorsSet.execute_addresses hw (toOption_eq_some.1 hvalidators)).1
    · rw [← Option.some.inj h]
      exact hw
  | updateActiveProposals contractAddr activeProposals =>
    simp only [World.dispatch, Option.bind_eq_bind] at h
    split_ifs at h
    · obtain ⟨votes, -, h⟩ := Option.bind_eq_some_iff.1 h
      rw [← Option.some.inj h]
      exact hw
    · rw [← Option.some.inj h]
      exact hw

/-- A call of the contract of the proposals keeps the entries under their addresses. -/
theorem finish_keyed {out : ProviderProposals.Result (ProviderProposals.Storage × List Msg)}
    (h : w.finish d out = some w') (hw : w.validators.Keyed) : w'.validators.Keyed := by
  simp only [World.finish, Option.bind_eq_bind] at h
  obtain ⟨_, -, h⟩ := Option.bind_eq_some_iff.1 h
  exact foldlM_preserves (P := fun w => w.validators.Keyed) (fun _ _ _ => dispatch_keyed) h hw

/-- Every step keeps the entries under their addresses. -/
theorem step_keyed {a : Action} (h : Step d w a w') (hw : w.validators.Keyed) :
    w'.validators.Keyed := by
  cases a with
  | providerProposals info msg => exact finish_keyed h hw
  | proposalsResult rawResult msg => exact finish_keyed h hw
  | validatorsSet info msg =>
    obtain ⟨validators, hvalidators, h⟩ := Option.bind_eq_some_iff.1 h
    rw [← Option.some.inj h]
    exact (ValidatorsSet.execute_addresses hw (toOption_eq_some.1 hvalidators)).1
  | proposalVotes call =>
    obtain ⟨votes, -, h⟩ := Option.bind_eq_some_iff.1 h
    apply foldlM_preserves (P := fun w => w.validators.Keyed) _ h hw
    rintro w₁ ⟨contractAddr, votes⟩ w₂ hdeliver hw₁
    simp only [World.deliverVotes] at hdeliver
    split_ifs at hdeliver
    · exact finish_keyed hdeliver hw₁
    · rw [← Option.some.inj hdeliver]
      exact hw₁

/-- An event that is a step from a validator set with its entries in their places. -/
structure Event.Valid (d : Deployment) (e : Event) : Prop where
  step : Step d e.before e.action e.after
  keyed : e.before.validators.Keyed

/-- A new validator set has no entries. -/
theorem Initial.keyed (h : Initial d w) : w.validators.Keyed := by
  obtain ⟨owner, statsContract, hvalidators⟩ := h.validators
  simp only [ValidatorsSet.instantiate, bind_eq_ok, pure_eq_ok, Except.ok.injEq] at hvalidators
  obtain ⟨-, -, -, -, hvalidators⟩ := hvalidators
  intro address validator hload
  rw [← hvalidators] at hload
  simp at hload

/-- **The events of a run are steps**, from validator sets with the entries in their places. -/
theorem run_valid {w₀ : World} {log : List Event} (hinit : Initial d w₀)
    (hrun : Run (Recorded (Step d) record) (w₀, []) (w, log)) : ∀ e ∈ log, e.Valid d := by
  have hboth : w.validators.Keyed ∧ ∀ e ∈ log, e.Valid d := by
    refine hrun.preserves (P := fun x => x.1.validators.Keyed ∧ ∀ e ∈ x.2, e.Valid d) ?_
      ⟨hinit.keyed, fun e he => by cases he⟩
    rintro x a y - ⟨hstep, hlog⟩ ⟨hkeyed, hvalid⟩
    refine ⟨step_keyed hstep hkeyed, fun e he => ?_⟩
    rw [hlog, record, List.mem_append, List.mem_singleton] at he
    rcases he with he | rfl
    · exact hvalid e he
    · exact ⟨hstep, hkeyed⟩
  exact hboth.2

/-! ### Results of the query -/

/-- What a call of the contract of the proposals sends. -/
theorem Event.sentIds_of_call {e : Event} {out : ProviderProposals.Storage × List Msg}
    (h : e.before.proposalsCall d e.action = some (.ok out)) :
    e.sentIds d = (out.2.filterMap Msg.scored).map fun proposal => proposal.proposal.proposalId := by
  simp only [Event.sentIds, Event.sent, h]
  rfl

/-- What no call of the contract of the proposals sends. -/
theorem Event.sentIds_of_none {e : Event} (h : e.before.proposalsCall d e.action = none) :
    e.sentIds d = [] := by
  simp only [Event.sentIds, Event.sent, h]
  rfl

/-- A step that is a call of the contract of the proposals. -/
theorem finish_eq_some {out : ProviderProposals.Result (ProviderProposals.Storage × List Msg)} :
    w.finish d out = some w' ↔
      ∃ r, out = .ok r ∧ r.2.foldlM (World.dispatch d) { w with provider := r.1 } = some w' := by
  simp only [World.finish, Option.bind_eq_bind, Option.bind_eq_some_iff, toOption_eq_some]

/-- A result without a finished first proposal, and every other step, sends nothing to a validator
set. -/
theorem Event.Valid.sentIds_of_open {e : Event} (he : e.Valid d) (hopen : e.finished = none) :
    e.sentIds d = [] := by
  obtain ⟨before, action, after⟩ := e
  have hstep := he.step
  cases action with
  | providerProposals info msg =>
    obtain ⟨out, hout, -⟩ := finish_eq_some.1 hstep
    have hcall : (⟨before, .providerProposals info msg, after⟩ : Event).sentIds d = _ :=
      Event.sentIds_of_call (congrArg some hout)
    rw [hcall, execute_scored hout]
    rfl
  | proposalsResult rawResult msg =>
    obtain ⟨out, hout, -⟩ := finish_eq_some.1 hstep
    have hcall : (⟨before, .proposalsResult rawResult msg, after⟩ : Event).sentIds d = _ :=
      Event.sentIds_of_call (congrArg some hout)
    rw [hcall]
    cases msg with
    | other =>
      rw [← Except.ok.inj hout]
      rfl
    | kvQueryResult queryId =>
      rcases rawResult with _ | data
      · cases hout
      · simp only [sudoCall, sudoKvQueryResult] at hout
        split_ifs at hout with hquery
        · rcases data with _ | proposals
          · cases hout
          · simp only [Event.finished, if_pos hquery] at hopen
            obtain ⟨-, ⟨-, hmsgs⟩ | ⟨first, hfirst, -⟩⟩ :=
              sudoProposalsQuery_cases hquery.symm hout
            · rw [hmsgs]
              rfl
            · rw [hopen] at hfirst
              cases hfirst
        · rw [← Except.ok.inj hout]
          rfl
  | validatorsSet info msg => exact Event.sentIds_of_none rfl
  | proposalVotes call => exact Event.sentIds_of_none rfl

/-- The step after a result with a finished first proposal: what is sent, the new window, and the
validator set, which processes the proposal when the message is addressed to it. -/
structure Event.Scores (d : Deployment) (e : Event) (first : Proposal) (isSpam : Bool) : Prop where
  spam : isSpamProposal first e.before.provider.config.vetoSpamThreshold = .ok isSpam
  sentIds : e.sentIds d = [first.proposalId]
  window : e.after.window =
    List.range' first.proposalId e.before.provider.config.proposalsPrefetch
  validators : if e.before.provider.config.validatorsSetAddress = d.validatorsSet then
      ValidatorsSet.executeUpdateValidatorsVoting e.before.validators ⟨d.providerProposals, []⟩
        (forValidators ⟨first, e.before.provider.proposalsVotes.load first.proposalId, isSpam⟩) =
          .ok e.after.validators
    else e.after.validators = e.before.validators

/-- The messages to a contract of the votes leave the window and the validator set alone. -/
theorem dispatch_active {contractAddr : Option String} {activeProposals : List ℕ}
    (h : (contractAddr.toList.map (Msg.updateActiveProposals · activeProposals)).foldlM
      (World.dispatch d) w = some w') :
    w'.window = w.window ∧ w'.validators = w.validators := by
  cases contractAddr with
  | none =>
    rw [← Option.some.inj h]
    exact ⟨rfl, rfl⟩
  | some address =>
    simp only [Option.toList_some, List.map_cons, List.map_nil, List.foldlM_cons, List.foldlM_nil,
      World.dispatch, Option.bind_eq_bind] at h
    split_ifs at h
    · obtain ⟨u, hu, h⟩ := Option.bind_eq_some_iff.1 h
      obtain ⟨votes, -, hu⟩ := Option.bind_eq_some_iff.1 hu
      rw [← Option.some.inj h, ← Option.some.inj hu]
      exact ⟨rfl, rfl⟩
    · rw [← Option.some.inj h]
      exact ⟨rfl, rfl⟩

/-- **A result with a finished first proposal** sends this proposal, and the new window starts with
it. -/
theorem Event.Valid.scores {e : Event} {first : Proposal} (he : e.Valid d)
    (hfinished : e.finished = some first) : ∃ isSpam, e.Scores d first isSpam := by
  obtain ⟨before, action, after⟩ := e
  have hstep := he.step
  unfold Event.finished at hfinished
  split at hfinished
  · next proposals queryId haction =>
    cases haction
    split_ifs at hfinished with hquery
    obtain ⟨out, hout, hfold⟩ := finish_eq_some.1 hstep
    have hcall : (⟨before, .proposalsResult (.ok (.ok proposals)) (.kvQueryResult queryId),
        after⟩ : Event).sentIds d = _ := Event.sentIds_of_call (congrArg some hout)
    simp only [sudoCall, sudoKvQueryResult, if_pos hquery] at hout
    obtain ⟨hprovider, ⟨hnone, -⟩ | ⟨_, hfirst, hmsgs⟩⟩ :=
      sudoProposalsQuery_cases hquery.symm hout
    · rw [hnone] at hfinished
      cases hfinished
    · cases hfirst.symm.trans hfinished
      obtain ⟨isSpam, hspam, hmsgs⟩ := finishedMsgs_eq_ok hmsgs
      rw [hmsgs] at hcall hfold
      simp only [List.filterMap_cons, Msg.scored, filterMap_scored_active] at hcall
      simp only [List.foldlM_cons, Option.bind_eq_bind] at hfold
      obtain ⟨w₁, hwindow, hfold⟩ := Option.bind_eq_some_iff.1 hfold
      obtain ⟨w₂, hvoting, hfold⟩ := Option.bind_eq_some_iff.1 hfold
      obtain ⟨hwindow', hvalidators'⟩ := dispatch_active hfold
      simp only [World.dispatch] at hwindow hvoting
      split_ifs at hwindow
      cases Option.some.inj hwindow
      split_ifs at hvoting with htarget
      · obtain ⟨validators, hvalidators, hvoting⟩ := Option.bind_eq_some_iff.1 hvoting
        cases Option.some.inj hvoting
        refine ⟨isSpam, hspam, hcall, hwindow', ?_⟩
        rw [if_pos htarget, hvalidators']
        exact toOption_eq_some.1 hvalidators
      · cases Option.some.inj hvoting
        refine ⟨isSpam, hspam, hcall, hwindow', ?_⟩
        rw [if_neg htarget, hvalidators']
  · cases hfinished

end Valid

/-! ## When every proposal is scored at most once -/

/-- The votes on a proposal that are stored when a result is processed. -/
def Event.storedVotes (e : Event) (proposal : Proposal) : List ProposalVote :=
  (e.before.provider.proposalsVotes.load proposal.proposalId).getD []

/-- Every validator with an entry has at most one vote among those stored on the proposal, if the
proposal is sent to the validator set and is not spam. -/
def Event.SingleVotes (d : Deployment) (e : Event) (proposal : Proposal) : Prop :=
  e.before.provider.config.validatorsSetAddress = d.validatorsSet →
    isSpamProposal proposal e.before.provider.config.vetoSpamThreshold = .ok false →
    ∀ address ∈ e.before.validators.addresses,
      ((e.storedVotes proposal).filter fun vote => vote.voter = address).length ≤ 1

/-- The results of a run let every proposal be scored at most once: no two of them have the same
finished first proposal, such a result comes when the window has length zero, and the votes stored
on the proposal are at most one for each validator. -/
structure ScorableOnce (d : Deployment) (log : List Event) : Prop where
  fresh : (log.filterMap fun e => e.finished.map Proposal.proposalId).Nodup
  noPrefetch : ∀ e ∈ log, ∀ first, e.finished = some first →
    e.before.provider.config.proposalsPrefetch = 0
  singleVotes : ∀ e ∈ log, ∀ first, e.finished = some first → e.SingleVotes d first

section ScoredOnce

variable {d : Deployment} {e : Event} {log : List Event} {first : Proposal} {isSpam : Bool}

/-- The votes of an address that the validator set counts. -/
theorem length_votesOf_counted (proposal : Proposal) (votes : Option (List ProposalVote))
    (isSpam : Bool) (address : String) :
    (ValidatorsSet.votesOf address (forValidators ⟨proposal, votes, isSpam⟩).counted).length =
      if isSpam then 0 else ((votes.getD []).filter fun vote => vote.voter = address).length := by
  unfold ValidatorsSet.ProposalInfo.counted
  cases isSpam with
  | true => rfl
  | false =>
    cases votes with
    | none => rfl
    | some votes =>
      simp only [forValidators, ValidatorsSet.votesOf, Option.map_some, Option.getD_some,
        Bool.false_eq_true, if_false, List.filter_map, List.length_map]
      rfl

/-- A result that is not addressed to the validator set leaves the counters alone. -/
theorem Event.Scores.growth_of_ne (hscores : e.Scores d first isSpam)
    (htarget : e.before.provider.config.validatorsSetAddress ≠ d.validatorsSet)
    (address : String) : e.passedGrowth address = 0 ∧ e.votedGrowth address = 0 := by
  have hsame := hscores.validators
  rw [if_neg htarget] at hsame
  simp [Event.passedGrowth, Event.votedGrowth, hsame]

/-- The counters of an address without an entry stay zero. -/
theorem Event.Valid.growth_of_not_mem (he : e.Valid d) (hscores : e.Scores d first isSpam)
    {address : String} (haddress : address ∉ e.before.validators.addresses) :
    e.passedGrowth address = 0 ∧ e.votedGrowth address = 0 := by
  by_cases htarget : e.before.provider.config.validatorsSetAddress = d.validatorsSet
  · have hvoting := hscores.validators
    rw [if_pos htarget] at hvoting
    have hexecute : ValidatorsSet.execute e.before.validators ⟨d.providerProposals, []⟩
        d.addrValidate (.updateValidatorsVoting (forValidators
          ⟨first, e.before.provider.proposalsVotes.load first.proposalId, isSpam⟩)) =
        .ok e.after.validators := hvoting
    have hafter : address ∉ e.after.validators.addresses := by
      rw [(ValidatorsSet.execute_addresses he.keyed hexecute).2 address]
      exact haddress
    obtain ⟨hpassed, hvoted⟩ := ValidatorsSet.counters_of_not_mem hafter
    simp [Event.passedGrowth, Event.votedGrowth, hpassed, hvoted]
  · exact hscores.growth_of_ne htarget address

/-- **What a result adds to the counters of an address**: if it has an entry and the proposal is
sent to the validator set and is not spam, the number of its votes that are stored; and no more to
the number of proposals that it has voted on. -/
theorem Event.Valid.growth (he : e.Valid d) (hscores : e.Scores d first isSpam)
    (address : String) :
    e.passedGrowth address =
        (if e.before.provider.config.validatorsSetAddress = d.validatorsSet ∧ isSpam = false ∧
            address ∈ e.before.validators.addresses then
          ((e.storedVotes first).filter fun vote => vote.voter = address).length
        else 0) ∧
      e.votedGrowth address ≤ e.passedGrowth address := by
  by_cases htarget : e.before.provider.config.validatorsSetAddress = d.validatorsSet
  · by_cases haddress : address ∈ e.before.validators.addresses
    · have hvoting := hscores.validators
      rw [if_pos htarget] at hvoting
      obtain ⟨hpassed, hvoted⟩ :=
        ValidatorsSet.executeUpdateValidatorsVoting_counters he.keyed hvoting haddress
      rw [Event.passedGrowth, Event.votedGrowth, hpassed, hvoted, Nat.add_sub_cancel_left,
        Nat.add_sub_cancel_left, length_votesOf_counted]
      refine ⟨?_, ?_⟩
      · cases isSpam with
        | true => simp
        | false => simp [htarget, haddress, Event.storedVotes]
      · rw [← length_votesOf_counted first]
        exact List.length_filter_le _ _
    · obtain ⟨hpassed, hvoted⟩ := he.growth_of_not_mem hscores haddress
      simp [hpassed, hvoted, haddress]
  · obtain ⟨hpassed, hvoted⟩ := hscores.growth_of_ne htarget address
    simp [hpassed, hvoted, htarget]

/-- The counters grow by at most one exactly when there is at most one vote for each validator. -/
theorem Event.Valid.growth_le_one_iff (he : e.Valid d) (hfinished : e.finished = some first) :
    (∀ address, e.passedGrowth address ≤ 1) ↔ e.SingleVotes d first := by
  obtain ⟨isSpam, hscores⟩ := he.scores hfinished
  constructor
  · intro hgrowth htarget hspam address haddress
    have hfalse : isSpam = false := Except.ok.inj (hscores.spam.symm.trans hspam)
    have hone := hgrowth address
    rw [(he.growth hscores address).1, if_pos ⟨htarget, hfalse, haddress⟩] at hone
    exact hone
  · intro hsingle address
    rw [(he.growth hscores address).1]
    split_ifs with hcounted
    · obtain ⟨htarget, rfl, haddress⟩ := hcounted
      exact hsingle htarget hscores.spam address haddress
    · exact Nat.zero_le 1

/-- What a step sends: the finished first proposal of its result, if there is one. -/
theorem Event.Valid.sentIds_eq (he : e.Valid d) :
    e.sentIds d = (e.finished.map Proposal.proposalId).toList := by
  cases hfinished : e.finished with
  | none => exact he.sentIds_of_open hfinished
  | some first =>
    obtain ⟨isSpam, hscores⟩ := he.scores hfinished
    exact hscores.sentIds

/-- What a run sends, in order: the finished first proposals of its results. -/
theorem flatMap_sentIds (hvalid : ∀ e ∈ log, e.Valid d) :
    log.flatMap (Event.sentIds d) = log.filterMap fun e => e.finished.map Proposal.proposalId := by
  rw [List.filterMap_eq_flatMap_toList]
  apply List.flatMap_congr
  exact fun e he => (hvalid e he).sentIds_eq

/-- In a list of lists without repetition an element is in at most one of the lists. -/
theorem length_filter_le_one {α β : Type} [DecidableEq β] {f : α → List β} {l : List α}
    (h : (l.flatMap f).Nodup) (x : β) : (l.filter fun a => x ∈ f a).length ≤ 1 := by
  have hcount : (l.filter fun a => x ∈ f a).length ≤ (l.flatMap f).count x := by
    clear h
    induction l with
    | nil => exact Nat.zero_le _
    | cons a l ih =>
      rw [List.flatMap_cons, List.count_append, List.filter_cons]
      by_cases hmem : x ∈ f a
      · have hone : 1 ≤ (f a).count x := List.count_pos_iff.2 hmem
        simp only [hmem, decide_true, if_true, List.length_cons]
        omega
      · simp only [hmem, decide_false, Bool.false_eq_true, if_false]
        omega
  exact hcount.trans (List.nodup_iff_count_le_one.1 h x)

/-- The sum of a measure that is at most one, over a list with at most one element. -/
theorem sum_map_le_one {α : Type} {f : α → ℕ} {l : List α} (hlength : l.length ≤ 1)
    (h : ∀ a ∈ l, f a ≤ 1) : (l.map f).sum ≤ 1 := by
  rcases l with _ | ⟨a, _ | ⟨b, l⟩⟩
  · exact Nat.zero_le 1
  · simpa using h a (by simp)
  · simp at hlength

/-- When no id is sent twice, a total is at most one if every result adds at most one. -/
theorem total_le_one {measure : Event → ℕ} (hvalid : ∀ e ∈ log, e.Valid d)
    (hnodup : (log.flatMap (Event.sentIds d)).Nodup)
    (hmeasure : ∀ e ∈ log, ∀ first, e.finished = some first → measure e ≤ 1) (proposalId : ℕ) :
    Event.total d measure log proposalId ≤ 1 := by
  apply sum_map_le_one (length_filter_le_one hnodup proposalId)
  intro e he
  obtain ⟨hlog, hsent⟩ := List.mem_filter.1 he
  rw [(hvalid e hlog).sentIds_eq, decide_eq_true_eq, Option.mem_toList,
    Option.map_eq_some_iff] at hsent
  obtain ⟨first, hfinished, -⟩ := hsent
  exact hmeasure e hlog first hfinished

/-- A step adds no more than the total. -/
theorem le_total (measure : Event → ℕ) (he : e ∈ log) (hvalid : e.Valid d)
    (hfinished : e.finished = some first) :
    measure e ≤ Event.total d measure log first.proposalId := by
  apply List.single_le_sum (fun n _ => Nat.zero_le n)
  apply List.mem_map_of_mem
  rw [List.mem_filter, hvalid.sentIds_eq, hfinished]
  simp [he]

/-- **The runs in which every proposal is scored at most once.** In every run of new contracts, no
proposal is sent twice to the validator set, the window moves past every finished first proposal,
and the counters of the validators grow by at most one for each proposal, if and only if no two
results have the same finished first proposal, every result with one comes while the length of the
window is configured as zero, and the stored votes on such a proposal that is not spam are at most
one for each validator.

**Proof sketch.** A result with a finished first proposal sends this proposal each time
(`flatMap_sentIds`), makes it the first one of the new window (`forall_window_gt_iff`), and adds the
votes of a validator to its counters (`Event.Valid.growth_le_one_iff`). When no proposal is sent
twice, the total for a proposal has at most one summand. -/
theorem scoredOnce_iff {w₀ w : World} (hinit : Initial d w₀)
    (hrun : Run (Recorded (Step d) record) (w₀, []) (w, log)) :
    ScoredOnce d log ↔ ScorableOnce d log := by
  have hvalid : ∀ e ∈ log, e.Valid d := run_valid hinit hrun
  constructor
  · rintro ⟨hsent, hadvanced, hpassed, -⟩
    refine ⟨?_, ?_, ?_⟩
    · rw [← flatMap_sentIds hvalid]
      exact hsent
    · intro e he first hfinished
      obtain ⟨isSpam, hscores⟩ := (hvalid e he).scores hfinished
      have hpast := hadvanced e he first hfinished
      rw [hscores.window] at hpast
      exact (forall_window_gt_iff _ _).1 hpast
    · intro e he first hfinished
      apply ((hvalid e he).growth_le_one_iff hfinished).1
      intro address
      have hle : e.passedGrowth address ≤ _ :=
        le_total (fun e => e.passedGrowth address) he (hvalid e he) hfinished
      exact hle.trans (hpassed _ _)
  · rintro ⟨hfresh, hprefetch, hsingle⟩
    have hsent : (log.flatMap (Event.sentIds d)).Nodup := by
      rw [flatMap_sentIds hvalid]
      exact hfresh
    have hgrowth : ∀ address, ∀ e ∈ log, ∀ first, e.finished = some first →
        e.passedGrowth address ≤ 1 := by
      intro address e he first hfinished
      exact ((hvalid e he).growth_le_one_iff hfinished).2 (hsingle e he first hfinished) address
    refine ⟨hsent, ?_, ?_, ?_⟩
    · intro e he first hfinished
      obtain ⟨isSpam, hscores⟩ := (hvalid e he).scores hfinished
      rw [hscores.window]
      exact (forall_window_gt_iff _ _).2 (hprefetch e he first hfinished)
    · intro proposalId address
      exact total_le_one hvalid hsent (hgrowth address) proposalId
    · intro proposalId address
      apply total_le_one hvalid hsent _ proposalId
      intro e he first hfinished
      obtain ⟨isSpam, hscores⟩ := (hvalid e he).scores hfinished
      exact ((hvalid e he).growth hscores address).2.trans (hgrowth address e he first hfinished)

end ScoredOnce

/-! ## Two runs -/

section Runs

variable {d : Deployment}

/-- A step with its record. -/
def World.recorded (d : Deployment) (x : World × List Event) (a : Action) :
    Option (World × List Event) :=
  (x.1.act d a).map fun w' => (w', record x.2 x.1 a w')

/-- An evaluated list of calls is a run. -/
theorem run_of_runList {x y : World × List Event} {actions : List Action}
    (h : runList (World.recorded d) (fun _ _ => true) x actions = some y) :
    Run (Recorded (Step d) record) x y := by
  apply runList_eq_some _ (fun _ _ _ _ => trivial) h
  exact fun _ _ _ hstep => Recorded.of_map (fun _ _ _ hact => hact) hstep

/-- What is enough to check on the results of a run. -/
theorem ScorableOnce.of_all {log : List Event}
    (hfresh : (log.filterMap fun e => e.finished.map Proposal.proposalId).Nodup)
    (hall : log.all (fun e => e.finished.all fun first =>
      e.before.provider.config.proposalsPrefetch = 0 &&
        e.before.validators.addresses.all fun address =>
          ((e.storedVotes first).filter fun vote => vote.voter = address).length ≤ 1) = true) :
    ScorableOnce d log := by
  have hevent : ∀ e ∈ log, ∀ first, e.finished = some first →
      e.before.provider.config.proposalsPrefetch = 0 ∧
        ∀ address ∈ e.before.validators.addresses,
          ((e.storedVotes first).filter fun vote => vote.voter = address).length ≤ 1 := by
    intro e he first hfinished
    have h := List.all_eq_true.1 hall e he
    simpa [hfinished] using h
  refine ⟨hfresh, fun e he first hfinished => (hevent e he first hfinished).1, ?_⟩
  intro e he first hfinished _ _
  exact (hevent e he first hfinished).2

/-- The deployment of the sample, on a chain that accepts no empty window. -/
def sample : Deployment where
  providerProposals := "provider_proposals"
  proposalVotes := "proposal_votes"
  validatorsSet := "validators_set"
  addrValidate := fun _ => true
  library := fun _ => .ok ()
  accepts := fun proposals => !proposals.isEmpty
  votes := ProposalVotes.sampleEnv

/-- The configuration of the sample: a window of two proposals. -/
def sampleConfig : ProviderProposals.Config :=
  ⟨"connection-0", "icqport", 100, "core", none, "validators_set", 1, 2, ⟨500000000000000000⟩⟩

/-- The contracts of the sample. -/
def sampleStart : World where
  provider := ⟨sampleConfig, "core", some 7, StorageMap.empty, StorageMap.empty⟩
  validators := ⟨⟨"core", "stats", none⟩, "core", StorageMap.empty⟩
  votes := ProposalVotes.sampleStart
  window := [1, 2]

/-- The contracts of the sample are new. -/
theorem sampleStart_initial : Initial sample sampleStart where
  provider := ⟨⟨"connection-0", "icqport", 100, "core", "validators_set", 1, 2,
    ⟨500000000000000000⟩⟩, ⟨sampleConfig, "core", none, StorageMap.empty, StorageMap.empty⟩,
    ⟨"connection-0", [1, 2], 100⟩, 7, rfl, rfl, rfl⟩
  validators := ⟨"core", "stats", rfl⟩

/-- An update of the configuration of the sample. -/
def sampleUpdate (proposalVotesAddress : Option String) (proposalsPrefetch : Option ℕ) : Action :=
  .providerProposals ⟨"core", []⟩
    (.updateConfig ⟨none, none, none, none, proposalVotesAddress, none, proposalsPrefetch, none⟩)

/-- A result in which the first proposal has passed and the second is still open. -/
def samplePassed : Action :=
  .proposalsResult (.ok (.ok [⟨1, 3, some ⟨10, 0, 0, 0⟩⟩, ⟨2, 2, none⟩])) (.kvQueryResult 7)

/-- The calls that set up a validator with one vote on the first proposal. -/
def sampleSetup : List Action := [
  .validatorsSet ⟨"core", []⟩ (.updateConfig ⟨none, none, some "provider_proposals"⟩),
  .validatorsSet ⟨"core", []⟩ (.updateValidators [⟨"valoper", 1⟩]),
  sampleUpdate (some "proposal_votes") none,
  .providerProposals ⟨"proposal_votes", []⟩ (.updateProposalVotes [⟨1, "valoper", ["yes"]⟩])]

/-- **A finished proposal is scored with every result**: it stays the first proposal of the window,
and the next result counts its votes again. -/
theorem finished_proposal_scored_twice :
    ∃ w log, Initial sample sampleStart ∧
      Run (Recorded (Step sample) record) (sampleStart, []) (w, log) ∧
      log.flatMap (Event.sentIds sample) = [1, 1] ∧ w.window = [1, 2] ∧
      w.validators.passedProposals "valoper" = 2 ∧ ¬ ScoredOnce sample log := by
  have hrun : ((runList (World.recorded sample) (fun _ _ => true) (sampleStart, [])
      (sampleSetup ++ [samplePassed, samplePassed])).map fun x =>
        (x.2.flatMap (Event.sentIds sample), x.1.window,
          x.1.validators.passedProposals "valoper")) = some ([1, 1], [1, 2], 2) := rfl
  obtain ⟨⟨w, log⟩, hlist, hvalues⟩ := Option.map_eq_some_iff.1 hrun
  simp only [Prod.mk.injEq] at hvalues
  obtain ⟨hsent, hwindow, hpassed⟩ := hvalues
  refine ⟨w, log, sampleStart_initial, run_of_runList hlist, hsent, hwindow, hpassed, ?_⟩
  intro hscored
  have hnodup := hscored.sentOnce
  rw [hsent] at hnodup
  revert hnodup
  decide

/-- A result in which both proposals are still open. -/
def sampleOpen : Action :=
  .proposalsResult (.ok (.ok [⟨1, 2, none⟩, ⟨2, 2, none⟩])) (.kvQueryResult 7)

/-- While the first proposal is open, the results leave the window on it, and none is scored. -/
theorem scoredOnce_iff_sample :
    ∃ w log, Run (Recorded (Step sample) record) (sampleStart, []) (w, log) ∧
      log.flatMap (Event.sentIds sample) = [] ∧ w.window = [1, 2] ∧
      ScoredOnce sample log := by
  have hrun : ((runList (World.recorded sample) (fun _ _ => true) (sampleStart, [])
      (sampleSetup ++ [sampleOpen, sampleOpen])).map fun x =>
        (x.2.flatMap (Event.sentIds sample), x.1.window,
          (x.2.filterMap fun e => e.finished.map Proposal.proposalId),
          x.2.all (fun e => e.finished.all fun first =>
            e.before.provider.config.proposalsPrefetch = 0 &&
              e.before.validators.addresses.all fun address =>
                ((e.storedVotes first).filter fun vote => vote.voter = address).length ≤ 1))) =
      some ([], [1, 2], [], true) := rfl
  obtain ⟨⟨w, log⟩, hlist, hvalues⟩ := Option.map_eq_some_iff.1 hrun
  simp only [Prod.mk.injEq] at hvalues
  obtain ⟨hsent, hwindow, hids, hall⟩ := hvalues
  have hfresh : (log.filterMap fun e => e.finished.map Proposal.proposalId).Nodup := by
    rw [hids]
    exact List.nodup_nil
  exact ⟨w, log, run_of_runList hlist, hsent, hwindow,
    (scoredOnce_iff sampleStart_initial (run_of_runList hlist)).2 (.of_all hfresh hall)⟩

end Runs

end Governance

end DropContracts
