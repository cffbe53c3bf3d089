import Mathlib.Data.List.Dedup
import DropContracts.Base.Decimal
import DropContracts.Governance.ProposalVotes

set_option relaxedAutoImplicit false
set_option autoImplicit false

/-!
# The governance proposals of the remote chain

`contracts/provider-proposals-poc/src/contract.rs`: the contract that reads a window of proposals of
the remote chain, through one interchain query, and reports the first of them to the validator set
once it is finished.

A proposal is kept with what the contract reads of it; its type, its deposit and its times are left
out. The messages to the query module are kept with the proposals that their keys are made from;
whether the query library can build the keys is a parameter.

## Main definitions

* `ProviderProposals.Storage` — the storage items.
* `ProviderProposals.execute`, `ProviderProposals.reply`, `ProviderProposals.sudoCall` — the entry
  points.
* `ProviderProposals.sudoProposalsQuery` — how the contract handles a result of its query.

## Main results

* `ProviderProposals.sudoProposalsQuery_cases` — the messages after a result, by its first proposal.
-/

namespace DropContracts

namespace ProviderProposals

open Exec Icq

/-! ## Data -/

/-- `ProposalStatus`. -/
inductive ProposalStatus where
  | unspecified
  | depositPeriod
  | votingPeriod
  | passed
  | rejected
  | failed
  deriving DecidableEq, Repr

/-- The number of a status (`as i32`). -/
def ProposalStatus.toInt : ProposalStatus → ℤ
  | .unspecified => 0
  | .depositPeriod => 1
  | .votingPeriod => 2
  | .passed => 3
  | .rejected => 4
  | .failed => 5

/-- The votes that were counted. -/
structure TallyResult where
  yes : ℕ
  no : ℕ
  abstain : ℕ
  noWithVeto : ℕ
  deriving DecidableEq, Repr

/-- A proposal of the remote chain. -/
structure Proposal where
  proposalId : ℕ
  status : ℤ
  finalTallyResult : Option TallyResult
  deriving DecidableEq, Repr

/-- A proposal with the votes on it. -/
structure ProposalInfo where
  proposal : Proposal
  votes : Option (List ProposalVote)
  isSpam : Bool
  deriving DecidableEq, Repr

/-- The configuration. -/
structure Config where
  connectionId : String
  portId : String
  updatePeriod : ℕ
  coreAddress : String
  proposalVotesAddress : Option String
  validatorsSetAddress : String
  initProposal : ℕ
  proposalsPrefetch : ℕ
  vetoSpamThreshold : Decimal
  deriving DecidableEq, Repr

/-- An update of the configuration. The first proposal cannot be changed. -/
structure ConfigOptional where
  connectionId : Option String
  portId : Option String
  updatePeriod : Option ℕ
  coreAddress : Option String
  proposalVotesAddress : Option String
  validatorsSetAddress : Option String
  proposalsPrefetch : Option ℕ
  vetoSpamThreshold : Option Decimal
  deriving DecidableEq, Repr

/-- The message that creates the contract. -/
structure InstantiateMsg where
  connectionId : String
  portId : String
  updatePeriod : ℕ
  coreAddress : String
  validatorsSetAddress : String
  initProposal : ℕ
  proposalsPrefetch : ℕ
  vetoSpamThreshold : Decimal
  deriving DecidableEq, Repr

/-- The messages of the contract. -/
inductive ExecuteMsg where
  | updateConfig (newConfig : ConfigOptional)
  | updateProposalVotes (votes : List ProposalVote)
  deriving DecidableEq, Repr

/-- The errors of the contract. -/
inductive ContractError where
  | std (e : StdError)
  | neutronError (msg : String)
  | ownershipError
  | unauthorized
  | unknownReplyId (id : ℕ)
  deriving DecidableEq, Repr

/-- A call of the contract. -/
abbrev Result (α : Type) := Exec ContractError α

/-- The storage items. -/
structure Storage where
  config : Config
  cwOwner : String
  queryId : Option ℕ
  proposals : StorageMap ℕ Proposal
  proposalsVotes : StorageMap ℕ (List ProposalVote)

/-- A message that the contract sends: to the query module, to the validator set, and to the
contract of the votes. -/
inductive Msg where
  | updateGovProposalsQuery (queryId : ℕ) (proposals : List ℕ)
  | updateValidatorsVoting (contractAddr : String) (proposal : ProposalInfo)
  | updateActiveProposals (contractAddr : String) (activeProposals : List ℕ)
  deriving DecidableEq, Repr

/-- The proposal that a message sends to a validator set. -/
def Msg.scored : Msg → Option ProposalInfo
  | .updateValidatorsVoting _ proposal => some proposal
  | _ => none

/-- The registration of the query for a window of proposals. -/
structure RegisterGovProposalsQuery where
  connectionId : String
  proposals : List ℕ
  updatePeriod : ℕ
  deriving DecidableEq, Repr

/-- `PROPOSALS_REPLY_ID`. -/
def proposalsReplyId : ℕ := 1

/-- The window of proposals `first..first + prefetch`. -/
def proposalsWindow (first prefetch : ℕ) : Result (List ℕ) := do
  let _ ← checkedAdd U64.bound first prefetch
  return List.range' first prefetch

/-- An error of the query library, if it has one for the given proposals. -/
def queryBuilt (built : Except String Unit) : Result Unit :=
  match built with
  | .ok _ => .ok ()
  | .error e => fail (.neutronError e)

/-- `addr_validate`. -/
def validated (addrValidate : String → Bool) (address : String) : Result Unit :=
  ensure (addrValidate address = true) (.std (.genericErr "addr_validate errored"))

/-! ## Messages -/

section Messages

variable (library : List ℕ → Except String Unit) (addrValidate : String → Bool)

/-- `instantiate`: the storage, and the query that is registered. -/
def instantiate (msg : InstantiateMsg) : Result (Storage × RegisterGovProposalsQuery) := do
  validated addrValidate msg.coreAddress
  validated addrValidate msg.validatorsSetAddress
  let config : Config := {
    connectionId := msg.connectionId
    portId := msg.portId
    updatePeriod := msg.updatePeriod
    coreAddress := msg.coreAddress
    proposalVotesAddress := none
    validatorsSetAddress := msg.validatorsSetAddress
    initProposal := msg.initProposal
    proposalsPrefetch := msg.proposalsPrefetch
    vetoSpamThreshold := msg.vetoSpamThreshold }
  let initialProposals ← proposalsWindow msg.initProposal msg.proposalsPrefetch
  queryBuilt (library initialProposals)
  return (⟨config, msg.coreAddress, none, StorageMap.empty, StorageMap.empty⟩,
    ⟨msg.connectionId, initialProposals, msg.updatePeriod⟩)

variable (s : Storage) (info : MessageInfo)

/-- `execute_update_config`. A contract of the votes is told all the known proposals. -/
def executeUpdateConfig (newConfig : ConfigOptional) : Result (Storage × List Msg) := do
  ensure (info.sender = s.cwOwner) .ownershipError
  ensure (newConfig.coreAddress.all addrValidate = true)
    (.std (.genericErr "addr_validate errored"))
  ensure (newConfig.proposalVotesAddress.all addrValidate = true)
    (.std (.genericErr "addr_validate errored"))
  ensure (newConfig.validatorsSetAddress.all addrValidate = true)
    (.std (.genericErr "addr_validate errored"))
  let proposalIds := (s.proposals.entries.map Prod.fst).filter (· ≠ 0)
  let msgs := newConfig.proposalVotesAddress.toList.map (.updateActiveProposals · proposalIds)
  return ({ s with config := {
    connectionId := newConfig.connectionId.getD s.config.connectionId
    portId := newConfig.portId.getD s.config.portId
    updatePeriod := newConfig.updatePeriod.getD s.config.updatePeriod
    coreAddress := newConfig.coreAddress.getD s.config.coreAddress
    proposalVotesAddress := newConfig.proposalVotesAddress <|> s.config.proposalVotesAddress
    validatorsSetAddress := newConfig.validatorsSetAddress.getD s.config.validatorsSetAddress
    initProposal := s.config.initProposal
    proposalsPrefetch := newConfig.proposalsPrefetch.getD s.config.proposalsPrefetch
    vetoSpamThreshold := newConfig.vetoSpamThreshold.getD s.config.vetoSpamThreshold } }, msgs)

/-- The votes on one proposal, saved over those that are stored. -/
def saveProposalVotes (votes : List ProposalVote) (stored : StorageMap ℕ (List ProposalVote))
    (proposalId : ℕ) : StorageMap ℕ (List ProposalVote) :=
  stored.save proposalId (votes.filter fun vote => vote.proposalId = proposalId)

/-- `execute_update_votes`: the votes are grouped by their proposals. -/
def executeUpdateVotes (votes : List ProposalVote) : Result (Storage × List Msg) := do
  ensure (s.config.proposalVotesAddress = some info.sender) .unauthorized
  let proposalIds := (votes.map ProposalVote.proposalId).dedup
  return ({ s with
    proposalsVotes := proposalIds.foldl (saveProposalVotes votes) s.proposalsVotes }, [])

/-- `execute`. -/
def execute : ExecuteMsg → Result (Storage × List Msg)
  | .updateConfig newConfig => executeUpdateConfig addrValidate s info newConfig
  | .updateProposalVotes votes => executeUpdateVotes s info votes

/-- `reply`. -/
def reply (id : ℕ) (result : SubMsgResult) : Result Storage :=
  if id = proposalsReplyId then do
    let queryId ← (getQueryId result).mapError ContractError.std
    return { s with queryId := some queryId }
  else fail (.unknownReplyId id)

end Messages

/-! ## Results of the query -/

/-- `is_proposal_finished`. -/
def isProposalFinished (proposal : Proposal) : Bool :=
  proposal.status = ProposalStatus.passed.toInt || proposal.status = ProposalStatus.rejected.toInt ||
    proposal.status = ProposalStatus.failed.toInt

/-- `is_spam_proposal`. -/
def isSpamProposal (proposal : Proposal) (vetoSpamThreshold : Decimal) : Result Bool :=
  match proposal.finalTallyResult with
  | none => .ok false
  | some tally => do
    let yesNo ← checkedAdd Uint128.bound tally.yes tally.no
    let yesNoAbstain ← checkedAdd Uint128.bound yesNo tally.abstain
    let totalVotes ← checkedAdd Uint128.bound yesNoAbstain tally.noWithVeto
    if totalVotes = 0 then return false
    else do
      let ratio ← Decimal.fromRatio tally.noWithVeto totalVotes
      return vetoSpamThreshold.atomics < ratio.atomics

/-- The proposals with a status are saved. -/
def saveProposals (stored : StorageMap ℕ Proposal) (proposals : List Proposal) :
    StorageMap ℕ Proposal :=
  proposals.foldl (fun stored proposal =>
    if proposal.status ≠ ProposalStatus.unspecified.toInt then
      stored.save proposal.proposalId proposal
    else stored) stored

/-- A call by the chain. -/
inductive SudoMsg where
  | kvQueryResult (queryId : ℕ)
  | other
  deriving DecidableEq, Repr

section Sudo

variable (library : List ℕ → Except String Unit) (s : Storage)

/-- The messages for a finished first proposal: the new window of the query starts at this proposal,
the validator set gets its votes, and the contract of the votes gets the window. -/
def finishedMsgs (queryId : ℕ) (first : Proposal) : Result (List Msg) := do
  let newProposals ← proposalsWindow first.proposalId s.config.proposalsPrefetch
  queryBuilt (library newProposals)
  let votes := s.proposalsVotes.load first.proposalId
  let isSpam ← isSpamProposal first s.config.vetoSpamThreshold
  return .updateGovProposalsQuery queryId newProposals ::
    .updateValidatorsVoting s.config.validatorsSetAddress ⟨first, votes, isSpam⟩ ::
    s.config.proposalVotesAddress.toList.map (.updateActiveProposals · newProposals)

/-- The messages of `sudo_proposals_query`: none unless the first proposal is finished. -/
def firstProposalMsgs (proposals : List Proposal) : Result (List Msg) :=
  match proposals.head?, s.queryId with
  | some first, some queryId =>
    if isProposalFinished first then finishedMsgs library s queryId first else return []
  | _, _ => return []

/-- `sudo_proposals_query`. -/
def sudoProposalsQuery (data : Except String (List Proposal)) : Result (Storage × List Msg) :=
  match data with
  | .error e => fail (.neutronError e)
  | .ok proposals => do
    let msgs ← firstProposalMsgs library s proposals
    return ({ s with proposals := saveProposals s.proposals proposals }, msgs)

/-- `sudo_kv_query_result`. The result of a query is read before it is known whose query it is;
reading it, and the proposals in it, may fail. -/
def sudoKvQueryResult (rawResult : ℕ → Except String (Except String (List Proposal)))
    (queryId : ℕ) : Result (Storage × List Msg) :=
  match rawResult queryId with
  | .error e => fail (.neutronError e)
  | .ok data => if some queryId = s.queryId then sudoProposalsQuery library s data
    else return (s, [])

/-- `sudo`. -/
def sudoCall (rawResult : ℕ → Except String (Except String (List Proposal))) :
    SudoMsg → Result (Storage × List Msg)
  | .kvQueryResult queryId => sudoKvQueryResult library s rawResult queryId
  | .other => return (s, [])

end Sudo

/-! ## The messages after a result -/

section Results

variable {library : List ℕ → Except String Unit} {s : Storage} {queryId : ℕ}

/-- The first proposal of a result, if it is finished. -/
def finishedFirst (proposals : List Proposal) : Option Proposal :=
  proposals.head?.filter isProposalFinished

/-- A window is built when its end fits 64 bits. -/
theorem proposalsWindow_eq_ok {first prefetch : ℕ} {window : List ℕ} :
    proposalsWindow first prefetch = .ok window ↔
      first + prefetch < U64.bound ∧ window = List.range' first prefetch := by
  simp only [proposalsWindow, bind_eq_ok, checkedAdd_eq_ok, pure_eq_ok, Except.ok.injEq]
  constructor
  · rintro ⟨_, ⟨rfl, hfit⟩, rfl⟩
    exact ⟨hfit, rfl⟩
  · rintro ⟨hfit, rfl⟩
    exact ⟨_, ⟨rfl, hfit⟩, rfl⟩

/-- **The new window contains the finished proposal**, unless it is empty: it starts there. -/
theorem forall_window_gt_iff (first prefetch : ℕ) :
    (∀ proposalId ∈ List.range' first prefetch, first < proposalId) ↔ prefetch = 0 := by
  constructor
  · intro h
    by_contra hne
    have hmem : first ∈ List.range' first prefetch := by
      rw [List.mem_range'_1]
      omega
    exact absurd (h first hmem) (lt_irrefl first)
  · rintro rfl proposalId hmem
    simp at hmem

/-- The messages for a finished first proposal. -/
theorem finishedMsgs_eq_ok {first : Proposal} {msgs : List Msg}
    (h : finishedMsgs library s queryId first = .ok msgs) :
    ∃ isSpam, isSpamProposal first s.config.vetoSpamThreshold = .ok isSpam ∧
      msgs = .updateGovProposalsQuery queryId
          (List.range' first.proposalId s.config.proposalsPrefetch) ::
        .updateValidatorsVoting s.config.validatorsSetAddress
          ⟨first, s.proposalsVotes.load first.proposalId, isSpam⟩ ::
        s.config.proposalVotesAddress.toList.map
          (.updateActiveProposals ·
            (List.range' first.proposalId s.config.proposalsPrefetch)) := by
  simp only [finishedMsgs, bind_eq_ok, proposalsWindow_eq_ok, pure_eq_ok, Except.ok.injEq] at h
  obtain ⟨_, ⟨-, rfl⟩, _, -, isSpam, hspam, rfl⟩ := h
  exact ⟨isSpam, hspam, rfl⟩

/-- The messages to a contract of the votes, if there is one, send nothing to a validator set. -/
theorem filterMap_scored_active (contractAddr : Option String) (activeProposals : List ℕ) :
    (contractAddr.toList.map (Msg.updateActiveProposals · activeProposals)).filterMap Msg.scored =
      [] := by
  cases contractAddr <;> rfl

/-- A message to the contract of the proposals sends nothing to a validator set. -/
theorem execute_scored {addrValidate : String → Bool} {info : MessageInfo} {msg : ExecuteMsg}
    {out : Storage × List Msg} (h : execute addrValidate s info msg = .ok out) :
    out.2.filterMap Msg.scored = [] := by
  cases msg with
  | updateConfig newConfig =>
    simp only [execute, executeUpdateConfig, bind_eq_ok, pure_eq_ok, Except.ok.injEq] at h
    obtain ⟨-, -, -, -, -, -, -, -, rfl⟩ := h
    exact filterMap_scored_active _ _
  | updateProposalVotes votes =>
    simp only [execute, executeUpdateVotes, bind_eq_ok, pure_eq_ok, Except.ok.injEq] at h
    obtain ⟨-, -, rfl⟩ := h
    rfl

/-- **What a result of the query leads to.** Its proposals are saved; nothing is sent unless the
first one is finished. -/
theorem sudoProposalsQuery_cases {proposals : List Proposal} {out : Storage × List Msg}
    (hquery : s.queryId = some queryId)
    (h : sudoProposalsQuery library s (.ok proposals) = .ok out) :
    out.1 = { s with proposals := saveProposals s.proposals proposals } ∧
      ((finishedFirst proposals = none ∧ out.2 = []) ∨
        ∃ first, finishedFirst proposals = some first ∧
          finishedMsgs library s queryId first = .ok out.2) := by
  simp only [sudoProposalsQuery, bind_eq_ok, pure_eq_ok, Except.ok.injEq] at h
  obtain ⟨msgs, hmsgs, rfl⟩ := h
  refine ⟨rfl, ?_⟩
  unfold finishedFirst
  cases hhead : proposals.head? with
  | none =>
    simp only [firstProposalMsgs, hhead, pure_eq_ok, Except.ok.injEq] at hmsgs
    exact .inl ⟨rfl, hmsgs.symm⟩
  | some first =>
    simp only [firstProposalMsgs, hhead, hquery] at hmsgs
    by_cases hfinished : isProposalFinished first = true
    · rw [if_pos hfinished] at hmsgs
      exact .inr ⟨first, by simp [hfinished], hmsgs⟩
    · rw [if_neg hfinished, pure_eq_ok, Except.ok.injEq] at hmsgs
      exact .inl ⟨by simp [hfinished], hmsgs.symm⟩

end Results

end ProviderProposals

end DropContracts
