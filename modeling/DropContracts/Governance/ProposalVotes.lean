import Mathlib.Data.Finset.Basic
import DropContracts.Packages.InterchainQuery

set_option relaxedAutoImplicit false
set_option autoImplicit false

/-!
# The votes on governance proposals

`contracts/proposal-votes-poc/src/contract.rs`: the contract that reads the votes of a list of
voters on the active proposals of the remote chain, through one interchain query, and reports them
to the contract of the proposals.

The keys of the query are built by the query library, which is not part of the repository; its two
helpers are parameters.

## Main definitions

* `ProposalVotes.Storage` — the storage items.
* `ProposalVotes.execute`, `ProposalVotes.reply`, `ProposalVotes.sudoCall` — the entry points.
* `ProposalVotes.processNewData` — how the query follows a list of proposals.

## Main results

* `ProposalVotes.processNewData_cases` — the four outcomes for a list that is not empty.
-/

namespace DropContracts

/-- A vote on a proposal of the remote chain. -/
structure ProposalVote where
  proposalId : ℕ
  voter : String
  options : List String
  deriving DecidableEq, Repr

namespace ProposalVotes

open Exec Icq

/-! ## Data -/

/-- The configuration. -/
structure Config where
  connectionId : String
  portId : String
  updatePeriod : ℕ
  coreAddress : String
  providerProposalsAddress : String
  deriving DecidableEq, Repr

/-- An update of the configuration. -/
structure ConfigOptional where
  connectionId : Option String
  portId : Option String
  updatePeriod : Option ℕ
  coreAddress : Option String
  providerProposalsAddress : Option String
  deriving DecidableEq, Repr

/-- The messages of the contract. -/
inductive ExecuteMsg where
  | updateConfig (newConfig : ConfigOptional)
  | updateActiveProposals (activeProposals : List ℕ)
  | updateVotersList (voters : List String)
  deriving DecidableEq, Repr

/-- The errors of the contract. -/
inductive ContractError where
  | std (e : StdError)
  | neutronError (msg : String)
  | ownershipError
  | unauthorized
  | unknownReplyId (id : ℕ)
  deriving DecidableEq, Repr

/-- A call of the contract. -/
abbrev Result (α : Type) := Exec ContractError α

/-- The storage items. -/
structure Storage where
  config : Config
  cwOwner : String
  queryId : Option ℕ
  activeProposals : Option (List ℕ)
  voters : Option (List String)
  deriving DecidableEq, Repr

/-- The key of the remote store under which the vote of a voter on a proposal is. -/
structure VoteKey where
  proposalId : ℕ
  voter : String
  deriving DecidableEq, Repr

/-- A message to the query module of the chain. -/
inductive NeutronMsg where
  | registerInterchainQuery (connectionId : String) (keys : List VoteKey) (updatePeriod : ℕ)
  | updateInterchainQuery (queryId : ℕ) (newKeys : List VoteKey)
  | removeInterchainQuery (queryId : ℕ)
  deriving DecidableEq, Repr

/-- A message whose reply is handled under the given id when it succeeds. -/
structure SubMsg where
  msg : NeutronMsg
  id : ℕ
  deriving DecidableEq, Repr

/-- `PROPOSALS_VOTES_REPLY_ID`. -/
def proposalsVotesReplyId : ℕ := 1

/-- `PROPOSALS_VOTES_REMOVE_REPLY_ID`. -/
def proposalsVotesRemoveReplyId : ℕ := 2

/-- The helpers of the query library: the keys of
`new_register_gov_proposals_voters_votes_query_msg` and of `update_gov_proposals_votes_query_msg`,
for proposals and voters. -/
structure QueryLibrary where
  registerKeys : List ℕ → List String → Except String (List VoteKey)
  updateKeys : List ℕ → List String → Except String (List VoteKey)

/-- The storage after `instantiate`. -/
def instantiate (addrValidate : String → Bool) (config : Config) : Result Storage := do
  ensure (addrValidate config.coreAddress = true) (.std (.genericErr "addr_validate errored"))
  ensure (addrValidate config.providerProposalsAddress = true)
    (.std (.genericErr "addr_validate errored"))
  return ⟨config, config.coreAddress, none, none, none⟩

/-! ## Messages -/

section Messages

variable (library : QueryLibrary) (s : Storage) (info : MessageInfo)

/-- The keys that a helper of the query library builds. -/
def queryKeys (built : Except String (List VoteKey)) : Result (List VoteKey) :=
  match built with
  | .ok keys => .ok keys
  | .error e => fail (.neutronError e)

/-- `update_votes_interchain_query`. -/
def updateVotesInterchainQuery (queryId : ℕ) (activeProposals : List ℕ) (voters : List String) :
    Result SubMsg := do
  let keys ← queryKeys (library.updateKeys activeProposals voters)
  return ⟨.updateInterchainQuery queryId keys, proposalsVotesReplyId⟩

/-- `register_votes_interchain_query`. -/
def registerVotesInterchainQuery (config : Config) (activeProposals : List ℕ)
    (voters : List String) : Result SubMsg := do
  let keys ← queryKeys (library.registerKeys activeProposals voters)
  return ⟨.registerInterchainQuery config.connectionId keys config.updatePeriod,
    proposalsVotesReplyId⟩

/-- `remove_votes_interchain_query`. -/
def removeVotesInterchainQuery (queryId : ℕ) : SubMsg :=
  ⟨.removeInterchainQuery queryId, proposalsVotesRemoveReplyId⟩

/-- The first part of `process_new_data`: without a query, one is registered. -/
def registerNew (queryId : Option ℕ) (activeProposals : List ℕ) (voters : List String) :
    Result (Storage × List SubMsg) :=
  if activeProposals ≠ [] ∧ queryId = none then do
    let msg ← registerVotesInterchainQuery library s.config activeProposals voters
    return ({ s with activeProposals := some activeProposals }, [msg])
  else return (s, [])

/-- The second part of `process_new_data`: the query is updated when the proposals differ from
those that are stored. -/
def updateChanged (queryId : Option ℕ) (activeProposals : List ℕ) (voters : List String) :
    Result (Storage × List SubMsg) :=
  let oldActiveProposals := s.activeProposals.getD []
  let newProposals := activeProposals.toFinset \ oldActiveProposals.toFinset
  let proposalsToRemove := oldActiveProposals.toFinset \ activeProposals.toFinset
  if newProposals ≠ ∅ ∨ proposalsToRemove ≠ ∅ then
    match queryId with
    | some queryId => do
      let msg ← updateVotesInterchainQuery library queryId activeProposals voters
      return ({ s with activeProposals := some activeProposals }, [msg])
    | none => return (s, [])
  else return (s, [])

/-- `process_new_data`. Without a list of voters nothing happens. The second part reads the storage
that the first one wrote, and the query id that was stored before. -/
def processNewData (queryId : Option ℕ) (activeProposals : List ℕ) :
    Result (Storage × List SubMsg) :=
  match s.voters with
  | none => return (s, [])
  | some voters => do
    let registered ← registerNew library s queryId activeProposals voters
    let updated ← updateChanged library registered.1 queryId activeProposals voters
    return (updated.1, registered.2 ++ updated.2)

/-- `execute_update_active_proposals`. -/
def executeUpdateActiveProposals (activeProposals : List ℕ) : Result (Storage × List SubMsg) := do
  ensure (s.config.providerProposalsAddress = info.sender) .unauthorized
  if activeProposals = [] then
    match s.queryId with
    | none => return (s, [])
    | some queryId => return (s, [removeVotesInterchainQuery queryId])
  else processNewData library s s.queryId activeProposals

/-- `execute_update_voters_list`. -/
def executeUpdateVotersList (voters : List String) : Result (Storage × List SubMsg) := do
  ensure (info.sender = s.cwOwner) .ownershipError
  return ({ s with voters := some voters }, [])

/-- `execute_update_config`. -/
def executeUpdateConfig (addrValidate : String → Bool) (newConfig : ConfigOptional) :
    Result (Storage × List SubMsg) := do
  ensure (info.sender = s.cwOwner) .ownershipError
  ensure (newConfig.coreAddress.all addrValidate = true)
    (.std (.genericErr "addr_validate errored"))
  ensure (newConfig.providerProposalsAddress.all addrValidate = true)
    (.std (.genericErr "addr_validate errored"))
  return ({ s with config := {
    connectionId := newConfig.connectionId.getD s.config.connectionId
    portId := newConfig.portId.getD s.config.portId
    updatePeriod := newConfig.updatePeriod.getD s.config.updatePeriod
    coreAddress := newConfig.coreAddress.getD s.config.coreAddress
    providerProposalsAddress :=
      newConfig.providerProposalsAddress.getD s.config.providerProposalsAddress } }, [])

/-- `execute`. -/
def execute (addrValidate : String → Bool) : ExecuteMsg → Result (Storage × List SubMsg)
  | .updateConfig newConfig => executeUpdateConfig s info addrValidate newConfig
  | .updateActiveProposals activeProposals =>
    executeUpdateActiveProposals library s info activeProposals
  | .updateVotersList voters => executeUpdateVotersList s info voters

/-- `reply`. -/
def reply (id : ℕ) (result : SubMsgResult) : Result Storage :=
  if id = proposalsVotesReplyId then do
    let queryId ← (getQueryId result).mapError ContractError.std
    return { s with queryId := some queryId }
  else if id = proposalsVotesRemoveReplyId then return { s with queryId := none }
  else fail (.unknownReplyId id)

end Messages

/-- The reply to a registration or an update stores the id in the response. -/
theorem reply_votes_eq_ok {s s' : Storage} {result : SubMsgResult} :
    reply s proposalsVotesReplyId result = .ok s' ↔
      ∃ queryId, result = .ok (some (.ok queryId)) ∧ s' = { s with queryId := some queryId } := by
  simp only [reply, if_true, bind_eq_ok, mapError_eq_ok, getQueryId_eq_ok, pure_eq_ok,
    Except.ok.injEq]
  constructor
  · rintro ⟨queryId, hresult, rfl⟩
    exact ⟨queryId, hresult, rfl⟩
  · rintro ⟨queryId, hresult, rfl⟩
    exact ⟨queryId, hresult, rfl⟩

/-- The reply to a removal forgets the id. -/
theorem reply_remove (s : Storage) (result : SubMsgResult) :
    reply s proposalsVotesRemoveReplyId result = .ok { s with queryId := none } := rfl

/-! ## Results of queries -/

/-- A message to the contract of the proposals. -/
inductive WasmMsg where
  | updateProposalVotes (contractAddr : String) (votes : List ProposalVote)
  deriving DecidableEq, Repr

/-- A call by the chain. -/
inductive SudoMsg where
  | kvQueryResult (queryId : ℕ)
  | other
  deriving DecidableEq, Repr

section Sudo

variable (s : Storage)

/-- `sudo_proposal_votes`. -/
def sudoProposalVotes (votes : Except String (List ProposalVote)) : Result (List WasmMsg) :=
  match votes with
  | .error e => fail (.neutronError e)
  | .ok votes => return [.updateProposalVotes s.config.providerProposalsAddress votes]

/-- `sudo_kv_query_result`. The result of a query is read before it is known whose query it is;
reading it, and the votes in it, may fail. -/
def sudoKvQueryResult (rawResult : ℕ → Except String (Except String (List ProposalVote)))
    (queryId : ℕ) : Result (List WasmMsg) :=
  match rawResult queryId with
  | .error e => fail (.neutronError e)
  | .ok votes => if some queryId = s.queryId then sudoProposalVotes s votes else return []

/-- `sudo`. -/
def sudoCall (rawResult : ℕ → Except String (Except String (List ProposalVote))) :
    SudoMsg → Result (List WasmMsg)
  | .kvQueryResult queryId => sudoKvQueryResult s rawResult queryId
  | .other => return []

end Sudo

/-! ## How the query follows the proposals -/

/-- The outcomes of `process_new_data` for a list that is not empty: nothing without voters, a new
query when there is none, and an update exactly when the proposals differ from the stored ones. -/
inductive NewDataCase (library : QueryLibrary) (s : Storage) (proposals : List ℕ) :
    Storage × List SubMsg → Prop where
  | idle (hvoters : s.voters = none) : NewDataCase library s proposals (s, [])
  | registered {voters : List String} {keys : List VoteKey} (hvoters : s.voters = some voters)
      (hquery : s.queryId = none) (hkeys : library.registerKeys proposals voters = .ok keys) :
      NewDataCase library s proposals ({ s with activeProposals := some proposals },
        [⟨.registerInterchainQuery s.config.connectionId keys s.config.updatePeriod,
          proposalsVotesReplyId⟩])
  | unchanged {voters : List String} {queryId : ℕ} (hvoters : s.voters = some voters)
      (hquery : s.queryId = some queryId)
      (hsame : (s.activeProposals.getD []).toFinset = proposals.toFinset) :
      NewDataCase library s proposals (s, [])
  | updated {voters : List String} {queryId : ℕ} {keys : List VoteKey}
      (hvoters : s.voters = some voters) (hquery : s.queryId = some queryId)
      (hchanged : (s.activeProposals.getD []).toFinset ≠ proposals.toFinset)
      (hkeys : library.updateKeys proposals voters = .ok keys) :
      NewDataCase library s proposals ({ s with activeProposals := some proposals },
        [⟨.updateInterchainQuery queryId keys, proposalsVotesReplyId⟩])

/-- Two sets differ exactly when one of the two differences is not empty. -/
theorem sdiff_ne_empty_iff (new old : Finset ℕ) :
    (new \ old ≠ ∅ ∨ old \ new ≠ ∅) ↔ old ≠ new := by
  have hsame : (new \ old = ∅ ∧ old \ new = ∅) ↔ old = new := by
    rw [Finset.sdiff_eq_empty_iff_subset, Finset.sdiff_eq_empty_iff_subset]
    constructor
    · rintro ⟨hnew, hold⟩
      exact hold.antisymm hnew
    · rintro rfl
      exact ⟨subset_rfl, subset_rfl⟩
  rw [← not_and_or, hsame]

/-- The keys of the query library, or its error. -/
theorem queryKeys_eq_ok {built : Except String (List VoteKey)} {keys : List VoteKey} :
    queryKeys built = .ok keys ↔ built = .ok keys := by
  cases built <;> simp [queryKeys]

/-- **The outcomes of `process_new_data`.** -/
theorem processNewData_cases {library : QueryLibrary} {s : Storage} {proposals : List ℕ}
    {out : Storage × List SubMsg} (hproposals : proposals ≠ [])
    (h : processNewData library s s.queryId proposals = .ok out) :
    NewDataCase library s proposals out := by
  generalize hquery : s.queryId = queryId at h
  unfold processNewData at h
  cases hvoters : s.voters with
  | none =>
    simp only [hvoters, pure_eq_ok, Except.ok.injEq] at h
    rw [← h]
    exact .idle hvoters
  | some voters =>
    simp only [hvoters, bind_eq_ok, pure_eq_ok, Except.ok.injEq] at h
    obtain ⟨registered, hregistered, updated, hupdated, rfl⟩ := h
    cases queryId with
    | none =>
      simp only [registerNew, hproposals, ne_eq, not_false_eq_true, and_self, if_true,
        registerVotesInterchainQuery, bind_eq_ok, pure_eq_ok, Except.ok.injEq,
        queryKeys_eq_ok] at hregistered
      obtain ⟨_, ⟨keys, hkeys, rfl⟩, rfl⟩ := hregistered
      -- the second part sees the list that the first part stored
      simp only [updateChanged, sdiff_ne_empty_iff, Option.getD_some, ne_eq,
        not_true_eq_false, if_false, pure_eq_ok, Except.ok.injEq] at hupdated
      rw [← hupdated]
      exact .registered hvoters hquery hkeys
    | some queryId =>
      simp only [registerNew, reduceCtorEq, and_false, if_false, pure_eq_ok,
        Except.ok.injEq] at hregistered
      subst hregistered
      simp only [updateChanged, sdiff_ne_empty_iff] at hupdated
      split_ifs at hupdated with hchanged
      · simp only [updateVotesInterchainQuery, bind_eq_ok, pure_eq_ok, Except.ok.injEq,
          queryKeys_eq_ok] at hupdated
        obtain ⟨_, ⟨keys, hkeys, rfl⟩, rfl⟩ := hupdated
        exact .updated hvoters hquery hchanged hkeys
      · simp only [pure_eq_ok, Except.ok.injEq] at hupdated
        rw [← hupdated]
        exact .unchanged hvoters hquery (not_not.1 hchanged)

end ProposalVotes

end DropContracts
