import Mathlib.Data.Finset.Image
import DropContracts.Base.Run
import DropContracts.Governance.ProposalVotes

set_option relaxedAutoImplicit false
set_option autoImplicit false

/-!
# What the votes query covers

The contract of the votes together with the queries that the chain has registered for it. A message
and the submessages that it leads to are one step, which takes place when all of them succeed.

## Main definitions

* `ProposalVotes.World` — the storage of the contract and the registered queries.
* `ProposalVotes.Action`, `ProposalVotes.World.act` — a call of the contract and what it does.
* `ProposalVotes.World.Covers` — the registered query reads exactly the given votes.

## Main results

* `ProposalVotes.run_registered` — the registered query reads the votes on the stored proposals.
* `ProposalVotes.active_proposals_covered_iff` — when a list of proposals is followed by the query.

## Design

The contract compares a new list of proposals with the one that it stored, and it stores the list
together with every message to the query module. So a registered query always reads the votes on the
stored proposals (`World.Registered`). The voters are not compared: the query keeps those of the
last message to the query module.
-/

namespace DropContracts

namespace ProposalVotes

open Exec Icq

/-! ## The chain -/

/-- The storage of the contract and the queries that the chain has registered for it. -/
structure World where
  storage : Storage
  queries : StorageMap ℕ (List VoteKey)
  lastQueryId : ℕ

/-- What is outside the contract: the query library, which addresses are valid, and what the chain
answers to an update of a query. -/
structure Surroundings where
  library : QueryLibrary
  addrValidate : String → Bool
  updateResult : ℕ → Option (Except String ℕ)

section Steps

variable (env : Surroundings)

/-- The query module: a new query gets a fresh id, which is in the reply; only a registered query is
updated or removed. -/
def World.perform (w : World) : NeutronMsg → Option (World × SubMsgResult)
  | .registerInterchainQuery _ keys _ =>
    let queryId := w.lastQueryId + 1
    some (⟨w.storage, w.queries.save queryId keys, queryId⟩, .ok (some (.ok queryId)))
  | .updateInterchainQuery queryId newKeys =>
    if (w.queries.load queryId).isSome then
      some ({ w with queries := w.queries.save queryId newKeys }, .ok (env.updateResult queryId))
    else none
  | .removeInterchainQuery queryId =>
    if (w.queries.load queryId).isSome then
      some ({ w with queries := w.queries.remove queryId }, .ok none)
    else none

/-- A submessage and the reply to it. -/
def World.dispatch (w : World) (sub : SubMsg) : Option World := do
  let (performed, result) ← w.perform env sub.msg
  let storage ← (reply performed.storage sub.id result).toOption
  return { performed with storage }

/-- A call of the contract; one by the chain comes with the result of the query. -/
inductive Action where
  | execute (info : MessageInfo) (msg : ExecuteMsg)
  | sudoCall (rawResult : Except String (Except String (List ProposalVote))) (msg : SudoMsg)

/-- The state after a call, if it succeeds with all its submessages. -/
def World.act (w : World) : Action → Option World
  | .execute info msg => do
    let (storage, subs) ← (execute env.library w.storage info env.addrValidate msg).toOption
    subs.foldlM (World.dispatch env) { w with storage }
  | .sudoCall rawResult msg => do
    let _ ← (sudoCall w.storage (fun _ => rawResult) msg).toOption
    return w

/-- A step of the contract. -/
def Step (w : World) (a : Action) (w' : World) : Prop := w.act env a = some w'

end Steps

/-! ## What a query reads -/

/-- The keys read exactly the votes of the voters on the proposals. -/
def ReadsExactly (keys : List VoteKey) (proposals : List ℕ) (voters : List String) : Prop :=
  ∀ key, key ∈ keys ↔ key.proposalId ∈ proposals ∧ key.voter ∈ voters

/-- The helpers of the query library build the keys of the votes of the given voters on the given
proposals. -/
structure QueryLibrary.Sound (library : QueryLibrary) : Prop where
  register : ∀ proposals voters keys, library.registerKeys proposals voters = .ok keys →
    ReadsExactly keys proposals voters
  update : ∀ proposals voters keys, library.updateKeys proposals voters = .ok keys →
    ReadsExactly keys proposals voters

/-- The answer to an update of a query holds no id but that of the query. -/
def Surroundings.KeepsId (env : Surroundings) : Prop :=
  ∀ queryId id, env.updateResult queryId = some (.ok id) → id = queryId

/-- The keys of the query that the contract knows, if there is one. -/
def World.keys (w : World) : Option (List VoteKey) := w.storage.queryId.bind w.queries.load

/-- The voters whose votes the query reads. -/
def World.readVoters (w : World) : Finset String :=
  ((w.keys.getD []).map VoteKey.voter).toFinset

/-- A query is registered, and it reads exactly the votes of the voters on the proposals. -/
def World.Covers (w : World) (proposals : List ℕ) (voters : List String) : Prop :=
  ∃ keys, w.keys = some keys ∧ ReadsExactly keys proposals voters

/-- A query that the contract knows is registered and reads the votes on the stored proposals. -/
def World.Registered (w : World) : Prop :=
  ∀ queryId, w.storage.queryId = some queryId → ∃ proposals voters,
    w.storage.activeProposals = some proposals ∧ w.Covers proposals voters

/-! ## The submessages -/

section Submessages

variable {env : Surroundings} {w w' : World}

/-- A registration stores the id of the new query. -/
theorem dispatch_register {connectionId : String} {keys : List VoteKey} {updatePeriod : ℕ}
    (h : w.dispatch env ⟨.registerInterchainQuery connectionId keys updatePeriod,
      proposalsVotesReplyId⟩ = some w') :
    w' = ⟨{ w.storage with queryId := some (w.lastQueryId + 1) },
      w.queries.save (w.lastQueryId + 1) keys, w.lastQueryId + 1⟩ := by
  simp only [World.dispatch, World.perform, Option.bind_eq_bind, Option.bind_some,
    Option.bind_eq_some_iff, toOption_eq_some, reply_votes_eq_ok] at h
  obtain ⟨_, ⟨queryId, hresult, rfl⟩, hw⟩ := h
  have hid : w.lastQueryId + 1 = queryId := by simpa using hresult
  rw [← Option.some.inj hw, hid]

/-- An update stores the id in the answer. -/
theorem dispatch_update {queryId : ℕ} {keys : List VoteKey}
    (h : w.dispatch env ⟨.updateInterchainQuery queryId keys, proposalsVotesReplyId⟩ = some w') :
    ∃ id, env.updateResult queryId = some (.ok id) ∧
      w' = ⟨{ w.storage with queryId := some id }, w.queries.save queryId keys,
        w.lastQueryId⟩ := by
  simp only [World.dispatch, World.perform, Option.bind_eq_bind] at h
  split_ifs at h
  · simp only [Option.bind_some, Option.bind_eq_some_iff, toOption_eq_some,
      reply_votes_eq_ok] at h
    obtain ⟨_, ⟨id, hresult, rfl⟩, hw⟩ := h
    exact ⟨id, SubMsgResult.ok.inj hresult, (Option.some.inj hw).symm⟩
  · simp at h

/-- A removal forgets the id. -/
theorem dispatch_remove {queryId : ℕ}
    (h : w.dispatch env (removeVotesInterchainQuery queryId) = some w') :
    w'.storage = { w.storage with queryId := none } := by
  simp only [World.dispatch, World.perform, removeVotesInterchainQuery, Option.bind_eq_bind] at h
  split_ifs at h
  · simp only [Option.bind_some, Option.bind_eq_some_iff, toOption_eq_some, reply_remove,
      Except.ok.injEq] at h
    obtain ⟨_, rfl, hw⟩ := h
    rw [← Option.some.inj hw]
  · simp at h

/-- A submessage alone. -/
theorem foldlM_dispatch_single {sub : SubMsg} :
    [sub].foldlM (World.dispatch env) w = w.dispatch env sub := by
  simp

/-- The outcomes of a message with a list of proposals that is not empty. -/
inductive ActiveCase (env : Surroundings) (w : World) (proposals : List ℕ) : World → Prop where
  | idle (hvoters : w.storage.voters = none) : ActiveCase env w proposals w
  | registered {voters : List String} {keys : List VoteKey}
      (hvoters : w.storage.voters = some voters) (hquery : w.storage.queryId = none)
      (hkeys : env.library.registerKeys proposals voters = .ok keys) :
      ActiveCase env w proposals
        ⟨{ w.storage with
            activeProposals := some proposals, queryId := some (w.lastQueryId + 1) },
          w.queries.save (w.lastQueryId + 1) keys, w.lastQueryId + 1⟩
  | unchanged {voters : List String} {queryId : ℕ}
      (hvoters : w.storage.voters = some voters) (hquery : w.storage.queryId = some queryId)
      (hsame : (w.storage.activeProposals.getD []).toFinset = proposals.toFinset) :
      ActiveCase env w proposals w
  | updated {voters : List String} {queryId id : ℕ} {keys : List VoteKey}
      (hvoters : w.storage.voters = some voters) (hquery : w.storage.queryId = some queryId)
      (hchanged : (w.storage.activeProposals.getD []).toFinset ≠ proposals.toFinset)
      (hkeys : env.library.updateKeys proposals voters = .ok keys)
      (hid : env.updateResult queryId = some (.ok id)) :
      ActiveCase env w proposals
        ⟨{ w.storage with activeProposals := some proposals, queryId := some id },
          w.queries.save queryId keys, w.lastQueryId⟩

/-- **A message with a list of proposals** that is not empty. -/
theorem act_active_cases {info : MessageInfo} {proposals : List ℕ} (hproposals : proposals ≠ [])
    (h : w.act env (.execute info (.updateActiveProposals proposals)) = some w') :
    ActiveCase env w proposals w' := by
  simp only [World.act, execute, executeUpdateActiveProposals, if_neg hproposals,
    Option.bind_eq_bind, Option.bind_eq_some_iff, toOption_eq_some, bind_eq_ok] at h
  obtain ⟨out, ⟨_, -, hout⟩, hsubs⟩ := h
  cases processNewData_cases hproposals hout with
  | idle hvoters =>
    rw [← Option.some.inj hsubs]
    exact .idle hvoters
  | registered hvoters hquery hkeys =>
    rw [foldlM_dispatch_single] at hsubs
    rw [dispatch_register hsubs]
    exact .registered hvoters hquery hkeys
  | unchanged hvoters hquery hsame =>
    rw [← Option.some.inj hsubs]
    exact .unchanged hvoters hquery hsame
  | updated hvoters hquery hchanged hkeys =>
    rw [foldlM_dispatch_single] at hsubs
    obtain ⟨id, hid, rfl⟩ := dispatch_update hsubs
    exact .updated hvoters hquery hchanged hkeys hid

end Submessages

/-! ## Every run -/

section Runs

variable {env : Surroundings} {w w' : World}

/-- After a registration or an update the query covers what its keys were built for. -/
theorem covers_save {storage : Storage} {queries : StorageMap ℕ (List VoteKey)}
    {queryId lastQueryId : ℕ} {keys : List VoteKey} {proposals : List ℕ} {voters : List String}
    (hquery : storage.queryId = some queryId) (hkeys : ReadsExactly keys proposals voters) :
    World.Covers ⟨storage, queries.save queryId keys, lastQueryId⟩ proposals voters := by
  refine ⟨keys, ?_, hkeys⟩
  unfold World.keys
  rw [hquery]
  show (queries.save queryId keys).load queryId = some keys
  rw [StorageMap.load_save, if_pos rfl]

/-- A list of proposals that is not empty keeps the query on the stored proposals. -/
theorem ActiveCase.registered_of {proposals : List ℕ} (hlibrary : env.library.Sound)
    (hid : env.KeepsId) (hcase : ActiveCase env w proposals w') (hw : w.Registered) :
    w'.Registered := by
  cases hcase with
  | idle _ => exact hw
  | registered _ _ hkeys =>
    intro _ _
    exact ⟨proposals, _, rfl, covers_save rfl (hlibrary.register _ _ _ hkeys)⟩
  | unchanged _ _ _ => exact hw
  | updated _ _ _ hkeys hresult =>
    intro _ _
    cases hid _ _ hresult
    exact ⟨proposals, _, rfl, covers_save rfl (hlibrary.update _ _ _ hkeys)⟩

/-- Only the query id, the stored proposals and the registered queries matter. -/
theorem World.Registered.congr (hw : w.Registered)
    (hquery : w'.storage.queryId = w.storage.queryId)
    (hactive : w'.storage.activeProposals = w.storage.activeProposals)
    (hqueries : w'.queries = w.queries) : w'.Registered := by
  intro queryId hid
  obtain ⟨proposals, voters, hproposals, keys, hkeys, hreads⟩ := hw queryId (hquery ▸ hid)
  refine ⟨proposals, voters, hactive.trans hproposals, keys, ?_, hreads⟩
  rw [← hkeys, World.keys, World.keys, hquery, hqueries]

/-- **Step lemma**: every call keeps the query on the stored proposals. -/
theorem step_registered {a : Action} (hlibrary : env.library.Sound) (hid : env.KeepsId)
    (h : Step env w a w') (hw : w.Registered) : w'.Registered := by
  cases a with
  | sudoCall rawResult msg =>
    simp only [Step, World.act, Option.bind_eq_bind, Option.bind_eq_some_iff] at h
    obtain ⟨_, -, hw'⟩ := h
    rw [← Option.some.inj hw']
    exact hw
  | execute info msg =>
    cases msg with
    | updateConfig newConfig =>
      simp only [Step, World.act, execute, executeUpdateConfig, Option.bind_eq_bind,
        Option.bind_eq_some_iff, toOption_eq_some, bind_eq_ok, pure_eq_ok, Except.ok.injEq] at h
      obtain ⟨_, ⟨_, -, _, -, _, -, rfl⟩, hw'⟩ := h
      rw [← Option.some.inj hw']
      exact hw.congr rfl rfl rfl
    | updateVotersList voters =>
      simp only [Step, World.act, execute, executeUpdateVotersList, Option.bind_eq_bind,
        Option.bind_eq_some_iff, toOption_eq_some, bind_eq_ok, pure_eq_ok, Except.ok.injEq] at h
      obtain ⟨_, ⟨_, -, rfl⟩, hw'⟩ := h
      rw [← Option.some.inj hw']
      exact hw.congr rfl rfl rfl
    | updateActiveProposals proposals =>
      by_cases hproposals : proposals = []
      · subst hproposals
        simp only [Step, World.act, execute, executeUpdateActiveProposals, if_true,
          Option.bind_eq_bind, Option.bind_eq_some_iff, toOption_eq_some, bind_eq_ok] at h
        obtain ⟨out, ⟨_, -, hout⟩, hsubs⟩ := h
        cases hquery : w.storage.queryId with
        | none =>
          simp only [hquery, pure_eq_ok, Except.ok.injEq] at hout
          subst hout
          rw [← Option.some.inj hsubs]
          exact hw
        | some queryId =>
          simp only [hquery, pure_eq_ok, Except.ok.injEq] at hout
          subst hout
          rw [foldlM_dispatch_single] at hsubs
          intro id hsome
          rw [dispatch_remove hsubs] at hsome
          cases hsome
      · exact (act_active_cases hproposals h).registered_of hlibrary hid hw

/-- **In every state of every run** of a new contract, a query that the contract knows is registered
and reads the votes on the stored proposals. -/
theorem run_registered {config : Config} (hlibrary : env.library.Sound) (hid : env.KeepsId)
    (hinit : instantiate env.addrValidate config = .ok w.storage)
    (hrun : Run (Step env) w w') : w'.Registered := by
  apply hrun.preserves (fun s a t _ hstep => step_registered hlibrary hid hstep)
  intro queryId hsome
  simp only [instantiate, bind_eq_ok, pure_eq_ok, Except.ok.injEq] at hinit
  obtain ⟨-, -, -, -, hstorage⟩ := hinit
  rw [← hstorage] at hsome
  cases hsome

/-! ## When the query follows -/

/-- The voters of the keys that were built for proposals, of which there is at least one. -/
theorem readVoters_eq {keys : List VoteKey} {proposals : List ℕ} {voters : List String}
    (hkeys : w.keys = some keys) (hreads : ReadsExactly keys proposals voters)
    (hproposals : proposals ≠ []) : w.readVoters = voters.toFinset := by
  obtain ⟨proposal, hproposal⟩ := List.exists_mem_of_ne_nil proposals hproposals
  ext voter
  simp only [World.readVoters, hkeys, Option.getD_some, List.mem_toFinset, List.mem_map]
  constructor
  · rintro ⟨key, hkey, rfl⟩
    exact ((hreads key).1 hkey).2
  · intro hvoter
    exact ⟨⟨proposal, voter⟩, (hreads ⟨proposal, voter⟩).2 ⟨hproposal, hvoter⟩, rfl⟩

/-- A query on the given proposals covers the voters exactly when it reads their votes. -/
theorem covers_iff_readVoters {proposals : List ℕ} {voters voters' : List String}
    (hcovers : w.Covers proposals voters) (hproposals : proposals ≠ []) :
    w.Covers proposals voters' ↔ w.readVoters = voters'.toFinset := by
  constructor
  · rintro ⟨keys, hkeys, hreads⟩
    exact readVoters_eq hkeys hreads hproposals
  · intro hread
    obtain ⟨keys, hkeys, hreads⟩ := hcovers
    rw [readVoters_eq hkeys hreads hproposals] at hread
    refine ⟨keys, hkeys, fun key => ?_⟩
    have hvoters : key.voter ∈ voters ↔ key.voter ∈ voters' := by
      rw [← List.mem_toFinset, hread, List.mem_toFinset]
    rw [hreads key, hvoters]

/-- The order and the repetitions of the proposals do not matter. -/
theorem World.Covers.congr {proposals proposals' : List ℕ} {voters : List String}
    (hcovers : w.Covers proposals voters) (hsame : proposals.toFinset = proposals'.toFinset) :
    w.Covers proposals' voters := by
  obtain ⟨keys, hkeys, hreads⟩ := hcovers
  refine ⟨keys, hkeys, fun key => ?_⟩
  have hproposals : key.proposalId ∈ proposals ↔ key.proposalId ∈ proposals' := by
    rw [← List.mem_toFinset, hsame, List.mem_toFinset]
  rw [hreads key, hproposals]

/-- **When the query follows its inputs.** In every state that a run reaches: after a list of
proposals that is not empty was processed while a list of voters is stored, a query is registered
that covers exactly these proposals and voters if and only if there was no query before, or the
stored set of proposals was another one, or the query read the votes of the stored voters already.

**Proof sketch.** A registration and an update build the keys from the given proposals and the
stored voters. Otherwise the query is left alone; it reads the votes on the stored proposals
(`run_registered`), which are the given ones, of the voters that it read before. -/
theorem active_proposals_covered_iff {config : Config} {w₀ : World} {info : MessageInfo}
    {proposals : List ℕ} {voters : List String} (hlibrary : env.library.Sound) (hid : env.KeepsId)
    (hinit : instantiate env.addrValidate config = .ok w₀.storage) (hrun : Run (Step env) w₀ w)
    (hstep : Step env w (.execute info (.updateActiveProposals proposals)) w')
    (hproposals : proposals ≠ []) (hvoters : w.storage.voters = some voters) :
    w'.Covers proposals voters ↔ w.storage.queryId = none ∨
      (w.storage.activeProposals.getD []).toFinset ≠ proposals.toFinset ∨
      w.readVoters = voters.toFinset := by
  have hregistered : w.Registered := run_registered hlibrary hid hinit hrun
  cases act_active_cases hproposals hstep with
  | idle hnone => rw [hnone] at hvoters; cases hvoters
  | registered hvoters' hquery hkeys =>
    cases hvoters'.symm.trans hvoters
    have hcovers := hlibrary.register _ _ _ hkeys
    exact ⟨fun _ => .inl hquery, fun _ => covers_save rfl hcovers⟩
  | unchanged hvoters' hquery hsame =>
    obtain ⟨stored, voters', hstored, hcovers⟩ := hregistered _ hquery
    rw [hstored, Option.getD_some] at hsame
    have hgiven : w.Covers proposals voters' := hcovers.congr hsame
    rw [covers_iff_readVoters hgiven hproposals, hquery, hstored, Option.getD_some]
    simp [hsame]
  | updated hvoters' hquery hchanged hkeys hresult =>
    cases hvoters'.symm.trans hvoters
    cases hid _ _ hresult
    have hcovers := hlibrary.update _ _ _ hkeys
    exact ⟨fun _ => .inr (.inl hchanged), fun _ => covers_save rfl hcovers⟩

end Runs

/-! ## A run -/

/-- The keys of the votes of all voters on all proposals. -/
def productKeys (proposals : List ℕ) (voters : List String) : List VoteKey :=
  proposals.flatMap fun proposal => voters.map fun voter => ⟨proposal, voter⟩

/-- The keys of a product read exactly the votes of the voters on the proposals. -/
theorem productKeys_readsExactly (proposals : List ℕ) (voters : List String) :
    ReadsExactly (productKeys proposals voters) proposals voters := by
  intro key
  simp only [productKeys, List.mem_flatMap, List.mem_map]
  constructor
  · rintro ⟨proposal, hproposal, voter, hvoter, rfl⟩
    exact ⟨hproposal, hvoter⟩
  · rintro ⟨hproposal, hvoter⟩
    exact ⟨key.proposalId, hproposal, key.voter, hvoter, rfl⟩

/-- A query library that builds the product, and a chain whose answer to an update is an empty
message, in which the reply finds no id. -/
def sampleEnv : Surroundings where
  library := ⟨fun proposals voters => .ok (productKeys proposals voters),
    fun proposals voters => .ok (productKeys proposals voters)⟩
  addrValidate := fun _ => true
  updateResult := fun _ => some (.error "failed to parse response: missing field id")

/-- The query library of the sample builds the right keys. -/
theorem sampleEnv_sound : sampleEnv.library.Sound where
  register proposals voters keys h := by
    rw [← Except.ok.inj h]
    exact productKeys_readsExactly proposals voters
  update proposals voters keys h := by
    rw [← Except.ok.inj h]
    exact productKeys_readsExactly proposals voters

/-- The chain of the sample answers with no id. -/
theorem sampleEnv_keepsId : sampleEnv.KeepsId := by
  intro queryId id h
  cases h

/-- The configuration of the sample. -/
def sampleConfig : Config := ⟨"connection-0", "icqport", 100, "core", "provider_proposals"⟩

/-- The contract of the sample, without a query. -/
def sampleStart : World := ⟨⟨sampleConfig, "core", none, none, none⟩, StorageMap.empty, 0⟩

/-- A list of voters, by the owner. -/
def sampleVoters (voters : List String) : Action := .execute ⟨"core", []⟩ (.updateVotersList voters)

/-- A list of proposals, by the contract of the proposals. -/
def sampleProposals (proposals : List ℕ) : Action :=
  .execute ⟨"provider_proposals", []⟩ (.updateActiveProposals proposals)

/-- The state of the sample after a query for one voter was registered and a second voter was
added. -/
def sampleGrown : World where
  storage := ⟨sampleConfig, "core", some 1, some [1], some ["alice", "bob"]⟩
  queries := StorageMap.empty.save 1 [⟨1, "alice"⟩]
  lastQueryId := 1

/-- The run to that state. -/
theorem sampleGrown_run : Run (Step sampleEnv) sampleStart sampleGrown := by
  have hrun : runList (World.act sampleEnv) (fun _ _ => true) sampleStart
      [sampleVoters ["alice"], sampleProposals [1], sampleVoters ["alice", "bob"]] =
        some sampleGrown := rfl
  exact runList_eq_some (fun _ _ _ h => h) (fun _ _ _ _ => trivial) hrun

/-- **A change of the voters is not followed**: when the same proposals are sent again, the query
still leaves out the new voter. -/
theorem voters_change_not_followed :
    ∃ w', Run (Step sampleEnv) sampleStart sampleGrown ∧
      Step sampleEnv sampleGrown (sampleProposals [1]) w' ∧
      w'.storage.voters = some ["alice", "bob"] ∧ ¬ w'.Covers [1] ["alice", "bob"] := by
  refine ⟨sampleGrown, sampleGrown_run, rfl, rfl, ?_⟩
  rintro ⟨keys, hkeys, hreads⟩
  have hkeys' : sampleGrown.keys = some [⟨1, "alice"⟩] := rfl
  cases hkeys'.symm.trans hkeys
  have hbob := (hreads ⟨1, "bob"⟩).2 (by simp)
  revert hbob
  decide

/-- The state of the sample after the first voter was added. -/
def sampleVoted : World :=
  ⟨⟨sampleConfig, "core", none, none, some ["alice"]⟩, StorageMap.empty, 0⟩

/-- The state of the sample after a query for that voter was registered. -/
def sampleRegistered : World where
  storage := ⟨sampleConfig, "core", some 1, some [1, 2], some ["alice"]⟩
  queries := StorageMap.empty.save 1 (productKeys [1, 2] ["alice"])
  lastQueryId := 1

/-- The first list of proposals registers a query for the voters. -/
theorem active_proposals_covered_iff_sample :
    Step sampleEnv sampleVoted (sampleProposals [1, 2]) sampleRegistered ∧
      sampleRegistered.Covers [1, 2] ["alice"] := by
  have hinit : instantiate sampleEnv.addrValidate sampleConfig = .ok sampleStart.storage := rfl
  have hvoted : Step sampleEnv sampleStart (sampleVoters ["alice"]) sampleVoted := rfl
  have hstep : Step sampleEnv sampleVoted (sampleProposals [1, 2]) sampleRegistered := rfl
  refine ⟨hstep, ?_⟩
  exact (active_proposals_covered_iff sampleEnv_sound sampleEnv_keepsId hinit
    (RunWhere.single trivial hvoted) hstep (by decide) rfl).2 (.inl rfl)

end ProposalVotes

end DropContracts
