import DropContracts.Base.Decimal
import DropContracts.Base.StorageMap
import DropContracts.Packages.PuppeteerMsg

set_option relaxedAutoImplicit false
set_option autoImplicit false

/-!
# The validator set

`contracts/validators-set/src/contract.rs`: the validators that stake may be delegated to, with
their weights and what the statistics contracts report about them. Each entry is stored under the
address of its validator.

The messages of `cw_ownable` that hand the contract over to a new owner are left out.

## Main definitions

* `ValidatorsSet.ValidatorInfo`, `ValidatorsSet.Storage` — the entries and the storage items.
* `ValidatorsSet.execute` — the entry point.
* `ValidatorsSet.Storage.addresses` — the addresses that have an entry.

## Main results

* `ValidatorsSet.execute_addresses` — which addresses have an entry after a message.
-/

namespace DropContracts

namespace ValidatorsSet

open Exec

/-! ## Data -/

/-- The configuration. -/
structure Config where
  owner : String
  statsContract : String
  providerProposalsContract : Option String
  deriving DecidableEq, Repr

/-- An update of the configuration. -/
structure ConfigOptional where
  owner : Option String
  statsContract : Option String
  providerProposalsContract : Option String
  deriving DecidableEq, Repr

/-- An entry of the set. -/
structure ValidatorInfo extends DropContracts.ValidatorInfo where
  lastProcessedRemoteHeight : Option ℕ
  lastProcessedLocalHeight : Option ℕ
  lastValidatedHeight : Option ℕ
  lastCommissionInRange : Option ℕ
  uptime : Decimal
  tombstone : Bool
  jailedNumber : Option ℕ
  initProposal : Option ℕ
  totalPassedProposals : ℕ
  totalVotedProposals : ℕ
  deriving DecidableEq, Repr

/-- A validator as the owner names it. -/
structure ValidatorData where
  valoperAddress : String
  weight : ℕ
  deriving DecidableEq, Repr

/-- What the statistics contract reports about a validator. -/
structure ValidatorInfoUpdate where
  valoperAddress : String
  lastProcessedRemoteHeight : Option ℕ
  lastProcessedLocalHeight : Option ℕ
  lastValidatedHeight : Option ℕ
  lastCommissionInRange : Option ℕ
  uptime : Decimal
  tombstone : Bool
  jailedNumber : Option ℕ
  deriving DecidableEq, Repr

/-- A vote on a proposal. -/
structure ProposalVote where
  voter : String
  options : List String
  deriving DecidableEq, Repr

/-- A proposal with the votes on it. -/
structure ProposalInfo where
  proposalId : ℕ
  votes : Option (List ProposalVote)
  isSpam : Bool
  deriving DecidableEq, Repr

/-- The messages of the contract. -/
inductive ExecuteMsg where
  | updateConfig (newConfig : ConfigOptional)
  | updateValidators (validators : List ValidatorData)
  | updateValidator (validator : ValidatorData)
  | updateValidatorsInfo (validators : List ValidatorInfoUpdate)
  | updateValidatorsVoting (proposal : ProposalInfo)
  deriving DecidableEq, Repr

/-- The errors of the contract. -/
inductive ContractError where
  | std (e : StdError)
  | ownershipError
  | unauthorized
  deriving DecidableEq, Repr

/-- A call of the contract. -/
abbrev Result (α : Type) := Exec ContractError α

/-- The storage items. -/
structure Storage where
  config : Config
  cwOwner : String
  validatorsSet : StorageMap String ValidatorInfo

/-! ## Messages -/

/-- The storage after `instantiate`. -/
def instantiate (addrValidate : String → Bool) (owner statsContract : String) :
    Result Storage := do
  ensure (addrValidate owner = true) (.std (.genericErr "addr_validate errored"))
  ensure (addrValidate statsContract = true) (.std (.genericErr "addr_validate errored"))
  return ⟨⟨owner, statsContract, none⟩, owner, StorageMap.empty⟩

/-- The entry of a validator about which nothing is known yet. -/
def ValidatorData.entry (validator : ValidatorData) : ValidatorInfo where
  valoperAddress := validator.valoperAddress
  weight := validator.weight
  lastProcessedRemoteHeight := none
  lastProcessedLocalHeight := none
  lastValidatedHeight := none
  lastCommissionInRange := none
  uptime := ⟨0⟩
  tombstone := false
  jailedNumber := none
  initProposal := none
  totalPassedProposals := 0
  totalVotedProposals := 0

section Messages

variable (s : Storage) (info : MessageInfo)

/-- `cw_ownable::assert_owner`. -/
def assertOwner : Result Unit := ensure (info.sender = s.cwOwner) .ownershipError

/-- The new entry of a named validator, which replaces the one it may have. -/
def Storage.saveValidator (validator : ValidatorData) : Storage :=
  { s with validatorsSet := s.validatorsSet.save validator.valoperAddress validator.entry }

/-- `execute_update_validator`. -/
def executeUpdateValidator (validator : ValidatorData) : Result Storage := do
  assertOwner s info
  return s.saveValidator validator

/-- `execute_update_validators`: the entries are cleared before the new ones are saved. -/
def executeUpdateValidators (validators : List ValidatorData) : Result Storage := do
  assertOwner s info
  return validators.foldl Storage.saveValidator { s with validatorsSet := StorageMap.empty }

/-- An entry with what the statistics contract reports. -/
def ValidatorInfo.update (validator : ValidatorInfo) (update : ValidatorInfoUpdate) :
    ValidatorInfo :=
  { validator with
    lastCommissionInRange := update.lastCommissionInRange <|> validator.lastCommissionInRange
    lastProcessedLocalHeight :=
      update.lastProcessedLocalHeight <|> validator.lastProcessedLocalHeight
    lastProcessedRemoteHeight :=
      update.lastProcessedRemoteHeight <|> validator.lastProcessedRemoteHeight
    lastValidatedHeight := update.lastValidatedHeight <|> validator.lastValidatedHeight
    jailedNumber := update.jailedNumber <|> validator.jailedNumber
    uptime := update.uptime
    tombstone := update.tombstone }

/-- The step of `execute_update_validators_info` for one validator; one without an entry is
skipped. The entry is saved under the address that it holds. -/
def Storage.saveUpdate (update : ValidatorInfoUpdate) : Storage :=
  match s.validatorsSet.load update.valoperAddress with
  | none => s
  | some validator =>
    { s with validatorsSet :=
        s.validatorsSet.save validator.valoperAddress (validator.update update) }

/-- `execute_update_validators_info`. -/
def executeUpdateValidatorsInfo (validators : List ValidatorInfoUpdate) : Result Storage := do
  ensure (s.config.statsContract = info.sender) .unauthorized
  return validators.foldl Storage.saveUpdate s

/-- The number of proposals voted on, after a vote with the given options. -/
def countVote (totalVotedProposals : ℕ) (options : List String) : Result ℕ :=
  if options = [] then .ok totalVotedProposals
  else checkedAdd U64.bound totalVotedProposals 1

/-- An entry after a vote of its validator. -/
def ValidatorInfo.vote (validator : ValidatorInfo) (proposalId : ℕ) (vote : ProposalVote) :
    Result ValidatorInfo := do
  let voted ← countVote validator.totalVotedProposals vote.options
  let passed ← checkedAdd U64.bound validator.totalPassedProposals 1
  return { validator with
    initProposal := validator.initProposal <|> some proposalId
    totalVotedProposals := voted
    totalPassedProposals := passed }

/-- The loop of `execute_update_validators_voting`; the votes of others than the validators with an
entry are skipped. -/
def saveVotes (proposalId : ℕ) : Storage → List ProposalVote → Result Storage
  | s, [] => .ok s
  | s, vote :: votes =>
    match s.validatorsSet.load vote.voter with
    | none => saveVotes proposalId s votes
    | some validator => do
      let validator ← validator.vote proposalId vote
      saveVotes proposalId
        { s with validatorsSet := s.validatorsSet.save validator.valoperAddress validator } votes

/-- `execute_update_validators_voting`. -/
def executeUpdateValidatorsVoting (proposal : ProposalInfo) : Result Storage := do
  ensure (s.config.providerProposalsContract = some info.sender) .unauthorized
  if proposal.isSpam then return s
  else saveVotes proposal.proposalId s (proposal.votes.getD [])

/-- `execute_update_config`. A new owner becomes the owner of the contract as well. -/
def executeUpdateConfig (addrValidate : String → Bool) (newConfig : ConfigOptional) :
    Result Storage := do
  assertOwner s info
  let owner := newConfig.owner.getD s.config.owner
  ensure (owner = s.config.owner ∨ addrValidate owner = true)
    (.std (.genericErr "addr_validate errored"))
  return { s with
    config := {
      owner := owner
      statsContract := newConfig.statsContract.getD s.config.statsContract
      providerProposalsContract :=
        newConfig.providerProposalsContract <|> s.config.providerProposalsContract }
    cwOwner := if owner = s.config.owner then s.cwOwner else owner }

/-- `execute`. -/
def execute (addrValidate : String → Bool) : ExecuteMsg → Result Storage
  | .updateConfig newConfig => executeUpdateConfig s info addrValidate newConfig
  | .updateValidators validators => executeUpdateValidators s info validators
  | .updateValidator validator => executeUpdateValidator s info validator
  | .updateValidatorsInfo validators => executeUpdateValidatorsInfo s info validators
  | .updateValidatorsVoting proposal => executeUpdateValidatorsVoting s info proposal

end Messages

/-! ## Queries -/

/-- `query_validators`. -/
def queryValidators (s : Storage) : List ValidatorInfo := s.validatorsSet.entries.map Prod.snd

/-! ## Which addresses have an entry -/

section Addresses

variable {s s' : Storage} {info : MessageInfo} {addrValidate : String → Bool}

/-- The addresses that have an entry. -/
def Storage.addresses (s : Storage) : List String := s.validatorsSet.entries.map Prod.fst

/-- Every entry is stored under the address that it holds. -/
def Storage.Keyed (s : Storage) : Prop :=
  ∀ address validator, s.validatorsSet.load address = some validator →
    validator.valoperAddress = address

/-- An address has an entry exactly when one can be loaded. -/
theorem mem_addresses {address : String} :
    address ∈ s.addresses ↔ (s.validatorsSet.load address).isSome := by
  rw [Option.isSome_iff_exists, Storage.addresses, List.mem_map]
  constructor
  · rintro ⟨⟨key, validator⟩, hmem, rfl⟩
    exact ⟨validator, StorageMap.mem_entries.1 hmem⟩
  · rintro ⟨validator, hload⟩
    exact ⟨(address, validator), StorageMap.mem_entries.2 hload, rfl⟩

/-- The query for all validators lists each address once with its entry. -/
theorem mem_queryValidators (hs : s.Keyed) {address : String} :
    (∃ v ∈ queryValidators s, v.valoperAddress = address) ↔ address ∈ s.addresses := by
  rw [mem_addresses, Option.isSome_iff_exists]
  constructor
  · rintro ⟨v, hmem, rfl⟩
    obtain ⟨⟨key, validator⟩, hentry, rfl⟩ := List.mem_map.1 hmem
    have hload := StorageMap.mem_entries.1 hentry
    have hkey : validator.valoperAddress = key := hs _ _ hload
    exact ⟨validator, by rw [hkey]; exact hload⟩
  · rintro ⟨validator, hload⟩
    exact ⟨validator, List.mem_map_of_mem (StorageMap.mem_entries.2 hload), hs _ _ hload⟩

/-- The query for all validators lists no address twice. -/
theorem queryValidators_nodup (hs : s.Keyed) :
    ((queryValidators s).map fun v => v.valoperAddress).Nodup := by
  have hkeys : (queryValidators s).map (fun v => v.valoperAddress) = s.addresses := by
    rw [queryValidators, List.map_map, Storage.addresses]
    apply List.map_congr_left
    rintro ⟨key, validator⟩ hmem
    exact hs _ _ (StorageMap.mem_entries.1 hmem)
  rw [hkeys, Storage.addresses, List.Nodup, List.pairwise_map]
  exact s.validatorsSet.sorted.imp fun h => h.ne

/-- Saving an entry under its own address keeps the entries in their places. -/
theorem Storage.Keyed.save (hs : s.Keyed) (validator : ValidatorInfo) :
    Storage.Keyed
      { s with validatorsSet := s.validatorsSet.save validator.valoperAddress validator } := by
  intro address v hload
  rw [StorageMap.load_save] at hload
  split_ifs at hload with h
  · rw [← Option.some.inj hload, h]
  · exact hs address v hload

/-- Saving an entry under its own address adds this address. -/
theorem mem_addresses_save (validator : ValidatorInfo) {address : String} :
    address ∈ Storage.addresses
        { s with validatorsSet := s.validatorsSet.save validator.valoperAddress validator } ↔
      address = validator.valoperAddress ∨ address ∈ s.addresses := by
  rw [mem_addresses, mem_addresses, StorageMap.load_save]
  split_ifs with h
  · simp [h]
  · simp [h]

/-- The loop of `execute_update_validators` adds the addresses that it is given. -/
theorem foldl_saveValidator (hs : s.Keyed) (validators : List ValidatorData) :
    (validators.foldl Storage.saveValidator s).Keyed ∧
    ∀ address, address ∈ (validators.foldl Storage.saveValidator s).addresses ↔
      address ∈ validators.map ValidatorData.valoperAddress ∨ address ∈ s.addresses := by
  induction validators generalizing s with
  | nil => exact ⟨hs, fun address => by simp⟩
  | cons v validators ih =>
    have hfirst : (s.saveValidator v).Keyed := hs.save v.entry
    obtain ⟨hkeyed, hmem⟩ := ih hfirst
    refine ⟨hkeyed, fun address => ?_⟩
    have hadd : address ∈ (s.saveValidator v).addresses ↔
        address = v.valoperAddress ∨ address ∈ s.addresses := mem_addresses_save v.entry
    rw [List.foldl_cons, hmem, hadd, List.map_cons, List.mem_cons]
    tauto

/-- Saving over an entry keeps the addresses. -/
theorem save_over (hs : s.Keyed) {address : String} {old new : ValidatorInfo}
    (hload : s.validatorsSet.load address = some old)
    (hnew : new.valoperAddress = old.valoperAddress) :
    Storage.Keyed { s with validatorsSet := s.validatorsSet.save old.valoperAddress new } ∧
    ∀ a, a ∈ Storage.addresses
      { s with validatorsSet := s.validatorsSet.save old.valoperAddress new } ↔
        a ∈ s.addresses := by
  rw [← hnew]
  refine ⟨hs.save new, fun a => ?_⟩
  have hold : new.valoperAddress ∈ s.addresses := by
    rw [mem_addresses, hnew, hs address old hload, hload]
    rfl
  rw [mem_addresses_save]
  constructor
  · rintro (rfl | h)
    · exact hold
    · exact h
  · exact .inr

/-- Reports about validators keep the addresses and the owner. -/
theorem foldl_saveUpdate (hs : s.Keyed) (validators : List ValidatorInfoUpdate) :
    (validators.foldl Storage.saveUpdate s).Keyed ∧
    (∀ address, address ∈ (validators.foldl Storage.saveUpdate s).addresses ↔
      address ∈ s.addresses) ∧
    (validators.foldl Storage.saveUpdate s).cwOwner = s.cwOwner := by
  induction validators generalizing s with
  | nil => exact ⟨hs, fun _ => Iff.rfl, rfl⟩
  | cons update validators ih =>
    have hfirst : (s.saveUpdate update).Keyed ∧
        (∀ address, address ∈ (s.saveUpdate update).addresses ↔ address ∈ s.addresses) ∧
        (s.saveUpdate update).cwOwner = s.cwOwner := by
      unfold Storage.saveUpdate
      split
      · exact ⟨hs, fun _ => Iff.rfl, rfl⟩
      · next validator hload =>
        have hsame : (validator.update update).valoperAddress = validator.valoperAddress := rfl
        obtain ⟨hkeyed, hmem⟩ := save_over hs hload hsame
        exact ⟨hkeyed, hmem, rfl⟩
    obtain ⟨hkeyed, hmem, howner⟩ := ih hfirst.1
    exact ⟨hkeyed, fun address => (hmem address).trans (hfirst.2.1 address),
      howner.trans hfirst.2.2⟩

/-- A vote keeps the address of the entry. -/
theorem vote_valoperAddress {validator validator' : ValidatorInfo} {proposalId : ℕ}
    {vote : ProposalVote} (h : validator.vote proposalId vote = .ok validator') :
    validator'.valoperAddress = validator.valoperAddress := by
  simp only [ValidatorInfo.vote, bind_eq_ok, pure_eq_ok, Except.ok.injEq] at h
  obtain ⟨voted, -, passed, -, rfl⟩ := h
  rfl

/-- Votes of validators keep the addresses and the owner. -/
theorem saveVotes_addresses (hs : s.Keyed) {proposalId : ℕ} {votes : List ProposalVote}
    (h : saveVotes proposalId s votes = .ok s') :
    s'.Keyed ∧ (∀ address, address ∈ s'.addresses ↔ address ∈ s.addresses) ∧
      s'.cwOwner = s.cwOwner := by
  induction votes generalizing s with
  | nil =>
    rw [← Except.ok.inj h]
    exact ⟨hs, fun _ => Iff.rfl, rfl⟩
  | cons vote votes ih =>
    simp only [saveVotes] at h
    split at h
    · exact ih hs h
    · next validator hload =>
      obtain ⟨voted, hvoted, hrest⟩ := bind_eq_ok.1 h
      have haddress := vote_valoperAddress hvoted
      rw [haddress] at hrest
      obtain ⟨hkeyed, hsame⟩ := save_over hs hload haddress
      obtain ⟨hkeyed', hmem, howner⟩ := ih hkeyed hrest
      exact ⟨hkeyed', fun address => (hmem address).trans (hsame address), howner⟩

/-- The addresses that a message lists, over those that have an entry already. -/
def ExecuteMsg.addresses (present : List String) : ExecuteMsg → List String
  | .updateValidators validators => validators.map ValidatorData.valoperAddress
  | .updateValidator validator => validator.valoperAddress :: present
  | _ => present

/-- **Which addresses have an entry after a message.** Only the two messages of the owner that name
validators change them. -/
theorem execute_addresses {msg : ExecuteMsg} (hs : s.Keyed)
    (h : execute s info addrValidate msg = .ok s') :
    s'.Keyed ∧ ∀ address, address ∈ s'.addresses ↔ address ∈ msg.addresses s.addresses := by
  cases msg with
  | updateConfig newConfig =>
    simp only [execute, executeUpdateConfig, bind_eq_ok, pure_eq_ok, Except.ok.injEq] at h
    obtain ⟨-, -, -, -, rfl⟩ := h
    exact ⟨hs, fun _ => Iff.rfl⟩
  | updateValidators validators =>
    simp only [execute, executeUpdateValidators, bind_eq_ok, pure_eq_ok, Except.ok.injEq] at h
    obtain ⟨-, -, rfl⟩ := h
    have hcleared : Storage.Keyed { s with validatorsSet := StorageMap.empty } := by
      intro address validator hload
      simp at hload
    obtain ⟨hkeyed, hmem⟩ := foldl_saveValidator hcleared validators
    refine ⟨hkeyed, fun address => ?_⟩
    rw [hmem]
    show _ ∨ address ∈ [] ↔ address ∈ validators.map ValidatorData.valoperAddress
    simp
  | updateValidator validator =>
    simp only [execute, executeUpdateValidator, bind_eq_ok, pure_eq_ok, Except.ok.injEq] at h
    obtain ⟨-, -, rfl⟩ := h
    refine ⟨hs.save validator.entry, fun address => ?_⟩
    exact (mem_addresses_save validator.entry).trans List.mem_cons.symm
  | updateValidatorsInfo validators =>
    simp only [execute, executeUpdateValidatorsInfo, bind_eq_ok, pure_eq_ok, Except.ok.injEq] at h
    obtain ⟨-, -, rfl⟩ := h
    obtain ⟨hkeyed, hmem, -⟩ := foldl_saveUpdate hs validators
    exact ⟨hkeyed, hmem⟩
  | updateValidatorsVoting proposal =>
    simp only [execute, executeUpdateValidatorsVoting, bind_eq_ok] at h
    obtain ⟨-, -, h⟩ := h
    split_ifs at h
    · rw [← Except.ok.inj h]
      exact ⟨hs, fun _ => Iff.rfl⟩
    · obtain ⟨hkeyed, hmem, -⟩ := saveVotes_addresses hs h
      exact ⟨hkeyed, hmem⟩

/-- A message of another account than the owner leaves the addresses and the owner alone. -/
theorem execute_of_ne_owner {msg : ExecuteMsg} (hs : s.Keyed) (hsender : info.sender ≠ s.cwOwner)
    (h : execute s info addrValidate msg = .ok s') :
    (∀ address, address ∈ s'.addresses ↔ address ∈ s.addresses) ∧ s'.cwOwner = s.cwOwner := by
  have haddresses := (execute_addresses hs h).2
  cases msg with
  | updateConfig newConfig =>
    simp only [execute, executeUpdateConfig, assertOwner, bind_eq_ok, ensure_eq_ok] at h
    obtain ⟨-, howner, -⟩ := h
    exact absurd howner hsender
  | updateValidators validators =>
    simp only [execute, executeUpdateValidators, assertOwner, bind_eq_ok, ensure_eq_ok] at h
    obtain ⟨-, howner, -⟩ := h
    exact absurd howner hsender
  | updateValidator validator =>
    simp only [execute, executeUpdateValidator, assertOwner, bind_eq_ok, ensure_eq_ok] at h
    obtain ⟨-, howner, -⟩ := h
    exact absurd howner hsender
  | updateValidatorsInfo validators =>
    refine ⟨haddresses, ?_⟩
    simp only [execute, executeUpdateValidatorsInfo, bind_eq_ok, pure_eq_ok, Except.ok.injEq] at h
    obtain ⟨-, -, rfl⟩ := h
    exact (foldl_saveUpdate hs validators).2.2
  | updateValidatorsVoting proposal =>
    refine ⟨haddresses, ?_⟩
    simp only [execute, executeUpdateValidatorsVoting, bind_eq_ok] at h
    obtain ⟨-, -, h⟩ := h
    split_ifs at h
    · rw [← Except.ok.inj h]
    · exact (saveVotes_addresses hs h).2.2

end Addresses

end ValidatorsSet

end DropContracts
