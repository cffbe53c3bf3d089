import Mathlib.Data.List.Count
import DropContracts.ValidatorsSet.Contract

set_option relaxedAutoImplicit false
set_option autoImplicit false

/-!
# The voting counters of the validators

What the votes on a proposal add to the counters of the validators.

## Main definitions

* `ValidatorsSet.Storage.passedProposals`, `ValidatorsSet.Storage.votedProposals` — the counters of
  an address.
* `ValidatorsSet.ProposalInfo.counted` — the votes that a proposal counts.

## Main results

* `ValidatorsSet.executeUpdateValidatorsVoting_counters` — what a proposal adds to the counters.
-/

namespace DropContracts

namespace ValidatorsSet

open Exec

/-- The number of proposals that were scored for an address. -/
def Storage.passedProposals (s : Storage) (address : String) : ℕ :=
  ((s.validatorsSet.load address).map ValidatorInfo.totalPassedProposals).getD 0

/-- The number of proposals that an address has voted on. -/
def Storage.votedProposals (s : Storage) (address : String) : ℕ :=
  ((s.validatorsSet.load address).map ValidatorInfo.totalVotedProposals).getD 0

/-- The votes that a proposal counts: those on it, unless it is spam. -/
def ProposalInfo.counted (proposal : ProposalInfo) : List ProposalVote :=
  if proposal.isSpam then [] else proposal.votes.getD []

/-- The votes of an address among the given ones. -/
def votesOf (address : String) (votes : List ProposalVote) : List ProposalVote :=
  votes.filter fun vote => vote.voter = address

section Counters

variable {s s' : Storage} {info : MessageInfo} {proposalId : ℕ}

/-- What one vote adds to an entry. -/
theorem vote_counters {validator validator' : ValidatorInfo} {vote : ProposalVote}
    (h : validator.vote proposalId vote = .ok validator') :
    validator'.totalPassedProposals = validator.totalPassedProposals + 1 ∧
      validator'.totalVotedProposals =
        validator.totalVotedProposals + (if vote.options = [] then 0 else 1) := by
  simp only [ValidatorInfo.vote, bind_eq_ok, checkedAdd_eq_ok, pure_eq_ok, Except.ok.injEq] at h
  obtain ⟨voted, hvoted, passed, ⟨hpassed, -⟩, rfl⟩ := h
  refine ⟨hpassed.symm, ?_⟩
  unfold countVote at hvoted
  split_ifs at hvoted ⊢
  · exact (Except.ok.inj hvoted).symm
  · exact ((checkedAdd_eq_ok.1 hvoted).1).symm

/-- **What votes add to the counters** of an address that has an entry: one for each vote of it, and
one for each of these that names an option.

**Proof sketch.** Induction on the votes. A vote is counted in the entry under the address of its
voter, which is the address that the entry holds, and in no other entry. -/
theorem saveVotes_counters (hs : s.Keyed) {votes : List ProposalVote}
    (h : saveVotes proposalId s votes = .ok s') {address : String}
    (haddress : address ∈ s.addresses) :
    s'.passedProposals address = s.passedProposals address + (votesOf address votes).length ∧
      s'.votedProposals address = s.votedProposals address +
        ((votesOf address votes).filter fun vote => vote.options ≠ []).length := by
  induction votes generalizing s with
  | nil =>
    rw [← Except.ok.inj h]
    exact ⟨rfl, rfl⟩
  | cons vote votes ih =>
    simp only [saveVotes] at h
    split at h
    · next hload =>
      have hvoter : vote.voter ≠ address := by
        rintro rfl
        rw [mem_addresses, hload] at haddress
        cases haddress
      obtain ⟨hpassed, hvoted⟩ := ih hs h haddress
      simp only [votesOf, List.filter_cons, hvoter, decide_false, Bool.false_eq_true, if_false]
      exact ⟨hpassed, hvoted⟩
    · next validator hload =>
      obtain ⟨validator', hvote, hrest⟩ := bind_eq_ok.1 h
      have hkey : validator'.valoperAddress = vote.voter :=
        (vote_valoperAddress hvote).trans (hs _ _ hload)
      obtain ⟨hone, hoption⟩ := vote_counters hvote
      obtain ⟨hpassed, hvoted⟩ := ih (hs.save validator') hrest
        ((mem_addresses_save validator').2 (.inr haddress))
      rw [hpassed, hvoted]
      by_cases hvoter : vote.voter = address
      · subst hvoter
        simp only [Storage.passedProposals, Storage.votedProposals, hkey, StorageMap.load_save_self,
          hload, Option.map_some, Option.getD_some, hone, hoption, votesOf, List.filter_cons,
          decide_true, if_true]
        constructor
        · rw [List.length_cons]
          omega
        · by_cases hoptions : vote.options = []
          · simp [hoptions]
          · simp [hoptions]
            omega
      · have hother : address ≠ validator'.valoperAddress := by
          rw [hkey]
          exact fun h => hvoter h.symm
        simp only [Storage.passedProposals, Storage.votedProposals,
          StorageMap.load_save_of_ne _ _ hother, votesOf, List.filter_cons, hvoter, decide_false,
          Bool.false_eq_true, if_false, and_self]

/-- **What a proposal adds to the counters** of an address that has an entry. -/
theorem executeUpdateValidatorsVoting_counters (hs : s.Keyed) {proposal : ProposalInfo}
    (h : executeUpdateValidatorsVoting s info proposal = .ok s') {address : String}
    (haddress : address ∈ s.addresses) :
    s'.passedProposals address =
        s.passedProposals address + (votesOf address proposal.counted).length ∧
      s'.votedProposals address = s.votedProposals address +
        ((votesOf address proposal.counted).filter fun vote => vote.options ≠ []).length := by
  simp only [executeUpdateValidatorsVoting, bind_eq_ok] at h
  obtain ⟨-, -, h⟩ := h
  unfold ProposalInfo.counted
  split_ifs at h ⊢
  · rw [← Except.ok.inj h]
    exact ⟨rfl, rfl⟩
  · exact saveVotes_counters hs h haddress

/-- The counters of an address without an entry are zero, before and after. -/
theorem counters_of_not_mem {address : String} (haddress : address ∉ s.addresses) :
    s.passedProposals address = 0 ∧ s.votedProposals address = 0 := by
  have hload : s.validatorsSet.load address = none := by
    rw [mem_addresses] at haddress
    simpa using haddress
  simp [Storage.passedProposals, Storage.votedProposals, hload]

end Counters

end ValidatorsSet

end DropContracts
