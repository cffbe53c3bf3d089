import DropContracts.Core.ExchangeRate
import DropContracts.Distribution.Plans
import DropContracts.Strategy.Contract
import Mathlib.Algebra.Order.BigOperators.Group.List
import Mathlib.Data.List.Nodup

set_option relaxedAutoImplicit false
set_option autoImplicit false

/-!
# The stake that the strategy sees

`prepare_delegation_data` keeps of the delegations that the puppeteer reports those in its
denomination and to members of the validator set, and of several to one validator the last. The
exchange rate of core sums up all of them. This module tells when the two agree.

## Main definitions

* `Strategy.delegatedTo` — what is delegated to a validator, over all reported delegations.
* `Strategy.SeenWhole` — the reported delegations of which the strategy misses nothing.

## Main results

* `Strategy.collected_eq_iff` — when the map holds the whole delegation to a validator.
* `Strategy.stake_agrees_iff` — when the strategy sees the stake that core counts.
-/

namespace DropContracts

namespace Strategy

open Exec

/-! ## The map of the delegations -/

section Collected

variable {denom validator : String} {l : List Delegation}

/-- What is delegated to a validator, over all reported delegations. -/
def delegatedTo (l : List Delegation) (validator : String) : ℕ :=
  ((l.filter fun d => d.validator = validator).map fun d => d.amount.amount).sum

/-- The map that `prepare_delegation_data` collects in a denomination. -/
def delegationMap (denom : String) (l : List Delegation) : String → ℕ :=
  collected ((l.filter fun d => d.amount.denom = denom).map fun d => (d.validator, d.amount.amount))

/-- Every delegation of something to a validator is in the denomination, and none in the
denomination comes after it. -/
structure LastTo (denom validator : String) (l : List Delegation) : Prop where
  counted : ∀ d ∈ l, d.validator = validator → d.amount.amount ≠ 0 → d.amount.denom = denom
  last : l.Pairwise fun d e => d.validator = validator → e.validator = validator →
    d.amount.amount ≠ 0 → e.amount.denom ≠ denom

/-- A pair is kept in the map unless a later one replaces it. -/
theorem collected_cons (p : String × ℕ) (ps : List (String × ℕ)) (validator : String) :
    collected (p :: ps) validator =
      if validator ∈ ps.map Prod.fst then collected ps validator
      else if p.1 = validator then p.2 else 0 := by
  unfold collected
  rw [List.reverse_cons, List.find?_append]
  by_cases hmem : validator ∈ ps.map Prod.fst
  · obtain ⟨later, hlater, hkey⟩ := List.mem_map.1 hmem
    have hsome : (ps.reverse.find? fun q => q.1 = validator).isSome := by
      rw [List.find?_isSome]
      exact ⟨later, List.mem_reverse.2 hlater, by simpa using hkey⟩
    rw [if_pos hmem, Option.or_of_isSome hsome]
  · have hnone : (ps.reverse.find? fun q => q.1 = validator) = none := by
      rw [List.find?_eq_none]
      intro q hq hkey
      exact hmem (List.mem_map.2 ⟨q, List.mem_reverse.1 hq, by simpa using hkey⟩)
    rw [if_neg hmem, hnone, Option.none_or, List.find?_singleton]
    by_cases hkey : p.1 = validator
    · simp [hkey]
    · simp [hkey]

/-- A validator that no pair names has nothing in the map. -/
theorem collected_of_notMem {ps : List (String × ℕ)} (h : validator ∉ ps.map Prod.fst) :
    collected ps validator = 0 := by
  cases ps with
  | nil => rfl
  | cons p ps =>
    rw [List.map_cons, List.mem_cons, not_or] at h
    rw [collected_cons, if_neg h.2, if_neg (Ne.symm h.1)]

/-- The sum of the delegations to a validator, with one more. -/
theorem delegatedTo_cons (d : Delegation) (l : List Delegation) (validator : String) :
    delegatedTo (d :: l) validator =
      (if d.validator = validator then d.amount.amount else 0) + delegatedTo l validator := by
  unfold delegatedTo
  by_cases hvalidator : d.validator = validator
  · rw [List.filter_cons_of_pos (by simpa using hvalidator), if_pos hvalidator, List.map_cons,
      List.sum_cons]
  · rw [List.filter_cons_of_neg (by simpa using hvalidator), if_neg hvalidator, Nat.zero_add]

/-- The map with one more delegation before the others. -/
theorem delegationMap_cons (d : Delegation) :
    delegationMap denom (d :: l) validator =
      if d.validator = validator ∧ d.amount.denom = denom ∧
          ∀ e ∈ l, e.validator = validator → e.amount.denom ≠ denom then d.amount.amount
      else delegationMap denom l validator := by
  have hmem : validator ∈ ((l.filter fun e => e.amount.denom = denom).map
      fun e => (e.validator, e.amount.amount)).map Prod.fst ↔
        ¬ ∀ e ∈ l, e.validator = validator → e.amount.denom ≠ denom := by
    rw [List.map_map, List.mem_map]
    simp only [List.mem_filter, decide_eq_true_eq, Function.comp_apply]
    push Not
    simp only [and_assoc, and_comm]
  unfold delegationMap
  by_cases hdenom : d.amount.denom = denom
  · rw [List.filter_cons_of_pos (by simpa using hdenom), List.map_cons, collected_cons]
    by_cases hlater : ∀ e ∈ l, e.validator = validator → e.amount.denom ≠ denom
    · have hnot := mt hmem.1 (not_not.2 hlater)
      rw [if_neg hnot, collected_of_notMem hnot]
      simp only [hdenom, and_iff_left hlater, and_true]
    · rw [if_pos (hmem.2 hlater), if_neg (fun h => hlater h.2.2)]
  · rw [List.filter_cons_of_neg (by simpa using hdenom), if_neg (fun h => hdenom h.2.1)]

/-- The map holds nothing for a validator to which there is no delegation in the denomination. -/
theorem delegationMap_of_none (h : ∀ e ∈ l, e.validator = validator → e.amount.denom ≠ denom) :
    delegationMap denom l validator = 0 := by
  refine collected_of_notMem fun hmem => ?_
  obtain ⟨p, hp, hkey⟩ := List.mem_map.1 hmem
  obtain ⟨e, he, rfl⟩ := List.mem_map.1 hp
  obtain ⟨hl, hdenom⟩ := List.mem_filter.1 he
  exact h e hl hkey (by simpa using hdenom)

/-- The map holds no more than the whole delegation. -/
theorem delegationMap_le (denom validator : String) (l : List Delegation) :
    delegationMap denom l validator ≤ delegatedTo l validator := by
  induction l with
  | nil => exact Nat.zero_le _
  | cons d rest ih =>
    rw [delegationMap_cons, delegatedTo_cons]
    by_cases hkept : d.validator = validator ∧ d.amount.denom = denom ∧
        ∀ e ∈ rest, e.validator = validator → e.amount.denom ≠ denom
    · rw [if_pos hkept, if_pos hkept.1]
      exact Nat.le_add_right _ _
    · rw [if_neg hkept]
      exact ih.trans (Nat.le_add_left _ _)

/-- When a delegation comes before others. -/
theorem lastTo_cons {d : Delegation} :
    LastTo denom validator (d :: l) ↔
      (d.validator = validator → d.amount.amount ≠ 0 → d.amount.denom = denom ∧
        ∀ e ∈ l, e.validator = validator → e.amount.denom ≠ denom) ∧
      LastTo denom validator l := by
  constructor
  · rintro ⟨hcounted, hlast⟩
    rw [List.pairwise_cons] at hlast
    refine ⟨fun hvalidator hne => ⟨hcounted d List.mem_cons_self hvalidator hne, ?_⟩,
      fun e he => hcounted e (List.mem_cons_of_mem _ he), hlast.2⟩
    intro e he hsame
    exact hlast.1 e he hvalidator hsame hne
  · rintro ⟨hfirst, hcounted, hlast⟩
    refine ⟨?_, List.pairwise_cons.2 ⟨?_, hlast⟩⟩
    · intro e he hvalidator hne
      rcases List.mem_cons.1 he with rfl | he
      · exact (hfirst hvalidator hne).1
      · exact hcounted e he hvalidator hne
    · intro e he hvalidator hsame hne
      exact (hfirst hvalidator hne).2 e he hsame

/-- **When the map holds the whole delegation to a validator.**

**Proof sketch.** Induction on the delegations. One that counts is kept only if no later one
replaces it, and what is kept is never more than the whole. -/
theorem delegationMap_eq_iff :
    delegationMap denom l validator = delegatedTo l validator ↔ LastTo denom validator l := by
  induction l with
  | nil => exact iff_of_true rfl ⟨by simp, List.Pairwise.nil⟩
  | cons d rest ih =>
    have hle := delegationMap_le denom validator rest
    rw [delegationMap_cons, delegatedTo_cons, lastTo_cons, ← ih]
    by_cases hvalidator : d.validator = validator
    · rw [if_pos hvalidator]
      by_cases hkept : d.amount.denom = denom ∧
          ∀ e ∈ rest, e.validator = validator → e.amount.denom ≠ denom
      · have hzero := delegationMap_of_none hkept.2
        rw [if_pos ⟨hvalidator, hkept⟩, and_iff_right fun _ _ => hkept]
        omega
      · rw [if_neg fun h => hkept h.2]
        constructor
        · intro h
          exact ⟨fun _ hne => absurd h (by omega), by omega⟩
        · rintro ⟨hfirst, h⟩
          have hamount : d.amount.amount = 0 := by
            by_contra hne
            exact hkept (hfirst hvalidator hne)
          omega
    · rw [if_neg hvalidator, if_neg fun h => hvalidator h.1, Nat.zero_add]
      exact (and_iff_right fun h => absurd h hvalidator).symm

end Collected

/-! ## The sum over the validator set -/

section Sum

variable {l : List Delegation} {addresses : List String}

/-- What is added for one validator counts once in a list without repetitions. -/
theorem sum_map_ite_eq (h : addresses.Nodup) (validator : String) (n : ℕ) :
    (addresses.map fun a => if validator = a then n else 0).sum =
      if validator ∈ addresses then n else 0 := by
  induction addresses with
  | nil => rfl
  | cons a rest ih =>
    rw [List.nodup_cons] at h
    rw [List.map_cons, List.sum_cons, ih h.2]
    by_cases hfirst : validator = a
    · subst hfirst
      rw [if_pos rfl, if_neg h.1, if_pos List.mem_cons_self, Nat.add_zero]
    · simp only [hfirst, List.mem_cons, false_or, if_false, Nat.zero_add]

/-- **What is delegated to the members and to others is all that is delegated.** -/
theorem sum_delegatedTo_add (h : addresses.Nodup) (l : List Delegation) :
    (addresses.map (delegatedTo l)).sum +
      ((l.filter fun d => d.validator ∉ addresses).map fun d => d.amount.amount).sum =
      (l.map fun d => d.amount.amount).sum := by
  induction l with
  | nil =>
    have hzero : addresses.map (delegatedTo []) = addresses.map fun _ => 0 := rfl
    simp [hzero]
  | cons d rest ih =>
    have hsum : (addresses.map (delegatedTo (d :: rest))).sum =
        (if d.validator ∈ addresses then d.amount.amount else 0) +
          (addresses.map (delegatedTo rest)).sum := by
      rw [← sum_map_ite_eq h, ← List.sum_map_add]
      exact congrArg List.sum (List.map_congr_left fun a _ => delegatedTo_cons d rest a)
    rw [hsum, List.map_cons, List.sum_cons]
    by_cases hmem : d.validator ∈ addresses
    · rw [if_pos hmem, List.filter_cons_of_neg (by simpa using hmem)]
      omega
    · rw [if_neg hmem, List.filter_cons_of_pos (by simpa using hmem), List.map_cons, List.sum_cons]
      omega

end Sum

/-! ## What the strategy and core see -/

section Agreement

variable {s : Storage} {q : Querier} {core : Core.Querier} {response : DelegationsResponse}
  {validatorSet : List ValidatorInfo}

/-- The reported delegations of which the strategy misses nothing: each delegation of something is
to a member of the set and in the denomination, and no other one in the denomination follows it to
the same validator. -/
structure SeenWhole (denom : String) (validatorSet : List ValidatorInfo) (l : List Delegation) :
    Prop where
  member : ∀ d ∈ l, d.amount.amount ≠ 0 →
    d.validator ∈ validatorSet.map ValidatorInfo.valoperAddress
  counted : ∀ d ∈ l, d.amount.amount ≠ 0 → d.amount.denom = denom
  last : l.Pairwise fun d e =>
    d.amount.amount ≠ 0 → e.validator = d.validator → e.amount.denom ≠ denom

/-- Nothing is missed exactly when nothing is missed of each member and nothing goes to others. -/
theorem seenWhole_iff {denom : String} {l : List Delegation} :
    SeenWhole denom validatorSet l ↔
      (∀ v ∈ validatorSet, LastTo denom v.valoperAddress l) ∧
      ((l.filter fun d => d.validator ∉ validatorSet.map ValidatorInfo.valoperAddress).map
        fun d => d.amount.amount).sum = 0 := by
  rw [List.sum_eq_zero_iff]
  constructor
  · rintro ⟨hmember, hcounted, hlast⟩
    refine ⟨fun v _ => ⟨fun d hd _ => hcounted d hd, hlast.imp ?_⟩, ?_⟩
    · intro d e hde hvalidator hsame hne
      exact hde hne (hsame.trans hvalidator.symm)
    · intro n hn
      obtain ⟨d, hd, rfl⟩ := List.mem_map.1 hn
      obtain ⟨hl, hout⟩ := List.mem_filter.1 hd
      by_contra hne
      exact absurd (hmember d hl hne) (by simpa using hout)
  · rintro ⟨hlast, hothers⟩
    have hmember : ∀ d ∈ l, d.amount.amount ≠ 0 →
        d.validator ∈ validatorSet.map ValidatorInfo.valoperAddress := by
      intro d hd hne
      by_contra hout
      exact hne (hothers _ (List.mem_map_of_mem (List.mem_filter.2 ⟨hd, by simpa using hout⟩)))
    refine ⟨hmember, ?_, ?_⟩
    · intro d hd hne
      obtain ⟨v, hv, hvalidator⟩ := List.mem_map.1 (hmember d hd hne)
      exact (hlast v hv).counted d hd hvalidator.symm hne
    · apply List.pairwise_of_forall_sublist
      intro d e hsub hne hsame
      obtain ⟨v, hv, hvalidator⟩ := List.mem_map.1 (hmember d (hsub.mem List.mem_cons_self) hne)
      exact (hlast v hv).last.forall_sublist hsub hvalidator.symm (hsame.trans hvalidator.symm) hne

/-- An answer of another contract is passed on. -/
theorem smartQuery_eq_ok {α : Type} {answer : Except String α} {a : α} :
    smartQuery answer = .ok a ↔ answer = .ok a := by
  cases answer <;> simp [smartQuery]

/-- The list that is prepared for the distribution: an entry for each validator of the set. -/
theorem prepareDelegationData_eq (hstrategy : q.delegations s.puppeteerAddress = .ok response)
    (hvalidators : q.validators s.validatorSetAddress = .ok validatorSet) :
    prepareDelegationData s q = .ok (validatorSet.map fun v =>
      ⟨v.valoperAddress, delegationMap s.denom response.1 v.valoperAddress, v.weight⟩) := by
  rw [prepareDelegationData, hstrategy, hvalidators]
  rfl

/-- When nothing is missed of the members, their stakes sum up to everything exactly when nothing is
delegated to others. -/
theorem sum_delegationMap_eq_iff {denom : String} {l : List Delegation}
    (hset : (validatorSet.map ValidatorInfo.valoperAddress).Nodup)
    (hlast : ∀ v ∈ validatorSet, LastTo denom v.valoperAddress l) :
    (validatorSet.map fun v => delegationMap denom l v.valoperAddress).sum =
        (l.map fun d => d.amount.amount).sum ↔
      ((l.filter fun d => d.validator ∉ validatorSet.map ValidatorInfo.valoperAddress).map
        fun d => d.amount.amount).sum = 0 := by
  have hstakes : (validatorSet.map fun v => delegationMap denom l v.valoperAddress) =
      (validatorSet.map ValidatorInfo.valoperAddress).map (delegatedTo l) := by
    rw [List.map_map]
    apply List.map_congr_left
    exact fun v hv => delegationMap_eq_iff.2 (hlast v hv)
  have hsum := sum_delegatedTo_add hset l
  rw [hstakes]
  omega

/-- **When the strategy sees the stake that core counts**, for a validator set without repetitions
and a response of the puppeteer: exactly then each validator is listed once with what is delegated
to it, the stakes sum up to what the exchange rate counts, and no withdrawal up to that is refused
as too big.

**Proof sketch.** The list that is prepared is known. What each member misses is told by the map of
the delegations; and if nothing is missed of the members, the difference to the total is what is
delegated to others. -/
theorem stake_agrees_iff (hstrategy : q.delegations s.puppeteerAddress = .ok response)
    (hcore : core.delegations = .ok response)
    (hvalidators : q.validators s.validatorSetAddress = .ok validatorSet)
    (hset : (validatorSet.map ValidatorInfo.valoperAddress).Nodup) :
    (∃ entries, prepareDelegationData s q = .ok entries ∧
      entries.map Distribution.Delegation.valoperAddress =
        validatorSet.map ValidatorInfo.valoperAddress ∧
      (∀ e ∈ entries, e.stake = delegatedTo response.1 e.valoperAddress) ∧
      (entries.map Distribution.Delegation.stake).sum = core.delegated ∧
      ∀ withdraw ≤ core.delegated,
        Distribution.calcWithdraw withdraw entries ≠ .error (.error .tooBigWithdraw)) ↔
      SeenWhole s.denom validatorSet response.1 := by
  have hprepare := prepareDelegationData_eq hstrategy hvalidators
  have htotal : core.delegated = (response.1.map fun d => d.amount.amount).sum := by
    rw [Core.Querier.delegated, hcore]
  -- the stakes of the entries are the values of the map
  have hstakes : ((validatorSet.map fun v => (⟨v.valoperAddress,
      delegationMap s.denom response.1 v.valoperAddress, v.weight⟩ :
        Distribution.Delegation)).map Distribution.Delegation.stake).sum =
      (validatorSet.map fun v => delegationMap s.denom response.1 v.valoperAddress).sum := by
    rw [List.map_map]
    rfl
  rw [seenWhole_iff, htotal]
  constructor
  · rintro ⟨entries, hentries, -, hwhole, hall, -⟩
    obtain rfl := Except.ok.inj (hprepare.symm.trans hentries)
    have hlast : ∀ v ∈ validatorSet, LastTo s.denom v.valoperAddress response.1 :=
      fun v hv => delegationMap_eq_iff.1 (hwhole _ (List.mem_map_of_mem hv))
    rw [hstakes] at hall
    exact ⟨hlast, (sum_delegationMap_eq_iff hset hlast).1 hall⟩
  · rintro ⟨hlast, hothers⟩
    have hall := hstakes.trans ((sum_delegationMap_eq_iff hset hlast).2 hothers)
    refine ⟨_, hprepare, ?_, ?_, hall, ?_⟩
    · rw [List.map_map]
      rfl
    · intro e he
      obtain ⟨v, hv, rfl⟩ := List.mem_map.1 he
      exact delegationMap_eq_iff.2 (hlast v hv)
    · intro withdraw hwithdraw
      exact Distribution.calcWithdraw_ne_tooBig (hwithdraw.trans_eq hall.symm)

end Agreement

/-! ## A removed validator -/

section Sample

/-- Two delegations of the interchain account. -/
def sampleDelegations : DelegationsResponse :=
  ([⟨"ica", "valoper1", ⟨"uatom", 60⟩⟩, ⟨"ica", "valoper2", ⟨"uatom", 40⟩⟩], 0, ⟨0⟩)

/-- What the strategy is answered while the given validators are in the set. -/
def querierFor (validatorSet : List ValidatorInfo) : Querier where
  delegations _ := .ok sampleDelegations
  validators _ := .ok validatorSet
  calcDeposit _ _ _ := .error "not asked"
  calcWithdraw _ _ _ := .error "not asked"

/-- What core is answered. -/
def coreQuerier : Core.Querier where
  supply _ := 0
  balance _ := 0
  delegations := .ok sampleDelegations
  balances := .error "not asked"
  nonNativeRewardsBalances := .error "not asked"
  validators := .error "not asked"
  validator _ := .error "not asked"
  calcDeposit _ := .error "not asked"
  calcWithdraw _ := .error "not asked"
  denomTrace _ := .error "not asked"
  addrValidate _ := true

/-- The second validator was removed from the set: the strategy sees less than core counts, and a
withdrawal of all that is delegated is refused. -/
theorem removed_validator_missed :
    coreQuerier.delegated = 100 ∧
    prepareDelegationData sample (querierFor [⟨"valoper1", 1⟩]) = .ok [⟨"valoper1", 60, 1⟩] ∧
    Distribution.calcWithdraw 100 [⟨"valoper1", 60, 1⟩] = .error (.error .tooBigWithdraw) :=
  ⟨by rfl, by rfl, by decide⟩

/-- With both validators in the set nothing is missed. -/
theorem stake_agrees_full_set :
    ∃ entries, prepareDelegationData sample (querierFor [⟨"valoper1", 1⟩, ⟨"valoper2", 1⟩]) =
        .ok entries ∧
      (entries.map Distribution.Delegation.stake).sum = coreQuerier.delegated := by
  have hseen : SeenWhole sample.denom [⟨"valoper1", 1⟩, ⟨"valoper2", 1⟩] sampleDelegations.1 :=
    ⟨by decide, by decide, by decide⟩
  have hcore : coreQuerier.delegations = .ok sampleDelegations := rfl
  obtain ⟨entries, hentries, -, -, hall, -⟩ :=
    (stake_agrees_iff (q := querierFor [⟨"valoper1", 1⟩, ⟨"valoper2", 1⟩]) rfl hcore rfl
      (by decide)).2 hseen
  exact ⟨entries, hentries, hall⟩

end Sample

end Strategy

end DropContracts
