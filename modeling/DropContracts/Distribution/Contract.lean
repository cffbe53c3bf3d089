import DropContracts.Base.Decimal
import DropContracts.Packages.PuppeteerMsg

set_option relaxedAutoImplicit false
set_option autoImplicit false

/-!
# The distribution contract

`contracts/distribution/src/contract.rs`: how a deposit or a withdrawal is divided among the
validators. The stake that there is to be is divided in proportion to the weights, each share
rounded up while there is something left; then a loop hands the amount out, to each validator at
most what it is away from its ideal stake. One token is reserved for each entry.

## Main definitions

* `Distribution.calcIdealStake` — the ideal stakes.
* `Distribution.distributeStakeDeposit`, `Distribution.distributeStakeWithdraw` — the loops, over
  `Distribution.distributeStake`.
* `Distribution.calcDeposit`, `Distribution.calcWithdraw` — the two queries.

## Main results

* `Distribution.sum_idealStake` — the ideal stakes sum up to the stake that there is to be.
* `Distribution.sum_distributeStake` — what the loop hands out.
* `Distribution.sum_calcDeposit` — a deposit is divided without a rest.
-/

namespace DropContracts

namespace Distribution

open Exec

/-! ## Data -/

/-- The errors of the contract; the operands that an overflow names are left out. -/
inductive ContractError where
  | overflowError
  | decimalRangeExceeded
  | tooBigWithdraw
  deriving DecidableEq, Repr

/-- A call of the contract. -/
abbrev Result (α : Type) := Exec ContractError α

/-- A validator with its weight and what is delegated to it. -/
structure Delegation where
  valoperAddress : String
  stake : ℕ
  weight : ℕ
  deriving DecidableEq, Repr

/-! ## Ideal stakes -/

/-- The share of a validator, rounded up to use up all of the stake. -/
def idealShare (stakePerWeight : Decimal) (d : Delegation) : Result ℕ := do
  let weight ← orError (Decimal.fromAtomics d.weight 0) .decimalRangeExceeded
  let share ← orError (stakePerWeight.checkedMul weight) .overflowError
  return share.toUintCeil

/-- The loop of `calc_ideal_stake`: a share is cut to the stake that is left, and the loop stops
when nothing is left. One token is reserved for each entry. -/
def idealStakes (stakePerWeight : Decimal) :
    ℕ → List Delegation → Result (List IdealDelegation)
  | _, [] => .ok []
  | totalStake, d :: rest => do
    let share ← idealShare stakePerWeight d
    let idealStake := if totalStake < share then totalStake else share
    let idealDelegation : IdealDelegation := ⟨d.valoperAddress, idealStake, d.stake, 1, d.weight⟩
    if totalStake - idealStake = 0 then return [idealDelegation]
    else do
      let distribution ← idealStakes stakePerWeight (totalStake - idealStake) rest
      return idealDelegation :: distribution

/-- `calc_ideal_stake`: the stake divided in proportion to the weights. -/
def calcIdealStake (totalStake : ℕ) (delegations : List Delegation) :
    Result (List IdealDelegation) := do
  let totalWeight ← checkedSum U64.bound (delegations.map Delegation.weight)
  let stakePerWeight ← Decimal.fromRatio totalStake totalWeight
  idealStakes stakePerWeight totalStake delegations

/-! ## The plans -/

/-- The loop of the two plans: each entry takes up to its room of what is left. -/
def distributeStake (room : IdealDelegation → ℕ) :
    ℕ → List IdealDelegation → Result (List IdealDelegation)
  | _, [] => .ok []
  | stakeLeft, d :: rest =>
    if room d = 0 ∨ stakeLeft = 0 then do
      let distribution ← distributeStake room stakeLeft rest
      return d :: distribution
    else do
      -- the token that was reserved for the entry counts again
      let stakeLeft ← checkedAdd Uint128.bound stakeLeft 1
      let stakeDiff := if stakeLeft < room d then stakeLeft else room d
      let distribution ← distributeStake room (stakeLeft - stakeDiff) rest
      return { d with stakeChange := stakeDiff } :: distribution

/-- `distribute_stake_deposit`: an entry can take what it is below its ideal stake. -/
def distributeStakeDeposit (deposit : ℕ) (idealDistribution : List IdealDelegation) :
    Result (List IdealDelegation) := do
  let stakeLeft ← checkedSub deposit idealDistribution.length
  distributeStake (fun d => d.idealStake - d.currentStake) stakeLeft idealDistribution

/-- `distribute_stake_withdraw`: an entry can take what it is above its ideal stake. -/
def distributeStakeWithdraw (withdraw : ℕ) (idealDistribution : List IdealDelegation) :
    Result (List IdealDelegation) := do
  let stakeLeft ← checkedSub withdraw idealDistribution.length
  distributeStake (fun d => d.currentStake - d.idealStake) stakeLeft idealDistribution

/-- The stake that there is to be after a deposit. -/
def calculateTotalStakeDeposit (delegations : List Delegation) (deposit : ℕ) : Result ℕ := do
  let total ← checkedSum Uint128.bound (delegations.map Delegation.stake)
  checkedAdd Uint128.bound total deposit

/-- The stake that there is to be after a withdrawal. -/
def calculateTotalStakeWithdraw (delegations : List Delegation) (withdraw : ℕ) : Result ℕ := do
  let total ← checkedSum Uint128.bound (delegations.map Delegation.stake)
  ensure (withdraw ≤ total) .tooBigWithdraw
  return total - withdraw

/-- `calc_deposit`: the query of a plan for a deposit. -/
def calcDeposit (deposit : ℕ) (delegations : List Delegation) :
    Result (List IdealDelegation) := do
  let totalStake ← calculateTotalStakeDeposit delegations deposit
  let idealDistribution ← calcIdealStake totalStake delegations
  distributeStakeDeposit deposit idealDistribution

/-- `calc_withdraw`: the query of a plan for a withdrawal. -/
def calcWithdraw (withdraw : ℕ) (delegations : List Delegation) :
    Result (List IdealDelegation) := do
  let totalStake ← calculateTotalStakeWithdraw delegations withdraw
  let idealDistribution ← calcIdealStake totalStake delegations
  distributeStakeWithdraw withdraw idealDistribution

/-! ## What the ideal stakes sum up to -/

section Ideal

variable {stakePerWeight : Decimal} {l : List Delegation} {out : List IdealDelegation}
  {totalStake : ℕ}

/-- The validator of an entry, with its weight and what is delegated to it. -/
def delegationOf (d : IdealDelegation) : Delegation := ⟨d.valoperAddress, d.currentStake, d.weight⟩

/-- A share is the exact share, rounded up. -/
theorem idealShare_le_iff {d : Delegation} {share : ℕ}
    (h : idealShare stakePerWeight d = .ok share) (n : ℕ) :
    share ≤ n ↔ stakePerWeight.atomics * d.weight ≤ n * Decimal.fractional := by
  simp only [idealShare, bind_eq_ok, orError_eq_ok, pure_eq_ok, Except.ok.injEq] at h
  obtain ⟨weight, hweight, product, hproduct, rfl⟩ := h
  rw [Decimal.toUintCeil_le_iff, Decimal.checkedMul_integer hweight hproduct]

/-- **One validator of the loop**: it takes its share, or all that is left, and then the loop stops
when nothing is left. -/
theorem idealStakes_cons {d : Delegation}
    (h : idealStakes stakePerWeight totalStake (d :: l) = .ok out) :
    ∃ share, idealShare stakePerWeight d = .ok share ∧
      (totalStake ≤ share ∧ out = [⟨d.valoperAddress, totalStake, d.stake, 1, d.weight⟩] ∨
      share < totalStake ∧ ∃ distribution,
        idealStakes stakePerWeight (totalStake - share) l = .ok distribution ∧
        out = ⟨d.valoperAddress, share, d.stake, 1, d.weight⟩ :: distribution) := by
  simp only [idealStakes, bind_eq_ok] at h
  obtain ⟨share, hshare, h⟩ := h
  refine ⟨share, hshare, ?_⟩
  by_cases hcut : totalStake ≤ share
  · have hideal : (if totalStake < share then totalStake else share) = totalStake := by
      split_ifs <;> omega
    rw [hideal, Nat.sub_self, if_pos rfl, pure_eq_ok, Except.ok.injEq] at h
    exact .inl ⟨hcut, h.symm⟩
  · have hideal : (if totalStake < share then totalStake else share) = share := by
      split_ifs <;> omega
    rw [hideal, if_neg (by omega)] at h
    simp only [bind_eq_ok, pure_eq_ok, Except.ok.injEq] at h
    obtain ⟨distribution, hrest, rfl⟩ := h
    exact .inr ⟨Nat.lt_of_not_le hcut, distribution, hrest, rfl⟩

/-- The entries are those of a prefix of the validators, and each has its token reserved. -/
theorem idealStakes_entries (h : idealStakes stakePerWeight totalStake l = .ok out) :
    out.map delegationOf <+: l ∧ ∀ d ∈ out, d.stakeChange = 1 := by
  induction l generalizing totalStake out with
  | nil =>
    rw [idealStakes, Except.ok.injEq] at h
    subst h
    exact ⟨List.prefix_rfl, by simp⟩
  | cons d rest ih =>
    obtain ⟨share, -, ⟨-, rfl⟩ | ⟨-, distribution, hrest, rfl⟩⟩ := idealStakes_cons h
    · refine ⟨?_, by simp⟩
      exact ⟨rest, rfl⟩
    · obtain ⟨hentries, hchange⟩ := ih hrest
      refine ⟨(List.prefix_cons_inj _).2 hentries, ?_⟩
      simpa using hchange

/-- An ideal stake is no more than the exact share, rounded up: a share may be cut. -/
theorem idealStakes_le (h : idealStakes stakePerWeight totalStake l = .ok out)
    {d : IdealDelegation} (hd : d ∈ out) {n : ℕ}
    (hn : stakePerWeight.atomics * d.weight ≤ n * Decimal.fractional) : d.idealStake ≤ n := by
  induction l generalizing totalStake out with
  | nil =>
    rw [idealStakes, Except.ok.injEq] at h
    subst h
    exact absurd hd List.not_mem_nil
  | cons e rest ih =>
    obtain ⟨share, hshare, ⟨hcut, rfl⟩ | ⟨-, distribution, hrest, rfl⟩⟩ := idealStakes_cons h
    · obtain rfl := List.mem_singleton.1 hd
      exact hcut.trans ((idealShare_le_iff hshare n).2 hn)
    · obtain rfl | hd := List.mem_cons.1 hd
      · exact (idealShare_le_iff hshare n).2 hn
      · exact ih hrest hd

/-- **The cut shares sum up to the stake**, as long as the exact shares of all validators cover it
up to less than one token.

**Proof sketch.** Induction on the validators. A share takes at least the exact share, so the
shares of the validators after it cover what it leaves. -/
theorem sum_idealStakes (h : idealStakes stakePerWeight totalStake l = .ok out)
    (hcover : totalStake * Decimal.fractional <
      stakePerWeight.atomics * (l.map Delegation.weight).sum + Decimal.fractional) :
    (out.map IdealDelegation.idealStake).sum = totalStake := by
  have hf := Decimal.fractional_pos
  induction l generalizing totalStake out with
  | nil =>
    rw [idealStakes, Except.ok.injEq] at h
    subst h
    have hzero : totalStake = 0 := by
      by_contra hne
      have hle := Nat.le_mul_of_pos_left Decimal.fractional (Nat.pos_of_ne_zero hne)
      simp only [List.map_nil, List.sum_nil, Nat.mul_zero] at hcover
      omega
    rw [hzero]
    rfl
  | cons d rest ih =>
    obtain ⟨share, hshare, ⟨-, rfl⟩ | ⟨hlt, distribution, hrest, rfl⟩⟩ := idealStakes_cons h
    · exact Nat.add_zero _
    · have hexact := (idealShare_le_iff hshare share).1 le_rfl
      have hcover' : (totalStake - share) * Decimal.fractional <
          stakePerWeight.atomics * (rest.map Delegation.weight).sum + Decimal.fractional := by
        rw [List.map_cons, List.sum_cons, Nat.mul_add] at hcover
        rw [Nat.sub_mul]
        omega
      rw [List.map_cons, List.sum_cons, ih hrest hcover']
      show share + (totalStake - share) = totalStake
      omega

/-- **The ideal stakes sum up to the stake that there is to be**, up to a total weight of `10 ^ 18`:
what the rounding of the stake per weight loses is less than one token then. -/
theorem sum_idealStake (hweight : (l.map Delegation.weight).sum ≤ Decimal.fractional)
    (h : calcIdealStake totalStake l = .ok out) :
    (out.map IdealDelegation.idealStake).sum = totalStake := by
  simp only [calcIdealStake, bind_eq_ok, checkedSum_eq_ok U64.bound_pos,
    Decimal.fromRatio_eq_ok] at h
  obtain ⟨_, ⟨rfl, -⟩, stakePerWeight, ⟨hne, hratio, -⟩, h⟩ := h
  refine sum_idealStakes h ?_
  have hlt := Nat.lt_div_mul_add (a := totalStake * Decimal.fractional) (Nat.pos_of_ne_zero hne)
  rw [hratio] at hlt
  omega

/-- The entries of the ideal stakes are those of a prefix of the validators. -/
theorem calcIdealStake_entries (h : calcIdealStake totalStake l = .ok out) :
    out.map delegationOf <+: l ∧ ∀ d ∈ out, d.stakeChange = 1 := by
  simp only [calcIdealStake, bind_eq_ok] at h
  obtain ⟨_, -, _, -, h⟩ := h
  exact idealStakes_entries h

end Ideal

/-! ## What the plans sum up to -/

section Plans

variable {room : IdealDelegation → ℕ} {l out : List IdealDelegation} {stakeLeft : ℕ}

/-- **One entry of the loop**: it takes its room or all that is left, and never less than its
reserved token. -/
theorem distributeStake_cons {d : IdealDelegation} (hone : d.stakeChange = 1)
    (h : distributeStake room stakeLeft (d :: l) = .ok out) :
    ∃ taken distribution, taken = max 1 (min (stakeLeft + 1) (room d)) ∧
      distributeStake room (stakeLeft + 1 - taken) l = .ok distribution ∧
      out = { d with stakeChange := taken } :: distribution := by
  unfold distributeStake at h
  by_cases hskip : room d = 0 ∨ stakeLeft = 0
  · rw [if_pos hskip] at h
    simp only [bind_eq_ok, pure_eq_ok, Except.ok.injEq] at h
    obtain ⟨distribution, hrest, rfl⟩ := h
    -- an entry that is skipped keeps its reserved token
    have hentry : { d with stakeChange := 1 } = d := by rw [← hone]
    exact ⟨1, distribution, by omega, hrest, by rw [hentry]⟩
  · rw [if_neg hskip] at h
    simp only [bind_eq_ok, checkedAdd_eq_ok, pure_eq_ok, Except.ok.injEq] at h
    obtain ⟨_, ⟨rfl, -⟩, distribution, hrest, rfl⟩ := h
    refine ⟨_, distribution, ?_, hrest, rfl⟩
    split_ifs <;> omega

/-- **The loop hands out** what is left and the reserved tokens, or else all of the room, where each
entry has room for its reserved token.

**Proof sketch.** Induction on the entries. An entry without room, or with nothing left, keeps its
reserved token; another one takes its room or all that is left. -/
theorem sum_distributeStake (hreserved : ∀ d ∈ l, d.stakeChange = 1)
    (h : distributeStake room stakeLeft l = .ok out) :
    (out.map IdealDelegation.stakeChange).sum =
      min (stakeLeft + l.length) (l.map fun d => max 1 (room d)).sum := by
  induction l generalizing stakeLeft out with
  | nil =>
    rw [distributeStake, Except.ok.injEq] at h
    subst h
    simp
  | cons d rest ih =>
    have hreserved' : ∀ d ∈ rest, d.stakeChange = 1 :=
      fun d hd => hreserved d (List.mem_cons_of_mem _ hd)
    -- the rest has room for its reserved tokens
    have hroom : rest.length ≤ (rest.map fun d => max 1 (room d)).sum := by
      have hlength := List.length_le_sum_of_one_le (rest.map fun d => max 1 (room d)) (by simp)
      rwa [List.length_map] at hlength
    simp only [List.length_cons, List.map_cons, List.sum_cons]
    obtain ⟨taken, distribution, htaken, hrest, rfl⟩ :=
      distributeStake_cons (hreserved d List.mem_cons_self) h
    rw [List.map_cons, List.sum_cons, ih hreserved' hrest]
    show taken + _ = _
    omega

/-- The room below the ideal stakes is at least the difference of the sums. -/
theorem sum_idealStake_le (l : List IdealDelegation) :
    (l.map IdealDelegation.idealStake).sum ≤ (l.map IdealDelegation.currentStake).sum +
      (l.map fun d => max 1 (d.idealStake - d.currentStake)).sum := by
  induction l with
  | nil => simp
  | cons d rest ih =>
    simp only [List.map_cons, List.sum_cons]
    omega

/-- What is delegated to a prefix of the validators is no more than what is delegated to all. -/
theorem sum_currentStake_le {delegations : List Delegation}
    (h : out.map delegationOf <+: delegations) :
    (out.map IdealDelegation.currentStake).sum ≤ (delegations.map Delegation.stake).sum := by
  obtain ⟨rest, rfl⟩ := h
  rw [List.map_append, List.sum_append, List.map_map]
  exact Nat.le_add_right _ _

/-- **A deposit is divided without a rest**, up to a total weight of `10 ^ 18`.

**Proof sketch.** The ideal stakes sum up to the old stake together with the deposit, and the
entries hold no more than the old stake; so there is room for the whole deposit. -/
theorem sum_calcDeposit {deposit : ℕ} {delegations : List Delegation}
    (hweight : (delegations.map Delegation.weight).sum ≤ Decimal.fractional)
    (h : calcDeposit deposit delegations = .ok out) :
    (out.map IdealDelegation.stakeChange).sum = deposit := by
  simp only [calcDeposit, calculateTotalStakeDeposit, distributeStakeDeposit, bind_eq_ok,
    checkedSum_eq_ok Uint128.bound_pos, checkedAdd_eq_ok, checkedSub_eq_ok] at h
  obtain ⟨_, ⟨_, ⟨rfl, -⟩, rfl, -⟩, ideal, hideal, stakeLeft, rfl, h⟩ := h
  obtain ⟨hentries, hreserved⟩ := calcIdealStake_entries hideal
  have hsum := sum_idealStake hweight hideal
  have hcurrent := sum_currentStake_le hentries
  have hroom := sum_idealStake_le ideal
  rw [sum_distributeStake hreserved h]
  omega

/-- **A deposit divides no more than is given**, whatever the weights are. -/
theorem sum_calcDeposit_le {deposit : ℕ} {delegations : List Delegation}
    (h : calcDeposit deposit delegations = .ok out) :
    (out.map IdealDelegation.stakeChange).sum ≤ deposit := by
  simp only [calcDeposit, distributeStakeDeposit, bind_eq_ok, checkedSub_eq_ok] at h
  obtain ⟨totalStake, -, ideal, hideal, stakeLeft, rfl, h⟩ := h
  obtain ⟨-, hreserved⟩ := calcIdealStake_entries hideal
  rw [sum_distributeStake hreserved h]
  omega

/-- **A withdrawal takes no more than is asked for**: the loop starts with what is left after the
reserved tokens. -/
theorem sum_calcWithdraw_le {withdraw : ℕ} {delegations : List Delegation}
    (h : calcWithdraw withdraw delegations = .ok out) :
    (out.map IdealDelegation.stakeChange).sum ≤ withdraw := by
  simp only [calcWithdraw, distributeStakeWithdraw, bind_eq_ok, checkedSub_eq_ok] at h
  obtain ⟨totalStake, -, ideal, hideal, stakeLeft, rfl, h⟩ := h
  obtain ⟨-, hreserved⟩ := calcIdealStake_entries hideal
  rw [sum_distributeStake hreserved h]
  omega

example : calcDeposit 100 [⟨"valoper1", 0, 10⟩, ⟨"valoper2", 0, 20⟩, ⟨"valoper3", 0, 40⟩] =
    .ok [⟨"valoper1", 15, 0, 15, 10⟩, ⟨"valoper2", 29, 0, 29, 20⟩,
      ⟨"valoper3", 56, 0, 56, 40⟩] := by
  decide

end Plans

end Distribution

end DropContracts
