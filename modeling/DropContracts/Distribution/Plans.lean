import DropContracts.Base.Filling
import DropContracts.Distribution.Contract
import Mathlib.Algebra.Order.BigOperators.Group.List
import Mathlib.Algebra.Order.Floor.Div

set_option relaxedAutoImplicit false
set_option autoImplicit false

/-!
# What the plans of the distribution contract are worth

The loop of `calc_ideal_stake` fills the rounded shares of the validators in order and stops when
nothing is left, so a plan covers only the validators that it reaches. From this closed form follows
when a plan is executable, when a withdrawal adds up, and when a query fails.

## Main definitions

* `Distribution.perWeight`, `Distribution.share` — the share of a validator, rounded up.
* `Distribution.reached`, `Distribution.unreached` — the validators that a plan covers, with their
  ideal stakes, and the others.
* `Distribution.Divisible` — the amounts and stakes that a plan can be made of.

## Main results

* `Distribution.calcIdealStake_eq` — the ideal stakes in closed form.
* `Distribution.ideal_stakes_partition` — the ideal stakes divide the stake that there is to be.
* `Distribution.distributeStake_entries` — what the loop of a plan gives each entry.
* `Distribution.calcDeposit_validators`, `Distribution.calcWithdraw_validators` — the validators
  that a plan is for.
* `Distribution.deposit_plan_exact` — a deposit is divided exactly and pushes nobody too high.
* `Distribution.sum_withdraw_eq_iff`, `Distribution.withdraw_executable_iff` — when a withdrawal
  adds up, and when each validator holds what is taken from it.
* `Distribution.queries_return_iff` — when the two queries do not abort.
-/

namespace DropContracts

namespace Distribution

open Exec Filling

/-! ## The ideal stakes in closed form -/

/-- The stake per weight, as a number of atomics. -/
def perWeight (totalStake : ℕ) (l : List Delegation) : ℕ :=
  totalStake * Decimal.fractional / (l.map Delegation.weight).sum

/-- The share of a validator, rounded up. -/
def share (perWeight : ℕ) (d : Delegation) : ℕ := (perWeight * d.weight) ⌈/⌉ Decimal.fractional

/-- The shares of the validators. -/
def shares (totalStake : ℕ) (l : List Delegation) : List ℕ :=
  l.map (share (perWeight totalStake l))

/-- The validators that a plan covers, each with its ideal stake. -/
def reached (totalStake : ℕ) (l : List Delegation) : List (Delegation × ℕ) :=
  (l.zipIdx.filter fun p => Reached totalStake (shares totalStake l) p.2).map
    fun p => (p.1, part totalStake (shares totalStake l) p.2)

/-- The validators that a plan does not cover. -/
def unreached (totalStake : ℕ) (l : List Delegation) : List Delegation :=
  (l.zipIdx.filter fun p => ¬ Reached totalStake (shares totalStake l) p.2).map Prod.fst

/-- The entry of a validator: its ideal stake, with one token reserved. -/
def entry (p : Delegation × ℕ) : IdealDelegation :=
  ⟨p.1.valoperAddress, p.2, p.1.stake, 1, p.1.weight⟩

section Ideal

variable {l : List Delegation} {totalStake : ℕ}

/-- **A share in closed form**: it fails only where its atomics do not fit. -/
theorem idealShare_eq {r : ℕ} {d : Delegation} (hweight : d.weight < U64.bound) :
    idealShare ⟨r⟩ d =
      if r * d.weight < Uint128.bound then .ok (share r d) else fail .overflowError := by
  have hf := Decimal.fractional_pos
  have hatomics : Decimal.fromAtomics d.weight 0 = some ⟨d.weight * Decimal.fractional⟩ := by
    have hunit : 10 ^ (18 - 0) = Decimal.fractional := rfl
    have hfit : d.weight * Decimal.fractional < Uint128.bound :=
      calc d.weight * Decimal.fractional < U64.bound * Decimal.fractional :=
            Nat.mul_lt_mul_of_pos_right hweight hf
        _ ≤ Uint128.bound := by decide
    rw [Decimal.fromAtomics, hunit, if_pos hfit]
  have hmul : Decimal.checkedMul ⟨r⟩ ⟨d.weight * Decimal.fractional⟩ =
      if r * d.weight < Uint128.bound then some ⟨r * d.weight⟩ else none := by
    have hexact : r * (d.weight * Decimal.fractional) / Decimal.fractional = r * d.weight := by
      rw [← Nat.mul_assoc, Nat.mul_div_cancel _ hf]
    simp only [Decimal.checkedMul, hexact]
  have hceil : Decimal.toUintCeil ⟨r * d.weight⟩ = share r d := by
    apply eq_of_forall_ge_iff
    intro n
    rw [Decimal.toUintCeil_le_iff, share, ceilDiv_le_iff_le_mul hf, Nat.mul_comm n]
  have hsome : ∀ (x : Decimal) (e : ContractError), (orError (some x) e : Result Decimal) = .ok x :=
    fun _ _ => rfl
  rw [idealShare, hatomics, hsome, ok_bind, hmul]
  by_cases hfits : r * d.weight < Uint128.bound
  · rw [if_pos hfits, if_pos hfits, hsome, ok_bind, pure_eq_ok, hceil]
  · rw [if_neg hfits, if_neg hfits]
    rfl

/-- **The loop in closed form**: it fills the shares, and fails exactly where it reaches a share
that does not fit.

**Proof sketch.** Induction on the validators: a share that fits is taken as the filling takes it,
and the rest is filled with what it leaves. -/
theorem idealStakes_eq {r : ℕ} (hweight : ∀ d ∈ l, d.weight < U64.bound) :
    idealStakes ⟨r⟩ totalStake l =
      if ∀ p ∈ fill (share r) totalStake l, r * p.1.weight < Uint128.bound then
        .ok ((fill (share r) totalStake l).map entry)
      else fail .overflowError := by
  induction l generalizing totalStake with
  | nil => rfl
  | cons d rest ih =>
    have hrest : ∀ d ∈ rest, d.weight < U64.bound :=
      fun d hd => hweight d (List.mem_cons_of_mem _ hd)
    rw [idealStakes, idealShare_eq (hweight d List.mem_cons_self), fill]
    by_cases hoverflow : r * d.weight < Uint128.bound
    · have hideal : (if totalStake < share r d then totalStake else share r d) =
          min totalStake (share r d) := by
        split_ifs <;> omega
      rw [if_pos hoverflow, ok_bind, hideal]
      by_cases hcut : totalStake ≤ share r d
      · rw [if_pos (by omega), if_pos hcut, if_pos (by simpa using hoverflow)]
        rfl
      · have hleft : totalStake - min totalStake (share r d) = totalStake - share r d := by omega
        rw [if_neg (by omega), if_neg hcut, hleft, ih hrest]
        simp only [List.forall_mem_cons, hoverflow, true_and]
        split_ifs <;> rfl
    · rw [if_neg hoverflow, if_neg]
      · rfl
      · intro hall
        exact hoverflow (hall _ List.mem_cons_self)

/-- A plan covers the validators that the filling visits. -/
theorem fill_share (totalStake : ℕ) (l : List Delegation) :
    fill (share (perWeight totalStake l)) totalStake l = reached totalStake l :=
  fill_eq _ _ _

/-- **The ideal stakes in closed form**, for weights whose sum fits. -/
theorem calcIdealStake_eq (hsum : (l.map Delegation.weight).sum < U64.bound) :
    calcIdealStake totalStake l =
      if (l.map Delegation.weight).sum = 0 ∨ Uint128.bound ≤ perWeight totalStake l then abort
      else if ∀ p ∈ reached totalStake l, perWeight totalStake l * p.1.weight < Uint128.bound then
        .ok ((reached totalStake l).map entry)
      else fail .overflowError := by
  have hweight : ∀ d ∈ l, d.weight < U64.bound := by
    intro d hd
    have hle := List.single_le_sum (by simp) _ (List.mem_map_of_mem (f := Delegation.weight) hd)
    omega
  rw [calcIdealStake, (checkedSum_eq_ok U64.bound_pos).2 ⟨rfl, hsum⟩, ok_bind]
  by_cases hratio : (l.map Delegation.weight).sum = 0 ∨ Uint128.bound ≤ perWeight totalStake l
  · rw [Decimal.fromRatio_eq_error.2 ⟨hratio, rfl⟩, if_pos hratio]
    rfl
  · rw [if_neg hratio]
    rw [not_or, Nat.not_le] at hratio
    rw [Decimal.fromRatio_eq_ok.2 ⟨hratio.1, rfl, hratio.2⟩, ok_bind]
    show idealStakes ⟨perWeight totalStake l⟩ totalStake l = _
    rw [idealStakes_eq hweight, fill_share]

/-- **An ideal stake is no more than the part of the stake that its weight stands for**, rounded up:
the stake per weight is rounded down, so a share exceeds the exact part only by its rounding. -/
theorem idealStake_le {out : List IdealDelegation} (h : calcIdealStake totalStake l = .ok out)
    {d : IdealDelegation} (hd : d ∈ out) :
    d.idealStake ≤ (totalStake * d.weight) ⌈/⌉ (l.map Delegation.weight).sum := by
  simp only [calcIdealStake, bind_eq_ok, checkedSum_eq_ok U64.bound_pos,
    Decimal.fromRatio_eq_ok] at h
  obtain ⟨_, ⟨rfl, -⟩, stakePerWeight, ⟨hne, hratio, -⟩, h⟩ := h
  refine idealStakes_le h hd ?_
  set total := (l.map Delegation.weight).sum
  have hpos : 0 < total := Nat.pos_of_ne_zero hne
  have hfloor : stakePerWeight.atomics * total ≤ totalStake * Decimal.fractional := by
    rw [← hratio]
    exact Nat.div_mul_le_self _ _
  have hceil : totalStake * d.weight ≤ total * ((totalStake * d.weight) ⌈/⌉ total) :=
    (ceilDiv_le_iff_le_mul hpos).1 le_rfl
  refine Nat.le_of_mul_le_mul_left ?_ hpos
  calc total * (stakePerWeight.atomics * d.weight)
      = stakePerWeight.atomics * total * d.weight := by rw [Nat.mul_left_comm, Nat.mul_assoc]
    _ ≤ totalStake * Decimal.fractional * d.weight := Nat.mul_le_mul_right _ hfloor
    _ = totalStake * d.weight * Decimal.fractional := Nat.mul_right_comm _ _ _
    _ ≤ total * ((totalStake * d.weight) ⌈/⌉ total) * Decimal.fractional :=
        Nat.mul_le_mul_right _ hceil
    _ = total * ((totalStake * d.weight) ⌈/⌉ total * Decimal.fractional) := Nat.mul_assoc _ _ _

/-- **The ideal stakes partition the stake that there is to be**, up to a total weight of `10 ^ 18`:
they belong to a prefix of the validators, they sum up to the stake, and none of them is more than
the part that its weight stands for, rounded up.

**Proof sketch.** The stake per weight loses less than one atomic for each unit of weight, so all
shares together miss less than one token, and each share is rounded up (`sum_idealStake`). The bound
is `idealStake_le`. -/
theorem ideal_stakes_partition {out : List IdealDelegation}
    (hweight : (l.map Delegation.weight).sum ≤ Decimal.fractional)
    (h : calcIdealStake totalStake l = .ok out) :
    out.map delegationOf <+: l ∧
    (out.map IdealDelegation.idealStake).sum = totalStake ∧
    ∀ d ∈ out, d.idealStake ≤ (totalStake * d.weight) ⌈/⌉ (l.map Delegation.weight).sum :=
  ⟨(calcIdealStake_entries h).1, sum_idealStake hweight h, fun _ hd => idealStake_le h hd⟩

/-- A hundred tokens for three validators: the last share is cut. -/
theorem ideal_stakes_partition_three :
    ([15, 29, 56].sum = 100) ∧
    ∀ d ∈ ([⟨"valoper1", 15, 0, 1, 10⟩, ⟨"valoper2", 29, 0, 1, 20⟩, ⟨"valoper3", 56, 0, 1, 40⟩] :
      List IdealDelegation), d.idealStake ≤ (100 * d.weight + 70 - 1) / 70 := by
  have h : calcIdealStake 100 [⟨"valoper1", 0, 10⟩, ⟨"valoper2", 0, 20⟩, ⟨"valoper3", 0, 40⟩] =
      .ok [⟨"valoper1", 15, 0, 1, 10⟩, ⟨"valoper2", 29, 0, 1, 20⟩,
        ⟨"valoper3", 56, 0, 1, 40⟩] := by
    decide
  obtain ⟨-, hsum, hle⟩ := ideal_stakes_partition (by decide) h
  exact ⟨hsum, hle⟩

end Ideal

/-! ## The loop of a plan -/

section Loop

variable {room : IdealDelegation → ℕ} {l out : List IdealDelegation} {stakeLeft : ℕ}

/-- What the loop makes of an entry: the change takes the place of the reserved token and is within
the room, or else is the reserved token. -/
structure Changed (room : IdealDelegation → ℕ) (e d : IdealDelegation) : Prop where
  entry : d = { e with stakeChange := d.stakeChange }
  pos : 1 ≤ d.stakeChange
  le : d.stakeChange ≤ max 1 (room e)

/-- **What the loop gives each entry.** -/
theorem distributeStake_entries (hreserved : ∀ d ∈ l, d.stakeChange = 1)
    (h : distributeStake room stakeLeft l = .ok out) : List.Forall₂ (Changed room) l out := by
  induction l generalizing stakeLeft out with
  | nil =>
    rw [distributeStake, Except.ok.injEq] at h
    subst h
    exact .nil
  | cons d rest ih =>
    have hreserved' : ∀ d ∈ rest, d.stakeChange = 1 :=
      fun d hd => hreserved d (List.mem_cons_of_mem _ hd)
    obtain ⟨taken, distribution, htaken, hrest, rfl⟩ :=
      distributeStake_cons (hreserved d List.mem_cons_self) h
    refine .cons ⟨rfl, ?_, ?_⟩ (ih hreserved' hrest)
    · show 1 ≤ taken
      omega
    · show taken ≤ max 1 (room d)
      omega

/-- **The loop always returns** when the token of an entry can be added back.

**Proof sketch.** Induction on the entries: an entry takes at least the token that was added back,
so that what is left never grows. -/
theorem distributeStake_returns (hfit : stakeLeft + 1 < Uint128.bound) :
    ∃ out, distributeStake room stakeLeft l = .ok out := by
  induction l generalizing stakeLeft with
  | nil => exact ⟨[], rfl⟩
  | cons d rest ih =>
    unfold distributeStake
    by_cases hskip : room d = 0 ∨ stakeLeft = 0
    · obtain ⟨distribution, hrest⟩ := ih hfit
      exact ⟨d :: distribution, by rw [if_pos hskip, hrest]; rfl⟩
    · have hless : stakeLeft + 1 - (if stakeLeft + 1 < room d then stakeLeft + 1 else room d) + 1 <
          Uint128.bound := by
        split_ifs <;> omega
      obtain ⟨distribution, hrest⟩ := ih hless
      rw [if_neg hskip, checkedAdd_eq_ok.2 ⟨rfl, hfit⟩, ok_bind]
      dsimp only
      rw [hrest]
      exact ⟨_, rfl⟩

/-- The loop fails only by an abort. -/
theorem distributeStake_ne_error (e : ContractError) :
    distributeStake room stakeLeft l ≠ .error (.error e) := by
  induction l generalizing stakeLeft with
  | nil => exact ne_error_of_ok rfl _
  | cons d rest ih =>
    unfold distributeStake
    by_cases hskip : room d = 0 ∨ stakeLeft = 0
    · rw [if_pos hskip]
      simp only [ne_eq, bind_eq_error, ih, false_or, not_exists, not_and, pure_eq_ok, reduceCtorEq,
        not_false_eq_true, implies_true]
    · rw [if_neg hskip]
      simp only [ne_eq, bind_eq_error, checkedAdd_eq_error, ih, reduceCtorEq, and_false, false_or,
        not_exists, not_and, pure_eq_ok, not_false_eq_true, implies_true]

/-- Properties that correspond along two lists hold of all entries alike. -/
theorem forall_mem_iff_of_forall₂ {α β : Type} {R : α → β → Prop} {P : α → Prop} {Q : β → Prop}
    {as : List α} {bs : List β} (h : List.Forall₂ R as bs) (hiff : ∀ a b, R a b → (P a ↔ Q b)) :
    (∀ a ∈ as, P a) ↔ ∀ b ∈ bs, Q b := by
  induction h with
  | nil => simp
  | cons hab _ ih => simp only [List.forall_mem_cons, hiff _ _ hab, ih]

end Loop

/-! ## The two plans -/

section Plans

variable {l : List Delegation} {out : List IdealDelegation}

/-- The entries of a plan have their token reserved before the loop. -/
theorem entry_reserved (ps : List (Delegation × ℕ)) :
    ∀ d ∈ ps.map entry, d.stakeChange = 1 :=
  List.forall_mem_map.2 fun _ _ => rfl

/-- The ideal stakes that are returned are those of the reached validators. -/
theorem eq_of_calcIdealStake {totalStake : ℕ} (h : calcIdealStake totalStake l = .ok out) :
    out = (reached totalStake l).map entry := by
  have hsum : (l.map Delegation.weight).sum < U64.bound := by
    simp only [calcIdealStake, bind_eq_ok, checkedSum_eq_ok U64.bound_pos] at h
    obtain ⟨_, ⟨rfl, hsum⟩, -⟩ := h
    exact hsum
  rw [calcIdealStake_eq hsum] at h
  split_ifs at h with hratio hfit
  · exact absurd h abort_ne_ok
  · exact (Except.ok.inj h).symm
  · exact absurd h fail_ne_ok

/-- **What a withdrawal plan is**: the loop over the reached validators, for an amount that is
delegated and covers the reserved tokens. -/
theorem calcWithdraw_ok {withdraw : ℕ} (h : calcWithdraw withdraw l = .ok out) :
    withdraw ≤ (l.map Delegation.stake).sum ∧
    (reached ((l.map Delegation.stake).sum - withdraw) l).length ≤ withdraw ∧
    distributeStake (fun d => d.currentStake - d.idealStake)
      (withdraw - (reached ((l.map Delegation.stake).sum - withdraw) l).length)
      ((reached ((l.map Delegation.stake).sum - withdraw) l).map entry) = .ok out := by
  simp only [calcWithdraw, calculateTotalStakeWithdraw, distributeStakeWithdraw, bind_eq_ok,
    checkedSum_eq_ok Uint128.bound_pos, ensure_eq_ok, pure_eq_ok, Except.ok.injEq,
    checkedSub_eq_ok] at h
  obtain ⟨_, ⟨_, ⟨rfl, -⟩, _, hle, rfl⟩, ideal, hideal, stakeLeft, hleft, h⟩ := h
  obtain rfl := eq_of_calcIdealStake hideal
  rw [List.length_map] at hleft
  obtain rfl : stakeLeft =
      withdraw - (reached ((l.map Delegation.stake).sum - withdraw) l).length := by
    omega
  exact ⟨hle, by omega, h⟩

/-- **What a deposit plan is**: the loop over the reached validators, for an amount that covers the
reserved tokens. -/
theorem calcDeposit_ok {deposit : ℕ} (h : calcDeposit deposit l = .ok out) :
    (reached ((l.map Delegation.stake).sum + deposit) l).length ≤ deposit ∧
    distributeStake (fun d => d.idealStake - d.currentStake)
      (deposit - (reached ((l.map Delegation.stake).sum + deposit) l).length)
      ((reached ((l.map Delegation.stake).sum + deposit) l).map entry) = .ok out := by
  simp only [calcDeposit, calculateTotalStakeDeposit, distributeStakeDeposit, bind_eq_ok,
    checkedSum_eq_ok Uint128.bound_pos, checkedAdd_eq_ok, checkedSub_eq_ok] at h
  obtain ⟨_, ⟨_, ⟨rfl, -⟩, rfl, -⟩, ideal, hideal, stakeLeft, hleft, h⟩ := h
  obtain rfl := eq_of_calcIdealStake hideal
  rw [List.length_map] at hleft
  obtain rfl : stakeLeft =
      deposit - (reached ((l.map Delegation.stake).sum + deposit) l).length := by
    omega
  exact ⟨by omega, h⟩

/-! ### The validators of a plan -/

/-- The reached validators are some of those of the list, in its order. -/
theorem reached_sublist (totalStake : ℕ) (l : List Delegation) :
    ((reached totalStake l).map Prod.fst).Sublist l := by
  have hsub := (List.filter_sublist (l := l.zipIdx)
    (p := fun p => decide (Reached totalStake (shares totalStake l) p.2))).map Prod.fst
  rw [List.zipIdx_map_fst] at hsub
  rw [reached, List.map_map]
  exact hsub

/-- **The loop changes what is delegated, not to whom**: every entry that it returns is one that it
was given, in the same order. -/
theorem validators_of_changed {room : IdealDelegation → ℕ} {ps : List (Delegation × ℕ)}
    (h : List.Forall₂ (fun p d => Changed room (entry p) d) ps out) :
    out.map IdealDelegation.valoperAddress = ps.map (fun p => p.1.valoperAddress) ∧
      ∀ d ∈ out, ∃ p ∈ ps, Changed room (entry p) d := by
  induction h with
  | nil => exact ⟨rfl, by simp⟩
  | @cons p d ps ds hentry _ ih =>
    obtain ⟨haddresses, hentries⟩ := ih
    constructor
    · rw [List.map_cons, List.map_cons, haddresses, hentry.entry]
      rfl
    · rw [List.forall_mem_cons]
      refine ⟨⟨p, List.mem_cons_self, hentry⟩, fun d' hd' => ?_⟩
      obtain ⟨p', hp', hchanged⟩ := hentries d' hd'
      exact ⟨p', List.mem_cons_of_mem _ hp', hchanged⟩

/-- A plan is for some of the validators of the list. -/
theorem plan_validators {room : IdealDelegation → ℕ} {totalStake : ℕ}
    (h : List.Forall₂ (Changed room) ((reached totalStake l).map entry) out) :
    (out.map IdealDelegation.valoperAddress).Sublist (l.map Delegation.valoperAddress) ∧
      ∀ d ∈ out, ∃ p ∈ reached totalStake l, Changed room (entry p) d := by
  rw [List.forall₂_map_left_iff] at h
  obtain ⟨haddresses, hentries⟩ := validators_of_changed h
  refine ⟨?_, hentries⟩
  have hsub := (reached_sublist totalStake l).map Delegation.valoperAddress
  rw [List.map_map] at hsub
  rw [haddresses]
  exact hsub

/-- **A deposit goes to validators of the list**, at least one token to each. -/
theorem calcDeposit_validators {deposit : ℕ} (h : calcDeposit deposit l = .ok out) :
    (out.map IdealDelegation.valoperAddress).Sublist (l.map Delegation.valoperAddress) ∧
      ∀ d ∈ out, 1 ≤ d.stakeChange := by
  obtain ⟨-, hloop⟩ := calcDeposit_ok h
  obtain ⟨hsub, hentries⟩ := plan_validators (distributeStake_entries (entry_reserved _) hloop)
  refine ⟨hsub, fun d hd => ?_⟩
  obtain ⟨p, -, hchanged⟩ := hentries d hd
  exact hchanged.pos

/-- **A withdrawal is from validators of the list**, and from none of them more than is delegated to
it, or one token. -/
theorem calcWithdraw_validators {withdraw : ℕ} (h : calcWithdraw withdraw l = .ok out) :
    (out.map IdealDelegation.valoperAddress).Sublist (l.map Delegation.valoperAddress) ∧
      ∀ d ∈ out, ∃ e ∈ l, e.valoperAddress = d.valoperAddress ∧
        d.stakeChange ≤ max 1 e.stake := by
  obtain ⟨-, -, hloop⟩ := calcWithdraw_ok h
  obtain ⟨hsub, hentries⟩ := plan_validators (distributeStake_entries (entry_reserved _) hloop)
  refine ⟨hsub, fun d hd => ?_⟩
  obtain ⟨p, hp, hchanged⟩ := hentries d hd
  have hmem : p.1 ∈ l := (reached_sublist _ l).subset (List.mem_map_of_mem hp)
  refine ⟨p.1, hmem, ?_, ?_⟩
  · rw [hchanged.entry]
    rfl
  · have hle := hchanged.le
    have hroom : (entry p).currentStake - (entry p).idealStake ≤ p.1.stake := Nat.sub_le _ _
    omega

end Plans

/-! ## Deposits -/

/-- **A deposit is divided exactly**: the changes sum up to it, up to a total weight of `10 ^ 18`,
each of them is at least the reserved token, and no validator is pushed above its ideal stake by
more than that token. -/
theorem deposit_plan_exact {deposit : ℕ} {l : List Delegation} {out : List IdealDelegation}
    (hweight : (l.map Delegation.weight).sum ≤ Decimal.fractional)
    (h : calcDeposit deposit l = .ok out) :
    (out.map IdealDelegation.stakeChange).sum = deposit ∧
    ∀ d ∈ out, 1 ≤ d.stakeChange ∧
      d.currentStake + d.stakeChange ≤ max d.idealStake (d.currentStake + 1) := by
  refine ⟨sum_calcDeposit hweight h, ?_⟩
  obtain ⟨-, hloop⟩ := calcDeposit_ok h
  have hentries := distributeStake_entries (entry_reserved _) hloop
  refine (forall_mem_iff_of_forall₂ (P := fun _ => True) hentries ?_).1 fun _ _ => trivial
  rintro e d ⟨hentry, hpos, hle⟩
  rw [hentry]
  simp only [true_iff]
  omega

/-- A deposit on two validators of which one holds its ideal stake already. -/
theorem deposit_plan_exact_uneven :
    (([⟨"valoper1", 15, 1, 13, 1⟩, ⟨"valoper2", 15, 15, 1, 1⟩] :
      List IdealDelegation).map IdealDelegation.stakeChange).sum = 14 := by
  have h : calcDeposit 14 [⟨"valoper1", 1, 1⟩, ⟨"valoper2", 15, 1⟩] =
      .ok [⟨"valoper1", 15, 1, 13, 1⟩, ⟨"valoper2", 15, 15, 1, 1⟩] := by
    decide
  exact (deposit_plan_exact (by decide) h).1

/-! ## Withdrawals -/

section Withdrawals

variable {withdraw : ℕ} {l : List Delegation} {out : List IdealDelegation}

/-- Every validator is reached or not. -/
theorem sum_reached_add_unreached (totalStake : ℕ) (l : List Delegation) :
    ((reached totalStake l).map fun p => p.1.stake).sum +
      ((unreached totalStake l).map Delegation.stake).sum = (l.map Delegation.stake).sum := by
  have hperm := List.filter_append_perm
    (fun p : Delegation × ℕ => decide (Reached totalStake (shares totalStake l) p.2)) l.zipIdx
  have hsum := (hperm.map fun p => p.1.stake).sum_eq
  have hfst : l.zipIdx.map (fun p => p.1.stake) = l.map Delegation.stake := by
    rw [← List.zipIdx_map_fst 0 l, List.map_map, List.zipIdx_map_fst]
    rfl
  rw [hfst, List.map_append, List.sum_append] at hsum
  rw [← hsum, reached, unreached, List.map_map, List.map_map]
  simp only [decide_not]
  rfl

/-- The ideal stakes of the reached validators sum up to the stake that there is to be, up to a
total weight of `10 ^ 18`. -/
theorem sum_reached_ideal {totalStake : ℕ}
    (hweight : (l.map Delegation.weight).sum ≤ Decimal.fractional)
    (h : calcIdealStake totalStake l = .ok out) :
    ((reached totalStake l).map Prod.snd).sum = totalStake := by
  have hsum := sum_idealStake hweight h
  rw [eq_of_calcIdealStake h, List.map_map] at hsum
  exact hsum

/-- What entries have above their ideal stakes, with at least one token each, exceeds the difference
of the sums by what the others lack and their token. -/
theorem sum_room_add (ps : List (Delegation × ℕ)) :
    (ps.map fun p => max 1 (p.1.stake - p.2)).sum + (ps.map Prod.snd).sum =
      (ps.map fun p => p.1.stake).sum +
        ((ps.filter fun p => p.1.stake ≤ p.2).map fun p => p.2 - p.1.stake + 1).sum := by
  induction ps with
  | nil => rfl
  | cons p ps ih =>
    by_cases hle : p.1.stake ≤ p.2
    · rw [List.filter_cons_of_pos (by simpa using hle)]
      simp only [List.map_cons, List.sum_cons]
      omega
    · rw [List.filter_cons_of_neg (by simpa using hle)]
      simp only [List.map_cons, List.sum_cons]
      omega

/-- A withdrawal of no more than is delegated is not refused as too big. -/
theorem calcWithdraw_ne_tooBig (h : withdraw ≤ (l.map Delegation.stake).sum) :
    calcWithdraw withdraw l ≠ .error (.error .tooBigWithdraw) := by
  have hideal : ∀ totalStake, calcIdealStake totalStake l ≠ .error (.error .tooBigWithdraw) := by
    intro totalStake
    by_cases hsum : (l.map Delegation.weight).sum < U64.bound
    · rw [calcIdealStake_eq hsum]
      split_ifs <;> simp
    · rw [calcIdealStake, (checkedSum_eq_error (by decide)).2 ⟨Nat.le_of_not_lt hsum, rfl⟩]
      simp
  intro herror
  simp only [calcWithdraw, calculateTotalStakeWithdraw, distributeStakeWithdraw, bind_eq_error,
    checkedSum_eq_error Uint128.bound_pos, checkedSum_eq_ok Uint128.bound_pos, ensure_eq_error,
    checkedSub_eq_error, hideal, distributeStake_ne_error, reduceCtorEq, and_false, false_or,
    or_false, exists_false, pure_eq_ok] at herror
  obtain ⟨_, ⟨rfl, -⟩, hlt, -⟩ := herror
  exact hlt h

/-- **When a withdrawal adds up**, up to a total weight of `10 ^ 18`: exactly when the stake of the
validators that the plan does not reach is made up for by the reached ones that are not above their
ideal stakes, by what they lack and one token each.

**Proof sketch.** The loop hands out the withdrawal, or else all of the room that the reached
validators have. Their ideal stakes sum up to what is left of the total stake, so their room falls
short of the withdrawal by what the others hold, less what is lacking. -/
theorem sum_withdraw_eq_iff (hweight : (l.map Delegation.weight).sum ≤ Decimal.fractional)
    (h : calcWithdraw withdraw l = .ok out) :
    (out.map IdealDelegation.stakeChange).sum = withdraw ↔
      ((unreached ((l.map Delegation.stake).sum - withdraw) l).map Delegation.stake).sum ≤
        (((reached ((l.map Delegation.stake).sum - withdraw) l).filter
          fun p => p.1.stake ≤ p.2).map fun p => p.2 - p.1.stake + 1).sum := by
  have hideal : ∃ ideal,
      calcIdealStake ((l.map Delegation.stake).sum - withdraw) l = .ok ideal := by
    simp only [calcWithdraw, calculateTotalStakeWithdraw, bind_eq_ok,
      checkedSum_eq_ok Uint128.bound_pos, ensure_eq_ok, pure_eq_ok, Except.ok.injEq] at h
    obtain ⟨_, ⟨_, ⟨rfl, -⟩, _, -, rfl⟩, ideal, hideal, -⟩ := h
    exact ⟨ideal, hideal⟩
  obtain ⟨ideal, hideal⟩ := hideal
  obtain ⟨hle, hlength, hloop⟩ := calcWithdraw_ok h
  have hsum := sum_distributeStake (entry_reserved _) hloop
  have htarget := sum_reached_ideal hweight hideal
  have hall := sum_reached_add_unreached ((l.map Delegation.stake).sum - withdraw) l
  have hroom := sum_room_add (reached ((l.map Delegation.stake).sum - withdraw) l)
  rw [List.length_map, List.map_map] at hsum
  have hcomp : ((fun d : IdealDelegation => max 1 (d.currentStake - d.idealStake)) ∘ entry) =
      fun p : Delegation × ℕ => max 1 (p.1.stake - p.2) := rfl
  rw [hcomp] at hsum
  omega

/-- All of the stake is withdrawn from two validators, and the plan ends with the first one. -/
theorem withdraw_falls_short :
    calcWithdraw 100 [⟨"valoper1", 50, 1⟩, ⟨"valoper2", 50, 1⟩] =
      .ok [⟨"valoper1", 0, 50, 50, 1⟩] ∧
    (([⟨"valoper1", 0, 50, 50, 1⟩] : List IdealDelegation).map IdealDelegation.stakeChange).sum ≠
      100 := by
  decide

/-- A part of the stake is withdrawn from two validators that both keep some. -/
theorem sum_withdraw_eq_iff_even :
    (([⟨"valoper1", 30, 50, 20, 1⟩, ⟨"valoper2", 30, 50, 20, 1⟩] :
      List IdealDelegation).map IdealDelegation.stakeChange).sum = 40 := by
  have h : calcWithdraw 40 [⟨"valoper1", 50, 1⟩, ⟨"valoper2", 50, 1⟩] =
      .ok [⟨"valoper1", 30, 50, 20, 1⟩, ⟨"valoper2", 30, 50, 20, 1⟩] := by
    decide
  exact (sum_withdraw_eq_iff (by decide) h).2 (by decide)

/-- **When a withdrawal can be carried out**: each validator holds what is taken from it exactly
when every validator that the plan reaches holds something. -/
theorem withdraw_executable_iff (h : calcWithdraw withdraw l = .ok out) :
    (∀ d ∈ out, d.stakeChange ≤ d.currentStake) ↔
      ∀ p ∈ reached ((l.map Delegation.stake).sum - withdraw) l, p.1.stake ≠ 0 := by
  obtain ⟨-, -, hloop⟩ := calcWithdraw_ok h
  have hentries := distributeStake_entries (entry_reserved _) hloop
  rw [List.forall₂_map_left_iff] at hentries
  refine (forall_mem_iff_of_forall₂ hentries ?_).symm
  rintro p d ⟨hentry, hpos, hle⟩
  have hcurrent : d.currentStake = p.1.stake := by rw [hentry]; rfl
  rw [hcurrent]
  change d.stakeChange ≤ max 1 (p.1.stake - p.2) at hle
  constructor
  · intro hstake
    omega
  · intro hchange hzero
    omega

/-- A new validator without stake is asked for its reserved token. -/
theorem withdraw_from_empty :
    calcWithdraw 10 [⟨"valoper1", 0, 1⟩, ⟨"valoper2", 100, 1⟩] =
      .ok [⟨"valoper1", 45, 0, 1, 1⟩, ⟨"valoper2", 45, 100, 9, 1⟩] := by
  decide

/-- A plan over two validators that both hold something. -/
theorem withdraw_executable_even :
    ([⟨"valoper1", 30, 50, 20, 1⟩, ⟨"valoper2", 30, 50, 20, 1⟩] : List IdealDelegation).all
      (fun d => d.stakeChange ≤ d.currentStake) := by
  have h : calcWithdraw 40 [⟨"valoper1", 50, 1⟩, ⟨"valoper2", 50, 1⟩] =
      .ok [⟨"valoper1", 30, 50, 20, 1⟩, ⟨"valoper2", 30, 50, 20, 1⟩] := by
    decide
  have hall := (withdraw_executable_iff h).2 (by decide)
  exact List.all_eq_true.2 fun d hd => by simpa using hall d hd

end Withdrawals

/-! ## Aborts -/

section Aborts

variable {amount totalStake : ℕ} {l : List Delegation}

/-- An amount and a stake that a plan can be made of: there are weights, the stake per weight fits,
and there is a token for each validator that the plan reaches, unless a share does not fit. -/
structure Divisible (amount totalStake : ℕ) (l : List Delegation) : Prop where
  weight : (l.map Delegation.weight).sum ≠ 0
  ratio : perWeight totalStake l < Uint128.bound
  reserve : (∀ p ∈ reached totalStake l, perWeight totalStake l * p.1.weight < Uint128.bound) →
    (reached totalStake l).length ≤ amount

/-- The plan after the total stake is known: the amount less the reserved tokens is handed out. -/
def planFor (room : IdealDelegation → ℕ) (amount totalStake : ℕ) (l : List Delegation) :
    Result (List IdealDelegation) := do
  let idealDistribution ← calcIdealStake totalStake l
  let stakeLeft ← checkedSub amount idealDistribution.length
  distributeStake room stakeLeft idealDistribution

/-- **When a plan does not abort.** -/
theorem planFor_returns_iff (room : IdealDelegation → ℕ)
    (hsum : (l.map Delegation.weight).sum < U64.bound) (hamount : amount < Uint128.bound) :
    planFor room amount totalStake l ≠ .error .abort ↔ Divisible amount totalStake l := by
  rw [planFor, calcIdealStake_eq hsum]
  by_cases hratio : (l.map Delegation.weight).sum = 0 ∨ Uint128.bound ≤ perWeight totalStake l
  · rw [if_pos hratio]
    refine iff_of_false (fun hne => hne rfl) ?_
    rintro ⟨hweight, hfits, -⟩
    omega
  · rw [if_neg hratio]
    rw [not_or, Nat.not_le] at hratio
    by_cases hshares : ∀ p ∈ reached totalStake l,
        perWeight totalStake l * p.1.weight < Uint128.bound
    · rw [if_pos hshares, ok_bind, List.length_map]
      by_cases hreserve : (reached totalStake l).length ≤ amount
      · refine iff_of_true ?_ ⟨hratio.1, hratio.2, fun _ => hreserve⟩
        rw [checkedSub_eq_ok.2 (Nat.add_sub_of_le hreserve), ok_bind]
        have hreturns : ∃ out, distributeStake room (amount - (reached totalStake l).length)
            ((reached totalStake l).map entry) = .ok out := by
          by_cases hnil : reached totalStake l = []
          · rw [hnil]
            exact ⟨[], rfl⟩
          · have hpos := List.length_pos_iff.2 hnil
            exact distributeStake_returns (by omega)
        obtain ⟨out, hout⟩ := hreturns
        exact ne_error_of_ok hout _
      · rw [checkedSub_eq_error.2 ⟨Nat.lt_of_not_le hreserve, rfl⟩]
        exact iff_of_false (fun hne => hne rfl) fun hdiv => hreserve (hdiv.reserve hshares)
    · rw [if_neg hshares]
      refine iff_of_true ?_ ⟨hratio.1, hratio.2, fun hall => absurd hall hshares⟩
      rw [fail, error_bind]
      simp

/-- **When the two queries do not abort**: a deposit fits the stake together with what is delegated
and can be divided, and so can a withdrawal that is not refused. -/
theorem queries_return_iff (hamount : amount < Uint128.bound)
    (hweight : (l.map Delegation.weight).sum < U64.bound)
    (hstake : (l.map Delegation.stake).sum < Uint128.bound) :
    (calcDeposit amount l ≠ .error .abort ↔
      (l.map Delegation.stake).sum + amount < Uint128.bound ∧
      Divisible amount ((l.map Delegation.stake).sum + amount) l) ∧
    (calcWithdraw amount l ≠ .error .abort ↔
      (amount ≤ (l.map Delegation.stake).sum →
        Divisible amount ((l.map Delegation.stake).sum - amount) l)) := by
  have htotal : (checkedSum Uint128.bound (l.map Delegation.stake) : Result ℕ) =
      .ok (l.map Delegation.stake).sum :=
    (checkedSum_eq_ok Uint128.bound_pos).2 ⟨rfl, hstake⟩
  constructor
  · rw [calcDeposit, calculateTotalStakeDeposit, htotal, ok_bind]
    by_cases hfits : (l.map Delegation.stake).sum + amount < Uint128.bound
    · rw [checkedAdd_eq_ok.2 ⟨rfl, hfits⟩, ok_bind]
      exact (planFor_returns_iff _ hweight hamount).trans (and_iff_right hfits).symm
    · rw [checkedAdd_eq_error.2 ⟨Nat.le_of_not_lt hfits, rfl⟩]
      exact iff_of_false (fun hne => hne rfl) fun h => hfits h.1
  · rw [calcWithdraw, calculateTotalStakeWithdraw, htotal, ok_bind]
    by_cases hle : amount ≤ (l.map Delegation.stake).sum
    · rw [(ensure_eq_ok (u := ())).2 hle, ok_bind, pure_eq_ok, ok_bind]
      exact (planFor_returns_iff _ hweight hamount).trans ⟨fun hdiv _ => hdiv, fun hdiv => hdiv hle⟩
    · rw [ensure_eq_error.2 ⟨hle, rfl⟩]
      exact iff_of_true (by simp) fun h => absurd h hle

/-- One token is withdrawn from two validators: there is none to reserve for the second. -/
theorem dust_withdraw_aborts :
    calcWithdraw 1 [⟨"valoper1", 5, 1⟩, ⟨"valoper2", 5, 1⟩] = .error .abort := by
  decide

/-- Forty tokens can be divided among two validators, and withdrawn from them. -/
theorem queries_return_even :
    calcDeposit 40 [⟨"valoper1", 50, 1⟩, ⟨"valoper2", 50, 1⟩] ≠ .error .abort ∧
    calcWithdraw 40 [⟨"valoper1", 50, 1⟩, ⟨"valoper2", 50, 1⟩] ≠ .error .abort := by
  have hamount : 40 < Uint128.bound := by decide
  have h := queries_return_iff hamount
    (l := [⟨"valoper1", 50, 1⟩, ⟨"valoper2", 50, 1⟩]) (by decide) (by decide)
  exact ⟨h.1.2 ⟨by decide, by decide, by decide, by decide⟩,
    h.2.2 fun _ => ⟨by decide, by decide, by decide⟩⟩

end Aborts

end Distribution

end DropContracts
