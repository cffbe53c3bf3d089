import DropContracts.Distribution.Plans
import DropContracts.Strategy.Delegations
import DropContracts.System.Backing
import DropContracts.System.FeeBase
import DropContracts.System.Refinement

set_option relaxedAutoImplicit false
set_option autoImplicit false

/-!
# With whom a deployment stakes

Core leaves it to the strategy contract how a deposit or a withdrawal is divided. The strategy reads
the delegations from the puppeteer and the validators from the validator set, and passes both on to
the distribution contract. So what a tick delegates and undelegates depends on five contracts, and
here they are put together.

## Main definitions

* `System.Consulted` — core is answered by a strategy contract that asks the contracts of the
  deployment.
* `System.Administered.delegations` — what the distribution contract is asked about.
* `System.Planned` — a plan for different members of the validator set.

## Main results

* `System.Consulted.distributes` — core gets the plans of the distribution contract.
* `System.planned_deposit`, `System.planned_withdrawal` — what these plans are.
* `System.stake_plans` — what a tick delegates and undelegates in a deployment.
-/

namespace DropContracts

namespace System

open Exec

/-! ## The contracts that core relies on -/

/-- Core is answered by the strategy contract, and the strategy, as long as nobody has directed it
elsewhere, by the puppeteer, the validator set and the distribution contract. -/
structure Consulted {σ : Type} (d : AdminDeployment) (s : Administered σ)
    (q : Strategy.Querier) (answers : Answers) : Prop where
  puppeteer : s.strategy.puppeteerAddress = d.puppeteer
  validatorsSet : s.strategy.validatorSetAddress = d.validatorsSet
  delegations : q.delegations d.puppeteer = .ok (Puppeteer.queryDelegations s.world.puppeteer)
  validators : q.validators d.validatorsSet =
    .ok ((ValidatorsSet.queryValidators s.validatorsSet).map fun v => v.toValidatorInfo)
  deposits : ∀ deposit delegations plan,
    q.calcDeposit s.strategy.distributionAddress deposit delegations = .ok plan →
      Distribution.calcDeposit deposit delegations = .ok plan
  withdrawals : ∀ withdraw delegations plan,
    q.calcWithdraw s.strategy.distributionAddress withdraw delegations = .ok plan →
      Distribution.calcWithdraw withdraw delegations = .ok plan
  calcDeposit : ∀ amount plan, answers.calcDeposit amount = .ok plan →
    Strategy.queryCalcDeposit s.strategy q amount = .ok plan
  calcWithdraw : ∀ amount plan, answers.calcWithdraw amount = .ok plan →
    Strategy.queryCalcWithdraw s.strategy q amount = .ok plan

/-- What the distribution contract is asked about: every validator of the set, with its weight and
with what the puppeteer reports to be delegated to it. -/
def Administered.delegations {σ : Type} (s : Administered σ) (denom : String) :
    List Distribution.Delegation :=
  (ValidatorsSet.queryValidators s.validatorsSet).map fun v =>
    ⟨v.valoperAddress, Strategy.delegationMap denom
      (Puppeteer.queryDelegations s.world.puppeteer).1 v.valoperAddress, v.weight⟩

/-- A plan for different members of the validator set. -/
structure Planned {σ : Type} (s : Administered σ) (items : List (String × ℕ)) : Prop where
  nodup : (items.map Prod.fst).Nodup
  members : ∀ item ∈ items, item.1 ∈ s.validatorsSet.addresses

section Staking

variable {σ : Type} {d : AdminDeployment} {C : OwnedCw721 σ AutoWithdrawer.Payload}
  {s₀ s s' : Administered σ} {q : Strategy.Querier} {answers : Answers}

/-- **Core gets the plans of the distribution contract.** -/
theorem Consulted.distributes (h : Consulted d s q answers) :
    answers.Distributes (s.delegations s.strategy.denom) ∧
      ∀ amount plan, answers.calcWithdraw amount = .ok plan →
        Distribution.calcWithdraw amount (s.delegations s.strategy.denom) = .ok plan := by
  have hprepared : Strategy.prepareDelegationData s.strategy q =
      .ok (s.delegations s.strategy.denom) := by
    have hdelegations := h.delegations
    have hvalidators := h.validators
    rw [← h.puppeteer] at hdelegations
    rw [← h.validatorsSet] at hvalidators
    rw [Strategy.prepareDelegationData_eq hdelegations hvalidators, List.map_map]
    rfl
  constructor
  · intro amount plan hplan
    have hquery := h.calcDeposit amount plan hplan
    rw [Strategy.queryCalcDeposit, hprepared, ok_bind, Strategy.smartQuery_eq_ok] at hquery
    exact h.deposits _ _ _ hquery
  · intro amount plan hplan
    have hquery := h.calcWithdraw amount plan hplan
    rw [Strategy.queryCalcWithdraw, hprepared, ok_bind, Strategy.smartQuery_eq_ok] at hquery
    exact h.withdrawals _ _ _ hquery

/-- A plan for some of the validators that the distribution contract is asked about is one for
different members of the validator set. -/
theorem planned_of_sublist (hkeyed : s.validatorsSet.Keyed) {denom : String}
    {plan : List IdealDelegation}
    (h : (plan.map IdealDelegation.valoperAddress).Sublist
      ((s.delegations denom).map Distribution.Delegation.valoperAddress)) :
    Planned s (plan.map fun p => (p.valoperAddress, p.stakeChange)) := by
  have hasked : (s.delegations denom).map Distribution.Delegation.valoperAddress =
      (ValidatorsSet.queryValidators s.validatorsSet).map fun v => v.valoperAddress := by
    rw [Administered.delegations, List.map_map]
    rfl
  rw [hasked] at h
  constructor
  · rw [List.map_map]
    exact h.nodup (ValidatorsSet.queryValidators_nodup hkeyed)
  · intro item hitem
    obtain ⟨p, hp, rfl⟩ := List.mem_map.1 hitem
    obtain ⟨v, hv, haddress⟩ := List.mem_map.1 (h.subset (List.mem_map_of_mem hp))
    exact (ValidatorsSet.mem_queryValidators hkeyed).1 ⟨v, hv, haddress⟩

/-- **A deposit** goes to different members of the validator set, at least one token to each, and
without a rest up to a total weight of `10 ^ 18`. -/
theorem planned_deposit (hkeyed : s.validatorsSet.Keyed) (h : Consulted d s q answers)
    {amount : ℕ} {plan : List IdealDelegation} (hplan : answers.calcDeposit amount = .ok plan) :
    Planned s (plan.map fun p => (p.valoperAddress, p.stakeChange)) ∧
      (∀ p ∈ plan, 1 ≤ p.stakeChange) ∧
      (((ValidatorsSet.queryValidators s.validatorsSet).map fun v => v.weight).sum ≤
          Decimal.fractional → (plan.map IdealDelegation.stakeChange).sum = amount) := by
  obtain ⟨hsub, hpos⟩ := Distribution.calcDeposit_validators (h.distributes.1 amount plan hplan)
  refine ⟨planned_of_sublist hkeyed hsub, hpos, fun hweight => ?_⟩
  have hasked : ((s.delegations s.strategy.denom).map Distribution.Delegation.weight).sum ≤
      Decimal.fractional := by
    rw [Administered.delegations, List.map_map]
    exact hweight
  exact h.distributes.1.depositsExactly hasked amount plan hplan

/-- **A withdrawal** is from different members of the validator set, at most what is asked for in
all, and from none of them more than the puppeteer reports to be delegated to it, or one token. -/
theorem planned_withdrawal (hkeyed : s.validatorsSet.Keyed)
    (h : Consulted d s q answers) {amount : ℕ} {plan : List IdealDelegation}
    (hplan : answers.calcWithdraw amount = .ok plan) :
    Planned s (plan.map fun p => (p.valoperAddress, p.stakeChange)) ∧
      (∀ p ∈ plan, p.stakeChange ≤ max 1 (Strategy.delegatedTo
        (Puppeteer.queryDelegations s.world.puppeteer).1 p.valoperAddress)) ∧
      (plan.map IdealDelegation.stakeChange).sum ≤ amount := by
  obtain ⟨hsub, hentries⟩ :=
    Distribution.calcWithdraw_validators (h.distributes.2 amount plan hplan)
  refine ⟨planned_of_sublist hkeyed hsub, fun p hp => ?_,
    withdrawsAtMost_of_distribution h.distributes.2 amount plan hplan⟩
  obtain ⟨e, he, haddress, hle⟩ := hentries p hp
  obtain ⟨v, -, rfl⟩ := List.mem_map.1 he
  have hmap := Strategy.delegationMap_le s.strategy.denom v.valoperAddress
    (Puppeteer.queryDelegations s.world.puppeteer).1
  rw [← haddress]
  exact hle.trans (max_le_max le_rfl hmap)

/-! ## Ticks -/

/-- A tick that is sent to core is a step of core and the puppeteer. -/
theorem step_of_tick {a : Action} (hstep : AdminStep d C s (.settlement (.world a)) s') :
    Step d.toDeployment s.world a s'.world := by
  simp only [AdminStep, Administered.exec] at hstep
  split_ifs at hstep
  simp only [Administered.step, Settlement.exec, Option.bind_eq_bind, Option.bind_eq_some_iff,
    Option.pure_def, Option.some.injEq] at hstep
  obtain ⟨t, ⟨-, -, world, hworld, nft, -, rfl⟩, rfl⟩ := hstep
  exact hworld

/-- **With whom a deployment stakes.** In every state of a deployment, whatever has happened before,
a tick that anybody sends to core while the strategy contract asks the contracts of the deployment
delegates what is left of the reported balance after the fee, all of it up to a total weight of
`10 ^ 18`, to different members of the validator set, at least one token to each; and for a batch it
undelegates no more than the batch's total, from different members of the validator set, and from
none of them more than is reported to be delegated to it, or one token.

**Proof sketch.** Core, the puppeteer and the validator set are as their own messages leave them.
What core submits is the plan that it is answered, and the plan is one of the distribution contract
for the validators of the set. -/
theorem stake_plans (h : Governed d C s₀) (hreach : Reachable d.toDeployment s₀.world)
    (hrun : RunWhere (AdminStep d C) (AdminAction.Allowed d fun _ _ => True) s₀ s)
    (hconsulted : Consulted d s q answers) {sender : String} {funds : List Coin}
    (hstep : AdminStep d C s (.settlement (.world (.execute answers sender funds .tick))) s') :
    (∀ account denom items, Submits s.world s'.world (.delegate account denom items) →
      Planned s items ∧ (∀ item ∈ items, 1 ≤ item.2) ∧
        s.world.stakeFee ≤ s.world.stakeBalance ∧
        (((ValidatorsSet.queryValidators s.validatorsSet).map fun v => v.weight).sum ≤
            Decimal.fractional →
          (items.map Prod.snd).sum = s.world.stakeBalance - s.world.stakeFee)) ∧
    ∀ account denom items batchId,
      Submits s.world s'.world (.undelegate account items denom batchId) →
        Planned s items ∧
        (∀ item ∈ items, item.2 ≤ max 1 (Strategy.delegatedTo
          (Puppeteer.queryDelegations s.world.puppeteer).1 item.1)) ∧
        ∃ batch, s.world.core.unbondBatches.load batchId = some batch ∧
          (items.map Prod.snd).sum ≤ batch.totalAmount := by
  obtain ⟨hgoverned, hsettlement⟩ := refines_run tickCondition_true h hrun
  obtain ⟨-, hworld⟩ := settlement_run_world h.configured hsettlement
  have hflow := flowInv_of_reachable (hreach.trans hworld)
  have htick := step_of_tick hstep
  constructor
  · rintro account denom items ⟨p, hmem, hnew, htx⟩
    cases step_fees hflow htick with
    | silent _ _ hinFlight => exact absurd (hinFlight p hmem) hnew
    | submit p' _ _ _ hinFlight hdelegate =>
      rw [hinFlight, List.mem_singleton] at hmem
      rw [← hmem, htx] at hdelegate
      cases hdelegate
    | stake p' plan hsubmits _ hinFlight hstakes =>
      rw [hinFlight, List.mem_singleton] at hmem
      obtain ⟨answers', _, _, hsame, hplan⟩ := hstakes.tick
      obtain ⟨account', denom', hdelegate⟩ := hstakes.submits
      cases hsame
      rw [hsubmits, ← hmem, htx, Option.some.injEq, Transaction.delegate.injEq] at hdelegate
      obtain ⟨-, -, rfl⟩ := hdelegate
      obtain ⟨hplanned, hpos, hexact⟩ := planned_deposit hgoverned.keyed hconsulted hplan
      refine ⟨hplanned, List.forall_mem_map.2 hpos, hstakes.fee_le, fun hweight => ?_⟩
      rw [List.map_map]
      exact hexact hweight
  · intro account denom items batchId hsubmits
    obtain ⟨batch, plan, hbatch, hplan, rfl⟩ := submits_undelegate hflow htick hsubmits
    obtain ⟨hplanned, hle, hsum⟩ := planned_withdrawal hgoverned.keyed hconsulted hplan
    refine ⟨hplanned, List.forall_mem_map.2 hle, batch, hbatch, ?_⟩
    rw [List.map_map]
    exact hsum

end Staking

/-! ## A deployment that stakes -/

namespace Sample

/-- The answer of a contract, whatever it says when it fails. -/
def reported {ε α : Type} : Except ε α → Except String α
  | .ok a => .ok a
  | .error _ => .error "the query failed"

/-- An answer is reported as it is. -/
theorem reported_eq_ok {ε α : Type} {answer : Except ε α} {a : α} :
    reported answer = .ok a ↔ answer = .ok a := by
  cases answer <;> simp [reported]

/-- What the strategy contract is answered. -/
def strategyQuerier (s : Administered Cw721Base) : Strategy.Querier where
  delegations _ := .ok (Puppeteer.queryDelegations s.world.puppeteer)
  validators _ :=
    .ok ((ValidatorsSet.queryValidators s.validatorsSet).map fun v => v.toValidatorInfo)
  calcDeposit _ deposit delegations := reported (Distribution.calcDeposit deposit delegations)
  calcWithdraw _ withdraw delegations := reported (Distribution.calcWithdraw withdraw delegations)

/-- What core is answered. -/
def strategyAnswers (s : Administered Cw721Base) : Answers :=
  { answers members with
    calcDeposit := fun amount =>
      reported (Strategy.queryCalcDeposit s.strategy (strategyQuerier s) amount)
    calcWithdraw := fun amount =>
      reported (Strategy.queryCalcWithdraw s.strategy (strategyQuerier s) amount) }

/-- Core is answered by the strategy contract, as the factory has instantiated it. -/
theorem strategy_consulted {s : Administered Cw721Base} (h : s.strategy = administered.strategy) :
    Consulted adminDeployment s (strategyQuerier s) (strategyAnswers s) where
  puppeteer := by
    rw [h]
    rfl
  validatorsSet := by
    rw [h]
    rfl
  delegations := rfl
  validators := rfl
  deposits _ _ _ := reported_eq_ok.1
  withdrawals _ _ _ := reported_eq_ok.1
  calcDeposit _ _ := reported_eq_ok.1
  calcWithdraw _ _ := reported_eq_ok.1

/-- Core and the puppeteer as the factory instantiates them. -/
def factoryWorld : World :=
  { initial with
    core := Core.instantiate config "factory" 1000
    puppeteer := Puppeteer.instantiate { puppeteerConfig with owner := "factory" } }

/-- They are in an initial state. -/
theorem factoryWorld_spec : Initial deployment factoryWorld where
  core := ⟨config, "factory", rfl⟩
  wired := by decide
  puppeteer := ⟨{ puppeteerConfig with owner := "factory" }, rfl⟩
  allowedSenders := rfl
  supply := rfl
  vouchers := rfl
  inFlight := rfl
  channel := rfl
  time := by decide

/-- The factory tells core the denomination of the token. -/
theorem ownedWorld_reachable : Reachable deployment ownedWorld := by
  have hstep : Step deployment factoryWorld (.execute (answers members) "factory" []
      (.updateConfig { Core.ConfigOptional.empty with ldDenom := some "udatom" })) ownedWorld := rfl
  exact ⟨factoryWorld, factoryWorld_spec, RunWhere.single trivial hstep⟩

/-- A message of the owner of the factory. -/
def daoCall (msg : Factory.ExecuteMsg) : AdminAction :=
  .factory factoryQuerier (answers members) addresses [] ⟨"dao", []⟩ msg

/-- A step of core and the puppeteer. -/
def worldAction (a : Action) : AdminAction := .settlement (.world a)

/-- The owner chooses two validators, and a bond of 1000 arrives on the remote chain. -/
def arrived : List AdminAction := [
  daoCall (.updateConfig (.puppeteerFees ⟨0, 0, 0, 0⟩)),
  worldAction (.executePuppeteer (fun _ => true) "bob" [] .registerICA),
  worldAction (.openAck (some "ica")),
  daoCall (.proxy (.core (.updateNonNativeRewardsReceivers []))),
  daoCall (.proxy (.validatorSet (.updateValidators [⟨"val1", 1⟩, ⟨"val2", 3⟩]))),
  worldAction (bond 1000), worldAction (block 2 1020), worldAction tick,
  worldAction (.deliver 1 .response), worldAction (block 3 1025), worldAction (remote 1000 0)]

/-- Whether the owner of the factory chooses no message himself. -/
def choosesNothing : AdminAction → Bool
  | .factory _ _ _ _ _ msg => msg.chosen.isNone
  | _ => true

/-- Such a step is allowed. -/
theorem allowed_of_choosesNothing {s : Administered Cw721Base} {a : AdminAction}
    (h : choosesNothing a = true) : a.Allowed adminDeployment (fun _ _ => True) s := by
  cases a with
  | factory q answers a balances info msg =>
    have hnone : msg.chosen = none := Option.isNone_iff_eq_none.1 h
    refine ⟨by simp [Factory.ExecuteMsg.keepsContracts, hnone], fun m hm => ?_⟩
    rw [hnone] at hm
    cases hm
  | _ => trivial

end Sample

open Sample

/-- A run of the sample deployment in which a bond is staked with the two validators that the owner
has chosen, by their weights. -/
theorem stake_plans_sample : ∃ s s' : Administered Cw721Base,
    Submits s.world s'.world (.delegate "DROP" "uatom" [("val1", 250), ("val2", 750)]) ∧
      Planned s [("val1", 250), ("val2", 750)] ∧
      250 + 750 = s.world.stakeBalance - s.world.stakeFee := by
  have hrun : ((runList (Administered.exec adminDeployment (ownedCw721Base AutoWithdrawer.Payload))
      (fun _ a => choosesNothing a) administered arrived).bind fun s =>
      (s.exec adminDeployment (ownedCw721Base AutoWithdrawer.Payload)
        (worldAction (.execute (strategyAnswers s) "bob" [] .tick))).map fun s' => (s, s')).any
      (fun r => decide (r.1.world.inFlight = [] ∧ r.2.world.inFlight.map Packet.transaction =
          [.delegate "DROP" "uatom" [("val1", 250), ("val2", 750)]] ∧
        r.1.strategy = administered.strategy ∧
        ((ValidatorsSet.queryValidators r.1.validatorsSet).map fun v => v.weight).sum ≤
          Decimal.fractional)) = true := by
    -- eleven steps and the division of a deposit are too deep for `decide` alone
    decide +kernel
  obtain ⟨⟨s, s'⟩, hs, hcheck⟩ := (Option.any_eq_true _ _).1 hrun
  simp only [Option.bind_eq_some_iff, Option.map_eq_some_iff, Prod.mk.injEq] at hs
  obtain ⟨_, hs, _, hstep, rfl, rfl⟩ := hs
  obtain ⟨hnil, htransactions, hstrategy, hweight⟩ := of_decide_eq_true hcheck
  have hallowed : RunWhere (AdminStep adminDeployment (ownedCw721Base AutoWithdrawer.Payload))
      (AdminAction.Allowed adminDeployment fun _ _ => True) administered _ :=
    runList_eq_some (fun _ _ _ hexec => hexec) (fun _ a _ => allowed_of_choosesNothing) hs
  have hsubmits := submits_of_inFlight hnil htransactions
  obtain ⟨hdeposit, -⟩ := stake_plans administered_governed ownedWorld_reachable hallowed
    (strategy_consulted hstrategy) hstep
  obtain ⟨hplanned, -, -, hexact⟩ := hdeposit _ _ _ hsubmits
  exact ⟨_, _, hsubmits, hplanned, hexact hweight⟩

end System

end DropContracts
