import DropContracts.Base.Run
import DropContracts.Core.Execute
import DropContracts.Core.Redemption
import DropContracts.Core.TickCase

set_option relaxedAutoImplicit false
set_option autoImplicit false

/-!
# The arithmetic of fees

`get_stake_msg` and `get_non_native_rewards_and_fee_transfer_msg` both multiply an amount with a fee
and subtract the product from the amount. The subtraction aborts when the fee is above one, and none
of the calls that write a fee looks at it. Which fees are stored is followed here along the runs of
the contract, with whatever answers to its queries.

## Main definitions

* `Core.takeFee`, `Core.Splits` — the two operations, and that they divide the amount.
* `Core.SplitsFees` — every amount that the two functions take a fee from is divided.
* `Core.Call`, `Core.CallStep` — the calls of the contract, with the answers to their queries.
* `Core.Call.GivesFees` — a call that writes no fee above one.

## Main results

* `Core.splits_iff` — which fees divide an amount.
* `Core.splitsFees_iff` — which configurations divide every amount.
* `Core.splitsFees_of_run` — runs in which no fee above one is written.
-/

namespace DropContracts

namespace Core

open Exec

/-! ## One amount -/

/-- The fee on an amount, and what is left of it. -/
def takeFee (amount : ℕ) (fee : Decimal) : Result (ℕ × ℕ) := do
  let share ← Decimal.mulUint amount fee
  let rest ← checkedSub amount share
  return (share, rest)

/-- The fee is taken without an underflow, and together with what is left it is the amount. -/
def Splits (amount : ℕ) (fee : Decimal) : Prop :=
  ∃ share rest, takeFee amount fee = .ok (share, rest) ∧ share + rest = amount

section Amounts

variable {amount : ℕ} {fee : Decimal}

/-- The fee is the rounded product, and it is taken when it is not more than the amount. -/
theorem takeFee_eq_ok {share rest : ℕ} : takeFee amount fee = .ok (share, rest) ↔
    amount * fee.atomics / Decimal.fractional = share ∧ share < Uint128.bound ∧
      share + rest = amount := by
  simp only [takeFee, bind_eq_ok, Decimal.mulUint_eq_ok, checkedSub_eq_ok, pure_eq_ok,
    Except.ok.injEq, Prod.mk.injEq]
  constructor
  · rintro ⟨_, ⟨hshare, hfits⟩, _, hrest, rfl, rfl⟩
    exact ⟨hshare, hfits, hrest⟩
  · rintro ⟨hshare, hfits, hrest⟩
    exact ⟨share, ⟨hshare, hfits⟩, rest, hrest, rfl, rfl⟩

/-- **An amount is divided** exactly when the fee on it is not more than the amount. -/
theorem splits_iff (hamount : amount < Uint128.bound) :
    Splits amount fee ↔ amount * fee.atomics / Decimal.fractional ≤ amount := by
  constructor
  · rintro ⟨share, rest, hfee, hsum⟩
    rw [(takeFee_eq_ok.1 hfee).1]
    omega
  · intro hle
    have hsum : amount * fee.atomics / Decimal.fractional +
        (amount - amount * fee.atomics / Decimal.fractional) = amount := Nat.add_sub_cancel' hle
    exact ⟨_, _, takeFee_eq_ok.2 ⟨rfl, hle.trans_lt hamount, hsum⟩, hsum⟩

/-- A fee of at most one divides every amount. -/
theorem splits_of_le (hfee : fee.atomics ≤ Decimal.fractional) (hamount : amount < Uint128.bound) :
    Splits amount fee := by
  rw [splits_iff hamount]
  calc amount * fee.atomics / Decimal.fractional
      ≤ amount * Decimal.fractional / Decimal.fractional :=
        Nat.div_le_div_right (Nat.mul_le_mul_left amount hfee)
    _ = amount := Nat.mul_div_cancel amount Decimal.fractional_pos

/-- A fee above one divides no amount from `10 ^ 18` on. -/
theorem not_splits_of_lt (hfee : Decimal.fractional < fee.atomics)
    (hlarge : Decimal.fractional ≤ amount) : ¬ Splits amount fee := by
  rintro ⟨share, rest, htake, hsum⟩
  obtain ⟨hshare, -, -⟩ := takeFee_eq_ok.1 htake
  have hmore : amount + 1 ≤ amount * fee.atomics / Decimal.fractional := by
    rw [Nat.le_div_iff_mul_le Decimal.fractional_pos]
    calc (amount + 1) * Decimal.fractional
        = amount * Decimal.fractional + Decimal.fractional := Nat.succ_mul _ _
      _ ≤ amount * Decimal.fractional + amount := Nat.add_le_add_left hlarge _
      _ = amount * (Decimal.fractional + 1) := (Nat.mul_succ _ _).symm
      _ ≤ amount * fee.atomics := Nat.mul_le_mul_left amount hfee
  omega

end Amounts

/-! ## The two functions -/

section Functions

variable {s : Storage} {q : Querier} {env : Env} {config : Config} {info : MessageInfo}

/-- `get_stake_msg` takes the fee from the balance. -/
theorem getStakeMsg_eq_takeFee : getStakeMsg s q env config info = (do
    let (balance, balanceHeight, _) ← getIcaBalanceByDenom q config.remoteDenom true
    if balance < config.minStakeAmount then .ok (s, none)
    else do
      ensure (s.lastIcaBalanceChangeHeight ≤ balanceHeight)
        (.puppeteerBalanceOutdated s.lastIcaBalanceChangeHeight balanceHeight)
      let (fee, depositAmount) ← takeFee balance (config.fee.getD Decimal.zero)
      let toDelegate ← ask (q.calcDeposit depositAmount)
      let s ← collectFee s config fee
      return (s, some (.puppeteer config.puppeteerContract
        (.delegate (toDelegate.map fun d => (d.valoperAddress, d.stakeChange))
          (some config.puppeteerTimeout) env.contractAddress)
        info.funds))) := by
  simp only [getStakeMsg, takeFee, bind_assoc, pure_bind]

/-- The items of a receiver take the fee from the reported amount. -/
theorem rewardItems_eq_takeFee {rewards : List Coin} {item : NonNativeRewardsItem} :
    rewardItems rewards item =
      if item.minAmount < rewardAmount rewards item.denom then do
        let (fee, rest) ← takeFee (rewardAmount rewards item.denom) item.fee
        return (item.address, ⟨item.denom, rest⟩) ::
          if 0 < item.fee.atomics ∧ 0 < fee then [(item.feeAddress, ⟨item.denom, fee⟩)] else []
      else .ok [] := by
  simp only [rewardItems, takeFee, rewardAmount, bind_assoc, pure_bind]

end Functions

/-! ## The stored fees -/

/-- **Every amount that a fee is taken from is divided**, with the answers of `q`: the balance that
is staked, and the reward of each receiver. -/
structure SplitsFees (s : Storage) (q : Querier) : Prop where
  stake : ∀ balances, q.balances = .ok balances →
    s.config.minStakeAmount ≤ icaBalance balances s.config.remoteDenom →
      Splits (icaBalance balances s.config.remoteDenom) (s.config.fee.getD Decimal.zero)
  rewards : ∀ receivers item balances, s.nonNativeRewardsConfig = some receivers →
    item ∈ receivers → q.nonNativeRewardsBalances = .ok balances →
    item.minAmount < rewardAmount balances.1 item.denom →
      Splits (rewardAmount balances.1 item.denom) item.fee

/-- The amounts that are answered fit their type. -/
structure AnswersFit (q : Querier) : Prop where
  balances : ∀ balances, q.balances = .ok balances → ∀ coin ∈ balances.1,
    coin.amount < Uint128.bound
  rewards : ∀ balances, q.nonNativeRewardsBalances = .ok balances → ∀ coin ∈ balances.1,
    coin.amount < Uint128.bound

/-- The fee on stakes is at most one. -/
def Config.TakesAtMostAll (config : Config) : Prop :=
  config.minStakeAmount < Uint128.bound →
    (config.fee.getD Decimal.zero).atomics ≤ Decimal.fractional

/-- The fee on the reward is at most one, unless no amount is above the threshold. -/
def NonNativeRewardsItem.TakesAtMostAll (item : NonNativeRewardsItem) : Prop :=
  item.minAmount + 1 < Uint128.bound → item.fee.atomics ≤ Decimal.fractional

/-- All stored fees are at most one. -/
structure FeesAtMostAll (s : Storage) : Prop where
  stake : s.config.TakesAtMostAll
  rewards : ∀ receivers, s.nonNativeRewardsConfig = some receivers → ∀ item ∈ receivers,
    item.TakesAtMostAll

section Stored

variable {s : Storage} {q : Querier}

/-- An amount that was found in a list of coins fits when all of them do. -/
theorem amount_lt_of_find {coins : List Coin} {p : Coin → Bool}
    (hfit : ∀ coin ∈ coins, coin.amount < Uint128.bound) :
    ((coins.find? p).map Coin.amount).getD 0 < Uint128.bound := by
  cases hfind : coins.find? p with
  | none => exact Uint128.bound_pos
  | some coin => exact hfit coin (List.mem_of_find?_eq_some hfind)

/-- The answers with one balance of the account and one reward. -/
def answering (denom : String) (amount : ℕ) : Querier where
  supply := fun _ => 0
  balance := fun _ => 0
  delegations := .ok ([], 0, ⟨0⟩)
  balances := .ok ([⟨denom, amount⟩], 0, ⟨0⟩)
  nonNativeRewardsBalances := .ok ([⟨denom, amount⟩], 0, ⟨0⟩)
  validators := .ok []
  validator := fun _ => .ok none
  calcDeposit := fun _ => .ok []
  calcWithdraw := fun _ => .ok []
  denomTrace := fun _ => .error "denom trace not found"
  addrValidate := fun _ => true

/-- The answers fit when the amount does. -/
theorem answering_fit {denom : String} {amount : ℕ} (hamount : amount < Uint128.bound) :
    AnswersFit (answering denom amount) := by
  constructor <;>
  · rintro _ ⟨⟩ coin hcoin
    rw [List.mem_singleton.1 hcoin]
    exact hamount

/-- There are amounts from `10 ^ 18` on that are not below a threshold and fit. -/
theorem exists_large {threshold : ℕ} (hthreshold : threshold < Uint128.bound) :
    ∃ amount, threshold ≤ amount ∧ Decimal.fractional ≤ amount ∧ amount < Uint128.bound :=
  ⟨max threshold Decimal.fractional, le_max_left _ _, le_max_right _ _,
    max_lt hthreshold (by decide)⟩

/-- **Which configurations divide every amount**, whatever the answers: those without a fee above
one. -/
theorem splitsFees_iff : (∀ q, AnswersFit q → SplitsFees s q) ↔ FeesAtMostAll s := by
  constructor
  · intro h
    constructor
    · intro hmin
      by_contra hfee
      obtain ⟨amount, hthreshold, hlarge, hamount⟩ := exists_large hmin
      have hbalance : icaBalance ([⟨s.config.remoteDenom, amount⟩], 0, ⟨0⟩) s.config.remoteDenom =
          amount := by
        simp [icaBalance]
      have hsplits := (h _ (answering_fit hamount)).stake _ rfl (hbalance.symm ▸ hthreshold)
      rw [hbalance] at hsplits
      exact not_splits_of_lt (not_le.1 hfee) hlarge hsplits
    · intro receivers hreceivers item hitem hmin
      by_contra hfee
      obtain ⟨amount, hthreshold, hlarge, hamount⟩ := exists_large hmin
      have hreward : rewardAmount [⟨item.denom, amount⟩] item.denom = amount := by
        simp [rewardAmount]
      have hsplits := (h _ (answering_fit hamount)).rewards receivers item _ hreceivers hitem rfl
        (hreward.symm ▸ hthreshold)
      rw [hreward] at hsplits
      exact not_splits_of_lt (not_le.1 hfee) hlarge hsplits
  · intro h q hfit
    constructor
    · intro balances hbalances hmin
      have hamount := amount_lt_of_find (p := fun c => c.denom = s.config.remoteDenom)
        (hfit.balances balances hbalances)
      exact splits_of_le (h.stake (hmin.trans_lt hamount)) hamount
    · intro receivers item balances hreceivers hitem hbalances hmin
      have hamount : rewardAmount balances.1 item.denom < Uint128.bound :=
        amount_lt_of_find fun coin hcoin =>
          hfit.rewards balances hbalances coin (List.mem_reverse.1 hcoin)
      exact splits_of_le (h.rewards receivers hreceivers item hitem (by omega)) hamount

end Stored

/-! ## Runs -/

/-- A call with its sender and coins, in some block, and the answers to its queries. -/
structure Call where
  q : Querier
  env : Env
  info : MessageInfo
  msg : ExecuteMsg

/-- The storage after a call that returns. -/
def Call.exec (s : Storage) (c : Call) : Option Storage :=
  (execute s c.q c.env c.info c.msg).toOption.map Prod.fst

/-- A step of the contract. -/
def CallStep (s : Storage) (c : Call) (s' : Storage) : Prop := c.exec s = some s'

/-- A call that leaves no fee above one behind in what it writes. -/
def Call.GivesFees (s : Storage) (c : Call) : Prop :=
  match c.msg with
  | .updateConfig newConfig => (s.config.update newConfig).TakesAtMostAll
  | .updateNonNativeRewardsReceivers items => ∀ item ∈ items, item.TakesAtMostAll
  | _ => True

/-- What a call does to the configuration and to the receivers. -/
inductive Configures (s : Storage) : ExecuteMsg → Storage → Prop
  | config (newConfig : ConfigOptional) :
      Configures s (.updateConfig newConfig) { s with config := s.config.update newConfig }
  | receivers (items : List NonNativeRewardsItem) :
      Configures s (.updateNonNativeRewardsReceivers items)
        { s with nonNativeRewardsConfig := some items }
  | neither {msg : ExecuteMsg} {s' : Storage} (hconfig : ∀ newConfig, msg ≠ .updateConfig newConfig)
      (hreceivers : ∀ items, msg ≠ .updateNonNativeRewardsReceivers items)
      (hsame : s'.config = s.config)
      (hsame' : s'.nonNativeRewardsConfig = s.nonNativeRewardsConfig) : Configures s msg s'

section Calls

variable {s s' : Storage} {q : Querier} {env : Env} {info : MessageInfo} {msgs : List CoreMsg}
  {c : Call}

/-- **Every call but two leaves the configuration and the receivers alone.** -/
theorem execute_configures {msg : ExecuteMsg} (h : execute s q env info msg = .ok (s', msgs)) :
    Configures s msg s' := by
  cases msg with
  | bond receiver =>
    obtain ⟨coin, denomType, _, _, _, -, -, -, hrecord, -⟩ := executeBond_ok h
    refine .neither (by rintro _ ⟨⟩) (by rintro _ ⟨⟩) ?_ ?_ <;> cases hrecord <;> rfl
  | unbond =>
    obtain ⟨batch, item, -, rfl⟩ := executeUnbond_saves h
    exact .neither (by rintro _ ⟨⟩) (by rintro _ ⟨⟩) rfl rfl
  | updateConfig newConfig =>
    simp only [execute, silently, executeUpdateConfig, bind_eq_ok, pure_eq_ok, Except.ok.injEq,
      Prod.mk.injEq] at h
    obtain ⟨_, ⟨-, -, rfl⟩, rfl, -⟩ := h
    exact .config newConfig
  | updateNonNativeRewardsReceivers items =>
    simp only [execute, silently, executeSetNonNativeRewardsReceivers, bind_eq_ok, pure_eq_ok,
      Except.ok.injEq, Prod.mk.injEq] at h
    obtain ⟨_, ⟨-, -, rfl⟩, rfl, -⟩ := h
    exact .receivers items
  | resetBondedAmount =>
    simp only [execute, silently, executeResetBondedAmount, bind_eq_ok, pure_eq_ok,
      Except.ok.injEq, Prod.mk.injEq] at h
    obtain ⟨_, ⟨-, -, rfl⟩, rfl, -⟩ := h
    exact .neither (by rintro _ ⟨⟩) (by rintro _ ⟨⟩) rfl rfl
  | tick =>
    have hframe := (executeTick_ok h).2.frame
    exact .neither (by rintro _ ⟨⟩) (by rintro _ ⟨⟩) hframe.config hframe.nonNativeRewardsConfig
  | puppeteerHook msg =>
    simp only [execute, silently, bind_eq_ok, pure_eq_ok, Except.ok.injEq, Prod.mk.injEq] at h
    obtain ⟨_, hhook, rfl, -⟩ := h
    obtain ⟨_, _, _, _, rfl⟩ := executePuppeteerHook_changes hhook
    exact .neither (by rintro _ ⟨⟩) (by rintro _ ⟨⟩) rfl rfl
  | pause =>
    simp only [execute, silently, execPause, bind_eq_ok, pure_eq_ok, Except.ok.injEq,
      Prod.mk.injEq] at h
    obtain ⟨_, ⟨-, -, rfl⟩, rfl, -⟩ := h
    exact .neither (by rintro _ ⟨⟩) (by rintro _ ⟨⟩) rfl rfl
  | unpause =>
    simp only [execute, silently, execUnpause, bind_eq_ok, pure_eq_ok, Except.ok.injEq,
      Prod.mk.injEq] at h
    obtain ⟨_, ⟨-, -, rfl⟩, rfl, -⟩ := h
    exact .neither (by rintro _ ⟨⟩) (by rintro _ ⟨⟩) rfl rfl

/-- **A step writes no fee above one** exactly when all stored fees are at most one after it. -/
theorem feesAtMostAll_step (h : FeesAtMostAll s) (hstep : CallStep s c s') :
    FeesAtMostAll s' ↔ c.GivesFees s := by
  obtain ⟨⟨_, msgs⟩, hexecute, rfl⟩ := Option.map_eq_some_iff.1 hstep
  have hcase := execute_configures (toOption_eq_some.1 hexecute)
  obtain ⟨q, env, info, msg⟩ := c
  cases hcase with
  | config newConfig => exact ⟨fun h' => h'.stake, fun hgives => ⟨hgives, h.rewards⟩⟩
  | receivers items =>
    refine ⟨fun h' => h'.rewards items rfl, fun hgives => ⟨h.stake, ?_⟩⟩
    rintro _ ⟨⟩
    exact hgives
  | neither hconfig hreceivers hsame hsame' =>
    have hgives : Call.GivesFees s ⟨q, env, info, msg⟩ := by
      cases msg with
      | updateConfig newConfig => exact absurd rfl (hconfig newConfig)
      | updateNonNativeRewardsReceivers items => exact absurd rfl (hreceivers items)
      | _ => exact trivial
    refine iff_of_true ⟨?_, ?_⟩ hgives
    · rw [hsame]
      exact h.stake
    · rw [hsame']
      exact h.rewards

/-- **Runs in which no fee above one is written**: whatever the queries answer, every amount that a
fee is taken from is divided, and it stays so exactly when the next call writes no such fee. -/
theorem splitsFees_of_run {config : Config} {owner : String} {now : ℕ}
    (hconfig : config.TakesAtMostAll)
    (hrun : RunWhere CallStep (fun s c => c.GivesFees s) (instantiate config owner now) s) :
    (∀ q, AnswersFit q → SplitsFees s q) ∧ ∀ c s', CallStep s c s' →
      ((∀ q, AnswersFit q → SplitsFees s' q) ↔ c.GivesFees s) := by
  have hfees : FeesAtMostAll s := by
    have hinitial : FeesAtMostAll (instantiate config owner now) := ⟨hconfig, fun _ => nofun⟩
    have hkeep : ∀ (s : Storage) (c : Call) (t : Storage), c.GivesFees s → CallStep s c t →
        FeesAtMostAll s → FeesAtMostAll t :=
      fun _ _ _ hgives hstep h => (feesAtMostAll_step h hstep).2 hgives
    exact hrun.preserves hkeep hinitial
  refine ⟨splitsFees_iff.2 hfees, fun c s' hstep => ?_⟩
  rw [splitsFees_iff]
  exact feesAtMostAll_step hfees hstep

end Calls

/-! ## Two configurations -/

/-- A configuration with the given fee on stakes. -/
def configWithFee (fee : Decimal) : Config where
  tokenContract := "token"
  puppeteerContract := "puppeteer"
  puppeteerTimeout := 60
  strategyContract := "strategy"
  withdrawalVoucherContract := "voucher"
  withdrawalManagerContract := "manager"
  validatorsSetContract := "validators"
  baseDenom := "ibc/uatom"
  remoteDenom := "uatom"
  idleMinInterval := 10
  unbondingPeriod := 100
  unbondingSafePeriod := 10
  unbondBatchSwitchTime := 1000
  pumpAddress := some "pump"
  channel := "channel-0"
  ldDenom := none
  lsmMinBondAmount := 100
  lsmRedeemThreshold := 10
  lsmRedeemMaximumInterval := 1000
  bondLimit := none
  fee := some fee
  feeAddress := some "fee"
  emergencyAddress := some "emergency"
  minStakeAmount := 1

/-- An update that gives the denomination of the token and the given fee. -/
def updateFee (fee : Decimal) : ConfigOptional :=
  { ConfigOptional.empty with ldDenom := some "udatom", fee := some fee }

/-- A call of the owner in the block at 2000 seconds. -/
def ownerCall (msg : ExecuteMsg) : Call :=
  ⟨answering "uatom" 10, ⟨10, ⟨2000 * nanosPerSecond⟩, "core"⟩, ⟨"admin", []⟩, msg⟩

/-- The owner gives a fee of one, and a receiver whose fee is a half. -/
theorem splitsFees_of_run_one : ∃ s : Storage,
    RunWhere CallStep (fun s c => c.GivesFees s)
      (instantiate (configWithFee ⟨Decimal.fractional / 10⟩) "admin" 1000) s ∧
    s.config.fee = some Decimal.one ∧ s.nonNativeRewardsConfig.isSome ∧
    (∀ q, AnswersFit q → SplitsFees s q) ∧
    ∀ c s', CallStep s c s' → ((∀ q, AnswersFit q → SplitsFees s' q) ↔ c.GivesFees s) := by
  have hconfig : (configWithFee ⟨Decimal.fractional / 10⟩).TakesAtMostAll := fun _ => by decide
  have hfirst : (ownerCall (.updateConfig (updateFee Decimal.one))).GivesFees
      (instantiate (configWithFee ⟨Decimal.fractional / 10⟩) "admin" 1000) := fun _ => le_rfl
  have hsecond : ∀ s, (ownerCall (.updateNonNativeRewardsReceivers
      [⟨"uosmo", "rewards", 5, "fee", ⟨Decimal.fractional / 2⟩⟩])).GivesFees s := by
    intro s item hitem _
    rw [List.mem_singleton.1 hitem]
    decide
  have hrun₁ : RunWhere CallStep (fun s c => c.GivesFees s)
      (instantiate (configWithFee ⟨Decimal.fractional / 10⟩) "admin" 1000) _ :=
    RunWhere.single hfirst rfl
  have hrun : RunWhere CallStep (fun s c => c.GivesFees s)
      (instantiate (configWithFee ⟨Decimal.fractional / 10⟩) "admin" 1000) _ :=
    hrun₁.tail (hsecond _) rfl
  exact ⟨_, hrun, rfl, rfl, splitsFees_of_run hconfig hrun⟩

/-- **A fee of two is accepted, and the next tick that stakes aborts.** -/
theorem fee_above_one_aborts : ∃ s : Storage,
    Run CallStep (instantiate (configWithFee ⟨Decimal.fractional / 10⟩) "admin" 1000) s ∧
    AnswersFit (answering "uatom" 10) ∧ ¬ SplitsFees s (answering "uatom" 10) ∧
    execute s (answering "uatom" 10) ⟨10, ⟨2000 * nanosPerSecond⟩, "core"⟩ ⟨"anyone", []⟩ .tick =
      .error .abort := by
  have hrun : Run CallStep (instantiate (configWithFee ⟨Decimal.fractional / 10⟩) "admin" 1000) _ :=
    RunWhere.single (a := ownerCall (.updateConfig (updateFee ⟨2 * Decimal.fractional⟩)))
      trivial rfl
  refine ⟨_, hrun, answering_fit (by decide), fun h => ?_, ?_⟩
  · obtain ⟨share, rest, htake, hsum⟩ := h.stake _ rfl (by decide)
    obtain ⟨hshare, -, -⟩ := takeFee_eq_ok.1 htake
    have hdouble : share = 20 := hshare.symm.trans (by decide)
    have hten : share + rest = 10 := hsum
    omega
  · rfl

end Core

end DropContracts
