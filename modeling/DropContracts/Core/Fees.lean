import DropContracts.Core.Forward
import DropContracts.Core.IdleTick

set_option relaxedAutoImplicit false
set_option autoImplicit false

/-!
# Fees

A tick that delegates computes the fee on the whole balance of the interchain account and adds it
to `COLLECTED_FEES`; an idle tick within the interval sends what is collected there to the fee
addresses. Nothing else touches the collected fees.

## Main definitions

* `Core.feesOf`, `Core.Storage.feeItems` — the collected fees of one denomination, and the items of
  a transfer that are made of them.
* `Core.FeesKeyed` — the fees of a denomination are stored under it.
* `Core.Config.keeps` — the part of a fee that is collected.
* `Core.Delegates`, `Core.Stakes` — a message delegates, and everything a tick does that delegates.
* `Core.AsksToStake` — a call that delegates does so by `get_stake_msg`.

## Main results

* `Core.collectFee_fees` — what collecting a fee adds.
* `Core.executeTick_asksToStake`, `Core.executeTick_stakes` — a tick delegates in this way, or
  leaves the collected fees alone.
* `Core.executeTick_transfers` — a transfer carries the rewards and the collected fees.
* `Core.hook_fees` — no outcome changes the collected fees.
-/

namespace DropContracts

namespace Core

open Exec

/-! ## The collected fees -/

/-- The collected fees of one denomination. -/
def feesOf (fees : StorageMap String FeeItem) (denom : String) : ℕ :=
  fees.total fun item => if item.denom = denom then item.amount else 0

/-- The items of a transfer that are made of the collected fees. -/
def Storage.feeItems (s : Storage) : List (String × Coin) :=
  s.collectedFees.entries.map fun e => (e.2.address, ⟨e.2.denom, e.2.amount⟩)

/-- The fees of a denomination are stored under it. -/
def FeesKeyed (fees : StorageMap String FeeItem) : Prop :=
  ∀ key item, fees.load key = some item → item.denom = key

/-- The part of a fee that is collected: all of it, when there is an address to send it to. -/
def Config.keeps (config : Config) (fee : ℕ) : ℕ := if config.feeAddress = none then 0 else fee

/-- The entry of the remote denomination after a fee was added to it. -/
theorem addCollectedFee_eq_ok {config : Config} {feeAddress : String} {fee : ℕ}
    {old : Option FeeItem} {item : FeeItem}
    (h : addCollectedFee config feeAddress fee old = .ok item)
    (hkeyed : ∀ item ∈ old, item.denom = config.remoteDenom) :
    item.denom = config.remoteDenom ∧
      item.amount = (old.map FeeItem.amount).getD 0 + fee := by
  cases old with
  | none =>
    rw [addCollectedFee] at h
    rw [← Except.ok.inj h]
    exact ⟨rfl, (Nat.zero_add fee).symm⟩
  | some old =>
    simp only [addCollectedFee, bind_eq_ok, checkedAdd_eq_ok, pure_eq_ok, Except.ok.injEq] at h
    obtain ⟨_, ⟨rfl, -⟩, rfl⟩ := h
    exact ⟨hkeyed old rfl, rfl⟩

/-- The entries stay stored under their denominations. -/
theorem FeesKeyed.save {fees : StorageMap String FeeItem} (h : FeesKeyed fees) {key : String}
    {item : FeeItem} (hdenom : item.denom = key) : FeesKeyed (fees.save key item) := by
  intro key' item' hload
  simp only [StorageMap.load_save] at hload
  split_ifs at hload with hkey
  · rw [← Option.some.inj hload, hdenom, hkey]
  · exact h key' item' hload

/-- The fees of each denomination after the entry of `key` was written: what the entry held goes
out, what it holds now comes in. -/
theorem feesOf_save {fees : StorageMap String FeeItem} (h : FeesKeyed fees) {key : String}
    {item : FeeItem} (hdenom : item.denom = key) (denom : String) :
    feesOf (fees.save key item) denom +
        (if denom = key then ((fees.load key).map FeeItem.amount).getD 0 else 0) =
      feesOf fees denom + if denom = key then item.amount else 0 := by
  have htotal := StorageMap.total_save
    (fun item : FeeItem => if item.denom = denom then item.amount else 0) fees key item
  have hold : ((fees.load key).map fun item : FeeItem =>
      if item.denom = denom then item.amount else 0).getD 0 =
        if denom = key then ((fees.load key).map FeeItem.amount).getD 0 else 0 := by
    cases hload : fees.load key with
    | none => simp
    | some old => simp [h _ _ hload, eq_comm]
  rw [hold, hdenom] at htotal
  simpa only [feesOf, eq_comm] using htotal

/-- **What collecting a fee adds**: the part that is kept, to the fees of the remote
denomination. -/
theorem collectFee_fees {s s' : Storage} {config : Config} {fee : ℕ}
    (h : collectFee s config fee = .ok s') (hkeyed : FeesKeyed s.collectedFees) :
    FeesKeyed s'.collectedFees ∧ ∀ denom, feesOf s'.collectedFees denom =
      feesOf s.collectedFees denom +
        if denom = config.remoteDenom then config.keeps fee else 0 := by
  have hsame : config.keeps fee = 0 → s' = s → FeesKeyed s'.collectedFees ∧ ∀ denom,
      feesOf s'.collectedFees denom = feesOf s.collectedFees denom +
        if denom = config.remoteDenom then config.keeps fee else 0 := by
    rintro hzero rfl
    refine ⟨hkeyed, fun denom => ?_⟩
    rw [hzero, ite_self, Nat.add_zero]
  unfold collectFee at h
  cases haddress : config.feeAddress with
  | none =>
    simp only [haddress, Except.ok.injEq] at h
    exact hsame (by simp [Config.keeps, haddress]) h.symm
  | some feeAddress =>
    have hkeeps : config.keeps fee = fee := by simp [Config.keeps, haddress]
    simp only [haddress] at h
    split_ifs at h with hpos
    · simp only [bind_eq_ok, pure_eq_ok, Except.ok.injEq] at h
      obtain ⟨item, hitem, rfl⟩ := h
      obtain ⟨hdenom, hamount⟩ := addCollectedFee_eq_ok hitem fun old hload => hkeyed _ old hload
      refine ⟨hkeyed.save hdenom, fun denom => ?_⟩
      have hsave := feesOf_save hkeyed hdenom denom
      rw [hamount] at hsave
      rw [hkeeps]
      by_cases hremote : denom = config.remoteDenom
      · rw [if_pos hremote, if_pos hremote] at hsave
        rw [if_pos hremote]
        show feesOf (s.collectedFees.save config.remoteDenom item) denom = _
        omega
      · rw [if_neg hremote, if_neg hremote] at hsave
        rw [if_neg hremote]
        exact hsave
    · have hzero : fee = 0 := by omega
      exact hsame (by rw [hkeeps, hzero]) (Except.ok.inj h).symm

/-! ## The tick that delegates -/

/-- One of the messages delegates. -/
def Delegates (msgs : List CoreMsg) : Prop :=
  ∃ contract items timeout replyTo funds,
    .puppeteer contract (.delegate items timeout replyTo) funds ∈ msgs

/-- Everything a tick does that delegates: of the reported balance of the interchain account it
takes the fee, asks the strategy to divide the rest, delegates what the strategy has answered, and
collects the fee. -/
structure Stakes (config : Config) (q : Querier) (env : Env) (info : MessageInfo)
    (fees fees' : StorageMap String FeeItem) (msgs : List CoreMsg) (balances : BalancesResponse)
    (fee : ℕ) (toDelegate : List IdealDelegation) : Prop where
  known : q.balances = .ok balances
  minimum : config.minStakeAmount ≤ icaBalance balances config.remoteDenom
  fee_eq : fee = icaBalance balances config.remoteDenom *
    (config.fee.getD Decimal.zero).atomics / Decimal.fractional
  fee_le : fee ≤ icaBalance balances config.remoteDenom
  asked : q.calcDeposit (icaBalance balances config.remoteDenom - fee) = .ok toDelegate
  collected : ∃ s s' : Storage, s.collectedFees = fees ∧ s'.collectedFees = fees' ∧
    collectFee s config fee = .ok s'
  msgs_eq : msgs = [.puppeteer config.puppeteerContract
    (.delegate (toDelegate.map fun d => (d.valoperAddress, d.stakeChange))
      (some config.puppeteerTimeout) env.contractAddress) info.funds]

section Stake

variable {s s' : Storage} {q : Querier} {env : Env} {info : MessageInfo} {config : Config}
  {msgs : List CoreMsg} {fees fees' : StorageMap String FeeItem}

/-- A call that does not delegate and leaves the collected fees alone, or delegates. -/
def KeepsFees (config : Config) (q : Querier) (env : Env) (info : MessageInfo)
    (fees fees' : StorageMap String FeeItem) (msgs : List CoreMsg) : Prop :=
  fees' = fees ∧ ¬ Delegates msgs ∨
    ∃ balances fee toDelegate,
      Stakes config q env info fees fees' msgs balances fee toDelegate

/-- No messages do not delegate. -/
theorem not_delegates_nil : ¬ Delegates [] := by
  rintro ⟨contract, items, timeout, replyTo, funds, hmem⟩
  exact List.not_mem_nil hmem

/-- A message that is asked for delegates in this way. -/
theorem getStakeMsg_stakes {m : CoreMsg} (h : getStakeMsg s q env config info = .ok (s', some m)) :
    ∃ balances fee toDelegate, Stakes config q env info s.collectedFees s'.collectedFees [m]
      balances fee toDelegate := by
  simp only [getStakeMsg, bind_eq_ok] at h
  obtain ⟨⟨n, height, time⟩, hbal, h⟩ := h
  obtain ⟨balances, hbalances, rfl, rfl, rfl⟩ := getIcaBalanceByDenom_eq_ok.1 hbal
  split_ifs at h with hmin
  · cases h
  · simp only [bind_eq_ok, ask_eq_ok, Decimal.mulUint_eq_ok, checkedSub_eq_ok, pure_eq_ok,
      Except.ok.injEq, Prod.mk.injEq, Option.some.injEq] at h
    obtain ⟨-, -, fee, ⟨hfee, -⟩, deposit, hdeposit, toDelegate, hasked, t, hcollect, rfl, rfl⟩ :=
      h
    refine ⟨balances, fee, toDelegate, hbalances, not_lt.1 hmin, hfee.symm, by omega, ?_,
      ⟨s, t, rfl, rfl, hcollect⟩, rfl⟩
    rw [← hasked, ← hdeposit, Nat.add_sub_cancel_left]

/-- The end of the cascade does not delegate. -/
theorem unbondOrIdle_keepsFees (h : unbondOrIdle s q env info config = .ok (s', msgs)) :
    s'.collectedFees = s.collectedFees ∧ ¬ Delegates msgs := by
  simp only [unbondOrIdle, bind_eq_ok] at h
  obtain ⟨⟨s₁, m⟩, hmsg, h⟩ := h
  obtain ⟨batch, hbatch, ⟨-, rfl, rfl⟩ | ⟨-, balances, und, -, -, rfl, rfl⟩⟩ :=
    getUnbondingMsg_ok hmsg
  · simp only [bind_eq_ok, Storage.goTo_eq_ok, pure_eq_ok, Except.ok.injEq, Prod.mk.injEq] at h
    obtain ⟨_, ⟨-, rfl⟩, rfl, rfl⟩ := h
    exact ⟨rfl, not_delegates_nil⟩
  · simp only [bind_eq_ok, Storage.goTo_eq_ok, pure_eq_ok, Except.ok.injEq, Prod.mk.injEq] at h
    obtain ⟨_, ⟨-, rfl⟩, rfl, rfl⟩ := h
    refine ⟨rfl, ?_⟩
    rintro ⟨_, _, _, _, _, hmem⟩
    simp at hmem

/-- A call that does not delegate and leaves the collected fees alone, or emits what `get_stake_msg`
gives for the same fees and the same height of the last change. -/
def AsksToStake (config : Config) (q : Querier) (env : Env) (info : MessageInfo) (s s' : Storage)
    (msgs : List CoreMsg) : Prop :=
  s'.collectedFees = s.collectedFees ∧ ¬ Delegates msgs ∨
    ∃ t t' m, t.collectedFees = s.collectedFees ∧
      t.lastIcaBalanceChangeHeight = s.lastIcaBalanceChangeHeight ∧
      getStakeMsg t q env config info = .ok (t', some m) ∧
      s'.collectedFees = t'.collectedFees ∧ msgs = [m]

/-- The cascade without the transfer. -/
theorem stakeOrUnbond_asksToStake (h : stakeOrUnbond s q env info config = .ok (s', msgs)) :
    AsksToStake config q env info s s' msgs := by
  simp only [stakeOrUnbond, bind_eq_ok] at h
  obtain ⟨⟨s₁, m⟩, hmsg, h⟩ := h
  cases m with
  | none =>
    obtain ⟨balances, -, ⟨-, rfl, -⟩ | ⟨-, -, items, hm⟩⟩ := getStakeMsg_ok hmsg
    · exact .inl (unbondOrIdle_keepsFees h)
    · cases hm
  | some m =>
    simp only [bind_eq_ok, Storage.goTo_eq_ok, pure_eq_ok, Except.ok.injEq, Prod.mk.injEq] at h
    obtain ⟨_, ⟨-, rfl⟩, rfl, rfl⟩ := h
    exact .inr ⟨s, s₁, m, rfl, rfl, hmsg, rfl, rfl⟩

/-- The whole cascade. -/
theorem transferStakeOrUnbond_asksToStake
    (h : transferStakeOrUnbond s q env info config = .ok (s', msgs)) :
    AsksToStake config q env info s s' msgs := by
  unfold transferStakeOrUnbond getTransferPendingBalanceMsg at h
  by_cases hbalance : q.balance config.baseDenom = 0
  · simp only [hbalance, ↓reduceIte] at h
    exact stakeOrUnbond_asksToStake h
  · simp only [hbalance, ↓reduceIte, bind_eq_ok, Storage.goTo_eq_ok, pure_eq_ok,
      Except.ok.injEq, Prod.mk.injEq] at h
    obtain ⟨_, ⟨-, rfl⟩, rfl, rfl⟩ := h
    refine .inl ⟨rfl, ?_⟩
    rintro ⟨_, _, _, _, _, hmem⟩
    simp at hmem

/-- A tick within the interval does not delegate. -/
theorem getIdleIntervalMsg_not_delegates {m : CoreMsg}
    (h : getIdleIntervalMsg s q env info s.config = .ok m) : ¬ Delegates [m] := by
  rintro ⟨contract, items, timeout, replyTo, funds, hmem⟩
  have hcase := getIdleIntervalMsg_ok h
  rw [List.mem_singleton] at hmem
  rw [← hmem] at hcase
  cases hcase

/-- **A tick delegates what `get_stake_msg` gives, or leaves the collected fees alone.** The cases
are the states in which it takes place. -/
theorem executeTick_asksToStake (h : executeTick s q env info = .ok (s', msgs)) :
    AsksToStake s.config q env info s s' msgs := by
  have hcase := (executeTick_ok h).2
  rw [executeTick_of_running (executeTick_ok h).1] at h
  cases hstate : s.fsmState with
  | idle =>
    simp only [hstate, executeTickIdle, bind_eq_ok] at h
    obtain ⟨s₁, hcache, elapsed, -, h⟩ := h
    obtain ⟨rate, -, rfl⟩ := cacheExchangeRate_ok hcache
    split_ifs at h
    · simp only [bind_eq_ok, pure_eq_ok, Except.ok.injEq, Prod.mk.injEq] at h
      obtain ⟨m, hm, rfl, rfl⟩ := h
      exact .inl ⟨rfl, getIdleIntervalMsg_not_delegates hm⟩
    · simp only [executeTickIdleLong, bind_eq_ok, Storage.goTo_eq_ok, pure_eq_ok, Except.ok.injEq,
        Prod.mk.injEq] at h
      obtain ⟨-, -, -, -, pump, -, ⟨balance, height, time⟩, -, ⟨t, transfer⟩, hmark, members, -,
        delegations, -, _, ⟨-, rfl⟩, ⟨u, ms⟩, hend, rfl, rfl⟩ := h
      obtain ⟨f, emergency, -, rfl, -⟩ := markReadyBatches_ok hmark
      unfold claimOrCascade at hend
      split_ifs at hend
      · have hasks := transferStakeOrUnbond_asksToStake hend
        exact hasks
      · obtain ⟨rfl, rfl⟩ := Prod.mk.inj (Except.ok.inj hend)
        refine .inl ⟨rfl, ?_⟩
        rintro ⟨_, _, _, _, _, hmem⟩
        simp at hmem
  | claiming =>
    simp only [hstate, executeTickClaiming, bind_eq_ok] at h
    obtain ⟨r, -, t, hprocess, h⟩ := h
    obtain ⟨batches, emergency, rfl, -⟩ := processClaimResponse_ok hprocess
    have hasks := transferStakeOrUnbond_asksToStake h
    exact hasks
  | transfering =>
    simp only [hstate, executeTickTransfering, bind_eq_ok] at h
    obtain ⟨r, -, h⟩ := h
    have hasks := stakeOrUnbond_asksToStake h
    exact hasks
  | staking =>
    simp only [hstate, executeTickStaking, bind_eq_ok] at h
    obtain ⟨r, -, -, -, h⟩ := h
    have hkept := unbondOrIdle_keepsFees h
    exact .inl hkept
  | unbonding =>
    obtain ⟨-, -, -, hfees, rfl, -⟩ := hcase.of_unbonding hstate
    exact .inl ⟨hfees, not_delegates_nil⟩

/-- **A tick delegates and collects the fee, or leaves the collected fees alone.** -/
theorem executeTick_stakes (h : executeTick s q env info = .ok (s', msgs)) :
    KeepsFees s.config q env info s.collectedFees s'.collectedFees msgs := by
  rcases executeTick_asksToStake h with hkept | ⟨t, t', m, hfees, -, hmsg, hfees', rfl⟩
  · exact .inl hkept
  · have hstakes := getStakeMsg_stakes hmsg
    rw [hfees, ← hfees'] at hstakes
    exact .inr hstakes

/-! ## The transfer -/

/-- A transfer of an idle tick within the interval carries the rewards and the collected fees. -/
theorem getIdleIntervalMsg_transfers {contract : String} {items : List (String × Coin)}
    {timeout : Option ℕ} {replyTo : String} {funds : List Coin}
    (h : getIdleIntervalMsg s q env info s.config =
      .ok (.puppeteer contract (.transfer items timeout replyTo) funds)) :
    ∃ receivers balances rewards, s.nonNativeRewardsConfig = some receivers ∧
      q.nonNativeRewardsBalances = .ok balances ∧
      allRewardItems balances.1 receivers = .ok rewards ∧ items = rewards ++ s.feeItems := by
  simp only [getIdleIntervalMsg, bind_eq_ok] at h
  obtain ⟨transferMsg, htransfer, h⟩ := h
  cases transferMsg with
  | none =>
    simp only [bind_eq_ok] at h
    obtain ⟨redeemMsg, hredeem, h⟩ := h
    obtain rfl | rfl := getPendingRedeemMsg_ok hredeem
    · simp only [orError_eq_ok] at h
      obtain ⟨denom, remote, amount, -, hmsg⟩ := getPendingLsmShareMsg_ok h
      cases hmsg
    · cases h
  | some m =>
    rw [Except.ok.inj h] at htransfer
    simp only [getNonNativeRewardsAndFeeTransferMsg, bind_eq_ok, orError_eq_ok,
      ask_eq_ok] at htransfer
    obtain ⟨receivers, hreceivers, balances, hbalances, rewards, hrewards, htransfer⟩ := htransfer
    split_ifs at htransfer
    · cases htransfer
    · simp only [pure_eq_ok, Except.ok.injEq, Option.some.injEq, CoreMsg.puppeteer.injEq,
        PuppeteerExecuteMsg.transfer.injEq] at htransfer
      obtain ⟨-, ⟨rfl, -⟩, -⟩ := htransfer
      exact ⟨receivers, balances, rewards, hreceivers, hbalances, hrewards, rfl⟩

/-- **A transfer carries the rewards and the collected fees**, in this order. -/
theorem executeTick_transfers {contract : String} {items : List (String × Coin)}
    {timeout : Option ℕ} {replyTo : String} {funds : List Coin}
    (h : executeTick s q env info =
      .ok (s', [.puppeteer contract (.transfer items timeout replyTo) funds])) :
    ∃ receivers balances rewards, s.nonNativeRewardsConfig = some receivers ∧
      q.nonNativeRewardsBalances = .ok balances ∧
      allRewardItems balances.1 receivers = .ok rewards ∧ items = rewards ++ s.feeItems := by
  obtain ⟨hidle, hearly⟩ : s.fsmState = .idle ∧
      env.time.seconds < s.lastIdleCall + s.config.idleMinInterval := by
    cases (executeTick_ok h).2 with
    | idleInterval _ _ hidle hearly => exact ⟨hidle, hearly⟩
    | idleCascade _ _ _ _ _ _ _ _ hcascade => cases hcascade
    | claiming _ _ _ _ _ _ _ _ hcascade => cases hcascade
    | transfering _ _ _ _ _ hcascade => cases hcascade
    | staking _ _ _ _ _ _ hcascade => cases hcascade
  rw [executeTick_of_running (executeTick_ok h).1] at h
  simp only [hidle, executeTickIdle, bind_eq_ok, checkedSub_eq_ok] at h
  obtain ⟨s₁, hcache, elapsed, helapsed, h⟩ := h
  obtain ⟨rate, -, rfl⟩ := cacheExchangeRate_ok hcache
  simp only at helapsed
  rw [if_pos (by omega)] at h
  simp only [bind_eq_ok, pure_eq_ok, Except.ok.injEq, Prod.mk.injEq] at h
  obtain ⟨m, hm, -, hmsg⟩ := h
  injection hmsg with hmsg
  rw [hmsg] at hm
  have hitems := getIdleIntervalMsg_transfers hm
  exact hitems

/-! ## The other calls -/

/-- **The hook leaves the collected fees alone**, whatever the outcome. -/
theorem hook_fees {msg : ResponseHookMsg} (h : executePuppeteerHook s env info msg = .ok s') :
    s'.collectedFees = s.collectedFees := by
  obtain ⟨_, _, _, _, rfl⟩ := executePuppeteerHook_changes h
  rfl

/-- A bond leaves the collected fees alone. -/
theorem executeBond_fees {receiver : Option String}
    (h : executeBond s q info receiver = .ok (s', msgs)) :
    s'.collectedFees = s.collectedFees := by
  obtain ⟨coin, denomType, -, -, -, -, -, -, hrecord, -, -⟩ := executeBond_ok h
  cases hrecord <;> rfl

end Stake

end Core

end DropContracts
