import DropContracts.Core.ExchangeRate
import DropContracts.Core.Tick

set_option relaxedAutoImplicit false
set_option autoImplicit false

/-!
# When an idle tick moves LSM shares on

Within the interval an idle tick sends one of three messages: a transfer of rewards and fees, a
redemption of the shares that wait for it, or a transfer of a pending share. The redemption waits
until the shares are many enough and old enough, and the first message is asked for before the
others, with errors of its own.

## Main definitions

* `Core.RedeemDue` — enough shares wait for their redemption, or they have waited long enough.
* `Core.EmitsRedeem`, `Core.EmitsShareTransfer` — what a tick sends.
* `Core.ReadyWithin` — what an idle tick within the interval needs before it gets to the shares.
* `Core.RedeemsInTime` — the redemption is not held back when it is due.

## Main results

* `Core.executeTick_within_eq_ok` — the tick, with no reward and no fee to transfer.
* `Core.lsm_shares_sent_iff` — when the tick moves on the shares that are due.
-/

namespace DropContracts

namespace Core

open Exec

/-! ## What is due and what is sent -/

/-- Shares wait for their redemption, and there are enough of them, or the interval since the last
redemption has passed. -/
def RedeemDue (s : Storage) (now : ℕ) : Prop :=
  s.lsmSharesToRedeem.entries ≠ [] ∧
    (s.config.lsmRedeemThreshold ≤ s.lsmSharesToRedeem.entries.length ∨
      s.lastLsmRedeem + s.config.lsmRedeemMaximumInterval ≤ now)

instance (s : Storage) (now : ℕ) : Decidable (RedeemDue s now) :=
  inferInstanceAs (Decidable (_ ∧ _))

/-- The tick sends a redemption that lists every share waiting for it. -/
def EmitsRedeem (s : Storage) (q : Querier) (env : Env) (info : MessageInfo) : Prop :=
  ∃ s', executeTick s q env info = .ok (s', [.puppeteer s.config.puppeteerContract
    (.redeemShares (s.lsmSharesToRedeem.entries.map fun e => ⟨e.2.2, e.2.1, e.1⟩)
      (some s.config.puppeteerTimeout) env.contractAddress) info.funds])

/-- The tick sends a pending share to the remote chain. -/
def EmitsShareTransfer (s : Storage) (q : Querier) (env : Env) (info : MessageInfo) : Prop :=
  ∃ s' denom remote amount, s.pendingLsmShares.load denom = some (remote, amount) ∧
    executeTick s q env info = .ok (s', [.puppeteer s.config.puppeteerContract
      (.ibcTransfer s.config.puppeteerTimeout .lsmShare env.contractAddress)
      (⟨denom, amount⟩ :: info.funds)])

/-- The amount of a reward, as the answer of the puppeteer is collected. -/
def rewardAmount (rewards : List Coin) (denom : String) : ℕ :=
  ((rewards.reverse.find? fun c => c.denom = denom).map Coin.amount).getD 0

/-- No reward exceeds the minimum of its receiver. -/
def RewardsBelow (s : Storage) (q : Querier) : Prop :=
  ∀ receivers balances, s.nonNativeRewardsConfig = some receivers →
    q.nonNativeRewardsBalances = .ok balances →
    ∀ item ∈ receivers, rewardAmount balances.1 item.denom ≤ item.minAmount

/-- What an idle tick within the interval needs before it gets to the shares: the contract is not
paused, the exchange rate can be computed, the receivers of rewards are configured, and the
puppeteer knows the rewards. -/
structure ReadyWithin (s : Storage) (q : Querier) : Prop where
  running : s.isPaused = false
  rate : ∃ ldDenom, s.config.ldDenom = some ldDenom ∧ (q.supply ldDenom ≠ 0 →
    RateFits (s.assets q) s.unbondedTotal 0 (q.supply ldDenom))
  receivers : s.nonNativeRewardsConfig.isSome
  rewards : ∃ balances, q.nonNativeRewardsBalances = .ok balances

/-- The redemption is not held back when it is due: there are enough shares, up to the width of the
count, and the interval has passed. The end of the interval is only computed once there are enough
shares, and has to fit then. -/
structure RedeemsInTime (s : Storage) (now : ℕ) : Prop where
  enough : RedeemDue s now →
    s.config.lsmRedeemThreshold % 2 ^ 32 ≤ s.lsmSharesToRedeem.entries.length
  passed : RedeemDue s now → s.lastLsmRedeem + s.config.lsmRedeemMaximumInterval ≤ now
  fits : s.lsmSharesToRedeem.entries ≠ [] →
    s.config.lsmRedeemThreshold % 2 ^ 32 ≤ s.lsmSharesToRedeem.entries.length →
    s.lastLsmRedeem + s.config.lsmRedeemMaximumInterval < U64.bound

section Within

variable {s s' : Storage} {q : Querier} {env : Env} {info : MessageInfo} {msgs : List CoreMsg}

/-! ## The three messages -/

/-- Receivers whose rewards are below their minima are sent nothing. -/
theorem allRewardItems_eq_nil {rewards : List Coin} {receivers : List NonNativeRewardsItem}
    (h : ∀ item ∈ receivers, rewardAmount rewards item.denom ≤ item.minAmount) :
    allRewardItems rewards receivers = .ok [] := by
  induction receivers with
  | nil => rfl
  | cons item rest ih =>
    have hitem : rewardItems rewards item = .ok [] :=
      if_neg (Nat.not_lt.2 (h item List.mem_cons_self))
    rw [allRewardItems, hitem, ok_bind, ih fun i hi => h i (List.mem_cons_of_mem _ hi)]
    rfl

/-- **With no reward and no fee to transfer** the first message is none, exactly when the receivers
are configured and the rewards are known. -/
theorem rewardTransfer_eq_ok {m : Option CoreMsg} (hrewards : RewardsBelow s q)
    (hfees : s.collectedFees.entries = []) :
    getNonNativeRewardsAndFeeTransferMsg s q info env = .ok m ↔
      m = none ∧ s.nonNativeRewardsConfig.isSome ∧
        ∃ balances, q.nonNativeRewardsBalances = .ok balances := by
  simp only [getNonNativeRewardsAndFeeTransferMsg, bind_eq_ok, orError_eq_ok, ask_eq_ok,
    Prod.exists, hfees, List.map_nil, List.append_nil, Option.isSome_iff_exists]
  constructor
  · rintro ⟨receivers, hreceivers, rewards, height, time, hbalances, items, hitems, h⟩
    rw [allRewardItems_eq_nil (hrewards _ _ hreceivers hbalances)] at hitems
    obtain rfl := Except.ok.inj hitems
    exact ⟨(Except.ok.inj h).symm, ⟨receivers, hreceivers⟩, rewards, height, time, hbalances⟩
  · rintro ⟨rfl, ⟨receivers, hreceivers⟩, rewards, height, time, hbalances⟩
    exact ⟨receivers, hreceivers, rewards, height, time, hbalances, [],
      allRewardItems_eq_nil (hrewards _ _ hreceivers hbalances), rfl⟩

/-- **When the redemption does not wait.** -/
theorem redeemHasToWait_eq_false :
    redeemHasToWait s s.config env = .ok false ↔ s.lsmSharesToRedeem.entries ≠ [] ∧
      s.config.lsmRedeemThreshold % 2 ^ 32 ≤ s.lsmSharesToRedeem.entries.length ∧
      s.lastLsmRedeem + s.config.lsmRedeemMaximumInterval < U64.bound ∧
      s.lastLsmRedeem + s.config.lsmRedeemMaximumInterval ≤ env.time.seconds := by
  rw [redeemHasToWait, ← List.length_pos_iff]
  split_ifs with hcount
  · simp only [Except.ok.injEq, Bool.true_eq_false, false_iff]
    omega
  · simp only [bind_eq_ok, checkedAdd_eq_ok, pure_eq_ok, Except.ok.injEq, decide_eq_false_iff_not]
    constructor
    · rintro ⟨_, ⟨rfl, hfits⟩, hpassed⟩
      omega
    · rintro ⟨-, -, hfits, hpassed⟩
      exact ⟨_, ⟨rfl, hfits⟩, by omega⟩

/-- **When the redemption waits.** -/
theorem redeemHasToWait_eq_true :
    redeemHasToWait s s.config env = .ok true ↔ s.lsmSharesToRedeem.entries = [] ∨
      s.lsmSharesToRedeem.entries.length < s.config.lsmRedeemThreshold % 2 ^ 32 ∨
      s.lastLsmRedeem + s.config.lsmRedeemMaximumInterval < U64.bound ∧
      env.time.seconds < s.lastLsmRedeem + s.config.lsmRedeemMaximumInterval := by
  rw [redeemHasToWait, ← List.length_eq_zero_iff]
  split_ifs with hcount
  · simp only [true_iff]
    omega
  · simp only [bind_eq_ok, checkedAdd_eq_ok, pure_eq_ok, Except.ok.injEq, decide_eq_true_eq]
    constructor
    · rintro ⟨_, ⟨rfl, hfits⟩, hwaits⟩
      omega
    · intro h
      exact ⟨_, ⟨rfl, by omega⟩, by omega⟩

/-- A pending share is sent exactly when there is one. -/
theorem getPendingLsmShareMsg_isSome (config : Config) (env : Env) (funds : List Coin) :
    (∃ m, getPendingLsmShareMsg s config env funds = some m) ↔ s.pendingLsmShares.entries ≠ [] := by
  unfold getPendingLsmShareMsg StorageMap.first
  cases s.pendingLsmShares.entries with
  | nil => simp
  | cons e rest => simp

/-! ## The tick -/

/-- The message that a tick sends for the shares: the redemption, unless it waits, and then a
pending share. -/
def SharesMessage (s : Storage) (env : Env) (info : MessageInfo) (m : CoreMsg) : Prop :=
  redeemHasToWait s s.config env = .ok false ∧
    m = .puppeteer s.config.puppeteerContract
      (.redeemShares (redeemItems s.lsmSharesToRedeem) (some s.config.puppeteerTimeout)
        env.contractAddress) info.funds ∨
  redeemHasToWait s s.config env = .ok true ∧
    getPendingLsmShareMsg s s.config env info.funds = some m

/-- The message of a tick within the interval, with no reward and no fee to transfer. -/
theorem getIdleIntervalMsg_eq_ok {m : CoreMsg} (hrewards : RewardsBelow s q)
    (hfees : s.collectedFees.entries = []) :
    getIdleIntervalMsg s q env info s.config = .ok m ↔
      (s.nonNativeRewardsConfig.isSome ∧ ∃ balances, q.nonNativeRewardsBalances = .ok balances) ∧
        SharesMessage s env info m := by
  rw [getIdleIntervalMsg, bind_eq_ok]
  simp only [rewardTransfer_eq_ok hrewards hfees, SharesMessage]
  constructor
  · rintro ⟨_, ⟨rfl, hready⟩, h⟩
    refine ⟨hready, ?_⟩
    simp only [bind_eq_ok, getPendingRedeemMsg] at h
    obtain ⟨redeemMsg, ⟨wait, hwait, hredeem⟩, h⟩ := h
    cases wait with
    | true =>
      obtain rfl := Except.ok.inj hredeem
      exact .inr ⟨hwait, orError_eq_ok.1 h⟩
    | false =>
      obtain rfl := Except.ok.inj hredeem
      exact .inl ⟨hwait, (Except.ok.inj h).symm⟩
  · rintro ⟨hready, hshares⟩
    refine ⟨none, ⟨rfl, hready⟩, ?_⟩
    simp only [bind_eq_ok, getPendingRedeemMsg]
    rcases hshares with ⟨hwait, rfl⟩ | ⟨hwait, hpending⟩
    · exact ⟨_, ⟨false, hwait, rfl⟩, rfl⟩
    · exact ⟨none, ⟨true, hwait, rfl⟩, orError_eq_ok.2 hpending⟩

/-- The rate can be computed exactly when everything along the way fits. -/
theorem queryExchangeRate_returns_iff (h : BatchesInv s) (hidle : s.fsmState = .idle)
    {response : DelegationsResponse} (hdelegations : q.delegations = .ok response) :
    (∃ rate, queryExchangeRate s q none = .ok rate) ↔
      ∃ ldDenom, s.config.ldDenom = some ldDenom ∧ (q.supply ldDenom ≠ 0 →
        RateFits (s.assets q) s.unbondedTotal 0 (q.supply ldDenom)) := by
  cases hld : s.config.ldDenom with
  | none =>
    refine iff_of_false ?_ (by simp)
    rintro ⟨rate, hrate⟩
    simp [queryExchangeRate, hidle, hld, orError] at hrate
  | some ldDenom =>
    simp only [Option.some.injEq, exists_eq_left']
    by_cases hsupply : q.supply ldDenom = 0
    · refine iff_of_true ⟨Decimal.one, ?_⟩ fun hne => absurd hsupply hne
      rw [queryExchangeRate_of_idle hidle hld, if_pos hsupply]
    · constructor
      · rintro ⟨rate, hrate⟩ -
        exact ((queryExchangeRate_eq_ok h hidle hdelegations hld hsupply rfl).1 hrate).1
      · intro hfits
        exact ⟨_, queryExchangeRate_of_fits h hidle hdelegations hld hsupply none rfl
          (hfits hsupply)⟩

variable (hbatches : BatchesInv s) (hidle : s.fsmState = .idle)
  (hdelegations : ∃ response, q.delegations = .ok response)
  (hsince : s.lastIdleCall ≤ env.time.seconds)
  (hwithin : env.time.seconds < s.lastIdleCall + s.config.idleMinInterval)
  (hrewards : RewardsBelow s q) (hfees : s.collectedFees.entries = [])

include hbatches hidle hdelegations hsince hwithin hrewards hfees

/-- **The tick**, with no reward and no fee to transfer, sends exactly the message for the shares,
once it gets there. -/
theorem executeTick_within_eq_ok {m : CoreMsg} :
    (∃ s', executeTick s q env info = .ok (s', [m])) ↔
      ReadyWithin s q ∧ SharesMessage s env info m := by
  obtain ⟨response, hdelegations⟩ := hdelegations
  have hrate := queryExchangeRate_returns_iff hbatches hidle hdelegations
  have hmessage : ∀ rate, getIdleIntervalMsg { s with exchangeRate := some rate } q env info
      s.config = .ok m ↔ _ := fun rate =>
    getIdleIntervalMsg_eq_ok (s := { s with exchangeRate := some rate }) hrewards hfees
  simp only [executeTick, hidle, executeTickIdle, bind_eq_ok, ensure_eq_ok, checkedSub_eq_ok]
  constructor
  · rintro ⟨s', -, hrunning, t, ht, elapsed, helapsed, h⟩
    obtain ⟨rate, hquery, rfl⟩ := cacheExchangeRate_ok ht
    have hshort : elapsed < s.config.idleMinInterval := by
      change s.lastIdleCall + elapsed = env.time.seconds at helapsed
      omega
    rw [if_pos hshort] at h
    simp only [bind_eq_ok, pure_eq_ok, Except.ok.injEq, Prod.mk.injEq, List.cons.injEq,
      and_true] at h
    obtain ⟨m', hm, -, rfl⟩ := h
    obtain ⟨⟨hreceivers, hknown⟩, hshares⟩ := (hmessage _).1 hm
    exact ⟨⟨hrunning, hrate.1 ⟨rate, hquery⟩, hreceivers, hknown⟩, hshares⟩
  · rintro ⟨⟨hrunning, hfits, hreceivers, hknown⟩, hshares⟩
    obtain ⟨rate, hquery⟩ := hrate.2 hfits
    have hcache : cacheExchangeRate s q env none =
        .ok { s with exchangeRate := some (rate, env.height) } := by
      rw [cacheExchangeRate, hquery]
      rfl
    refine ⟨{ s with exchangeRate := some (rate, env.height) }, (), hrunning, _, hcache,
      env.time.seconds - s.lastIdleCall, ?_, ?_⟩
    · show s.lastIdleCall + (env.time.seconds - s.lastIdleCall) = env.time.seconds
      omega
    · have hshort : env.time.seconds - s.lastIdleCall < s.config.idleMinInterval := by omega
      rw [if_pos hshort, (hmessage _).2 ⟨⟨hreceivers, hknown⟩, hshares⟩]
      rfl

/-- A redemption is sent exactly when the tick gets to the shares and it does not wait. -/
theorem emitsRedeem_iff :
    EmitsRedeem s q env info ↔ ReadyWithin s q ∧ redeemHasToWait s s.config env = .ok false := by
  refine (executeTick_within_eq_ok hbatches hidle hdelegations hsince hwithin hrewards hfees).trans
    (and_congr_right fun _ => ?_)
  constructor
  · rintro (⟨hwait, -⟩ | ⟨-, hpending⟩)
    · exact hwait
    · obtain ⟨denom, remote, amount, -, hm⟩ := getPendingLsmShareMsg_ok hpending
      cases hm
  · intro hwait
    exact .inl ⟨hwait, rfl⟩

/-- A pending share is sent exactly when the tick gets to the shares, the redemption waits, and
there is a pending share. -/
theorem emitsShareTransfer_iff :
    EmitsShareTransfer s q env info ↔ ReadyWithin s q ∧
      redeemHasToWait s s.config env = .ok true ∧ s.pendingLsmShares.entries ≠ [] := by
  have htick : ∀ m, (∃ s', executeTick s q env info = .ok (s', [m])) ↔
      ReadyWithin s q ∧ SharesMessage s env info m :=
    fun m => executeTick_within_eq_ok hbatches hidle hdelegations hsince hwithin hrewards hfees
  constructor
  · rintro ⟨s', denom, remote, amount, hload, h⟩
    obtain ⟨hready, ⟨-, hm⟩ | ⟨hwait, hpending⟩⟩ := (htick _).1 ⟨s', h⟩
    · cases hm
    · exact ⟨hready, hwait, (getPendingLsmShareMsg_isSome _ _ _).1 ⟨_, hpending⟩⟩
  · rintro ⟨hready, hwait, hne⟩
    obtain ⟨m, hpending⟩ := (getPendingLsmShareMsg_isSome s.config env info.funds).2 hne
    obtain ⟨s', h⟩ := (htick m).2 ⟨hready, .inr ⟨hwait, hpending⟩⟩
    obtain ⟨denom, remote, amount, hload, rfl⟩ := getPendingLsmShareMsg_ok hpending
    exact ⟨s', denom, remote, amount, hload, h⟩

/-- **When the tick moves on the shares that are due**: a redemption when it is due, and a pending
share otherwise. Where there is something to send, this takes exactly that the tick gets to the
shares and that no redemption is held back. -/
theorem lsm_shares_sent_iff :
    ((RedeemDue s env.time.seconds → EmitsRedeem s q env info) ∧
      (¬ RedeemDue s env.time.seconds → s.pendingLsmShares.entries ≠ [] →
        EmitsShareTransfer s q env info)) ↔
      (RedeemDue s env.time.seconds ∨ s.pendingLsmShares.entries ≠ [] →
        ReadyWithin s q ∧ RedeemsInTime s env.time.seconds) := by
  rw [emitsRedeem_iff hbatches hidle hdelegations hsince hwithin hrewards hfees,
    emitsShareTransfer_iff hbatches hidle hdelegations hsince hwithin hrewards hfees,
    redeemHasToWait_eq_false, redeemHasToWait_eq_true]
  by_cases hdue : RedeemDue s env.time.seconds
  · have hsome : s.lsmSharesToRedeem.entries ≠ [] := hdue.1
    simp only [hdue, true_imp_iff, not_true, false_imp_iff, and_true, true_or]
    constructor
    · rintro ⟨hready, -, henough, hfits, hpassed⟩
      exact ⟨hready, fun _ => henough, fun _ => hpassed, fun _ _ => hfits⟩
    · rintro ⟨hready, henough, hpassed, hfits⟩
      exact ⟨hready, hsome, henough hdue, hfits hsome (henough hdue), hpassed hdue⟩
  · simp only [hdue, false_imp_iff, true_and, not_false_eq_true, true_imp_iff, false_or]
    refine forall_congr' fun hpending => and_congr_right fun _ => ?_
    constructor
    · rintro ⟨hwait, -⟩
      refine ⟨fun h => absurd h hdue, fun h => absurd h hdue, fun hsome henough => ?_⟩
      rcases hwait with hnil | hfew | ⟨hfits, -⟩
      · exact absurd hnil hsome
      · omega
      · exact hfits
    · rintro ⟨-, -, hfits⟩
      refine ⟨?_, hpending⟩
      by_cases hsome : s.lsmSharesToRedeem.entries = []
      · exact .inl hsome
      · by_cases henough : s.config.lsmRedeemThreshold % 2 ^ 32 ≤
            s.lsmSharesToRedeem.entries.length
        · have hwaits : ¬ s.lastLsmRedeem + s.config.lsmRedeemMaximumInterval ≤
              env.time.seconds := fun hpassed => hdue ⟨hsome, .inr hpassed⟩
          exact .inr (.inr ⟨hfits hsome henough, Nat.lt_of_not_le hwaits⟩)
        · exact .inr (.inl (Nat.lt_of_not_le henough))

end Within

end Core

end DropContracts
