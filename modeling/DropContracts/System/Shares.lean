import DropContracts.System.Callback
import DropContracts.System.Denominations
import DropContracts.System.Spending

set_option relaxedAutoImplicit false
set_option autoImplicit false

/-!
# The LSM shares of core

Every bonded LSM share is counted until it has been redeemed, so `TOTAL_LSM_SHARES` is the sum over
the shares that are pending and those that wait for redemption. The pending shares are also held by
core, as long as the transfers arrive and are accounted for: the tokens of a transfer that fails go
back to the puppeteer, who sent the packet, while their entry stays pending in core, and so does
the entry of a transfer whose success the hook cannot account for.

## Main definitions

* `System.World.sharesInFlight` — the shares that packets carry.
* `System.SharesCovered` — a step that ends no transfer of shares without accounting for it, unless
  core covers the shares anyway.

## Main results

* `System.lsm_conserved` — the conservation of the shares, and when the hook aborts.
* `System.lsm_underflow` — it does abort.
* `System.BackedInv.step`, `System.pending_backed` — core holds what is pending while the transfers
  are accounted for.
* `System.backed_after_failure_iff`, `System.pending_unbacked` — and not after one that is not.
-/

namespace DropContracts

namespace System

open Exec Sample

variable {d : Deployment} {w w' : World}

/-! ## Conservation -/

/-- **When the hook aborts**: when a transfer has arrived that carried more LSM shares than are
pending. A failure that the hook does not accept is an error of the state machine. -/
theorem hook_abort_iff (hwired : Wired d w.core.config) (hlsm : LsmFlowInv w) {p : Packet}
    (hp : p ∈ w.inFlight) (outcome : World.Outcome) :
    Core.executePuppeteerHook w.core (w.env d) ⟨d.puppeteer, []⟩ (p.outcomeMsg outcome) =
        .error .abort ↔ outcome = .response ∧ w.oversends p = true := by
  have hsender : (ensure (d.puppeteer = w.core.config.puppeteerContract) .unauthorized :
      Core.Result Unit) = .ok () := ensure_eq_ok.2 hwired.puppeteer.symm
  -- a failure moves the state machine or does nothing
  have herror : ∀ r, Core.processError w.core p.transaction = r →
      (r >>= fun s => .ok { s with lastPuppeteerResponse := some (p.outcomeMsg outcome) }) ≠
        (.error .abort : Core.Result Core.Storage) := by
    rintro _ rfl
    unfold Core.processError
    split_ifs
    · by_cases hmem : ⟨w.core.fsmState, .idle⟩ ∈ Core.TRANSITIONS
      · rw [Core.Storage.goTo_eq_ok.2 ⟨hmem, rfl⟩, ok_bind]
        simp
      · rw [Core.Storage.goTo_of_not_mem hmem, error_bind]
        simp [Core.Storage.notAllowed]
    · simp
  simp only [Core.executePuppeteerHook, hsender, ok_bind]
  cases outcome with
  | error details => exact iff_of_false (herror _ rfl) (by simp)
  | timeout => exact iff_of_false (herror _ rfl) (by simp)
  | response =>
    have hsame : Core.SameLsm w.core
        { w.core with lastIcaBalanceChangeHeight := w.height } := ⟨rfl, rfl, rfl⟩
    cases hover : w.oversends p with
    | false =>
      obtain ⟨t, ht, -⟩ := hlsm.success_ok hp hover hsame (w.env d)
      have hprocess : Core.processOutcome w.core (w.env d) (p.outcomeMsg .response) = .ok t := ht
      simp [hprocess]
    | true =>
      have hprocess : Core.processOutcome w.core (w.env d) (p.outcomeMsg .response) =
          .error .abort := hlsm.success_abort hp hover hsame (w.env d)
      simp [hprocess]

/-- **LSM shares are conserved.** The total is the sum over the pending shares and those that wait
for redemption, a redemption in flight lists at most the total, and the subtractions of the hook
underflow for no outcome but the success of a transfer that carried more than is pending.

**Proof sketch.** The equation is part of the invariant of the LSM flow: a bond adds to the pending
shares and the total, the success of a transfer moves an amount that is pending or aborts, and the
success of a redemption forgets all shares that waited for it. -/
theorem lsm_conserved (h : Reachable d w) :
    w.core.totalLsmShares =
        (w.core.pendingLsmShares.entries.map fun e => e.2.2).sum +
          (w.core.lsmSharesToRedeem.entries.map fun e => e.2.2).sum ∧
      ∀ p ∈ w.inFlight,
        (∀ account items, p.transaction = .redeemShares account items →
          (items.map RedeemShareItem.amount).sum ≤ w.core.totalLsmShares) ∧
        ∀ outcome, Core.executePuppeteerHook w.core (w.env d) ⟨d.puppeteer, []⟩
            (p.outcomeMsg outcome) ≠ .error .abort ↔
          ¬ (outcome = .response ∧ w.oversends p = true) := by
  have hlsm := lsmFlowInv_of_reachable h
  have hwired := (flowInv_of_reachable h).wired
  refine ⟨hlsm.lsm.total, fun p hp => ⟨?_, fun outcome => ?_⟩⟩
  · intro account items htx
    have htotal := hlsm.lsm.total
    rw [hlsm.redeeming p hp account items htx, Core.sum_redeemItems]
    omega
  · exact not_congr (hook_abort_iff hwired hlsm hp outcome)

/-- A run in which a transfer of shares has arrived while more of them were bonded. -/
def sharesSent : List Action :=
  setup ++ [.nonNativeRewardsBalances [], bondShares "transfer/channel-0" 1000, tick, tick,
    bondShares "transfer/channel-0" 500, .deliver 1 .response]

/-- Of 1500 bonded shares, 500 are pending and 1000 wait for redemption. -/
theorem lsm_conserved_sample : ∃ w : World, Reachable deployment w ∧
    w.core.totalLsmShares = 1500 ∧ w.core.pendingAmount "ibc/share" = 500 ∧
      (w.core.lsmSharesToRedeem.entries.map fun e => e.2.2).sum = 1000 := by
  have hrun : (initialShares.runAll deployment sharesSent).any
      (fun w => decide ((w.core.pendingLsmShares.entries.map fun e => e.2.2).sum = 500 ∧
        w.core.pendingAmount "ibc/share" = 500 ∧
        (w.core.lsmSharesToRedeem.entries.map fun e => e.2.2).sum = 1000)) = true := by
    decide
  obtain ⟨w, hw, hcheck⟩ := (Option.any_eq_true _ _).1 hrun
  obtain ⟨hpending, hamount, hredeem⟩ := of_decide_eq_true hcheck
  have hreachable := reachable_of_runAll initialShares_spec hw
  have htotal := (lsm_conserved hreachable).1
  rw [hpending, hredeem] at htotal
  exact ⟨w, hreachable, htotal, hamount, hredeem⟩

/-- A tick that carries shares of the denomination it transfers. -/
def tickAttaching (amount : ℕ) : Action :=
  .execute (answers members) "alice" [⟨"ibc/share", amount⟩] .tick

/-- A run that leaves a transfer of 1001 shares in flight, of which 1000 are pending. -/
def sharesOversent : List Action :=
  setup ++ [.nonNativeRewardsBalances [], bondShares "transfer/channel-0" 1000, tick,
    tickAttaching 1]

/-- **The hook can underflow.** Of 1000 bonded shares a tick that carries one more sends 1001, and
the hook cannot take them from the 1000 that are pending. -/
theorem lsm_underflow : ¬ ∀ (d : Deployment) (w : World), Reachable d w → ∀ p ∈ w.inFlight,
    ∀ outcome, Core.executePuppeteerHook w.core (w.env d) ⟨d.puppeteer, []⟩
      (p.outcomeMsg outcome) ≠ .error .abort := by
  intro hall
  have hrun : (initialShares.runAll deployment sharesOversent).any
      (fun w => w.inFlight.any w.oversends) = true := by
    decide
  obtain ⟨w, hw, hcheck⟩ := (Option.any_eq_true _ _).1 hrun
  obtain ⟨p, hp, hover⟩ := List.any_eq_true.1 hcheck
  have hreachable := reachable_of_runAll initialShares_spec hw
  have habort := (hook_abort_iff (flowInv_of_reachable hreachable).wired
    (lsmFlowInv_of_reachable hreachable) hp .response).2 ⟨rfl, hover⟩
  exact hall deployment w hreachable p hp .response habort

/-! ## Backing -/

/-- The LSM shares of one denomination that a transaction carries. -/
def Transaction.shares : Transaction → String → ℕ
  | .ibcTransfer denom' amount _ .lsmShare, denom => if denom' = denom then amount else 0
  | _, _ => 0

/-- The LSM shares of one denomination that packets in flight carry. -/
def World.sharesInFlight (w : World) (denom : String) : ℕ :=
  (w.inFlight.map fun p => Transaction.shares p.transaction denom).sum

/-- The pending shares are backed: core holds them, or packets carry them. The base denomination
is never pending. -/
structure BackedInv (d : Deployment) (w : World) : Prop where
  backed : ∀ denom, w.core.pendingAmount denom ≤
    w.bank.balance d.core denom + w.sharesInFlight denom
  notBase : w.core.pendingLsmShares.load d.baseDenom = none

/-- The step does not end a transfer of shares with a failure or with the success of more shares
than are pending, unless core holds enough other tokens of the denomination to cover what is
pending. -/
def SharesCovered (d : Deployment) (w : World) : Action → Prop
  | .deliver seq outcome =>
      ∀ p, w.inFlight.find? (fun p => p.seq = seq) = some p →
        ∀ denom amount recipient,
          p.transaction = .ibcTransfer denom amount recipient .lsmShare →
            outcome = .response ∧ amount ≤ w.core.pendingAmount denom ∨
              w.core.pendingAmount denom ≤ w.bank.balance d.core denom
  | _ => True

/-- Nothing is pending right after instantiation. -/
theorem backedInv_initial (h : Initial d w) : BackedInv d w := by
  obtain ⟨config, owner, hcore⟩ := h.core
  refine ⟨fun denom => ?_, ?_⟩
  · rw [hcore]
    exact Nat.zero_le _
  · rw [hcore]
    rfl

/-- The shares stay backed when the packets stay and core loses nothing. -/
theorem BackedInv.of_same (h : BackedInv d w) (hinFlight : w'.inFlight = w.inFlight)
    (hpending : w'.core.pendingLsmShares = w.core.pendingLsmShares)
    (hbalance : ∀ denom, w.bank.balance d.core denom ≤ w'.bank.balance d.core denom) :
    BackedInv d w' := by
  refine ⟨fun denom => ?_, by rw [hpending]; exact h.notBase⟩
  have hbacked := h.backed denom
  have hgrown := hbalance denom
  rw [Core.Storage.pendingAmount, hpending, World.sharesInFlight, hinFlight]
  exact hbacked.trans (Nat.add_le_add_right hgrown _)

/-- **A bond** keeps the shares backed: what is added to the pending shares has been paid. -/
theorem BackedInv.bond (h : BackedInv d w) {s : Core.Storage} {coin : Coin}
    {denomType : Core.DenomType} (hsame : Core.SameLsm w.core s)
    (hrecord : Core.BondRecord s coin denomType w'.core)
    (hbase : ∀ remoteDenom, denomType = .lsmShare remoteDenom → coin.denom ≠ d.baseDenom)
    (hbalance : ∀ denom, w.bank.balance d.core denom + coinsOf [coin] denom ≤
      w'.bank.balance d.core denom)
    (hinFlight : w'.inFlight = w.inFlight) : BackedInv d w' := by
  generalize hcore : w'.core = core at hrecord
  cases hrecord with
  | base =>
    refine h.of_same hinFlight (by rw [hcore]; exact hsame.pending) fun denom => ?_
    exact (Nat.le_add_right _ _).trans (hbalance denom)
  | lsmShare remoteDenom hfit =>
    refine ⟨fun denom => ?_, ?_⟩
    · have hbacked := h.backed denom
      have hpaid := hbalance denom
      rw [coinsOf_cons, coinsOf_nil] at hpaid
      have hpending : w'.core.pendingAmount denom =
          w.core.pendingAmount denom + if coin.denom = denom then coin.amount else 0 := by
        rw [hcore]
        simp only [Core.Storage.pendingAmount, StorageMap.load_save, hsame.pending]
        by_cases hdenom : denom = coin.denom
        · subst hdenom
          cases w.core.pendingLsmShares.load coin.denom <;> simp
        · simp only [hdenom, Ne.symm hdenom, ↓reduceIte, Nat.add_zero]
      rw [hpending, World.sharesInFlight, hinFlight]
      rw [World.sharesInFlight] at hbacked
      omega
    · rw [hcore]
      simp only [StorageMap.load_save, hsame.pending]
      rw [if_neg (Ne.symm (hbase remoteDenom rfl))]
      exact h.notBase

/-- What the message of a tick carries: what was attached to the tick, and what it transfers. -/
theorem tick_funds {s s' : Core.Storage} {q : Core.Querier} {env : Env} {info : MessageInfo}
    {contract : String} {msg : PuppeteerExecuteMsg} {funds : List Coin}
    (h : Core.TickCase s q env info s' [.puppeteer contract msg funds]) :
    funds = info.funds ∨
      (∃ timeout replyTo, msg = .ibcTransfer timeout .stake replyTo ∧
        funds = ⟨s.config.baseDenom, q.balance s.config.baseDenom⟩ :: info.funds) ∨
      ∃ timeout replyTo denom remote amount, msg = .ibcTransfer timeout .lsmShare replyTo ∧
        s.pendingLsmShares.load denom = some (remote, amount) ∧
        funds = ⟨denom, amount⟩ :: info.funds := by
  have hcascade : ∀ {t t' : Core.Storage},
      Core.CascadeCase t q env info s.config t' [.puppeteer contract msg funds] →
        funds = info.funds ∨
          ∃ timeout replyTo, msg = .ibcTransfer timeout .stake replyTo ∧
            funds = ⟨s.config.baseDenom, q.balance s.config.baseDenom⟩ :: info.funds := by
    intro t t' hc
    cases hc with
    | transfer => exact .inr ⟨_, _, rfl, rfl⟩
    | stake => exact .inl rfl
    | unbond => exact .inl rfl
  cases h with
  | idleInterval rate m hstate hinterval hmsg =>
    cases hmsg with
    | transfer => exact .inl rfl
    | redeem => exact .inl rfl
    | lsmShare denom remote amount hpending =>
      exact .inr (.inr ⟨_, _, denom, remote, amount, rfl, hpending, rfl⟩)
  | idleClaim => exact .inl rfl
  | idleCascade _ _ _ _ _ _ _ _ hc => exact (hcascade hc).imp_right .inl
  | claiming _ _ _ _ _ _ _ _ hc => exact (hcascade hc).imp_right .inl
  | transfering _ _ _ _ _ hc => exact (hcascade hc).imp_right .inl
  | staking _ _ _ _ _ _ hc => exact (hcascade hc).imp_right .inl

/-- **A tick that submits a packet** keeps the shares backed: what it takes from core beyond what
was attached is the base balance, or the shares that the packet carries. -/
theorem BackedInv.tickSubmit (h : BackedInv d w) (hflow : FlowInv d w) (hlsm : LsmFlowInv w)
    {q : Core.Querier} {info : MessageInfo} {contract : String} {msg : PuppeteerExecuteMsg}
    {funds : List Coin} {p : Packet}
    (hcase : Core.TickCase w.core q (w.env d) info w'.core [.puppeteer contract msg funds])
    (hsub : Submission w w' ⟨d.core, funds⟩ msg p)
    (hbalance : ∀ denom, w.bank.balance d.core denom + coinsOf info.funds denom ≤
      w'.bank.balance d.core denom + coinsOf funds denom) : BackedInv d w' := by
  have hsame := Core.tick_lsm hcase
  have hnil := hflow.inFlight_eq_nil hsub.idle
  obtain ⟨ica, replyTo, -, hrequests, -⟩ := hsub.requested
  have hbacked : ∀ denom, w.core.pendingAmount denom ≤ w.bank.balance d.core denom := by
    intro denom
    have hbefore := h.backed denom
    rw [World.sharesInFlight, hnil] at hbefore
    exact hbefore
  have hpending : ∀ denom, w'.core.pendingAmount denom = w.core.pendingAmount denom := by
    intro denom
    rw [Core.Storage.pendingAmount, hsame.pending]
    rfl
  have hcarried : ∀ denom, w'.sharesInFlight denom = Transaction.shares p.transaction denom := by
    intro denom
    rw [World.sharesInFlight, hflow.inFlight_of_submission hsub]
    rfl
  refine ⟨fun denom => ?_, by rw [hsame.pending]; exact h.notBase⟩
  rw [hpending, hcarried]
  have hbefore := hbacked denom
  have hpaid := hbalance denom
  rcases tick_funds hcase with rfl | ⟨timeout, replyTo', rfl, rfl⟩ |
    ⟨timeout, replyTo', denom', remote, amount, rfl, hload, rfl⟩
  · omega
  · rw [coinsOf_cons] at hpaid
    by_cases hbase : denom = d.baseDenom
    · -- the base denomination is not pending
      rw [hbase, Core.Storage.pendingAmount, h.notBase]
      exact Nat.zero_le _
    · have hne : w.core.config.baseDenom ≠ denom := by
        rw [hflow.wired.baseDenom]
        exact Ne.symm hbase
      simp only [hne, ↓reduceIte] at hpaid
      omega
  · rw [coinsOf_cons] at hpaid
    generalize p.transaction = transaction at hrequests
    cases hrequests with
    | ibcTransfer coin _ _ _ hcoin =>
      rw [hlsm.coin_eq hload hcoin]
      simp only [Transaction.shares]
      simp only at hpaid
      split_ifs at hpaid ⊢ with hdenom
      · omega
      · omega

/-- Sent shares that were pending are taken from the pending ones. -/
theorem recordSentShares_pending {s s' : Core.Storage} {denom remote : String}
    {amount current : ℕ} (h : Core.recordSentShares s denom amount = .ok s')
    (hload : s.pendingLsmShares.load denom = some (remote, current)) :
    ∀ denom', s'.pendingAmount denom' + (if denom = denom' then amount else 0) =
        s.pendingAmount denom' ∧
      (s.pendingLsmShares.load denom' = none → s'.pendingLsmShares.load denom' = none) := by
  intro denom'
  simp only [Core.recordSentShares, hload, bind_eq_ok] at h
  obtain ⟨moved, -, h⟩ := h
  by_cases hdenom : denom' = denom
  · subst hdenom
    rw [if_pos rfl]
    refine ⟨?_, fun hnone => ?_⟩
    · split_ifs at h with heq
      · rw [← Except.ok.inj h]
        simp only [Core.Storage.pendingAmount, hload, StorageMap.load_remove, ↓reduceIte,
          Option.map_none, Option.getD_none, Option.map_some, Option.getD_some]
        omega
      · simp only [bind_eq_ok, checkedSub_eq_ok, pure_eq_ok, Except.ok.injEq] at h
        obtain ⟨rest, hrest, rfl⟩ := h
        simp only [Core.Storage.pendingAmount, hload, StorageMap.load_save, ↓reduceIte,
          Option.map_some, Option.getD_some]
        omega
    · rw [hload] at hnone
      cases hnone
  · have hsame : s'.pendingLsmShares.load denom' = s.pendingLsmShares.load denom' := by
      split_ifs at h with heq
      · rw [← Except.ok.inj h]
        simp only [StorageMap.load_remove, hdenom, ↓reduceIte]
      · simp only [bind_eq_ok, checkedSub_eq_ok, pure_eq_ok, Except.ok.injEq] at h
        obtain ⟨rest, -, rfl⟩ := h
        simp only [StorageMap.load_save, hdenom, ↓reduceIte]
    rw [if_neg (Ne.symm hdenom), Core.Storage.pendingAmount, hsame]
    exact ⟨rfl, fun hnone => hnone⟩

/-- **What the hook does to the pending shares** when a packet has ended: a success takes away what
the packet carried, a failure nothing. -/
theorem LsmFlowInv.hook_pending (h : LsmFlowInv w) {p : Packet} {outcome : World.Outcome}
    (hp : p ∈ w.inFlight) {env : Env} {info : MessageInfo} {core : Core.Storage}
    (hhook : Core.executePuppeteerHook w.core env info (p.outcomeMsg outcome) = .ok core) :
    ∀ denom, core.pendingAmount denom +
        (if outcome = .response then Transaction.shares p.transaction denom else 0) =
          w.core.pendingAmount denom ∧
      (w.core.pendingLsmShares.load denom = none → core.pendingLsmShares.load denom = none) := by
  intro denom
  simp only [Core.executePuppeteerHook, bind_eq_ok, ensure_eq_ok, pure_eq_ok,
    Except.ok.injEq] at hhook
  obtain ⟨-, -, t, hprocess, rfl⟩ := hhook
  have hfailed : Core.processError w.core p.transaction = .ok t →
      t.pendingAmount denom = w.core.pendingAmount denom ∧
        (w.core.pendingLsmShares.load denom = none → t.pendingLsmShares.load denom = none) := by
    intro herr
    rw [Core.processError_ok herr]
    exact ⟨rfl, fun hnone => hnone⟩
  cases outcome with
  | error details => exact hfailed hprocess
  | timeout => exact hfailed hprocess
  | response =>
    rw [if_pos rfl]
    have hprocess' : Core.processSuccess { w.core with lastIcaBalanceChangeHeight := env.height }
        env p.transaction = .ok t := hprocess
    unfold Core.processSuccess at hprocess'
    split at hprocess'
    next denom' amount recipient reason htx =>
      split_ifs at hprocess' with hreason
      · rw [hreason] at htx
        obtain ⟨⟨remote, current⟩, hload⟩ := h.sending p hp denom' amount recipient htx
        rw [htx]
        exact recordSentShares_pending hprocess' hload denom
      · rw [← Except.ok.inj hprocess', htx]
        cases reason with
        | lsmShare => exact absurd rfl hreason
        | stake => exact ⟨rfl, fun hnone => hnone⟩
    next account items htx =>
      simp only [Core.recordRedeemedShares, bind_eq_ok, pure_eq_ok, Except.ok.injEq] at hprocess'
      obtain ⟨sum, -, total, -, rfl⟩ := hprocess'
      rw [htx]
      exact ⟨rfl, fun hnone => hnone⟩
    next hne _ =>
      rw [← Except.ok.inj hprocess']
      have hzero : Transaction.shares p.transaction denom = 0 := by
        cases htx : p.transaction with
        | ibcTransfer denom' amount recipient reason =>
          exact absurd htx (hne denom' amount recipient reason)
        | _ => rfl
      rw [hzero]
      exact ⟨rfl, fun hnone => hnone⟩

/-- What the end of a packet leaves in flight. -/
theorem sharesInFlight_of_ended {p : Packet} (hmem : w.inFlight = [p])
    (hinFlight : w'.inFlight = []) (denom : String) :
    w.sharesInFlight denom = Transaction.shares p.transaction denom ∧
      w'.sharesInFlight denom = 0 := by
  rw [World.sharesInFlight, World.sharesInFlight, hmem, hinFlight]
  exact ⟨rfl, rfl⟩

/-- A denomination of which a transaction carries shares is the one it transfers. -/
theorem Transaction.eq_of_shares {transaction : Transaction} {denom : String}
    (h : Transaction.shares transaction denom ≠ 0) :
    ∃ amount recipient, transaction = .ibcTransfer denom amount recipient .lsmShare := by
  unfold Transaction.shares at h
  split at h
  next _ denom' amount recipient =>
    split_ifs at h with hdenom
    · exact ⟨amount, recipient, by rw [hdenom]⟩
    · exact absurd rfl h
  · exact absurd rfl h

/-- **The end of a packet** keeps the shares backed, when it is covered. -/
theorem BackedInv.deliver (h : BackedInv d w) (hflow : FlowInv d w) (hlsm : LsmFlowInv w)
    {seq : ℕ} {outcome : World.Outcome} (hcovered : SharesCovered d w (.deliver seq outcome))
    (hstep : Step d w (.deliver seq outcome) w') : BackedInv d w' := by
  have hbalance := fun denom => balance_deliver hstep d.core_ne_puppeteer denom
  -- what is not accounted for leaves the pending shares, which core covers without the packet
  have hfailed : ∀ p, w.inFlight = [p] → p.seq = seq →
      ¬ (outcome = .response ∧ w.oversends p = false) → ∀ denom,
        w.core.pendingAmount denom ≤ w.bank.balance d.core denom := by
    intro p hmem hseq hfail denom
    by_cases hzero : Transaction.shares p.transaction denom = 0
    · have hbacked := h.backed denom
      rw [World.sharesInFlight, hmem] at hbacked
      simp only [List.map_cons, List.map_nil, List.sum_cons, List.sum_nil, hzero] at hbacked
      exact hbacked
    · obtain ⟨amount, recipient, htx⟩ := Transaction.eq_of_shares hzero
      have hfind : w.inFlight.find? (fun p => p.seq = seq) = some p := by
        rw [hmem]
        simp [hseq]
      refine (hcovered p hfind denom amount recipient htx).resolve_left ?_
      rintro ⟨hresponse, hle⟩
      exact hfail ⟨hresponse, by simpa [World.oversends, htx] using hle⟩
  cases step_cases hflow.wired hstep with
  | environment _ _ henvironment => cases henvironment
  | accepted _ _ p txState transaction core _ hp htx hwaiting htrans hhook hcore _ _ hinFlight =>
    obtain ⟨hseq, hmem, rfl⟩ := hflow.of_accepted hp htx htrans
    subst hseq
    have hp' := List.mem_of_find?_eq_some hp
    have hhook' := hlsm.hook_pending hp' hhook
    have hnil : w'.inFlight = [] := by
      rw [hinFlight, hmem]
      simp
    refine ⟨fun denom => ?_, by rw [hcore]; exact (hhook' d.baseDenom).2 h.notBase⟩
    obtain ⟨hbefore, hafter⟩ := sharesInFlight_of_ended hmem hnil denom
    have hbacked := h.backed denom
    have hpending := (hhook' denom).1
    rw [hcore, hafter, hbalance]
    rw [hbefore] at hbacked
    split_ifs at hpending with hresponse
    · omega
    · have hcover := hfailed p hmem rfl (fun hboth => hresponse hboth.1) denom
      omega
  | refused _ _ p _ hp hrefused hcore hinFlight =>
    obtain ⟨hseq, hmem, htx⟩ := hflow.of_find hp
    subst hseq
    have hnil : w'.inFlight = [] := by
      rw [hinFlight, hmem]
      simp
    -- the hook only refuses what is not accounted for
    have hfail : ¬ (outcome = .response ∧ w.oversends p = false) := by
      rintro ⟨rfl, hover⟩
      have hp' := List.mem_of_find?_eq_some hp
      obtain ⟨s', hs'⟩ := (hook_ok_iff hflow.wired hlsm hp').2
        ⟨fun hreset => hreset.2.1 rfl, by simp [hover]⟩
      exact (report_eq_none_iff htx).1 hrefused s' hs'
    refine ⟨fun denom => ?_, by rw [hcore.core]; exact h.notBase⟩
    obtain ⟨-, hafter⟩ := sharesInFlight_of_ended hmem hnil denom
    rw [hcore.core, hafter, hbalance]
    exact hfailed p hmem rfl hfail denom

/-- **Every covered step** keeps the shares backed. -/
theorem BackedInv.step {a : Action} (h : BackedInv d w) (hflow : FlowInv d w)
    (hlsm : LsmFlowInv w) (hcovered : SharesCovered d w a) (hstep : Step d w a w') :
    BackedInv d w' := by
  cases step_cases hflow.wired hstep with
  | environment _ _ henvironment hcore hsame =>
    exact h.of_same hsame.inFlight (by rw [hcore.core])
      (le_balance_of_environment henvironment hstep)
  | foreign _ _ _ _ _ p hsender hsub => exact absurd hsub (hflow.not_foreign hsender)
  | bond answers sender funds receiver q core msgs _ hq hbond hcore _ _ hsame =>
    obtain ⟨-, -, bank, core', msgs', after, hbank, hexec, -, -, -⟩ := execute_ok hstep
    obtain ⟨coin, denomType, -, -, -, hfunds, -, hdenom, hrecord, -, -⟩ :=
      Core.executeBond_ok hbond
    rw [← hcore] at hrecord
    simp only at hfunds
    have hbonded : Core.SameLsm w.core
        { w.core with bondedAmount := w.core.bondedAmount + coin.amount } := ⟨rfl, rfl, rfl⟩
    refine h.bond hbonded hrecord ?_ ?_ hsame.inFlight
    · rintro remoteDenom rfl hbase
      rw [hbase, ← hflow.wired.baseDenom] at hdenom
      exact (checkDenom_lsmShare_iff.1 hdenom).1 rfl
    · intro denom
      have hleft := execute_balance hstep hbank hexec denom
      obtain ⟨_, _, _, issue, receiver', -, -, -, -, -, hmsgs⟩ := Core.executeBond_ok hexec
      rw [hmsgs, hfunds] at hleft
      exact hleft
  | unbond answers sender funds q bank core msgs _ hbank hq hunbond hcore _ _ _ _ _ hsame =>
    obtain ⟨batch, item, -, hs⟩ := Core.executeUnbond_saves hunbond
    refine h.of_same hsame.inFlight (by rw [hcore, hs]; rfl) fun denom => ?_
    rw [hq] at hunbond
    have hleft := execute_balance hstep hbank hunbond denom
    obtain ⟨ldDenom, amount, batch', rate, expected, -, hfunds, -, -, -, -, -, hmsgs⟩ :=
      Core.executeUnbond_ok hunbond
    -- what was paid is burnt
    simp only at hfunds
    rw [hmsgs, hfunds] at hleft
    simp only [spentOn, List.map_cons, List.map_nil, List.sum_cons, List.sum_nil,
      Core.CoreMsg.funds, coinsOf_nil] at hleft
    omega
  | admin answers sender funds msg core _ hmsg hadmin _ hwired hcore _ _ hsame =>
    refine h.of_same hsame.inFlight ?_ (le_balance_of_admin hmsg hstep)
    rw [hcore]
    cases hadmin <;> rfl
  | tick answers sender funds q bank core _ hbank hq htick hcore _ _ hsame =>
    rw [hq] at htick
    refine h.of_same hsame.inFlight ?_ fun denom => ?_
    · rw [hcore]
      exact (Core.tick_lsm (Core.executeTick_ok htick).2).pending
    · have hleft := execute_balance hstep hbank htick denom
      exact (Nat.le_add_right _ _).trans hleft
  | tickSubmit answers sender funds q bank core msg msgFunds _ p hbank hq htick hcore _ _ hsub =>
    rw [hq] at htick
    have hleft := execute_balance hstep hbank htick
    rw [← hcore] at htick
    refine h.tickSubmit hflow hlsm (Core.executeTick_ok htick).2 hsub fun denom => ?_
    exact hleft denom
  | accepted _ _ _ _ _ _ _ _ _ _ _ _ _ _ _ _ => exact h.deliver hflow hlsm hcovered hstep
  | refused => exact h.deliver hflow hlsm hcovered hstep

/-- **Every state of a run of covered steps** has its shares backed. -/
theorem backedInv_of_reachable (h : ReachableWhere d (SharesCovered d) w) : BackedInv d w := by
  refine h.invariant (fun w₀ hinit => backedInv_initial hinit) ?_
  intro s a t hs hcovered hstep hinv
  exact hinv.step (flowInv_of_reachable hs) (lsmFlowInv_of_reachable hs) hcovered hstep

/-- **Pending shares are backed** in every run in which no transfer of shares fails or succeeds
with more shares than are pending, except where core holds enough other tokens of the denomination:
with no transfer of a denomination in flight,
core holds what is pending of it, so that it can be attached to the next transfer.

**Proof sketch.** Core and the packets together hold what is pending. A bond adds to both sides; a
transfer moves tokens from core to the packet; its success takes what it carried from the pending
shares. -/
theorem pending_backed (h : ReachableWhere d (SharesCovered d) w) {denom : String}
    (hnone : ∀ p ∈ w.inFlight, ∀ amount recipient reason,
      p.transaction ≠ .ibcTransfer denom amount recipient reason) :
    w.core.pendingAmount denom ≤ w.bank.balance d.core denom ∧
      ∃ bank, w.bank.send d.core d.puppeteer [⟨denom, w.core.pendingAmount denom⟩] =
        some bank := by
  have hbacked := (backedInv_of_reachable h).backed denom
  have hzero : w.sharesInFlight denom = 0 := by
    rcases (flowInv_of_reachable h.reachable).outstanding with ⟨hnil, -⟩ | ⟨p, hmem, -⟩
    · rw [World.sharesInFlight, hnil]
      rfl
    · by_contra hne
      rw [World.sharesInFlight, hmem] at hne
      obtain ⟨amount, recipient, htx⟩ := Transaction.eq_of_shares hne
      exact hnone p (by rw [hmem]; exact List.mem_singleton_self p) amount recipient .lsmShare htx
  rw [hzero] at hbacked
  exact ⟨hbacked, Bank.exists_send_singleton hbacked⟩

/-- With a transfer that has arrived, the 500 shares that are still pending are backed. -/
theorem pending_backed_sample : ∃ w : World, w.core.pendingAmount "ibc/share" = 500 ∧
    500 ≤ w.bank.balance "core" "ibc/share" := by
  have hrun : (runList (World.exec deployment)
      (fun w a => match a with
        | .deliver _ outcome =>
          decide (outcome = .response) && w.inFlight.all fun p => !w.oversends p
        | _ => true)
      initialShares sharesSent).any
      (fun w => decide (w.core.pendingAmount "ibc/share" = 500 ∧ w.inFlight = [])) = true := by
    decide
  obtain ⟨w, hw, hcheck⟩ := (Option.any_eq_true _ _).1 hrun
  obtain ⟨hpending, hnil⟩ := of_decide_eq_true hcheck
  have hcovered : RunWhere (Step deployment) (SharesCovered deployment) initialShares w := by
    refine runWhere_eq_some ?_ hw
    intro w a ha
    cases a with
    | deliver seq outcome =>
      intro p hp denom amount recipient htx
      simp only [Bool.and_eq_true, decide_eq_true_eq, List.all_eq_true] at ha
      have hover := ha.2 p (List.mem_of_find?_eq_some hp)
      exact .inl ⟨ha.1, by simpa [World.oversends, htx] using hover⟩
    | _ => exact trivial
  have hreachable : ReachableWhere deployment (SharesCovered deployment) w :=
    ⟨initialShares, initialShares_spec, hcovered⟩
  have hnone : ∀ p ∈ w.inFlight, ∀ amount recipient reason,
      p.transaction ≠ .ibcTransfer "ibc/share" amount recipient reason := by
    simp [hnil]
  have hbacked := (pending_backed hreachable hnone).1
  rw [hpending] at hbacked
  exact ⟨w, hpending, hbacked⟩

/-- **After a transfer that was not accounted for the shares are backed** exactly when core covered
them without the packet: neither a failure nor a success that the hook does not accept changes what
core holds or what is pending. -/
theorem backed_after_failure_iff (h : Reachable d w) {seq : ℕ} {outcome : World.Outcome}
    (hfailed : ∀ p ∈ w.inFlight, ¬ (outcome = .response ∧ w.oversends p = false))
    (hstep : Step d w (.deliver seq outcome) w') (denom : String) :
    w'.inFlight = [] ∧ (w'.core.pendingAmount denom ≤ w'.bank.balance d.core denom ↔
      w.core.pendingAmount denom ≤ w.bank.balance d.core denom) := by
  have hflow := flowInv_of_reachable h
  have hlsm := lsmFlowInv_of_reachable h
  rw [balance_deliver hstep d.core_ne_puppeteer]
  cases step_cases hflow.wired hstep with
  | environment _ _ henvironment => cases henvironment
  | accepted _ _ p txState transaction core _ hp htx hwaiting htrans hhook hcore _ _ hinFlight =>
    obtain ⟨rfl, hmem, rfl⟩ := hflow.of_accepted hp htx htrans
    have hp' := List.mem_of_find?_eq_some hp
    have hpending := (hlsm.hook_pending hp' hhook denom).1
    -- the hook accepts no success of too many shares
    have hresponse : outcome ≠ .response := by
      rintro rfl
      have hover := ((hook_ok_iff hflow.wired hlsm hp').1 ⟨_, hhook⟩).2
      exact hfailed p hp' ⟨rfl, Bool.eq_false_iff.2 fun ht => hover ⟨rfl, ht⟩⟩
    rw [if_neg hresponse, Nat.add_zero] at hpending
    rw [hcore, hpending, hinFlight, hmem]
    exact ⟨by simp, Iff.rfl⟩
  | refused _ _ p _ hp hrefused hcore hinFlight =>
    obtain ⟨-, hmem, -⟩ := hflow.of_find hp
    rw [hcore.core, hinFlight, hmem]
    exact ⟨by simp, Iff.rfl⟩

/-- **Pending shares can be unbacked.** A transfer of 1000 shares fails: its tokens go back to the
puppeteer, and core, which has none of them, still counts them as pending. -/
theorem pending_unbacked : ¬ ∀ (d : Deployment) (w : World) (denom : String), Reachable d w →
    (∀ p ∈ w.inFlight, ∀ amount recipient reason,
      p.transaction ≠ .ibcTransfer denom amount recipient reason) →
    w.core.pendingAmount denom ≤ w.bank.balance d.core denom := by
  intro hall
  have hrun : (initialShares.runAll deployment (setup ++ [.nonNativeRewardsBalances [],
      bondShares "transfer/channel-0" 1000, tick, tick, .deliver 1 (.error "refused")])).any
      (fun w => decide (w.inFlight = [] ∧ w.core.pendingAmount "ibc/share" = 1000 ∧
        w.bank.balance "core" "ibc/share" = 0)) = true := by
    decide
  obtain ⟨w, hw, hcheck⟩ := (Option.any_eq_true _ _).1 hrun
  obtain ⟨hnil, hpending, hbalance⟩ := of_decide_eq_true hcheck
  have hle := hall deployment w "ibc/share" (reachable_of_runAll initialShares_spec hw)
    (by simp [hnil])
  have hbalance' : w.bank.balance deployment.core "ibc/share" = 0 := hbalance
  rw [hpending, hbalance'] at hle
  exact absurd hle (by decide)

end System

end DropContracts
