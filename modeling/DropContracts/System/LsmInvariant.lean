import DropContracts.Core.LsmShares
import DropContracts.System.FlowInvariant

set_option relaxedAutoImplicit false
set_option autoImplicit false

/-!
# LSM shares and the packets that carry them

The invariant of the LSM accounting along a run: a redemption in flight lists exactly the shares
that wait for it, and a transfer of shares in flight carries shares of a denomination that is
pending. So the hook can account for the success of either, unless the transfer carries more than
is pending: the chain adds what is attached to a tick to the shares that the tick sends.

## Main definitions

* `System.World.oversends` — the packets that carry more shares than are pending.
* `System.LsmFlowInv` — the invariant.

## Main results

* `System.LsmFlowInv.success_ok`, `System.LsmFlowInv.success_abort` — when the handling of a success
  returns.
* `System.LsmFlowInv.step`, `System.lsmFlowInv_of_reachable` — every step keeps the invariant, so
  every reachable state has it.
-/

namespace DropContracts

namespace System

open Exec

/-- Whether the packet carries more LSM shares than are pending of their denomination. -/
def World.oversends (w : World) (p : Packet) : Bool :=
  match p.transaction with
  | .ibcTransfer denom amount _ .lsmShare => w.core.pendingAmount denom < amount
  | _ => false

/-- The invariant of the LSM shares and the packets in flight. The fee denomination is never
pending, since it has no trace. -/
structure LsmFlowInv (w : World) : Prop where
  lsm : Core.LsmInv w.core
  traced : ∀ denom x, w.core.pendingLsmShares.load denom = some x →
    denom ≠ Puppeteer.LOCAL_DENOM
  redeeming : ∀ p ∈ w.inFlight, ∀ account items, p.transaction = .redeemShares account items →
    items = Core.redeemItems w.core.lsmSharesToRedeem
  sending : ∀ p ∈ w.inFlight, ∀ denom amount recipient,
    p.transaction = .ibcTransfer denom amount recipient .lsmShare →
      ∃ x, w.core.pendingLsmShares.load denom = some x

/-! ## Messages and denominations -/

/-- A bonded LSM share has a trace. -/
theorem checkDenom_lsmShare {q : Core.Querier} {denom remoteDenom : String}
    {config : Core.Config} (h : Core.checkDenom q denom config = .ok (.lsmShare remoteDenom)) :
    ∃ trace, q.denomTrace denom = .ok trace := by
  unfold Core.checkDenom Core.queryDenomTrace at h
  split_ifs at h
  · cases h
  · cases htrace : q.denomTrace denom with
    | ok trace => exact ⟨trace, rfl⟩
    | error e => simp [htrace, fail] at h

section Ticks

variable {s s' : Core.Storage} {q : Core.Querier} {env : Env} {info : MessageInfo}
  {contract : String} {funds : List Coin}

/-- A redemption that a tick asks for lists every share that waits for it. -/
theorem tick_redeem {items : List RedeemShareItem} {timeout : Option ℕ} {replyTo : String}
    (h : Core.TickCase s q env info s'
      [.puppeteer contract (.redeemShares items timeout replyTo) funds]) :
    items = Core.redeemItems s.lsmSharesToRedeem := by
  cases h with
  | idleInterval rate m hstate hinterval hmsg =>
    cases hmsg
    rfl
  | idleCascade t u transfer validators _ hstate hprepared hvalidators hcascade => cases hcascade
  | claiming r batches emergency t _ hstate hresponse hload hcascade => cases hcascade
  | transfering r t _ hstate hresponse hcascade => cases hcascade
  | staking r t _ hstate hresponse hsuccess hcascade => cases hcascade

/-- A transfer of shares that a tick asks for attaches what is pending of one denomination. -/
theorem tick_lsmShare {timeout : ℕ} {replyTo : String}
    (h : Core.TickCase s q env info s'
      [.puppeteer contract (.ibcTransfer timeout .lsmShare replyTo) funds]) :
    ∃ denom remote amount, s.pendingLsmShares.load denom = some (remote, amount) ∧
      funds = ⟨denom, amount⟩ :: info.funds := by
  cases h with
  | idleInterval rate m hstate hinterval hmsg =>
    cases hmsg with
    | lsmShare denom remote amount hpending => exact ⟨denom, remote, amount, hpending, rfl⟩
  | idleCascade t u transfer validators _ hstate hprepared hvalidators hcascade => cases hcascade
  | claiming r batches emergency t _ hstate hresponse hload hcascade => cases hcascade
  | transfering r t _ hstate hresponse hcascade => cases hcascade
  | staking r t _ hstate hresponse hsuccess hcascade => cases hcascade

end Ticks

/-! ## The invariant -/

section Invariant

variable {d : Deployment} {w w' : World}

/-- The invariant holds right after instantiation. -/
theorem lsmFlowInv_initial (h : Initial d w) : LsmFlowInv w := by
  obtain ⟨config, owner, hcore⟩ := h.core
  refine ⟨by rw [hcore]; exact Core.LsmInv.instantiate config owner _, ?_, by simp [h.inFlight],
    by simp [h.inFlight]⟩
  intro denom x hx
  rw [hcore] at hx
  cases hx

/-- The invariant only depends on the packets and the accounting. -/
theorem LsmFlowInv.of_same (h : LsmFlowInv w) (hinFlight : w'.inFlight = w.inFlight)
    (hsame : Core.SameLsm w.core w'.core) : LsmFlowInv w' := by
  refine ⟨h.lsm.of_same hsame, ?_, ?_, ?_⟩
  · rw [hsame.pending]
    exact h.traced
  · rw [hinFlight, hsame.toRedeem]
    exact h.redeeming
  · rw [hinFlight, hsame.pending]
    exact h.sending

/-- The invariant after a bond. -/
theorem LsmFlowInv.bond (h : LsmFlowInv w) {s : Core.Storage} {coin : Coin}
    (hcoin : coin.amount ≠ 0) {denomType : Core.DenomType} (hsame : Core.SameLsm w.core s)
    (hrecord : Core.BondRecord s coin denomType w'.core)
    (htraced : ∀ remoteDenom, denomType = .lsmShare remoteDenom →
      coin.denom ≠ Puppeteer.LOCAL_DENOM)
    (hinFlight : w'.inFlight = w.inFlight) : LsmFlowInv w' := by
  generalize hcore : w'.core = core at hrecord
  cases hrecord with
  | base => exact h.of_same hinFlight (by rw [hcore]; exact hsame)
  | lsmShare remoteDenom hfit =>
    refine ⟨?_, ?_, ?_, ?_⟩
    · rw [hcore]
      exact (h.lsm.of_same hsame).record hcoin (.lsmShare remoteDenom hfit)
    · intro denom x hx
      simp only [hcore, StorageMap.load_save] at hx
      split_ifs at hx with hdenom
      · rw [hdenom]
        exact htraced remoteDenom rfl
      · rw [hsame.pending] at hx
        exact h.traced denom x hx
    · rw [hinFlight, hcore]
      simp only [hsame.toRedeem]
      exact h.redeeming
    · intro p hp denom amount recipient htx
      rw [hinFlight] at hp
      simp only [hcore, StorageMap.load_save, hsame.pending]
      split_ifs with hdenom
      · exact ⟨_, rfl⟩
      · exact h.sending p hp denom amount recipient htx

/-- What a transfer of pending shares carries: the shares, and what is attached of their
denomination. -/
theorem LsmFlowInv.coin_eq (h : LsmFlowInv w) {denom remote : String} {amount : ℕ}
    {attached : List Coin} {coin : Coin}
    (hload : w.core.pendingLsmShares.load denom = some (remote, amount))
    (hcoin : (mergeCoins (⟨denom, amount⟩ :: attached)).filter
      (fun f => f.denom ≠ Puppeteer.LOCAL_DENOM) = [coin]) :
    coin = ⟨denom, amount + coinsOf attached denom⟩ := by
  exact coin_of_filter_mergeCoins (h.lsm.positive denom _ hload)
    (decide_eq_true (h.traced denom _ hload)) hcoin

/-- The invariant after a tick that submits a packet. -/
theorem LsmFlowInv.tickSubmit (h : LsmFlowInv w) (hflow : FlowInv d w) {q : Core.Querier}
    {info : MessageInfo} {contract : String} {msg : PuppeteerExecuteMsg} {funds : List Coin}
    {p : Packet}
    (hcase : Core.TickCase w.core q (w.env d) info w'.core [.puppeteer contract msg funds])
    (hsub : Submission w w' ⟨d.core, funds⟩ msg p) : LsmFlowInv w' := by
  obtain ⟨ica, replyTo, -, hrequests, -⟩ := hsub.requested
  have hsame := Core.tick_lsm hcase
  have hinFlight := hflow.inFlight_of_submission hsub
  refine ⟨h.lsm.of_same hsame, by rw [hsame.pending]; exact h.traced, ?_, ?_⟩
  · intro p' hp' account items htx
    rw [hinFlight, List.mem_singleton] at hp'
    subst hp'
    rw [htx] at hrequests
    cases hrequests
    rw [hsame.toRedeem]
    exact tick_redeem hcase
  · intro p' hp' denom amount recipient htx
    rw [hinFlight, List.mem_singleton] at hp'
    subst hp'
    generalize htx' : p'.transaction = transaction at hrequests
    rw [htx'] at htx
    cases hrequests with
    | ibcTransfer coin timeout reason _ hcoin =>
      injection htx with hdenom hamount _ hreason
      subst hreason
      obtain ⟨denom', remote, amount', hload, hfunds⟩ := tick_lsmShare hcase
      rw [hfunds] at hcoin
      rw [hsame.pending, ← hdenom, h.coin_eq hload hcoin]
      exact ⟨_, hload⟩
    | _ => cases htx

/-- **The handling of a success returns**, and keeps the accounting right, unless the packet
carries more shares than are pending. -/
theorem LsmFlowInv.success_ok (h : LsmFlowInv w) {p : Packet} (hp : p ∈ w.inFlight)
    (hover : w.oversends p = false) {s : Core.Storage} (hsame : Core.SameLsm w.core s)
    (env : Env) :
    ∃ s', Core.processSuccess s env p.transaction = .ok s' ∧ Core.LsmInv s' ∧
      ∀ denom x, s'.pendingLsmShares.load denom = some x →
        ∃ x', s.pendingLsmShares.load denom = some x' := by
  have hs := h.lsm.of_same hsame
  unfold Core.processSuccess
  split
  next denom amount recipient reason htx =>
    split_ifs with hreason
    · rw [hreason] at htx
      obtain ⟨⟨remote, current⟩, hload⟩ := h.sending p hp denom amount recipient htx
      have hle : amount ≤ current := by
        simpa [World.oversends, htx, Core.Storage.pendingAmount, hload] using hover
      rw [← hsame.pending] at hload
      exact hs.sent hload hle
    · exact ⟨s, rfl, hs, fun _ x hx => ⟨x, hx⟩⟩
  next account items htx =>
    rw [h.redeeming p hp account items htx, ← hsame.toRedeem]
    obtain ⟨s', hs', hinv, hpending⟩ := hs.redeemed env.time.seconds
    exact ⟨s', hs', hinv, fun _ x hx => ⟨x, by rw [← hpending]; exact hx⟩⟩
  · exact ⟨s, rfl, hs, fun _ x hx => ⟨x, hx⟩⟩

/-- **The handling of a success aborts** when the packet carries more shares than are pending. -/
theorem LsmFlowInv.success_abort (h : LsmFlowInv w) {p : Packet} (hp : p ∈ w.inFlight)
    (hover : w.oversends p = true) {s : Core.Storage} (hsame : Core.SameLsm w.core s)
    (env : Env) : Core.processSuccess s env p.transaction = .error .abort := by
  unfold World.oversends at hover
  split at hover
  next denom amount recipient htx =>
    obtain ⟨⟨remote, current⟩, hload⟩ := h.sending p hp denom amount recipient htx
    have hlt : current < amount := by
      simpa [Core.Storage.pendingAmount, hload] using hover
    rw [← hsame.pending] at hload
    rw [htx, Core.processSuccess, if_pos rfl]
    exact Core.recordSentShares_abort hload hlt
  · cases hover

/-- The invariant after an outcome that both contracts accepted. -/
theorem LsmFlowInv.accepted (h : LsmFlowInv w) {p : Packet} {outcome : World.Outcome}
    (hp : p ∈ w.inFlight) {env : Env} {info : MessageInfo}
    (hhook : Core.executePuppeteerHook w.core env info (p.outcomeMsg outcome) = .ok w'.core)
    (hinFlight : w'.inFlight = []) : LsmFlowInv w' := by
  simp only [Core.executePuppeteerHook, bind_eq_ok, ensure_eq_ok, pure_eq_ok,
    Except.ok.injEq] at hhook
  obtain ⟨-, -, t, hprocess, hcore⟩ := hhook
  have ht : Core.LsmInv t ∧ ∀ denom x, t.pendingLsmShares.load denom = some x →
      ∃ x', w.core.pendingLsmShares.load denom = some x' := by
    have herror : ∀ transaction, Core.processError w.core transaction = .ok t →
        Core.SameLsm w.core t := by
      intro transaction herr
      rw [Core.processError_ok herr]
      exact ⟨rfl, rfl, rfl⟩
    have hfailed : Core.SameLsm w.core t → Core.LsmInv t ∧
        ∀ denom x, t.pendingLsmShares.load denom = some x →
          ∃ x', w.core.pendingLsmShares.load denom = some x' := by
      intro hsame
      refine ⟨h.lsm.of_same hsame, fun denom x hx => ⟨x, ?_⟩⟩
      rw [← hsame.pending]
      exact hx
    cases outcome with
    | response =>
      have hsame : Core.SameLsm w.core
          { w.core with lastIcaBalanceChangeHeight := env.height } := ⟨rfl, rfl, rfl⟩
      have hover : w.oversends p = false := by
        refine Bool.eq_false_iff.2 fun hover => ?_
        have habort : (Except.ok t : Core.Result Core.Storage) = .error .abort :=
          hprocess.symm.trans (h.success_abort hp hover hsame env)
        cases habort
      obtain ⟨t', ht', hinv, hpending⟩ := h.success_ok hp hover hsame env
      have heq : (Except.ok t' : Core.Result Core.Storage) = .ok t := ht'.symm.trans hprocess
      rw [Except.ok.injEq] at heq
      subst heq
      exact ⟨hinv, hpending⟩
    | error details => exact hfailed (herror _ hprocess)
    | timeout => exact hfailed (herror _ hprocess)
  refine ⟨?_, ?_, by simp [hinFlight], by simp [hinFlight]⟩
  · rw [← hcore]
    exact ht.1.of_same ⟨rfl, rfl, rfl⟩
  · intro denom x hx
    rw [← hcore] at hx
    obtain ⟨x', hx'⟩ := ht.2 denom x hx
    exact h.traced denom x' hx'

/-- **Every step keeps the invariant.** -/
theorem LsmFlowInv.step {a : Action} (hflow : FlowInv d w) (h : LsmFlowInv w)
    (hstep : Step d w a w') : LsmFlowInv w' := by
  cases step_cases hflow.wired hstep with
  | environment _ _ henvironment hcore hsame =>
    exact h.of_same hsame.inFlight (by rw [hcore.core]; exact ⟨rfl, rfl, rfl⟩)
  | foreign _ _ _ _ _ p hsender hsub => exact absurd hsub (hflow.not_foreign hsender)
  | bond answers sender funds receiver q core msgs _ hq hbond hcore _ _ hsame =>
    obtain ⟨coin, denomType, -, -, -, -, hcoin, hdenom, hrecord, -, -⟩ :=
      Core.executeBond_ok hbond
    rw [← hcore] at hrecord
    have hbonded : Core.SameLsm w.core
        { w.core with bondedAmount := w.core.bondedAmount + coin.amount } := ⟨rfl, rfl, rfl⟩
    refine h.bond hcoin hbonded hrecord (fun remoteDenom htype hlocal => ?_) hsame.inFlight
    rw [htype] at hdenom
    obtain ⟨trace, htrace⟩ := checkDenom_lsmShare hdenom
    rw [hlocal, hq] at htrace
    exact answers.local_not_traced trace htrace
  | unbond answers sender funds q bank core msgs _ _ _ hunbond hcore _ _ _ _ _ hsame =>
    obtain ⟨batch, item, -, hs⟩ := Core.executeUnbond_saves hunbond
    exact h.of_same hsame.inFlight (by rw [hcore, hs]; exact ⟨rfl, rfl, rfl⟩)
  | admin answers sender funds msg core _ hmsg hadmin _ hwired hcore _ _ hsame =>
    refine h.of_same hsame.inFlight ?_
    rw [hcore]
    cases hadmin <;> exact ⟨rfl, rfl, rfl⟩
  | tick answers sender funds q bank core _ hbank hq htick hcore _ _ hsame =>
    rw [← hcore] at htick
    exact h.of_same hsame.inFlight (Core.tick_lsm (Core.executeTick_ok htick).2)
  | tickSubmit answers sender funds q bank core msg msgFunds _ p hbank hq htick hcore _ _ hsub =>
    rw [← hcore] at htick
    exact h.tickSubmit hflow (Core.executeTick_ok htick).2 hsub
  | accepted seq outcome p txState transaction core _ hp htx hwaiting htrans hhook hcore _ _
      hinFlight hempty hconfig =>
    obtain ⟨rfl, hmem, rfl⟩ := hflow.of_accepted hp htx htrans
    rw [← hcore] at hhook
    exact h.accepted (by rw [hmem]; exact List.mem_singleton_self p) hhook
      (by rw [hinFlight, hmem]; simp)
  | refused seq outcome p _ hp hrefused hcore hinFlight hpuppeteer =>
    obtain ⟨rfl, hmem, -⟩ := hflow.of_find hp
    have hnil : w'.inFlight = [] := by rw [hinFlight, hmem]; simp
    exact ⟨by rw [hcore.core]; exact h.lsm, by rw [hcore.core]; exact h.traced, by simp [hnil],
      by simp [hnil]⟩

/-- **Every reachable state has the invariant.** -/
theorem lsmFlowInv_of_reachable (h : Reachable d w) : LsmFlowInv w := by
  refine h.invariant (fun w₀ hinit => lsmFlowInv_initial hinit) ?_
  intro s a t hs hstep hinv
  exact LsmFlowInv.step (flowInv_of_reachable hs) hinv hstep

end Invariant

end System

end DropContracts
