import DropContracts.Core.Forward
import DropContracts.System.BondValue
import DropContracts.System.VoucherRequests

set_option relaxedAutoImplicit false
set_option autoImplicit false

/-!
# One price in a cycle

The tick that leaves `Idle` stores the rate, and nothing changes it until core is back in `Idle`. So
all bonds and unbonds of a cycle are made at one price, and no group of users can gain by trading
against it.

## Main definitions

* `Core.Storage.cachedRate` — the rate outside of `Idle`.
* `System.Trades` — what a group of users has bonded and unbonded along a run.
* `System.Trades.At` — trades that were made at a price.

## Main results

* `Core.executeTick_caches` — a tick in `Idle` stores the rate that it computes.
* `System.exchangeRate_of_step` — outside of `Idle` the stored rate stays.
* `System.Trades.At.step` — a step outside of `Idle` trades at the stored rate.
* `System.cycle_trades` — the trades of a cycle are made at the rate at which it began.
-/

namespace DropContracts

open Exec

/-! ## The stored rate -/

namespace Core

section Ticks

variable {s s' t : Storage} {q : Querier} {env : Env} {info : MessageInfo} {msgs : List CoreMsg}
  {config : Config}

/-- The rate that is stored, or one. -/
def Storage.cachedRate (s : Storage) : Decimal := (s.exchangeRate.getD (Decimal.one, 0)).1

/-- Outside of `Idle` the rate is the stored one. -/
theorem queryExchangeRate_of_cycle (hstate : s.fsmState ≠ .idle) (q : Querier)
    (currentStake : Option ℕ) : queryExchangeRate s q currentStake = .ok s.cachedRate := by
  rw [queryExchangeRate, if_pos hstate]
  rfl

/-- The cascade leaves the stored rate alone. -/
theorem CascadeCase.exchangeRate (h : CascadeCase t q env info config s' msgs) :
    s'.exchangeRate = t.exchangeRate := by
  cases h <;> rfl

/-- An idle tick after the interval leaves the stored rate alone. -/
theorem executeTickIdleLong_exchangeRate
    (h : executeTickIdleLong t q env info config = .ok (s', msgs)) :
    s'.exchangeRate = t.exchangeRate := by
  simp only [executeTickIdleLong, bind_eq_ok, ask_eq_ok, ensure_eq_ok, orError_eq_ok,
    Storage.goTo_eq_ok, pure_eq_ok, Except.ok.injEq, Prod.mk.injEq] at h
  obtain ⟨-, -, -, -, pump, -, _, -, ⟨t₁, transfer⟩, hmark, members, -, delegations, -, t₂,
    ⟨-, rfl⟩, ⟨u, ms⟩, hend, rfl, -⟩ := h
  obtain ⟨f, emergency, -, rfl, -⟩ := markReadyBatches_ok hmark
  unfold claimOrCascade at hend
  split_ifs at hend
  · exact (transferStakeOrUnbond_ok hend).1.exchangeRate
  · obtain ⟨rfl, -⟩ := Prod.mk.inj (Except.ok.inj hend)
    rfl

/-- **A tick in `Idle` stores the rate that it computes.** -/
theorem executeTick_caches (hidle : s.fsmState = .idle)
    (h : executeTick s q env info = .ok (s', msgs)) :
    queryExchangeRate s q none = .ok s'.cachedRate := by
  rw [executeTick_of_running (executeTick_ok h).1, hidle] at h
  simp only [executeTickIdle, bind_eq_ok] at h
  obtain ⟨s₁, hcache, elapsed, -, h⟩ := h
  obtain ⟨rate, hrate, rfl⟩ := cacheExchangeRate_ok hcache
  have hstored : s'.exchangeRate = some (rate, env.height) := by
    split_ifs at h
    · simp only [bind_eq_ok, pure_eq_ok, Except.ok.injEq, Prod.mk.injEq] at h
      obtain ⟨m, -, rfl, -⟩ := h
      rfl
    · exact executeTickIdleLong_exchangeRate h
  rw [hrate, Storage.cachedRate, hstored]
  rfl

/-- **A tick outside of `Idle` leaves the stored rate alone.** -/
theorem executeTick_exchangeRate (hstate : s.fsmState ≠ .idle)
    (h : executeTick s q env info = .ok (s', msgs)) : s'.exchangeRate = s.exchangeRate := by
  cases (executeTick_ok h).2 with
  | idleInterval _ _ hidle => exact absurd hidle hstate
  | idleClaim _ _ _ hidle => exact absurd hidle hstate
  | idleCascade _ _ _ _ _ hidle => exact absurd hidle hstate
  | claiming _ _ _ _ _ _ _ _ hcascade => exact hcascade.exchangeRate
  | transfering _ _ _ _ _ hcascade => exact hcascade.exchangeRate
  | staking _ _ _ _ _ _ hcascade => exact hcascade.exchangeRate
  | unbondingSuccess => rfl
  | unbondingFailed => rfl

end Ticks

end Core

namespace System

/-! ## Trades -/

/-- What a group of users has traded: the coins that were bonded, the liquid tokens that were issued
for them, the liquid tokens that were unbonded, and the coins that were promised for these. -/
structure Trades where
  bonded : ℕ
  issued : ℕ
  unbonded : ℕ
  promised : ℕ
  deriving DecidableEq, Repr

/-- Nothing has been traded. -/
def Trades.nothing : Trades := ⟨0, 0, 0, 0⟩

/-- The coins that all vouchers promise together. -/
def World.promised (w : World) : ℕ := (w.vouchers.map fun v => v.extension.expectedAmount).sum

/-- The trades after a step, for the users of the group. -/
def Trades.record (d : Deployment) (users : String → Bool) (t : Trades) (w : World) (a : Action)
    (w' : World) : Trades :=
  match a with
  | .execute _ sender funds (.bond _) =>
    if users sender then { t with
      bonded := t.bonded + (funds.map Coin.amount).sum
      issued := t.issued + (w'.bank.supply d.tokenDenom - w.bank.supply d.tokenDenom) }
    else t
  | .execute _ sender _ .unbond =>
    if users sender then { t with
      unbonded := t.unbonded + (w.bank.supply d.tokenDenom - w'.bank.supply d.tokenDenom)
      promised := t.promised + (w'.promised - w.promised) }
    else t
  | _ => t

/-- The trades were made at a price: what was issued costs at least the price, and no more than the
price was promised. -/
structure Trades.At (t : Trades) (rate : Decimal) : Prop where
  issued : t.issued * rate.atomics ≤ t.bonded * Decimal.fractional
  promised : t.promised * Decimal.fractional ≤ t.unbonded * rate.atomics

/-- **Trades at one price gain nothing**: users who have unbonded no more than they were issued are
promised no more than they have bonded. -/
theorem Trades.At.promised_le {t : Trades} {rate : Decimal} (h : t.At rate)
    (hle : t.unbonded ≤ t.issued) : t.promised ≤ t.bonded := by
  refine Nat.le_of_mul_le_mul_right ?_ Decimal.fractional_pos
  calc t.promised * Decimal.fractional ≤ t.unbonded * rate.atomics := h.promised
    _ ≤ t.issued * rate.atomics := Nat.mul_le_mul_right _ hle
    _ ≤ t.bonded * Decimal.fractional := h.issued

section Cycle

variable {d : Deployment} {w w' v : World} {users : String → Bool} {t t' : Trades}

/-- **Outside of `Idle` the stored rate stays.** -/
theorem exchangeRate_of_step {a : Action} (hflow : FlowInv d w) (hstep : Step d w a w')
    (hstate : w.core.fsmState ≠ .idle) : w'.core.exchangeRate = w.core.exchangeRate := by
  cases step_cases hflow.wired hstep with
  | environment _ _ _ hcore => rw [hcore.core]
  | foreign _ _ _ _ _ _ hsender hsubmission =>
    have hallowed := hsubmission.allowed
    rw [hflow.allowed, List.mem_singleton] at hallowed
    exact absurd hallowed hsender
  | bond _ _ _ _ _ _ _ _ _ hbond hcore =>
    obtain ⟨_, _, _, -, hcache, -⟩ := Core.executeBond_issue hbond
    rw [hcore, hcache]
  | unbond _ _ _ _ _ _ _ _ _ _ hunbond hcore =>
    obtain ⟨_, _, -, hs⟩ := Core.executeUnbond_saves hunbond
    rw [hcore, hs]
    rfl
  | admin _ _ _ _ _ _ _ hadmin _ _ hcore =>
    rw [hcore]
    cases hadmin <;> rfl
  | tick _ _ _ _ _ _ _ _ _ htick hcore =>
    rw [hcore, Core.executeTick_exchangeRate hstate htick]
  | tickSubmit _ _ _ _ _ _ _ _ _ _ _ _ htick hcore =>
    rw [hcore, Core.executeTick_exchangeRate hstate htick]
  | accepted _ _ _ _ _ _ _ _ _ _ _ hhook hcore =>
    obtain ⟨_, _, _, _, hs⟩ := Core.executePuppeteerHook_changes hhook
    rw [hcore, hs]
  | refused _ _ _ _ _ _ hcore => rw [hcore.core]

/-- **The step that leaves `Idle` stores the rate of its state**, with what its caller has sent. -/
theorem cachedRate_of_leaving {a : Action} (hflow : FlowInv d w) (hstep : Step d w a w')
    (hidle : w.core.fsmState = .idle) (hleft : w'.core.fsmState ≠ .idle) :
    ∃ answers sender funds bank, a = .execute answers sender funds .tick ∧
      w.bank.send sender d.core funds = some bank ∧
      Core.queryExchangeRate w.core (({ w with bank := bank } : World).querier d answers) none =
        .ok w'.core.cachedRate := by
  have hstays : w'.core.fsmState = w.core.fsmState → False := fun hsame =>
    hleft (hsame.trans hidle)
  cases step_cases hflow.wired hstep with
  | environment _ _ _ hcore => exact (hstays (by rw [hcore.core])).elim
  | foreign _ _ _ _ _ _ hsender hsubmission =>
    have hallowed := hsubmission.allowed
    rw [hflow.allowed, List.mem_singleton] at hallowed
    exact absurd hallowed hsender
  | bond _ _ _ _ _ _ _ _ _ hbond hcore =>
    exact (hstays (by rw [hcore, (Core.executeBond_frame hbond).fsmState])).elim
  | unbond _ _ _ _ _ _ _ _ _ _ hunbond hcore =>
    obtain ⟨_, _, -, hs⟩ := Core.executeUnbond_saves hunbond
    exact (hstays (by rw [hcore, hs]; rfl)).elim
  | admin _ _ _ _ _ _ _ hadmin _ _ hcore =>
    exact (hstays (by rw [hcore]; cases hadmin <;> rfl)).elim
  | tick answers sender funds _ bank _ _ hbank hq htick hcore =>
    subst hcore
    exact ⟨answers, sender, funds, bank, rfl, hbank, hq ▸ Core.executeTick_caches hidle htick⟩
  | tickSubmit answers sender funds _ bank _ _ _ _ _ hbank hq htick hcore =>
    subst hcore
    exact ⟨answers, sender, funds, bank, rfl, hbank, hq ▸ Core.executeTick_caches hidle htick⟩
  | accepted _ _ _ _ _ _ _ _ _ _ _ hhook hcore =>
    obtain ⟨_, _, _, _, hs⟩ := Core.executePuppeteerHook_changes hhook
    refine (hstays ?_).elim
    rw [hcore, hs]
    show (if _ then _ else _) = _
    split_ifs
    · exact hidle.symm
    · rfl
  | refused _ _ _ _ _ _ hcore => exact (hstays (by rw [hcore.core])).elim

/-- A bond outside of `Idle` is issued no more than the stored rate allows. -/
theorem bond_at_cachedRate (hw : Reachable d w) (hstate : w.core.fsmState ≠ .idle)
    {answers : Answers} {sender : String} {funds : List Coin} {receiver : Option String}
    (hstep : Step d w (.execute answers sender funds (.bond receiver)) w') :
    (w'.bank.supply d.tokenDenom - w.bank.supply d.tokenDenom) * w.core.cachedRate.atomics ≤
      (funds.map Coin.amount).sum * Decimal.fractional := by
  obtain ⟨coin, issued, rate, rfl, heffect⟩ := bond_effect hw hstep
  have hrate : rate = w.core.cachedRate := heffect.cached hstate
  rw [heffect.supply, Nat.add_sub_cancel_left, heffect.issued_eq, hrate, List.map_singleton,
    List.sum_singleton]
  exact Shares.issue_mul_le _ _ _

/-- An unbond outside of `Idle` is promised no more than the burnt tokens are worth at the stored
rate. -/
theorem unbond_at_cachedRate (hflow : FlowInv d w) (hstate : w.core.fsmState ≠ .idle)
    {answers : Answers} {sender : String} {funds : List Coin}
    (hstep : Step d w (.execute answers sender funds .unbond) w') :
    (w'.promised - w.promised) * Decimal.fractional ≤
      (w.bank.supply d.tokenDenom - w'.bank.supply d.tokenDenom) * w.core.cachedRate.atomics := by
  cases step_cases hflow.wired hstep with
  | environment _ _ henvironment => cases henvironment
  | admin _ _ _ _ _ _ hmsg => cases hmsg
  | unbond _ _ _ q bank core msgs _ hbank hq hunbond hcore hvouchers hsupply =>
    obtain ⟨ldDenom, amount, batch, rate, expected, -, -, -, -, hrate, hexpected, -, hmsgs⟩ :=
      Core.executeUnbond_ok hunbond
    rw [Core.queryExchangeRate_of_cycle hstate, Except.ok.injEq] at hrate
    obtain ⟨-, hle, hburnt⟩ := hsupply _ _ _ hmsgs
    have hpromised : w'.promised = w.promised + expected := by
      rw [World.promised, hvouchers _ _ _ _ _ hmsgs, List.map_append, List.sum_append]
      rfl
    simp only at hle hburnt
    have hamount : w.bank.supply d.tokenDenom - (w.bank.supply d.tokenDenom - amount) = amount := by
      omega
    rw [hpromised, Nat.add_sub_cancel_left, hburnt, hamount, hrate, ← hexpected]
    exact Nat.div_mul_le_self _ _

/-- **A step outside of `Idle` trades at the stored rate.** -/
theorem Trades.At.step {a : Action} (h : t.At w.core.cachedRate) (hw : Reachable d w)
    (hstep : Step d w a w') (hstate : w.core.fsmState ≠ .idle) :
    (t.record d users w a w').At w.core.cachedRate := by
  obtain ⟨hissued, hpromised⟩ := h
  unfold Trades.record
  split
  next answers sender funds receiver =>
    split_ifs
    · have hbond := bond_at_cachedRate hw hstate hstep
      refine ⟨?_, hpromised⟩
      simp only [Nat.add_mul]
      omega
    · exact ⟨hissued, hpromised⟩
  next answers sender funds =>
    split_ifs
    · have hunbond := unbond_at_cachedRate (flowInv_of_reachable hw) hstate hstep
      refine ⟨hissued, ?_⟩
      simp only [Nat.add_mul]
      omega
    · exact ⟨hissued, hpromised⟩
  next => exact ⟨hissued, hpromised⟩

/-- **The trades of a cycle are made at one price.** A cycle begins when core leaves `Idle` in the
state `w`, and it lasts until core is in `Idle` again. All along it the rate is the one of `w`, with
what the caller of that tick has sent. So the trades of any group of users gain nothing: when the
group has unbonded no more than it was issued, it is promised no more than it has bonded.

**Proof sketch.** The tick that leaves `Idle` stores the rate that it computes. Outside of `Idle` a
bond and an unbond use the stored rate, and no step stores another. Both roundings are against the
user. -/
theorem cycle_trades {a : Action} (hw : Reachable d w) (hidle : w.core.fsmState = .idle)
    (hstep : Step d w a v) (hleft : v.core.fsmState ≠ .idle)
    (hrun : RunWhere (Recorded (Step d) (Trades.record d users))
      (fun x _ => x.1.core.fsmState ≠ .idle) (v, Trades.nothing) (w', t)) :
    ∃ answers sender funds bank rate, a = .execute answers sender funds .tick ∧
      w.bank.send sender d.core funds = some bank ∧
      Core.queryExchangeRate w.core (({ w with bank := bank } : World).querier d answers) none =
        .ok rate ∧
      (w'.core.fsmState ≠ .idle → ∀ q currentStake,
        Core.queryExchangeRate w'.core q currentStake = .ok rate) ∧
      t.At rate ∧ (t.unbonded ≤ t.issued → t.promised ≤ t.bonded) := by
  obtain ⟨answers, sender, funds, bank, ha, hbank, hrate⟩ :=
    cachedRate_of_leaving (flowInv_of_reachable hw) hstep hidle hleft
  have hv := hw.tail hstep
  have hinv : Reachable d w' ∧ w'.core.cachedRate = v.core.cachedRate ∧ t.At v.core.cachedRate := by
    refine hrun.preserves (P := fun x => Reachable d x.1 ∧ x.1.core.cachedRate = v.core.cachedRate ∧
      x.2.At v.core.cachedRate) ?_ ⟨hv, rfl, ⟨by simp [Trades.nothing], by simp [Trades.nothing]⟩⟩
    intro ⟨x, t₁⟩ b ⟨y, t₂⟩ hstate ⟨hxy, hrecord⟩ ⟨hx, hsame, hat⟩
    obtain rfl : t₂ = t₁.record d users x b y := hrecord
    have hkept := exchangeRate_of_step (flowInv_of_reachable hx) hxy hstate
    have hcached : y.core.cachedRate = x.core.cachedRate := by
      rw [Core.Storage.cachedRate, hkept]
      rfl
    refine ⟨hx.tail hxy, hcached.trans hsame, ?_⟩
    rw [← hsame] at hat ⊢
    exact hat.step hx hxy hstate
  obtain ⟨-, hsame, hat⟩ := hinv
  refine ⟨answers, sender, funds, bank, v.core.cachedRate, ha, hbank, hrate,
    fun hstate q stake => ?_, hat, hat.promised_le⟩
  rw [← hsame]
  exact Core.queryExchangeRate_of_cycle hstate q stake

end Cycle

/-! ## A sample -/

section SampleCycle

open Sample

/-- The trades of Alice. -/
def tradesOfAlice : Trades → World → Action → World → Trades :=
  Trades.record deployment fun user => user = "alice"

/-- Alice bonds 7 at a rate of three halves while core waits for a claim, and unbonds what she was
issued. -/
theorem cycle_trades_sample : ∃ w v w', Reachable deployment w ∧ Step deployment w tick v ∧
    RunWhere (Recorded (Step deployment) tradesOfAlice) (fun x _ => x.1.core.fsmState ≠ .idle)
      (v, Trades.nothing) (w', ⟨7, 4, 4, 6⟩) ∧ 6 ≤ 7 := by
  have hrun : ((initial.runAll deployment
      (setup ++ staked ++ [remote 0 1500, block 4 1040])).bind fun w =>
      (w.exec deployment tick).bind fun v =>
        (runList (fun x a => (x.1.exec deployment a).map fun t =>
            (t, tradesOfAlice x.2 x.1 a t)) (fun x _ => x.1.core.fsmState ≠ .idle)
          (v, Trades.nothing) [bond 7, unbond 4]).map fun x => (w, v, x)).any
      (fun r => decide (r.1.core.fsmState = .idle ∧ r.2.1.core.fsmState ≠ .idle ∧
        r.2.2.2 = ⟨7, 4, 4, 6⟩)) = true := by
    decide
  obtain ⟨⟨w, v, w', t⟩, hrun, hcheck⟩ := (Option.any_eq_true _ _).1 hrun
  simp only [Option.bind_eq_some_iff, Option.map_eq_some_iff, Prod.mk.injEq] at hrun
  obtain ⟨w, hw, v, hstep, ⟨w', t⟩, hlist, rfl, rfl, rfl, rfl⟩ := hrun
  obtain ⟨hidle, hleft, htrades⟩ := of_decide_eq_true hcheck
  obtain rfl : t = ⟨7, 4, 4, 6⟩ := htrades
  have hreachable := reachable_of_runAll initial_spec hw
  have hcycle : RunWhere (Recorded (Step deployment) tradesOfAlice)
      (fun x _ => x.1.core.fsmState ≠ .idle) (v, Trades.nothing) (w', ⟨7, 4, 4, 6⟩) :=
    runList_eq_some (fun _ _ _ h => Recorded.of_map (fun _ _ _ h => h) h)
      (fun _ _ _ h => of_decide_eq_true h) hlist
  obtain ⟨-, -, -, -, -, -, -, -, -, -, hgain⟩ :=
    cycle_trades hreachable hidle hstep hleft hcycle
  exact ⟨w, v, w', hreachable, hstep, hcycle, hgain (le_refl 4)⟩

end SampleCycle

end System

end DropContracts
