import DropContracts.System.Administration

set_option relaxedAutoImplicit false
set_option autoImplicit false

/-!
# The pause of a deployment

The owner of the factory pauses core, the withdrawal manager and the rewards manager with one
message. Until the owner acts again no packet is submitted, no batch moves on, no voucher is paid
for and no rewards are handed over: the contracts lose no coins, but for the liquid tokens that are
burnt and what the chain takes as fees and deposits. Bonds and unbonds go on.

## Main definitions

* `System.World.Halted` — no packet was submitted and no batch has moved on between two worlds.
* `System.Administered.Paused` — the three contracts are paused.
* `System.Administered.Frozen` — what holds between the states of a pause.

## Main results

* `System.halted_of_step`, `System.le_balance_of_halted` — a step while core is paused.
* `System.frozen_of_adminStep` — a step of a paused deployment.
* `System.frozen_of_run` — a run of a paused deployment.
* `System.exec_pause` — the owner can pause a deployment.
* `System.pause_freezes` — what a pause prevents.
-/

namespace DropContracts

open Exec

namespace System

open AutoWithdrawer
open Puppeteer (Addresses)

/-! ## Core while it is paused -/

/-- No packet was submitted between two worlds, and every batch has kept its status and what was sent
for it. -/
structure World.Halted (w w' : World) : Prop where
  nextSeq : w'.nextSeq = w.nextSeq
  inFlight : w'.inFlight.Sublist w.inFlight
  batches : ∀ id batch, w.core.unbondBatches.load id = some batch →
    ∃ batch', w'.core.unbondBatches.load id = some batch' ∧ batch'.status = batch.status ∧
      batch'.slashingEffect = batch.slashingEffect ∧
      batch'.unbondedAmount = batch.unbondedAmount

section Worlds

variable {d : Deployment} {w w' w'' : World}

/-- Nothing has changed. -/
theorem World.Halted.refl (w : World) : w.Halted w :=
  ⟨rfl, List.Sublist.refl _, fun _ batch hbatch => ⟨batch, hbatch, rfl, rfl, rfl⟩⟩

/-- Two changes, one after the other. -/
theorem World.Halted.trans (h : w.Halted w') (h' : w'.Halted w'') : w.Halted w'' := by
  refine ⟨h'.nextSeq.trans h.nextSeq, h'.inFlight.trans h.inFlight, fun id batch hbatch => ?_⟩
  obtain ⟨batch', hbatch', h₁, h₂, h₃⟩ := h.batches id batch hbatch
  obtain ⟨batch'', hbatch'', h₁', h₂', h₃'⟩ := h'.batches id batch' hbatch'
  exact ⟨batch'', hbatch'', h₁'.trans h₁, h₂'.trans h₂, h₃'.trans h₃⟩

/-- The batches are the same, and packets have at most ended. -/
theorem World.Halted.of_same (hseq : w'.nextSeq = w.nextSeq)
    (hflight : w'.inFlight.Sublist w.inFlight)
    (hbatches : w'.core.unbondBatches = w.core.unbondBatches) : w.Halted w' :=
  ⟨hseq, hflight, fun _ batch hbatch => ⟨batch, by rw [hbatches, hbatch], rfl, rfl, rfl⟩⟩

/-- **While core is paused and nobody else may send requests, no step submits a packet** or moves a
batch on. -/
theorem halted_of_step {a : Action} (hwired : Wired d w.core.config)
    (hpaused : w.core.isPaused = true) (hallowed : w.puppeteer.config.allowedSenders = [d.core])
    (hstep : Step d w a w') : w.Halted w' := by
  have hnotick : ∀ {q : Core.Querier} {env : Env} {info : MessageInfo} {core : Core.Storage}
      {msgs : List Core.CoreMsg}, Core.executeTick w.core q env info ≠ .ok (core, msgs) := by
    intro q env info core msgs htick
    have hrunning := (Core.executeTick_ok htick).1
    rw [hpaused] at hrunning
    cases hrunning
  cases step_cases hwired hstep with
  | environment _ _ _ hcore hflow =>
    exact .of_same hflow.nextSeq (hflow.inFlight ▸ List.Sublist.refl _) (by rw [hcore.core])
  | foreign addrValidate sender funds msg _ p hsender hsubmission =>
    have hmem := hsubmission.allowed
    rw [hallowed, List.mem_singleton] at hmem
    exact absurd hmem hsender
  | bond answers sender funds receiver q core msgs _ _ hbond hcore _ _ hflow =>
    exact .of_same hflow.nextSeq (hflow.inFlight ▸ List.Sublist.refl _)
      (by rw [hcore, (Core.executeBond_frame hbond).unbondBatches])
  | unbond answers sender funds q bank core msgs _ _ _ hunbond hcore _ _ _ _ _ hflow =>
    refine ⟨hflow.nextSeq, hflow.inFlight ▸ List.Sublist.refl _, fun id batch hbatch => ?_⟩
    obtain ⟨current, item, hcurrent, hsaved⟩ := Core.executeUnbond_saves hunbond
    rw [hcore, hsaved, Core.Storage.saveBatch, StorageMap.load_save]
    split_ifs with hid
    · rw [hid, hcurrent, Option.some.injEq] at hbatch
      rw [← hbatch]
      exact ⟨_, rfl, rfl, rfl, rfl⟩
    · exact ⟨batch, hbatch, rfl, rfl, rfl⟩
  | admin answers sender funds msg core _ _ hadmin _ _ hcore _ _ hflow =>
    refine .of_same hflow.nextSeq (hflow.inFlight ▸ List.Sublist.refl _) ?_
    rw [hcore]
    cases hadmin <;> rfl
  | tick answers sender funds q bank core _ _ _ htick => exact absurd htick hnotick
  | tickSubmit answers sender funds q bank core msg msgFunds _ p _ _ htick =>
    exact absurd htick hnotick
  | accepted seq outcome p txState transaction core _ _ _ _ _ hhook hcore _ _ hinFlight _ _ hnext =>
    obtain ⟨_, _, _, _, hchanges⟩ := Core.executePuppeteerHook_changes hhook
    exact .of_same hnext (hinFlight ▸ List.filter_sublist) (by rw [hcore, hchanges])
  | refused seq outcome p _ _ _ hcore hinFlight _ hnext =>
    exact .of_same hnext (hinFlight ▸ List.filter_sublist) (by rw [hcore.core])

/-- A call of the puppeteer by somebody who may not send requests moves the attached coins only. -/
theorem callPuppeteer_bank {addrValidate : String → Bool} {info : MessageInfo}
    {msg : PuppeteerExecuteMsg} (hallowed : info.sender ∉ w.puppeteer.config.allowedSenders)
    (h : w.callPuppeteer d addrValidate info msg = some w') :
    w.bank.send info.sender d.puppeteer (mergeCoins info.funds) = some w'.bank := by
  simp only [World.callPuppeteer, Option.bind_eq_bind, Option.bind_eq_some_iff,
    toOption_eq_some] at h
  obtain ⟨bank, hbank, ⟨puppeteer, out⟩, hexec, h⟩ := h
  cases Puppeteer.execute_ok hexec with
  | registerICA registerFee hfee hica =>
    rw [afterPuppeteer_register h]
    exact hbank
  | setFees recvFee ackFee timeoutFee registerFee howner =>
    rw [← Option.some.inj h]
    exact hbank
  | submit _ transaction replyTo ica fee m hrequests hsender => exact absurd hsender hallowed

/-- **While core is paused a step takes from nobody but who takes it**, but for liquid tokens. -/
theorem le_balance_of_halted {a : Action} {account denom : String}
    (hwired : Wired d w.core.config) (hpaused : w.core.isPaused = true)
    (hallowed : w.puppeteer.config.allowedSenders = [d.core]) (hsender : a.sender ≠ some account)
    (hdenom : denom ≠ d.tokenDenom) (hstep : Step d w a w') :
    w.bank.balance account denom ≤ w'.bank.balance account denom := by
  cases a with
  | execute answers sender funds msg =>
    have hne : account ≠ sender := fun heq => hsender (congrArg some heq.symm)
    obtain ⟨-, hother, bank, core, msgs, after, hbank, hexec, -, hafter, rfl⟩ := execute_ok hstep
    have hle := Bank.le_balance_send hbank hne denom
    have hadmin : msg.isAdmin = true → w.bank.balance account denom ≤
        (after.noteEntered w).bank.balance account denom := fun hmsg => by
      rw [execute_admin_msgs hmsg hexec] at hafter
      rw [← Option.some.inj hafter]
      exact hle
    cases msg with
    | bond receiver =>
      obtain ⟨coin, denomType, rate, issue, receiver', -, -, -, -, -, rfl⟩ :=
        Core.executeBond_ok hexec
      simp only [World.dispatchAll, World.dispatch, Option.bind_eq_bind, Option.bind_eq_some_iff,
        Option.some.injEq] at hafter
      obtain ⟨w₁, hmint, rfl⟩ := hafter
      split_ifs at hmint
      obtain ⟨-, rfl⟩ := tokenMint_ok hmint
      refine hle.trans ?_
      simp only [World.noteEntered, Bank.mint, Bank.creditCoin]
      split_ifs <;> omega
    | unbond =>
      cases step_unbond hstep with
      | unbond _ _ _ _ _ _ _ _ _ _ _ _ _ _ _ hbalance => rw [hbalance account denom hdenom]
      | admin _ _ _ _ _ _ hmsg => cases hmsg
      | environment _ _ henvironment => cases henvironment
    | tick =>
      have hrunning := (Core.executeTick_ok hexec).1
      rw [hpaused] at hrunning
      cases hrunning
    | puppeteerHook hookMsg =>
      simp only [Core.execute, Core.silently, Core.executePuppeteerHook, bind_eq_ok,
        ensure_eq_ok] at hexec
      obtain ⟨_, ⟨-, hpuppeteer, -⟩, -⟩ := hexec
      exact absurd (hpuppeteer.trans hwired.puppeteer) hother
    | updateConfig newConfig => exact hadmin rfl
    | resetBondedAmount => exact hadmin rfl
    | updateNonNativeRewardsReceivers items => exact hadmin rfl
    | pause => exact hadmin rfl
    | unpause => exact hadmin rfl
  | executePuppeteer addrValidate sender funds msg =>
    have hne : account ≠ sender := fun heq => hsender (congrArg some heq.symm)
    simp only [Step, World.exec, World.executePuppeteer, Option.bind_eq_bind,
      Option.bind_eq_some_iff, Option.guard_eq_some'] at hstep
    obtain ⟨-, ⟨hcore, -⟩, hcall⟩ := hstep
    have hsend := callPuppeteer_bank (by rw [hallowed, List.mem_singleton]; exact hcore) hcall
    exact Bank.le_balance_send hsend hne denom
  | deliver seq outcome =>
    obtain ⟨p, hbank⟩ := bank_deliver hstep
    rw [hbank]
    unfold World.settle World.refund
    split
    · rfl
    all_goals
      split
      · simp only [Bank.creditCoin]
        split_ifs <;> omega
      · rfl
  | delegationsAndBalance data => rw [← Option.some.inj hstep]
  | nonNativeRewardsBalances coins => rw [← Option.some.inj hstep]
  | openAck address =>
    simp only [Step, World.exec, World.openAck, Option.bind_eq_bind, Option.bind_eq_some_iff,
      Option.guard_eq_some', Option.some.injEq] at hstep
    obtain ⟨-, -, puppeteer, -, rfl⟩ := hstep
    exact le_rfl
  | bankSend sender receiver coins =>
    have hne : account ≠ sender := fun heq => hsender (congrArg some heq.symm)
    simp only [Step, World.exec, World.bankSend, Option.bind_eq_bind, Option.bind_eq_some_iff,
      Option.guard_eq_some', Option.some.injEq] at hstep
    obtain ⟨-, -, bank, hbank, rfl⟩ := hstep
    exact Bank.le_balance_send hbank hne denom
  | nextBlock height time =>
    simp only [Step, World.exec, World.nextBlock] at hstep
    split_ifs at hstep
    rw [← Option.some.inj hstep]

end Worlds

/-! ## A paused deployment -/

/-- Core, the withdrawal manager and the rewards manager are paused, and only core may send requests
to the puppeteer. -/
structure Administered.Paused {σ : Type} (d : AdminDeployment) (s : Administered σ) : Prop where
  core : s.world.core.isPaused = true
  manager : s.settlement.manager.isPaused = true
  rewardsManager : s.rewardsManager.isPaused = true
  allowedSenders : s.world.puppeteer.config.allowedSenders = [d.core]

/-- No packet was submitted, no batch has moved on and no voucher was paid for between two states,
and no contract has lost coins. Liquid tokens are burnt in unbonds, and the coins that the chain
takes for packets, accounts and queries are not counted. -/
structure Administered.Frozen {σ : Type} (d : AdminDeployment) (s s' : Administered σ) : Prop where
  world : s.world.Halted s'.world
  payments : s'.settlement.payments = s.settlement.payments
  balances : ∀ contract ∈ d.contracts, ∀ denom, denom ≠ d.tokenDenom →
    denom ≠ Puppeteer.LOCAL_DENOM →
    s.world.bank.balance contract denom ≤ s'.world.bank.balance contract denom

section Pause

variable {σ : Type} {d : AdminDeployment} {C : OwnedCw721 σ Payload} {s s' s'' : Administered σ}
  {a : Addresses} {addrValidate : String → Bool} {balances : List Coin} {info : MessageInfo}

/-- Nothing has changed. -/
theorem Administered.Frozen.refl (s : Administered σ) : s.Frozen d s :=
  ⟨.refl _, rfl, fun _ _ _ _ _ => le_rfl⟩

/-- Two changes, one after the other. -/
theorem Administered.Frozen.trans (h : s.Frozen d s') (h' : s'.Frozen d s'') : s.Frozen d s'' :=
  ⟨h.world.trans h'.world, h'.payments.trans h.payments, fun contract hcontract denom htoken hlocal =>
    (h.balances contract hcontract denom htoken hlocal).trans
      (h'.balances contract hcontract denom htoken hlocal)⟩

/-- A pause is one of the rules. -/
theorem Administered.Paused.of_sameRules (h : s.Paused d) (hsame : s.SameRules C s') :
    s'.Paused d where
  core := hsame.world.core.isPaused.trans h.core
  manager := by
    rw [hsame.manager]
    exact h.manager
  rewardsManager := by
    rw [hsame.rewardsManager]
    exact h.rewardsManager
  allowedSenders := by
    rw [hsame.world.puppeteer.config]
    exact h.allowedSenders

/-- Coins that somebody else sends freeze everything. -/
theorem frozen_of_send {bank : Bank} {sender receiver : String} {coins : List Coin}
    (hsender : sender ∉ d.contracts) (h : s.world.bank.send sender receiver coins = some bank)
    (hworld : s'.world = { s.world with bank := bank })
    (hpayments : s'.settlement.payments = s.settlement.payments) : s.Frozen d s' := by
  refine ⟨?_, hpayments, fun contract hcontract denom _ _ => ?_⟩
  · rw [hworld]
    exact ⟨rfl, List.Sublist.refl _, fun _ batch hbatch => ⟨batch, hbatch, rfl, rfl, rfl⟩⟩
  · rw [hworld]
    exact Bank.le_balance_send h (fun heq => hsender (heq ▸ hcontract)) denom

/-- A paused withdrawal manager pays nothing. -/
theorem callManager_paused {t t' : Settlement σ} {msg : WithdrawalManager.ExecuteMsg}
    (hpaused : t.manager.isPaused = true)
    (h : t.callManager d.toSettlementDeployment C.toCw721 addrValidate info msg = some t') :
    t'.payments = t.payments ∧ ∃ bank, t.world.bank.send info.sender d.manager info.funds = some bank ∧
      t'.world = { t.world with bank := bank } := by
  simp only [Settlement.callManager, Option.bind_eq_bind, Option.bind_eq_some_iff,
    toOption_eq_some, Option.guard_eq_some'] at h
  obtain ⟨bank, hbank, ⟨manager, payment⟩, hexec, -, -, h⟩ := h
  rcases WithdrawalManager.execute_ok hexec with ⟨_, _, _, paid, -, -, -, hpaid⟩ | ⟨rfl, -⟩
  · obtain ⟨_, _, _, _, _, hrunning, -⟩ := WithdrawalManager.executeReceiveNftWithdraw_ok hpaid
    rw [hpaused] at hrunning
    cases hrunning
  · simp only [Settlement.pay, Option.some.injEq] at h
    subst h
    exact ⟨rfl, bank, hbank, rfl⟩

/-- A step of a paused settlement. -/
theorem frozen_of_settlement (h : Governed d C s) (hpaused : s.Paused d) {b : SettlementAction}
    (hsender : ∀ contract ∈ d.contracts, b.sender ≠ some contract)
    (hstep : s.step d C b = some s') : s.Frozen d s' := by
  simp only [Administered.step, Option.bind_eq_bind, Option.bind_eq_some_iff,
    Option.some.injEq] at hstep
  obtain ⟨t, ht, rfl⟩ := hstep
  cases b with
  | world action =>
    simp only [Settlement.exec, Option.bind_eq_bind, Option.bind_eq_some_iff, Option.pure_def,
      Option.some.injEq] at ht
    obtain ⟨-, -, world, hworld, nft, -, rfl⟩ := ht
    exact ⟨halted_of_step h.wired hpaused.core hpaused.allowedSenders hworld, rfl,
      fun contract hcontract denom htoken _ => le_balance_of_halted h.wired hpaused.core
        hpaused.allowedSenders (hsender contract hcontract) htoken hworld⟩
  | voucher addrValidate sender msg =>
    simp only [Settlement.exec, Option.bind_eq_bind, Option.bind_eq_some_iff,
      Option.guard_eq_some'] at ht
    obtain ⟨-, -, nft, -, hreceive⟩ := ht
    rcases receiveNft_cases hreceive with rfl | ⟨tokenId, receiver, -, hcall⟩
    · exact ⟨.refl _, rfl, fun _ _ _ _ _ => le_rfl⟩
    · obtain ⟨hpayments, bank, hbank, hworld⟩ := callManager_paused
        (t := { s.settlement with nft := nft }) hpaused.manager hcall
      obtain rfl := Option.some.inj hbank
      have hsame : t.world = s.world := hworld
      refine ⟨?_, hpayments, fun _ _ _ _ _ => ?_⟩
      · show s.world.Halted t.world
        rw [hsame]
        exact .refl _
      · show _ ≤ t.world.bank.balance _ _
        rw [hsame]
  | manager addrValidate info msg =>
    simp only [Settlement.exec, Option.bind_eq_bind, Option.bind_eq_some_iff,
      Option.guard_eq_some'] at ht
    obtain ⟨-, -, hcall⟩ := ht
    obtain ⟨hpayments, bank, hbank, hworld⟩ := callManager_paused hpaused.manager hcall
    exact frozen_of_send (fun hmem => hsender info.sender hmem rfl) hbank hworld hpayments

/-- **A step of a paused deployment that the owner does not take.** -/
theorem frozen_of_adminStep (h : Governed d C s) (hpaused : s.Paused d) {action : AdminAction}
    (houtside : AdminAction.Outside s action) (hstep : AdminStep d C s action s') :
    s.Frozen d s' := by
  simp only [AdminStep, Administered.exec] at hstep
  split_ifs at hstep with hcontract
  have hsender : ∀ contract ∈ d.contracts, action.sender ≠ some contract :=
    fun contract hmem heq => hcontract ⟨contract, hmem, heq⟩
  have hnot : ∀ sender, action.sender = some sender → sender ∉ d.contracts :=
    fun sender heq hmem => hsender sender hmem heq
  cases action with
  | settlement b => exact frozen_of_settlement h hpaused hsender hstep
  | puppeteer a info msg =>
    have hqueries : s.callQueries d a info msg = some s' → s.Frozen d s' := by
      intro hcall
      simp only [Administered.callQueries, Option.bind_eq_bind, Option.bind_eq_some_iff,
        Option.some.injEq] at hcall
      obtain ⟨bank, hbank, _, -, w, -, rfl⟩ := hcall
      exact ⟨⟨rfl, List.Sublist.refl _, fun _ batch hbatch => ⟨batch, hbatch, rfl, rfl, rfl⟩⟩, rfl,
        fun contract hmem denom _ _ =>
          Bank.le_balance_send hbank (fun heq => hnot _ rfl (heq ▸ hmem)) denom⟩
    cases msg with
    | request request =>
      exact frozen_of_settlement (b := .world (.executePuppeteer a.addrValidate info.sender
        info.funds request)) h hpaused hsender hstep
    | _ => exact hqueries hstep
  | kvQueryResult queryId result =>
    simp only [Option.bind_eq_bind, Option.bind_eq_some_iff, Option.some.injEq] at hstep
    obtain ⟨puppeteer, -, rfl⟩ := hstep
    exact ⟨⟨rfl, List.Sublist.refl _, fun _ batch hbatch => ⟨batch, hbatch, rfl, rfl, rfl⟩⟩, rfl,
      fun _ _ _ _ _ => le_rfl⟩
  | txQueryResult transfers =>
    simp only [Option.bind_eq_bind, Option.bind_eq_some_iff, Option.some.injEq] at hstep
    obtain ⟨puppeteer, -, rfl⟩ := hstep
    exact ⟨⟨rfl, List.Sublist.refl _, fun _ batch hbatch => ⟨batch, hbatch, rfl, rfl, rfl⟩⟩, rfl,
      fun _ _ _ _ _ => le_rfl⟩
  | token addrValidate info msg =>
    change s.callToken d addrValidate info msg = some s' at hstep
    rw [callToken_eq_none h
      fun heq => hsender d.core (by simp [AdminDeployment.contracts]) (congrArg some heq)] at hstep
    cases hstep
  | strategy addrValidate info msg =>
    simp only [Administered.callStrategy, Option.bind_eq_bind, Option.bind_eq_some_iff,
      Option.some.injEq] at hstep
    obtain ⟨bank, hbank, strategy, -, rfl⟩ := hstep
    exact frozen_of_send (hnot _ rfl) hbank rfl rfl
  | validatorsSet addrValidate info msg =>
    simp only [Administered.callValidatorsSet, Option.bind_eq_bind, Option.bind_eq_some_iff,
      Option.some.injEq] at hstep
    obtain ⟨bank, hbank, validatorsSet, -, rfl⟩ := hstep
    exact frozen_of_send (hnot _ rfl) hbank rfl rfl
  | rewardsManager addrValidate balances info msg =>
    simp only [Administered.callRewardsManager, Option.bind_eq_bind, Option.bind_eq_some_iff,
      toOption_eq_some, Option.some.injEq] at hstep
    obtain ⟨bank, hbank, ⟨rewardsManager, msgs⟩, hexec, bank', hover, rfl⟩ := hstep
    rcases RewardsManager.execute_ok hexec with ⟨-, hrunning, -⟩ | ⟨-, rfl⟩
    · rw [hpaused.rewardsManager] at hrunning
      cases hrunning
    · obtain rfl := Option.some.inj hover
      exact frozen_of_send (hnot _ rfl) hbank rfl rfl
  | coreOwnership addrValidate info action =>
    change s.callCoreOwnership d addrValidate info action = some s' at hstep
    rw [callCoreOwnership_eq_none h
      fun heq => hsender d.factory (by simp [AdminDeployment.contracts]) (congrArg some heq)] at hstep
    cases hstep
  | validatorsOwnership addrValidate info action =>
    change s.callValidatorsOwnership d addrValidate info action = some s' at hstep
    rw [callValidatorsOwnership_eq_none h
      fun heq => hsender d.factory (by simp [AdminDeployment.contracts]) (congrArg some heq)] at hstep
    cases hstep
  | factory q answers a balances info msg =>
    obtain ⟨bank, hbank, rfl⟩ := callFactory_outside h houtside hstep
    exact frozen_of_send (hnot _ rfl) hbank rfl rfl

/-- **A paused deployment stays paused and frozen**, along every run without the owner. The rules are
kept as well, so that the factory governs the contracts all the time. -/
theorem frozen_of_run (h : Governed d C s) (hpaused : s.Paused d)
    (hrun : RunWhere (AdminStep d C) AdminAction.Outside s s') : s'.Paused d ∧ s.Frozen d s' := by
  have hboth : s.SameRules C s' ∧ s.Frozen d s' := by
    refine hrun.preserves (P := fun t => s.SameRules C t ∧ s.Frozen d t) ?_ ⟨.refl h.keyed, .refl _⟩
    rintro t action t' houtside hstep ⟨hsame, hfrozen⟩
    have ht := h.of_sameRules hsame
    have hpausedT := hpaused.of_sameRules hsame
    exact ⟨hsame.trans (sameRules_of_adminStep ht houtside hstep),
      hfrozen.trans (frozen_of_adminStep ht hpausedT houtside hstep)⟩
  exact ⟨hpaused.of_sameRules hboth.1, hboth.2⟩

/-! ## The message of the owner -/

/-- Core is paused. -/
def Administered.pauseCore (s : Administered σ) : Administered σ :=
  { s with settlement := { s.settlement with
      world := { s.world with core := { s.world.core with isPaused := true } } } }

/-- The withdrawal manager is paused. -/
def Administered.pauseManager (s : Administered σ) : Administered σ :=
  { s with settlement := { s.settlement with
      manager := { s.settlement.manager with isPaused := true } } }

/-- The rewards manager is paused. -/
def Administered.pauseRewards (s : Administered σ) : Administered σ :=
  { s with rewardsManager := { s.rewardsManager with isPaused := true } }

/-- The contracts still belong to the factory when core is paused. -/
theorem Governed.pauseCore (h : Governed d C s) : Governed d C s.pauseCore := { h with }

/-- The contracts still belong to the factory when the withdrawal manager is paused. -/
theorem Governed.pauseManager (h : Governed d C s) : Governed d C s.pauseManager := { h with }

/-- The contracts still belong to the factory when the rewards manager is paused. -/
theorem Governed.pauseRewards (h : Governed d C s) : Governed d C s.pauseRewards := { h with }

/-- The factory pauses core. -/
theorem call_corePause (h : Governed d C s) (answers : Answers) (balances : List Coin) :
    s.call d C answers a balances d.core [] (.core .pause) = some s.pauseCore := by
  have hmem : d.core ∈ d.contracts := by simp [AdminDeployment.contracts]
  obtain ⟨hcore, hpuppeteer, -, -, hmanager⟩ := d.factory_ne
  have hexec : s.world.exec d.toDeployment (.execute answers d.factory [] .pause) =
      some { s.world with core := { s.world.core with isPaused := true } } := by
    simp [World.exec, World.execute, hcore, hpuppeteer, Bank.send, Core.execute, Core.silently,
      Core.execPause, Core.assertOwner, ensure, h.core, h.wired, World.dispatchAll,
      World.noteEntered, Except.toOption]
  simp [Administered.call, hmem, Administered.step, Settlement.exec, Action.sender, hmanager, hexec,
    Settlement.mintAll, Administered.pauseCore]

/-- The factory pauses the withdrawal manager. -/
theorem call_managerPause (h : Governed d C s) (answers : Answers) (balances : List Coin) :
    s.call d C answers a balances d.manager [] (.withdrawalManager .pause) =
      some s.pauseManager := by
  have hmem : d.manager ∈ d.contracts := by simp [AdminDeployment.contracts]
  obtain ⟨hcore, hpuppeteer, -, hvoucher, hmanager⟩ := d.factory_ne
  simp [Administered.call, hmem, Administered.step, Settlement.exec, Settlement.callManager, hcore,
    hpuppeteer, hvoucher, hmanager, Bank.send, WithdrawalManager.execute,
    WithdrawalManager.execPause, WithdrawalManager.assertOwner, ensure, h.manager, h.configured,
    Settlement.pay, Except.toOption, Administered.pauseManager]

/-- The factory pauses the rewards manager. -/
theorem call_rewardsPause (h : Governed d C s) (answers : Answers) (balances : List Coin) :
    s.call d C answers a balances d.rewardsManager [] (.rewardsManager .pause) =
      some s.pauseRewards := by
  have hmem : d.rewardsManager ∈ d.contracts := by simp [AdminDeployment.contracts]
  simp [Administered.call, hmem, Administered.callRewardsManager, Bank.send, RewardsManager.execute,
    RewardsManager.execPause, RewardsManager.assertOwner, ensure, h.rewardsManager,
    Administered.withBank, Except.toOption, Administered.pauseRewards]

/-- **The owner of the factory can pause a deployment**, with coins that it can send. -/
theorem exec_pause (h : Governed d C s) {q : Factory.Querier} {answers : Answers} {owner : String}
    {funds : List Coin} {bank : Bank} (howner : s.factory.ownership.owner = some owner)
    (hnot : owner ∉ d.contracts) (hbank : s.world.bank.send owner d.factory funds = some bank) :
    s.exec d C (.factory q answers a balances ⟨owner, funds⟩ .pause) =
      some (s.withBank bank).pauseCore.pauseManager.pauseRewards := by
  obtain ⟨state, hstate, hcore, -, hmanager, hrewards⟩ := h.stored
  have hassert : s.factory.ownership.assertOwner owner = .ok () :=
    Ownership.assertOwner_eq_ok.2 howner
  have hother : ¬ ∃ contract ∈ d.contracts,
      (AdminAction.factory q answers a balances ⟨owner, funds⟩ .pause).sender = some contract := by
    rintro ⟨contract, hmem, heq⟩
    obtain rfl : owner = contract := Option.some.inj heq
    exact hnot hmem
  have hexecute : Factory.execute s.factory (Administered.factoryQuerier d q)
      ⟨s.world.height, s.world.time, d.factory⟩ ⟨owner, funds⟩ .pause = .ok (s.factory, [
        .execute d.core (.core .pause) [], .execute d.manager (.withdrawalManager .pause) [],
        .execute d.rewardsManager (.rewardsManager .pause) []]) := by
    simp [Factory.execute, Factory.passingOn, Factory.execPause, Factory.assertOwner,
      Factory.loadState, hassert, hstate, hcore, hmanager, hrewards, mapError, orError]
  have hbanked : Governed d C (s.withBank bank) := h.of_sameRules (sameRules_withBank h bank)
  have hsame : ({ s.withBank bank with factory := s.factory } : Administered σ) = s.withBank bank :=
    rfl
  simp only [Administered.exec, hother, ↓reduceIte, Administered.callFactory, hbank, hexecute,
    Except.toOption, Option.bind_eq_bind, Option.bind_some, List.foldlM_cons, List.foldlM_nil,
    Administered.dispatch, hsame, call_corePause hbanked, call_managerPause hbanked.pauseCore,
    call_rewardsPause hbanked.pauseCore.pauseManager, Option.pure_def]

/-- **A pause freezes the deployment.** The owner of the factory can pause a deployment that the
factory governs; and from then on, along every run in which neither the owner nor a proposed owner
sends a message to the factory, the three contracts stay paused, no packet is submitted, no batch
moves on, no voucher is paid for and no contract loses coins but liquid tokens and the coins that
fees and deposits are paid in, whatever anybody sends to any of the contracts and whatever the chain
answers. Core has to be the only account whose requests the puppeteer takes.

**Proof sketch.** The rules are kept by runs without the owner, the pauses among them. Only core may
send requests, and without ticks it sends none; the withdrawal manager pays and the rewards manager
hands over only while they are not paused. -/
theorem pause_freezes (h : Governed d C s)
    (hallowed : s.world.puppeteer.config.allowedSenders = [d.core]) {owner : String}
    (howner : s.factory.ownership.owner = some owner) (hnot : owner ∉ d.contracts)
    (q : Factory.Querier) (answers : Answers) (a : Addresses) (balances : List Coin) :
    (∃ s₁, AdminStep d C s (.factory q answers a balances ⟨owner, []⟩ .pause) s₁) ∧
      ∀ funds s₁ s₂, AdminStep d C s (.factory q answers a balances ⟨owner, funds⟩ .pause) s₁ →
        RunWhere (AdminStep d C) AdminAction.Outside s₁ s₂ → s₂.Paused d ∧ s₁.Frozen d s₂ := by
  constructor
  · have hnothing : s.world.bank.send owner d.factory [] = some s.world.bank := rfl
    exact ⟨_, exec_pause h howner hnot hnothing⟩
  · intro funds s₁ s₂ hpause hrun
    obtain ⟨bank, hbank⟩ : ∃ bank, s.world.bank.send owner d.factory funds = some bank := by
      have hstep := hpause
      simp only [AdminStep, Administered.exec] at hstep
      split_ifs at hstep
      simp only [Administered.callFactory, Option.bind_eq_bind, Option.bind_eq_some_iff] at hstep
      obtain ⟨bank, hbank, -⟩ := hstep
      exact ⟨bank, hbank⟩
    rw [AdminStep, exec_pause h howner hnot hbank, Option.some.injEq] at hpause
    subst hpause
    have hgoverned := (h.of_sameRules (sameRules_withBank h bank)).pauseCore.pauseManager.pauseRewards
    exact frozen_of_run hgoverned ⟨rfl, rfl, rfl, hallowed⟩ hrun

end Pause

open Sample

/-- The owner pauses the sample deployment; Alice can still bond, and the deployment is frozen. -/
theorem pause_freezes_sample : ∃ s₁ s₂,
    AdminStep adminDeployment (ownedCw721Base Payload) administered (.factory factoryQuerier
      (answers members) addresses [] ⟨"dao", []⟩ .pause) s₁ ∧
    runOutside s₁ [.settlement (.world (bond 1000))] = some s₂ ∧
    s₂.world.bank.balance "core" "ibc/uatom" = 1000 ∧ s₂.Paused adminDeployment ∧
    s₁.Frozen adminDeployment s₂ := by
  have hrun : ((administered.exec adminDeployment (ownedCw721Base Payload) (.factory factoryQuerier
      (answers members) addresses [] ⟨"dao", []⟩ .pause)).bind fun s₁ =>
        (runOutside s₁ [.settlement (.world (bond 1000))]).map fun s₂ => (s₁, s₂)).any (fun r =>
          decide (r.2.world.bank.balance "core" "ibc/uatom" = 1000)) = true := by
    decide
  obtain ⟨⟨_, _⟩, hrun, hcheck⟩ := (Option.any_eq_true _ _).1 hrun
  simp only [Option.bind_eq_some_iff, Option.map_eq_some_iff, Prod.mk.injEq] at hrun
  obtain ⟨s₁, hpause, s₂, hothers, rfl, rfl⟩ := hrun
  have hfrozen := (pause_freezes (C := ownedCw721Base Payload) administered_governed rfl
    (rfl : administered.factory.ownership.owner = some "dao") (by decide) factoryQuerier
    (answers members) addresses []).2 [] s₁ s₂ hpause (run_of_runOutside hothers)
  exact ⟨s₁, s₂, hpause, hothers, of_decide_eq_true hcheck, hfrozen.1, hfrozen.2⟩

end System

end DropContracts
