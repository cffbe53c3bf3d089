import DropContracts.System.Settlement
import DropContracts.ValidatorsSet.Contract

set_option relaxedAutoImplicit false
set_option autoImplicit false

/-!
# What only an owner changes

The rules that the contracts work by are their configurations, owners, pauses, fees and, for the
validator set, the validators with their weights. A step that is not taken by the owner of a contract
leaves its rules alone.

## Main definitions

* `System.World.SameRules` — core and the puppeteer have the same rules in two worlds.
* `ValidatorsSet.SameValidators` — the same validators with the same weights, and the same owner.

## Main results

* `System.sameRules_of_step` — a step that the owners do not take leaves the rules alone.
* `System.settlement_sameRules`, `System.settlement_sameMinter` — the same for the withdrawal
  manager and the vouchers.
* `ValidatorsSet.execute_sameValidators` — the same for the validator set.
-/

namespace DropContracts

open Exec

namespace ValidatorsSet

/-- The same validators with the same weights under the same configuration and owner, and every
entry under the address that it holds. What the statistics and the votes say may be different. -/
structure SameValidators (s s' : Storage) : Prop where
  config : s'.config = s.config
  cwOwner : s'.cwOwner = s.cwOwner
  keyed : s'.Keyed
  weights : ∀ address, (s'.validatorsSet.load address).map ValidatorInfo.toValidatorInfo =
    (s.validatorsSet.load address).map ValidatorInfo.toValidatorInfo

section Weights

variable {s s' s'' : Storage} {info : MessageInfo} {addrValidate : String → Bool}

/-- Nothing has changed. -/
theorem SameValidators.refl (hs : s.Keyed) : SameValidators s s := ⟨rfl, rfl, hs, fun _ => rfl⟩

/-- Two changes, one after the other. -/
theorem SameValidators.trans (h : SameValidators s s') (h' : SameValidators s' s'') :
    SameValidators s s'' :=
  ⟨h'.config.trans h.config, h'.cwOwner.trans h.cwOwner, h'.keyed,
    fun address => (h'.weights address).trans (h.weights address)⟩

/-- An entry is saved over the old one, with the same address and weight. -/
theorem sameValidators_save (hs : s.Keyed) {address : String} {old new : ValidatorInfo}
    (hload : s.validatorsSet.load address = some old)
    (hnew : new.toValidatorInfo = old.toValidatorInfo) :
    SameValidators s
      { s with validatorsSet := s.validatorsSet.save old.valoperAddress new } := by
  have haddress : new.valoperAddress = old.valoperAddress :=
    congrArg DropContracts.ValidatorInfo.valoperAddress hnew
  refine ⟨rfl, rfl, (save_over hs hload haddress).1, fun a => ?_⟩
  rw [StorageMap.load_save]
  split_ifs with ha
  · rw [ha, hs address old hload, hload, Option.map_some, Option.map_some, hnew]
  · rfl

/-- Reports about validators leave their weights alone. -/
theorem sameValidators_updates (hs : s.Keyed) (validators : List ValidatorInfoUpdate) :
    SameValidators s (validators.foldl Storage.saveUpdate s) := by
  induction validators generalizing s with
  | nil => exact .refl hs
  | cons update validators ih =>
    have hfirst : SameValidators s (s.saveUpdate update) := by
      unfold Storage.saveUpdate
      split
      · exact .refl hs
      · next validator hload => exact sameValidators_save hs hload rfl
    exact hfirst.trans (ih hfirst.keyed)

/-- Votes of validators leave their weights alone. The induction is on the list of votes. -/
theorem sameValidators_votes (hs : s.Keyed) {proposalId : ℕ} {votes : List ProposalVote}
    (h : saveVotes proposalId s votes = .ok s') : SameValidators s s' := by
  induction votes generalizing s with
  | nil =>
    rw [← Except.ok.inj h]
    exact .refl hs
  | cons vote votes ih =>
    simp only [saveVotes] at h
    split at h
    · exact ih hs h
    · next validator hload =>
      obtain ⟨voted, hvoted, hrest⟩ := bind_eq_ok.1 h
      have hsame : voted.toValidatorInfo = validator.toValidatorInfo := by
        simp only [ValidatorInfo.vote, bind_eq_ok, pure_eq_ok, Except.ok.injEq] at hvoted
        obtain ⟨_, -, _, -, rfl⟩ := hvoted
        rfl
      rw [vote_valoperAddress hvoted] at hrest
      have hfirst := sameValidators_save hs hload hsame
      exact hfirst.trans (ih hfirst.keyed hrest)

/-- **Only the owner changes the validators, their weights and the configuration.** -/
theorem execute_sameValidators {msg : ExecuteMsg} (hs : s.Keyed)
    (hsender : info.sender ≠ s.cwOwner) (h : execute s info addrValidate msg = .ok s') :
    SameValidators s s' := by
  cases msg with
  | updateConfig newConfig =>
    simp only [execute, executeUpdateConfig, assertOwner, bind_eq_ok, ensure_eq_ok] at h
    obtain ⟨-, howner, -⟩ := h
    exact absurd howner hsender
  | updateValidators validators =>
    simp only [execute, executeUpdateValidators, assertOwner, bind_eq_ok, ensure_eq_ok] at h
    obtain ⟨-, howner, -⟩ := h
    exact absurd howner hsender
  | updateValidator validator =>
    simp only [execute, executeUpdateValidator, assertOwner, bind_eq_ok, ensure_eq_ok] at h
    obtain ⟨-, howner, -⟩ := h
    exact absurd howner hsender
  | updateValidatorsInfo validators =>
    simp only [execute, executeUpdateValidatorsInfo, bind_eq_ok, pure_eq_ok, Except.ok.injEq] at h
    obtain ⟨-, -, rfl⟩ := h
    exact sameValidators_updates hs validators
  | updateValidatorsVoting proposal =>
    simp only [execute, executeUpdateValidatorsVoting, bind_eq_ok] at h
    obtain ⟨-, -, h⟩ := h
    split_ifs at h
    · rw [← Except.ok.inj h]
      exact .refl hs
    · exact sameValidators_votes hs h

end Weights

end ValidatorsSet

namespace System

/-! ## Core and the puppeteer -/

/-- The puppeteer has the same configuration and fees in two worlds. -/
structure World.SameFees (w w' : World) : Prop where
  config : w'.puppeteer.config = w.puppeteer.config
  ibcFee : w'.puppeteer.ibcFee = w.puppeteer.ibcFee
  registerFee : w'.puppeteer.registerFee = w.puppeteer.registerFee

/-- The rules of core are the same in two worlds. -/
structure World.SameCoreRules (w w' : World) : Prop where
  config : w'.core.config = w.core.config
  owner : w'.core.owner = w.core.owner
  isPaused : w'.core.isPaused = w.core.isPaused
  rewards : w'.core.nonNativeRewardsConfig = w.core.nonNativeRewardsConfig

/-- Core and the puppeteer work by the same rules in two worlds. -/
structure World.SameRules (w w' : World) : Prop where
  core : w.SameCoreRules w'
  puppeteer : w.SameFees w'

section Steps

variable {d : Deployment} {w w' w'' : World}

/-- Nothing has changed at the puppeteer. -/
theorem World.SameFees.refl (w : World) : w.SameFees w := ⟨rfl, rfl, rfl⟩

/-- Two changes, one after the other. -/
theorem World.SameFees.trans (h : w.SameFees w') (h' : w'.SameFees w'') : w.SameFees w'' :=
  ⟨h'.config.trans h.config, h'.ibcFee.trans h.ibcFee, h'.registerFee.trans h.registerFee⟩

/-- Nothing has changed. -/
theorem World.SameRules.refl (w : World) : w.SameRules w := ⟨⟨rfl, rfl, rfl, rfl⟩, .refl w⟩

/-- Two changes, one after the other. -/
theorem World.SameRules.trans (h : w.SameRules w') (h' : w'.SameRules w'') : w.SameRules w'' :=
  ⟨⟨h'.core.config.trans h.core.config, h'.core.owner.trans h.core.owner,
    h'.core.isPaused.trans h.core.isPaused, h'.core.rewards.trans h.core.rewards⟩,
    h.puppeteer.trans h'.puppeteer⟩

/-- A call of the puppeteer sets its fees for its owner only. -/
theorem sameFees_of_call {addrValidate : String → Bool} {info : MessageInfo}
    {msg : PuppeteerExecuteMsg} (hsender : info.sender ≠ w.puppeteer.config.owner)
    (h : w.callPuppeteer d addrValidate info msg = some w') : w.SameFees w' := by
  simp only [World.callPuppeteer, Option.bind_eq_bind, Option.bind_eq_some_iff,
    toOption_eq_some] at h
  obtain ⟨bank, -, ⟨puppeteer, out⟩, hexec, h⟩ := h
  cases Puppeteer.execute_ok hexec with
  | registerICA registerFee hfee hica =>
    rw [afterPuppeteer_register h]
    exact ⟨rfl, rfl, rfl⟩
  | setFees recvFee ackFee timeoutFee registerFee howner => exact absurd howner.symm hsender
  | submit _ transaction replyTo ica fee m hrequests hallowed hidle hica hfee hpacket =>
    obtain ⟨bank', -, rfl⟩ := submit_ok hpacket rfl h
    exact ⟨rfl, rfl, rfl⟩

/-- A message of core leaves the fees alone, unless core owns the puppeteer. -/
theorem sameFees_of_dispatch {addrValidate : String → Bool} {msg : Core.CoreMsg}
    (howner : d.core ≠ w.puppeteer.config.owner) (h : w.dispatch d addrValidate msg = some w') :
    w.SameFees w' := by
  cases msg with
  | puppeteer contractAddr msg funds =>
    simp only [World.dispatch] at h
    split_ifs at h
    exact sameFees_of_call howner h
  | tokenMint contractAddr amount receiver =>
    simp only [World.dispatch] at h
    split_ifs at h
    obtain ⟨-, rfl⟩ := tokenMint_ok h
    exact ⟨rfl, rfl, rfl⟩
  | tokenBurn contractAddr funds =>
    simp only [World.dispatch, World.tokenBurn] at h
    split_ifs at h
    simp only [Option.bind_eq_bind, Option.bind_eq_some_iff, Option.some.injEq] at h
    obtain ⟨_, -, _, -, _, -, rfl⟩ := h
    exact ⟨rfl, rfl, rfl⟩
  | voucherMint contractAddr owner tokenId extension =>
    simp only [World.dispatch] at h
    split_ifs at h
    rw [voucherMint_ok h]
    exact ⟨rfl, rfl, rfl⟩

/-- The messages of core leave the fees alone. The induction is on the list of messages. -/
theorem sameFees_of_dispatchAll {addrValidate : String → Bool} {msgs : List Core.CoreMsg}
    (howner : d.core ≠ w.puppeteer.config.owner)
    (h : w.dispatchAll d addrValidate msgs = some w') : w.SameFees w' := by
  induction msgs generalizing w with
  | nil =>
    rw [← Option.some.inj h]
    exact .refl w
  | cons msg rest ih =>
    simp only [World.dispatchAll, Option.bind_eq_bind, Option.bind_eq_some_iff] at h
    obtain ⟨w₁, hfirst, hrest⟩ := h
    have hsame := sameFees_of_dispatch howner hfirst
    exact hsame.trans (ih (by rw [hsame.config]; exact howner) hrest)

/-- The end of a packet leaves the fees alone. -/
theorem sameFees_of_deliver {seq : ℕ} {outcome : World.Outcome}
    (h : w.deliver d seq outcome = some w') : w.SameFees w' := by
  simp only [World.deliver, Option.bind_eq_bind, Option.bind_eq_some_iff, Option.some.injEq] at h
  obtain ⟨p, -, rfl⟩ := h
  cases hreport : (w.settle d p outcome).report d seq outcome with
  | none => exact ⟨rfl, rfl, rfl⟩
  | some w₁ =>
    simp only [World.report, Option.bind_eq_bind, Option.bind_eq_some_iff, toOption_eq_some,
      Option.guard_eq_some', Option.some.injEq] at hreport
    obtain ⟨⟨puppeteer, report⟩, houtcome, -, -, core, -, rfl⟩ := hreport
    obtain ⟨_, _, _, -, -, -, -, -, hconfig, hfee, hregister, -⟩ := sudoOutcome_ok p.msg houtcome
    exact ⟨hconfig, hfee, hregister⟩

/-- **Only the owner of the puppeteer sets its fees.** -/
theorem sameFees_of_step {a : Action} (howner : d.core ≠ w.puppeteer.config.owner)
    (hsender : a.sender ≠ some w.puppeteer.config.owner) (hstep : Step d w a w') :
    w.SameFees w' := by
  cases a with
  | execute answers sender funds msg =>
    obtain ⟨-, -, bank, core, msgs, after, -, -, -, hafter, rfl⟩ := execute_ok hstep
    have hsame := sameFees_of_dispatchAll (w := { w with bank := bank, core := core }) howner hafter
    exact ⟨hsame.config, hsame.ibcFee, hsame.registerFee⟩
  | executePuppeteer addrValidate sender funds msg =>
    simp only [Step, World.exec, World.executePuppeteer, Option.bind_eq_bind,
      Option.bind_eq_some_iff, Option.guard_eq_some'] at hstep
    obtain ⟨-, -, hcall⟩ := hstep
    exact sameFees_of_call (fun heq => hsender (congrArg some heq)) hcall
  | deliver seq outcome => exact sameFees_of_deliver hstep
  | delegationsAndBalance data =>
    rw [← Option.some.inj hstep]
    exact ⟨rfl, rfl, rfl⟩
  | nonNativeRewardsBalances coins =>
    rw [← Option.some.inj hstep]
    exact ⟨rfl, rfl, rfl⟩
  | openAck address =>
    simp only [Step, World.exec, World.openAck, Puppeteer.sudoOpenAck, Option.bind_eq_bind,
      Option.bind_eq_some_iff, toOption_eq_some, Option.guard_eq_some', bind_eq_ok, pure_eq_ok,
      Except.ok.injEq, Option.some.injEq] at hstep
    obtain ⟨-, -, p, ⟨address, -, rfl⟩, rfl⟩ := hstep
    exact ⟨rfl, rfl, rfl⟩
  | bankSend sender receiver coins =>
    simp only [Step, World.exec, World.bankSend, Option.bind_eq_bind, Option.bind_eq_some_iff,
      Option.guard_eq_some', Option.some.injEq] at hstep
    obtain ⟨-, -, bank, -, rfl⟩ := hstep
    exact ⟨rfl, rfl, rfl⟩
  | nextBlock height time =>
    simp only [Step, World.exec, World.nextBlock] at hstep
    split_ifs at hstep
    rw [← Option.some.inj hstep]
    exact ⟨rfl, rfl, rfl⟩

/-- **What a step does to the rules of core**: nothing, or its owner has changed them to others of
this deployment. -/
theorem coreRules_of_step {a : Action} (hwired : Wired d w.core.config) (hstep : Step d w a w') :
    w.SameCoreRules w' ∨
      a.sender = some w.core.owner ∧ AdminCase w.core w'.core ∧ Wired d w'.core.config := by
  have hsame : w'.core = w.core → w.SameCoreRules w' := fun h => by
    constructor <;> rw [h]
  cases step_cases hwired hstep with
  | environment _ _ _ hcore => exact .inl (hsame hcore.core)
  | foreign addrValidate sender funds msg _ p _ hsubmission =>
    simp only [Step, World.exec, World.executePuppeteer, Option.bind_eq_bind,
      Option.bind_eq_some_iff, Option.guard_eq_some'] at hstep
    obtain ⟨-, -, hcall⟩ := hstep
    exact .inl (hsame (callPuppeteer_ok hcall).1.core)
  | bond answers sender funds receiver q core msgs _ _ hbond hcore =>
    obtain ⟨coin, denomType, -, -, -, -, -, -, hrecord, -, -⟩ := Core.executeBond_ok hbond
    left
    cases hrecord <;> constructor <;> rw [hcore]
  | unbond answers sender funds q bank core msgs _ _ _ hunbond hcore =>
    obtain ⟨batch, item, -, hsaved⟩ := Core.executeUnbond_saves hunbond
    left
    constructor <;> rw [hcore, hsaved] <;> rfl
  | admin answers sender funds msg core _ _ hadmin howner hwired' hcore =>
    right
    rw [hcore]
    exact ⟨congrArg some howner, hadmin, hwired'⟩
  | tick answers sender funds q bank core _ _ _ htick hcore =>
    have hframe := (Core.executeTick_ok htick).2.frame
    left
    constructor <;> rw [hcore]
    exacts [hframe.config, hframe.owner, hframe.isPaused, hframe.nonNativeRewardsConfig]
  | tickSubmit answers sender funds q bank core msg msgFunds _ p _ _ htick hcore =>
    have hframe := (Core.executeTick_ok htick).2.frame
    left
    constructor <;> rw [hcore]
    exacts [hframe.config, hframe.owner, hframe.isPaused, hframe.nonNativeRewardsConfig]
  | accepted seq outcome p txState transaction core _ _ _ _ _ hhook hcore =>
    obtain ⟨_, _, _, _, hchanges⟩ := Core.executePuppeteerHook_changes hhook
    left
    constructor <;> rw [hcore, hchanges]
  | refused seq outcome p _ _ _ hcore => exact .inl (hsame hcore.core)

/-- **Only the owner of core changes its configuration, its pause and the receivers of rewards.** -/
theorem sameCoreRules_of_step {a : Action} (hwired : Wired d w.core.config)
    (hsender : a.sender ≠ some w.core.owner) (hstep : Step d w a w') : w.SameCoreRules w' := by
  rcases coreRules_of_step hwired hstep with hsame | ⟨howner, -⟩
  · exact hsame
  · exact absurd howner hsender

/-- A step leaves the configuration of the puppeteer alone. -/
theorem puppeteerConfig_of_step {a : Action} (hwired : Wired d w.core.config)
    (hstep : Step d w a w') : w'.puppeteer.config = w.puppeteer.config := by
  cases step_cases hwired hstep with
  | environment _ _ _ _ hflow => exact hflow.config
  | foreign _ _ _ _ _ _ _ hsubmission => exact hsubmission.config
  | bond _ _ _ _ _ _ _ _ _ _ _ _ _ hflow => exact hflow.config
  | unbond _ _ _ _ _ _ _ _ _ _ _ _ _ _ hpuppeteer => rw [hpuppeteer]
  | admin _ _ _ _ _ _ _ _ _ _ _ _ _ hflow => exact hflow.config
  | tick _ _ _ _ _ _ _ _ _ _ _ _ _ hflow => exact hflow.config
  | tickSubmit _ _ _ _ _ _ _ _ _ _ _ _ _ _ _ _ hsubmission => exact hsubmission.config
  | accepted _ _ _ _ _ _ _ _ _ _ _ _ _ _ _ _ _ hconfig => exact hconfig
  | refused _ _ _ _ _ _ _ _ hpuppeteer => rw [hpuppeteer]

/-- **A step that the owners do not take leaves the rules alone.** -/
theorem sameRules_of_step {a : Action} (hwired : Wired d w.core.config)
    (howner : d.core ≠ w.puppeteer.config.owner) (hcore : a.sender ≠ some w.core.owner)
    (hpuppeteer : a.sender ≠ some w.puppeteer.config.owner) (hstep : Step d w a w') :
    w.SameRules w' :=
  ⟨sameCoreRules_of_step hwired hcore hstep, sameFees_of_step howner hpuppeteer hstep⟩

end Steps

/-! ## The withdrawal manager and the vouchers -/

/-- The account that takes a step, if it is an account. -/
def SettlementAction.sender : SettlementAction → Option String
  | .world a => a.sender
  | .voucher _ sender _ => some sender
  | .manager _ info _ => some info.sender

section Settlements

open AutoWithdrawer

variable {σ : Type} {d : SettlementDeployment} {C : Cw721 σ Payload} {s s' : Settlement σ}
  {addrValidate : String → Bool} {info : MessageInfo}

/-- A call of the withdrawal manager moves coins; the storage is changed for its owner only. -/
theorem callManager_frame {msg : WithdrawalManager.ExecuteMsg}
    (hsender : info.sender ≠ s.manager.ownership)
    (h : s.callManager d C addrValidate info msg = some s') :
    s'.manager = s.manager ∧ s'.nft = s.nft ∧ ∃ bank, s'.world = { s.world with bank := bank } := by
  simp only [Settlement.callManager, Option.bind_eq_bind, Option.bind_eq_some_iff,
    toOption_eq_some, Option.guard_eq_some'] at h
  obtain ⟨bank, -, ⟨manager, payment⟩, hexec, -, -, h⟩ := h
  rcases WithdrawalManager.execute_ok hexec with ⟨_, _, _, paid, -, rfl, rfl, -⟩ | ⟨-, howner⟩
  · simp only [Settlement.pay, Option.bind_eq_bind, Option.bind_eq_some_iff, Option.pure_def,
      Option.some.injEq] at h
    obtain ⟨bank', -, rfl⟩ := h
    exact ⟨rfl, rfl, bank', rfl⟩
  · exact absurd howner hsender

/-- What a step of the settlement does to the world: a step of core and the puppeteer, or coins that
change hands. -/
theorem settlement_world {a : SettlementAction} (hvoucher : d.voucher ≠ s.manager.ownership)
    (hsender : a.sender ≠ some s.manager.ownership) (hstep : SettlementStep d C s a s') :
    s'.manager = s.manager ∧ ((∃ b, a = .world b ∧ Step d.toDeployment s.world b s'.world) ∨
      ∃ bank, s'.world = { s.world with bank := bank }) := by
  cases a with
  | world b =>
    simp only [SettlementStep, Settlement.exec, Option.bind_eq_bind, Option.bind_eq_some_iff,
      Option.pure_def, Option.some.injEq] at hstep
    obtain ⟨-, -, world, hworld, nft, -, rfl⟩ := hstep
    exact ⟨rfl, .inl ⟨b, rfl, hworld⟩⟩
  | voucher addrValidate sender msg =>
    simp only [SettlementStep, Settlement.exec, Option.bind_eq_bind, Option.bind_eq_some_iff,
      Option.guard_eq_some'] at hstep
    obtain ⟨-, -, nft, -, hreceive⟩ := hstep
    rcases receiveNft_cases hreceive with rfl | ⟨tokenId, receiver, -, hcall⟩
    · exact ⟨rfl, .inr ⟨_, rfl⟩⟩
    · obtain ⟨hmanager, -, hbank⟩ := callManager_frame hvoucher hcall
      exact ⟨hmanager, .inr hbank⟩
  | manager addrValidate info msg =>
    simp only [SettlementStep, Settlement.exec, Option.bind_eq_bind, Option.bind_eq_some_iff,
      Option.guard_eq_some'] at hstep
    obtain ⟨-, -, hcall⟩ := hstep
    obtain ⟨hmanager, -, hbank⟩ := callManager_frame (fun heq => hsender (congrArg some heq)) hcall
    exact ⟨hmanager, .inr hbank⟩

/-- Vouchers are minted by core, which asks for nothing else. -/
theorem mintAll_sameMinter {C : OwnedCw721 σ Payload} {vouchers : List Voucher} {nft : σ}
    (hmint : s.mintAll d C.toCw721 vouchers = some nft) :
    C.minter nft = C.minter s.nft ∧ C.proposedMinter nft = C.proposedMinter s.nft := by
  refine foldlM_preserves (P := fun nft => C.minter nft = C.minter s.nft ∧
    C.proposedMinter nft = C.proposedMinter s.nft) ?_ hmint ⟨rfl, rfl⟩
  rintro nft v nft' hexec ⟨hminter, hproposed⟩
  rcases C.execute_minter hexec with ⟨hsame, hsame'⟩ | ⟨⟨action, hmsg⟩, -⟩
  · exact ⟨hsame.trans hminter, hsame'.trans hproposed⟩
  · cases hmsg

/-- **Core stays the minter of the vouchers**, along every step of the settlement. -/
theorem settlement_sameMinter {C : OwnedCw721 σ Payload} {a : SettlementAction}
    (hconfigured : d.Configured s.manager.config) (hminter : C.minter s.nft = some d.core)
    (hproposed : C.proposedMinter s.nft = none) (hstep : SettlementStep d C.toCw721 s a s') :
    C.minter s'.nft = C.minter s.nft ∧ C.proposedMinter s'.nft = C.proposedMinter s.nft := by
  have hcalled : ∀ {sender msg nft}, sender ≠ d.core →
      C.execute s.nft (s.voucherEnv d) sender msg = some nft →
      C.minter nft = C.minter s.nft ∧ C.proposedMinter nft = C.proposedMinter s.nft := by
    intro sender msg nft hcore hexec
    rcases C.execute_minter hexec with hsame | ⟨-, howner | hpending⟩
    · exact hsame
    · exact absurd (Option.some.inj (howner.symm.trans hminter)) hcore
    · rw [hproposed] at hpending
      cases hpending
  cases settlementStep_cases hconfigured hstep with
  | world a w' nft _ _ hmint => exact mintAll_sameMinter hmint
  | voucher _ _ _ nft _ hcore hexec => exact hcalled hcore hexec
  | brought _ _ _ _ nft _ _ hcore hexec hmanager =>
    rw [hmanager.nft]
    exact hcalled hcore hexec
  | manager _ _ _ _ _ hmanager =>
    rw [hmanager.nft]
    exact ⟨rfl, rfl⟩

/-- **A step of the settlement that no owner takes leaves the rules alone.** -/
theorem settlement_sameRules {a : SettlementAction} (hwired : Wired d.toDeployment s.world.core.config)
    (hcore : d.core ≠ s.world.puppeteer.config.owner) (hvoucher : d.voucher ≠ s.manager.ownership)
    (hsender : a.sender ≠ some s.world.core.owner ∧
      a.sender ≠ some s.world.puppeteer.config.owner ∧ a.sender ≠ some s.manager.ownership)
    (hstep : SettlementStep d C s a s') :
    s'.manager = s.manager ∧ s.world.SameRules s'.world := by
  obtain ⟨hcoreOwner, hpuppeteerOwner, hmanagerOwner⟩ := hsender
  obtain ⟨hmanager, ⟨b, rfl, hworld⟩ | ⟨bank, hbank⟩⟩ :=
    settlement_world hvoucher hmanagerOwner hstep
  · exact ⟨hmanager, sameRules_of_step hwired hcore hcoreOwner hpuppeteerOwner hworld⟩
  · rw [hbank]
    exact ⟨hmanager, ⟨⟨rfl, rfl, rfl, rfl⟩, ⟨rfl, rfl, rfl⟩⟩⟩

end Settlements

end System

end DropContracts
