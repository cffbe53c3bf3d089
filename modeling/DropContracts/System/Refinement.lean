import DropContracts.System.Administration

set_option relaxedAutoImplicit false
set_option autoImplicit false

/-!
# A deployment runs core, the puppeteer and the vouchers

Whatever the contracts of a deployment do together is a run of core, the puppeteer, the vouchers and
the withdrawal manager when the others are looked through: the factory, the validator set, the
rewards manager and the queries of the puppeteer. So what holds of every state that core and the
puppeteer reach holds for a whole deployment, with its owner acting. The owner may do anything but
hand a contract over to somebody else, change the configuration of the puppeteer, take core away
from the puppeteer, the token contract, the vouchers and the denominations of the deployment
(`System.Wired`), or take the withdrawal manager away from core and the vouchers
(`System.SettlementDeployment.Configured`).

## Main definitions

* `Factory.ContractMsg.handsOver` — a message that hands a contract over.
* `System.Administered.KeepsWiring` — a message that keeps core and the withdrawal manager wired to
  the deployment.
* `System.AdminAction.Allowed` — a step that hands nothing over and keeps the wiring, and whose tick
  satisfies a condition.

## Main results

* `System.governed_of_step` — what a step of the settlement does to the owners.
* `System.refines_call` — the same for a message of the factory.
* `System.refines_adminStep`, `System.refines_run` — for the steps and the runs of a deployment.
* `System.deployment_refines` — every state after a deployment is reachable.
-/

namespace DropContracts

open Exec

/-! ## The messages that hand a contract over -/

namespace Factory

/-- A message that may hand a contract over to another owner, or changes the configuration of the
puppeteer. -/
def ContractMsg.handsOver : ContractMsg → Bool
  | .puppeteer (.updateConfig _) => true
  | .withdrawalManager (.updateConfig owner _ _) => owner.isSome
  | .validatorsSet (.updateConfig newConfig) => newConfig.owner.isSome
  | .rewardsManager (.updateConfig owner) => owner.isSome
  | _ => false

/-- A tick of core. -/
def ContractMsg.isTick : ContractMsg → Bool
  | .core .tick => true
  | _ => false

/-- The message to one of the contracts whose content the owner of the factory chooses. -/
def ExecuteMsg.chosen : ExecuteMsg → Option ContractMsg
  | .adminExecute _ msg => some msg
  | .updateConfig (.core newConfig) => some (.core (.updateConfig newConfig))
  | .updateConfig (.validatorsSet newConfig) => some (.validatorsSet (.updateConfig newConfig))
  | _ => none

/-- A message to the factory that hands no contract over. -/
def ExecuteMsg.keepsContracts (msg : ExecuteMsg) : Bool := msg.chosen.all fun m => !m.handsOver

section Messages

variable {s s' : FullStorage} {q : Querier} {env : Env} {info : MessageInfo} {msgs : List Msg}

/-- A message to one of the contracts that is none of the special ones. -/
def Msg.isPlain : Msg → Bool
  | .execute _ msg _ => !msg.handsOver && !msg.isTick
  | .instantiate2 _ _ _ _ _ => false

/-- **What the factory sends** when it hands nothing over: it instantiates contracts, or it keeps
the addresses that it stores, and sends what its owner has chosen or plain messages. -/
theorem execute_messages {msg : ExecuteMsg} (h : execute s q env info msg = .ok (s', msgs)) :
    (∃ admin codeId label inst salt rest,
      msgs = .instantiate2 admin codeId label inst salt :: rest) ∨
    s'.state = s.state ∧ ((∃ addr m, msg = .adminExecute addr m ∧ msgs = [.execute addr m []]) ∨
      (msg.keepsContracts = true → ∀ m ∈ msgs, m.isPlain = true)) := by
  cases msg with
  | init baseDenom coreParams =>
    obtain ⟨-, state, -, -, rfl⟩ := executeInit_ok h
    exact .inl ⟨_, _, _, _, _, _, rfl⟩
  | callbackPostInit =>
    obtain ⟨hpost, rfl⟩ := passingOn_eq_ok.1 h
    simp only [executePostInit, bind_eq_ok, pure_eq_ok, Except.ok.injEq] at hpost
    obtain ⟨_, -, _, -, rfl⟩ := hpost
    exact .inr ⟨rfl, .inr fun _ => by simp [Msg.isPlain, ContractMsg.handsOver, ContractMsg.isTick]⟩
  | updateOwnership action =>
    simp only [execute, bind_eq_ok, mapError_eq_ok, pure_eq_ok, Except.ok.injEq, Prod.mk.injEq] at h
    obtain ⟨_, -, rfl, rfl⟩ := h
    exact .inr ⟨rfl, .inr fun _ => by simp⟩
  | updateConfig update =>
    obtain ⟨hupdate, rfl⟩ := passingOn_eq_ok.1 h
    simp only [executeUpdateConfig, bind_eq_ok] at hupdate
    obtain ⟨_, -, _, -, hmsgs⟩ := hupdate
    refine .inr ⟨rfl, .inr fun hkeeps => ?_⟩
    cases update with
    | core newConfig =>
      rw [← Except.ok.inj hmsgs]
      simp [Msg.isPlain, ContractMsg.handsOver, ContractMsg.isTick]
    | validatorsSet newConfig =>
      rw [← Except.ok.inj hmsgs]
      simpa [Msg.isPlain, ContractMsg.handsOver, ContractMsg.isTick, ExecuteMsg.keepsContracts,
        ExecuteMsg.chosen] using hkeeps
    | puppeteerFees fees =>
      rw [← Except.ok.inj hmsgs]
      simp [Msg.isPlain, ContractMsg.handsOver, ContractMsg.isTick]
  | proxy proxied =>
    obtain ⟨hproxy, rfl⟩ := passingOn_eq_ok.1 h
    refine .inr ⟨rfl, .inr fun _ => ?_⟩
    unfold executeProxy at hproxy
    split at hproxy
    · simp only [executeProxyMsg, bind_eq_ok, mapError_eq_ok, pure_eq_ok, Except.ok.injEq] at hproxy
      obtain ⟨_, ⟨_, -, _, -, hmsgs⟩, rfl⟩ := hproxy
      rcases proxied with (_ | _) | (_ | _ | _) <;> rw [← Except.ok.inj hmsgs] <;>
        simp [WasmMsg.toMsg, Msg.isPlain, ContractMsg.handsOver, ContractMsg.isTick]
    · simp only [bind_eq_ok, fail_ne_ok, and_false, exists_false] at hproxy
  | adminExecute addr m =>
    obtain ⟨hadmin, rfl⟩ := passingOn_eq_ok.1 h
    simp only [executeAdminExecute, bind_eq_ok, pure_eq_ok, Except.ok.injEq] at hadmin
    obtain ⟨_, -, rfl⟩ := hadmin
    exact .inr ⟨rfl, .inl ⟨addr, m, rfl, rfl⟩⟩
  | pause =>
    obtain ⟨hpause, rfl⟩ := passingOn_eq_ok.1 h
    simp only [execPause, bind_eq_ok, pure_eq_ok, Except.ok.injEq] at hpause
    obtain ⟨_, -, _, -, rfl⟩ := hpause
    exact .inr ⟨rfl, .inr fun _ => by simp [Msg.isPlain, ContractMsg.handsOver, ContractMsg.isTick]⟩
  | unpause =>
    obtain ⟨hunpause, rfl⟩ := passingOn_eq_ok.1 h
    simp only [execUnpause, bind_eq_ok, pure_eq_ok, Except.ok.injEq] at hunpause
    obtain ⟨_, -, _, -, rfl⟩ := hunpause
    exact .inr ⟨rfl, .inr fun _ => by simp [Msg.isPlain, ContractMsg.handsOver, ContractMsg.isTick]⟩

end Messages

end Factory

namespace Puppeteer

variable {s s' : FullStorage} {a : Addresses} {info : MessageInfo} {env : Env}

/-- The loop over the validators leaves the owner alone. -/
theorem registerUnbonding_cwOwner {decodes : String → Bool} {delegator : String} {i : ℕ}
    {validators : List String} {msgs : List Icq.IcqMsg}
    (h : registerUnbonding decodes delegator s i validators = .ok (s', msgs)) :
    s'.cwOwner = s.cwOwner := by
  induction validators generalizing s i msgs with
  | nil =>
    simp only [registerUnbonding, Except.ok.injEq, Prod.mk.injEq] at h
    rw [h.1]
  | cons v validators ih =>
    simp only [registerUnbonding, bind_eq_ok, pure_eq_ok, Except.ok.injEq, Prod.mk.injEq] at h
    obtain ⟨keys, -, ⟨t, rest⟩, hrest, rfl, -⟩ := h
    have hsame := ih hrest
    exact hsame

/-- A message about queries leaves the requests and the owner alone. -/
theorem executeFull_of_query {msg : FullMsg} {out : List Outgoing}
    (hrequest : ∀ request, msg ≠ .request request) (hconfig : ∀ config, msg ≠ .updateConfig config)
    (h : executeFull s a info env msg = .ok (s', out)) :
    s'.toStorage = s.toStorage ∧ s'.cwOwner = s.cwOwner := by
  cases msg with
  | request request => exact absurd rfl (hrequest request)
  | updateConfig config => exact absurd rfl (hconfig config)
  | registerDelegatorUnbondingDelegationsQuery validators =>
    simp only [executeFull, registerUnbondingDelegationsQuery, bind_eq_ok, pure_eq_ok,
      Except.ok.injEq, Prod.mk.injEq] at h
    obtain ⟨⟨t, msgs⟩, ⟨-, -, -, -, delegator, -, hloop⟩, rfl, -⟩ := h
    exact ⟨registerUnbonding_toStorage hloop, registerUnbonding_cwOwner hloop⟩
  | registerQuery =>
    simp only [executeFull, bind_eq_ok, pure_eq_ok, Except.ok.injEq, Prod.mk.injEq] at h
    obtain ⟨_, -, rfl, -⟩ := h
    exact ⟨rfl, rfl⟩
  | registerBalanceAndDelegatorDelegationsQuery validators =>
    simp only [executeFull, bind_eq_ok, pure_eq_ok, Except.ok.injEq, Prod.mk.injEq] at h
    obtain ⟨_, -, rfl, -⟩ := h
    exact ⟨rfl, rfl⟩
  | registerNonNativeRewardsBalancesQuery denoms =>
    simp only [executeFull, bind_eq_ok, pure_eq_ok, Except.ok.injEq, Prod.mk.injEq] at h
    obtain ⟨_, -, rfl, -⟩ := h
    exact ⟨rfl, rfl⟩

/-- Messages to the query module leave the owner alone. -/
theorem WithQueries.dispatchAll_cwOwner {w w' : WithQueries} {msgs : List Icq.IcqMsg}
    (h : w.dispatchAll msgs = some w') : w'.puppeteer.cwOwner = w.puppeteer.cwOwner := by
  induction msgs generalizing w with
  | nil => rw [← Option.some.inj h]
  | cons msg rest ih =>
    obtain ⟨t, ht, hrest⟩ := Option.bind_eq_some_iff.1 h
    rw [ih hrest]
    cases msg with
    | register connectionId keys updatePeriod reply =>
      simp only [WithQueries.dispatch, Option.bind_eq_bind, Option.bind_eq_some_iff,
        toOption_eq_some, Option.some.injEq] at ht
      obtain ⟨puppeteer, hreply, rfl⟩ := ht
      exact (replyIcq_kvQueries hreply).2
    | update queryId keys =>
      simp only [WithQueries.dispatch] at ht
      split_ifs at ht
      rw [← Option.some.inj ht]
    | registerTransfers connectionId recipient updatePeriod => rw [← Option.some.inj ht]

end Puppeteer

/-- The validator set keeps its owner, unless the owner hands it over. -/
theorem ValidatorsSet.execute_cwOwner {s s' : ValidatorsSet.Storage} {info : MessageInfo}
    {addrValidate : String → Bool} {msg : ValidatorsSet.ExecuteMsg} (hs : s.Keyed)
    (hmsg : (Factory.ContractMsg.validatorsSet msg).handsOver = false)
    (h : ValidatorsSet.execute s info addrValidate msg = .ok s') : s'.cwOwner = s.cwOwner := by
  cases msg with
  | updateConfig newConfig =>
    simp only [ValidatorsSet.execute, ValidatorsSet.executeUpdateConfig, bind_eq_ok, pure_eq_ok,
      Except.ok.injEq] at h
    obtain ⟨-, -, -, -, rfl⟩ := h
    have hnone : newConfig.owner = none := by simpa [Factory.ContractMsg.handsOver] using hmsg
    simp [hnone]
  | updateValidators validators =>
    simp only [ValidatorsSet.execute, ValidatorsSet.executeUpdateValidators, bind_eq_ok, pure_eq_ok,
      Except.ok.injEq] at h
    obtain ⟨-, -, rfl⟩ := h
    exact System.cwOwner_foldl_saveValidator validators
  | updateValidator validator =>
    simp only [ValidatorsSet.execute, ValidatorsSet.executeUpdateValidator, bind_eq_ok, pure_eq_ok,
      Except.ok.injEq] at h
    obtain ⟨-, -, rfl⟩ := h
    rfl
  | updateValidatorsInfo validators =>
    simp only [ValidatorsSet.execute, ValidatorsSet.executeUpdateValidatorsInfo, bind_eq_ok,
      pure_eq_ok, Except.ok.injEq] at h
    obtain ⟨-, -, rfl⟩ := h
    exact (ValidatorsSet.sameValidators_updates hs validators).cwOwner
  | updateValidatorsVoting proposal =>
    simp only [ValidatorsSet.execute, ValidatorsSet.executeUpdateValidatorsVoting, bind_eq_ok] at h
    obtain ⟨-, -, h⟩ := h
    split_ifs at h
    · rw [← Except.ok.inj h]
    · exact (ValidatorsSet.sameValidators_votes hs h).cwOwner

/-- The rewards manager keeps its owner, unless the owner hands it over. -/
theorem RewardsManager.execute_ownership {s s' : RewardsManager.Storage} {info : MessageInfo}
    {addrValidate : String → Bool} {balances : List Coin} {msg : RewardsManager.ExecuteMsg}
    {msgs : List RewardsManager.ExchangeMsg}
    (hmsg : (Factory.ContractMsg.rewardsManager msg).handsOver = false)
    (h : RewardsManager.execute s addrValidate info balances msg = .ok (s', msgs)) :
    s'.ownership = s.ownership := by
  cases msg with
  | updateConfig owner =>
    cases owner with
    | some owner => cases hmsg
    | none =>
      simp only [RewardsManager.execute, RewardsManager.execUpdateConfig, bind_eq_ok, pure_eq_ok,
        Except.ok.injEq, Prod.mk.injEq] at h
      obtain ⟨_, ⟨-, -, rfl⟩, rfl, -⟩ := h
      rfl
  | addHandler config =>
    simp only [RewardsManager.execute, RewardsManager.execAddHandler, bind_eq_ok, pure_eq_ok,
      Except.ok.injEq, Prod.mk.injEq] at h
    obtain ⟨_, ⟨-, -, rfl⟩, rfl, -⟩ := h
    rfl
  | removeHandler denom =>
    simp only [RewardsManager.execute, RewardsManager.execRemoveHandler, bind_eq_ok, pure_eq_ok,
      Except.ok.injEq, Prod.mk.injEq] at h
    obtain ⟨_, ⟨-, -, rfl⟩, rfl, -⟩ := h
    rfl
  | exchangeRewards =>
    simp only [RewardsManager.execute, bind_eq_ok, pure_eq_ok, Except.ok.injEq, Prod.mk.injEq] at h
    obtain ⟨_, -, rfl, -⟩ := h
    rfl
  | pause =>
    simp only [RewardsManager.execute, RewardsManager.execPause, bind_eq_ok, pure_eq_ok,
      Except.ok.injEq, Prod.mk.injEq] at h
    obtain ⟨_, ⟨-, -, rfl⟩, rfl, -⟩ := h
    rfl
  | unpause =>
    simp only [RewardsManager.execute, RewardsManager.execUnpause, bind_eq_ok, pure_eq_ok,
      Except.ok.injEq, Prod.mk.injEq] at h
    obtain ⟨_, ⟨-, -, rfl⟩, rfl, -⟩ := h
    rfl

namespace System

open AutoWithdrawer
open Puppeteer (Addresses FullMsg)

/-! ## The settlement -/

/-- A tick of core. -/
def SettlementAction.isTick : SettlementAction → Bool
  | .world (.execute _ _ _ .tick) => true
  | _ => false

/-- A condition on the ticks of core that does not depend on the bank. -/
structure TickCondition {σ : Type} (ok : Settlement σ → SettlementAction → Prop) : Prop where
  others : ∀ t b, b.isTick = false → ok t b
  bank : ∀ t b bank, ok t b → ok { t with world := { t.world with bank := bank } } b

/-- No condition. -/
theorem tickCondition_true {σ : Type} : TickCondition fun (_ : Settlement σ) _ => True :=
  ⟨fun _ _ _ => trivial, fun _ _ _ _ => trivial⟩

/-- That a step wipes no batch out is a condition on ticks. -/
theorem tickCondition_keepsVouchers {σ : Type} : TickCondition (KeepsVouchers (σ := σ)) := by
  refine ⟨fun t b hb => ?_, fun t b bank hok => ?_⟩
  · cases b with
    | world action =>
      cases action with
      | execute answers sender funds msg =>
        cases msg with
        | tick => cases hb
        | _ => trivial
      | _ => trivial
    | voucher addrValidate sender msg => trivial
    | manager addrValidate info msg => trivial
  · cases b with
    | world action =>
      cases action with
      | execute answers sender funds msg =>
        cases msg with
        | tick => exact hok
        | _ => trivial
      | _ => trivial
    | voucher addrValidate sender msg => trivial
    | manager addrValidate info msg => trivial

section Settlements

variable {σ : Type} {d : SettlementDeployment} {C : Cw721 σ Payload} {t t' : Settlement σ}
  {addrValidate : String → Bool} {info : MessageInfo}

/-- A transfer of somebody who is none of the contracts is a step of the settlement. -/
theorem settlementStep_send {bank : Bank} {sender receiver : String} {coins : List Coin}
    (hsender : sender ∉ [d.core, d.puppeteer, d.manager])
    (h : t.world.bank.send sender receiver coins = some bank) :
    SettlementStep d C t (.world (.bankSend sender receiver coins))
      { t with world := { t.world with bank := bank } } := by
  simp only [List.mem_cons, List.not_mem_nil, or_false, not_or] at hsender
  obtain ⟨hcore, hpuppeteer, hmanager⟩ := hsender
  simp [SettlementStep, Settlement.exec, Action.sender, World.exec, World.bankSend, hcore,
    hpuppeteer, hmanager, h, Settlement.mintAll]

/-- The withdrawal manager keeps its owner, unless the owner hands it over. -/
theorem callManager_ownership {msg : WithdrawalManager.ExecuteMsg}
    (hmsg : (Factory.ContractMsg.withdrawalManager msg).handsOver = false)
    (h : t.callManager d C addrValidate info msg = some t') :
    t'.manager.ownership = t.manager.ownership := by
  simp only [Settlement.callManager, Option.bind_eq_bind, Option.bind_eq_some_iff,
    toOption_eq_some, Option.guard_eq_some'] at h
  obtain ⟨bank, -, ⟨manager, payment⟩, hexec, -, -, h⟩ := h
  have hmanager : t'.manager = manager := by
    cases payment with
    | none => rw [← Option.some.inj h]
    | some payment =>
      simp only [Settlement.pay, Option.bind_eq_bind, Option.bind_eq_some_iff, Option.pure_def,
        Option.some.injEq] at h
      obtain ⟨_, -, rfl⟩ := h
      rfl
  rw [hmanager]
  cases msg with
  | updateConfig owner coreContract voucherContract =>
    cases owner with
    | some owner => cases hmsg
    | none =>
      simp only [WithdrawalManager.execute, WithdrawalManager.executeUpdateConfig, bind_eq_ok,
        pure_eq_ok, Except.ok.injEq, Prod.mk.injEq] at hexec
      obtain ⟨_, ⟨-, -, _, rfl, rfl⟩, rfl, -⟩ := hexec
      rfl
  | receiveNft sender tokenId receiver =>
    simp only [WithdrawalManager.execute, bind_eq_ok, pure_eq_ok, Except.ok.injEq,
      Prod.mk.injEq] at hexec
    obtain ⟨_, -, rfl, -⟩ := hexec
    rfl
  | pause =>
    simp only [WithdrawalManager.execute, WithdrawalManager.execPause, bind_eq_ok, pure_eq_ok,
      Except.ok.injEq, Prod.mk.injEq] at hexec
    obtain ⟨_, ⟨-, -, rfl⟩, rfl, -⟩ := hexec
    rfl
  | unpause =>
    simp only [WithdrawalManager.execute, WithdrawalManager.execUnpause, bind_eq_ok, pure_eq_ok,
      Except.ok.injEq, Prod.mk.injEq] at hexec
    obtain ⟨_, ⟨-, -, rfl⟩, rfl, -⟩ := hexec
    rfl

end Settlements

/-! ## What the factory sends -/

/-- A message that keeps core wired to the puppeteer, the token contract, the vouchers and the
denominations of the deployment, and the withdrawal manager to core and the vouchers. The guards of
`World.execute` and `Settlement.callManager` let no other update of a configuration pass. -/
def Administered.KeepsWiring {σ : Type} (d : AdminDeployment) (s : Administered σ) :
    Factory.ContractMsg → Prop
  | .core (.updateConfig newConfig) =>
    Wired d.toDeployment (s.world.core.config.update newConfig)
  | .withdrawalManager (.updateConfig _ coreContract voucherContract) =>
    coreContract.getD d.core = d.core ∧ voucherContract.getD d.voucher = d.voucher
  | _ => True

/-- A step that hands no contract over and keeps the wiring, and whose tick of core satisfies a
condition. -/
def AdminAction.Allowed {σ : Type} (d : AdminDeployment)
    (ok : Settlement σ → SettlementAction → Prop) (s : Administered σ) : AdminAction → Prop
  | .settlement b => ok s.settlement b
  | .factory _ answers _ _ _ msg => msg.keepsContracts = true ∧ ∀ m, msg.chosen = some m →
      s.KeepsWiring d m ∧
        (m.isTick = true → ok s.settlement (.world (.execute answers d.factory [] .tick)))
  | _ => True

section Refinement

variable {σ : Type} {d : AdminDeployment} {C : OwnedCw721 σ Payload} {s s' : Administered σ}
  {ok : Settlement σ → SettlementAction → Prop} {a : Addresses} {answers : Answers}
  {addrValidate : String → Bool} {balances : List Coin} {info : MessageInfo}

/-- Core and the puppeteer belong to the factory. -/
structure AdminDeployment.Owns (d : AdminDeployment) (w : World) : Prop where
  core : w.core.owner = d.factory
  wired : Wired d.toDeployment w.core.config
  ldDenom : w.core.config.ldDenom = some d.tokenDenom
  puppeteer : w.puppeteer.config.owner = d.factory

/-- Core and the puppeteer stay with the factory, whose updates of the configuration keep the
denomination of the token. -/
theorem AdminDeployment.Owns.step {w w' : World} {b : Action} (h : d.Owns w)
    (hstep : Step d.toDeployment w b w') : d.Owns w' := by
  have hpuppeteer : w'.puppeteer.config.owner = d.factory := by
    rw [puppeteerConfig_of_step h.wired hstep]
    exact h.puppeteer
  rcases coreRules_of_step h.wired hstep with hsame | ⟨-, hadmin, hwired⟩
  · refine ⟨hsame.owner.trans h.core, ?_, ?_, hpuppeteer⟩
    · rw [hsame.config]
      exact h.wired
    · rw [hsame.config]
      exact h.ldDenom
  · have hkept : w'.core.owner = w.core.owner ∧ w'.core.config.ldDenom ≠ none := by
      have hsome : w.core.config.ldDenom ≠ none := by
        rw [h.ldDenom]
        exact Option.some_ne_none _
      generalize w'.core = core at hadmin
      cases hadmin with
      | updateConfig newConfig =>
        refine ⟨rfl, ?_⟩
        show newConfig.ldDenom.or w.core.config.ldDenom ≠ none
        cases hnew : newConfig.ldDenom <;> simp [hsome]
      | setNonNativeRewardsReceivers items => exact ⟨rfl, hsome⟩
      | resetBondedAmount => exact ⟨rfl, hsome⟩
      | setPause isPaused => exact ⟨rfl, hsome⟩
    rcases hwired.ldDenom with hnone | hdenom
    · exact absurd hnone hkept.2
    · exact ⟨hkept.1.trans h.core, hwired, hdenom, hpuppeteer⟩

/-- The factory keeps its contracts when core and the puppeteer stay with it, and the others as
well. -/
theorem Governed.of_owns (h : Governed d C s) (howns : d.Owns s'.world)
    (hstate : s'.factory.state = s.factory.state) (hitems : s'.items.cwOwner = s.items.cwOwner)
    (hmanager : s'.settlement.manager.ownership = s.settlement.manager.ownership)
    (hconfigured : d.Configured s'.settlement.manager.config)
    (hset : s'.validatorsSet.Keyed ∧ s'.validatorsSet.cwOwner = s.validatorsSet.cwOwner)
    (hrewards : s'.rewardsManager.ownership = s.rewardsManager.ownership)
    (htoken : s'.token = s.token)
    (hminter : C.minter s'.settlement.nft = C.minter s.settlement.nft ∧
      C.proposedMinter s'.settlement.nft = C.proposedMinter s.settlement.nft)
    (hstrategy : s'.strategy.cwOwner = s.strategy.cwOwner)
    (hproposals : s'.coreProposal = s.coreProposal ∧
      s'.validatorsProposal = s.validatorsProposal) : Governed d C s' where
  stored := by
    rw [hstate]
    exact h.stored
  core := howns.core
  wired := howns.wired
  ldDenom := howns.ldDenom
  puppeteer := ⟨hitems.trans h.puppeteer.1, howns.puppeteer⟩
  manager := hmanager.trans h.manager
  configured := hconfigured
  validatorsSet := hset.2.trans h.validatorsSet
  keyed := hset.1
  rewardsManager := hrewards.trans h.rewardsManager
  token := by
    rw [htoken]
    exact h.token
  tokenOwner := by
    rw [htoken]
    exact h.tokenOwner
  minter := hminter.1.trans h.minter
  proposedMinter := hminter.2.trans h.proposedMinter
  strategy := hstrategy.trans h.strategy
  proposals := by
    rw [hproposals.1, hproposals.2]
    exact h.proposals

/-- Core and the puppeteer of a deployment that the factory governs. -/
theorem Governed.owns (h : Governed d C s) : d.Owns s.world :=
  ⟨h.core, h.wired, h.ldDenom, h.puppeteer.2⟩

/-- **A step of the settlement leaves the contracts with the factory**, unless its owner hands the
withdrawal manager over. -/
theorem governed_of_step (h : Governed d C s) {b : SettlementAction}
    (hmsg : ∀ addrValidate info msg, b = .manager addrValidate info msg →
      (Factory.ContractMsg.withdrawalManager msg).handsOver = false)
    (hstep : s.step d C b = some s') : Governed d C s' := by
  simp only [Administered.step, Option.bind_eq_bind, Option.bind_eq_some_iff,
    Option.some.injEq] at hstep
  obtain ⟨t, ht, rfl⟩ := hstep
  obtain ⟨hconfigured, hrun⟩ := settlementStep_world h.configured ht
  have howns : d.Owns t.world :=
    hrun.preserves (P := d.Owns) (fun _ _ _ _ hstep howns => howns.step hstep) h.owns
  refine h.of_owns howns rfl rfl ?_ hconfigured ⟨h.keyed, rfl⟩ rfl rfl
    (settlement_sameMinter h.configured h.minter h.proposedMinter ht) rfl ⟨rfl, rfl⟩
  cases b with
  | world action =>
    simp only [Settlement.exec, Option.bind_eq_bind, Option.bind_eq_some_iff, Option.pure_def,
      Option.some.injEq] at ht
    obtain ⟨-, -, world, -, nft, -, rfl⟩ := ht
    rfl
  | voucher addrValidate sender msg =>
    simp only [Settlement.exec, Option.bind_eq_bind, Option.bind_eq_some_iff,
      Option.guard_eq_some'] at ht
    obtain ⟨-, -, nft, -, hreceive⟩ := ht
    rcases receiveNft_cases hreceive with rfl | ⟨tokenId, receiver, -, hcall⟩
    · rfl
    · have hkept := callManager_ownership rfl hcall
      exact hkept
  | manager addrValidate info msg =>
    simp only [Settlement.exec, Option.bind_eq_bind, Option.bind_eq_some_iff,
      Option.guard_eq_some'] at ht
    obtain ⟨-, -, hcall⟩ := ht
    exact callManager_ownership (hmsg _ _ _ rfl) hcall

/-- A step of the settlement, seen from the settlement. -/
theorem refines_of_step {b : SettlementAction} (hok : ok s.settlement b)
    (hstep : s.step d C b = some s') :
    RunWhere (SettlementStep d.toSettlementDeployment C.toCw721) ok s.settlement
        s'.settlement := by
  simp only [Administered.step, Option.bind_eq_bind, Option.bind_eq_some_iff,
    Option.some.injEq] at hstep
  obtain ⟨t, ht, rfl⟩ := hstep
  exact RunWhere.single hok ht

/-- Coins of somebody who is none of the contracts, seen from the settlement. -/
theorem refines_of_send (hticks : TickCondition ok) {t : Settlement σ} {bank : Bank}
    {sender receiver : String} {coins : List Coin}
    (hsender : sender ∉ [d.core, d.puppeteer, d.manager])
    (h : t.world.bank.send sender receiver coins = some bank) :
    RunWhere (SettlementStep d.toSettlementDeployment C.toCw721) ok t
      { t with world := { t.world with bank := bank } } :=
  RunWhere.single (hticks.others _ _ rfl) (settlementStep_send hsender h)

/-- A message about the queries of the puppeteer moves the attached coins, seen from the
settlement. -/
theorem callQueries_ok {msg : FullMsg} (hrequest : ∀ request, msg ≠ .request request)
    (hconfig : ∀ config, msg ≠ .updateConfig config)
    (hcall : s.callQueries d a info msg = some s') :
    ∃ bank items, s.world.bank.send info.sender d.puppeteer info.funds = some bank ∧
      s' = { s.withBank bank with items := items } ∧ items.cwOwner = s.items.cwOwner := by
  simp only [Administered.callQueries, Option.bind_eq_bind, Option.bind_eq_some_iff,
    toOption_eq_some, Option.some.injEq] at hcall
  obtain ⟨bank, hbank, ⟨puppeteer, out⟩, hexec, w, hdispatch, rfl⟩ := hcall
  obtain ⟨hstorage, howner⟩ := Puppeteer.executeFull_of_query hrequest hconfig hexec
  have hsame : w.puppeteer.toStorage = s.world.puppeteer :=
    (Puppeteer.WithQueries.dispatchAll_toStorage hdispatch).trans hstorage
  refine ⟨bank, w.items, hbank, ?_, ?_⟩
  · rw [Administered.withPuppeteer, hsame]
    rfl
  · exact (Puppeteer.WithQueries.dispatchAll_cwOwner hdispatch).trans howner

/-- The rewards that are handed over are transfers, seen from the settlement. -/
theorem refines_of_handOver (hticks : TickCondition ok) {t : Settlement σ} {bank : Bank}
    {msgs : List RewardsManager.ExchangeMsg}
    (h : msgs.foldlM (Administered.handOver d) t.world.bank = some bank) :
    RunWhere (SettlementStep d.toSettlementDeployment C.toCw721) ok t
      { t with world := { t.world with bank := bank } } := by
  have hself : d.rewardsManager ∉ [d.core, d.puppeteer, d.manager] := by
    have hnew := d.rewardsManager_new
    simp only [List.mem_cons, List.not_mem_nil, or_false, not_or] at hnew ⊢
    tauto
  refine foldlM_preserves (P := fun bank =>
    RunWhere (SettlementStep d.toSettlementDeployment C.toCw721) ok t
      { t with world := { t.world with bank := bank } }) ?_ h (RunWhere.refl t)
  intro bank msg bank' hround hsofar
  simp only [Administered.handOver, Option.bind_eq_bind, Option.bind_eq_some_iff,
    Option.guard_eq_some'] at hround
  obtain ⟨-, -, hsend⟩ := hround
  exact hsofar.trans (refines_of_send (t := { t with world := { t.world with bank := bank } })
    hticks hself hsend)

/-- The factory is none of the contracts that send coins in the settlement. -/
theorem AdminDeployment.factory_not_mem (d : AdminDeployment) :
    d.factory ∉ [d.core, d.puppeteer, d.manager] := by
  obtain ⟨hcore, hpuppeteer, -, -, hmanager⟩ := d.factory_ne
  simp [hcore, hpuppeteer, hmanager]

/-- **A message of the factory**, seen from the settlement. -/
theorem refines_call (hticks : TickCondition ok) (h : Governed d C s) {contractAddr : String}
    {funds : List Coin} {msg : Factory.ContractMsg} (hkeeps : msg.handsOver = false)
    (htick : msg.isTick = true → ok s.settlement (.world (.execute answers d.factory funds .tick)))
    (hcall : s.call d C answers a balances contractAddr funds msg = some s') :
    Governed d C s' ∧
      RunWhere (SettlementStep d.toSettlementDeployment C.toCw721) ok s.settlement
        s'.settlement := by
  unfold Administered.call at hcall
  by_cases hmem : contractAddr ∈ d.contracts
  swap
  · simp only [hmem, not_false_eq_true, ↓reduceIte, Option.bind_eq_bind, Option.bind_eq_some_iff,
      Option.some.injEq] at hcall
    obtain ⟨bank, hbank, rfl⟩ := hcall
    exact ⟨h.of_sameRules (sameRules_withBank h bank),
      refines_of_send hticks d.factory_not_mem hbank⟩
  simp only [hmem, not_true_eq_false, ↓reduceIte] at hcall
  cases msg with
  | core msg =>
    simp only [Option.bind_eq_bind, Option.bind_eq_some_iff] at hcall
    obtain ⟨-, -, hstep⟩ := hcall
    refine ⟨governed_of_step h (fun _ _ _ heq => by cases heq) hstep, refines_of_step ?_ hstep⟩
    cases msg with
    | tick => exact htick rfl
    | _ => exact hticks.others _ _ rfl
  | puppeteer msg =>
    simp only [Option.bind_eq_bind, Option.bind_eq_some_iff] at hcall
    obtain ⟨-, -, hcall⟩ := hcall
    cases msg with
    | request request =>
      exact ⟨governed_of_step h (fun _ _ _ heq => by cases heq) hcall,
        refines_of_step (hticks.others _ _ rfl) hcall⟩
    | updateConfig config => cases hkeeps
    | _ =>
      obtain ⟨bank, items, hbank, rfl, howner⟩ := callQueries_ok (by simp) (by simp) hcall
      exact ⟨{ h with puppeteer := ⟨howner.trans h.puppeteer.1, h.puppeteer.2⟩ },
        refines_of_send hticks d.factory_not_mem hbank⟩
  | withdrawalVoucher msg =>
    simp only [Option.bind_eq_bind, Option.bind_eq_some_iff] at hcall
    obtain ⟨-, -, hstep⟩ := hcall
    exact ⟨governed_of_step h (fun _ _ _ heq => by cases heq) hstep,
      refines_of_step (hticks.others _ _ rfl) hstep⟩
  | withdrawalManager msg =>
    simp only [Option.bind_eq_bind, Option.bind_eq_some_iff] at hcall
    obtain ⟨-, -, hstep⟩ := hcall
    refine ⟨governed_of_step h (fun _ _ _ heq => ?_) hstep,
      refines_of_step (hticks.others _ _ rfl) hstep⟩
    cases heq
    exact hkeeps
  | validatorsSet msg =>
    simp only [Administered.callValidatorsSet, Option.bind_eq_bind, Option.bind_eq_some_iff,
      toOption_eq_some, Option.some.injEq] at hcall
    obtain ⟨-, -, bank, hbank, validatorsSet, hexec, rfl⟩ := hcall
    have hkeyed := (ValidatorsSet.execute_addresses h.keyed hexec).1
    have howner := ValidatorsSet.execute_cwOwner h.keyed hkeeps hexec
    exact ⟨{ h with validatorsSet := howner.trans h.validatorsSet, keyed := hkeyed },
      refines_of_send hticks d.factory_not_mem hbank⟩
  | rewardsManager msg =>
    simp only [Administered.callRewardsManager, Option.bind_eq_bind, Option.bind_eq_some_iff,
      toOption_eq_some, Option.some.injEq] at hcall
    obtain ⟨-, -, bank, hbank, ⟨rewardsManager, msgs⟩, hexec, bank', hover, rfl⟩ := hcall
    have howner := RewardsManager.execute_ownership hkeeps hexec
    refine ⟨{ h with rewardsManager := howner.trans h.rewardsManager }, ?_⟩
    have hattached := refines_of_send (C := C) hticks d.factory_not_mem hbank
    have hpaid := refines_of_handOver (C := C) (t := (s.withBank bank).settlement) hticks hover
    exact hattached.trans hpaid
  | token msg =>
    simp only [Option.bind_eq_bind, Option.bind_eq_some_iff] at hcall
    obtain ⟨-, -, hcall⟩ := hcall
    have hfactory : (⟨d.factory, funds⟩ : MessageInfo).sender ≠ d.core := d.factory_ne.1
    rw [callToken_eq_none h hfactory] at hcall
    cases hcall
  | strategy msg =>
    simp only [Option.bind_eq_bind, Option.bind_eq_some_iff] at hcall
    obtain ⟨-, -, hcall⟩ := hcall
    have hgoverned := h.of_sameRules (sameRules_of_callStrategy h hcall)
    simp only [Administered.callStrategy, Option.bind_eq_bind, Option.bind_eq_some_iff,
      Option.some.injEq] at hcall
    obtain ⟨bank, hbank, strategy, -, rfl⟩ := hcall
    exact ⟨hgoverned, refines_of_send hticks d.factory_not_mem hbank⟩
  | postInit => cases hcall

/-- **What the owner of the factory does**, seen from the settlement: the messages of the factory,
one after the other. -/
theorem refines_callFactory (hticks : TickCondition ok) (h : Governed d C s) {q : Factory.Querier}
    {msg : Factory.ExecuteMsg} (hsender : info.sender ∉ d.contracts)
    (hallowed : AdminAction.Allowed d ok s (.factory q answers a balances info msg))
    (hcall : s.callFactory d C q answers a balances info msg = some s') :
    Governed d C s' ∧
      RunWhere (SettlementStep d.toSettlementDeployment C.toCw721) ok s.settlement
        s'.settlement := by
  simp only [Administered.callFactory, Option.bind_eq_bind, Option.bind_eq_some_iff,
    toOption_eq_some] at hcall
  obtain ⟨bank, hbank, ⟨factory, msgs⟩, hexec, hall⟩ := hcall
  obtain ⟨hkeeps, hchosen⟩ := hallowed
  rcases Factory.execute_messages hexec with ⟨_, _, _, _, _, _, rfl⟩ | ⟨hstate, hmsgs⟩
  · cases hall
  have hother : info.sender ∉ [d.core, d.puppeteer, d.manager] := by
    simp only [AdminDeployment.contracts, List.mem_cons, List.not_mem_nil, or_false,
      not_or] at hsender ⊢
    tauto
  have hattached := refines_of_send (C := C) hticks hother hbank
  have hpaid : Governed d C { s.withBank bank with factory := factory } := { h with
    stored := by
      rw [hstate]
      exact h.stored }
  rcases hmsgs with ⟨addr, m, rfl, rfl⟩ | hplain
  · simp only [List.foldlM_cons, List.foldlM_nil, Administered.dispatch, Option.bind_eq_bind,
      Option.bind_eq_some_iff, Option.pure_def, Option.some.injEq] at hall
    obtain ⟨_, hcall, rfl⟩ := hall
    have hm : m.handsOver = false := by
      simpa [Factory.ExecuteMsg.keepsContracts, Factory.ExecuteMsg.chosen] using hkeeps
    obtain ⟨hgoverned, hrun⟩ := refines_call hticks hpaid hm
      (fun ht => hticks.bank _ _ bank ((hchosen m rfl).2 ht)) hcall
    exact ⟨hgoverned, hattached.trans hrun⟩
  · refine foldlM_preserves_of (Q := fun m => m.isPlain = true) (P := fun t => Governed d C t ∧
      RunWhere (SettlementStep d.toSettlementDeployment C.toCw721) ok s.settlement t.settlement) ?_
      (hplain hkeeps) hall ⟨hpaid, hattached⟩
    rintro t m t' hm hdispatch ⟨ht, hsofar⟩
    cases m with
    | instantiate2 admin codeId label inst salt => cases hdispatch
    | execute contractAddr msg funds =>
      simp only [Factory.Msg.isPlain, Bool.and_eq_true, Bool.not_eq_true'] at hm
      obtain ⟨hgoverned, hrun⟩ := refines_call hticks ht hm.1
        (fun htick => by rw [hm.2] at htick; cases htick) hdispatch
      exact ⟨hgoverned, hsofar.trans hrun⟩

/-- The result of a query is a snapshot of the puppeteer, or nothing, for core and the puppeteer. -/
theorem refines_of_kvQueryResult (hticks : TickCondition ok) {queryId : ℕ}
    {result : Puppeteer.KvResult} {puppeteer : Puppeteer.FullStorage}
    (h : Puppeteer.sudoKvQueryResult s.puppeteer.puppeteer (s.world.puppeteerEnv d.toDeployment)
      queryId result = .ok puppeteer) :
    RunWhere (SettlementStep d.toSettlementDeployment C.toCw721) ok s.settlement
      (s.withPuppeteer { s.puppeteer with puppeteer := puppeteer }).settlement := by
  have hworld : ∀ {b : Action} {p : Puppeteer.Storage}, b.sender = none →
      (SettlementAction.world b).isTick = false →
      Step d.toDeployment s.world b { s.world with puppeteer := p } →
      puppeteer.toStorage = p →
      RunWhere (SettlementStep d.toSettlementDeployment C.toCw721) ok s.settlement
        (s.withPuppeteer { s.puppeteer with puppeteer := puppeteer }).settlement := by
    intro b p hnone htick hstep hstorage
    refine RunWhere.single (hticks.others _ _ htick) (a := .world b) ?_
    simp only [SettlementStep, Settlement.exec, hnone, Option.bind_eq_bind, Option.bind_eq_some_iff,
      Option.pure_def, Option.some.injEq, Option.guard_eq_some']
    refine ⟨(), by simp, _, hstep, s.settlement.nft, ?_, ?_⟩
    · rw [List.drop_length]
      rfl
    · rw [Administered.withPuppeteer, hstorage]
  simp only [Puppeteer.sudoKvQueryResult, bind_eq_ok] at h
  obtain ⟨queryType, -, h⟩ := h
  cases queryType with
  | delegationsAndBalance =>
    simp only [bind_eq_ok, pure_eq_ok, Except.ok.injEq] at h
    obtain ⟨data, -, rfl⟩ := h
    exact hworld (b := .delegationsAndBalance data) rfl rfl rfl rfl
  | nonNativeRewardsBalances =>
    simp only [bind_eq_ok, pure_eq_ok, Except.ok.injEq] at h
    obtain ⟨coins, -, rfl⟩ := h
    exact hworld (b := .nonNativeRewardsBalances coins) rfl rfl rfl rfl
  | unbondingDelegations =>
    have hsame : puppeteer.toStorage = s.world.puppeteer := by
      simp only [Puppeteer.sudoUnbondingDelegations] at h
      split at h
      · rw [← Except.ok.inj h]
        rfl
      · simp only [bind_eq_ok, pure_eq_ok, Except.ok.injEq] at h
        obtain ⟨entries, -, rfl⟩ := h
        rfl
    rw [Administered.withPuppeteer, hsame]
    exact RunWhere.refl _

/-! ## Runs of a deployment -/

/-- **A step of a deployment**, seen from the settlement: some steps, and the factory still owns the
contracts. -/
theorem refines_adminStep (hticks : TickCondition ok) (h : Governed d C s) {action : AdminAction}
    (hallowed : action.Allowed d ok s) (hstep : AdminStep d C s action s') :
    Governed d C s' ∧
      RunWhere (SettlementStep d.toSettlementDeployment C.toCw721) ok s.settlement
        s'.settlement := by
  have hexec := hstep
  simp only [AdminStep, Administered.exec] at hexec
  split_ifs at hexec with hcontract
  have hsender : ∀ sender, action.sender = some sender → sender ∉ d.contracts :=
    fun sender heq hmem => hcontract ⟨sender, hmem, heq⟩
  have hother : ∀ sender, action.sender = some sender →
      sender ∉ [d.core, d.puppeteer, d.manager] := by
    intro sender heq
    have hnot := hsender sender heq
    simp only [AdminDeployment.contracts, List.mem_cons, List.not_mem_nil, or_false,
      not_or] at hnot ⊢
    tauto
  have houtside : (∀ q answers a balances info msg,
      action ≠ .factory q answers a balances info msg) → Governed d C s' := fun hne => by
    refine h.of_sameRules (sameRules_of_adminStep h ?_ hstep)
    cases action with
    | factory q answers a balances info msg => exact absurd rfl (hne q answers a balances info msg)
    | _ => trivial
  cases action with
  | settlement b => exact ⟨houtside (by simp), refines_of_step hallowed hexec⟩
  | puppeteer a info msg =>
    refine ⟨houtside (by simp), ?_⟩
    cases msg with
    | request request => exact refines_of_step (hticks.others _ _ rfl) hexec
    | updateConfig config =>
      change s.callQueries d a info (.updateConfig config) = some s' at hexec
      simp only [Administered.callQueries, Puppeteer.executeFull, Puppeteer.executeUpdateConfig,
        Puppeteer.assertOwner, Option.bind_eq_bind, Option.bind_eq_some_iff, toOption_eq_some,
        bind_eq_ok, ensure_eq_ok] at hexec
      obtain ⟨bank, -, _, ⟨_, ⟨-, howner, -⟩, -⟩, -⟩ := hexec
      have hfactory : info.sender = d.factory := howner.trans h.puppeteer.1
      exact absurd (hfactory ▸ hsender _ rfl) (by simp [AdminDeployment.contracts])
    | _ =>
      obtain ⟨bank, items, hbank, rfl, -⟩ := callQueries_ok (by simp) (by simp) hexec
      exact refines_of_send hticks (hother _ rfl) hbank
  | kvQueryResult queryId result =>
    simp only [Option.bind_eq_bind, Option.bind_eq_some_iff, toOption_eq_some,
      Option.some.injEq] at hexec
    obtain ⟨puppeteer, hresult, rfl⟩ := hexec
    exact ⟨houtside (by simp), refines_of_kvQueryResult hticks hresult⟩
  | txQueryResult transfers =>
    simp only [Option.bind_eq_bind, Option.bind_eq_some_iff, toOption_eq_some,
      Option.some.injEq] at hexec
    obtain ⟨puppeteer, hresult, rfl⟩ := hexec
    refine ⟨houtside (by simp), ?_⟩
    have hsame : puppeteer.toStorage = s.world.puppeteer :=
      Puppeteer.sudoTxQueryResult_toStorage hresult
    rw [Administered.withPuppeteer, hsame]
    exact RunWhere.refl _
  | token addrValidate info msg =>
    change s.callToken d addrValidate info msg = some s' at hexec
    rw [callToken_eq_none h fun heq =>
      hsender _ rfl (by simp [heq, AdminDeployment.contracts])] at hexec
    cases hexec
  | strategy addrValidate info msg =>
    simp only [Administered.callStrategy, Option.bind_eq_bind, Option.bind_eq_some_iff,
      Option.some.injEq] at hexec
    obtain ⟨bank, hbank, strategy, -, rfl⟩ := hexec
    exact ⟨houtside (by simp), refines_of_send hticks (hother _ rfl) hbank⟩
  | validatorsSet addrValidate info msg =>
    simp only [Administered.callValidatorsSet, Option.bind_eq_bind, Option.bind_eq_some_iff,
      Option.some.injEq] at hexec
    obtain ⟨bank, hbank, validatorsSet, -, rfl⟩ := hexec
    exact ⟨houtside (by simp), refines_of_send hticks (hother _ rfl) hbank⟩
  | rewardsManager addrValidate balances info msg =>
    simp only [Administered.callRewardsManager, Option.bind_eq_bind, Option.bind_eq_some_iff,
      Option.some.injEq] at hexec
    obtain ⟨bank, hbank, ⟨rewardsManager, msgs⟩, -, bank', hover, rfl⟩ := hexec
    have hattached := refines_of_send (C := C) hticks (hother _ rfl) hbank
    have hpaid := refines_of_handOver (C := C) (t := (s.withBank bank).settlement) hticks hover
    exact ⟨houtside (by simp), hattached.trans hpaid⟩
  | coreOwnership addrValidate info ownership =>
    change s.callCoreOwnership d addrValidate info ownership = some s' at hexec
    rw [callCoreOwnership_eq_none h fun heq =>
      hsender _ rfl (by simp [heq, AdminDeployment.contracts])] at hexec
    cases hexec
  | validatorsOwnership addrValidate info ownership =>
    change s.callValidatorsOwnership d addrValidate info ownership = some s' at hexec
    rw [callValidatorsOwnership_eq_none h fun heq =>
      hsender _ rfl (by simp [heq, AdminDeployment.contracts])] at hexec
    cases hexec
  | factory q answers a balances info msg =>
    exact refines_callFactory hticks h (hsender _ rfl) hallowed hexec

/-- **A run of a deployment**, seen from the settlement. -/
theorem refines_run (hticks : TickCondition ok) (h : Governed d C s)
    (hrun : RunWhere (AdminStep d C) (AdminAction.Allowed d ok) s s') :
    Governed d C s' ∧
      RunWhere (SettlementStep d.toSettlementDeployment C.toCw721) ok s.settlement
        s'.settlement := by
  refine hrun.preserves (P := fun t => Governed d C t ∧
    RunWhere (SettlementStep d.toSettlementDeployment C.toCw721) ok s.settlement t.settlement) ?_
    ⟨h, RunWhere.refl _⟩
  rintro t action t' hallowed hstep ⟨ht, hsofar⟩
  obtain ⟨hgoverned, hlast⟩ := refines_adminStep hticks ht hallowed hstep
  exact ⟨hgoverned, hsofar.trans hlast⟩

end Refinement

/-- **A deployment runs the system of core and the puppeteer.** From the transaction of the factory
that deploys the contracts on, whatever anybody sends to any of the contracts, the owner to the
factory included, and whatever the chain answers: as long as the owner hands no contract over and
keeps core and the withdrawal manager wired to the deployment, the factory governs the contracts,
and core, the puppeteer and the settlement of vouchers are in states that their own steps reach, the
latter when no tick wipes a batch out. What holds of these states holds for the deployment.

**Proof sketch.** Every message of the factory is one that core, the puppeteer or the withdrawal
manager take from any account, or leaves them alone but for coins; the results of the queries are
the reports of the puppeteer. So a step of the deployment is some steps of the settlement, and a
step of the settlement some steps of core and the puppeteer. -/
theorem deployment_refines {r : Registry} {c c' : Chain} {factory baseDenom : String}
    {info : MessageInfo} {coreParams : Factory.CoreParams}
    (h : c.init r factory info baseDenom coreParams = some c')
    (hlocal : baseDenom ≠ Puppeteer.LOCAL_DENOM)
    (hbase : ∀ address subdenom, r.fullDenom address subdenom ≠ .ok baseDenom)
    (hsupply : ∀ address subdenom denom, r.fullDenom address subdenom = .ok denom →
      denom ∉ c.denoms → c.bank.supply denom = 0)
    (htime : c.time.nanos < U64.bound) :
    ∃ d s, d.factory = factory ∧ d.baseDenom = baseDenom ∧ c'.Administers d s ∧
      Governed d (ownedCw721Base Payload) s ∧
      (∀ s', RunWhere (AdminStep d (ownedCw721Base Payload))
        (AdminAction.Allowed d fun _ _ => True) s s' →
          Governed d (ownedCw721Base Payload) s' ∧ Reachable d.toDeployment s'.world) ∧
      ∀ s', RunWhere (AdminStep d (ownedCw721Base Payload))
        (AdminAction.Allowed d KeepsVouchers) s s' →
          SettlementReachable d.toSettlementDeployment (cw721Base Payload) s'.settlement := by
  obtain ⟨d, s, hfactory, hdenom, hadministers, hgoverned, -, hreachable⟩ :=
    governed_of_init h hlocal hbase hsupply htime
  refine ⟨d, s, hfactory, hdenom, hadministers, hgoverned, fun s' hrun => ?_, fun s' hrun => ?_⟩
  · obtain ⟨hgoverned', hsettlement⟩ := refines_run tickCondition_true hgoverned hrun
    obtain ⟨-, hworld⟩ := settlement_run_world hgoverned.configured hsettlement
    exact ⟨hgoverned', (settled_of_run hreachable).world.reachable.trans hworld⟩
  · obtain ⟨-, hsettlement⟩ := refines_run tickCondition_keepsVouchers hgoverned hrun
    obtain ⟨t, hinit, hrun₀⟩ := hreachable
    exact ⟨t, hinit, hrun₀.trans hsettlement⟩

open Sample

/-- Every state of the deployment of the sample factory is one that core and the puppeteer reach. -/
theorem deployment_refines_sample : ∃ c d s,
    chain.init registry "factory" ⟨"admin", []⟩ "ibc/uatom" coreParams = some c ∧
      c.Administers d s ∧ Governed d (ownedCw721Base Payload) s ∧
      ∀ s', RunWhere (AdminStep d (ownedCw721Base Payload))
        (AdminAction.Allowed d fun _ _ => True) s s' → Reachable d.toDeployment s'.world := by
  obtain ⟨c, hinit⟩ := chain_init
  obtain ⟨d, s, -, -, hadministers, hgoverned, hrun, -⟩ :=
    deployment_refines hinit (by decide) fullDenom_ne (fun _ _ _ _ _ => rfl) (by decide)
  exact ⟨c, d, s, hinit, hadministers, hgoverned, fun s' hs' => (hrun s' hs').2⟩

end System

end DropContracts
