import DropContracts.Puppeteer.Queries
import DropContracts.System.Scenario

set_option relaxedAutoImplicit false
set_option autoImplicit false

/-!
# Updates of the configurations

`execute_update_config` of core and of the puppeteer copy the fields of an optional struct into the
stored configuration by hand, one branch for each field. What an update has to do to every field is
stated here once for each contract; the branch of one field is missing in each of them.

## Main definitions

* `Given` — a field after an update that may give it.
* `Core.ConfigOptional.AppliedTo`, `Puppeteer.ConfigOptional.AppliedTo` — an update that does to
  every field what it is given.

## Main results

* `Core.appliedTo_iff`, `Puppeteer.appliedTo_iff` — the configurations that the updates ask for.
* `System.update_applies_iff` — the accepted updates that are applied as they are given.
-/

namespace DropContracts

open Exec

/-- A field is what is given for it, and unchanged when nothing is given. -/
structure Given {α : Type} (given : Option α) (old new : α) : Prop where
  some : ∀ value, given = some value → new = value
  none : given = none → new = old

/-- What is given for a field determines it. -/
theorem given_iff {α : Type} {given : Option α} {old new : α} :
    Given given old new ↔ new = given.getD old := by
  cases given with
  | none => exact ⟨fun h => h.none rfl, fun h => ⟨nofun, fun _ => h⟩⟩
  | some value =>
    refine ⟨fun h => h.some value rfl, fun h => ⟨?_, nofun⟩⟩
    rintro _ ⟨⟩
    exact h

/-- A field that stays as it is was applied when nothing else was given for it. -/
theorem eq_getD_iff {α : Type} {given : Option α} {old : α} :
    old = given.getD old ↔ ∀ value, given = some value → value = old := by
  cases given with
  | none => exact ⟨fun _ => nofun, fun _ => rfl⟩
  | some value =>
    refine ⟨?_, fun h => (h value rfl).symm⟩
    rintro h _ ⟨⟩
    exact h.symm

/-- A field that may be empty, and that no update empties. -/
theorem given_map_some_iff {α : Type} {given old new : Option α} :
    Given (given.map Option.some) old new ↔ new = given.or old := by
  rw [given_iff]
  cases given <;> rfl

/-! ## Core -/

namespace Core

/-- A bond limit that is given: zero stands for no limit. -/
def limitOf (limit : ℕ) : Option ℕ := if limit = 0 then none else some limit

/-- A limit after an update that may give it. -/
theorem given_limit_iff {given : Option ℕ} {old new : Option ℕ} :
    Given (given.map limitOf) old new ↔ new = match given with
      | some limit => if limit = 0 then none else some limit
      | none => old := by
  rw [given_iff]
  cases given <;> rfl

/-- **An update does to every field what it is given.** -/
structure ConfigOptional.AppliedTo (new : ConfigOptional) (config config' : Config) : Prop where
  tokenContract : Given new.tokenContract config.tokenContract config'.tokenContract
  puppeteerContract : Given new.puppeteerContract config.puppeteerContract config'.puppeteerContract
  puppeteerTimeout : Given new.puppeteerTimeout config.puppeteerTimeout config'.puppeteerTimeout
  strategyContract : Given new.strategyContract config.strategyContract config'.strategyContract
  withdrawalVoucherContract :
    Given new.withdrawalVoucherContract config.withdrawalVoucherContract
      config'.withdrawalVoucherContract
  withdrawalManagerContract :
    Given new.withdrawalManagerContract config.withdrawalManagerContract
      config'.withdrawalManagerContract
  validatorsSetContract :
    Given new.validatorsSetContract config.validatorsSetContract config'.validatorsSetContract
  baseDenom : Given new.baseDenom config.baseDenom config'.baseDenom
  remoteDenom : Given new.remoteDenom config.remoteDenom config'.remoteDenom
  idleMinInterval : Given new.idleMinInterval config.idleMinInterval config'.idleMinInterval
  unbondingPeriod : Given new.unbondingPeriod config.unbondingPeriod config'.unbondingPeriod
  unbondingSafePeriod :
    Given new.unbondingSafePeriod config.unbondingSafePeriod config'.unbondingSafePeriod
  unbondBatchSwitchTime :
    Given new.unbondBatchSwitchTime config.unbondBatchSwitchTime config'.unbondBatchSwitchTime
  pumpAddress : Given (new.pumpAddress.map some) config.pumpAddress config'.pumpAddress
  channel : Given new.channel config.channel config'.channel
  ldDenom : Given (new.ldDenom.map some) config.ldDenom config'.ldDenom
  lsmMinBondAmount : Given new.lsmMinBondAmount config.lsmMinBondAmount config'.lsmMinBondAmount
  lsmRedeemThreshold :
    Given new.lsmRedeemThreshold config.lsmRedeemThreshold config'.lsmRedeemThreshold
  lsmRedeemMaximumInterval :
    Given new.lsmRedeemMaximumInterval config.lsmRedeemMaximumInterval
      config'.lsmRedeemMaximumInterval
  bondLimit : Given (new.bondLimit.map limitOf) config.bondLimit config'.bondLimit
  fee : Given (new.fee.map some) config.fee config'.fee
  feeAddress : Given (new.feeAddress.map some) config.feeAddress config'.feeAddress
  emergencyAddress :
    Given (new.emergencyAddress.map some) config.emergencyAddress config'.emergencyAddress
  minStakeAmount : Given new.minStakeAmount config.minStakeAmount config'.minStakeAmount

/-- **The configuration that an update asks for** is the stored one, but for the denomination on
the remote chain. -/
theorem appliedTo_iff {new : ConfigOptional} {config config' : Config} :
    new.AppliedTo config config' ↔
      config' = { config.update new with
        remoteDenom := new.remoteDenom.getD config.remoteDenom } := by
  constructor
  · intro h
    cases config'
    simp only [Config.update, Config.mk.injEq]
    exact ⟨given_iff.1 h.tokenContract, given_iff.1 h.puppeteerContract,
      given_iff.1 h.puppeteerTimeout, given_iff.1 h.strategyContract,
      given_iff.1 h.withdrawalVoucherContract, given_iff.1 h.withdrawalManagerContract,
      given_iff.1 h.validatorsSetContract, given_iff.1 h.baseDenom, given_iff.1 h.remoteDenom,
      given_iff.1 h.idleMinInterval, given_iff.1 h.unbondingPeriod,
      given_iff.1 h.unbondingSafePeriod, given_iff.1 h.unbondBatchSwitchTime,
      given_map_some_iff.1 h.pumpAddress, given_iff.1 h.channel, given_map_some_iff.1 h.ldDenom,
      given_iff.1 h.lsmMinBondAmount, given_iff.1 h.lsmRedeemThreshold,
      given_iff.1 h.lsmRedeemMaximumInterval, given_limit_iff.1 h.bondLimit,
      given_map_some_iff.1 h.fee, given_map_some_iff.1 h.feeAddress,
      given_map_some_iff.1 h.emergencyAddress, given_iff.1 h.minStakeAmount⟩
  · rintro rfl
    exact ⟨given_iff.2 rfl, given_iff.2 rfl, given_iff.2 rfl, given_iff.2 rfl, given_iff.2 rfl,
      given_iff.2 rfl, given_iff.2 rfl, given_iff.2 rfl, given_iff.2 rfl, given_iff.2 rfl,
      given_iff.2 rfl, given_iff.2 rfl, given_iff.2 rfl, given_map_some_iff.2 rfl, given_iff.2 rfl,
      given_map_some_iff.2 rfl, given_iff.2 rfl, given_iff.2 rfl, given_iff.2 rfl,
      given_limit_iff.2 rfl, given_map_some_iff.2 rfl, given_map_some_iff.2 rfl,
      given_map_some_iff.2 rfl, given_iff.2 rfl⟩

end Core

/-! ## The puppeteer -/

namespace Puppeteer

/-- The proxy address that an update stores. -/
theorem update_proxyAddress (config : Config) (new : ConfigOptional) :
    (config.update new).proxyAddress = new.proxyAddress.or config.proxyAddress := by
  simp only [Config.update]
  cases new.proxyAddress <;> rfl

/-- **An update does to every field what it is given.** -/
structure ConfigOptional.AppliedTo (new : ConfigOptional) (config config' : Config) : Prop where
  connectionId : Given new.connectionId config.connectionId config'.connectionId
  portId : Given new.portId config.portId config'.portId
  updatePeriod : Given new.updatePeriod config.updatePeriod config'.updatePeriod
  remoteDenom : Given new.remoteDenom config.remoteDenom config'.remoteDenom
  owner : Given new.owner config.owner config'.owner
  allowedSenders : Given new.allowedSenders config.allowedSenders config'.allowedSenders
  proxyAddress : Given (new.proxyAddress.map some) config.proxyAddress config'.proxyAddress
  transferChannelId : Given new.transferChannelId config.transferChannelId config'.transferChannelId
  sdkVersion : Given new.sdkVersion config.sdkVersion config'.sdkVersion

/-- **The configuration that an update asks for** is the stored one, but for the version of the
remote chain. -/
theorem appliedTo_iff {new : ConfigOptional} {config config' : Config} :
    new.AppliedTo config config' ↔
      config' = { config.update new with
        sdkVersion := new.sdkVersion.getD config.sdkVersion } := by
  constructor
  · intro h
    cases config'
    simp only [Config.update, Config.mk.injEq]
    exact ⟨given_iff.1 h.connectionId, given_iff.1 h.portId, given_iff.1 h.updatePeriod,
      given_iff.1 h.remoteDenom, given_iff.1 h.owner, given_iff.1 h.allowedSenders,
      (given_map_some_iff.1 h.proxyAddress).trans (update_proxyAddress config new).symm,
      given_iff.1 h.transferChannelId,
      given_iff.1 h.sdkVersion⟩
  · rintro rfl
    exact ⟨given_iff.2 rfl, given_iff.2 rfl, given_iff.2 rfl, given_iff.2 rfl, given_iff.2 rfl,
      given_iff.2 rfl, given_map_some_iff.2 (update_proxyAddress config new), given_iff.2 rfl,
      given_iff.2 rfl⟩

end Puppeteer

/-! ## Accepted updates -/

namespace System

/-- An update of core that is accepted comes from the owner and changes nothing else; it is applied
as it is given exactly when the denomination on the remote chain is not given, or given as it is. -/
theorem core_update_applies {s s' : Core.Storage} {q : Core.Querier} {env : Env}
    {info : MessageInfo} {new : Core.ConfigOptional} {msgs : List Core.CoreMsg}
    (h : Core.execute s q env info (.updateConfig new) = .ok (s', msgs)) :
    info.sender = s.owner ∧ s' = { s with config := s'.config } ∧ msgs = [] ∧
      (new.AppliedTo s.config s'.config ↔
        ∀ denom, new.remoteDenom = some denom → denom = s.config.remoteDenom) := by
  simp only [Core.execute, Core.silently, Core.executeUpdateConfig, Core.assertOwner, bind_eq_ok,
    ensure_eq_ok, pure_eq_ok, Except.ok.injEq, Prod.mk.injEq] at h
  obtain ⟨_, ⟨-, howner, rfl⟩, rfl, rfl⟩ := h
  refine ⟨howner, rfl, rfl, ?_⟩
  rw [Core.appliedTo_iff, ← eq_getD_iff]
  refine ⟨fun heq => congrArg Core.Config.remoteDenom heq, fun hkept => ?_⟩
  rw [← hkept]
  rfl

/-- An update of the puppeteer that is accepted comes from the owner and changes nothing but the
configuration and the owner; it is applied as it is given exactly when the version of the remote
chain is not given, or given as it is. -/
theorem puppeteer_update_applies {s s' : Puppeteer.FullStorage} {a : Puppeteer.Addresses}
    {env : Env} {info : MessageInfo} {new : Puppeteer.ConfigOptional}
    {out : List Puppeteer.Outgoing}
    (h : Puppeteer.executeFull s a info env (.updateConfig new) = .ok (s', out)) :
    info.sender = s.cwOwner ∧
      s' = { s with config := s'.config, cwOwner := s'.config.owner } ∧ out = [] ∧
      (new.AppliedTo s.config s'.config ↔
        ∀ version, new.sdkVersion = some version → version = s.config.sdkVersion) := by
  simp only [Puppeteer.executeFull, Puppeteer.executeUpdateConfig, Puppeteer.assertOwner,
    bind_eq_ok, ensure_eq_ok, pure_eq_ok, Except.ok.injEq, Prod.mk.injEq] at h
  obtain ⟨_, ⟨-, howner, -, -, rfl⟩, rfl, rfl⟩ := h
  refine ⟨howner, rfl, rfl, ?_⟩
  rw [Puppeteer.appliedTo_iff, ← eq_getD_iff]
  refine ⟨fun heq => congrArg Puppeteer.Config.sdkVersion heq, fun hkept => ?_⟩
  rw [← hkept]
  rfl

/-- **The accepted updates that are applied as they are given**: those of core that do not change
the denomination on the remote chain, and those of the puppeteer that do not change the version of
the remote chain. All of them change nothing but the configuration, and the owner with it. -/
theorem update_applies_iff {s s' : Core.Storage} {q : Core.Querier} {coreEnv puppeteerEnv : Env}
    {coreInfo puppeteerInfo : MessageInfo} {coreNew : Core.ConfigOptional}
    {msgs : List Core.CoreMsg} {p p' : Puppeteer.FullStorage} {a : Puppeteer.Addresses}
    {puppeteerNew : Puppeteer.ConfigOptional} {out : List Puppeteer.Outgoing} :
    (Core.execute s q coreEnv coreInfo (.updateConfig coreNew) = .ok (s', msgs) →
      coreInfo.sender = s.owner ∧ s' = { s with config := s'.config } ∧ msgs = [] ∧
      (coreNew.AppliedTo s.config s'.config ↔
        ∀ denom, coreNew.remoteDenom = some denom → denom = s.config.remoteDenom)) ∧
    (Puppeteer.executeFull p a puppeteerInfo puppeteerEnv (.updateConfig puppeteerNew) =
        .ok (p', out) →
      puppeteerInfo.sender = p.cwOwner ∧
      p' = { p with config := p'.config, cwOwner := p'.config.owner } ∧ out = [] ∧
      (puppeteerNew.AppliedTo p.config p'.config ↔
        ∀ version, puppeteerNew.sdkVersion = some version → version = p.config.sdkVersion)) :=
  ⟨core_update_applies, puppeteer_update_applies⟩

/-! ### Two updates -/

namespace Sample

/-- The storage of the puppeteer after `instantiate`. -/
def puppeteerStorage : Puppeteer.FullStorage :=
  { Puppeteer.instantiate puppeteerConfig with
    cwOwner := "admin"
    kvQueries := StorageMap.empty
    unbondingDelegations := StorageMap.empty
    unbondingDelegationsReplyIdStorage := StorageMap.empty
    recipientTransfers := [] }

/-- The queries of core, which an update does not make. -/
def silentQuerier : Core.Querier where
  supply := fun _ => 0
  balance := fun _ => 0
  delegations := .error "no answer"
  balances := .error "no answer"
  nonNativeRewardsBalances := .error "no answer"
  validators := .error "no answer"
  validator := fun _ => .error "no answer"
  calcDeposit := fun _ => .error "no answer"
  calcWithdraw := fun _ => .error "no answer"
  denomTrace := fun _ => .error "no answer"
  addrValidate := fun _ => true

/-- All addresses are valid. -/
def allAddresses : Puppeteer.Addresses := ⟨fun _ => true, fun _ => true⟩

end Sample

open Sample

/-- **Two fields are ignored**: the denomination that core is given, and the version that the
puppeteer is given. -/
theorem given_fields_ignored :
    (∃ s' msgs, Core.execute (Core.instantiate config "admin" 1000) silentQuerier
        ⟨10, ⟨0⟩, "core"⟩ ⟨"admin", []⟩
        (.updateConfig { Core.ConfigOptional.empty with remoteDenom := some "ustake" }) =
          .ok (s', msgs) ∧ s'.config.remoteDenom = "uatom") ∧
    ∃ s' out, Puppeteer.executeFull puppeteerStorage allAddresses ⟨"admin", []⟩
        ⟨10, ⟨0⟩, "puppeteer"⟩
        (.updateConfig { Puppeteer.ConfigOptional.empty with sdkVersion := some "0.50.0" }) =
          .ok (s', out) ∧ s'.config.sdkVersion = "0.47.10" :=
  ⟨⟨_, _, rfl, rfl⟩, _, _, rfl, rfl⟩

/-- Updates of a bond limit and of an owner are applied as they are given. -/
theorem update_applies_iff_given :
    (∃ s' msgs, Core.execute (Core.instantiate config "admin" 1000) silentQuerier
        ⟨10, ⟨0⟩, "core"⟩ ⟨"admin", []⟩
        (.updateConfig { Core.ConfigOptional.empty with bondLimit := some 0 }) = .ok (s', msgs) ∧
      Core.ConfigOptional.AppliedTo { Core.ConfigOptional.empty with bondLimit := some 0 } config
        s'.config) ∧
    ∃ s' out, Puppeteer.executeFull puppeteerStorage allAddresses ⟨"admin", []⟩
        ⟨10, ⟨0⟩, "puppeteer"⟩
        (.updateConfig { Puppeteer.ConfigOptional.empty with owner := some "dao" }) =
          .ok (s', out) ∧
      Puppeteer.ConfigOptional.AppliedTo
        { Puppeteer.ConfigOptional.empty with owner := some "dao" } puppeteerConfig s'.config := by
  have hcore : Core.execute (Core.instantiate config "admin" 1000) silentQuerier
      ⟨10, ⟨0⟩, "core"⟩ ⟨"admin", []⟩
      (.updateConfig { Core.ConfigOptional.empty with bondLimit := some 0 }) = .ok (_, _) := rfl
  have hpuppeteer : Puppeteer.executeFull puppeteerStorage allAddresses ⟨"admin", []⟩
      ⟨10, ⟨0⟩, "puppeteer"⟩
      (.updateConfig { Puppeteer.ConfigOptional.empty with owner := some "dao" }) = .ok (_, _) :=
    rfl
  obtain ⟨⟨-, -, -, happlied⟩, -, -, -, happlied'⟩ :=
    update_applies_iff.imp (fun happlies => happlies hcore) (fun happlies => happlies hpuppeteer)
  exact ⟨⟨_, _, hcore, happlied.2 (fun _ h => nomatch h)⟩, _, _, hpuppeteer,
    happlied'.2 (fun _ h => nomatch h)⟩

end System

end DropContracts
