import DropContracts.System.World

set_option relaxedAutoImplicit false
set_option autoImplicit false

/-!
# Scenarios

A list of actions is run by evaluation, and a run that goes through is a run of the system. The
scenarios of the later modules all start from one small deployment, which is set up here.

## Main definitions

* `System.World.runAll` — the world after a list of steps.
* `System.Sample.initial`, `System.Sample.setup` — a deployment right after instantiation, and the
  calls of the administrators and relayers that make it ready for use.

## Main results

* `System.runWhere_eq_some` — an evaluated list of steps is a run.
* `System.Sample.initial_spec` — the deployment is an initial state.
-/

namespace DropContracts

namespace System

/-! ## Running a list of actions -/

/-- The world after a list of steps, if all of them can be taken. -/
def World.runAll (d : Deployment) (w : World) (actions : List Action) : Option World :=
  runList (World.exec d) (fun _ _ => true) w actions

section Runs

variable {d : Deployment} {w w' : World} {actions : List Action}

/-- **An evaluated list of steps is a run**, under every condition that the check ensures. -/
theorem runWhere_eq_some {ok : World → Action → Bool} {P : World → Action → Prop}
    (hok : ∀ w a, ok w a = true → P w a) (h : runList (World.exec d) ok w actions = some w') :
    RunWhere (Step d) P w w' :=
  runList_eq_some (fun _ _ _ hexec => hexec) (fun w a _ => hok w a) h

/-- An evaluated list of steps is a run. -/
theorem runAll_eq_some (h : w.runAll d actions = some w') : Run (Step d) w w' :=
  runWhere_eq_some (fun _ _ _ => trivial) h

/-- The end of a list of steps is reachable when its start is initial. -/
theorem reachable_of_runAll (hinit : Initial d w) (h : w.runAll d actions = some w') :
    Reachable d w' :=
  ⟨w, hinit, runAll_eq_some h⟩

/-- A tick that is evaluated together with the list of steps before it. -/
theorem exists_tick_of_runAll {querier : World → Core.Querier} {info : MessageInfo}
    {check : World × Core.Storage × List Core.CoreMsg → Bool}
    (h : ((w.runAll d actions).bind fun w₁ =>
      (Core.executeTick w₁.core (querier w₁) (w₁.env d) info).toOption.map fun r =>
        (w₁, r.1, r.2)).any check = true) :
    ∃ w₁ s' msgs, w.runAll d actions = some w₁ ∧
      Core.executeTick w₁.core (querier w₁) (w₁.env d) info = .ok (s', msgs) ∧
      check (w₁, s', msgs) = true := by
  obtain ⟨⟨_, _, _⟩, hrun, hcheck⟩ := (Option.any_eq_true _ _).1 h
  simp only [Option.bind_eq_some_iff, Option.map_eq_some_iff, Prod.mk.injEq,
    Exec.toOption_eq_some] at hrun
  obtain ⟨w₁, hw, ⟨s', msgs⟩, htick, rfl, rfl, rfl⟩ := hrun
  exact ⟨w₁, s', msgs, hw, htick, hcheck⟩

/-- A step that is evaluated together with the list of steps before it. -/
theorem exists_step_of_runWhere {ok : World → Action → Bool} {a : Action}
    {check : World × World → Bool}
    (h : ((runList (World.exec d) ok w actions).bind fun w₁ =>
      (w₁.exec d a).map fun w₂ => (w₁, w₂)).any check = true) :
    ∃ w₁ w₂, runList (World.exec d) ok w actions = some w₁ ∧ Step d w₁ a w₂ ∧
      check (w₁, w₂) = true := by
  obtain ⟨⟨w₁, w₂⟩, hrun, hcheck⟩ := (Option.any_eq_true _ _).1 h
  simp only [Option.bind_eq_some_iff, Option.map_eq_some_iff, Prod.mk.injEq] at hrun
  obtain ⟨_, hw₁, _, hw₂, rfl, rfl⟩ := hrun
  exact ⟨_, _, hw₁, hw₂, hcheck⟩

end Runs

/-! ## A deployment -/

namespace Sample

/-- The addresses of the deployment. -/
def deployment : Deployment where
  core := "core"
  puppeteer := "puppeteer"
  token := "token"
  voucher := "voucher"
  tokenDenom := "udatom"
  baseDenom := "ibc/uatom"
  core_ne_puppeteer := by decide
  core_ne_token := by decide
  base_ne_token := by decide
  base_ne_local := by decide

/-- The configuration of core, with short periods (in seconds) and no fee. -/
def config : Core.Config where
  tokenContract := "token"
  puppeteerContract := "puppeteer"
  puppeteerTimeout := 60
  strategyContract := "strategy"
  withdrawalVoucherContract := "voucher"
  withdrawalManagerContract := "manager"
  validatorsSetContract := "validators"
  baseDenom := "ibc/uatom"
  remoteDenom := "uatom"
  idleMinInterval := 10
  unbondingPeriod := 100
  unbondingSafePeriod := 10
  unbondBatchSwitchTime := 1000000
  pumpAddress := some "pump"
  channel := "channel-0"
  ldDenom := none
  lsmMinBondAmount := 100
  lsmRedeemThreshold := 10
  lsmRedeemMaximumInterval := 100
  bondLimit := none
  fee := none
  feeAddress := none
  emergencyAddress := none
  minStakeAmount := 100

/-- The configuration of the puppeteer. -/
def puppeteerConfig : Puppeteer.Config where
  connectionId := "connection-0"
  portId := "transfer"
  updatePeriod := 10
  remoteDenom := "uatom"
  owner := "admin"
  allowedSenders := ["core"]
  proxyAddress := none
  transferChannelId := "channel-0"
  sdkVersion := "0.47.10"

/-- One million base coins of one user. -/
def bank : Bank where
  balance := fun address denom =>
    if address = "alice" ∧ denom = "ibc/uatom" then 1000000 else 0
  supply := fun denom => if denom = "ibc/uatom" then 1000000 else 0

/-- The system right after instantiation, at second 1000. -/
def initial : World where
  core := Core.instantiate config "admin" 1000
  puppeteer := Puppeteer.instantiate puppeteerConfig
  bank := bank
  vouchers := []
  inFlight := []
  nextSeq := 1
  height := 1
  time := ⟨1000 * nanosPerSecond⟩
  entered := none
  channelOpen := false

/-- The deployment is an initial state. -/
theorem initial_spec : Initial deployment initial where
  core := ⟨config, "admin", rfl⟩
  wired := by decide
  puppeteer := ⟨puppeteerConfig, rfl⟩
  allowedSenders := rfl
  supply := rfl
  vouchers := rfl
  inFlight := rfl
  channel := rfl
  time := by decide

/-- Base coins and LSM shares of one user. -/
def shareBank : Bank where
  balance := fun address denom =>
    if address = "alice" ∧ (denom = "ibc/uatom" ∨ denom = "ibc/share") then 1000000 else 0
  supply := fun denom => if denom = "ibc/uatom" ∨ denom = "ibc/share" then 1000000 else 0

/-- The system right after instantiation, when the user also has LSM shares. -/
def initialShares : World := { initial with bank := shareBank }

/-- The deployment with LSM shares is an initial state. -/
theorem initialShares_spec : Initial deployment initialShares where
  core := ⟨config, "admin", rfl⟩
  wired := by decide
  puppeteer := ⟨puppeteerConfig, rfl⟩
  allowedSenders := rfl
  supply := rfl
  vouchers := rfl
  inFlight := rfl
  channel := rfl
  time := by decide

/-! ### Answers and actions -/

/-- The answers of a validator set with the given members and of a strategy that puts everything
on one validator. No denomination has a trace. -/
def answers (validators : List ValidatorInfo) : Answers where
  validators := .ok validators
  validator := fun valoper => .ok (validators.find? fun v => v.valoperAddress = valoper)
  calcDeposit := fun amount => .ok [⟨"val", amount, 0, amount, 1⟩]
  calcWithdraw := fun amount => .ok [⟨"val", amount, 0, amount, 1⟩]
  denomTrace := fun _ => .error "no trace"
  addrValidate := fun _ => true
  local_not_traced := fun _ h => by cases h

/-- The same answers, with a trace for the LSM shares. -/
def tracing (path : String) (validators : List ValidatorInfo) : Answers :=
  { answers validators with
    denomTrace := fun denom =>
      if denom = "ibc/share" then .ok ⟨path, "val/1"⟩ else .error "no trace"
    local_not_traced := fun trace h => by
      rw [if_neg (by decide)] at h
      cases h }

/-- The members of the validator set. -/
def members : List ValidatorInfo := [⟨"val", 1⟩]

/-- A call of the administrator. -/
def admin (msg : Core.ExecuteMsg) : Action := .execute (answers members) "admin" [] msg

/-- A tick of some user, with the given validator set. -/
def tickWith (validators : List ValidatorInfo) : Action :=
  .execute (answers validators) "bob" [] .tick

/-- A tick of some user. -/
def tick : Action := tickWith members

/-- A bond of base coins. -/
def bond (amount : ℕ) : Action :=
  .execute (answers members) "alice" [⟨"ibc/uatom", amount⟩] (.bond none)

/-- A bond of LSM shares that arrived over the given path. -/
def bondShares (path : String) (amount : ℕ) : Action :=
  .execute (tracing path members) "alice" [⟨"ibc/share", amount⟩] (.bond none)

/-- An unbond of liquid tokens. -/
def unbond (amount : ℕ) : Action :=
  .execute (answers members) "alice" [⟨"udatom", amount⟩] .unbond

/-- The block of the given height and second. -/
def block (height seconds : ℕ) : Action := .nextBlock height ⟨seconds * nanosPerSecond⟩

/-- A query result: the balance of the interchain account and its delegation to the validator. -/
def remote (balance delegation : ℕ) : Action :=
  .delegationsAndBalance ⟨[⟨"uatom", balance⟩],
    if delegation = 0 then [] else [⟨"ica", "val", ⟨"uatom", delegation⟩⟩]⟩

/-- The calls that make the deployment ready for use. -/
def setup : List Action := [
  admin (.updateConfig { Core.ConfigOptional.empty with ldDenom := some "udatom" }),
  admin (.updateNonNativeRewardsReceivers []),
  .executePuppeteer (fun _ => true) "admin" [] (.setFees 0 0 0 0),
  .executePuppeteer (fun _ => true) "bob" [] .registerICA,
  .openAck (some "ica")]

/-- A bond of 1000 that has been transferred and delegated. -/
def staked : List Action := [
  bond 1000, block 2 1020, tick, .deliver 1 .response, block 3 1025, remote 1000 0, tick,
  .deliver 2 .response, remote 0 1000, tick]

end Sample

end System

end DropContracts
