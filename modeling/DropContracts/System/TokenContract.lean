import DropContracts.System.Scenario
import DropContracts.Token.Contract

set_option relaxedAutoImplicit false
set_option autoImplicit false

/-!
# The token contract in the system

The system of core and the puppeteer mints and burns at the bank when core asks the token contract
for it. Here the code of the token contract runs instead: its messages go to the chain, and anybody
may call it. Nothing else can happen for that.

## Main definitions

* `System.TokenWorld`, `System.TokenAction` — the system with the token contract, and its steps.
* `System.TokenWorld.callToken`, `System.TokenWorld.execute` — a call of the token contract, and a
  call of core whose messages reach the code of the token contract.
* `System.TokenDeployed`, `System.TokenInitial` — a token contract that has been set up.

## Main results

* `System.dispatchAll_token` — the messages of core do what they do without the code.
* `System.callToken_outside` — nobody but core can call the token contract.
* `System.token_contract_refines` — the system with the code has the same runs.
-/

namespace DropContracts

namespace System

open Exec

/-! ## The system -/

/-- The system with the token contract, and the metadata of its denomination at the chain. -/
structure TokenWorld where
  world : World
  token : Token.Storage
  metadata : Option Token.Metadata

/-- The steps: those of the system, and calls of the token contract by anybody else. -/
inductive TokenAction where
  | world (a : Action)
  | token (addrValidate : String → Bool) (info : MessageInfo) (msg : Token.ExecuteMsg)

namespace TokenWorld

variable (d : Deployment) (tw : TokenWorld)

/-- A message of the token contract to the chain. The contract may mint and burn the denomination
that it has created, and has created one. -/
def chain : Token.Msg → Option TokenWorld
  | .createDenom _ _ => none
  | .mintTokens denom amount mintToAddress =>
    if denom = d.tokenDenom then
      some { tw with world := { tw.world with
        bank := tw.world.bank.mint mintToAddress ⟨denom, amount⟩ } }
    else none
  | .burnTokens denom amount => do
    guard (denom = d.tokenDenom)
    let bank ← tw.world.bank.burn d.token ⟨denom, amount⟩
    some { tw with world := { tw.world with bank := bank } }
  | .setDenomMetadata sender metadata =>
    if sender = d.token ∧ metadata.base = d.tokenDenom then
      some { tw with metadata := some metadata }
    else none

/-- A call of the token contract, and its message to the chain. -/
def callToken (addrValidate : String → Bool) (info : MessageInfo) (msg : Token.ExecuteMsg) :
    Option TokenWorld := do
  let info := { info with funds := mergeCoins info.funds }
  let bank ← tw.world.bank.send info.sender d.token info.funds
  let (token, out) ← (Token.execute tw.token ⟨tw.world.height, tw.world.time, d.token⟩ addrValidate
    info msg).toOption
  let tw : TokenWorld := { tw with world := { tw.world with bank := bank }, token := token }
  match out with
  | some msg => tw.chain d msg
  | none => some tw

/-- One message of core. -/
def dispatch (addrValidate : String → Bool) : Core.CoreMsg → Option TokenWorld
  | .tokenMint contractAddr amount receiver =>
    if contractAddr = d.token then tw.callToken d addrValidate ⟨d.core, []⟩ (.mint amount receiver)
    else none
  | .tokenBurn contractAddr funds =>
    if contractAddr = d.token then tw.callToken d addrValidate ⟨d.core, funds⟩ .burn
    else none
  | msg => do
    let world ← tw.world.dispatch d addrValidate msg
    some { tw with world := world }

/-- The messages of core, one after the other. -/
def dispatchAll (addrValidate : String → Bool) (tw : TokenWorld) :
    List Core.CoreMsg → Option TokenWorld
  | [] => some tw
  | msg :: rest => do
    let tw ← tw.dispatch d addrValidate msg
    dispatchAll addrValidate tw rest

/-- A call of core by `sender`, who attaches `funds`. -/
def execute (a : Answers) (sender : String) (funds : List Coin) (msg : Core.ExecuteMsg) :
    Option TokenWorld := do
  guard (sender ≠ d.core ∧ sender ≠ d.puppeteer)
  let bank ← tw.world.bank.send sender d.core funds
  let paid := { tw.world with bank := bank }
  let (core, msgs) ←
    (Core.execute tw.world.core (paid.querier d a) (tw.world.env d) ⟨sender, funds⟩ msg).toOption
  guard (Wired d core.config)
  let after ← dispatchAll d a.addrValidate { tw with world := { paid with core := core } } msgs
  some { after with world := after.world.noteEntered tw.world }

/-- The state after a step. -/
def exec : TokenAction → Option TokenWorld
  | .world (.execute answers sender funds msg) => tw.execute d answers sender funds msg
  | .world a => do
    let world ← tw.world.exec d a
    some { tw with world := world }
  | .token addrValidate info msg => do
    guard (info.sender ≠ d.core ∧ info.sender ≠ d.puppeteer)
    tw.callToken d addrValidate info msg

end TokenWorld

/-- A step of the system with the token contract. -/
def TokenStep (d : Deployment) (tw : TokenWorld) (a : TokenAction) (tw' : TokenWorld) : Prop :=
  tw.exec d a = some tw'

/-- A token contract that mints the tokens of the deployment for core. -/
structure TokenDeployed (d : Deployment) (token : Token.Storage) : Prop where
  core : token.coreAddress = d.core
  denom : token.denom = d.tokenDenom

/-- The token contract has been instantiated for core, and the chain has replied with the
denomination of the deployment and was told the metadata. -/
def TokenInitial (d : Deployment) (tw : TokenWorld) : Prop :=
  ∃ addrValidate subdenom tokenMetadata owner s msg env queryFullDenom sender metadata,
    Token.instantiate addrValidate d.core subdenom tokenMetadata owner = .ok (s, msg) ∧
    queryFullDenom subdenom = .ok d.tokenDenom ∧
    Token.reply s env queryFullDenom Token.CREATE_DENOM_REPLY_ID =
      .ok (tw.token, .setDenomMetadata sender metadata) ∧
    tw.metadata = some metadata

/-- A token contract that has been set up is deployed. -/
theorem TokenInitial.deployed {d : Deployment} {tw : TokenWorld} (h : TokenInitial d tw) :
    TokenDeployed d tw.token := by
  obtain ⟨addrValidate, subdenom, tokenMetadata, owner, s, msg, env, queryFullDenom, sender,
    metadata, hinst, hquery, hreply, -⟩ := h
  simp only [Token.instantiate, Ownership.initializeOwner, bind_eq_ok, mapError_eq_ok, pure_eq_ok,
    Except.ok.injEq, Prod.mk.injEq] at hinst
  obtain ⟨ownership, ⟨-, -, rfl⟩, -, -, rfl, -⟩ := hinst
  simp only [Token.reply, ↓reduceIte, hquery, ok_bind, bind_eq_ok, orError_eq_ok, pure_eq_ok,
    Except.ok.injEq, Prod.mk.injEq] at hreply
  obtain ⟨-, -, htoken, -⟩ := hreply
  rw [← htoken]
  exact ⟨rfl, rfl⟩

/-! ## The calls of core -/

section Calls

variable {d : Deployment} {tw tw' : TokenWorld} {addrValidate : String → Bool}

/-- **Nobody but core can call the token contract.** -/
theorem callToken_outside (hdeployed : TokenDeployed d tw.token) {info : MessageInfo}
    (hsender : info.sender ≠ d.core) (msg : Token.ExecuteMsg) :
    tw.callToken d addrValidate info msg = none := by
  rw [Option.eq_none_iff_forall_ne_some]
  intro tw' h
  simp only [TokenWorld.callToken, Option.bind_eq_bind, Option.bind_eq_some_iff,
    toOption_eq_some] at h
  obtain ⟨bank, -, ⟨token, out⟩, hexec, -⟩ := h
  exact hsender ((Token.execute_ok hexec).1.trans hdeployed.core)

/-- A mint of core is a mint at the bank. -/
theorem callToken_mint (hdeployed : TokenDeployed d tw.token) (amount : ℕ) (receiver : String) :
    tw.callToken d addrValidate ⟨d.core, []⟩ (.mint amount receiver) =
      (tw.world.tokenMint d amount receiver).map fun w => { tw with world := w } := by
  by_cases hamount : amount = 0
  · simp [TokenWorld.callToken, Bank.send, Token.execute, Token.mint, ensure, hdeployed.core,
      hamount, World.tokenMint, fail, Except.toOption]
  · simp [TokenWorld.callToken, Bank.send, Token.execute, Token.mint, ensure, hdeployed.core,
      hamount, World.tokenMint, TokenWorld.chain, hdeployed.denom, Except.toOption]

/-- A burn of core is a burn at the bank. -/
theorem callToken_burn (hdeployed : TokenDeployed d tw.token) (funds : List Coin) :
    tw.callToken d addrValidate ⟨d.core, funds⟩ .burn =
      (tw.world.tokenBurn d funds).map fun w => { tw with world := w } := by
  cases hbank : tw.world.bank.send d.core d.token (mergeCoins funds) with
  | none => simp [TokenWorld.callToken, World.tokenBurn, hbank]
  | some bank =>
    cases hpay : mustPay ⟨d.core, mergeCoins funds⟩ d.tokenDenom with
    | error fault =>
      cases fault <;>
      simp [TokenWorld.callToken, World.tokenBurn, hbank, Token.execute, Token.burn, ensure,
        hdeployed.core, hdeployed.denom, hpay, mapError, Except.toOption]
    | ok amount =>
      simp [TokenWorld.callToken, World.tokenBurn, hbank, Token.execute, Token.burn, ensure,
        hdeployed.core, hdeployed.denom, hpay, mapError, Except.toOption, TokenWorld.chain]

/-- A message of core does what it does without the code of the token contract. -/
theorem dispatch_token (hdeployed : TokenDeployed d tw.token) (msg : Core.CoreMsg) :
    tw.dispatch d addrValidate msg =
      (tw.world.dispatch d addrValidate msg).map fun w => { tw with world := w } := by
  cases msg with
  | puppeteer contractAddr msg funds =>
    rw [TokenWorld.dispatch, Option.bind_eq_bind, Option.map_eq_bind]
    · rfl
    all_goals simp
  | tokenMint contractAddr amount receiver =>
    simp only [TokenWorld.dispatch, World.dispatch]
    split_ifs
    · exact callToken_mint hdeployed amount receiver
    · rfl
  | tokenBurn contractAddr funds =>
    simp only [TokenWorld.dispatch, World.dispatch]
    split_ifs
    · exact callToken_burn hdeployed funds
    · rfl
  | voucherMint contractAddr owner tokenId extension =>
    rw [TokenWorld.dispatch, Option.bind_eq_bind, Option.map_eq_bind]
    · rfl
    all_goals simp

/-- **The messages of core** do what they do without the code of the token contract. The induction
is on the list of messages; the token contract is the same after each. -/
theorem dispatchAll_token (hdeployed : TokenDeployed d tw.token) (msgs : List Core.CoreMsg) :
    TokenWorld.dispatchAll d addrValidate tw msgs =
      (tw.world.dispatchAll d addrValidate msgs).map fun w => { tw with world := w } := by
  induction msgs generalizing tw with
  | nil => rfl
  | cons msg rest ih =>
    rw [TokenWorld.dispatchAll, World.dispatchAll, dispatch_token hdeployed]
    cases hfirst : tw.world.dispatch d addrValidate msg with
    | none => rfl
    | some w =>
      have hnext : TokenDeployed d { tw with world := w }.token := hdeployed
      exact ih hnext

/-- **A step of the system** is the same step with the code of the token contract. -/
theorem exec_world (hdeployed : TokenDeployed d tw.token) (a : Action) :
    tw.exec d (.world a) = (tw.world.exec d a).map fun w => { tw with world := w } := by
  cases a with
  | execute answers sender funds msg =>
    show tw.execute d answers sender funds msg =
      (tw.world.execute d answers sender funds msg).map _
    have hall (t : TokenWorld) (msgs : List Core.CoreMsg) (ht : t.token = tw.token) :
        TokenWorld.dispatchAll d answers.addrValidate t msgs =
          (t.world.dispatchAll d answers.addrValidate msgs).map fun w => { t with world := w } :=
      dispatchAll_token (ht ▸ hdeployed) msgs
    simp only [TokenWorld.execute, World.execute, hall, Option.bind_eq_bind, Option.map_bind,
      Option.bind_map, Function.comp_def, Option.map_some]
  | executePuppeteer => exact (Option.map_eq_bind ..).symm
  | deliver => exact (Option.map_eq_bind ..).symm
  | delegationsAndBalance => rfl
  | nonNativeRewardsBalances => rfl
  | openAck => exact (Option.map_eq_bind ..).symm
  | bankSend => exact (Option.map_eq_bind ..).symm
  | nextBlock => exact (Option.map_eq_bind ..).symm

/-- Nobody can take a step of the token contract. -/
theorem exec_token (hdeployed : TokenDeployed d tw.token) (info : MessageInfo)
    (msg : Token.ExecuteMsg) : tw.exec d (.token addrValidate info msg) = none := by
  rw [Option.eq_none_iff_forall_ne_some]
  intro tw' h
  simp only [TokenWorld.exec, Option.bind_eq_bind, Option.bind_eq_some_iff,
    Option.guard_eq_some'] at h
  obtain ⟨-, ⟨hsender, -⟩, hcall⟩ := h
  rw [callToken_outside hdeployed hsender] at hcall
  cases hcall

end Calls

/-! ## The runs -/

section Runs

variable {d : Deployment} {tw tw' : TokenWorld}

/-- A step with the code of the token contract is a step of the system without it, and leaves the
token contract and its metadata alone. -/
theorem tokenStep_iff (hdeployed : TokenDeployed d tw.token) :
    (∃ a, TokenStep d tw a tw') ↔ (∃ a, Step d tw.world a tw'.world) ∧ tw'.token = tw.token ∧
      tw'.metadata = tw.metadata := by
  constructor
  · rintro ⟨a, hstep⟩
    cases a with
    | world a =>
      rw [TokenStep, exec_world hdeployed] at hstep
      obtain ⟨w, hw, rfl⟩ := Option.map_eq_some_iff.1 hstep
      exact ⟨⟨a, hw⟩, rfl, rfl⟩
    | token addrValidate info msg =>
      rw [TokenStep, exec_token hdeployed] at hstep
      cases hstep
  · rintro ⟨⟨a, hstep⟩, htoken, hmetadata⟩
    refine ⟨.world a, ?_⟩
    rw [TokenStep, exec_world hdeployed]
    have hworld : tw.world.exec d a = some tw'.world := hstep
    rw [hworld, Option.map_some, ← htoken, ← hmetadata]

/-- **The token contract is transparent.** From a state in which it has been set up, the runs with
its code, in which anybody may call it, are the runs of core and the puppeteer in which the tokens
are minted and burnt at the bank; and its storage and the metadata of the token never change.

**Proof sketch.** The messages of core mint and burn what the contract would, or fail where it would,
since it checks for the same amounts. All other calls of the contract fail, because only core may
call, and core sends no other messages. -/
theorem token_contract_refines (hinit : TokenInitial d tw) :
    Run (TokenStep d) tw tw' ↔ Run (Step d) tw.world tw'.world ∧ tw'.token = tw.token ∧
      tw'.metadata = tw.metadata := by
  have hdeployed := hinit.deployed
  constructor
  · intro hrun
    refine hrun.preserves (P := fun t => Run (Step d) tw.world t.world ∧ t.token = tw.token ∧
      t.metadata = tw.metadata) ?_ ⟨RunWhere.refl _, rfl, rfl⟩
    rintro t a t' - hstep ⟨hsofar, htoken, hmetadata⟩
    obtain ⟨⟨a', hworld⟩, htoken', hmetadata'⟩ :=
      (tokenStep_iff (htoken ▸ hdeployed)).1 ⟨a, hstep⟩
    exact ⟨hsofar.tail trivial hworld, htoken'.trans htoken, hmetadata'.trans hmetadata⟩
  · rintro ⟨hrun, htoken, hmetadata⟩
    have hall : ∀ w, Run (Step d) tw.world w →
        Run (TokenStep d) tw { tw with world := w } := by
      intro w hw
      refine hw.preserves (P := fun w => Run (TokenStep d) tw { tw with world := w }) ?_
        (RunWhere.refl _)
      rintro w a w' - hstep hsofar
      obtain ⟨a', hstep'⟩ := (@tokenStep_iff d { tw with world := w } { tw with world := w' }
        hdeployed).2 ⟨⟨a, hstep⟩, rfl, rfl⟩
      exact hsofar.tail trivial hstep'
    have hend := hall tw'.world hrun
    rw [← htoken, ← hmetadata] at hend
    exact hend

end Runs

namespace Sample

/-- What wallets show of the sample token. -/
def tokenMetadata : Token.DenomMetadata where
  exponent := 6
  display := "datom"
  name := "Drop ATOM"
  description := "A liquid staking token"
  symbol := "dATOM"
  uri := none
  uriHash := none

/-- The metadata that the chain is told. -/
def chainMetadata : Token.Metadata where
  denomUnits := [⟨"udatom", 0, []⟩, ⟨"datom", 6, []⟩]
  base := "udatom"
  display := "datom"
  name := "Drop ATOM"
  description := "A liquid staking token"
  symbol := "dATOM"
  uri := ""
  uriHash := ""

/-- The sample deployment with its token contract. -/
def tokenWorld : TokenWorld where
  world := initial
  token := ⟨⟨some "admin", none, none⟩, "core", "udatom", none⟩
  metadata := some chainMetadata

/-- The token contract has been set up. -/
theorem tokenWorld_spec : TokenInitial deployment tokenWorld :=
  ⟨fun _ => true, "datom", tokenMetadata, "admin", _, _, ⟨1, ⟨0⟩, "token"⟩, fun _ => .ok "udatom",
    _, _, rfl, rfl, rfl, rfl⟩

end Sample

open Sample

/-- The code of the token contract mints what a user of the sample deployment bonds. -/
theorem token_contract_refines_sample : ∃ tw : TokenWorld,
    Run (TokenStep deployment) tokenWorld tw ∧ tw.world.bank.balance "alice" "udatom" = 1000 ∧
      tw.token = tokenWorld.token := by
  have hrun : (initial.runAll deployment (setup ++ [bond 1000])).any (fun w =>
      decide (w.bank.balance "alice" "udatom" = 1000)) = true := by
    decide
  obtain ⟨w, hw, hminted⟩ := (Option.any_eq_true _ _).1 hrun
  have hworld : Run (Step deployment) tokenWorld.world w := runAll_eq_some hw
  exact ⟨{ tokenWorld with world := w },
    (token_contract_refines tokenWorld_spec).2 ⟨hworld, rfl, rfl⟩, of_decide_eq_true hminted, rfl⟩

end System

end DropContracts
