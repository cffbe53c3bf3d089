import Mathlib.Data.Option.Basic
import DropContracts.Base.Run
import DropContracts.Core.Execute
import DropContracts.Puppeteer.Contract
import DropContracts.System.Bank

set_option relaxedAutoImplicit false
set_option autoImplicit false

/-!
# The core contract together with the puppeteer

The two contracts, the bank, the vouchers, and the chain between them: a transaction of core calls
the puppeteer within the same transaction, the puppeteer submits a packet, and at some later block
the outcome of the packet reaches the puppeteer, which calls the hook of core. A failing call
leaves no trace, except that a delivered packet is gone even when the contracts refuse its outcome.

## Main definitions

* `System.Deployment` — the addresses and denominations of one deployment.
* `System.World`, `System.Packet` — the state of the system and a packet in flight.
* `System.Answers` — what the other contracts answer during one call.
* `System.World.dispatch` — the messages of core.
* `System.World.execute`, `System.World.deliver` — a call of core, and the outcome of a packet.
* `System.Action`, `System.World.exec`, `System.Step` — the steps of the system.
* `System.Initial`, `System.Reachable` — the states of a run.

## Main results

* `System.Reachable.preserves`, `System.ReachableWhere.invariant`, `System.Reachable.invariant` —
  from what a step preserves to what a run preserves.

## Design

The owner of core may change its configuration as long as core keeps talking to this puppeteer,
token and voucher contract in these denominations: `System.Wired` is a condition on the runs, which
the code does not check and `System.World.execute` guards. Packets are numbered across
channels, so that the number tells the packets apart. The fees of packets are left out: a packet
that the chain refuses makes the whole call fail. The coins of a message are merged by denomination
before they are handed over (`mergeCoins`), and the chain refuses to register an interchain account
over an open channel. A packet that timed out over the channel closes it.
-/

namespace DropContracts

namespace System

/-- The addresses and denominations of one deployment. -/
structure Deployment where
  core : String
  puppeteer : String
  token : String
  voucher : String
  tokenDenom : String
  baseDenom : String
  core_ne_puppeteer : core ≠ puppeteer
  core_ne_token : core ≠ token
  base_ne_token : baseDenom ≠ tokenDenom
  base_ne_local : baseDenom ≠ Puppeteer.LOCAL_DENOM

/-- A packet in flight: its number, what the chain carries, and the transaction it stands for. -/
structure Packet where
  seq : ℕ
  msg : Puppeteer.NeutronMsg
  transaction : Transaction
  deriving DecidableEq, Repr

/-- A minted withdrawal voucher. -/
structure Voucher where
  tokenId : String
  owner : String
  extension : Core.Metadata
  deriving DecidableEq, Repr

/-- The state of the system. `entered` records the packet that was submitted by the call which
moved core's state machine to its present state, and `channelOpen` whether the channel of the
interchain account is open. -/
structure World where
  core : Core.Storage
  puppeteer : Puppeteer.Storage
  bank : Bank
  vouchers : List Voucher
  inFlight : List Packet
  nextSeq : ℕ
  height : ℕ
  time : Timestamp
  entered : Option Packet
  channelOpen : Bool

/-- What the strategy, the validator set, the IBC module and the chain answer during one call.
The fee denomination is native, so it has no trace. -/
structure Answers where
  validators : Except String (List ValidatorInfo)
  validator : String → Except String (Option ValidatorInfo)
  calcDeposit : ℕ → Except String (List IdealDelegation)
  calcWithdraw : ℕ → Except String (List IdealDelegation)
  denomTrace : String → Except String Core.DenomTrace
  addrValidate : String → Bool
  local_not_traced : ∀ trace, denomTrace Puppeteer.LOCAL_DENOM ≠ .ok trace

/-- A configuration of core for this deployment. -/
structure Wired (d : Deployment) (config : Core.Config) : Prop where
  puppeteer : config.puppeteerContract = d.puppeteer
  token : config.tokenContract = d.token
  voucher : config.withdrawalVoucherContract = d.voucher
  baseDenom : config.baseDenom = d.baseDenom
  ldDenom : config.ldDenom = none ∨ config.ldDenom = some d.tokenDenom

instance (d : Deployment) (config : Core.Config) : Decidable (Wired d config) :=
  decidable_of_iff (config.puppeteerContract = d.puppeteer ∧ config.tokenContract = d.token ∧
      config.withdrawalVoucherContract = d.voucher ∧ config.baseDenom = d.baseDenom ∧
      (config.ldDenom = none ∨ config.ldDenom = some d.tokenDenom))
    ⟨fun ⟨h₁, h₂, h₃, h₄, h₅⟩ => ⟨h₁, h₂, h₃, h₄, h₅⟩,
      fun ⟨h₁, h₂, h₃, h₄, h₅⟩ => ⟨h₁, h₂, h₃, h₄, h₅⟩⟩

namespace World

variable (d : Deployment) (w : World)

/-- The environment of a call of core. -/
def env : Env := ⟨w.height, w.time, d.core⟩

/-- The environment of a call of the puppeteer. -/
def puppeteerEnv : Env := ⟨w.height, w.time, d.puppeteer⟩

/-- What core learns from its queries. -/
def querier (a : Answers) : Core.Querier where
  supply := w.bank.supply
  balance := w.bank.balance d.core
  delegations := .ok (Puppeteer.queryDelegations w.puppeteer)
  balances := .ok (Puppeteer.queryBalances w.puppeteer)
  nonNativeRewardsBalances := Puppeteer.queryNonNativeRewardsBalances w.puppeteer
  validators := a.validators
  validator := a.validator
  calcDeposit := a.calcDeposit
  calcWithdraw := a.calcWithdraw
  denomTrace := a.denomTrace
  addrValidate := a.addrValidate

/-! ## The messages of core -/

/-- The reply of the chain to an accepted packet, within the call that submitted it. -/
def reply (msg : Puppeteer.NeutronMsg) : Option World := do
  let transaction ← w.puppeteer.currentTxState.transaction
  let puppeteer ← (Puppeteer.submitTxReply w.puppeteer w.nextSeq).toOption
  some { w with
    puppeteer := puppeteer
    inFlight := w.inFlight ++ [⟨w.nextSeq, msg, transaction⟩]
    nextSeq := w.nextSeq + 1 }

/-- A message of the puppeteer to the chain. A transfer takes its token from the puppeteer, and an
account is registered over a closed channel only. -/
def submit : Puppeteer.NeutronMsg → Option World
  | .submitTx connectionId icaId msgs timeout fee =>
    w.reply (.submitTx connectionId icaId msgs timeout fee)
  | .ibcTransfer port channel token sender receiver timeout fee => do
    let bank ← w.bank.debitCoin d.puppeteer token
    { w with bank := bank }.reply (.ibcTransfer port channel token sender receiver timeout fee)
  | .registerInterchainAccount _ _ _ => if w.channelOpen then none else some w

/-- What follows a call of the puppeteer. -/
def afterPuppeteer (puppeteer : Puppeteer.Storage) :
    Option Puppeteer.NeutronMsg → Option World
  | some msg => { w with puppeteer := puppeteer }.submit d msg
  | none => some { w with puppeteer := puppeteer }

/-- A call of the puppeteer with the coins it carries. -/
def callPuppeteer (addrValidate : String → Bool) (info : MessageInfo)
    (msg : PuppeteerExecuteMsg) : Option World := do
  let info := { info with funds := mergeCoins info.funds }
  let bank ← w.bank.send info.sender d.puppeteer info.funds
  let (puppeteer, out) ←
    (Puppeteer.execute w.puppeteer addrValidate info (w.puppeteerEnv d) msg).toOption
  { w with bank := bank }.afterPuppeteer d puppeteer out

/-- The token contract mints a positive amount. -/
def tokenMint (amount : ℕ) (receiver : String) : Option World :=
  if amount = 0 then none
  else some { w with bank := w.bank.mint receiver ⟨d.tokenDenom, amount⟩ }

/-- The token contract burns what core sends it. -/
def tokenBurn (funds : List Coin) : Option World := do
  let funds := mergeCoins funds
  let bank ← w.bank.send d.core d.token funds
  let amount ← (mustPay ⟨d.core, funds⟩ d.tokenDenom).toOption
  let bank ← bank.burn d.token ⟨d.tokenDenom, amount⟩
  some { w with bank := bank }

/-- The voucher contract mints a voucher under a new id. -/
def voucherMint (owner tokenId : String) (extension : Core.Metadata) : Option World :=
  if w.vouchers.any fun v => v.tokenId = tokenId then none
  else some { w with vouchers := w.vouchers ++ [⟨tokenId, owner, extension⟩] }

/-- One message of core. There is no contract at any other address. -/
def dispatch (addrValidate : String → Bool) : Core.CoreMsg → Option World
  | .puppeteer contractAddr msg funds =>
    if contractAddr = d.puppeteer then w.callPuppeteer d addrValidate ⟨d.core, funds⟩ msg
    else none
  | .tokenMint contractAddr amount receiver =>
    if contractAddr = d.token then w.tokenMint d amount receiver else none
  | .tokenBurn contractAddr funds =>
    if contractAddr = d.token then w.tokenBurn d funds else none
  | .voucherMint contractAddr owner tokenId extension =>
    if contractAddr = d.voucher then w.voucherMint owner tokenId extension else none

/-- The messages of core, one after the other. -/
def dispatchAll (addrValidate : String → Bool) (w : World) : List Core.CoreMsg → Option World
  | [] => some w
  | msg :: rest => do
    let w ← w.dispatch d addrValidate msg
    dispatchAll addrValidate w rest

/-! ## Calls and outcomes -/

/-- The packet that a call submitted, which had the number `seq` to give. -/
def submitted (seq : ℕ) : Option Packet := w.inFlight.find? fun p => seq ≤ p.seq

/-- The record of the packet of the present state, after a call that started in `before`. -/
def noteEntered (before : World) : World :=
  { w with entered :=
      if w.core.fsmState = before.core.fsmState then before.entered
      else w.submitted before.nextSeq }

/-- A call of core by `sender`, who attaches `funds`. Core and the puppeteer do not call core
themselves. An update of the configuration that takes core away from the deployment is no step of
the system. -/
def execute (a : Answers) (sender : String) (funds : List Coin) (msg : Core.ExecuteMsg) :
    Option World := do
  guard (sender ≠ d.core ∧ sender ≠ d.puppeteer)
  let bank ← w.bank.send sender d.core funds
  let paid := { w with bank := bank }
  let (core, msgs) ←
    (Core.execute w.core (paid.querier d a) (w.env d) ⟨sender, funds⟩ msg).toOption
  guard (Wired d core.config)
  let after ← { paid with core := core }.dispatchAll d a.addrValidate msgs
  some (after.noteEntered w)

/-- How a packet ends. -/
inductive Outcome where
  | response
  | error (details : String)
  | timeout
  deriving DecidableEq, Repr

/-- The outcome at the puppeteer. -/
def sudoOutcome (seq : ℕ) : Outcome → Puppeteer.Result (Puppeteer.Storage × Puppeteer.Report)
  | .response => Puppeteer.sudoResponse w.puppeteer seq
  | .error details => Puppeteer.sudoError w.puppeteer seq details
  | .timeout => Puppeteer.sudoTimeout w.puppeteer seq

/-- The outcome at the puppeteer, and its report at core. Both happen or none. -/
def report (seq : ℕ) (outcome : Outcome) : Option World := do
  let (puppeteer, report) ← (w.sudoOutcome seq outcome).toOption
  guard (report.receiver = d.core)
  let core ← (Core.executePuppeteerHook w.core (w.env d) ⟨d.puppeteer, []⟩ report.msg).toOption
  some { w with puppeteer := puppeteer, core := core }

/-- The bank after a packet ended: a transfer that did not arrive is refunded. -/
def refund (p : Packet) : Outcome → Bank
  | .response => w.bank
  | .error _ | .timeout =>
    match p.msg with
    | .ibcTransfer _ _ token _ _ _ _ => w.bank.creditCoin d.puppeteer token
    | _ => w.bank

/-- The channel of the interchain account after a packet ended: one that timed out over it closes
it. A transfer goes over another channel. -/
def channelAfter (p : Packet) : Outcome → Bool
  | .timeout =>
    match p.msg with
    | .submitTx _ _ _ _ _ => false
    | _ => w.channelOpen
  | .response | .error _ => w.channelOpen

/-- The world in which the packet has ended and the contracts do not know yet. -/
def settle (p : Packet) (outcome : Outcome) : World :=
  { w with
    bank := w.refund d p outcome
    inFlight := w.inFlight.filter fun p' => p'.seq ≠ p.seq
    channelOpen := w.channelAfter p outcome }

/-- The end of the packet `seq`. -/
def deliver (seq : ℕ) (outcome : Outcome) : Option World := do
  let p ← w.inFlight.find? fun p => p.seq = seq
  let settled := w.settle d p outcome
  some ((settled.report d seq outcome).getD settled)

/-- A call of the puppeteer by somebody else. -/
def executePuppeteer (addrValidate : String → Bool) (sender : String) (funds : List Coin)
    (msg : PuppeteerExecuteMsg) : Option World := do
  guard (sender ≠ d.core ∧ sender ≠ d.puppeteer)
  w.callPuppeteer d addrValidate ⟨sender, funds⟩ msg

/-- The channel of the interchain account opens. -/
def openAck (address : Option String) : Option World := do
  guard (w.puppeteer.ica = .inProgress ∧ w.channelOpen = false)
  let puppeteer ← (Puppeteer.sudoOpenAck w.puppeteer address).toOption
  some { w with puppeteer := puppeteer, channelOpen := true }

/-- A later block. Times are 64-bit numbers of nanoseconds. -/
def nextBlock (height : ℕ) (time : Timestamp) : Option World :=
  if w.height < height ∧ w.time.nanos < time.nanos ∧ time.nanos < U64.bound then
    some { w with height := height, time := time }
  else none

/-- A bank transfer between accounts that are not the two contracts, or from one to them. -/
def bankSend (sender receiver : String) (coins : List Coin) : Option World := do
  guard (sender ≠ d.core ∧ sender ≠ d.puppeteer)
  let bank ← w.bank.send sender receiver coins
  some { w with bank := bank }

end World

/-- The steps of the system. -/
inductive Action where
  | execute (answers : Answers) (sender : String) (funds : List Coin) (msg : Core.ExecuteMsg)
  | executePuppeteer (addrValidate : String → Bool) (sender : String) (funds : List Coin)
      (msg : PuppeteerExecuteMsg)
  | deliver (seq : ℕ) (outcome : World.Outcome)
  | delegationsAndBalance (data : Puppeteer.BalancesAndDelegations)
  | nonNativeRewardsBalances (coins : List Coin)
  | openAck (address : Option String)
  | bankSend (sender receiver : String) (coins : List Coin)
  | nextBlock (height : ℕ) (time : Timestamp)

/-- The world after a step, if the step can be taken. -/
def World.exec (d : Deployment) (w : World) : Action → Option World
  | .execute answers sender funds msg => w.execute d answers sender funds msg
  | .executePuppeteer addrValidate sender funds msg =>
    w.executePuppeteer d addrValidate sender funds msg
  | .deliver seq outcome => w.deliver d seq outcome
  | .delegationsAndBalance data =>
    some { w with
      puppeteer := Puppeteer.sudoDelegationsAndBalance w.puppeteer (w.puppeteerEnv d) data }
  | .nonNativeRewardsBalances coins =>
    some { w with
      puppeteer := Puppeteer.sudoNonNativeRewardsBalances w.puppeteer (w.puppeteerEnv d) coins }
  | .openAck address => w.openAck address
  | .bankSend sender receiver coins => w.bankSend d sender receiver coins
  | .nextBlock height time => w.nextBlock height time

/-- A step of the system. -/
def Step (d : Deployment) (w : World) (a : Action) (w' : World) : Prop := w.exec d a = some w'

/-- The system right after both contracts were instantiated. -/
structure Initial (d : Deployment) (w : World) : Prop where
  core : ∃ config owner, w.core = Core.instantiate config owner w.time.seconds
  wired : Wired d w.core.config
  puppeteer : ∃ config, w.puppeteer = Puppeteer.instantiate config
  allowedSenders : w.puppeteer.config.allowedSenders = [d.core]
  supply : w.bank.supply d.tokenDenom = 0
  vouchers : w.vouchers = []
  inFlight : w.inFlight = []
  channel : w.channelOpen = false
  time : w.time.nanos < U64.bound

/-- A state of some run of the system. -/
def Reachable (d : Deployment) (w : World) : Prop := ∃ w₀, Initial d w₀ ∧ Run (Step d) w₀ w

/-- A state of some run whose steps all satisfy `ok`. -/
def ReachableWhere (d : Deployment) (ok : World → Action → Prop) (w : World) : Prop :=
  ∃ w₀, Initial d w₀ ∧ RunWhere (Step d) ok w₀ w

/-! ## The rules of runs -/

section Runs

variable {d : Deployment} {ok : World → Action → Prop} {w w' : World} {P : World → Prop}

/-- The end of a run from a reachable state is reachable. -/
theorem Reachable.trans (h : Reachable d w) (hrun : RunWhere (Step d) ok w w') :
    Reachable d w' := by
  obtain ⟨w₀, hinit, hrun₀⟩ := h
  exact ⟨w₀, hinit, RunWhere.trans hrun₀ hrun.run⟩

/-- A step from a reachable state leads to a reachable state. -/
theorem Reachable.tail (h : Reachable d w) {a : Action} (hstep : Step d w a w') :
    Reachable d w' := by
  have hrun : Run (Step d) w w' := RunWhere.single trivial hstep
  exact h.trans hrun

/-- A state of a run under a condition is reachable. -/
theorem ReachableWhere.reachable (h : ReachableWhere d ok w) : Reachable d w := by
  obtain ⟨w₀, hinit, hrun⟩ := h
  exact ⟨w₀, hinit, hrun.run⟩

/-- **What every allowed step from a reachable state preserves**, every allowed run from a
reachable state preserves. -/
theorem Reachable.preserves (h : Reachable d w) (hrun : RunWhere (Step d) ok w w')
    (hstep : ∀ s a t, Reachable d s → ok s a → Step d s a t → P s → P t) (hw : P w) : P w' := by
  refine hrun.preserves_of (I := Reachable d) (P := P) ?_ ?_ h hw
  · intro s a t hst hs
    exact hs.tail hst
  · intro s a t hs ha hst
    exact hstep s a t hs ha hst

/-- **What holds initially and is preserved by every allowed step** holds of every state that
allowed steps reach. -/
theorem ReachableWhere.invariant (h : ReachableWhere d ok w)
    (hinitial : ∀ w₀, Initial d w₀ → P w₀)
    (hstep : ∀ s a t, Reachable d s → ok s a → Step d s a t → P s → P t) : P w := by
  obtain ⟨w₀, hinit, hrun⟩ := h
  have hreachable : Reachable d w₀ := ⟨w₀, hinit, RunWhere.refl w₀⟩
  exact hreachable.preserves hrun hstep (hinitial w₀ hinit)

/-- What holds initially and is preserved by every step holds of every reachable state. -/
theorem Reachable.invariant (h : Reachable d w) (hinitial : ∀ w₀, Initial d w₀ → P w₀)
    (hstep : ∀ s a t, Reachable d s → Step d s a t → P s → P t) : P w := by
  have hwhere : ReachableWhere d (fun _ _ => True) w := h
  exact hwhere.invariant hinitial fun s a t hs _ => hstep s a t hs

end Runs

end System

end DropContracts
