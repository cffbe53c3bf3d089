import DropContracts.AstroportExchangeHandler.Contract
import DropContracts.Base.Run
import DropContracts.RewardsManager.Contract
import DropContracts.System.Bank
import Mathlib.Data.Option.Basic

set_option relaxedAutoImplicit false
set_option autoImplicit false

/-!
# The way of the rewards

The rewards manager hands rewards over to the handlers that are registered for them, and a handler
offers what it has in a swap for core. Here the manager and its handlers run together with the bank.
The contracts that swap are outside, like everybody else who holds coins.

## Main definitions

* `System.Exchanges`, `System.ExchangeAction`, `System.ExchangeStep` — the system.
* `System.ExchangeAction.Outside` — the steps that no owner takes.
* `System.RewardsAccounted` — where the rewards have gone since the start of a run.

## Main results

* `System.RewardsAccounted.handOver`, `System.RewardsAccounted.step` — one message of the manager,
  one step.
* `System.rewards_accounted` — along every run rewards leave the manager for registered handlers
  only, and a handler in swaps for core only.
-/

namespace DropContracts

namespace System

open Exec AstroportExchangeHandler

/-! ## The system -/

/-- The manager and its handlers by their addresses, what the manager has handed over, and the swaps
that the handlers have asked for. -/
structure Exchanges (ω : Type) where
  bank : Bank
  manager : RewardsManager.Storage
  handlers : StorageMap String (AstroportExchangeHandler.Storage ω)
  handed : List RewardsManager.ExchangeMsg
  swaps : List (String × SwapMsg ω)

/-- The steps: messages to the manager, for which the bank answers its `balances`, messages to a
handler, and transfers. -/
inductive ExchangeAction (ω : Type) where
  | manager (addrValidate : String → Bool) (balances : List Coin) (info : MessageInfo)
      (msg : RewardsManager.ExecuteMsg)
  | handler (contract : String) (addrValidate : String → Bool) (info : MessageInfo)
      (msg : AstroportExchangeHandler.ExecuteMsg ω)
  | bankSend (sender receiver : String) (coins : List Coin)

/-- The account that takes a step. -/
def ExchangeAction.sender {ω : Type} : ExchangeAction ω → String
  | .manager _ _ info _ => info.sender
  | .handler _ _ info _ => info.sender
  | .bankSend sender _ _ => sender

namespace Exchanges

variable {ω : Type} (address : String) (x : Exchanges ω)

/-- The manager, which is at `address`, or one of the handlers. -/
def IsContract (contract : String) : Prop :=
  contract = address ∨ (x.handlers.load contract).isSome

instance (contract : String) : Decidable (x.IsContract address contract) :=
  inferInstanceAs (Decidable (_ ∨ _))

/-- The swap that a handler asks for, of a contract that can swap. -/
def offer (contract : String) : Option (SwapMsg ω) → Option (Exchanges ω)
  | none => some x
  | some swap => do
    guard (¬ x.IsContract address swap.contractAddr)
    let bank ← x.bank.send contract swap.contractAddr swap.funds
    some { x with bank := bank, swaps := x.swaps ++ [(contract, swap)] }

/-- What a handler does with a message, once the coins that go along have arrived. -/
def runHandler (contract : String) (addrValidate : String → Bool) (info : MessageInfo)
    (msg : AstroportExchangeHandler.ExecuteMsg ω) : Option (Exchanges ω) := do
  let handler ← x.handlers.load contract
  let (handler, swap) ← (AstroportExchangeHandler.execute handler addrValidate info
    (x.bank.balance contract handler.config.fromDenom) msg).toOption
  { x with handlers := x.handlers.save contract handler }.offer address contract swap

/-- A message to a handler. -/
def callHandler (contract : String) (addrValidate : String → Bool) (info : MessageInfo)
    (msg : AstroportExchangeHandler.ExecuteMsg ω) : Option (Exchanges ω) := do
  let bank ← x.bank.send info.sender contract info.funds
  { x with bank := bank }.runHandler address contract addrValidate info msg

/-- A message of the manager. The manager itself is no handler; of a contract outside it is not known
what it does with the rewards. -/
def handOver (x : Exchanges ω) (msg : RewardsManager.ExchangeMsg) : Option (Exchanges ω) := do
  guard (msg.contractAddr ≠ address)
  let bank ← x.bank.send address msg.contractAddr msg.funds
  let x := { x with bank := bank, handed := x.handed ++ [msg] }
  if (x.handlers.load msg.contractAddr).isSome then
    x.runHandler address msg.contractAddr (fun _ => true) ⟨address, msg.funds⟩ .exchange
  else some x

/-- A message to the manager. The bank lists every denomination once, with what the manager has. -/
def callManager (addrValidate : String → Bool) (balances : List Coin) (info : MessageInfo)
    (msg : RewardsManager.ExecuteMsg) : Option (Exchanges ω) := do
  let bank ← x.bank.send info.sender address info.funds
  guard ((balances.map Coin.denom).Nodup ∧
    ∀ coin ∈ balances, coin.amount = bank.balance address coin.denom)
  let (manager, msgs) ←
    (RewardsManager.execute x.manager addrValidate info balances msg).toOption
  msgs.foldlM (handOver address) { x with bank := bank, manager := manager }

/-- The state after a step. The contracts send nothing but what they send here. -/
def exec (action : ExchangeAction ω) : Option (Exchanges ω) :=
  if x.IsContract address action.sender then none
  else match action with
  | .manager addrValidate balances info msg => x.callManager address addrValidate balances info msg
  | .handler contract addrValidate info msg => x.callHandler address contract addrValidate info msg
  | .bankSend sender receiver coins => do
    let bank ← x.bank.send sender receiver coins
    some { x with bank := bank }

/-- What the manager has handed over, of one denomination. -/
def handedOver (denom : String) : ℕ := (x.handed.map fun msg => coinsOf msg.funds denom).sum

/-- What the manager has handed over to one contract. -/
def handedTo (contract denom : String) : ℕ :=
  ((x.handed.filter fun msg => msg.contractAddr = contract).map fun msg =>
    coinsOf msg.funds denom).sum

/-- What a handler has offered. -/
def offeredBy (contract denom : String) : ℕ :=
  ((x.swaps.filter fun p => p.1 = contract).map fun p => coinsOf p.2.funds denom).sum

variable {x} {x' : Exchanges ω}

/-- One more message of the manager. -/
theorem handedTo_of_append {msg : RewardsManager.ExchangeMsg} (h : x'.handed = x.handed ++ [msg])
    (contract denom : String) :
    x'.handedTo contract denom = x.handedTo contract denom +
      if msg.contractAddr = contract then coinsOf msg.funds denom else 0 := by
  rw [handedTo, h, List.filter_append, List.map_append, List.sum_append, handedTo]
  by_cases hcontract : msg.contractAddr = contract
  · simp [hcontract]
  · simp [hcontract]

/-- One more swap. -/
theorem offeredBy_of_append {p : String × SwapMsg ω} (h : x'.swaps = x.swaps ++ [p])
    (contract denom : String) :
    x'.offeredBy contract denom = x.offeredBy contract denom +
      if p.1 = contract then coinsOf p.2.funds denom else 0 := by
  rw [offeredBy, h, List.filter_append, List.map_append, List.sum_append, offeredBy]
  by_cases hcontract : p.1 = contract
  · simp [hcontract]
  · simp [hcontract]

end Exchanges

/-- A step of the system. -/
def ExchangeStep {ω : Type} (address : String) (x : Exchanges ω) (a : ExchangeAction ω)
    (x' : Exchanges ω) : Prop :=
  x.exec address a = some x'

/-- A step that the owner of the contract that is called does not take. -/
def ExchangeAction.Outside {ω : Type} (x : Exchanges ω) : ExchangeAction ω → Prop
  | .manager _ _ info _ => info.sender ≠ x.manager.ownership
  | .handler contract _ info _ =>
    ∀ handler ∈ x.handlers.load contract, info.sender ≠ handler.cwOwner
  | .bankSend _ _ _ => True

instance {ω : Type} (x : Exchanges ω) : (a : ExchangeAction ω) → Decidable (a.Outside x)
  | .manager _ _ _ _ => inferInstanceAs (Decidable (_ ≠ _))
  | .handler contract _ info _ => inferInstanceAs
      (Decidable (∀ handler ∈ x.handlers.load contract, info.sender ≠ handler.cwOwner))
  | .bankSend _ _ _ => inferInstanceAs (Decidable True)

/-! ## Where the rewards go -/

/-- Where the rewards have gone since the start `x₀` of a run: what the manager lacks has been handed
over to handlers that it has registered, from their least amounts on; and what a handler lacks of
its own coins and those handed to it has been offered, from its least amount on, in swaps that it
makes for core. -/
structure RewardsAccounted {ω : Type} (address : String) (x₀ x : Exchanges ω) : Prop where
  manager : x.manager = x₀.manager
  handlers : ∀ contract, x.handlers.load contract = x₀.handlers.load contract
  held : ∀ denom, x₀.bank.balance address denom ≤
    x.bank.balance address denom + x.handedOver denom
  handled : ∀ contract, (x₀.handlers.load contract).isSome → ∀ denom,
    x₀.bank.balance contract denom + x.handedTo contract denom ≤
      x.bank.balance contract denom + x.offeredBy contract denom
  handed : ∀ msg ∈ x.handed, ∃ denom handler amount,
    x₀.manager.rewardsHandlers.load denom = some handler ∧ handler.minRewards ≤ amount ∧
      msg = ⟨handler.address, [⟨denom, amount⟩]⟩
  swaps : ∀ p ∈ x.swaps, ∃ handler amount, x₀.handlers.load p.1 = some handler ∧
    handler.config.minRewards ≤ amount ∧
      p.2 = handler.swapMsg ⟨handler.config.fromDenom, amount⟩

namespace RewardsAccounted

variable {ω : Type} {address : String} {x₀ x x' : Exchanges ω} {bank : Bank}

/-- At the start nothing has been handed over. -/
theorem start (hhanded : x₀.handed = []) (hswaps : x₀.swaps = []) :
    RewardsAccounted address x₀ x₀ where
  manager := rfl
  handlers _ := rfl
  held _ := Nat.le_add_right _ _
  handled contract _ denom := by
    rw [Exchanges.handedTo, hhanded]
    exact Nat.le_add_right _ _
  handed := by simp [hhanded]
  swaps := by simp [hswaps]

/-- Coins that somebody else sends take nothing from the contracts. -/
theorem bankSend (h : RewardsAccounted address x₀ x) {sender receiver : String} {coins : List Coin}
    (hsender : ¬ x.IsContract address sender)
    (hsend : x.bank.send sender receiver coins = some bank) :
    RewardsAccounted address x₀ { x with bank := bank } where
  manager := h.manager
  handlers := h.handlers
  held denom := by
    have hne : address ≠ sender := fun heq => hsender (.inl heq.symm)
    exact (h.held denom).trans (Nat.add_le_add_right (Bank.le_balance_send hsend hne denom) _)
  handled contract hsome denom := by
    have hne : contract ≠ sender := by
      rintro rfl
      exact hsender (.inr (by rw [h.handlers]; exact hsome))
    exact (h.handled contract hsome denom).trans
      (Nat.add_le_add_right (Bank.le_balance_send hsend hne denom) _)
  handed := h.handed
  swaps := h.swaps

/-- Rewards that the manager sends to a registered handler are accounted for. -/
theorem send (h : RewardsAccounted address x₀ x) (hself : x₀.handlers.load address = none)
    {denom : String} {handler : RewardsManager.HandlerConfig} {amount : ℕ}
    (hload : x₀.manager.rewardsHandlers.load denom = some handler)
    (hmin : handler.minRewards ≤ amount) (hne : handler.address ≠ address)
    (hsend : x.bank.send address handler.address [⟨denom, amount⟩] = some bank) :
    RewardsAccounted address x₀
      { x with bank := bank, handed := x.handed ++ [⟨handler.address, [⟨denom, amount⟩]⟩] } where
  manager := h.manager
  handlers := h.handlers
  held d := by
    have hheld := h.held d
    have hmoved := (Bank.balance_send hsend hne.symm d).1
    simp only [Exchanges.handedOver, List.map_append, List.map_cons, List.map_nil,
      List.sum_append, List.sum_cons, List.sum_nil] at hheld ⊢
    omega
  handled contract hsome d := by
    have hhandled := h.handled contract hsome d
    have hother : contract ≠ address := by
      rintro rfl
      rw [hself] at hsome
      cases hsome
    rw [Exchanges.handedTo_of_append (x := x) rfl]
    split_ifs with hcontract
    · obtain rfl := hcontract
      have hmoved := (Bank.balance_send hsend hne.symm d).2
      simp only [Exchanges.offeredBy] at hhandled ⊢
      omega
    · have hkept := Bank.le_balance_send hsend hother d
      simp only [Exchanges.offeredBy] at hhandled ⊢
      omega
  handed msg hmem := by
    rcases List.mem_append.1 hmem with hmem | hmem
    · exact h.handed msg hmem
    · exact ⟨denom, handler, amount, hload, hmin, List.mem_singleton.1 hmem⟩
  swaps := h.swaps

/-- A swap that a handler asks for is accounted for. -/
theorem offer (h : RewardsAccounted address x₀ x) (hself : x₀.handlers.load address = none)
    {contract : String} {handler : AstroportExchangeHandler.Storage ω} {amount : ℕ}
    (hload : x₀.handlers.load contract = some handler)
    (hmin : handler.config.minRewards ≤ amount)
    (hoffer : x.offer address contract
      (some (handler.swapMsg ⟨handler.config.fromDenom, amount⟩)) = some x') :
    RewardsAccounted address x₀ x' := by
  simp only [Exchanges.offer, Option.bind_eq_bind, Option.bind_eq_some_iff,
    Option.some.injEq] at hoffer
  obtain ⟨-, -, bank, hsend, rfl⟩ := hoffer
  have hne : address ≠ contract := by
    rintro rfl
    rw [hself] at hload
    cases hload
  refine ⟨h.manager, h.handlers, fun d => ?_, fun other hsome d => ?_, h.handed, fun p hmem => ?_⟩
  · exact (h.held d).trans (Nat.add_le_add_right (Bank.le_balance_send hsend hne d) _)
  · have hhandled := h.handled other hsome d
    rw [Exchanges.offeredBy_of_append (x := x) rfl]
    split_ifs with hother
    · obtain rfl := hother
      have hpaid := Bank.le_balance_sender hsend d
      simp only [Exchanges.handedTo] at hhandled ⊢
      omega
    · have hkept := Bank.le_balance_send hsend (Ne.symm hother) d
      simp only [Exchanges.handedTo] at hhandled ⊢
      omega
  · rcases List.mem_append.1 hmem with hmem | hmem
    · exact h.swaps p hmem
    · rw [List.mem_singleton.1 hmem]
      exact ⟨handler, amount, hload, hmin, rfl⟩

/-- What a handler does with a message that does not come from its owner. -/
theorem runHandler (h : RewardsAccounted address x₀ x) (hself : x₀.handlers.load address = none)
    {contract : String} {addrValidate : String → Bool} {info : MessageInfo}
    {msg : AstroportExchangeHandler.ExecuteMsg ω}
    (howner : msg = .exchange ∨ ∀ handler, x.handlers.load contract = some handler →
      info.sender ≠ handler.cwOwner)
    (hrun : x.runHandler address contract addrValidate info msg = some x') :
    RewardsAccounted address x₀ x' := by
  simp only [Exchanges.runHandler, Option.bind_eq_bind, Option.bind_eq_some_iff,
    toOption_eq_some] at hrun
  obtain ⟨handler, hload, ⟨handler', swap⟩, hexec, hoffer⟩ := hrun
  rcases execute_ok hexec with ⟨-, hmin, rfl, rfl⟩ | ⟨hmsg, hsender, -⟩
  · have hload₀ := (h.handlers contract).symm.trans hload
    have hsaved : RewardsAccounted address x₀
        { x with handlers := x.handlers.save contract handler' } := by
      refine ⟨h.manager, fun other => ?_, h.held, h.handled, h.handed, h.swaps⟩
      rw [StorageMap.load_save]
      split_ifs with hother
      · rw [hother, hload₀]
      · exact h.handlers other
    exact hsaved.offer hself hload₀ hmin hoffer
  · rcases howner with rfl | howner
    · exact absurd rfl hmsg
    · exact absurd hsender (howner handler hload)

/-- **One message of the manager** to a handler that it has registered. -/
theorem handOver (h : RewardsAccounted address x₀ x) (hself : x₀.handlers.load address = none)
    {balances : List Coin} {msg : RewardsManager.ExchangeMsg}
    (hmem : msg ∈ RewardsManager.exchangeMsgs x₀.manager balances)
    (hover : x.handOver address msg = some x') : RewardsAccounted address x₀ x' := by
  obtain ⟨⟨denom, amount⟩, -, handler, hload, hmin, rfl⟩ := RewardsManager.mem_exchangeMsgs.1 hmem
  simp only [Exchanges.handOver, Option.bind_eq_bind, Option.bind_eq_some_iff,
    Option.guard_eq_some'] at hover
  obtain ⟨-, hne, bank, hsend, hover⟩ := hover
  have hsent := h.send hself hload hmin hne hsend
  split_ifs at hover with hknown
  · exact hsent.runHandler hself (.inl rfl) hover
  · rw [← Option.some.inj hover]
    exact hsent

/-- **One step** that no owner takes. -/
theorem step (h : RewardsAccounted address x₀ x) (hself : x₀.handlers.load address = none)
    {a : ExchangeAction ω} (houtside : a.Outside x) (hstep : ExchangeStep address x a x') :
    RewardsAccounted address x₀ x' := by
  simp only [ExchangeStep, Exchanges.exec] at hstep
  split_ifs at hstep with hsender
  cases a with
  | manager addrValidate balances info msg =>
    simp only [Exchanges.callManager, Option.bind_eq_bind, Option.bind_eq_some_iff,
      toOption_eq_some] at hstep
    obtain ⟨bank, hsend, -, -, ⟨manager, msgs⟩, hexec, hfold⟩ := hstep
    rcases RewardsManager.execute_ok hexec with ⟨-, -, rfl, rfl⟩ | ⟨howner, -⟩
    · have hmanager := h.manager
      refine foldlM_preserves_of (P := RewardsAccounted address x₀)
        (Q := fun msg => msg ∈ RewardsManager.exchangeMsgs x₀.manager balances)
        (fun t msg u hmem hover ht => ht.handOver hself hmem hover) ?_ hfold
        (h.bankSend hsender hsend)
      intro msg hmem
      rwa [← hmanager]
    · exact absurd howner houtside
  | handler contract addrValidate info msg =>
    simp only [Exchanges.callHandler, Option.bind_eq_bind, Option.bind_eq_some_iff] at hstep
    obtain ⟨bank, hsend, hrun⟩ := hstep
    exact (h.bankSend hsender hsend).runHandler hself (.inr houtside) hrun
  | bankSend sender receiver coins =>
    simp only [Option.bind_eq_bind, Option.bind_eq_some_iff, Option.some.injEq] at hstep
    obtain ⟨bank, hsend, rfl⟩ := hstep
    exact h.bankSend hsender hsend

end RewardsAccounted

/-! ## Along every run -/

/-- **The way of the rewards.** In every run without messages of the owners, whoever sends the others,
what the manager lacks of its rewards has been handed over to handlers that are registered for their
denomination, each time at least what the handler asks for; and what a handler lacks of what it had
and was handed has been offered in swaps, to its router or its pair contract, of coins of its own
denomination and at least its least amount, whose proceeds go to its core contract. -/
theorem rewards_accounted {ω : Type} {address : String} {x₀ x : Exchanges ω}
    (hself : x₀.handlers.load address = none) (hhanded : x₀.handed = []) (hswaps : x₀.swaps = [])
    (hrun : RunWhere (ExchangeStep address) ExchangeAction.Outside x₀ x) :
    RewardsAccounted address x₀ x ∧ ∀ p ∈ x.swaps, ∃ handler,
      x₀.handlers.load p.1 = some handler ∧
      p.2.recipient = some handler.config.coreContract ∧
      (p.2.contractAddr = handler.config.routerContract ∨
        p.2.contractAddr = handler.config.pairContract) ∧
      ∃ amount, handler.config.minRewards ≤ amount ∧
        p.2.funds = [⟨handler.config.fromDenom, amount⟩] := by
  have haccounted : RewardsAccounted address x₀ x :=
    hrun.preserves (P := RewardsAccounted address x₀)
      (fun s a t houtside hstep h => h.step hself houtside hstep) (.start hhanded hswaps)
  refine ⟨haccounted, fun p hmem => ?_⟩
  obtain ⟨handler, amount, hload, hmin, hswap⟩ := haccounted.swaps p hmem
  obtain ⟨hfunds, hrecipient, haddr⟩ :=
    swapMsg_eq (s := handler) ⟨handler.config.fromDenom, amount⟩
  rw [hswap]
  exact ⟨handler, hload, hrecipient, haddr, amount, hmin, hfunds⟩

namespace Sample

/-- A handler of "uusd", which swaps with a pair contract. -/
def usdHandler : AstroportExchangeHandler.Storage String :=
  ⟨⟨"dao", "core", "cron", "router", "pair", "uusd", 10⟩, "dao", none⟩

/-- A manager with rewards of two denominations, for one of which there is a handler. -/
def exchanges : Exchanges String where
  bank :=
    { balance := fun account denom =>
        if account = "manager" ∧ denom = "uusd" then 25
        else if account = "manager" ∧ denom = "uforeign" then 7
        else if account = "alice" ∧ denom = "uusd" then 15
        else 0
      supply := fun denom => if denom = "uusd" then 40 else if denom = "uforeign" then 7 else 0 }
  manager := ⟨"dao", StorageMap.empty.save "uusd" ⟨"handler", "uusd", 20⟩, false⟩
  handlers := StorageMap.empty.save "handler" usdHandler
  handed := []
  swaps := []

/-- The rewards are exchanged, and then what somebody else sends to the handler. -/
def exchangeRewards : List (ExchangeAction String) := [
  .manager (fun _ => true) [⟨"uusd", 25⟩, ⟨"uforeign", 7⟩] ⟨"bob", []⟩ .exchangeRewards,
  .bankSend "alice" "handler" [⟨"uusd", 15⟩],
  .handler "handler" (fun _ => true) ⟨"bob", []⟩ .exchange]

end Sample

open Sample

/-- A run in which 25 of the rewards, and 15 coins more, go through the handler to its pair contract,
for core. -/
theorem rewards_accounted_sample : ∃ x : Exchanges String,
    RewardsAccounted "manager" exchanges x ∧
      x.handed = [⟨"handler", [⟨"uusd", 25⟩]⟩] ∧ x.bank.balance "pair" "uusd" = 40 ∧
      x.swaps.map (fun p => p.2.recipient) = [some "core", some "core"] := by
  have hrun : (runList (Exchanges.exec "manager") (fun s a => decide (a.Outside s)) exchanges
      exchangeRewards).any (fun x => decide (x.handed = [⟨"handler", [⟨"uusd", 25⟩]⟩] ∧
        x.bank.balance "pair" "uusd" = 40 ∧
        x.swaps.map (fun p => p.2.recipient) = [some "core", some "core"])) = true := by
    decide
  obtain ⟨x, hx, hcheck⟩ := (Option.any_eq_true _ _).1 hrun
  obtain ⟨hhanded, hpaid, hrecipients⟩ := of_decide_eq_true hcheck
  have houtside : RunWhere (ExchangeStep "manager") ExchangeAction.Outside exchanges x :=
    runList_eq_some (fun _ _ _ hstep => hstep) (fun _ _ _ => of_decide_eq_true) hx
  obtain ⟨haccounted, -⟩ := rewards_accounted rfl rfl rfl houtside
  exact ⟨x, haccounted, hhanded, hpaid, hrecipients⟩

end System

end DropContracts
