import DropContracts.System.StepCase

set_option relaxedAutoImplicit false
set_option autoImplicit false

/-!
# What core receives and spends

The balance of core along a step. Core receives what is attached to its calls and spends what its
messages carry; nothing else takes coins from it.

## Main definitions

* `Core.CoreMsg.funds` — the coins that a message carries.
* `System.Action.sender` — the account that takes a step.

## Main results

* `System.callPuppeteer_balance`, `System.dispatchAll_balance` — the balances along a call.
* `System.execute_balance` — what a call of core leaves it.
* `System.le_balance_of_environment`, `System.balance_deliver`, `System.le_balance_of_admin` — other
  steps take nothing from it.
* `System.le_balance_of_step` — a step takes nothing from anybody else.
* `System.execute_supply`, `System.supply_deliver` — which steps leave the supplies alone.
-/

namespace DropContracts

namespace Core

/-- The coins that a message of core carries. -/
def CoreMsg.funds : CoreMsg → List Coin
  | .puppeteer _ _ funds => funds
  | .tokenMint _ _ _ => []
  | .tokenBurn _ funds => funds
  | .voucherMint _ _ _ _ => []

end Core

namespace System

open Exec

/-- The amount of one denomination that messages of core carry. -/
def spentOn (msgs : List Core.CoreMsg) (denom : String) : ℕ :=
  (msgs.map fun msg => coinsOf msg.funds denom).sum

section Calls

variable {d : Deployment} {w w' : World} {addrValidate : String → Bool} {info : MessageInfo}

/-- The reply to a packet touches no balance. -/
theorem reply_bank {m : Puppeteer.NeutronMsg} (h : w.reply m = some w') : w'.bank = w.bank := by
  simp only [World.reply, Option.bind_eq_bind, Option.bind_eq_some_iff, Option.some.injEq] at h
  obtain ⟨transaction, -, puppeteer, -, rfl⟩ := h
  rfl

/-- A message to the chain takes coins from the puppeteer only. -/
theorem submit_balance {m : Puppeteer.NeutronMsg} (h : w.submit d m = some w') {a : String}
    (ha : a ≠ d.puppeteer) (denom : String) :
    w'.bank.balance a denom = w.bank.balance a denom := by
  cases m with
  | submitTx connectionId icaId msgs timeout fee => rw [reply_bank h]
  | ibcTransfer port channel token sender receiver timeout fee =>
    simp only [World.submit, Option.bind_eq_bind, Option.bind_eq_some_iff] at h
    obtain ⟨bank, hbank, h⟩ := h
    obtain ⟨-, -, hbalance⟩ := Bank.debitCoin_ok hbank
    rw [reply_bank h, hbalance, if_neg fun hboth => ha hboth.1]
  | registerInterchainAccount connectionId icaId fee =>
    rw [submit_register h]

/-- A call of the puppeteer moves the attached coins to it, and takes nothing else from anybody
but the puppeteer. -/
theorem callPuppeteer_balance {msg : PuppeteerExecuteMsg}
    (h : w.callPuppeteer d addrValidate info msg = some w') :
    ∃ bank, w.bank.send info.sender d.puppeteer (mergeCoins info.funds) = some bank ∧
      ∀ a, a ≠ d.puppeteer → ∀ denom, w'.bank.balance a denom = bank.balance a denom := by
  simp only [World.callPuppeteer, Option.bind_eq_bind, Option.bind_eq_some_iff,
    toOption_eq_some] at h
  obtain ⟨bank, hbank, ⟨puppeteer, out⟩, hexec, h⟩ := h
  refine ⟨bank, hbank, fun a ha denom => ?_⟩
  cases out with
  | none =>
    rw [← Option.some.inj h]
  | some m => rw [submit_balance h ha denom]

/-- What a call of the puppeteer carries is there. -/
theorem callPuppeteer_affords {msg : PuppeteerExecuteMsg}
    (h : w.callPuppeteer d addrValidate info msg = some w') (hsender : info.sender ≠ d.puppeteer)
    (denom : String) : coinsOf info.funds denom ≤ w.bank.balance info.sender denom := by
  obtain ⟨bank, hbank, -⟩ := callPuppeteer_balance h
  obtain ⟨hpaid, -⟩ := Bank.balance_send hbank hsender denom
  rw [coinsOf_mergeCoins] at hpaid
  omega

/-- A message takes from core what it carries. -/
theorem dispatch_balance {msg : Core.CoreMsg} (h : w.dispatch d addrValidate msg = some w')
    (denom : String) :
    w.bank.balance d.core denom ≤ w'.bank.balance d.core denom + coinsOf msg.funds denom := by
  cases msg with
  | puppeteer contractAddr msg funds =>
    simp only [World.dispatch] at h
    split_ifs at h
    obtain ⟨bank, hbank, hbalance⟩ := callPuppeteer_balance h
    obtain ⟨hsender, -⟩ := Bank.balance_send hbank d.core_ne_puppeteer denom
    rw [hbalance _ d.core_ne_puppeteer, Core.CoreMsg.funds, ← hsender, coinsOf_mergeCoins]
  | tokenMint contractAddr amount receiver =>
    simp only [World.dispatch] at h
    split_ifs at h
    obtain ⟨-, rfl⟩ := tokenMint_ok h
    simp only [Bank.mint, Bank.creditCoin]
    split_ifs <;> omega
  | tokenBurn contractAddr funds =>
    simp only [World.dispatch, World.tokenBurn] at h
    split_ifs at h
    simp only [Option.bind_eq_bind, Option.bind_eq_some_iff, Option.some.injEq] at h
    obtain ⟨bank, hsend, amount, -, bank', hburn, rfl⟩ := h
    obtain ⟨-, -, hburnt⟩ := Bank.burn_ok hburn
    obtain ⟨hsender, -⟩ := Bank.balance_send hsend d.core_ne_token denom
    rw [coinsOf_mergeCoins] at hsender
    simp only [hburnt, d.core_ne_token, false_and, ↓reduceIte, Core.CoreMsg.funds]
    omega
  | voucherMint contractAddr owner tokenId extension =>
    simp only [World.dispatch] at h
    split_ifs at h
    rw [voucherMint_ok h]
    exact Nat.le_add_right _ _

/-- **Messages take from core what they carry.** The induction is on the list of messages. -/
theorem dispatchAll_balance {msgs : List Core.CoreMsg}
    (h : w.dispatchAll d addrValidate msgs = some w') (denom : String) :
    w.bank.balance d.core denom ≤ w'.bank.balance d.core denom + spentOn msgs denom := by
  induction msgs generalizing w with
  | nil =>
    rw [← Option.some.inj h]
    exact Nat.le_add_right _ _
  | cons msg rest ih =>
    simp only [World.dispatchAll, Option.bind_eq_bind, Option.bind_eq_some_iff] at h
    obtain ⟨w₁, hfirst, hrest⟩ := h
    have hone := dispatch_balance hfirst denom
    have hothers := ih hrest
    have hsum : spentOn (msg :: rest) denom = coinsOf msg.funds denom + spentOn rest denom := rfl
    omega

end Calls

/-! ## Steps -/

section Steps

variable {d : Deployment} {w w' : World}

/-- **What a call of core leaves it**: what it had and received, less what its messages carry. -/
theorem execute_balance {answers : Answers} {sender : String} {funds : List Coin}
    {msg : Core.ExecuteMsg} {bank : Bank} {core : Core.Storage} {msgs : List Core.CoreMsg}
    (hstep : Step d w (.execute answers sender funds msg) w')
    (hbank : w.bank.send sender d.core funds = some bank)
    (hexec : Core.execute w.core (({ w with bank := bank } : World).querier d answers) (w.env d)
      ⟨sender, funds⟩ msg = .ok (core, msgs)) (denom : String) :
    w.bank.balance d.core denom + coinsOf funds denom ≤
      w'.bank.balance d.core denom + spentOn msgs denom := by
  obtain ⟨hsender, -, bank', core', msgs', after, hbank', hexec', -, hafter, rfl⟩ :=
    execute_ok hstep
  rw [hbank, Option.some.injEq] at hbank'
  subst hbank'
  rw [hexec, Except.ok.injEq, Prod.mk.injEq] at hexec'
  obtain ⟨rfl, rfl⟩ := hexec'
  obtain ⟨-, hreceived⟩ := Bank.balance_send hbank hsender denom
  rw [← hreceived]
  exact dispatchAll_balance hafter denom

/-- The message of a tick carries no more than core had and received. -/
theorem tick_affords {answers : Answers} {sender : String} {funds : List Coin} {bank : Bank}
    {core : Core.Storage} {contract : String} {msg : PuppeteerExecuteMsg} {msgFunds : List Coin}
    (hstep : Step d w (.execute answers sender funds .tick) w')
    (hbank : w.bank.send sender d.core funds = some bank)
    (hexec : Core.execute w.core (({ w with bank := bank } : World).querier d answers) (w.env d)
      ⟨sender, funds⟩ .tick = .ok (core, [.puppeteer contract msg msgFunds])) (denom : String) :
    coinsOf msgFunds denom ≤ w.bank.balance d.core denom + coinsOf funds denom := by
  obtain ⟨hsender, -, bank', core', msgs', after, hbank', hexec', -, hafter, -⟩ := execute_ok hstep
  obtain rfl := Option.some.inj (hbank.symm.trans hbank')
  obtain ⟨rfl, rfl⟩ := Prod.mk.inj (Except.ok.inj (hexec.symm.trans hexec'))
  simp only [World.dispatchAll, World.dispatch, Option.bind_eq_bind,
    Option.bind_eq_some_iff] at hafter
  obtain ⟨w₁, hcall, -⟩ := hafter
  split_ifs at hcall
  obtain ⟨-, hreceived⟩ := Bank.balance_send hbank hsender denom
  have haffords := callPuppeteer_affords hcall d.core_ne_puppeteer denom
  exact haffords.trans_eq hreceived

/-- **Steps around core** take nothing from it. -/
theorem le_balance_of_environment {a : Action} (henvironment : a.isEnvironment = true)
    (hstep : Step d w a w') (denom : String) :
    w.bank.balance d.core denom ≤ w'.bank.balance d.core denom := by
  unfold Step at hstep
  cases a with
  | execute answers sender funds msg => cases henvironment
  | deliver seq outcome => cases henvironment
  | executePuppeteer addrValidate sender funds msg =>
    simp only [World.exec, World.executePuppeteer, Option.bind_eq_bind, Option.bind_eq_some_iff,
      Option.guard_eq_some'] at hstep
    obtain ⟨-, ⟨hsender, -⟩, hcall⟩ := hstep
    obtain ⟨bank, hbank, hbalance⟩ := callPuppeteer_balance hcall
    rw [hbalance _ d.core_ne_puppeteer]
    exact Bank.le_balance_send hbank hsender.symm denom
  | delegationsAndBalance data => rw [← Option.some.inj hstep]
  | nonNativeRewardsBalances coins => rw [← Option.some.inj hstep]
  | openAck address =>
    simp only [World.exec, World.openAck, Option.bind_eq_bind, Option.bind_eq_some_iff,
      Option.guard_eq_some', Option.some.injEq] at hstep
    obtain ⟨-, -, puppeteer, -, rfl⟩ := hstep
    exact le_rfl
  | bankSend sender receiver coins =>
    simp only [World.exec, World.bankSend, Option.bind_eq_bind, Option.bind_eq_some_iff,
      Option.guard_eq_some', Option.some.injEq] at hstep
    obtain ⟨-, ⟨hsender, -⟩, bank, hbank, rfl⟩ := hstep
    exact Bank.le_balance_send hbank hsender.symm denom
  | nextBlock height time =>
    simp only [World.exec, World.nextBlock] at hstep
    split_ifs at hstep
    rw [← Option.some.inj hstep]

/-- The bank after the end of a packet is the bank after its refund. -/
theorem bank_deliver {seq : ℕ} {outcome : World.Outcome}
    (hstep : Step d w (.deliver seq outcome) w') : ∃ p, w'.bank = (w.settle d p outcome).bank := by
  simp only [Step, World.exec, World.deliver, Option.bind_eq_bind, Option.bind_eq_some_iff,
    Option.some.injEq] at hstep
  obtain ⟨p, -, rfl⟩ := hstep
  refine ⟨p, ?_⟩
  cases hreport : (w.settle d p outcome).report d seq outcome with
  | none => rfl
  | some w₁ =>
    simp only [World.report, Option.bind_eq_bind, Option.bind_eq_some_iff,
      Option.some.injEq] at hreport
    obtain ⟨_, -, -, -, core, -, rfl⟩ := hreport
    rfl

/-- **The end of a packet** leaves the balances of everybody but the puppeteer alone. -/
theorem balance_deliver {seq : ℕ} {outcome : World.Outcome}
    (hstep : Step d w (.deliver seq outcome) w') {a : String} (ha : a ≠ d.puppeteer)
    (denom : String) : w'.bank.balance a denom = w.bank.balance a denom := by
  obtain ⟨p, hbank⟩ := bank_deliver hstep
  rw [hbank]
  unfold World.settle World.refund
  split
  · rfl
  all_goals
    split
    · simp only [Bank.creditCoin, ha, false_and, ↓reduceIte]
    · rfl

/-- A call of the owner sends no message. -/
theorem execute_admin_msgs {s s' : Core.Storage} {q : Core.Querier} {env : Env}
    {info : MessageInfo} {msg : Core.ExecuteMsg} {msgs : List Core.CoreMsg}
    (hmsg : msg.isAdmin = true) (h : Core.execute s q env info msg = .ok (s', msgs)) :
    msgs = [] := by
  have hsilent : ∀ {update : Core.Result Core.Storage},
      Core.silently update = .ok (s', msgs) → msgs = [] := by
    intro update hupdate
    simp only [Core.silently, bind_eq_ok, pure_eq_ok, Except.ok.injEq, Prod.mk.injEq] at hupdate
    obtain ⟨_, -, -, rfl⟩ := hupdate
    rfl
  cases msg with
  | bond receiver => cases hmsg
  | unbond => cases hmsg
  | tick => cases hmsg
  | _ => exact hsilent h

/-- A call of the owner takes nothing from core. -/
theorem le_balance_of_admin {answers : Answers} {sender : String} {funds : List Coin}
    {msg : Core.ExecuteMsg} (hmsg : msg.isAdmin = true)
    (hstep : Step d w (.execute answers sender funds msg) w') (denom : String) :
    w.bank.balance d.core denom ≤ w'.bank.balance d.core denom := by
  obtain ⟨-, -, bank, core, msgs, after, hbank, hexec, -⟩ := execute_ok hstep
  have hleft := execute_balance hstep hbank hexec denom
  rw [execute_admin_msgs hmsg hexec] at hleft
  exact (Nat.le_add_right _ _).trans hleft

/-! ### Everybody else -/

/-- The account that takes a step, if it is an account. -/
def Action.sender : Action → Option String
  | .execute _ sender _ _ => some sender
  | .executePuppeteer _ sender _ _ => some sender
  | .bankSend sender _ _ => some sender
  | _ => none

section Others

variable {a denom : String} (hcore : a ≠ d.core) (hpuppeteer : a ≠ d.puppeteer)
  (hdenom : denom ≠ d.tokenDenom)

include hcore hpuppeteer hdenom

/-- A message of core takes nothing from anybody else. -/
theorem le_balance_dispatch {addrValidate : String → Bool} {msg : Core.CoreMsg}
    (h : w.dispatch d addrValidate msg = some w') :
    w.bank.balance a denom ≤ w'.bank.balance a denom := by
  cases msg with
  | puppeteer contractAddr msg funds =>
    simp only [World.dispatch] at h
    split_ifs at h
    obtain ⟨bank, hbank, hbalance⟩ := callPuppeteer_balance h
    rw [hbalance _ hpuppeteer]
    exact Bank.le_balance_send hbank hcore denom
  | tokenMint contractAddr amount receiver =>
    simp only [World.dispatch] at h
    split_ifs at h
    obtain ⟨-, rfl⟩ := tokenMint_ok h
    simp only [Bank.mint, Bank.creditCoin]
    split_ifs <;> omega
  | tokenBurn contractAddr funds =>
    simp only [World.dispatch, World.tokenBurn] at h
    split_ifs at h
    simp only [Option.bind_eq_bind, Option.bind_eq_some_iff, Option.some.injEq] at h
    obtain ⟨bank, hsend, amount, -, bank', hburn, rfl⟩ := h
    obtain ⟨-, -, hburnt⟩ := Bank.burn_ok hburn
    simp only [hburnt, hdenom, and_false, ↓reduceIte]
    exact Bank.le_balance_send hsend hcore denom
  | voucherMint contractAddr owner tokenId extension =>
    simp only [World.dispatch] at h
    split_ifs at h
    rw [voucherMint_ok h]

/-- The messages of core take nothing from anybody else. -/
theorem le_balance_dispatchAll {addrValidate : String → Bool} {msgs : List Core.CoreMsg}
    (h : w.dispatchAll d addrValidate msgs = some w') :
    w.bank.balance a denom ≤ w'.bank.balance a denom := by
  induction msgs generalizing w with
  | nil => rw [← Option.some.inj h]
  | cons msg rest ih =>
    simp only [World.dispatchAll, Option.bind_eq_bind, Option.bind_eq_some_iff] at h
    obtain ⟨w₁, hfirst, hrest⟩ := h
    exact (le_balance_dispatch hcore hpuppeteer hdenom hfirst).trans (ih hrest)

/-- **A step takes from nobody** but core, the puppeteer and the account that takes it. -/
theorem le_balance_of_step {action : Action} (hsender : action.sender ≠ some a)
    (hstep : Step d w action w') : w.bank.balance a denom ≤ w'.bank.balance a denom := by
  cases action with
  | execute answers sender funds msg =>
    have hne : a ≠ sender := fun heq => hsender (congrArg some heq.symm)
    obtain ⟨-, -, bank, core, msgs, after, hbank, -, -, hafter, rfl⟩ := execute_ok hstep
    calc w.bank.balance a denom ≤ bank.balance a denom := Bank.le_balance_send hbank hne denom
      _ ≤ after.bank.balance a denom := le_balance_dispatchAll hcore hpuppeteer hdenom hafter
  | executePuppeteer addrValidate sender funds msg =>
    have hne : a ≠ sender := fun heq => hsender (congrArg some heq.symm)
    simp only [Step, World.exec, World.executePuppeteer, Option.bind_eq_bind,
      Option.bind_eq_some_iff, Option.guard_eq_some'] at hstep
    obtain ⟨-, -, hcall⟩ := hstep
    obtain ⟨bank, hbank, hbalance⟩ := callPuppeteer_balance hcall
    rw [hbalance _ hpuppeteer]
    exact Bank.le_balance_send hbank hne denom
  | deliver seq outcome => rw [balance_deliver hstep hpuppeteer]
  | delegationsAndBalance data => rw [← Option.some.inj hstep]
  | nonNativeRewardsBalances coins => rw [← Option.some.inj hstep]
  | openAck address =>
    simp only [Step, World.exec, World.openAck, Option.bind_eq_bind, Option.bind_eq_some_iff,
      Option.guard_eq_some', Option.some.injEq] at hstep
    obtain ⟨-, -, puppeteer, -, rfl⟩ := hstep
    exact le_rfl
  | bankSend sender receiver coins =>
    have hne : a ≠ sender := fun heq => hsender (congrArg some heq.symm)
    simp only [Step, World.exec, World.bankSend, Option.bind_eq_bind, Option.bind_eq_some_iff,
      Option.guard_eq_some', Option.some.injEq] at hstep
    obtain ⟨-, -, bank, hbank, rfl⟩ := hstep
    exact Bank.le_balance_send hbank hne denom
  | nextBlock height time =>
    simp only [Step, World.exec, World.nextBlock] at hstep
    split_ifs at hstep
    rw [← Option.some.inj hstep]

end Others

/-- A call of the owner and a tick leave all supplies alone: they send nothing, or one message to
the puppeteer. -/
theorem execute_supply {answers : Answers} {sender : String} {funds : List Coin}
    {msg : Core.ExecuteMsg} (hmsg : msg.isAdmin = true ∨ msg = .tick)
    (hstep : Step d w (.execute answers sender funds msg) w') :
    w'.bank.supply = w.bank.supply := by
  obtain ⟨-, -, bank, core, msgs, after, hbank, hexec, -, hafter, rfl⟩ := execute_ok hstep
  have hsent := (Bank.send_ok hbank).1
  have hmsgs : msgs = [] ∨ ∃ contract msg funds, msgs = [.puppeteer contract msg funds] := by
    rcases hmsg with hadmin | rfl
    · exact .inl (execute_admin_msgs hadmin hexec)
    · refine (tick_messages (Core.executeTick_ok hexec).2).imp_right ?_
      rintro ⟨msg, funds, rfl⟩
      exact ⟨_, msg, funds, rfl⟩
  rcases hmsgs with rfl | ⟨contract, msg, msgFunds, rfl⟩
  · rw [← Option.some.inj hafter]
    exact hsent
  · simp only [World.dispatchAll, World.dispatch, Option.bind_eq_bind, Option.bind_eq_some_iff,
      Option.some.injEq] at hafter
    obtain ⟨w₁, hcall, rfl⟩ := hafter
    split_ifs at hcall
    exact (callPuppeteer_ok hcall).1.supply.trans hsent

/-- The end of a packet leaves all supplies alone. -/
theorem supply_deliver {seq : ℕ} {outcome : World.Outcome}
    (hstep : Step d w (.deliver seq outcome) w') : w'.bank.supply = w.bank.supply := by
  obtain ⟨p, hbank⟩ := bank_deliver hstep
  rw [hbank]
  unfold World.settle World.refund
  split
  · rfl
  all_goals
    split <;> rfl

end Steps

end System

end DropContracts
