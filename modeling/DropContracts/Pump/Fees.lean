import DropContracts.Pump.Contract
import DropContracts.System.Bank

set_option relaxedAutoImplicit false
set_option autoImplicit false

/-!
# The fees of the pump

The pump together with the bank. A submitted transaction escrows its fees from the pump, so a push
costs the fees of all its transactions, while `check_funds` asks the caller for the fees of one.

## Main definitions

* `Pump.Chain`, `Pump.Chain.exec` — the pump and the bank, and the calls.
* `Pump.escrowed` — what the messages of a call escrow.

## Main results

* `Pump.balance_deliver` — delivered messages take what they escrow from the pump.
* `Pump.push_keeps_balance_iff` — the pushes that do not spend what the pump has.
-/

namespace DropContracts

namespace Pump

open Exec

/-! ## The chain -/

/-- The addresses of the pump and of the module that keeps the fees. -/
structure Deployment where
  pump : String
  feeKeeper : String
  feeKeeper_ne_pump : feeKeeper ≠ pump

/-- The pump and the bank. -/
structure Chain where
  pump : Storage
  bank : Bank

/-- The coins of the fees of a transaction. -/
def IbcFee.coins (fee : IbcFee) : List Coin := fee.recvFee ++ fee.ackFee ++ fee.timeoutFee

/-- A message takes its coins from the pump: a payment, the fee of a registration, or the fees of a
transaction, which are escrowed. -/
def Msg.deliver (d : Deployment) (bank : Bank) : Msg → Option Bank
  | .bankSend toAddress amount => bank.send d.pump toAddress amount
  | .registerInterchainAccount _ _ registerFee => bank.send d.pump d.feeKeeper registerFee
  | .submitTx _ _ _ _ _ fee => bank.send d.pump d.feeKeeper fee.coins

/-- The messages of a call, one after the other. -/
def deliverAll (d : Deployment) (bank : Bank) (msgs : List Msg) : Option Bank :=
  msgs.foldlM (fun bank msg => msg.deliver d bank) bank

/-- A call of somebody else, who pays the attached coins; `balances` lists what the pump has. The
pump never calls itself. -/
def Chain.exec (d : Deployment) (w : Chain) (addrValidate : String → Bool) (height : ℕ)
    (time : Timestamp) (info : MessageInfo) (balances : List Coin) (msg : ExecuteMsg) :
    Option Chain :=
  if info.sender = d.pump then none
  else do
    let bank ← w.bank.send info.sender d.pump info.funds
    let (s, msgs) ←
      (execute w.pump addrValidate ⟨height, time, d.pump⟩ info balances msg).toOption
    let bank ← deliverAll d bank msgs
    some ⟨s, bank⟩

/-- The coins of one denomination that a message escrows as fees of a transaction. -/
def Msg.escrows (denom : String) : Msg → ℕ
  | .submitTx _ _ _ _ _ fee => coinsOf fee.coins denom
  | _ => 0

/-- The coins of one denomination that the messages of a call escrow. -/
def escrowed (denom : String) (msgs : List Msg) : ℕ := (msgs.map (Msg.escrows denom)).sum

/-- Whether a message submits a transaction. -/
def Msg.isTransaction : Msg → Bool
  | .submitTx .. => true
  | _ => false

/-! ## What a push escrows -/

section Escrow

variable {d : Deployment} {bank bank' : Bank}

/-- **Delivered transactions take what they escrow from the pump.** The induction is on the list of
messages. -/
theorem balance_deliver {msgs : List Msg} (htx : ∀ msg ∈ msgs, msg.isTransaction = true)
    (h : deliverAll d bank msgs = some bank') (denom : String) :
    bank'.balance d.pump denom + escrowed denom msgs = bank.balance d.pump denom := by
  induction msgs generalizing bank with
  | nil =>
    rw [← Option.some.inj h]
    rfl
  | cons msg msgs ih =>
    obtain ⟨bank₁, hdeliver, hrest⟩ := Option.bind_eq_some_iff.1 h
    have hrest := ih (fun msg hmsg => htx msg (List.mem_cons_of_mem _ hmsg)) hrest
    have hpays : bank₁.balance d.pump denom + msg.escrows denom = bank.balance d.pump denom := by
      cases msg with
      | submitTx connectionId interchainAccountId txs memo timeout fee =>
        exact (Bank.balance_send hdeliver d.feeKeeper_ne_pump.symm denom).1
      | bankSend => exact absurd (htx _ List.mem_cons_self) nofun
      | registerInterchainAccount => exact absurd (htx _ List.mem_cons_self) nofun
    have hescrows : escrowed denom (msg :: msgs) = msg.escrows denom + escrowed denom msgs := by
      simp [escrowed]
    omega

/-- The fees of a transaction are what it costs. -/
theorem coinsOf_fee (config : Config) :
    coinsOf config.fee.coins config.localDenom = config.ibcFees.perTransaction := by
  simp [Config.fee, IbcFee.coins, uintIntoVecCoin, coinsOf, IBCFees.perTransaction, Nat.add_assoc]

/-- **A push escrows the fees of one transaction for each coin.** -/
theorem escrowed_push (config : Config) (coins : List Coin) (transfer : Coin → MsgTransfer)
    (timeout : Option ℕ) : escrowed config.localDenom
      (coins.map fun coin => composeMsg config (transfer coin) config.fee timeout) =
        coins.length * config.ibcFees.perTransaction := by
  induction coins with
  | nil => simp [escrowed]
  | cons coin coins ih =>
    have hfirst : Msg.escrows config.localDenom
        (composeMsg config (transfer coin) config.fee timeout) =
          config.ibcFees.perTransaction := coinsOf_fee config
    simp only [escrowed, List.map_cons, List.sum_cons, List.length_cons] at ih ⊢
    rw [hfirst, ih, Nat.succ_mul, Nat.add_comm]

end Escrow

/-! ## Pushes -/

section Push

variable {d : Deployment} {w w' : Chain} {addrValidate : String → Bool} {height : ℕ}
  {time : Timestamp} {info : MessageInfo} {balances : List Coin} {msg : ExecuteMsg}

/-- A call that goes through is paid by the caller, accepted by the pump, and its messages are
delivered. -/
theorem exec_eq_some
    (h : w.exec d addrValidate height time info balances msg = some w') :
    info.sender ≠ d.pump ∧ ∃ bank msgs,
      w.bank.send info.sender d.pump info.funds = some bank ∧
      execute w.pump addrValidate ⟨height, time, d.pump⟩ info balances msg = .ok (w'.pump, msgs) ∧
      deliverAll d bank msgs = some w'.bank := by
  unfold Chain.exec at h
  split_ifs at h with hsender
  simp only [Option.bind_eq_bind, Option.bind_eq_some_iff, toOption_eq_some,
    Option.some.injEq] at h
  obtain ⟨bank, hpaid, ⟨s, msgs⟩, hexecute, bank', hdeliver, rfl⟩ := h
  exact ⟨hsender, bank, msgs, hpaid, hexecute, hdeliver⟩

/-- **The pushes that do not spend what the pump has**: the fees that a push escrows are at most
what the caller has attached, and the balance of the pump is not lower than before, exactly when
the attached coins pay the fees of a transaction for each pushed coin. -/
theorem push_keeps_balance_iff {coins : List Coin}
    (h : w.exec d addrValidate height time info balances (.push coins) = some w') :
    ∃ msgs, execute w.pump addrValidate ⟨height, time, d.pump⟩ info balances (.push coins) =
        .ok (w'.pump, msgs) ∧
      (escrowed w.pump.config.localDenom msgs ≤ coinsOf info.funds w.pump.config.localDenom ∧
        w.bank.balance d.pump w.pump.config.localDenom ≤
          w'.bank.balance d.pump w.pump.config.localDenom ↔
        coins.length * w.pump.config.ibcFees.perTransaction ≤
          coinsOf info.funds w.pump.config.localDenom) := by
  obtain ⟨hsender, bank, msgs, hpaid, hexecute, hdeliver⟩ := exec_eq_some h
  refine ⟨msgs, hexecute, ?_⟩
  obtain ⟨paid, ica, port, channel, address, -, hfunds, -, -, -, -, -, -, -, -, hmsgs⟩ :=
    executePush_eq_ok.1 hexecute
  have htx : ∀ msg ∈ msgs, msg.isTransaction = true := by
    intro msg hmsg
    rw [hmsgs] at hmsg
    obtain ⟨coin, -, rfl⟩ := List.mem_map.1 hmsg
    rfl
  have hescrowed : escrowed w.pump.config.localDenom msgs =
      coins.length * w.pump.config.ibcFees.perTransaction := by
    rw [hmsgs]
    exact escrowed_push _ _ _ _
  have hreceived := (Bank.balance_send hpaid hsender w.pump.config.localDenom).2
  have hspent := balance_deliver htx hdeliver w.pump.config.localDenom
  omega

end Push

/-! ### Two pushes -/

/-- A configuration in which a transaction costs six coins. -/
def pumpConfig : Config where
  destAddress := some "dest"
  destChannel := some "channel-1"
  destPort := some "transfer"
  connectionId := "connection-0"
  refundee := none
  owner := "owner"
  ibcFees := ⟨1, 2, 3, 4⟩
  timeout := ⟨none, 600⟩
  localDenom := "untrn"

/-- The addresses of the chain. -/
def pumpDeployment : Deployment := ⟨"pump", "feerefunder", by decide⟩

/-- The pump with its account and ten coins, and a user with a hundred. -/
def pumpChain : Chain where
  pump := ⟨pumpConfig, .registered "ica"⟩
  bank := {
    balance := fun address denom =>
      if denom = "untrn" then
        if address = "pump" then 10 else if address = "alice" then 100 else 0
      else 0
    supply := fun _ => 110 }

/-- The push of two denominations, with the given coins attached. -/
def pushTwo (attached : ℕ) : Option Chain :=
  pumpChain.exec pumpDeployment (fun _ => true) 10 ⟨1700000000000000000⟩
    ⟨"alice", [⟨"untrn", attached⟩]⟩ [] (.push [⟨"uatom", 100⟩, ⟨"uosmo", 50⟩])

/-- A push with the fees of both transactions attached keeps the balance. -/
theorem push_keeps_balance_iff_two : ∃ w' msgs, pushTwo 12 = some w' ∧
    execute pumpChain.pump (fun _ => true) ⟨10, ⟨1700000000000000000⟩, "pump"⟩
      ⟨"alice", [⟨"untrn", 12⟩]⟩ [] (.push [⟨"uatom", 100⟩, ⟨"uosmo", 50⟩]) =
        .ok (w'.pump, msgs) ∧
    escrowed "untrn" msgs ≤ 12 ∧ 10 ≤ w'.bank.balance "pump" "untrn" := by
  obtain ⟨w', hpush⟩ : ∃ w', pushTwo 12 = some w' := ⟨_, rfl⟩
  obtain ⟨msgs, hexecute, hiff⟩ := push_keeps_balance_iff hpush
  obtain ⟨hescrowed, hbalance⟩ := hiff.2 (by decide)
  exact ⟨w', msgs, hpush, hexecute, hescrowed, hbalance⟩

/-- **A push of two coins with the fees of one transaction** is accepted, and the pump pays for the
second one. -/
theorem push_spends_own_fees : ∃ w', pushTwo 6 = some w' ∧
    pumpChain.bank.balance "pump" "untrn" = 10 ∧ w'.bank.balance "pump" "untrn" = 4 :=
  ⟨_, rfl, by decide, by decide⟩

end Pump

end DropContracts
