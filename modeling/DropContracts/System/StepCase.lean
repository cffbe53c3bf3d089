import DropContracts.System.World

set_option relaxedAutoImplicit false
set_option autoImplicit false

/-!
# What a step of the system can do

The inversion of `System.World.exec`. Every step is one of a few cases; each case says how the two
contracts, the packets in flight and the vouchers changed. The invariants of the system are proved
by cases on it, and never look into the bank transfers and dispatches of a call.

## Main definitions

* `System.SameFlow` — two worlds between which no packet was submitted or ended.
* `System.Submission` — a packet was submitted.
* `System.AdminCase` — what the owner can change.
* `System.StepCase` — the cases of a step.

## Main results

* `System.callPuppeteer_ok` — a call of the puppeteer keeps the flow or submits one packet.
* `System.step_cases` — every step is one of the cases.
-/

namespace DropContracts

namespace System

open Exec

/-! ## The flow of packets -/

/-- The fees of the puppeteer are the same in two worlds, or have just been set. -/
def FeesKept (w w' : World) : Prop :=
  w'.puppeteer.ibcFee = w.puppeteer.ibcFee ∧ w'.puppeteer.registerFee = w.puppeteer.registerFee ∨
    w'.puppeteer.ibcFee ≠ none ∧ w'.puppeteer.registerFee ≠ none

/-- No packet was submitted and none has ended between two worlds. -/
structure SameFlow (w w' : World) : Prop where
  config : w'.puppeteer.config = w.puppeteer.config
  txState : w'.puppeteer.txState = w.puppeteer.txState
  inFlight : w'.inFlight = w.inFlight
  nextSeq : w'.nextSeq = w.nextSeq
  fees : FeesKept w w'

/-- Nothing but the puppeteer and the bank has changed between two worlds, and the supplies are
the same. -/
structure SameCore (w w' : World) : Prop where
  core : w'.core = w.core
  vouchers : w'.vouchers = w.vouchers
  entered : w'.entered = w.entered
  supply : w'.bank.supply = w.bank.supply

/-- The packet `p` was submitted for a request of `sender`, after no other. -/
structure Submission (w w' : World) (info : MessageInfo) (msg : PuppeteerExecuteMsg)
    (p : Packet) : Prop where
  idle : w.puppeteer.currentTxState.status = .idle
  allowed : info.sender ∈ w.puppeteer.config.allowedSenders
  seq : p.seq = w.nextSeq
  requested : ∃ ica replyTo, w.puppeteer.ica = .registered ica ∧
    Puppeteer.Requests w.puppeteer.config ica (mergeCoins info.funds) msg p.transaction replyTo ∧
    w'.puppeteer.txState = some ⟨.waitingForAck, some p.seq, some p.transaction, some replyTo⟩
  config : w'.puppeteer.config = w.puppeteer.config
  inFlight : w'.inFlight = w.inFlight ++ [p]
  nextSeq : w'.nextSeq = w.nextSeq + 1
  ibcFee : w.puppeteer.ibcFee ≠ none
  fees : FeesKept w w'
  expires : ∀ timeout reason replyTo, msg = .ibcTransfer timeout reason replyTo →
    w.time.nanos + timeout * nanosPerSecond < U64.bound
  ica : w'.puppeteer.ica = w.puppeteer.ica

section Calls

variable {d : Deployment} {w w' : World} {addrValidate : String → Bool} {info : MessageInfo}
  {msg : PuppeteerExecuteMsg}

/-- The reply to a transaction in progress turns it into a packet in flight. -/
theorem reply_ok {m : Puppeteer.NeutronMsg} {transaction : Transaction} {replyTo : String}
    (htx : w.puppeteer.txState = some ⟨.inProgress, none, some transaction, some replyTo⟩)
    (h : w.reply m = some w') :
    w' = { w with
      puppeteer := { w.puppeteer with
        txState := some ⟨.waitingForAck, some w.nextSeq, some transaction, some replyTo⟩ }
      inFlight := w.inFlight ++ [⟨w.nextSeq, m, transaction⟩]
      nextSeq := w.nextSeq + 1 } := by
  simp only [World.reply, Puppeteer.Storage.currentTxState, htx, Option.getD_some,
    Option.bind_eq_bind, Option.bind_some, Puppeteer.submitTxReply, orError,
    Option.bind_eq_some_iff, toOption_eq_some, ok_bind, pure_eq_ok, Except.ok.injEq,
    Option.some.injEq] at h
  obtain ⟨p, rfl, rfl⟩ := h
  rfl

/-- The submission of a packet changes the bank only, apart from the reply. -/
theorem submit_ok {m : Puppeteer.NeutronMsg} {transaction : Transaction} {replyTo : String}
    (hpacket : m.isPacket = true)
    (htx : w.puppeteer.txState = some ⟨.inProgress, none, some transaction, some replyTo⟩)
    (h : w.submit d m = some w') :
    ∃ bank, bank.supply = w.bank.supply ∧ w' = { w with
      bank := bank
      puppeteer := { w.puppeteer with
        txState := some ⟨.waitingForAck, some w.nextSeq, some transaction, some replyTo⟩ }
      inFlight := w.inFlight ++ [⟨w.nextSeq, m, transaction⟩]
      nextSeq := w.nextSeq + 1 } := by
  cases m with
  | submitTx connectionId icaId msgs timeout fee =>
    exact ⟨w.bank, rfl, reply_ok htx h⟩
  | ibcTransfer port channel token sender receiver timeout fee =>
    simp only [World.submit, Option.bind_eq_bind, Option.bind_eq_some_iff] at h
    obtain ⟨bank, hbank, h⟩ := h
    obtain ⟨hsupply, -, -⟩ := Bank.debitCoin_ok hbank
    refine ⟨bank, hsupply, ?_⟩
    exact reply_ok (w := { w with bank := bank }) htx h
  | registerInterchainAccount _ _ _ => simp [Puppeteer.NeutronMsg.isPacket] at hpacket

/-- The registration of an account changes nothing at once. -/
theorem submit_register {connectionId icaId : String} {fee : Coin}
    (h : w.submit d (.registerInterchainAccount connectionId icaId fee) = some w') : w' = w := by
  simp only [World.submit, Option.ite_none_left_eq_some, Option.some.injEq] at h
  exact h.2.symm

/-- A call that registers an account changes the puppeteer only. -/
theorem afterPuppeteer_register {puppeteer : Puppeteer.Storage} {connectionId icaId : String}
    {fee : Coin} (h : w.afterPuppeteer d puppeteer
      (some (.registerInterchainAccount connectionId icaId fee)) = some w') :
    w' = { w with puppeteer := puppeteer } := by
  rw [World.afterPuppeteer] at h
  exact submit_register h

/-- **A call of the puppeteer** leaves core alone, and either sets the puppeteer up or submits one
packet. -/
theorem callPuppeteer_ok (h : w.callPuppeteer d addrValidate info msg = some w') :
    SameCore w w' ∧ w'.height = w.height ∧ w'.time = w.time ∧
      (SameFlow w w' ∧ (msg = .registerICA ∨ ∃ r a t f, msg = .setFees r a t f) ∨
        ∃ p, Submission w w' info msg p) := by
  simp only [World.callPuppeteer, Option.bind_eq_bind, Option.bind_eq_some_iff,
    toOption_eq_some] at h
  obtain ⟨bank, hbank, ⟨puppeteer, out⟩, hexec, h⟩ := h
  have hsupply := (Bank.send_ok hbank).1
  cases Puppeteer.execute_ok hexec with
  | registerICA registerFee hfee hica =>
    obtain rfl := afterPuppeteer_register h
    exact ⟨⟨rfl, rfl, rfl, hsupply⟩, rfl, rfl,
      .inl ⟨⟨rfl, rfl, rfl, rfl, .inl ⟨rfl, rfl⟩⟩, .inl rfl⟩⟩
  | setFees recvFee ackFee timeoutFee registerFee howner =>
    simp only [World.afterPuppeteer, Option.some.injEq] at h
    subst h
    exact ⟨⟨rfl, rfl, rfl, hsupply⟩, rfl, rfl,
      .inl ⟨⟨rfl, rfl, rfl, rfl, .inr ⟨by simp, by simp⟩⟩,
        .inr ⟨recvFee, ackFee, timeoutFee, registerFee, rfl⟩⟩⟩
  | submit _ transaction replyTo ica fee m hrequests hsender hidle hica hfee hpacket =>
    obtain ⟨bank', hsupply', rfl⟩ := submit_ok hpacket rfl h
    refine ⟨⟨rfl, rfl, rfl, hsupply'.trans hsupply⟩, rfl, rfl, .inr ⟨⟨w.nextSeq, m, transaction⟩,
      hidle, hsender, rfl, ⟨ica, replyTo, hica, hrequests, rfl⟩, rfl, rfl, rfl, by simp [hfee],
      .inl ⟨rfl, rfl⟩, ?_, rfl⟩⟩
    rintro timeout reason replyTo rfl
    exact Puppeteer.expires_of_execute hexec

/-! ## The messages of core -/

/-- Minting tokens adds to their supply and touches no contract. -/
theorem tokenMint_ok {amount : ℕ} {receiver : String}
    (h : w.tokenMint d amount receiver = some w') :
    amount ≠ 0 ∧ w' = { w with bank := w.bank.mint receiver ⟨d.tokenDenom, amount⟩ } := by
  unfold World.tokenMint at h
  split_ifs at h with hzero
  exact ⟨hzero, (Option.some.inj h).symm⟩

/-- Burning tokens takes them from their supply and touches no contract. -/
theorem tokenBurn_ok {amount : ℕ} {denom : String}
    (h : w.tokenBurn d [⟨denom, amount⟩] = some w') :
    denom = d.tokenDenom ∧ amount ≤ w.bank.supply d.tokenDenom ∧
      ∃ bank, w' = { w with bank := bank } ∧ (∀ denom', bank.supply denom' =
        if denom' = d.tokenDenom then w.bank.supply denom' - amount
        else w.bank.supply denom') ∧
      ∀ a denom', denom' ≠ d.tokenDenom → bank.balance a denom' = w.bank.balance a denom' := by
  simp only [World.tokenBurn, Option.bind_eq_bind, Option.bind_eq_some_iff, toOption_eq_some,
    mustPay_eq_ok, Option.some.injEq] at h
  obtain ⟨bank, hsend, n, ⟨hfunds, -⟩, bank', hburn, rfl⟩ := h
  have hcoin : (⟨d.tokenDenom, n⟩ : Coin) ∈ mergeCoins [⟨denom, amount⟩] := by simp [hfunds]
  obtain ⟨c, hc, hdenom⟩ := denom_of_mem_mergeCoins hcoin
  obtain rfl : c = ⟨denom, amount⟩ := List.mem_singleton.1 hc
  obtain rfl : denom = d.tokenDenom := hdenom
  obtain rfl : n = amount := by simpa using (mem_mergeCoins.1 hcoin).1
  obtain ⟨hle, hsupply, hbalance⟩ := Bank.burn_ok hburn
  rw [(Bank.send_ok hsend).1] at hle hsupply
  refine ⟨rfl, hle, bank', rfl, hsupply, fun a denom' hne => ?_⟩
  rw [hbalance, if_neg (fun h => hne h.2)]
  exact Bank.balance_send_of_ne hsend (by simp [hfunds, hne.symm]) a

/-- Minting a voucher needs a new id and adds the voucher. -/
theorem voucherMint_ok {owner tokenId : String} {extension : Core.Metadata}
    (h : w.voucherMint owner tokenId extension = some w') :
    w' = { w with vouchers := w.vouchers ++ [⟨tokenId, owner, extension⟩] } := by
  unfold World.voucherMint at h
  split_ifs at h
  exact (Option.some.inj h).symm

end Calls

/-! ## The cases of a step -/

/-- What the owner can do to the storage of core. -/
inductive AdminCase (s : Core.Storage) : Core.Storage → Prop
  | updateConfig (newConfig : Core.ConfigOptional) :
      AdminCase s { s with config := s.config.update newConfig }
  | setNonNativeRewardsReceivers (items : List Core.NonNativeRewardsItem) :
      AdminCase s { s with nonNativeRewardsConfig := some items }
  | resetBondedAmount : AdminCase s { s with bondedAmount := 0 }
  | setPause (isPaused : Bool) : AdminCase s { s with isPaused := isPaused }

/-- The outcome of packet `p` as core receives it. -/
def Packet.outcomeMsg (p : Packet) : World.Outcome → ResponseHookMsg
  | .response => .success ⟨p.seq, p.transaction⟩
  | .error details => .error ⟨p.seq, p.transaction, details⟩
  | .timeout => .error ⟨p.seq, p.transaction, "Timeout"⟩

/-- Whether a step is neither a call of core nor the end of a packet. -/
def Action.isEnvironment : Action → Bool
  | .execute _ _ _ _ => false
  | .deliver _ _ => false
  | _ => true

/-- The cases of a step. -/
inductive StepCase (d : Deployment) (w : World) : Action → World → Prop
  | environment (a : Action) (w' : World) (henvironment : a.isEnvironment = true)
      (hcore : SameCore w w') (hflow : SameFlow w w')
      (hheight : w.height ≤ w'.height) (htime : w.time.nanos ≤ w'.time.nanos) :
      StepCase d w a w'
  | foreign (addrValidate : String → Bool) (sender : String) (funds : List Coin)
      (msg : PuppeteerExecuteMsg) (w' : World) (p : Packet) (hsender : sender ≠ d.core)
      (hsubmission : Submission w w' ⟨sender, funds⟩ msg p) :
      StepCase d w (.executePuppeteer addrValidate sender funds msg) w'
  | bond (answers : Answers) (sender : String) (funds : List Coin) (receiver : Option String)
      (q : Core.Querier) (core : Core.Storage) (msgs : List Core.CoreMsg) (w' : World)
      (hq : q.denomTrace = answers.denomTrace)
      (hbond : Core.executeBond w.core q ⟨sender, funds⟩ receiver = .ok (core, msgs))
      (hcore : w'.core = core) (hvouchers : w'.vouchers = w.vouchers)
      (hentered : w'.entered = w.entered) (hflow : SameFlow w w') (hheight : w'.height = w.height)
      (htime : w'.time = w.time) :
      StepCase d w (.execute answers sender funds (.bond receiver)) w'
  | unbond (answers : Answers) (sender : String) (funds : List Coin) (q : Core.Querier)
      (bank : Bank) (core : Core.Storage) (msgs : List Core.CoreMsg) (w' : World)
      (hbank : w.bank.send sender d.core funds = some bank)
      (hq : q = ({ w with bank := bank } : World).querier d answers)
      (hunbond : Core.executeUnbond w.core q ⟨sender, funds⟩ = .ok (core, msgs))
      (hcore : w'.core = core)
      (hvouchers : ∀ contract owner tokenId extension burn,
        msgs = [.voucherMint contract owner tokenId extension, burn] →
          w'.vouchers = w.vouchers ++ [⟨tokenId, owner, extension⟩])
      (hsupply : ∀ mint contract coin, msgs = [mint, .tokenBurn contract [coin]] →
        coin.denom = d.tokenDenom ∧ coin.amount ≤ w.bank.supply d.tokenDenom ∧
          w'.bank.supply d.tokenDenom = w.bank.supply d.tokenDenom - coin.amount)
      (hpuppeteer : w'.puppeteer = w.puppeteer)
      (hbalance : ∀ a denom, denom ≠ d.tokenDenom →
        w'.bank.balance a denom = w.bank.balance a denom)
      (hentered : w'.entered = w.entered) (hflow : SameFlow w w') (hheight : w'.height = w.height)
      (htime : w'.time = w.time) :
      StepCase d w (.execute answers sender funds .unbond) w'
  | admin (answers : Answers) (sender : String) (funds : List Coin) (msg : Core.ExecuteMsg)
      (core : Core.Storage) (w' : World) (hmsg : msg.isAdmin = true)
      (hadmin : AdminCase w.core core)
      (howner : sender = w.core.owner) (hwired : Wired d core.config) (hcore : w'.core = core)
      (hvouchers : w'.vouchers = w.vouchers) (hentered : w'.entered = w.entered)
      (hflow : SameFlow w w') (hheight : w'.height = w.height) (htime : w'.time = w.time) :
      StepCase d w (.execute answers sender funds msg) w'
  | tick (answers : Answers) (sender : String) (funds : List Coin) (q : Core.Querier)
      (bank : Bank) (core : Core.Storage) (w' : World)
      (hbank : w.bank.send sender d.core funds = some bank)
      (hq : q = ({ w with bank := bank } : World).querier d answers)
      (htick : Core.executeTick w.core q (w.env d) ⟨sender, funds⟩ = .ok (core, []))
      (hcore : w'.core = core) (hvouchers : w'.vouchers = w.vouchers)
      (hentered : w'.entered = if core.fsmState = w.core.fsmState then w.entered
        else w'.submitted w.nextSeq)
      (hflow : SameFlow w w') (hheight : w'.height = w.height) (htime : w'.time = w.time) :
      StepCase d w (.execute answers sender funds .tick) w'
  | tickSubmit (answers : Answers) (sender : String) (funds : List Coin) (q : Core.Querier)
      (bank : Bank) (core : Core.Storage) (msg : PuppeteerExecuteMsg) (msgFunds : List Coin)
      (w' : World) (p : Packet) (hbank : w.bank.send sender d.core funds = some bank)
      (hq : q = ({ w with bank := bank } : World).querier d answers)
      (htick : Core.executeTick w.core q (w.env d) ⟨sender, funds⟩ =
        .ok (core, [.puppeteer w.core.config.puppeteerContract msg msgFunds]))
      (hcore : w'.core = core) (hvouchers : w'.vouchers = w.vouchers)
      (hentered : w'.entered = if core.fsmState = w.core.fsmState then w.entered
        else w'.submitted w.nextSeq)
      (hsubmission : Submission w w' ⟨d.core, msgFunds⟩ msg p) (hheight : w'.height = w.height)
      (htime : w'.time = w.time) :
      StepCase d w (.execute answers sender funds .tick) w'
  | accepted (seq : ℕ) (outcome : World.Outcome) (p : Packet) (txState : Puppeteer.TxState)
      (transaction : Transaction) (core : Core.Storage) (w' : World)
      (hp : w.inFlight.find? (fun p => p.seq = seq) = some p)
      (htx : w.puppeteer.txState = some txState) (hwaiting : txState.status = .waitingForAck)
      (htransaction : txState.transaction = some transaction)
      (hhook : Core.executePuppeteerHook w.core (w.env d) ⟨d.puppeteer, []⟩
        (Packet.outcomeMsg ⟨seq, p.msg, transaction⟩ outcome) = .ok core)
      (hcore : w'.core = core) (hvouchers : w'.vouchers = w.vouchers)
      (hentered : w'.entered = w.entered)
      (hinFlight : w'.inFlight = w.inFlight.filter fun p' => p'.seq ≠ p.seq)
      (hempty : w'.puppeteer.txState = some Puppeteer.TxState.empty)
      (hconfig : w'.puppeteer.config = w.puppeteer.config) (hnext : w'.nextSeq = w.nextSeq)
      (hheight : w'.height = w.height) (htime : w'.time = w.time) (hfees : FeesKept w w')
      (hica : w'.puppeteer.ica = if outcome = .timeout then .timeout else w.puppeteer.ica) :
      StepCase d w (.deliver seq outcome) w'
  | refused (seq : ℕ) (outcome : World.Outcome) (p : Packet) (w' : World)
      (hp : w.inFlight.find? (fun p => p.seq = seq) = some p)
      (hrefused : (w.settle d p outcome).report d seq outcome = none) (hcore : SameCore w w')
      (hinFlight : w'.inFlight = w.inFlight.filter fun p' => p'.seq ≠ p.seq)
      (hpuppeteer : w'.puppeteer = w.puppeteer) (hnext : w'.nextSeq = w.nextSeq)
      (hheight : w'.height = w.height) (htime : w'.time = w.time) :
      StepCase d w (.deliver seq outcome) w'

/-! ## Every step is one of the cases -/

section Steps

variable {d : Deployment} {w w' : World}

/-- A call of core that returns: the payment, the call, and its messages. -/
theorem execute_ok {answers : Answers} {sender : String} {funds : List Coin}
    {msg : Core.ExecuteMsg} (h : w.execute d answers sender funds msg = some w') :
    sender ≠ d.core ∧ sender ≠ d.puppeteer ∧
    ∃ bank core msgs after, w.bank.send sender d.core funds = some bank ∧
      Core.execute w.core (({ w with bank := bank } : World).querier d answers) (w.env d)
        ⟨sender, funds⟩ msg = .ok (core, msgs) ∧ Wired d core.config ∧
      ({ w with bank := bank, core := core } : World).dispatchAll d answers.addrValidate msgs =
        some after ∧ w' = after.noteEntered w := by
  simp only [World.execute, Option.bind_eq_bind, Option.bind_eq_some_iff, toOption_eq_some,
    Option.guard_eq_some', Option.some.injEq] at h
  obtain ⟨-, ⟨hcore, hpuppeteer⟩, bank, hbank, ⟨core, msgs⟩, hexec, -, hwired, after, hafter,
    rfl⟩ := h
  exact ⟨hcore, hpuppeteer, bank, core, msgs, after, hbank, hexec, hwired, hafter, rfl⟩

/-- A bond is one of the cases. -/
theorem step_bond {answers : Answers} {sender : String} {funds : List Coin}
    {receiver : Option String}
    (h : w.execute d answers sender funds (.bond receiver) = some w') :
    StepCase d w (.execute answers sender funds (.bond receiver)) w' := by
  obtain ⟨-, -, bank, core, msgs, after, hbank, hexec, hwired, hafter, rfl⟩ := execute_ok h
  simp only [Core.execute] at hexec
  obtain ⟨coin, denomType, rate, issue, receiver', -, -, -, hrecord, -, rfl⟩ :=
    Core.executeBond_ok hexec
  simp only [World.dispatchAll, World.dispatch, Option.bind_eq_bind, Option.bind_eq_some_iff,
    Option.some.injEq] at hafter
  obtain ⟨w₁, hmint, rfl⟩ := hafter
  split_ifs at hmint
  obtain ⟨-, rfl⟩ := tokenMint_ok hmint
  have hstate := hrecord.frame.fsmState
  refine .bond answers sender funds receiver _ core _ _ rfl hexec rfl rfl ?_
    ⟨rfl, rfl, rfl, rfl, .inl ⟨rfl, rfl⟩⟩ rfl rfl
  simp [World.noteEntered, hstate]

/-- An unbond is one of the cases. -/
theorem step_unbond {answers : Answers} {sender : String} {funds : List Coin}
    (h : w.execute d answers sender funds .unbond = some w') :
    StepCase d w (.execute answers sender funds .unbond) w' := by
  obtain ⟨-, -, bank, core, msgs, after, hbank, hexec, hwired, hafter, rfl⟩ := execute_ok h
  simp only [Core.execute] at hexec
  obtain ⟨ldDenom, amount, batch, rate, expected, -, hfunds, -, -, -, -, hs, hmsgs⟩ :=
    Core.executeUnbond_ok hexec
  rw [hmsgs] at hafter
  simp only [World.dispatchAll, World.dispatch, Option.bind_eq_bind, Option.bind_eq_some_iff,
    Option.some.injEq] at hafter
  obtain ⟨w₁, hvoucher, w₂, hburn, rfl⟩ := hafter
  split_ifs at hvoucher
  split_ifs at hburn
  have hw₁ := voucherMint_ok hvoucher
  subst hw₁
  obtain ⟨hdenom, hle, bank', rfl, hsupply, hburnt⟩ := tokenBurn_ok hburn
  have hbankSupply := (Bank.send_ok hbank).1
  simp only [hbankSupply] at hle hsupply
  simp only at hfunds
  refine .unbond answers sender funds _ bank core msgs _ hbank rfl hexec rfl ?_ ?_ rfl ?_ ?_
    ⟨rfl, rfl, rfl, rfl, .inl ⟨rfl, rfl⟩⟩ rfl rfl
  · intro contract owner tokenId extension burn heq
    rw [hmsgs] at heq
    simp only [List.cons.injEq, Core.CoreMsg.voucherMint.injEq] at heq
    obtain ⟨⟨-, rfl, rfl, rfl⟩, -⟩ := heq
    rfl
  · intro mint contract coin heq
    rw [hmsgs] at heq
    simp only [List.cons.injEq, Core.CoreMsg.tokenBurn.injEq, and_true] at heq
    obtain ⟨-, -, rfl⟩ := heq
    refine ⟨hdenom, hle, ?_⟩
    simp only [World.noteEntered, hsupply, ↓reduceIte]
  · intro a denom hne
    refine (hburnt a denom hne).trans (Bank.balance_send_of_ne hbank ?_ a)
    intro coin hcoin
    rw [hfunds, List.mem_singleton] at hcoin
    rw [hcoin, hdenom]
    exact hne.symm
  · simp [World.noteEntered, hs, Core.Storage.saveBatch]

/-- A call of the owner that is no tick, bond or unbond is one of the cases. -/
theorem step_admin {answers : Answers} {sender : String} {funds : List Coin}
    {msg : Core.ExecuteMsg} {update : Core.Result Core.Storage} {s : Core.Storage}
    (hmsg : ∀ q, Core.execute w.core q (w.env d) ⟨sender, funds⟩ msg = Core.silently update)
    (hupdate : update = do Core.assertOwner w.core ⟨sender, funds⟩; return s)
    (hadmin : AdminCase w.core s) (hmsg' : msg.isAdmin = true)
    (h : w.execute d answers sender funds msg = some w') :
    StepCase d w (.execute answers sender funds msg) w' := by
  obtain ⟨-, -, bank, core, msgs, after, hbank, hexec, hwired, hafter, rfl⟩ := execute_ok h
  rw [hmsg, hupdate] at hexec
  simp only [Core.silently, Core.assertOwner, bind_eq_ok, ensure_eq_ok, pure_eq_ok,
    Except.ok.injEq, Prod.mk.injEq] at hexec
  obtain ⟨_, ⟨-, howner, rfl⟩, rfl, rfl⟩ := hexec
  simp only [World.dispatchAll, Option.some.injEq] at hafter
  subst hafter
  have hstate : s.fsmState = w.core.fsmState := by cases hadmin <;> rfl
  refine .admin answers sender funds msg s _ hmsg' hadmin howner hwired rfl rfl ?_
    ⟨rfl, rfl, rfl, rfl, .inl ⟨rfl, rfl⟩⟩ rfl rfl
  simp [World.noteEntered, hstate]

/-- A tick sends at most one message, and that one goes to the puppeteer. -/
theorem tick_messages {s s' : Core.Storage} {q : Core.Querier} {env : Env} {info : MessageInfo}
    {msgs : List Core.CoreMsg} (h : Core.TickCase s q env info s' msgs) :
    msgs = [] ∨ ∃ msg funds, msgs = [.puppeteer s.config.puppeteerContract msg funds] := by
  have hcascade : ∀ {t t' : Core.Storage} {msgs : List Core.CoreMsg},
      Core.CascadeCase t q env info s.config t' msgs →
        msgs = [] ∨ ∃ msg funds, msgs = [.puppeteer s.config.puppeteerContract msg funds] := by
    intro t t' msgs hc
    cases hc with
    | transfer => exact .inr ⟨_, _, rfl⟩
    | stake => exact .inr ⟨_, _, rfl⟩
    | unbond => exact .inr ⟨_, _, rfl⟩
    | idle => exact .inl rfl
  cases h with
  | idleInterval rate m hstate hinterval hmsg =>
    cases hmsg with
    | transfer => exact .inr ⟨_, _, rfl⟩
    | redeem => exact .inr ⟨_, _, rfl⟩
    | lsmShare => exact .inr ⟨_, _, rfl⟩
  | idleClaim => exact .inr ⟨_, _, rfl⟩
  | idleCascade _ _ _ _ _ _ _ _ hc => exact hcascade hc
  | claiming _ _ _ _ _ _ _ _ hc => exact hcascade hc
  | transfering _ _ _ _ _ hc => exact hcascade hc
  | staking _ _ _ _ _ _ hc => exact hcascade hc
  | unbondingSuccess => exact .inl rfl
  | unbondingFailed => exact .inl rfl

/-- A message of a tick is never one that sets the puppeteer up. -/
theorem tick_requests {s s' : Core.Storage} {q : Core.Querier} {env : Env} {info : MessageInfo}
    {contract : String} {msg : PuppeteerExecuteMsg} {funds : List Coin}
    (h : Core.TickCase s q env info s' [.puppeteer contract msg funds]) :
    msg ≠ .registerICA ∧ ∀ r a t f, msg ≠ .setFees r a t f := by
  have hcascade : ∀ {t t' : Core.Storage} {msgs : List Core.CoreMsg},
      Core.CascadeCase t q env info s.config t' msgs →
        msgs = [.puppeteer contract msg funds] →
          msg ≠ .registerICA ∧ ∀ r a t f, msg ≠ .setFees r a t f := by
    intro t t' msgs hc heq
    cases hc with
    | idle => cases heq
    | transfer =>
      cases heq
      exact ⟨by simp, by simp⟩
    | stake =>
      cases heq
      exact ⟨by simp, by simp⟩
    | unbond =>
      cases heq
      exact ⟨by simp, by simp⟩
  cases h with
  | idleInterval rate m hstate hinterval hmsg =>
    cases hmsg with
    | transfer => exact ⟨by simp, by simp⟩
    | redeem => exact ⟨by simp, by simp⟩
    | lsmShare => exact ⟨by simp, by simp⟩
  | idleClaim => exact ⟨by simp, by simp⟩
  | idleCascade _ _ _ _ _ _ _ _ hc => exact hcascade hc rfl
  | claiming _ _ _ _ _ _ _ _ hc => exact hcascade hc rfl
  | transfering _ _ _ _ _ hc => exact hcascade hc rfl
  | staking _ _ _ _ _ _ hc => exact hcascade hc rfl

/-- A tick is one of the cases. -/
theorem step_tick {answers : Answers} {sender : String} {funds : List Coin}
    (h : w.execute d answers sender funds .tick = some w') :
    StepCase d w (.execute answers sender funds .tick) w' := by
  obtain ⟨-, -, bank, core, msgs, after, hbank, hexec, hwired, hafter, rfl⟩ := execute_ok h
  simp only [Core.execute] at hexec
  have hcase := (Core.executeTick_ok hexec).2
  obtain rfl | ⟨msg, msgFunds, rfl⟩ := tick_messages hcase
  · simp only [World.dispatchAll, Option.some.injEq] at hafter
    subst hafter
    exact .tick answers sender funds _ bank core _ hbank rfl hexec rfl rfl rfl
      ⟨rfl, rfl, rfl, rfl, .inl ⟨rfl, rfl⟩⟩ rfl rfl
  · simp only [World.dispatchAll, World.dispatch, Option.bind_eq_bind, Option.bind_eq_some_iff,
      Option.some.injEq] at hafter
    obtain ⟨w₁, hcall, rfl⟩ := hafter
    split_ifs at hcall with haddr
    obtain ⟨hcore, hheight, htime, ⟨-, hsetup⟩ | ⟨p, hp⟩⟩ := callPuppeteer_ok hcall
    · obtain ⟨hregister, hfees⟩ := tick_requests hcase
      rcases hsetup with hsetup | ⟨r, a, t, f, hsetup⟩
      · exact absurd hsetup hregister
      · exact absurd hsetup (hfees r a t f)
    · refine .tickSubmit answers sender funds _ bank core msg msgFunds _ p hbank rfl hexec
        hcore.core hcore.vouchers ?_
        ⟨hp.idle, hp.allowed, hp.seq, hp.requested, hp.config, hp.inFlight, hp.nextSeq, hp.ibcFee,
          hp.fees, hp.expires, hp.ica⟩ hheight htime
      have hstate : w₁.core.fsmState = core.fsmState := by rw [hcore.core]
      simp only [World.noteEntered, hstate]
      rfl

/-- A call of the puppeteer by somebody else is one of the cases. -/
theorem step_executePuppeteer {addrValidate : String → Bool} {sender : String}
    {funds : List Coin} {msg : PuppeteerExecuteMsg}
    (h : w.executePuppeteer d addrValidate sender funds msg = some w') :
    StepCase d w (.executePuppeteer addrValidate sender funds msg) w' := by
  simp only [World.executePuppeteer, Option.bind_eq_bind, Option.bind_eq_some_iff,
    Option.guard_eq_some'] at h
  obtain ⟨-, ⟨hsender, -⟩, h⟩ := h
  obtain ⟨hcore, hheight, htime, ⟨hflow, -⟩ | ⟨p, hp⟩⟩ := callPuppeteer_ok h
  · exact .environment _ _ rfl hcore hflow hheight.ge (by rw [htime])
  · exact .foreign addrValidate sender funds msg _ p hsender hp

/-- The outcome at the puppeteer is reported as an outcome of the waiting transaction. -/
theorem sudoOutcome_ok {seq : ℕ} {outcome : World.Outcome} {puppeteer : Puppeteer.Storage}
    {report : Puppeteer.Report} (m : Puppeteer.NeutronMsg)
    (h : w.sudoOutcome seq outcome = .ok (puppeteer, report)) :
    ∃ txState transaction replyTo, w.puppeteer.txState = some txState ∧
      txState.status = .waitingForAck ∧ txState.transaction = some transaction ∧
      txState.replyTo = some replyTo ∧ puppeteer.txState = some Puppeteer.TxState.empty ∧
      puppeteer.config = w.puppeteer.config ∧ puppeteer.ibcFee = w.puppeteer.ibcFee ∧
      puppeteer.registerFee = w.puppeteer.registerFee ∧
      puppeteer.ica = (if outcome = .timeout then .timeout else w.puppeteer.ica) ∧
      report = ⟨replyTo, Packet.outcomeMsg ⟨seq, m, transaction⟩ outcome⟩ := by
  cases outcome with
  | response =>
    obtain ⟨txState, transaction, replyTo, htx, hwaiting, htrans, hreply, rfl, rfl⟩ :=
      Puppeteer.sudoResponse_eq_ok.1 h
    exact ⟨txState, transaction, replyTo, htx, hwaiting, htrans, hreply, rfl, rfl, rfl, rfl, rfl,
      rfl⟩
  | error details =>
    obtain ⟨txState, transaction, replyTo, htx, hwaiting, htrans, hreply, rfl, rfl⟩ :=
      Puppeteer.sudoError_eq_ok.1 h
    exact ⟨txState, transaction, replyTo, htx, hwaiting, htrans, hreply, rfl, rfl, rfl, rfl, rfl,
      rfl⟩
  | timeout =>
    obtain ⟨txState, transaction, replyTo, htx, hwaiting, htrans, hreply, rfl, rfl⟩ :=
      Puppeteer.sudoTimeout_eq_ok.1 h
    exact ⟨txState, transaction, replyTo, htx, hwaiting, htrans, hreply, rfl, rfl, rfl, rfl, rfl,
      rfl⟩

/-- A delivery is one of the cases: both contracts accept the outcome, or neither does. -/
theorem step_deliver {seq : ℕ} {outcome : World.Outcome}
    (h : w.deliver d seq outcome = some w') : StepCase d w (.deliver seq outcome) w' := by
  simp only [World.deliver, Option.bind_eq_bind, Option.bind_eq_some_iff, Option.some.injEq] at h
  obtain ⟨p, hp, rfl⟩ := h
  have hsupply : (w.refund d p outcome).supply = w.bank.supply := by
    unfold World.refund
    split <;> try split
    all_goals rfl
  cases hreport : (w.settle d p outcome).report d seq outcome with
  | none =>
    exact .refused seq outcome p _ hp hreport ⟨rfl, rfl, rfl, hsupply⟩ rfl rfl rfl rfl rfl
  | some w₁ =>
    simp only [World.report, Option.bind_eq_bind, Option.bind_eq_some_iff, toOption_eq_some,
      Option.guard_eq_some', Option.some.injEq] at hreport
    obtain ⟨⟨puppeteer, report⟩, houtcome, -, -, core, hhook, rfl⟩ := hreport
    obtain ⟨txState, transaction, replyTo, htx, hwaiting, htrans, -, hempty, hconfig, hfee,
      hregister, hica, rfl⟩ := sudoOutcome_ok p.msg houtcome
    exact .accepted seq outcome p txState transaction core _ hp htx hwaiting htrans hhook rfl rfl
      rfl rfl hempty hconfig rfl rfl rfl (.inl ⟨hfee, hregister⟩) hica

/-- **Every step of the system is one of the cases.** -/
theorem step_cases {a : Action} (hwired : Wired d w.core.config) (h : Step d w a w') :
    StepCase d w a w' := by
  unfold Step at h
  cases a with
  | execute answers sender funds msg =>
    cases msg with
    | bond receiver => exact step_bond h
    | unbond => exact step_unbond h
    | tick => exact step_tick h
    | updateConfig newConfig =>
      exact step_admin (fun _ => rfl) rfl (.updateConfig newConfig) rfl h
    | resetBondedAmount => exact step_admin (fun _ => rfl) rfl .resetBondedAmount rfl h
    | updateNonNativeRewardsReceivers items =>
      exact step_admin (fun _ => rfl) rfl (.setNonNativeRewardsReceivers items) rfl h
    | pause => exact step_admin (fun _ => rfl) rfl (.setPause true) rfl h
    | unpause => exact step_admin (fun _ => rfl) rfl (.setPause false) rfl h
    | puppeteerHook hookMsg =>
      -- only the puppeteer may call the hook, and it does so when a packet is delivered
      obtain ⟨-, hsender, _, _, _, _, -, hexec, -, -⟩ := execute_ok h
      simp only [Core.execute, Core.silently, Core.executePuppeteerHook, bind_eq_ok,
        ensure_eq_ok] at hexec
      obtain ⟨_, ⟨-, hpuppeteer, -⟩, -⟩ := hexec
      exact absurd (hpuppeteer.trans hwired.puppeteer) hsender
  | executePuppeteer addrValidate sender funds msg => exact step_executePuppeteer h
  | deliver seq outcome => exact step_deliver h
  | delegationsAndBalance data =>
    rw [World.exec, Option.some.injEq] at h
    subst h
    exact .environment _ _ rfl ⟨rfl, rfl, rfl, rfl⟩ ⟨rfl, rfl, rfl, rfl, .inl ⟨rfl, rfl⟩⟩ le_rfl
      le_rfl
  | nonNativeRewardsBalances coins =>
    rw [World.exec, Option.some.injEq] at h
    subst h
    exact .environment _ _ rfl ⟨rfl, rfl, rfl, rfl⟩ ⟨rfl, rfl, rfl, rfl, .inl ⟨rfl, rfl⟩⟩ le_rfl
      le_rfl
  | openAck address =>
    simp only [World.exec, World.openAck, Puppeteer.sudoOpenAck, Option.bind_eq_bind,
      Option.bind_eq_some_iff, toOption_eq_some, Option.guard_eq_some', bind_eq_ok, pure_eq_ok,
      Except.ok.injEq, Option.some.injEq] at h
    obtain ⟨-, -, p, ⟨address, -, rfl⟩, rfl⟩ := h
    exact .environment _ _ rfl ⟨rfl, rfl, rfl, rfl⟩ ⟨rfl, rfl, rfl, rfl, .inl ⟨rfl, rfl⟩⟩ le_rfl
      le_rfl
  | bankSend sender receiver coins =>
    simp only [World.exec, World.bankSend, Option.bind_eq_bind, Option.bind_eq_some_iff,
      Option.guard_eq_some', Option.some.injEq] at h
    obtain ⟨-, -, bank, hbank, rfl⟩ := h
    exact .environment _ _ rfl ⟨rfl, rfl, rfl, (Bank.send_ok hbank).1⟩
      ⟨rfl, rfl, rfl, rfl, .inl ⟨rfl, rfl⟩⟩ le_rfl le_rfl
  | nextBlock height time =>
    simp only [World.exec, World.nextBlock] at h
    split_ifs at h with hlater
    rw [← Option.some.inj h]
    exact .environment _ _ rfl ⟨rfl, rfl, rfl, rfl⟩ ⟨rfl, rfl, rfl, rfl, .inl ⟨rfl, rfl⟩⟩
      hlater.1.le hlater.2.1.le

end Steps

end System

end DropContracts
