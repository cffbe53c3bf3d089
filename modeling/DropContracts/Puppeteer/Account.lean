import DropContracts.Base.Run
import DropContracts.Puppeteer.Queries

set_option relaxedAutoImplicit false
set_option autoImplicit false

/-!
# The interchain account and its channel

The puppeteer together with the two channels that it sends packets over: the ordered channel of the
interchain account, which closes when a packet on it times out, and the channel for transfers, which
does not. `sudo_timeout` of `contracts/puppeteer/src/contract.rs` serves the timeouts of both.

The chain calls the puppeteer with the outcome of a packet. When the handler fails, or the contract
that it reports to, the call changes nothing, but the packet is answered.

## Main definitions

* `Puppeteer.Account`, `Puppeteer.AccountAction`, `Puppeteer.Account.exec` — the system and its
  steps.
* `Puppeteer.NoTransferTimeout` — a step that is not the timeout of a transfer.
* `Puppeteer.StepKeeps`, `Puppeteer.AccountKeeps` — what a step and a state keep of the account.

## Main results

* `Puppeteer.exec_cases` — what a step does to the account.
* `Puppeteer.stepKeeps_iff` — the steps that keep the account are those without the timeout of a
  transfer.
* `Puppeteer.account_of_run` — the account along every run without timeouts of transfers.
-/

namespace DropContracts

namespace Puppeteer

open Exec Icq

/-! ## The system -/

/-- A packet that was sent, and whether over the channel of the interchain account. -/
structure Packet where
  seq : ℕ
  overIca : Bool
  deriving DecidableEq, Repr

/-- The puppeteer with its queries, the address at the other end of the channel of the interchain
account when it is open, whether the channel is being opened, and the packets without an outcome. -/
structure Account where
  contract : WithQueries
  channel : Option String
  opening : Bool
  inFlight : List Packet

/-- The storage items of the requests. -/
def Account.items (w : Account) : Storage := w.contract.puppeteer.toStorage

/-- What can happen: a message of some account, with the sequence number of its packet; the opening
of the channel; the outcome of a packet, with whether its handling succeeds; the result of a
query. -/
inductive AccountAction where
  | message (a : Addresses) (info : MessageInfo) (env : Env) (msg : FullMsg) (seq : ℕ)
  | openAck (address : String)
  | response (packet : Packet) (handled : Bool)
  | error (packet : Packet) (details : String) (handled : Bool)
  | timeout (packet : Packet) (handled : Bool)
  | kvQueryResult (env : Env) (queryId : ℕ) (result : KvResult)
  | txQueryResult (transfers : List Transfer)

namespace Account

/-- The account with other items of the requests. -/
def withItems (w : Account) (s : Storage) : Account :=
  { w with contract := { w.contract with
      puppeteer := { w.contract.puppeteer with toStorage := s } } }

/-- A packet is sent, and the reply with its sequence number follows within the same call. -/
def sendPacket (w : Account) (packet : Packet) : Option Account := do
  let s ← (submitTxReply w.items packet.seq).toOption
  some { w.withItems s with inFlight := packet :: w.inFlight }

/-- A message to the chain. Transactions need the open channel of the account, and the account can
only be registered without one. -/
def submit (w : Account) (seq : ℕ) : NeutronMsg → Option Account
  | .submitTx .. => if w.channel = none then none else w.sendPacket ⟨seq, true⟩
  | .ibcTransfer .. => w.sendPacket ⟨seq, false⟩
  | .registerInterchainAccount .. =>
    if w.channel = none then some { w with opening := true } else none

/-- The messages of a call, one after the other. -/
def send (seq : ℕ) (w : Account) : List Outgoing → Option Account
  | [] => some w
  | .neutron msg :: rest => (w.submit seq msg).bind fun w => w.send seq rest
  | .icq msg :: rest =>
    (w.contract.dispatch msg).bind fun contract => { w with contract := contract }.send seq rest

/-- The outcome of a packet: the items after it, when its handling succeeds. -/
def settle (w : Account) (packet : Packet) (handled : Bool) (outcome : Result (Storage × Report)) :
    Option Account :=
  if packet ∈ w.inFlight then
    let w' : Account := { w with inFlight := w.inFlight.erase packet }
    if handled then do
      let (s, _) ← outcome.toOption
      some (w'.withItems s)
    else some w'
  else none

/-- A step. A timeout closes the channel of the account when the packet was sent over it. -/
def exec (w : Account) : AccountAction → Option Account
  | .message a info env msg seq => do
    let (s, out) ← (executeFull w.contract.puppeteer a info env msg).toOption
    { w with contract := { w.contract with puppeteer := s } }.send seq out
  | .openAck address =>
    if w.opening ∧ w.channel = none then do
      let s ← (sudoOpenAck w.items (some address)).toOption
      some { w.withItems s with channel := some address, opening := false }
    else none
  | .response packet handled => w.settle packet handled (sudoResponse w.items packet.seq)
  | .error packet details handled =>
    w.settle packet handled (sudoError w.items packet.seq details)
  | .timeout packet handled => do
    let w' ← w.settle packet handled (sudoTimeout w.items packet.seq)
    some { w' with channel := if packet.overIca then none else w.channel }
  | .kvQueryResult env queryId result => do
    let s ← (sudoKvQueryResult w.contract.puppeteer env queryId result).toOption
    some { w with contract := { w.contract with puppeteer := s } }
  | .txQueryResult transfers => do
    let s ← (sudoTxQueryResult w.contract.puppeteer transfers).toOption
    some { w with contract := { w.contract with puppeteer := s } }

end Account

/-- A step of the system. -/
def AccountStep (w : Account) (action : AccountAction) (w' : Account) : Prop :=
  w.exec action = some w'

/-- The system after `instantiate`. -/
def Account.initial (s : FullStorage) : Account :=
  ⟨⟨s, StorageMap.empty, 0⟩, none, false, []⟩

/-! ## What is to be kept -/

/-- The step does not handle the timeout of a transfer, or the account had timed out before. -/
def NoTransferTimeout (w : Account) : AccountAction → Prop
  | .timeout packet handled =>
    handled = true → packet.overIca = true ∨ w.items.ica = .timeout
  | _ => True

instance (w : Account) : (action : AccountAction) → Decidable (NoTransferTimeout w action)
  | .timeout packet handled => inferInstanceAs
      (Decidable (handled = true → packet.overIca = true ∨ w.items.ica = .timeout))
  | .message .. => isTrue trivial
  | .openAck .. => isTrue trivial
  | .response .. => isTrue trivial
  | .error .. => isTrue trivial
  | .kvQueryResult .. => isTrue trivial
  | .txQueryResult .. => isTrue trivial

/-- What a step keeps: the account stays registered, unless a packet on its own channel times out,
and the timeout of a transfer changes neither its state nor its address. -/
structure StepKeeps (w : Account) (action : AccountAction) (w' : Account) : Prop where
  leaves : ∀ address, w.items.ica = .registered address →
    (∀ address', w'.items.ica ≠ .registered address') →
      ∃ packet handled, action = .timeout packet handled ∧ packet.overIca = true
  transfer : ∀ packet handled, action = .timeout packet handled → packet.overIca = false →
    w'.items.ica = w.items.ica

/-- What holds in a state. While the channel is open, the account is registered with the address at
its other end, and every request is accepted that would be with some registered account. After the
timeout of a packet on the channel the account can be registered again, and then its new address
is known. -/
structure AccountKeeps (w : Account) : Prop where
  registered : ∀ address, w.channel = some address → getAddress w.items.ica = .ok address
  accepts : ∀ address, w.channel = some address → ∀ addrValidate info env msg,
    (∃ other r, execute { w.items with ica := .registered other } addrValidate info env msg =
      .ok r) →
    ∃ r, execute w.items addrValidate info env msg = .ok r
  registersAgain : ∀ packet w', packet.overIca = true → w.exec (.timeout packet true) = some w' →
    ∀ a info env seq address, ∃ w₁ w₂,
      w'.exec (.message a info env (.request .registerICA) seq) = some w₁ ∧
      w₁.exec (.openAck address) = some w₂ ∧ getAddress w₂.items.ica = .ok address

/-! ## What a step does -/

/-- What a step can do to the account: nothing, register it, open its channel, or handle a
timeout. -/
inductive ExecCase (w : Account) : AccountAction → Account → Prop
  | kept {action : AccountAction} {w' : Account} (hica : w'.items.ica = w.items.ica)
      (hchannel : w'.channel = w.channel ∨ w'.channel = none) (hopening : w'.opening = w.opening)
      (hfee : w.items.registerFee ≠ none → w'.items.registerFee ≠ none)
      (hflight : w'.inFlight ≠ [] →
        w.inFlight ≠ [] ∨ ∃ address, w.items.ica = .registered address)
      (hnot : ∀ packet, action ≠ .timeout packet true) : ExecCase w action w'
  | register {action : AccountAction} {w' : Account}
      (hica : w.items.ica = .timeout ∨ w.items.ica = .none) (hica' : w'.items.ica = .inProgress)
      (hchannel : w'.channel = none) (hfee : w'.items.registerFee ≠ none)
      (hnot : ∀ packet handled, action ≠ .timeout packet handled) : ExecCase w action w'
  | openAck {address : String} {w' : Account} (hopening : w.opening = true)
      (hica : w'.items.ica = .registered address) (hchannel : w'.channel = some address)
      (hfee : w'.items.registerFee = w.items.registerFee)
      (hflight : w'.inFlight = w.inFlight) : ExecCase w (.openAck address) w'
  | timeout {packet : Packet} {w' : Account} (hmem : packet ∈ w.inFlight)
      (hica : w'.items.ica = .timeout)
      (hchannel : w'.channel = if packet.overIca then none else w.channel)
      (hopening : w'.opening = w.opening) (hfee : w'.items.registerFee = w.items.registerFee) :
      ExecCase w (.timeout packet true) w'

section Steps

variable {w w' : Account}

/-- A reply leaves everything but the transaction state alone. -/
theorem submitTxReply_ok {s s' : Storage} {seq : ℕ} (h : submitTxReply s seq = .ok s') :
    ∃ txState, s' = { s with txState := some txState } := by
  simp only [submitTxReply, bind_eq_ok, pure_eq_ok, Except.ok.injEq] at h
  obtain ⟨txState, -, rfl⟩ := h
  exact ⟨_, rfl⟩

/-- A packet that is sent changes nothing else of the account. -/
theorem sendPacket_ok {packet : Packet} (h : w.sendPacket packet = some w') :
    w'.items.ica = w.items.ica ∧ w'.items.registerFee = w.items.registerFee ∧
      w'.channel = w.channel ∧ w'.opening = w.opening ∧
      w'.inFlight = packet :: w.inFlight := by
  simp only [Account.sendPacket, Option.bind_eq_bind, Option.bind_eq_some_iff, toOption_eq_some,
    Option.some.injEq] at h
  obtain ⟨s, hreply, rfl⟩ := h
  obtain ⟨txState, rfl⟩ := submitTxReply_ok hreply
  exact ⟨rfl, rfl, rfl, rfl, rfl⟩

/-- Messages to the query module change nothing of the account. -/
theorem send_icq {seq : ℕ} {msgs : List IcqMsg} (h : w.send seq (msgs.map .icq) = some w') :
    w'.items = w.items ∧ w'.channel = w.channel ∧ w'.opening = w.opening ∧
      w'.inFlight = w.inFlight := by
  induction msgs generalizing w with
  | nil =>
    rw [← Option.some.inj h]
    exact ⟨rfl, rfl, rfl, rfl⟩
  | cons msg msgs ih =>
    obtain ⟨contract, hdispatch, hrest⟩ := Option.bind_eq_some_iff.1 h
    obtain ⟨hitems, hchannel, hopening, hflight⟩ := ih hrest
    have hall : w.contract.dispatchAll [msg] = some contract := by
      simp [WithQueries.dispatchAll, hdispatch]
    refine ⟨?_, hchannel, hopening, hflight⟩
    rw [hitems]
    exact WithQueries.dispatchAll_toStorage hall

/-- The outcome of a packet: the items are those of the handler, or unchanged. -/
theorem settle_ok {packet : Packet} {handled : Bool} {outcome : Result (Storage × Report)}
    (h : w.settle packet handled outcome = some w') :
    packet ∈ w.inFlight ∧ w'.channel = w.channel ∧ w'.opening = w.opening ∧
      w'.inFlight = w.inFlight.erase packet ∧
      if handled then ∃ report, outcome = .ok (w'.items, report) else w'.items = w.items := by
  unfold Account.settle at h
  split_ifs at h with hmem hhandled
  · simp only [Option.bind_eq_bind, Option.bind_eq_some_iff, toOption_eq_some,
      Option.some.injEq] at h
    obtain ⟨⟨s, report⟩, houtcome, rfl⟩ := h
    rw [if_pos hhandled]
    exact ⟨hmem, rfl, rfl, rfl, report, houtcome⟩
  · rw [← Option.some.inj h, if_neg hhandled]
    exact ⟨hmem, rfl, rfl, rfl, rfl⟩

/-- A list from which one entry was taken is not empty only if it was not. -/
theorem ne_nil_of_erase {packet : Packet} {l : List Packet} (h : l.erase packet ≠ []) : l ≠ [] := by
  rintro rfl
  exact h rfl

/-- A message of the chain's kind that is sent as a packet. -/
theorem submit_packet {seq : ℕ} {msg : NeutronMsg} (hpacket : msg.isPacket = true)
    (h : w.submit seq msg = some w') : ∃ overIca, w.sendPacket ⟨seq, overIca⟩ = some w' := by
  cases msg with
  | submitTx connectionId interchainAccountId msgs timeout fee =>
    simp only [Account.submit] at h
    split_ifs at h
    exact ⟨true, h⟩
  | ibcTransfer sourcePort sourceChannel token sender receiver timeoutTimestamp fee =>
    exact ⟨false, h⟩
  | registerInterchainAccount connectionId interchainAccountId registerFee => cases hpacket

/-- What a message does to the account. -/
theorem exec_message {a : Addresses} {info : MessageInfo} {env : Env} {msg : FullMsg} {seq : ℕ}
    (h : w.exec (.message a info env msg seq) = some w') :
    ExecCase w (.message a info env msg seq) w' := by
  simp only [Account.exec, Option.bind_eq_bind, Option.bind_eq_some_iff, toOption_eq_some] at h
  obtain ⟨⟨s, out⟩, hexecute, hsend⟩ := h
  obtain ⟨request, t, neutronMsg, rfl, hcase, rfl, rfl⟩ | ⟨hitems, msgs, rfl⟩ :=
    executeFull_cases hexecute
  · cases hcase with
    | registerICA registerFee hfee hica =>
      simp only [Option.toList_some, List.map_cons, List.map_nil, Account.send, Account.submit,
        Option.bind_eq_some_iff, Option.ite_none_right_eq_some, Option.some.injEq] at hsend
      obtain ⟨_, ⟨hchannel, rfl⟩, rfl⟩ := hsend
      refine .register hica rfl hchannel ?_ (by rintro _ _ ⟨⟩)
      show w.contract.puppeteer.registerFee ≠ none
      rw [hfee]
      simp
    | setFees recvFee ackFee timeoutFee registerFee howner =>
      obtain rfl := Option.some.inj hsend
      exact .kept rfl (.inl rfl) rfl (by rintro _ ⟨⟩) .inl (by rintro _ ⟨⟩)
    | submit _ transaction replyTo ica fee neutronMsg hrequests hsender hidle hica hfee hpacket =>
      simp only [Option.toList_some, List.map_cons, List.map_nil, Account.send,
        Option.bind_eq_some_iff, Option.some.injEq] at hsend
      obtain ⟨_, hsubmit, rfl⟩ := hsend
      obtain ⟨overIca, hpacket⟩ := submit_packet hpacket hsubmit
      obtain ⟨hica', hfee', hchannel, hopening, -⟩ := sendPacket_ok hpacket
      refine .kept hica' (.inl hchannel) hopening ?_ (fun _ => .inr ⟨ica, hica⟩) (by rintro _ ⟨⟩)
      rw [hfee']
      exact id
  · obtain ⟨hitems', hchannel, hopening, hflight⟩ := send_icq hsend
    have hsame : w'.items = { w.items with config := s.config } := hitems'.trans hitems
    refine .kept (by rw [hsame]) (.inl hchannel) hopening (by rw [hsame]; exact id) ?_
      (by rintro _ ⟨⟩)
    rw [hflight]
    exact .inl

/-- An outcome whose handler leaves the account and the fee alone keeps the account. -/
theorem kept_of_settle {action : AccountAction} {packet : Packet} {handled : Bool}
    {outcome : Result (Storage × Report)} (hnot : ∀ packet, action ≠ .timeout packet true)
    (houtcome : ∀ s report, outcome = .ok (s, report) →
      s.ica = w.items.ica ∧ s.registerFee = w.items.registerFee)
    (h : w.settle packet handled outcome = some w') : ExecCase w action w' := by
  obtain ⟨hmem, hchannel, hopening, hflight, hitems⟩ := settle_ok h
  have hsame : w'.items.ica = w.items.ica ∧ w'.items.registerFee = w.items.registerFee := by
    cases handled with
    | true =>
      obtain ⟨report, hok⟩ := hitems
      exact houtcome _ _ hok
    | false =>
      have hitems : w'.items = w.items := hitems
      rw [hitems]
      exact ⟨rfl, rfl⟩
  refine .kept hsame.1 (.inl hchannel) hopening (by rw [hsame.2]; exact id) ?_ hnot
  rw [hflight]
  exact fun hne => .inl (ne_nil_of_erase hne)

/-- What the timeout of a packet does to the account. -/
theorem exec_timeout {packet : Packet} {handled : Bool}
    (h : w.exec (.timeout packet handled) = some w') : ExecCase w (.timeout packet handled) w' := by
  simp only [Account.exec, Option.bind_eq_bind, Option.bind_eq_some_iff, Option.some.injEq] at h
  obtain ⟨u, hsettle, rfl⟩ := h
  obtain ⟨hmem, hchannel, hopening, hflight, hitems⟩ := settle_ok hsettle
  cases handled with
  | true =>
    obtain ⟨report, hok⟩ := hitems
    obtain ⟨_, _, _, _, _, _, _, hs, _⟩ := sudoTimeout_eq_ok.1 hok
    have hica : u.items.ica = .timeout := by rw [hs]
    have hfee : u.items.registerFee = w.items.registerFee := by rw [hs]
    exact .timeout hmem hica rfl hopening hfee
  | false =>
    have hitems : u.items = w.items := hitems
    refine .kept (congrArg Storage.ica hitems) ?_ hopening ?_ ?_ ?_
    · show (if packet.overIca then none else w.channel) = w.channel ∨ _ = none
      split_ifs
      · exact .inr rfl
      · exact .inl rfl
    · show w.items.registerFee ≠ none → u.items.registerFee ≠ none
      rw [hitems]
      exact id
    · show u.inFlight ≠ [] → _
      rw [hflight]
      exact fun hne => .inl (ne_nil_of_erase hne)
    · rintro _ ⟨⟩

/-- **What a step does to the account.** -/
theorem exec_cases {action : AccountAction} (h : w.exec action = some w') :
    ExecCase w action w' := by
  cases action with
  | message a info env msg seq => exact exec_message h
  | openAck address =>
    simp only [Account.exec, Option.ite_none_right_eq_some, Option.bind_eq_bind,
      Option.bind_eq_some_iff, toOption_eq_some, Option.some.injEq] at h
    obtain ⟨⟨hopening, -⟩, s, hack, rfl⟩ := h
    simp only [sudoOpenAck, orError, ok_bind, pure_eq_ok, Except.ok.injEq] at hack
    subst hack
    exact .openAck hopening rfl rfl rfl rfl
  | response packet handled =>
    refine kept_of_settle (by rintro _ ⟨⟩) ?_ h
    intro s report hok
    obtain ⟨_, _, _, _, _, _, _, rfl, _⟩ := sudoResponse_eq_ok.1 hok
    exact ⟨rfl, rfl⟩
  | error packet details handled =>
    refine kept_of_settle (by rintro _ ⟨⟩) ?_ h
    intro s report hok
    obtain ⟨_, _, _, _, _, _, _, rfl, _⟩ := sudoError_eq_ok.1 hok
    exact ⟨rfl, rfl⟩
  | timeout packet handled => exact exec_timeout h
  | kvQueryResult env queryId result =>
    simp only [Account.exec, Option.bind_eq_bind, Option.bind_eq_some_iff, toOption_eq_some,
      Option.some.injEq] at h
    obtain ⟨s, hresult, rfl⟩ := h
    obtain ⟨snapshot, rewards, hitems⟩ := sudoKvQueryResult_toStorage hresult
    have hica : s.ica = w.items.ica := by rw [hitems]; rfl
    have hfee : s.registerFee = w.items.registerFee := by rw [hitems]; rfl
    exact .kept hica (.inl rfl) rfl (fun h => hfee.trans_ne h) .inl (by rintro _ ⟨⟩)
  | txQueryResult transfers =>
    simp only [Account.exec, Option.bind_eq_bind, Option.bind_eq_some_iff, toOption_eq_some,
      Option.some.injEq] at h
    obtain ⟨s, hresult, rfl⟩ := h
    have hitems := sudoTxQueryResult_toStorage hresult
    have hica : s.ica = w.items.ica := by rw [hitems]; rfl
    have hfee : s.registerFee = w.items.registerFee := by rw [hitems]; rfl
    exact .kept hica (.inl rfl) rfl (fun h => hfee.trans_ne h) .inl (by rintro _ ⟨⟩)

end Steps

/-! ## Runs -/

section Runs

variable {w w' : Account} {action : AccountAction}

/-- While the channel of the account is open, the account is registered with its address. -/
def ChannelRegistered (w : Account) : Prop :=
  ∀ address, w.channel = some address → w.items.ica = .registered address

/-- Once the account was to be registered or a packet was sent, the fee of a registration is set. -/
def FeeSet (w : Account) : Prop :=
  w.items.ica ≠ .none ∨ w.opening = true ∨ w.inFlight ≠ [] → w.items.registerFee ≠ none

/-- A step without the timeout of a transfer keeps the account of an open channel registered. -/
theorem channelRegistered_step (hok : NoTransferTimeout w action) (hstep : AccountStep w action w')
    (h : ChannelRegistered w) : ChannelRegistered w' := by
  intro address haddress
  cases exec_cases hstep with
  | kept hica hchannel _ _ _ _ =>
    rw [hica]
    obtain hsame | hclosed := hchannel
    · exact h address (hsame ▸ haddress)
    · rw [hclosed] at haddress
      cases haddress
  | register _ _ hchannel _ _ =>
    rw [hchannel] at haddress
    cases haddress
  | openAck _ hica hchannel _ _ =>
    rw [hchannel] at haddress
    rw [hica, Option.some.inj haddress]
  | @timeout packet _ _ _ hchannel _ _ =>
    rw [hchannel] at haddress
    split_ifs at haddress with hover
    obtain hica | hica := hok rfl
    · exact absurd hica hover
    · have hregistered := h address haddress
      rw [hica] at hregistered
      cases hregistered

/-- Every step keeps the fee of a registration. -/
theorem feeSet_step (hstep : AccountStep w action w') (h : FeeSet w) : FeeSet w' := by
  intro hstarted
  cases exec_cases hstep with
  | kept hica _ hopening hfee hflight _ =>
    refine hfee (h ?_)
    obtain hne | hopen | hsent := hstarted
    · exact .inl (hica ▸ hne)
    · exact .inr (.inl (hopening ▸ hopen))
    · obtain hsent | ⟨address, hregistered⟩ := hflight hsent
      · exact .inr (.inr hsent)
      · exact .inl (by rw [hregistered]; nofun)
  | register _ _ _ hfee _ => exact hfee
  | openAck hopening _ _ hfee _ =>
    rw [hfee]
    exact h (.inr (.inl hopening))
  | timeout hmem _ _ _ hfee =>
    rw [hfee]
    exact h (.inr (.inr (List.ne_nil_of_mem hmem)))

/-- The account is not registered at first. -/
theorem instantiateFull_ica {addrValidate : String → Bool} {config : Config} {s : FullStorage}
    (h : instantiateFull addrValidate config = .ok s) : s.ica = .none := by
  simp only [instantiateFull, bind_eq_ok, pure_eq_ok, Except.ok.injEq] at h
  obtain ⟨_, _, _, _, _, _, rfl⟩ := h
  rfl

/-- **A step keeps the account exactly when it is not the timeout of a transfer.** -/
theorem stepKeeps_iff (hstep : AccountStep w action w') :
    StepKeeps w action w' ↔ NoTransferTimeout w action := by
  constructor
  · intro h
    cases action with
    | timeout packet handled =>
      intro hhandled
      subst hhandled
      cases exec_cases hstep with
      | kept _ _ _ _ _ hnot => exact absurd rfl (hnot packet)
      | register _ _ _ _ hnot => exact absurd rfl (hnot packet true)
      | timeout _ hica _ _ _ =>
        cases hover : packet.overIca with
        | true => exact .inl rfl
        | false => exact .inr ((h.transfer packet true rfl hover).symm.trans hica)
    | _ => exact trivial
  · intro hok
    cases exec_cases hstep with
    | kept hica _ _ _ _ _ =>
      refine ⟨fun address hregistered hleft => ?_, fun _ _ _ _ => hica⟩
      exact absurd (hica.trans hregistered) (hleft address)
    | register hica _ _ _ hnot =>
      refine ⟨fun address hregistered => ?_, fun packet handled haction => ?_⟩
      · obtain hica | hica := hica <;> rw [hica] at hregistered <;> cases hregistered
      · exact absurd haction (hnot packet handled)
    | @openAck address _ _ hica _ _ _ =>
      exact ⟨fun _ _ hleft => absurd hica (hleft address), fun _ _ => nofun⟩
    | @timeout packet _ _ hica _ _ _ =>
      constructor
      · intro address hregistered _
        obtain hover | htimeout := hok rfl
        · exact ⟨packet, true, rfl, hover⟩
        · rw [htimeout] at hregistered
          cases hregistered
      · rintro _ _ ⟨⟩ hover
        obtain hover' | htimeout := hok rfl
        · rw [hover] at hover'
          cases hover'
        · rw [hica, htimeout]

end Runs

/-! ## Every request, and the account after a timeout -/

section Requests

variable {s : Storage} {addrValidate : String → Bool} {info : MessageInfo} {env : Env}

/-- A call that sends something returns exactly when what it is made of does. -/
theorem exists_sending {x : Result (Storage × NeutronMsg)} :
    (∃ r, sending x = .ok r) ↔ ∃ t m, x = .ok (t, m) := by
  simp only [sending, bind_eq_ok, pure_eq_ok]
  constructor
  · rintro ⟨_, ⟨t, m⟩, hx, -⟩
    exact ⟨t, m, hx⟩
  · rintro ⟨t, m, hx⟩
    exact ⟨_, (t, m), hx, rfl⟩

/-- A submission that returns with one address of the account returns with every other. -/
theorem submitTx_registered {anyMsgs anyMsgs' : String → List RemoteMsg}
    {transaction transaction' : Transaction} {timeout : Option ℕ} {replyTo other address : String}
    (h : ∃ r, sending (submitTx { s with ica := .registered other } addrValidate info anyMsgs
      transaction timeout replyTo) = .ok r) :
    ∃ r, sending (submitTx { s with ica := .registered address } addrValidate info anyMsgs'
      transaction' timeout replyTo) = .ok r := by
  obtain ⟨t, m, h⟩ := exists_sending.1 h
  obtain ⟨haddr, hsender, hidle, _, fee, -, hfee, -, -⟩ := submitTx_eq_ok.1 h
  exact exists_sending.2 ⟨_, _, submitTx_eq_ok.2
    ⟨haddr, hsender, hidle, address, fee, rfl, hfee, rfl, rfl⟩⟩

/-- **A request that returns with one address of the account returns with every other.** -/
theorem execute_registered {msg : PuppeteerExecuteMsg} {other address : String}
    (h : ∃ r, execute { s with ica := .registered other } addrValidate info env msg = .ok r) :
    ∃ r, execute { s with ica := .registered address } addrValidate info env msg = .ok r := by
  cases msg with
  | registerICA =>
    obtain ⟨t, m, h⟩ := exists_sending.1 h
    simp only [executeRegisterIca, bind_eq_ok] at h
    obtain ⟨_, -, h⟩ := h
    cases h
  | setFees recvFee ackFee timeoutFee registerFee =>
    obtain ⟨⟨t, m⟩, h⟩ := h
    simp only [execute, silently, executeSetFees, bind_eq_ok, ensure_eq_ok] at h
    obtain ⟨_, ⟨-, howner, -⟩, -⟩ := h
    refine ⟨({ s with
      ica := .registered address
      ibcFee := some ⟨recvFee, ackFee, timeoutFee⟩
      registerFee := some ⟨LOCAL_DENOM, registerFee⟩ }, none), ?_⟩
    simp only [execute, silently, executeSetFees, bind_eq_ok, ensure_eq_ok, pure_eq_ok]
    exact ⟨_, ⟨(), howner, rfl⟩, rfl⟩
  | delegate items timeout replyTo => exact submitTx_registered h
  | undelegate items batchId timeout replyTo => exact submitTx_registered h
  | redelegate validatorFrom validatorTo amount timeout replyTo => exact submitTx_registered h
  | tokenizeShare validator amount timeout replyTo => exact submitTx_registered h
  | transfer items timeout replyTo => exact submitTx_registered h
  | claimRewardsAndOptionalyTransfer validators payout timeout replyTo =>
    exact submitTx_registered h
  | redeemShares items timeout replyTo =>
    obtain ⟨t, m, h⟩ := exists_sending.1 h
    refine exists_sending.2 ?_
    simp only [executeRedeemShares, composeSubmsg, bind_eq_ok, validateTxState_eq_ok,
      getAddress_eq_ok, orError_eq_ok, pure_eq_ok, Except.ok.injEq] at h ⊢
    obtain ⟨_, haddr, _, hidle, _, hsender, _, -, fee, hfee, -⟩ := h
    exact ⟨_, _, (), haddr, (), hidle, (), hsender, address, rfl, fee, hfee, rfl⟩
  | ibcTransfer timeout reason replyTo =>
    obtain ⟨t, m, h⟩ := exists_sending.1 h
    refine exists_sending.2 ?_
    simp only [executeIbcTransfer, bind_eq_ok, validateTxState_eq_ok, onlyCoin_eq_ok,
      getAddress_eq_ok, orError_eq_ok, pure_eq_ok, Except.ok.injEq] at h ⊢
    obtain ⟨_, hsender, _, hidle, coin, hcoin, _, -, time, htime, fee, hfee, -⟩ := h
    exact ⟨_, _, (), hsender, (), hidle, coin, hcoin, address, rfl, time, htime, fee, hfee, rfl⟩

end Requests

section Main

variable {w w' : Account}

/-- The registration is accepted after a timeout, and the channel is being opened. -/
theorem exec_registerICA (hica : w.items.ica = .timeout) (hchannel : w.channel = none) {fee : Coin}
    (hfee : w.items.registerFee = some fee) (a : Addresses) (info : MessageInfo) (env : Env)
    (seq : ℕ) : w.exec (.message a info env (.request .registerICA) seq) =
      some { w.withItems { w.items with ica := .inProgress } with opening := true } := by
  have hregister : executeRegisterIca w.items = .ok ({ w.items with ica := .inProgress },
      .registerInterchainAccount w.items.config.connectionId ICA_ID fee) := by
    simp only [executeRegisterIca, hfee, orError, ok_bind, hica, pure_eq_ok]
  have hexecute : executeFull w.contract.puppeteer a info env (.request .registerICA) =
      .ok ({ w.contract.puppeteer with toStorage := { w.items with ica := .inProgress } },
        [.neutron (.registerInterchainAccount w.items.config.connectionId ICA_ID fee)]) := by
    simp only [executeFull, execute, sending]
    rw [show executeRegisterIca w.contract.puppeteer.toStorage = _ from hregister]
    rfl
  simp only [Account.exec, hexecute, Except.toOption, Option.bind_eq_bind, Option.bind_some,
    Account.send, Account.submit, if_pos hchannel]
  rfl

/-- The channel opens, and its address is stored. -/
theorem exec_openAck (hopening : w.opening = true) (hchannel : w.channel = none)
    (address : String) : w.exec (.openAck address) =
      some { w.withItems { w.items with ica := .registered address } with
        channel := some address
        opening := false } := by
  simp only [Account.exec, if_pos (And.intro hopening hchannel)]
  rfl

/-- After the timeout of a packet on its channel, the account can be registered again. -/
theorem registersAgain_of_feeSet (hfee : FeeSet w) {packet : Packet}
    (hover : packet.overIca = true) (hstep : w.exec (.timeout packet true) = some w')
    (a : Addresses) (info : MessageInfo) (env : Env) (seq : ℕ) (address : String) : ∃ w₁ w₂,
      w'.exec (.message a info env (.request .registerICA) seq) = some w₁ ∧
      w₁.exec (.openAck address) = some w₂ ∧ getAddress w₂.items.ica = .ok address := by
  obtain ⟨hica, hchannel⟩ : w'.items.ica = .timeout ∧ w'.channel = none := by
    cases exec_cases hstep with
    | kept _ _ _ _ _ hnot => exact absurd rfl (hnot packet)
    | register _ _ _ _ hnot => exact absurd rfl (hnot packet true)
    | timeout _ hica hchannel _ _ => exact ⟨hica, by rw [hchannel, hover, if_pos rfl]⟩
  have hset : w'.items.registerFee ≠ none := feeSet_step hstep hfee (.inl (by rw [hica]; nofun))
  obtain ⟨fee, hfee'⟩ := Option.ne_none_iff_exists'.1 hset
  refine ⟨_, _, exec_registerICA hica hchannel hfee' a info env seq, exec_openAck ?_ ?_ address, ?_⟩
  · rfl
  · exact hchannel
  · rfl

/-- What is kept of the account in a state where the two invariants hold. -/
theorem accountKeeps_of_invariants (hregistered : ChannelRegistered w) (hfee : FeeSet w) :
    AccountKeeps w where
  registered address haddress := getAddress_eq_ok.2 (hregistered address haddress)
  accepts address haddress addrValidate info env msg := by
    rintro ⟨other, h⟩
    have haccepted : ∃ r, execute { w.items with ica := .registered address } addrValidate info env
        msg = .ok r := execute_registered h
    obtain ⟨r, hr⟩ := haccepted
    rw [← hregistered address haddress] at hr
    exact ⟨r, hr⟩
  registersAgain _ _ hover hstep := registersAgain_of_feeSet hfee hover hstep

end Main

/-! ## Two runs -/

/-- A configuration with one allowed sender. -/
def accountConfig : Config where
  connectionId := "connection-0"
  portId := "transfer"
  updatePeriod := 100
  remoteDenom := "uatom"
  owner := "owner"
  allowedSenders := ["core"]
  proxyAddress := none
  transferChannelId := "channel-0"
  sdkVersion := "0.47.10"

/-- The storage after `instantiate` with this configuration. -/
def accountStorage : FullStorage :=
  { instantiate accountConfig with
    cwOwner := "owner"
    kvQueries := StorageMap.empty
    unbondingDelegations := StorageMap.empty
    unbondingDelegationsReplyIdStorage := StorageMap.empty
    recipientTransfers := [] }

/-- A message of `sender` with the attached coins, with packet number `seq`. -/
def accountMessage (sender : String) (funds : List Coin) (msg : PuppeteerExecuteMsg) (seq : ℕ) :
    AccountAction :=
  .message ⟨fun _ => true, fun _ => true⟩ ⟨sender, funds⟩
    ⟨10, ⟨1700000000000000000⟩, "puppeteer"⟩ (.request msg) seq

/-- The account is registered, and the packet of a transfer is sent. -/
def transferActions : List AccountAction := [
  accountMessage "owner" [] (.setFees 1 2 3 4) 0,
  accountMessage "anyone" [] .registerICA 0,
  .openAck "ica",
  accountMessage "core" [⟨"ibc/uatom", 100⟩] (.ibcTransfer 600 .stake "core") 7]

/-- A transfer that arrives, then a delegation that times out, and a new registration. -/
def timeoutActions : List AccountAction := transferActions ++ [
  .response ⟨7, false⟩ true,
  accountMessage "core" [] (.delegate [("valoper", 100)] none "core") 8,
  .timeout ⟨8, true⟩ true,
  accountMessage "anyone" [] .registerICA 0,
  .openAck "ica2"]

end Puppeteer

end DropContracts
