import DropContracts.Base.Run
import DropContracts.Puppeteer.Queries
import DropContracts.Puppeteer.ReplyIds

set_option relaxedAutoImplicit false
set_option autoImplicit false

/-!
# Replies to the messages that register queries

The entry points of `contracts/puppeteer/src/contract.rs` with the ids of the replies as they are
sent: a message returns its submessages, each with the id of its reply, and `reply` finds out from
the id what to do with the outcome. Until its reply the validator of a query for an unbonding
delegation waits in a map of its own, under its index as a `u16`.

A submessage that fails makes the whole call fail, and so does a reply that does; a call that
returns has received all of its replies.

## Main definitions

* `Puppeteer.Replies.SubMsg`, `Puppeteer.Replies.Reply` — a message with the id of its reply, and a
  reply with its id.
* `Puppeteer.Replies.execute`, `Puppeteer.Replies.reply` — the two entry points.
* `Puppeteer.Replies.Call`, `Puppeteer.Replies.exec` — the calls of the contract, each with its
  replies.

## Main results

* `Puppeteer.Replies.execute_eq_executeFull`, `Puppeteer.Replies.reply_eq_replyIcq` — the entry
  points are those of the model in which a message carries what its reply is for.
* `Puppeteer.Replies.registerUnbondingDelegationsQuery_eq_ok` — when the queries for the unbonding
  delegations are registered, and what is sent.
-/

namespace DropContracts

namespace Puppeteer

namespace Replies

open Exec Icq

/-! ## Messages with the ids of their replies -/

/-- A message to the chain. -/
inductive ChainMsg where
  | neutron (msg : NeutronMsg)
  | registerQuery (connectionId : String) (keys : List KVKey) (updatePeriod : ℕ)
  | updateQuery (queryId : ℕ) (keys : List KVKey)
  | registerTransfersQuery (connectionId recipient : String) (updatePeriod : ℕ)
  deriving DecidableEq, Repr

/-- A message with the id of its reply, if it is sent with `SubMsg::reply_on_success`. -/
structure SubMsg where
  msg : ChainMsg
  replyId : Option ℕ
  deriving DecidableEq, Repr

/-- What the reply to a query is for, with the index as a `u16`. -/
def ReplyMsg.ofIcq : Icq.ReplyMsg → ReplyMsg
  | .kvDelegationsAndBalance => .kvDelegationsAndBalance
  | .kvNonNativeRewardsBalances => .kvNonNativeRewardsBalances
  | .kvUnbondingDelegations validatorIndex =>
    .kvUnbondingDelegations (UInt16.ofNat validatorIndex)

/-- A message as it is sent. Packets are replied to with their sequence number, and new queries with
their id. -/
def SubMsg.ofOutgoing : Outgoing → SubMsg
  | .neutron msg => ⟨.neutron msg, if msg.isPacket then some (toReplyId .sudoPayload) else none⟩
  | .icq (.register connectionId keys updatePeriod reply) =>
    ⟨.registerQuery connectionId keys updatePeriod, some (toReplyId (.ofIcq reply))⟩
  | .icq (.update queryId keys) => ⟨.updateQuery queryId keys, none⟩
  | .icq (.registerTransfers connectionId recipient updatePeriod) =>
    ⟨.registerTransfersQuery connectionId recipient updatePeriod, none⟩

section Messages

variable (s : FullStorage) (a : Addresses) (info : MessageInfo)

/-- The record of a validator whose query has no id yet. -/
def waitingFor (validator : String) : UnbondingDelegation := ⟨validator, 0, [], 0⟩

/-- The loop of `register_unbonding_delegations_query` from the position `i` on, which is cast to a
`u16` for the key and for the id of the reply. -/
def registerUnbonding (decodes : String → Bool) (delegator : String) :
    FullStorage → ℕ → List String → FullResult (FullStorage × List SubMsg)
  | s, _, [] => .ok (s, [])
  | s, i, v :: validators => do
    let s := { s with
      unbondingDelegationsReplyIdStorage :=
        s.unbondingDelegationsReplyIdStorage.save (UInt16.ofNat i).toNat (waitingFor v) }
    let keys ← (unbondingKeys decodes delegator v).mapError .icq
    let (t, msgs) ← registerUnbonding decodes delegator s (i + 1) validators
    return (t, ⟨.registerQuery s.config.connectionId keys s.config.updatePeriod,
      some (toReplyId (.kvUnbondingDelegations (UInt16.ofNat i)))⟩ :: msgs)

/-- `register_unbonding_delegations_query`. -/
def registerUnbondingDelegationsQuery (validators : List String) :
    FullResult (FullStorage × List SubMsg) := do
  assertOwner s info
  ensure (validators.length < 65535)
    (.contract (.std (.genericErr "Too many validators provided")))
  let delegator ← s.icaAddress
  registerUnbonding a.decodes delegator s 0 validators

/-- `execute`. -/
def execute (env : Env) : FullMsg → FullResult (FullStorage × List SubMsg)
  | .registerDelegatorUnbondingDelegationsQuery validators =>
    registerUnbondingDelegationsQuery s a info validators
  | msg => do
    let (s, out) ← executeFull s a info env msg
    return (s, out.map SubMsg.ofOutgoing)

end Messages

/-! ## Replies -/

/-- The data of a response, as its readers parse it: as a `MsgRegisterInterchainQueryResponse`, and
as a `MsgSubmitTxResponse` or `MsgIbcTransferResponse`, which have the same fields. -/
structure ReplyData where
  queryId : Except String ℕ
  sequenceId : Except String ℕ

/-- The outcome of a submessage. -/
inductive Outcome where
  | ok (data : Option ReplyData)
  | err (error : String)

/-- The outcome with the data as one reader parses it. -/
def Outcome.readAs (reader : ReplyData → Except String ℕ) : Outcome → SubMsgResult
  | .ok data => .ok (data.map reader)
  | .err error => .err error

/-- `Reply`. -/
structure Reply where
  id : ℕ
  result : Outcome

section Replying

variable (s : FullStorage) (result : Outcome)

/-- The number in the data of a response, with the error of the standard library. -/
def responseNumber (reader : ReplyData → Except String ℕ) : FullResult ℕ :=
  (getQueryId (result.readAs reader)).mapError fun e => .contract (.std e)

/-- `submit_tx_reply` and `submit_ibc_transfer_reply`, which do the same. The data is taken apart
with the same errors as by `get_query_id`. -/
def submitTxReply : FullResult FullStorage := do
  let seq ← responseNumber result ReplyData.sequenceId
  let t ← (Puppeteer.submitTxReply s.toStorage seq).mapError .contract
  return { s with toStorage := t }

/-- `register_kv_query_reply`. -/
def registerKvQueryReply (queryType : KVQueryType) : FullResult FullStorage := do
  let queryId ← responseNumber result ReplyData.queryId
  return { s with kvQueries := s.kvQueries.save queryId queryType }

/-- `IndexedMap::save` on the records: the index on the id of the query is unique. -/
def saveUnbondingDelegation (records : StorageMap String UnbondingDelegation)
    (record : UnbondingDelegation) : FullResult (StorageMap String UnbondingDelegation) := do
  ensure (∀ e ∈ records.entries, e.1 ≠ record.validatorAddress → e.2.queryId ≠ record.queryId)
    (.contract (.std (.genericErr "Violates unique constraint on index")))
  return records.save record.validatorAddress record

/-- `register_unbonding_delegations_query_reply`. -/
def registerUnbondingDelegationsQueryReply (validatorIndex : UInt16) (queryType : KVQueryType) :
    FullResult FullStorage := do
  let waiting ← orError (s.unbondingDelegationsReplyIdStorage.load validatorIndex.toNat)
    (.contract (.std (.notFound "UnbondingDelegation")))
  let queryId ← responseNumber result ReplyData.queryId
  let records ← saveUnbondingDelegation s.unbondingDelegations { waiting with queryId := queryId }
  return { s with
    unbondingDelegationsReplyIdStorage :=
      s.unbondingDelegationsReplyIdStorage.remove validatorIndex.toNat
    unbondingDelegations := records
    kvQueries := s.kvQueries.save queryId queryType }

/-- `reply`, for what the id is read as. -/
def replyTo : ReplyMsg → FullResult FullStorage
  | .sudoPayload => submitTxReply s result
  | .ibcTransfer => submitTxReply s result
  | .kvDelegationsAndBalance => registerKvQueryReply s result .delegationsAndBalance
  | .kvNonNativeRewardsBalances => registerKvQueryReply s result .nonNativeRewardsBalances
  | .kvUnbondingDelegations validatorIndex =>
    registerUnbondingDelegationsQueryReply s result validatorIndex .unbondingDelegations

/-- `reply`. An id that cannot be read is unreachable code. -/
def reply (msg : Reply) : FullResult FullStorage :=
  match fromReplyId msg.id with
  | some kind => replyTo s msg.result kind
  | none => abort

end Replying

/-- Replies, one after the other. -/
def deliver (s : FullStorage) (replies : List Reply) : Option FullStorage :=
  replies.foldlM (fun s msg => (reply s msg).toOption) s

/-! ## Calls -/

/-- What the contract is called with: a message of some account, with the outcomes of those of its
submessages that are replied to; the end of a packet; the opening of the channel; the result of a
query. -/
inductive Call where
  | message (a : Addresses) (info : MessageInfo) (env : Env) (msg : FullMsg)
      (outcomes : List Outcome)
  | response (seq : ℕ)
  | error (seq : ℕ) (details : String)
  | timeout (seq : ℕ)
  | openAck (address : Option String)
  | kvQueryResult (env : Env) (queryId : ℕ) (result : KvResult)
  | txQueryResult (transfers : List Transfer)

/-- The replies to submessages, for the given outcomes. -/
def repliesTo (msgs : List SubMsg) (outcomes : List Outcome) : List Reply :=
  List.zipWith Reply.mk (msgs.filterMap SubMsg.replyId) outcomes

/-- A call, with all of its replies. -/
def exec (s : FullStorage) : Call → Option FullStorage
  | .message a info env msg outcomes => do
    let (t, msgs) ← (execute s a info env msg).toOption
    if outcomes.length = (msgs.filterMap SubMsg.replyId).length then
      deliver t (repliesTo msgs outcomes)
    else none
  | .response seq =>
    (sudoResponse s.toStorage seq).toOption.map fun out => { s with toStorage := out.1 }
  | .error seq details =>
    (sudoError s.toStorage seq details).toOption.map fun out => { s with toStorage := out.1 }
  | .timeout seq =>
    (sudoTimeout s.toStorage seq).toOption.map fun out => { s with toStorage := out.1 }
  | .openAck address =>
    (sudoOpenAck s.toStorage address).toOption.map fun t => { s with toStorage := t }
  | .kvQueryResult env queryId result => (sudoKvQueryResult s env queryId result).toOption
  | .txQueryResult transfers => (sudoTxQueryResult s transfers).toOption

/-- A call that returns. -/
def CallStep (s : FullStorage) (call : Call) (t : FullStorage) : Prop := exec s call = some t

/-! ## The model with what a reply is for -/

section Refinement

variable {s : FullStorage} {a : Addresses} {info : MessageInfo} {env : Env}

/-- A position that fits a `u16` is kept by the cast. -/
theorem toNat_ofNat {i : ℕ} (hi : i < 65536) : (UInt16.ofNat i).toNat = i :=
  UInt16.toNat_ofNat_of_lt' hi

/-- The loop stores the positions themselves, as long as they fit a `u16`. -/
theorem registerUnbonding_eq {decodes : String → Bool} {delegator : String} {i : ℕ}
    {validators : List String} (hfits : i + validators.length ≤ 65536) :
    registerUnbonding decodes delegator s i validators =
      (Puppeteer.registerUnbonding decodes delegator s i validators).map
        fun r => (r.1, (r.2.map Outgoing.icq).map SubMsg.ofOutgoing) := by
  induction validators generalizing s i with
  | nil => rfl
  | cons v validators ih =>
    rw [List.length_cons] at hfits
    unfold registerUnbonding Puppeteer.registerUnbonding
    rw [toNat_ofNat (by omega)]
    cases (unbondingKeys decodes delegator v).mapError FullError.icq with
    | error e => rfl
    | ok keys =>
      simp only [ok_bind, ih (show i + 1 + validators.length ≤ 65536 by omega)]
      rw [waitingFor]
      cases hrest : Puppeteer.registerUnbonding decodes delegator _ (i + 1) validators with
      | error e => rfl
      | ok r =>
        obtain ⟨t, msgs⟩ := r
        have hsame := registerUnbonding_toStorage hrest
        have hconfig : t.config = s.config := congrArg Storage.config hsame
        simp only [Except.map, ok_bind, pure_eq_ok, hconfig]
        rfl

/-- **A message is sent as it is meant**: the submessages carry the ids of the replies that the
messages of the model carry. -/
theorem execute_eq_executeFull (msg : FullMsg) :
    execute s a info env msg =
      (executeFull s a info env msg).map fun r => (r.1, r.2.map SubMsg.ofOutgoing) := by
  have hmap : ∀ {α β : Type} (x : FullResult α) (f : α → β),
      (x >>= fun r => (pure (f r) : FullResult β)) = x.map f := by
    intro α β x f
    cases x <;> rfl
  cases msg with
  | registerDelegatorUnbondingDelegationsQuery validators =>
    simp only [execute, executeFull, registerUnbondingDelegationsQuery,
      Puppeteer.registerUnbondingDelegationsQuery]
    cases assertOwner s info with
    | error e => rfl
    | ok _ =>
      by_cases hlength : validators.length < 65535
      · simp only [ok_bind, ensure, if_pos hlength]
        cases s.icaAddress with
        | error e => rfl
        | ok delegator =>
          simp only [ok_bind]
          rw [registerUnbonding_eq (by omega)]
          cases Puppeteer.registerUnbonding a.decodes delegator s 0 validators with
          | error e => rfl
          | ok r => rfl
      · simp only [ok_bind, ensure, if_neg hlength]
        rfl
  | request msg => exact hmap _ _
  | registerQuery => exact hmap _ _
  | registerBalanceAndDelegatorDelegationsQuery validators => exact hmap _ _
  | registerNonNativeRewardsBalancesQuery denoms => exact hmap _ _
  | updateConfig newConfig => exact hmap _ _

/-- **A reply is received as it is meant**: the id of a query that no record has yet is stored as
the model stores it. -/
theorem reply_eq_replyIcq {kind : Icq.ReplyMsg} {result : Outcome} {queryId : ℕ}
    (hindex : ∀ i, kind = .kvUnbondingDelegations i → i < 65536)
    (hresult : result.readAs ReplyData.queryId = .ok (some (.ok queryId)))
    (hnew : ∀ e ∈ s.unbondingDelegations.entries, e.2.queryId ≠ queryId) :
    reply s ⟨toReplyId (.ofIcq kind), result⟩ = replyIcq s queryId kind := by
  have hnumber : responseNumber result ReplyData.queryId = .ok queryId := by
    rw [responseNumber, hresult]
    rfl
  unfold reply
  rw [fromReplyId_toReplyId]
  cases kind with
  | kvDelegationsAndBalance =>
    show registerKvQueryReply s result .delegationsAndBalance = _
    rw [registerKvQueryReply, hnumber]
    rfl
  | kvNonNativeRewardsBalances =>
    show registerKvQueryReply s result .nonNativeRewardsBalances = _
    rw [registerKvQueryReply, hnumber]
    rfl
  | kvUnbondingDelegations i =>
    show registerUnbondingDelegationsQueryReply s result (UInt16.ofNat i) .unbondingDelegations = _
    rw [registerUnbondingDelegationsQueryReply, replyIcq, toNat_ofNat (hindex i rfl), hnumber]
    cases s.unbondingDelegationsReplyIdStorage.load i with
    | none => rfl
    | some waiting =>
      have hsave : ∀ record : UnbondingDelegation, record.queryId = queryId →
          saveUnbondingDelegation s.unbondingDelegations record =
            .ok (s.unbondingDelegations.save record.validatorAddress record) := by
        intro record hrecord
        rw [saveUnbondingDelegation, ensure, if_pos fun e he _ => hrecord ▸ hnew e he]
        rfl
      simp only [orError, ok_bind]
      rw [hsave _ rfl]
      rfl

end Refinement

/-! ## What a registration sends -/

section Registration

variable {s t : FullStorage} {a : Addresses} {info : MessageInfo} {env : Env}
  {validators : List String} {msgs : List SubMsg} {i : ℕ}

/-- The waiting validators after those of a list, each under its position from `i` on. -/
def waitFrom (waiting : StorageMap ℕ UnbondingDelegation) (i : ℕ) :
    List String → StorageMap ℕ UnbondingDelegation
  | [] => waiting
  | v :: validators => waitFrom (waiting.save i (waitingFor v)) (i + 1) validators

/-- The submessage for the validator at a position. -/
def registration (config : Config) (delegator : String) (p : String × ℕ) : SubMsg :=
  ⟨.registerQuery config.connectionId [.unbondingDelegation delegator p.1] config.updatePeriod,
    some (toReplyId (.kvUnbondingDelegations (UInt16.ofNat p.2)))⟩

/-- The ids of the replies to the positions from `i` on. -/
def replyIds (i n : ℕ) : List ℕ :=
  (List.range' i n).map fun j => toReplyId (.kvUnbondingDelegations (UInt16.ofNat j))

/-- The validator that waits under a position. -/
theorem load_waitFrom {waiting : StorageMap ℕ UnbondingDelegation} (j : ℕ) :
    (waitFrom waiting i validators).load j =
      if i ≤ j ∧ j < i + validators.length then (validators[j - i]?).map waitingFor
      else waiting.load j := by
  induction validators generalizing waiting i with
  | nil => rw [waitFrom, if_neg (by simp)]
  | cons v validators ih =>
    rw [waitFrom, ih, StorageMap.load_save, List.length_cons]
    obtain hlt | rfl | hgt := Nat.lt_trichotomy j i
    · rw [if_neg (by omega), if_neg (by omega), if_neg (by omega)]
    · rw [if_neg (by omega), if_pos rfl, if_pos (by omega), Nat.sub_self, List.getElem?_cons_zero]
      rfl
    · by_cases hin : j < i + 1 + validators.length
      · have hsub : j - i = j - (i + 1) + 1 := by omega
        rw [if_pos (by omega), if_pos (by omega), hsub, List.getElem?_cons_succ]
      · rw [if_neg (by omega), if_neg (by omega), if_neg (by omega)]

/-- The submessages of a registration are all replied to. -/
theorem filterMap_replyId (config : Config) (delegator : String) (i : ℕ)
    (validators : List String) :
    ((validators.zipIdx i).map (registration config delegator)).filterMap SubMsg.replyId =
      replyIds i validators.length := by
  rw [List.filterMap_map, replyIds, ← List.zipIdx_map_snd i validators, List.map_map,
    ← List.filterMap_eq_map]
  rfl

/-- **What the loop returns**: the validators wait under their positions, and there is one query for
each of them. -/
theorem registerUnbonding_eq_ok {decodes : String → Bool} {delegator : String}
    (hfits : i + validators.length ≤ 65536) :
    registerUnbonding decodes delegator s i validators = .ok (t, msgs) ↔
      (∀ v ∈ validators, decodes delegator = true ∧ decodes v = true) ∧
      t = { s with
        unbondingDelegationsReplyIdStorage :=
          waitFrom s.unbondingDelegationsReplyIdStorage i validators } ∧
      msgs = (validators.zipIdx i).map (registration s.config delegator) := by
  induction validators generalizing s i msgs with
  | nil =>
    simp only [registerUnbonding, Except.ok.injEq, Prod.mk.injEq]
    constructor
    · rintro ⟨rfl, rfl⟩
      exact ⟨by simp, rfl, rfl⟩
    · rintro ⟨-, rfl, rfl⟩
      exact ⟨rfl, rfl⟩
  | cons v validators ih =>
    rw [List.length_cons] at hfits
    simp only [registerUnbonding, bind_eq_ok, mapError_eq_ok, pure_eq_ok, Except.ok.injEq,
      Prod.mk.injEq, unbondingKeys, decodeAndConvert, ensure_eq_ok, List.forall_mem_cons]
    rw [toNat_ofNat (by omega)]
    constructor
    · rintro ⟨keys, ⟨-, hdelegator, -, hv, rfl⟩, ⟨u, rest⟩, hloop, rfl, rfl⟩
      obtain ⟨hdecodes, rfl, rfl⟩ := (ih (by omega)).1 hloop
      exact ⟨⟨⟨hdelegator, hv⟩, hdecodes⟩, rfl, rfl⟩
    · rintro ⟨⟨⟨hdelegator, hv⟩, hdecodes⟩, rfl, rfl⟩
      exact ⟨_, ⟨(), hdelegator, (), hv, rfl⟩, _, (ih (by omega)).2 ⟨hdecodes, rfl, rfl⟩, rfl, rfl⟩

/-- **When the queries are registered**: the owner asks for it, the account has an address, there
are fewer than 65535 validators, and the addresses can be decoded. -/
theorem registerUnbondingDelegationsQuery_eq_ok :
    registerUnbondingDelegationsQuery s a info validators = .ok (t, msgs) ↔
      info.sender = s.cwOwner ∧ validators.length < 65535 ∧
      ∃ delegator, s.icaAddress = .ok delegator ∧
        (∀ v ∈ validators, a.decodes delegator = true ∧ a.decodes v = true) ∧
        t = { s with
          unbondingDelegationsReplyIdStorage :=
            waitFrom s.unbondingDelegationsReplyIdStorage 0 validators } ∧
        msgs = validators.zipIdx.map (registration s.config delegator) := by
  simp only [registerUnbondingDelegationsQuery, assertOwner, bind_eq_ok, ensure_eq_ok]
  constructor
  · rintro ⟨-, howner, -, hlength, delegator, hica, hloop⟩
    exact ⟨howner, hlength, delegator, hica, (registerUnbonding_eq_ok (by omega)).1 hloop⟩
  · rintro ⟨howner, hlength, delegator, hica, hloop⟩
    exact ⟨(), howner, (), hlength, delegator, hica, (registerUnbonding_eq_ok (by omega)).2 hloop⟩

/-- **What a message does to the queries**: only the registration of the queries for the unbonding
delegations touches them before the replies come. -/
theorem execute_frame {msg : FullMsg} (h : execute s a info env msg = .ok (t, msgs)) :
    (∃ items owner, t = { s with toStorage := items, cwOwner := owner }) ∨
    ∃ validators, msg = .registerDelegatorUnbondingDelegationsQuery validators ∧
      registerUnbondingDelegationsQuery s a info validators = .ok (t, msgs) := by
  cases msg with
  | registerDelegatorUnbondingDelegationsQuery validators => exact .inr ⟨validators, rfl, h⟩
  | request msg =>
    simp only [execute, executeFull, bind_eq_ok, pure_eq_ok, Except.ok.injEq, Prod.mk.injEq] at h
    obtain ⟨_, ⟨⟨items, out⟩, -, rfl⟩, rfl, -⟩ := h
    exact .inl ⟨items, s.cwOwner, rfl⟩
  | registerQuery =>
    simp only [execute, executeFull, bind_eq_ok, pure_eq_ok, Except.ok.injEq, Prod.mk.injEq] at h
    obtain ⟨_, ⟨_, -, rfl⟩, rfl, -⟩ := h
    exact .inl ⟨s.toStorage, s.cwOwner, rfl⟩
  | registerBalanceAndDelegatorDelegationsQuery validators =>
    simp only [execute, executeFull, bind_eq_ok, pure_eq_ok, Except.ok.injEq, Prod.mk.injEq] at h
    obtain ⟨_, ⟨_, -, rfl⟩, rfl, -⟩ := h
    exact .inl ⟨s.toStorage, s.cwOwner, rfl⟩
  | registerNonNativeRewardsBalancesQuery denoms =>
    simp only [execute, executeFull, bind_eq_ok, pure_eq_ok, Except.ok.injEq, Prod.mk.injEq] at h
    obtain ⟨_, ⟨_, -, rfl⟩, rfl, -⟩ := h
    exact .inl ⟨s.toStorage, s.cwOwner, rfl⟩
  | updateConfig newConfig =>
    simp only [execute, executeFull, executeUpdateConfig, bind_eq_ok, pure_eq_ok, Except.ok.injEq,
      Prod.mk.injEq] at h
    obtain ⟨_, ⟨_, ⟨-, -, -, -, rfl⟩, rfl⟩, rfl, -⟩ := h
    exact .inl ⟨_, _, rfl⟩

end Registration

end Replies

end Puppeteer

end DropContracts
