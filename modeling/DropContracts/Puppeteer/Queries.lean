import DropContracts.Packages.InterchainQuery
import DropContracts.Puppeteer.Contract

set_option relaxedAutoImplicit false
set_option autoImplicit false

/-!
# The puppeteer and its interchain queries

The rest of `contracts/puppeteer/src/contract.rs` and `packages/puppeteer-base`: the owner and the
configuration, the registered queries with their replies and their results, and the entry point
with all of its messages.

## Main definitions

* `Puppeteer.FullStorage` — the storage items, those of the requests and those of the queries.
* `Puppeteer.FullMsg`, `Puppeteer.executeFull` — the whole entry point.
* `Puppeteer.registerBalanceDelegationsQuery`, `Puppeteer.registerNonNativeRewardsBalancesQuery`,
  `Puppeteer.registerUnbondingDelegationsQuery` — the messages that register queries.
* `Puppeteer.replyIcq` — the reply with the id of a new query.
* `Puppeteer.sudoKvQueryResult`, `Puppeteer.sudoTxQueryResult` — the results.
* `Puppeteer.WithQueries` — the puppeteer together with the query module of the chain.

## Main results

* `Puppeteer.executeFull_cases` — what a message does to the items of the requests.
* `Puppeteer.executeFull_txState` — the transaction state after a message.
* `Puppeteer.replyIcq_toStorage`, `Puppeteer.sudoKvQueryResult_txState` — queries leave the
  transaction state alone.
-/

namespace DropContracts

namespace Puppeteer

open Exec Icq

/-! ## Data -/

/-- The kinds of queries whose results are stored. -/
inductive KVQueryType where
  | unbondingDelegations
  | delegationsAndBalance
  | nonNativeRewardsBalances
  deriving DecidableEq, Repr

/-- An entry of an unbonding delegation. -/
structure UnbondingEntry where
  balance : ℕ
  completionTime : Option Timestamp
  creationHeight : ℕ
  initialBalance : ℕ
  deriving DecidableEq, Repr

/-- The unbonding delegations of one validator, with the query that reads them. -/
structure UnbondingDelegation where
  validatorAddress : String
  queryId : ℕ
  unbondingDelegations : List UnbondingEntry
  lastUpdatedHeight : ℕ
  deriving DecidableEq, Repr

/-- A transfer to the account that a transaction query has found. -/
structure Transfer where
  recipient : String
  sender : String
  denom : String
  amount : String
  deriving DecidableEq, Repr

/-- Every storage item of the contract. -/
structure FullStorage extends Storage where
  cwOwner : String
  kvQueries : StorageMap ℕ KVQueryType
  unbondingDelegations : StorageMap String UnbondingDelegation
  unbondingDelegationsReplyIdStorage : StorageMap ℕ UnbondingDelegation
  recipientTransfers : List Transfer

/-- An update of the configuration. -/
structure ConfigOptional where
  connectionId : Option String
  portId : Option String
  updatePeriod : Option ℕ
  remoteDenom : Option String
  owner : Option String
  allowedSenders : Option (List String)
  proxyAddress : Option String
  transferChannelId : Option String
  sdkVersion : Option String
  deriving DecidableEq, Repr

/-- The update that gives nothing. -/
def ConfigOptional.empty : ConfigOptional where
  connectionId := none
  portId := none
  updatePeriod := none
  remoteDenom := none
  owner := none
  allowedSenders := none
  proxyAddress := none
  transferChannelId := none
  sdkVersion := none

/-- The errors of a message: those of the requests, of the owner check and of the queries. -/
inductive FullError where
  | contract (e : ContractError)
  | ownershipError
  | icq (e : IcqError)
  deriving DecidableEq, Repr

/-- A call of the contract. -/
abbrev FullResult (α : Type) := Exec FullError α

/-- Every message of the contract. -/
inductive FullMsg where
  | request (msg : PuppeteerExecuteMsg)
  | registerQuery
  | registerBalanceAndDelegatorDelegationsQuery (validators : List String)
  | registerDelegatorUnbondingDelegationsQuery (validators : List String)
  | registerNonNativeRewardsBalancesQuery (denoms : List String)
  | updateConfig (newConfig : ConfigOptional)
  deriving DecidableEq, Repr

/-- What a message sends to the chain. -/
inductive Outgoing where
  | neutron (msg : NeutronMsg)
  | icq (msg : IcqMsg)
  deriving DecidableEq, Repr

/-- What the chain answers about addresses: which are valid here, and which can be decoded. -/
structure Addresses where
  addrValidate : String → Bool
  decodes : String → Bool

/-- The storage after `instantiate`. The owner and the allowed senders must be valid. -/
def instantiateFull (addrValidate : String → Bool) (config : Config) : FullResult FullStorage := do
  ensure (addrValidate config.owner = true) (.contract (.std (.genericErr "addr_validate errored")))
  ensure (config.allowedSenders.all addrValidate = true)
    (.contract (.std (.genericErr "addr_validate errored")))
  return {
    instantiate { config with proxyAddress := none } with
    cwOwner := config.owner
    kvQueries := StorageMap.empty
    unbondingDelegations := StorageMap.empty
    unbondingDelegationsReplyIdStorage := StorageMap.empty
    recipientTransfers := [] }

/-! ## Registering queries -/

section Messages

variable (s : FullStorage) (a : Addresses) (info : MessageInfo)

/-- `cw_ownable::assert_owner`. -/
def assertOwner : FullResult Unit := ensure (info.sender = s.cwOwner) .ownershipError

/-- The ids of the registered queries of one kind, in ascending order. -/
def FullStorage.queriesOf (queryType : KVQueryType) : List ℕ :=
  (s.kvQueries.entries.filter fun e => e.2 = queryType).map Prod.fst

/-- The address of the account, as a step of a message. -/
def FullStorage.icaAddress : FullResult String := (getAddress s.ica).mapError .contract

/-- The messages that make the queries of one kind read the given keys: each of them is updated,
and without any a new one is registered. -/
def queryMsgs (queryType : KVQueryType) (keys : List KVKey) (reply : ReplyMsg) : List IcqMsg :=
  let ids := s.queriesOf queryType
  if ids = [] then [.register s.config.connectionId keys s.config.updatePeriod reply]
  else ids.map fun id => .update id keys

/-- `register_balance_delegations_query`. -/
def registerBalanceDelegationsQuery (validators : List String) : FullResult (List IcqMsg) := do
  assertOwner s info
  let ica ← s.icaAddress
  let keys ← (getBalanceAndDelegationsKeys a.decodes ica s.config.remoteDenom validators
    s.config.sdkVersion).mapError .icq
  return queryMsgs s .delegationsAndBalance keys .kvDelegationsAndBalance

/-- `register_non_native_rewards_balances_query`. -/
def registerNonNativeRewardsBalancesQuery (denoms : List String) : FullResult (List IcqMsg) := do
  assertOwner s info
  let ica ← s.icaAddress
  let keys ← (getMultipleBalancesKeys a.decodes ica denoms).mapError .icq
  return queryMsgs s .nonNativeRewardsBalances keys .kvNonNativeRewardsBalances

/-- The keys of the query for the unbonding delegation to one validator. -/
def unbondingKeys (decodes : String → Bool) (delegator validator : String) :
    Exec IcqError (List KVKey) := do
  decodeAndConvert decodes delegator
  decodeAndConvert decodes validator
  return [.unbondingDelegation delegator validator]

/-- The loop of `register_unbonding_delegations_query` from the index `i` on: the validator waits
under its index for the reply. -/
def registerUnbonding (decodes : String → Bool) (delegator : String) :
    FullStorage → ℕ → List String → FullResult (FullStorage × List IcqMsg)
  | s, _, [] => .ok (s, [])
  | s, i, v :: validators => do
    let keys ← (unbondingKeys decodes delegator v).mapError .icq
    let s := { s with
      unbondingDelegationsReplyIdStorage :=
        s.unbondingDelegationsReplyIdStorage.save i ⟨v, 0, [], 0⟩ }
    let (s, msgs) ← registerUnbonding decodes delegator s (i + 1) validators
    return (s, .register s.config.connectionId keys s.config.updatePeriod
      (.kvUnbondingDelegations i) :: msgs)

/-- `register_unbonding_delegations_query`. -/
def registerUnbondingDelegationsQuery (validators : List String) :
    FullResult (FullStorage × List IcqMsg) := do
  assertOwner s info
  ensure (validators.length < 65535)
    (.contract (.std (.genericErr "Too many validators provided")))
  let delegator ← s.icaAddress
  registerUnbonding a.decodes delegator s 0 validators

/-- `register_transfers_query`. -/
def registerTransfersQuery : FullResult IcqMsg := do
  let ica ← s.icaAddress
  return .registerTransfers s.config.connectionId ica s.config.updatePeriod

/-! ## Configuration -/

/-- The configuration with the given fields. The version of the remote chain cannot be updated. -/
def Config.update (config : Config) (new : ConfigOptional) : Config :=
  { config with
    owner := new.owner.getD config.owner
    proxyAddress := new.proxyAddress <|> config.proxyAddress
    remoteDenom := new.remoteDenom.getD config.remoteDenom
    connectionId := new.connectionId.getD config.connectionId
    portId := new.portId.getD config.portId
    updatePeriod := new.updatePeriod.getD config.updatePeriod
    allowedSenders := new.allowedSenders.getD config.allowedSenders
    transferChannelId := new.transferChannelId.getD config.transferChannelId }

/-- `execute_update_config`, which makes the configured owner the owner of the contract. -/
def executeUpdateConfig (newConfig : ConfigOptional) : FullResult FullStorage := do
  assertOwner s info
  let config := s.config.update newConfig
  ensure (a.addrValidate config.owner = true)
    (.contract (.std (.genericErr "addr_validate errored")))
  return { s with config := config, cwOwner := config.owner }

/-- `execute`, with all of the messages. -/
def executeFull (env : Env) : FullMsg → FullResult (FullStorage × List Outgoing)
  | .request msg => do
    let (t, out) ← (execute s.toStorage a.addrValidate info env msg).mapError .contract
    return ({ s with toStorage := t }, out.toList.map .neutron)
  | .registerQuery => do
    let msg ← registerTransfersQuery s
    return (s, [.icq msg])
  | .registerBalanceAndDelegatorDelegationsQuery validators => do
    let msgs ← registerBalanceDelegationsQuery s a info validators
    return (s, msgs.map .icq)
  | .registerDelegatorUnbondingDelegationsQuery validators => do
    let (s, msgs) ← registerUnbondingDelegationsQuery s a info validators
    return (s, msgs.map .icq)
  | .registerNonNativeRewardsBalancesQuery denoms => do
    let msgs ← registerNonNativeRewardsBalancesQuery s a info denoms
    return (s, msgs.map .icq)
  | .updateConfig newConfig => do
    let s ← executeUpdateConfig s a info newConfig
    return (s, [])

end Messages

/-! ## Replies and results -/

/-- The reply with the id of a new query: `register_kv_query_reply`, and for the unbonding
delegations `register_unbonding_delegations_query_reply`. -/
def replyIcq (s : FullStorage) (queryId : ℕ) : ReplyMsg → FullResult FullStorage
  | .kvDelegationsAndBalance =>
    .ok { s with kvQueries := s.kvQueries.save queryId .delegationsAndBalance }
  | .kvNonNativeRewardsBalances =>
    .ok { s with kvQueries := s.kvQueries.save queryId .nonNativeRewardsBalances }
  | .kvUnbondingDelegations validatorIndex => do
    let waiting ← orError (s.unbondingDelegationsReplyIdStorage.load validatorIndex)
      (.contract (.std (.notFound "UnbondingDelegation")))
    return { s with
      unbondingDelegationsReplyIdStorage :=
        s.unbondingDelegationsReplyIdStorage.remove validatorIndex
      unbondingDelegations :=
        s.unbondingDelegations.save waiting.validatorAddress { waiting with queryId := queryId }
      kvQueries := s.kvQueries.save queryId .unbondingDelegations }

/-- What the raw result of a query holds for each of its readers; `none` cannot be decoded. -/
structure KvResult where
  balancesAndDelegations : Option BalancesAndDelegations
  multiBalances : Option (List Coin)
  unbondingEntries : Option (List UnbondingEntry)
  deriving DecidableEq, Repr

/-- The error of a result that cannot be decoded. -/
def invalidResult : FullError :=
  .contract (.neutronError (.genericErr "invalid query result format"))

/-- `sudo_unbonding_delegations_kv_query_result`. -/
def sudoUnbondingDelegations (s : FullStorage) (env : Env) (queryId : ℕ) (result : KvResult) :
    FullResult FullStorage :=
  match s.unbondingDelegations.entries.find? fun e => e.2.queryId = queryId with
  | none => .ok s
  | some e => do
    let entries ← orError result.unbondingEntries invalidResult
    return { s with
      unbondingDelegations := s.unbondingDelegations.save e.2.validatorAddress
        { e.2 with unbondingDelegations := entries, lastUpdatedHeight := env.height } }

/-- `sudo` with a `KVQueryResult`. -/
def sudoKvQueryResult (s : FullStorage) (env : Env) (queryId : ℕ) (result : KvResult) :
    FullResult FullStorage := do
  let queryType ← orError (s.kvQueries.load queryId) (.contract (.std (.notFound "KVQueryType")))
  match queryType with
  | .delegationsAndBalance =>
    let data ← orError result.balancesAndDelegations invalidResult
    return { s with toStorage := sudoDelegationsAndBalance s.toStorage env data }
  | .nonNativeRewardsBalances =>
    let coins ← orError result.multiBalances invalidResult
    return { s with toStorage := sudoNonNativeRewardsBalances s.toStorage env coins }
  | .unbondingDelegations => sudoUnbondingDelegations s env queryId result

/-- `sudo_tx_query_result`, with the transfers that the transaction holds. -/
def sudoTxQueryResult (s : FullStorage) (transfers : List Transfer) : FullResult FullStorage := do
  let ica ← s.icaAddress
  let deposits := transfers.filter fun t => t.recipient = ica
  ensure (deposits ≠ []) (.contract (.neutronError (.genericErr
    "failed to find a matching transaction message")))
  return { s with recipientTransfers := s.recipientTransfers ++ deposits }

/-! ## The query module -/

/-- The puppeteer together with the queries that are registered on the chain: the keys that each
of them reads. -/
structure WithQueries where
  puppeteer : FullStorage
  queries : StorageMap ℕ (List KVKey)
  lastQueryId : ℕ

/-- A message to the query module. A new query gets the next id, and the reply follows within the
same call; only a registered query can be updated. -/
def WithQueries.dispatch (w : WithQueries) : IcqMsg → Option WithQueries
  | .register _ keys _ reply => do
    let puppeteer ← (replyIcq w.puppeteer (w.lastQueryId + 1) reply).toOption
    some ⟨puppeteer, w.queries.save (w.lastQueryId + 1) keys, w.lastQueryId + 1⟩
  | .update queryId keys =>
    if (w.queries.load queryId).isSome then
      some { w with queries := w.queries.save queryId keys }
    else none
  | .registerTransfers _ _ _ => some { w with lastQueryId := w.lastQueryId + 1 }

/-- Messages to the query module, one after the other. -/
def WithQueries.dispatchAll (w : WithQueries) : List IcqMsg → Option WithQueries
  | [] => some w
  | msg :: rest => (w.dispatch msg).bind fun w => w.dispatchAll rest

/-! ## The transaction state -/

section TxState

variable {s s' : FullStorage} {a : Addresses} {info : MessageInfo} {env : Env}

/-- The loop over the validators leaves the requests alone. -/
theorem registerUnbonding_toStorage {decodes : String → Bool} {delegator : String} {i : ℕ}
    {validators : List String} {msgs : List IcqMsg}
    (h : registerUnbonding decodes delegator s i validators = .ok (s', msgs)) :
    s'.toStorage = s.toStorage := by
  induction validators generalizing s i msgs with
  | nil =>
    simp only [registerUnbonding, Except.ok.injEq, Prod.mk.injEq] at h
    rw [h.1]
  | cons v validators ih =>
    simp only [registerUnbonding, bind_eq_ok, pure_eq_ok, Except.ok.injEq, Prod.mk.injEq] at h
    obtain ⟨keys, -, ⟨t, rest⟩, hrest, rfl, -⟩ := h
    have hsame := ih hrest
    exact hsame

/-- **What a message does to the items of the requests**: a request does one of its things; every
other message leaves all but the configuration alone, and sends only messages to the query
module. -/
theorem executeFull_cases {msg : FullMsg} {out : List Outgoing}
    (h : executeFull s a info env msg = .ok (s', out)) :
    (∃ request t neutronMsg, msg = .request request ∧ ExecuteCase s.toStorage info request t
      neutronMsg ∧ s' = { s with toStorage := t } ∧ out = neutronMsg.toList.map .neutron) ∨
    s'.toStorage = { s.toStorage with config := s'.config } ∧
      ∃ msgs : List IcqMsg, out = msgs.map .icq := by
  cases msg with
  | request request =>
    simp only [executeFull, bind_eq_ok, mapError_eq_ok, pure_eq_ok, Except.ok.injEq,
      Prod.mk.injEq] at h
    obtain ⟨⟨t, neutronMsg⟩, hexecute, rfl, rfl⟩ := h
    exact .inl ⟨request, t, neutronMsg, rfl, execute_ok hexecute, rfl, rfl⟩
  | registerQuery =>
    simp only [executeFull, bind_eq_ok, pure_eq_ok, Except.ok.injEq, Prod.mk.injEq] at h
    obtain ⟨icqMsg, -, rfl, rfl⟩ := h
    exact .inr ⟨rfl, [icqMsg], rfl⟩
  | registerBalanceAndDelegatorDelegationsQuery validators =>
    simp only [executeFull, bind_eq_ok, pure_eq_ok, Except.ok.injEq, Prod.mk.injEq] at h
    obtain ⟨msgs, -, rfl, rfl⟩ := h
    exact .inr ⟨rfl, msgs, rfl⟩
  | registerDelegatorUnbondingDelegationsQuery validators =>
    simp only [executeFull, registerUnbondingDelegationsQuery, bind_eq_ok, pure_eq_ok,
      Except.ok.injEq, Prod.mk.injEq] at h
    obtain ⟨⟨t, msgs⟩, ⟨-, -, -, -, delegator, -, hloop⟩, rfl, rfl⟩ := h
    refine .inr ⟨?_, msgs, rfl⟩
    rw [registerUnbonding_toStorage hloop]
  | registerNonNativeRewardsBalancesQuery denoms =>
    simp only [executeFull, bind_eq_ok, pure_eq_ok, Except.ok.injEq, Prod.mk.injEq] at h
    obtain ⟨msgs, -, rfl, rfl⟩ := h
    exact .inr ⟨rfl, msgs, rfl⟩
  | updateConfig newConfig =>
    simp only [executeFull, executeUpdateConfig, bind_eq_ok, pure_eq_ok, Except.ok.injEq,
      Prod.mk.injEq] at h
    obtain ⟨_, ⟨-, -, -, -, rfl⟩, rfl, rfl⟩ := h
    exact .inr ⟨rfl, [], rfl⟩

/-- **The transaction state after a message**: only a request touches it, and only a request sends
something other than messages to the query module. -/
theorem executeFull_txState {msg : FullMsg} {out : List Outgoing}
    (h : executeFull s a info env msg = .ok (s', out)) :
    (∃ request t neutronMsg, msg = .request request ∧ ExecuteCase s.toStorage info request t
      neutronMsg ∧ s' = { s with toStorage := t } ∧ out = neutronMsg.toList.map .neutron) ∨
    s'.txState = s.txState ∧ ∃ msgs : List IcqMsg, out = msgs.map .icq := by
  refine (executeFull_cases h).imp_right fun ⟨hitems, hout⟩ => ⟨?_, hout⟩
  rw [hitems]

/-- The reply to a query leaves the requests alone. -/
theorem replyIcq_toStorage {queryId : ℕ} {reply : ReplyMsg}
    (h : replyIcq s queryId reply = .ok s') : s'.toStorage = s.toStorage := by
  cases reply with
  | kvDelegationsAndBalance => rw [← Except.ok.inj h]
  | kvNonNativeRewardsBalances => rw [← Except.ok.inj h]
  | kvUnbondingDelegations validatorIndex =>
    simp only [replyIcq, bind_eq_ok, pure_eq_ok, Except.ok.injEq] at h
    obtain ⟨waiting, -, rfl⟩ := h
    rfl

/-- Messages to the query module leave the requests alone. -/
theorem WithQueries.dispatchAll_toStorage {w w' : WithQueries} {msgs : List IcqMsg}
    (h : w.dispatchAll msgs = some w') : w'.puppeteer.toStorage = w.puppeteer.toStorage := by
  induction msgs generalizing w with
  | nil => rw [← Option.some.inj h]
  | cons msg rest ih =>
    obtain ⟨t, ht, hrest⟩ := Option.bind_eq_some_iff.1 h
    rw [ih hrest]
    cases msg with
    | register connectionId keys updatePeriod reply =>
      simp only [WithQueries.dispatch, Option.bind_eq_bind, Option.bind_eq_some_iff,
        Option.some.injEq] at ht
      obtain ⟨puppeteer, hreply, rfl⟩ := ht
      exact replyIcq_toStorage (toOption_eq_some.1 hreply)
    | update queryId keys =>
      simp only [WithQueries.dispatch] at ht
      split_ifs at ht
      rw [← Option.some.inj ht]
    | registerTransfers connectionId recipient updatePeriod => rw [← Option.some.inj ht]

/-- The result of a query touches the two snapshots only. -/
theorem sudoKvQueryResult_toStorage {queryId : ℕ} {result : KvResult}
    (h : sudoKvQueryResult s env queryId result = .ok s') :
    ∃ snapshot rewards, s'.toStorage = { s.toStorage with
      delegationsAndBalance := snapshot
      nonNativeRewardBalances := rewards } := by
  simp only [sudoKvQueryResult, bind_eq_ok] at h
  obtain ⟨queryType, -, h⟩ := h
  cases queryType with
  | delegationsAndBalance =>
    simp only [bind_eq_ok, pure_eq_ok, Except.ok.injEq] at h
    obtain ⟨data, -, rfl⟩ := h
    exact ⟨_, _, rfl⟩
  | nonNativeRewardsBalances =>
    simp only [bind_eq_ok, pure_eq_ok, Except.ok.injEq] at h
    obtain ⟨coins, -, rfl⟩ := h
    exact ⟨_, _, rfl⟩
  | unbondingDelegations =>
    simp only [sudoUnbondingDelegations] at h
    split at h
    · rw [← Except.ok.inj h]
      exact ⟨_, _, rfl⟩
    · simp only [bind_eq_ok, pure_eq_ok, Except.ok.injEq] at h
      obtain ⟨entries, -, rfl⟩ := h
      exact ⟨_, _, rfl⟩

/-- The result of a query leaves the transaction state alone. -/
theorem sudoKvQueryResult_txState {queryId : ℕ} {result : KvResult}
    (h : sudoKvQueryResult s env queryId result = .ok s') : s'.txState = s.txState := by
  obtain ⟨snapshot, rewards, hitems⟩ := sudoKvQueryResult_toStorage h
  rw [hitems]

/-- The result of a transaction query leaves the requests alone. -/
theorem sudoTxQueryResult_toStorage {transfers : List Transfer}
    (h : sudoTxQueryResult s transfers = .ok s') : s'.toStorage = s.toStorage := by
  simp only [sudoTxQueryResult, bind_eq_ok, pure_eq_ok, Except.ok.injEq] at h
  obtain ⟨ica, -, -, -, rfl⟩ := h
  rfl

end TxState

end Puppeteer

end DropContracts
