import DropContracts.Factory.Contract
import DropContracts.System.SingleFlight

set_option relaxedAutoImplicit false
set_option autoImplicit false

/-!
# The validators whose delegations are observed

The factory, the validator set and the puppeteer: the proxy messages of the factory's owner, and
whatever other accounts and the chain do to the other two. Stake is delegated to members of the
validator set; the puppeteer reads the delegations to the validators of its registered query. The
two should be the same.

Core is not part of the system. A message to it that core rejects makes the whole call fail, which
is a run without that call.

## Main definitions

* `Puppeteer.WithQueries.observedValidators` — the validators that the registered query reads.
* `Puppeteer.Replaces` — the queries of one kind read new keys.
* `System.Observation`, `System.ObservationAction` — the system and its steps.
* `System.Deployed` — the factory owns the other two, and the registered queries have ids of the
  chain.
* `System.Observes` — the validator set and the observed validators are the same.
* `System.ObservationAction.NamesMember` — a single update is for a member of the set.

## Main results

* `System.validators_observed` — the two are the same along every run of such steps.
* `System.observes_after_updateValidator_iff` — after a single update they are the same exactly when
  the validator was a member.
-/

namespace DropContracts

open Exec

namespace Puppeteer

open Icq

/-! ## What the registered queries read -/

/-- A registered query of a kind, and the keys that it reads. -/
def WithQueries.Reads (w : WithQueries) (kind : KVQueryType) (id : ℕ) (keys : List KVKey) : Prop :=
  w.puppeteer.kvQueries.load id = some kind ∧ w.queries.load id = some keys

/-- The validators whose delegations the registered queries for balance and delegations read. -/
def WithQueries.observedValidators (w : WithQueries) : List String :=
  (w.puppeteer.queriesOf .delegationsAndBalance).flatMap fun id =>
    observed ((w.queries.load id).getD [])

/-- The ids of the stored queries were given out by the chain. -/
def WithQueries.Known (w : WithQueries) : Prop :=
  ∀ id kind, w.puppeteer.kvQueries.load id = some kind → id ≤ w.lastQueryId

section Queries

variable {w w' : WithQueries} {kind kind' : KVQueryType} {id : ℕ} {keys keys' : List KVKey}

/-- The ids of a kind are those that are stored with this kind. -/
theorem mem_queriesOf {s : FullStorage} :
    id ∈ s.queriesOf kind ↔ s.kvQueries.load id = some kind := by
  rw [← StorageMap.mem_entries]
  simp only [FullStorage.queriesOf, List.mem_map, List.mem_filter, decide_eq_true_eq]
  constructor
  · rintro ⟨⟨key, stored⟩, ⟨hmem, rfl⟩, rfl⟩
    exact hmem
  · intro hmem
    exact ⟨(id, kind), ⟨hmem, rfl⟩, rfl⟩

/-- A validator is observed exactly when a registered query reads the delegations to it. -/
theorem mem_observedValidators {v : String} :
    v ∈ w.observedValidators ↔
      ∃ id keys, w.Reads .delegationsAndBalance id keys ∧ v ∈ observed keys := by
  simp only [WithQueries.observedValidators, List.mem_flatMap, mem_queriesOf, WithQueries.Reads]
  constructor
  · rintro ⟨id, hkind, hv⟩
    cases hload : w.queries.load id with
    | none =>
      rw [hload] at hv
      simp [observed] at hv
    | some keys =>
      rw [hload] at hv
      exact ⟨id, keys, ⟨hkind, hload⟩, hv⟩
  · rintro ⟨id, keys, ⟨hkind, hload⟩, hv⟩
    refine ⟨id, hkind, ?_⟩
    rw [hload]
    exact hv

/-- Updates of queries give all of them the new keys and change nothing else. -/
theorem dispatchAll_update {ids : List ℕ}
    (h : w.dispatchAll (ids.map fun id => .update id keys) = some w') :
    w'.puppeteer = w.puppeteer ∧ w'.lastQueryId = w.lastQueryId ∧
      ∀ id, w'.queries.load id = if id ∈ ids then some keys else w.queries.load id := by
  induction ids generalizing w with
  | nil =>
    rw [← Option.some.inj h]
    exact ⟨rfl, rfl, fun id => by simp⟩
  | cons first ids ih =>
    obtain ⟨t, ht, hrest⟩ := Option.bind_eq_some_iff.1 h
    simp only [WithQueries.dispatch] at ht
    split_ifs at ht
    rw [← Option.some.inj ht] at hrest
    obtain ⟨hpuppeteer, hlast, hload⟩ := ih hrest
    refine ⟨hpuppeteer, hlast, fun id => ?_⟩
    rw [hload, StorageMap.load_save]
    by_cases hid : id = first
    · simp [hid]
    · simp [hid]

/-- The kind that a reply is stored with. -/
def kindOf : ReplyMsg → KVQueryType
  | .kvDelegationsAndBalance => .delegationsAndBalance
  | .kvNonNativeRewardsBalances => .nonNativeRewardsBalances
  | .kvUnbondingDelegations _ => .unbondingDelegations

/-- The reply with the id of a new query stores the id with its kind. -/
theorem replyIcq_kvQueries {s s' : FullStorage} {queryId : ℕ} {reply : ReplyMsg}
    (h : replyIcq s queryId reply = .ok s') :
    s'.kvQueries = s.kvQueries.save queryId (kindOf reply) ∧ s'.cwOwner = s.cwOwner := by
  cases reply with
  | kvDelegationsAndBalance =>
    rw [← Except.ok.inj h]
    exact ⟨rfl, rfl⟩
  | kvNonNativeRewardsBalances =>
    rw [← Except.ok.inj h]
    exact ⟨rfl, rfl⟩
  | kvUnbondingDelegations validatorIndex =>
    simp only [replyIcq, bind_eq_ok, pure_eq_ok, Except.ok.injEq] at h
    obtain ⟨waiting, -, rfl⟩ := h
    exact ⟨rfl, rfl⟩

/-- The queries of one kind were replaced: afterwards they read the new keys, and those of the other
kinds what they read before. -/
structure Replaces (kind : KVQueryType) (keys : List KVKey) (w w' : WithQueries) : Prop where
  reads : ∀ v, (∃ id keys', w'.Reads kind id keys' ∧ v ∈ observed keys') ↔ v ∈ observed keys
  others : ∀ kind', kind' ≠ kind → ∀ id keys', w'.Reads kind' id keys' ↔ w.Reads kind' id keys'
  known : w'.Known
  cwOwner : w'.puppeteer.cwOwner = w.puppeteer.cwOwner

/-- The first query of a kind, with the next id of the chain, is the only one of this kind. -/
theorem replaces_of_register (hknown : w.Known) (hids : w.puppeteer.queriesOf kind = [])
    (hkv : w'.puppeteer.kvQueries = w.puppeteer.kvQueries.save (w.lastQueryId + 1) kind)
    (hqueries : w'.queries = w.queries.save (w.lastQueryId + 1) keys)
    (hlast : w'.lastQueryId = w.lastQueryId + 1)
    (howner : w'.puppeteer.cwOwner = w.puppeteer.cwOwner) : Replaces kind keys w w' := by
  have hnone : ∀ id, w.puppeteer.kvQueries.load id ≠ some kind := by
    intro id hload
    have hmem := mem_queriesOf.2 hload
    rw [hids] at hmem
    exact List.not_mem_nil hmem
  have hfresh : ∀ id k, w.puppeteer.kvQueries.load id = some k → id ≠ w.lastQueryId + 1 := by
    intro id k hload
    have hle := hknown id k hload
    omega
  refine ⟨fun v => ?_, fun kind' hne id keys' => ?_, fun id k hload => ?_, howner⟩
  · constructor
    · rintro ⟨id, keys', ⟨hstored, hkeys⟩, hv⟩
      rw [hkv, StorageMap.load_save] at hstored
      split_ifs at hstored with hid
      · rw [hqueries, hid, StorageMap.load_save_self] at hkeys
        rw [Option.some.inj hkeys]
        exact hv
      · exact absurd hstored (hnone id)
    · intro hv
      refine ⟨w.lastQueryId + 1, keys, ⟨?_, ?_⟩, hv⟩
      · rw [hkv, StorageMap.load_save_self]
      · rw [hqueries, StorageMap.load_save_self]
  · simp only [WithQueries.Reads, hkv, hqueries]
    by_cases hid : id = w.lastQueryId + 1
    · subst hid
      simp only [StorageMap.load_save_self, Option.some.injEq]
      constructor
      · rintro ⟨rfl, -⟩
        exact absurd rfl hne
      · rintro ⟨hload, -⟩
        exact absurd rfl (hfresh _ _ hload)
    · rw [StorageMap.load_save_of_ne _ _ hid, StorageMap.load_save_of_ne _ _ hid]
  · rw [hlast]
    rw [hkv, StorageMap.load_save] at hload
    split_ifs at hload with hid
    · exact hid.le
    · have hle := hknown id k hload
      omega

/-- All queries of a kind, if there are any, are given the new keys. -/
theorem replaces_of_update (hknown : w.Known) (hids : w.puppeteer.queriesOf kind ≠ [])
    (hpuppeteer : w'.puppeteer = w.puppeteer) (hlast : w'.lastQueryId = w.lastQueryId)
    (hload : ∀ id, w'.queries.load id =
      if id ∈ w.puppeteer.queriesOf kind then some keys else w.queries.load id) :
    Replaces kind keys w w' := by
  refine ⟨fun v => ?_, fun kind' hne id keys' => ?_, fun id k hstored => ?_, by rw [hpuppeteer]⟩
  · constructor
    · rintro ⟨id, keys', ⟨hstored, hkeys⟩, hv⟩
      rw [hpuppeteer] at hstored
      rw [hload, if_pos (mem_queriesOf.2 hstored)] at hkeys
      rw [Option.some.inj hkeys]
      exact hv
    · intro hv
      obtain ⟨id, hid⟩ := List.exists_mem_of_ne_nil _ hids
      refine ⟨id, keys, ⟨?_, ?_⟩, hv⟩
      · rw [hpuppeteer]
        exact mem_queriesOf.1 hid
      · rw [hload, if_pos hid]
  · simp only [WithQueries.Reads, hpuppeteer, hload]
    refine and_congr_right fun hstored => ?_
    rw [if_neg]
    intro hid
    have hkind := mem_queriesOf.1 hid
    rw [hstored] at hkind
    exact hne (Option.some.inj hkind)
  · rw [hpuppeteer] at hstored
    rw [hlast]
    exact hknown id k hstored

/-- **What the messages for one kind of query do**: they replace the queries of this kind. Either
all of them are updated, or there was none and one is registered. -/
theorem dispatchAll_queryMsgs {reply : ReplyMsg} (hkind : kindOf reply = kind) (hknown : w.Known)
    (h : w.dispatchAll (queryMsgs w.puppeteer kind keys reply) = some w') :
    Replaces kind keys w w' := by
  simp only [queryMsgs] at h
  split_ifs at h with hids
  · obtain ⟨t, ht, hrest⟩ := Option.bind_eq_some_iff.1 h
    rw [WithQueries.dispatchAll, Option.some.injEq] at hrest
    subst hrest
    simp only [WithQueries.dispatch, Option.bind_eq_bind, Option.bind_eq_some_iff,
      toOption_eq_some, Option.some.injEq] at ht
    obtain ⟨puppeteer, hreply, rfl⟩ := ht
    obtain ⟨hkv, howner⟩ := replyIcq_kvQueries hreply
    rw [hkind] at hkv
    exact replaces_of_register hknown hids hkv rfl rfl howner
  · obtain ⟨hpuppeteer, hlast, hload⟩ := dispatchAll_update h
    exact replaces_of_update hknown hids hpuppeteer hlast hload

end Queries

end Puppeteer

namespace System

open Puppeteer (WithQueries FullMsg Outgoing Addresses)

/-! ## The system -/

/-- The addresses of the factory and of the two contracts that it owns. -/
structure FactoryDeployment where
  factory : String
  puppeteer : String
  validatorsSet : String
  deriving DecidableEq, Repr

/-- The factory, the validator set, and the puppeteer with its queries and packets. -/
structure Observation where
  factory : Factory.Storage
  validatorsSet : ValidatorsSet.Storage
  flight : Flight

/-- The steps: a proxy message to the factory, a message of another account to the validator set,
and the events of the puppeteer. -/
inductive ObservationAction where
  | proxy (a : Addresses) (env : Env) (info : MessageInfo) (msg : Factory.ProxyMsg) (seq : ℕ)
  | validatorsSet (addrValidate : String → Bool) (info : MessageInfo)
      (msg : ValidatorsSet.ExecuteMsg)
  | puppeteer (e : FlightEvent)

/-- An event that is not a message of the factory, or one that is a request, such as the setting of
the fees; the factory's messages about queries and the configuration are apart. -/
def FlightEvent.outside (factory : String) : FlightEvent → Bool
  | .execute _ _ _ (.request _) _ => true
  | .execute _ _ info _ _ => info.sender ≠ factory
  | _ => true

namespace Observation

variable (d : FactoryDeployment)

/-- A message of the factory to another contract. -/
def dispatch (a : Addresses) (env : Env) (seq : ℕ) (w : Observation) :
    Factory.WasmMsg → Option Observation
  | .core _ _ _ => some w
  | .puppeteer contractAddr msg funds => do
    guard (contractAddr = d.puppeteer)
    let flight ← w.flight.execute a env ⟨d.factory, funds⟩ msg seq
    some { w with flight := flight }
  | .validatorsSet contractAddr msg funds => do
    guard (contractAddr = d.validatorsSet)
    let validatorsSet ← (ValidatorsSet.execute w.validatorsSet ⟨d.factory, funds⟩ a.addrValidate
      msg).toOption
    some { w with validatorsSet := validatorsSet }

/-- The messages of the factory, one after the other. -/
def dispatchAll (a : Addresses) (env : Env) (seq : ℕ) (w : Observation) :
    List Factory.WasmMsg → Option Observation
  | [] => some w
  | msg :: rest => (dispatch d a env seq w msg).bind fun w => w.dispatchAll a env seq rest

/-- The system after a step, if the step can be taken. -/
def exec (w : Observation) : ObservationAction → Option Observation
  | .proxy a env info msg seq => do
    let msgs ← (Factory.executeProxyMsg w.factory info msg).toOption
    w.dispatchAll d a env seq msgs
  | .validatorsSet addrValidate info msg => do
    guard (info.sender ≠ d.factory)
    let validatorsSet ← (ValidatorsSet.execute w.validatorsSet info addrValidate msg).toOption
    some { w with validatorsSet := validatorsSet }
  | .puppeteer e => do
    guard (e.outside d.factory)
    let flight ← w.flight.exec e
    some { w with flight := flight }

end Observation

/-- A step of the system. -/
def ObservationStep (d : FactoryDeployment) (w : Observation) (a : ObservationAction)
    (w' : Observation) : Prop :=
  w.exec d a = some w'

/-- The contracts right after the factory has instantiated them. -/
structure ObservationInitial (d : FactoryDeployment) (w : Observation) : Prop where
  validatorsSet : ∃ addrValidate statsContract,
    ValidatorsSet.instantiate addrValidate d.factory statsContract = .ok w.validatorsSet
  flight : FlightInitial w.flight
  puppeteerOwner : w.flight.puppeteer.cwOwner = d.factory

/-- The factory owns the two contracts, every entry of the validator set is in its place, and the
ids of the registered queries were given out by the chain. -/
structure Deployed (d : FactoryDeployment) (w : Observation) : Prop where
  keyed : w.validatorsSet.Keyed
  validatorsSetOwner : w.validatorsSet.cwOwner = d.factory
  puppeteerOwner : w.flight.puppeteer.cwOwner = d.factory
  known : w.flight.contract.Known

/-- **Every validator that can receive stake is observed**, and no other is. -/
def Observes (w : Observation) : Prop :=
  ∀ v, v ∈ w.flight.contract.observedValidators ↔ v ∈ w.validatorsSet.addresses

/-- The validator of an update for a single one. -/
def ObservationAction.single : ObservationAction → Option String
  | .proxy _ _ _ (.validatorSet (.updateValidator validator)) _ => some validator.valoperAddress
  | _ => none

/-- An update of a single validator is for a member of the validator set. -/
def ObservationAction.NamesMember (w : Observation) (action : ObservationAction) : Prop :=
  ∀ v ∈ action.single, v ∈ w.validatorsSet.addresses

instance (w : Observation) (action : ObservationAction) : Decidable (action.NamesMember w) :=
  inferInstanceAs (Decidable (∀ v ∈ action.single, v ∈ w.validatorsSet.addresses))

/-! ## The events of the puppeteer -/

section Events

variable {d : FactoryDeployment} {m m' : Flight}

/-- The queries and the owner are as before; ids may have been given out. -/
structure SameQueries (m m' : Flight) : Prop where
  kvQueries : m'.puppeteer.kvQueries = m.puppeteer.kvQueries
  queries : m'.contract.queries = m.contract.queries
  lastQueryId : m.contract.lastQueryId ≤ m'.contract.lastQueryId
  cwOwner : m'.puppeteer.cwOwner = m.puppeteer.cwOwner

/-- Nothing changed. -/
theorem SameQueries.refl (m : Flight) : SameQueries m m := ⟨rfl, rfl, le_rfl, rfl⟩

/-- One change after the other. -/
theorem SameQueries.trans {m'' : Flight} (h : SameQueries m m') (h' : SameQueries m' m'') :
    SameQueries m m'' :=
  ⟨h'.kvQueries.trans h.kvQueries, h'.queries.trans h.queries,
    h.lastQueryId.trans h'.lastQueryId, h'.cwOwner.trans h.cwOwner⟩

/-- The same queries observe the same validators. -/
theorem SameQueries.mem_observedValidators (h : SameQueries m m') {v : String} :
    v ∈ m'.contract.observedValidators ↔ v ∈ m.contract.observedValidators := by
  have hkv : m'.contract.puppeteer.kvQueries = m.contract.puppeteer.kvQueries := h.kvQueries
  simp only [Puppeteer.mem_observedValidators, WithQueries.Reads, hkv, h.queries]

/-- The same queries are known to the chain. -/
theorem SameQueries.known (h : SameQueries m m') (hknown : m.contract.Known) :
    m'.contract.Known := by
  intro id kind hload
  have hkv : m'.contract.puppeteer.kvQueries = m.contract.puppeteer.kvQueries := h.kvQueries
  rw [hkv] at hload
  exact (hknown id kind hload).trans h.lastQueryId

/-- A message to the chain that is not about a stored query. -/
def leavesQueries : Outgoing → Prop
  | .icq (.registerTransfers _ _ _) => True
  | .icq _ => False
  | .neutron _ => True

/-- Messages that are not about a stored query leave the queries alone. -/
theorem dispatchAll_sameQueries {request : Option (Transaction × String)} {seq : ℕ}
    {out : List Outgoing} (hout : ∀ msg ∈ out, leavesQueries msg)
    (h : m.dispatchAll request seq out = some m') : SameQueries m m' := by
  induction out generalizing m with
  | nil =>
    rw [← Option.some.inj h]
    exact SameQueries.refl m
  | cons msg rest ih =>
    obtain ⟨t, ht, hrest⟩ := Option.bind_eq_some_iff.1 h
    have hfirst : SameQueries m t := by
      cases msg with
      | icq icqMsg =>
        obtain ⟨contract, hcontract, rfl⟩ := Option.map_eq_some_iff.1 ht
        cases icqMsg with
        | registerTransfers connectionId recipient updatePeriod =>
          rw [← Option.some.inj hcontract]
          exact ⟨rfl, rfl, Nat.le_succ _, rfl⟩
        | register connectionId keys updatePeriod reply =>
          exact absurd (hout _ List.mem_cons_self) id
        | update queryId keys => exact absurd (hout _ List.mem_cons_self) id
      | neutron neutronMsg =>
        simp only [Flight.dispatch] at ht
        split_ifs at ht
        · simp only [Option.bind_eq_bind, Option.bind_eq_some_iff, Option.some.injEq] at ht
          obtain ⟨⟨transaction, replyTo⟩, -, s, -, rfl⟩ := ht
          exact ⟨rfl, rfl, le_rfl, rfl⟩
        · rw [← Option.some.inj ht]
          exact SameQueries.refl m
    exact hfirst.trans (ih (fun msg hmsg => hout msg (List.mem_cons_of_mem _ hmsg)) hrest)

/-- A message of another account than the owner, or a request, leaves the stored queries alone. -/
theorem executeFull_of_outside {s s' : Puppeteer.FullStorage} {a : Addresses} {env : Env}
    {info : MessageInfo} {msg : FullMsg} {seq : ℕ} {out : List Outgoing}
    (houtside : (FlightEvent.execute a env info msg seq).outside s.cwOwner = true)
    (h : Puppeteer.executeFull s a info env msg = .ok (s', out)) :
    s'.kvQueries = s.kvQueries ∧ s'.cwOwner = s.cwOwner ∧ ∀ o ∈ out, leavesQueries o := by
  cases msg with
  | request msg =>
    simp only [Puppeteer.executeFull, bind_eq_ok, pure_eq_ok, Except.ok.injEq,
      Prod.mk.injEq] at h
    obtain ⟨⟨t, neutronMsg⟩, -, rfl, rfl⟩ := h
    refine ⟨rfl, rfl, fun o ho => ?_⟩
    obtain ⟨n, -, rfl⟩ := List.mem_map.1 ho
    exact trivial
  | registerQuery =>
    simp only [Puppeteer.executeFull, Puppeteer.registerTransfersQuery, bind_eq_ok, pure_eq_ok,
      Except.ok.injEq, Prod.mk.injEq] at h
    obtain ⟨_, ⟨ica, -, rfl⟩, rfl, rfl⟩ := h
    refine ⟨rfl, rfl, fun o ho => ?_⟩
    rw [List.mem_singleton.1 ho]
    exact trivial
  | registerBalanceAndDelegatorDelegationsQuery validators =>
    simp only [Puppeteer.executeFull, Puppeteer.registerBalanceDelegationsQuery,
      Puppeteer.assertOwner, bind_eq_ok, ensure_eq_ok] at h
    obtain ⟨_, ⟨-, howner, -⟩, -⟩ := h
    simp [FlightEvent.outside, howner] at houtside
  | registerDelegatorUnbondingDelegationsQuery validators =>
    simp only [Puppeteer.executeFull, Puppeteer.registerUnbondingDelegationsQuery,
      Puppeteer.assertOwner, bind_eq_ok, ensure_eq_ok] at h
    obtain ⟨_, ⟨-, howner, -⟩, -⟩ := h
    simp [FlightEvent.outside, howner] at houtside
  | registerNonNativeRewardsBalancesQuery denoms =>
    simp only [Puppeteer.executeFull, Puppeteer.registerNonNativeRewardsBalancesQuery,
      Puppeteer.assertOwner, bind_eq_ok, ensure_eq_ok] at h
    obtain ⟨_, ⟨-, howner, -⟩, -⟩ := h
    simp [FlightEvent.outside, howner] at houtside
  | updateConfig newConfig =>
    simp only [Puppeteer.executeFull, Puppeteer.executeUpdateConfig, Puppeteer.assertOwner,
      bind_eq_ok, ensure_eq_ok] at h
    obtain ⟨_, ⟨-, howner, -⟩, -⟩ := h
    simp [FlightEvent.outside, howner] at houtside

/-- The result of a query leaves the stored queries alone. -/
theorem sudoKvQueryResult_kvQueries {s s' : Puppeteer.FullStorage} {env : Env} {queryId : ℕ}
    {result : Puppeteer.KvResult} (h : Puppeteer.sudoKvQueryResult s env queryId result = .ok s') :
    s'.kvQueries = s.kvQueries ∧ s'.cwOwner = s.cwOwner := by
  simp only [Puppeteer.sudoKvQueryResult, bind_eq_ok] at h
  obtain ⟨queryType, -, h⟩ := h
  cases queryType with
  | delegationsAndBalance =>
    simp only [bind_eq_ok, pure_eq_ok, Except.ok.injEq] at h
    obtain ⟨data, -, rfl⟩ := h
    exact ⟨rfl, rfl⟩
  | nonNativeRewardsBalances =>
    simp only [bind_eq_ok, pure_eq_ok, Except.ok.injEq] at h
    obtain ⟨coins, -, rfl⟩ := h
    exact ⟨rfl, rfl⟩
  | unbondingDelegations =>
    simp only [Puppeteer.sudoUnbondingDelegations] at h
    split at h
    · rw [← Except.ok.inj h]
      exact ⟨rfl, rfl⟩
    · simp only [bind_eq_ok, pure_eq_ok, Except.ok.injEq] at h
      obtain ⟨entries, -, rfl⟩ := h
      exact ⟨rfl, rfl⟩

/-- **An event from outside leaves the queries alone.** -/
theorem exec_sameQueries {e : FlightEvent} (houtside : e.outside m.puppeteer.cwOwner = true)
    (h : m.exec e = some m') : SameQueries m m' := by
  cases e with
  | execute a env info msg seq =>
    simp only [Flight.exec, Flight.execute, Option.bind_eq_bind, Option.bind_eq_some_iff,
      toOption_eq_some] at h
    obtain ⟨⟨s, out⟩, hexecute, hdispatch⟩ := h
    obtain ⟨hkv, howner, hout⟩ := executeFull_of_outside houtside hexecute
    have hfirst : SameQueries m (m.withPuppeteer s) := ⟨hkv, rfl, le_rfl, howner⟩
    exact hfirst.trans (dispatchAll_sameQueries hout hdispatch)
  | kvQueryResult env queryId result =>
    obtain ⟨s, hs, rfl⟩ := Option.map_eq_some_iff.1 h
    obtain ⟨hkv, howner⟩ := sudoKvQueryResult_kvQueries (toOption_eq_some.1 hs)
    exact ⟨hkv, rfl, le_rfl, howner⟩
  | txQueryResult transfers =>
    obtain ⟨s, hs, rfl⟩ := Option.map_eq_some_iff.1 h
    have hs' := toOption_eq_some.1 hs
    simp only [Puppeteer.sudoTxQueryResult, bind_eq_ok, pure_eq_ok, Except.ok.injEq] at hs'
    obtain ⟨ica, -, -, -, rfl⟩ := hs'
    exact ⟨rfl, rfl, le_rfl, rfl⟩
  | openAck address =>
    obtain ⟨s, -, rfl⟩ := Option.map_eq_some_iff.1 h
    exact ⟨rfl, rfl, le_rfl, rfl⟩
  | deliver p outcome accepts =>
    simp only [Flight.exec, Flight.deliver, Option.bind_eq_bind, Option.bind_eq_some_iff,
      Option.some.injEq] at h
    obtain ⟨-, -, rfl⟩ := h
    cases hreport : Flight.report { m with outstanding := m.outstanding.erase p } p outcome
        accepts with
    | none => exact ⟨rfl, rfl, le_rfl, rfl⟩
    | some t =>
      simp only [Flight.report, Option.bind_eq_bind, Option.bind_eq_some_iff,
        Option.some.injEq] at hreport
      obtain ⟨⟨s, report⟩, -, -, -, rfl⟩ := hreport
      exact ⟨rfl, rfl, le_rfl, rfl⟩

end Events

/-! ## The messages of the factory -/

section Proxy

variable {d : FactoryDeployment} {w w' : Observation} {m m' : Flight} {a : Addresses} {env : Env}
  {info : MessageInfo} {seq : ℕ}

/-- Messages to the query module, seen from the contract with its queries. -/
theorem contract_dispatchAll_icq {request : Option (Transaction × String)}
    {msgs : List Icq.IcqMsg} (h : m.dispatchAll request seq (msgs.map .icq) = some m') :
    m.contract.dispatchAll msgs = some m'.contract := by
  induction msgs generalizing m with
  | nil => rw [← Option.some.inj h]; rfl
  | cons msg rest ih =>
    obtain ⟨t, ht, hrest⟩ := Option.bind_eq_some_iff.1 h
    obtain ⟨contract, hcontract, rfl⟩ := Option.map_eq_some_iff.1 ht
    rw [WithQueries.dispatchAll, hcontract, Option.bind_some]
    exact ih hrest

/-- **The puppeteer after the registration of a list of validators**: it observes these. -/
theorem execute_registerBalanceDelegations {validators : List String}
    (hknown : m.contract.Known)
    (h : m.execute a env info (.registerBalanceAndDelegatorDelegationsQuery validators) seq =
      some m') :
    (∀ v, v ∈ m'.contract.observedValidators ↔ v ∈ validators) ∧ m'.contract.Known ∧
      m'.puppeteer.cwOwner = m.puppeteer.cwOwner := by
  simp only [Flight.execute, Puppeteer.executeFull, Puppeteer.registerBalanceDelegationsQuery,
    Option.bind_eq_bind, Option.bind_eq_some_iff, toOption_eq_some, bind_eq_ok, pure_eq_ok,
    mapError_eq_ok, Except.ok.injEq, Prod.exists, Prod.mk.injEq] at h
  obtain ⟨_, _, ⟨_, ⟨-, -, ica, -, keys, hkeys, rfl⟩, rfl, rfl⟩, hdispatch⟩ := h
  have hcontract : m.contract.dispatchAll (Puppeteer.queryMsgs m.puppeteer .delegationsAndBalance
      keys .kvDelegationsAndBalance) = some m'.contract := contract_dispatchAll_icq hdispatch
  have hkind : Puppeteer.kindOf .kvDelegationsAndBalance = .delegationsAndBalance := rfl
  have hreplaces := Puppeteer.dispatchAll_queryMsgs hkind hknown hcontract
  refine ⟨fun v => ?_, hreplaces.known, hreplaces.cwOwner⟩
  rw [Puppeteer.mem_observedValidators, hreplaces.reads,
    Icq.observed_getBalanceAndDelegationsKeys hkeys]

/-- The registration of a list of denominations leaves the observed validators alone. -/
theorem execute_registerNonNativeRewards {denoms : List String} (hknown : m.contract.Known)
    (h : m.execute a env info (.registerNonNativeRewardsBalancesQuery denoms) seq = some m') :
    (∀ v, v ∈ m'.contract.observedValidators ↔ v ∈ m.contract.observedValidators) ∧
      m'.contract.Known ∧ m'.puppeteer.cwOwner = m.puppeteer.cwOwner := by
  simp only [Flight.execute, Puppeteer.executeFull,
    Puppeteer.registerNonNativeRewardsBalancesQuery, Option.bind_eq_bind, Option.bind_eq_some_iff,
    toOption_eq_some, bind_eq_ok, pure_eq_ok, mapError_eq_ok, Except.ok.injEq, Prod.exists,
    Prod.mk.injEq] at h
  obtain ⟨_, _, ⟨_, ⟨-, -, ica, -, keys, -, rfl⟩, rfl, rfl⟩, hdispatch⟩ := h
  have hcontract : m.contract.dispatchAll (Puppeteer.queryMsgs m.puppeteer
      .nonNativeRewardsBalances keys .kvNonNativeRewardsBalances) = some m'.contract :=
    contract_dispatchAll_icq hdispatch
  have hkind : Puppeteer.kindOf .kvNonNativeRewardsBalances = .nonNativeRewardsBalances := rfl
  have hreplaces := Puppeteer.dispatchAll_queryMsgs hkind hknown hcontract
  refine ⟨fun v => ?_, hreplaces.known, hreplaces.cwOwner⟩
  simp only [Puppeteer.mem_observedValidators, hreplaces.others .delegationsAndBalance (by decide)]

/-- A message that was sent to the validator set. -/
theorem dispatch_validatorsSet {contractAddr : String} {msg : ValidatorsSet.ExecuteMsg}
    {funds : List Coin}
    (h : Observation.dispatch d a env seq w (.validatorsSet contractAddr msg funds) = some w') :
    ∃ s, ValidatorsSet.execute w.validatorsSet ⟨d.factory, funds⟩ a.addrValidate msg = .ok s ∧
      w' = { w with validatorsSet := s } := by
  simp only [Observation.dispatch, Option.bind_eq_bind, Option.bind_eq_some_iff,
    toOption_eq_some, Option.some.injEq] at h
  obtain ⟨-, -, s, hs, rfl⟩ := h
  exact ⟨s, hs, rfl⟩

/-- A message that was sent to the puppeteer. -/
theorem dispatch_puppeteer {contractAddr : String} {msg : FullMsg} {funds : List Coin}
    (h : Observation.dispatch d a env seq w (.puppeteer contractAddr msg funds) = some w') :
    ∃ flight, w.flight.execute a env ⟨d.factory, funds⟩ msg seq = some flight ∧
      w' = { w with flight := flight } := by
  simp only [Observation.dispatch, Option.bind_eq_bind, Option.bind_eq_some_iff,
    Option.some.injEq] at h
  obtain ⟨-, -, flight, hflight, rfl⟩ := h
  exact ⟨flight, hflight, rfl⟩

/-- The owner of the validator set is the owner after an update of the owner's own validators. -/
theorem cwOwner_foldl_saveValidator {s : ValidatorsSet.Storage}
    (validators : List ValidatorsSet.ValidatorData) :
    (validators.foldl ValidatorsSet.Storage.saveValidator s).cwOwner = s.cwOwner := by
  induction validators generalizing s with
  | nil => rfl
  | cons v validators ih =>
    rw [List.foldl_cons, ih]
    rfl

/-- The members of the validator set after a proxy message. -/
def membersAfter (present : List String) : Factory.ProxyMsg → List String
  | .validatorSet (.updateValidators validators) =>
    validators.map ValidatorsSet.ValidatorData.valoperAddress
  | .validatorSet (.updateValidator validator) => validator.valoperAddress :: present
  | .core _ => present

/-- The observed validators after a proxy message. -/
def observedAfter (present : List String) : Factory.ProxyMsg → List String
  | .validatorSet (.updateValidators validators) =>
    validators.map ValidatorsSet.ValidatorData.valoperAddress
  | _ => present

/-- **What a proxy message does.** A new list of validators becomes both the validator set and the
list of observed validators; a single validator joins the validator set alone; the messages for
core leave both alone. -/
theorem exec_proxy {msg : Factory.ProxyMsg} (hw : Deployed d w)
    (h : w.exec d (.proxy a env info msg seq) = some w') :
    Deployed d w' ∧
    (∀ v, v ∈ w'.validatorsSet.addresses ↔ v ∈ membersAfter w.validatorsSet.addresses msg) ∧
    ∀ v, v ∈ w'.flight.contract.observedValidators ↔
      v ∈ observedAfter w.flight.contract.observedValidators msg := by
  simp only [Observation.exec, Factory.executeProxyMsg, Option.bind_eq_bind,
    Option.bind_eq_some_iff, toOption_eq_some, bind_eq_ok] at h
  obtain ⟨msgs, ⟨state, -, -, -, hmsgs⟩, hdispatch⟩ := h
  rcases msg with (validators | validator) | (items | _ | _)
  · rw [← Except.ok.inj hmsgs] at hdispatch
    obtain ⟨w₁, h₁, hdispatch⟩ := Option.bind_eq_some_iff.1 hdispatch
    obtain ⟨w₂, h₂, hdispatch⟩ := Option.bind_eq_some_iff.1 hdispatch
    rw [← Option.some.inj hdispatch]
    obtain ⟨s, hs, rfl⟩ := dispatch_validatorsSet h₁
    obtain ⟨flight, hflight, rfl⟩ := dispatch_puppeteer h₂
    obtain ⟨hobserved, hknown, howner⟩ := execute_registerBalanceDelegations hw.known hflight
    obtain ⟨hkeyed, haddresses⟩ := ValidatorsSet.execute_addresses hw.keyed hs
    have hsetOwner : s.cwOwner = w.validatorsSet.cwOwner := by
      simp only [ValidatorsSet.execute, ValidatorsSet.executeUpdateValidators, bind_eq_ok,
        pure_eq_ok, Except.ok.injEq] at hs
      obtain ⟨-, -, rfl⟩ := hs
      exact cwOwner_foldl_saveValidator validators
    exact ⟨⟨hkeyed, hsetOwner.trans hw.validatorsSetOwner, howner.trans hw.puppeteerOwner, hknown⟩,
      haddresses, hobserved⟩
  · rw [← Except.ok.inj hmsgs] at hdispatch
    obtain ⟨w₁, h₁, hdispatch⟩ := Option.bind_eq_some_iff.1 hdispatch
    rw [← Option.some.inj hdispatch]
    obtain ⟨s, hs, rfl⟩ := dispatch_validatorsSet h₁
    obtain ⟨hkeyed, haddresses⟩ := ValidatorsSet.execute_addresses hw.keyed hs
    have hsetOwner : s.cwOwner = w.validatorsSet.cwOwner := by
      simp only [ValidatorsSet.execute, ValidatorsSet.executeUpdateValidator, bind_eq_ok,
        pure_eq_ok, Except.ok.injEq] at hs
      obtain ⟨-, -, rfl⟩ := hs
      rfl
    exact ⟨⟨hkeyed, hsetOwner.trans hw.validatorsSetOwner, hw.puppeteerOwner, hw.known⟩,
      haddresses, fun _ => Iff.rfl⟩
  · rw [← Except.ok.inj hmsgs] at hdispatch
    obtain ⟨w₁, h₁, hdispatch⟩ := Option.bind_eq_some_iff.1 hdispatch
    obtain ⟨w₂, h₂, hdispatch⟩ := Option.bind_eq_some_iff.1 hdispatch
    rw [← Option.some.inj hdispatch]
    rw [← Option.some.inj h₁] at h₂
    obtain ⟨flight, hflight, rfl⟩ := dispatch_puppeteer h₂
    obtain ⟨hobserved, hknown, howner⟩ := execute_registerNonNativeRewards hw.known hflight
    exact ⟨⟨hw.keyed, hw.validatorsSetOwner, howner.trans hw.puppeteerOwner, hknown⟩,
      fun _ => Iff.rfl, hobserved⟩
  · rw [← Except.ok.inj hmsgs] at hdispatch
    obtain ⟨w₁, h₁, hdispatch⟩ := Option.bind_eq_some_iff.1 hdispatch
    rw [← Option.some.inj hdispatch, ← Option.some.inj h₁]
    exact ⟨hw, fun _ => Iff.rfl, fun _ => Iff.rfl⟩
  · rw [← Except.ok.inj hmsgs] at hdispatch
    obtain ⟨w₁, h₁, hdispatch⟩ := Option.bind_eq_some_iff.1 hdispatch
    rw [← Option.some.inj hdispatch, ← Option.some.inj h₁]
    exact ⟨hw, fun _ => Iff.rfl, fun _ => Iff.rfl⟩

/-- The members and the observed validators are the same right after instantiation: there are
none. -/
theorem ObservationInitial.deployed (h : ObservationInitial d w) : Deployed d w ∧ Observes w := by
  obtain ⟨addrValidate, statsContract, hset⟩ := h.validatorsSet
  simp only [ValidatorsSet.instantiate, bind_eq_ok, pure_eq_ok, Except.ok.injEq] at hset
  obtain ⟨-, -, -, -, hset⟩ := hset
  obtain ⟨addrValidate', config, hcontract⟩ := h.flight.contract
  simp only [Puppeteer.instantiateFull, bind_eq_ok, pure_eq_ok, Except.ok.injEq] at hcontract
  obtain ⟨-, -, -, -, hcontract⟩ := hcontract
  have hset' : w.validatorsSet.validatorsSet = StorageMap.empty := by rw [← hset]
  have hkv : w.flight.contract.puppeteer.kvQueries = StorageMap.empty := by rw [← hcontract]
  refine ⟨⟨?_, by rw [← hset], h.puppeteerOwner, ?_⟩, fun v => ?_⟩
  · intro address validator hload
    simp [hset'] at hload
  · intro id kind hload
    simp [hkv] at hload
  · rw [ValidatorsSet.mem_addresses, Puppeteer.mem_observedValidators, hset']
    constructor
    · rintro ⟨id, keys, ⟨hload, -⟩, -⟩
      simp [hkv] at hload
    · intro hsome
      simp at hsome

/-- The other steps keep the validator set and the queries. -/
theorem exec_other {action : ObservationAction} (hw : Deployed d w)
    (hother : ∀ a env info msg seq, action ≠ .proxy a env info msg seq)
    (h : w.exec d action = some w') :
    Deployed d w' ∧ (∀ v, v ∈ w'.validatorsSet.addresses ↔ v ∈ w.validatorsSet.addresses) ∧
      ∀ v, v ∈ w'.flight.contract.observedValidators ↔
        v ∈ w.flight.contract.observedValidators := by
  cases action with
  | proxy a env info msg seq => exact absurd rfl (hother a env info msg seq)
  | validatorsSet addrValidate info msg =>
    simp only [Observation.exec, Option.bind_eq_bind, Option.bind_eq_some_iff,
      Option.guard_eq_some', toOption_eq_some, Option.some.injEq] at h
    obtain ⟨-, hsender, s, hs, rfl⟩ := h
    rw [← hw.validatorsSetOwner] at hsender
    obtain ⟨haddresses, howner⟩ := ValidatorsSet.execute_of_ne_owner hw.keyed hsender hs
    have hkeyed := (ValidatorsSet.execute_addresses hw.keyed hs).1
    exact ⟨⟨hkeyed, howner.trans hw.validatorsSetOwner, hw.puppeteerOwner, hw.known⟩, haddresses,
      fun _ => Iff.rfl⟩
  | puppeteer e =>
    simp only [Observation.exec, Option.bind_eq_bind, Option.bind_eq_some_iff,
      Option.guard_eq_some', Option.some.injEq] at h
    obtain ⟨-, houtside, flight, hflight, rfl⟩ := h
    rw [← hw.puppeteerOwner] at houtside
    have hsame := exec_sameQueries houtside hflight
    exact ⟨⟨hw.keyed, hw.validatorsSetOwner, hsame.cwOwner.trans hw.puppeteerOwner,
      hsame.known hw.known⟩, fun _ => Iff.rfl, fun _ => hsame.mem_observedValidators⟩

/-- **After a single update** the members are the observed validators exactly when the validator
was a member before. -/
theorem observes_after_updateValidator_iff {validator : ValidatorsSet.ValidatorData}
    (hw : Deployed d w) (hobserves : Observes w)
    (h : ObservationStep d w (.proxy a env info (.validatorSet (.updateValidator validator)) seq)
      w') :
    Observes w' ↔ validator.valoperAddress ∈ w.validatorsSet.addresses := by
  obtain ⟨-, hmembers, hobserved⟩ := exec_proxy hw h
  constructor
  · intro hafter
    have hnew : validator.valoperAddress ∈ w'.validatorsSet.addresses :=
      (hmembers _).2 List.mem_cons_self
    exact (hobserves _).1 ((hobserved _).1 ((hafter _).2 hnew))
  · intro hmember v
    rw [hobserved, hmembers]
    show v ∈ w.flight.contract.observedValidators ↔ v ∈ validator.valoperAddress :: _
    rw [hobserves v, List.mem_cons]
    constructor
    · exact .inr
    · rintro (rfl | hv)
      · exact hmember
      · exact hv

/-- What a step does to the two lists, when single updates are for members. -/
theorem Observes.step {action : ObservationAction} (hobserves : Observes w) (hw : Deployed d w)
    (hmember : action.NamesMember w) (h : ObservationStep d w action w') : Observes w' := by
  by_cases hproxy : ∃ a env info msg seq, action = .proxy a env info msg seq
  · obtain ⟨a, env, info, msg, seq, rfl⟩ := hproxy
    rcases msg with (validators | validator) | msg
    · obtain ⟨-, hmembers, hobserved⟩ := exec_proxy hw h
      exact fun v => (hobserved v).trans (hmembers v).symm
    · exact (observes_after_updateValidator_iff hw hobserves h).2 (hmember _ rfl)
    · obtain ⟨-, hmembers, hobserved⟩ := exec_proxy hw h
      exact fun v => ((hobserved v).trans (hobserves v)).trans (hmembers v).symm
  · obtain ⟨-, hmembers, hobserved⟩ :=
      exec_other hw (fun a env info msg seq heq => hproxy ⟨a, env, info, msg, seq, heq⟩) h
    exact fun v => ((hobserved v).trans (hobserves v)).trans (hmembers v).symm

/-- Every step keeps the deployment. -/
theorem Deployed.step {action : ObservationAction} (hw : Deployed d w)
    (h : ObservationStep d w action w') : Deployed d w' := by
  by_cases hproxy : ∃ a env info msg seq, action = .proxy a env info msg seq
  · obtain ⟨a, env, info, msg, seq, rfl⟩ := hproxy
    exact (exec_proxy hw h).1
  · exact (exec_other hw (fun a env info msg seq heq => hproxy ⟨a, env, info, msg, seq, heq⟩) h).1

end Proxy

/-! ## Runs -/

/-- A state of some run whose steps all satisfy `ok`. -/
def Observable (d : FactoryDeployment) (ok : Observation → ObservationAction → Prop)
    (w : Observation) : Prop :=
  ∃ w₀, ObservationInitial d w₀ ∧ RunWhere (ObservationStep d) ok w₀ w

section Runs

variable {d : FactoryDeployment} {w : Observation}

/-- **Every validator that can receive stake is observed**, in every run whose single updates are
for members of the validator set; so the delegations to all validators that the validator set
reports are read.

**Proof sketch.** An update of the list makes both the members and the observed validators out of
the one list. A single update only adds to the members, and adds nothing that is not there. -/
theorem validators_observed
    (h : Observable d (fun w action => action.NamesMember w) w) :
    Observes w ∧ ∀ v ∈ ValidatorsSet.queryValidators w.validatorsSet,
      v.valoperAddress ∈ w.flight.contract.observedValidators := by
  obtain ⟨w₀, hinit, hrun⟩ := h
  have hdeployed : Deployed d w :=
    hrun.preserves (fun s action t _ hstep hs => hs.step hstep) hinit.deployed.1
  have hobserves : Observes w :=
    hrun.preserves_of (fun s action t hstep hs => Deployed.step hs hstep)
      (fun s action t hs hok hstep hobserves => hobserves.step hs hok hstep) hinit.deployed.1
      hinit.deployed.2
  refine ⟨hobserves, fun v hv => ?_⟩
  exact (hobserves _).2 ((ValidatorsSet.mem_queryValidators hdeployed.keyed).1 ⟨v, hv, rfl⟩)

namespace Sample

/-- The deployment of a factory. -/
def factoryDeployment : FactoryDeployment := ⟨"factory", "puppeteer", "validators_set"⟩

/-- The contracts right after the factory has instantiated them. -/
def observation : Observation where
  factory := ⟨"owner", some ⟨"core", "puppeteer", "validators_set"⟩⟩
  validatorsSet := ⟨⟨"factory", "stats", none⟩, "factory", StorageMap.empty⟩
  flight := { flight with
    contract := ⟨{
      Puppeteer.instantiate { puppeteerConfig with owner := "factory" } with
      cwOwner := "factory"
      kvQueries := StorageMap.empty
      unbondingDelegations := StorageMap.empty
      unbondingDelegationsReplyIdStorage := StorageMap.empty
      recipientTransfers := [] }, StorageMap.empty, 0⟩ }

/-- The contracts are in an initial state. -/
theorem observation_spec : ObservationInitial factoryDeployment observation :=
  ⟨⟨addresses.addrValidate, "stats", rfl⟩,
    ⟨⟨addresses.addrValidate, { puppeteerConfig with owner := "factory" }, rfl⟩, rfl, rfl, rfl⟩,
    rfl⟩

/-- A message of the factory's owner for the validator set. -/
def proxy (msg : Factory.ValidatorSetMsg) : ObservationAction :=
  .proxy addresses ⟨1, ⟨1000 * nanosPerSecond⟩, "factory"⟩ ⟨"owner", []⟩ (.validatorSet msg) 0

/-- The account is registered, a validator is listed, and a single validator is updated. -/
def validatorUpdates (single : String) : List ObservationAction := [
  .puppeteer (message "factory" [] 0 (.setFees 0 0 0 0)),
  .puppeteer (message "bob" [] 0 .registerICA),
  .puppeteer (.openAck (some "ica")),
  proxy (.updateValidators [⟨"valoper1", 100⟩]),
  proxy (.updateValidator ⟨single, 50⟩)]

end Sample

open Sample

/-- A list of actions is run by evaluation. -/
theorem observable_of_runList {ok : Observation → ObservationAction → Prop}
    {check : Observation → ObservationAction → Bool} {actions : List ObservationAction}
    (hok : ∀ s, ∀ action ∈ actions, check s action = true → ok s action)
    (h : runList (Observation.exec factoryDeployment) check observation actions = some w) :
    Observable factoryDeployment ok w :=
  ⟨observation, observation_spec, runList_eq_some (fun _ _ _ hstep => hstep) hok h⟩

/-- A list of one validator, and an update of this validator. -/
theorem validators_observed_sample : ∃ w : Observation, Observes w ∧
    w.validatorsSet.addresses = ["valoper1"] ∧
      w.flight.contract.observedValidators = ["valoper1"] := by
  have hrun : (runList (Observation.exec factoryDeployment)
      (fun w action => decide (action.NamesMember w)) observation
      (validatorUpdates "valoper1")).any
      (fun w => decide (w.validatorsSet.addresses = ["valoper1"] ∧
        w.flight.contract.observedValidators = ["valoper1"])) = true := by
    decide
  obtain ⟨w, hw, hcheck⟩ := (Option.any_eq_true _ _).1 hrun
  have hobservable := observable_of_runList (fun s action _ h => of_decide_eq_true h) hw
  exact ⟨w, (validators_observed hobservable).1, of_decide_eq_true hcheck⟩

/-- **The update of a single validator does not reach the query.** A new validator becomes a member
of the validator set, and the delegations to it are not read. -/
theorem validator_unobserved : ¬ ∀ w, Observable factoryDeployment (fun _ _ => True) w →
    Observes w := by
  intro hall
  have hrun : (runList (Observation.exec factoryDeployment) (fun _ _ => true) observation
      (validatorUpdates "valoper2")).any (fun w => decide (
        w.validatorsSet.addresses = ["valoper1", "valoper2"] ∧
        w.flight.contract.observedValidators = ["valoper1"])) = true := by
    decide
  obtain ⟨w, hw, hcheck⟩ := (Option.any_eq_true _ _).1 hrun
  obtain ⟨hmembers, hobserved⟩ := of_decide_eq_true hcheck
  have hobserves := hall w (observable_of_runList (fun _ _ _ _ => trivial) hw)
  have hmem := (hobserves "valoper2").2 (by rw [hmembers]; decide)
  rw [hobserved] at hmem
  exact absurd hmem (by decide)

end Runs

end System

end DropContracts
