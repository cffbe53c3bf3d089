import DropContracts.Puppeteer.Replies

set_option relaxedAutoImplicit false
set_option autoImplicit false

/-!
# Queries for unbonding delegations

The records of the unbonding delegations along every run of the puppeteer, and the queries that are
registered for a list of validators: each validator ends up with the query that reads its own
delegation.

## Main definitions

* `Puppeteer.Replies.Filed`, `Puppeteer.Replies.Settled` — what holds of the records between two
  replies, and between two calls.
* `Puppeteer.Replies.ReplyCase` — the things a successful reply can do.
* `Puppeteer.Replies.Assigned`, `Puppeteer.Replies.OwnQueries` — each validator has a query of its
  own.

## Main results

* `Puppeteer.Replies.reply_ok` — a reply that returns does one of the things of `ReplyCase`.
* `Puppeteer.Replies.settled_of_run` — the records along every run.
* `Puppeteer.Replies.own_queries` — the queries for the unbonding delegations, and their replies.
-/

namespace DropContracts

namespace Puppeteer

namespace Replies

open Exec Icq

/-! ## The records along a run -/

/-- The records between two replies: each is stored under the address of its validator, its query is
a stored one, and no two records share a query. -/
structure Filed (records : StorageMap String UnbondingDelegation)
    (queries : StorageMap ℕ KVQueryType) : Prop where
  named : ∀ v d, records.load v = some d → d.validatorAddress = v
  known : ∀ v d, records.load v = some d → queries.load d.queryId ≠ none
  unique : ∀ v v' d d', records.load v = some d → records.load v' = some d' →
    d.queryId = d'.queryId → v = v'

/-- The records between two calls: no validator waits for a reply. -/
structure Settled (s : FullStorage) : Prop where
  filed : Filed s.unbondingDelegations s.kvQueries
  noneWaiting : s.unbondingDelegationsReplyIdStorage = StorageMap.empty

/-- What a reply that returns can have done. -/
inductive ReplyCase (s : FullStorage) (msg : Reply) : FullStorage → Prop
  | items (t : Storage) (hid : ∀ i, toReplyId (.kvUnbondingDelegations i) ≠ msg.id) :
      ReplyCase s msg { s with toStorage := t }
  | query (queryId : ℕ) (queryType : KVQueryType)
      (hid : ∀ i, toReplyId (.kvUnbondingDelegations i) ≠ msg.id) :
      ReplyCase s msg { s with kvQueries := s.kvQueries.save queryId queryType }
  | record (i : UInt16) (waiting : UnbondingDelegation) (queryId : ℕ)
      (hid : toReplyId (.kvUnbondingDelegations i) = msg.id)
      (hwaiting : s.unbondingDelegationsReplyIdStorage.load i.toNat = some waiting)
      (hunique : ∀ v d, s.unbondingDelegations.load v = some d → v ≠ waiting.validatorAddress →
        d.queryId ≠ queryId) :
      ReplyCase s msg { s with
        unbondingDelegationsReplyIdStorage :=
          s.unbondingDelegationsReplyIdStorage.remove i.toNat
        unbondingDelegations := s.unbondingDelegations.save waiting.validatorAddress
          { waiting with queryId := queryId }
        kvQueries := s.kvQueries.save queryId .unbondingDelegations }

section Records

variable {s t : FullStorage} {records : StorageMap String UnbondingDelegation}
  {queries : StorageMap ℕ KVQueryType} {record : UnbondingDelegation}

/-- A record is stored when no other one has its query. -/
theorem saveUnbondingDelegation_eq_ok {records' : StorageMap String UnbondingDelegation} :
    saveUnbondingDelegation records record = .ok records' ↔
      (∀ v d, records.load v = some d → v ≠ record.validatorAddress →
        d.queryId ≠ record.queryId) ∧
      records' = records.save record.validatorAddress record := by
  simp only [saveUnbondingDelegation, bind_eq_ok, ensure_eq_ok, pure_eq_ok, Except.ok.injEq]
  constructor
  · rintro ⟨-, hunique, rfl⟩
    exact ⟨fun v d hload => hunique (v, d) (StorageMap.mem_entries.2 hload), rfl⟩
  · rintro ⟨hunique, rfl⟩
    exact ⟨(), fun e he => hunique e.1 e.2 (StorageMap.mem_entries.1 he), rfl⟩

/-- **What a reply does**, by what its id is read as. -/
theorem reply_ok {msg : Reply} (h : reply s msg = .ok t) : ReplyCase s msg t := by
  unfold reply at h
  cases hkind : fromReplyId msg.id with
  | none =>
    rw [hkind] at h
    exact absurd h abort_ne_ok
  | some kind =>
    rw [hkind] at h
    rw [fromReplyId_eq_some] at hkind
    -- the id of another kind is not that of an index
    have hother : (∀ i, kind ≠ .kvUnbondingDelegations i) →
        ∀ i, toReplyId (.kvUnbondingDelegations i) ≠ msg.id := by
      intro hne i hi
      have hread := fromReplyId_eq_some.2 hi
      rw [fromReplyId_eq_some.2 hkind] at hread
      exact hne i (Option.some.inj hread)
    cases kind with
    | sudoPayload =>
      simp only [replyTo, submitTxReply, bind_eq_ok, pure_eq_ok, Except.ok.injEq] at h
      obtain ⟨_, -, items, -, rfl⟩ := h
      exact .items items (hother (by simp))
    | ibcTransfer =>
      simp only [replyTo, submitTxReply, bind_eq_ok, pure_eq_ok, Except.ok.injEq] at h
      obtain ⟨_, -, items, -, rfl⟩ := h
      exact .items items (hother (by simp))
    | kvDelegationsAndBalance =>
      simp only [replyTo, registerKvQueryReply, bind_eq_ok, pure_eq_ok, Except.ok.injEq] at h
      obtain ⟨queryId, -, rfl⟩ := h
      exact .query queryId _ (hother (by simp))
    | kvNonNativeRewardsBalances =>
      simp only [replyTo, registerKvQueryReply, bind_eq_ok, pure_eq_ok, Except.ok.injEq] at h
      obtain ⟨queryId, -, rfl⟩ := h
      exact .query queryId _ (hother (by simp))
    | kvUnbondingDelegations i =>
      simp only [replyTo, registerUnbondingDelegationsQueryReply, bind_eq_ok, orError_eq_ok,
        saveUnbondingDelegation_eq_ok, pure_eq_ok, Except.ok.injEq] at h
      obtain ⟨waiting, hwaiting, queryId, -, _, ⟨hunique, rfl⟩, rfl⟩ := h
      exact .record i waiting queryId hkind hwaiting hunique

/-- A query that is stored has a kind afterwards, and so has every one that had. -/
theorem load_save_ne_none {queryId id : ℕ} {queryType : KVQueryType}
    (h : id ≠ queryId → queries.load id ≠ none) :
    (queries.save queryId queryType).load id ≠ none := by
  rw [StorageMap.load_save]
  split_ifs with hid
  · simp
  · exact h hid

/-- A new query leaves the records filed. -/
theorem Filed.saveQuery (h : Filed records queries) (queryId : ℕ) (queryType : KVQueryType) :
    Filed records (queries.save queryId queryType) where
  named := h.named
  known v d hload := load_save_ne_none fun _ => h.known v d hload
  unique := h.unique

/-- A record is filed when its query is stored and no other record has it. -/
theorem Filed.saveRecord (h : Filed records queries) (record : UnbondingDelegation)
    (hknown : queries.load record.queryId ≠ none)
    (hunique : ∀ v d, records.load v = some d → v ≠ record.validatorAddress →
      d.queryId ≠ record.queryId) :
    Filed (records.save record.validatorAddress record) queries where
  named v d hload := by
    rw [StorageMap.load_save] at hload
    split_ifs at hload with hv
    · rw [← Option.some.inj hload, hv]
    · exact h.named v d hload
  known v d hload := by
    rw [StorageMap.load_save] at hload
    split_ifs at hload with hv
    · rw [← Option.some.inj hload]
      exact hknown
    · exact h.known v d hload
  unique v v' d d' hload hload' hid := by
    rw [StorageMap.load_save] at hload hload'
    split_ifs at hload hload' with hv hv' hv'
    · rw [hv, hv']
    · rw [← Option.some.inj hload] at hid
      exact absurd hid.symm (hunique v' d' hload' hv')
    · rw [← Option.some.inj hload'] at hid
      exact absurd hid (hunique v d hload hv)
    · exact h.unique v v' d d' hload hload' hid

/-- **A reply leaves the records filed.** -/
theorem reply_filed {msg : Reply} (h : reply s msg = .ok t)
    (hfiled : Filed s.unbondingDelegations s.kvQueries) :
    Filed t.unbondingDelegations t.kvQueries := by
  cases reply_ok h with
  | items items hid => exact hfiled
  | query queryId queryType hid => exact hfiled.saveQuery queryId queryType
  | record i waiting queryId hid hwaiting hunique =>
    have hknown : (s.kvQueries.save queryId .unbondingDelegations).load queryId ≠ none := by
      simp
    exact (hfiled.saveQuery queryId .unbondingDelegations).saveRecord
      { waiting with queryId := queryId } hknown hunique

/-- A result of a query leaves the records filed: a record keeps its validator and its query. -/
theorem sudoKvQueryResult_settled {env : Env} {queryId : ℕ} {result : KvResult}
    (h : sudoKvQueryResult s env queryId result = .ok t) (hsettled : Settled s) : Settled t := by
  simp only [sudoKvQueryResult, bind_eq_ok] at h
  obtain ⟨queryType, -, h⟩ := h
  cases queryType with
  | delegationsAndBalance =>
    simp only [bind_eq_ok, pure_eq_ok, Except.ok.injEq] at h
    obtain ⟨data, -, rfl⟩ := h
    exact ⟨hsettled.filed, hsettled.noneWaiting⟩
  | nonNativeRewardsBalances =>
    simp only [bind_eq_ok, pure_eq_ok, Except.ok.injEq] at h
    obtain ⟨coins, -, rfl⟩ := h
    exact ⟨hsettled.filed, hsettled.noneWaiting⟩
  | unbondingDelegations =>
    simp only [sudoUnbondingDelegations] at h
    split at h
    · rw [← Except.ok.inj h]
      exact hsettled
    · next e hfind =>
      simp only [bind_eq_ok, pure_eq_ok, Except.ok.injEq] at h
      obtain ⟨entries, -, rfl⟩ := h
      have hload : s.unbondingDelegations.load e.1 = some e.2 :=
        StorageMap.mem_entries.1 (List.mem_of_find?_eq_some hfind)
      have hname := hsettled.filed.named _ _ hload
      have hknown := hsettled.filed.known _ _ hload
      have hunique : ∀ v d, s.unbondingDelegations.load v = some d → v ≠ e.2.validatorAddress →
          d.queryId ≠ e.2.queryId := by
        intro v d hv hne hid
        exact hne ((hsettled.filed.unique _ _ _ _ hv hload hid).trans hname.symm)
      exact ⟨hsettled.filed.saveRecord ⟨_, _, entries, env.height⟩ hknown hunique,
        hsettled.noneWaiting⟩

end Records

/-! ## Calls and runs -/

section Runs

variable {s t : FullStorage} {msgs : List SubMsg} {outcomes : List Outcome} {i n : ℕ}

/-- Replies leave the records filed. -/
theorem deliver_filed {replies : List Reply} (h : deliver s replies = some t)
    (hfiled : Filed s.unbondingDelegations s.kvQueries) :
    Filed t.unbondingDelegations t.kvQueries :=
  foldlM_preserves (P := fun s : FullStorage => Filed s.unbondingDelegations s.kvQueries)
    (fun _ _ _ hreply => reply_filed (toOption_eq_some.1 hreply)) h hfiled

/-- Where no validator waits, a reply for one of them fails. -/
theorem reply_settled {msg : Reply} (h : reply s msg = .ok t) (hsettled : Settled s) :
    Settled t := by
  refine ⟨reply_filed h hsettled.filed, ?_⟩
  cases reply_ok h with
  | items items hid => exact hsettled.noneWaiting
  | query queryId queryType hid => exact hsettled.noneWaiting
  | record i waiting queryId hid hwaiting hunique =>
    rw [hsettled.noneWaiting, StorageMap.load_empty] at hwaiting
    cases hwaiting

/-- The ids of the replies start with that of the first position. -/
theorem replyIds_succ (i n : ℕ) : replyIds i (n + 1) =
    toReplyId (.kvUnbondingDelegations (UInt16.ofNat i)) :: replyIds (i + 1) n := by
  rw [replyIds, List.range'_succ]
  rfl

/-- Each reply takes its validator out of those that wait, so that after all of them none waits. -/
theorem deliver_noneWaiting (hlength : outcomes.length = n) (hfits : i + n ≤ 65536)
    (hwaiting : ∀ j, ¬ (i ≤ j ∧ j < i + n) → s.unbondingDelegationsReplyIdStorage.load j = none)
    (h : deliver s (List.zipWith Reply.mk (replyIds i n) outcomes) = some t) :
    t.unbondingDelegationsReplyIdStorage = StorageMap.empty := by
  induction outcomes generalizing s i n with
  | nil =>
    obtain rfl : n = 0 := hlength.symm
    obtain rfl : s = t := Option.some.inj h
    exact StorageMap.eq_empty_of_load fun j => hwaiting j (by omega)
  | cons outcome outcomes ih =>
    obtain rfl : n = outcomes.length + 1 := hlength.symm
    rw [replyIds_succ] at h
    obtain ⟨u, hu, hrest⟩ := Option.bind_eq_some_iff.1 h
    refine ih (s := u) rfl (by omega) (fun j hj => ?_) hrest
    cases reply_ok (toOption_eq_some.1 hu) with
    | items items hid => exact absurd rfl (hid (UInt16.ofNat i))
    | query queryId queryType hid => exact absurd rfl (hid (UInt16.ofNat i))
    | record k waiting queryId hid _ _ =>
      obtain rfl : k = UInt16.ofNat i := by
        have hread := fromReplyId_eq_some.2 hid
        rw [fromReplyId_toReplyId] at hread
        exact (ReplyMsg.kvUnbondingDelegations.inj (Option.some.inj hread)).symm
      show (s.unbondingDelegationsReplyIdStorage.remove (UInt16.ofNat i).toNat).load j = none
      rw [toNat_ofNat (by omega), StorageMap.load_remove]
      split_ifs with hji
      · rfl
      · exact hwaiting j (by omega)

/-- **What one call does to the records**: they are settled again after it. -/
theorem callStep_settled {call : Call} (h : CallStep s call t) (hsettled : Settled s) :
    Settled t := by
  cases call with
  | message a info env msg outcomes =>
    simp only [CallStep, exec, Option.bind_eq_bind, Option.bind_eq_some_iff] at h
    obtain ⟨⟨u, msgs⟩, hexecute, h⟩ := h
    split_ifs at h with hlength
    obtain ⟨items, owner, rfl⟩ | ⟨validators, rfl, hregister⟩ :=
      execute_frame (toOption_eq_some.1 hexecute)
    · exact foldlM_preserves (fun _ _ _ hreply => reply_settled (toOption_eq_some.1 hreply)) h
        ⟨hsettled.filed, hsettled.noneWaiting⟩
    · obtain ⟨-, hfew, delegator, -, -, rfl, rfl⟩ :=
        registerUnbondingDelegationsQuery_eq_ok.1 hregister
      rw [repliesTo, filterMap_replyId] at h
      rw [filterMap_replyId, replyIds, List.length_map, List.length_range'] at hlength
      refine ⟨deliver_filed h hsettled.filed, ?_⟩
      refine deliver_noneWaiting hlength (by omega) (fun j hj => ?_) h
      rw [load_waitFrom, if_neg hj, hsettled.noneWaiting, StorageMap.load_empty]
  | response seq =>
    obtain ⟨out, -, rfl⟩ := Option.map_eq_some_iff.1 h
    exact ⟨hsettled.filed, hsettled.noneWaiting⟩
  | error seq details =>
    obtain ⟨out, -, rfl⟩ := Option.map_eq_some_iff.1 h
    exact ⟨hsettled.filed, hsettled.noneWaiting⟩
  | timeout seq =>
    obtain ⟨out, -, rfl⟩ := Option.map_eq_some_iff.1 h
    exact ⟨hsettled.filed, hsettled.noneWaiting⟩
  | openAck address =>
    obtain ⟨items, -, rfl⟩ := Option.map_eq_some_iff.1 h
    exact ⟨hsettled.filed, hsettled.noneWaiting⟩
  | kvQueryResult env queryId result =>
    exact sudoKvQueryResult_settled (toOption_eq_some.1 h) hsettled
  | txQueryResult transfers =>
    have htransfers := toOption_eq_some.1 h
    simp only [sudoTxQueryResult, bind_eq_ok, pure_eq_ok, Except.ok.injEq] at htransfers
    obtain ⟨ica, -, -, -, rfl⟩ := htransfers
    exact ⟨hsettled.filed, hsettled.noneWaiting⟩

/-- There are no records at the start. -/
theorem settled_of_instantiate {addrValidate : String → Bool} {config : Config}
    (h : instantiateFull addrValidate config = .ok s) : Settled s := by
  simp only [instantiateFull, bind_eq_ok, pure_eq_ok, Except.ok.injEq] at h
  obtain ⟨-, -, -, -, rfl⟩ := h
  exact ⟨⟨by simp, by simp, by simp⟩, rfl⟩

/-- **The records along every run** are settled after each call. -/
theorem settled_of_run {addrValidate : String → Bool} {config : Config} {s₀ : FullStorage}
    (hinit : instantiateFull addrValidate config = .ok s₀) (hrun : Run CallStep s₀ s) :
    Settled s :=
  hrun.preserves (fun _ _ _ _ hcall => callStep_settled hcall) (settled_of_instantiate hinit)

end Runs

/-! ## Each validator has a query of its own -/

/-- The records and the queries after the replies for a list of validators, with the given ids: each
validator has a new record with its own id, exactly these ids are new, each for the kind of such
queries, and everything else is as before. -/
structure Assigned (s t : FullStorage) (validators : List String) (ids : List ℕ) : Prop where
  records : ∀ (k : ℕ) (v : String) (id : ℕ), validators[k]? = some v → ids[k]? = some id →
    t.unbondingDelegations.load v = some { waitingFor v with queryId := id }
  others : ∀ v, v ∉ validators → t.unbondingDelegations.load v = s.unbondingDelegations.load v
  queries : ∀ id, t.kvQueries.load id =
    if id ∈ ids then some .unbondingDelegations else s.kvQueries.load id
  frame : t = { s with
    kvQueries := t.kvQueries
    unbondingDelegations := t.unbondingDelegations
    unbondingDelegationsReplyIdStorage := t.unbondingDelegationsReplyIdStorage }

/-- Each validator has a query of its own, and none waits for one. -/
structure OwnQueries (s t : FullStorage) (validators : List String) (ids : List ℕ) : Prop
    extends Assigned s t validators ids where
  noneWaiting : t.unbondingDelegationsReplyIdStorage = StorageMap.empty

section Own

variable {s t : FullStorage} {validators : List String} {ids : List ℕ} {outcomes : List Outcome}
  {i : ℕ}

/-- The outcomes carry the given ids of new queries. -/
def Carry (outcomes : List Outcome) (ids : List ℕ) : Prop :=
  List.Forall₂ (fun outcome id => outcome.readAs ReplyData.queryId = .ok (some (.ok id)))
    outcomes ids

/-- The contract after the reply for the validator that waits under a position. -/
def afterReply (s : FullStorage) (i : ℕ) (v : String) (id : ℕ) : FullStorage :=
  { s with
    unbondingDelegationsReplyIdStorage := s.unbondingDelegationsReplyIdStorage.remove i
    unbondingDelegations := s.unbondingDelegations.save v { waitingFor v with queryId := id }
    kvQueries := s.kvQueries.save id .unbondingDelegations }

/-- The reply for the first of the validators, with an id that is not stored yet. -/
theorem reply_first {outcome : Outcome} {v : String} {id : ℕ}
    (hfiled : Filed s.unbondingDelegations s.kvQueries) (hi : i < 65536)
    (hwaiting : s.unbondingDelegationsReplyIdStorage.load i = some (waitingFor v))
    (houtcome : outcome.readAs ReplyData.queryId = .ok (some (.ok id)))
    (hfresh : s.kvQueries.load id = none) :
    reply s ⟨toReplyId (.kvUnbondingDelegations (UInt16.ofNat i)), outcome⟩ =
      .ok (afterReply s i v id) := by
  have hnew : ∀ e ∈ s.unbondingDelegations.entries, e.2.queryId ≠ id := by
    intro e he heq
    refine hfiled.known _ _ (StorageMap.mem_entries.1 he) ?_
    rw [heq, hfresh]
  have hindex : ∀ j, Icq.ReplyMsg.kvUnbondingDelegations i = .kvUnbondingDelegations j →
      j < 65536 := by
    rintro j ⟨⟩
    exact hi
  refine (reply_eq_replyIcq hindex houtcome hnew).trans ?_
  rw [replyIcq, hwaiting]
  rfl

/-- What the replies for the other validators do leaves the first record alone. -/
theorem Assigned.cons {v : String} {id : ℕ} (hv : v ∉ validators)
    (h : Assigned (afterReply s i v id) t validators ids) :
    Assigned s t (v :: validators) (id :: ids) where
  records k w id' hk hk' := by
    cases k with
    | zero =>
      obtain rfl := Option.some.inj hk
      obtain rfl := Option.some.inj hk'
      rw [h.others v hv]
      exact StorageMap.load_save_self _ _ _
    | succ k =>
      rw [List.getElem?_cons_succ] at hk hk'
      exact h.records k w id' hk hk'
  others w hw := by
    obtain ⟨hne, hw⟩ := not_or.1 (mt List.mem_cons.2 hw)
    rw [h.others w hw]
    exact StorageMap.load_save_of_ne _ _ hne
  queries id' := by
    rw [h.queries id']
    show (if id' ∈ ids then _ else (s.kvQueries.save id .unbondingDelegations).load id') = _
    rw [StorageMap.load_save]
    by_cases hhead : id' = id
    · simp [hhead]
    · simp [hhead]
  frame := by rw [h.frame, afterReply]

/-- **The replies give each validator its query.**

**Proof sketch.** Induction on the validators. The reply for the first one finds it under its
position and takes it out (`reply_first`); the others still wait, and their ids are still new. The
validators are distinct, so that the first record stays (`Assigned.cons`). -/
theorem deliver_assigned (hfiled : Filed s.unbondingDelegations s.kvQueries)
    (hfits : i + validators.length ≤ 65536)
    (hwaiting : ∀ k v, validators[k]? = some v →
      s.unbondingDelegationsReplyIdStorage.load (i + k) = some (waitingFor v))
    (hvalidators : validators.Nodup) (hcarry : Carry outcomes ids)
    (hlength : ids.length = validators.length) (hids : ids.Nodup)
    (hfresh : ∀ id ∈ ids, s.kvQueries.load id = none) :
    ∃ t, deliver s (List.zipWith Reply.mk (replyIds i validators.length) outcomes) = some t ∧
      Assigned s t validators ids := by
  induction hcarry generalizing s i validators with
  | nil =>
    obtain rfl : validators = [] := List.eq_nil_of_length_eq_zero hlength.symm
    exact ⟨s, rfl, by simp, fun _ _ => rfl, by simp, rfl⟩
  | @cons outcome id outcomes ids houtcome hrest ih =>
    obtain ⟨v, validators, rfl⟩ := List.exists_cons_of_length_eq_add_one hlength.symm
    rw [List.length_cons] at hfits
    obtain ⟨hv, hvalidators⟩ := List.nodup_cons.1 hvalidators
    obtain ⟨hid, hids⟩ := List.nodup_cons.1 hids
    have hfirst := reply_first hfiled (by omega) (hwaiting 0 v rfl) houtcome
      (hfresh id List.mem_cons_self)
    have hwaiting' : ∀ k w, validators[k]? = some w →
        (afterReply s i v id).unbondingDelegationsReplyIdStorage.load (i + 1 + k) =
          some (waitingFor w) := by
      intro k w hk
      have hold := hwaiting (k + 1) w (by rwa [List.getElem?_cons_succ])
      rw [afterReply, StorageMap.load_remove, if_neg (by omega), ← hold]
      congr 1
      omega
    have hfresh' : ∀ id' ∈ ids, (afterReply s i v id).kvQueries.load id' = none := by
      intro id' hmem
      rw [afterReply, StorageMap.load_save_of_ne]
      · exact hfresh id' (List.mem_cons_of_mem _ hmem)
      · rintro rfl
        exact hid hmem
    obtain ⟨t, hdeliver, hassigned⟩ := ih (reply_filed hfirst hfiled) (by omega) hwaiting'
      hvalidators (Nat.succ.inj hlength) hids hfresh'
    refine ⟨t, ?_, hassigned.cons hv⟩
    rw [List.length_cons, replyIds_succ]
    exact Option.bind_eq_some_iff.2 ⟨_, toOption_eq_some.2 hfirst, hdeliver⟩

/-- **Each validator's unbonding record gets its own query.** In every state that is reached from
`instantiate`, for every list of fewer than 65535 distinct validators: the message that registers
the queries for their unbonding delegations sends one query for each of them, and when the replies
come, in order and each with an id that is not stored yet, the call returns. Then the record of each
validator has the id of the query that reads its delegation, exactly the new ids are stored for such
queries, everything else is as before, and no validator waits for a reply. An id of a reply is read
as the one thing it was made from, so that no reply goes to the handler of another kind.

The conditions on the message are those under which it is accepted
(`registerUnbondingDelegationsQuery_eq_ok`).

**Proof sketch.** Before the call no validator waits and every record has a stored query
(`settled_of_run`), so a new id never violates the index on the ids. The positions fit a `u16`, so
that the reply for each position finds its validator (`deliver_assigned`) and takes it out
(`deliver_noneWaiting`). -/
theorem own_queries {addrValidate : String → Bool} {config : Config} {s₀ : FullStorage}
    {a : Addresses} {info : MessageInfo} {env : Env} {delegator : String}
    (hinit : instantiateFull addrValidate config = .ok s₀) (hrun : Run CallStep s₀ s)
    (howner : info.sender = s.cwOwner) (hica : s.icaAddress = .ok delegator)
    (hdecodes : ∀ v ∈ validators, a.decodes delegator = true ∧ a.decodes v = true)
    (hfew : validators.length < 65535) (hvalidators : validators.Nodup)
    (hcarry : Carry outcomes ids) (hlength : ids.length = validators.length) (hids : ids.Nodup)
    (hfresh : ∀ id ∈ ids, s.kvQueries.load id = none) :
    (∃ u, execute s a info env (.registerDelegatorUnbondingDelegationsQuery validators) =
      .ok (u, validators.zipIdx.map (registration s.config delegator))) ∧
    (∃ t, exec s (.message a info env (.registerDelegatorUnbondingDelegationsQuery validators)
        outcomes) = some t ∧ OwnQueries s t validators ids) ∧
    ∀ replyId kind, fromReplyId replyId = some kind ↔ toReplyId kind = replyId := by
  have hsettled := settled_of_run hinit hrun
  have hexecute : execute s a info env (.registerDelegatorUnbondingDelegationsQuery validators) =
      .ok ({ s with
        unbondingDelegationsReplyIdStorage :=
          waitFrom s.unbondingDelegationsReplyIdStorage 0 validators },
        validators.zipIdx.map (registration s.config delegator)) :=
    registerUnbondingDelegationsQuery_eq_ok.2
      ⟨howner, hfew, delegator, hica, hdecodes, rfl, rfl⟩
  refine ⟨⟨_, hexecute⟩, ?_, fun _ _ => fromReplyId_eq_some⟩
  set u : FullStorage := { s with
    unbondingDelegationsReplyIdStorage :=
      waitFrom s.unbondingDelegationsReplyIdStorage 0 validators }
  have hwaiting : ∀ k v, validators[k]? = some v →
      u.unbondingDelegationsReplyIdStorage.load (0 + k) = some (waitingFor v) := by
    intro k v hk
    obtain ⟨hlt, -⟩ := List.getElem?_eq_some_iff.1 hk
    show (waitFrom s.unbondingDelegationsReplyIdStorage 0 validators).load (0 + k) = _
    rw [load_waitFrom, if_pos (by omega), Nat.sub_zero, Nat.zero_add, hk]
    rfl
  have hnone : ∀ j, ¬ (0 ≤ j ∧ j < 0 + validators.length) →
      u.unbondingDelegationsReplyIdStorage.load j = none := by
    intro j hj
    show (waitFrom s.unbondingDelegationsReplyIdStorage 0 validators).load j = _
    rw [load_waitFrom, if_neg hj, hsettled.noneWaiting, StorageMap.load_empty]
  have houtcomes : outcomes.length = validators.length := hcarry.length_eq.trans hlength
  obtain ⟨t, hdeliver, hassigned⟩ := deliver_assigned (s := u) (i := 0) hsettled.filed (by omega)
    hwaiting hvalidators hcarry hlength hids hfresh
  refine ⟨t, ?_, ⟨⟨hassigned.records, hassigned.others, hassigned.queries, ?_⟩, ?_⟩⟩
  · simp only [exec, hexecute, Except.toOption, Option.bind_eq_bind, Option.bind_some]
    rw [repliesTo, filterMap_replyId, if_pos]
    · exact hdeliver
    · rw [houtcomes, replyIds, List.length_map, List.length_range']
  · rw [hassigned.frame]
  · exact deliver_noneWaiting houtcomes (by omega) hnone hdeliver

end Own

/-! ## A run -/

section Sample

/-- A configuration of the contract. -/
def sampleConfig : Config where
  connectionId := "connection-0"
  portId := "transfer"
  updatePeriod := 60
  remoteDenom := "uatom"
  owner := "owner"
  allowedSenders := []
  proxyAddress := none
  transferChannelId := "channel-0"
  sdkVersion := "0.47.0"

/-- All addresses are valid here and can be decoded. -/
def sampleAddresses : Addresses := ⟨fun _ => true, fun _ => true⟩

/-- The contract after `instantiate`. -/
def sampleStart : FullStorage :=
  { instantiate sampleConfig with
    cwOwner := "owner"
    kvQueries := StorageMap.empty
    unbondingDelegations := StorageMap.empty
    unbondingDelegationsReplyIdStorage := StorageMap.empty
    recipientTransfers := [] }

/-- The contract with an account and the query 3 for one validator. -/
def sampleOne : FullStorage :=
  { sampleStart with
    ica := .registered "ica"
    kvQueries := StorageMap.empty.save 3 .unbondingDelegations
    unbondingDelegations := StorageMap.empty.save "valoper1" ⟨"valoper1", 3, [], 0⟩ }

/-- The outcome of a message that registers a query, with the id of the query. -/
def registeredAs (queryId : ℕ) : Outcome := .ok (some ⟨.ok queryId, .error "missing field"⟩)

/-- The owner registers queries for the unbonding delegations to the given validators. -/
def sampleCall (validators : List String) (ids : List ℕ) : Call :=
  .message sampleAddresses ⟨"owner", []⟩ ⟨10, ⟨1000⟩, "puppeteer"⟩
    (.registerDelegatorUnbondingDelegationsQuery validators) (ids.map registeredAs)

/-- The run to that state. -/
theorem sampleOne_run : Run CallStep sampleStart sampleOne := by
  have hrun : runList exec (fun _ _ => true) sampleStart
      [.openAck (some "ica"), sampleCall ["valoper1"] [3]] = some sampleOne := rfl
  exact runList_eq_some (fun _ _ _ h => h) (fun _ _ _ _ => trivial) hrun

/-- Queries are registered for this validator again and for a second one. The old query stays
stored. -/
theorem own_queries_two : ∃ t, CallStep sampleOne (sampleCall ["valoper1", "valoper2"] [7, 9]) t ∧
    t.unbondingDelegations.load "valoper1" = some ⟨"valoper1", 7, [], 0⟩ ∧
    t.unbondingDelegations.load "valoper2" = some ⟨"valoper2", 9, [], 0⟩ ∧
    t.kvQueries.load 3 = some .unbondingDelegations := by
  have hinit : instantiateFull (fun _ => true) sampleConfig = .ok sampleStart := rfl
  have hcarry : Carry ([7, 9].map registeredAs) [7, 9] := .cons rfl (.cons rfl .nil)
  have hvalidators : ["valoper1", "valoper2"].Nodup := by decide
  have howner : (⟨"owner", []⟩ : MessageInfo).sender = sampleOne.cwOwner := rfl
  have hica : sampleOne.icaAddress = .ok "ica" := rfl
  have hdecodes : ∀ v ∈ ["valoper1", "valoper2"],
      sampleAddresses.decodes "ica" = true ∧ sampleAddresses.decodes v = true :=
    fun _ _ => ⟨rfl, rfl⟩
  obtain ⟨-, ⟨t, hcall, hown⟩, -⟩ := own_queries hinit sampleOne_run howner hica hdecodes
    (by decide) hvalidators hcarry rfl (by decide) (by decide)
  refine ⟨t, hcall, hown.records 0 _ _ rfl rfl, hown.records 1 _ _ rfl rfl, ?_⟩
  rw [hown.queries 3]
  rfl

end Sample

end Replies

end Puppeteer

end DropContracts
