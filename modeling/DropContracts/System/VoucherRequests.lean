import DropContracts.Base.Fields
import DropContracts.Base.Tally
import DropContracts.System.LifeCycle
import DropContracts.System.Requests

set_option relaxedAutoImplicit false
set_option autoImplicit false

/-!
# Vouchers and requests

An unbond writes the same request down twice: as an item of a batch, and as the voucher that core
has minted for it. The two lists grow in step. They stay equal as long as no batch is wiped out,
and as long as they are equal the name of the next voucher is new.

## Main definitions

* `System.World.vouchersOf`, `System.Voucher.request` — the vouchers of a batch and what they say.
* `System.RequestCase` — what a step does to the requests and the vouchers.
* `System.VouchersMatch` — the invariant.

## Main results

* `Core.voucherTokenId_inj` — the name of a voucher determines its batch, its owner and its place.
* `System.request_cases` — every step that wipes no batch out is one of the cases.
* `System.VouchersMatch.step`, `System.vouchersMatch_of_run` — every such step keeps the invariant.
* `System.vouchers_match_requests` — the vouchers of a batch are its requests.
* `System.voucher_id_is_new` — no unbond asks for a voucher under a name that has been used.
-/

namespace DropContracts

/-- **The name of a voucher** determines its batch, its owner and its place in the batch. -/
theorem Core.voucherTokenId_inj {id id' n n' : ℕ} {sender sender' : String}
    (h : Core.voucherTokenId id sender n = Core.voucherTokenId id' sender' n') :
    id = id' ∧ sender = sender' ∧ n = n' := by
  have hdigit : '_'.isDigit = false := by decide
  exact Fields.middle_inj hdigit h

namespace System

open Sample

/-! ## The vouchers of a batch -/

/-- The request that a voucher was minted for. -/
def Voucher.request (v : Voucher) : Core.UnbondItem :=
  ⟨v.owner, v.extension.amount, v.extension.expectedAmount⟩

/-- The vouchers of a batch, in the order in which they were minted. -/
def World.vouchersOf (w : World) (id : ℕ) : List Voucher :=
  w.vouchers.filter fun v => v.extension.batchId = toString id

/-- The vouchers match the batches: those of a batch stand for its requests, in their order, and
are named after their places; every voucher is one of a batch. -/
structure VouchersMatch (w : World) : Prop where
  requests : ∀ id b, w.core.unbondBatches.load id = some b →
    (w.vouchersOf id).map Voucher.request = b.unbondItems
  named : ∀ (id k : ℕ) v, (w.vouchersOf id)[k]? = some v →
    v.tokenId = Core.voucherTokenId id v.owner (k + 1)
  stored : ∀ v ∈ w.vouchers, ∃ id b, w.core.unbondBatches.load id = some b ∧
    v.extension.batchId = toString id
  nodup : (w.vouchers.map Voucher.tokenId).Nodup

section Match

variable {d : Deployment} {w w' : World}

/-- A voucher of a batch is a minted voucher. -/
theorem mem_vouchersOf {id : ℕ} {v : Voucher} :
    v ∈ w.vouchersOf id ↔ v ∈ w.vouchers ∧ v.extension.batchId = toString id := by
  simp [World.vouchersOf]

/-- **The next voucher of a batch has a new name**: a used name gives away the place of its voucher,
and all places up to the last request are taken by earlier vouchers. -/
theorem VouchersMatch.ne_next (h : VouchersMatch w) {id : ℕ} {b : Core.UnbondBatch}
    (hb : w.core.unbondBatches.load id = some b) (sender : String) {v : Voucher}
    (hv : v ∈ w.vouchers) :
    v.tokenId ≠ Core.voucherTokenId id sender (b.unbondItems.length + 1) := by
  intro heq
  obtain ⟨id', b', hb', hid'⟩ := h.stored v hv
  obtain ⟨k, hk, hget⟩ := List.mem_iff_getElem.1 (mem_vouchersOf.2 ⟨hv, hid'⟩)
  have hname := h.named id' k v (by rw [List.getElem?_eq_getElem hk, hget])
  obtain ⟨rfl, -, hplace⟩ := Core.voucherTokenId_inj (hname.symm.trans heq)
  rw [hb] at hb'
  obtain rfl := Option.some.inj hb'
  have hlength := congrArg List.length (h.requests id' b hb)
  rw [List.length_map] at hlength
  omega

/-! ## What a step does -/

/-- What a step does to the requests and the vouchers: it leaves both alone, apart from new batches
without requests, or it adds one request to the current batch and mints the voucher for it. -/
inductive RequestCase (w w' : World) : Prop
  | kept (hvouchers : w'.vouchers = w.vouchers)
      (hstored : ∀ id b, w.core.unbondBatches.load id = some b →
        ∃ b', w'.core.unbondBatches.load id = some b' ∧ b'.unbondItems = b.unbondItems)
      (hfresh : ∀ id b', w.core.unbondBatches.load id = none →
        w'.core.unbondBatches.load id = some b' → b'.unbondItems = [])
  | added (batch : Core.UnbondBatch) (item : Core.UnbondItem)
      (hbatch : w.core.unbondBatches.load w.core.unbondBatchId = some batch)
      (hcore : w'.core = w.core.saveBatch w.core.unbondBatchId (batch.push item))
      (hvouchers : w'.vouchers = w.vouchers ++
        [⟨Core.voucherTokenId w.core.unbondBatchId item.sender (batch.unbondItems.length + 1),
          item.sender, ⟨toString w.core.unbondBatchId, item.amount, item.expectedAmount⟩⟩])

/-- The same batches hold the same requests. -/
theorem RequestCase.of_same (hvouchers : w'.vouchers = w.vouchers)
    (hbatches : w'.core.unbondBatches = w.core.unbondBatches) : RequestCase w w' := by
  refine .kept hvouchers (fun id b hb => ⟨b, by rw [hbatches, hb], rfl⟩) ?_
  intro id b' hnone hb'
  rw [hbatches, hnone] at hb'
  cases hb'

/-- A tick that wipes no batch out leaves the requests of every batch alone. -/
theorem tick_unbondItems (h : PayoutInv w) {q : Core.Querier} {info : MessageInfo}
    {msgs : List Core.CoreMsg}
    (hcase : Core.TickCase w.core q (w.env d) info w'.core msgs) (hok : ¬ w.RetriesOver) {id : ℕ}
    {b : Core.UnbondBatch} (hb : w.core.unbondBatches.load id = some b) :
    ∃ b', w'.core.unbondBatches.load id = some b' ∧ b'.unbondItems = b.unbondItems := by
  obtain ⟨b', hb', hslot⟩ := Core.tick_slot h.batches h.fits hcase hb
  refine ⟨b', hb', ?_⟩
  cases hslot with
  | withdrawing _ _ _ _ hsame => exact hsame.unbondItems
  | reset failedId failed hstate hfailed hid hload hready =>
    -- the slot that is written over holds nothing, or the tick wipes a batch out
    by_contra hitems
    refine hok ⟨hstate, failedId, failed, b, hfailed, hload, ?_, hid ▸ hb, fun h => hitems h.symm⟩
    exact (Core.UnbondBatch.isReady_eq_ok.1 hready).2.1 rfl
  | _ => rfl

/-- A tick that wipes no batch out, and mints no voucher. -/
theorem RequestCase.of_tick (h : PayoutInv w) {q : Core.Querier} {info : MessageInfo}
    {msgs : List Core.CoreMsg} (hvouchers : w'.vouchers = w.vouchers)
    (hcase : Core.TickCase w.core q (w.env d) info w'.core msgs) (hok : ¬ w.RetriesOver) :
    RequestCase w w' := by
  refine .kept hvouchers (fun id b hb => tick_unbondItems h hcase hok hb) ?_
  intro id b' hnone hb'
  rw [Core.tick_fresh hcase hb' hnone]
  rfl

/-- **Every step that wipes no batch out** is one of the cases. -/
theorem request_cases {a : Action} (h : Reachable d w) (hok : KeepsRequests w a)
    (hstep : Step d w a w') : RequestCase w w' := by
  have hpayout := payoutInv_of_reachable h
  have hflow := flowInv_of_reachable h
  cases step_cases hflow.wired hstep with
  | environment _ _ _ hcore => exact .of_same hcore.vouchers (by rw [hcore.core])
  | foreign _ _ _ _ _ p hsender hsub => exact absurd hsub (hflow.not_foreign hsender)
  | bond _ _ _ _ _ _ _ _ _ hbond hcore hvouchers =>
    rw [← hcore] at hbond
    exact .of_same hvouchers (Core.executeBond_frame hbond).unbondBatches
  | unbond answers sender funds q bank core msgs _ _ _ hunbond hcore hvouchers =>
    obtain ⟨ldDenom, amount, batch, rate, expected, -, -, -, hbatch, -, -, hs, hmsgs⟩ :=
      Core.executeUnbond_ok hunbond
    exact .added batch ⟨sender, amount, expected⟩ hbatch (hcore.trans hs)
      (hvouchers _ _ _ _ _ hmsgs)
  | admin _ _ _ _ _ _ _ hadmin _ _ hcore hvouchers =>
    rw [← hcore] at hadmin
    exact .of_same hvouchers (SameBatches.of_admin hadmin).unbondBatches
  | tick _ _ _ _ _ _ _ _ _ htick hcore hvouchers =>
    rw [← hcore] at htick
    exact .of_tick hpayout hvouchers (Core.executeTick_ok htick).2 hok
  | tickSubmit _ _ _ _ _ _ _ _ _ _ _ _ htick hcore hvouchers =>
    rw [← hcore] at htick
    exact .of_tick hpayout hvouchers (Core.executeTick_ok htick).2 hok
  | accepted _ _ _ _ _ _ _ _ _ _ _ hhook hcore hvouchers =>
    rw [← hcore] at hhook
    exact .of_same hvouchers (Core.executePuppeteerHook_ok hhook).unbondBatches
  | refused _ _ _ _ _ _ hcore => exact .of_same hcore.vouchers (by rw [hcore.core])

/-! ## The invariant -/

/-- Nothing has been minted right after instantiation, and the first batch is empty. -/
theorem vouchersMatch_initial (h : Initial d w) : VouchersMatch w := by
  have hnone : w.vouchers = [] := h.vouchers
  have hof : ∀ id, w.vouchersOf id = [] := by
    intro id
    rw [World.vouchersOf, hnone, List.filter_nil]
  obtain ⟨config, owner, hcore⟩ := h.core
  refine ⟨?_, ?_, ?_, ?_⟩
  · intro id b hb
    by_cases hid : id = 0
    · rw [hcore, hid] at hb
      rw [hof, ← Option.some.inj hb]
      rfl
    · have hload : w.core.unbondBatches.load id = none := by
        rw [hcore]
        exact StorageMap.load_save_of_ne _ _ hid
      rw [hload] at hb
      cases hb
  · intro id k v hv
    rw [hof] at hv
    cases hv
  · intro v hv
    rw [hnone] at hv
    cases hv
  · rw [hnone]
    exact List.nodup_nil

/-- The vouchers match after a step that leaves requests and vouchers alone. A batch that the step
adds has no vouchers, since every voucher is one of a batch that there was. -/
theorem VouchersMatch.kept (h : VouchersMatch w) (hvouchers : w'.vouchers = w.vouchers)
    (hstored : ∀ id b, w.core.unbondBatches.load id = some b →
      ∃ b', w'.core.unbondBatches.load id = some b' ∧ b'.unbondItems = b.unbondItems)
    (hfresh : ∀ id b', w.core.unbondBatches.load id = none →
      w'.core.unbondBatches.load id = some b' → b'.unbondItems = []) : VouchersMatch w' := by
  have hof : ∀ id, w'.vouchersOf id = w.vouchersOf id := fun id => by
    rw [World.vouchersOf, hvouchers, World.vouchersOf]
  refine ⟨fun id b' hb' => ?_, fun id k v hv => ?_, fun v hv => ?_, ?_⟩
  · rw [hof]
    cases hload : w.core.unbondBatches.load id with
    | none =>
      have hempty : w.vouchersOf id = [] := by
        rw [List.eq_nil_iff_forall_not_mem]
        intro v hv
        obtain ⟨hmem, hid⟩ := mem_vouchersOf.1 hv
        obtain ⟨id', b, hb, hid'⟩ := h.stored v hmem
        rw [Fields.toString_inj (hid.symm.trans hid'), hb] at hload
        cases hload
      rw [hempty, hfresh id b' hload hb', List.map_nil]
    | some b =>
      obtain ⟨b'', hb'', hitems⟩ := hstored id b hload
      rw [hb'] at hb''
      rw [h.requests id b hload, Option.some.inj hb'', hitems]
  · rw [hof] at hv
    exact h.named id k v hv
  · rw [hvouchers] at hv
    obtain ⟨id, b, hb, hid⟩ := h.stored v hv
    obtain ⟨b', hb', -⟩ := hstored id b hb
    exact ⟨id, b', hb', hid⟩
  · rw [hvouchers]
    exact h.nodup

/-- The vouchers match after an unbond, whose voucher is the last one of the current batch. -/
theorem VouchersMatch.added (h : VouchersMatch w) {batch : Core.UnbondBatch}
    {item : Core.UnbondItem} (hbatch : w.core.unbondBatches.load w.core.unbondBatchId = some batch)
    (hcore : w'.core = w.core.saveBatch w.core.unbondBatchId (batch.push item))
    (hvouchers : w'.vouchers = w.vouchers ++
      [⟨Core.voucherTokenId w.core.unbondBatchId item.sender (batch.unbondItems.length + 1),
        item.sender, ⟨toString w.core.unbondBatchId, item.amount, item.expectedAmount⟩⟩]) :
    VouchersMatch w' := by
  have hself : w'.core.unbondBatches.load w.core.unbondBatchId = some (batch.push item) := by
    rw [hcore]
    exact StorageMap.load_save_self _ _ _
  have hother : ∀ id, id ≠ w.core.unbondBatchId →
      w'.core.unbondBatches.load id = w.core.unbondBatches.load id := by
    intro id hid
    rw [hcore]
    exact StorageMap.load_save_of_ne _ _ hid
  have hofOther : ∀ id, id ≠ w.core.unbondBatchId → w'.vouchersOf id = w.vouchersOf id := by
    intro id hid
    have hname : toString w.core.unbondBatchId ≠ toString id := fun heq =>
      hid (Fields.toString_inj heq).symm
    simp only [World.vouchersOf, hvouchers, List.filter_append, List.filter_cons, List.filter_nil,
      hname, decide_false, Bool.false_eq_true, ↓reduceIte, List.append_nil]
  have hof := h.requests _ batch hbatch
  have hlength := congrArg List.length hof
  rw [List.length_map] at hlength
  refine ⟨fun id b' hb' => ?_, fun id k v hv => ?_, fun v hv => ?_, ?_⟩
  · by_cases hid : id = w.core.unbondBatchId
    · subst hid
      rw [hself] at hb'
      rw [← Option.some.inj hb']
      simp only [World.vouchersOf, hvouchers, List.filter_append, List.map_append]
      rw [← World.vouchersOf, hof]
      simp [Core.UnbondBatch.push, Voucher.request]
    · rw [hother id hid] at hb'
      rw [hofOther id hid]
      exact h.requests id b' hb'
  · by_cases hid : id = w.core.unbondBatchId
    · subst hid
      simp only [World.vouchersOf, hvouchers, List.filter_append, List.filter_cons,
        List.filter_nil, decide_true, ↓reduceIte] at hv
      rw [← World.vouchersOf, List.getElem?_append] at hv
      split_ifs at hv with hk
      · exact h.named _ k v hv
      · -- the place after the last one is that of the new voucher
        rw [List.getElem?_singleton] at hv
        split_ifs at hv with hlast
        rw [← Option.some.inj hv]
        have hplace : k = batch.unbondItems.length := by omega
        rw [hplace]
    · rw [hofOther id hid] at hv
      exact h.named id k v hv
  · rw [hvouchers, List.mem_append, List.mem_singleton] at hv
    rcases hv with hv | rfl
    · obtain ⟨id, b, hb, hid⟩ := h.stored v hv
      by_cases heq : id = w.core.unbondBatchId
      · exact ⟨_, _, hself, heq ▸ hid⟩
      · exact ⟨id, b, by rw [hother id heq, hb], hid⟩
    · exact ⟨_, _, hself, rfl⟩
  · rw [hvouchers]
    exact Tally.nodup_keys_concat h.nodup fun v hv => h.ne_next hbatch item.sender hv

/-- **Every step that wipes no batch out keeps the match.** -/
theorem VouchersMatch.step {a : Action} (hreachable : Reachable d w) (h : VouchersMatch w)
    (hok : KeepsRequests w a) (hstep : Step d w a w') : VouchersMatch w' := by
  cases request_cases hreachable hok hstep with
  | kept hvouchers hstored hfresh => exact h.kept hvouchers hstored hfresh
  | added batch item hbatch hcore hvouchers => exact h.added hbatch hcore hvouchers

/-- **Along runs that wipe no batch out the vouchers match.** -/
theorem vouchersMatch_of_run (h : ReachableWhere d KeepsRequests w) : VouchersMatch w :=
  h.invariant (fun _ hinit => vouchersMatch_initial hinit) fun _ _ _ hs hok hstep hmatch =>
    hmatch.step hs hok hstep

/-- Vouchers are only ever added. -/
theorem vouchers_grow {a : Action} (h : Reachable d w) (hstep : Step d w a w') :
    w.vouchers <+: w'.vouchers := by
  have hflow := flowInv_of_reachable h
  have hsame : w'.vouchers = w.vouchers → w.vouchers <+: w'.vouchers := fun heq =>
    heq ▸ List.prefix_rfl
  cases step_cases hflow.wired hstep with
  | environment _ _ _ hcore => exact hsame hcore.vouchers
  | foreign _ _ _ _ _ p hsender hsub => exact absurd hsub (hflow.not_foreign hsender)
  | bond _ _ _ _ _ _ _ _ _ _ _ hvouchers => exact hsame hvouchers
  | unbond _ _ _ _ _ _ _ _ _ _ hunbond _ hvouchers =>
    obtain ⟨ldDenom, amount, batch, rate, expected, -, -, -, -, -, -, -, hmsgs⟩ :=
      Core.executeUnbond_ok hunbond
    rw [hvouchers _ _ _ _ _ hmsgs]
    exact List.prefix_append _ _
  | admin _ _ _ _ _ _ _ _ _ _ _ hvouchers => exact hsame hvouchers
  | tick _ _ _ _ _ _ _ _ _ _ _ hvouchers => exact hsame hvouchers
  | tickSubmit _ _ _ _ _ _ _ _ _ _ _ _ _ _ hvouchers => exact hsame hvouchers
  | accepted _ _ _ _ _ _ _ _ _ _ _ _ _ hvouchers => exact hsame hvouchers
  | refused _ _ _ _ _ _ hcore => exact hsame hcore.vouchers

/-- **The match survives exactly the steps that wipe no batch out.** Vouchers stay, so a batch that
still matches them has kept its requests. -/
theorem vouchersMatch_step_iff {a : Action} (hreachable : Reachable d w) (h : VouchersMatch w)
    (hstep : Step d w a w') : VouchersMatch w' ↔ KeepsRequests w a := by
  refine ⟨fun h' => ?_, fun hok => h.step hreachable hok hstep⟩
  rw [← requestsKept_step_iff hreachable hstep]
  intro id b hb
  obtain ⟨b', hb', -⟩ := batch_ages hreachable hstep hb
  refine ⟨b', hb', ?_⟩
  rw [← h.requests id b hb, ← h'.requests id b' hb']
  exact ((vouchers_grow hreachable hstep).filter _).map _

/-- **The vouchers of a batch are its requests.** In every run that wipes no batch out, the vouchers
that were minted for a batch say, in their order, what its requests say; every voucher is one of a
stored batch, and no two vouchers have the same name. The first step that wipes a batch out ends
the match. -/
theorem vouchers_match_requests (h : ReachableWhere d KeepsRequests w) :
    (∀ id b, w.core.unbondBatches.load id = some b →
      (w.vouchersOf id).map Voucher.request = b.unbondItems) ∧
    (∀ v ∈ w.vouchers, ∃ id b, w.core.unbondBatches.load id = some b ∧ v ∈ w.vouchersOf id) ∧
    (w.vouchers.map Voucher.tokenId).Nodup ∧
    ∀ a w', Step d w a w' → (VouchersMatch w' ↔ KeepsRequests w a) := by
  have hmatch := vouchersMatch_of_run h
  refine ⟨hmatch.requests, fun v hv => ?_, hmatch.nodup, fun a w' hstep =>
    vouchersMatch_step_iff h.reachable hmatch hstep⟩
  obtain ⟨id, b, hb, hid⟩ := hmatch.stored v hv
  exact ⟨id, b, hb, mem_vouchersOf.2 ⟨hv, hid⟩⟩

/-- **No unbond asks for a voucher under a used name**, in every run that wipes no batch out: the
voucher contract never has to refuse the voucher of an unbond for its name. -/
theorem voucher_id_is_new (h : ReachableWhere d KeepsRequests w) {q : Core.Querier}
    {info : MessageInfo} {core : Core.Storage} {msgs : List Core.CoreMsg}
    (hunbond : Core.executeUnbond w.core q info = .ok (core, msgs)) {contract owner tokenId : String}
    {extension : Core.Metadata} (hmsg : .voucherMint contract owner tokenId extension ∈ msgs) :
    ∀ v ∈ w.vouchers, v.tokenId ≠ tokenId := by
  obtain ⟨ldDenom, amount, batch, rate, expected, -, -, -, hbatch, -, -, -, rfl⟩ :=
    Core.executeUnbond_ok hunbond
  simp only [List.mem_cons, Core.CoreMsg.voucherMint.injEq, List.not_mem_nil, or_false,
    reduceCtorEq] at hmsg
  obtain ⟨-, -, rfl, -⟩ := hmsg
  exact fun v hv => (vouchersMatch_of_run h).ne_next hbatch info.sender hv

/-- Without a failed batch no step wipes a batch out. -/
theorem keepsRequests_of_noFailed (hnone : w.core.failedBatchId = none) (a : Action) :
    KeepsRequests w a := by
  unfold KeepsRequests
  split
  · rintro ⟨-, failedId, failed, next, hfailed, -⟩
    rw [hnone] at hfailed
    cases hfailed
  · trivial

/-- Two unbonds of the sample deployment, whose vouchers are named after their places. -/
theorem vouchers_match_requests_sample : ∃ (w : World) (b : Core.UnbondBatch),
    w.core.unbondBatches.load 0 = some b ∧ (w.vouchersOf 0).map Voucher.request = b.unbondItems ∧
      b.unbondItems = [⟨"alice", 100, 100⟩, ⟨"alice", 50, 50⟩] ∧
      (w.vouchers.map Voucher.tokenId).Nodup ∧
      w.vouchers.map Voucher.tokenId = ["0_alice_1", "0_alice_2"] := by
  have hrun : (runList (World.exec deployment) (fun w _ => w.core.failedBatchId = none) initial
      (setup ++ [bond 1000, unbond 100, unbond 50])).any (fun w =>
        (w.core.unbondBatches.load 0).any fun b =>
          decide (b.unbondItems = [⟨"alice", 100, 100⟩, ⟨"alice", 50, 50⟩] ∧
            w.vouchers.map Voucher.tokenId = ["0_alice_1", "0_alice_2"])) = true := by
    decide
  obtain ⟨w, hw, hcheck⟩ := (Option.any_eq_true _ _).1 hrun
  obtain ⟨b, hb, hcheck⟩ := (Option.any_eq_true _ _).1 hcheck
  obtain ⟨hitems, hnames⟩ := of_decide_eq_true hcheck
  have hkeeps := runWhere_eq_some (P := KeepsRequests)
    (fun w a h => keepsRequests_of_noFailed (of_decide_eq_true h) a) hw
  obtain ⟨hrequests, -, hnodup, -⟩ :=
    vouchers_match_requests ⟨initial, initial_spec, hkeeps⟩
  exact ⟨w, b, hb, hrequests 0 b hb, hitems, hnodup, hnames⟩

/-- A third unbond of the sample deployment asks for a voucher with a new name. -/
theorem voucher_id_is_new_sample : ∃ (w : World) (core : Core.Storage) (extension : Core.Metadata)
    (burn : Core.CoreMsg),
    Core.executeUnbond w.core (w.querier deployment (answers members)) ⟨"alice", [⟨"udatom", 7⟩]⟩ =
      .ok (core, [.voucherMint "voucher" "alice" "0_alice_2" extension, burn]) ∧
    w.vouchers.length = 1 ∧ ∀ v ∈ w.vouchers, v.tokenId ≠ "0_alice_2" := by
  have hrun : (runList (World.exec deployment) (fun w _ => w.core.failedBatchId = none) initial
      (setup ++ [bond 1000, unbond 100])).any (fun w => decide (w.vouchers.length = 1) &&
        (Core.executeUnbond w.core (w.querier deployment (answers members))
          ⟨"alice", [⟨"udatom", 7⟩]⟩).toOption.any fun r => decide (r.2 =
            [.voucherMint "voucher" "alice" "0_alice_2" ⟨"0", 7, 7⟩,
              .tokenBurn "token" [⟨"udatom", 7⟩]])) = true := by
    decide
  obtain ⟨w, hw, hcheck⟩ := (Option.any_eq_true _ _).1 hrun
  obtain ⟨hlength, hcheck⟩ := Bool.and_eq_true_iff.1 hcheck
  obtain ⟨⟨core, msgs⟩, hunbond, hcheck⟩ := (Option.any_eq_true _ _).1 hcheck
  rw [Exec.toOption_eq_some] at hunbond
  obtain rfl : msgs = _ := of_decide_eq_true hcheck
  have hkeeps := runWhere_eq_some (P := KeepsRequests)
    (fun w a h => keepsRequests_of_noFailed (of_decide_eq_true h) a) hw
  exact ⟨w, core, _, _, hunbond, of_decide_eq_true hlength,
    voucher_id_is_new ⟨initial, initial_spec, hkeeps⟩ hunbond List.mem_cons_self⟩

end Match

end System

end DropContracts
