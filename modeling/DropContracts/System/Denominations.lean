import Mathlib.Data.List.TakeWhile
import DropContracts.System.LsmInvariant
import DropContracts.System.Scenario

set_option relaxedAutoImplicit false
set_option autoImplicit false

/-!
# Which tokens are taken for LSM shares

A genuine LSM share is the voucher of a tokenized delegation that came over one hop, through the
transfer port and the configured channel. The check of a denomination refuses a trace only when
port and channel are both wrong, so a trace with one of them right passes.

## Main definitions

* `System.GenuineShare` — a genuine LSM share.
* `System.HalfMatches`, `System.Forged` — a trace that passes the check though one of port and
  channel is wrong.

## Main results

* `System.splitOnce_eq_some_iff` — the split at the first separator.
* `System.checkDenom_lsmShare_iff` — the denominations that are taken for LSM shares.
* `System.lsmShare_genuine_iff` — when only genuine shares are.
* `System.bond_forged` — a bond of another token mints.
-/

namespace DropContracts

namespace System

open Exec Sample

/-! ## Splits -/

/-- What is dropped from a list starts where the predicate fails. -/
theorem dropWhile_eq_cons {p : Char → Bool} {l rest : List Char} {c : Char}
    (h : l.dropWhile p = c :: rest) : p c = false := by
  have hne : l.dropWhile p ≠ [] := by
    rw [h]
    exact List.cons_ne_nil c rest
  have hhead := List.head_dropWhile_not p hne
  simp only [h, List.head_cons] at hhead
  simpa using hhead

/-- **A split at the first separator**: the text before it does not contain it. -/
theorem splitOnce_eq_some_iff {c : Char} {s a b : String} :
    Core.splitOnce c s = some (a, b) ↔
      s.toList = a.toList ++ c :: b.toList ∧ c ∉ a.toList := by
  unfold Core.splitOnce
  constructor
  · intro h
    split at h
    · cases h
    next x rest hrest =>
      obtain ⟨rfl, rfl⟩ := Prod.mk.inj (Option.some.inj h)
      have hx := dropWhile_eq_cons hrest
      rw [decide_eq_false_iff_not, not_not] at hx
      subst hx
      rw [String.toList_ofList, String.toList_ofList]
      refine ⟨?_, fun hmem => ?_⟩
      · rw [← hrest, List.takeWhile_append_dropWhile]
      · have hne := List.mem_takeWhile_imp hmem
        simp at hne
  · rintro ⟨hs, hnot⟩
    have hall : ∀ x ∈ a.toList, decide (x ≠ c) = true := by
      intro x hx
      rw [decide_eq_true_eq]
      rintro rfl
      exact hnot hx
    have hdrop : s.toList.dropWhile (fun x => decide (x ≠ c)) = c :: b.toList := by
      rw [hs, List.dropWhile_append_of_pos hall]
      simp
    have htake : s.toList.takeWhile (fun x => decide (x ≠ c)) = a.toList := by
      rw [hs, List.takeWhile_append_of_pos hall]
      simp
    rw [hdrop]
    simp only [htake, String.ofList_toList]

/-- A path is split into the transfer port and the channel exactly when it is the one-hop path
over that channel. -/
theorem splitOnce_transfer_iff {path channel : String} :
    Core.splitOnce '/' path = some ("transfer", channel) ↔ path = "transfer/" ++ channel := by
  have hpath : ("transfer/" ++ channel).toList = "transfer".toList ++ '/' :: channel.toList := by
    rw [String.toList_append]
    rfl
  rw [splitOnce_eq_some_iff, ← hpath, String.toList_inj]
  exact and_iff_left (by decide)

/-! ## The check of a denomination -/

section Check

variable {q : Core.Querier} {config : Core.Config} {denom remoteDenom : String}

/-- The text has the form `validator/id` for a member of the validator set. -/
def NamesValidator (q : Core.Querier) (text : String) : Prop :=
  ∃ validator id info, text = validator ++ "/" ++ id ∧ q.validator validator = .ok (some info)

/-- **A genuine LSM share**: not the base denomination, over one hop through the transfer port and
the configured channel, and a share of a member of the validator set. -/
structure GenuineShare (q : Core.Querier) (config : Core.Config) (denom remoteDenom : String) :
    Prop where
  ne_base : denom ≠ config.baseDenom
  trace : q.denomTrace denom = .ok ⟨"transfer/" ++ config.channel, remoteDenom⟩
  validator : NamesValidator q remoteDenom

/-- Exactly one of port and channel of the path is the expected one. -/
def HalfMatches (path channel : String) : Prop :=
  ∃ port ch, Core.splitOnce '/' path = some (port, ch) ∧ (port = "transfer" ↔ ch ≠ channel)

/-- The validator of a share that the code looks up: the text before the first separator. -/
def SharesValidator (q : Core.Querier) (text : String) : Prop :=
  ∃ validator id info, Core.splitOnce '/' text = some (validator, id) ∧
    q.validator validator = .ok (some info)

/-- **A forged share**: a token with a trace of which only one of port and channel is right, and
with the name of a share. -/
def Forged (q : Core.Querier) (config : Core.Config) (denom : String) : Prop :=
  denom ≠ config.baseDenom ∧ ∃ trace, q.denomTrace denom = .ok trace ∧
    HalfMatches trace.path config.channel ∧ SharesValidator q trace.baseDenom

/-- A text whose validator is looked up and found has the form `validator/id`. -/
theorem SharesValidator.names {text : String} (h : SharesValidator q text) :
    NamesValidator q text := by
  obtain ⟨validator, id, info, hsplit, hinfo⟩ := h
  refine ⟨validator, id, info, ?_, hinfo⟩
  rw [← String.toList_inj, (splitOnce_eq_some_iff.1 hsplit).1, String.toList_append,
    String.toList_append, List.append_assoc]
  rfl

/-- **What is taken for an LSM share**: a token other than the base one, with a trace of which
port or channel is right, that names a member of the validator set. -/
theorem checkDenom_lsmShare_iff :
    Core.checkDenom q denom config = .ok (.lsmShare remoteDenom) ↔
      denom ≠ config.baseDenom ∧ ∃ path port channel,
        q.denomTrace denom = .ok ⟨path, remoteDenom⟩ ∧
        Core.splitOnce '/' path = some (port, channel) ∧
        (port = "transfer" ∨ channel = config.channel) ∧ SharesValidator q remoteDenom := by
  have hquery : ∀ trace, Core.queryDenomTrace q denom = .ok trace ↔
      q.denomTrace denom = .ok trace := by
    intro trace
    unfold Core.queryDenomTrace
    split
    next t ht => rw [ht, Except.ok.injEq, Except.ok.injEq]
    next e he => simp [he, fail]
  unfold Core.checkDenom
  split_ifs with hbase
  · simp [hbase]
  · simp only [bind_eq_ok, hquery, orError_eq_ok, ensure_eq_ok, Core.ask_eq_ok, pure_eq_ok,
      Except.ok.injEq, Prod.exists, SharesValidator]
    constructor
    · rintro ⟨⟨path, baseDenom⟩, htrace, port, channel, hpath, -, hmatch, validator, id, hshare,
        info, hinfo, -, hmember, heq⟩
      obtain rfl := Core.DenomType.lsmShare.inj heq
      refine ⟨hbase, path, port, channel, htrace, hpath, ?_, validator, id, ?_⟩
      · by_contra hneither
        rw [not_or] at hneither
        exact hmatch hneither
      · cases info with
        | none => exact absurd rfl hmember
        | some info => exact ⟨info, hshare, hinfo⟩
    · rintro ⟨-, path, port, channel, htrace, hpath, hmatch, validator, id, info, hshare, hinfo⟩
      refine ⟨⟨path, remoteDenom⟩, htrace, port, channel, hpath, (), ?_, validator, id, hshare,
        some info, hinfo, (), by simp, rfl⟩
      rintro ⟨hport, hchannel⟩
      exact hmatch.elim hport hchannel

/-- Only the base denomination is taken for it. -/
theorem checkDenom_base (h : Core.checkDenom q denom config = .ok .base) :
    denom = config.baseDenom := by
  unfold Core.checkDenom at h
  by_contra hne
  simp only [hne, ↓reduceIte, bind_eq_ok, pure_eq_ok, Except.ok.injEq, reduceCtorEq, and_false,
    exists_false] at h

/-- **When only genuine shares are taken for LSM shares**, and so only they and base coins are
bonded: unless the token is forged, with exactly one of port and channel right.

**Proof sketch.** A trace passes when port or channel is right. With both right its path is the
one-hop path, since the port has no separator; with one right the token is forged. -/
theorem lsmShare_genuine_iff (q : Core.Querier) (config : Core.Config) (denom : String) :
    ((∀ remoteDenom, Core.checkDenom q denom config = .ok (.lsmShare remoteDenom) →
        GenuineShare q config denom remoteDenom) ↔ ¬ Forged q config denom) ∧
      (¬ Forged q config denom → ∀ s info receiver s' msgs amount, s.config = config →
        info.funds = [⟨denom, amount⟩] → Core.executeBond s q info receiver = .ok (s', msgs) →
          denom = config.baseDenom ∨ ∃ remoteDenom, GenuineShare q config denom remoteDenom) := by
  have hgenuine : ¬ Forged q config denom → ∀ remoteDenom,
      Core.checkDenom q denom config = .ok (.lsmShare remoteDenom) →
        GenuineShare q config denom remoteDenom := by
    intro hnot remoteDenom hcheck
    obtain ⟨hne, path, port, channel, htrace, hpath, hmatch, hshare⟩ :=
      checkDenom_lsmShare_iff.1 hcheck
    by_cases hboth : port = "transfer" ∧ channel = config.channel
    · rw [hboth.1, hboth.2, splitOnce_transfer_iff] at hpath
      rw [hpath] at htrace
      exact ⟨hne, htrace, hshare.names⟩
    · refine absurd ⟨hne, _, htrace, ⟨port, channel, hpath, ?_⟩, hshare⟩ hnot
      constructor
      · exact fun hport hchannel => hboth ⟨hport, hchannel⟩
      · exact fun hchannel => hmatch.resolve_right hchannel
  refine ⟨⟨fun hall hforged => ?_, hgenuine⟩, ?_⟩
  · obtain ⟨hne, ⟨path, remoteDenom⟩, htrace, ⟨port, channel, hpath, hone⟩, hshare⟩ := hforged
    have hmatch : port = "transfer" ∨ channel = config.channel := by
      by_cases hport : port = "transfer"
      · exact .inl hport
      · exact .inr (not_not.1 fun hchannel => hport (hone.2 hchannel))
    have hcheck := checkDenom_lsmShare_iff.2
      ⟨hne, path, port, channel, htrace, hpath, hmatch, hshare⟩
    -- the path of a genuine share has the right port and the right channel
    have htrace' := (hall remoteDenom hcheck).trace
    rw [htrace, Except.ok.injEq, Core.DenomTrace.mk.injEq] at htrace'
    rw [splitOnce_transfer_iff.2 htrace'.1, Option.some.injEq, Prod.mk.injEq] at hpath
    exact hone.1 hpath.1.symm hpath.2.symm
  · rintro hnot s info receiver s' msgs amount rfl hfunds hbond
    obtain ⟨coin, denomType, -, -, -, hfunds', -, hcheck, -⟩ := Core.executeBond_ok hbond
    rw [hfunds, List.cons.injEq] at hfunds'
    rw [← hfunds'.1] at hcheck
    cases denomType with
    | base => exact .inl (checkDenom_base hcheck)
    | lsmShare remoteDenom => exact .inr ⟨remoteDenom, hgenuine hnot remoteDenom hcheck⟩

end Check

/-- A share that came over the configured channel is genuine. -/
theorem lsmShare_genuine_sample :
    ∀ remoteDenom, Core.checkDenom
      (initialShares.querier deployment (tracing "transfer/channel-0" members))
      "ibc/share" config = .ok (.lsmShare remoteDenom) →
        GenuineShare (initialShares.querier deployment (tracing "transfer/channel-0" members))
          config "ibc/share" remoteDenom := by
  refine (lsmShare_genuine_iff _ _ _).1.2 ?_
  rintro ⟨-, trace, htrace, ⟨port, channel, hpath, hone⟩, -⟩
  obtain rfl : (⟨"transfer/channel-0", "val/1"⟩ : Core.DenomTrace) = trace :=
    Except.ok.inj htrace
  have hsplit : Core.splitOnce '/' "transfer/channel-0" = some ("transfer", "channel-0") := by
    decide
  rw [hsplit, Option.some.injEq, Prod.mk.injEq] at hpath
  exact hone.1 hpath.1.symm hpath.2.symm

/-- **A forged share is bonded.** The token came through the transfer port over another channel,
and liquid tokens are minted against it. -/
theorem bond_forged : ¬ ∀ (d : Deployment) (w w' : World) (answers : Answers)
    (sender denom : String) (amount : ℕ) (receiver : Option String), Reachable d w →
      Step d w (.execute answers sender [⟨denom, amount⟩] (.bond receiver)) w' →
      w.bank.supply d.tokenDenom < w'.bank.supply d.tokenDenom →
        denom = w.core.config.baseDenom ∨
          ∃ remoteDenom, GenuineShare (w.querier d answers) w.core.config denom remoteDenom := by
  intro hall
  have hrun : ((initialShares.runAll deployment setup).bind fun w =>
      (w.exec deployment (bondShares "transfer/channel-1" 1000)).map fun w' => (w, w')).any
      (fun r => decide (r.1.bank.supply "udatom" < r.2.bank.supply "udatom" ∧
        r.1.core.config.baseDenom = "ibc/uatom" ∧ r.1.core.config.channel = "channel-0")) =
          true := by
    decide
  obtain ⟨w, w', hw, hw', hcheck⟩ := exists_step_of_runWhere hrun
  obtain ⟨hminted, hbase, hchannel⟩ := of_decide_eq_true hcheck
  rcases hall deployment w w' _ _ _ _ _ (reachable_of_runAll initialShares_spec hw) hw' hminted
    with hdenom | ⟨remoteDenom, hgenuine⟩
  · rw [hbase] at hdenom
    exact absurd hdenom (by decide)
  · have htrace := hgenuine.trace
    rw [hchannel] at htrace
    have hpath := congrArg Core.DenomTrace.path (Except.ok.inj htrace)
    have hdifferent : "transfer/channel-1" ≠ "transfer/" ++ "channel-0" := by decide
    exact hdifferent hpath

end System

end DropContracts
