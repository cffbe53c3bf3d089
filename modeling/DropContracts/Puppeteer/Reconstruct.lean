import DropContracts.Base.Decimal
import DropContracts.Puppeteer.Contract
import DropContracts.Packages.InterchainQuery
import DropContracts.WithdrawalManager.Contract

set_option relaxedAutoImplicit false
set_option autoImplicit false

/-!
# Reading balances and delegations

`BalancesAndDelegations::reconstruct` of `packages/base/src/msg/puppeteer.rs`: the values that the
query for balances and delegations has read, in the order of its keys, as a balance and a list of
delegations.

The values are bytes. The decoders of the messages and the helper that takes a key apart are
parameters; the messages are kept with the fields that are read.

## Main definitions

* `Puppeteer.Codecs` — the encoders and decoders of the values.
* `Puppeteer.reconstruct` — what the values mean.
* `Puppeteer.RemoteState` — the state of the remote chain; `Puppeteer.RemoteState.read` is the value
  under a key of its store.
* `Puppeteer.IsDelegation` — a delegation as the remote chain has it.

## Main results

* `Puppeteer.delegatedTokens_eq_ok` — the amount of a delegation.
* `Puppeteer.reconstruct_agrees` — the order of the keys and the reconstruction agree.
-/

namespace DropContracts

namespace Puppeteer

open Exec Icq WithdrawalManager

/-! ## Values -/

/-- A value of the remote store with the key that it was read at. -/
structure StorageValue where
  key : KVKey
  value : ByteArray

/-- `cosmos::base::v1beta1::Coin`. -/
structure CosmosCoin where
  denom : String
  amount : String
  deriving DecidableEq, Repr

/-- `cosmos::staking::v1beta1::Params`. -/
structure StakingParams where
  bondDenom : String
  deriving DecidableEq, Repr

/-- `cosmos::staking::v1beta1::Delegation`. -/
structure CosmosDelegation where
  delegatorAddress : String
  validatorAddress : String
  shares : String
  deriving DecidableEq, Repr

/-- `cosmos::staking::v1beta1::Validator`. -/
structure CosmosValidator where
  tokens : String
  delegatorShares : String
  deriving DecidableEq, Repr

/-- An encoder and a decoder. -/
structure Codec (α : Type) where
  encode : α → ByteArray
  decode : ByteArray → Except String α

/-- The encoders and decoders of the values, and `deconstruct_account_denom_balance_key`, of which
only the denomination is used. -/
structure Codecs where
  coin : Codec CosmosCoin
  params : Codec StakingParams
  json : Codec String
  delegation : Codec CosmosDelegation
  validator : Codec CosmosValidator
  balanceKeyDenom : KVKey → Except String String

/-- The errors of a reconstruction. -/
inductive ReconstructError where
  | version (e : IcqError)
  | invalidQueryResultFormat (msg : String)
  | deconstructKey (e : String)
  | decode (e : String)
  | parsingU128 (text : String)
  | decimalRangeExceeded
  | overflow
  deriving DecidableEq, Repr

/-- A reconstruction. -/
abbrev ReconstructResult (α : Type) := Exec ReconstructError α

/-! ## The reconstruction -/

section Reconstruct

/-- What a decoder returns, or its error. -/
def decoded {α : Type} : Except String α → ReconstructResult α
  | .ok a => .ok a
  | .error e => fail (.decode e)

/-- `Uint128::from_str`. -/
def uint128FromStr (text : String) : ReconstructResult ℕ :=
  orError (parseU128 text) (.parsingU128 text)

/-- `Decimal::from_atomics(..)?`. -/
def decimalFromAtomics (atomics decimalPlaces : ℕ) : ReconstructResult Decimal :=
  orError (Decimal.fromAtomics atomics decimalPlaces) .decimalRangeExceeded

/-- The amount of a delegation. -/
def delegatedTokens (delegation : CosmosDelegation) (validator : CosmosValidator) :
    ReconstructResult ℕ := do
  let shares ← uint128FromStr delegation.shares
  let delegationShares ← decimalFromAtomics shares 18
  let allShares ← uint128FromStr validator.delegatorShares
  let delegatorShares ← decimalFromAtomics allShares 18
  let tokens ← uint128FromStr validator.tokens
  let validatorTokens ← decimalFromAtomics tokens 0
  let product ← orError (delegationShares.checkedMul validatorTokens) .overflow
  let quotient ← Decimal.div product delegatorShares
  return quotient.atomics / Decimal.fractional

variable (codecs : Codecs)

/-- The denomination in the key of a balance, or the error of the helper. -/
def keyDenom (key : KVKey) : ReconstructResult String :=
  match codecs.balanceKeyDenom key with
  | .ok denom => .ok denom
  | .error e => fail (.deconstructKey e)

/-- The amount of a balance as text. From version 0.47.0 on the value is the amount alone. -/
def balanceText (version sdk047 : ℕ) (value : ByteArray) : ReconstructResult String :=
  if sdk047 ≤ version then
    orError (String.fromUTF8? value) (.invalidQueryResultFormat "Invalid utf8")
  else do
    let balance ← decoded (codecs.coin.decode value)
    return balance.amount

/-- The coin of the balance, if the value is not empty. -/
def balanceCoins (version sdk047 : ℕ) (kv : StorageValue) : ReconstructResult (List Coin) :=
  if kv.value.isEmpty then return []
  else do
    let denom ← keyDenom codecs kv.key
    let text ← balanceText codecs version sdk047 kv.value
    let amount ← uint128FromStr text
    return [⟨denom, amount⟩]

/-- The denomination that is staked. From version 0.47.0 on the value holds the parameters. -/
def bondDenom (version sdk047 : ℕ) (value : ByteArray) : ReconstructResult String :=
  if sdk047 ≤ version then do
    let params ← decoded (codecs.params.decode value)
    return params.bondDenom
  else decoded (codecs.json.decode value)

/-- The loop over the values of the validators, two for each: the delegation and the validator. A
missing delegation is skipped with its validator; a delegation without a value for its validator is
an error, and without even an empty value the loop aborts. -/
def delegationsOf (denom : String) : List StorageValue → ReconstructResult (List Delegation)
  | [] => .ok []
  | [kv] =>
    if kv.value.isEmpty then .ok []
    else do
      let _ ← decoded (codecs.delegation.decode kv.value)
      abort
  | kv :: kv' :: chunks =>
    if kv.value.isEmpty then delegationsOf denom chunks
    else do
      let delegation ← decoded (codecs.delegation.decode kv.value)
      ensure (kv'.value.isEmpty = false) (.invalidQueryResultFormat "validator is empty")
      let validator ← decoded (codecs.validator.decode kv'.value)
      let amount ← delegatedTokens delegation validator
      let delegations ← delegationsOf denom chunks
      return ⟨delegation.delegatorAddress, delegation.validatorAddress, ⟨denom, amount⟩⟩ ::
        delegations

/-- `BalancesAndDelegations::reconstruct`. A single value aborts: there must be one for the
denomination that is staked. Without this value there are no delegations. -/
def reconstruct (storageValues : List StorageValue) (sdkVersion : String) :
    ReconstructResult BalancesAndDelegations := do
  let version ← (versionToU32 sdkVersion).mapError ReconstructError.version
  match storageValues with
  | [] => fail (.invalidQueryResultFormat "storage_values length is 0")
  | balance :: values => do
    let sdk047 ← (versionToU32 "0.47.0").mapError ReconstructError.version
    let coins ← balanceCoins codecs version sdk047 balance
    match values with
    | [] => abort
    | params :: chunks =>
      if params.value.isEmpty then return ⟨coins, []⟩
      else do
        let denom ← bondDenom codecs version sdk047 params.value
        let delegations ← delegationsOf codecs denom chunks
        return ⟨coins, delegations⟩

end Reconstruct

/-! ## The remote chain -/

/-- A delegation on the remote chain; the shares are counted in atomics. -/
structure RemoteDelegation where
  delegatorAddress : String
  validatorAddress : String
  shares : ℕ
  deriving DecidableEq, Repr

/-- A validator on the remote chain; the shares are counted in atomics. -/
structure RemoteValidator where
  tokens : ℕ
  delegatorShares : ℕ
  deriving DecidableEq, Repr

/-- What the remote chain knows: the amount of an account in a denomination, the denomination that
is staked, the delegations of an account, and the validators. -/
structure RemoteState where
  balance : String → String → Option ℕ
  bondDenom : Option String
  delegation : String → String → Option RemoteDelegation
  validator : String → Option RemoteValidator

/-- A delegation as the remote chain stores it. -/
def RemoteDelegation.record (delegation : RemoteDelegation) : CosmosDelegation :=
  ⟨delegation.delegatorAddress, delegation.validatorAddress, toString delegation.shares⟩

/-- A validator as the remote chain stores it. -/
def RemoteValidator.record (validator : RemoteValidator) : CosmosValidator :=
  ⟨toString validator.tokens, toString validator.delegatorShares⟩

/-- The version is below 0.47.0. -/
def isLegacy (sdkVersion : String) : Bool :=
  match versionToU32 sdkVersion, versionToU32 "0.47.0" with
  | .ok version, .ok sdk047 => version < sdk047
  | _, _ => false

/-- The value under a key of the remote store; it is empty where the chain has nothing. The store of
a version below 0.47.0 has a coin for a balance, and the denomination that is staked on its own. -/
def RemoteState.read (state : RemoteState) (codecs : Codecs) (legacy : Bool) : KVKey → ByteArray
  | .balance address denom =>
    (state.balance address denom).elim .empty fun amount =>
      if legacy then codecs.coin.encode ⟨denom, toString amount⟩ else (toString amount).toUTF8
  | .bondDenom => state.bondDenom.elim .empty codecs.json.encode
  | .stakingParams => state.bondDenom.elim .empty fun denom => codecs.params.encode ⟨denom⟩
  | .delegation delegator validator =>
    (state.delegation delegator validator).elim .empty fun delegation =>
      codecs.delegation.encode delegation.record
  | .validator validator =>
    (state.validator validator).elim .empty fun validator =>
      codecs.validator.encode validator.record
  | .unbondingDelegation _ _ => .empty

/-- The values that a query with the given keys reads, in their order. -/
def RemoteState.readAll (state : RemoteState) (codecs : Codecs) (legacy : Bool)
    (keys : List KVKey) : List StorageValue :=
  keys.map fun key => ⟨key, state.read codecs legacy key⟩

/-- The decoders invert the encoders on what the remote chain stores, and the key of a balance is
taken apart into its denomination. -/
structure Codecs.Inverts (codecs : Codecs) (state : RemoteState) : Prop where
  coin : ∀ address denom amount, state.balance address denom = some amount →
    codecs.coin.decode (codecs.coin.encode ⟨denom, toString amount⟩) = .ok ⟨denom, toString amount⟩
  params : ∀ denom, state.bondDenom = some denom →
    codecs.params.decode (codecs.params.encode ⟨denom⟩) = .ok ⟨denom⟩
  json : ∀ denom, state.bondDenom = some denom →
    codecs.json.decode (codecs.json.encode denom) = .ok denom
  delegation : ∀ delegator validator delegation,
    state.delegation delegator validator = some delegation →
    codecs.delegation.decode (codecs.delegation.encode delegation.record) = .ok delegation.record
  validator : ∀ address validator, state.validator address = some validator →
    codecs.validator.decode (codecs.validator.encode validator.record) = .ok validator.record
  balanceKey : ∀ address denom, codecs.balanceKeyDenom (.balance address denom) = .ok denom

/-- The delegation to a validator as the remote chain has it: the address in the record, and the
part of the tokens of the validator that the shares stand for, rounded down. -/
def IsDelegation (state : RemoteState) (delegator denom : String) (validator : String)
    (delegation : Delegation) : Prop :=
  ∃ record entry, state.delegation delegator validator = some record ∧
    state.validator validator = some entry ∧ entry.delegatorShares ≠ 0 ∧
    delegation = ⟨record.delegatorAddress, record.validatorAddress,
      ⟨denom, record.shares * entry.tokens / entry.delegatorShares⟩⟩

/-! ## Numbers as text -/

/-- The decimal text of a number is parsed to this number. -/
theorem parseDigits_toDigits (n : ℕ) : parseDigits (Nat.toDigits 10 n) = some n := by
  have hne : Nat.toDigits 10 n ≠ [] := Nat.toDigits_ne_nil
  have hdigits : (Nat.toDigits 10 n).all Char.isDigit = true := by
    rw [List.all_eq_true]
    exact fun c hc => Nat.isDigit_of_mem_toDigits (b := 10) (by decide) (by decide) hc
  unfold parseDigits
  rw [if_neg (by simp [hne, hdigits]), ← Nat.ofDigitChars_eq_foldl, Nat.ofDigitChars_ten_toDigits]

/-- The decimal text of a number is parsed to this number, if at all. -/
theorem parseU128_toString {n m : ℕ} (h : parseU128 (toString n) = some m) : m = n := by
  have hlist : (toString n).toList = Nat.toDigits 10 n := Nat.toList_repr
  unfold parseU128 at h
  rw [hlist] at h
  split at h
  · -- the text does not begin with a plus sign
    next rest hdigits =>
    have hplus : (Nat.toDigits 10 n).head? = some '+' := by
      rw [hdigits]
      rfl
    exact absurd hplus (head?_toDigits_ne_plus n)
  · obtain ⟨hsome, -⟩ := Option.filter_eq_some_iff.1 h
    rw [parseDigits_toDigits] at hsome
    exact (Option.some.inj hsome).symm

/-- Text that was written as bytes is read back. -/
theorem fromUTF8?_toUTF8 (text : String) : String.fromUTF8? text.toUTF8 = some text := by
  have hvalid : text.toUTF8.IsValidUTF8 := by
    rw [String.toUTF8_eq_toByteArray]
    exact text.isValidUTF8
  exact dif_pos hvalid

/-! ## The amount of a delegation -/

/-- **The amount of a delegation** is the part of the tokens of the validator that the shares stand
for, rounded down once. -/
theorem delegatedTokens_eq_ok {delegation : RemoteDelegation} {validator : RemoteValidator}
    {amount : ℕ} (h : delegatedTokens delegation.record validator.record = .ok amount) :
    validator.delegatorShares ≠ 0 ∧
      amount = delegation.shares * validator.tokens / validator.delegatorShares := by
  simp only [delegatedTokens, uint128FromStr, decimalFromAtomics, bind_eq_ok, orError_eq_ok,
    pure_eq_ok, Except.ok.injEq] at h
  obtain ⟨_, hshares, shares, hshares', _, hall, all, hall', _, htokens, tokens, htokens', product,
    hproduct, quotient, hquotient, rfl⟩ := h
  cases parseU128_toString hshares
  cases parseU128_toString hall
  cases parseU128_toString htokens
  have hshares : shares.atomics = delegation.shares := by
    unfold Decimal.fromAtomics at hshares'
    split_ifs at hshares'
    rw [← Option.some.inj hshares']
    simp
  have hall : all.atomics = validator.delegatorShares := by
    unfold Decimal.fromAtomics at hall'
    split_ifs at hall'
    rw [← Option.some.inj hall']
    simp
  obtain ⟨hzero, hdiv, -⟩ := Decimal.fromRatio_eq_ok.1 hquotient
  rw [hall] at hzero hdiv
  refine ⟨hzero, ?_⟩
  rw [← hdiv, Decimal.checkedMul_integer htokens' hproduct, hshares, Nat.div_div_eq_div_mul,
    Nat.mul_div_mul_right _ _ Decimal.fractional_pos]

/-! ## The agreement -/

section Agreement

variable {codecs : Codecs} {state : RemoteState} {legacy : Bool} {delegator denom : String}

/-- A missing piece is read as the empty value, so a value that is not empty belongs to a piece. -/
theorem exists_of_elim_ne {α : Type} {o : Option α} {encode : α → ByteArray}
    (h : (o.elim .empty encode).isEmpty = false) : ∃ a, o = some a := by
  cases o with
  | none => cases h
  | some a => exact ⟨a, rfl⟩

/-- What a decoder returns. -/
theorem decoded_eq_ok {α : Type} {x : Except String α} {a : α} :
    decoded x = .ok a ↔ x = .ok a := by
  cases x <;> simp [decoded]

/-- The validators with a delegation that is not empty. -/
def delegatedValidators (codecs : Codecs) (state : RemoteState) (legacy : Bool) (delegator : String)
    (validators : List String) : List String :=
  validators.filter fun v => !(state.read codecs legacy (.delegation delegator v)).isEmpty

/-- **The loop over the validators.** The values are paired as the keys were: a validator without a
delegation takes up two values and is skipped.

**Proof sketch.** Induction on the validators; each of them takes one round of the loop. -/
theorem delegationsOf_readAll (hcodecs : codecs.Inverts state) {validators : List String}
    {delegations : List Delegation}
    (h : delegationsOf codecs denom (state.readAll codecs legacy
      (validators.flatMap fun v => [.delegation delegator v, .validator v])) = .ok delegations) :
    List.Forall₂ (IsDelegation state delegator denom)
      (delegatedValidators codecs state legacy delegator validators) delegations := by
  induction validators generalizing delegations with
  | nil =>
    rw [← Except.ok.inj h]
    exact .nil
  | cons v validators ih =>
    have hround : state.readAll codecs legacy
        ((v :: validators).flatMap fun v => [.delegation delegator v, .validator v]) =
        ⟨.delegation delegator v, state.read codecs legacy (.delegation delegator v)⟩ ::
          ⟨.validator v, state.read codecs legacy (.validator v)⟩ ::
          state.readAll codecs legacy
            (validators.flatMap fun v => [.delegation delegator v, .validator v]) := rfl
    rw [hround] at h
    unfold delegatedValidators
    rw [List.filter_cons]
    cases hempty : (state.read codecs legacy (.delegation delegator v)).isEmpty with
    | true =>
      simp only [delegationsOf, hempty, if_true] at h
      exact ih h
    | false =>
      simp only [delegationsOf, hempty, Bool.false_eq_true, if_false, bind_eq_ok, ensure_eq_ok,
        pure_eq_ok, Except.ok.injEq, decoded_eq_ok] at h
      obtain ⟨delegation, hdelegation, _, hvalidator, validator, hvalidator', amount, hamount, rest,
        hrest, rfl⟩ := h
      obtain ⟨record, hrecord⟩ := exists_of_elim_ne hempty
      obtain ⟨entry, hentry⟩ := exists_of_elim_ne hvalidator
      simp only [RemoteState.read, hrecord, hentry, Option.elim_some,
        hcodecs.delegation _ _ _ hrecord, hcodecs.validator _ _ hentry,
        Except.ok.injEq] at hdelegation hvalidator'
      subst hdelegation hvalidator'
      obtain ⟨hshares, rfl⟩ := delegatedTokens_eq_ok hamount
      exact .cons ⟨record, entry, hrecord, hentry, hshares, rfl⟩ (ih hrest)

/-- The coin of a balance that is not empty. -/
theorem balanceCoins_read (hcodecs : codecs.Inverts state) {version sdk047 : ℕ} {coins : List Coin}
    (hlegacy : legacy = decide (version < sdk047))
    (hvalue : (state.read codecs legacy (.balance delegator denom)).isEmpty = false)
    (h : balanceCoins codecs version sdk047 ⟨.balance delegator denom,
      state.read codecs legacy (.balance delegator denom)⟩ = .ok coins) :
    ∃ amount, state.balance delegator denom = some amount ∧ coins = [⟨denom, amount⟩] := by
  obtain ⟨amount, hamount⟩ := exists_of_elim_ne hvalue
  simp only [balanceCoins, hvalue, Bool.false_eq_true, if_false, keyDenom, hcodecs.balanceKey,
    ok_bind, bind_eq_ok, pure_eq_ok, Except.ok.injEq, uint128FromStr, orError_eq_ok] at h
  obtain ⟨text, htext, parsed, hparsed, rfl⟩ := h
  have hwritten : text = toString amount := by
    by_cases hversion : version < sdk047
    · simp only [balanceText, if_neg (not_le.2 hversion), hlegacy, hversion, decide_true,
        RemoteState.read, hamount, Option.elim_some, if_true, hcodecs.coin _ _ _ hamount, decoded,
        ok_bind, pure_eq_ok, Except.ok.injEq] at htext
      exact htext.symm
    · simp only [balanceText, if_pos (not_lt.1 hversion), hlegacy, hversion, decide_false,
        RemoteState.read, hamount, Option.elim_some, Bool.false_eq_true, if_false,
        fromUTF8?_toUTF8, orError_eq_ok, Option.some.injEq] at htext
      exact htext.symm
  rw [hwritten] at hparsed
  cases parseU128_toString hparsed
  exact ⟨amount, hamount, rfl⟩

/-- The key that the denomination which is staked is read at. -/
def bondDenomKey (legacy : Bool) : KVKey := if legacy then .bondDenom else .stakingParams

/-- The denomination that is staked, from a value that is not empty. -/
theorem bondDenom_read (hcodecs : codecs.Inverts state) {version sdk047 : ℕ}
    (hlegacy : legacy = decide (version < sdk047))
    (hvalue : (state.read codecs legacy (bondDenomKey legacy)).isEmpty = false)
    (h : bondDenom codecs version sdk047 (state.read codecs legacy (bondDenomKey legacy)) =
      .ok denom) :
    state.bondDenom = some denom := by
  by_cases hversion : version < sdk047
  · simp only [hlegacy, hversion, decide_true, bondDenomKey, if_true] at hvalue h
    obtain ⟨bond, hbond⟩ := exists_of_elim_ne hvalue
    simp only [bondDenom, if_neg (not_le.2 hversion), RemoteState.read, hbond, Option.elim_some,
      hcodecs.json _ hbond, decoded_eq_ok, Except.ok.injEq] at h
    rw [hbond, h]
  · simp only [hlegacy, hversion, decide_false, bondDenomKey, Bool.false_eq_true,
      if_false] at hvalue h
    obtain ⟨bond, hbond⟩ := exists_of_elim_ne hvalue
    simp only [bondDenom, if_pos (not_lt.1 hversion), RemoteState.read, hbond, Option.elim_some,
      hcodecs.params _ hbond, decoded, ok_bind, pure_eq_ok, Except.ok.injEq] at h
    rw [hbond, h]

/-- What is reconstructed is what the remote chain has: the coin of the balance exactly when its
value is not empty, and one delegation for each validator with a delegation that is not empty, in
the order of the list. -/
structure Agrees (codecs : Codecs) (state : RemoteState) (legacy : Bool) (delegator denom : String)
    (validators : List String) (r : BalancesAndDelegations) : Prop where
  noBalance : (state.read codecs legacy (.balance delegator denom)).isEmpty = true →
    r.balances = []
  balance : (state.read codecs legacy (.balance delegator denom)).isEmpty = false →
    ∃ amount, state.balance delegator denom = some amount ∧ r.balances = [⟨denom, amount⟩]
  delegations : ∃ bond, state.bondDenom = some bond ∧
    List.Forall₂ (IsDelegation state delegator bond)
      (delegatedValidators codecs state legacy delegator validators) r.delegations

/-- **The layout of the keys and the reconstruction agree.** For every account, denomination, list
of validators and accepted version, and every state of the remote chain in which the denomination
that is staked is not empty: whenever the values at the keys of the query are reconstructed, the
result is what the remote chain has.

**Proof sketch.** The values come in the layout of the keys (`getBalanceAndDelegationsKeys_eq`),
with the same test of the version; each part is read by its own lemma. -/
theorem reconstruct_agrees {decodes : String → Bool} {validators : List String}
    {sdkVersion : String} {keys : List KVKey} {r : BalancesAndDelegations}
    (hkeys : getBalanceAndDelegationsKeys decodes delegator denom validators sdkVersion = .ok keys)
    (hcodecs : codecs.Inverts state)
    (hbond : (state.read codecs (isLegacy sdkVersion)
      (bondDenomKey (isLegacy sdkVersion))).isEmpty = false)
    (h : reconstruct codecs (state.readAll codecs (isLegacy sdkVersion) keys) sdkVersion = .ok r) :
    Agrees codecs state (isLegacy sdkVersion) delegator denom validators r := by
  obtain ⟨version, sdk047, hversion, hsdk047, rfl⟩ := getBalanceAndDelegationsKeys_eq hkeys
  have hlegacy : isLegacy sdkVersion = decide (version < sdk047) := by
    simp only [isLegacy, hversion, hsdk047]
  have hkey : (if version < sdk047 then KVKey.bondDenom else .stakingParams) =
      bondDenomKey (isLegacy sdkVersion) := by
    rw [hlegacy, bondDenomKey]
    by_cases hlt : version < sdk047
    · simp [hlt]
    · simp [hlt]
  rw [hkey] at h
  simp only [RemoteState.readAll, List.map_cons, reconstruct, hversion, hsdk047, mapError, ok_bind,
    hbond, Bool.false_eq_true, if_false, bind_eq_ok, pure_eq_ok, Except.ok.injEq] at h
  obtain ⟨coins, hcoins, bond, hbond', delegations, hdelegations, rfl⟩ := h
  refine ⟨?_, fun hvalue => balanceCoins_read hcodecs hlegacy hvalue hcoins, bond,
    bondDenom_read hcodecs hlegacy hbond hbond', delegationsOf_readAll hcodecs hdelegations⟩
  intro hempty
  simp only [balanceCoins, hempty, if_true, pure_eq_ok, Except.ok.injEq] at hcoins
  exact hcoins.symm

end Agreement

/-! ## A remote chain -/

section Sample

/-- A codec for one value, with its bytes. -/
def Codec.single {α : Type} (a : α) (bytes : ByteArray) : Codec α where
  encode _ := bytes
  decode b := if b.data.toList = bytes.data.toList then .ok a
    else .error "failed to decode Protobuf message"

/-- The value of a codec for one value is decoded. -/
theorem Codec.single_decode {α : Type} (a : α) (bytes : ByteArray) :
    (Codec.single a bytes).decode ((Codec.single a bytes).encode a) = .ok a :=
  if_pos rfl

/-- A delegation of 1500 out of 2000 shares. -/
def sampleDelegation : RemoteDelegation := ⟨"delegator", "v2", 1500⟩

/-- A validator that has lost one of 1000 tokens. -/
def sampleValidator : RemoteValidator := ⟨999, 2000⟩

/-- A remote chain on which the account has a balance, and a delegation to the second validator. -/
def sampleState : RemoteState where
  balance address denom := if address = "delegator" ∧ denom = "uatom" then some 1000 else none
  bondDenom := some "uatom"
  delegation delegator validator :=
    if delegator = "delegator" ∧ validator = "v2" then some sampleDelegation else none
  validator validator := if validator = "v2" then some sampleValidator else none

/-- The bytes of the values of this chain. -/
def sampleCodecs : Codecs where
  coin := .single ⟨"uatom", toString 1000⟩
    ⟨#[0x0a, 0x05, 0x75, 0x61, 0x74, 0x6f, 0x6d, 0x12, 0x04, 0x31, 0x30, 0x30, 0x30]⟩
  params := .single ⟨"uatom"⟩ ⟨#[0x2a, 0x05, 0x75, 0x61, 0x74, 0x6f, 0x6d]⟩
  json := .single "uatom" ⟨#[0x22, 0x75, 0x61, 0x74, 0x6f, 0x6d, 0x22]⟩
  delegation := .single sampleDelegation.record
    ⟨#[0x0a, 0x09, 0x64, 0x65, 0x6c, 0x65, 0x67, 0x61, 0x74, 0x6f, 0x72, 0x12, 0x02, 0x76, 0x32,
      0x1a, 0x04, 0x31, 0x35, 0x30, 0x30]⟩
  validator := .single sampleValidator.record
    ⟨#[0x2a, 0x03, 0x39, 0x39, 0x39, 0x32, 0x04, 0x32, 0x30, 0x30, 0x30]⟩
  balanceKeyDenom key :=
    match key with
    | .balance _ denom => .ok denom
    | _ => .error "invalid key"

/-- The codecs fit the chain. -/
theorem sampleCodecs_inverts : sampleCodecs.Inverts sampleState where
  coin address denom amount h := by
    simp only [sampleState, Option.ite_none_right_eq_some, Option.some.injEq] at h
    obtain ⟨⟨-, rfl⟩, rfl⟩ := h
    exact Codec.single_decode _ _
  params denom h := by
    cases h
    exact Codec.single_decode _ _
  json denom h := by
    cases h
    exact Codec.single_decode _ _
  delegation delegator validator delegation h := by
    simp only [sampleState, Option.ite_none_right_eq_some, Option.some.injEq] at h
    obtain ⟨-, rfl⟩ := h
    exact Codec.single_decode _ _
  validator address validator h := by
    simp only [sampleState, Option.ite_none_right_eq_some, Option.some.injEq] at h
    obtain ⟨-, rfl⟩ := h
    exact Codec.single_decode _ _
  balanceKey _ _ := rfl

/-- The keys of the account and two validators. -/
def sampleKeys : List KVKey :=
  [.balance "delegator" "uatom", .bondDenom, .delegation "delegator" "v1", .validator "v1",
    .delegation "delegator" "v2", .validator "v2"]

/-- The delegation to the second validator is found, with its own validator. -/
theorem reconstruct_agrees_sample : ∃ r : BalancesAndDelegations,
    r.delegations = [⟨"delegator", "v2", ⟨"uatom", 749⟩⟩] ∧
      Agrees sampleCodecs sampleState (isLegacy "0.45.0") "delegator" "uatom" ["v1", "v2"] r := by
  have hkeys : getBalanceAndDelegationsKeys (fun _ => true) "delegator" "uatom" ["v1", "v2"]
      "0.45.0" = .ok sampleKeys := by
    rfl
  have hvalues : reconstruct sampleCodecs
      (sampleState.readAll sampleCodecs (isLegacy "0.45.0") sampleKeys) "0.45.0" =
        .ok ⟨[⟨"uatom", 1000⟩], [⟨"delegator", "v2", ⟨"uatom", 749⟩⟩]⟩ := by
    rfl
  exact ⟨_, rfl, reconstruct_agrees hkeys sampleCodecs_inverts (by rfl) hvalues⟩

end Sample

end Puppeteer

end DropContracts
