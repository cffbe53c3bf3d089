import DropContracts.Puppeteer.Queries
import DropContracts.Puppeteer.Reconstruct

set_option relaxedAutoImplicit false
set_option autoImplicit false

/-!
# Any result of a query

What `BalancesAndDelegations::reconstruct` and `MultiBalances::reconstruct` of
`packages/base/src/msg/puppeteer.rs` do with values that nobody has checked: when they abort, and
for which records of delegations and validators they return the amounts.

## Main definitions

* `Puppeteer.multiBalances` — `MultiBalances::reconstruct`.
* `Puppeteer.Fatal` — the values at which a reconstruction aborts.
* `Puppeteer.Holding` — the numbers of a delegation and its validator.
* `Puppeteer.Chunk` — the two values of a validator.
* `Puppeteer.kvResult` — what the values hold for each of their readers.

## Main results

* `Puppeteer.delegatedTokens_of_numbers` — the amount of a delegation, and when there is one.
* `Puppeteer.reconstruct_tolerates_iff` — when the values are tolerated.
* `Puppeteer.snapshot_exact_iff` — when the amounts of a result are stored.
-/

namespace DropContracts

namespace Puppeteer

open Exec Icq WithdrawalManager

/-! ## Balances in several denominations -/

/-- `MultiBalances::reconstruct`. The version is only looked at for a value that is not empty, after
its key. -/
def multiBalances (codecs : Codecs) (sdkVersion : String) :
    List StorageValue → ReconstructResult (List Coin)
  | [] => .ok []
  | kv :: storageValues =>
    if kv.value.isEmpty then multiBalances codecs sdkVersion storageValues
    else do
      let denom ← keyDenom codecs kv.key
      let version ← (versionToU32 sdkVersion).mapError ReconstructError.version
      let sdk047 ← (versionToU32 "0.47.0").mapError ReconstructError.version
      let text ← balanceText codecs version sdk047 kv.value
      let amount ← uint128FromStr text
      let coins ← multiBalances codecs sdkVersion storageValues
      return ⟨denom, amount⟩ :: coins

/-! ## The amount of a delegation -/

/-- The texts of a delegation and of its validator are numbers: the shares of the delegation, all
shares of the validator, and its tokens. -/
structure Numbers (delegation : CosmosDelegation) (validator : CosmosValidator)
    (shares allShares tokens : ℕ) : Prop where
  shares : parseU128 delegation.shares = some shares
  allShares : parseU128 validator.delegatorShares = some allShares
  tokens : parseU128 validator.tokens = some tokens

section Amount

variable {delegation : CosmosDelegation} {validator : CosmosValidator}
  {shares allShares tokens : ℕ}

/-- A number that is parsed fits 128 bits. -/
theorem parseU128_lt {text : String} {n : ℕ} (h : parseU128 text = some n) :
    n < Uint128.bound := by
  unfold parseU128 at h
  obtain ⟨-, hlt⟩ := Option.filter_eq_some_iff.1 h
  exact of_decide_eq_true hlt

/-- Atomics that fit are a decimal. -/
theorem decimalFromAtomics_shares {n : ℕ} (h : n < Uint128.bound) :
    decimalFromAtomics n 18 = .ok ⟨n⟩ := by
  have hfrom : Decimal.fromAtomics n 18 = some ⟨n⟩ := by
    unfold Decimal.fromAtomics
    rw [if_pos (by simpa using h)]
    simp
  simp only [decimalFromAtomics, hfrom, orError]

/-- The decimal of an integer. -/
theorem decimalFromAtomics_tokens (n : ℕ) :
    decimalFromAtomics n 0 = if n * Decimal.fractional < Uint128.bound then
      .ok ⟨n * Decimal.fractional⟩ else fail .decimalRangeExceeded := by
  have hscale : 10 ^ (18 - 0) = Decimal.fractional := by decide
  unfold decimalFromAtomics Decimal.fromAtomics
  rw [hscale]
  split_ifs <;> simp [orError]

/-- **The amount of a delegation in closed form.** The product of the shares and the tokens has to
fit 128 bits, and so has the quotient; without shares of the validator there is no quotient.

**Proof sketch.** The tokens are a whole number of units, so that their product with the shares is
exact; the two divisions are one, rounded down. -/
theorem delegatedTokens_of_numbers (h : Numbers delegation validator shares allShares tokens) :
    delegatedTokens delegation validator =
      if Uint128.bound ≤ tokens * Decimal.fractional then fail .decimalRangeExceeded
      else if Uint128.bound ≤ shares * tokens then fail .overflow
      else if allShares = 0 ∨ Uint128.bound ≤ shares * tokens * Decimal.fractional / allShares then
        abort
      else .ok (shares * tokens / allShares) := by
  have hproduct : shares * (tokens * Decimal.fractional) / Decimal.fractional =
      shares * tokens := by
    rw [← Nat.mul_assoc, Nat.mul_div_cancel _ Decimal.fractional_pos]
  have hmul : Decimal.checkedMul ⟨shares⟩ ⟨tokens * Decimal.fractional⟩ =
      if shares * tokens < Uint128.bound then some ⟨shares * tokens⟩ else none := by
    simp only [Decimal.checkedMul, hproduct]
  have hparse : ∀ {text : String} {n : ℕ}, parseU128 text = some n →
      uint128FromStr text = .ok n := fun hn => orError_eq_ok.2 hn
  rw [delegatedTokens, hparse h.shares, ok_bind,
    decimalFromAtomics_shares (parseU128_lt h.shares), ok_bind, hparse h.allShares, ok_bind,
    decimalFromAtomics_shares (parseU128_lt h.allShares), ok_bind, hparse h.tokens, ok_bind,
    decimalFromAtomics_tokens]
  by_cases htokens : Uint128.bound ≤ tokens * Decimal.fractional
  · rw [if_neg (Nat.not_lt.2 htokens), if_pos htokens]
    simp only [fail, error_bind]
  rw [if_pos (Nat.not_le.1 htokens), if_neg htokens, ok_bind, hmul]
  by_cases hoverflow : Uint128.bound ≤ shares * tokens
  · rw [if_neg (Nat.not_lt.2 hoverflow), if_pos hoverflow]
    simp only [orError, fail, error_bind]
  rw [if_pos (Nat.not_le.1 hoverflow), if_neg hoverflow]
  simp only [orError, ok_bind, Decimal.div]
  by_cases hquotient : allShares = 0 ∨
      Uint128.bound ≤ shares * tokens * Decimal.fractional / allShares
  · rw [if_pos hquotient, Decimal.fromRatio_eq_error.2 ⟨hquotient, rfl⟩, error_bind, abort]
  · rw [if_neg hquotient]
    rw [not_or, Nat.not_le] at hquotient
    rw [Decimal.fromRatio_eq_ok.2 ⟨hquotient.1, rfl, hquotient.2⟩, ok_bind, pure_eq_ok,
      Nat.div_div_eq_div_mul, Nat.mul_div_mul_right _ _ Decimal.fractional_pos]

/-- Where an amount is computed or the computation aborts, the texts are numbers. -/
theorem numbers_of_delegatedTokens
    (h : delegatedTokens delegation validator = .error .abort ∨
      ∃ amount, delegatedTokens delegation validator = .ok amount) :
    ∃ shares allShares tokens, Numbers delegation validator shares allShares tokens := by
  have hparse : ∀ text (f : ℕ → ReconstructResult ℕ), (uint128FromStr text >>= f = .error .abort ∨
      ∃ amount, uint128FromStr text >>= f = .ok amount) →
      ∃ n, parseU128 text = some n ∧ (f n = .error .abort ∨ ∃ amount, f n = .ok amount) := by
    intro text f hf
    cases hn : parseU128 text with
    | none => simp [uint128FromStr, hn, orError, fail] at hf
    | some n => exact ⟨n, rfl, by simpa [uint128FromStr, hn, orError] using hf⟩
  unfold delegatedTokens at h
  obtain ⟨shares, hshares, h⟩ := hparse _ _ h
  rw [decimalFromAtomics_shares (parseU128_lt hshares), ok_bind] at h
  obtain ⟨allShares, hall, h⟩ := hparse _ _ h
  rw [decimalFromAtomics_shares (parseU128_lt hall), ok_bind] at h
  obtain ⟨tokens, htokens, -⟩ := hparse _ _ h
  exact ⟨shares, allShares, tokens, hshares, hall, htokens⟩

/-- **When the amount of a delegation aborts**: the numbers fit, and the shares of the validator are
zero or too few for the quotient. -/
theorem delegatedTokens_eq_abort :
    delegatedTokens delegation validator = .error .abort ↔
      ∃ shares allShares tokens, Numbers delegation validator shares allShares tokens ∧
        tokens * Decimal.fractional < Uint128.bound ∧ shares * tokens < Uint128.bound ∧
        (allShares = 0 ∨
          Uint128.bound ≤ shares * tokens * Decimal.fractional / allShares) := by
  constructor
  · intro h
    obtain ⟨shares, allShares, tokens, hnumbers⟩ := numbers_of_delegatedTokens (.inl h)
    rw [delegatedTokens_of_numbers hnumbers] at h
    split_ifs at h with htokens hoverflow hquotient
    · simp [fail] at h
    · simp [fail] at h
    · exact ⟨shares, allShares, tokens, hnumbers, Nat.lt_of_not_le htokens,
        Nat.lt_of_not_le hoverflow, hquotient⟩
  · rintro ⟨shares, allShares, tokens, hnumbers, htokens, hoverflow, hquotient⟩
    rw [delegatedTokens_of_numbers hnumbers, if_neg (Nat.not_le.2 htokens),
      if_neg (Nat.not_le.2 hoverflow), if_pos hquotient, abort]

/-- **When there is an amount**: the product and the quotient fit. -/
theorem exists_delegatedTokens :
    (∃ amount, delegatedTokens delegation validator = .ok amount) ↔
      ∃ shares allShares tokens, Numbers delegation validator shares allShares tokens ∧
        tokens * Decimal.fractional < Uint128.bound ∧ shares * tokens < Uint128.bound ∧
        allShares ≠ 0 ∧
          shares * tokens * Decimal.fractional / allShares < Uint128.bound := by
  constructor
  · intro h
    obtain ⟨shares, allShares, tokens, hnumbers⟩ := numbers_of_delegatedTokens (.inr h)
    obtain ⟨amount, h⟩ := h
    rw [delegatedTokens_of_numbers hnumbers] at h
    split_ifs at h with htokens hoverflow hquotient
    · simp at h
    · simp at h
    · simp at h
    · rw [not_or, Nat.not_le] at hquotient
      exact ⟨shares, allShares, tokens, hnumbers, Nat.lt_of_not_le htokens,
        Nat.lt_of_not_le hoverflow, hquotient⟩
  · rintro ⟨shares, allShares, tokens, hnumbers, htokens, hoverflow, hzero, hquotient⟩
    rw [delegatedTokens_of_numbers hnumbers, if_neg (Nat.not_le.2 htokens),
      if_neg (Nat.not_le.2 hoverflow), if_neg (by omega)]
    exact ⟨_, rfl⟩

end Amount

/-! ## When a reconstruction aborts -/

section Abort

variable (codecs : Codecs)

/-- The two values of a validator hold a delegation and the validator. -/
structure Records (kv kv' : StorageValue) (delegation : CosmosDelegation)
    (validator : CosmosValidator) : Prop where
  delegationPresent : kv.value.isEmpty = false
  delegation : codecs.delegation.decode kv.value = .ok delegation
  validatorPresent : kv'.value.isEmpty = false
  validator : codecs.validator.decode kv'.value = .ok validator

/-- Two values that the loop gets past: there is no delegation, or all numbers of the delegation and
of its validator fit. -/
def Readable (kv kv' : StorageValue) : Prop :=
  kv.value.isEmpty = true ∨ ∃ delegation validator shares allShares tokens,
    Records codecs kv kv' delegation validator ∧
    Numbers delegation validator shares allShares tokens ∧
    tokens * Decimal.fractional < Uint128.bound ∧ shares * tokens < Uint128.bound ∧
    allShares ≠ 0 ∧ shares * tokens * Decimal.fractional / allShares < Uint128.bound

/-- Two values whose numbers fit until the division: the validator has no shares, or too few. -/
def FatalPair (kv kv' : StorageValue) : Prop :=
  ∃ delegation validator shares allShares tokens,
    Records codecs kv kv' delegation validator ∧
    Numbers delegation validator shares allShares tokens ∧
    tokens * Decimal.fractional < Uint128.bound ∧ shares * tokens < Uint128.bound ∧
    (allShares = 0 ∨ Uint128.bound ≤ shares * tokens * Decimal.fractional / allShares)

/-- A delegation without a value for its validator. -/
def Dangling (kv : StorageValue) : Prop :=
  kv.value.isEmpty = false ∧ ∃ delegation, codecs.delegation.decode kv.value = .ok delegation

/-- After values that the loop gets past, a delegation comes last without its validator, or two
values come that cannot be divided. -/
inductive FatalChunks : List StorageValue → Prop
  | dangling {kv : StorageValue} (h : Dangling codecs kv) : FatalChunks [kv]
  | pair {kv kv' : StorageValue} {chunks : List StorageValue} (h : FatalPair codecs kv kv') :
      FatalChunks (kv :: kv' :: chunks)
  | later {kv kv' : StorageValue} {chunks : List StorageValue} (hread : Readable codecs kv kv')
      (h : FatalChunks chunks) : FatalChunks (kv :: kv' :: chunks)

/-- The values at which a reconstruction aborts: the balance can be read, and it is the only value,
or the denomination that is staked can be read and the values of the validators are fatal. -/
def Fatal (storageValues : List StorageValue) (sdkVersion : String) : Prop :=
  ∃ version sdk047 balance values coins, versionToU32 sdkVersion = .ok version ∧
    versionToU32 "0.47.0" = .ok sdk047 ∧ storageValues = balance :: values ∧
    balanceCoins codecs version sdk047 balance = .ok coins ∧
    (values = [] ∨ ∃ params chunks denom, values = params :: chunks ∧
      params.value.isEmpty = false ∧ bondDenom codecs version sdk047 params.value = .ok denom ∧
      FatalChunks codecs chunks)

variable {codecs}

/-- A decoder does not abort. -/
theorem decoded_ne_abort {α : Type} (x : Except String α) : decoded x ≠ .error .abort := by
  cases x <;> simp [decoded, fail]

/-- The key of a balance is taken apart without an abort. -/
theorem keyDenom_ne_abort (key : KVKey) : keyDenom codecs key ≠ .error .abort := by
  unfold keyDenom
  split <;> simp [fail]

/-- The text of an amount is read without an abort. -/
theorem balanceText_ne_abort (version sdk047 : ℕ) (value : ByteArray) :
    balanceText codecs version sdk047 value ≠ .error .abort := by
  unfold balanceText
  split_ifs
  · simp
  · simp [bind_eq_error, decoded_ne_abort, pure_eq_ok]

/-- The coin of a balance is read without an abort. -/
theorem balanceCoins_ne_abort (version sdk047 : ℕ) (kv : StorageValue) :
    balanceCoins codecs version sdk047 kv ≠ .error .abort := by
  unfold balanceCoins
  split_ifs
  · simp
  · simp [bind_eq_error, keyDenom_ne_abort, balanceText_ne_abort, uint128FromStr]

/-- The denomination that is staked is read without an abort. -/
theorem bondDenom_ne_abort (version sdk047 : ℕ) (value : ByteArray) :
    bondDenom codecs version sdk047 value ≠ .error .abort := by
  unfold bondDenom
  split_ifs
  · simp [bind_eq_error, decoded_ne_abort]
  · exact decoded_ne_abort _

/-- A version is parsed without an abort. -/
theorem version_ne_abort (version : String) :
    (versionToU32 version).mapError ReconstructError.version ≠ .error .abort := by
  have hpart : ∀ part, versionPart version part ≠ .error .abort := by
    intro part
    simp [versionPart, bind_eq_error]
  have hversion : versionToU32 version ≠ .error .abort := by
    unfold versionToU32
    split
    · simp [bind_eq_error, hpart]
    · simp [fail]
  cases h : versionToU32 version with
  | ok n => simp [mapError]
  | error f =>
    cases f with
    | error e => simp [mapError]
    | abort => exact absurd h hversion

/-- **The loop over the validators aborts exactly on fatal values.** The induction follows the
rounds of the loop, two values each. -/
theorem delegationsOf_eq_abort {denom : String} {chunks : List StorageValue} :
    delegationsOf codecs denom chunks = .error .abort ↔ FatalChunks codecs chunks := by
  induction chunks using delegationsOf.induct with
  | case1 =>
    refine iff_of_false (by simp [delegationsOf]) ?_
    rintro ⟨⟩
  | case2 kv hempty =>
    refine iff_of_false (by simp [delegationsOf, hempty]) ?_
    rintro ⟨⟨hpresent, -⟩⟩
    rw [hempty] at hpresent
    cases hpresent
  | case3 kv hpresent =>
    simp only [delegationsOf, hpresent, Bool.false_eq_true, if_false, bind_eq_error,
      decoded_ne_abort, false_or, abort_eq_error, and_true, decoded_eq_ok]
    constructor
    · rintro ⟨delegation, hdelegation⟩
      exact .dangling ⟨Bool.eq_false_iff.2 hpresent, delegation, hdelegation⟩
    · rintro ⟨⟨-, hdelegation⟩⟩
      exact hdelegation
  | case4 kv kv' chunks hempty ih =>
    simp only [delegationsOf, hempty, if_true]
    rw [ih]
    constructor
    · exact .later (.inl hempty)
    · rintro (_ | ⟨_, _, _, _, _, hrecords, -⟩ | ⟨-, h⟩)
      · rw [hrecords.delegationPresent] at hempty
        cases hempty
      · exact h
  | case5 kv kv' chunks hpresent ih =>
    have hpresent' : kv.value.isEmpty = false := Bool.eq_false_iff.2 hpresent
    simp only [delegationsOf, hpresent', Bool.false_eq_true, if_false, bind_eq_error,
      decoded_ne_abort, decoded_eq_ok, ensure_eq_error, ensure_eq_ok, reduceCtorEq, and_false,
      false_or, pure_eq_ok, or_false, exists_const, ih]
    constructor
    · rintro ⟨delegation, hdelegation, hvalidator, validator, hvalidator', hround⟩
      rcases hround with hamount | ⟨amount, hamount, h⟩
      · obtain ⟨shares, allShares, tokens, h⟩ := delegatedTokens_eq_abort.1 hamount
        exact .pair ⟨delegation, validator, shares, allShares, tokens,
          ⟨hpresent', hdelegation, hvalidator, hvalidator'⟩, h⟩
      · obtain ⟨shares, allShares, tokens, hfits⟩ := exists_delegatedTokens.1 ⟨amount, hamount⟩
        exact .later (.inr ⟨delegation, validator, shares, allShares, tokens,
          ⟨hpresent', hdelegation, hvalidator, hvalidator'⟩, hfits⟩) h
    · rintro (_ | ⟨delegation, validator, shares, allShares, tokens, hrecords, h⟩ | ⟨hread, h⟩)
      · exact ⟨delegation, hrecords.delegation, hrecords.validatorPresent, validator,
          hrecords.validator, .inl (delegatedTokens_eq_abort.2 ⟨shares, allShares, tokens, h⟩)⟩
      · obtain hempty | ⟨delegation, validator, shares, allShares, tokens, hrecords, hfits⟩ := hread
        · exact absurd hempty hpresent
        · obtain ⟨amount, hamount⟩ :=
            exists_delegatedTokens.2 ⟨shares, allShares, tokens, hfits⟩
          exact ⟨delegation, hrecords.delegation, hrecords.validatorPresent, validator,
            hrecords.validator, .inr ⟨amount, hamount, h⟩⟩

/-- **A reconstruction aborts exactly on fatal values.** -/
theorem reconstruct_eq_abort {storageValues : List StorageValue} {sdkVersion : String} :
    reconstruct codecs storageValues sdkVersion = .error .abort ↔
      Fatal codecs storageValues sdkVersion := by
  unfold Fatal
  cases storageValues with
  | nil => simp [reconstruct, bind_eq_error, version_ne_abort]
  | cons balance values =>
    simp only [reconstruct, bind_eq_error, version_ne_abort, balanceCoins_ne_abort, false_or,
      mapError_eq_ok]
    constructor
    · rintro ⟨version, hok, sdk047, hok', coins, hcoins, h⟩
      refine ⟨version, sdk047, balance, values, coins, hok, hok', rfl, hcoins, ?_⟩
      cases values with
      | nil => exact .inl rfl
      | cons params chunks =>
        cases hempty : params.value.isEmpty with
        | true => simp [hempty] at h
        | false =>
          simp only [hempty, Bool.false_eq_true, if_false, bind_eq_error, bondDenom_ne_abort,
            false_or, delegationsOf_eq_abort, pure_eq_ok, reduceCtorEq, and_false, or_false,
            exists_const] at h
          obtain ⟨denom, hdenom, hfatal⟩ := h
          exact .inr ⟨params, chunks, denom, rfl, hempty, hdenom, hfatal⟩
    · rintro ⟨version, sdk047, _, _, coins, hok, hok', heq, hcoins, h⟩
      obtain ⟨rfl, rfl⟩ := List.cons.inj heq
      refine ⟨version, hok, sdk047, hok', coins, hcoins, ?_⟩
      obtain rfl | ⟨params, chunks, denom, rfl, hpresent, hdenom, hfatal⟩ := h
      · rfl
      · simp only [hpresent, Bool.false_eq_true, if_false, bind_eq_error, bondDenom_ne_abort,
          false_or, delegationsOf_eq_abort]
        exact ⟨denom, hdenom, .inl hfatal⟩

/-- Balances in several denominations are read without an abort. -/
theorem multiBalances_ne_abort (sdkVersion : String) (storageValues : List StorageValue) :
    multiBalances codecs sdkVersion storageValues ≠ .error .abort := by
  induction storageValues with
  | nil => simp [multiBalances]
  | cons kv storageValues ih =>
    unfold multiBalances
    split_ifs
    · exact ih
    · simp [bind_eq_error, keyDenom_ne_abort, version_ne_abort, balanceText_ne_abort,
        uint128FromStr, ih]

/-- **The values that are tolerated.** Whatever the values and the version are, the two
reconstructions return or fail with an error exactly unless the values are fatal. -/
theorem reconstruct_tolerates_iff (codecs : Codecs) (storageValues : List StorageValue)
    (sdkVersion : String) :
    (reconstruct codecs storageValues sdkVersion ≠ .error .abort ∧
      multiBalances codecs sdkVersion storageValues ≠ .error .abort) ↔
      ¬ Fatal codecs storageValues sdkVersion := by
  rw [ne_eq, reconstruct_eq_abort]
  exact and_iff_left (multiBalances_ne_abort sdkVersion storageValues)

/-- The codecs of a chain whose validator has no shares. -/
def zeroSharesCodecs : Codecs :=
  { sampleCodecs with
    validator := .single ⟨"999", "0"⟩ ⟨#[0x2a, 0x03, 0x39, 0x39, 0x39, 0x32, 0x01, 0x30]⟩ }

/-- A single value, a delegation without its validator, and a validator without shares. -/
theorem reconstruct_aborts :
    reconstruct sampleCodecs ((sampleState.readAll sampleCodecs true sampleKeys).take 1) "0.45.0" =
        .error .abort ∧
      reconstruct sampleCodecs ((sampleState.readAll sampleCodecs true sampleKeys).take 5)
        "0.45.0" = .error .abort ∧
      reconstruct zeroSharesCodecs (sampleState.readAll zeroSharesCodecs true sampleKeys)
        "0.45.0" = .error .abort :=
  ⟨by rfl, by rfl, by rfl⟩

end Abort

/-! ## The amounts of a result -/

/-- The numbers of a delegation and its validator: the delegation has some of the shares, and the
tokens are a decimal. -/
structure Holding where
  delegation : CosmosDelegation
  validator : CosmosValidator
  shares : ℕ
  allShares : ℕ
  tokens : ℕ
  numbers : Numbers delegation validator shares allShares tokens
  pos : 0 < shares
  le : shares ≤ allShares
  fits : tokens * Decimal.fractional < Uint128.bound

/-- The part of the tokens that the shares stand for, rounded down. -/
def Holding.amount (h : Holding) : ℕ := h.shares * h.tokens / h.allShares

/-- The product of the shares and the tokens fits 128 bits. -/
def Holding.ProductFits (h : Holding) : Prop := h.shares * h.tokens < Uint128.bound

instance (h : Holding) : Decidable h.ProductFits := inferInstanceAs (Decidable (_ < _))

/-- The delegation as it is reported. -/
def Holding.reported (denom : String) (h : Holding) : Delegation :=
  ⟨h.delegation.delegatorAddress, h.delegation.validatorAddress, ⟨denom, h.amount⟩⟩

/-- The two values of a validator: there is no delegation, or they hold the delegation and the
validator. -/
inductive Chunk (codecs : Codecs) where
  | missing (kv kv' : StorageValue) (hempty : kv.value.isEmpty = true)
  | held (kv kv' : StorageValue) (holding : Holding)
      (hrecords : Records codecs kv kv' holding.delegation holding.validator)

section Amounts

variable {codecs : Codecs}

/-- The values of a validator. -/
def Chunk.values : Chunk codecs → List StorageValue
  | missing kv kv' _ => [kv, kv']
  | held kv kv' _ _ => [kv, kv']

/-- The holding of a validator, if there is one. -/
def Chunk.holding : Chunk codecs → Option Holding
  | missing _ _ _ => none
  | held _ _ holding _ => some holding

/-- No more than the tokens of the validator. -/
theorem Holding.amount_le (h : Holding) : h.amount ≤ h.tokens :=
  Nat.div_le_of_le_mul (Nat.mul_le_mul_right _ h.le)

/-- **The amount of a holding** is computed exactly when the product fits: the quotient is at most
the decimal of the tokens. -/
theorem Holding.delegatedTokens_eq (h : Holding) :
    delegatedTokens h.delegation h.validator =
      if h.ProductFits then .ok h.amount else fail .overflow := by
  have hall : h.allShares ≠ 0 := by
    have := h.pos
    have := h.le
    omega
  have hquotient : h.shares * h.tokens * Decimal.fractional / h.allShares < Uint128.bound := by
    refine lt_of_le_of_lt (Nat.div_le_of_le_mul ?_) h.fits
    rw [Nat.mul_assoc]
    exact Nat.mul_le_mul_right _ h.le
  rw [delegatedTokens_of_numbers h.numbers, if_neg (Nat.not_le.2 h.fits)]
  by_cases hproduct : h.ProductFits
  · rw [if_neg (Nat.not_le.2 hproduct), if_neg (by omega), if_pos hproduct]
    rfl
  · rw [if_pos (Nat.le_of_not_lt hproduct), if_neg hproduct]

/-- The amount of a holding is returned exactly when the product fits. -/
theorem Holding.delegatedTokens_eq_ok {h : Holding} {amount : ℕ} :
    delegatedTokens h.delegation h.validator = .ok amount ↔ h.ProductFits ∧ amount = h.amount := by
  rw [h.delegatedTokens_eq]
  split_ifs with hproduct
  · simp [hproduct, eq_comm]
  · simp [hproduct]

/-- **The loop over the validators**, for values that hold records: it returns exactly when all
products fit, and then one delegation for each holding. -/
theorem delegationsOf_chunks {denom : String} {chunks : List (Chunk codecs)}
    {delegations : List Delegation} :
    delegationsOf codecs denom (chunks.flatMap Chunk.values) = .ok delegations ↔
      (∀ h ∈ chunks.filterMap Chunk.holding, h.ProductFits) ∧
        delegations = (chunks.filterMap Chunk.holding).map (Holding.reported denom) := by
  induction chunks generalizing delegations with
  | nil => simp [delegationsOf, eq_comm]
  | cons chunk chunks ih =>
    cases chunk with
    | missing kv kv' hempty =>
      simp only [List.flatMap_cons, Chunk.values, List.cons_append, List.nil_append, delegationsOf,
        hempty, if_true, ih, Chunk.holding, List.filterMap_cons]
    | held kv kv' holding hrecords =>
      simp only [List.flatMap_cons, Chunk.values, List.cons_append, List.nil_append, delegationsOf,
        hrecords.delegationPresent, Bool.false_eq_true, if_false, hrecords.delegation, decoded,
        ok_bind, hrecords.validatorPresent, hrecords.validator, bind_eq_ok, ensure_eq_ok,
        pure_eq_ok, Except.ok.injEq, Holding.delegatedTokens_eq_ok, ih, Chunk.holding,
        List.filterMap_cons, List.forall_mem_cons, List.map_cons]
      constructor
      · rintro ⟨-, -, amount, ⟨hproduct, rfl⟩, rest, ⟨hrest, rfl⟩, rfl⟩
        exact ⟨⟨hproduct, hrest⟩, rfl⟩
      · rintro ⟨⟨hproduct, hrest⟩, rfl⟩
        exact ⟨(), trivial, _, ⟨hproduct, rfl⟩, _, ⟨hrest, rfl⟩, rfl⟩

/-- What the values of a query hold for each of its readers. -/
def kvResult (codecs : Codecs) (sdkVersion : String) (storageValues : List StorageValue) :
    KvResult where
  balancesAndDelegations := (reconstruct codecs storageValues sdkVersion).toOption
  multiBalances := (multiBalances codecs sdkVersion storageValues).toOption
  unbondingEntries := none

/-- **The amounts of a result.** For every registered query, every readable balance and denomination
that is staked, and all delegations whose shares and tokens are decimals: the amounts are
reconstructed as the parts of the tokens that the shares stand for, and stored as the new snapshot,
exactly when the product of the shares (in atomics) and the tokens of each delegation fits 128
bits. -/
theorem snapshot_exact_iff {s : FullStorage} {env : Env} {queryId version sdk047 : ℕ}
    {balance params : StorageValue} {chunks : List (Chunk codecs)} {coins : List Coin}
    {denom : String} (hquery : s.kvQueries.load queryId = some .delegationsAndBalance)
    (hversion : versionToU32 s.config.sdkVersion = .ok version)
    (hsdk047 : versionToU32 "0.47.0" = .ok sdk047)
    (hcoins : balanceCoins codecs version sdk047 balance = .ok coins)
    (hparams : params.value.isEmpty = false)
    (hdenom : bondDenom codecs version sdk047 params.value = .ok denom) :
    (∃ data : BalancesAndDelegations,
      reconstruct codecs (balance :: params :: chunks.flatMap Chunk.values) s.config.sdkVersion =
        .ok data ∧
      data.delegations = (chunks.filterMap Chunk.holding).map (Holding.reported denom) ∧
      (∀ h ∈ chunks.filterMap Chunk.holding, h.amount ≤ h.tokens) ∧
      sudoKvQueryResult s env queryId (kvResult codecs s.config.sdkVersion
          (balance :: params :: chunks.flatMap Chunk.values)) =
        .ok { s with delegationsAndBalance := (data, env.height, env.time) }) ↔
      ∀ h ∈ chunks.filterMap Chunk.holding, h.shares * h.tokens < Uint128.bound := by
  have hreconstruct : ∀ data,
      reconstruct codecs (balance :: params :: chunks.flatMap Chunk.values) s.config.sdkVersion =
        .ok data ↔ (∀ h ∈ chunks.filterMap Chunk.holding, h.ProductFits) ∧
          data = ⟨coins, (chunks.filterMap Chunk.holding).map (Holding.reported denom)⟩ := by
    intro data
    simp only [reconstruct, hversion, hsdk047, mapError, ok_bind, hcoins, hparams,
      Bool.false_eq_true, if_false, hdenom, bind_eq_ok, delegationsOf_chunks, pure_eq_ok,
      Except.ok.injEq]
    constructor
    · rintro ⟨_, ⟨hproducts, rfl⟩, rfl⟩
      exact ⟨hproducts, rfl⟩
    · rintro ⟨hproducts, rfl⟩
      exact ⟨_, ⟨hproducts, rfl⟩, rfl⟩
  constructor
  · rintro ⟨data, hdata, -⟩
    exact ((hreconstruct data).1 hdata).1
  · intro hproducts
    have hdata := (hreconstruct _).2 ⟨hproducts, rfl⟩
    refine ⟨_, hdata, rfl, fun h _ => h.amount_le, ?_⟩
    simp only [sudoKvQueryResult, hquery, kvResult, hdata, Except.toOption, orError, ok_bind,
      pure_eq_ok, sudoDelegationsAndBalance]

end Amounts

/-! ## Results of a remote chain -/

section Samples

/-- The value under a key, in the store of version 0.47.0. -/
def sampleValue (codecs : Codecs) (key : KVKey) : StorageValue :=
  ⟨key, sampleState.read codecs false key⟩

/-- A puppeteer with a query for balances and delegations. -/
def sampleStorage : FullStorage where
  config := ⟨"connection", "transfer", 10, "uatom", "owner", [], none, "channel-0", "0.47.0"⟩
  ica := .registered "delegator"
  txState := none
  ibcFee := none
  registerFee := none
  delegationsAndBalance := (⟨[], []⟩, 0, ⟨0⟩)
  nonNativeRewardBalances := none
  cwOwner := "owner"
  kvQueries := StorageMap.empty.save 1 .delegationsAndBalance
  unbondingDelegations := StorageMap.empty
  unbondingDelegationsReplyIdStorage := StorageMap.empty
  recipientTransfers := []

/-- The block of the result. -/
def sampleEnv : Env := ⟨100, ⟨1700000000000000000⟩, "puppeteer"⟩

/-- The holding of 1500 out of 2000 shares. -/
def sampleHolding : Holding where
  delegation := sampleDelegation.record
  validator := sampleValidator.record
  shares := 1500
  allShares := 2000
  tokens := 999
  numbers := ⟨by rfl, by rfl, by rfl⟩
  pos := by decide
  le := by decide
  fits := by decide

/-- The values of the first validator, to which there is no delegation, and of the second one. -/
def sampleChunks : List (Chunk sampleCodecs) := [
  .missing (sampleValue sampleCodecs (.delegation "delegator" "v1"))
    (sampleValue sampleCodecs (.validator "v1")) (by rfl),
  .held (sampleValue sampleCodecs (.delegation "delegator" "v2"))
    (sampleValue sampleCodecs (.validator "v2")) sampleHolding ⟨by rfl, by rfl, by rfl, by rfl⟩]

/-- The part of 999 tokens that 1500 out of 2000 shares stand for is stored. -/
theorem snapshot_exact_iff_sample : ∃ data : BalancesAndDelegations,
    data.delegations = [⟨"delegator", "v2", ⟨"uatom", 749⟩⟩] ∧
      sudoKvQueryResult sampleStorage sampleEnv 1 (kvResult sampleCodecs "0.47.0"
        (sampleValue sampleCodecs (.balance "delegator" "uatom") ::
          sampleValue sampleCodecs .stakingParams :: sampleChunks.flatMap Chunk.values)) =
        .ok { sampleStorage with delegationsAndBalance := (data, 100, sampleEnv.time) } := by
  have hcoins : balanceCoins sampleCodecs 48128 48128
      (sampleValue sampleCodecs (.balance "delegator" "uatom")) = .ok [⟨"uatom", 1000⟩] := by
    rfl
  have hdenom : bondDenom sampleCodecs 48128 48128 (sampleValue sampleCodecs .stakingParams).value =
      .ok "uatom" := by
    rfl
  have hfits : ∀ h ∈ sampleChunks.filterMap Chunk.holding, h.shares * h.tokens < Uint128.bound := by
    intro h hh
    obtain rfl := List.mem_singleton.1 hh
    decide
  obtain ⟨data, -, hdelegations, -, hstored⟩ :=
    (@snapshot_exact_iff sampleCodecs sampleStorage sampleEnv 1 48128 48128 _ _ sampleChunks _ _
      (by rfl) (by rfl) (by rfl) hcoins (by rfl) hdenom).2 hfits
  exact ⟨data, hdelegations, hstored⟩

/-- A delegation of ten thousand tokens to a validator with ten million, each of a million units. -/
def largeHolding : Holding where
  delegation := ⟨"delegator", "v2", "10000000000000000000000000000"⟩
  validator := ⟨"10000000000000", "10000000000000000000000000000000"⟩
  shares := 10 ^ 28
  allShares := 10 ^ 31
  tokens := 10 ^ 13
  numbers := ⟨by rfl, by rfl, by rfl⟩
  pos := by decide
  le := by decide
  fits := by decide

/-- The bytes of the delegation and the validator. -/
def largeCodecs : Codecs :=
  { sampleCodecs with
    delegation := .single largeHolding.delegation
      ⟨#[0x0a, 0x09, 0x64, 0x65, 0x6c, 0x65, 0x67, 0x61, 0x74, 0x6f, 0x72, 0x12, 0x02, 0x76, 0x32,
        0x1a, 0x1d, 0x31, 0x30, 0x30, 0x30, 0x30, 0x30, 0x30, 0x30, 0x30, 0x30, 0x30, 0x30, 0x30,
        0x30, 0x30, 0x30, 0x30, 0x30, 0x30, 0x30, 0x30, 0x30, 0x30, 0x30, 0x30, 0x30, 0x30, 0x30,
        0x30]⟩
    validator := .single largeHolding.validator
      ⟨#[0x2a, 0x0e, 0x31, 0x30, 0x30, 0x30, 0x30, 0x30, 0x30, 0x30, 0x30, 0x30, 0x30, 0x30, 0x30,
        0x30, 0x32, 0x20, 0x31, 0x30, 0x30, 0x30, 0x30, 0x30, 0x30, 0x30, 0x30, 0x30, 0x30, 0x30,
        0x30, 0x30, 0x30, 0x30, 0x30, 0x30, 0x30, 0x30, 0x30, 0x30, 0x30, 0x30, 0x30, 0x30, 0x30,
        0x30, 0x30, 0x30, 0x30, 0x30]⟩ }

/-- The values of the validator. -/
def largeChunk : Chunk largeCodecs :=
  .held (sampleValue largeCodecs (.delegation "delegator" "v2"))
    (sampleValue largeCodecs (.validator "v2")) largeHolding ⟨by rfl, by rfl, by rfl, by rfl⟩

/-- The product of the shares and the tokens overflows, and the snapshot stays as it is. -/
theorem large_delegation_refused :
    reconstruct largeCodecs (sampleValue largeCodecs (.balance "delegator" "uatom") ::
        sampleValue largeCodecs .stakingParams :: largeChunk.values) "0.47.0" =
      .error (.error .overflow) ∧
    sudoKvQueryResult sampleStorage sampleEnv 1 (kvResult largeCodecs "0.47.0"
        (sampleValue largeCodecs (.balance "delegator" "uatom") ::
          sampleValue largeCodecs .stakingParams :: largeChunk.values)) =
      .error (.error invalidResult) :=
  ⟨by rfl, by rfl⟩

end Samples

end Puppeteer

end DropContracts
