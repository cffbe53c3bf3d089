import DropContracts.Base.Decimal
import DropContracts.Base.StorageMap
import DropContracts.Base.Run
import DropContracts.Packages.InterchainQuery

set_option relaxedAutoImplicit false
set_option autoImplicit false

/-!
# The statistics of the validators

`contracts/validators-stats/src/contract.rs`. The contract reads two queries of the remote chain:
the profiles of the validators, and how many blocks each of them missed lately. It keeps one state
for each validator. The result of the first query is used to register the second.

What the query library makes of the values of a result, and how it encodes an address, are
parameters. The record of the owner, which nothing reads, and `migrate`, which changes nothing, are
left out.

## Main definitions

* `ValidatorsStats.Storage`, `ValidatorsStats.ValidatorState` — the storage items.
* `ValidatorsStats.instantiate`, `ValidatorsStats.execute`, `ValidatorsStats.reply` — the messages.
* `ValidatorsStats.sudoValidatorInfo`, `ValidatorsStats.sudoSigningInfo` — the two results.
* `ValidatorsStats.Step` — a step of the contract.

## Main results

* `ValidatorsStats.signingInfoRound_of_load` — the outcome of one signing info.
* `ValidatorsStats.step_cases` — what each step changes.
* `ValidatorsStats.states_of_run` — the rule for what holds of every stored state.
* `ValidatorsStats.keyed_of_run` — every state is stored under its address.
-/

namespace DropContracts

namespace ValidatorsStats

open Exec Icq

/-! ## Data -/

/-- The configuration. -/
structure Config where
  connectionId : String
  portId : String
  profileUpdatePeriod : ℕ
  infoUpdatePeriod : ℕ
  avgBlockTime : ℕ
  owner : String
  deriving DecidableEq, Repr

/-- What is kept of a validator. -/
structure ValidatorState where
  valoperAddress : String
  valconsAddress : String
  lastProcessedRemoteHeight : Option ℕ
  lastProcessedLocalHeight : Option ℕ
  lastValidatedHeight : Option ℕ
  lastCommissionInRange : Option ℕ
  uptime : Decimal
  tombstone : Bool
  prevJailedState : Bool
  jailedNumber : Option ℕ
  deriving DecidableEq, Repr

/-- The blocks that a validator missed. -/
structure ValidatorMissedBlocksForPeriod where
  address : String
  missedBlocks : ℕ
  deriving DecidableEq, Repr

/-- A record of missed blocks. -/
structure MissedBlocks where
  remoteHeight : ℕ
  timestamp : ℕ
  validators : List ValidatorMissedBlocksForPeriod
  deriving DecidableEq, Repr

/-- The storage items. An absent history of missed blocks is read as an empty one. -/
structure Storage where
  config : Config
  missedBlocks : List MissedBlocks
  stateMap : StorageMap String ValidatorState
  validatorProfileQueryId : Option ℕ
  signingInfoQueryId : Option ℕ
  valconsToValoper : StorageMap String String

/-- The message that creates the contract. -/
structure InstantiateMsg where
  connectionId : String
  portId : String
  profileUpdatePeriod : ℕ
  infoUpdatePeriod : ℕ
  avgBlockTime : ℕ
  owner : String
  deriving DecidableEq, Repr

/-- The messages of the contract. -/
inductive ExecuteMsg where
  | registerStatsQueries (validators : List String)
  deriving DecidableEq, Repr

/-- A validator of the remote chain. -/
structure Validator where
  operatorAddress : String
  consensusPubkey : Option (List UInt8)
  status : ℕ
  jailed : Bool
  rate : Option Decimal
  deriving DecidableEq, Repr

/-- The signing info of a validator. The counter is a signed integer. -/
structure ValidatorSigningInfo where
  address : String
  tombstoned : Bool
  missedBlocksCounter : ℤ
  deriving DecidableEq, Repr

/-- The result of a query: the remote height it was read at, and the values. -/
structure QueryResult (κ : Type) where
  height : ℕ
  kvResults : κ

/-- A call by the chain. -/
inductive SudoMsg where
  | kvQueryResult (queryId : ℕ)
  | other
  deriving DecidableEq, Repr

/-- The errors of the contract. -/
inductive NeutronError where
  | std (e : StdError)
  | library (msg : String)
  deriving DecidableEq, Repr

/-- A call of the contract. -/
abbrev Result (α : Type) := Exec NeutronError α

/-- A message to the query module. -/
inductive Msg where
  | registerStakingValidatorsQuery (connectionId : String) (validators : List String)
      (updatePeriod : ℕ)
  | registerValidatorsSigningInfosQuery (connectionId : String) (valconsAddresses : List String)
      (updatePeriod : ℕ)
  deriving DecidableEq, Repr

/-- A message with the id of its reply. -/
structure SubMsg where
  id : ℕ
  msg : Msg
  deriving DecidableEq, Repr

/-- `VALIDATOR_PROFILE_REPLY_ID`. -/
def VALIDATOR_PROFILE_REPLY_ID : ℕ := 1

/-- `SIGNING_INFO_REPLY_ID`. -/
def SIGNING_INFO_REPLY_ID : ℕ := 2

/-- The seconds that a record of missed blocks is kept for. -/
def historyPeriod : ℕ := 60 * 60 * 24 * 30

/-- What is not of the contract: the addresses the chain accepts, the queries the library builds,
what it reconstructs from the values of a result, and the encoding, under a human-readable part, of
the hash of a key. -/
structure Library (κ : Type) where
  addrValidate : String → Bool
  newRegisterStakingValidatorsQueryMsg : List String → Except String Unit
  newRegisterValidatorsSigningInfosQueryMsg : List String → Except String Unit
  reconstructValidators : κ → Except String (List Validator)
  reconstructSigningInfos : κ → Except String (List ValidatorSigningInfo)
  encodeHash : String → List UInt8 → Except String String

variable {κ : Type}

/-- A value of the library, or its error. -/
def ofLibrary {α : Type} : Except String α → Result α
  | .ok a => .ok a
  | .error e => fail (.library e)

/-- The cast of a signed integer to an unsigned one, `as u64`. -/
def asU64 (n : ℤ) : ℕ := (n % 2 ^ 64).toNat

/-! ## Messages -/

section Messages

variable (lib : Library κ) (s : Storage)

/-- `instantiate`. -/
def instantiate (msg : InstantiateMsg) : Result Storage := do
  ensure (lib.addrValidate msg.owner = true) (.std (.genericErr "addr_validate errored"))
  return {
    config := {
      connectionId := msg.connectionId
      portId := msg.portId
      profileUpdatePeriod := msg.profileUpdatePeriod
      infoUpdatePeriod := msg.infoUpdatePeriod
      avgBlockTime := msg.avgBlockTime
      owner := msg.owner }
    missedBlocks := []
    stateMap := StorageMap.empty
    validatorProfileQueryId := none
    signingInfoQueryId := none
    valconsToValoper := StorageMap.empty }

/-- `register_stats_queries`. -/
def registerStatsQueries (validators : List String) : Result (Storage × List SubMsg) := do
  ofLibrary (lib.newRegisterStakingValidatorsQueryMsg validators)
  return (s, [⟨VALIDATOR_PROFILE_REPLY_ID, .registerStakingValidatorsQuery s.config.connectionId
    validators s.config.profileUpdatePeriod⟩])

/-- `execute`. Anybody may register the queries. -/
def execute : ExecuteMsg → Result (Storage × List SubMsg)
  | .registerStatsQueries validators => registerStatsQueries lib s validators

/-- `validator_info_reply`. -/
def validatorInfoReply (result : SubMsgResult) : Exec StdError Storage := do
  let queryId ← getQueryId result
  return { s with validatorProfileQueryId := some queryId }

/-- `signing_info_reply`. -/
def signingInfoReply (result : SubMsgResult) : Exec StdError Storage := do
  let queryId ← getQueryId result
  return { s with signingInfoQueryId := some queryId }

/-- `reply`. -/
def reply (id : ℕ) (result : SubMsgResult) : Exec StdError Storage :=
  if id = VALIDATOR_PROFILE_REPLY_ID then validatorInfoReply s result
  else if id = SIGNING_INFO_REPLY_ID then signingInfoReply s result
  else fail (.genericErr ("unsupported reply message id " ++ toString id))

end Messages

/-! ## The profiles -/

section Profiles

variable (lib : Library κ) (s : Storage) (env : Env)

/-- `get_validator_state`: the stored state, or a new one. -/
def getValidatorState (stateMap : StorageMap String ValidatorState) (valoperAddress : String) :
    ValidatorState :=
  (stateMap.load valoperAddress).getD {
    valoperAddress
    valconsAddress := ""
    lastProcessedLocalHeight := none
    lastProcessedRemoteHeight := none
    lastValidatedHeight := none
    lastCommissionInRange := none
    uptime := Decimal.zero
    tombstone := false
    prevJailedState := false
    jailedNumber := some 0 }

/-- `pubkey_to_address`: the first two bytes of a key are not hashed. -/
def pubkeyToAddress (pubkey : List UInt8) (hrp : String) : Exec StdError String := do
  ensure (34 ≤ pubkey.length) (.genericErr "Invalid public key length")
  match lib.encodeHash hrp (pubkey.drop 2) with
  | .error e => fail (.genericErr e)
  | .ok address => return address

/-- The addresses of the validators with a key, which are saved with their operators. -/
def saveValconsAddresses (stored : StorageMap String String) :
    List Validator → Result (StorageMap String String × List String)
  | [] => .ok (stored, [])
  | validator :: validators =>
    match validator.consensusPubkey with
    | none => saveValconsAddresses stored validators
    | some pubkey => do
      let valconsAddress ← (pubkeyToAddress lib pubkey "cosmosvalcons").mapError .std
      let (stored, valconsAddresses) ← saveValconsAddresses
        (stored.save valconsAddress validator.operatorAddress) validators
      return (stored, valconsAddress :: valconsAddresses)

/-- `register_signing_infos_query`. -/
def registerSigningInfosQuery (validators : List Validator) : Result (Storage × List SubMsg) := do
  let (valconsToValoper, valconsAddresses) ← saveValconsAddresses lib s.valconsToValoper validators
  ofLibrary (lib.newRegisterValidatorsSigningInfosQueryMsg valconsAddresses)
  return ({ s with valconsToValoper }, [⟨SIGNING_INFO_REPLY_ID,
    .registerValidatorsSigningInfosQuery s.config.connectionId valconsAddresses
      s.config.infoUpdatePeriod⟩])

/-- `commission_in_range`. -/
def commissionInRange (rate min max : Decimal) : Bool :=
  min.atomics ≤ rate.atomics ∧ rate.atomics ≤ max.atomics

/-- `Decimal::percent`. -/
def percent (x : ℕ) : Decimal := ⟨x * (Decimal.fractional / 100)⟩

/-- The flag and the number of jailings after a profile. -/
def updateJailed (state : ValidatorState) (jailed : Bool) : Result ValidatorState :=
  if ¬ state.prevJailedState ∧ jailed then do
    let jailedNumber ← checkedAdd U64.bound (state.jailedNumber.getD 0) 1
    return { state with prevJailedState := true, jailedNumber := some jailedNumber }
  else if state.prevJailedState ∧ ¬ jailed then
    return { state with prevJailedState := false }
  else
    return state

/-- The state of a validator after a profile of it. -/
def updateProfile (remoteHeight : ℕ) (validator : Validator) (state : ValidatorState) :
    Result ValidatorState :=
  let inRange := validator.rate.any fun rate => commissionInRange rate (percent 1) (percent 10)
  updateJailed { state with
    lastProcessedLocalHeight := some env.height
    lastProcessedRemoteHeight := some remoteHeight
    lastValidatedHeight :=
      if validator.status = 3 then some env.height else state.lastValidatedHeight
    lastCommissionInRange :=
      if inRange then some env.height else state.lastCommissionInRange } validator.jailed

/-- The round of `sudo_validator_info` for one validator. -/
def validatorInfoRound (remoteHeight : ℕ) (stateMap : StorageMap String ValidatorState)
    (validator : Validator) : Result (StorageMap String ValidatorState) := do
  let state ← updateProfile env remoteHeight validator
    (getValidatorState stateMap validator.operatorAddress)
  return stateMap.save validator.operatorAddress state

/-- `sudo_validator_info`. -/
def sudoValidatorInfo (result : QueryResult κ) : Result (Storage × List SubMsg) := do
  let validators ← ofLibrary (lib.reconstructValidators result.kvResults)
  if s.signingInfoQueryId = none then registerSigningInfosQuery lib s validators
  else do
    let stateMap ← validators.foldlM (validatorInfoRound env result.height) s.stateMap
    return ({ s with stateMap }, [])

end Profiles

/-! ## The signing infos -/

section SigningInfos

variable (lib : Library κ) (s : Storage) (env : Env)

/-- The history without its first record, if that is of 30 days ago or older. -/
def removeExpired (allMissedBlocks : List MissedBlocks) (now : ℕ) : Result (List MissedBlocks) :=
  match allMissedBlocks with
  | [] => .ok []
  | first :: rest => do
    let limit ← checkedSub now historyPeriod
    return if first.timestamp ≤ limit then rest else first :: rest

/-- `calucalate_missed_blocks_percent`: the new record with the counter of the validator, and the
percentage. -/
def calucalateMissedBlocksPercent (allMissedBlocks : List MissedBlocks)
    (missedBlocks : MissedBlocks) (address : String) (missedBlocksCounter : ℕ) :
    Result (MissedBlocks × Decimal) := do
  let missedBlocks := { missedBlocks with
    validators := missedBlocks.validators ++ [⟨address, missedBlocksCounter⟩] }
  let totalBlocksDiff ← checkedSub missedBlocks.remoteHeight
    (allMissedBlocks.head?.elim missedBlocks.remoteHeight MissedBlocks.remoteHeight)
  let counters := (allMissedBlocks.flatMap MissedBlocks.validators).filter (·.address = address)
  let sum ← checkedSum U64.bound (counters.map ValidatorMissedBlocksForPeriod.missedBlocks)
  let sumMissedBlocks ← checkedAdd U64.bound sum missedBlocksCounter
  if totalBlocksDiff = 0 then return (missedBlocks, Decimal.zero)
  else do
    let percent ← Decimal.fromRatio sumMissedBlocks totalBlocksDiff
    return (missedBlocks, percent)

/-- The round of `sudo_signing_info` for one info. -/
def signingInfoRound (remoteHeight : ℕ) (s : Storage) (info : ValidatorSigningInfo) :
    Result Storage :=
  match s.valconsToValoper.load info.address with
  | none => return s
  | some address => do
    let allMissedBlocks ← removeExpired s.missedBlocks env.time.seconds
    let state := getValidatorState s.stateMap address
    let (missedBlocks, missedBlocksPercent) ← calucalateMissedBlocksPercent allMissedBlocks
      ⟨remoteHeight, env.time.seconds, []⟩ address (asU64 info.missedBlocksCounter)
    let uptime ← Decimal.sub Decimal.one missedBlocksPercent
    let state := { state with
      valconsAddress := info.address
      tombstone := if info.tombstoned then true else state.tombstone
      uptime }
    return { s with
      stateMap := s.stateMap.save address state
      missedBlocks := allMissedBlocks ++ [missedBlocks] }

/-- `sudo_signing_info`. -/
def sudoSigningInfo (result : QueryResult κ) : Result (Storage × List SubMsg) := do
  let infos ← ofLibrary (lib.reconstructSigningInfos result.kvResults)
  let s ← infos.foldlM (signingInfoRound env result.height) s
  return (s, [])

/-- `sudo_kv_query_result`. The result of a query is read before it is known whose query it is. -/
def sudoKvQueryResult (rawResult : ℕ → Except String (QueryResult κ)) (queryId : ℕ) :
    Result (Storage × List SubMsg) := do
  let result ← ofLibrary (rawResult queryId)
  if some queryId = s.validatorProfileQueryId then sudoValidatorInfo lib s env result
  else if some queryId = s.signingInfoQueryId then sudoSigningInfo lib s env result
  else return (s, [])

/-- `sudo`. -/
def sudoCall (rawResult : ℕ → Except String (QueryResult κ)) :
    SudoMsg → Result (Storage × List SubMsg)
  | .kvQueryResult queryId => sudoKvQueryResult lib s env rawResult queryId
  | .other => return (s, [])

end SigningInfos

/-! ## Steps -/

/-- A call of the contract; one by the chain comes with the result of the query. -/
inductive Action (κ : Type) where
  | execute (msg : ExecuteMsg)
  | reply (id : ℕ) (result : SubMsgResult)
  | sudoCall (env : Env) (rawResult : Except String (QueryResult κ)) (msg : SudoMsg)

section Steps

variable (lib : Library κ) (s : Storage)

/-- The storage after a call, if the call returns. -/
def act : Action κ → Option Storage
  | .execute msg => (execute lib s msg).toOption.map Prod.fst
  | .reply id result => (reply s id result).toOption
  | .sudoCall env rawResult msg =>
    (sudoCall lib s env (fun _ => rawResult) msg).toOption.map Prod.fst

/-- A step of the contract. -/
def Step (s : Storage) (a : Action κ) (s' : Storage) : Prop := act lib s a = some s'

/-- The storage of a new contract. -/
def Initial : Prop := ∃ msg, instantiate lib msg = .ok s

/-- The profiles that a call processes: those of a result of the first query, once the second one is
registered. -/
def profiles : Action κ → List Validator
  | .sudoCall _ (.ok result) (.kvQueryResult queryId) =>
    if some queryId = s.validatorProfileQueryId ∧ s.signingInfoQueryId ≠ none then
      (lib.reconstructValidators result.kvResults).toOption.getD []
    else []
  | _ => []

/-- The result of the second query that a call processes, with the block of the call. -/
def signingResult : Action κ → Option (Env × QueryResult κ)
  | .sudoCall env (.ok result) (.kvQueryResult queryId) =>
    if some queryId ≠ s.validatorProfileQueryId ∧ some queryId = s.signingInfoQueryId then
      some (env, result)
    else none
  | _ => none

/-- What a step is: a call that processes neither kind of result, or one that processes profiles, or
one that processes signing infos. -/
inductive StepCase (a : Action κ) (s' : Storage) : Prop
  | other (hprofiles : profiles lib s a = []) (hsigning : signingResult s a = none)
      (hhistory : s'.missedBlocks = s.missedBlocks) (hstates : s'.stateMap = s.stateMap)
  | profiles (env : Env) (height : ℕ) (hsigning : signingResult s a = none)
      (hhistory : s'.missedBlocks = s.missedBlocks)
      (hrounds : (profiles lib s a).foldlM (validatorInfoRound env height) s.stateMap =
        .ok s'.stateMap)
  | signingInfos (env : Env) (result : QueryResult κ) (infos : List ValidatorSigningInfo)
      (hprofiles : profiles lib s a = []) (hsigning : signingResult s a = some (env, result))
      (hinfos : lib.reconstructSigningInfos result.kvResults = .ok infos)
      (hrounds : infos.foldlM (signingInfoRound env result.height) s = .ok s')

end Steps

section Cases

variable {lib : Library κ} {s s' : Storage} {env : Env}

/-- A value of the library is returned exactly when there is one. -/
@[simp] theorem ofLibrary_eq_ok {α : Type} {value : Except String α} {a : α} :
    ofLibrary value = .ok a ↔ value = .ok a := by
  cases value <;> simp [ofLibrary]

/-- A reply sets the id of a query. -/
theorem reply_cases {id : ℕ} {result : SubMsgResult} (h : reply s id result = .ok s') :
    ∃ queryId, s' = { s with validatorProfileQueryId := some queryId } ∨
      s' = { s with signingInfoQueryId := some queryId } := by
  unfold reply at h
  split_ifs at h
  · simp only [validatorInfoReply, bind_eq_ok, pure_eq_ok, Except.ok.injEq] at h
    obtain ⟨queryId, -, rfl⟩ := h
    exact ⟨queryId, .inl rfl⟩
  · simp only [signingInfoReply, bind_eq_ok, pure_eq_ok, Except.ok.injEq] at h
    obtain ⟨queryId, -, rfl⟩ := h
    exact ⟨queryId, .inr rfl⟩
  · cases h

/-- The first result of the profiles registers the second query and changes no state. -/
theorem registerSigningInfosQuery_frame {validators : List Validator}
    {out : Storage × List SubMsg} (h : registerSigningInfosQuery lib s validators = .ok out) :
    out.1.missedBlocks = s.missedBlocks ∧ out.1.stateMap = s.stateMap := by
  simp only [registerSigningInfosQuery, bind_eq_ok, pure_eq_ok, Except.ok.injEq] at h
  obtain ⟨_, -, -, -, rfl⟩ := h
  exact ⟨rfl, rfl⟩

/-- What a result of the profiles leads to. -/
theorem sudoValidatorInfo_cases {result : QueryResult κ} {out : Storage × List SubMsg}
    (h : sudoValidatorInfo lib s env result = .ok out) :
    ∃ validators, lib.reconstructValidators result.kvResults = .ok validators ∧
      out.1.missedBlocks = s.missedBlocks ∧
      if s.signingInfoQueryId = none then out.1.stateMap = s.stateMap
      else validators.foldlM (validatorInfoRound env result.height) s.stateMap =
        .ok out.1.stateMap := by
  simp only [sudoValidatorInfo, bind_eq_ok, ofLibrary_eq_ok] at h
  obtain ⟨validators, hvalidators, h⟩ := h
  refine ⟨validators, hvalidators, ?_⟩
  split_ifs at h ⊢
  · exact registerSigningInfosQuery_frame h
  · simp only [bind_eq_ok, pure_eq_ok, Except.ok.injEq] at h
    obtain ⟨stateMap, hrounds, rfl⟩ := h
    exact ⟨rfl, hrounds⟩

/-- What a result of the signing infos leads to. -/
theorem sudoSigningInfo_eq_ok {result : QueryResult κ} {out : Storage × List SubMsg} :
    sudoSigningInfo lib s env result = .ok out ↔
      ∃ infos, lib.reconstructSigningInfos result.kvResults = .ok infos ∧
        infos.foldlM (signingInfoRound env result.height) s = .ok out.1 ∧ out.2 = [] := by
  obtain ⟨s', msgs⟩ := out
  simp only [sudoSigningInfo, bind_eq_ok, ofLibrary_eq_ok, pure_eq_ok, Except.ok.injEq,
    Prod.mk.injEq]
  constructor
  · rintro ⟨infos, hinfos, _, hrounds, rfl, rfl⟩
    exact ⟨infos, hinfos, hrounds, rfl⟩
  · rintro ⟨infos, hinfos, hrounds, rfl⟩
    exact ⟨infos, hinfos, s', hrounds, rfl, rfl⟩

/-- What the result of a query leads to, by the query it is of. -/
theorem sudoKvQueryResult_cases {rawResult : Except String (QueryResult κ)} {queryId : ℕ}
    {out : Storage × List SubMsg}
    (h : sudoKvQueryResult lib s env (fun _ => rawResult) queryId = .ok out) :
    StepCase lib s (.sudoCall env rawResult (.kvQueryResult queryId)) out.1 := by
  simp only [sudoKvQueryResult, bind_eq_ok, ofLibrary_eq_ok] at h
  obtain ⟨result, rfl, h⟩ := h
  by_cases hprofile : some queryId = s.validatorProfileQueryId
  · rw [if_pos hprofile] at h
    obtain ⟨validators, hvalidators, hhistory, hstates⟩ := sudoValidatorInfo_cases h
    have hnot : signingResult s (.sudoCall env (.ok result) (.kvQueryResult queryId)) = none :=
      if_neg fun hboth => hboth.1 hprofile
    by_cases hregistered : s.signingInfoQueryId = none
    · rw [if_pos hregistered] at hstates
      exact .other (if_neg fun hboth => hboth.2 hregistered) hnot hhistory hstates
    · rw [if_neg hregistered] at hstates
      have hprofiles : profiles lib s
          (.sudoCall env (.ok result) (.kvQueryResult queryId)) = validators := by
        simp [profiles, hprofile, hregistered, hvalidators, Except.toOption]
      exact .profiles env result.height hnot hhistory (by rw [hprofiles]; exact hstates)
  · rw [if_neg hprofile] at h
    have hnone : profiles lib s (.sudoCall env (.ok result) (.kvQueryResult queryId)) = [] :=
      if_neg fun hboth => hprofile hboth.1
    by_cases hsigning : some queryId = s.signingInfoQueryId
    · rw [if_pos hsigning] at h
      obtain ⟨infos, hinfos, hrounds, -⟩ := sudoSigningInfo_eq_ok.1 h
      exact .signingInfos env result infos hnone (if_pos ⟨hprofile, hsigning⟩) hinfos hrounds
    · rw [if_neg hsigning, pure_eq_ok, Except.ok.injEq] at h
      subst h
      exact .other hnone (if_neg fun hboth => hsigning hboth.2) rfl rfl

/-- **What each step changes.** -/
theorem step_cases {a : Action κ} (h : Step lib s a s') : StepCase lib s a s' := by
  cases a with
  | execute msg =>
    obtain ⟨validators⟩ := msg
    simp only [Step, act, execute, registerStatsQueries, Option.map_eq_some_iff, toOption_eq_some,
      bind_eq_ok, pure_eq_ok, Except.ok.injEq] at h
    obtain ⟨_, ⟨-, -, rfl⟩, rfl⟩ := h
    exact .other rfl rfl rfl rfl
  | reply id result =>
    simp only [Step, act, toOption_eq_some] at h
    obtain ⟨queryId, rfl | rfl⟩ := reply_cases h
    · exact .other rfl rfl rfl rfl
    · exact .other rfl rfl rfl rfl
  | sudoCall env rawResult msg =>
    simp only [Step, act, Option.map_eq_some_iff, toOption_eq_some] at h
    obtain ⟨out, h, rfl⟩ := h
    cases msg with
    | other =>
      simp only [sudoCall, pure_eq_ok, Except.ok.injEq] at h
      subst h
      exact .other (by cases rawResult <;> rfl) (by cases rawResult <;> rfl) rfl rfl
    | kvQueryResult queryId => exact sudoKvQueryResult_cases h

end Cases

/-! ## The states of the validators -/

section States

variable {lib : Library κ} {s s' : Storage} {env : Env}

/-- **The flag follows the profile**, and the number counts the changes to true. -/
theorem updateJailed_eq {state state' : ValidatorState} {jailed : Bool}
    (h : updateJailed state jailed = .ok state') :
    state' = { state with
      prevJailedState := jailed
      jailedNumber := if state.prevJailedState = false ∧ jailed = true then
        some (state.jailedNumber.getD 0 + 1) else state.jailedNumber } := by
  obtain ⟨_, _, _, _, _, _, _, _, prevJailedState, _⟩ := state
  cases prevJailedState with
  | false =>
    cases jailed with
    | false => simpa [updateJailed, eq_comm] using h
    | true =>
      simp only [updateJailed, Bool.false_eq_true, not_false_eq_true, and_self, if_true,
        bind_eq_ok, checkedAdd_eq_ok, pure_eq_ok, Except.ok.injEq] at h
      obtain ⟨_, ⟨rfl, -⟩, rfl⟩ := h
      simp
  | true =>
    cases jailed with
    | false => simpa [updateJailed, eq_comm] using h
    | true => simpa [updateJailed, eq_comm] using h

/-- What a profile changes of a state that is told by the jailings, and what it does not touch. -/
theorem updateProfile_cases {height : ℕ} {validator : Validator} {state state' : ValidatorState}
    (h : updateProfile env height validator state = .ok state') :
    state'.valoperAddress = state.valoperAddress ∧ state'.uptime = state.uptime ∧
      state'.prevJailedState = validator.jailed ∧
      state'.jailedNumber = if state.prevJailedState = false ∧ validator.jailed = true then
        some (state.jailedNumber.getD 0 + 1) else state.jailedNumber := by
  rw [updateJailed_eq h]
  exact ⟨rfl, rfl, rfl, rfl⟩

/-- A signing info of an unknown validator is skipped. -/
theorem signingInfoRound_of_none {height : ℕ} {info : ValidatorSigningInfo}
    (hload : s.valconsToValoper.load info.address = none) :
    signingInfoRound env height s info = .ok s := by
  simp [signingInfoRound, hload]

/-- **The outcome of one signing info** of a known validator. -/
theorem signingInfoRound_of_load {height : ℕ} {info : ValidatorSigningInfo} {address : String}
    (hload : s.valconsToValoper.load info.address = some address) :
    signingInfoRound env height s info = .ok s' ↔
      ∃ history missedBlocks missedBlocksPercent uptime,
        removeExpired s.missedBlocks env.time.seconds = .ok history ∧
        calucalateMissedBlocksPercent history ⟨height, env.time.seconds, []⟩ address
          (asU64 info.missedBlocksCounter) = .ok (missedBlocks, missedBlocksPercent) ∧
        missedBlocksPercent.atomics + uptime.atomics = Decimal.fractional ∧
        s' = { s with
          stateMap := s.stateMap.save address { getValidatorState s.stateMap address with
            valconsAddress := info.address
            tombstone := if info.tombstoned then true
              else (getValidatorState s.stateMap address).tombstone
            uptime := uptime }
          missedBlocks := history ++ [missedBlocks] } := by
  simp only [signingInfoRound, hload, bind_eq_ok, Decimal.sub_eq_ok, Decimal.one_atomics,
    pure_eq_ok, Except.ok.injEq]
  constructor
  · rintro ⟨history, hhistory, ⟨missedBlocks, percent⟩, hpercent, uptime, huptime, rfl⟩
    exact ⟨history, missedBlocks, percent, uptime, hhistory, hpercent, huptime, rfl⟩
  · rintro ⟨history, missedBlocks, percent, uptime, hhistory, hpercent, huptime, rfl⟩
    exact ⟨history, hhistory, (missedBlocks, percent), hpercent, uptime, huptime, rfl⟩

/-- A property of a state and its address that a new state has and that every update keeps. -/
structure Kept (P : String → ValidatorState → Prop) : Prop where
  new : ∀ address, P address (getValidatorState StorageMap.empty address)
  profile : ∀ env height validator state state',
    updateProfile env height validator state = .ok state' →
      P validator.operatorAddress state → P validator.operatorAddress state'
  signing : ∀ address state valconsAddress tombstone uptime,
    uptime.atomics ≤ Decimal.fractional → P address state →
      P address { state with valconsAddress, tombstone, uptime }

variable {P : String → ValidatorState → Prop}

/-- The property of all the stored states. -/
def AllStates (P : String → ValidatorState → Prop) (stateMap : StorageMap String ValidatorState) :
    Prop :=
  ∀ address state, stateMap.load address = some state → P address state

/-- The state that a handler reads has the property. -/
theorem AllStates.get (hkept : Kept P) {stateMap : StorageMap String ValidatorState}
    (h : AllStates P stateMap) (address : String) :
    P address (getValidatorState stateMap address) := by
  unfold getValidatorState
  cases hload : stateMap.load address with
  | none => exact hkept.new address
  | some state => exact h address state hload

/-- One more state with the property is saved. -/
theorem AllStates.save {stateMap : StorageMap String ValidatorState} (h : AllStates P stateMap)
    {address : String} {state : ValidatorState} (hstate : P address state) :
    AllStates P (stateMap.save address state) := by
  intro address' state' hload
  rw [StorageMap.load_save] at hload
  split_ifs at hload with haddress
  · rw [← Option.some.inj hload, haddress]
    exact hstate
  · exact h address' state' hload

/-- A step keeps the property of all the states. -/
theorem step_states (hkept : Kept P) {a : Action κ} (h : Step lib s a s')
    (hs : AllStates P s.stateMap) : AllStates P s'.stateMap := by
  cases step_cases h with
  | other _ _ _ hstates =>
    rw [hstates]
    exact hs
  | profiles env height _ _ hrounds =>
    refine loop_preserves (P := AllStates P) ?_ hrounds hs
    intro stateMap validator stateMap' hround hall
    simp only [validatorInfoRound, bind_eq_ok, pure_eq_ok, Except.ok.injEq] at hround
    obtain ⟨state, hstate, rfl⟩ := hround
    exact hall.save (hkept.profile _ _ _ _ _ hstate (hall.get hkept _))
  | signingInfos env result infos _ _ _ hrounds =>
    refine loop_preserves (P := fun s => AllStates P s.stateMap) ?_ hrounds hs
    intro s info s' hround hall
    cases hload : s.valconsToValoper.load info.address with
    | none =>
      rw [signingInfoRound_of_none hload] at hround
      rw [← Except.ok.inj hround]
      exact hall
    | some address =>
      obtain ⟨_, _, percent, uptime, -, -, huptime, rfl⟩ :=
        (signingInfoRound_of_load hload).1 hround
      exact hall.save (hkept.signing _ _ _ _ uptime (by omega) (hall.get hkept address))

/-- A new contract has no history and no states. -/
theorem Initial.empty (h : Initial lib s) :
    s.missedBlocks = [] ∧ s.stateMap = StorageMap.empty := by
  obtain ⟨msg, hmsg⟩ := h
  simp only [instantiate, bind_eq_ok, pure_eq_ok, Except.ok.injEq] at hmsg
  obtain ⟨-, -, rfl⟩ := hmsg
  exact ⟨rfl, rfl⟩

/-- **The rule for the stored states**: what a new state has and every update keeps, every state of
every run of a new contract has. -/
theorem states_of_run (hkept : Kept P) (hinit : Initial lib s) (hrun : Run (Step lib) s s') :
    AllStates P s'.stateMap := by
  refine hrun.preserves (P := fun s => AllStates P s.stateMap)
    (fun s a t _ hstep => step_states hkept hstep) ?_
  rw [hinit.empty.2]
  intro address state hload
  cases hload

/-- The states are of the addresses they are stored under, in every run: `query_state` returns each
of them with its address. -/
theorem keyed_of_run (hinit : Initial lib s) (hrun : Run (Step lib) s s') :
    AllStates (fun address state => state.valoperAddress = address) s'.stateMap := by
  refine states_of_run ⟨fun _ => rfl, ?_, ?_⟩ hinit hrun
  · intro env height validator state state' h hstate
    rw [(updateProfile_cases h).1]
    exact hstate
  · intro address state _ _ _ _ hstate
    exact hstate

end States

/-! ## A sample -/

section Sample

/-- A library for results that are given as what is reconstructed from them. The one key that it
hashes is zero. -/
def sampleLibrary : Library (List Validator ⊕ List ValidatorSigningInfo) where
  addrValidate := fun _ => true
  newRegisterStakingValidatorsQueryMsg := fun _ => .ok ()
  newRegisterValidatorsSigningInfosQueryMsg := fun _ => .ok ()
  reconstructValidators := Sum.elim .ok fun _ => .error "not a validator"
  reconstructSigningInfos := Sum.elim (fun _ => .error "not a signing info") .ok
  encodeHash hrp key :=
    if hrp = "cosmosvalcons" ∧ key = List.replicate 32 0 then
      .ok "cosmosvalcons1ve584t0cv27hwmy0cx9ca8uwyqyfw9y90lquj6"
    else .error "failed to encode to bech32"

/-- The operator of the sample. -/
def sampleOperator : String := "cosmosvaloper1qqqqqqqqqqqqqqqqqqqqqqqqqqqqqqqqkh52tw"

/-- The contract of the sample. -/
def sampleStart : Storage where
  config := ⟨"connection-0", "transfer", 10, 20, 5, "owner"⟩
  missedBlocks := []
  stateMap := StorageMap.empty
  validatorProfileQueryId := none
  signingInfoQueryId := none
  valconsToValoper := StorageMap.empty

/-- The contract of the sample is new. -/
theorem sampleStart_initial : Initial sampleLibrary sampleStart :=
  ⟨⟨"connection-0", "transfer", 10, 20, 5, "owner"⟩, rfl⟩

/-- A block of the sample, at a time in seconds. -/
def sampleEnv (seconds : ℕ) : Env := ⟨1, ⟨seconds * nanosPerSecond⟩, "stats"⟩

/-- A profile of the one validator of the sample. -/
def sampleProfile (jailed : Bool) : Action (List Validator ⊕ List ValidatorSigningInfo) :=
  .sudoCall (sampleEnv 1700000000) (.ok ⟨90, .inl [⟨sampleOperator,
    some (10 :: 32 :: List.replicate 32 0), 3, jailed, some ⟨50000000000000000⟩⟩]⟩)
    (.kvQueryResult 1)

/-- The signing info of the one validator of the sample. -/
def sampleInfos (height : ℕ) (missedBlocksCounter : ℤ) :
    QueryResult (List Validator ⊕ List ValidatorSigningInfo) :=
  ⟨height, .inr [⟨"cosmosvalcons1ve584t0cv27hwmy0cx9ca8uwyqyfw9y90lquj6", false,
    missedBlocksCounter⟩]⟩

/-- A result of the signing infos of the sample. -/
def sampleSigning (seconds height : ℕ) (missedBlocksCounter : ℤ) :
    Action (List Validator ⊕ List ValidatorSigningInfo) :=
  .sudoCall (sampleEnv seconds) (.ok (sampleInfos height missedBlocksCounter)) (.kvQueryResult 2)

/-- The calls that register the two queries of the sample. -/
def sampleSetup : List (Action (List Validator ⊕ List ValidatorSigningInfo)) := [
  .execute (.registerStatsQueries [sampleOperator]),
  .reply VALIDATOR_PROFILE_REPLY_ID (.ok (some (.ok 1))),
  sampleProfile false,
  .reply SIGNING_INFO_REPLY_ID (.ok (some (.ok 2)))]

end Sample

end ValidatorsStats

end DropContracts
