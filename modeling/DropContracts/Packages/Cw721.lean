import DropContracts.Base.Custody
import DropContracts.Base.StorageMap
import DropContracts.Packages.Cosmos
import Mathlib.Data.Option.Basic

set_option relaxedAutoImplicit false
set_option autoImplicit false

/-!
# Non-fungible tokens

The token contract `cw721_base` is a dependency of the repository and not a part of it. `Cw721` is
what the callers rely on: a contract whose successful messages have the documented effects on
owners, approvals and operators. `Cw721Base` is a contract of this kind that can be run.

## Main definitions

* `Cw721Msg` — the messages of a token contract.
* `Cw721Effect` — the documented effect of a message.
* `Cw721`, `OwnedCw721` — a token contract, and one that says who may mint.
* `Cw721Base.execute`, `cw721Base` — a token contract that can be run.

## Main results

* `Cw721Effect.change` — a message is a change of custody that the caller has a right to.
* `Cw721Base.execute_effect` — the contract that can be run has the documented effects.
-/

namespace DropContracts

/-! ## Messages -/

/-- When an approval ends. -/
inductive Expiration where
  | atHeight (height : ℕ)
  | atTime (time : Timestamp)
  | never
  deriving DecidableEq, Repr

/-- `Expiration::is_expired`. -/
def Expiration.isExpired (env : Env) : Expiration → Bool
  | .atHeight height => height ≤ env.height
  | .atTime time => time.nanos ≤ env.time.nanos
  | .never => false

/-- The actions on the minter of a token contract. -/
inductive OwnershipAction where
  | transferOwnership (newOwner : String) (expiry : Option Expiration)
  | acceptOwnership
  | renounceOwnership
  deriving DecidableEq, Repr

/-- The messages of a token contract. A token is sent with a payload of type `μ`. The uri and the
extension that a token is minted with are left out. -/
inductive Cw721Msg (μ : Type) where
  | transferNft (recipient tokenId : String)
  | sendNft (contract tokenId : String) (msg : μ)
  | approve (spender tokenId : String) (expires : Option Expiration)
  | revoke (spender tokenId : String)
  | approveAll (operator : String) (expires : Option Expiration)
  | revokeAll (operator : String)
  | mint (tokenId owner : String)
  | burn (tokenId : String)
  | updateOwnership (action : OwnershipAction)
  | extension

variable {μ : Type}

/-- The documented effect of a successful message: a token is moved or burnt by those who may move
it, a minted token is new, rights are granted by those who have them. -/
def Cw721Effect (c : Custody String String) (sender : String) (c' : Custody String String) :
    Cw721Msg μ → Prop
  | .transferNft recipient tokenId =>
    c.MayMove sender tokenId ∧ c' = c.place tokenId (some recipient)
  | .sendNft contract tokenId _ =>
    c.MayMove sender tokenId ∧ c' = c.place tokenId (some contract)
  | .approve _ _ _ | .revoke _ _ | .approveAll _ _ | .revokeAll _ => c.Grants sender c'
  | .mint tokenId owner => c.owner tokenId = none ∧ c' = c.place tokenId (some owner)
  | .burn tokenId => c.MayMove sender tokenId ∧ c' = c.place tokenId none
  | .updateOwnership _ | .extension => c' = c

/-- **A message is a change of custody** that the caller has a right to. -/
theorem Cw721Effect.change {c c' : Custody String String} {sender : String} {msg : Cw721Msg μ}
    (h : Cw721Effect c sender c' msg) : c.Change sender c' := by
  have hsame : c.Grants sender c := ⟨rfl, fun _ _ h => .inl h, fun _ _ h => .inl h⟩
  cases msg with
  | transferNft recipient tokenId =>
    obtain ⟨hmove, rfl⟩ := h
    exact .move tokenId (some recipient) hmove
  | sendNft contract tokenId msg =>
    obtain ⟨hmove, rfl⟩ := h
    exact .move tokenId (some contract) hmove
  | approve spender tokenId expires => exact .grant c' h
  | revoke spender tokenId => exact .grant c' h
  | approveAll operator expires => exact .grant c' h
  | revokeAll operator => exact .grant c' h
  | mint tokenId owner =>
    obtain ⟨hnone, rfl⟩ := h
    exact .create tokenId owner hnone
  | burn tokenId =>
    obtain ⟨hmove, rfl⟩ := h
    exact .move tokenId none hmove
  | updateOwnership action =>
    rw [show c' = c from h]
    exact .grant c hsame
  | extension =>
    rw [show c' = c from h]
    exact .grant c hsame

/-! ## Token contracts -/

/-- A token contract with states `σ` and payloads `μ`: it executes messages with the documented
effects. A failing message returns `none`. -/
structure Cw721 (σ μ : Type) where
  custody : σ → Custody String String
  execute : σ → Env → String → Cw721Msg μ → Option σ
  execute_effect : ∀ {s s' : σ} {env : Env} {sender : String} {msg : Cw721Msg μ},
    execute s env sender msg = some s' → Cw721Effect (custody s) sender (custody s') msg

/-- A token contract that says who may mint, and who has been proposed to: the two of them alone
change this, with the message that is there for it. -/
structure OwnedCw721 (σ μ : Type) extends Cw721 σ μ where
  minter : σ → Option String
  proposedMinter : σ → Option String
  execute_minter : ∀ {s s' : σ} {env : Env} {sender : String} {msg : Cw721Msg μ},
    execute s env sender msg = some s' →
      (minter s' = minter s ∧ proposedMinter s' = proposedMinter s) ∨
      (∃ action, msg = .updateOwnership action) ∧
        (minter s = some sender ∨ proposedMinter s = some sender)

/-! ## A contract that can be run -/

/-- An approval of a token. -/
structure Approval where
  spender : String
  expires : Expiration
  deriving DecidableEq, Repr

/-- A token. -/
structure TokenInfo where
  owner : String
  approvals : List Approval
  deriving DecidableEq, Repr

/-- The storage of the contract: the tokens, the operators of each owner, and who may mint. -/
structure Cw721Base where
  tokens : StorageMap String TokenInfo
  operators : List ((String × String) × Expiration)
  cwOwner : Option String
  pendingOwner : Option (String × Option Expiration)

namespace Cw721Base

variable (s : Cw721Base) (env : Env) (sender : String)

/-- The right of an operator, with its end. -/
def operator (owner operator : String) : Option ((String × String) × Expiration) :=
  s.operators.find? fun e => e.1 = (owner, operator)

/-- The right of an operator, if it has not ended. -/
def isOperator (owner : String) : Bool :=
  (s.operator owner sender).any fun e => !e.2.isExpired env

/-- The owner of a token, its approved spenders and its owner's operators can send it. -/
def canSend (token : TokenInfo) : Bool :=
  sender = token.owner ||
    token.approvals.any (fun a => a.spender = sender && !a.expires.isExpired env) ||
    s.isOperator env sender token.owner

/-- The owner of a token and the owner's operators can approve spenders. -/
def canApprove (token : TokenInfo) : Bool :=
  sender = token.owner || s.isOperator env sender token.owner

/-- A token of those who can send it. -/
def loadSendable (tokenId : String) : Option TokenInfo :=
  (s.tokens.load tokenId).filter fun token => s.canSend env sender token

/-- Move a token; its approvals are cleared. -/
def transfer (recipient tokenId : String) : Option Cw721Base := do
  let _ ← s.loadSendable env sender tokenId
  return { s with tokens := s.tokens.save tokenId ⟨recipient, []⟩ }

/-- Replace the approval of a spender, by another one or by none. -/
def updateApprovals (spender tokenId : String) (approvals : List Approval) : Option Cw721Base := do
  let token ← (s.tokens.load tokenId).filter fun token => s.canApprove env sender token
  return { s with tokens := s.tokens.save tokenId { token with
    approvals := token.approvals.filter (fun a => a.spender ≠ spender) ++ approvals } }

/-- The changes of the minter: a transfer is proposed by the minter and accepted by the proposed
one before it expires. -/
def updateOwnership : OwnershipAction → Option Cw721Base
  | .transferOwnership newOwner expiry => do
    guard (s.cwOwner = some sender)
    return { s with pendingOwner := some (newOwner, expiry) }
  | .acceptOwnership => do
    let (newOwner, expiry) ← s.pendingOwner
    guard (sender = newOwner ∧ expiry.any (fun e => e.isExpired env) = false)
    return { s with cwOwner := some newOwner, pendingOwner := none }
  | .renounceOwnership => do
    guard (s.cwOwner = some sender)
    return { s with cwOwner := none, pendingOwner := none }

/-- The message handler. -/
def execute : Cw721Msg μ → Option Cw721Base
  | .transferNft recipient tokenId => s.transfer env sender recipient tokenId
  | .sendNft contract tokenId _ => s.transfer env sender contract tokenId
  | .approve spender tokenId expires => do
    let expires := expires.getD .never
    guard (expires.isExpired env = false)
    s.updateApprovals env sender spender tokenId [⟨spender, expires⟩]
  | .revoke spender tokenId => s.updateApprovals env sender spender tokenId []
  | .approveAll operator expires => do
    let expires := expires.getD .never
    guard (expires.isExpired env = false)
    return { s with operators := ((sender, operator), expires) :: s.operators }
  | .revokeAll operator =>
    some { s with operators := s.operators.filter fun e => e.1 ≠ (sender, operator) }
  | .mint tokenId owner => do
    guard (s.cwOwner = some sender ∧ s.tokens.load tokenId = none)
    return { s with tokens := s.tokens.save tokenId ⟨owner, []⟩ }
  | .burn tokenId => do
    let _ ← s.loadSendable env sender tokenId
    return { s with tokens := s.tokens.remove tokenId }
  | .updateOwnership action => s.updateOwnership env sender action
  | .extension => some s

/-- The custody that the contract keeps, with the rights that have ended. -/
def custody : Custody String String where
  owner tokenId := (s.tokens.load tokenId).map TokenInfo.owner
  approved tokenId spender :=
    ∃ token, s.tokens.load tokenId = some token ∧ ∃ a ∈ token.approvals, a.spender = spender
  operator owner operator := ∃ e ∈ s.operators, e.1 = (owner, operator)

/-! ### The effects -/

variable {s : Cw721Base} {env : Env} {sender : String} {s' : Cw721Base}

/-- The right of an operator is kept in the custody. -/
theorem custody_operator_of_isOperator {owner : String} (h : s.isOperator env sender owner = true) :
    s.custody.operator owner sender := by
  obtain ⟨e, hfind, -⟩ := (Option.any_eq_true _ _).1 h
  unfold Cw721Base.operator at hfind
  have heq := List.find?_some hfind
  exact ⟨e, List.mem_of_find?_eq_some hfind, of_decide_eq_true heq⟩

/-- A token can be sent by those who may move it. -/
theorem mayMove_of_loadSendable {tokenId : String} {token : TokenInfo}
    (h : s.loadSendable env sender tokenId = some token) :
    s.tokens.load tokenId = some token ∧ s.custody.MayMove sender tokenId := by
  obtain ⟨hload, hcan⟩ := Option.filter_eq_some_iff.1 h
  refine ⟨hload, token.owner, by simp [custody, hload], ?_⟩
  simp only [canSend, Bool.or_eq_true, decide_eq_true_eq, List.any_eq_true,
    Bool.and_eq_true] at hcan
  rcases hcan with (howner | ⟨a, ha, hspender, -⟩) | hoperator
  · exact .inl howner
  · exact .inr (.inl ⟨token, hload, a, ha, hspender⟩)
  · exact .inr (.inr (custody_operator_of_isOperator hoperator))

/-- A token that is stored without approvals is in the hands of its owner. -/
theorem custody_save (s : Cw721Base) (tokenId recipient : String) :
    ({ s with tokens := s.tokens.save tokenId ⟨recipient, []⟩ } : Cw721Base).custody =
      s.custody.place tokenId (some recipient) := by
  simp only [custody, Custody.place, Custody.mk.injEq, and_true]
  refine ⟨?_, ?_⟩
  · funext t
    by_cases ht : t = tokenId
    · simp [ht]
    · simp [StorageMap.load_save, ht]
  · funext t spender
    by_cases ht : t = tokenId
    · simp [ht]
    · simp [StorageMap.load_save, ht]

/-- A token that is removed is in nobody's hands. -/
theorem custody_remove (s : Cw721Base) (tokenId : String) :
    ({ s with tokens := s.tokens.remove tokenId } : Cw721Base).custody =
      s.custody.place tokenId none := by
  simp only [custody, Custody.place, Custody.mk.injEq, and_true]
  refine ⟨?_, ?_⟩
  · funext t
    by_cases ht : t = tokenId
    · simp [StorageMap.load_remove, ht]
    · simp [StorageMap.load_remove, ht]
  · funext t spender
    by_cases ht : t = tokenId
    · simp [StorageMap.load_remove, ht]
    · simp [StorageMap.load_remove, ht]

/-- A transfer moves a token for those who may move it. -/
theorem transfer_effect {recipient tokenId : String}
    (h : s.transfer env sender recipient tokenId = some s') :
    s.custody.MayMove sender tokenId ∧ s'.custody = s.custody.place tokenId (some recipient) := by
  simp only [transfer, Option.bind_eq_bind, Option.bind_eq_some_iff, Option.pure_def,
    Option.some.injEq] at h
  obtain ⟨token, htoken, rfl⟩ := h
  exact ⟨(mayMove_of_loadSendable htoken).2, custody_save s tokenId recipient⟩

/-- The approvals of a token are changed by those who may approve. -/
theorem updateApprovals_effect {spender tokenId : String} {approvals : List Approval}
    (h : s.updateApprovals env sender spender tokenId approvals = some s') :
    s.custody.Grants sender s'.custody := by
  simp only [updateApprovals, Option.bind_eq_bind, Option.bind_eq_some_iff, Option.pure_def,
    Option.some.injEq, Option.filter_eq_some_iff] at h
  obtain ⟨token, ⟨hload, hcan⟩, rfl⟩ := h
  have hright : s.custody.MayApprove sender tokenId := by
    refine ⟨token.owner, by simp [custody, hload], ?_⟩
    simp only [canApprove, Bool.or_eq_true, decide_eq_true_eq] at hcan
    exact hcan.imp_right custody_operator_of_isOperator
  refine ⟨?_, fun t a ha => ?_, fun _ _ h => .inl h⟩
  · funext t
    by_cases ht : t = tokenId
    · simp [custody, StorageMap.load_save, ht, hload]
    · simp [custody, StorageMap.load_save, ht]
  · by_cases ht : t = tokenId
    · exact .inr (ht ▸ hright)
    · left
      simpa [custody, StorageMap.load_save, ht] using ha

/-- A change of the minter changes no custody. -/
theorem updateOwnership_effect {action : OwnershipAction}
    (h : s.updateOwnership env sender action = some s') : s'.custody = s.custody := by
  cases action with
  | transferOwnership newOwner expiry =>
    simp only [updateOwnership, Option.bind_eq_bind, Option.bind_eq_some_iff, Option.pure_def,
      Option.some.injEq] at h
    obtain ⟨-, -, rfl⟩ := h
    rfl
  | acceptOwnership =>
    simp only [updateOwnership, Option.bind_eq_bind, Option.bind_eq_some_iff, Option.pure_def,
      Option.some.injEq] at h
    obtain ⟨-, -, -, -, rfl⟩ := h
    rfl
  | renounceOwnership =>
    simp only [updateOwnership, Option.bind_eq_bind, Option.bind_eq_some_iff, Option.pure_def,
      Option.some.injEq] at h
    obtain ⟨-, -, rfl⟩ := h
    rfl

/-- **The contract that can be run has the documented effects.** -/
theorem execute_effect {msg : Cw721Msg μ} (h : s.execute env sender msg = some s') :
    Cw721Effect s.custody sender s'.custody msg := by
  cases msg with
  | transferNft recipient tokenId => exact transfer_effect h
  | sendNft contract tokenId msg => exact transfer_effect h
  | approve spender tokenId expires =>
    simp only [execute, Option.bind_eq_bind, Option.bind_eq_some_iff] at h
    obtain ⟨-, -, h⟩ := h
    exact updateApprovals_effect h
  | revoke spender tokenId => exact updateApprovals_effect h
  | approveAll operator expires =>
    simp only [execute, Option.bind_eq_bind, Option.bind_eq_some_iff, Option.pure_def,
      Option.some.injEq] at h
    obtain ⟨-, -, rfl⟩ := h
    refine ⟨rfl, fun _ _ h => .inl h, ?_⟩
    rintro o a ⟨e, he, heq⟩
    rcases List.mem_cons.1 he with rfl | he
    · exact .inr (Prod.mk.inj heq).1.symm
    · exact .inl ⟨e, he, heq⟩
  | revokeAll operator =>
    rw [← Option.some.inj h]
    refine ⟨rfl, fun _ _ h => .inl h, ?_⟩
    rintro o a ⟨e, he, heq⟩
    exact .inl ⟨e, (List.mem_filter.1 he).1, heq⟩
  | mint tokenId owner =>
    simp only [execute, Option.bind_eq_bind, Option.bind_eq_some_iff, Option.pure_def,
      Option.guard_eq_some', Option.some.injEq] at h
    obtain ⟨-, ⟨-, hnone⟩, rfl⟩ := h
    exact ⟨by simp [custody, hnone], custody_save s tokenId owner⟩
  | burn tokenId =>
    simp only [execute, Option.bind_eq_bind, Option.bind_eq_some_iff, Option.pure_def,
      Option.some.injEq] at h
    obtain ⟨token, htoken, rfl⟩ := h
    exact ⟨(mayMove_of_loadSendable htoken).2, custody_remove s tokenId⟩
  | updateOwnership action => exact updateOwnership_effect h
  | extension => rw [← Option.some.inj h]; rfl

/-- The minter, and who has been proposed, change the minter alone. -/
theorem updateOwnership_minter {action : OwnershipAction}
    (h : s.updateOwnership env sender action = some s') :
    s.cwOwner = some sender ∨ s.pendingOwner.map Prod.fst = some sender := by
  cases action with
  | transferOwnership newOwner expiry =>
    simp only [updateOwnership, Option.bind_eq_bind, Option.bind_eq_some_iff,
      Option.guard_eq_some'] at h
    obtain ⟨-, howner, -⟩ := h
    exact .inl howner
  | acceptOwnership =>
    simp only [updateOwnership, Option.bind_eq_bind, Option.bind_eq_some_iff,
      Option.guard_eq_some'] at h
    obtain ⟨⟨newOwner, expiry⟩, hpending, -, ⟨rfl, -⟩, -⟩ := h
    exact .inr (by rw [hpending, Option.map_some])
  | renounceOwnership =>
    simp only [updateOwnership, Option.bind_eq_bind, Option.bind_eq_some_iff,
      Option.guard_eq_some'] at h
    obtain ⟨-, howner, -⟩ := h
    exact .inl howner

/-- **Every other message leaves the minter alone.** -/
theorem execute_minter {msg : Cw721Msg μ} (h : s.execute env sender msg = some s') :
    (s'.cwOwner = s.cwOwner ∧ s'.pendingOwner.map Prod.fst = s.pendingOwner.map Prod.fst) ∨
      (∃ action, msg = .updateOwnership action) ∧
        (s.cwOwner = some sender ∨ s.pendingOwner.map Prod.fst = some sender) := by
  cases msg with
  | updateOwnership action => exact .inr ⟨⟨action, rfl⟩, updateOwnership_minter h⟩
  | extension | revokeAll operator => exact .inl (by rw [← Option.some.inj h]; exact ⟨rfl, rfl⟩)
  | _ =>
    simp only [execute, transfer, updateApprovals, Option.bind_eq_bind, Option.bind_eq_some_iff,
      Option.pure_def, Option.some.injEq] at h
    obtain ⟨_, -, h⟩ := h
    first
      | exact .inl (by rw [← h]; exact ⟨rfl, rfl⟩)
      | obtain ⟨_, -, rfl⟩ := h
        exact .inl ⟨rfl, rfl⟩

end Cw721Base

/-- The token contract that can be run. -/
def cw721Base (μ : Type) : Cw721 Cw721Base μ where
  custody := Cw721Base.custody
  execute := Cw721Base.execute
  execute_effect := Cw721Base.execute_effect

/-- The same contract, with who may mint. -/
def ownedCw721Base (μ : Type) : OwnedCw721 Cw721Base μ where
  toCw721 := cw721Base μ
  minter s := s.cwOwner
  proposedMinter s := s.pendingOwner.map Prod.fst
  execute_minter := Cw721Base.execute_minter

end DropContracts
