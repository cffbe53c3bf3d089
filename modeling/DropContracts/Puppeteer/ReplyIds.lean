import DropContracts.Base.BitFields

set_option relaxedAutoImplicit false
set_option autoImplicit false

/-!
# The ids of replies

`ReplyMsg` of `packages/puppeteer-base/src/state.rs`. What a reply is for is packed into its id: the
kind of the message above the bits of a `u16`, which hold the index of the validator for the kind
that has one.

## Main definitions

* `Puppeteer.Replies.ReplyMsg` — what a reply is for.
* `Puppeteer.Replies.toReplyId`, `Puppeteer.Replies.fromReplyId` — its id, and the way back.

## Main results

* `Puppeteer.Replies.fromReplyId_eq_some` — the way back is the inverse.
-/

namespace DropContracts

namespace Puppeteer

namespace Replies

open BitFields

/-- `ReplyMsg`. -/
inductive ReplyMsg where
  | sudoPayload
  | ibcTransfer
  | kvDelegationsAndBalance
  | kvNonNativeRewardsBalances
  | kvUnbondingDelegations (validatorIndex : UInt16)
  deriving DecidableEq, Repr

/-- `OFFSET`: the bits of a `u16`. -/
def offset : ℕ := 16

/-- `SUDO_PAYLOAD`. -/
def sudoPayloadId : ℕ := 1 <<< offset

/-- `IBC_TRANSFER`. -/
def ibcTransferId : ℕ := 2 <<< offset

/-- `KV_DELEGATIONS_AND_BALANCE`. -/
def kvDelegationsAndBalanceId : ℕ := 3 <<< offset

/-- `KV_NON_NATIVE_REWARDS_BALANCES`. -/
def kvNonNativeRewardsBalancesId : ℕ := 4 <<< offset

/-- `KV_UNBONDING_DELEGATIONS_LOWER_BOUND`. -/
def kvUnbondingDelegationsLowerBound : ℕ := 5 <<< offset

/-- `KV_UNBONDING_DELEGATIONS_UPPER_BOUND`. -/
def kvUnbondingDelegationsUpperBound : ℕ := kvUnbondingDelegationsLowerBound + 65535

/-- `to_reply_id`. -/
def toReplyId : ReplyMsg → ℕ
  | .sudoPayload => sudoPayloadId
  | .ibcTransfer => ibcTransferId
  | .kvDelegationsAndBalance => kvDelegationsAndBalanceId
  | .kvNonNativeRewardsBalances => kvNonNativeRewardsBalancesId
  | .kvUnbondingDelegations validatorIndex =>
    kvUnbondingDelegationsLowerBound ||| validatorIndex.toNat

/-- `from_reply_id`. The index is what the cast to `u16` leaves of the id; an id that is in no range
is unreachable code. -/
def fromReplyId (replyId : ℕ) : Option ReplyMsg :=
  if replyId = sudoPayloadId then some .sudoPayload
  else if replyId = ibcTransferId then some .ibcTransfer
  else if replyId = kvDelegationsAndBalanceId then some .kvDelegationsAndBalance
  else if replyId = kvNonNativeRewardsBalancesId then some .kvNonNativeRewardsBalances
  else if kvUnbondingDelegationsLowerBound ≤ replyId ∧
      replyId ≤ kvUnbondingDelegationsUpperBound then
    some (.kvUnbondingDelegations (UInt16.ofNat replyId))
  else none

/-- The id of an index lies in the range of its kind, and the lower bits are the index. -/
theorem toReplyId_kvUnbondingDelegations (validatorIndex : UInt16) :
    toReplyId (.kvUnbondingDelegations validatorIndex) = 5 * 2 ^ 16 + validatorIndex.toNat :=
  pack_eq validatorIndex.toNat_lt

/-- Each range of ids ends before the next one. -/
theorem ids_eq : sudoPayloadId = 65536 ∧ ibcTransferId = 131072 ∧
    kvDelegationsAndBalanceId = 196608 ∧ kvNonNativeRewardsBalancesId = 262144 ∧
    kvUnbondingDelegationsLowerBound = 327680 ∧ kvUnbondingDelegationsUpperBound = 393215 := by
  decide

/-- What a reply is for is read back from its id. -/
theorem fromReplyId_toReplyId (msg : ReplyMsg) : fromReplyId (toReplyId msg) = some msg := by
  obtain ⟨hsudo, htransfer, hdelegations, hrewards, hlower, hupper⟩ := ids_eq
  cases msg with
  | sudoPayload => rfl
  | ibcTransfer => rfl
  | kvDelegationsAndBalance => rfl
  | kvNonNativeRewardsBalances => rfl
  | kvUnbondingDelegations validatorIndex =>
    have hlt : validatorIndex.toNat < 65536 := validatorIndex.toNat_lt
    have hindex : UInt16.ofNat (5 * 2 ^ 16 + validatorIndex.toNat) = validatorIndex := by
      apply UInt16.toNat_inj.1
      rw [UInt16.toNat_ofNat', Nat.mul_add_mod_self_right]
      exact Nat.mod_eq_of_lt hlt
    rw [toReplyId_kvUnbondingDelegations, fromReplyId, if_neg (by omega), if_neg (by omega),
      if_neg (by omega), if_neg (by omega), if_pos (by omega), hindex]

/-- **The ids of replies are told apart**: an id is read as the one thing whose id it is. -/
theorem fromReplyId_eq_some {replyId : ℕ} {msg : ReplyMsg} :
    fromReplyId replyId = some msg ↔ toReplyId msg = replyId := by
  constructor
  · intro h
    unfold fromReplyId at h
    split_ifs at h with hsudo htransfer hdelegations hrewards hrange
    · rw [← Option.some.inj h, hsudo]
      rfl
    · rw [← Option.some.inj h, htransfer]
      rfl
    · rw [← Option.some.inj h, hdelegations]
      rfl
    · rw [← Option.some.inj h, hrewards]
      rfl
    · obtain ⟨-, -, -, -, hlower, hupper⟩ := ids_eq
      rw [← Option.some.inj h, toReplyId_kvUnbondingDelegations, UInt16.toNat_ofNat']
      omega
  · rintro rfl
    exact fromReplyId_toReplyId msg

end Replies

end Puppeteer

end DropContracts
