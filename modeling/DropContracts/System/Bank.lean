import DropContracts.Base.StorageMap
import DropContracts.Packages.Cosmos
import Mathlib.Data.String.Basic
import Mathlib.Order.Basic

set_option relaxedAutoImplicit false
set_option autoImplicit false

/-!
# The bank

The balances of all accounts and the total supplies, as the contracts see them through the bank
module of the chain. An operation that an account cannot pay for is refused.

## Main definitions

* `coinsOf` — the amount of one denomination in a list of coins.
* `mergeCoins` — a list of coins as the chain hands it over.
* `Bank` — balances and supplies.
* `Bank.debitCoin`, `Bank.creditCoin`, `Bank.send`, `Bank.mint`, `Bank.burn`.

## Main results

* `mem_mergeCoins`, `coinsOf_mergeCoins` — what the chain hands over.
* `Bank.send_ok`, `Bank.burn_ok` — what each operation leaves alone.
* `Bank.balance_send` — what a transfer moves.
-/

namespace DropContracts

/-- The amount of one denomination in a list of coins. -/
def coinsOf (coins : List Coin) (denom : String) : ℕ :=
  (coins.map fun coin => if coin.denom = denom then coin.amount else 0).sum

/-- The coins of a list with one more coin. -/
@[simp] theorem coinsOf_cons (coin : Coin) (coins : List Coin) (denom : String) :
    coinsOf (coin :: coins) denom =
      (if coin.denom = denom then coin.amount else 0) + coinsOf coins denom := rfl

/-- No coins. -/
@[simp] theorem coinsOf_nil (denom : String) : coinsOf [] denom = 0 := rfl

/-- The order of the coins does not matter. -/
theorem coinsOf_perm {coins coins' : List Coin} (h : coins.Perm coins') (denom : String) :
    coinsOf coins denom = coinsOf coins' denom :=
  (h.map _).sum_nat

/-- A list has no coins of a denomination when all its coins of it are worth nothing. -/
theorem coinsOf_eq_zero {coins : List Coin} {denom : String} :
    coinsOf coins denom = 0 ↔ ∀ coin ∈ coins, coin.denom = denom → coin.amount = 0 := by
  rw [coinsOf, List.sum_eq_zero_iff_forall_eq_nat]
  simp

/-- With one coin a denomination, a coin of the list is all there is of its denomination. The
induction is on the list. -/
theorem coinsOf_of_mem {coins : List Coin} (hnodup : (coins.map Coin.denom).Nodup) {coin : Coin}
    (hmem : coin ∈ coins) : coinsOf coins coin.denom = coin.amount := by
  induction coins with
  | nil => cases hmem
  | cons first rest ih =>
    obtain ⟨hfirst, hrest⟩ := List.nodup_cons.1 hnodup
    rw [coinsOf_cons]
    rcases List.mem_cons.1 hmem with rfl | hmem
    · have hzero : coinsOf rest coin.denom = 0 :=
        coinsOf_eq_zero.2 fun c hc hdenom => absurd (hdenom ▸ List.mem_map_of_mem hc) hfirst
      rw [if_pos rfl, hzero, Nat.add_zero]
    · have hne : first.denom ≠ coin.denom := fun hdenom =>
        hfirst (hdenom ▸ List.mem_map_of_mem hmem)
      rw [if_neg hne, Nat.zero_add, ih hrest hmem]

/-! ## Coins that are handed over -/

/-- The amounts of a list of coins by denomination. -/
def coinAmounts (coins : List Coin) : StorageMap String ℕ :=
  coins.foldr (fun coin amounts =>
    amounts.save coin.denom (coin.amount + (amounts.load coin.denom).getD 0)) StorageMap.empty

/-- The coins that a message carries, as the chain hands them over (`sdk.Coins.Add`): the coins of
one denomination are added up, none is worth nothing, and they are listed by denomination. -/
def mergeCoins (coins : List Coin) : List Coin :=
  ((coinAmounts coins).entries.filter fun e => e.2 ≠ 0).map fun e => ⟨e.1, e.2⟩

/-- What is stored for a denomination is its amount in the list. The induction is on the list. -/
theorem load_coinAmounts (coins : List Coin) (denom : String) :
    ((coinAmounts coins).load denom).getD 0 = coinsOf coins denom := by
  induction coins with
  | nil => rfl
  | cons coin coins ih =>
    have hsave : coinAmounts (coin :: coins) = (coinAmounts coins).save coin.denom
        (coin.amount + ((coinAmounts coins).load coin.denom).getD 0) := rfl
    rw [hsave, StorageMap.load_save, coinsOf_cons]
    by_cases hdenom : denom = coin.denom
    · subst hdenom
      simp [ih]
    · simp [hdenom, Ne.symm hdenom, ih]

/-- **The coins that are handed over** are the amounts that are not zero. -/
theorem mem_mergeCoins {coins : List Coin} {coin : Coin} :
    coin ∈ mergeCoins coins ↔ coin.amount = coinsOf coins coin.denom ∧ coin.amount ≠ 0 := by
  rw [← load_coinAmounts]
  simp only [mergeCoins, List.mem_map, List.mem_filter, decide_eq_true_eq]
  constructor
  · rintro ⟨⟨denom, amount⟩, ⟨hmem, hne⟩, rfl⟩
    rw [StorageMap.mem_entries] at hmem
    simp only at hmem hne ⊢
    exact ⟨by rw [hmem]; rfl, hne⟩
  · rintro ⟨hload, hne⟩
    refine ⟨(coin.denom, coin.amount), ⟨?_, hne⟩, rfl⟩
    rw [StorageMap.mem_entries]
    cases hentry : (coinAmounts coins).load coin.denom with
    | none =>
      rw [hentry] at hload
      exact absurd hload hne
    | some amount =>
      rw [hentry] at hload
      rw [hload]
      rfl

/-- A denomination that is handed over is one of the list. -/
theorem denom_of_mem_mergeCoins {coins : List Coin} {coin : Coin} (h : coin ∈ mergeCoins coins) :
    ∃ c ∈ coins, c.denom = coin.denom := by
  obtain ⟨hamount, hne⟩ := mem_mergeCoins.1 h
  by_contra hnone
  refine hne (hamount.trans (coinsOf_eq_zero.2 fun c hc hdenom => ?_))
  exact absurd ⟨c, hc, hdenom⟩ hnone

/-- A denomination has one coin at most among those that are handed over. -/
theorem nodup_mergeCoins (coins : List Coin) : ((mergeCoins coins).map Coin.denom).Nodup := by
  rw [mergeCoins, List.map_map]
  have hkeys : ((coinAmounts coins).entries.map Prod.fst).Nodup := by
    rw [List.Nodup, List.pairwise_map]
    exact (coinAmounts coins).sorted.imp fun h => h.ne
  exact hkeys.sublist (List.filter_sublist.map Prod.fst)

/-- **Nothing is lost or added** when coins are handed over. -/
@[simp] theorem coinsOf_mergeCoins (coins : List Coin) (denom : String) :
    coinsOf (mergeCoins coins) denom = coinsOf coins denom := by
  by_cases hzero : coinsOf coins denom = 0
  · rw [hzero]
    refine coinsOf_eq_zero.2 fun coin hcoin hdenom => ?_
    obtain ⟨hamount, -⟩ := mem_mergeCoins.1 hcoin
    rw [hamount, hdenom, hzero]
  · have hmem : (⟨denom, coinsOf coins denom⟩ : Coin) ∈ mergeCoins coins :=
      mem_mergeCoins.2 ⟨rfl, hzero⟩
    exact coinsOf_of_mem (nodup_mergeCoins coins) hmem

/-- When one of the coins handed over is left, and `keep` leaves the first denomination, then it is
the coin of that denomination. -/
theorem coin_of_filter_mergeCoins {denom : String} {amount : ℕ} {attached : List Coin}
    {coin : Coin} {keep : Coin → Bool} (hpositive : amount ≠ 0)
    (hkeep : keep ⟨denom, amount + coinsOf attached denom⟩ = true)
    (hcoin : (mergeCoins (⟨denom, amount⟩ :: attached)).filter keep = [coin]) :
    coin = ⟨denom, amount + coinsOf attached denom⟩ := by
  have hmem : (⟨denom, amount + coinsOf attached denom⟩ : Coin) ∈
      mergeCoins (⟨denom, amount⟩ :: attached) := by
    refine mem_mergeCoins.2 ⟨by simp, ?_⟩
    simp only
    omega
  have hfiltered : (⟨denom, amount + coinsOf attached denom⟩ : Coin) ∈ [coin] := by
    rw [← hcoin]
    exact List.mem_filter.2 ⟨hmem, hkeep⟩
  exact (List.mem_singleton.1 hfiltered).symm

/-- A list of one coin that is worth something is handed over as it is. -/
theorem mergeCoins_singleton {coin : Coin} (h : coin.amount ≠ 0) : mergeCoins [coin] = [coin] := by
  simp [mergeCoins, coinAmounts, StorageMap.save, StorageMap.empty, StorageMap.insertEntry,
    StorageMap.load, h]

/-- No coins are handed over as none. -/
@[simp] theorem mergeCoins_nil : mergeCoins [] = [] := rfl

/-- The balances (by address and denomination) and the total supplies (by denomination). -/
structure Bank where
  balance : String → String → ℕ
  supply : String → ℕ

namespace Bank

/-- Add a coin to an account. -/
def creditCoin (b : Bank) (address : String) (coin : Coin) : Bank :=
  { b with balance := fun a d =>
      if a = address ∧ d = coin.denom then b.balance a d + coin.amount else b.balance a d }

/-- Take a coin from an account that has it. -/
def debitCoin (b : Bank) (address : String) (coin : Coin) : Option Bank :=
  if coin.amount ≤ b.balance address coin.denom then
    some { b with balance := fun a d =>
      if a = address ∧ d = coin.denom then b.balance a d - coin.amount else b.balance a d }
  else none

/-- Send coins from one account to another, one after the other. -/
def send (b : Bank) (sender receiver : String) : List Coin → Option Bank
  | [] => some b
  | coin :: rest => do
    let b ← b.debitCoin sender coin
    (b.creditCoin receiver coin).send sender receiver rest

/-- Mint a coin to an account. -/
def mint (b : Bank) (receiver : String) (coin : Coin) : Bank :=
  { b.creditCoin receiver coin with
    supply := fun d => if d = coin.denom then b.supply d + coin.amount else b.supply d }

/-- Burn a coin of an account. -/
def burn (b : Bank) (holder : String) (coin : Coin) : Option Bank := do
  let b ← b.debitCoin holder coin
  if coin.amount ≤ b.supply coin.denom then
    some { b with
      supply := fun d => if d = coin.denom then b.supply d - coin.amount else b.supply d }
  else none

/-- A debit leaves every other account, every other denomination and the supplies alone. -/
theorem debitCoin_ok {b b' : Bank} {address : String} {coin : Coin}
    (h : b.debitCoin address coin = some b') :
    b'.supply = b.supply ∧ coin.amount ≤ b.balance address coin.denom ∧
      ∀ a d, b'.balance a d =
        if a = address ∧ d = coin.denom then b.balance a d - coin.amount else b.balance a d := by
  unfold debitCoin at h
  split_ifs at h with hle
  rw [← Option.some.inj h]
  exact ⟨rfl, hle, fun a d => rfl⟩

/-- A transfer leaves the supplies and the accounts of everybody else alone. -/
theorem send_ok {b b' : Bank} {sender receiver : String} {coins : List Coin}
    (h : b.send sender receiver coins = some b') :
    b'.supply = b.supply ∧
      ∀ a, a ≠ sender → a ≠ receiver → ∀ d, b'.balance a d = b.balance a d := by
  induction coins generalizing b with
  | nil =>
    rw [← Option.some.inj h]
    exact ⟨rfl, fun _ _ _ _ => rfl⟩
  | cons coin rest ih =>
    simp only [send, Option.bind_eq_bind, Option.bind_eq_some_iff] at h
    obtain ⟨b₁, hdebit, h⟩ := h
    obtain ⟨hsupply, -, hbalance⟩ := debitCoin_ok hdebit
    obtain ⟨hsupply', hbalance'⟩ := ih h
    refine ⟨hsupply'.trans hsupply, fun a hs hr d => ?_⟩
    rw [hbalance' a hs hr d]
    simp [creditCoin, hbalance, hs, hr]

/-- A transfer leaves the balances of every other denomination alone. -/
theorem balance_send_of_ne {b b' : Bank} {sender receiver denom : String} {coins : List Coin}
    (h : b.send sender receiver coins = some b') (hne : ∀ coin ∈ coins, coin.denom ≠ denom)
    (a : String) : b'.balance a denom = b.balance a denom := by
  induction coins generalizing b with
  | nil => rw [← Option.some.inj h]
  | cons coin rest ih =>
    simp only [send, Option.bind_eq_bind, Option.bind_eq_some_iff] at h
    obtain ⟨b₁, hdebit, h⟩ := h
    obtain ⟨-, -, hbalance⟩ := debitCoin_ok hdebit
    have hcoin := (hne coin List.mem_cons_self).symm
    rw [ih h fun c hc => hne c (List.mem_cons_of_mem _ hc)]
    simp only [creditCoin, hbalance, hcoin, and_false, ↓reduceIte]

/-- A coin from somebody else adds to the balance of its denomination. -/
theorem balance_send_singleton {b b' : Bank} {sender receiver : String} {coin : Coin}
    (h : b.send sender receiver [coin] = some b') (hne : sender ≠ receiver) :
    b'.balance receiver coin.denom = b.balance receiver coin.denom + coin.amount := by
  simp only [send, Option.bind_eq_bind, Option.bind_eq_some_iff, Option.some.injEq] at h
  obtain ⟨b₁, hdebit, rfl⟩ := h
  obtain ⟨-, -, hbalance⟩ := debitCoin_ok hdebit
  simp only [creditCoin, hbalance, hne.symm, false_and, true_and, ↓reduceIte]

/-- An account can send a coin that it has. -/
theorem exists_send_singleton {b : Bank} {sender receiver : String} {coin : Coin}
    (h : coin.amount ≤ b.balance sender coin.denom) :
    ∃ b', b.send sender receiver [coin] = some b' := by
  simp only [send, debitCoin, h, ↓reduceIte, Option.bind_eq_bind, Option.bind_some]
  exact ⟨_, rfl⟩

/-- **An account can send the coins that it has**, in any order. The induction is on the list of
coins: after the first one the account still has the others. -/
theorem exists_send {b : Bank} {sender receiver : String} {coins : List Coin}
    (h : ∀ denom, coinsOf coins denom ≤ b.balance sender denom) :
    ∃ b', b.send sender receiver coins = some b' := by
  induction coins generalizing b with
  | nil => exact ⟨b, rfl⟩
  | cons coin rest ih =>
    have hcoin := h coin.denom
    simp only [coinsOf_cons, ↓reduceIte] at hcoin
    have hle : coin.amount ≤ b.balance sender coin.denom := by omega
    simp only [send, debitCoin, hle, ↓reduceIte, Option.bind_eq_bind, Option.bind_some]
    apply ih
    intro denom
    have hdenom := h denom
    simp only [coinsOf_cons] at hdenom
    simp only [creditCoin]
    by_cases heq : denom = coin.denom
    · subst heq
      simp only [↓reduceIte] at hdenom
      simp only [and_self, and_true, ↓reduceIte]
      split_ifs <;> omega
    · simp only [Ne.symm heq, ↓reduceIte] at hdenom
      simp only [heq, and_false, ↓reduceIte]
      omega

/-- A transfer lowers no balance but the sender's. -/
theorem le_balance_send {b b' : Bank} {sender receiver : String} {coins : List Coin}
    (h : b.send sender receiver coins = some b') {a : String} (ha : a ≠ sender) (d : String) :
    b.balance a d ≤ b'.balance a d := by
  induction coins generalizing b with
  | nil => rw [← Option.some.inj h]
  | cons coin rest ih =>
    simp only [send, Option.bind_eq_bind, Option.bind_eq_some_iff] at h
    obtain ⟨b₁, hdebit, h⟩ := h
    obtain ⟨-, -, hbalance⟩ := debitCoin_ok hdebit
    refine le_trans ?_ (ih h)
    simp only [creditCoin, hbalance, ha, false_and, ↓reduceIte]
    split_ifs <;> omega

/-- **A transfer moves its coins** from the sender to the receiver. The induction is on the list of
coins. -/
theorem balance_send {b b' : Bank} {sender receiver : String} {coins : List Coin}
    (h : b.send sender receiver coins = some b') (hne : sender ≠ receiver) (denom : String) :
    b'.balance sender denom + coinsOf coins denom = b.balance sender denom ∧
      b'.balance receiver denom = b.balance receiver denom + coinsOf coins denom := by
  induction coins generalizing b with
  | nil =>
    rw [← Option.some.inj h]
    exact ⟨rfl, rfl⟩
  | cons coin rest ih =>
    simp only [send, Option.bind_eq_bind, Option.bind_eq_some_iff] at h
    obtain ⟨b₁, hdebit, h⟩ := h
    obtain ⟨-, hle, hbalance⟩ := debitCoin_ok hdebit
    obtain ⟨hsender, hreceiver⟩ := ih h
    simp only [creditCoin, hbalance, hne, hne.symm, false_and, true_and, ↓reduceIte]
      at hsender hreceiver
    rw [coinsOf_cons]
    by_cases hdenom : denom = coin.denom
    · subst hdenom
      simp only [↓reduceIte] at hsender hreceiver ⊢
      omega
    · simp only [hdenom, Ne.symm hdenom, ↓reduceIte] at hsender hreceiver ⊢
      omega

/-- A transfer takes from the sender no more than its coins, also when the sender is the receiver.
The induction is on the list of coins. -/
theorem le_balance_sender {b b' : Bank} {sender receiver : String} {coins : List Coin}
    (h : b.send sender receiver coins = some b') (denom : String) :
    b.balance sender denom ≤ b'.balance sender denom + coinsOf coins denom := by
  induction coins generalizing b with
  | nil =>
    rw [← Option.some.inj h]
    exact Nat.le_add_right _ _
  | cons coin rest ih =>
    simp only [send, Option.bind_eq_bind, Option.bind_eq_some_iff] at h
    obtain ⟨b₁, hdebit, h⟩ := h
    obtain ⟨-, hle, hbalance⟩ := debitCoin_ok hdebit
    have hrest := ih h
    simp only [creditCoin, hbalance, true_and] at hrest
    rw [coinsOf_cons]
    by_cases hdenom : denom = coin.denom
    · subst hdenom
      simp only [and_true, ↓reduceIte] at hrest ⊢
      split_ifs at hrest <;> omega
    · simp only [hdenom, Ne.symm hdenom, and_false, ↓reduceIte] at hrest ⊢
      omega

/-- **A burn lowers the supply of its denomination by its amount.** -/
theorem burn_ok {b b' : Bank} {holder : String} {coin : Coin} (h : b.burn holder coin = some b') :
    coin.amount ≤ b.supply coin.denom ∧
      (∀ d, b'.supply d =
        if d = coin.denom then b.supply d - coin.amount else b.supply d) ∧
      ∀ a d, b'.balance a d =
        if a = holder ∧ d = coin.denom then b.balance a d - coin.amount else b.balance a d := by
  simp only [burn, Option.bind_eq_bind, Option.bind_eq_some_iff] at h
  obtain ⟨b₁, hdebit, h⟩ := h
  obtain ⟨hsupply, -, hbalance⟩ := debitCoin_ok hdebit
  split_ifs at h with hle
  rw [hsupply] at hle
  rw [← Option.some.inj h]
  exact ⟨hle, fun d => by simp only [hsupply], hbalance⟩

end Bank

end DropContracts
