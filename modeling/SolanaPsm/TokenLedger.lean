import Mathlib.Algebra.BigOperators.Group.Finset.Piecewise
import Mathlib.Algebra.Order.BigOperators.Group.Finset

/-!
# Token ledgers

The accounts of one token: a supply and a balance for each account, such that no
accounts together hold more than the supply. That much is a field of `TokenLedger`,
so minting, burning and transferring carry it along, and a ledger that has lost track
of its supply cannot be built.
-/

/-- Balances of accounts `α` in one token. -/
structure TokenLedger (α : Type) : Type where
  /-- tokens in circulation -/
  supply : ℕ
  /-- tokens held by an account -/
  balance : α → ℕ
  /-- the accounts hold parts of the supply -/
  sound : ∀ accounts : Finset α, ∑ i ∈ accounts, balance i ≤ supply

namespace TokenLedger

variable {α : Type}

/-- Nobody holds more than there is. -/
theorem balance_le_supply (l : TokenLedger α) (i : α) : l.balance i ≤ l.supply := by
  have := l.sound {i}
  rwa [Finset.sum_singleton] at this

/-- The ledger of a new token. -/
def empty : TokenLedger α where
  supply := 0
  balance _ := 0
  sound accounts := by rw [Finset.sum_const_zero]

variable [DecidableEq α] {l l' : TokenLedger α} {i j : α} {x : ℕ}

/-- Mint tokens to an account. -/
def mint (l : TokenLedger α) (i : α) (x : ℕ) : TokenLedger α where
  supply := l.supply + x
  balance j := l.balance j + if j = i then x else 0
  sound accounts := by
    rw [Finset.sum_add_distrib, Finset.sum_ite_eq']
    refine Nat.add_le_add (l.sound accounts) ?_
    split
    · exact le_rfl
    · exact Nat.zero_le _

/-- Burn tokens of an account that holds them. -/
def burn (l : TokenLedger α) (i : α) (x : ℕ) : Option (TokenLedger α) :=
  if h : x ≤ l.balance i then
    some {
      supply := l.supply - x
      balance := fun j => l.balance j - if j = i then x else 0
      sound := by
        intro accounts
        -- the burned tokens are counted once the account is among the others
        have hsum : (∑ j ∈ insert i accounts, (l.balance j - if j = i then x else 0)) + x =
            ∑ j ∈ insert i accounts, l.balance j := by
          have hone : x = ∑ j ∈ insert i accounts, if j = i then x else 0 := by
            rw [Finset.sum_ite_eq', if_pos (Finset.mem_insert_self i accounts)]
          conv_lhs => rhs; rw [hone]
          rw [← Finset.sum_add_distrib]
          refine Finset.sum_congr rfl fun j _ => Nat.sub_add_cancel ?_
          split
          · subst j
            exact h
          · exact Nat.zero_le _
        have hle : (∑ j ∈ accounts, (l.balance j - if j = i then x else 0)) ≤
            ∑ j ∈ insert i accounts, (l.balance j - if j = i then x else 0) :=
          Finset.sum_le_sum_of_subset (Finset.subset_insert i accounts)
        have := l.sound (insert i accounts)
        omega }
  else none

/-- Move tokens between accounts. -/
def transfer (l : TokenLedger α) (i j : α) (x : ℕ) : Option (TokenLedger α) :=
  (l.burn i x).map fun l => l.mint j x

@[simp] theorem balance_mint (l : TokenLedger α) (i j : α) (x : ℕ) :
    (l.mint i x).balance j = l.balance j + if j = i then x else 0 := rfl

/-- Minting takes nothing from anyone. -/
theorem le_balance_mint (l : TokenLedger α) (i j : α) (x : ℕ) :
    l.balance j ≤ (l.mint i x).balance j := Nat.le_add_right _ _

theorem balance_mint_self (l : TokenLedger α) (i : α) (x : ℕ) :
    (l.mint i x).balance i = l.balance i + x := congrArg _ (if_pos rfl)

/-- Burning takes from the supply and from one account. -/
theorem burn_eq_some (h : l.burn i x = some l') :
    l'.supply + x = l.supply ∧ ∀ j, j ≠ i → l'.balance j = l.balance j := by
  simp only [burn] at h
  split at h
  · rename_i hx
    obtain rfl := Option.some.inj h
    refine ⟨Nat.sub_add_cancel (hx.trans (l.balance_le_supply i)), ?_⟩
    intro j hj
    simp only [if_neg hj, Nat.sub_zero]
  · cases h

/-- A transfer keeps the supply and takes from one account only. -/
theorem transfer_eq_some (h : l.transfer i j x = some l') :
    l'.supply = l.supply ∧ ∀ k, k ≠ i → l.balance k ≤ l'.balance k := by
  obtain ⟨u, hu, rfl⟩ := Option.map_eq_some_iff.mp h
  obtain ⟨hsupply, hbalance⟩ := burn_eq_some hu
  refine ⟨hsupply, ?_⟩
  intro k hk
  rw [← hbalance k hk]
  exact u.le_balance_mint j k x

/-- An account that holds tokens can burn them. -/
theorem exists_burn (h : x ≤ l.balance i) : ∃ l', l.burn i x = some l' := ⟨_, dif_pos h⟩

/-- What the accounts hold after burning. -/
theorem balance_burn (h : l.burn i x = some l') (j : α) :
    l'.balance j + (if j = i then x else 0) = l.balance j := by
  simp only [burn] at h
  split at h
  · rename_i hx
    obtain rfl := Option.some.inj h
    refine Nat.sub_add_cancel ?_
    split
    · subst j
      exact hx
    · exact Nat.zero_le _
  · cases h

/-- An account that holds tokens can send them. -/
theorem exists_transfer (h : x ≤ l.balance i) (j : α) : ∃ l', l.transfer i j x = some l' := by
  obtain ⟨u, hu⟩ := exists_burn h
  exact ⟨u.mint j x, Option.map_eq_some_iff.mpr ⟨u, hu, rfl⟩⟩

/-- What the accounts hold after a transfer. -/
theorem balance_transfer (h : l.transfer i j x = some l') (k : α) :
    l'.balance k + (if k = i then x else 0) = l.balance k + if k = j then x else 0 := by
  obtain ⟨u, hu, rfl⟩ := Option.map_eq_some_iff.mp h
  rw [← balance_burn hu k]
  exact Nat.add_right_comm _ _ _

end TokenLedger
