import SolanaPsm.Tokens

/-!
# The system program

What the program relies on when it creates an account: the system program serves a call that is
signed and paid for. A call that fails is one the program cannot do without, so these promises are
about success; what a successful call does to accounts is part of `Solana`.

`createPermissionAccount` tells two cases apart, by the balance at the address. Anyone can send
lamports to an address, so it is others who choose the case; `createPermissionAccount_succeeds`
says that neither fails, and that the account ends up with its rent.
-/

namespace SolanaPsm

/-- An account of the system program without data; it may hold lamports. -/
def Ledger.Vacant (l : Ledger) (key : Pubkey) : Prop :=
  (l key).owner = SYSTEM_PROGRAM_ID ∧ (l key).data = []

theorem Ledger.Vacant.sameAt {l l' : Ledger} {key : Pubkey} (h : l.Vacant key)
    (hsame : l.SameAt l' key) : l'.Vacant key :=
  ⟨hsame.1.trans h.1, hsame.2.trans h.2⟩

/-- A free address is no account of the program. -/
theorem Ledger.Vacant.ne {l : Ledger} {key owned : Pubkey} (h : l.Vacant key)
    (howned : (l owned).owner = ID) : key ≠ owned := by
  rintro rfl
  exact absurd (howned.symm.trans h.1) (by decide)

/-- How much data a called program may add to an account. -/
def MAX_PERMITTED_DATA_INCREASE : ℕ := 10240

/-- The documented behaviour of the system program, and what the token programs leave to it. -/
class SystemProgram [Solana] : Prop where
  /-- a new account, at an address that signs and has no lamports -/
  createAccount : ∀ {payer account lamports space owner signers seeds} {l : Ledger},
    payer ∈ signers → Signed account signers seeds → payer ≠ account → l.Vacant payer →
    l.Vacant account → (l account).lamports = 0#64 → lamports ≤ (l payer).lamports →
    space ≤ MAX_PERMITTED_DATA_INCREASE →
    ∃ l', Solana.invoke (.createAccount payer account lamports space owner) signers seeds l =
      .ok l' ∧ (l' account).lamports = lamports
  /-- a payment -/
  transfer : ∀ {payer account lamports signers seeds} {l : Ledger},
    payer ∈ signers → payer ≠ account → l.Vacant payer → lamports ≤ (l payer).lamports →
    (l account).lamports.toNat + lamports.toNat < 2 ^ 64 →
    ∃ l', Solana.invoke (.transfer payer account lamports) signers seeds l = .ok l' ∧
      (l' account).lamports = (l account).lamports + lamports
  /-- data for an account that signs -/
  allocate : ∀ {account space signers seeds} {l : Ledger},
    Signed account signers seeds → l.Vacant account → space ≤ MAX_PERMITTED_DATA_INCREASE →
    ∃ l', Solana.invoke (.allocate account space) signers seeds l = .ok l' ∧
      (l' account).lamports = (l account).lamports
  /-- another owner for an account that signs -/
  assign : ∀ {account owner signers seeds} {l : Ledger},
    Signed account signers seeds → (l account).owner = SYSTEM_PROGRAM_ID →
    ∃ l', Solana.invoke (.assign account owner) signers seeds l = .ok l' ∧
      (l' account).lamports = (l account).lamports
  /-- the token programs neither allocate nor assign accounts -/
  spared : ∀ {call signers seeds key} {l l' : Ledger}, call.IsToken →
    Solana.invoke call signers seeds l = .ok l' → l.Vacant key → l'.Vacant key

/-- The balance that is missing at an address with lamports: a payer with the rent can pay it, and
with it the address has the rent. -/
theorem missingLamports_le (lamports : U64) {current : U64} (hcurrent : current ≠ 0#64) :
    ((BitVec.maximum lamports 1#64).checkedSub current).getD 0#64 ≤ lamports ∧
      current.toNat + (((BitVec.maximum lamports 1#64).checkedSub current).getD 0#64).toNat <
        2 ^ 64 ∧
      lamports.toNat ≤
        current.toNat + (((BitVec.maximum lamports 1#64).checkedSub current).getD 0#64).toNat := by
  have hpos : 0 < current.toNat := by bv_omega
  have hmax : max lamports.toNat (1#64).toNat < 2 ^ 64 := max_lt lamports.isLt (1#64).isLt
  have hone : (1#64).toNat = 1 := rfl
  rw [BitVec.le_def]
  cases hmissing : (BitVec.maximum lamports 1#64).checkedSub current with
  | none =>
    have hless : ¬ current.toNat ≤ (BitVec.maximum lamports 1#64).toNat := by
      intro hle
      have hsome := BitVec.checkedSub_eq_some.mpr ⟨hle, BitVec.toNat_sub_of_le hle⟩
      cases hmissing.symm.trans hsome
    rw [BitVec.toNat_maximum] at hless
    rw [Option.getD_none]
    exact ⟨Nat.zero_le _, current.isLt, by omega⟩
  | some missing =>
    obtain ⟨hle, hmissing⟩ := BitVec.checkedSub_eq_some.mp hmissing
    rw [BitVec.toNat_maximum] at hle hmissing
    rw [Option.getD_some]
    omega

section Create

variable [Solana] [SystemProgram] {l : Ledger} {signers : List Pubkey}

/-- An address that has lamports already is topped up, given its data, and handed over. -/
theorem fundPermissionAccount_succeeds {payer account : Pubkey} {lamports : U64}
    {seeds : List (List Bytes)} (hpayer : payer ∈ signers)
    (hsigned : Signed account signers seeds) (hne : payer ≠ account) (hwallet : l.Vacant payer)
    (hvacant : l.Vacant account) (hlamports : (l account).lamports ≠ 0#64)
    (hfunds : lamports ≤ (l payer).lamports) :
    ∃ l', fundPermissionAccount payer account lamports seeds signers l = .ok l' ∧
      lamports ≤ (l' account).lamports := by
  obtain ⟨hle, hfits, hrent⟩ := missingLamports_le lamports hlamports
  rw [fundPermissionAccount]
  generalize ((BitVec.maximum lamports 1#64).checkedSub (l account).lamports).getD 0#64 = missing
    at hle hfits hrent ⊢
  -- the balance is made up to the rent
  obtain ⟨l₁, htransfer, hvacant₁, hrent₁⟩ : ∃ l₁,
      (if 0#64 < missing then Solana.invoke (.transfer payer account missing) signers [] l
        else .ok l) = .ok l₁ ∧ l₁.Vacant account ∧ lamports ≤ (l₁ account).lamports := by
    split
    · have hpays : missing ≤ (l payer).lamports := BitVec.le_trans hle hfunds
      obtain ⟨l₁, htransfer, hbalance⟩ : ∃ l₁,
          Solana.invoke (.transfer payer account missing) signers [] l = .ok l₁ ∧
            (l₁ account).lamports = (l account).lamports + missing :=
        SystemProgram.transfer hpayer hne hwallet hpays hfits
      refine ⟨l₁, htransfer, hvacant.sameAt (Solana.transferred htransfer account), ?_⟩
      rw [hbalance, BitVec.le_def, BitVec.toNat_add, Nat.mod_eq_of_lt hfits]
      exact hrent
    · rename_i hzero
      refine ⟨l, rfl, hvacant, ?_⟩
      bv_omega
  obtain ⟨l₂, hallocate, hbalance₂⟩ : ∃ l₂,
      Solana.invoke (.allocate account Permission.LEN) signers seeds l₁ = .ok l₂ ∧
        (l₂ account).lamports = (l₁ account).lamports :=
    SystemProgram.allocate hsigned hvacant₁ (by decide)
  have howner₂ : (l₂ account).owner = SYSTEM_PROGRAM_ID := (Solana.allocated hallocate).2.owner
  obtain ⟨l₃, hassign, hbalance₃⟩ : ∃ l₃,
      Solana.invoke (.assign account ID) signers seeds l₂ = .ok l₃ ∧
        (l₃ account).lamports = (l₂ account).lamports := SystemProgram.assign hsigned howner₂
  refine ⟨l₃, ?_, ?_⟩
  · rw [htransfer, Outcome.ok_bind, hallocate, Outcome.ok_bind, hassign]
  · rwa [hbalance₃, hbalance₂]

/-- Whatever balance the address of a record has, its account is created, with its rent. -/
theorem createPermissionAccount_succeeds {payer account systemProgram : AccountInfo}
    {swap authority : Pubkey} (hpayer : payer.key ∈ signers)
    (haccount : account.key = permissionAddress swap authority)
    (hsystem : systemProgram.key = SYSTEM_PROGRAM_ID)
    (hderives : Solana.createProgramAddress (permissionSeeds swap authority ++
      [[(derivePermissionPubkeyAndBump swap authority).2]]) ID =
        some (permissionAddress swap authority))
    (hne : payer.key ≠ account.key) (hwallet : l.Vacant payer.key)
    (hvacant : l.Vacant account.key)
    (hfunds : Solana.minimumBalance Permission.LEN ≤ (l payer.key).lamports) :
    ∃ l', createPermissionAccount payer account systemProgram swap authority signers l = .ok l' ∧
      Solana.minimumBalance Permission.LEN ≤ (l' account.key).lamports := by
  have hsigned : Signed account.key signers [permissionSeeds swap authority ++
      [[(derivePermissionPubkeyAndBump swap authority).2]]] :=
    .inr ⟨_, List.mem_singleton_self _, haccount ▸ hderives⟩
  have hforeign : (l account.key).owner ≠ ID := by
    rw [hvacant.1]
    decide
  have haddress : (derivePermissionPubkeyAndBump swap authority).1 = account.key := haccount.symm
  have hright : Outcome.rejectIf (account.key ≠ account.key)
      (ProgramError.custom .invalidPermissionAddress) = .ok () :=
    Outcome.rejectIf_of_not (not_not.mpr rfl)
  have hprogram : Outcome.rejectIf (systemProgram.key ≠ SYSTEM_PROGRAM_ID)
      ProgramError.incorrectProgramId = .ok () := Outcome.rejectIf_of_not (not_not.mpr hsystem)
  rw [createPermissionAccount]
  simp only [haddress, hright, hprogram, if_neg hforeign, Outcome.ok_bind]
  split
  · rename_i hlamports
    obtain ⟨l', hcreate, hbalance⟩ : ∃ l', Solana.invoke (.createAccount payer.key account.key
        (Solana.minimumBalance Permission.LEN) Permission.LEN ID) signers [permissionSeeds swap
          authority ++ [[(derivePermissionPubkeyAndBump swap authority).2]]] l = .ok l' ∧
        (l' account.key).lamports = Solana.minimumBalance Permission.LEN :=
      SystemProgram.createAccount hpayer hsigned hne hwallet hvacant hlamports hfunds (by decide)
    exact ⟨l', hcreate, hbalance ▸ BitVec.le_refl _⟩
  · rename_i hlamports
    exact fundPermissionAccount_succeeds hpayer hsigned hne hwallet hvacant hlamports hfunds

end Create

end SolanaPsm
