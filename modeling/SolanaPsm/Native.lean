import SolanaPsm.Bank
import SolanaPsm.SystemProgram

/-!
# A runtime with a system program

`Solana.native` adds the calls of the system program to the runtime with token programs, and knows
the address of one more record. It keeps the promises of `SystemProgram`.
-/

namespace SolanaPsm

open Bytes (toLE)

namespace Solana.Native

/-! ## The calls -/

/-- The program addresses of the reference runtime, and the record of the authority at address
20. -/
def programAddresses : List (List Bytes × Pubkey × UInt8) :=
  Reference.programAddresses ++
  [ ([PERMISSION_SEED, toLE 32 1#256, toLE 32 20#256],
      0x52257039706e1c378ad7241ac05484f36a0505afd5fe6dce38d5dd968555b4da#256, 254) ]

/-- The address of known seeds. -/
def findProgramAddress (seeds : List Bytes) : Pubkey × UInt8 :=
  (programAddresses.lookup seeds).getD (0#256, 0)

/-- The address of known seeds with their bump seed. -/
def createProgramAddress (seeds : List Bytes) : Option Pubkey :=
  programAddresses.findSome? fun (known, address, bumpSeed) =>
    if known ++ [[bumpSeed]] = seeds then some address else none

/-- An address signed, or seeds of the program derive it. -/
def Signs (signers : List Pubkey) (seeds : List (List Bytes)) (address : Pubkey) : Prop :=
  address ∈ signers ∨ ∃ s ∈ seeds, createProgramAddress s = some address

instance (signers : List Pubkey) (seeds : List (List Bytes)) (address : Pubkey) :
    Decidable (Signs signers seeds address) := inferInstanceAs (Decidable (_ ∨ _))

instance (ledger : Ledger) (key : Pubkey) : Decidable (ledger.Vacant key) :=
  inferInstanceAs (Decidable (_ ∧ _))

/-- Change one account. -/
def put (ledger : Ledger) (key : Pubkey) (account : Account) : Ledger :=
  Function.update ledger key account

/-- Transfer lamports of an account without data that signs. -/
def transfer (payer account : Pubkey) (lamports : U64) (signers : List Pubkey)
    (seeds : List (List Bytes)) (ledger : Ledger) : Outcome ProgramError Ledger := do
  Outcome.rejectIf (¬ Signs signers seeds payer) ProgramError.missingRequiredSignature
  Outcome.rejectIf (¬ ledger.Vacant payer) (.external 2)
  let rest ← Outcome.ofOption ((ledger payer).lamports.checkedSub lamports) (.external 1)
  let paid := put ledger payer { ledger payer with lamports := rest }
  let balance ← Outcome.ofOption ((paid account).lamports.checkedAdd lamports) (.external 3)
  return put paid account { paid account with lamports := balance }

/-- Give an account without data that signs some zeros. -/
def allocate (account : Pubkey) (space : ℕ) (signers : List Pubkey) (seeds : List (List Bytes))
    (ledger : Ledger) : Outcome ProgramError Ledger := do
  Outcome.rejectIf (¬ Signs signers seeds account) ProgramError.missingRequiredSignature
  Outcome.rejectIf (¬ (ledger.Vacant account ∧ space ≤ MAX_PERMITTED_DATA_INCREASE)) (.external 0)
  return put ledger account { ledger account with data := List.replicate space 0 }

/-- Give an account that signs another owner. -/
def assign (account owner : Pubkey) (signers : List Pubkey) (seeds : List (List Bytes))
    (ledger : Ledger) : Outcome ProgramError Ledger := do
  Outcome.rejectIf (¬ Signs signers seeds account) ProgramError.missingRequiredSignature
  Outcome.rejectIf ((ledger account).owner ≠ SYSTEM_PROGRAM_ID) (.external 0)
  return put ledger account { ledger account with owner }

/-- Create an account where there are no lamports. -/
def createAccount (payer account : Pubkey) (lamports : U64) (space : ℕ) (owner : Pubkey)
    (signers : List Pubkey) (seeds : List (List Bytes)) (ledger : Ledger) :
    Outcome ProgramError Ledger := do
  Outcome.rejectIf (0#64 < (ledger account).lamports) (.external 0)
  let ledger ← allocate account space signers seeds ledger
  let ledger ← assign account owner signers seeds ledger
  transfer payer account lamports signers seeds ledger

/-- A call to one of the two token programs, or to the system program. -/
def invoke (call : Call) (signers : List Pubkey) (seeds : List (List Bytes)) (ledger : Ledger) :
    Outcome ProgramError Ledger :=
  match call with
  | .transferChecked .. | .mintTo .. | .burn .. => Bank.invoke call signers seeds ledger
  | .createAccount payer account lamports space owner =>
    createAccount payer account lamports space owner signers seeds ledger
  | .transfer payer account lamports => transfer payer account lamports signers seeds ledger
  | .allocate account space => allocate account space signers seeds ledger
  | .assign account owner => assign account owner signers seeds ledger

/-! ## What they do -/

variable {l l' : Ledger} {payer account owner key : Pubkey} {lamports : U64} {space : ℕ}
  {signers : List Pubkey} {seeds : List (List Bytes)}

@[simp] theorem put_self (l : Ledger) (key : Pubkey) (a : Account) : put l key a key = a := by
  rw [put, Function.update_self]

theorem put_of_ne {k : Pubkey} (a : Account) (h : k ≠ key) : put l key a k = l k := by
  rw [put, Function.update_of_ne h]

theorem placed_put (l : Ledger) (key : Pubkey) (a : Account) :
    l.Placed (put l key a) key a.owner a.data := by
  refine ⟨by rw [put_self], by rw [put_self], fun hk => ?_⟩
  rw [Ledger.SameAt, put_of_ne a hk]
  exact ⟨rfl, rfl⟩

/-- A balance alone is replaced. -/
theorem sameAt_put (l : Ledger) (key : Pubkey) (balance : U64) (k : Pubkey) :
    l.SameAt (put l key { l key with lamports := balance }) k := by
  by_cases hk : k = key
  · subst hk
    rw [Ledger.SameAt, put_self]
    exact ⟨rfl, rfl⟩
  · exact (placed_put l key _).frame hk

theorem transfer_eq_ok : transfer payer account lamports signers seeds l = .ok l' ↔
    Signs signers seeds payer ∧ l.Vacant payer ∧ ∃ rest balance,
      (l payer).lamports.checkedSub lamports = some rest ∧
      (put l payer { l payer with lamports := rest } account).lamports.checkedAdd lamports =
        some balance ∧
      l' = put (put l payer { l payer with lamports := rest }) account
        { put l payer { l payer with lamports := rest } account with lamports := balance } := by
  simp only [transfer, Outcome.bind_eq_ok, Outcome.rejectIf_eq_ok, exists_const, not_not,
    Outcome.ofOption_eq_ok, Outcome.pure_eq, Outcome.ok.injEq, eq_comm (a := l')]
  tauto

theorem allocate_eq_ok : allocate account space signers seeds l = .ok l' ↔
    Signs signers seeds account ∧ l.Vacant account ∧ space ≤ MAX_PERMITTED_DATA_INCREASE ∧
      l' = put l account { l account with data := List.replicate space 0 } := by
  simp only [allocate, Outcome.bind_eq_ok, Outcome.rejectIf_eq_ok, exists_const, not_not,
    Outcome.pure_eq, Outcome.ok.injEq, eq_comm (a := l'), and_assoc]

theorem assign_eq_ok : assign account owner signers seeds l = .ok l' ↔
    Signs signers seeds account ∧ (l account).owner = SYSTEM_PROGRAM_ID ∧
      l' = put l account { l account with owner } := by
  simp only [assign, Outcome.bind_eq_ok, Outcome.rejectIf_eq_ok, exists_const, not_not,
    Outcome.pure_eq, Outcome.ok.injEq, eq_comm (a := l')]

theorem transferred (h : transfer payer account lamports signers seeds l = .ok l') (k : Pubkey) :
    l.SameAt l' k := by
  obtain ⟨-, -, rest, balance, -, -, rfl⟩ := transfer_eq_ok.mp h
  exact (sameAt_put l payer rest k).trans (sameAt_put _ account balance k)

theorem allocated (h : allocate account space signers seeds l = .ok l') :
    (l account).owner = SYSTEM_PROGRAM_ID ∧
      l.Placed l' account SYSTEM_PROGRAM_ID (List.replicate space 0) := by
  obtain ⟨-, hvacant, -, rfl⟩ := allocate_eq_ok.mp h
  have hplaced := placed_put l account { l account with data := List.replicate space 0 }
  rw [show ({ l account with data := List.replicate space 0 } : Account).owner =
    SYSTEM_PROGRAM_ID from hvacant.1] at hplaced
  exact ⟨hvacant.1, hplaced⟩

theorem assigned (h : assign account owner signers seeds l = .ok l') :
    l.Placed l' account owner (l account).data := by
  obtain ⟨-, -, rfl⟩ := assign_eq_ok.mp h
  exact placed_put l account { l account with owner }

theorem created (h : createAccount payer account lamports space owner signers seeds l = .ok l') :
    (l account).owner = SYSTEM_PROGRAM_ID ∧
      l.Placed l' account owner (List.replicate space 0) := by
  obtain ⟨_, -, h⟩ := Outcome.bind_eq_ok.mp h
  obtain ⟨l₁, hallocate, h⟩ := Outcome.bind_eq_ok.mp h
  obtain ⟨l₂, hassign, htransfer⟩ := Outcome.bind_eq_ok.mp h
  obtain ⟨hvacant, hallocated⟩ := allocated hallocate
  have hassigned := assigned hassign
  rw [hallocated.data] at hassigned
  have hplaced := hallocated.trans hassigned
  have hsame := transferred htransfer
  exact ⟨hvacant, (hsame account).1.trans hplaced.owner, (hsame account).2.trans hplaced.data,
    fun hk => (hplaced.frame hk).trans (hsame _)⟩

/-- A payer with the lamports can pay them. -/
theorem transfer_succeeds (hpayer : Signs signers seeds payer) (hne : payer ≠ account)
    (hwallet : l.Vacant payer) (hfunds : lamports ≤ (l payer).lamports)
    (hfits : (l account).lamports.toNat + lamports.toNat < 2 ^ 64) :
    ∃ l', transfer payer account lamports signers seeds l = .ok l' ∧
      (l' account).lamports = (l account).lamports + lamports := by
  have hrest := BitVec.checkedSub_eq_some.mpr ⟨hfunds, BitVec.toNat_sub_of_le hfunds⟩
  have hbalance : ((l account).lamports + lamports).toNat =
      (l account).lamports.toNat + lamports.toNat := by
    rw [BitVec.toNat_add, Nat.mod_eq_of_lt hfits]
  refine ⟨_, transfer_eq_ok.mpr ⟨hpayer, hwallet, _, (l account).lamports + lamports, hrest, ?_,
    rfl⟩, ?_⟩
  · rw [put_of_ne _ hne.symm, BitVec.checkedAdd_eq_some]
    exact hbalance
  · rw [put_self]

/-- An address that signs, without data or lamports, becomes an account with the lamports of a payer
who signs. -/
theorem createAccount_succeeds (hpayer : Signs signers seeds payer)
    (haccount : Signs signers seeds account) (hne : payer ≠ account) (hwallet : l.Vacant payer)
    (hvacant : l.Vacant account) (hlamports : (l account).lamports = 0#64)
    (hfunds : lamports ≤ (l payer).lamports) (hspace : space ≤ MAX_PERMITTED_DATA_INCREASE) :
    ∃ l', createAccount payer account lamports space owner signers seeds l = .ok l' ∧
      (l' account).lamports = lamports := by
  have hempty : Outcome.rejectIf (0#64 < (l account).lamports) (ProgramError.external 0) = .ok () :=
    Outcome.rejectIf_of_not (by rw [hlamports]; decide)
  obtain ⟨l₁, hl₁⟩ : ∃ l₁, l₁ = put l account { l account with data := List.replicate space 0 } :=
    ⟨_, rfl⟩
  have hallocate := allocate_eq_ok.mpr ⟨haccount, hvacant, hspace, hl₁⟩
  obtain ⟨l₂, hl₂⟩ : ∃ l₂, l₂ = put l₁ account { l₁ account with owner } := ⟨_, rfl⟩
  have hassign := assign_eq_ok.mpr ⟨haccount, (allocated hallocate).2.owner, hl₂⟩
  -- neither touches the payer or a balance
  have hpayer₂ : l₂ payer = l payer := by rw [hl₂, put_of_ne _ hne, hl₁, put_of_ne _ hne]
  have hbalance₂ : (l₂ account).lamports = 0#64 := by rw [hl₂, put_self, hl₁, put_self, hlamports]
  obtain ⟨l₃, htransfer, hbalance₃⟩ : ∃ l₃, transfer payer account lamports signers seeds l₂ =
      .ok l₃ ∧ (l₃ account).lamports = (l₂ account).lamports + lamports := by
    refine transfer_succeeds hpayer hne ?_ ?_ ?_
    · rwa [Ledger.Vacant, hpayer₂]
    · rwa [hpayer₂]
    · rw [hbalance₂]
      have hlt := lamports.isLt
      rwa [BitVec.toNat_ofNat, Nat.zero_mod, Nat.zero_add]
  refine ⟨l₃, ?_, ?_⟩
  · rw [createAccount, hempty, Outcome.ok_bind, hallocate, Outcome.ok_bind, hassign,
      Outcome.ok_bind, htransfer]
  · rw [hbalance₃, hbalance₂, BitVec.zero_add]

/-- An account of a token program is not free. -/
theorem vacant_write {tokenProgram : Pubkey} {data : Bytes}
    (hprogram : checkSplTokenProgramAccount tokenProgram = .ok ())
    (howner : (l account).owner = tokenProgram) (hvacant : l.Vacant key) :
    (l.write account data).Vacant key := by
  refine hvacant.sameAt (.write data ?_)
  rintro rfl
  rw [← howner, hvacant.1] at hprogram
  exact absurd hprogram (by decide)

/-- The token programs write their own accounts. -/
theorem spared {call : Call} (hcall : call.IsToken) (h : Bank.invoke call signers seeds l = .ok l')
    (hvacant : l.Vacant key) : l'.Vacant key := by
  cases call with
  | transferChecked tokenProgram source mint destination authority amount decimals =>
    obtain ⟨⟨⟩, hprogram, h⟩ := Outcome.bind_eq_ok.mp h
    obtain ⟨a, b, x, ha, hb, -, -, -, -, -, ⟨-, rfl⟩ | ⟨-, y, -, rfl⟩⟩ :=
      Bank.transferChecked_eq_ok h
    · exact hvacant
    · refine vacant_write hprogram ?_
        (vacant_write hprogram (Bank.readAccount_eq_ok.mp ha).1 hvacant)
      rw [Bank.setAmount, Ledger.owner_write]
      exact (Bank.readAccount_eq_ok.mp hb).1
  | mintTo tokenProgram mint destination authority amount =>
    obtain ⟨⟨⟩, hprogram, h⟩ := Outcome.bind_eq_ok.mp h
    obtain ⟨m, b, x, y, hm, hb, -, -, -, -, -, -, rfl⟩ := Bank.mintTo_eq_ok h
    refine vacant_write hprogram ?_ (vacant_write hprogram (Bank.readMint_eq_ok.mp hm).1 hvacant)
    rw [Bank.setSupply, Ledger.owner_write]
    exact (Bank.readAccount_eq_ok.mp hb).1
  | burn tokenProgram account mint authority amount =>
    obtain ⟨⟨⟩, hprogram, h⟩ := Outcome.bind_eq_ok.mp h
    obtain ⟨a, m, x, y, ha, hm, -, -, -, -, -, rfl⟩ := Bank.burn_eq_ok h
    refine vacant_write hprogram ?_ (vacant_write hprogram (Bank.readMint_eq_ok.mp hm).1 hvacant)
    rw [Bank.setSupply, Ledger.owner_write]
    exact (Bank.readAccount_eq_ok.mp ha).1
  | createAccount | transfer | allocate | assign => exact hcall.elim

end Solana.Native

/-- The runtime with token programs and a system program. -/
@[reducible] def Solana.native : Solana where
  findProgramAddress seeds _ := Native.findProgramAddress seeds
  createProgramAddress seeds _ := Native.createProgramAddress seeds
  unpackAccount := Reference.unpackAccount
  unpackMint := Reference.unpackMint
  extensionTypes _ := .ok []
  minimumBalance space := BitVec.ofNat 64 ((space + 128) * 6960)
  invoke := Native.invoke
  foreign_of_token := by
    intro call signers seeds l l' hcall h
    cases call with
    | transferChecked | mintTo | burn => exact Bank.invoke_foreign hcall h
    | createAccount | transfer | allocate | assign => exact hcall.elim
  created h := Native.created h
  transferred h := Native.transferred h
  allocated h := Native.allocated h
  assigned h := Native.assigned h

/-- The system program of this runtime keeps the promises. -/
theorem Solana.Native.promises : @SystemProgram Solana.native := by
  let _ : Solana := Solana.native
  refine { createAccount := ?_, transfer := ?_, allocate := ?_, assign := ?_, spared := ?_ }
  · intro payer account lamports space owner signers seeds l hpayer haccount hne hwallet hvacant
      hlamports hfunds hspace
    exact createAccount_succeeds (.inl hpayer) haccount hne hwallet hvacant hlamports hfunds hspace
  · intro payer account lamports signers seeds l hpayer hne hwallet hfunds hfits
    exact transfer_succeeds (.inl hpayer) hne hwallet hfunds hfits
  · intro account space signers seeds l hsigned hvacant hspace
    exact ⟨_, allocate_eq_ok.mpr ⟨hsigned, hvacant, hspace, rfl⟩, by rw [put_self]⟩
  · intro account owner signers seeds l hsigned howner
    exact ⟨_, assign_eq_ok.mpr ⟨hsigned, howner, rfl⟩, by rw [put_self]⟩
  · intro call signers seeds key l l' hcall h hvacant
    cases call with
    | transferChecked | mintTo | burn => exact spared hcall h hvacant
    | createAccount | transfer | allocate | assign => exact hcall.elim

end SolanaPsm
