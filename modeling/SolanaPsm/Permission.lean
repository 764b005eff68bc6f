import SolanaPsm.Accounts

/-!
# Permissions

Permission records (`permission.rs`): their 67 bytes, the address of the record of a
pool and an authority, and the two instructions that write records.

A processor is specified by what it finds and what it writes:
`processInitializePermission_eq_ok` and `processUpdatePermission_eq_ok`. Both demand the
record of the signer for the very pool they name (`Ledger.Permits`).
-/

namespace SolanaPsm

/-- Permission struct that allows a more flexible permission system. -/
@[ext] structure Permission : Type where
  /-- set to true after a Permission is created -/
  isInitialized : Bool
  /-- the Swap account address -/
  swap : Pubkey
  /-- the key that is granted these permissions and must sign -/
  authority : Pubkey
  /-- a permission to grant or revoke other permissions -/
  isSuperAdmin : Bool
  /-- a permission to update curve parameters -/
  canUpdateParameters : Bool
  deriving DecidableEq, Repr

namespace Permission

open Bytes (toLE ofLE slice)

/-! ## Layout -/

/-- Size of a record in bytes. -/
def LEN : ℕ := 67

/-- The five fields in the order of the layout. -/
def fields (permission : Permission) : List Bytes :=
  [ [Bytes.boolByte permission.isInitialized],
    toLE 32 permission.swap,
    toLE 32 permission.authority,
    [Bytes.boolByte permission.isSuperAdmin],
    [Bytes.boolByte permission.canUpdateParameters] ]

/-- The lengths of the fields. -/
def fieldLengths : List ℕ := [1, 32, 32, 1, 1]

/-- The bytes of a record. -/
def packed (permission : Permission) : Bytes := permission.fields.flatten

/-- A flag is set when its byte is not zero. -/
def unpackFlag (input : Bytes) : Bool := input.headD 0 != 0

/-- `unpack_from_slice` of a slice of `LEN` bytes. -/
def unpackFromSlice (input : Bytes) : Permission where
  isInitialized := unpackFlag (slice 0 1 input)
  swap := ofLE 32 (slice 1 32 input)
  authority := ofLE 32 (slice 33 32 input)
  isSuperAdmin := unpackFlag (slice 65 1 input)
  canUpdateParameters := unpackFlag (slice 66 1 input)

/-- `Pack::unpack_unchecked`. -/
def unpackUnchecked (input : Bytes) : Outcome ProgramError Permission :=
  SolanaPsm.unpackUnchecked LEN (fun input => .ok (unpackFromSlice input)) input

/-- `Pack::unpack`. -/
def unpack (input : Bytes) : Outcome ProgramError Permission :=
  unpackInitialized LEN (fun input => .ok (unpackFromSlice input)) isInitialized input

/-- `Pack::pack`. -/
def pack (permission : Permission) (dst : Bytes) : Outcome ProgramError Bytes :=
  packInto LEN (fun _ => permission.packed) dst

theorem map_length_fields (permission : Permission) :
    permission.fields.map List.length = fieldLengths := by
  simp [fields, fieldLengths]

@[simp] theorem length_packed (permission : Permission) : permission.packed.length = LEN := by
  rw [packed, List.length_flatten, map_length_fields]
  rfl

/-- A record that was written is read back. -/
@[simp] theorem unpackFromSlice_packed (permission : Permission) :
    unpackFromSlice permission.packed = permission := by
  have hsplit : Bytes.splitFields 0 fieldLengths permission.packed = permission.fields :=
    Bytes.splitFields_flatten (map_length_fields permission)
  generalize permission.packed = input at hsplit ⊢
  simp only [Bytes.splitFields, fieldLengths, fields, List.cons.injEq, and_true, Nat.reduceAdd,
    Nat.zero_add] at hsplit
  obtain ⟨h₁, h₂, h₃, h₄, h₅⟩ := hsplit
  simp only [unpackFromSlice, h₁, h₂, h₃, h₄, h₅, Bytes.ofLE_toLE, unpackFlag, List.headD_cons,
    Bytes.boolByte_ne_zero]

theorem unpack_eq_ok {input : Bytes} {permission : Permission} :
    unpack input = .ok permission ↔ input.length = LEN ∧ unpackFromSlice input = permission ∧
      permission.isInitialized = true := by
  rw [unpack, unpackInitialized_eq_ok, Outcome.ok.injEq]

theorem unpack_packed {permission : Permission} (h : permission.isInitialized = true) :
    unpack permission.packed = .ok permission :=
  unpack_eq_ok.mpr ⟨length_packed permission, unpackFromSlice_packed permission, h⟩

/-- Zeros are no record. -/
theorem unpack_ne_ok_of_zeroed {input : Bytes} (h : Zeroed input) (permission : Permission) :
    unpack input ≠ .ok permission := by
  intro hunpack
  obtain ⟨hlen, rfl, hinit⟩ := unpack_eq_ok.mp hunpack
  cases input with
  | nil => cases hlen
  | cons b rest =>
    rw [show b = 0 from h b List.mem_cons_self] at hinit
    cases hinit

theorem noPanic_unpack (input : Bytes) : (unpack input).NoPanic := by
  refine Outcome.NoPanic.bind ?_ fun _ _ =>
    Outcome.noPanic_rejectIf.bind fun _ _ => Outcome.noPanic_ok _
  exact Outcome.noPanic_rejectIf.bind fun _ _ => Outcome.noPanic_ok _

end Permission

/-- An initialised record is stored at an address. -/
def Ledger.StoresPermission (l : Ledger) (key : Pubkey) (permission : Permission) : Prop :=
  (l key).owner = ID ∧ Permission.unpack (l key).data = .ok permission

/-- Create the account of a record and write the record. -/
theorem Ledger.Placed.record {l l₁ : Ledger} {key : Pubkey} {data : Bytes} {permission : Permission}
    (hcreated : l.Placed l₁ key ID (List.replicate Permission.LEN 0))
    (hpack : permission.pack (l₁ key).data = .ok data) :
    l.Placed (l₁.write key data) key ID permission.packed := by
  obtain ⟨-, rfl⟩ := packInto_eq_ok.mp hpack
  exact hcreated.trans (Placed.write _ hcreated.owner)

section Processors

variable [Solana]

/-! ## Checking a record -/

/-- Seed for PDA: `b"permission"`. -/
def PERMISSION_SEED : Bytes := [112, 101, 114, 109, 105, 115, 115, 105, 111, 110]

/-- The seeds of the record of a pool and an authority. -/
def permissionSeeds (swap authority : Pubkey) : List Bytes :=
  [PERMISSION_SEED, Bytes.toLE 32 swap, Bytes.toLE 32 authority]

/-- Derives Permission address based on swap and authority. -/
def derivePermissionPubkeyAndBump (swap authority : Pubkey) : Pubkey × UInt8 :=
  Solana.findProgramAddress (permissionSeeds swap authority) ID

/-- The address of the record of a pool and an authority. -/
def permissionAddress (swap authority : Pubkey) : Pubkey :=
  (derivePermissionPubkeyAndBump swap authority).1

/-- The record of an authority for a pool is stored, and has a flag set. -/
def Ledger.Permits (l : Ledger) (swap authority : Pubkey) (flag : Permission → Bool) : Prop :=
  ∃ permission, l.StoresPermission (permissionAddress swap authority) permission ∧
    permission.swap = swap ∧ permission.authority = authority ∧ flag permission = true

/-- Unpacks and validates a permission: its owner, its address, its authority and its pool. -/
def unpackPermission (permissionInfo swapInfo signerInfo : AccountInfo) (ledger : Ledger) :
    Outcome ProgramError Permission := do
  Outcome.rejectIf ((ledger permissionInfo.key).owner ≠ ID) ProgramError.illegalOwner
  Outcome.rejectIf (permissionAddress swapInfo.key signerInfo.key ≠ permissionInfo.key)
    (ProgramError.custom .invalidUpdatePermission)
  let permission ← Permission.unpack (ledger permissionInfo.key).data
  Outcome.rejectIf (permission.authority ≠ signerInfo.key)
    (ProgramError.custom .invalidUpdatePermission)
  Outcome.rejectIf (permission.swap ≠ swapInfo.key) (ProgramError.custom .invalidUpdatePermission)
  return permission

/-- Validates that the signer and its permission can update params. -/
def Permission.validateUpdateParamsPermission (permission : Permission) :
    Outcome ProgramError Unit :=
  Outcome.rejectIf (permission.canUpdateParameters = false)
    (ProgramError.custom .invalidUpdatePermission)

/-- Validates that the signer and its permission is super admin. -/
def Permission.validateSuperAdminPermission (permission : Permission) :
    Outcome ProgramError Unit :=
  Outcome.rejectIf (permission.isSuperAdmin = false) (ProgramError.custom .invalidUpdatePermission)

theorem unpackPermission_eq_ok {permissionInfo swapInfo signerInfo : AccountInfo} {l : Ledger}
    {permission : Permission} :
    unpackPermission permissionInfo swapInfo signerInfo l = .ok permission ↔
      permissionInfo.key = permissionAddress swapInfo.key signerInfo.key ∧
        l.StoresPermission permissionInfo.key permission ∧
        permission.swap = swapInfo.key ∧ permission.authority = signerInfo.key := by
  simp only [unpackPermission, Outcome.bind_eq_ok, Outcome.rejectIf_eq_ok, not_not, exists_const,
    Outcome.pure_eq, Outcome.ok.injEq, Ledger.StoresPermission]
  refine ⟨?_, ?_⟩
  · rintro ⟨howner, haddress, _, hunpack, hauthority, hswap, rfl⟩
    exact ⟨haddress.symm, ⟨howner, hunpack⟩, hswap, hauthority⟩
  · rintro ⟨haddress, ⟨howner, hunpack⟩, hswap, hauthority⟩
    exact ⟨howner, haddress.symm, permission, hunpack, hauthority, hswap, rfl⟩

theorem noPanic_unpackPermission (permissionInfo swapInfo signerInfo : AccountInfo) (l : Ledger) :
    (unpackPermission permissionInfo swapInfo signerInfo l).NoPanic := by
  refine Outcome.noPanic_rejectIf.bind fun _ _ => ?_
  refine Outcome.noPanic_rejectIf.bind fun _ _ => ?_
  refine (Permission.noPanic_unpack _).bind fun _ _ => ?_
  refine Outcome.noPanic_rejectIf.bind fun _ _ => ?_
  exact Outcome.noPanic_rejectIf.bind fun _ _ => Outcome.noPanic_ok _

/-! ## Creating a record -/

/-- The permission account has a balance, so the lamports for rent exemption are
transferred if needed, space is allocated, and the account is assigned to the program. -/
def fundPermissionAccount (payer permissionAccount : Pubkey) (lamports : U64)
    (signersSeeds : List (List Bytes)) (signers : List Pubkey) (ledger : Ledger) :
    Outcome ProgramError Ledger := do
  let requiredLamports := ((BitVec.maximum lamports 1#64).checkedSub
    (ledger permissionAccount).lamports).getD 0#64
  let ledger ← (if 0#64 < requiredLamports then
      Solana.invoke (.transfer payer permissionAccount requiredLamports) signers [] ledger
    else .ok ledger)
  let ledger ← Solana.invoke (.allocate permissionAccount Permission.LEN) signers signersSeeds
    ledger
  Solana.invoke (.assign permissionAccount ID) signers signersSeeds ledger

/-- Creates the permission account, based on the swap and authority; fails if the account
is initialized. -/
def createPermissionAccount (payer permissionAccount systemProgram : AccountInfo)
    (swap permissionAuthority : Pubkey) (signers : List Pubkey) (ledger : Ledger) :
    Outcome ProgramError Ledger := do
  let (permissionAddress, permissionBump) := derivePermissionPubkeyAndBump swap permissionAuthority
  Outcome.rejectIf (permissionAccount.key ≠ permissionAddress)
    (ProgramError.custom .invalidPermissionAddress)
  Outcome.rejectIf (systemProgram.key ≠ SYSTEM_PROGRAM_ID) ProgramError.incorrectProgramId
  -- if it is owned by the program and is initialized, we fail
  (if (ledger permissionAccount.key).owner = ID then do
    let existing ← Permission.unpackUnchecked (ledger permissionAccount.key).data
    Outcome.rejectIf (existing.isInitialized = true) ProgramError.accountAlreadyInitialized
  else .ok ())
  let lamports := Solana.minimumBalance Permission.LEN
  let signersSeeds := [permissionSeeds swap permissionAuthority ++ [[permissionBump]]]
  if (ledger permissionAccount.key).lamports = 0#64 then
    Solana.invoke (.createAccount payer.key permissionAddress lamports Permission.LEN ID) signers
      signersSeeds ledger
  else
    fundPermissionAccount payer.key permissionAddress lamports signersSeeds signers ledger

/-- An account is only ever made a record when the system program owns it. -/
theorem fundPermissionAccount_placed {payer account : Pubkey} {lamports : U64}
    {seeds : List (List Bytes)} {signers : List Pubkey} {l l' : Ledger}
    (h : fundPermissionAccount payer account lamports seeds signers l = .ok l') :
    (l account).owner = SYSTEM_PROGRAM_ID ∧
      l.Placed l' account ID (List.replicate Permission.LEN 0) := by
  simp only [fundPermissionAccount, Outcome.bind_eq_ok] at h
  obtain ⟨l₁, htransfer, l₂, hallocate, hassign⟩ := h
  have hsame : ∀ k, l.SameAt l₁ k := by
    intro k
    split at htransfer
    · exact Solana.transferred htransfer k
    · obtain rfl := Outcome.ok.inj htransfer
      exact .refl l k
  obtain ⟨hvacant, hallocated⟩ := Solana.allocated hallocate
  have hassigned := Solana.assigned hassign
  refine ⟨(hsame account).1.symm.trans hvacant, hassigned.owner, ?_, ?_⟩
  · rw [hassigned.data, hallocated.data]
  · intro k hk
    exact (hsame k).trans ((hallocated.frame hk).trans (hassigned.frame hk))

/-- A created record account: at the address of the pair, empty so far. -/
theorem createPermissionAccount_placed {payer account systemProgram : AccountInfo}
    {swap authority : Pubkey} {signers : List Pubkey} {l l' : Ledger}
    (h : createPermissionAccount payer account systemProgram swap authority signers l = .ok l') :
    account.key = permissionAddress swap authority ∧
      (l account.key).owner = SYSTEM_PROGRAM_ID ∧
      l.Placed l' account.key ID (List.replicate Permission.LEN 0) := by
  simp only [createPermissionAccount, Outcome.bind_eq_ok, Outcome.rejectIf_eq_ok, not_not,
    exists_const] at h
  obtain ⟨haddress, -, _, -, h⟩ := h
  refine ⟨haddress, ?_⟩
  rw [← haddress] at h
  split at h
  · exact Solana.created h
  · exact fundPermissionAccount_placed h

/-- Processes initialization of new permission. -/
def processInitializePermission (accounts : List AccountInfo) (instruction : InitializePermission)
    (ledger : Ledger) : Outcome ProgramError Ledger := do
  let (swapInfo, rest) ← nextAccountInfo accounts
  let (permissionInfo, rest) ← nextAccountInfo rest
  let (newPermissionInfo, rest) ← nextAccountInfo rest
  let (signerInfo, rest) ← nextAccountInfo rest
  let (payerInfo, rest) ← nextAccountInfo rest
  let (systemProgramInfo, _) ← nextAccountInfo rest
  Outcome.rejectIf ((ledger swapInfo.key).owner ≠ ID) ProgramError.illegalOwner
  Outcome.rejectIf (signerInfo.isSigner = false) ProgramError.missingRequiredSignature
  let permission ← unpackPermission permissionInfo swapInfo signerInfo ledger
  permission.validateSuperAdminPermission
  let ledger ← createPermissionAccount payerInfo newPermissionInfo systemProgramInfo swapInfo.key
    instruction.permissionAuthority (signersOf accounts) ledger
  let newPermission : Permission := {
    isInitialized := true
    swap := swapInfo.key
    authority := instruction.permissionAuthority
    isSuperAdmin := instruction.isSuperAdmin
    canUpdateParameters := instruction.canUpdateParameters }
  let data ← newPermission.pack (ledger newPermissionInfo.key).data
  return ledger.write newPermissionInfo.key data

/-- Processes permission updates. The signer may update its own record. -/
def processUpdatePermission (accounts : List AccountInfo) (instruction : UpdatePermission)
    (ledger : Ledger) : Outcome ProgramError Ledger := do
  let (swapInfo, rest) ← nextAccountInfo accounts
  let (permissionInfo, rest) ← nextAccountInfo rest
  let (updatePermissionInfo, rest) ← nextAccountInfo rest
  let (signerInfo, _) ← nextAccountInfo rest
  Outcome.rejectIf ((ledger swapInfo.key).owner ≠ ID) ProgramError.illegalOwner
  Outcome.rejectIf (signerInfo.isSigner = false) ProgramError.missingRequiredSignature
  Outcome.rejectIf ((ledger updatePermissionInfo.key).owner ≠ ID) ProgramError.illegalOwner
  let permission ← unpackPermission permissionInfo swapInfo signerInfo ledger
  permission.validateSuperAdminPermission
  let updatePermission ← Permission.unpack (ledger updatePermissionInfo.key).data
  Outcome.rejectIf (updatePermission.swap ≠ swapInfo.key)
    (ProgramError.custom .invalidUpdatePermission)
  let updatedValues : Permission := {
    isInitialized := updatePermission.isInitialized
    swap := updatePermission.swap
    authority := updatePermission.authority
    isSuperAdmin := instruction.isSuperAdmin
    canUpdateParameters := instruction.canUpdateParameters }
  let data ← updatedValues.pack (ledger updatePermissionInfo.key).data
  return ledger.write updatePermissionInfo.key data

/-! ## What the two instructions do -/

/-- A new record of a pool is written at its own address, where no account was in use. -/
structure Recorded (l l' : Ledger) (key : Pubkey) (permission : Permission) : Prop where
  /-- it is initialised -/
  initialized : permission.isInitialized = true
  /-- it is at the address of its pool and its authority -/
  address : key = permissionAddress permission.swap permission.authority
  /-- the address was free -/
  vacant : (l key).owner = SYSTEM_PROGRAM_ID
  /-- nothing else is touched -/
  placed : l.Placed l' key ID permission.packed

/-- The flags of a stored record are rewritten in place. -/
structure Reflagged (l l' : Ledger) (key : Pubkey) (permission : Permission)
    (isSuperAdmin canUpdateParameters : Bool) : Prop where
  /-- the record before -/
  stored : l.StoresPermission key permission
  /-- nothing else is touched -/
  placed : l.Placed l' key ID { permission with isSuperAdmin, canUpdateParameters }.packed

/-- Spec of InitializePermission: a signing super admin of the pool adds a record of it. -/
theorem processInitializePermission_eq_ok {accounts : List AccountInfo}
    {instruction : InitializePermission} {l l' : Ledger}
    (h : processInitializePermission accounts instruction l = .ok l') :
    ∃ swap permission target signer rest,
      accounts = swap :: permission :: target :: signer :: rest ∧
      signer.isSigner = true ∧ l.Permits swap.key signer.key Permission.isSuperAdmin ∧
      Recorded l l' target.key ⟨true, swap.key, instruction.permissionAuthority,
        instruction.isSuperAdmin, instruction.canUpdateParameters⟩ := by
  simp only [processInitializePermission, Outcome.bind_eq_ok, Prod.exists, nextAccountInfo_eq_ok,
    Outcome.rejectIf_eq_ok, not_not, exists_const, Bool.not_eq_false,
    Permission.validateSuperAdminPermission, unpackPermission_eq_ok, Outcome.pure_eq,
    Outcome.ok.injEq] at h
  obtain ⟨swap, _, rfl, permission, _, rfl, target, _, rfl, signer, _, rfl, payer, _, rfl, system,
    _, rfl, -, hsigner, p, ⟨haddress, hstored, hswap, hauthority⟩, hadmin, l₁, hcreate, data, hpack,
    rfl⟩ := h
  obtain ⟨htarget, hvacant, hcreated⟩ := createPermissionAccount_placed hcreate
  rw [haddress] at hstored
  exact ⟨swap, permission, target, signer, _, rfl, hsigner, ⟨p, hstored, hswap, hauthority, hadmin⟩,
    rfl, htarget, hvacant, hcreated.record hpack⟩

/-- Spec of UpdatePermission: a signing super admin of the pool changes the flags of a
record of it. -/
theorem processUpdatePermission_eq_ok {accounts : List AccountInfo}
    {instruction : UpdatePermission} {l l' : Ledger}
    (h : processUpdatePermission accounts instruction l = .ok l') :
    ∃ swap permission target signer rest,
      accounts = swap :: permission :: target :: signer :: rest ∧
      signer.isSigner = true ∧ l.Permits swap.key signer.key Permission.isSuperAdmin ∧
      ∃ p : Permission, p.swap = swap.key ∧
        Reflagged l l' target.key p instruction.isSuperAdmin instruction.canUpdateParameters := by
  simp only [processUpdatePermission, Outcome.bind_eq_ok, Prod.exists, nextAccountInfo_eq_ok,
    Outcome.rejectIf_eq_ok, not_not, exists_const, Bool.not_eq_false,
    Permission.validateSuperAdminPermission, unpackPermission_eq_ok, Outcome.pure_eq,
    Outcome.ok.injEq] at h
  obtain ⟨swap, _, rfl, permission, _, rfl, target, _, rfl, signer, _, rfl, -, hsigner, howner, p,
    ⟨haddress, hstored, hswap, hauthority⟩, hadmin, old, hold, hpool, data, hpack, rfl⟩ := h
  rw [haddress] at hstored
  obtain ⟨-, rfl⟩ := packInto_eq_ok.mp hpack
  exact ⟨swap, permission, target, signer, _, rfl, hsigner,
    ⟨p, hstored, hswap, hauthority, hadmin⟩, old, hpool, ⟨howner, hold⟩, .write _ howner⟩

end Processors

end SolanaPsm
