import SolanaPsm.Program

/-!
# A concrete runtime

`Solana.reference` is a runtime with the guarantees of `Solana`: the layouts of the token
program, rent, and the two calls an Initialize makes. Program addresses are hashes; the
reference runtime knows those of one pool.

`World` is a ledger in which that pool can be initialized.
-/

namespace SolanaPsm

open Bytes (toLE ofLE slice)

namespace Solana.Reference

/-! ## Layouts of the token program -/

/-- An optional key: a tag of four bytes, then the key. -/
def unpackOptionKey (input : Bytes) : Option (Option Pubkey) :=
  if slice 0 4 input = [0, 0, 0, 0] then some none
  else if slice 0 4 input = [1, 0, 0, 0] then some (some (ofLE 32 (slice 4 32 input)))
  else none

/-- The state of a token account. -/
def unpackState (input : Bytes) : Option AccountState :=
  if input = [1] then some .initialized
  else if input = [2] then some .frozen
  else none

/-- A token account without extensions; it must be initialized. -/
def unpackAccount (input : Bytes) : Option TokenAccount :=
  if input.length = 165 then do
    let delegate ← unpackOptionKey (slice 72 36 input)
    let state ← unpackState (slice 108 1 input)
    let closeAuthority ← unpackOptionKey (slice 129 36 input)
    return {
      mint := ofLE 32 (slice 0 32 input)
      owner := ofLE 32 (slice 32 32 input)
      amount := ofLE 8 (slice 64 8 input)
      delegate, state, closeAuthority }
  else none

/-- A mint without extensions; it must be initialized. -/
def unpackMint (input : Bytes) : Option Mint :=
  if input.length = 82 ∧ slice 45 1 input = [1] then do
    let mintAuthority ← unpackOptionKey (slice 0 36 input)
    let freezeAuthority ← unpackOptionKey (slice 46 36 input)
    return {
      mintAuthority
      supply := ofLE 8 (slice 36 8 input)
      decimals := (slice 44 1 input).headD 0
      freezeAuthority }
  else none

/-! ## Calls -/

/-- Add to the amount at an offset. -/
def addAmount (offset : ℕ) (amount : U64) (data : Bytes) : Bytes :=
  data.take offset ++ toLE 8 (ofLE 8 (slice offset 8 data) + amount) ++ data.drop (offset + 8)

/-- Minting adds to the supply and to the destination, both accounts of the token program. -/
def mintTo (tokenProgram mint destination : Pubkey) (amount : U64) (ledger : Ledger) :
    Outcome ProgramError Ledger :=
  if tokenProgram = SPL_TOKEN_ID ∧ (ledger mint).owner = SPL_TOKEN_ID ∧
      (ledger destination).owner = SPL_TOKEN_ID then
    let minted := ledger.write mint (addAmount 36 amount (ledger mint).data)
    .ok (minted.write destination (addAmount 64 amount (minted destination).data))
  else .err (.external 0)

/-- An account is created where none is in use; the payer pays for it. -/
def createAccount (payer account : Pubkey) (lamports : U64) (space : ℕ) (owner : Pubkey)
    (ledger : Ledger) : Outcome ProgramError Ledger :=
  if (ledger account).owner = SYSTEM_PROGRAM_ID ∧ (ledger account).lamports = 0#64 ∧
      (ledger account).data = [] ∧ lamports ≤ (ledger payer).lamports then
    .ok fun key =>
      if key = account then ⟨owner, lamports, List.replicate space 0⟩
      else if key = payer then { ledger key with lamports := (ledger key).lamports - lamports }
      else ledger key
  else .err (.external 0)

/-- The calls an Initialize makes; this runtime refuses any other. -/
def invoke (call : Call) (_signers : List Pubkey) (_seeds : List (List Bytes)) (ledger : Ledger) :
    Outcome ProgramError Ledger :=
  match call with
  | .mintTo tokenProgram mint destination _ amount =>
    mintTo tokenProgram mint destination amount ledger
  | .createAccount payer account lamports space owner =>
    createAccount payer account lamports space owner ledger
  | .transferChecked .. | .burn .. | .transfer .. | .allocate .. | .assign .. => .err (.external 0)

/-- Minting is the business of the token program. -/
theorem mintTo_foreign {tokenProgram mint destination : Pubkey} {amount : U64} {l l' : Ledger}
    (h : mintTo tokenProgram mint destination amount l = .ok l') : l.Foreign l' := by
  simp only [mintTo] at h
  split at h
  · rename_i hcond
    obtain ⟨-, hmint, hdestination⟩ := hcond
    obtain rfl := Outcome.ok.inj h
    refine ⟨?_, ?_⟩
    · intro key hkey
      have hne : SPL_TOKEN_ID ≠ ID := by decide
      have hmint' : key ≠ mint := by
        rintro rfl
        exact hne (hmint.symm.trans hkey)
      have hdestination' : key ≠ destination := by
        rintro rfl
        exact hne (hdestination.symm.trans hkey)
      exact (Ledger.SameAt.write _ hmint').trans (Ledger.SameAt.write _ hdestination')
    · intro key hkey hkey'
      rw [Ledger.owner_write, Ledger.owner_write] at hkey'
      exact absurd hkey' hkey
  · cases h

/-- A created account is placed. -/
theorem createAccount_placed {payer account : Pubkey} {lamports : U64} {space : ℕ}
    {owner : Pubkey} {l l' : Ledger}
    (h : createAccount payer account lamports space owner l = .ok l') :
    (l account).owner = SYSTEM_PROGRAM_ID ∧
      l.Placed l' account owner (List.replicate space 0) := by
  simp only [createAccount] at h
  split at h
  · rename_i hcond
    obtain rfl := Outcome.ok.inj h
    refine ⟨hcond.1, ?_, ?_, ?_⟩
    · rw [if_pos rfl]
    · rw [if_pos rfl]
    · intro key hkey
      rw [Ledger.SameAt, if_neg hkey]
      split
      · exact ⟨rfl, rfl⟩
      · exact ⟨rfl, rfl⟩
  · cases h

/-- Only the payer and the account are written. -/
theorem createAccount_frame {payer account key : Pubkey} {lamports : U64} {space : ℕ}
    {owner : Pubkey} {l l' : Ledger}
    (h : createAccount payer account lamports space owner l = .ok l')
    (hkey : key ∉ [payer, account]) : l' key = l key := by
  simp only [List.mem_cons, List.not_mem_nil, or_false, not_or] at hkey
  simp only [createAccount] at h
  split at h
  · obtain rfl := Outcome.ok.inj h
    exact (if_neg hkey.2).trans (if_neg hkey.1)
  · cases h

/-! ## The runtime -/

/-- The program addresses of the pool at address 1 with the super admin at address 2. -/
def programAddresses : List (List Bytes × Pubkey × UInt8) :=
  [ ([toLE 32 1#256],
      0x30c241159d82e7759e1cd126defd20b26d57ffbf1ee90fb855a216c32e964b44#256, 253),
    ([INIT_DESTINATION_SEED, toLE 32 1#256],
      0x955b2c412ed3e461c5a0c516933b8ce6a8477c1e3c646a861090aa76d3b5bc98#256, 255),
    ([PERMISSION_SEED, toLE 32 1#256, toLE 32 2#256],
      0x35c801243c36b44979925ae3f272fd2a9b8788665bad326fc2cb28b9038c9ab4#256, 252) ]

/-- The address of known seeds. -/
def findProgramAddress (seeds : List Bytes) : Pubkey × UInt8 :=
  (programAddresses.lookup seeds).getD (0#256, 0)

/-- The address of known seeds with their bump seed. -/
def createProgramAddress (seeds : List Bytes) : Option Pubkey :=
  programAddresses.findSome? fun (known, address, bumpSeed) =>
    if known ++ [[bumpSeed]] = seeds then some address else none

end Solana.Reference

/-- The reference runtime. -/
@[reducible] def Solana.reference : Solana where
  findProgramAddress seeds _ := Reference.findProgramAddress seeds
  createProgramAddress seeds _ := Reference.createProgramAddress seeds
  unpackAccount := Reference.unpackAccount
  unpackMint := Reference.unpackMint
  extensionTypes _ := .ok []
  minimumBalance space := BitVec.ofNat 64 ((space + 128) * 6960)
  invoke := Reference.invoke
  foreign_of_token := by
    intro call signers seeds l l' hcall h
    cases call with
    | mintTo tokenProgram mint destination authority amount => exact Reference.mintTo_foreign h
    | transferChecked | burn => cases h
    | createAccount | transfer | allocate | assign => exact hcall.elim
  created h := Reference.createAccount_placed h
  transferred h := by cases h
  allocated h := by cases h
  assigned h := by cases h

/-! ## A ledger -/

namespace World

/-- The account of the pool. -/
def swap : Pubkey := 1#256

/-- The super admin. -/
def superAdmin : Pubkey := 2#256

/-- The authority of the pool. -/
def authority : Pubkey := (Solana.Reference.findProgramAddress [toLE 32 swap]).1

/-- The address of the record of the super admin. -/
def permission : Pubkey :=
  (Solana.Reference.findProgramAddress [PERMISSION_SEED, toLE 32 swap, toLE 32 superAdmin]).1

/-- The owner of the initial supply. -/
def initDestination : Pubkey :=
  (Solana.Reference.findProgramAddress [INIT_DESTINATION_SEED, toLE 32 swap]).1

/-- A token account. -/
def tokenAccount (mint owner : Pubkey) (amount : U64) : Account where
  owner := SPL_TOKEN_ID
  lamports := 2039280#64
  data := toLE 32 mint ++ toLE 32 owner ++ toLE 8 amount ++ List.replicate 36 0 ++ [1] ++
    List.replicate 56 0

/-- A mint of six decimals. -/
def mint (mintAuthority : Pubkey) : Account where
  owner := SPL_TOKEN_ID
  lamports := 1461600#64
  data := [1, 0, 0, 0] ++ toLE 32 mintAuthority ++ toLE 8 0#64 ++ [6] ++ [1] ++
    List.replicate 36 0

/-- The accounts in use: a pool account full of zeros, two reserves of a million units, the
fee account and the destination of pool tokens, three mints, and a payer. -/
def accounts : List (Pubkey × Account) :=
  [ (swap, ⟨ID, 3368640#64, List.replicate 356 0⟩),
    (3#256, tokenAccount 6#256 authority 1000000#64),
    (4#256, tokenAccount 7#256 authority 1000000#64),
    (5#256, mint authority),
    (6#256, mint superAdmin),
    (7#256, mint superAdmin),
    (8#256, tokenAccount 5#256 superAdmin 0#64),
    (9#256, tokenAccount 5#256 initDestination 0#64),
    (10#256, ⟨SYSTEM_PROGRAM_ID, 1000000000#64, []⟩) ]

/-- The ledger; any other account is empty. -/
def ledger : Ledger := fun key => (accounts.lookup key).getD ⟨SYSTEM_PROGRAM_ID, 0#64, []⟩

/-- Nothing the program owns in it is in use. -/
theorem zeroed_of_owned {key : Pubkey} (h : (ledger key).owner = ID) :
    Zeroed (ledger key).data := by
  have hall : ∀ entry ∈ accounts, entry.2.owner = ID → Zeroed entry.2.data := by decide +kernel
  rw [ledger] at h ⊢
  cases hlookup : accounts.lookup key with
  | none =>
    rw [hlookup] at h
    exact absurd h (by decide)
  | some account =>
    rw [hlookup] at h
    obtain ⟨before, after, hsplit, -⟩ := List.lookup_eq_some_iff.mp hlookup
    have hmem : (key, account) ∈ accounts := by
      rw [hsplit]
      simp
    exact hall (key, account) hmem h

/-- The accounts of the Initialize after the pool itself. -/
def initializeRest : List AccountInfo :=
  [ ⟨authority, false⟩, ⟨3#256, false⟩, ⟨4#256, false⟩, ⟨5#256, false⟩, ⟨6#256, false⟩,
    ⟨7#256, false⟩, ⟨8#256, false⟩, ⟨9#256, false⟩, ⟨SPL_TOKEN_ID, false⟩, ⟨permission, false⟩,
    ⟨superAdmin, true⟩, ⟨10#256, true⟩, ⟨SYSTEM_PROGRAM_ID, false⟩ ]

/-- A curve whose rate is zero, since a day in 2023. -/
def curve : RedemptionRateCurve := ⟨0#128, 0#128, 1700000000#128, RAY⟩

/-- An Initialize without fees. -/
def initializeData : Initialize :=
  ⟨⟨0#64, 0#64, 0#64, 0#64, 0#64, 0#64, 0#64, 0#64⟩, .redemptionRate curve⟩

/-- Its input. -/
def initializeInput : Bytes := (SwapInstruction.initializeSwap initializeData).pack

/-- That day. -/
def clock : Clock := ⟨1700000000#64⟩

/-- The Initialize. -/
def initializeEvent : Event := .instruction clock (⟨swap, false⟩ :: initializeRest) initializeInput

/-- A SetRates, a minute later. -/
def setRatesData : SetRates := ⟨RAY, 1700000060#128, RAY⟩

/-- Its input. -/
def setRatesInput : Bytes := (SwapInstruction.setRates setRatesData).pack

/-- That minute. -/
def later : Clock := ⟨1700000060#64⟩

/-- The SetRates, signed by the super admin. -/
def setRatesEvent : Event :=
  .instruction later [⟨swap, false⟩, ⟨permission, false⟩, ⟨superAdmin, true⟩] setRatesInput

/-- One event in the reference runtime. -/
def Step : Ledger → Event → Ledger → Prop :=
  @SolanaPsm.Step Solana.reference SplMath.reference none

/-- The Initialize and the SetRates succeed. -/
theorem steps : ∃ l₁ l₂, Step ledger initializeEvent l₁ ∧ Step l₁ setRatesEvent l₂ := by
  let _ : Solana := Solana.reference
  let _ : SplMath := SplMath.reference
  have hrun : (processWithConstraints none (⟨swap, false⟩ :: initializeRest) initializeInput clock
      ledger >>= fun l₁ => processWithConstraints none
        [⟨swap, false⟩, ⟨permission, false⟩, ⟨superAdmin, true⟩] setRatesInput later l₁).isOk := by
    decide +kernel
  obtain ⟨l₂, hrun⟩ := Outcome.isOk_iff.mp hrun
  obtain ⟨l₁, hinit, hset⟩ := Outcome.bind_eq_ok.mp hrun
  exact ⟨l₁, l₂, hinit, hset⟩

/-- The Initialize is decoded. -/
theorem unpack_initializeInput :
    SwapInstruction.unpack initializeInput = .ok (.initializeSwap initializeData) :=
  SwapInstruction.unpack_pack_initialize rfl

end World

end SolanaPsm
