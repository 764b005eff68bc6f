import SolanaPsm.State

/-!
# Accounts and called programs

The world of the program: a ledger of accounts, the accounts an instruction lists, and
the programs it calls. Addresses, the token program's layouts, rent and the calls are
outside the repository, so they are parameters. `Solana` bundles them with what the
runtime guarantees:

* other programs cannot write an account this program owns, and can only hand over
  accounts full of zeros (`Ledger.Foreign`);
* the system program creates, sizes and assigns only accounts it owns.
-/

namespace SolanaPsm

/-! ## The ledger -/

/-- The address of this program. It owns the pools and the permission records. -/
def ID : Pubkey := 0xd636b8c9829f373da07b1fc204c257f70f4a53a4599252c5a9cee195f772bf05#256

/-- The system program. It owns every account that no program has been given yet. -/
def SYSTEM_PROGRAM_ID : Pubkey := 0#256

/-- The token program, the first of the two that the program calls. -/
def SPL_TOKEN_ID : Pubkey :=
  0xa900ff7e85f58c3a91375b5fed85b41cac79ebce46e1cbd993a165d7e1f6dd06#256

/-- The token program with extensions, the second of the two. -/
def SPL_TOKEN_2022_ID : Pubkey :=
  0xfc8ba1d828f9bdfe270db9834dfc1ab6dacd6ce4bc5d4218de8f75eee1f6dd06#256

/-- An account: lamports and bytes at an address. Only the program that owns it may change the
bytes; anyone may add lamports. -/
@[ext] structure Account : Type where
  /-- the program that may write it -/
  owner : Pubkey
  /-- its balance -/
  lamports : U64
  /-- its bytes -/
  data : Bytes
  deriving DecidableEq, Repr

/-- All accounts, by address. An address that nobody uses is an empty account of the system program.
-/
abbrev Ledger : Type := Pubkey → Account

/-- All bytes are zero. This is how accounts look that nobody has written to, and the program takes
such an account for one that is not in use. -/
def Zeroed (data : Bytes) : Prop := ∀ b ∈ data, b = 0

instance (data : Bytes) : Decidable (Zeroed data) := inferInstanceAs (Decidable (∀ b ∈ data, b = 0))

namespace Ledger

variable {l l' l'' : Ledger}

/-- Replace the data of an account. This is how the program stores a pool or a record: neither the
owner nor the lamports change. -/
def write (l : Ledger) (key : Pubkey) (data : Bytes) : Ledger := fun k =>
  if k = key then { l k with data } else l k

@[simp] theorem write_self (l : Ledger) (key : Pubkey) (data : Bytes) :
    l.write key data key = { l key with data } := if_pos rfl

/-- Other accounts are not touched. -/
theorem write_of_ne {k key : Pubkey} (data : Bytes) (h : k ≠ key) : l.write key data k = l k :=
  if_neg h

@[simp] theorem owner_write (l : Ledger) (k key : Pubkey) (data : Bytes) :
    (l.write key data k).owner = (l k).owner := by
  simp only [write]
  split
  · rfl
  · rfl

/-- Two ledgers agree on the owner and the data of an account. Lamports are left out: anyone can
send some to any account, and nothing that the program decides depends on them but rent. -/
def SameAt (l l' : Ledger) (key : Pubkey) : Prop :=
  (l' key).owner = (l key).owner ∧ (l' key).data = (l key).data

theorem SameAt.refl (l : Ledger) (key : Pubkey) : SameAt l l key := ⟨rfl, rfl⟩

/-- What stays the same twice stays the same. -/
theorem SameAt.trans {key : Pubkey} (h : SameAt l l' key) (h' : SameAt l' l'' key) :
    SameAt l l'' key := ⟨h'.1.trans h.1, h'.2.trans h.2⟩

/-- A write leaves every other account the same. -/
theorem SameAt.write {k key : Pubkey} (data : Bytes) (h : k ≠ key) :
    SameAt l (l.write key data) k := by
  rw [SameAt, write_of_ne data h]
  exact ⟨rfl, rfl⟩

/-- An account is given an owner and data; all others are kept. A write of the program is such a
step, and so are the calls that make an account for it. -/
structure Placed (l l' : Ledger) (key owner : Pubkey) (data : Bytes) : Prop where
  /-- the new owner -/
  owner : (l' key).owner = owner
  /-- the new data -/
  data : (l' key).data = data
  /-- the rest -/
  frame : ∀ {k}, k ≠ key → SameAt l l' k

/-- Of two such steps at one address the second one counts. -/
theorem Placed.trans {key owner owner' : Pubkey} {data data' : Bytes}
    (h : Placed l l' key owner data) (h' : Placed l' l'' key owner' data') :
    Placed l l'' key owner' data' :=
  ⟨h'.owner, h'.data, fun hk => (h.frame hk).trans (h'.frame hk)⟩

/-- Writing an account places the data. -/
theorem Placed.write {key owner : Pubkey} (data : Bytes) (h : (l key).owner = owner) :
    Placed l (l.write key data) key owner data := by
  refine ⟨(owner_write l key key data).trans h, ?_, SameAt.write data⟩
  rw [write_self]

/-- What the program owns is somewhere else than what the system program owned, so a new account
never takes the place of a pool or of a record. -/
theorem ne_of_owned {key k : Pubkey} (hvacant : (l key).owner = SYSTEM_PROGRAM_ID)
    (hk : (l k).owner = ID) : k ≠ key := by
  rintro rfl
  exact absurd (hk.symm.trans hvacant) (by decide)

/-- What other programs can do: the accounts of this program are kept, and an account
that becomes one holds only zeros. -/
structure Foreign (l l' : Ledger) : Prop where
  /-- owned accounts are kept -/
  kept : ∀ {key}, (l key).owner = ID → SameAt l l' key
  /-- new ones are empty of content -/
  fresh : ∀ {key}, (l key).owner ≠ ID → (l' key).owner = ID → Zeroed (l' key).data

theorem Foreign.refl (l : Ledger) : Foreign l l := ⟨fun _ => .refl l _, fun hkey h => absurd h hkey⟩

/-- Other programs may act several times. An account that becomes one of this program is zeroed when
it does, and kept from then on. -/
theorem Foreign.trans (h : Foreign l l') (h' : Foreign l' l'') : Foreign l l'' := by
  refine ⟨?_, ?_⟩
  · intro key hkey
    have hsame := h.kept hkey
    exact hsame.trans (h'.kept (hsame.1.trans hkey))
  · intro key hkey hkey''
    by_cases hkey' : (l' key).owner = ID
    · rw [(h'.kept hkey').2]
      exact h.fresh hkey hkey'
    · exact h'.fresh hkey' hkey''

end Ledger

/-! ## The accounts of an instruction -/

/-- An account that an instruction lists: where it is, and whether the transaction has the signature
of its key. The bytes are read from the ledger. -/
structure AccountInfo : Type where
  /-- its address -/
  key : Pubkey
  /-- its owner signed the transaction -/
  isSigner : Bool
  deriving DecidableEq, Repr

/-- Take the next account off the list. A list that ends too early is an error that the caller can
see. -/
def nextAccountInfo (accounts : List AccountInfo) :
    Outcome ProgramError (AccountInfo × List AccountInfo) :=
  match accounts with
  | [] => .err .notEnoughAccountKeys
  | info :: rest => .ok (info, rest)

@[simp] theorem nextAccountInfo_eq_ok {accounts rest : List AccountInfo} {info : AccountInfo} :
    nextAccountInfo accounts = .ok (info, rest) ↔ accounts = info :: rest := by
  cases accounts with
  | nil => simp [nextAccountInfo]
  | cons info rest => simp [nextAccountInfo]

/-- Inversion for a step that reads the next account. A processor that succeeds found every account
it asked for, in the order of its list. -/
theorem nextAccountInfo_bind_eq_ok {β : Type} {accounts : List AccountInfo}
    {f : AccountInfo × List AccountInfo → Outcome ProgramError β} {b : β} :
    (nextAccountInfo accounts >>= f) = .ok b ↔
      ∃ info rest, accounts = info :: rest ∧ f (info, rest) = .ok b := by
  simp only [Outcome.bind_eq_ok, Prod.exists, nextAccountInfo_eq_ok]

/-- A list that is too short is refused without an abort. -/
theorem noPanic_nextAccountInfo (accounts : List AccountInfo) :
    (nextAccountInfo accounts).NoPanic := by
  cases accounts with
  | nil => exact Outcome.noPanic_err _
  | cons info rest => exact Outcome.noPanic_ok _

/-- The addresses that signed, among those an instruction lists. The calls of the program pass these
signatures on. -/
def signersOf (accounts : List AccountInfo) : List Pubkey :=
  (accounts.filter (·.isSigner)).map (·.key)

/-- The clock of the block, of which only the time is read. -/
structure Clock : Type where
  /-- seconds, signed -/
  unixTimestamp : BitVec 64
  deriving DecidableEq, Repr

/-- `unix_timestamp as u128`: the sign is extended, so a time before the epoch becomes a very late
one. -/
def Clock.timestamp (clock : Clock) : U128 := clock.unixTimestamp.signExtend 128

/-! ## Called programs -/

/-- Whether an account of the token program can move tokens. -/
inductive AccountState : Type where
  | uninitialized
  | initialized
  | frozen
  deriving DecidableEq, Repr

/-- The base state of a token account. A delegate may move some of the tokens, and a close authority
may close the account, so a reserve is to have neither. -/
structure TokenAccount : Type where
  /-- the mint of its tokens -/
  mint : Pubkey
  /-- who may move them -/
  owner : Pubkey
  /-- how many it holds -/
  amount : U64
  /-- who else may move some -/
  delegate : Option Pubkey
  /-- its state -/
  state : AccountState
  /-- who may close it -/
  closeAuthority : Option Pubkey
  deriving DecidableEq, Repr

/-- The base state of a mint. Its authority alone can raise the supply. -/
structure Mint : Type where
  /-- who may mint -/
  mintAuthority : Option Pubkey
  /-- tokens in existence -/
  supply : U64
  /-- decimal places -/
  decimals : UInt8
  /-- who may freeze accounts -/
  freezeAuthority : Option Pubkey
  deriving DecidableEq, Repr

/-- Extensions of a mint; the program names four of them. -/
inductive ExtensionType : Type where
  | confidentialTransferMint
  | mintCloseAuthority
  | metadataPointer
  | tokenMetadata
  | other (code : ℕ)
  deriving DecidableEq, Repr

/-- The calls the program makes to the token program and to the system program. -/
inductive Call : Type where
  | transferChecked (tokenProgram source mint destination authority : Pubkey) (amount : U64)
    (decimals : UInt8)
  | mintTo (tokenProgram mint destination authority : Pubkey) (amount : U64)
  | burn (tokenProgram account mint authority : Pubkey) (amount : U64)
  | createAccount (payer account : Pubkey) (lamports : U64) (space : ℕ) (owner : Pubkey)
  | transfer (payer account : Pubkey) (lamports : U64)
  | allocate (account : Pubkey) (space : ℕ)
  | assign (account owner : Pubkey)
  deriving DecidableEq, Repr

/-- The call goes to a token program. The others go to the system program. -/
def Call.IsToken : Call → Prop
  | transferChecked .. | mintTo .. | burn .. => True
  | createAccount .. | transfer .. | allocate .. | assign .. => False

/-- The accounts that the instruction of a call lists as writable. The token programs may write
what holds the tokens and, where the supply changes, the mint; the authority only signs. -/
def Call.writes : Call → List Pubkey
  | transferChecked _ source _ destination _ _ _ => [source, destination]
  | mintTo _ mint destination _ _ => [mint, destination]
  | burn _ account mint _ _ => [account, mint]
  | createAccount payer account _ _ _ => [payer, account]
  | transfer payer account _ => [payer, account]
  | allocate account _ => [account]
  | assign account _ => [account]

/-- The runtime and the programs that are called, with what the runtime guarantees. -/
class Solana where
  /-- `Pubkey::find_program_address` -/
  findProgramAddress : List Bytes → Pubkey → Pubkey × UInt8
  /-- `Pubkey::create_program_address` -/
  createProgramAddress : List Bytes → Pubkey → Option Pubkey
  /-- `StateWithExtensions::<Account>::unpack`, the base state -/
  unpackAccount : Bytes → Option TokenAccount
  /-- `StateWithExtensions::<Mint>::unpack`, the base state -/
  unpackMint : Bytes → Option Mint
  /-- `get_extension_types` of a mint -/
  extensionTypes : Bytes → Outcome ProgramError (List ExtensionType)
  /-- `Rent::minimum_balance` -/
  minimumBalance : ℕ → U64
  /-- `invoke_signed`: the call, who signed the instruction, the seeds of program addresses -/
  invoke : Call → List Pubkey → List (List Bytes) → Ledger → Outcome ProgramError Ledger
  /-- the token program is another program -/
  foreign_of_token : ∀ {call signers seeds l l'}, call.IsToken →
    invoke call signers seeds l = .ok l' → l.Foreign l'
  /-- an account is created only where none is in use -/
  created : ∀ {payer account lamports space owner signers seeds l l'},
    invoke (.createAccount payer account lamports space owner) signers seeds l = .ok l' →
      (l account).owner = SYSTEM_PROGRAM_ID ∧
        Ledger.Placed l l' account owner (List.replicate space 0)
  /-- a transfer moves lamports only -/
  transferred : ∀ {payer account lamports signers seeds l l'},
    invoke (.transfer payer account lamports) signers seeds l = .ok l' →
      ∀ k, Ledger.SameAt l l' k
  /-- an account without data is given zeroed data -/
  allocated : ∀ {account space signers seeds l l'},
    invoke (.allocate account space) signers seeds l = .ok l' →
      (l account).owner = SYSTEM_PROGRAM_ID ∧
        Ledger.Placed l l' account SYSTEM_PROGRAM_ID (List.replicate space 0)
  /-- an account is handed over with its data -/
  assigned : ∀ {account owner signers seeds l l'},
    invoke (.assign account owner) signers seeds l = .ok l' →
      Ledger.Placed l l' account owner (l account).data

/-- `check_spl_token_program_account`: the address is one of the two token programs. Nothing else is
ever called with the signature of a pool. -/
def checkSplTokenProgramAccount (tokenProgram : Pubkey) : Outcome ProgramError Unit :=
  Outcome.rejectIf (tokenProgram ≠ SPL_TOKEN_2022_ID ∧ tokenProgram ≠ SPL_TOKEN_ID)
    ProgramError.incorrectProgramId

section Calls

variable [Solana]

/-- Issue a call to a token program, on behalf of an authority of the program's own. -/
def invokeToken (tokenProgram : Pubkey) (call : Call) (signers : List Pubkey)
    (seeds : List (List Bytes)) (ledger : Ledger) : Outcome ProgramError Ledger := do
  checkSplTokenProgramAccount tokenProgram
  Solana.invoke call signers seeds ledger

/-- The seeds of the authority of a pool: its address and a bump seed. With these the program signs
for the authority, and for no other address. -/
def authoritySeeds (swap : Pubkey) (bumpSeed : UInt8) : List (List Bytes) :=
  [[Bytes.toLE 32 swap, [bumpSeed]]]

/-- Issue a `Burn` instruction. Pool tokens leave an account and the supply. -/
def tokenBurn (swap tokenProgram burnAccount mint authority : Pubkey) (bumpSeed : UInt8)
    (amount : U64) (signers : List Pubkey) : Ledger → Outcome ProgramError Ledger :=
  invokeToken tokenProgram (.burn tokenProgram burnAccount mint authority amount) signers
    (authoritySeeds swap bumpSeed)

/-- Issue a `MintTo` instruction. Only the authority of the mint may sign it, which for pool tokens
is the pool. -/
def tokenMintTo (swap tokenProgram mint destination authority : Pubkey) (bumpSeed : UInt8)
    (amount : U64) (signers : List Pubkey) : Ledger → Outcome ProgramError Ledger :=
  invokeToken tokenProgram (.mintTo tokenProgram mint destination authority amount) signers
    (authoritySeeds swap bumpSeed)

/-- Issue a `TransferChecked` instruction. The mint and its decimals are part of the call, so tokens
of another mint are refused. -/
def tokenTransfer (swap tokenProgram source mint destination authority : Pubkey)
    (bumpSeed : UInt8) (amount : U64) (decimals : UInt8) (signers : List Pubkey) :
    Ledger → Outcome ProgramError Ledger :=
  invokeToken tokenProgram
    (.transferChecked tokenProgram source mint destination authority amount decimals) signers
    (authoritySeeds swap bumpSeed)

/-- Calls to the token programs leave the accounts of this program alone. -/
theorem foreign_of_invokeToken {tokenProgram : Pubkey} {call : Call} {signers : List Pubkey}
    {seeds : List (List Bytes)} {l l' : Ledger} (hcall : call.IsToken)
    (h : invokeToken tokenProgram call signers seeds l = .ok l') : l.Foreign l' := by
  obtain ⟨_, -, h⟩ := Outcome.bind_eq_ok.mp h
  exact Solana.foreign_of_token hcall h

section Foreign

variable {swap tokenProgram source mint destination authority : Pubkey} {bumpSeed : UInt8}
  {amount : U64} {decimals : UInt8} {signers : List Pubkey} {l l' : Ledger}

theorem foreign_of_tokenBurn
    (h : tokenBurn swap tokenProgram source mint authority bumpSeed amount signers l = .ok l') :
    l.Foreign l' :=
  foreign_of_invokeToken (by exact trivial) h

theorem foreign_of_tokenMintTo
    (h : tokenMintTo swap tokenProgram mint destination authority bumpSeed amount signers l =
      .ok l') : l.Foreign l' :=
  foreign_of_invokeToken (by exact trivial) h

theorem foreign_of_tokenTransfer
    (h : tokenTransfer swap tokenProgram source mint destination authority bumpSeed amount decimals
      signers l = .ok l') : l.Foreign l' :=
  foreign_of_invokeToken (by exact trivial) h

end Foreign

end Calls

end SolanaPsm
