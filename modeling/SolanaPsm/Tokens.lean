import SolanaPsm.Owned
import Mathlib.Data.Set.Basic

/-!
# The token programs

What the token programs promise about the three calls the program makes. Accounts and mints
are read the way the program reads them (`TokenAt`, `MintAt`).

* `TokenProgram` bundles the promises: a successful call found accounts of the mint it was
  given, and, for a mint whose extensions the program accepts, moved exactly the amount and
  touched nothing else.
* `Guarded` is what remains true of an address that signs for nothing, as far as some mints go:
  its accounts only gain tokens, its mints only lose some, and these mints stay what they are.
  It composes, so it also describes what other programs do.

The calls keep every mint, so they guard all of them at once. Other programs can do more: the
close authority of a mint may close it once nothing is left of it, and a mint with other
extensions may take its place. So runs with other programs name the mints of which this is
assumed not to happen.
-/

namespace SolanaPsm

/-- A token account after a movement of tokens. Only its amount is different; a delegate may
have used up its allowance, but nobody new may move its tokens or close it. -/
structure TokenAccount.Moved (a a' : TokenAccount) : Prop where
  /-- the mint -/
  mint : a'.mint = a.mint
  /-- the owner -/
  owner : a'.owner = a.owner
  /-- nobody new may move tokens -/
  delegate : a.delegate = none → a'.delegate = none
  /-- nobody new may close it -/
  closeAuthority : a.closeAuthority = none → a'.closeAuthority = none

/-- A mint after a movement of tokens. Only its supply is different. -/
structure Mint.Moved (m m' : Mint) : Prop where
  /-- who may mint -/
  mintAuthority : m'.mintAuthority = m.mintAuthority
  /-- decimal places -/
  decimals : m'.decimals = m.decimals

namespace TokenAccount

/-- An account that nothing happens to counts as moved. -/
theorem Moved.refl (a : TokenAccount) : a.Moved a := ⟨rfl, rfl, id, id⟩

/-- Movements of one account after another make up one. -/
theorem Moved.trans {a b c : TokenAccount} (h : a.Moved b) (h' : b.Moved c) : a.Moved c where
  mint := h'.mint.trans h.mint
  owner := h'.owner.trans h.owner
  delegate hnone := h'.delegate (h.delegate hnone)
  closeAuthority hnone := h'.closeAuthority (h.closeAuthority hnone)

end TokenAccount

namespace Mint

/-- So does a mint. -/
theorem Moved.refl (m : Mint) : m.Moved m := ⟨rfl, rfl⟩

/-- And so do movements of one mint. -/
theorem Moved.trans {m n k : Mint} (h : m.Moved n) (h' : n.Moved k) : m.Moved k :=
  ⟨h'.mintAuthority.trans h.mintAuthority, h'.decimals.trans h.decimals⟩

end Mint

/-! ## Special addresses -/

/-- The incinerator: tokens sent to its accounts are meant to be destroyed. -/
def INCINERATOR_ID : Pubkey :=
  0x00e13800e1a69cf7cccd2e4dd4db00ffbf11c9bd796011348d72903300#256

/-- The mints of wrapped lamports, one for each token program. -/
def NATIVE_MINT_IDS : List Pubkey :=
  [ 0x0100000000f0a098553beb1adc39c4da35c01846637f68fb8481abfe57889b06#256,
    0x505b3e5cd849dfc919fa90ad4a26bbc68a1ee976a4047caab8e65fde9ffc0d83#256 ]

/-- An address whose tokens are nobody's. The token programs let anyone burn the tokens of
accounts that the system program or the incinerator owns, so such an account can lose tokens
without a signature. -/
def Ownerless (address : Pubkey) : Prop := address = SYSTEM_PROGRAM_ID ∨ address = INCINERATOR_ID

instance (address : Pubkey) : Decidable (Ownerless address) :=
  inferInstanceAs (Decidable (_ ∨ _))

/-! ## Between the calls -/

namespace Ledger

variable {l l' l'' : Ledger}

/-- Nothing happens to the accounts of the token programs, and no account becomes one of them.
The program writes its own accounts between two such ledgers. -/
def TokensKept (l l' : Ledger) : Prop :=
  ∀ key, (checkSplTokenProgramAccount (l key).owner).isOk = true ∨
    (checkSplTokenProgramAccount (l' key).owner).isOk = true → l.SameAt l' key

/-- Nothing happens to any account. -/
theorem TokensKept.refl (l : Ledger) : l.TokensKept l := fun key _ => .refl l key

/-- Writes of the program one after another. -/
theorem TokensKept.trans (h : l.TokensKept l') (h' : l'.TokensKept l'') : l.TokensKept l'' := by
  rintro key (hkey | hkey)
  · have hsame := h key (.inl hkey)
    exact hsame.trans (h' key (.inl (hsame.1 ▸ hkey)))
  · have hsame := h' key (.inr hkey)
    exact .trans (h key (.inr (hsame.1 ▸ hkey))) hsame

/-- An account of another program is given to another program, with whatever data. -/
theorem TokensKept.of_placed {target owner : Pubkey} {data : Bytes}
    (h : l.Placed l' target owner data)
    (htarget : (checkSplTokenProgramAccount (l target).owner).isOk = false)
    (howner : (checkSplTokenProgramAccount owner).isOk = false) : l.TokensKept l' := by
  intro key hkey
  refine h.frame ?_
  rintro rfl
  rw [htarget, h.owner, howner] at hkey
  simp at hkey

end Ledger

section Tokens

variable [Solana]

namespace Ledger

variable {l l' l'' : Ledger} {key : Pubkey}

/-! ## Accounts and mints -/

/-- A token account, as the program reads it: one of the token programs owns it, and its data
has the base state of an account. -/
def TokenAt (l : Ledger) (key : Pubkey) (a : TokenAccount) : Prop :=
  unpackTokenAccount key none l = .ok a

/-- A mint, as the program reads it: one of the token programs owns it, and its data has the base
state of a mint. -/
def MintAt (l : Ledger) (key : Pubkey) (m : Mint) : Prop := unpackMint key l = .ok m

/-- A mint whose extensions the program accepts, for a pool mint or for one of the reserves. No
such extension lets anyone move tokens of others, so these are the mints about whose accounts
anything can be promised. -/
def PlainMint (l : Ledger) (isPoolMint : Bool) (key : Pubkey) : Prop :=
  (∃ m, l.MintAt key m) ∧ validateMintExtensions (l key).data isPoolMint = .ok ()

/-- There is one account at an address. -/
theorem TokenAt.unique {a a' : TokenAccount} (h : l.TokenAt key a) (h' : l.TokenAt key a') :
    a = a' := Outcome.ok.inj (h.symm.trans h')

/-- And one mint. -/
theorem MintAt.unique {m m' : Mint} (h : l.MintAt key m) (h' : l.MintAt key m') : m = m' :=
  Outcome.ok.inj (h.symm.trans h')

/-- Reading an account for a mint is reading it and comparing its mint. -/
theorem unpackTokenAccount_eq_ok {mint : Pubkey} {a : TokenAccount} :
    unpackTokenAccount key (some mint) l = .ok a ↔ l.TokenAt key a ∧ a.mint = mint := by
  simp only [TokenAt, unpackTokenAccount, Outcome.bind_eq_ok, Outcome.rejectIf_eq_ok,
    Outcome.ofOption_eq_ok, exists_const, Outcome.pure_eq, Outcome.ok.injEq, not_not, true_and]
  refine ⟨?_, ?_⟩
  · rintro ⟨hprogram, a, ha, hmint, rfl⟩
    exact ⟨⟨hprogram, a, ha, rfl⟩, hmint⟩
  · rintro ⟨⟨hprogram, a, ha, rfl⟩, hmint⟩
    exact ⟨hprogram, a, ha, hmint, rfl⟩

/-- An account of tokens belongs to a token program, so it is neither a pool nor a record. -/
theorem TokenAt.program {a : TokenAccount} (h : l.TokenAt key a) :
    (checkSplTokenProgramAccount (l key).owner).isOk = true := by
  obtain ⟨_, hprogram, -⟩ := Outcome.bind_eq_ok.mp h
  rwa [Outcome.rejectIf_eq_ok, Bool.not_eq_false] at hprogram

/-- So does a mint. -/
theorem MintAt.program {m : Mint} (h : l.MintAt key m) :
    (checkSplTokenProgramAccount (l key).owner).isOk = true := by
  obtain ⟨_, hprogram, -⟩ := Outcome.bind_eq_ok.mp h
  rwa [Outcome.rejectIf_eq_ok, Bool.not_eq_false] at hprogram

/-- What is read from an account depends on its owner and its data only. -/
theorem TokenAt.sameAt {a : TokenAccount} (h : l.TokenAt key a) (hsame : l.SameAt l' key) :
    l'.TokenAt key a := by
  rw [TokenAt, unpackTokenAccount, hsame.1, hsame.2]
  exact h

/-- The same goes for a mint. -/
theorem MintAt.sameAt {m : Mint} (h : l.MintAt key m) (hsame : l.SameAt l' key) :
    l'.MintAt key m := by
  rw [MintAt, unpackMint, hsame.1, hsame.2]
  exact h

/-- And for what is accepted of its extensions, which are part of its data. -/
theorem PlainMint.sameAt {isPoolMint : Bool} (h : l.PlainMint isPoolMint key)
    (hsame : l.SameAt l' key) : l'.PlainMint isPoolMint key := by
  obtain ⟨⟨m, hm⟩, hextensions⟩ := h
  rw [← hsame.2] at hextensions
  exact ⟨⟨m, hm.sameAt hsame⟩, hextensions⟩

/-- What is accepted for a pool mint is accepted for a mint of the reserves. -/
theorem PlainMint.of_pool (h : l.PlainMint true key) : l.PlainMint false key := by
  obtain ⟨hm, hextensions⟩ := h
  refine ⟨hm, ?_⟩
  simp only [validateMintExtensions, Outcome.bind_eq_ok, Outcome.rejectIf_eq_ok] at hextensions ⊢
  obtain ⟨extensions, hread, hvalid⟩ := hextensions
  refine ⟨extensions, hread, ?_⟩
  rintro ⟨e, he, hnot⟩
  refine hvalid ⟨e, he, fun hmem => hnot ?_⟩
  have hsub : ∀ e ∈ VALID_POOL_MINT_EXTENSIONS, e ∈ VALID_TOKEN_A_B_EXTENSIONS := by decide
  exact hsub e hmem

/-! ## Movements -/

/-- An account after its amount changed, and nothing about who may move it. -/
def AmountMoved (l' : Ledger) (key : Pubkey) (a : TokenAccount) (amount : ℕ) : Prop :=
  ∃ a', l'.TokenAt key a' ∧ a.Moved a' ∧ a'.amount.toNat = amount

/-- A mint after its supply changed, and nothing about who may mint. -/
def SupplyMoved (l l' : Ledger) (key : Pubkey) (m : Mint) (supply : ℕ) : Prop :=
  (∃ m', l'.MintAt key m' ∧ m.Moved m' ∧ m'.supply.toNat = supply) ∧
    ∀ isPoolMint, l.PlainMint isPoolMint key → l'.PlainMint isPoolMint key

/-- An amount moves from one account to another. A transfer from an account to itself checks that
the amount is there, and changes nothing. -/
structure Transferred (l l' : Ledger) (source destination : Pubkey) (amount : U64)
    (a b : TokenAccount) : Prop where
  /-- it is there -/
  enough : amount.toNat ≤ a.amount.toNat
  /-- it leaves the source -/
  leaves : source ≠ destination → l'.AmountMoved source a (a.amount.toNat - amount.toNat)
  /-- it arrives at the destination -/
  arrives : source ≠ destination → l'.AmountMoved destination b (b.amount.toNat + amount.toNat)
  /-- the rest is kept -/
  frame : ∀ {key}, (key ≠ source ∧ key ≠ destination) ∨ source = destination → l.SameAt l' key

/-- Tokens come into existence: the supply and the account they arrive at grow by them. -/
structure Minted (l l' : Ledger) (mint destination : Pubkey) (amount : U64) (m : Mint)
    (b : TokenAccount) : Prop where
  /-- they are part of the supply -/
  supply : l.SupplyMoved l' mint m (m.supply.toNat + amount.toNat)
  /-- they arrive at the destination -/
  arrives : l'.AmountMoved destination b (b.amount.toNat + amount.toNat)
  /-- the rest is kept -/
  frame : ∀ {key}, key ≠ mint → key ≠ destination → l.SameAt l' key

/-- Tokens are destroyed: the account and the supply lose them. -/
structure Burned (l l' : Ledger) (account mint : Pubkey) (amount : U64) (a : TokenAccount)
    (m : Mint) : Prop where
  /-- they are there -/
  enough : amount.toNat ≤ a.amount.toNat
  /-- the supply counts them -/
  covered : amount.toNat ≤ m.supply.toNat
  /-- they leave the account -/
  leaves : l'.AmountMoved account a (a.amount.toNat - amount.toNat)
  /-- they leave the supply -/
  supply : l.SupplyMoved l' mint m (m.supply.toNat - amount.toNat)
  /-- the rest is kept -/
  frame : ∀ {key}, key ≠ account → key ≠ mint → l.SameAt l' key

/-! ## What is out of reach without a signature -/

/-- What can happen without the signature of an address, to it and to some mints.

Take an account of the address that nobody else may move or close: it has no delegate, and it
has no close authority, or a balance of a mint other than wrapped lamports. When it is of one of
the mints, and the extensions of this mint are accepted, it keeps its tokens. When the address
is the authority of one of the mints, nobody mints for it. And the mints themselves are neither
closed nor replaced, so what was accepted stays accepted. Nothing is said about other mints. -/
structure Guarded (mints : Set Pubkey) (l l' : Ledger) (address : Pubkey) : Prop where
  /-- its accounts only gain -/
  account : ∀ {key a}, l.TokenAt key a → a.mint ∈ mints → l.PlainMint false a.mint →
    a.owner = address → a.delegate = none →
    (a.closeAuthority = none ∨ 0 < a.amount.toNat ∧ a.mint ∉ NATIVE_MINT_IDS) →
    ∃ a', l'.TokenAt key a' ∧ a.Moved a' ∧ a.amount.toNat ≤ a'.amount.toNat
  /-- the supply of its mints only falls -/
  mint : ∀ {key m}, l.MintAt key m → key ∈ mints → l.PlainMint true key →
    m.mintAuthority = some address →
    ∃ m', l'.MintAt key m' ∧ m.Moved m' ∧ m'.supply.toNat ≤ m.supply.toNat
  /-- the mints stay, with extensions that are accepted -/
  plain : ∀ {isPoolMint key}, key ∈ mints → l.PlainMint isPoolMint key →
    l'.PlainMint isPoolMint key

namespace Guarded

variable {mints : Set Pubkey} {address : Pubkey}

/-- Where nothing happens to the accounts of the token programs, nothing happens to the address. -/
theorem of_kept (h : l.TokensKept l') : l.Guarded mints l' address where
  account {_ a} ha _ _ _ _ _ := ⟨a, ha.sameAt (h _ (.inl ha.program)), .refl a, le_rfl⟩
  mint {_ m} hm _ _ _ := ⟨m, hm.sameAt (h _ (.inl hm.program)), .refl m, le_rfl⟩
  plain _ hplain := hplain.sameAt (h _ (.inl hplain.1.choose_spec.program))

/-- Where nothing happens, nothing happens to the address. -/
theorem refl (l : Ledger) (address : Pubkey) : l.Guarded mints l address := of_kept (.refl l)

/-- What others do one after another is something that they can do. -/
theorem trans (h : l.Guarded mints l' address) (h' : l'.Guarded mints l'' address) :
    l.Guarded mints l'' address where
  account ha hmem hplain howner hdelegate hclose := by
    obtain ⟨a', ha', hmoved, hle⟩ := h.account ha hmem hplain howner hdelegate hclose
    obtain ⟨a'', ha'', hmoved', hle'⟩ := h'.account ha' (hmoved.mint ▸ hmem)
      (hmoved.mint ▸ h.plain hmem hplain) (hmoved.owner.trans howner) (hmoved.delegate hdelegate)
      (hclose.imp hmoved.closeAuthority fun ⟨hpos, hnative⟩ =>
        ⟨hpos.trans_le hle, hmoved.mint ▸ hnative⟩)
    exact ⟨a'', ha'', hmoved.trans hmoved', hle.trans hle'⟩
  mint hm hmem hplain hauthority := by
    obtain ⟨m', hm', hmoved, hle⟩ := h.mint hm hmem hplain hauthority
    obtain ⟨m'', hm'', hmoved', hle'⟩ := h'.mint hm' hmem (h.plain hmem hplain)
      (hmoved.mintAuthority.trans hauthority)
    exact ⟨m'', hm'', hmoved.trans hmoved', hle'.trans hle⟩
  plain hmem hplain := h'.plain hmem (h.plain hmem hplain)

/-- What is guarded for some mints is guarded for fewer. -/
theorem mono {mints' : Set Pubkey} (h : l.Guarded mints' l' address) (hmints : mints ⊆ mints') :
    l.Guarded mints l' address :=
  ⟨fun ha hmem => h.account ha (hmints hmem), fun hm hmem => h.mint hm (hmints hmem),
    fun hmem => h.plain (hmints hmem)⟩

end Guarded

end Ledger

/-! ## The promises -/

/-- An address signed the instruction, or the program signs for it with its seeds. -/
def Signed (address : Pubkey) (signers : List Pubkey) (seeds : List (List Bytes)) : Prop :=
  address ∈ signers ∨ ∃ s ∈ seeds, Solana.createProgramAddress s ID = some address

/-- The documented behaviour of the token programs, as far as the three calls of the program go.

A call that succeeds found accounts of the mint it names (`transferred`, `minted`, `burned`),
whatever the extensions of this mint. What it does to them is promised for accepted mints only:
there is no fee on a transfer, and nobody takes tokens on the way. -/
class TokenProgram : Prop where
  /-- an account of tokens is not a mint -/
  exclusive : ∀ {l : Ledger} {key a m}, l.TokenAt key a → ¬ l.MintAt key m
  /-- a transfer between two accounts of the mint; who may move the tokens signed -/
  transferred : ∀ {tokenProgram source mint destination authority amount decimals signers seeds}
    {l l' : Ledger},
    invokeToken tokenProgram
      (.transferChecked tokenProgram source mint destination authority amount decimals) signers
      seeds l = .ok l' →
    ∃ a b, l.TokenAt source a ∧ l.TokenAt destination b ∧ a.mint = mint ∧ b.mint = mint ∧
      (l.PlainMint false mint → l.Transferred l' source destination amount a b)
  /-- the authority of the mint mints to an account of it -/
  minted : ∀ {tokenProgram mint destination authority amount signers seeds} {l l' : Ledger},
    invokeToken tokenProgram (.mintTo tokenProgram mint destination authority amount) signers seeds
      l = .ok l' →
    ∃ m b, l.MintAt mint m ∧ l.TokenAt destination b ∧ b.mint = mint ∧
      (l.PlainMint false mint → l.Minted l' mint destination amount m b)
  /-- tokens of an account of the mint are burned -/
  burned : ∀ {tokenProgram account mint authority amount signers seeds} {l l' : Ledger},
    invokeToken tokenProgram (.burn tokenProgram account mint authority amount) signers seeds l =
      .ok l' →
    ∃ a m, l.TokenAt account a ∧ l.MintAt mint m ∧ a.mint = mint ∧
      (l.PlainMint false mint → l.Burned l' account mint amount a m)
  /-- no call does more to an address that does not sign than it could do itself, unless anyone
  may burn its tokens; and no call closes a mint -/
  guarded : ∀ {tokenProgram call signers seeds address} {l l' : Ledger}, call.IsToken →
    invokeToken tokenProgram call signers seeds l = .ok l' → ¬ Signed address signers seeds →
    ¬ Ownerless address → l.Guarded Set.univ l' address

/-- What a call leaves alone, whatever the extensions of its mint.

The runtime lets a call write only the accounts that its instruction lists as writable. And the
three calls to the token programs only move tokens: they open no account, and give none to another
mint. Lamports are wrapped by sending them to an account, so nobody mints wrapped ones. -/
class CallEffects : Prop where
  /-- what is not listed as writable is kept, with its lamports -/
  frame : ∀ {call signers seeds key} {l l' : Ledger},
    Solana.invoke call signers seeds l = .ok l' → key ∉ call.writes → l' key = l key
  /-- an account of tokens was an account of the same mint -/
  account : ∀ {tokenProgram call signers seeds key a'} {l l' : Ledger}, call.IsToken →
    invokeToken tokenProgram call signers seeds l = .ok l' → l'.TokenAt key a' →
    ∃ a, l.TokenAt key a ∧ a.mint = a'.mint
  /-- wrapped lamports are not minted -/
  native : ∀ {tokenProgram mint destination authority amount signers seeds} {l l' : Ledger},
    invokeToken tokenProgram (.mintTo tokenProgram mint destination authority amount) signers seeds
      l = .ok l' → mint ∉ NATIVE_MINT_IDS

end Tokens

end SolanaPsm
