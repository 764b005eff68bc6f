import SolanaPsm.Reference
import SolanaPsm.Tokens

/-!
# Concrete token programs

`Solana.bank` extends the reference runtime by token programs that keep their promises: they
read accounts and mints by their layouts, check mints, owners and signatures, and rewrite the
amounts in place. They know no extensions, and no delegates.

Every call is one or two rewrites, of the amount of an account or of the supply of a mint, and
each rewrite is specified once (`tokenAt_setAmount`, `mintAt_setSupply` and the `guarded` lemmas).
-/

namespace SolanaPsm

open Bytes (toLE ofLE slice)

namespace Solana.Bank

/-! ## Amounts in place -/

/-- Replace eight bytes, as a token program does with the amount of an account or the supply of a
mint. -/
def setWord (offset : ℕ) (x : U64) (data : Bytes) : Bytes :=
  data.take offset ++ (toLE 8 x ++ data.drop (offset + 8))

section SetWord

variable {offset off len : ℕ} {x : U64} {data : Bytes}

/-- The length stays the same. -/
theorem length_setWord (h : offset + 8 ≤ data.length) :
    (setWord offset x data).length = data.length := by
  rw [setWord, List.length_append, List.length_append, List.length_take, List.length_drop,
    Bytes.length_toLE]
  omega

/-- The bytes that are replaced read as the number that was written. -/
theorem slice_setWord_self (h : offset + 8 ≤ data.length) :
    slice offset 8 (setWord offset x data) = toLE 8 x := by
  have htake : (data.take offset).length = offset := by
    rw [List.length_take]
    omega
  rw [slice, setWord, List.drop_left' htake, List.take_left' (Bytes.length_toLE 8 x)]

/-- Bytes before the word are kept, so whatever is stored there is read as before. -/
theorem slice_setWord_before (h : offset + 8 ≤ data.length) (hle : off + len ≤ offset) :
    slice off len (setWord offset x data) = slice off len data := by
  have htake : (data.take offset).length = offset := by
    rw [List.length_take]
    omega
  rw [slice, slice, setWord, List.drop_append_of_le_length (by omega),
    List.take_append_of_le_length (by rw [List.length_drop]; omega), List.drop_take,
    List.take_take]
  congr 1
  omega

/-- Bytes after the word are kept. -/
theorem slice_setWord_after (h : offset + 8 ≤ data.length) (hle : offset + 8 ≤ off) :
    slice off len (setWord offset x data) = slice off len data := by
  have hfront : (data.take offset ++ toLE 8 x).length = offset + 8 := by
    rw [List.length_append, List.length_take, Bytes.length_toLE]
    omega
  rw [slice, slice, setWord, ← List.append_assoc]
  obtain ⟨k, rfl⟩ := Nat.exists_eq_add_of_le hle
  rw [← List.drop_drop, List.drop_left' hfront, List.drop_drop]

end SetWord

/-- The amount of an account is replaced, and nothing else. -/
theorem unpackAccount_setWord {data : Bytes} {a : TokenAccount} (x : U64)
    (h : Reference.unpackAccount data = some a) :
    Reference.unpackAccount (setWord 64 x data) = some { a with amount := x } := by
  simp only [Reference.unpackAccount] at h ⊢
  split at h
  · rename_i hlength
    have hfit : 64 + 8 ≤ data.length := by omega
    rw [if_pos ((length_setWord hfit).trans hlength)]
    simp (disch := decide) only [slice_setWord_self hfit, slice_setWord_before hfit,
      slice_setWord_after hfit, Bytes.ofLE_toLE]
    simp only [Option.bind_eq_bind, Option.bind_eq_some_iff, Option.pure_def,
      Option.some.injEq] at h ⊢
    obtain ⟨delegate, hdelegate, state, hstate, close, hclose, rfl⟩ := h
    exact ⟨delegate, hdelegate, state, hstate, close, hclose, rfl⟩
  · cases h

/-- The supply of a mint is replaced, and nothing else. -/
theorem unpackMint_setWord {data : Bytes} {m : Mint} (x : U64)
    (h : Reference.unpackMint data = some m) :
    Reference.unpackMint (setWord 36 x data) = some { m with supply := x } := by
  simp only [Reference.unpackMint] at h ⊢
  split at h
  · rename_i hcond
    have hfit : 36 + 8 ≤ data.length := by omega
    simp (disch := decide) only [slice_setWord_self hfit, slice_setWord_before hfit,
      slice_setWord_after hfit, length_setWord hfit, Bytes.ofLE_toLE]
    rw [if_pos hcond]
    simp only [Option.bind_eq_bind, Option.bind_eq_some_iff, Option.pure_def,
      Option.some.injEq] at h ⊢
    obtain ⟨authority, hauthority, freeze, hfreeze, rfl⟩ := h
    exact ⟨authority, hauthority, freeze, hfreeze, rfl⟩
  · cases h

/-- An account is no mint: the lengths differ. The token programs rely on the same to tell them
apart. -/
theorem unpackMint_of_unpackAccount {data : Bytes} {a : TokenAccount}
    (h : Reference.unpackAccount data = some a) : Reference.unpackMint data = none := by
  simp only [Reference.unpackAccount] at h
  split at h
  · rename_i hlength
    rw [Reference.unpackMint, if_neg]
    omega
  · cases h

/-! ## The calls -/

/-- An account of a token program. The program that is called has to own it. -/
def readAccount (tokenProgram key : Pubkey) (ledger : Ledger) :
    Outcome ProgramError TokenAccount := do
  Outcome.rejectIf ((ledger key).owner ≠ tokenProgram) (.external 0)
  Outcome.ofOption (Reference.unpackAccount (ledger key).data) (.external 1)

/-- A mint of a token program. The program that is called has to own it. -/
def readMint (tokenProgram key : Pubkey) (ledger : Ledger) : Outcome ProgramError Mint := do
  Outcome.rejectIf ((ledger key).owner ≠ tokenProgram) (.external 0)
  Outcome.ofOption (Reference.unpackMint (ledger key).data) (.external 1)

/-- Replace the amount of an account. The mint, the owner and the rest of its state stay in place.
-/
def setAmount (key : Pubkey) (x : U64) (ledger : Ledger) : Ledger :=
  ledger.write key (setWord 64 x (ledger key).data)

/-- Replace the supply of a mint. Its authorities and decimals stay in place. -/
def setSupply (key : Pubkey) (x : U64) (ledger : Ledger) : Ledger :=
  ledger.write key (setWord 36 x (ledger key).data)

/-- An address signed, or seeds of the program derive it. -/
def signs (signers : List Pubkey) (seeds : List (List Bytes)) (address : Pubkey) : Bool :=
  decide (address ∈ signers) ||
    seeds.any fun s => decide (Reference.createProgramAddress s = some address)

/-- Transfer tokens of an owner who signed. Both accounts have to be of the mint and in use, and
there have to be enough; a transfer to the account itself checks as much and changes nothing. -/
def transferChecked (tokenProgram source mint destination authority : Pubkey) (amount : U64)
    (decimals : UInt8) (signed : Pubkey → Bool) (ledger : Ledger) :
    Outcome ProgramError Ledger := do
  let a ← readAccount tokenProgram source ledger
  let b ← readAccount tokenProgram destination ledger
  let m ← readMint tokenProgram mint ledger
  Outcome.rejectIf (¬ (a.mint = mint ∧ b.mint = mint ∧ m.decimals = decimals ∧
    a.state = .initialized ∧ b.state = .initialized)) (.external 2)
  Outcome.rejectIf (¬ (a.owner = authority ∧ signed authority = true)) (.external 3)
  let x ← Outcome.ofOption (a.amount.checkedSub amount) (.external 4)
  if source = destination then return ledger
  else do
    let y ← Outcome.ofOption (b.amount.checkedAdd amount) (.external 5)
    return setAmount destination y (setAmount source x ledger)

/-- Mint tokens for an authority who signed. Nobody mints wrapped lamports, and neither the supply
nor the account may overflow. -/
def mintTo (tokenProgram mint destination authority : Pubkey) (amount : U64)
    (signed : Pubkey → Bool) (ledger : Ledger) : Outcome ProgramError Ledger := do
  let m ← readMint tokenProgram mint ledger
  let b ← readAccount tokenProgram destination ledger
  Outcome.rejectIf (¬ (b.mint = mint ∧ b.state = .initialized)) (.external 2)
  Outcome.rejectIf (¬ (m.mintAuthority = some authority ∧ signed authority = true)) (.external 3)
  Outcome.rejectIf (mint ∈ NATIVE_MINT_IDS) (.external 6)
  let supply ← Outcome.ofOption (m.supply.checkedAdd amount) (.external 5)
  let y ← Outcome.ofOption (b.amount.checkedAdd amount) (.external 5)
  return setAmount destination y (setSupply mint supply ledger)

/-- Burn tokens of an owner who signed, who has to have enough of them. -/
def burn (tokenProgram account mint authority : Pubkey) (amount : U64)
    (signed : Pubkey → Bool) (ledger : Ledger) : Outcome ProgramError Ledger := do
  let a ← readAccount tokenProgram account ledger
  let m ← readMint tokenProgram mint ledger
  Outcome.rejectIf (¬ (a.mint = mint ∧ a.state = .initialized)) (.external 2)
  Outcome.rejectIf (¬ (a.owner = authority ∧ signed authority = true)) (.external 3)
  let x ← Outcome.ofOption (a.amount.checkedSub amount) (.external 4)
  let supply ← Outcome.ofOption (m.supply.checkedSub amount) (.external 4)
  return setAmount account x (setSupply mint supply ledger)

/-- A call to one of the two token programs, or to the system program. Of the latter's calls only
the creation of accounts is needed here. -/
def invoke (call : Call) (signers : List Pubkey) (seeds : List (List Bytes)) (ledger : Ledger) :
    Outcome ProgramError Ledger :=
  match call with
  | .transferChecked tokenProgram source mint destination authority amount decimals => do
    checkSplTokenProgramAccount tokenProgram
    transferChecked tokenProgram source mint destination authority amount decimals
      (signs signers seeds) ledger
  | .mintTo tokenProgram mint destination authority amount => do
    checkSplTokenProgramAccount tokenProgram
    mintTo tokenProgram mint destination authority amount (signs signers seeds) ledger
  | .burn tokenProgram account mint authority amount => do
    checkSplTokenProgramAccount tokenProgram
    burn tokenProgram account mint authority amount (signs signers seeds) ledger
  | .createAccount payer account lamports space owner =>
    Reference.createAccount payer account lamports space owner ledger
  | .transfer .. | .allocate .. | .assign .. => .err (.external 0)

variable {l l' : Ledger} {key tokenProgram : Pubkey} {a : TokenAccount} {m : Mint}

/-- An account that was read belongs to the token program and unpacks. -/
theorem readAccount_eq_ok : readAccount tokenProgram key l = .ok a ↔
    (l key).owner = tokenProgram ∧ Reference.unpackAccount (l key).data = some a := by
  simp [readAccount, Outcome.bind_eq_ok]

/-- So does a mint. -/
theorem readMint_eq_ok : readMint tokenProgram key l = .ok m ↔
    (l key).owner = tokenProgram ∧ Reference.unpackMint (l key).data = some m := by
  simp [readMint, Outcome.bind_eq_ok]

/-- What a transfer found and wrote. The laws of transfers are read off this. -/
theorem transferChecked_eq_ok {source mint destination authority : Pubkey} {amount : U64}
    {decimals : UInt8} {signed : Pubkey → Bool}
    (h : transferChecked tokenProgram source mint destination authority amount decimals signed l =
      .ok l') :
    ∃ a b x, readAccount tokenProgram source l = .ok a ∧
      readAccount tokenProgram destination l = .ok b ∧ a.mint = mint ∧ b.mint = mint ∧
      a.owner = authority ∧ signed authority = true ∧ a.amount.checkedSub amount = some x ∧
      (source = destination ∧ l' = l ∨ source ≠ destination ∧ ∃ y,
        b.amount.checkedAdd amount = some y ∧
          l' = setAmount destination y (setAmount source x l)) := by
  simp only [transferChecked, Outcome.bind_eq_ok, Outcome.rejectIf_eq_ok, exists_const,
    Outcome.ofOption_eq_ok, not_not, Outcome.pure_eq] at h
  obtain ⟨a, ha, b, hb, m, -, ⟨hmintA, hmintB, -, -, -⟩, ⟨howner, hsigned⟩, x, hx, h⟩ := h
  refine ⟨a, b, x, ha, hb, hmintA, hmintB, howner, hsigned, hx, ?_⟩
  split at h
  · rename_i heq
    exact .inl ⟨heq, (Outcome.ok.inj h).symm⟩
  · rename_i hne
    obtain ⟨y, hy, h⟩ := Outcome.bind_eq_ok.mp h
    exact .inr ⟨hne, y, Outcome.ofOption_eq_ok.mp hy, (Outcome.ok.inj h).symm⟩

/-- What minting found and wrote. The laws of minting are read off this. -/
theorem mintTo_eq_ok {mint destination authority : Pubkey} {amount : U64}
    {signed : Pubkey → Bool}
    (h : mintTo tokenProgram mint destination authority amount signed l = .ok l') :
    ∃ m b x y, readMint tokenProgram mint l = .ok m ∧
      readAccount tokenProgram destination l = .ok b ∧ b.mint = mint ∧
      m.mintAuthority = some authority ∧ signed authority = true ∧ mint ∉ NATIVE_MINT_IDS ∧
      m.supply.checkedAdd amount = some x ∧ b.amount.checkedAdd amount = some y ∧
      l' = setAmount destination y (setSupply mint x l) := by
  simp only [mintTo, Outcome.bind_eq_ok, Outcome.rejectIf_eq_ok, exists_const,
    Outcome.ofOption_eq_ok, not_not, Outcome.pure_eq, Outcome.ok.injEq] at h
  obtain ⟨m, hm, b, hb, ⟨hmint, -⟩, ⟨hauthority, hsigned⟩, hnative, x, hx, y, hy, rfl⟩ := h
  exact ⟨m, b, x, y, hm, hb, hmint, hauthority, hsigned, hnative, hx, hy, rfl⟩

/-- What burning found and wrote. The laws of burning are read off this. -/
theorem burn_eq_ok {account mint authority : Pubkey} {amount : U64} {signed : Pubkey → Bool}
    (h : burn tokenProgram account mint authority amount signed l = .ok l') :
    ∃ a m x y, readAccount tokenProgram account l = .ok a ∧ readMint tokenProgram mint l = .ok m ∧
      a.mint = mint ∧ a.owner = authority ∧ signed authority = true ∧
      a.amount.checkedSub amount = some x ∧ m.supply.checkedSub amount = some y ∧
      l' = setAmount account x (setSupply mint y l) := by
  simp only [burn, Outcome.bind_eq_ok, Outcome.rejectIf_eq_ok, exists_const,
    Outcome.ofOption_eq_ok, not_not, Outcome.pure_eq, Outcome.ok.injEq] at h
  obtain ⟨a, ha, m, hm, ⟨hmint, -⟩, ⟨howner, hsigned⟩, x, hx, y, hy, rfl⟩ := h
  exact ⟨a, m, x, y, ha, hm, hmint, howner, hsigned, hx, hy, rfl⟩

/-! ## Another program -/

/-- Writing an account of another program is the business of that program. -/
theorem foreign_write {data : Bytes} (h : (l key).owner ≠ ID) : l.Foreign (l.write key data) := by
  refine ⟨?_, ?_⟩
  · intro k hk
    refine Ledger.SameAt.write data ?_
    rintro rfl
    exact h hk
  · intro k hk hk'
    rw [Ledger.owner_write] at hk'
    exact absurd hk' hk

/-- Two writes of a token program, to accounts that it owns, are foreign to this program. -/
theorem foreign_write_write {key' : Pubkey} {data data' : Bytes}
    (hprogram : checkSplTokenProgramAccount tokenProgram = .ok ())
    (hkey : (l key).owner = tokenProgram) (hkey' : (l key').owner = tokenProgram) :
    l.Foreign ((l.write key data).write key' data') := by
  have hne : tokenProgram ≠ ID := by
    rintro rfl
    exact absurd hprogram (by decide)
  refine (foreign_write (hkey ▸ hne)).trans (foreign_write ?_)
  rw [Ledger.owner_write, hkey']
  exact hne

/-- The token programs are other programs: they own what they write, which no pool and no record is.
-/
theorem invoke_foreign {call : Call} {signers : List Pubkey} {seeds : List (List Bytes)}
    (hcall : call.IsToken) (h : invoke call signers seeds l = .ok l') : l.Foreign l' := by
  cases call with
  | transferChecked tokenProgram source mint destination authority amount decimals =>
    obtain ⟨⟨⟩, hprogram, h⟩ := Outcome.bind_eq_ok.mp h
    obtain ⟨a, b, x, ha, hb, -, -, -, -, -, ⟨-, rfl⟩ | ⟨-, y, -, rfl⟩⟩ := transferChecked_eq_ok h
    · exact .refl l'
    · exact foreign_write_write hprogram (readAccount_eq_ok.mp ha).1 (readAccount_eq_ok.mp hb).1
  | mintTo tokenProgram mint destination authority amount =>
    obtain ⟨⟨⟩, hprogram, h⟩ := Outcome.bind_eq_ok.mp h
    obtain ⟨m, b, x, y, hm, hb, -, -, -, -, -, -, rfl⟩ := mintTo_eq_ok h
    exact foreign_write_write hprogram (readMint_eq_ok.mp hm).1 (readAccount_eq_ok.mp hb).1
  | burn tokenProgram account mint authority amount =>
    obtain ⟨⟨⟩, hprogram, h⟩ := Outcome.bind_eq_ok.mp h
    obtain ⟨a, m, x, y, ha, hm, -, -, -, -, -, rfl⟩ := burn_eq_ok h
    exact foreign_write_write hprogram (readMint_eq_ok.mp hm).1 (readAccount_eq_ok.mp ha).1
  | createAccount | transfer | allocate | assign => exact hcall.elim

end Solana.Bank

/-- The reference runtime with token programs. -/
@[reducible] def Solana.bank : Solana where
  findProgramAddress seeds _ := Reference.findProgramAddress seeds
  createProgramAddress seeds _ := Reference.createProgramAddress seeds
  unpackAccount := Reference.unpackAccount
  unpackMint := Reference.unpackMint
  extensionTypes _ := .ok []
  minimumBalance space := BitVec.ofNat 64 ((space + 128) * 6960)
  invoke := Bank.invoke
  foreign_of_token := Bank.invoke_foreign
  created h := Reference.createAccount_placed h
  transferred h := by cases h
  allocated h := by cases h
  assigned h := by cases h

namespace Solana.Bank

section Promises

attribute [local instance] Solana.bank

variable {l l' : Ledger} {key k address : Pubkey} {a : TokenAccount} {m : Mint} {x : U64}

/-! ## One rewrite -/

/-- What it is to be an account of tokens, with the layouts of the reference runtime. -/
theorem tokenAt_iff : l.TokenAt key a ↔
    (checkSplTokenProgramAccount (l key).owner).isOk = true ∧
      Reference.unpackAccount (l key).data = some a := by
  simp [Ledger.TokenAt, unpackTokenAccount, Outcome.bind_eq_ok, Solana.unpackAccount]

/-- What it is to be a mint. -/
theorem mintAt_iff : l.MintAt key m ↔
    (checkSplTokenProgramAccount (l key).owner).isOk = true ∧
      Reference.unpackMint (l key).data = some m := by
  simp [Ledger.MintAt, SolanaPsm.unpackMint, Outcome.bind_eq_ok, Solana.unpackMint]

/-- No mint has extensions, so the extensions of every mint are accepted. -/
theorem plainMint_iff {isPoolMint : Bool} : l.PlainMint isPoolMint key ↔ ∃ m, l.MintAt key m := by
  simp [Ledger.PlainMint, validateMintExtensions, Solana.extensionTypes]

/-- An account is no mint, as their lengths differ. -/
theorem exclusive (ha : l.TokenAt key a) : ¬ l.MintAt key m := by
  rw [tokenAt_iff] at ha
  rw [mintAt_iff, unpackMint_of_unpackAccount ha.2]
  rintro ⟨-, ⟨⟩⟩

/-- An account of tokens and a mint are at different addresses. -/
theorem ne_of_tokenAt (ha : l.TokenAt key a) (hm : l.MintAt k m) : k ≠ key := by
  rintro rfl
  exact exclusive ha hm

/-- Rewriting an amount touches no other account. -/
theorem sameAt_setAmount (h : k ≠ key) : l.SameAt (setAmount key x l) k := .write _ h

/-- Nor does rewriting a supply. -/
theorem sameAt_setSupply (h : k ≠ key) : l.SameAt (setSupply key x l) k := .write _ h

/-- After its amount is rewritten, an account is read back with the new one. -/
theorem tokenAt_setAmount (h : l.TokenAt key a) :
    (setAmount key x l).TokenAt key { a with amount := x } := by
  rw [tokenAt_iff] at h ⊢
  rw [setAmount, Ledger.owner_write, Ledger.write_self]
  exact ⟨h.1, unpackAccount_setWord x h.2⟩

/-- After its supply is rewritten, a mint is read back with the new one. -/
theorem mintAt_setSupply (h : l.MintAt key m) :
    (setSupply key x l).MintAt key { m with supply := x } := by
  rw [mintAt_iff] at h ⊢
  rw [setSupply, Ledger.owner_write, Ledger.write_self]
  exact ⟨h.1, unpackMint_setWord x h.2⟩

/-- Who owns an account need not fear that its amount rises. -/
theorem guarded_setAmount (h : l.TokenAt key a)
    (hle : a.owner = address → a.amount.toNat ≤ x.toNat) :
    l.Guarded Set.univ (setAmount key x l) address where
  account {k c} hc _ _ howner _ _ := by
    by_cases hk : k = key
    · subst k
      obtain rfl := hc.unique h
      exact ⟨_, tokenAt_setAmount h, ⟨rfl, rfl, id, id⟩, hle howner⟩
    · exact ⟨c, hc.sameAt (sameAt_setAmount hk), .refl c, le_rfl⟩
  mint {k m} hm _ _ _ := ⟨m, hm.sameAt (sameAt_setAmount (ne_of_tokenAt h hm)), .refl m, le_rfl⟩
  plain {_ k} _ hplain := by
    obtain ⟨m, hm⟩ := hplain.1
    exact hplain.sameAt (sameAt_setAmount (ne_of_tokenAt h hm))

/-- Who is no authority of the mint need not care what its supply becomes; who is wants it not to
rise. -/
theorem guarded_setSupply (h : l.MintAt key m)
    (hle : m.mintAuthority = some address → x.toNat ≤ m.supply.toNat) :
    l.Guarded Set.univ (setSupply key x l) address where
  account {k c} hc _ _ _ _ _ :=
    ⟨c, hc.sameAt (sameAt_setSupply (ne_of_tokenAt hc h).symm), .refl c, le_rfl⟩
  mint {k n} hn _ _ hauthority := by
    by_cases hk : k = key
    · subst k
      obtain rfl := hn.unique h
      exact ⟨_, mintAt_setSupply h, ⟨rfl, rfl⟩, hle hauthority⟩
    · exact ⟨n, hn.sameAt (sameAt_setSupply hk), .refl n, le_rfl⟩
  plain {_ k} _ hplain := by
    rw [plainMint_iff] at hplain ⊢
    obtain ⟨n, hn⟩ := hplain
    by_cases hk : k = key
    · subst k
      exact ⟨_, mintAt_setSupply hn⟩
    · exact ⟨n, hn.sameAt (sameAt_setSupply hk)⟩

/-- A rewritten amount is a movement: who may move the tokens is as before. -/
theorem amountMoved_setAmount {n : ℕ} (h : l.TokenAt key a) (hx : x.toNat = n) :
    (setAmount key x l).AmountMoved key a n :=
  ⟨_, tokenAt_setAmount h, ⟨rfl, rfl, id, id⟩, hx⟩

/-- So is a rewritten supply, and what was accepted of the mint stays accepted. -/
theorem supplyMoved_setSupply {n : ℕ} (h : l.MintAt key m) (hx : x.toNat = n) :
    l.SupplyMoved (setSupply key x l) key m n := by
  refine ⟨⟨_, mintAt_setSupply h, ⟨rfl, rfl⟩, hx⟩, ?_⟩
  intro isPoolMint _
  exact plainMint_iff.mpr ⟨_, mintAt_setSupply h⟩

/-! ## The promises -/

variable {l₁ : Ledger} {tokenProgram : Pubkey} {amount : U64} {signers : List Pubkey}
  {seeds : List (List Bytes)}

/-- An account that a token program reads is an account for this program too. -/
theorem tokenAt_of_read (hprogram : checkSplTokenProgramAccount tokenProgram = .ok ())
    (h : readAccount tokenProgram key l = .ok a) : l.TokenAt key a := by
  obtain ⟨howner, hdata⟩ := readAccount_eq_ok.mp h
  rw [tokenAt_iff, howner, hprogram]
  exact ⟨rfl, hdata⟩

/-- So is a mint. -/
theorem mintAt_of_read (hprogram : checkSplTokenProgramAccount tokenProgram = .ok ())
    (h : readMint tokenProgram key l = .ok m) : l.MintAt key m := by
  obtain ⟨howner, hdata⟩ := readMint_eq_ok.mp h
  rw [mintAt_iff, howner, hprogram]
  exact ⟨rfl, hdata⟩

/-- An address that signs here has signed, or is derived from seeds of the program. -/
theorem signed_of_signs (h : signs signers seeds address = true) :
    Signed address signers seeds := by
  rw [signs, Bool.or_eq_true, decide_eq_true_eq, List.any_eq_true] at h
  refine h.imp_right ?_
  rintro ⟨s, hs, hderives⟩
  exact ⟨s, hs, of_decide_eq_true hderives⟩

/-- Who signs is not an address that did not sign. -/
theorem ne_of_signs (hnot : ¬ Signed address signers seeds) (h : signs signers seeds k = true) :
    k ≠ address := by
  rintro rfl
  exact hnot (signed_of_signs h)

/-- A transfer between two accounts: the rewrites of both amounts make up a transfer. -/
theorem transferred_setAmount {source destination : Pubkey} {b : TokenAccount} {y : U64}
    (ha : l.TokenAt source a) (hb : l.TokenAt destination b) (hne : source ≠ destination)
    (hx : a.amount.checkedSub amount = some x) (hy : b.amount.checkedAdd amount = some y) :
    l.Transferred (setAmount destination y (setAmount source x l)) source destination amount a
      b := by
  obtain ⟨henough, hx⟩ := BitVec.checkedSub_eq_some.mp hx
  have hb₁ : (setAmount source x l).TokenAt destination b := hb.sameAt (sameAt_setAmount hne.symm)
  refine ⟨henough, ?_, ?_, ?_⟩
  · intro _
    obtain ⟨a', ha', hmoved⟩ := amountMoved_setAmount ha hx
    exact ⟨a', ha'.sameAt (sameAt_setAmount hne), hmoved⟩
  · intro _
    exact amountMoved_setAmount hb₁ (BitVec.checkedAdd_eq_some.mp hy)
  · rintro k (⟨hsource, hdestination⟩ | heq)
    · exact (sameAt_setAmount hsource).trans (sameAt_setAmount hdestination)
    · exact absurd heq hne

/-- The token programs keep their promises. So the laws that are assumed of them are not
contradictory, and the market below is a world in which they hold. -/
theorem promises : TokenProgram where
  exclusive := exclusive
  transferred {tokenProgram source mint destination _ amount _ _ _ l l'} h := by
    obtain ⟨⟨⟩, hprogram, h⟩ := Outcome.bind_eq_ok.mp h
    obtain ⟨_, -, h⟩ := Outcome.bind_eq_ok.mp h
    obtain ⟨a, b, x, ha, hb, hmintA, hmintB, -, -, hx, hcases⟩ := transferChecked_eq_ok h
    refine ⟨a, b, tokenAt_of_read hprogram ha, tokenAt_of_read hprogram hb, hmintA, hmintB, ?_⟩
    intro _
    rcases hcases with ⟨rfl, rfl⟩ | ⟨hne, y, hy, rfl⟩
    · exact ⟨(BitVec.checkedSub_eq_some.mp hx).1, absurd rfl, absurd rfl, fun _ => .refl l' _⟩
    · exact transferred_setAmount (tokenAt_of_read hprogram ha) (tokenAt_of_read hprogram hb) hne
        hx hy
  minted {tokenProgram mint destination _ amount _ _ l l'} h := by
    obtain ⟨⟨⟩, hprogram, h⟩ := Outcome.bind_eq_ok.mp h
    obtain ⟨_, -, h⟩ := Outcome.bind_eq_ok.mp h
    obtain ⟨m, b, x, y, hm, hb, hmint, -, -, -, hx, hy, rfl⟩ := mintTo_eq_ok h
    have hm := mintAt_of_read hprogram hm
    have hb := tokenAt_of_read hprogram hb
    have hne := ne_of_tokenAt hb hm
    have hm₁ := supplyMoved_setSupply hm (BitVec.checkedAdd_eq_some.mp hx)
    refine ⟨m, b, hm, hb, hmint, fun _ => ⟨?_, ?_, ?_⟩⟩
    · obtain ⟨⟨m', hm', hmoved⟩, hplain⟩ := hm₁
      refine ⟨⟨m', hm'.sameAt (sameAt_setAmount hne), hmoved⟩, ?_⟩
      intro isPoolMint hpool
      exact (hplain isPoolMint hpool).sameAt (sameAt_setAmount hne)
    · exact amountMoved_setAmount (hb.sameAt (sameAt_setSupply hne.symm))
        (BitVec.checkedAdd_eq_some.mp hy)
    · intro k hmint hdestination
      exact (sameAt_setSupply hmint).trans (sameAt_setAmount hdestination)
  burned {tokenProgram account mint _ amount _ _ l l'} h := by
    obtain ⟨⟨⟩, hprogram, h⟩ := Outcome.bind_eq_ok.mp h
    obtain ⟨_, -, h⟩ := Outcome.bind_eq_ok.mp h
    obtain ⟨a, m, x, y, ha, hm, hmint, -, -, hx, hy, rfl⟩ := burn_eq_ok h
    obtain ⟨henough, hx⟩ := BitVec.checkedSub_eq_some.mp hx
    obtain ⟨hcovered, hy⟩ := BitVec.checkedSub_eq_some.mp hy
    have hm := mintAt_of_read hprogram hm
    have ha := tokenAt_of_read hprogram ha
    have hne := ne_of_tokenAt ha hm
    have hm₁ := supplyMoved_setSupply hm hy
    refine ⟨a, m, ha, hm, hmint, fun _ => ⟨henough, hcovered, ?_, ?_, ?_⟩⟩
    · exact amountMoved_setAmount (ha.sameAt (sameAt_setSupply hne.symm)) hx
    · obtain ⟨⟨m', hm', hmoved⟩, hplain⟩ := hm₁
      refine ⟨⟨m', hm'.sameAt (sameAt_setAmount hne), hmoved⟩, ?_⟩
      intro isPoolMint hpool
      exact (hplain isPoolMint hpool).sameAt (sameAt_setAmount hne)
    · intro k haccount hmint
      exact (sameAt_setSupply hmint).trans (sameAt_setAmount haccount)
  guarded {tokenProgram call signers seeds address l l'} hcall h hnot _ := by
    obtain ⟨⟨⟩, hprogram, h⟩ := Outcome.bind_eq_ok.mp h
    cases call with
    | transferChecked _ source mint destination authority amount decimals =>
      obtain ⟨⟨⟩, hprogram, h⟩ := Outcome.bind_eq_ok.mp h
      obtain ⟨a, b, x, ha, hb, -, -, howner, hsigned, -, hcases⟩ := transferChecked_eq_ok h
      rcases hcases with ⟨-, rfl⟩ | ⟨hne, y, hy, rfl⟩
      · exact .refl l' address
      · have hb := (tokenAt_of_read hprogram hb).sameAt
          (sameAt_setAmount (x := x) (k := destination) hne.symm)
        refine (guarded_setAmount (tokenAt_of_read hprogram ha) ?_).trans
          (guarded_setAmount hb ?_)
        · intro haddress
          exact absurd (howner.symm.trans haddress) (ne_of_signs hnot hsigned)
        · intro _
          rw [BitVec.checkedAdd_eq_some.mp hy]
          exact Nat.le_add_right _ _
    | mintTo _ mint destination authority amount =>
      obtain ⟨⟨⟩, hprogram, h⟩ := Outcome.bind_eq_ok.mp h
      obtain ⟨m, b, x, y, hm, hb, -, hauthority, hsigned, -, -, hy, rfl⟩ := mintTo_eq_ok h
      have hm := mintAt_of_read hprogram hm
      have hb := tokenAt_of_read hprogram hb
      refine (guarded_setSupply hm ?_).trans
        (guarded_setAmount (hb.sameAt (sameAt_setSupply (ne_of_tokenAt hb hm).symm)) ?_)
      · intro haddress
        rw [hauthority] at haddress
        exact absurd (Option.some.inj haddress) (ne_of_signs hnot hsigned)
      · intro _
        rw [BitVec.checkedAdd_eq_some.mp hy]
        exact Nat.le_add_right _ _
    | burn _ account mint authority amount =>
      obtain ⟨⟨⟩, hprogram, h⟩ := Outcome.bind_eq_ok.mp h
      obtain ⟨a, m, x, y, ha, hm, -, howner, hsigned, -, hy, rfl⟩ := burn_eq_ok h
      have hm := mintAt_of_read hprogram hm
      have ha := tokenAt_of_read hprogram ha
      refine (guarded_setSupply hm ?_).trans
        (guarded_setAmount (ha.sameAt (sameAt_setSupply (ne_of_tokenAt ha hm).symm)) ?_)
      · intro _
        rw [(BitVec.checkedSub_eq_some.mp hy).2]
        exact Nat.sub_le _ _
      · intro haddress
        exact absurd (howner.symm.trans haddress) (ne_of_signs hnot hsigned)
    | createAccount | transfer | allocate | assign => exact hcall.elim

/-! ## What is left alone -/

/-- Two rewrites leave the rest alone, lamports included. -/
theorem write_write_of_not_mem {key' : Pubkey} {data data' : Bytes} (h : k ∉ [key, key']) :
    (l.write key data).write key' data' k = l k := by
  simp only [List.mem_cons, List.not_mem_nil, or_false, not_or] at h
  rw [Ledger.write_of_ne data' h.2, Ledger.write_of_ne data h.1]

/-- Rewriting an amount makes no account, and changes the mint of none. -/
theorem tokenAt_of_setAmount {a' : TokenAccount} (h : l.TokenAt key a)
    (ha' : (setAmount key x l).TokenAt k a') : ∃ c, l.TokenAt k c ∧ c.mint = a'.mint := by
  by_cases hk : k = key
  · subst k
    obtain rfl := ha'.unique (tokenAt_setAmount h)
    exact ⟨a, h, rfl⟩
  · exact ⟨a', ha'.sameAt (sameAt_setAmount hk).symm, rfl⟩

/-- Nor does rewriting a supply. -/
theorem tokenAt_of_setSupply {a' : TokenAccount} (h : l.MintAt key m)
    (ha' : (setSupply key x l).TokenAt k a') : l.TokenAt k a' := by
  refine ha'.sameAt (sameAt_setSupply ?_).symm
  rintro rfl
  exact exclusive ha' (mintAt_setSupply h)

/-- The calls write only what they list. Every call is one or two rewrites, at addresses that its
instruction lists as writable. -/
theorem invoke_frame {call : Call} (h : invoke call signers seeds l = .ok l')
    (hkey : k ∉ call.writes) : l' k = l k := by
  cases call with
  | transferChecked _ source mint destination authority amount decimals =>
    obtain ⟨⟨⟩, -, h⟩ := Outcome.bind_eq_ok.mp h
    obtain ⟨a, b, x, -, -, -, -, -, -, -, ⟨-, rfl⟩ | ⟨-, y, -, rfl⟩⟩ := transferChecked_eq_ok h
    · rfl
    · exact write_write_of_not_mem hkey
  | mintTo _ mint destination authority amount =>
    obtain ⟨⟨⟩, -, h⟩ := Outcome.bind_eq_ok.mp h
    obtain ⟨m, b, x, y, -, -, -, -, -, -, -, -, rfl⟩ := mintTo_eq_ok h
    exact write_write_of_not_mem hkey
  | burn _ account mint authority amount =>
    obtain ⟨⟨⟩, -, h⟩ := Outcome.bind_eq_ok.mp h
    obtain ⟨a, m, x, y, -, -, -, -, -, -, -, rfl⟩ := burn_eq_ok h
    exact write_write_of_not_mem fun hmem => hkey ((List.Perm.swap account mint []).mem_iff.mp hmem)
  | createAccount payer account lamports space owner =>
    exact Reference.createAccount_frame h hkey
  | transfer | allocate | assign => cases h

/-- The calls keep to their effects. With `promises` this makes the market a world for every theorem
about the token programs. -/
theorem effects : CallEffects where
  frame := invoke_frame
  account {tokenProgram call signers seeds key a' l l'} hcall h ha' := by
    obtain ⟨⟨⟩, -, h⟩ := Outcome.bind_eq_ok.mp h
    cases call with
    | transferChecked _ source mint destination authority amount decimals =>
      obtain ⟨⟨⟩, hprogram, h⟩ := Outcome.bind_eq_ok.mp h
      obtain ⟨a, b, x, ha, hb, -, -, -, -, -, ⟨-, rfl⟩ | ⟨hne, y, -, rfl⟩⟩ :=
        transferChecked_eq_ok h
      · exact ⟨a', ha', rfl⟩
      · have hb := (tokenAt_of_read hprogram hb).sameAt
          (sameAt_setAmount (x := x) (k := destination) hne.symm)
        obtain ⟨c, hc, hmint⟩ := tokenAt_of_setAmount hb ha'
        obtain ⟨d, hd, hmint'⟩ := tokenAt_of_setAmount (tokenAt_of_read hprogram ha) hc
        exact ⟨d, hd, hmint'.trans hmint⟩
    | mintTo _ mint destination authority amount =>
      obtain ⟨⟨⟩, hprogram, h⟩ := Outcome.bind_eq_ok.mp h
      obtain ⟨m, b, x, y, hm, hb, -, -, -, -, -, -, rfl⟩ := mintTo_eq_ok h
      have hm := mintAt_of_read hprogram hm
      have hb := tokenAt_of_read hprogram hb
      obtain ⟨c, hc, hmint⟩ := tokenAt_of_setAmount
        (hb.sameAt (sameAt_setSupply (ne_of_tokenAt hb hm).symm)) ha'
      exact ⟨c, tokenAt_of_setSupply hm hc, hmint⟩
    | burn _ account mint authority amount =>
      obtain ⟨⟨⟩, hprogram, h⟩ := Outcome.bind_eq_ok.mp h
      obtain ⟨a, m, x, y, ha, hm, -, -, -, -, -, rfl⟩ := burn_eq_ok h
      have hm := mintAt_of_read hprogram hm
      have ha := tokenAt_of_read hprogram ha
      obtain ⟨c, hc, hmint⟩ := tokenAt_of_setAmount
        (ha.sameAt (sameAt_setSupply (ne_of_tokenAt ha hm).symm)) ha'
      exact ⟨c, tokenAt_of_setSupply hm hc, hmint⟩
    | createAccount | transfer | allocate | assign => exact hcall.elim
  native h := by
    obtain ⟨⟨⟩, -, h⟩ := Outcome.bind_eq_ok.mp h
    obtain ⟨⟨⟩, -, h⟩ := Outcome.bind_eq_ok.mp h
    obtain ⟨m, b, x, y, -, -, -, -, -, hnative, -⟩ := mintTo_eq_ok h
    exact hnative

end Promises

end Solana.Bank

/-! ## A market -/

namespace Market

/-- Only the pool has an authority. In the market no other seeds derive an address for a pool. -/
theorem createProgramAddress_authority {swap address : Pubkey} {bumpSeed : UInt8}
    (h : Solana.Reference.createProgramAddress [toLE 32 swap, [bumpSeed]] = some address) :
    swap = World.swap ∧ address = World.authority := by
  have hall : ∀ entry ∈ Solana.Reference.programAddresses, entry.1.length = 1 →
      entry.1 = [toLE 32 World.swap] ∧ entry.2.1 = World.authority := by decide +kernel
  obtain ⟨⟨known, address', bumpSeed'⟩, hmem, h⟩ := List.exists_of_findSome?_eq_some h
  simp only at h
  split at h
  · rename_i hseeds
    have hknown : known = [toLE 32 swap] :=
      List.append_inj_left' (hseeds.trans (List.append_cons [] _ _)) rfl
    obtain ⟨hswap, haddress⟩ := hall _ hmem (by rw [hknown]; rfl)
    have heq := List.singleton_inj.mp (hknown.symm.trans hswap)
    refine ⟨?_, (Option.some.inj h).symm.trans haddress⟩
    rw [← Bytes.ofLE_toLE (k := 32) swap, heq, Bytes.ofLE_toLE]
  · cases h

/-- Someone who trades, with an account for each of the two tokens. -/
def user : Pubkey := 14#256

/-- The world, with accounts of the user for both tokens. -/
def accounts : List (Pubkey × Account) :=
  World.accounts ++
  [ (11#256, World.tokenAccount 6#256 user 500000#64),
    (12#256, World.tokenAccount 7#256 user 500000#64) ]

/-- The ledger. Any account that is not listed is empty and belongs to the system program. -/
def ledger : Ledger := fun key => (accounts.lookup key).getD ⟨SYSTEM_PROGRAM_ID, 0#64, []⟩

/-- An Initialize with fees of one percent, at a price of two. -/
def initializeData : Initialize :=
  ⟨⟨1#64, 100#64, 1#64, 100#64, 1#64, 100#64, 20#64, 100#64⟩,
    ⟨.constantPrice, .constantPrice ⟨2#128 * RAY⟩⟩⟩

/-- The accounts that the Initialize lists, the pool first. Nobody has to sign. -/
def initializeAccounts : List AccountInfo :=
  [ ⟨World.swap, false⟩, ⟨World.authority, false⟩, ⟨3#256, false⟩, ⟨4#256, false⟩, ⟨5#256, false⟩,
    ⟨6#256, false⟩, ⟨7#256, false⟩, ⟨8#256, false⟩, ⟨9#256, false⟩, ⟨SPL_TOKEN_ID, false⟩ ]

/-- The bytes that are sent for the Initialize. -/
def initializeInput : Bytes := (SwapInstruction.initializeSwap initializeData).pack

/-- They are decoded to the Initialize. -/
theorem unpack_initializeInput :
    SwapInstruction.unpack initializeInput = .ok (.initializeSwap initializeData) :=
  SwapInstruction.unpack_pack_initialize rfl

/-- The Initialize, as an event of the ledger. -/
def initializeEvent : Event := .instruction World.clock initializeAccounts initializeInput

/-- A swap of some token A for token B, at whatever the curve gives. -/
def swapData : Swap := ⟨10000#64, 1#64⟩

/-- The accounts that the swap lists. The user signs; the host is left out. -/
def swapAccounts : List AccountInfo :=
  [ ⟨World.swap, false⟩, ⟨World.authority, false⟩, ⟨user, true⟩, ⟨11#256, false⟩, ⟨3#256, false⟩,
    ⟨4#256, false⟩, ⟨12#256, false⟩, ⟨5#256, false⟩, ⟨8#256, false⟩, ⟨6#256, false⟩,
    ⟨7#256, false⟩, ⟨SPL_TOKEN_ID, false⟩, ⟨SPL_TOKEN_ID, false⟩, ⟨SPL_TOKEN_ID, false⟩ ]

/-- The bytes that are sent for the swap. -/
def swapInput : Bytes := (SwapInstruction.swap swapData).pack

/-- They are decoded to the swap. -/
theorem unpack_swapInput : SwapInstruction.unpack swapInput = .ok (.swap swapData) := rfl

/-- The swap, as an event of the ledger. -/
def swapEvent : Event := .instruction World.later swapAccounts swapInput

/-- Only the user signs it, so nobody else's tokens can move. -/
theorem eq_user_of_signedBy {address : Pubkey} (h : swapEvent.SignedBy address) :
    address = user := by
  have hall : ∀ info ∈ swapAccounts, info.isSigner = true → info.key = user := by decide
  obtain ⟨_, _, _, ⟨⟩, info, hinfo, rfl, hsigner⟩ := h
  exact hall info hinfo hsigner

section Steps

attribute [local instance] Solana.bank SplMath.reference

/-- The Initialize and the swap succeed, one after the other. Every run of the market below starts
with these two steps. -/
theorem steps : ∃ l₁ l₂, Step none ledger initializeEvent l₁ ∧ Step none l₁ swapEvent l₂ := by
  have hrun : (do
      let l₁ ← processWithConstraints none initializeAccounts initializeInput World.clock ledger
      processWithConstraints none swapAccounts swapInput World.later l₁).isOk := by
    decide +kernel
  obtain ⟨l₂, hrun⟩ := Outcome.isOk_iff.mp hrun
  obtain ⟨l₁, hinit, hswap⟩ := Outcome.bind_eq_ok.mp hrun
  exact ⟨l₁, l₂, hinit, hswap⟩

end Steps

end Market

end SolanaPsm
