import SolanaPsm.CustodyRuns
import SolanaPsm.TokenLedger

/-!
# The books of a mint

The accounts of a mint hold no more than its supply (`Backed`): the balances of the accounts and
the supply are those of a `TokenLedger`.

Every instruction of the program keeps the books of a mint whose extensions are accepted right,
whatever it does (`step_backed`): its calls mint, burn and transfer as the token ledger does, and
calls for other mints do not reach the accounts of this one. That other programs keep the books
right is what a `BookedStep` asks of them.
-/

namespace SolanaPsm

section Books

variable [Solana]

namespace Ledger

variable {l l' : Ledger} {mint key source destination account : Pubkey} {a b : TokenAccount}
  {m : Mint} {amount : U64}

/-- What an account holds of a mint. Something that is no account of it holds nothing. -/
def balanceOf (l : Ledger) (mint key : Pubkey) : ℕ :=
  match unpackTokenAccount key none l with
  | .ok a => if a.mint = mint then a.amount.toNat else 0
  | _ => 0

theorem TokenAt.balanceOf (h : l.TokenAt key a) (hmint : a.mint = mint) :
    l.balanceOf mint key = a.amount.toNat := by
  rw [Ledger.balanceOf, h]
  exact if_pos hmint

theorem balanceOf_eq_zero (h : ∀ a, l.TokenAt key a → a.mint ≠ mint) :
    l.balanceOf mint key = 0 := by
  rw [balanceOf]
  split
  · rename_i a ha
    exact if_neg (h a ha)
  · rfl

theorem SameAt.balanceOf (h : l.SameAt l' key) : l'.balanceOf mint key = l.balanceOf mint key := by
  rw [Ledger.balanceOf, Ledger.balanceOf, unpackTokenAccount, unpackTokenAccount, h.1, h.2]

theorem AmountMoved.balanceOf {n : ℕ} (h : l'.AmountMoved key a n) (hmint : a.mint = mint) :
    l'.balanceOf mint key = n := by
  obtain ⟨a', ha', hmoved, hamount⟩ := h
  rw [ha'.balanceOf (hmoved.mint.trans hmint), hamount]

/-- What the accounts hold after a transfer, also when it is to the account itself. -/
theorem Transferred.balanceOf (h : l.Transferred l' source destination amount a b)
    (ha : l.TokenAt source a) (hb : l.TokenAt destination b)
    (hmints : a.mint = mint ∧ b.mint = mint) (key : Pubkey) :
    l'.balanceOf mint key + (if key = source then amount.toNat else 0) =
      l.balanceOf mint key + if key = destination then amount.toNat else 0 := by
  by_cases hne : source = destination
  · rw [(h.frame (.inr hne)).balanceOf, hne]
  · by_cases hsource : key = source
    · subst key
      rw [if_pos rfl, if_neg hne, (h.leaves hne).balanceOf hmints.1, ha.balanceOf hmints.1]
      exact Nat.sub_add_cancel h.enough
    · rw [if_neg hsource]
      split
      · subst key
        rw [(h.arrives hne).balanceOf hmints.2, hb.balanceOf hmints.2]
        rfl
      · rename_i hdestination
        rw [(h.frame (.inl ⟨hsource, hdestination⟩)).balanceOf]

/-- The ledger keeps books of a mint whose extensions are accepted: its supply is the supply of the
books, and what its accounts hold are their balances. A `TokenLedger` cannot hand out more than its
supply, so neither has this mint. -/
structure Books (l : Ledger) (mint : Pubkey) (books : TokenLedger Pubkey) : Prop where
  /-- the mint is there -/
  plain : l.PlainMint false mint
  /-- its supply -/
  supply : ∀ {m}, l.MintAt mint m → books.supply = m.supply.toNat
  /-- its accounts -/
  balance : ∀ key, books.balance key = l.balanceOf mint key

/-- The accounts of a mint together hold no more than its supply. They may hold less: balances can
be confidential. -/
def Backed (l : Ledger) (mint : Pubkey) : Prop := ∃ books, l.Books mint books

namespace Books

variable {books : TokenLedger Pubkey}

/-- Nothing happens to the mint, and no balance changes. -/
theorem of_balanceOf_eq (h : l.Books mint books) (hmint : l.SameAt l' mint)
    (hbalance : ∀ key, l'.balanceOf mint key = l.balanceOf mint key) : l'.Books mint books where
  plain := h.plain.sameAt hmint
  supply hm := h.supply (hm.sameAt hmint.symm)
  balance key := (h.balance key).trans (hbalance key).symm

/-- Nothing happens at the token programs. -/
theorem of_kept (h : l.Books mint books) (hkept : l.TokensKept l') : l'.Books mint books := by
  refine h.of_balanceOf_eq (hkept mint (.inl h.plain.1.choose_spec.program)) fun key => ?_
  by_cases hprogram : (checkSplTokenProgramAccount (l key).owner).isOk = true ∨
      (checkSplTokenProgramAccount (l' key).owner).isOk = true
  · exact (hkept key hprogram).balanceOf
  · rw [not_or] at hprogram
    rw [balanceOf_eq_zero fun a ha => absurd ha.program hprogram.1,
      balanceOf_eq_zero fun a ha => absurd ha.program hprogram.2]

/-! ## Calls -/

variable [TokenProgram]

/-- A transfer is a transfer in the books. -/
theorem transferred (h : l.Books mint books) (ha : l.TokenAt source a)
    (hb : l.TokenAt destination b) (hmints : a.mint = mint ∧ b.mint = mint)
    (htransfer : l.Transferred l' source destination amount a b) :
    ∃ books', books.transfer source destination amount.toNat = some books' ∧
      l'.Books mint books' := by
  have henough := htransfer.enough
  rw [← ha.balanceOf hmints.1, ← h.balance] at henough
  obtain ⟨books', hbooks'⟩ := books.exists_transfer henough destination
  obtain ⟨m, hm⟩ := h.plain.1
  have hmint := (Custody.sameAt_of_transferred ha hb hmints htransfer).1 hm
  refine ⟨books', hbooks', h.plain.sameAt hmint, ?_, ?_⟩
  · intro m' hm'
    rw [(TokenLedger.transfer_eq_some hbooks').1]
    exact h.supply (hm'.sameAt hmint.symm)
  · intro key
    have hmoved := TokenLedger.balance_transfer hbooks' key
    rw [h.balance, ← htransfer.balanceOf ha hb hmints key] at hmoved
    exact Nat.add_right_cancel hmoved

/-- The mint of tokens is no account of them, before and after its supply changed. -/
theorem balanceOf_mint (hm : l.MintAt mint m) {n : ℕ} (hmoved : l.SupplyMoved l' mint m n) :
    l'.balanceOf mint mint = l.balanceOf mint mint := by
  obtain ⟨⟨m', hm', -, -⟩, -⟩ := hmoved
  rw [balanceOf_eq_zero fun a ha => absurd hm (TokenProgram.exclusive ha),
    balanceOf_eq_zero fun a ha => absurd hm' (TokenProgram.exclusive ha)]

/-- Minting is minting in the books. -/
theorem minted (h : l.Books mint books) (hm : l.MintAt mint m) (hb : l.TokenAt destination b)
    (hmint : b.mint = mint) (hminted : l.Minted l' mint destination amount m b) :
    l'.Books mint (books.mint destination amount.toNat) := by
  obtain ⟨⟨m', hm', -, hsupply⟩, hplain⟩ := hminted.supply
  refine ⟨hplain false h.plain, ?_, ?_⟩
  · intro m'' hm''
    rw [hm''.unique hm', hsupply, ← h.supply hm]
    rfl
  · intro key
    rw [TokenLedger.balance_mint, h.balance]
    split
    · subst key
      rw [hminted.arrives.balanceOf hmint, hb.balanceOf hmint]
    · rename_i hkey
      by_cases hkeym : key = mint
      · subst key
        exact (balanceOf_mint hm hminted.supply).symm
      · exact (hminted.frame hkeym hkey).balanceOf.symm

/-- Burning is burning in the books. -/
theorem burned (h : l.Books mint books) (ha : l.TokenAt account a) (hm : l.MintAt mint m)
    (hmint : a.mint = mint) (hburned : l.Burned l' account mint amount a m) :
    ∃ books', books.burn account amount.toNat = some books' ∧ l'.Books mint books' := by
  have henough := hburned.enough
  rw [← ha.balanceOf hmint, ← h.balance] at henough
  obtain ⟨books', hbooks'⟩ := books.exists_burn henough
  obtain ⟨⟨m', hm', -, hsupply⟩, hplain⟩ := hburned.supply
  refine ⟨books', hbooks', hplain false h.plain, ?_, ?_⟩
  · intro m'' hm''
    rw [hm''.unique hm', hsupply, ← h.supply hm, ← (TokenLedger.burn_eq_some hbooks').1]
    exact (Nat.add_sub_cancel _ _).symm
  · intro key
    have hbalance := TokenLedger.balance_burn hbooks' key
    rw [h.balance] at hbalance
    split at hbalance
    · subst key
      rw [hburned.leaves.balanceOf hmint, ← ha.balanceOf hmint, ← hbalance]
      exact (Nat.add_sub_cancel _ _).symm
    · rename_i hkey
      rw [Nat.add_zero] at hbalance
      rw [hbalance]
      by_cases hkeym : key = mint
      · subst key
        exact (balanceOf_mint hm hburned.supply).symm
      · exact (hburned.frame hkey hkeym).balanceOf.symm

variable [CallEffects]

omit [TokenProgram] in
/-- A call for another mint does not reach the books of this one. -/
theorem of_other {tokenProgram : Pubkey} {call : Call} {signers : List Pubkey}
    {seeds : List (List Bytes)} (h : l.Books mint books) (hcall : call.IsToken)
    (hinvoke : invokeToken tokenProgram call signers seeds l = .ok l') (hmint : mint ∉ call.writes)
    (hother : ∀ key ∈ call.writes, ∀ a, l.TokenAt key a → a.mint ≠ mint) :
    l'.Books mint books := by
  obtain ⟨_, -, hrun⟩ := Outcome.bind_eq_ok.mp hinvoke
  have hsame {key : Pubkey} (hkey : key ∉ call.writes) : l.SameAt l' key := by
    rw [SameAt, CallEffects.frame hrun hkey]
    exact ⟨rfl, rfl⟩
  refine h.of_balanceOf_eq (hsame hmint) fun key => ?_
  by_cases hkey : key ∈ call.writes
  · rw [balanceOf_eq_zero (hother key hkey), balanceOf_eq_zero]
    intro a' ha'
    obtain ⟨a, ha, hmint'⟩ := CallEffects.account hcall hinvoke ha'
    exact hmint' ▸ hother key hkey a ha
  · exact (hsame hkey).balanceOf

end Books

namespace Backed

theorem of_kept (h : l.Backed mint) (hkept : l.TokensKept l') : l'.Backed mint := by
  obtain ⟨books, h⟩ := h
  exact ⟨books, h.of_kept hkept⟩

/-- The books of a mint that nobody has minted for are empty. -/
theorem of_empty (hplain : l.PlainMint false mint) (hm : l.MintAt mint m)
    (hsupply : m.supply = 0#64)
    (hbalance : ∀ {key a}, l.TokenAt key a → a.mint = mint → a.amount = 0#64) :
    l.Backed mint := by
  refine ⟨.empty, hplain, ?_, ?_⟩
  · intro m' hm'
    rw [hm'.unique hm, hsupply]
    rfl
  · intro key
    rw [balanceOf]
    split
    · rename_i a ha
      split
      · rename_i hmint
        rw [hbalance ha hmint]
        rfl
      · rfl
    · rfl

/-- Nobody holds more than the supply. -/
theorem balanceOf_le (h : l.Backed mint) (hm : l.MintAt mint m) :
    l.balanceOf mint key ≤ m.supply.toNat := by
  obtain ⟨books, h⟩ := h
  rw [← h.balance, ← h.supply hm]
  exact books.balance_le_supply key

variable [TokenProgram] [CallEffects] {tokenProgram mint' : Pubkey} {call : Call}
  {signers : List Pubkey} {seeds : List (List Bytes)}

/-- A call for another mint, which writes a mint and accounts of it. -/
theorem of_other_mint (h : l.Backed mint) (hcall : call.IsToken) (hne : mint' ≠ mint)
    (hinvoke : invokeToken tokenProgram call signers seeds l = .ok l')
    (hwrites : ∀ key ∈ call.writes, (∃ m, key = mint' ∧ l.MintAt key m) ∨
      ∃ a, l.TokenAt key a ∧ a.mint = mint') : l'.Backed mint := by
  obtain ⟨books, h⟩ := h
  obtain ⟨n, hn⟩ := h.plain.1
  refine ⟨books, h.of_other hcall hinvoke ?_ ?_⟩
  · intro hmem
    obtain ⟨m, hmint, -⟩ | ⟨a, ha, -⟩ := hwrites mint hmem
    · exact hne hmint.symm
    · exact TokenProgram.exclusive ha hn
  · intro key hkey c hc
    obtain ⟨m, -, hm⟩ | ⟨a, ha, hmint⟩ := hwrites key hkey
    · exact absurd hm (TokenProgram.exclusive hc)
    · rwa [hc.unique ha, hmint]

variable {swap authority : Pubkey} {bumpSeed decimals : UInt8}

theorem tokenTransfer (h : l.Backed mint)
    (hcall : tokenTransfer swap tokenProgram source mint' destination authority bumpSeed amount
      decimals signers l = .ok l') : l'.Backed mint := by
  obtain ⟨a, b, ha, hb, hmintA, hmintB, htransfer⟩ := TokenProgram.transferred hcall
  by_cases hmint : mint' = mint
  · obtain rfl := hmint
    obtain ⟨books, h⟩ := h
    obtain ⟨books', -, h'⟩ := h.transferred ha hb ⟨hmintA, hmintB⟩ (htransfer h.plain)
    exact ⟨books', h'⟩
  · refine h.of_other_mint (by exact trivial) hmint hcall ?_
    rw [Call.writes, List.forall_mem_cons, List.forall_mem_singleton]
    exact ⟨.inr ⟨a, ha, hmintA⟩, .inr ⟨b, hb, hmintB⟩⟩

theorem tokenMintTo (h : l.Backed mint)
    (hcall : tokenMintTo swap tokenProgram mint' destination authority bumpSeed amount signers l =
      .ok l') : l'.Backed mint := by
  obtain ⟨m, b, hm, hb, hmintB, hminted⟩ := TokenProgram.minted hcall
  by_cases hmint : mint' = mint
  · obtain rfl := hmint
    obtain ⟨books, h⟩ := h
    exact ⟨_, h.minted hm hb hmintB (hminted h.plain)⟩
  · refine h.of_other_mint (by exact trivial) hmint hcall ?_
    rw [Call.writes, List.forall_mem_cons, List.forall_mem_singleton]
    exact ⟨.inl ⟨m, rfl, hm⟩, .inr ⟨b, hb, hmintB⟩⟩

theorem tokenBurn (h : l.Backed mint)
    (hcall : tokenBurn swap tokenProgram account mint' authority bumpSeed amount signers l =
      .ok l') : l'.Backed mint := by
  obtain ⟨a, m, ha, hm, hmintA, hburned⟩ := TokenProgram.burned hcall
  by_cases hmint : mint' = mint
  · obtain rfl := hmint
    obtain ⟨books, h⟩ := h
    obtain ⟨books', -, h'⟩ := h.burned ha hm hmintA (hburned h.plain)
    exact ⟨books', h'⟩
  · refine h.of_other_mint (by exact trivial) hmint hcall ?_
    rw [Call.writes, List.forall_mem_cons, List.forall_mem_singleton]
    exact ⟨.inr ⟨a, ha, hmintA⟩, .inl ⟨m, rfl, hm⟩⟩

end Backed

/-- What is locked is part of the supply. -/
theorem Locks.le_supply {owner authority : Pubkey} {amount : ℕ} {supply : U64}
    (h : l.Locks key mint owner amount) (hbacked : l.Backed mint)
    (hmint : l.Issues mint authority supply) : amount ≤ supply.toNat := by
  obtain ⟨-, a, ha, hmint', -, -, hamount⟩ := h
  obtain ⟨m, hm, -, rfl⟩ := hmint
  refine hamount.trans ?_
  rw [← ha.balanceOf hmint']
  exact hbacked.balanceOf_le hm

end Ledger

/-! ## Events -/

variable [TokenProgram] [CallEffects] {l l' : Ledger} {mint : Pubkey}

/-- Each call of a trade keeps the books. -/
theorem TradeCalls.perform_backed {calls : TradeCalls} {effect : PoolEffect} (h : l.Backed mint)
    (hcall : calls.perform effect l = .ok l') : l'.Backed mint := by
  cases effect with
  | unpackMint | unpackHostFeeAccount =>
    obtain ⟨_, -, hcall⟩ := Outcome.bind_eq_ok.mp hcall
    obtain rfl := Outcome.ok.inj hcall
    exact h
  | payIn | payOut =>
    obtain ⟨_, -, hcall⟩ := Outcome.bind_eq_ok.mp hcall
    exact h.tokenTransfer hcall
  | mintTo => exact h.tokenMintTo hcall
  | burn => exact h.tokenBurn hcall
  | transferPool => exact h.tokenTransfer hcall

variable [SplMath] {swapConstraints : Option SwapConstraints}

/-- Every instruction keeps the books, of any mint. -/
theorem processInstruction_backed {accounts : List AccountInfo} {instruction : SwapInstruction}
    {clock : Clock} (hwell : instruction.WellFormed) (hbacked : l.Backed mint)
    (h : processInstruction swapConstraints accounts instruction clock l = .ok l') :
    l'.Backed mint := by
  by_cases hcalls : instruction.CallsTokens
  · by_cases htrade : instruction.IsTrade
    · obtain ⟨prepared, _, -, hperform⟩ := trade_checked htrade h
      obtain ⟨log, _, -, hlog⟩ := Script.run_eq_ok.mp hperform
      exact Script.performAll_invariant (P := fun l l' => l.Backed mint → l'.Backed mint)
        (fun _ => id) (fun h h' => h' ∘ h)
        (fun _ _ _ _ hcall h => TradeCalls.perform_backed h hcall) hlog hbacked
    · cases processInstruction_effect hwell h with
      | initialized haccounts hcreated =>
        obtain ⟨_, _, _, _, _, _, l₁, _, hmint, hkept, -⟩ := processInitialize_mints hwell h
        exact (hbacked.tokenMintTo hmint).of_kept hkept
      | ratesSet | recorded | reflagged => exact hcalls.elim
      | traded htrade' => exact absurd htrade' htrade
  · exact hbacked.of_kept (processInstruction_kept hwell hcalls h)

/-- So does every event but those of other programs. -/
theorem step_backed {event : Event} (hforeign : event ≠ .foreign) (hbacked : l.Backed mint)
    (h : Step swapConstraints l event l') : l'.Backed mint := by
  cases event with
  | foreign => exact absurd rfl hforeign
  | instruction clock accounts input =>
    obtain ⟨instruction, hunpack, hprocess⟩ := Outcome.bind_eq_ok.mp h
    exact processInstruction_backed (SwapInstruction.wellFormed_of_unpack hunpack) hbacked hprocess

/-- One event in a world where, besides, other programs keep the books of a mint right: when its
accounts held no more than the supply, they do not after it. The token programs never let them, but
what other programs call is not modelled, so this is asked of every event of theirs. Of the
program's own instructions it is proved (`step_backed`). -/
structure BookedStep (swapConstraints : Option SwapConstraints) (mints : Set Pubkey)
    (addresses : List Pubkey) (mint : Pubkey) (l : Ledger) (event : Event) (l' : Ledger) :
    Prop where
  /-- the event -/
  step : TokenStep swapConstraints mints addresses l event l'
  /-- other programs keep the books right -/
  books : event = .foreign → l.Backed mint → l'.Backed mint

/-- The books of the mint stay right, whoever acts. -/
theorem BookedStep.backed {mints : Set Pubkey} {addresses : List Pubkey} {event : Event}
    (h : BookedStep swapConstraints mints addresses mint l event l') (hbacked : l.Backed mint) :
    l'.Backed mint := by
  by_cases hforeign : event = .foreign
  · exact h.books hforeign hbacked
  · exact step_backed hforeign hbacked h.step.step

end Books

section Market

attribute [local instance] Solana.bank SplMath.reference Solana.Bank.promises

/-- Before its Initialize the market has no pool tokens. -/
theorem Market.backed_ledger : Market.ledger.Backed 5#256 := by
  have hread : (unpackMint 5#256 Market.ledger >>= fun m =>
      Outcome.rejectIf (m.supply ≠ 0#64) (ProgramError.external 0)).isOk := by decide +kernel
  simp only [Outcome.isOk_iff, Outcome.bind_eq_ok, Outcome.rejectIf_eq_ok, not_not] at hread
  obtain ⟨-, m, hm, hsupply⟩ := hread
  have hall : ∀ entry ∈ accounts, ∀ a ∈ Solana.Reference.unpackAccount entry.2.data,
      a.mint = 5#256 → a.amount = 0#64 := by
    decide +kernel
  refine .of_empty (Solana.Bank.plainMint_iff.mpr ⟨m, hm⟩) hm hsupply fun {key a} ha hmint => ?_
  obtain ⟨hprogram, ha⟩ := Solana.Bank.tokenAt_iff.mp ha
  rw [ledger] at hprogram ha
  cases hlookup : accounts.lookup key with
  | none =>
    rw [hlookup] at hprogram
    exact absurd hprogram (by decide)
  | some account =>
    rw [hlookup] at ha
    obtain ⟨before, after, hsplit, -⟩ := List.lookup_eq_some_iff.mp hlookup
    have hmem : (key, account) ∈ accounts := by
      rw [hsplit]
      simp
    exact hall (key, account) hmem a ha hmint

/-- Nobody but the user signs the swap, and no other program acts. -/
theorem Market.bookedStep {mints : Set Pubkey} {addresses : List Pubkey} {mint : Pubkey}
    {l l' : Ledger} (huser : user ∉ addresses) (hstep : Step none l swapEvent l') :
    BookedStep none mints addresses mint l swapEvent l' :=
  ⟨tokenStep huser hstep, by rintro ⟨⟩⟩

end Market

end SolanaPsm
