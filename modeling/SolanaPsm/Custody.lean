import SolanaPsm.CheckedTrade

/-!
# The pool at the token programs

`Custody` relates a ledger to the balances of a pool: the two reserves and the pool mint hold
them, belong to the authority of the pool alone, and are of three different mints.

A call of a trade moves the balances as `PoolEffect.apply` says and keeps the custody
(`Custody.call`). So a trade of the pool on the ledger is its script run on the balances
(`trade_refines`): results about scripts are results about ledgers. Any other event needs no
signature of the authority, and can only add to the reserves (`step_guarded`).
-/

namespace SolanaPsm

/-! ## Custody -/

/-- The three mints of a pool differ. -/
structure SwapV1.MintsDiffer (state : SwapV1) : Prop where
  /-- the tokens differ -/
  tokens : state.tokenAMint ≠ state.tokenBMint
  /-- and are no pool tokens -/
  poolMint : ∀ token, state.mint token ≠ state.poolMint

theorem SwapV1.MintsDiffer.mint_ne {state : SwapV1} (h : state.MintsDiffer) {t token : PoolToken}
    (hne : t ≠ token) : state.mint t ≠ state.mint token := by
  cases t with
  | a =>
    cases token with
    | a => exact absurd rfl hne
    | b => exact h.tokens
  | b =>
    cases token with
    | a => exact h.tokens.symm
    | b => exact absurd rfl hne

/-- The three mints of a pool. -/
def SwapV1.mints (state : SwapV1) : Set Pubkey :=
  {mint | mint = state.poolMint ∨ ∃ token, mint = state.mint token}

theorem SwapV1.poolMint_mem_mints (state : SwapV1) : state.poolMint ∈ state.mints := .inl rfl

theorem SwapV1.mint_mem_mints (state : SwapV1) (token : PoolToken) :
    state.mint token ∈ state.mints := .inr ⟨token, rfl⟩

section Custody

variable [Solana]

namespace Ledger

variable {l l' : Ledger} {key mint owner authority : Pubkey} {state : SwapV1} {s : Balances}

/-- A token account of an owner alone: nobody else may move its tokens or close it. -/
def Holds (l : Ledger) (key mint owner : Pubkey) (amount : U64) : Prop :=
  ∃ a, l.TokenAt key a ∧ a.mint = mint ∧ a.owner = owner ∧ a.delegate = none ∧
    a.closeAuthority = none ∧ a.amount = amount

/-- A mint with its authority and supply. -/
def Issues (l : Ledger) (key authority : Pubkey) (supply : U64) : Prop :=
  ∃ m, l.MintAt key m ∧ m.mintAuthority = some authority ∧ m.supply = supply

theorem Holds.sameAt {amount : U64} (h : l.Holds key mint owner amount)
    (hsame : l.SameAt l' key) : l'.Holds key mint owner amount := by
  obtain ⟨a, ha, hrest⟩ := h
  exact ⟨a, ha.sameAt hsame, hrest⟩

theorem Issues.sameAt {supply : U64} (h : l.Issues key authority supply)
    (hsame : l.SameAt l' key) : l'.Issues key authority supply := by
  obtain ⟨m, hm, hrest⟩ := h
  exact ⟨m, hm.sameAt hsame, hrest⟩

/-- An account that is held is still held with its new amount. -/
theorem Holds.moved {amount : U64} {a : TokenAccount} {n : ℕ} (h : l.Holds key mint owner amount)
    (ha : l.TokenAt key a) (hmoved : l'.AmountMoved key a n) :
    ∃ amount' : U64, amount'.toNat = n ∧ l'.Holds key mint owner amount' := by
  obtain ⟨_, ha', hmint, howner, hdelegate, hclose, -⟩ := h
  obtain rfl := ha.unique ha'
  obtain ⟨a', ha', hmove, hamount⟩ := hmoved
  exact ⟨a'.amount, hamount, a', ha', hmove.mint.trans hmint, hmove.owner.trans howner,
    hmove.delegate hdelegate, hmove.closeAuthority hclose, rfl⟩

theorem Issues.moved {supply : U64} {m : Mint} {n : ℕ} (h : l.Issues key authority supply)
    (hm : l.MintAt key m) (hmoved : l.SupplyMoved l' key m n) :
    ∃ supply' : U64, supply'.toNat = n ∧ l'.Issues key authority supply' := by
  obtain ⟨_, hm', hauthority, -⟩ := h
  obtain rfl := hm.unique hm'
  obtain ⟨⟨m', hm', hmove, hsupply⟩, -⟩ := hmoved
  exact ⟨m'.supply, hsupply, m', hm', hmove.mintAuthority.trans hauthority, rfl⟩

/-- Tokens of an address, other than wrapped lamports, in an account without a delegate. Somebody
else may be its close authority, who can do nothing as long as tokens are in it. -/
def Locks (l : Ledger) (key mint owner : Pubkey) (amount : ℕ) : Prop :=
  mint ∉ NATIVE_MINT_IDS ∧ ∃ a, l.TokenAt key a ∧ a.mint = mint ∧ a.owner = owner ∧
    a.delegate = none ∧ amount ≤ a.amount.toNat

/-- Without the signature of its owner, a locked account keeps what it holds. -/
theorem Locks.guarded {mints : Set Pubkey} {amount : ℕ} (h : l.Locks key mint owner amount)
    (hpos : 0 < amount) (hmem : mint ∈ mints) (hplain : l.PlainMint false mint)
    (hguarded : l.Guarded mints l' owner) : l'.Locks key mint owner amount := by
  obtain ⟨hnative, a, ha, hmint, howner, hdelegate, hamount⟩ := h
  obtain ⟨a', ha', hmoved, hle⟩ := hguarded.account ha (hmint ▸ hmem) (hmint ▸ hplain) howner
    hdelegate (.inr ⟨hpos.trans_le hamount, hmint ▸ hnative⟩)
  refine ⟨hnative, ?_⟩
  exact ⟨a', ha', hmoved.mint.trans hmint, hmoved.owner.trans howner, hmoved.delegate hdelegate,
    hamount.trans hle⟩

/-- The reserves and the pool mint of a pool hold the balances, for its authority alone. -/
structure Custody (l : Ledger) (state : SwapV1) (authority : Pubkey) (s : Balances) : Prop where
  /-- the mints differ -/
  differ : state.MintsDiffer
  /-- the reserves -/
  reserve : ∀ token,
    l.Holds (state.reserve token) (state.mint token) authority (s.reserve token)
  /-- the pool mint -/
  poolMint : l.Issues state.poolMint authority s.supply
  /-- the extensions of the mints are accepted -/
  plain : ∀ token, l.PlainMint false (state.mint token)
  /-- and so are those of the pool mint -/
  plainPool : l.PlainMint true state.poolMint

namespace Custody

/-- Custody does not depend on the curve. -/
theorem withCurve (curve : RedemptionRateCurve) {l : Ledger} {s : Balances} :
    l.Custody (state.withCurve curve) authority s ↔ l.Custody state authority s := by
  refine ⟨?_, ?_⟩
  · rintro ⟨hdiffer, hreserve, hpoolMint, hplain, hplainPool⟩
    exact ⟨⟨hdiffer.tokens, hdiffer.poolMint⟩, hreserve, hpoolMint, hplain, hplainPool⟩
  · rintro ⟨hdiffer, hreserve, hpoolMint, hplain, hplainPool⟩
    exact ⟨⟨hdiffer.tokens, hdiffer.poolMint⟩, hreserve, hpoolMint, hplain, hplainPool⟩

/-- Mints that are kept are still accepted. -/
theorem plain_of_sameAt (h : l.Custody state authority s)
    (hsame : ∀ {key m}, l.MintAt key m → key ≠ state.poolMint → l.SameAt l' key)
    (token : PoolToken) : l'.PlainMint false (state.mint token) := by
  obtain ⟨m, hm⟩ := (h.plain token).1
  exact (h.plain token).sameAt (hsame hm (h.differ.poolMint token))

/-- A reserve of another mint is untouched. -/
theorem reserve_of_sameAt (h : l.Custody state authority s) {token : PoolToken}
    (hsame : ∀ {c}, l.TokenAt (state.reserve token) c → c.mint = state.mint token →
      l.SameAt l' (state.reserve token)) :
    l'.Holds (state.reserve token) (state.mint token) authority (s.reserve token) := by
  obtain ⟨c, hc, hmint, hrest⟩ := h.reserve token
  exact Holds.sameAt ⟨c, hc, hmint, hrest⟩ (hsame hc hmint)

/-- Nothing happens at the token programs. -/
theorem of_kept (h : l.Custody state authority s) (hkept : l.TokensKept l') :
    l'.Custody state authority s where
  differ := h.differ
  reserve token := by
    obtain ⟨a, ha, hrest⟩ := h.reserve token
    exact Holds.sameAt ⟨a, ha, hrest⟩ (hkept _ (.inl ha.program))
  poolMint := by
    obtain ⟨m, hm, hrest⟩ := h.poolMint
    exact Issues.sameAt ⟨m, hm, hrest⟩ (hkept _ (.inl hm.program))
  plain token := by
    obtain ⟨m, hm⟩ := (h.plain token).1
    exact (h.plain token).sameAt (hkept _ (.inl hm.program))
  plainPool := by
    obtain ⟨m, hm⟩ := h.plainPool.1
    exact h.plainPool.sameAt (hkept _ (.inl hm.program))

/-- Without the signature of the authority the reserves only grow, and the supply only falls. -/
theorem guarded {mints : Set Pubkey} (h : l.Custody state authority s)
    (hmints : state.mints ⊆ mints) (hguarded : l.Guarded mints l' authority) :
    ∃ s', l'.Custody state authority s' ∧ (∀ token, s.reserves token ≤ s'.reserves token) ∧
      s'.supply.toNat ≤ s.supply.toNat := by
  have hreserve (token : PoolToken) : ∃ x : U64, s.reserves token ≤ x.toNat ∧
      l'.Holds (state.reserve token) (state.mint token) authority x := by
    obtain ⟨a, ha, hmint, howner, hdelegate, hclose, hamount⟩ := h.reserve token
    obtain ⟨a', ha', hmoved, hle⟩ :=
      hguarded.account ha (hmint ▸ hmints (state.mint_mem_mints token)) (hmint ▸ h.plain token)
        howner hdelegate (.inl hclose)
    rw [hamount] at hle
    exact ⟨a'.amount, hle, a', ha', hmoved.mint.trans hmint, hmoved.owner.trans howner,
      hmoved.delegate hdelegate, hmoved.closeAuthority hclose, rfl⟩
  obtain ⟨x, hx, hheldA⟩ := hreserve .a
  obtain ⟨y, hy, hheldB⟩ := hreserve .b
  obtain ⟨m, hm, hauthority, hsupply⟩ := h.poolMint
  have hpool := hmints state.poolMint_mem_mints
  obtain ⟨m', hm', hmoved, hle⟩ := hguarded.mint hm hpool h.plainPool hauthority
  rw [hsupply] at hle
  refine ⟨⟨x, y, m'.supply⟩, ?_, ?_, hle⟩
  · exact {
      differ := h.differ
      reserve := fun token => by cases token <;> assumption
      poolMint := ⟨m', hm', hmoved.mintAuthority.trans hauthority, rfl⟩
      plain := fun token => hguarded.plain (hmints (state.mint_mem_mints token)) (h.plain token)
      plainPool := hguarded.plain hpool h.plainPool }
  · intro token
    cases token with
    | a => exact hx
    | b => exact hy

/-! ## Calls -/

variable [TokenProgram] {a b : TokenAccount} {m : Mint} {source destination : Pubkey}
  {amount : U64}

/-- A transfer of one mint touches no mint, and no account of another one. -/
theorem sameAt_of_transferred (ha : l.TokenAt source a) (hb : l.TokenAt destination b)
    (hmints : a.mint = mint ∧ b.mint = mint)
    (h : l.Transferred l' source destination amount a b) :
    (∀ {key m}, l.MintAt key m → l.SameAt l' key) ∧
    ∀ {key c}, l.TokenAt key c → c.mint ≠ mint → l.SameAt l' key := by
  refine ⟨?_, ?_⟩
  · intro key m hm
    refine h.frame (.inl ⟨?_, ?_⟩)
    · rintro rfl
      exact TokenProgram.exclusive ha hm
    · rintro rfl
      exact TokenProgram.exclusive hb hm
  · intro key c hc hne
    refine h.frame (.inl ⟨?_, ?_⟩)
    · rintro rfl
      exact hne (hc.unique ha ▸ hmints.1)
    · rintro rfl
      exact hne (hc.unique hb ▸ hmints.2)

/-- Transfers of pool tokens leave the balances alone. -/
theorem transferPool (h : l.Custody state authority s) (ha : l.TokenAt source a)
    (hb : l.TokenAt destination b) (hmints : a.mint = state.poolMint ∧ b.mint = state.poolMint)
    (htransfer : l.Transferred l' source destination amount a b) :
    l'.Custody state authority s := by
  obtain ⟨hmint, haccount⟩ := sameAt_of_transferred ha hb hmints htransfer
  obtain ⟨m, hm⟩ := h.plainPool.1
  exact {
    differ := h.differ
    reserve := fun token => h.reserve_of_sameAt fun hc hcmint =>
      haccount hc (hcmint ▸ h.differ.poolMint token)
    poolMint := h.poolMint.sameAt (hmint hm)
    plain := h.plain_of_sameAt fun hm _ => hmint hm
    plainPool := h.plainPool.sameAt (hmint hm) }

/-- A transfer of a token of the pool changes its own reserve only. -/
theorem transferToken (h : l.Custody state authority s) {t : PoolToken} {x : U64}
    (ha : l.TokenAt source a) (hb : l.TokenAt destination b)
    (hmints : a.mint = state.mint t ∧ b.mint = state.mint t)
    (htransfer : l.Transferred l' source destination amount a b)
    (hreserve : l'.Holds (state.reserve t) (state.mint t) authority x) :
    l'.Custody state authority (s.setReserve t x) := by
  obtain ⟨hmint, haccount⟩ := sameAt_of_transferred ha hb hmints htransfer
  obtain ⟨m, hm⟩ := h.plainPool.1
  exact {
    differ := h.differ
    reserve := by
      intro token
      rw [Balances.reserve_setReserve]
      split
      · subst token
        exact hreserve
      · rename_i hne
        exact h.reserve_of_sameAt fun hc hcmint =>
          haccount hc (hcmint ▸ (h.differ.mint_ne hne).symm)
    poolMint := by
      rw [Balances.supply_setReserve]
      exact h.poolMint.sameAt (hmint hm)
    plain := h.plain_of_sameAt fun hm _ => hmint hm
    plainPool := h.plainPool.sameAt (hmint hm) }

/-- Minting and burning change the supply only. -/
theorem changeSupply (h : l.Custody state authority s) {account : Pubkey} {x : U64} {n : ℕ}
    (hc : l.TokenAt account b) (hmint : b.mint = state.poolMint) (hm : l.MintAt state.poolMint m)
    (hsupply : l.SupplyMoved l' state.poolMint m n)
    (hissues : l'.Issues state.poolMint authority x)
    (hframe : ∀ {key}, key ≠ state.poolMint → key ≠ account → l.SameAt l' key) :
    l'.Custody state authority { s with supply := x } where
  differ := h.differ
  reserve token := h.reserve_of_sameAt fun hr hrmint => by
    refine hframe ?_ ?_
    · intro hkey
      rw [hkey] at hr
      exact TokenProgram.exclusive hr hm
    · intro hkey
      rw [hkey] at hr
      rw [hr.unique hc, hmint] at hrmint
      exact h.differ.poolMint token hrmint.symm
  poolMint := hissues
  plain := h.plain_of_sameAt fun hother hne => by
    refine hframe hne ?_
    rintro rfl
    exact TokenProgram.exclusive hc hother
  plainPool := hsupply.2 true h.plainPool

variable {calls : TradeCalls}

/-- The pool mint mints to one of its accounts. -/
theorem minted (h : l.Custody state authority s) {swap tokenProgram account signer : Pubkey}
    {bumpSeed : UInt8} {signers : List Pubkey}
    (hcall : tokenMintTo swap tokenProgram state.poolMint account signer bumpSeed amount signers l =
      .ok l') :
    ∃ m b, l.MintAt state.poolMint m ∧ l.TokenAt account b ∧ b.mint = state.poolMint ∧
      l.Minted l' state.poolMint account amount m b := by
  obtain ⟨m, b, hm, hb, hmint, hminted⟩ := TokenProgram.minted hcall
  exact ⟨m, b, hm, hb, hmint, hminted h.plainPool.of_pool⟩

/-- What a call did, in terms of the pool: the accounts are of the mint they should be. -/
def Performed (l l' : Ledger) (state : SwapV1) (calls : TradeCalls) : PoolEffect → Prop
  | .unpackMint _ | .unpackHostFeeAccount _ => l' = l
  | .payIn t amount => ∃ a b, l.TokenAt (calls.side t).user a ∧ l.TokenAt (state.reserve t) b ∧
      a.mint = state.mint t ∧ b.mint = state.mint t ∧
      l.Transferred l' (calls.side t).user (state.reserve t) amount a b
  | .payOut t amount => ∃ a b, l.TokenAt (state.reserve t) a ∧ l.TokenAt (calls.side t).user b ∧
      a.mint = state.mint t ∧ b.mint = state.mint t ∧
      l.Transferred l' (state.reserve t) (calls.side t).user amount a b
  | .mintTo account amount => ∃ m b, l.MintAt state.poolMint m ∧ l.TokenAt account b ∧
      b.mint = state.poolMint ∧ l.Minted l' state.poolMint account amount m b
  | .burn account amount => ∃ a m, l.TokenAt account a ∧ l.MintAt state.poolMint m ∧
      a.mint = state.poolMint ∧ l.Burned l' account state.poolMint amount a m
  | .transferPool source destination amount => ∃ a b, l.TokenAt source a ∧
      l.TokenAt destination b ∧ a.mint = state.poolMint ∧ b.mint = state.poolMint ∧
      l.Transferred l' source destination amount a b

/-- A successful call of a pool in custody did this. -/
theorem performed (h : l.Custody state authority s) {e : PoolEffect}
    (hpoolMint : calls.poolMint = state.poolMint)
    (hreserve : ∀ token, (calls.side token).reserve = state.reserve token)
    (hcall : calls.perform e l = .ok l') : Performed l l' state calls e := by
  cases e with
  | unpackMint token | unpackHostFeeAccount account =>
    obtain ⟨_, -, hcall⟩ := Outcome.bind_eq_ok.mp hcall
    exact (Outcome.ok.inj hcall).symm
  | payIn t amount =>
    obtain ⟨decimals, -, hcall⟩ := Outcome.bind_eq_ok.mp hcall
    obtain ⟨a, b, ha, hb, hmintA, hmintB, htransfer⟩ := TokenProgram.transferred hcall
    rw [hreserve] at hb htransfer
    obtain ⟨_, hb', hmint, -⟩ := h.reserve t
    obtain rfl := hb.unique hb'
    -- the mint of the call is the one of the reserve
    rw [← hmintB, hmint] at hmintA htransfer
    exact ⟨a, b, ha, hb, hmintA, hmint, htransfer (h.plain t)⟩
  | payOut t amount =>
    obtain ⟨decimals, -, hcall⟩ := Outcome.bind_eq_ok.mp hcall
    obtain ⟨a, b, ha, hb, hmintA, hmintB, htransfer⟩ := TokenProgram.transferred hcall
    rw [hreserve] at ha htransfer
    obtain ⟨_, ha', hmint, -⟩ := h.reserve t
    obtain rfl := ha.unique ha'
    rw [← hmintA, hmint] at hmintB htransfer
    exact ⟨a, b, ha, hb, hmint, hmintB, htransfer (h.plain t)⟩
  | mintTo account amount =>
    rw [TradeCalls.perform, hpoolMint] at hcall
    exact h.minted hcall
  | burn account amount =>
    rw [TradeCalls.perform, hpoolMint] at hcall
    obtain ⟨a, m, ha, hm, hmint, hburned⟩ := TokenProgram.burned hcall
    exact ⟨a, m, ha, hm, hmint, hburned h.plainPool.of_pool⟩
  | transferPool source destination amount =>
    rw [TradeCalls.perform, hpoolMint] at hcall
    obtain ⟨a, b, ha, hb, hmintA, hmintB, htransfer⟩ := TokenProgram.transferred hcall
    exact ⟨a, b, ha, hb, hmintA, hmintB, htransfer h.plainPool.of_pool⟩

/-- Minting adds to the supply. -/
theorem mintTo (h : l.Custody state authority s) {account : Pubkey}
    (hm : l.MintAt state.poolMint m) (hb : l.TokenAt account b) (hmint : b.mint = state.poolMint)
    (hminted : l.Minted l' state.poolMint account amount m b) :
    ∃ s', (PoolEffect.mintTo account amount).apply s = .ok s' ∧ l'.Custody state authority s' := by
  obtain ⟨_, hm', -, hsupply⟩ := h.poolMint
  obtain rfl := hm.unique hm'
  obtain ⟨x, hx, hissues⟩ := h.poolMint.moved hm hminted.supply
  rw [hsupply] at hx
  refine ⟨{ s with supply := x }, ?_, ?_⟩
  · rw [PoolEffect.apply, BitVec.checkedAdd_eq_some.mpr hx]
  · exact h.changeSupply hb hmint hm hminted.supply hissues hminted.frame

/-- One call of a trade moves the balances as its effect says, and keeps the custody. -/
theorem call (h : l.Custody state authority s) {e : PoolEffect}
    (hpoolMint : calls.poolMint = state.poolMint)
    (hreserve : ∀ token, (calls.side token).reserve = state.reserve token)
    (huser : ∀ token x, e = .payIn token x ∨ e = .payOut token x →
      (calls.side token).user ≠ state.reserve token)
    (hcall : calls.perform e l = .ok l') :
    ∃ s', e.apply s = .ok s' ∧ l'.Custody state authority s' := by
  have hperformed := h.performed hpoolMint hreserve hcall
  cases e with
  | unpackMint token | unpackHostFeeAccount account =>
    obtain rfl : l' = l := hperformed
    exact ⟨s, rfl, h⟩
  | payIn t amount =>
    obtain ⟨a, b, ha, hb, hmintA, hmintB, htransfer⟩ := hperformed
    obtain ⟨_, hb', -, -, -, -, hamount⟩ := h.reserve t
    obtain rfl := hb.unique hb'
    obtain ⟨x, hx, hheld⟩ :=
      (h.reserve t).moved hb (htransfer.arrives (huser t amount (.inl rfl)))
    rw [hamount] at hx
    refine ⟨s.setReserve t x, ?_, h.transferToken ha hb ⟨hmintA, hmintB⟩ htransfer hheld⟩
    rw [PoolEffect.apply, BitVec.checkedAdd_eq_some.mpr hx]
  | payOut t amount =>
    obtain ⟨a, b, ha, hb, hmintA, hmintB, htransfer⟩ := hperformed
    obtain ⟨_, ha', -, -, -, -, hamount⟩ := h.reserve t
    obtain rfl := ha.unique ha'
    obtain ⟨x, hx, hheld⟩ :=
      (h.reserve t).moved ha (htransfer.leaves (huser t amount (.inr rfl)).symm)
    have henough := htransfer.enough
    rw [hamount] at hx henough
    refine ⟨s.setReserve t x, ?_, h.transferToken ha hb ⟨hmintA, hmintB⟩ htransfer hheld⟩
    rw [PoolEffect.apply, BitVec.checkedSub_eq_some.mpr ⟨henough, hx⟩]
  | mintTo account amount =>
    obtain ⟨m, b, hm, hb, hmint, hminted⟩ := hperformed
    exact h.mintTo hm hb hmint hminted
  | burn account amount =>
    obtain ⟨a, m, ha, hm, hmint, hburned⟩ := hperformed
    obtain ⟨_, hm', -, hsupply⟩ := h.poolMint
    obtain rfl := hm.unique hm'
    obtain ⟨x, hx, hissues⟩ := h.poolMint.moved hm hburned.supply
    have hcovered := hburned.covered
    rw [hsupply] at hx hcovered
    refine ⟨{ s with supply := x }, ?_, ?_⟩
    · rw [PoolEffect.apply, BitVec.checkedSub_eq_some.mpr ⟨hcovered, hx⟩]
    · exact h.changeSupply ha hmint hm hburned.supply hissues
        fun hne hne' => hburned.frame hne' hne
  | transferPool source destination amount =>
    obtain ⟨a, b, ha, hb, hmintA, hmintB, htransfer⟩ := hperformed
    exact ⟨s, rfl, h.transferPool ha hb ⟨hmintA, hmintB⟩ htransfer⟩

/-- A log of calls is performed on the balances as on the ledger. -/
theorem performAll (h : l.Custody state authority s) {log : List PoolEffect}
    (hpoolMint : calls.poolMint = state.poolMint)
    (hreserve : ∀ token, (calls.side token).reserve = state.reserve token)
    (huser : ∀ e ∈ log, ∀ token x, e = .payIn token x ∨ e = .payOut token x →
      (calls.side token).user ≠ state.reserve token)
    (hlog : Script.performAll calls.perform log l = .ok l') :
    ∃ s', Script.performAll PoolEffect.apply log s = .ok s' ∧ l'.Custody state authority s' := by
  induction log generalizing l s with
  | nil =>
    obtain rfl := Outcome.ok.inj hlog
    exact ⟨s, rfl, h⟩
  | cons e log ih =>
    obtain ⟨l₁, hcall, hlog⟩ := Outcome.bind_eq_ok.mp hlog
    rw [List.forall_mem_cons] at huser
    obtain ⟨s₁, happly, h₁⟩ := h.call hpoolMint hreserve huser.1 hcall
    obtain ⟨s', hrest, h'⟩ := ih h₁ huser.2 hlog
    exact ⟨s', Outcome.bind_eq_ok.mpr ⟨s₁, happly, hrest⟩, h'⟩

end Custody

end Ledger

/-! ## Trades -/

variable [SplMath] {swapConstraints : Option SwapConstraints}
  {l l' : Ledger} {authority : Pubkey} {state : SwapV1} {s : Balances}

omit [SplMath] in
/-- The balances that were read are those in custody. -/
theorem CheckedTrade.balances_eq {accounts : List AccountInfo} {instruction : SwapInstruction}
    {clock : Clock} {prepared : PreparedTrade}
    (hchecked : CheckedTrade accounts instruction clock l state prepared)
    (hcustody : l.Custody state authority s) : prepared.balances = s := by
  have hreserve (token : PoolToken) : prepared.balances.reserve token = s.reserve token := by
    obtain ⟨a, ha, hamount⟩ := hchecked.balances token
    obtain ⟨_, ha', -, -, -, -, hamount'⟩ := hcustody.reserve token
    rw [← hamount, ha.unique ha', hamount']
  obtain ⟨m, hm, hsupply⟩ := hchecked.supply
  obtain ⟨_, hm', -, hsupply'⟩ := hcustody.poolMint
  refine Balances.ext (hreserve .a) (hreserve .b) ?_
  rw [← hsupply, hm.unique hm', hsupply']

/-- A trade of a pool in custody makes the calls of its script, computed on the balances. -/
theorem trade_performs {info : AccountInfo} {rest : List AccountInfo}
    {instruction : SwapInstruction} {clock : Clock} (hpool : l.StoresPool info.key state)
    (hcustody : l.Custody state authority s) (htrade : instruction.IsTrade)
    (h : processInstruction swapConstraints (info :: rest) instruction clock l = .ok l') :
    ∃ prepared log, CheckedTrade (info :: rest) instruction clock l state prepared ∧
      (prepared.trade.amounts state.fees s).Returns log () ∧
      Script.performAll prepared.calls.perform log l = .ok l' := by
  obtain ⟨prepared, _, hchecked, hperform⟩ := trade_checked htrade h
  obtain ⟨info', rest', haccounts, hswap⟩ := hchecked.named
  obtain ⟨rfl, -⟩ := List.cons.inj haccounts
  rw [hswap] at hpool
  obtain rfl := hpool.unique hchecked.stored
  rw [PreparedTrade.perform, hchecked.balances_eq hcustody, hchecked.fees] at hperform
  obtain ⟨log, ⟨⟩, hscript, hlog⟩ := Script.run_eq_ok.mp hperform
  exact ⟨prepared, log, hchecked, hscript, hlog⟩

/-- The calls of a checked trade move between the user and the reserves. -/
theorem CheckedTrade.user_ne {accounts : List AccountInfo} {instruction : SwapInstruction}
    {clock : Clock} {prepared : PreparedTrade} {fees : Fees} {log : List PoolEffect}
    (hchecked : CheckedTrade accounts instruction clock l state prepared)
    (hscript : (prepared.trade.amounts fees s).Returns log ()) :
    ∀ e ∈ log, ∀ token x, e = .payIn token x ∨ e = .payOut token x →
      (prepared.calls.side token).user ≠ state.reserve token := by
  intro e he token x hmoves
  have hmayCall := (Amounts.emits_mayCall prepared.trade.instruction).of_returns hscript
  exact hchecked.user token ((hmayCall e he).moves hmoves)

variable [TokenProgram]

/-- A trade of a pool in custody is its script, run on the balances: the calls move exactly the
amounts of the script, and whatever accounts the instruction lists, the reserves and the supply
end as the script says. -/
theorem trade_refines {info : AccountInfo} {rest : List AccountInfo}
    {instruction : SwapInstruction} {clock : Clock} (hpool : l.StoresPool info.key state)
    (hcustody : l.Custody state authority s) (htrade : instruction.IsTrade)
    (h : processInstruction swapConstraints (info :: rest) instruction clock l = .ok l') :
    ∃ trade : Trade, trade.instruction.request = instruction ∧ trade.curve = state.swapCurve ∧
      trade.timestamp = state.swapCurve.currentTimestampOpt clock ∧
      (instruction.Deposits → state.swapCurve.calculator.allowsDeposits = true) ∧
      ∃ s', (trade.amounts state.fees s).run PoolEffect.apply s = .ok s' ∧
        l'.Custody state authority s' := by
  obtain ⟨prepared, log, hchecked, hscript, hlog⟩ := trade_performs hpool hcustody htrade h
  obtain ⟨s', hrun, hcustody'⟩ := hcustody.performAll hchecked.poolMint hchecked.reserve
    (hchecked.user_ne hscript) hlog
  exact ⟨prepared.trade, hchecked.request, hchecked.curve, hchecked.timestamp,
    hchecked.deposits, s', Script.run_eq_ok.mpr ⟨log, (), hscript, hrun⟩, hcustody'⟩

end Custody

end SolanaPsm
