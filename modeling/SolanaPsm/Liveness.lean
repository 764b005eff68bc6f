import SolanaPsm.Movement
import SolanaPsm.TokenLedger
import SolanaPsm.Transition

/-!
# The locked liquidity keeps the pool alive

A new pool mints its initial supply to an account nobody can sign for. A `Pool` carries
the pool token ledger next to the balances, so that the token program can refuse to burn
or move what an account does not hold.

`Alive` is the invariant: the locked account still holds the initial supply, and one of
the reserves is not empty. The first half is a fact about the ledger. The second is a fact
about the amounts: as long as some pool tokens are left, none of the trades takes the
last unit out of the pool (`Swapped.alive` … `WithdrewSingle.alive`).
-/

namespace SolanaPsm

open Linear

/-! ## Pools -/

/-- What a call does to the pool token accounts. Nothing is burned or moved from the
locked account. -/
def PoolEffect.applyShares (locked : Pubkey) :
    PoolEffect → TokenLedger Pubkey → Option (TokenLedger Pubkey)
  | .mintTo account amount, shares => some (shares.mint account amount.toNat)
  | .burn account amount, shares =>
    if account = locked then none else shares.burn account amount.toNat
  | .transferPool source destination amount, shares =>
    if source = locked then none else shares.transfer source destination amount.toNat
  | .unpackMint _, shares | .unpackHostFeeAccount _, shares | .payIn _ _, shares
  | .payOut _ _, shares => some shares

/-- The supply follows the balances, and the locked account only gains. -/
theorem PoolEffect.applyShares_eq_some {locked : Pubkey} {e : PoolEffect}
    {shares shares' : TokenLedger Pubkey} (h : e.applyShares locked shares = some shares') :
    shares'.supply + e.burned = shares.supply + e.minted ∧
    shares.balance locked ≤ shares'.balance locked := by
  cases e with
  | mintTo account amount =>
    obtain rfl := Option.some.inj h
    exact ⟨rfl, shares.le_balance_mint account locked _⟩
  | burn account amount =>
    simp only [applyShares] at h
    split at h
    · cases h
    · rename_i hne
      obtain ⟨hsupply, hbalance⟩ := TokenLedger.burn_eq_some h
      exact ⟨hsupply, (hbalance locked (Ne.symm hne)).ge⟩
  | transferPool source destination amount =>
    simp only [applyShares] at h
    split at h
    · cases h
    · rename_i hne
      obtain ⟨hsupply, hbalance⟩ := TokenLedger.transfer_eq_some h
      exact ⟨hsupply, hbalance locked (Ne.symm hne)⟩
  | unpackMint | unpackHostFeeAccount | payIn | payOut =>
    obtain rfl := Option.some.inj h
    exact ⟨rfl, le_rfl⟩

/-- The reserves and supply of a pool, with the ledger of its pool tokens. -/
@[ext] structure Pool : Type where
  /-- reserves and supply -/
  balances : Balances
  /-- the pool token accounts -/
  shares : TokenLedger Pubkey
  /-- both know the same supply -/
  supply_eq : shares.supply = balances.supply.toNat

namespace Pool

/-- The token program performs a call, or refuses. -/
def perform (locked : Pubkey) (e : PoolEffect) (s : Pool) : Outcome ProgramError Pool :=
  match hbalances : e.apply s.balances, hshares : e.applyShares locked s.shares with
  | .ok balances, some shares => .ok {
      balances
      shares
      supply_eq := by
        have := (PoolEffect.apply_eq_ok hbalances).2
        have := (PoolEffect.applyShares_eq_some hshares).1
        have := s.supply_eq
        omega }
  | .ok _, none => .err (.external 1)
  | .err error, _ => .err error
  | .panic, _ => .panic

/-- A performed call is accepted for the balances and for the pool token accounts. -/
theorem perform_eq_ok {locked : Pubkey} {e : PoolEffect} {s s' : Pool}
    (h : perform locked e s = .ok s') :
    e.apply s.balances = .ok s'.balances ∧ e.applyShares locked s.shares = some s'.shares := by
  simp only [perform] at h
  split at h
  · rename_i hbalances hshares
    obtain rfl := Outcome.ok.inj h
    exact ⟨hbalances, hshares⟩
  · cases h
  · cases h
  · cases h

/-- A log performed on a pool is performed on its balances. -/
theorem performAll_eq_ok {locked : Pubkey} {log : List PoolEffect} {s s' : Pool}
    (h : Script.performAll (perform locked) log s = .ok s') :
    Script.performAll PoolEffect.apply log s.balances = .ok s'.balances ∧
    s.shares.balance locked ≤ s'.shares.balance locked := by
  induction log generalizing s with
  | nil =>
    obtain rfl := Outcome.ok.inj h
    exact ⟨rfl, le_rfl⟩
  | cons e log ih =>
    obtain ⟨u, hu, h⟩ := Outcome.bind_eq_ok.mp h
    obtain ⟨hbalances, hshares⟩ := perform_eq_ok hu
    obtain ⟨hrest, hlocked⟩ := ih h
    exact ⟨Outcome.bind_eq_ok.mpr ⟨u.balances, hbalances, hrest⟩,
      (PoolEffect.applyShares_eq_some hshares).2.trans hlocked⟩

end Pool

/-! ## The last unit -/

/-- One of the reserves is not empty. -/
def Balances.Alive (s : Balances) : Prop := ∃ token, 0 < s.reserves token

section LastUnit

variable {p : ℕ} {dir : TradeDirection} {s s' : Balances}

/-- A pool is alive when one side of a trade is. -/
theorem Balances.Alive.of_le (h : s.Alive)
    (hle : ∀ token, s.reserves token ≤ s'.reserves token) : s'.Alive := by
  obtain ⟨token, hpos⟩ := h
  exact ⟨token, hpos.trans_le (hle token)⟩

/-- A swap pays something in. -/
theorem Swapped.alive {paid got fee minted : ℕ} (hm : Swapped p dir s s' paid got fee minted) :
    s'.Alive := by
  have := hm.source
  have := hm.paid_pos
  exact ⟨dir.source, by omega⟩

/-- A two-sided deposit takes nothing out. -/
theorem DepositedAll.alive {t : ℕ} {x : Reserves} (hm : DepositedAll s s' t x) (h : s.Alive) :
    s'.Alive :=
  h.of_le fun token => (hm.reserves token).ge.trans' (Nat.le_add_right _ _)

/-- A two-sided withdrawal leaves the share of the pool tokens it leaves. -/
theorem WithdrewAll.alive {t : ℕ} {x : Reserves} (hm : WithdrewAll s s' t x) (h : s.Alive)
    (hleft : 0 < s'.supply.toNat) : s'.Alive := by
  obtain ⟨token, hpos⟩ := h
  refine ⟨token, Nat.pos_of_ne_zero ?_⟩
  intro hzero
  -- emptying the reserve would take all of the supply
  have hall : x token = s.reserves token := by
    have := hm.reserves token
    omega
  have hshare := hm.share token
  rw [hall, Nat.mul_comm] at hshare
  have := Nat.le_of_mul_le_mul_right hshare hpos
  have := hm.supply
  omega

/-- A single-sided deposit takes nothing out. -/
theorem DepositedSingle.alive {x net fee m minted : ℕ}
    (hm : DepositedSingle p dir s s' x net fee m minted) (h : s.Alive) : s'.Alive := by
  refine h.of_le ?_
  intro token
  by_cases htoken : token = dir.source
  · rw [htoken, hm.source]
    exact Nat.le_add_right _ _
  · rw [dir.eq_destination htoken, hm.destination]

/-- A single-sided withdrawal leaves the owner fee in the reserve; without one, emptying
the pool would burn all pool tokens. -/
theorem WithdrewSingle.alive {x adjusted fee burn minted : ℕ}
    (hm : WithdrewSingle p dir s s' x adjusted fee burn minted) (hleft : 0 < s'.supply.toNat) :
    s'.Alive := by
  rcases Nat.eq_zero_or_pos fee with rfl | hfee
  · by_contra hdead
    simp only [Balances.Alive, not_exists, not_lt, Nat.le_zero] at hdead
    have hsource := hdead dir.source
    have hdestination := hdead dir.destination
    have hx : s.reserves dir.source = x := by
      have := hm.source
      omega
    have hother : s.reserves dir.destination = 0 := hm.destination ▸ hdestination
    have htotal : s.reserves.truncated p ≤ givenValue p adjusted dir := by
      rw [truncated_of_one_sided hother, hx]
      exact givenValue_mono hm.covers dir
    have hburned : s.supply.toNat * s.reserves.truncated p ≤ burn * s.reserves.truncated p :=
      (Nat.mul_le_mul_left _ htotal).trans hm.share
    have := Nat.le_of_mul_le_mul_right hburned hm.total_pos
    have := hm.supply
    have := hm.mint.none rfl
    omega
  · exact ⟨dir.source, hfee.trans_le hm.mint.fee_le⟩

/-- A trade on a linear curve that leaves pool tokens leaves something in the reserves. -/
theorem Balances.Alive.trade [SplMath] {fees : Fees} {trade : Trade} (h : s.Alive)
    (hfees : fees.Valid) (hlin : trade.curve.calculator.IsLinear) (hleft : 0 < s'.supply.toNat)
    (hrun : (trade.amounts fees s).run PoolEffect.apply s = .ok s') : s'.Alive := by
  obtain ⟨log, ⟨⟩, hscript, hlog⟩ := Script.run_eq_ok.mp hrun
  cases hinstr : trade.instruction with
  | swap dir instruction =>
    rw [Trade.amounts, hinstr] at hscript
    obtain ⟨_, _, _, _, _, _, hm⟩ := Amounts.swap_moves hlin hscript hlog
    exact hm.alive
  | depositAllTokenTypes destination instruction =>
    rw [Trade.amounts, hinstr] at hscript
    obtain ⟨_, hm⟩ := Amounts.depositAllTokenTypes_moves hlin hscript hlog
    exact hm.alive h
  | withdrawAllTokenTypes source instruction =>
    rw [Trade.amounts, hinstr] at hscript
    obtain ⟨_, _, hm⟩ := Amounts.withdrawAllTokenTypes_moves hlin hscript hlog
    exact hm.alive h hleft
  | depositSingleTokenTypeExactAmountIn dir destination instruction =>
    rw [Trade.amounts, hinstr] at hscript
    obtain ⟨_, _, _, _, _, _, hm⟩ :=
      Amounts.depositSingleTokenTypeExactAmountIn_moves hlin hscript hlog
    exact hm.alive h
  | withdrawSingleTokenTypeExactAmountOut dir source instruction =>
    rw [Trade.amounts, hinstr] at hscript
    obtain ⟨_, _, _, _, hm⟩ :=
      Amounts.withdrawSingleTokenTypeExactAmountOut_moves hlin hfees hscript hlog
    exact hm.alive hleft

end LastUnit

/-! ## Runs of a pool -/

namespace Pool

/-- What can happen to a pool: a trade, tokens sent to a reserve, and what holders do with
their own pool tokens. -/
inductive Event : Type where
  | trade (trade : Trade)
  /-- a transfer into a reserve -/
  | donate (token : PoolToken) (amount : U64)
  /-- a holder burns pool tokens -/
  | burn (account : Pubkey) (amount : U64)
  /-- a holder transfers pool tokens -/
  | transfer (source destination : Pubkey) (amount : U64)
  deriving DecidableEq, Repr

/-- The locked account holds the initial supply, and the pool is alive. -/
structure Alive (locked : Pubkey) (s : Pool) : Prop where
  /-- nothing has left the locked account -/
  shares : INITIAL_SWAP_POOL_AMOUNT.toNat ≤ s.shares.balance locked
  /-- some reserve is not empty -/
  reserves : s.balances.Alive

variable {locked : Pubkey} {fees : Fees} {s s' : Pool}

/-- The locked account is a part of the supply. -/
theorem initial_le_supply (h : INITIAL_SWAP_POOL_AMOUNT.toNat ≤ s.shares.balance locked) :
    INITIAL_SWAP_POOL_AMOUNT.toNat ≤ s.balances.supply.toNat := by
  rw [← s.supply_eq]
  exact h.trans (s.shares.balance_le_supply locked)

/-- A call that pays nothing out keeps the pool alive. -/
theorem Alive.call {e : PoolEffect} (h : Alive locked s) (hpaid : ∀ token, e.paid token = 0)
    (he : perform locked e s = .ok s') : Alive locked s' := by
  obtain ⟨hbalances, hshares⟩ := perform_eq_ok he
  refine ⟨h.shares.trans (PoolEffect.applyShares_eq_some hshares).2, h.reserves.of_le ?_⟩
  intro token
  have := (PoolEffect.apply_eq_ok hbalances).1 token
  rw [hpaid, Nat.add_zero] at this
  exact this ▸ Nat.le_add_right _ _

/-- A successful initialization: the initial supply goes to the locked account. -/
def Starts (locked : Pubkey) (curve : SwapCurve) (fees : Fees) (timestamp : Option U128)
    (s s' : Pool) : Prop :=
  curve.calculator.IsLinear ∧
    (Amounts.initializePool curve fees timestamp s.balances locked).run (perform locked) s = .ok s'

/-- A new pool is alive, and its fees are valid. -/
theorem Alive.start {curve : SwapCurve} {timestamp : Option U128}
    (h : Starts locked curve fees timestamp s s') : fees.Valid ∧ Alive locked s' := by
  obtain ⟨hlin, hrun⟩ := h
  obtain ⟨log, ⟨⟩, hscript, hlog⟩ := Script.run_eq_ok.mp hrun
  simp only [Amounts.initializePool, Script.returns_lift_bind, liftSwapError_eq_ok,
    Amounts.returns_reject_bind, Fees.validate_eq_ok, toU64_eq_ok, Script.returns_emit] at hscript
  obtain ⟨_, hvalid, -, _, hfees, _, -, amount, hamount, rfl⟩ := hscript
  refine ⟨hfees, ?_, .a, ?_⟩
  · -- the initial amount is minted to the locked account
    obtain ⟨u, hu, hend⟩ := Outcome.bind_eq_ok.mp hlog
    obtain rfl := Outcome.ok.inj hend
    obtain ⟨-, hshares⟩ := perform_eq_ok hu
    rw [← Option.some.inj hshares, TokenLedger.balance_mint_self, hamount]
    exact Nat.le_add_left _ _
  · -- a linear curve needs token A to start with
    have hmoved : s'.balances.reserves .a = s.balances.reserves .a :=
      (performAll_apply (performAll_eq_ok hlog).1).1 .a
    rw [hlin.validateSupply, Linear.validateSupply, Outcome.rejectIf_eq_ok, toNat_eq_zero]
      at hvalid
    rw [hmoved]
    exact Nat.pos_of_ne_zero hvalid

section Runs

variable [SplMath]

/-- An event that succeeds. The curve of a trade is linear; its rates are those of the
moment. -/
def Step (locked : Pubkey) (fees : Fees) (s : Pool) : Event → Pool → Prop
  | .trade trade, s' => trade.curve.calculator.IsLinear ∧
      (trade.amounts fees s.balances).run (perform locked) s = .ok s'
  | .donate token amount, s' => perform locked (.payIn token amount) s = .ok s'
  | .burn account amount, s' => perform locked (.burn account amount) s = .ok s'
  | .transfer source destination amount, s' =>
    perform locked (.transferPool source destination amount) s = .ok s'

/-- A trade on a linear curve keeps the pool alive. -/
theorem Alive.trade {trade : Trade} (hfees : fees.Valid) (h : Alive locked s)
    (hlin : trade.curve.calculator.IsLinear)
    (hrun : (trade.amounts fees s.balances).run (perform locked) s = .ok s') : Alive locked s' := by
  obtain ⟨log, ⟨⟩, hscript, hlog⟩ := Script.run_eq_ok.mp hrun
  obtain ⟨hlog, hlocked⟩ := performAll_eq_ok hlog
  have hshares := h.shares.trans hlocked
  have hleft : 0 < s'.balances.supply.toNat :=
    lt_of_lt_of_le (by decide) (initial_le_supply hshares)
  exact ⟨hshares, h.reserves.trade hfees hlin hleft
    (Script.run_eq_ok.mpr ⟨log, (), hscript, hlog⟩)⟩

/-- One event keeps the pool alive. -/
theorem Alive.step {event : Event} (hfees : fees.Valid) (h : Alive locked s)
    (hstep : Step locked fees s event s') : Alive locked s' := by
  cases event with
  | trade trade => exact h.trade hfees hstep.1 hstep.2
  | donate token amount => exact h.call (fun _ => rfl) hstep
  | burn account amount => exact h.call (fun _ => rfl) hstep
  | transfer source destination amount => exact h.call (fun _ => rfl) hstep

/-- The locked initial liquidity keeps the pool alive: after a successful initialization
and any events, the supply is at least the initial one, so never zero, and the two
reserves are never both empty. -/
theorem alive_forever {curve : SwapCurve} {timestamp : Option U128} {s₀ s₁ : Pool}
    {events : List Event} (hstart : Starts locked curve fees timestamp s₀ s₁)
    (hrun : Transition.Run (Step locked fees) s₁ events s) :
    INITIAL_SWAP_POOL_AMOUNT.toNat ≤ s.balances.supply.toNat ∧ s.balances.supply ≠ 0#64 ∧
      ¬ (s.balances.tokenA = 0#64 ∧ s.balances.tokenB = 0#64) := by
  obtain ⟨hfees, halive⟩ := Alive.start hstart
  have h : Alive locked s :=
    hrun.invariant (P := Alive locked) (fun h hstep => h.step hfees hstep) halive
  have hsupply := initial_le_supply h.shares
  refine ⟨hsupply, ?_, ?_⟩
  · intro hzero
    rw [hzero] at hsupply
    exact absurd hsupply (by decide)
  · rintro ⟨ha, hb⟩
    obtain ⟨token, hpos⟩ := h.reserves
    cases token with
    | a => exact absurd hpos (by rw [Balances.reserves, Balances.reserve, ha]; decide)
    | b => exact absurd hpos (by rw [Balances.reserves, Balances.reserve, hb]; decide)

end Runs

section Market

attribute [local instance] SplMath.reference

/-- Fees of one percent. -/
def marketFees : Fees := ⟨1#64, 100#64, 1#64, 100#64, 1#64, 100#64, 20#64, 100#64⟩

/-- A price of one. -/
def marketCurve : SwapCurve := ⟨.constantPrice, .constantPrice ⟨RAY⟩⟩

/-- A trade on the curve, with a fee account. -/
def marketTrade (instruction : TradeInstruction) : Trade :=
  ⟨marketCurve, none, ⟨8#256, true, none⟩, instruction⟩

/-- Someone sends token B; then the pool is swapped with, deposited to and withdrawn from. -/
def marketEvents : List Event :=
  [ .donate .b 500000#64,
    .trade (marketTrade (.swap .aToB ⟨10000#64, 1#64⟩)),
    .trade (marketTrade (.depositAllTokenTypes 2#256 ⟨10000000#64, 500000#64, 500000#64⟩)),
    .trade (marketTrade (.withdrawAllTokenTypes 2#256 ⟨10000000#64, 1#64, 1#64⟩)) ]

/-- A run from a pool of token A. -/
theorem alive_forever_market :
    ∃ s₁ s, Starts 1#256 marketCurve marketFees none ⟨⟨1000000#64, 0#64, 0#64⟩, .empty, rfl⟩ s₁ ∧
      Transition.Run (Step 1#256 marketFees) s₁ marketEvents s ∧
      INITIAL_SWAP_POOL_AMOUNT.toNat ≤ s.balances.supply.toNat ∧ s.balances.supply ≠ 0#64 ∧
        ¬ (s.balances.tokenA = 0#64 ∧ s.balances.tokenB = 0#64) := by
  have hrun : (do
      let s₁ ← (Amounts.initializePool marketCurve marketFees none ⟨1000000#64, 0#64, 0#64⟩
        1#256).run (perform 1#256) ⟨⟨1000000#64, 0#64, 0#64⟩, .empty, rfl⟩
      let s₂ ← perform 1#256 (.payIn .b 500000#64) s₁
      let s₃ ← ((marketTrade (.swap .aToB ⟨10000#64, 1#64⟩)).amounts marketFees s₂.balances).run
        (perform 1#256) s₂
      let s₄ ← ((marketTrade (.depositAllTokenTypes 2#256 ⟨10000000#64, 500000#64,
        500000#64⟩)).amounts marketFees s₃.balances).run (perform 1#256) s₃
      ((marketTrade (.withdrawAllTokenTypes 2#256 ⟨10000000#64, 1#64, 1#64⟩)).amounts marketFees
        s₄.balances).run (perform 1#256) s₄).isOk := by
    decide +kernel
  simp only [Outcome.isOk_iff, Outcome.bind_eq_ok] at hrun
  obtain ⟨s, s₁, hinit, s₂, hdonate, s₃, hswap, s₄, hdeposit, hwithdraw⟩ := hrun
  have hstart : Starts 1#256 marketCurve marketFees none
      ⟨⟨1000000#64, 0#64, 0#64⟩, .empty, rfl⟩ s₁ := ⟨trivial, hinit⟩
  have hevents : Transition.Run (Step 1#256 marketFees) s₁ marketEvents s :=
    .cons hdonate (.cons ⟨trivial, hswap⟩ (.cons ⟨trivial, hdeposit⟩
      (.single ⟨trivial, hwithdraw⟩)))
  exact ⟨s₁, s, hstart, hevents, alive_forever hstart hevents⟩

end Market

end Pool

end SolanaPsm
