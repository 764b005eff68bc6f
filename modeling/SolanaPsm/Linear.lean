import SolanaPsm.Bytes
import SolanaPsm.Error
import SolanaPsm.SplMath

/-!
# Linear curves

The vocabulary of the curves (`calculator.rs`) and the arithmetic the two linear
curves share. The constant-price curve and the redemption-rate curve value one
token B at a price in units of token A, scaled by `RAY`; they differ in where the
price comes from and repeat the rest. The repeated part is written once here, over
the 256-bit price.

Every routine has one specification over the natural numbers: `boughtAmount` and
`usedAmount` for a swap, `givenValue` and `totalValue` for a single-sided deposit
or withdrawal.
-/

namespace SolanaPsm

/-! ## Vocabulary of the curves -/

/-- Initial amount of pool tokens of a new pool. -/
def INITIAL_SWAP_POOL_AMOUNT : U128 := 1000000000#128

/-- Scale of prices and rates. -/
def RAY : U128 := 1000000000000000000000000000#128

/-- `RAY` as a number. -/
def ray : ℕ := 1000000000000000000000000000

@[simp] theorem toNat_RAY : RAY.toNat = ray := rfl

theorem ray_pos : 0 < ray := by decide

/-- `RAY` is even: half a unit is exact. -/
theorem ray_half : ray / 2 * 2 = ray := rfl

/-- The direction of a trade. -/
inductive TradeDirection : Type where
  /-- input token A, output token B -/
  | aToB
  /-- input token B, output token A -/
  | bToA
  deriving DecidableEq, Repr

/-- The direction to round. -/
inductive RoundDirection : Type where
  | floor
  | ceiling
  deriving DecidableEq, Repr

/-- Result of swapping without fees. -/
@[ext] structure SwapWithoutFeesResult : Type where
  /-- amount of source token swapped -/
  sourceAmountSwapped : U128
  /-- amount of destination token swapped -/
  destinationAmountSwapped : U128
  deriving DecidableEq, Repr

/-- Result of depositing or withdrawing both sides at once. -/
@[ext] structure TradingTokenResult : Type where
  /-- amount of token A -/
  tokenAAmount : U128
  /-- amount of token B -/
  tokenBAmount : U128
  deriving DecidableEq, Repr

/-- Nothing is traded for nothing. -/
def mapZeroToNone (x : U128) : Option U128 := if x = 0#128 then none else some x

theorem mapZeroToNone_eq_some {x y : U128} :
    mapZeroToNone x = some y ↔ 0 < x.toNat ∧ y = x := by
  rw [mapZeroToNone]
  split
  · rename_i h
    simp [h]
  · rename_i h
    have : x.toNat ≠ 0 := fun h0 => h (BitVec.eq_of_toNat_eq h0)
    refine ⟨?_, ?_⟩
    · rintro ⟨⟩
      exact ⟨by omega, rfl⟩
    · rintro ⟨-, rfl⟩
      rfl

namespace Linear

variable [SplMath]

/-! ## Swaps -/

/-- Source and destination amounts of a swap at `tokenBPrice`, still 256 bits wide.
Buying token B charges for whole units only: the destination amount is truncated,
then priced back, rounded up. -/
def swapAmounts (tokenBPrice sourceAmount : U256) (tradeDirection : TradeDirection) :
    Option (U256 × U256) :=
  let ray := RAY.widen 256
  match tradeDirection with
  | .bToA => do
    let value ← sourceAmount.checkedMul tokenBPrice
    let destinationAmount ← value.checkedDiv ray
    return (sourceAmount, destinationAmount)
  | .aToB => do
    let value ← sourceAmount.checkedMul ray
    let destinationAmount ← value.checkedDiv tokenBPrice
    let price ← destinationAmount.checkedMul tokenBPrice
    let (sourceAmountUsed, _) ← SplMath.u256CheckedCeilDiv price ray
    if sourceAmountUsed > sourceAmount then none
    else return (sourceAmountUsed, destinationAmount)

/-- `swap_without_fees` at `tokenBPrice`. -/
def swapWithoutFees (tokenBPrice : U256) (sourceAmount : U128)
    (tradeDirection : TradeDirection) : Calc SwapWithoutFeesResult := do
  let (source, destination) ← swapAmounts tokenBPrice (sourceAmount.widen 256) tradeDirection
  let source ← source.narrowOrPanic 128
  let sourceAmountSwapped ← mapZeroToNone source
  let destination ← destination.narrowOrPanic 128
  let destinationAmountSwapped ← mapZeroToNone destination
  return { sourceAmountSwapped, destinationAmountSwapped }

/-- What `s` source units buy at price `p`. -/
def boughtAmount (p s : ℕ) : TradeDirection → ℕ
  | .aToB => s * ray / p
  | .bToA => s * p / ray

/-- What is charged for them. -/
def usedAmount (p s : ℕ) : TradeDirection → ℕ
  | .aToB => boughtAmount p s .aToB * p ⌈/⌉ ray
  | .bToA => s

omit [SplMath] in
/-- What is bought is worth at most what is offered. -/
theorem boughtAmount_mul_le (p s : ℕ) : boughtAmount p s .aToB * p ≤ s * ray :=
  Nat.div_mul_le_self _ _

omit [SplMath] in
/-- Never more is charged than offered. -/
theorem usedAmount_le (p s : ℕ) (dir : TradeDirection) : usedAmount p s dir ≤ s := by
  cases dir with
  | bToA => exact le_rfl
  | aToB =>
    rw [usedAmount, ceilDiv_le_iff_le_mul ray_pos, Nat.mul_comm ray]
    exact boughtAmount_mul_le p s

/-- The amounts of a swap can be computed: what is bought is worth at least one unit of
token A, or the value of what is offered fits in 256 bits. -/
def SwapDefined (p s : ℕ) : TradeDirection → Prop
  | .aToB => ray ≤ boughtAmount p s .aToB * p
  | .bToA => s * p < 2 ^ 256

/-- Spec of the amounts of a swap. -/
theorem swapAmounts_eq_some {p : U256} {s : U128} {dir : TradeDirection} {src dst : U256}
    (h : swapAmounts p (s.widen 256) dir = some (src, dst)) :
    SwapDefined p.toNat s.toNat dir ∧ src.toNat = usedAmount p.toNat s.toNat dir ∧
      dst.toNat = boughtAmount p.toNat s.toNat dir := by
  cases dir with
  | bToA =>
    simp only [swapAmounts, Option.bind_eq_bind, Option.bind_eq_some_iff, Option.pure_def,
      Option.some.injEq, Prod.mk.injEq, BitVec.checkedMul_eq_some, BitVec.checkedDiv_eq_some,
      U128.toNat_widen, toNat_RAY] at h
    obtain ⟨v, hv, d, ⟨-, hd⟩, rfl, rfl⟩ := h
    have hfits := v.isLt
    rw [hv] at hd hfits
    exact ⟨hfits, U128.toNat_widen s, hd⟩
  | aToB =>
    simp only [swapAmounts, Option.bind_eq_bind, Option.bind_eq_some_iff, Option.pure_def,
      BitVec.checkedMul_eq_some, BitVec.checkedDiv_eq_some,
      U128.toNat_widen, toNat_RAY] at h
    obtain ⟨v, hv, d, ⟨-, hd⟩, c, hc, ⟨u, _⟩, hu, h⟩ := h
    obtain ⟨hquot, hu⟩ := SplMath.u256CheckedCeilDiv_eq_some hu
    rw [hv] at hd
    rw [hc, U128.toNat_widen, toNat_RAY, hd] at hquot hu
    split at h
    · cases h
    · obtain ⟨rfl, rfl⟩ := Prod.mk.inj (Option.some.inj h)
      exact ⟨(Nat.div_pos_iff.mp (Nat.pos_of_ne_zero hquot)).2, hu, hd⟩

/-- The amounts exist when they are defined. -/
theorem exists_swapAmounts {p : U256} {s : U128} {dir : TradeDirection}
    (h : SwapDefined p.toNat s.toNat dir) :
    ∃ src dst, swapAmounts p (s.widen 256) dir = some (src, dst) := by
  cases dir with
  | bToA =>
    simp only [swapAmounts, Option.bind_eq_bind, Option.bind_eq_some_iff, Option.pure_def,
      Option.some.injEq, Prod.mk.injEq, BitVec.checkedMul_eq_some, BitVec.checkedDiv_eq_some,
      U128.toNat_widen, toNat_RAY]
    obtain ⟨v, hv⟩ := BitVec.exists_toNat_eq h
    obtain ⟨d, hd⟩ := BitVec.exists_toNat_eq ((Nat.div_le_self v.toNat ray).trans_lt v.isLt)
    exact ⟨s.widen 256, d, v, hv, d, ⟨ray_pos, hd⟩, rfl, rfl⟩
  | aToB =>
    simp only [swapAmounts, Option.bind_eq_bind, Option.bind_eq_some_iff, Option.pure_def,
      BitVec.checkedMul_eq_some, BitVec.checkedDiv_eq_some,
      U128.toNat_widen, toNat_RAY]
    have hfull : ray ≤ boughtAmount p.toNat s.toNat .aToB * p.toNat := h
    have hp : 0 < p.toNat := by
      refine Nat.pos_of_ne_zero fun h0 => ?_
      rw [h0, Nat.mul_zero] at hfull
      exact absurd hfull (by decide)
    -- every product is at most the value of what is offered
    have hvalue : s.toNat * ray < 2 ^ 256 :=
      (Nat.mul_lt_mul_of_pos_right s.isLt ray_pos).trans (by decide)
    have hle := boughtAmount_mul_le p.toNat s.toNat
    obtain ⟨v, hv⟩ := BitVec.exists_toNat_eq hvalue
    obtain ⟨d, hd⟩ := BitVec.exists_toNat_eq ((Nat.div_le_self v.toNat p.toNat).trans_lt v.isLt)
    obtain ⟨c, hc⟩ := BitVec.exists_toNat_eq (hle.trans_lt hvalue)
    have hquot : c.toNat / (RAY.widen 256).toNat ≠ 0 := by
      rw [U128.toNat_widen, toNat_RAY, hc]
      exact (Nat.div_pos hfull ray_pos).ne'
    obtain ⟨u, rest, hu, hval⟩ := SplMath.u256CheckedCeilDiv_some _ _ hquot
    rw [hc, U128.toNat_widen, toNat_RAY] at hval
    have hcap : ¬ u > s.widen 256 := by
      rw [gt_iff_lt, BitVec.lt_def, not_lt, U128.toNat_widen, hval]
      exact usedAmount_le p.toNat s.toNat .aToB
    refine ⟨u, d, v, hv, d, ⟨hp, hd⟩, c, hc.trans (by rw [hd, hv]; rfl), (u, rest), hu, ?_⟩
    exact if_neg hcap

/-- Spec of a swap without fees: the truncated amount bought, the amount charged,
neither of them zero, and never more charged than offered. -/
theorem swapWithoutFees_spec {p : U256} {s : U128} {dir : TradeDirection}
    {r : SwapWithoutFeesResult} (h : swapWithoutFees p s dir = .ok r) :
    r.sourceAmountSwapped.toNat = usedAmount p.toNat s.toNat dir ∧
    r.destinationAmountSwapped.toNat = boughtAmount p.toNat s.toNat dir ∧
    usedAmount p.toNat s.toNat dir ≤ s.toNat ∧
    0 < r.sourceAmountSwapped.toNat ∧ 0 < r.destinationAmountSwapped.toNat := by
  simp only [swapWithoutFees, Outcome.bind_eq_ok, Calc.liftM_eq_ok, BitVec.narrowOrPanic_eq_ok,
    mapZeroToNone_eq_some, Outcome.pure_eq, Outcome.ok.injEq] at h
  obtain ⟨⟨src, dst⟩, hamt, src', hsrc, _, ⟨hsrc0, rfl⟩, dst', hdst, _, ⟨hdst0, rfl⟩, rfl⟩ := h
  obtain ⟨-, hused, hbought⟩ := swapAmounts_eq_some hamt
  exact ⟨hsrc.trans hused, hdst.trans hbought, usedAmount_le _ _ _, hsrc0, hdst0⟩

/-! ## Single-sided deposits and withdrawals -/

/-- `trading_tokens_to_pool_tokens` at `tokenBPrice`. The given value and the total
value are both truncated to whole units of token A before the ratio is taken. -/
def tradingTokensToPoolTokens (tokenBPrice : U256)
    (sourceAmount swapTokenAAmount swapTokenBAmount poolSupply : U128)
    (tradeDirection : TradeDirection) (roundDirection : RoundDirection) : Calc U128 := do
  let ray := RAY.widen 256
  let givenValue ← (match tradeDirection with
    | .aToB => some (sourceAmount.widen 256)
    | .bToA => do
      let value ← (sourceAmount.widen 256).checkedMul tokenBPrice
      value.checkedDiv ray)
  let valueB ← (swapTokenBAmount.widen 256).checkedMul tokenBPrice
  let valueB ← valueB.checkedDiv ray
  let totalValue ← valueB.checkedAdd (swapTokenAAmount.widen 256)
  let share ← (poolSupply.widen 256).checkedMul givenValue
  match roundDirection with
  | .floor => do
    let amount ← share.checkedDiv totalValue
    amount.narrowOrPanic 128
  | .ceiling => do
    let (amount, _) ← SplMath.u256CheckedCeilDiv share totalValue
    amount.narrowOrPanic 128

/-- Value of `x` tokens of one side, truncated to whole units of token A. -/
def givenValue (p x : ℕ) : TradeDirection → ℕ
  | .aToB => x
  | .bToA => x * p / ray

/-- Value of the reserves, truncated to whole units of token A. -/
def totalValue (p a b : ℕ) : ℕ := b * p / ray + a

/-- Spec of the conversion to pool tokens: the share of the supply, floored or
rounded up; a rounded-up share is at least one whole pool token before rounding. -/
theorem tradingTokensToPoolTokens_spec {p : U256} {x a b S m : U128} {dir : TradeDirection}
    {rd : RoundDirection} (h : tradingTokensToPoolTokens p x a b S dir rd = .ok m) :
    0 < totalValue p.toNat a.toNat b.toNat ∧
    match rd with
    | .floor => m.toNat =
        S.toNat * givenValue p.toNat x.toNat dir / totalValue p.toNat a.toNat b.toNat
    | .ceiling =>
      0 < S.toNat * givenValue p.toNat x.toNat dir / totalValue p.toNat a.toNat b.toNat ∧
      m.toNat = S.toNat * givenValue p.toNat x.toNat dir ⌈/⌉
        totalValue p.toNat a.toNat b.toNat := by
  simp only [tradingTokensToPoolTokens, Outcome.bind_eq_ok, Calc.liftM_eq_ok,
    BitVec.checkedMul_eq_some, BitVec.checkedDiv_eq_some, BitVec.checkedAdd_eq_some,
    U128.toNat_widen, toNat_RAY] at h
  obtain ⟨g, hg, vb, hvb, vb', ⟨-, hvb'⟩, T, hT, share, hshare, h⟩ := h
  have hgiven : g.toNat = givenValue p.toNat x.toNat dir := by
    cases dir with
    | aToB =>
      obtain rfl := Option.some.inj (Calc.liftM_eq_ok.mp hg)
      exact U128.toNat_widen x
    | bToA =>
      simp only [Outcome.bind_eq_ok, Calc.liftM_eq_ok, BitVec.checkedMul_eq_some,
        BitVec.checkedDiv_eq_some] at hg
      obtain ⟨v, hv, -, hg⟩ := hg
      rw [hg, hv, U128.toNat_widen, U128.toNat_widen]
      rfl
  have htotal : T.toNat = totalValue p.toNat a.toNat b.toNat := by
    rw [hT, hvb', hvb]
    rfl
  rw [← hgiven, ← htotal, ← hshare]
  cases rd with
  | floor =>
    simp only [Outcome.bind_eq_ok, Calc.liftM_eq_ok, BitVec.checkedDiv_eq_some,
      BitVec.narrowOrPanic_eq_ok] at h
    obtain ⟨q, ⟨hpos, hq⟩, hm⟩ := h
    exact ⟨hpos, hm.trans hq⟩
  | ceiling =>
    simp only [Outcome.bind_eq_ok, Calc.liftM_eq_ok, BitVec.narrowOrPanic_eq_ok] at h
    obtain ⟨⟨q, r⟩, hq, hm⟩ := h
    obtain ⟨hne, hq⟩ := SplMath.u256CheckedCeilDiv_eq_some hq
    refine ⟨Nat.pos_of_ne_zero fun h0 => hne (by rw [h0, Nat.div_zero]),
      Nat.pos_of_ne_zero hne, hm.trans hq⟩

/-! ## Two-sided deposits and withdrawals -/

/-- `pool_tokens_to_trading_tokens`: the proportional amounts of both tokens. -/
def poolTokensToTradingTokens
    (poolTokens poolTokenSupply swapTokenAAmount swapTokenBAmount : U128)
    (roundDirection : RoundDirection) : Calc TradingTokenResult := do
  let poolTokens := poolTokens.widen 256
  let poolTokenSupply := poolTokenSupply.widen 256
  let (tokenAAmount, tokenBAmount) ← (match roundDirection with
    | .floor => do
      let a ← poolTokens.checkedMul (swapTokenAAmount.widen 256)
      let a ← a.checkedDiv poolTokenSupply
      let b ← poolTokens.checkedMul (swapTokenBAmount.widen 256)
      let b ← b.checkedDiv poolTokenSupply
      return (a, b)
    | .ceiling => do
      let a ← poolTokens.checkedMul (swapTokenAAmount.widen 256)
      let (a, _) ← SplMath.u256CheckedCeilDiv a poolTokenSupply
      let b ← poolTokens.checkedMul (swapTokenBAmount.widen 256)
      let (b, _) ← SplMath.u256CheckedCeilDiv b poolTokenSupply
      return (a, b) : Option (U256 × U256))
  let tokenAAmount ← tokenAAmount.narrowOrPanic 128
  let tokenBAmount ← tokenBAmount.narrowOrPanic 128
  return { tokenAAmount, tokenBAmount }

/-- The share of a reserve `x` that `t` of `S` pool tokens stand for. -/
def shareOf (t S x : ℕ) : RoundDirection → ℕ
  | .floor => t * x / S
  | .ceiling => t * x ⌈/⌉ S

/-- A share can be computed: rounded up, it is worth at least one token. -/
def ShareDefined (t S x : ℕ) : RoundDirection → Prop
  | .floor => 0 < S
  | .ceiling => t * x / S ≠ 0

omit [SplMath] in
/-- A share needs a supply. -/
theorem ShareDefined.supply_pos {t S x : ℕ} {rd : RoundDirection} (h : ShareDefined t S x rd) :
    0 < S := by
  cases rd with
  | floor => exact h
  | ceiling => exact Nat.pos_of_ne_zero fun h0 => h (by rw [h0, Nat.div_zero])

/-- The proportional amounts fail, or are both shares, rounded the same way, as far as they
fit in 128 bits. -/
theorem poolTokensToTradingTokens_cases (t S a b : U128) (rd : RoundDirection) :
    poolTokensToTradingTokens t S a b rd = .err () ∨
      (ShareDefined t.toNat S.toNat a.toNat rd ∧ ShareDefined t.toNat S.toNat b.toNat rd ∧
        ∃ shareA shareB : U256,
          shareA.toNat = shareOf t.toNat S.toNat a.toNat rd ∧
          shareB.toNat = shareOf t.toNat S.toNat b.toNat rd ∧
          poolTokensToTradingTokens t S a b rd = do
            let tokenAAmount ← shareA.narrowOrPanic 128
            let tokenBAmount ← shareB.narrowOrPanic 128
            return { tokenAAmount, tokenBAmount }) := by
  refine (Calc.liftM_bind_cases _ _).imp id ?_
  rintro ⟨⟨shareA, shareB⟩, hshares, h⟩
  have hspec : ShareDefined t.toNat S.toNat a.toNat rd ∧ ShareDefined t.toNat S.toNat b.toNat rd ∧
      shareA.toNat = shareOf t.toNat S.toNat a.toNat rd ∧
      shareB.toNat = shareOf t.toNat S.toNat b.toNat rd := by
    cases rd with
    | floor =>
      simp only [Option.bind_eq_bind, Option.bind_eq_some_iff, Option.pure_def,
        Option.some.injEq, Prod.mk.injEq, BitVec.checkedMul_eq_some, BitVec.checkedDiv_eq_some,
        U128.toNat_widen] at hshares
      obtain ⟨ma, hma, da, ⟨hS, hda⟩, mb, hmb, db, ⟨-, hdb⟩, rfl, rfl⟩ := hshares
      exact ⟨hS, hS, by rw [hda, hma]; rfl, by rw [hdb, hmb]; rfl⟩
    | ceiling =>
      simp only [Option.bind_eq_bind, Option.bind_eq_some_iff, Option.pure_def,
        Option.some.injEq, Prod.mk.injEq, BitVec.checkedMul_eq_some,
        U128.toNat_widen] at hshares
      obtain ⟨ma, hma, ⟨da, _⟩, hda, mb, hmb, ⟨db, _⟩, hdb, rfl, rfl⟩ := hshares
      obtain ⟨hneA, hda⟩ := SplMath.u256CheckedCeilDiv_eq_some hda
      obtain ⟨hneB, hdb⟩ := SplMath.u256CheckedCeilDiv_eq_some hdb
      rw [hma, U128.toNat_widen] at hneA hda
      rw [hmb, U128.toNat_widen] at hneB hdb
      exact ⟨hneA, hneB, hda, hdb⟩
  exact ⟨hspec.1, hspec.2.1, shareA, shareB, hspec.2.2.1, hspec.2.2.2, h⟩

/-- The proportional amounts are exactly both shares, where these can be computed and fit. -/
theorem poolTokensToTradingTokens_eq_ok {t S a b : U128} {rd : RoundDirection}
    {r : TradingTokenResult} : poolTokensToTradingTokens t S a b rd = .ok r ↔
      ShareDefined t.toNat S.toNat a.toNat rd ∧ ShareDefined t.toNat S.toNat b.toNat rd ∧
      r.tokenAAmount.toNat = shareOf t.toNat S.toNat a.toNat rd ∧
      r.tokenBAmount.toNat = shareOf t.toNat S.toNat b.toNat rd := by
  refine ⟨?_, ?_⟩
  · intro h
    rcases poolTokensToTradingTokens_cases t S a b rd with
      hnone | ⟨ha, hb, shareA, shareB, hA, hB, hcases⟩
    · rw [hnone] at h
      cases h
    · rw [hcases] at h
      simp only [Outcome.bind_eq_ok, BitVec.narrowOrPanic_eq_ok, Outcome.pure_eq,
        Outcome.ok.injEq] at h
      obtain ⟨ra, hra, rb, hrb, rfl⟩ := h
      exact ⟨ha, hb, hra.trans hA, hrb.trans hB⟩
  · rintro ⟨ha, hb, hra, hrb⟩
    -- products of 128-bit numbers fit in 256 bits
    obtain ⟨ma, hma⟩ : ∃ m : U256, m.toNat = t.toNat * a.toNat :=
      BitVec.exists_toNat_eq BitVec.toNat_mul_toNat_lt
    obtain ⟨mb, hmb⟩ : ∃ m : U256, m.toNat = t.toNat * b.toNat :=
      BitVec.exists_toNat_eq BitVec.toNat_mul_toNat_lt
    cases rd with
    | floor =>
      simp only [poolTokensToTradingTokens, Outcome.bind_eq_ok, Calc.liftM_eq_ok,
        Option.bind_eq_bind, Option.bind_eq_some_iff, Option.pure_def, Option.some.injEq,
        BitVec.checkedMul_eq_some, BitVec.checkedDiv_eq_some, BitVec.narrowOrPanic_eq_ok,
        U128.toNat_widen, Outcome.pure_eq, Outcome.ok.injEq]
      obtain ⟨qa, hqa⟩ := BitVec.exists_toNat_eq
        ((Nat.div_le_self ma.toNat S.toNat).trans_lt ma.isLt)
      obtain ⟨qb, hqb⟩ := BitVec.exists_toNat_eq
        ((Nat.div_le_self mb.toNat S.toNat).trans_lt mb.isLt)
      refine ⟨(qa, qb), ⟨ma, hma, qa, ⟨ha, hqa⟩, mb, hmb, qb, ⟨hb, hqb⟩, rfl⟩, r.tokenAAmount, ?_,
        r.tokenBAmount, ?_, rfl⟩
      · rw [hra, hqa, hma]
        rfl
      · rw [hrb, hqb, hmb]
        rfl
    | ceiling =>
      simp only [poolTokensToTradingTokens, Outcome.bind_eq_ok, Calc.liftM_eq_ok,
        Option.bind_eq_bind, Option.bind_eq_some_iff, Option.pure_def, Option.some.injEq,
        BitVec.checkedMul_eq_some, BitVec.narrowOrPanic_eq_ok, U128.toNat_widen, Outcome.pure_eq,
        Outcome.ok.injEq]
      rw [ShareDefined, ← hma, ← U128.toNat_widen S] at ha
      rw [ShareDefined, ← hmb, ← U128.toNat_widen S] at hb
      obtain ⟨qa, _, hqa, hva⟩ := SplMath.u256CheckedCeilDiv_some _ _ ha
      obtain ⟨qb, _, hqb, hvb⟩ := SplMath.u256CheckedCeilDiv_some _ _ hb
      refine ⟨(qa, qb), ⟨ma, hma, (qa, _), hqa, mb, hmb, (qb, _), hqb, rfl⟩, r.tokenAAmount, ?_,
        r.tokenBAmount, ?_, rfl⟩
      · rw [hra, hva, hma, U128.toNat_widen]
        rfl
      · rw [hrb, hvb, hmb, U128.toNat_widen]
        rfl

/-- Spec of the proportional amounts: both shares, rounded the same way. -/
theorem poolTokensToTradingTokens_spec {t S a b : U128} {rd : RoundDirection}
    {r : TradingTokenResult} (h : poolTokensToTradingTokens t S a b rd = .ok r) :
    0 < S.toNat ∧
    r.tokenAAmount.toNat = shareOf t.toNat S.toNat a.toNat rd ∧
    r.tokenBAmount.toNat = shareOf t.toNat S.toNat b.toNat rd := by
  obtain ⟨ha, -, hra, hrb⟩ := poolTokensToTradingTokens_eq_ok.mp h
  exact ⟨ha.supply_pos, hra, hrb⟩

/-! ## Valuation -/

/-- `normalized_value` at `tokenBPrice`: half the value of the reserves. -/
def normalizedValue (tokenBPrice : U256) (swapTokenAAmount swapTokenBAmount : U128) :
    Option SplMath.PreciseNumber := do
  let value ← (swapTokenBAmount.widen 256).checkedMul tokenBPrice
  let swapTokenBValue ← value.checkedDiv (RAY.widen 256)
  let value ← (swapTokenAAmount.widen 256).checkedAdd swapTokenBValue
  let value ← value.checkedDiv 2#256
  let value ← value.tryNarrow 128
  SplMath.preciseNew value

/-- `validate_supply` of the curves that accept an empty token B side. -/
def validateSupply (tokenAAmount _tokenBAmount : U64) : Outcome SwapError Unit :=
  Outcome.rejectIf (tokenAAmount = 0#64) .emptySupply

end Linear

/-! ## The constant-price curve -/

/-- ConstantPriceCurve struct implementing CurveCalculator. -/
@[ext] structure ConstantPriceCurve : Type where
  /-- amount of token A required to get 1 token B, scaled by `RAY` -/
  tokenBPrice : U128
  deriving DecidableEq, Repr

namespace ConstantPriceCurve

variable [SplMath] (curve : ConstantPriceCurve)

/-- Charge only full multiples of price; drop remainder. -/
def swapWithoutFees (sourceAmount : U128) (tradeDirection : TradeDirection) :
    Calc SwapWithoutFeesResult :=
  Linear.swapWithoutFees (curve.tokenBPrice.widen 256) sourceAmount tradeDirection

/-- Get the amount of pool tokens for the given amount of token A or B. -/
def depositSingleTokenType
    (sourceAmount swapTokenAAmount swapTokenBAmount poolSupply : U128)
    (tradeDirection : TradeDirection) : Calc U128 :=
  Linear.tradingTokensToPoolTokens (curve.tokenBPrice.widen 256) sourceAmount swapTokenAAmount
    swapTokenBAmount poolSupply tradeDirection .floor

/-- Get the amount of pool tokens for the withdrawn amount of token A or B. -/
def withdrawSingleTokenTypeExactOut
    (sourceAmount swapTokenAAmount swapTokenBAmount poolSupply : U128)
    (tradeDirection : TradeDirection) (roundDirection : RoundDirection) : Calc U128 :=
  Linear.tradingTokensToPoolTokens (curve.tokenBPrice.widen 256) sourceAmount swapTokenAAmount
    swapTokenBAmount poolSupply tradeDirection roundDirection

/-- The price is not zero. -/
def validate : Outcome SwapError Unit := Outcome.rejectIf (curve.tokenBPrice = 0#128) .invalidCurve

/-- The total value of the token B side added to the token A side, divided by two. -/
def normalizedValue (swapTokenAAmount swapTokenBAmount : U128) : Option SplMath.PreciseNumber :=
  Linear.normalizedValue (curve.tokenBPrice.widen 256) swapTokenAAmount swapTokenBAmount

/-- Size of the curve in bytes. -/
def LEN : ℕ := 16

/-- The bytes of the curve. -/
def packed : Bytes := Bytes.toLE 16 curve.tokenBPrice

/-- Read the curve from the front of a slice. -/
def unpackFromSlice (input : Bytes) : ConstantPriceCurve where
  tokenBPrice := Bytes.ofLE 16 (Bytes.slice 0 16 input)

end ConstantPriceCurve

end SolanaPsm
