import SolanaPsm.Linear

/-!
# Multiplicative curves

The constant-product curve (`constant_product.rs`) and the offset curve
(`offset.rs`), which adds an amount to the token B side and reuses the routines of
the first. Square roots go through the fixed-point numbers of the math library.
-/

namespace SolanaPsm

namespace ConstantProduct

variable [SplMath]

open SplMath

/-- The constant product swap calculation, factored out of its class for reuse. -/
def swap (sourceAmount swapSourceAmount swapDestinationAmount : U128) :
    Option SwapWithoutFeesResult := do
  let invariant ← swapSourceAmount.checkedMul swapDestinationAmount
  let newSwapSourceAmount ← swapSourceAmount.checkedAdd sourceAmount
  let (newSwapDestinationAmount, newSwapSourceAmount) ←
    u128CheckedCeilDiv invariant newSwapSourceAmount
  let sourceAmountSwapped ← newSwapSourceAmount.checkedSub swapSourceAmount
  let destination ← swapDestinationAmount.checkedSub newSwapDestinationAmount
  let destinationAmountSwapped ← mapZeroToNone destination
  return { sourceAmountSwapped, destinationAmountSwapped }

/-- The amounts `used` and `bought` of a swap that offers `s` against reserves `x` and `y`
keep the invariant `x * y`; nothing less buys `bought`, and nothing more was affordable. -/
structure LeastCharge (s x y used bought : ℕ) : Prop where
  /-- never more is charged than offered -/
  used_le : used ≤ s
  /-- a swap is never free -/
  used_pos : 0 < used
  /-- something is bought -/
  bought_pos : 1 ≤ bought
  /-- the destination is not emptied -/
  bought_lt : bought < y
  /-- the invariant does not fall -/
  keeps : x * y ≤ (x + used) * (y - bought)
  /-- it would with a smaller charge -/
  least : (x + used - 1) * (y - bought) < x * y
  /-- it would with a larger output -/
  most : (x + s) * (y - bought - 1) < x * y

/-- A constant product swap charges the least that keeps the invariant. -/
theorem leastCharge_of_swap {s x y : U128} {r : SwapWithoutFeesResult}
    (h : swap s x y = some r) :
    LeastCharge s.toNat x.toNat y.toNat r.sourceAmountSwapped.toNat
      r.destinationAmountSwapped.toNat := by
  simp only [swap, Option.bind_eq_bind, Option.bind_eq_some_iff, Option.pure_def,
    Option.some.injEq, BitVec.checkedMul_eq_some, BitVec.checkedAdd_eq_some,
    BitVec.checkedSub_eq_some, mapZeroToNone_eq_some] at h
  obtain ⟨invariant, hinv, total, htotal, ⟨rest, source⟩, hceil, used, ⟨hx, hused⟩, _,
    ⟨hy, hbought⟩, bought, ⟨hpos, rfl⟩, rfl⟩ := h
  dsimp only at hx hused hy hbought ⊢
  obtain ⟨-, -, hmost, hle, hkeeps, hleast⟩ := u128CheckedCeilDiv_eq_some hceil
  rw [hinv, htotal] at hmost
  rw [htotal] at hle
  rw [hinv] at hkeeps hleast
  -- the new reserves are the divisor and the quotient
  have hsource : x.toNat + used.toNat = source.toNat := by omega
  have hrest : y.toNat - bought.toNat = rest.toNat := by omega
  have hused_pos : 0 < used.toNat := by
    refine Nat.pos_of_ne_zero fun h0 => ?_
    rw [← hsource, h0, Nat.add_zero] at hkeeps hleast
    have hbelow : x.toNat * rest.toNat ≤ x.toNat * y.toNat := Nat.mul_le_mul_left _ hy
    have hx0 : 0 < x.toNat := by
      refine Nat.pos_of_ne_zero fun hx0 => ?_
      rw [hx0, Nat.zero_mul, Nat.zero_mul] at hleast
      exact absurd hleast (Nat.not_lt_zero _)
    have hstrict : x.toNat * rest.toNat < x.toNat * y.toNat :=
      Nat.mul_lt_mul_of_pos_left (by omega) hx0
    omega
  constructor
  case used_le => omega
  case used_pos => exact hused_pos
  case bought_pos => exact hpos
  case bought_lt =>
    have hrest_pos : 0 < rest.toNat := (u128CheckedCeilDiv_eq_some hceil).1
    omega
  case keeps => rwa [hsource, hrest]
  case least => rwa [hsource, hrest]
  case most => rwa [hrest]

/-- One side of `poolTokensToTradingTokens`. Rounding up avoids taking a whole token
for a share worth less than one. -/
def tradingTokens (poolTokens poolTokenSupply amount : U128) (roundDirection : RoundDirection) :
    Option U128 := do
  let product ← poolTokens.checkedMul amount
  let tokenAmount ← product.checkedDiv poolTokenSupply
  match roundDirection with
  | .floor => return tokenAmount
  | .ceiling => do
    let remainder ← product.checkedRem poolTokenSupply
    -- a remainder needs a supply of at least two, so adding one cannot overflow
    return if 0#128 < remainder ∧ 0#128 < tokenAmount then tokenAmount + 1#128 else tokenAmount

/-- Get the amount of trading tokens for the given amount of pool tokens: a simple
ratio. -/
def poolTokensToTradingTokens
    (poolTokens poolTokenSupply swapTokenAAmount swapTokenBAmount : U128)
    (roundDirection : RoundDirection) : Option TradingTokenResult := do
  let tokenAAmount ← tradingTokens poolTokens poolTokenSupply swapTokenAAmount roundDirection
  let tokenBAmount ← tradingTokens poolTokens poolTokenSupply swapTokenBAmount roundDirection
  return { tokenAAmount, tokenBAmount }

omit [SplMath] in
/-- Spec of one side: nothing for a share worth less than one token, else the share. -/
theorem tradingTokens_eq_some {t S x y : U128} {rd : RoundDirection}
    (h : tradingTokens t S x rd = some y) :
    0 < S.toNat ∧ y.toNat = if t.toNat * x.toNat / S.toNat = 0 then 0
      else Linear.shareOf t.toNat S.toNat x.toNat rd := by
  simp only [tradingTokens, Option.bind_eq_bind, Option.bind_eq_some_iff,
    BitVec.checkedMul_eq_some, BitVec.checkedDiv_eq_some] at h
  obtain ⟨product, hproduct, q, ⟨hS, hq⟩, h⟩ := h
  refine ⟨hS, ?_⟩
  cases rd with
  | floor =>
    rw [Linear.shareOf, ← hproduct, ← hq, ← Option.some.inj h]
    split
    · assumption
    · rfl
  | ceiling =>
    simp only [Option.bind_eq_some_iff, BitVec.checkedRem_eq_some, Option.pure_def,
      Option.some.injEq, BitVec.lt_def] at h
    obtain ⟨rest, ⟨-, hrest⟩, rfl⟩ := h
    rw [Linear.shareOf, ← hproduct, ceilDiv_eq hS, ← hq, ← hrest]
    change BitVec.toNat (if 0 < rest.toNat ∧ 0 < q.toNat then _ else _) = _
    by_cases hzero : q.toNat = 0
    · rw [if_neg (by omega), if_pos hzero, hzero]
    by_cases hexact : rest.toNat = 0
    · rw [if_neg (by omega), if_neg hzero, if_pos hexact]
    · rw [if_pos (by omega), if_neg hzero, if_neg hexact]
      -- a remainder needs a supply of at least two
      have htwo : 2 ≤ S.toNat := by
        have := Nat.mod_lt product.toNat hS
        omega
      have hfit : q.toNat * 2 ≤ product.toNat := by
        rw [hq]
        exact (Nat.mul_le_mul_left _ htwo).trans (Nat.div_mul_le_self _ _)
      have := product.isLt
      rw [BitVec.toNat_add_of_lt (by simp; omega)]
      rfl

/-- The reserve on the source side of a single-sided operation. -/
def sourceReserve (swapTokenAAmount swapTokenBAmount : U128) : TradeDirection → U128
  | .aToB => swapTokenAAmount
  | .bToA => swapTokenBAmount

/-- Round a fixed-point number to an integer. -/
def toWhole (x : PreciseNumber) : RoundDirection → Option U128
  | .floor => do toImprecise (← preciseFloor x)
  | .ceiling => do toImprecise (← preciseCeiling x)

/-- Get the amount of pool tokens for the deposited amount of token A or B. -/
def depositSingleTokenType
    (sourceAmount swapTokenAAmount swapTokenBAmount poolSupply : U128)
    (tradeDirection : TradeDirection) (roundDirection : RoundDirection) : Option U128 := do
  let swapSourceAmount ← preciseNew (sourceReserve swapTokenAAmount swapTokenBAmount tradeDirection)
  let sourceAmount ← preciseNew sourceAmount
  let ratio ← preciseDiv sourceAmount swapSourceAmount
  let one ← preciseNew 1#128
  let base ← preciseAdd one ratio
  let root ← preciseSub (← preciseSqrt base) one
  let poolSupply ← preciseNew poolSupply
  let poolTokens ← preciseMul poolSupply root
  toWhole poolTokens roundDirection

/-- Get the amount of pool tokens for the withdrawn amount of token A or B. -/
def withdrawSingleTokenTypeExactOut
    (sourceAmount swapTokenAAmount swapTokenBAmount poolSupply : U128)
    (tradeDirection : TradeDirection) (roundDirection : RoundDirection) : Calc U128 := do
  let swapSourceAmount ← preciseNew (sourceReserve swapTokenAAmount swapTokenBAmount tradeDirection)
  let sourceAmount ← preciseNew sourceAmount
  let ratio ← preciseDiv sourceAmount swapSourceAmount
  let one ← preciseNew 1#128
  -- a missing difference becomes zero; a missing zero aborts
  let base ← (match preciseSub one ratio, preciseNew 0#128 with
    | some base, _ => .ok base
    | none, some zero => .ok zero
    | none, none => .panic)
  let root ← preciseSqrt base
  let root ← preciseSub one root
  let poolSupply ← preciseNew poolSupply
  let poolTokens ← preciseMul poolSupply root
  toWhole poolTokens roundDirection

/-- The square root of the invariant. -/
def normalizedValue (swapTokenAAmount swapTokenBAmount : U128) : Option PreciseNumber := do
  let a ← preciseNew swapTokenAAmount
  let b ← preciseNew swapTokenBAmount
  preciseSqrt (← preciseMul a b)

/-- The default `validate_supply`: no side is empty. -/
def validateSupply (tokenAAmount tokenBAmount : U64) : Outcome SwapError Unit := do
  Outcome.rejectIf (tokenAAmount = 0#64) .emptySupply
  Outcome.rejectIf (tokenBAmount = 0#64) .emptySupply

end ConstantProduct

/-! ## The offset curve -/

/-- Offset curve, uses ConstantProduct under the hood, but adds an offset to one side
on swap calculations. -/
@[ext] structure OffsetCurve : Type where
  /-- amount to offset the token B liquidity account -/
  tokenBOffset : U64
  deriving DecidableEq, Repr

namespace OffsetCurve

variable [SplMath] (curve : OffsetCurve)

/-- Constant product swap ensures token a * (token b + offset) = constant. -/
def swapWithoutFees (sourceAmount swapSourceAmount swapDestinationAmount : U128)
    (tradeDirection : TradeDirection) : Option SwapWithoutFeesResult := do
  let tokenBOffset := curve.tokenBOffset.widen 128
  match tradeDirection with
  | .aToB => do
    let swapDestinationAmount ← swapDestinationAmount.checkedAdd tokenBOffset
    ConstantProduct.swap sourceAmount swapSourceAmount swapDestinationAmount
  | .bToA => do
    let swapSourceAmount ← swapSourceAmount.checkedAdd tokenBOffset
    ConstantProduct.swap sourceAmount swapSourceAmount swapDestinationAmount

/-- The reserves a swap is priced at: the offset counts as token B. -/
def offsetReserves (tradeDirection : TradeDirection) (x y : ℕ) : ℕ × ℕ :=
  match tradeDirection with
  | .aToB => (x, y + curve.tokenBOffset.toNat)
  | .bToA => (x + curve.tokenBOffset.toNat, y)

/-- The conversion for the offset curve needs to take into account the offset. -/
def poolTokensToTradingTokens
    (poolTokens poolTokenSupply swapTokenAAmount swapTokenBAmount : U128)
    (roundDirection : RoundDirection) : Option TradingTokenResult := do
  let swapTokenBAmount ← swapTokenBAmount.checkedAdd (curve.tokenBOffset.widen 128)
  ConstantProduct.poolTokensToTradingTokens poolTokens poolTokenSupply swapTokenAAmount
    swapTokenBAmount roundDirection

/-- Get the amount of pool tokens for a deposit, taking into account the offset. -/
def depositSingleTokenType
    (sourceAmount swapTokenAAmount swapTokenBAmount poolSupply : U128)
    (tradeDirection : TradeDirection) : Option U128 := do
  let swapTokenBAmount ← swapTokenBAmount.checkedAdd (curve.tokenBOffset.widen 128)
  ConstantProduct.depositSingleTokenType sourceAmount swapTokenAAmount swapTokenBAmount
    poolSupply tradeDirection .floor

/-- Get the amount of pool tokens for a withdrawal, taking into account the offset. -/
def withdrawSingleTokenTypeExactOut
    (sourceAmount swapTokenAAmount swapTokenBAmount poolSupply : U128)
    (tradeDirection : TradeDirection) (roundDirection : RoundDirection) : Calc U128 := do
  let swapTokenBAmount ← (swapTokenBAmount.checkedAdd (curve.tokenBOffset.widen 128) : Option U128)
  ConstantProduct.withdrawSingleTokenTypeExactOut sourceAmount swapTokenAAmount swapTokenBAmount
    poolSupply tradeDirection roundDirection

/-- The offset is not zero. -/
def validate : Outcome SwapError Unit := Outcome.rejectIf (curve.tokenBOffset = 0#64) .invalidCurve

/-- Add the offset to the token B side before calculating. -/
def normalizedValue (swapTokenAAmount swapTokenBAmount : U128) :
    Option SplMath.PreciseNumber := do
  let swapTokenBAmount ← swapTokenBAmount.checkedAdd (curve.tokenBOffset.widen 128)
  ConstantProduct.normalizedValue swapTokenAAmount swapTokenBAmount

/-- Size of the curve in bytes. -/
def LEN : ℕ := 8

/-- The bytes of the curve. -/
def packed : Bytes := Bytes.toLE 8 curve.tokenBOffset

/-- Read the curve from the front of a slice. -/
def unpackFromSlice (input : Bytes) : OffsetCurve where
  tokenBOffset := Bytes.ofLE 8 (Bytes.slice 0 8 input)

end OffsetCurve

/-! ## What a swap charges -/

namespace ConstantProduct

/-- The swaps of both curves keep the invariant and charge the least possible; the offset
curve counts its offset as a reserve of token B. -/
theorem swap_charges_least [SplMath] :
    (∀ (s x y : U128) (r : SwapWithoutFeesResult), swap s x y = some r →
      LeastCharge s.toNat x.toNat y.toNat r.sourceAmountSwapped.toNat
        r.destinationAmountSwapped.toNat) ∧
    ∀ (curve : OffsetCurve) (s x y : U128) (dir : TradeDirection) (r : SwapWithoutFeesResult),
      curve.swapWithoutFees s x y dir = some r →
      LeastCharge s.toNat (curve.offsetReserves dir x.toNat y.toNat).1
        (curve.offsetReserves dir x.toNat y.toNat).2 r.sourceAmountSwapped.toNat
        r.destinationAmountSwapped.toNat := by
  refine ⟨fun s x y r => leastCharge_of_swap, ?_⟩
  intro curve s x y dir r h
  cases dir with
  | aToB =>
    obtain ⟨y', hy', h⟩ := Option.bind_eq_some_iff.mp h
    rw [BitVec.checkedAdd_eq_some, U64.toNat_widen] at hy'
    have hleast := leastCharge_of_swap h
    rwa [hy'] at hleast
  | bToA =>
    obtain ⟨x', hx', h⟩ := Option.bind_eq_some_iff.mp h
    rw [BitVec.checkedAdd_eq_some, U64.toNat_widen] at hx'
    have hleast := leastCharge_of_swap h
    rwa [hx'] at hleast

/-- Offers of ten against reserves of 25 and 10, the second with an offset of 15. -/
theorem swap_charges_least_ten :
    LeastCharge 10 25 10 7 2 ∧ LeastCharge 10 25 25 10 7 :=
  have hleast := @swap_charges_least SplMath.reference
  ⟨hleast.1 10#128 25#128 10#128 ⟨7#128, 2#128⟩ (by decide +kernel),
    hleast.2 ⟨15#64⟩ 10#128 25#128 10#128 .aToB ⟨10#128, 7#128⟩ (by decide +kernel)⟩

end ConstantProduct

end SolanaPsm
