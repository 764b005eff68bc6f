import SolanaPsm.ConstantProduct
import SolanaPsm.Fees
import SolanaPsm.RedemptionRate

/-!
# Swap curves

The curve of a pool (`base.rs`): one of four calculators behind one interface, the
fee accounting around them, and the 65-byte layout.

The fee accounting is specified once for every calculator: `swap_eq_ok`,
`depositSingleTokenType_eq_ok` and `withdrawSingleTokenTypeExactOut_eq_ok` name the
amount the calculator is asked about and say what is charged around its answer.
For the two linear calculators `Calculator.tokenBPrice` is the price, and the
interface is the linear arithmetic at that price.
-/

namespace SolanaPsm

/-! ## Calculators -/

/-- Curve types supported by the token-swap program. -/
inductive CurveType : Type where
  | constantProduct
  | constantPrice
  | offset
  | redemptionRateCurve
  deriving DecidableEq, Repr

namespace CurveType

/-- The byte of a curve type. -/
def toU8 : CurveType → UInt8
  | constantProduct => 0
  | constantPrice => 1
  | offset => 2
  | redemptionRateCurve => 3

/-- The curve type of a byte. -/
def tryFrom (curveType : UInt8) : Outcome ProgramError CurveType :=
  if curveType = 0 then .ok constantProduct
  else if curveType = 1 then .ok constantPrice
  else if curveType = 2 then .ok offset
  else if curveType = 3 then .ok redemptionRateCurve
  else .err .invalidAccountData

@[simp] theorem tryFrom_toU8 (curveType : CurveType) :
    tryFrom curveType.toU8 = .ok curveType := by
  cases curveType <;> rfl

/-- There are four types. -/
theorem toU8_le (curveType : CurveType) : curveType.toU8 ≤ 3 := by
  cases curveType <;> decide

theorem tryFrom_eq_ok {b : UInt8} {curveType : CurveType} :
    tryFrom b = .ok curveType ↔ b = curveType.toU8 := by
  refine ⟨?_, ?_⟩
  · intro h
    rw [tryFrom] at h
    split at h
    · cases h; assumption
    split at h
    · cases h; assumption
    split at h
    · cases h; assumption
    split at h
    · cases h; assumption
    · cases h
  · rintro rfl
    exact tryFrom_toU8 curveType

theorem noPanic_tryFrom (b : UInt8) : (tryFrom b).NoPanic := by
  simp only [tryFrom]
  split
  · exact Outcome.noPanic_ok _
  split
  · exact Outcome.noPanic_ok _
  split
  · exact Outcome.noPanic_ok _
  split
  · exact Outcome.noPanic_ok _
  · exact Outcome.noPanic_err _

end CurveType

/-- The calculators a curve can hold. -/
inductive Calculator : Type where
  | constantProduct
  | constantPrice (curve : ConstantPriceCurve)
  | offset (curve : OffsetCurve)
  | redemptionRate (curve : RedemptionRateCurve)
  deriving DecidableEq, Repr

namespace Calculator

/-- The type of curve of the calculator. -/
def curveType : Calculator → CurveType
  | constantProduct => .constantProduct
  | constantPrice _ => .constantPrice
  | offset _ => .offset
  | redemptionRate _ => .redemptionRateCurve

section Operations

variable [SplMath]

/-- Calculate how much destination token will be provided given an amount of source
token. -/
def swapWithoutFees (calculator : Calculator)
    (sourceAmount swapSourceAmount swapDestinationAmount : U128)
    (tradeDirection : TradeDirection) (timestamp : Option U128) : Calc SwapWithoutFeesResult :=
  match calculator with
  | constantProduct => ConstantProduct.swap sourceAmount swapSourceAmount swapDestinationAmount
  | constantPrice curve => curve.swapWithoutFees sourceAmount tradeDirection
  | offset curve =>
    curve.swapWithoutFees sourceAmount swapSourceAmount swapDestinationAmount tradeDirection
  | redemptionRate curve => curve.swapWithoutFees sourceAmount tradeDirection timestamp

/-- Get the supply for a new pool. -/
def newPoolSupply (_calculator : Calculator) : U128 := INITIAL_SWAP_POOL_AMOUNT

/-- Get the amount of trading tokens for the given amount of pool tokens. -/
def poolTokensToTradingTokens (calculator : Calculator)
    (poolTokens poolTokenSupply swapTokenAAmount swapTokenBAmount : U128)
    (roundDirection : RoundDirection) : Calc TradingTokenResult :=
  match calculator with
  | constantProduct =>
    ConstantProduct.poolTokensToTradingTokens poolTokens poolTokenSupply swapTokenAAmount
      swapTokenBAmount roundDirection
  | constantPrice _ =>
    Linear.poolTokensToTradingTokens poolTokens poolTokenSupply swapTokenAAmount
      swapTokenBAmount roundDirection
  | offset curve =>
    curve.poolTokensToTradingTokens poolTokens poolTokenSupply swapTokenAAmount
      swapTokenBAmount roundDirection
  | redemptionRate _ =>
    Linear.poolTokensToTradingTokens poolTokens poolTokenSupply swapTokenAAmount
      swapTokenBAmount roundDirection

/-- Get the amount of pool tokens for the deposited amount of token A or B. -/
def depositSingleTokenType (calculator : Calculator)
    (sourceAmount swapTokenAAmount swapTokenBAmount poolSupply : U128)
    (tradeDirection : TradeDirection) (timestamp : Option U128) : Calc U128 :=
  match calculator with
  | constantProduct =>
    ConstantProduct.depositSingleTokenType sourceAmount swapTokenAAmount swapTokenBAmount
      poolSupply tradeDirection .floor
  | constantPrice curve =>
    curve.depositSingleTokenType sourceAmount swapTokenAAmount swapTokenBAmount poolSupply
      tradeDirection
  | offset curve =>
    curve.depositSingleTokenType sourceAmount swapTokenAAmount swapTokenBAmount poolSupply
      tradeDirection
  | redemptionRate curve =>
    curve.depositSingleTokenType sourceAmount swapTokenAAmount swapTokenBAmount poolSupply
      tradeDirection timestamp

/-- Get the amount of pool tokens for the withdrawn amount of token A or B. -/
def withdrawSingleTokenTypeExactOut (calculator : Calculator)
    (sourceAmount swapTokenAAmount swapTokenBAmount poolSupply : U128)
    (tradeDirection : TradeDirection) (roundDirection : RoundDirection)
    (timestamp : Option U128) : Calc U128 :=
  match calculator with
  | constantProduct =>
    ConstantProduct.withdrawSingleTokenTypeExactOut sourceAmount swapTokenAAmount
      swapTokenBAmount poolSupply tradeDirection roundDirection
  | constantPrice curve =>
    curve.withdrawSingleTokenTypeExactOut sourceAmount swapTokenAAmount swapTokenBAmount
      poolSupply tradeDirection roundDirection
  | offset curve =>
    curve.withdrawSingleTokenTypeExactOut sourceAmount swapTokenAAmount swapTokenBAmount
      poolSupply tradeDirection roundDirection
  | redemptionRate curve =>
    curve.withdrawSingleTokenTypeExactOut sourceAmount swapTokenAAmount swapTokenBAmount
      poolSupply tradeDirection roundDirection timestamp

/-- Validate that the given curve has no invalid parameters. -/
def validate (calculator : Calculator) (timestamp : Option U128) : Outcome SwapError Unit :=
  match calculator with
  | constantProduct => .ok ()
  | constantPrice curve => curve.validate
  | offset curve => curve.validate
  | redemptionRate curve => curve.validate timestamp

/-- Validate the given supply on initialization. -/
def validateSupply (calculator : Calculator) (tokenAAmount tokenBAmount : U64) :
    Outcome SwapError Unit :=
  match calculator with
  | constantProduct => ConstantProduct.validateSupply tokenAAmount tokenBAmount
  | _ => Linear.validateSupply tokenAAmount tokenBAmount

/-- Calculate the total normalized value of the curve given the liquidity parameters. -/
def normalizedValue (calculator : Calculator) (swapTokenAAmount swapTokenBAmount : U128)
    (timestamp : Option U128) : Calc SplMath.PreciseNumber :=
  match calculator with
  | constantProduct => ConstantProduct.normalizedValue swapTokenAAmount swapTokenBAmount
  | constantPrice curve => curve.normalizedValue swapTokenAAmount swapTokenBAmount
  | offset curve => curve.normalizedValue swapTokenAAmount swapTokenBAmount
  | redemptionRate curve =>
    curve.normalizedValue swapTokenAAmount swapTokenBAmount timestamp

/-- Some curves function best and prevent attacks if we prevent deposits after
initialization. -/
def allowsDeposits : Calculator → Bool
  | offset _ => false
  | _ => true

end Operations

/-! ### Linear calculators -/

section Linear

variable [SplMath]

/-- The calculators whose price does not depend on the reserves. -/
def IsLinear : Calculator → Prop
  | constantPrice _ | redemptionRate _ => True
  | constantProduct | offset _ => False

instance (calculator : Calculator) : Decidable calculator.IsLinear :=
  match calculator with
  | constantPrice _ | redemptionRate _ => isTrue trivial
  | constantProduct | offset _ => isFalse id

/-- The price of token B in units of token A, scaled by `RAY`. -/
def tokenBPrice (calculator : Calculator) (timestamp : Option U128) : Calc U256 :=
  match calculator with
  | constantPrice curve => .ok (curve.tokenBPrice.widen 256)
  | redemptionRate curve => curve.priceAt timestamp
  | constantProduct | offset _ => .err ()

variable {calculator : Calculator}

theorem IsLinear.swapWithoutFees (hc : calculator.IsLinear) (s a b : U128)
    (dir : TradeDirection) (ts : Option U128) :
    calculator.swapWithoutFees s a b dir ts =
      (calculator.tokenBPrice ts >>= fun p => Linear.swapWithoutFees p s dir) := by
  cases calculator with
  | constantPrice curve => rfl
  | redemptionRate curve => rfl
  | constantProduct | offset curve => exact hc.elim

theorem IsLinear.poolTokensToTradingTokens (hc : calculator.IsLinear) (t S a b : U128)
    (rd : RoundDirection) :
    calculator.poolTokensToTradingTokens t S a b rd =
      Linear.poolTokensToTradingTokens t S a b rd := by
  cases calculator with
  | constantPrice curve => rfl
  | redemptionRate curve => rfl
  | constantProduct | offset curve => exact hc.elim

theorem IsLinear.depositSingleTokenType (hc : calculator.IsLinear) (x a b S : U128)
    (dir : TradeDirection) (ts : Option U128) :
    calculator.depositSingleTokenType x a b S dir ts = (calculator.tokenBPrice ts >>= fun p =>
      Linear.tradingTokensToPoolTokens p x a b S dir .floor) := by
  cases calculator with
  | constantPrice curve => rfl
  | redemptionRate curve => rfl
  | constantProduct | offset curve => exact hc.elim

theorem IsLinear.withdrawSingleTokenTypeExactOut (hc : calculator.IsLinear) (x a b S : U128)
    (dir : TradeDirection) (rd : RoundDirection) (ts : Option U128) :
    calculator.withdrawSingleTokenTypeExactOut x a b S dir rd ts =
      (calculator.tokenBPrice ts >>= fun p =>
        Linear.tradingTokensToPoolTokens p x a b S dir rd) := by
  cases calculator with
  | constantPrice curve => rfl
  | redemptionRate curve => rfl
  | constantProduct | offset curve => exact hc.elim

theorem IsLinear.normalizedValue (hc : calculator.IsLinear) (a b : U128) (ts : Option U128) :
    calculator.normalizedValue a b ts =
      (calculator.tokenBPrice ts >>= fun p => (Linear.normalizedValue p a b : Calc _)) := by
  cases calculator with
  | constantPrice curve => rfl
  | redemptionRate curve => rfl
  | constantProduct | offset curve => exact hc.elim

end Linear

theorem IsLinear.allowsDeposits {calculator : Calculator} (hc : calculator.IsLinear) :
    calculator.allowsDeposits = true := by
  cases calculator with
  | constantPrice curve => rfl
  | redemptionRate curve => rfl
  | constantProduct | offset curve => exact hc.elim

theorem IsLinear.curveType_ne {calculator : Calculator} (hc : calculator.IsLinear) :
    calculator.curveType ≠ .constantProduct := by
  cases calculator with
  | constantPrice curve | redemptionRate curve => nofun
  | constantProduct | offset curve => exact hc.elim

theorem IsLinear.validateSupply {calculator : Calculator} (hc : calculator.IsLinear)
    (a b : U64) :
    calculator.validateSupply a b = Linear.validateSupply a b := by
  cases calculator with
  | constantPrice curve => rfl
  | redemptionRate curve => rfl
  | constantProduct | offset curve => exact hc.elim

/-! ### Two-sided shares -/

/-- What a calculator that accepts deposits gives for `t` of `S` pool tokens: the share of
the reserve `x`, except that the constant-product curve does not round up a share worth less
than one token. -/
def IsTwoSidedShare (calculator : Calculator) (t S x : ℕ) (rd : RoundDirection) (y : ℕ) : Prop :=
  y = Linear.shareOf t S x rd ∨
    (calculator = constantProduct ∧ rd = .ceiling ∧ t * x / S = 0 ∧ y = 0)

theorem isTwoSidedShare_of_tradingTokens {t S x y : U128} {rd : RoundDirection}
    (h : ConstantProduct.tradingTokens t S x rd = some y) :
    IsTwoSidedShare constantProduct t.toNat S.toNat x.toNat rd y.toNat := by
  obtain ⟨-, hy⟩ := ConstantProduct.tradingTokens_eq_some h
  split at hy
  · rename_i hzero
    cases rd with
    | floor => exact Or.inl (hy.trans hzero.symm)
    | ceiling => exact Or.inr ⟨rfl, rfl, hzero, hy⟩
  · exact Or.inl hy

/-- Spec of the two-sided amounts. -/
theorem poolTokensToTradingTokens_spec [SplMath] {calculator : Calculator}
    (hdeposits : calculator.allowsDeposits = true) {t S a b : U128} {rd : RoundDirection}
    {r : TradingTokenResult} (h : calculator.poolTokensToTradingTokens t S a b rd = .ok r) :
    0 < S.toNat ∧
    calculator.IsTwoSidedShare t.toNat S.toNat a.toNat rd r.tokenAAmount.toNat ∧
    calculator.IsTwoSidedShare t.toNat S.toNat b.toNat rd r.tokenBAmount.toNat := by
  cases calculator with
  | constantProduct =>
    rw [poolTokensToTradingTokens, Calc.liftM_eq_ok] at h
    simp only [ConstantProduct.poolTokensToTradingTokens, Option.bind_eq_bind,
      Option.bind_eq_some_iff, Option.pure_def, Option.some.injEq] at h
    obtain ⟨ra, ha, rb, hb, rfl⟩ := h
    exact ⟨(ConstantProduct.tradingTokens_eq_some ha).1, isTwoSidedShare_of_tradingTokens ha,
      isTwoSidedShare_of_tradingTokens hb⟩
  | constantPrice curve | redemptionRate curve =>
    obtain ⟨hS, ha, hb⟩ := Linear.poolTokensToTradingTokens_spec h
    exact ⟨hS, Or.inl ha, Or.inl hb⟩
  | offset curve => exact absurd hdeposits Bool.false_ne_true

/-! ### Layout -/

/-- The bytes a calculator writes. -/
def packed : Calculator → Bytes
  | constantProduct => []
  | constantPrice curve => curve.packed
  | offset curve => curve.packed
  | redemptionRate curve => curve.packed

/-- `pack_into_slice`: the front of the slice is overwritten, the rest is kept. -/
def packIntoSlice (calculator : Calculator) (output : Bytes) : Bytes :=
  calculator.packed ++ output.drop calculator.packed.length

/-- Read the calculator of a curve type from the front of a slice. -/
def unpackFromSlice (curveType : CurveType) (input : Bytes) : Calculator :=
  match curveType with
  | .constantProduct => constantProduct
  | .constantPrice => constantPrice (ConstantPriceCurve.unpackFromSlice input)
  | .offset => offset (OffsetCurve.unpackFromSlice input)
  | .redemptionRateCurve => redemptionRate (RedemptionRateCurve.unpackFromSlice input)

theorem length_packed_le (calculator : Calculator) : calculator.packed.length ≤ 64 := by
  cases calculator with
  | constantProduct => exact Nat.zero_le _
  | constantPrice curve =>
    rw [packed, ConstantPriceCurve.packed, Bytes.length_toLE]
    decide
  | offset curve =>
    rw [packed, OffsetCurve.packed, Bytes.length_toLE]
    decide
  | redemptionRate curve => exact (RedemptionRateCurve.length_packed curve).le

theorem length_packIntoSlice (calculator : Calculator) {output : Bytes}
    (h : output.length = 64) : (calculator.packIntoSlice output).length = 64 := by
  have hle := calculator.length_packed_le
  rw [packIntoSlice, List.length_append, List.length_drop]
  omega

@[simp] theorem unpack_packed_append (calculator : Calculator) (rest : Bytes) :
    unpackFromSlice calculator.curveType (calculator.packed ++ rest) = calculator := by
  cases calculator with
  | constantProduct => rfl
  | constantPrice curve =>
    rw [curveType, unpackFromSlice, packed, ConstantPriceCurve.unpackFromSlice,
      ConstantPriceCurve.packed, Bytes.slice, List.drop_zero,
      List.take_left' (Bytes.length_toLE _ _), Bytes.ofLE_toLE]
  | offset curve =>
    rw [curveType, unpackFromSlice, packed, OffsetCurve.unpackFromSlice,
      OffsetCurve.packed, Bytes.slice, List.drop_zero,
      List.take_left' (Bytes.length_toLE _ _), Bytes.ofLE_toLE]
  | redemptionRate curve =>
    rw [curveType, unpackFromSlice, packed, RedemptionRateCurve.unpack_packed_append]

@[simp] theorem curveType_unpackFromSlice (ct : CurveType) (input : Bytes) :
    (unpackFromSlice ct input).curveType = ct := by
  cases ct <;> rfl

end Calculator

/-! ## Swaps with fees -/

/-- Encodes all results of swapping from a source token to a destination token. -/
@[ext] structure SwapResult : Type where
  /-- new amount of source token -/
  newSwapSourceAmount : U128
  /-- new amount of destination token -/
  newSwapDestinationAmount : U128
  /-- amount of source token swapped (includes fees) -/
  sourceAmountSwapped : U128
  /-- amount of destination token swapped -/
  destinationAmountSwapped : U128
  /-- amount of source tokens going to pool holders -/
  tradeFee : U128
  /-- amount of source tokens going to owner -/
  ownerFee : U128
  deriving DecidableEq, Repr

/-- Pool tokens and owner fee of a single-sided deposit or withdrawal. -/
@[ext] structure SingleTokenTypeResult : Type where
  /-- amount of pool tokens -/
  amount : U128
  /-- amount of source tokens going to owner -/
  ownerFee : U128
  deriving DecidableEq, Repr

/-- Concrete struct to wrap around the trait object which performs calculation. -/
@[ext] structure SwapCurve : Type where
  /-- the type of curve contained in the calculator -/
  curveType : CurveType
  /-- the actual calculator -/
  calculator : Calculator
  deriving DecidableEq, Repr

namespace SwapCurve

section Operations

variable [SplMath] (curve : SwapCurve)

/-- The fees of a swap: those of the offered amount, or, when the curve could not use
all that is left after them, those of the inverse of what it used. -/
def recalculateFees (fees : Fees) (tradeFee ownerFee totalFees amountUsed
    sourceAmountLessFees : U128) : Option (U128 × U128 × U128) :=
  if amountUsed < sourceAmountLessFees then do
    let preFeeAmount ← fees.preTradingFeeAmount amountUsed
    let tradeFee ← fees.tradingFee preFeeAmount
    let ownerFee ← fees.ownerTradingFee preFeeAmount
    let totalFees ← tradeFee.checkedAdd ownerFee
    return (tradeFee, ownerFee, totalFees)
  else some (tradeFee, ownerFee, totalFees)

/-- Subtract fees and calculate how much destination token will be provided given an
amount of source token. -/
def swap (sourceAmount swapSourceAmount swapDestinationAmount : U128)
    (tradeDirection : TradeDirection) (fees : Fees) (timestamp : Option U128) :
    Calc SwapResult := do
  -- debit the fee to calculate the amount swapped
  let tradeFee ← fees.tradingFee sourceAmount
  let ownerFee ← fees.ownerTradingFee sourceAmount
  let totalFees ← tradeFee.checkedAdd ownerFee
  let sourceAmountLessFees ← sourceAmount.checkedSub totalFees
  let result ← curve.calculator.swapWithoutFees sourceAmountLessFees swapSourceAmount
    swapDestinationAmount tradeDirection timestamp
  let amountUsed := result.sourceAmountSwapped
  let destinationAmountSwapped := result.destinationAmountSwapped
  let (tradeFee, ownerFee, totalFees) ←
    recalculateFees fees tradeFee ownerFee totalFees amountUsed sourceAmountLessFees
  let sourceAmountSwapped ← amountUsed.checkedAdd totalFees
  let newSwapSourceAmount ← swapSourceAmount.checkedAdd sourceAmountSwapped
  let newSwapDestinationAmount ← swapDestinationAmount.checkedSub destinationAmountSwapped
  return { newSwapSourceAmount, newSwapDestinationAmount, sourceAmountSwapped,
           destinationAmountSwapped, tradeFee, ownerFee }

/-- Half of an amount, at least one token. -/
def halfAmount (x : ℕ) : ℕ := max 1 (x / 2)

/-- Get the amount of pool tokens for the deposited amount of token A or B. -/
def depositSingleTokenType
    (sourceAmount swapTokenAAmount swapTokenBAmount poolSupply : U128)
    (tradeDirection : TradeDirection) (fees : Fees) (timestamp : Option U128) :
    Calc SingleTokenTypeResult :=
  if sourceAmount = 0#128 then .ok { amount := 0#128, ownerFee := 0#128 }
  else do
    -- the fee incurred if *half* the source amount is swapped for the other side
    let half ← sourceAmount.checkedDiv 2#128
    let halfSourceAmount := BitVec.maximum 1#128 half
    let tradeFee ← fees.tradingFee halfSourceAmount
    let ownerFee ← fees.ownerTradingFee halfSourceAmount
    let totalFees ← tradeFee.checkedAdd ownerFee
    let sourceAmount ← sourceAmount.checkedSub totalFees
    let amount ← curve.calculator.depositSingleTokenType sourceAmount swapTokenAAmount
      swapTokenBAmount poolSupply tradeDirection timestamp
    return { amount, ownerFee }

/-- Get the amount of pool tokens for the withdrawn amount of token A or B. -/
def withdrawSingleTokenTypeExactOut
    (sourceAmount swapTokenAAmount swapTokenBAmount poolSupply : U128)
    (tradeDirection : TradeDirection) (fees : Fees) (timestamp : Option U128) :
    Calc SingleTokenTypeResult :=
  if sourceAmount = 0#128 then .ok { amount := 0#128, ownerFee := 0#128 }
  else do
    -- the inverse fee incurred if *half* the source amount is swapped, rounded up
    let half ← sourceAmount.checkedAdd 1#128
    let halfSourceAmount ← half.checkedDiv 2#128
    let preFeeSourceAmount ← fees.preTradingFeeAmount halfSourceAmount
    let ownerFee ← fees.ownerTradingFee preFeeSourceAmount
    let rest ← sourceAmount.checkedSub halfSourceAmount
    let adjustedSourceAmount ← rest.checkedAdd preFeeSourceAmount
    let amount ← curve.calculator.withdrawSingleTokenTypeExactOut adjustedSourceAmount
      swapTokenAAmount swapTokenBAmount poolSupply tradeDirection .ceiling timestamp
    return { amount, ownerFee }

/-! ### Specifications -/

/-- What a swap of `s` tokens charges: `net` is what is left after the fees on `s`,
`used` what the calculator took of it, `base` the amount the final fees are taken on. -/
structure Charged (fees : Fees) (s net used base : ℕ) (r : SwapResult) : Prop where
  /-- the fees on the offered amount -/
  net_eq : fees.tradeFee s + fees.ownerFee s ≤ s ∧ net = s - (fees.tradeFee s + fees.ownerFee s)
  /-- the base is the offered amount, or the inverse of a smaller used amount -/
  base_eq : base = if used < net then fees.preFee used else s
  /-- the inverse is only taken of a fraction less than one -/
  fraction : used < net → fees.combinedFraction.1 = 0 ∨ fees.combinedFraction.2 = 0 ∨
    fees.combinedFraction.1 < fees.combinedFraction.2
  /-- trade fee -/
  tradeFee : r.tradeFee.toNat = fees.tradeFee base
  /-- owner fee -/
  ownerFee : r.ownerFee.toNat = fees.ownerFee base
  /-- the trader pays what was used and the fees -/
  source : r.sourceAmountSwapped.toNat = used + fees.tradeFee base + fees.ownerFee base

variable {curve}

/-- Inversion of a swap. -/
theorem swap_eq_ok {s x y : U128} {dir : TradeDirection} {fees : Fees} {ts : Option U128}
    {r : SwapResult} (h : curve.swap s x y dir fees ts = .ok r) :
    ∃ (net : U128) (w : SwapWithoutFeesResult) (base : ℕ),
      curve.calculator.swapWithoutFees net x y dir ts = .ok w ∧
      Charged fees s.toNat net.toNat w.sourceAmountSwapped.toNat base r ∧
      r.destinationAmountSwapped = w.destinationAmountSwapped ∧
      r.newSwapSourceAmount.toNat = x.toNat + r.sourceAmountSwapped.toNat ∧
      r.destinationAmountSwapped.toNat ≤ y.toNat ∧
      r.newSwapDestinationAmount.toNat = y.toNat - r.destinationAmountSwapped.toNat := by
  simp only [swap, Outcome.bind_eq_ok, Calc.liftM_eq_ok, BitVec.checkedAdd_eq_some,
    BitVec.checkedSub_eq_some, Outcome.pure_eq, Outcome.ok.injEq] at h
  obtain ⟨f₁, hf₁, f₂, hf₂, f, hf, net, ⟨hle, hnet⟩, w, hw, ⟨g₁, g₂, g⟩, hg, u, hu, x', hx', y',
    ⟨hy, hy'⟩, rfl⟩ := h
  simp only at hu hx' hy hy' ⊢
  have hfee₁ := Fees.tradingFee_eq_some hf₁
  have hfee₂ := Fees.ownerTradingFee_eq_some hf₂
  rw [hf, hfee₁, hfee₂] at hle hnet
  rw [recalculateFees] at hg
  split at hg
  · rename_i hlt
    simp only [Option.bind_eq_bind, Option.bind_eq_some_iff, Option.pure_def, Option.some.injEq,
      Prod.mk.injEq, BitVec.checkedAdd_eq_some] at hg
    obtain ⟨q, hq, g₁', hg₁, g₂', hg₂, g', hg', rfl, rfl, rfl⟩ := hg
    obtain ⟨hpre, hfrac⟩ := Fees.preTradingFeeAmount_eq_some hq
    have hgee₁ := Fees.tradingFee_eq_some hg₁
    have hgee₂ := Fees.ownerTradingFee_eq_some hg₂
    refine ⟨net, w, fees.preFee w.sourceAmountSwapped.toNat, hw,
      ⟨⟨hle, hnet⟩, (if_pos hlt).symm, fun _ => hfrac, ?_, ?_, ?_⟩, rfl, hx', hy, hy'⟩
    · rw [hgee₁, hpre]
    · rw [hgee₂, hpre]
    · rw [hu, hg', hgee₁, hgee₂, hpre, Nat.add_assoc]
  · rename_i hge
    obtain ⟨rfl, hrest⟩ := Prod.mk.inj (Option.some.inj hg)
    obtain ⟨rfl, rfl⟩ := Prod.mk.inj hrest
    refine ⟨net, w, s.toNat, hw,
      ⟨⟨hle, hnet⟩, (if_neg hge).symm, fun h => absurd h hge, hfee₁, hfee₂, ?_⟩, rfl, hx', hy, hy'⟩
    rw [hu, hf, hfee₁, hfee₂, Nat.add_assoc]

/-- Inversion of a single-sided deposit. -/
theorem depositSingleTokenType_eq_ok {x a b S : U128} {dir : TradeDirection} {fees : Fees}
    {ts : Option U128} {r : SingleTokenTypeResult}
    (h : curve.depositSingleTokenType x a b S dir fees ts = .ok r) :
    (x = 0#128 ∧ r.amount = 0#128 ∧ r.ownerFee = 0#128) ∨
    (x ≠ 0#128 ∧ ∃ net : U128,
      fees.tradeFee (halfAmount x.toNat) + fees.ownerFee (halfAmount x.toNat) ≤ x.toNat ∧
      net.toNat =
        x.toNat - (fees.tradeFee (halfAmount x.toNat) + fees.ownerFee (halfAmount x.toNat)) ∧
      r.ownerFee.toNat = fees.ownerFee (halfAmount x.toNat) ∧
      curve.calculator.depositSingleTokenType net a b S dir ts = .ok r.amount) := by
  rw [depositSingleTokenType] at h
  split at h
  · rename_i h0
    obtain rfl := Outcome.ok.inj h
    exact Or.inl ⟨h0, rfl, rfl⟩
  · rename_i h0
    simp only [Outcome.bind_eq_ok, Calc.liftM_eq_ok, BitVec.checkedAdd_eq_some,
      BitVec.checkedSub_eq_some, BitVec.checkedDiv_eq_some, Outcome.pure_eq, Outcome.ok.injEq] at h
    obtain ⟨half, ⟨-, hhalf⟩, f₁, hf₁, f₂, hf₂, f, hf, net, ⟨hle, hnet⟩, m, hm, rfl⟩ := h
    have hmax : (BitVec.maximum 1#128 half).toNat = halfAmount x.toNat := by
      rw [BitVec.toNat_maximum, hhalf]
      rfl
    have hfee₁ := Fees.tradingFee_eq_some hf₁
    have hfee₂ := Fees.ownerTradingFee_eq_some hf₂
    rw [hmax] at hfee₁ hfee₂
    rw [hf, hfee₁, hfee₂] at hle hnet
    exact Or.inr ⟨h0, net, hle, hnet, hfee₂, hm⟩

/-- The steps of an exact-out withdrawal: the inverse of the fees is taken on half the amount,
rounded up, and the curve is charged for it and the other half. -/
theorem withdrawSingleTokenTypeExactOut_steps {x a b S : U128} {dir : TradeDirection}
    {fees : Fees} {ts : Option U128} {r : SingleTokenTypeResult} (hx : x ≠ 0#128)
    (h : curve.withdrawSingleTokenTypeExactOut x a b S dir fees ts = .ok r) :
    ∃ half pre adjusted : U128, half.toNat = (x.toNat + 1) / 2 ∧
      fees.preTradingFeeAmount half = some pre ∧ fees.ownerTradingFee pre = some r.ownerFee ∧
      adjusted.toNat = x.toNat - half.toNat + pre.toNat ∧
      curve.calculator.withdrawSingleTokenTypeExactOut adjusted a b S dir .ceiling ts =
        .ok r.amount := by
  rw [withdrawSingleTokenTypeExactOut, if_neg hx] at h
  simp only [Outcome.bind_eq_ok, Calc.liftM_eq_ok, BitVec.checkedAdd_eq_some,
    BitVec.checkedSub_eq_some, BitVec.checkedDiv_eq_some, Outcome.pure_eq, Outcome.ok.injEq] at h
  obtain ⟨sum, hsum, half, ⟨-, hhalf⟩, pre, hpre, fee, hfee, rest, ⟨-, hrest⟩, adjusted,
    hadjusted, amount, hamount, rfl⟩ := h
  refine ⟨half, pre, adjusted, ?_, hpre, hfee, ?_, hamount⟩
  · rw [hhalf, hsum]
    rfl
  · rw [hadjusted, hrest]

/-- Inversion of an exact-out withdrawal; `adjusted` is the amount the curve is
charged for. -/
theorem withdrawSingleTokenTypeExactOut_eq_ok {x a b S : U128} {dir : TradeDirection}
    {fees : Fees} {ts : Option U128} {r : SingleTokenTypeResult}
    (h : curve.withdrawSingleTokenTypeExactOut x a b S dir fees ts = .ok r) :
    (x = 0#128 ∧ r.amount = 0#128 ∧ r.ownerFee = 0#128) ∨
    (x ≠ 0#128 ∧ ∃ adjusted : U128,
      (fees.combinedFraction.1 = 0 ∨ fees.combinedFraction.2 = 0 ∨
        fees.combinedFraction.1 < fees.combinedFraction.2) ∧
      adjusted.toNat = x.toNat - (x.toNat + 1) / 2 + fees.preFee ((x.toNat + 1) / 2) ∧
      r.ownerFee.toNat = fees.ownerFee (fees.preFee ((x.toNat + 1) / 2)) ∧
      curve.calculator.withdrawSingleTokenTypeExactOut adjusted a b S dir .ceiling ts =
        .ok r.amount) := by
  by_cases h0 : x = 0#128
  · rw [withdrawSingleTokenTypeExactOut, if_pos h0] at h
    obtain rfl := Outcome.ok.inj h
    exact Or.inl ⟨h0, rfl, rfl⟩
  · obtain ⟨half, pre, adjusted, hhalf, hpre, hfee, hadjusted, hamount⟩ :=
      withdrawSingleTokenTypeExactOut_steps h0 h
    obtain ⟨hval, hfrac⟩ := Fees.preTradingFeeAmount_eq_some hpre
    have hfeeVal := Fees.ownerTradingFee_eq_some hfee
    rw [hhalf] at hval
    rw [hval] at hfeeVal
    rw [hhalf, hval] at hadjusted
    exact Or.inr ⟨h0, adjusted, hfrac, hadjusted, hfeeVal, hamount⟩

end Operations

/-! ### Layout -/

/-- Size of a curve in bytes: one for the type, 64 for the calculator. -/
def LEN : ℕ := 65

/-- `pack_into_slice` on a slice of `LEN` bytes. -/
def packIntoSlice (curve : SwapCurve) (output : Bytes) : Bytes :=
  curve.curveType.toU8 :: curve.calculator.packIntoSlice (output.drop 1)

/-- `unpack_from_slice` of a slice of `LEN` bytes; a shorter one aborts. -/
def unpackFromSlice (input : Bytes) : Outcome ProgramError SwapCurve :=
  match input with
  | [] => .panic
  | curveType :: calculator => do
    let curveType ← CurveType.tryFrom curveType
    return { curveType, calculator := Calculator.unpackFromSlice curveType calculator }

/-- A slice that is not empty does not abort. -/
theorem noPanic_unpackFromSlice {input : Bytes} (h : input ≠ []) :
    (unpackFromSlice input).NoPanic := by
  cases input with
  | nil => exact absurd rfl h
  | cons b rest => exact (CurveType.noPanic_tryFrom b).bind fun _ _ => Outcome.noPanic_ok _

/-- The type names the calculator. -/
def WellFormed (curve : SwapCurve) : Prop := curve.curveType = curve.calculator.curveType

instance (curve : SwapCurve) : Decidable curve.WellFormed := inferInstanceAs (Decidable (_ = _))

theorem length_packIntoSlice (curve : SwapCurve) {output : Bytes} (h : output.length = LEN) :
    (curve.packIntoSlice output).length = LEN := by
  have hdrop : (output.drop 1).length = 64 := by rw [List.length_drop, h]; rfl
  rw [packIntoSlice, List.length_cons, Calculator.length_packIntoSlice _ hdrop]
  rfl

/-- A well-formed curve is read back, whatever the slice held before. -/
theorem WellFormed.unpack_pack {curve : SwapCurve} (h : curve.WellFormed) (output : Bytes) :
    unpackFromSlice (curve.packIntoSlice output) = .ok curve := by
  rw [packIntoSlice, unpackFromSlice, CurveType.tryFrom_toU8, Outcome.ok_bind,
    Calculator.packIntoSlice, h, Calculator.unpack_packed_append, Outcome.pure_eq, ← h]

/-- Reading a curve needs a known curve type and nothing else. -/
theorem unpackFromSlice_eq_ok {b : UInt8} {rest : Bytes} {curve : SwapCurve} :
    unpackFromSlice (b :: rest) = .ok curve ↔ b = curve.curveType.toU8 ∧
      curve.calculator = Calculator.unpackFromSlice curve.curveType rest := by
  simp only [unpackFromSlice, Outcome.bind_eq_ok, CurveType.tryFrom_eq_ok, Outcome.pure_eq,
    Outcome.ok.injEq]
  refine ⟨?_, ?_⟩
  · rintro ⟨ct, hct, rfl⟩
    exact ⟨hct, rfl⟩
  · rintro ⟨hct, hcalc⟩
    exact ⟨curve.curveType, hct, SwapCurve.ext rfl hcalc.symm⟩

/-- What was read is well formed. -/
theorem wellFormed_of_unpack {input : Bytes} {curve : SwapCurve}
    (h : unpackFromSlice input = .ok curve) : curve.WellFormed := by
  cases input with
  | nil => cases h
  | cons b rest =>
    rw [unpackFromSlice_eq_ok] at h
    rw [WellFormed, h.2, Calculator.curveType_unpackFromSlice]

end SwapCurve

end SolanaPsm
