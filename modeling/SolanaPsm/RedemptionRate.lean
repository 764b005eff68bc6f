import SolanaPsm.Linear
import SolanaPsm.PowerOrder

/-!
# The redemption-rate curve

The curve whose price accrues by the second (`redemption_rate.rs`): the conversion
rate at a timestamp, the fixed-point power behind it, the update of the rates, and
the operations of a linear curve at that price.

`rpow` instantiates the square-and-multiply loop at 256-bit words. For a base of at
least `RAY` its result is an `Upper` and a `Lower` representative of the power
(`rpow_upper`, `rpow_lower`), which is all the later bounds use. `rpow_bounded` compares
it with the loop over the natural numbers.
-/

namespace SolanaPsm

open FixedPoint

/-- RedemptionRateCurve struct implementing CurveCalculator. -/
@[ext] structure RedemptionRateCurve : Type where
  /-- maximum allowed SSR value; no limit when zero -/
  maxSsr : U128
  /-- current Stable Savings Rate, compounding per second, scaled by `RAY` -/
  ssr : U128
  /-- timestamp (in seconds) of the last update to `chi` -/
  rho : U128
  /-- accumulated conversion factor at timestamp `rho`, scaled by `RAY` -/
  chi : U128
  deriving DecidableEq, Repr

namespace RedemptionRateCurve

/-! ## The fixed-point power -/

/-- Half a unit, added before dividing by `RAY`. -/
def half : U256 := RAY.widen 256 / 2#256

theorem toNat_half : half.toNat = ray / 2 := by decide

/-- One rounded product of the power loop. -/
def rmul (x y : U256) : Option U256 := do
  let xy ← x.checkedMul y
  let rounded ← xy.checkedAdd half
  return rounded / RAY.widen 256

theorem rmul_eq_some {x y w : U256} (h : rmul x y = some w) :
    w.toNat = roundMul ray x.toNat y.toNat := by
  simp only [rmul, Option.bind_eq_bind, Option.bind_eq_some_iff, Option.pure_def,
    Option.some.injEq, BitVec.checkedMul_eq_some, BitVec.checkedAdd_eq_some] at h
  obtain ⟨xy, hxy, s, hs, rfl⟩ := h
  rw [BitVec.toNat_udiv, U128.toNat_widen, toNat_RAY, hs, hxy, toNat_half, roundMul]

/-- Custom pow function. -/
def rpow (x n : U128) : Option U256 :=
  if x = 0#128 then some (if n = 0#128 then RAY.widen 256 else 0#256)
  else
    let z := if n.toNat % 2 = 0 then RAY.widen 256 else x.widen 256
    -- the exponent left after the first digit has at most 127 digits
    powLoop rmul 127 (n.toNat / 2) (x.widen 256) z

/-- The rule of the power: what the unit and the base satisfy and rounded products respect
holds of the result. -/
theorem rpow_rep {P : ℕ → ℕ → Prop} {x n : U128} {y : U256} (hx : x ≠ 0#128) (hunit : P 0 ray)
    (hbase : P 1 x.toNat)
    (hmul : ∀ {a b u v : ℕ}, P a u → P b v → P (a + b) (roundMul ray u v))
    (h : rpow x n = some y) : P n.toNat y.toNat := by
  rw [rpow, if_neg hx] at h
  have hn : n.toNat / 2 < 2 ^ 127 := by
    have := n.isLt
    omega
  have hbase' : P 1 (x.widen 256).toNat := by
    rwa [U128.toNat_widen]
  have hstep : ∀ {a b : ℕ} {u v w : U256}, P a u.toNat → P b v.toNat → rmul u v = some w →
      P (a + b) w.toNat := by
    intro a b u v w hu hv huv
    rw [rmul_eq_some huv]
    exact hmul hu hv
  -- the low digit of the exponent is already in the accumulator
  have hacc : P (n.toNat % 2)
      (if n.toNat % 2 = 0 then RAY.widen 256 else x.widen 256 : U256).toNat := by
    rcases Nat.mod_two_eq_zero_or_one n.toNat with hodd | hodd
    · rw [hodd, if_pos rfl, U128.toNat_widen, toNat_RAY]
      exact hunit
    · rw [hodd, if_neg one_ne_zero]
      exact hbase'
  have hpow := powLoop_rep (P := fun m y => P m (BitVec.toNat y)) hstep hn hbase' hacc h
  rwa [Nat.mul_one, Nat.mod_add_div] at hpow

/-- A base of at least `RAY` is not zero. -/
theorem ne_zero_of_ray_le {x : U128} (hx : ray ≤ x.toNat) : x ≠ 0#128 := by
  rintro rfl
  exact absurd hx (by decide)

/-- For a base of at least `RAY` the result stands for the power, rounding errors
included. -/
theorem rpow_upper {x n : U128} {y : U256} (hx : ray ≤ x.toNat) (h : rpow x n = some y) :
    Upper ray x.toNat n.toNat y.toNat :=
  rpow_rep (ne_zero_of_ray_le hx) Upper.unit (Upper.base hx) (fun hu hv => hu.mul ray_pos hv) h

/-- The same from below. -/
theorem rpow_lower {x n : U128} {y : U256} (hx : ray ≤ x.toNat) (h : rpow x n = some y) :
    Lower ray x.toNat n.toNat y.toNat :=
  rpow_rep (ne_zero_of_ray_le hx) Lower.unit (Lower.base hx)
    (fun hu hv => hu.mul ray_pos ray_half hv) h

/-- The power over the natural numbers, with the same rounding. -/
def unboundedPower (x n : ℕ) : ℕ :=
  roundPow ray 127 (n / 2) x (if n % 2 = 0 then ray else x)

/-- The largest number that power forms on the way. -/
def powerPeak (x n : ℕ) : ℕ :=
  peak ray 127 (n / 2) x (if n % 2 = 0 then ray else x)

theorem unboundedPower_eq (x n : ℕ) :
    unboundedPower x n = roundPow ray 127 (n / 2) x (firstDigit ray x n) := rfl

theorem powerPeak_eq (x n : ℕ) :
    powerPeak x n = peak ray 127 (n / 2) x (firstDigit ray x n) := rfl

theorem isSome_rmul (x y : U256) :
    (rmul x y).isSome ↔ x.toNat * y.toNat + ray / 2 < 2 ^ 256 := by
  rw [← not_iff_not, Option.not_isSome_iff_eq_none, not_lt]
  simp only [rmul, Option.bind_eq_bind, Option.bind_eq_none_iff, Option.pure_def, reduceCtorEq,
    imp_false, BitVec.checkedMul_eq_some, ← Option.eq_none_iff_forall_ne_some]
  refine ⟨?_, ?_⟩
  · intro h
    by_contra hlt
    have hfit : x.toNat * y.toNat < 2 ^ 256 := by omega
    obtain ⟨xy, hxy⟩ := BitVec.exists_toNat_eq hfit
    have hsum := h xy hxy
    rw [BitVec.checkedAdd_eq_none, hxy, toNat_half] at hsum
    omega
  · intro h xy hxy
    rw [BitVec.checkedAdd_eq_none, hxy, toNat_half]
    exact h

/-- A zero base: no loop runs, and the unbounded one forms nothing larger than half a
unit. -/
theorem rpow_zero_base (n : U128) :
    powerPeak 0 n.toNat < 2 ^ 256 ∧
    ∀ p, rpow 0#128 n = some p → p.toNat = unboundedPower 0 n.toNat := by
  refine ⟨(peak_zero_base_le ray_pos).trans_lt (by decide), ?_⟩
  intro p hp
  rw [rpow, if_pos rfl] at hp
  obtain rfl := Option.some.inj hp
  by_cases hn : n = 0#128
  · rw [if_pos hn, hn]
    exact roundPow_zero.symm
  · have hn' : n.toNat ≠ 0 := fun h0 => hn (BitVec.eq_of_toNat_eq h0)
    have hlt := n.isLt
    rw [if_neg hn, unboundedPower]
    split
    · exact (roundPow_zero_base ray_pos (by omega) (by omega)).symm
    · exact (roundPow_zero_zero ray_pos).symm

/-- The power succeeds exactly when every number it forms fits in 256 bits, and then
it is the unbounded one. -/
theorem rpow_bounded (x n : U128) :
    ((rpow x n).isSome ↔ powerPeak x.toNat n.toNat < 2 ^ 256) ∧
    ∀ p, rpow x n = some p → p.toNat = unboundedPower x.toNat n.toNat := by
  by_cases hx : x = 0#128
  · subst hx
    obtain ⟨hpeak, hval⟩ := rpow_zero_base n
    exact ⟨iff_of_true (by rw [rpow, if_pos rfl]; rfl) hpeak, hval⟩
  have hz : (if n.toNat % 2 = 0 then RAY.widen 256 else x.widen 256 : U256).toNat =
      if n.toNat % 2 = 0 then ray else x.toNat := by
    rw [apply_ite BitVec.toNat, U128.toNat_widen, U128.toNat_widen,
      toNat_RAY]
  have hloop := powLoop_bounded (by decide) rmul_eq_some isSome_rmul 127 (n.toNat / 2)
    (x.widen 256) (if n.toNat % 2 = 0 then RAY.widen 256 else x.widen 256)
  rw [hz, U128.toNat_widen] at hloop
  rw [rpow, if_neg hx]
  exact hloop

/-- The power of a base and an exponent whose numbers fit. -/
theorem rpow_of_fits {x n : U128} (h : powerPeak x.toNat n.toNat < 2 ^ 256) :
    ∃ p, rpow x n = some p ∧ p.toNat = unboundedPower x.toNat n.toNat := by
  obtain ⟨hsome, hval⟩ := rpow_bounded x n
  obtain ⟨p, hp⟩ := Option.isSome_iff_exists.mp (hsome.mpr h)
  exact ⟨p, hp, hval p hp⟩

/-- A power that is computed fits, and is the unbounded one. -/
theorem fits_of_rpow {x n : U128} {p : U256} (h : rpow x n = some p) :
    powerPeak x.toNat n.toNat < 2 ^ 256 ∧ p.toNat = unboundedPower x.toNat n.toNat := by
  obtain ⟨hsome, hval⟩ := rpow_bounded x n
  exact ⟨hsome.mp (by rw [h]; rfl), hval p h⟩

/-! ## The conversion rate -/

/-- Returns conversion rate. The product is taken with the plain operator, which
aborts on overflow. -/
def getConversionRate (curve : RedemptionRateCurve) (timestamp : U128) : Calc U256 :=
  if timestamp = curve.rho then .ok (curve.chi.widen 256)
  else do
    let duration ← timestamp.checkedSub curve.rho
    let power ← rpow curve.ssr duration
    let product ← power.mulOrPanic (curve.chi.widen 256)
    return product / RAY.widen 256

/-- Spec of the conversion rate: `chi` itself at `rho`, the accrued `chi` after. -/
theorem getConversionRate_eq_ok {curve : RedemptionRateCurve} {t : U128} {r : U256} :
    curve.getConversionRate t = .ok r ↔
      (t = curve.rho ∧ r.toNat = curve.chi.toNat) ∨
      (t ≠ curve.rho ∧ ∃ d p, t.checkedSub curve.rho = some d ∧ rpow curve.ssr d = some p ∧
        p.toNat * curve.chi.toNat < 2 ^ 256 ∧ r.toNat = p.toNat * curve.chi.toNat / ray) := by
  rw [getConversionRate]
  split
  · rename_i h
    simp only [h, Outcome.ok.injEq, true_and, ne_eq, not_true_eq_false, false_and, or_false]
    rw [← BitVec.toNat_inj, U128.toNat_widen]
    exact eq_comm
  · rename_i h
    simp only [Outcome.bind_eq_ok, Calc.liftM_eq_ok, BitVec.mulOrPanic_eq_ok, Outcome.pure_eq,
      Outcome.ok.injEq, h, false_and, false_or, ne_eq, not_false_eq_true, true_and]
    refine ⟨?_, ?_⟩
    · rintro ⟨d, hd, p, hp, m, hm, rfl⟩
      rw [U128.toNat_widen] at hm
      refine ⟨d, p, hd, hp, ?_, ?_⟩
      · rw [← hm]
        exact m.isLt
      · rw [BitVec.toNat_udiv, hm, U128.toNat_widen, toNat_RAY]
    · rintro ⟨d, p, hd, hp, hlt, hr⟩
      obtain ⟨m, hm⟩ := BitVec.exists_toNat_eq hlt
      refine ⟨d, hd, p, hp, m, ?_, ?_⟩
      · rw [U128.toNat_widen, hm]
      · rw [← BitVec.toNat_inj, BitVec.toNat_udiv, hm, U128.toNat_widen, toNat_RAY, hr]

/-! ## Updating the rates -/

/-- `new_calculator`: the given rates under the old limit. -/
def withRates (curve : RedemptionRateCurve) (ssr rho chi : U128) : RedemptionRateCurve :=
  { curve with ssr, rho, chi }

/-- The growth of `chi` is capped by `max_ssr` compounding since the last update. -/
def checkGrowth (curve : RedemptionRateCurve) (rho chi : U128) : Outcome ProgramError Unit := do
  let duration ← Outcome.ofOption (rho.checkedSub curve.rho) ProgramError.arithmeticOverflow
  let power ← Outcome.ofOption (rpow curve.maxSsr duration)
    (ProgramError.custom .calculationFailure)
  let product ← Outcome.ofOption (power.checkedMul (curve.chi.widen 256))
    ProgramError.arithmeticOverflow
  let chiMax ← Outcome.ofOption (product.checkedDiv (RAY.widen 256)) ProgramError.arithmeticOverflow
  Outcome.rejectIf (chiMax < chi.widen 256) (ProgramError.custom .invalidChi)

/-- Set new rates and returns a new RedemptionRateCurve. The first update, out of
`rho = 0`, takes `chi` unchecked. -/
def setRates (curve : RedemptionRateCurve) (ssr rho chi currentTimestamp : U128) :
    Outcome ProgramError RedemptionRateCurve := do
  Outcome.rejectIf (currentTimestamp < rho) (ProgramError.custom .invalidRho)
  Outcome.rejectIf (ssr < RAY) (ProgramError.custom .invalidSsr)
  Outcome.rejectIf (curve.maxSsr ≠ 0#128 ∧ curve.maxSsr < ssr) (ProgramError.custom .invalidSsr)
  if curve.rho = 0#128 then return curve.withRates ssr rho chi
  else do
    Outcome.rejectIf (rho < curve.rho) (ProgramError.custom .invalidRho)
    Outcome.rejectIf (chi < curve.chi) (ProgramError.custom .invalidChi)
    (if curve.maxSsr ≠ 0#128 then curve.checkGrowth rho chi else .ok ())
    return curve.withRates ssr rho chi

/-- Spec of the cap: the limit's power and its product with `chi` fit, and the new `chi`
is at most the quotient. -/
theorem checkGrowth_eq_ok {curve : RedemptionRateCurve} {rho chi : U128} {u : Unit} :
    curve.checkGrowth rho chi = .ok u ↔
      ∃ d p, rho.checkedSub curve.rho = some d ∧ rpow curve.maxSsr d = some p ∧
        p.toNat * curve.chi.toNat < 2 ^ 256 ∧ chi.toNat * ray ≤ p.toNat * curve.chi.toNat := by
  simp only [checkGrowth, Outcome.bind_eq_ok, Outcome.ofOption_eq_ok, Outcome.rejectIf_eq_ok,
    BitVec.checkedMul_eq_some, BitVec.checkedDiv_eq_some, BitVec.lt_def, not_lt,
    U128.toNat_widen, toNat_RAY, ray_pos, true_and]
  refine ⟨?_, ?_⟩
  · rintro ⟨d, hd, p, hp, m, hm, c, hc, hle⟩
    refine ⟨d, p, hd, hp, hm ▸ m.isLt, ?_⟩
    rw [hc, hm] at hle
    exact (Nat.le_div_iff_mul_le ray_pos).mp hle
  · rintro ⟨d, p, hd, hp, hlt, hle⟩
    obtain ⟨m, hm⟩ := BitVec.exists_toNat_eq hlt
    obtain ⟨c, hc⟩ := BitVec.exists_toNat_eq ((Nat.div_le_self m.toNat ray).trans_lt m.isLt)
    refine ⟨d, hd, p, hp, m, hm, c, hc, ?_⟩
    rw [hc, hm]
    exact (Nat.le_div_iff_mul_le ray_pos).mpr hle

/-- Everything a successful update implies. -/
structure Update (curve : RedemptionRateCurve) (ssr rho chi now : U128)
    (curve' : RedemptionRateCurve) : Prop where
  /-- the new curve -/
  result : curve' = curve.withRates ssr rho chi
  /-- `rho` is not in the future -/
  rho_le : rho.toNat ≤ now.toNat
  /-- the rate does not shrink the value -/
  ray_le : ray ≤ ssr.toNat
  /-- the rate respects the limit -/
  le_max : curve.maxSsr = 0#128 ∨ ssr.toNat ≤ curve.maxSsr.toNat
  /-- after the first update neither `rho` nor `chi` goes back -/
  mono : curve.rho ≠ 0#128 → curve.rho.toNat ≤ rho.toNat ∧ curve.chi.toNat ≤ chi.toNat
  /-- after the first update the growth is capped -/
  growth : curve.rho ≠ 0#128 → curve.maxSsr ≠ 0#128 →
    ∃ d p, rho.checkedSub curve.rho = some d ∧ rpow curve.maxSsr d = some p ∧
      chi.toNat * ray ≤ p.toNat * curve.chi.toNat

/-- Inversion of an update. -/
theorem Update.of_setRates {curve curve' : RedemptionRateCurve} {ssr rho chi now : U128}
    (h : curve.setRates ssr rho chi now = .ok curve') : Update curve ssr rho chi now curve' := by
  simp only [setRates, Outcome.bind_eq_ok, Outcome.rejectIf_eq_ok, exists_const, BitVec.lt_def,
    not_lt, toNat_RAY, not_and] at h
  obtain ⟨hrho, hssr, hmax, h⟩ := h
  have hmax' : curve.maxSsr = 0#128 ∨ ssr.toNat ≤ curve.maxSsr.toNat := by tauto
  split at h
  · rename_i h0
    exact ⟨(Outcome.ok.inj h).symm, hrho, hssr, hmax', absurd h0, absurd h0⟩
  · simp only [Outcome.bind_eq_ok, Outcome.rejectIf_eq_ok, exists_const, not_lt] at h
    obtain ⟨hrho', hchi, _, hgrowth, h⟩ := h
    refine ⟨(Outcome.ok.inj h).symm, hrho, hssr, hmax', fun _ => ⟨hrho', hchi⟩, fun _ hm => ?_⟩
    rw [if_pos hm] at hgrowth
    obtain ⟨d, p, hd, hp, -, hle⟩ := checkGrowth_eq_ok.mp hgrowth
    exact ⟨d, p, hd, hp, hle⟩

/-- Updates do not abort. -/
theorem noPanic_setRates (curve : RedemptionRateCurve) (ssr rho chi now : U128) :
    (curve.setRates ssr rho chi now).NoPanic := by
  have hgrowth : (curve.checkGrowth rho chi).NoPanic := by
    refine Outcome.noPanic_ofOption.bind fun _ _ => ?_
    refine Outcome.noPanic_ofOption.bind fun _ _ => ?_
    refine Outcome.noPanic_ofOption.bind fun _ _ => ?_
    exact Outcome.noPanic_ofOption.bind fun _ _ => Outcome.noPanic_rejectIf
  refine Outcome.noPanic_rejectIf.bind fun _ _ => ?_
  refine Outcome.noPanic_rejectIf.bind fun _ _ => ?_
  refine Outcome.noPanic_rejectIf.bind fun _ _ => ?_
  split
  · exact Outcome.noPanic_ok _
  · refine Outcome.noPanic_rejectIf.bind fun _ _ => ?_
    refine Outcome.noPanic_rejectIf.bind fun _ _ => ?_
    refine Outcome.NoPanic.bind ?_ fun _ _ => Outcome.noPanic_ok _
    split
    · exact hgrowth
    · exact Outcome.noPanic_ok _

/-! ## The operations of the curve -/

section Operations

variable [SplMath] (curve : RedemptionRateCurve)

/-- The timestamp is required, then the price at it. -/
def priceAt (timestamp : Option U128) : Calc U256 := do
  let timestamp ← timestamp
  curve.getConversionRate timestamp

/-- Charge only full multiples of price; drop remainder. -/
def swapWithoutFees (sourceAmount : U128) (tradeDirection : TradeDirection)
    (timestamp : Option U128) : Calc SwapWithoutFeesResult := do
  let tokenBPrice ← curve.priceAt timestamp
  Linear.swapWithoutFees tokenBPrice sourceAmount tradeDirection

/-- Get the amount of pool tokens for the deposited amount of token A or B. -/
def depositSingleTokenType
    (sourceAmount swapTokenAAmount swapTokenBAmount poolSupply : U128)
    (tradeDirection : TradeDirection) (timestamp : Option U128) : Calc U128 := do
  let tokenBPrice ← curve.priceAt timestamp
  Linear.tradingTokensToPoolTokens tokenBPrice sourceAmount swapTokenAAmount
    swapTokenBAmount poolSupply tradeDirection .floor

/-- Get the amount of pool tokens for the withdrawn amount of token A or B. -/
def withdrawSingleTokenTypeExactOut
    (sourceAmount swapTokenAAmount swapTokenBAmount poolSupply : U128)
    (tradeDirection : TradeDirection) (roundDirection : RoundDirection)
    (timestamp : Option U128) : Calc U128 := do
  let tokenBPrice ← curve.priceAt timestamp
  Linear.tradingTokensToPoolTokens tokenBPrice sourceAmount swapTokenAAmount
    swapTokenBAmount poolSupply tradeDirection roundDirection

/-- Half the value of the reserves at the timestamp. -/
def normalizedValue (swapTokenAAmount swapTokenBAmount : U128) (timestamp : Option U128) :
    Calc SplMath.PreciseNumber := do
  let tokenBPrice ← curve.priceAt timestamp
  Linear.normalizedValue tokenBPrice swapTokenAAmount swapTokenBAmount

end Operations

/-- The price at the timestamp can be computed and is not zero. -/
def validate (curve : RedemptionRateCurve) (timestamp : Option U128) :
    Outcome SwapError Unit := do
  let timestamp ← Outcome.ofOption timestamp SwapError.missingTimestamp
  let tokenBPrice ← (curve.getConversionRate timestamp).okOr SwapError.calculationFailure
  Outcome.rejectIf (tokenBPrice = 0#256) .invalidCurve

theorem validate_eq_ok {curve : RedemptionRateCurve} {t : U128} {u : Unit} :
    curve.validate (some t) = .ok u ↔ ∃ r, curve.getConversionRate t = .ok r ∧ r ≠ 0#256 := by
  simp only [validate, Outcome.ofOption_some, Outcome.ok_bind, Outcome.bind_eq_ok,
    Calc.okOr_eq_ok, Outcome.rejectIf_eq_ok, ne_eq]

/-! ## Layout -/

/-- Size of the curve in bytes. -/
def LEN : ℕ := 64

/-- The four fields in the order of the layout, sixteen bytes each. -/
def fields (curve : RedemptionRateCurve) : List Bytes :=
  [ Bytes.toLE 16 curve.maxSsr,
    Bytes.toLE 16 curve.ssr,
    Bytes.toLE 16 curve.rho,
    Bytes.toLE 16 curve.chi ]

/-- The lengths of the fields. -/
def fieldLengths : List ℕ := [16, 16, 16, 16]

/-- The bytes of the curve. -/
def packed (curve : RedemptionRateCurve) : Bytes := curve.fields.flatten

/-- Read the curve from the front of a slice. -/
def unpackFromSlice (input : Bytes) : RedemptionRateCurve where
  maxSsr := Bytes.ofLE 16 (Bytes.slice 0 16 input)
  ssr := Bytes.ofLE 16 (Bytes.slice 16 16 input)
  rho := Bytes.ofLE 16 (Bytes.slice 32 16 input)
  chi := Bytes.ofLE 16 (Bytes.slice 48 16 input)

theorem map_length_fields (curve : RedemptionRateCurve) :
    curve.fields.map List.length = fieldLengths := by
  simp [fields, fieldLengths]

@[simp] theorem length_packed (curve : RedemptionRateCurve) : curve.packed.length = LEN := by
  rw [packed, List.length_flatten, map_length_fields]
  rfl

/-- A curve that was written is read back, whatever follows it. -/
@[simp] theorem unpack_packed_append (curve : RedemptionRateCurve) (rest : Bytes) :
    unpackFromSlice (curve.packed ++ rest) = curve := by
  have hsplit : Bytes.splitFields 0 fieldLengths (curve.packed ++ rest) = curve.fields :=
    Bytes.splitFields_append_flatten (rfl : ([] : Bytes).length = 0) (map_length_fields curve)
  generalize curve.packed ++ rest = input at hsplit ⊢
  simp only [Bytes.splitFields, fieldLengths, fields, List.cons.injEq, and_true, Nat.reduceAdd,
    Nat.zero_add] at hsplit
  obtain ⟨h₁, h₂, h₃, h₄⟩ := hsplit
  simp only [unpackFromSlice, h₁, h₂, h₃, h₄, Bytes.ofLE_toLE]

/-- Bytes that were read are written back. -/
theorem packed_unpack {input : Bytes} (h : input.length = LEN) :
    (unpackFromSlice input).packed = input := by
  have hfield (off : ℕ) (hoff : off + 16 ≤ LEN) :
      Bytes.toLE 16 (Bytes.ofLE 16 (Bytes.slice off 16 input)) = Bytes.slice off 16 input :=
    Bytes.toLE_ofLE (Bytes.length_slice (by omega))
  conv_rhs => rw [← Bytes.flatten_splitFields_zero (show input.length = fieldLengths.sum from h)]
  simp only [packed, fields, unpackFromSlice, Bytes.splitFields, fieldLengths]
  rw [hfield 0 (by decide), hfield 16 (by decide), hfield 32 (by decide), hfield 48 (by decide)]

end RedemptionRateCurve

end SolanaPsm
