import SolanaPsm.Rates
import SolanaPsm.SwapCurve

/-!
# The accruing price

The conversion rate as a function of time: how close it is to the compounded `chi`, that it
only goes up between updates, that an update to the accrued rate is accepted, and that a
rate that does not compound is a constant price.

Everything goes through the spec of the rate over the natural numbers,
`getConversionRate_eq_ok_iff_fits`, and the order of rounded powers. The numbers that do
not fit are told apart: the power reports them, the product with `chi` aborts
(`getConversionRate_eq_panic`).
-/

namespace SolanaPsm.RedemptionRateCurve

open FixedPoint

/-! ## The power

A larger base gives a larger power; for a base of at least `RAY` so does a larger exponent,
and the numbers formed on the way are larger too. -/

theorem unboundedPower_mono_base {x y n : ℕ} (h : x ≤ y) :
    unboundedPower x n ≤ unboundedPower y n := by
  rw [unboundedPower, unboundedPower]
  refine roundPow_mono h ?_
  split
  · exact le_rfl
  · exact h

theorem unboundedPower_lt {x m n : ℕ} (hx : ray < x) (hmn : m < n) (hn : n < 2 ^ 128) :
    unboundedPower x m < unboundedPower x n := by
  rw [unboundedPower_eq, unboundedPower_eq]
  exact roundPow_add_le_of_lt (k := 1) ray_pos hx hmn hn

theorem unboundedPower_mono_exponent {x m n : ℕ} (hx : ray ≤ x) (hmn : m ≤ n) (hn : n < 2 ^ 128) :
    unboundedPower x m ≤ unboundedPower x n := by
  rcases hmn.eq_or_lt with rfl | hlt
  · exact le_rfl
  · rw [unboundedPower_eq, unboundedPower_eq]
    exact roundPow_add_le_of_lt (k := 0) ray_pos hx hlt hn

theorem powerPeak_mono_exponent {x m n : ℕ} (hx : ray ≤ x) (hmn : m ≤ n) (hn : n < 2 ^ 128) :
    powerPeak x m ≤ powerPeak x n := by
  rw [powerPeak_eq, powerPeak_eq]
  exact peak_mono_exponent ray_pos hx hmn hn

/-! ## Error bounds -/

/-- The conversion rate `n` seconds after `rho` is `chi` compounded `n` times, up to one
rounding of each product and one final truncation. -/
theorem conversion_rate_error {c : RedemptionRateCurve} {t : U128} {r : U256} {n : ℕ}
    (hray : ray ≤ c.ssr.toNat) (hn : 1 ≤ n) (ht : t.toNat = c.rho.toNat + n)
    (hr : c.getConversionRate t = .ok r) :
    r.toNat * (2 * ray) ^ (n - 1) * ray ^ n ≤
      c.chi.toNat * c.ssr.toNat ^ n * (2 * ray + 1) ^ (n - 1) ∧
    c.chi.toNat * c.ssr.toNat ^ n * (2 * ray - 1) ^ (n - 1) <
      (r.toNat + 1) * (2 * ray) ^ (n - 1) * ray ^ n := by
  rcases getConversionRate_eq_ok.mp hr with ⟨rfl, -⟩ | ⟨-, d, p, hd, hp, -, hval⟩
  · omega
  obtain ⟨-, hd⟩ := BitVec.checkedSub_eq_some.mp hd
  obtain rfl : d.toNat = n := by omega
  refine ⟨(rpow_upper hray hp).accrued ray_pos ?_, (rpow_lower hray hp).accrued ray_pos ?_⟩
  · rw [hval]
    exact Nat.div_mul_le_self _ _
  · rw [hval, Nat.add_one_mul]
    exact Nat.lt_div_mul_add ray_pos

/-- A rate of five percent a year for a minute, from a price of 1.05: both the power and the price
are rounded. -/
theorem conversion_rate_error_minute :
    RedemptionRateCurve.getConversionRate
      ⟨0#128, 1000000001547125957863212448#128, 1700000000#128, 1050000000000000000000000001#128⟩
      1700000060#128 = .ok 1050000097468939793885756041#256 ∧
    1050000097468939793885756041 * (2 * ray) ^ 59 * ray ^ 60 ≤
      1050000000000000000000000001 * 1000000001547125957863212448 ^ 60 * (2 * ray + 1) ^ 59 ∧
    1050000000000000000000000001 * 1000000001547125957863212448 ^ 60 * (2 * ray - 1) ^ 59 <
      (1050000097468939793885756041 + 1) * (2 * ray) ^ 59 * ray ^ 60 :=
  ⟨by decide +kernel, @conversion_rate_error
    ⟨0#128, 1000000001547125957863212448#128, 1700000000#128, 1050000000000000000000000001#128⟩
    1700000060#128 1050000097468939793885756041#256 60 (by decide) (by decide) (by decide)
    (by decide +kernel)⟩

/-! ## Time -/

/-- A price that fits fits at every earlier time. -/
theorem rateFits_of_le {ssr chi m n : ℕ} (hray : ray ≤ ssr) (hmn : m ≤ n) (hn : n < 2 ^ 128)
    (h : RateFits ssr chi n) : RateFits ssr chi m :=
  ⟨(powerPeak_mono_exponent hray hmn hn).trans_lt h.1,
    (Nat.mul_le_mul_right chi (unboundedPower_mono_exponent hray hmn hn)).trans_lt h.2⟩

/-- Between updates the price only goes up: what is quoted at `t₂` is quoted at every
earlier `t₁`, at most as high. Above a rate of one the power rises with every second. -/
theorem conversion_rate_mono {c : RedemptionRateCurve} (hray : ray ≤ c.ssr.toNat) :
    (∀ (t₁ t₂ : U128) (r₂ : U256), c.rho.toNat ≤ t₁.toNat → t₁.toNat ≤ t₂.toNat →
      c.getConversionRate t₂ = .ok r₂ →
      ∃ r₁, c.getConversionRate t₁ = .ok r₁ ∧ r₁.toNat ≤ r₂.toNat) ∧
    (ray < c.ssr.toNat → ∀ (m n : U128) (x y : U256), m.toNat < n.toNat →
      rpow c.ssr m = some x → rpow c.ssr n = some y → x.toNat < y.toNat) := by
  refine ⟨?_, ?_⟩
  · intro t₁ t₂ r₂ hrho ht hr
    obtain ⟨-, hfits, hval⟩ := getConversionRate_eq_ok_iff_fits.mp hr
    have hspan : t₂.toNat - c.rho.toNat < 2 ^ 128 := (Nat.sub_le _ _).trans_lt t₂.isLt
    have hearlier := Nat.sub_le_sub_right ht c.rho.toNat
    have hpower := unboundedPower_mono_exponent hray hearlier hspan
    have hle := Nat.div_le_div_right (c := ray) (Nat.mul_le_mul_right c.chi.toNat hpower)
    rw [← hval] at hle
    obtain ⟨r₁, hr₁⟩ := BitVec.exists_toNat_eq (hle.trans_lt r₂.isLt)
    rw [← hr₁] at hle
    have hfits₁ := rateFits_of_le hray hearlier hspan hfits
    exact ⟨r₁, getConversionRate_eq_ok_iff_fits.mpr ⟨hrho, hfits₁, hr₁⟩, hle⟩
  · intro hlt m n x y hmn hx hy
    rw [(fits_of_rpow hx).2, (fits_of_rpow hy).2]
    exact unboundedPower_lt hlt hmn n.isLt

/-- Doubling every second: two seconds are quoted because three are, and the third power is
above the second. -/
theorem conversion_rate_mono_doubling :
    (∃ r₁, getConversionRate ⟨0#128, 2#128 * RAY, 0#128, RAY⟩ 2#128 = .ok r₁ ∧
      r₁.toNat ≤ 8 * ray) ∧ 4 * ray < 8 * ray :=
  have hmono := @conversion_rate_mono ⟨0#128, 2#128 * RAY, 0#128, RAY⟩ (by decide)
  ⟨hmono.1 2#128 3#128 (8#256 * RAY.widen 256) (by decide) (by decide) (by decide +kernel),
    hmono.2 (by decide) 2#128 3#128 (4#256 * RAY.widen 256) (8#256 * RAY.widen 256) (by decide)
      (by decide +kernel) (by decide +kernel)⟩

/-! ## Honest updates -/

/-- An update to the accrued rate is always accepted: `chi` has not fallen, and it has not
outgrown the limit, because the power is monotone in its base. -/
theorem set_rates_accrued {c : RedemptionRateCurve} {ssr rho now : U128} {r : U256}
    (hrho : c.rho ≠ 0#128) (hray : ray ≤ c.ssr.toNat)
    (hmax : c.maxSsr = 0#128 ∨ c.ssr.toNat ≤ c.maxSsr.toNat) (hle : c.rho.toNat ≤ rho.toNat)
    (hnow : rho.toNat ≤ now.toNat) (hray' : ray ≤ ssr.toNat)
    (hmax' : c.maxSsr = 0#128 ∨ ssr.toNat ≤ c.maxSsr.toNat)
    (hr : c.getConversionRate rho = .ok r) (hlt : r.toNat < 2 ^ 128)
    (hlimit : c.maxSsr ≠ 0#128 → ∃ p, rpow c.maxSsr (rho - c.rho) = some p ∧
      p.toNat * c.chi.toNat < 2 ^ 256) :
    c.setRates ssr rho (r.setWidth 128) now =
      .ok { maxSsr := c.maxSsr, ssr := ssr, rho := rho, chi := r.setWidth 128 } := by
  obtain ⟨-, -, hval⟩ := getConversionRate_eq_ok_iff_fits.mp hr
  have hchi : (r.setWidth 128).toNat = r.toNat := by
    rw [BitVec.toNat_setWidth, Nat.mod_eq_of_lt hlt]
  have hgrowth : c.maxSsr ≠ 0#128 → c.checkGrowth rho (r.setWidth 128) = .ok () := by
    intro hne
    obtain ⟨p, hp, hfits⟩ := hlimit hne
    have hspan : (rho - c.rho).toNat = rho.toNat - c.rho.toNat := BitVec.toNat_sub_of_le hle
    have hpower : unboundedPower c.ssr.toNat (rho.toNat - c.rho.toNat) ≤ p.toNat := by
      rw [(fits_of_rpow hp).2, hspan]
      exact unboundedPower_mono_base (hmax.resolve_left hne)
    refine checkGrowth_eq_ok.mpr ⟨rho - c.rho, p,
      BitVec.checkedSub_eq_some.mpr ⟨hle, hspan⟩, hp, hfits, ?_⟩
    rw [hchi, hval]
    exact (Nat.div_mul_le_self _ _).trans (Nat.mul_le_mul_right _ hpower)
  simp only [setRates, Outcome.bind_eq_ok, Outcome.rejectIf_eq_ok, exists_const, BitVec.lt_def,
    not_lt, toNat_RAY, not_and, if_neg hrho]
  refine ⟨hnow, hray', fun hne => hmax'.resolve_left hne, hle, ?_, (), ?_, rfl⟩
  · rw [hchi, hval]
    exact chi_le_accrued hray
  · split
    · exact hgrowth ‹_›
    · rfl

/-- Doubling every second under a limit of doubling: the update to two after a second. -/
theorem set_rates_accrued_doubling :
    setRates ⟨2#128 * RAY, 2#128 * RAY, 1#128, RAY⟩ RAY 2#128 (2#128 * RAY) 5#128 =
      .ok ⟨2#128 * RAY, RAY, 2#128, 2#128 * RAY⟩ :=
  @set_rates_accrued ⟨2#128 * RAY, 2#128 * RAY, 1#128, RAY⟩ RAY 2#128 5#128
    (2#256 * RAY.widen 256) (by decide) (by decide) (by decide) (by decide) (by decide) (by decide)
    (by decide) (by decide +kernel) (by decide)
    (fun _ => ⟨2#256 * RAY.widen 256, by decide +kernel, by decide +kernel⟩)

/-! ## Aborts -/

/-- The conversion rate with every product checked: nothing before `rho`, and nothing when a
number formed on the way does not fit. -/
def checkedRate (c : RedemptionRateCurve) (t : U128) : Calc U256 :=
  if c.rho.toNat ≤ t.toNat ∧ RateFits c.ssr.toNat c.chi.toNat (t.toNat - c.rho.toNat) then
    .ok (BitVec.ofNat 256
      (unboundedPower c.ssr.toNat (t.toNat - c.rho.toNat) * c.chi.toNat / ray))
  else .err ()

/-- The validation with every product checked. -/
def checkedValidate (c : RedemptionRateCurve) (t : U128) : Outcome SwapError Unit :=
  match c.checkedRate t with
  | .ok r => Outcome.rejectIf (r = 0#256) .invalidCurve
  | _ => .err .calculationFailure

/-- The power fits, its product with `chi` does not: the plain operator is reached with
operands out of its range. -/
def ProductOverflows (c : RedemptionRateCurve) (t : U128) : Prop :=
  c.rho.toNat < t.toNat ∧ powerPeak c.ssr.toNat (t.toNat - c.rho.toNat) < 2 ^ 256 ∧
    2 ^ 256 ≤ unboundedPower c.ssr.toNat (t.toNat - c.rho.toNat) * c.chi.toNat

instance (c : RedemptionRateCurve) (t : U128) : Decidable (c.ProductOverflows t) :=
  inferInstanceAs (Decidable (_ ∧ _ ∧ _))

/-- The conversion rate aborts in the one product that is not checked, nowhere else. -/
theorem getConversionRate_eq_panic {c : RedemptionRateCurve} {t : U128} :
    c.getConversionRate t = .panic ↔ c.ProductOverflows t := by
  rw [getConversionRate, ProductOverflows]
  split
  · rename_i h
    simp [h]
  · rename_i h
    have hne : c.rho.toNat ≠ t.toNat := fun h' => h (BitVec.eq_of_toNat_eq h'.symm)
    simp only [Outcome.bind_eq_panic, Calc.liftM_eq_panic, Calc.liftM_eq_ok, false_or,
      BitVec.mulOrPanic_eq_panic, U128.toNat_widen, Outcome.pure_eq,
      reduceCtorEq, and_false, exists_false, or_false]
    refine ⟨?_, ?_⟩
    · rintro ⟨d, hd, p, hp, hover⟩
      obtain ⟨hle, hd⟩ := BitVec.checkedSub_eq_some.mp hd
      obtain ⟨hpeak, hval⟩ := fits_of_rpow hp
      rw [hd] at hpeak hval
      rw [hval] at hover
      exact ⟨by omega, hpeak, hover⟩
    · rintro ⟨hlt, hpeak, hover⟩
      have hspan : (t - c.rho).toNat = t.toNat - c.rho.toNat := BitVec.toNat_sub_of_le hlt.le
      rw [← hspan] at hpeak hover
      obtain ⟨p, hp, hval⟩ := rpow_of_fits hpeak
      rw [← hval] at hover
      exact ⟨t - c.rho, BitVec.checkedSub_eq_some.mpr ⟨hlt.le, hspan⟩, p, hp, hover⟩

/-- A rate that does not abort is the checked one. -/
theorem getConversionRate_eq_checkedRate {c : RedemptionRateCurve} {t : U128}
    (h : (c.getConversionRate t).NoPanic) : c.getConversionRate t = c.checkedRate t := by
  rw [checkedRate]
  cases hr : c.getConversionRate t with
  | ok r =>
    obtain ⟨hle, hfits, hval⟩ := getConversionRate_eq_ok_iff_fits.mp hr
    rw [if_pos ⟨hle, hfits⟩, ← hval, BitVec.ofNat_toNat, BitVec.setWidth_eq]
  | err u =>
    refine (if_neg ?_).symm
    rintro ⟨hle, hfits⟩
    obtain ⟨r, hval⟩ := BitVec.exists_toNat_eq ((Nat.div_le_self _ ray).trans_lt hfits.2)
    rw [getConversionRate_eq_ok_iff_fits.mpr ⟨hle, hfits, hval⟩] at hr
    cases hr
  | panic => exact absurd hr h

theorem noPanic_checkedRate (c : RedemptionRateCurve) (t : U128) : (c.checkedRate t).NoPanic := by
  rw [checkedRate]
  split
  · exact Outcome.noPanic_ok _
  · exact Outcome.noPanic_err _

/-- The rate and the validation are the checked ones exactly when the product with `chi`
fits or is not reached. -/
theorem conversion_rate_checked_iff (c : RedemptionRateCurve) (t : U128) :
    c.getConversionRate t = c.checkedRate t ∧ c.validate (some t) = c.checkedValidate t ↔
      ¬ c.ProductOverflows t := by
  rw [← getConversionRate_eq_panic]
  refine ⟨?_, ?_⟩
  · rintro ⟨hrate, -⟩
    rw [hrate]
    exact noPanic_checkedRate c t
  · intro h
    have hrate := getConversionRate_eq_checkedRate h
    refine ⟨hrate, ?_⟩
    rw [validate, Outcome.ofOption_some, Outcome.ok_bind, hrate, checkedValidate]
    have hno := noPanic_checkedRate c t
    cases hc : c.checkedRate t with
    | ok r => rfl
    | err u => rfl
    | panic => exact absurd hc hno

/-- The largest rate and the largest `chi` abort after two seconds. -/
theorem conversion_rate_may_abort :
    ¬ ∀ (c : RedemptionRateCurve) (t : U128), c.getConversionRate t = c.checkedRate t ∧
      c.validate (some t) = c.checkedValidate t := by
  intro h
  have hrate := (h ⟨0#128, BitVec.allOnes 128, 0#128, BitVec.allOnes 128⟩ 2#128).1
  have hpanic : getConversionRate ⟨0#128, BitVec.allOnes 128, 0#128, BitVec.allOnes 128⟩ 2#128 =
      .panic := by decide +kernel
  exact noPanic_checkedRate _ _ (hrate.symm.trans hpanic)

/-! ## Flat rates -/

/-- At `rho`, and at a rate of one, nothing accrues. -/
theorem getConversionRate_flat {c : RedemptionRateCurve} {t : U128} (hle : c.rho.toNat ≤ t.toNat)
    (hflat : t = c.rho ∨ c.ssr = RAY) : c.getConversionRate t = .ok (c.chi.widen 256) := by
  rcases hflat with rfl | hssr
  · rw [getConversionRate, if_pos rfl]
  have hpower (n : ℕ) : unboundedPower c.ssr.toNat n = ray := by
    rw [hssr, toNat_RAY, unboundedPower, ite_self]
    exact roundPow_unit ray_pos
  have hpeak (n : ℕ) : powerPeak c.ssr.toNat n ≤ ray * ray + ray / 2 := by
    rw [hssr, toNat_RAY, powerPeak, ite_self]
    exact peak_unit_le ray_pos
  rw [getConversionRate_eq_ok_iff_fits, RateFits, hpower, U128.toNat_widen,
    Nat.mul_div_cancel_left _ ray_pos]
  have hprod : ray * c.chi.toNat < ray * 2 ^ 128 := Nat.mul_lt_mul_of_pos_left c.chi.isLt ray_pos
  exact ⟨hle, ⟨(hpeak _).trans_lt (by decide), hprod.trans (by decide)⟩, rfl⟩

end SolanaPsm.RedemptionRateCurve

namespace SolanaPsm.Calculator

section Flat

variable [SplMath]

/-- Two calculators that answer every question alike at a timestamp. -/
structure AgreesAt (x y : Calculator) (ts : Option U128) : Prop where
  /-- the same swaps -/
  swapWithoutFees : ∀ (source a b : U128) (dir : TradeDirection),
    x.swapWithoutFees source a b dir ts = y.swapWithoutFees source a b dir ts
  /-- the same two-sided deposits and withdrawals -/
  poolTokensToTradingTokens : ∀ (tokens supply a b : U128) (rd : RoundDirection),
    x.poolTokensToTradingTokens tokens supply a b rd =
      y.poolTokensToTradingTokens tokens supply a b rd
  /-- the same single-sided deposits -/
  depositSingleTokenType : ∀ (source a b supply : U128) (dir : TradeDirection),
    x.depositSingleTokenType source a b supply dir ts =
      y.depositSingleTokenType source a b supply dir ts
  /-- the same single-sided withdrawals -/
  withdrawSingleTokenTypeExactOut :
    ∀ (source a b supply : U128) (dir : TradeDirection) (rd : RoundDirection),
      x.withdrawSingleTokenTypeExactOut source a b supply dir rd ts =
        y.withdrawSingleTokenTypeExactOut source a b supply dir rd ts
  /-- the same value -/
  normalizedValue : ∀ a b : U128, x.normalizedValue a b ts = y.normalizedValue a b ts
  /-- both valid, or invalid for the same reason -/
  validate : x.validate ts = y.validate ts

/-- A redemption-rate curve that does not compound is a constant-price curve. -/
theorem flat_rate_is_constant_price {c : RedemptionRateCurve} {t : U128}
    (hle : c.rho.toNat ≤ t.toNat) (hflat : t = c.rho ∨ c.ssr = RAY) :
    AgreesAt (redemptionRate c) (constantPrice { tokenBPrice := c.chi }) (some t) := by
  have hrate := RedemptionRateCurve.getConversionRate_flat hle hflat
  have hlinear : (redemptionRate c).IsLinear := trivial
  have hlinear' : (constantPrice { tokenBPrice := c.chi }).IsLinear := trivial
  have hprice : (redemptionRate c).tokenBPrice (some t) =
      (constantPrice { tokenBPrice := c.chi }).tokenBPrice (some t) := hrate
  constructor
  case swapWithoutFees =>
    intro source a b dir
    rw [hlinear.swapWithoutFees, hlinear'.swapWithoutFees, hprice]
  case poolTokensToTradingTokens =>
    intro tokens supply a b rd
    rw [hlinear.poolTokensToTradingTokens, hlinear'.poolTokensToTradingTokens]
  case depositSingleTokenType =>
    intro source a b supply dir
    rw [hlinear.depositSingleTokenType, hlinear'.depositSingleTokenType, hprice]
  case withdrawSingleTokenTypeExactOut =>
    intro source a b supply dir rd
    rw [hlinear.withdrawSingleTokenTypeExactOut, hlinear'.withdrawSingleTokenTypeExactOut, hprice]
  case normalizedValue =>
    intro a b
    rw [hlinear.normalizedValue, hlinear'.normalizedValue, hprice]
  case validate =>
    have hzero : c.chi.widen 256 = 0#256 ↔ c.chi = 0#128 := by
      rw [← BitVec.toNat_inj, ← BitVec.toNat_inj, U128.toNat_widen]
      rfl
    simp only [Calculator.validate, RedemptionRateCurve.validate, Outcome.ofOption_some,
      Outcome.ok_bind, hrate, Calc.okOr, Outcome.mapErr, hzero, ConstantPriceCurve.validate]

end Flat

/-- A rate of one, an hour after the update. -/
theorem flat_rate_is_constant_price_after_an_hour :
    @AgreesAt SplMath.reference (redemptionRate ⟨0#128, RAY, 5#128, 3#128 * RAY⟩)
      (constantPrice ⟨3#128 * RAY⟩) (some 3605#128) :=
  @flat_rate_is_constant_price SplMath.reference ⟨0#128, RAY, 5#128, 3#128 * RAY⟩ 3605#128
    (by decide) (Or.inr rfl)

end SolanaPsm.Calculator
