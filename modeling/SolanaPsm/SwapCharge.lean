import SolanaPsm.SwapCurve

/-!
# What a swap charges

A swap on a linear curve against the amount the trader offered.

When the curve uses all that is left after the fees, the charge is the offered amount.
When it leaves a remainder, the fees are taken again, on the inverse of the used
amount. If that inverse is at most the offered amount, so is the charge
(`Charged.source_le_of_base_le`); it is, whenever the remainder makes up for what the
truncation of the fees lost (`preFee_le`). One fee loses less than one token, two fees
less than two, so the charge can only exceed the offer when both fees are on and
exactly one token is left over. `Overcharges` is what remains, as a condition on the
fees, the price and the offered amount.
-/

namespace SolanaPsm

/-! ## The inverse against the offered amount -/

namespace Fees

variable {fees : Fees}

/-- Both trading fees of `s` tokens. -/
def totalFee (fees : Fees) (s : ℕ) : ℕ := fees.tradeFee s + fees.ownerFee s

theorem totalFee_mono {s t : ℕ} (h : s ≤ t) : fees.totalFee s ≤ fees.totalFee t :=
  Nat.add_le_add (feeOf_mono h) (feeOf_mono h)

/-- One fee falls short of its exact share by less than one token. -/
theorem share_le {n d s : ℕ} (h : ValidFraction n d) : s * n ≤ (feeOf n d s + 1) * d := by
  rcases h with rfl | h
  · exact Nat.zero_le _
  · exact (mul_lt_feeOf_succ_mul h).le

/-- Both fees fall short of the exact combined share by less than two tokens. -/
theorem Valid.mul_combined_le (hv : fees.Valid) (s : ℕ) :
    s * fees.combinedFraction.1 ≤ (fees.totalFee s + 2) * fees.combinedFraction.2 := by
  have h₁ := share_le (s := s) hv.trade
  have h₂ := share_le (s := s) hv.ownerTrade
  unfold totalFee tradeFee ownerFee combinedFraction
  dsimp only
  generalize fees.tradeFeeNumerator.toNat = n₁ at *
  generalize fees.tradeFeeDenominator.toNat = d₁ at *
  generalize fees.ownerTradeFeeNumerator.toNat = n₂ at *
  generalize fees.ownerTradeFeeDenominator.toNat = d₂ at *
  split
  · exact h₂.trans (Nat.mul_le_mul_right _ (by omega))
  split
  · exact h₁.trans (Nat.mul_le_mul_right _ (by omega))
  calc s * (n₁ * d₂ + n₂ * d₁) = s * n₁ * d₂ + s * n₂ * d₁ := by ring
    _ ≤ (feeOf n₁ d₁ s + 1) * d₁ * d₂ + (feeOf n₂ d₂ s + 1) * d₂ * d₁ :=
        Nat.add_le_add (Nat.mul_le_mul_right _ h₁) (Nat.mul_le_mul_right _ h₂)
    _ = (feeOf n₁ d₁ s + feeOf n₂ d₂ s + 2) * (d₁ * d₂) := by ring

/-- A single fee falls short by less than one token. -/
theorem Valid.mul_combined_le_of_single (hv : fees.Valid) (s : ℕ)
    (h : fees.tradeFeeNumerator.toNat = 0 ∨ fees.ownerTradeFeeNumerator.toNat = 0) :
    s * fees.combinedFraction.1 ≤ (fees.totalFee s + 1) * fees.combinedFraction.2 := by
  have h₁ := share_le (s := s) hv.trade
  have h₂ := share_le (s := s) hv.ownerTrade
  unfold totalFee tradeFee ownerFee combinedFraction
  dsimp only
  split
  · exact h₂.trans (Nat.mul_le_mul_right _ (by omega))
  · rw [if_pos (by omega)]
    exact h₁.trans (Nat.mul_le_mul_right _ (by omega))

/-- The inverse of a used amount is at most the offered amount, when the remainder `k`
makes up for the truncation of the fees. -/
theorem preFee_le {s used k : ℕ} (hused : used + fees.totalFee s + k ≤ s)
    (hshare : s * fees.combinedFraction.1 ≤ (fees.totalFee s + k) * fees.combinedFraction.2)
    (hfrac : fees.combinedFraction.1 = 0 ∨ fees.combinedFraction.2 = 0 ∨
      fees.combinedFraction.1 < fees.combinedFraction.2) :
    fees.preFee used ≤ s := by
  rw [preFee]
  generalize fees.combinedFraction.1 = n at *
  generalize fees.combinedFraction.2 = d at *
  generalize fees.totalFee s = f at *
  by_cases h0 : n = 0 ∨ d = 0
  · rw [grossUp, if_pos h0]
    omega
  · have hlt : n < d := by omega
    refine grossUp_le (by omega) hlt ?_
    have hsplit : s * (d - n) + s * n = s * d := by rw [← Nat.mul_add, Nat.sub_add_cancel hlt.le]
    have hmul : (used + f + k) * d ≤ s * d := Nat.mul_le_mul_right d hused
    have hexpand : (used + f + k) * d = used * d + (f + k) * d := by ring
    omega

end Fees

/-! ## When the charge exceeds the offer -/

/-- On a linear curve at price `p`, an offer of `s` units of token A overcharges: both
fees are on, the curve leaves exactly one of the `net` units over, and the two fees
of the inverse of the others are at least two tokens larger than those of `s`. -/
def Overcharges (fees : Fees) (p s : ℕ) (dir : TradeDirection) : Prop :=
  dir = .aToB ∧ fees.tradeFeeNumerator.toNat ≠ 0 ∧ fees.ownerTradeFeeNumerator.toNat ≠ 0 ∧
    Linear.usedAmount p (s - fees.totalFee s) .aToB + 1 = s - fees.totalFee s ∧
    fees.totalFee s + 2 ≤ fees.totalFee (fees.preFee (s - fees.totalFee s - 1))

namespace SwapCurve

open Linear

variable {fees : Fees}

/-- With a base of at most the offered amount, the charge is at most that amount. -/
theorem Charged.source_le_of_base_le {s net used base : ℕ} {r : SwapResult}
    (h : Charged fees s net used base r) (hused : used ≤ net) (hbase : base ≤ s) :
    r.sourceAmountSwapped.toNat ≤ s := by
  obtain ⟨hle, hnet⟩ := h.net_eq
  have hfees : fees.totalFee base ≤ fees.totalFee s := Fees.totalFee_mono hbase
  have hsource := h.source
  simp only [Fees.totalFee] at hfees
  omega

/-- A remainder of `k` tokens that makes up for the truncation of the fees bounds the
charge. -/
theorem Charged.source_le_of_remainder {s net used base k : ℕ} {r : SwapResult}
    (h : Charged fees s net used base r) (hlt : used < net) (hk : used + k ≤ net)
    (hshare : s * fees.combinedFraction.1 ≤ (fees.totalFee s + k) * fees.combinedFraction.2) :
    r.sourceAmountSwapped.toNat ≤ s := by
  refine h.source_le_of_base_le hlt.le ?_
  obtain ⟨hle, hnet⟩ := h.net_eq
  rw [h.base_eq, if_pos hlt]
  refine Fees.preFee_le (k := k) ?_ hshare (h.fraction hlt)
  rw [Fees.totalFee]
  omega

section Charge

variable [SplMath] {curve : SwapCurve}

/-- Inversion of a swap on a linear curve: the linear arithmetic at the price, and the
charge around it. -/
theorem swap_linear_eq_ok (hlin : curve.calculator.IsLinear) {s x y : U128}
    {dir : TradeDirection} {ts : Option U128} {r : SwapResult}
    (h : curve.swap s x y dir fees ts = .ok r) :
    ∃ (p : U256) (base : ℕ), curve.calculator.tokenBPrice ts = .ok p ∧
      Charged fees s.toNat (s.toNat - fees.totalFee s.toNat)
        (usedAmount p.toNat (s.toNat - fees.totalFee s.toNat) dir) base r ∧
      r.destinationAmountSwapped.toNat =
        boughtAmount p.toNat (s.toNat - fees.totalFee s.toNat) dir ∧
      usedAmount p.toNat (s.toNat - fees.totalFee s.toNat) dir ≤ s.toNat - fees.totalFee s.toNat ∧
      0 < usedAmount p.toNat (s.toNat - fees.totalFee s.toNat) dir ∧
      r.newSwapSourceAmount.toNat = x.toNat + r.sourceAmountSwapped.toNat ∧
      r.destinationAmountSwapped.toNat ≤ y.toNat ∧
      r.newSwapDestinationAmount.toNat = y.toNat - r.destinationAmountSwapped.toNat := by
  obtain ⟨net, w, base, hw, hcharged, hdst, hx, hy, hy'⟩ := swap_eq_ok h
  rw [hlin.swapWithoutFees] at hw
  obtain ⟨p, hp, hw⟩ := Outcome.bind_eq_ok.mp hw
  obtain ⟨hused, hbought, hle, hpos, -⟩ := swapWithoutFees_spec hw
  have hnet : net.toNat = s.toNat - fees.totalFee s.toNat := hcharged.net_eq.2
  rw [hnet] at hused hbought hle hcharged
  rw [hused] at hcharged hpos
  exact ⟨p, base, hp, hcharged, by rw [hdst, hbought], hle, hpos, hx, hy, hy'⟩

/-- A swap on a linear curve takes at most the offered amount exactly when it does not
overcharge. -/
theorem source_le_iff_not_overcharges (hlin : curve.calculator.IsLinear)
    (hfees : fees.validate = .ok ()) {s x y : U128} {dir : TradeDirection} {ts : Option U128}
    {r : SwapResult} (h : curve.swap s x y dir fees ts = .ok r) :
    ∃ p, curve.calculator.tokenBPrice ts = .ok p ∧
      (r.sourceAmountSwapped ≤ s ↔ ¬ Overcharges fees p.toNat s.toNat dir) := by
  have hv := Fees.validate_eq_ok.mp hfees
  obtain ⟨p, base, hp, hc, -, hle, -⟩ := swap_linear_eq_ok hlin h
  refine ⟨p, hp, ?_⟩
  rw [BitVec.le_def]
  obtain ⟨hfee, -⟩ := hc.net_eq
  change fees.totalFee s.toNat ≤ s.toNat at hfee
  by_cases hlt : usedAmount p.toNat (s.toNat - fees.totalFee s.toNat) dir <
      s.toNat - fees.totalFee s.toNat
  · cases dir with
    | bToA => exact absurd hlt (lt_irrefl _)
    | aToB =>
      by_cases hsingle : fees.tradeFeeNumerator.toNat = 0 ∨ fees.ownerTradeFeeNumerator.toNat = 0
      · refine iff_of_true (hc.source_le_of_remainder hlt (k := 1) (by omega)
          (hv.mul_combined_le_of_single _ hsingle)) ?_
        rintro ⟨-, h₁, h₂, -⟩
        exact hsingle.elim h₁ h₂
      by_cases htwo : usedAmount p.toNat (s.toNat - fees.totalFee s.toNat) .aToB + 2 ≤
          s.toNat - fees.totalFee s.toNat
      · refine iff_of_true (hc.source_le_of_remainder hlt htwo (hv.mul_combined_le _)) ?_
        rintro ⟨-, -, -, hone, -⟩
        omega
      · -- both fees are on and one token is left over: compare the fees
        have hone : usedAmount p.toNat (s.toNat - fees.totalFee s.toNat) .aToB + 1 =
            s.toNat - fees.totalFee s.toNat := by omega
        have hbase := hc.base_eq
        rw [if_pos hlt, show usedAmount p.toNat (s.toNat - fees.totalFee s.toNat) .aToB =
          s.toNat - fees.totalFee s.toNat - 1 by omega] at hbase
        have hsource : r.sourceAmountSwapped.toNat =
            usedAmount p.toNat (s.toNat - fees.totalFee s.toNat) .aToB + fees.totalFee base := by
          rw [hc.source, Nat.add_assoc]
          rfl
        rw [hsource, hbase, Overcharges]
        push Not at hsingle
        simp only [hsingle, true_and, ne_eq, not_false_eq_true]
        omega
  · refine iff_of_true (hc.source_le_of_base_le hle ?_) ?_
    · rw [hc.base_eq, if_neg hlt]
    · rintro ⟨rfl, -, -, hone, -⟩
      omega

end Charge

/-- A trade fee and an owner fee of one in a thousand each, at price two: an offer of 2500 is
charged 2500, and an offer of 1999 is charged 2000. -/
theorem source_le_iff_not_overcharges_thousandth :
    (∃ p, (Calculator.constantPrice ⟨2 * RAY⟩).tokenBPrice none = .ok p ∧
      ((2500#128 : U128) ≤ 2500#128 ↔
        ¬ Overcharges ⟨1#64, 1000#64, 1#64, 1000#64, 0#64, 0#64, 0#64, 0#64⟩ p.toNat 2500 .aToB)) ∧
    ∃ p, (Calculator.constantPrice ⟨2 * RAY⟩).tokenBPrice none = .ok p ∧
      ((2000#128 : U128) ≤ 1999#128 ↔
        ¬ Overcharges ⟨1#64, 1000#64, 1#64, 1000#64, 0#64, 0#64, 0#64, 0#64⟩ p.toNat 1999 .aToB) :=
  ⟨@source_le_iff_not_overcharges _ SplMath.reference
    ⟨.constantPrice, .constantPrice ⟨2 * RAY⟩⟩ trivial (by decide) 2500#128 5000#128 5000#128
    .aToB none ⟨7500#128, 3752#128, 2500#128, 1248#128, 2#128, 2#128⟩ (by decide +kernel),
  @source_le_iff_not_overcharges _ SplMath.reference
    ⟨.constantPrice, .constantPrice ⟨2 * RAY⟩⟩ trivial (by decide) 1999#128 5000#128 5000#128
    .aToB none ⟨7000#128, 4002#128, 2000#128, 998#128, 2#128, 2#128⟩ (by decide +kernel)⟩

/-- With a trade fee and an owner fee of one in a thousand each, an offer of 1999 is
charged 2000 at price two. -/
theorem swap_may_overcharge :
    ¬ ∀ [SplMath] (curve : SwapCurve) (fees : Fees) (s x y : U64) (dir : TradeDirection)
      (ts : Option U128) (r : SwapResult), curve.calculator.IsLinear → fees.validate = .ok () →
      curve.swap (s.widen 128) (x.widen 128) (y.widen 128) dir fees ts = .ok r →
      r.sourceAmountSwapped ≤ s.widen 128 := by
  intro h
  have hle := @h SplMath.reference ⟨.constantPrice, .constantPrice ⟨2 * RAY⟩⟩
    ⟨1#64, 1000#64, 1#64, 1000#64, 0#64, 0#64, 0#64, 0#64⟩ 1999#64 5000#64 5000#64 .aToB none
    ⟨7000#128, 4002#128, 2000#128, 998#128, 2#128, 2#128⟩ trivial (by decide) (by decide +kernel)
  exact absurd hle (by decide)

end SwapCurve

end SolanaPsm
