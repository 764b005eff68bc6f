import SolanaPsm.SwapCharge

/-!
# Offering more to a swap

Two swaps on the same linear curve, at the same moment, of a smaller and a larger offer.
What they buy depends on what is left of the offer after the fees, and each fee is
truncated on its own: over the difference of the offers it may grow by almost one token
more than its share (`feeOf_step`). One fee cannot outgrow the offer that way. Two fees can,
by one token, and then the larger offer is left with one token less than the smaller
(`Valid.net_le`). `StepsBack` says when that token would have bought something.
-/

namespace SolanaPsm

/-- Between two offers a fee grows by less than its share of the difference and a token. -/
theorem feeOf_step {n d x y : ℕ} (hn : 0 < n) (hlt : n < d) (hx : 0 < x) (hxy : x ≤ y) :
    feeOf n d y * d + x * n < (feeOf n d x + 1) * d + y * n := by
  have hbelow : x * n < (feeOf n d x + 1) * d := mul_lt_feeOf_succ_mul hlt
  rcases Nat.eq_zero_or_pos (y * n / d) with hmin | hshare
  · -- both fees are at their minimum of one token
    have hmul : x * n ≤ y * n := Nat.mul_le_mul_right n hxy
    have hone : feeOf n d y = 1 := by rw [feeOf, if_neg (by omega), hmin]; rfl
    have hle : 1 ≤ feeOf n d x := one_le_feeOf hn hx
    have htwo : 2 * d ≤ (feeOf n d x + 1) * d := Nat.mul_le_mul_right d (by omega)
    rw [hone]
    omega
  · have habove : feeOf n d y * d ≤ y * n := by
      rw [feeOf, if_neg (by omega), Nat.max_eq_right hshare]
      exact Nat.div_mul_le_self _ _
    omega

/-- A single fee does not outgrow the offer. -/
theorem feeOf_add_le {n d x y : ℕ} (h : ValidFraction n d) (hx : 0 < x) (hxy : x ≤ y) :
    feeOf n d y + x ≤ feeOf n d x + y := by
  rcases Nat.eq_zero_or_pos n with rfl | hn
  · rw [feeOf_zero_left, feeOf_zero_left]
    omega
  · have hlt : n < d := h.resolve_left hn.ne'
    have hstep := feeOf_step hn hlt hx hxy
    obtain ⟨k, rfl⟩ := Nat.exists_eq_add_of_le hxy
    have hshare : k * n ≤ k * d := Nat.mul_le_mul_left k hlt.le
    have hmul : (feeOf n d (x + k) + x) * d < (feeOf n d x + (x + k) + 1) * d := by
      linarith
    exact Nat.le_of_lt_succ (Nat.lt_of_mul_lt_mul_right hmul)

namespace Fees

variable {fees : Fees} {s₁ s₂ : ℕ}

/-- With a single fee, what is left after it does not fall when more is offered. -/
theorem Valid.totalFee_le_of_single (hv : fees.Valid) (hpos : 0 < s₁) (hle : s₁ ≤ s₂)
    (h : fees.tradeFeeNumerator.toNat = 0 ∨ fees.ownerTradeFeeNumerator.toNat = 0) :
    fees.totalFee s₂ + s₁ ≤ fees.totalFee s₁ + s₂ := by
  have htrade := feeOf_add_le hv.trade hpos hle
  have howner := feeOf_add_le hv.ownerTrade hpos hle
  unfold totalFee tradeFee ownerFee
  rcases h with h0 | h0
  · rw [h0, feeOf_zero_left, feeOf_zero_left]
    omega
  · rw [h0, feeOf_zero_left, feeOf_zero_left]
    omega

/-- What is left after the fees falls by at most one token when more is offered. -/
theorem Valid.net_le (hv : fees.Valid) (hpos : 0 < s₁) (hle : s₁ ≤ s₂) :
    s₁ - fees.totalFee s₁ ≤ s₂ - fees.totalFee s₂ + 1 := by
  by_cases hsingle : fees.tradeFeeNumerator.toNat = 0 ∨ fees.ownerTradeFeeNumerator.toNat = 0
  · have := hv.totalFee_le_of_single hpos hle hsingle
    omega
  push Not at hsingle
  have htrade := hv.trade.resolve_left hsingle.1
  have howner := hv.ownerTrade.resolve_left hsingle.2
  have hstep₁ := feeOf_step (Nat.pos_of_ne_zero hsingle.1) htrade hpos hle
  have hstep₂ := feeOf_step (Nat.pos_of_ne_zero hsingle.2) howner hpos hle
  have hbelow₁ := mul_lt_feeOf_succ_mul (x := s₁) htrade
  have hbelow₂ := mul_lt_feeOf_succ_mul (x := s₁) howner
  unfold totalFee tradeFee ownerFee
  generalize fees.tradeFeeNumerator.toNat = n₁ at *
  generalize fees.tradeFeeDenominator.toNat = d₁ at *
  generalize fees.ownerTradeFeeNumerator.toNat = n₂ at *
  generalize fees.ownerTradeFeeDenominator.toNat = d₂ at *
  generalize feeOf n₁ d₁ s₁ = f₁ at *
  generalize feeOf n₂ d₂ s₁ = f₂ at *
  generalize feeOf n₁ d₁ s₂ = g₁ at *
  generalize feeOf n₂ d₂ s₂ = g₂ at *
  have hd₁ : 0 < d₁ := by omega
  have hd₂ : 0 < d₂ := by omega
  rcases le_total (n₁ * d₂ + n₂ * d₁) (d₁ * d₂) with hshare | hshare
  · -- together a share of at most one: over the difference the fees gain less than two tokens
    have hboth : (g₁ + g₂ + s₁) * (d₁ * d₂) < (f₁ + f₂ + s₂ + 2) * (d₁ * d₂) := by
      obtain ⟨k, rfl⟩ := Nat.exists_eq_add_of_le hle
      have hk : k * (n₁ * d₂ + n₂ * d₁) ≤ k * (d₁ * d₂) := Nat.mul_le_mul_left k hshare
      linarith [Nat.mul_lt_mul_of_pos_right hstep₁ hd₂, Nat.mul_lt_mul_of_pos_right hstep₂ hd₁]
    have := Nat.lt_of_mul_lt_mul_right hboth
    omega
  · -- together a share of more than one: the fees leave at most one token
    have hboth : s₁ * (d₁ * d₂) < (f₁ + f₂ + 2) * (d₁ * d₂) := by
      have hs : s₁ * (d₁ * d₂) ≤ s₁ * (n₁ * d₂ + n₂ * d₁) := Nat.mul_le_mul_left s₁ hshare
      linarith [Nat.mul_lt_mul_of_pos_right hbelow₁ hd₂, Nat.mul_lt_mul_of_pos_right hbelow₂ hd₁]
    have := Nat.lt_of_mul_lt_mul_right hboth
    omega

end Fees

/-- What is bought grows with what is offered to the curve. -/
theorem Linear.boughtAmount_mono {p s t : ℕ} (h : s ≤ t) (dir : TradeDirection) :
    Linear.boughtAmount p s dir ≤ Linear.boughtAmount p t dir := by
  cases dir with
  | aToB => exact Nat.div_le_div_right (Nat.mul_le_mul_right ray h)
  | bToA => exact Nat.div_le_div_right (Nat.mul_le_mul_right p h)

/-- The larger of two offers buys less: both fees are on, together they grow by one token
more than the offer, and with that token the larger offer would have bought more. -/
def StepsBack (fees : Fees) (p s₁ s₂ : ℕ) (dir : TradeDirection) : Prop :=
  fees.tradeFeeNumerator.toNat ≠ 0 ∧ fees.ownerTradeFeeNumerator.toNat ≠ 0 ∧
    fees.totalFee s₂ + s₁ = fees.totalFee s₁ + s₂ + 1 ∧
    Linear.boughtAmount p (s₂ - fees.totalFee s₂) dir <
      Linear.boughtAmount p (s₂ - fees.totalFee s₂ + 1) dir

namespace SwapCurve

open Linear

section Order

variable [SplMath] {curve : SwapCurve} {fees : Fees}

/-- Of two offers to a linear curve the larger buys no less, unless it steps back; then it
is one token short of what the smaller buys. -/
theorem more_buys_more_iff (hlin : curve.calculator.IsLinear) (hfees : fees.validate = .ok ())
    {s₁ s₂ x y : U128} {dir : TradeDirection} {ts : Option U128} {r₁ r₂ : SwapResult}
    (hle : s₁ ≤ s₂) (h₁ : curve.swap s₁ x y dir fees ts = .ok r₁)
    (h₂ : curve.swap s₂ x y dir fees ts = .ok r₂) :
    ∃ p, curve.calculator.tokenBPrice ts = .ok p ∧
      (r₁.destinationAmountSwapped ≤ r₂.destinationAmountSwapped ↔
        ¬ StepsBack fees p.toNat s₁.toNat s₂.toNat dir) ∧
      r₁.destinationAmountSwapped.toNat ≤
        boughtAmount p.toNat (s₂.toNat - fees.totalFee s₂.toNat + 1) dir := by
  have hv := Fees.validate_eq_ok.mp hfees
  obtain ⟨p, base₁, hp, hc₁, hdst₁, hused₁, hpos₁, -⟩ := swap_linear_eq_ok hlin h₁
  obtain ⟨p', base₂, hp', hc₂, hdst₂, -⟩ := swap_linear_eq_ok hlin h₂
  obtain rfl := Outcome.ok.inj (hp.symm.trans hp')
  have hfee₁ : fees.totalFee s₁.toNat ≤ s₁.toNat := hc₁.net_eq.1
  have hfee₂ : fees.totalFee s₂.toNat ≤ s₂.toNat := hc₂.net_eq.1
  rw [BitVec.le_def] at hle ⊢
  have hs₁ : 0 < s₁.toNat := by omega
  have hnet := hv.net_le hs₁ hle
  have hbound : r₁.destinationAmountSwapped.toNat ≤
      boughtAmount p.toNat (s₂.toNat - fees.totalFee s₂.toNat + 1) dir := by
    rw [hdst₁]
    exact boughtAmount_mono hnet dir
  refine ⟨p, hp, ?_, hbound⟩
  rw [hdst₁, hdst₂, StepsBack]
  by_cases hback : fees.totalFee s₂.toNat + s₁.toNat = fees.totalFee s₁.toNat + s₂.toNat + 1
  · -- the token is lost, and both fees are on
    have hboth : ¬ (fees.tradeFeeNumerator.toNat = 0 ∨ fees.ownerTradeFeeNumerator.toNat = 0) := by
      intro hsingle
      have := hv.totalFee_le_of_single hs₁ hle hsingle
      omega
    rw [not_or] at hboth
    have hlost : s₁.toNat - fees.totalFee s₁.toNat =
        s₂.toNat - fees.totalFee s₂.toNat + 1 := by omega
    rw [hlost, ← not_lt, not_iff_not]
    exact ⟨fun hless => ⟨hboth.1, hboth.2, hback, hless⟩, fun h => h.2.2.2⟩
  · refine iff_of_true (boughtAmount_mono (by omega) dir) ?_
    rintro ⟨-, -, h, -⟩
    exact hback h

end Order

/-- 1999 and 2500 tokens, at a price of one and with two fees of one in a thousand. -/
theorem more_buys_more_iff_thousandth :
    ∃ p, (Calculator.constantPrice ⟨RAY⟩).tokenBPrice none = .ok p ∧
      ((1997#128 : U128) ≤ 2496#128 ↔
        ¬ StepsBack ⟨1#64, 1000#64, 1#64, 1000#64, 0#64, 0#64, 0#64, 0#64⟩ p.toNat 1999 2500
          .aToB) ∧
      1997 ≤ boughtAmount p.toNat
        (2500 - Fees.totalFee ⟨1#64, 1000#64, 1#64, 1000#64, 0#64, 0#64, 0#64, 0#64⟩ 2500 + 1)
        .aToB :=
  @more_buys_more_iff SplMath.reference ⟨.constantPrice, .constantPrice ⟨RAY⟩⟩
    ⟨1#64, 1000#64, 1#64, 1000#64, 0#64, 0#64, 0#64, 0#64⟩ trivial (by decide) 1999#128 2500#128
    5000#128 5000#128 .aToB none ⟨6999#128, 3003#128, 1999#128, 1997#128, 1#128, 1#128⟩
    ⟨7500#128, 2504#128, 2500#128, 2496#128, 2#128, 2#128⟩ (by decide) (by decide +kernel)
    (by decide +kernel)

/-- With two fees of one in a thousand, 1999 tokens buy 1997 and 2000 tokens buy 1996. -/
theorem more_may_buy_less :
    ¬ ∀ [SplMath] (curve : SwapCurve) (fees : Fees) (s₁ s₂ x y : U128) (dir : TradeDirection)
      (ts : Option U128) (r₁ r₂ : SwapResult) (p : U256), curve.calculator.IsLinear →
      curve.calculator.tokenBPrice ts = .ok p → 0#256 < p → fees.validate = .ok () → s₁ ≤ s₂ →
      curve.swap s₁ x y dir fees ts = .ok r₁ → curve.swap s₂ x y dir fees ts = .ok r₂ →
      r₁.destinationAmountSwapped ≤ r₂.destinationAmountSwapped := by
  intro h
  have hle := @h SplMath.reference ⟨.constantPrice, .constantPrice ⟨RAY⟩⟩
    ⟨1#64, 1000#64, 1#64, 1000#64, 0#64, 0#64, 0#64, 0#64⟩ 1999#128 2000#128 5000#128 5000#128
    .aToB none ⟨6999#128, 3003#128, 1999#128, 1997#128, 1#128, 1#128⟩
    ⟨7000#128, 3004#128, 2000#128, 1996#128, 2#128, 2#128⟩ _ trivial rfl (by decide) (by decide)
    (by decide) (by decide +kernel) (by decide +kernel)
  exact absurd hle (by decide)

end SwapCurve

end SolanaPsm
