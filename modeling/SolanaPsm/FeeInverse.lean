import SolanaPsm.ShareValue

/-!
# What the inverse of the fees covers

`preTradingFeeAmount` says how much input is needed to be left with a given amount. It takes
the two trading fees together as one fraction and rounds up once. Taken forward, each fee is
truncated, which helps, or raised to its minimum of one token, which can cost up to a token
for each fee.

One minimum always fits in the rounding up, two do not: the inverse falls short exactly
when both fees are on and the fees of one token more than the amount are at most one token
together (`FeesBelowMinimum`). An exact-out withdrawal uses the inverse for the owner fee
alone, so its charge always covers that fee. Fewer pool tokens are then minted for the fee
than are burned, unless the truncation of values gets in between (`FeeCountsForLess`).
-/

namespace SolanaPsm

/-! ## Two fees at once -/

section TwoFees

variable {n₁ d₁ n₂ d₂ x : ℕ}

/-- When both fees are above the minimum, what is added for the combined fraction covers
them; the truncation of either leaves room for one minimum. -/
theorem add_feeOf_feeOf_le {q : ℕ} (hn₁ : 0 < n₁) (hn₂ : 0 < n₂) (hd₁ : 0 < d₁) (hd₂ : 0 < d₂)
    (hq : 0 < q) (hreach : x * (d₁ * d₂) + q * (n₁ * d₂ + n₂ * d₁) ≤ q * (d₁ * d₂))
    (htwo : x + 2 ≤ q) : x + feeOf n₁ d₁ q + feeOf n₂ d₂ q ≤ q := by
  have hden : 0 < d₁ * d₂ := Nat.mul_pos hd₁ hd₂
  -- the two truncated shares, over the common denominator
  have h₁ : q * n₁ / d₁ * (d₁ * d₂) ≤ q * n₁ * d₂ := by
    rw [← Nat.mul_assoc]
    exact Nat.mul_le_mul_right d₂ (Nat.div_mul_le_self _ _)
  have h₂ : q * n₂ / d₂ * (d₁ * d₂) ≤ q * n₂ * d₁ := by
    rw [Nat.mul_comm d₁, ← Nat.mul_assoc]
    exact Nat.mul_le_mul_right d₁ (Nat.div_mul_le_self _ _)
  have hpos₁ : 0 < q * n₁ * d₂ := Nat.mul_pos (Nat.mul_pos hq hn₁) hd₂
  have hpos₂ : 0 < q * n₂ * d₁ := Nat.mul_pos (Nat.mul_pos hq hn₂) hd₁
  have hshares : q * (n₁ * d₂ + n₂ * d₁) = q * n₁ * d₂ + q * n₂ * d₁ := by ring
  rw [hshares] at hreach
  rw [feeOf, feeOf, if_neg (by omega), if_neg (by omega)]
  generalize q * n₁ / d₁ = k₁ at *
  generalize q * n₂ / d₂ = k₂ at *
  have hboth : x + k₁ + k₂ ≤ q := by
    refine Nat.le_of_mul_le_mul_right ?_ hden
    rw [Nat.add_mul, Nat.add_mul]
    omega
  -- a fee at its minimum has a share of its own, so the other one is strictly smaller
  have hfirst : x + k₁ < q := by
    refine Nat.lt_of_mul_lt_mul_right (a := d₁ * d₂) ?_
    rw [Nat.add_mul]
    omega
  have hsecond : x + k₂ < q := by
    refine Nat.lt_of_mul_lt_mul_right (a := d₁ * d₂) ?_
    rw [Nat.add_mul]
    omega
  omega

/-- The inverse of the combined fraction covers both fees, unless their exact sum on one
token more than the amount is at most one token. -/
theorem add_feeOf_feeOf_grossUp_le_iff (hn₁ : 0 < n₁) (hn₂ : 0 < n₂) (hd₁ : 0 < d₁)
    (hd₂ : 0 < d₂) (hlt : n₁ * d₂ + n₂ * d₁ < d₁ * d₂) (hx : 0 < x) :
    x + feeOf n₁ d₁ (grossUp (n₁ * d₂ + n₂ * d₁) (d₁ * d₂) x) +
        feeOf n₂ d₂ (grossUp (n₁ * d₂ + n₂ * d₁) (d₁ * d₂) x) ≤
      grossUp (n₁ * d₂ + n₂ * d₁) (d₁ * d₂) x ↔
    d₁ * d₂ < (x + 1) * (n₁ * d₂ + n₂ * d₁) := by
  have hnum : 0 < n₁ * d₂ + n₂ * d₁ := Nat.add_pos_left (Nat.mul_pos hn₁ hd₂) _
  have hle := mul_le_grossUp_mul (x := x) hnum hlt
  have hleast := @grossUp_le (n₁ * d₂ + n₂ * d₁) (d₁ * d₂) x (x + 1) hnum hlt
  generalize grossUp (n₁ * d₂ + n₂ * d₁) (d₁ * d₂) x = q at *
  have hreach : x * (d₁ * d₂) + q * (n₁ * d₂ + n₂ * d₁) ≤ q * (d₁ * d₂) := by
    have hsplit : q * (d₁ * d₂ - (n₁ * d₂ + n₂ * d₁)) + q * (n₁ * d₂ + n₂ * d₁) =
        q * (d₁ * d₂) := by
      rw [← Nat.mul_add, Nat.sub_add_cancel hlt.le]
    omega
  have hq : 0 < q := by
    refine Nat.pos_of_ne_zero fun h0 => ?_
    have hpos : 0 < x * (d₁ * d₂) := Nat.mul_pos hx (Nat.mul_pos hd₁ hd₂)
    rw [h0, Nat.zero_mul, Nat.zero_mul] at hreach
    omega
  by_cases hfit : d₁ * d₂ < (x + 1) * (n₁ * d₂ + n₂ * d₁)
  · -- the inverse adds at least two tokens
    refine iff_of_true (add_feeOf_feeOf_le hn₁ hn₂ hd₁ hd₂ hq hreach ?_) hfit
    by_contra hshort
    have hstep : (q - x) * (d₁ * d₂) ≤ 1 * (d₁ * d₂) := Nat.mul_le_mul_right _ (by omega)
    have hgap : (q - x) * (d₁ * d₂) = q * (d₁ * d₂) - x * (d₁ * d₂) := Nat.sub_mul _ _ _
    have hmono : q * (n₁ * d₂ + n₂ * d₁) < (x + 1) * (n₁ * d₂ + n₂ * d₁) := by omega
    have hqx : q ≤ x := Nat.le_of_lt_succ (Nat.lt_of_mul_lt_mul_right hmono)
    have hqd : q * (d₁ * d₂) ≤ x * (d₁ * d₂) := Nat.mul_le_mul_right _ hqx
    have hqn : 0 < q * (n₁ * d₂ + n₂ * d₁) := Nat.mul_pos hq hnum
    omega
  · -- one token is added, two are taken
    refine iff_of_false ?_ hfit
    have hone : q ≤ x + 1 := by
      refine hleast ?_
      rw [Nat.mul_sub, Nat.succ_mul]
      rw [Nat.succ_mul] at hfit ⊢
      omega
    have hfee₁ := one_le_feeOf (d := d₁) hn₁ hq
    have hfee₂ := one_le_feeOf (d := d₂) hn₂ hq
    omega

end TwoFees

namespace Fees

/-- Both trading fees are on, and on `x + 1` tokens they amount to at most one token
together: each takes its minimum of one token where the inverse makes room for one. -/
def FeesBelowMinimum (fees : Fees) (x : ℕ) : Prop :=
  fees.tradeFeeNumerator.toNat ≠ 0 ∧ fees.ownerTradeFeeNumerator.toNat ≠ 0 ∧
    (x + 1) * (fees.tradeFeeNumerator.toNat * fees.ownerTradeFeeDenominator.toNat +
      fees.ownerTradeFeeNumerator.toNat * fees.tradeFeeDenominator.toNat) ≤
        fees.tradeFeeDenominator.toNat * fees.ownerTradeFeeDenominator.toNat

instance (fees : Fees) (x : ℕ) : Decidable (fees.FeesBelowMinimum x) :=
  inferInstanceAs (Decidable (_ ∧ _ ∧ _))

variable {fees : Fees}

/-- A single fee is always covered. -/
theorem Valid.add_fees_preFee_le_of_single (hv : fees.Valid) {x : ℕ} (hx : 0 < x)
    (hoff : fees.tradeFeeNumerator.toNat = 0 ∨ fees.ownerTradeFeeNumerator.toNat = 0) :
    x + fees.tradeFee (fees.preFee x) + fees.ownerFee (fees.preFee x) ≤ fees.preFee x := by
  have htrade := hv.trade
  have howner := hv.ownerTrade
  rw [ValidFraction] at htrade howner
  unfold tradeFee ownerFee preFee combinedFraction
  dsimp only
  by_cases h₁ : fees.tradeFeeNumerator.toNat = 0
  · rw [if_pos (Or.inl h₁), h₁, feeOf_zero_left, Nat.add_zero]
    rcases Nat.eq_zero_or_pos fees.ownerTradeFeeNumerator.toNat with h₂ | h₂
    · rw [h₂, feeOf_zero_left]
      exact le_grossUp (Or.inl rfl)
    · exact add_feeOf_grossUp_le h₂ (by omega) hx (by omega) le_rfl
  · have h₂ : fees.ownerTradeFeeNumerator.toNat = 0 := hoff.resolve_left h₁
    rw [if_neg (by omega), if_pos (Or.inl h₂), h₂, feeOf_zero_left, Nat.add_zero]
    exact add_feeOf_grossUp_le (by omega) (by omega) hx (by omega) le_rfl

/-- The inverse covers both fees exactly when it is not the minimum of each that counts. -/
theorem Valid.add_fees_preFee_le_iff (hv : fees.Valid) {x : ℕ} (hx : 0 < x)
    (hfrac : fees.combinedFraction.1 = 0 ∨ fees.combinedFraction.2 = 0 ∨
      fees.combinedFraction.1 < fees.combinedFraction.2) :
    x + fees.tradeFee (fees.preFee x) + fees.ownerFee (fees.preFee x) ≤ fees.preFee x ↔
      ¬ fees.FeesBelowMinimum x := by
  rw [FeesBelowMinimum]
  by_cases hoff : fees.tradeFeeNumerator.toNat = 0 ∨ fees.ownerTradeFeeNumerator.toNat = 0
  · refine iff_of_true (hv.add_fees_preFee_le_of_single hx hoff) ?_
    rintro ⟨h₁, h₂, -⟩
    exact hoff.elim h₁ h₂
  · have htrade := hv.trade
    have howner := hv.ownerTrade
    rw [ValidFraction] at htrade howner
    have hcombined : fees.combinedFraction =
        (fees.tradeFeeNumerator.toNat * fees.ownerTradeFeeDenominator.toNat +
          fees.ownerTradeFeeNumerator.toNat * fees.tradeFeeDenominator.toNat,
        fees.tradeFeeDenominator.toNat * fees.ownerTradeFeeDenominator.toNat) := by
      unfold combinedFraction
      dsimp only
      rw [if_neg (by omega), if_neg (by omega)]
    have hden : 0 < fees.tradeFeeDenominator.toNat * fees.ownerTradeFeeDenominator.toNat :=
      Nat.mul_pos (by omega) (by omega)
    have hnum : 0 < fees.tradeFeeNumerator.toNat * fees.ownerTradeFeeDenominator.toNat :=
      Nat.mul_pos (by omega) (by omega)
    rw [hcombined] at hfrac
    dsimp only at hfrac
    push Not at hoff
    rw [tradeFee, ownerFee, preFee, hcombined,
      add_feeOf_feeOf_grossUp_le_iff (by omega) (by omega) (by omega) (by omega) (by omega) hx]
    simp only [hoff, ne_eq, not_false_eq_true, true_and, not_le]

/-- Inverting the trading fees gives enough input exactly when the fees are not both below
their minimum. -/
theorem preTradingFee_covers_iff (hfees : fees.validate = .ok ()) {x q f₁ f₂ : U128}
    (hx : 1 ≤ x.toNat) (hq : fees.preTradingFeeAmount x = some q)
    (hf₁ : fees.tradingFee q = some f₁) (hf₂ : fees.ownerTradingFee q = some f₂) :
    (f₁.toNat + f₂.toNat ≤ q.toNat ∧ x.toNat ≤ q.toNat - f₁.toNat - f₂.toNat) ↔
      ¬ fees.FeesBelowMinimum x.toNat := by
  have hv := validate_eq_ok.mp hfees
  obtain ⟨hpre, hfrac⟩ := preTradingFeeAmount_eq_some hq
  rw [← hv.add_fees_preFee_le_iff hx hfrac, tradingFee_eq_some hf₁, ownerTradingFee_eq_some hf₂,
    ← hpre]
  omega

/-- Two fees of one in a hundred, a hundred tokens. -/
theorem preTradingFee_covers_iff_hundred :
    (1 + 1 ≤ 103 ∧ 100 ≤ 103 - 1 - 1) ↔
      ¬ FeesBelowMinimum ⟨1, 100, 1, 100, 0, 0, 0, 0⟩ 100 :=
  @preTradingFee_covers_iff ⟨1, 100, 1, 100, 0, 0, 0, 0⟩ (by decide) 100#128 103#128 1#128 1#128
    (by decide) (by decide +kernel) (by decide +kernel) (by decide +kernel)

/-- Two fees of one in a thousand leave nothing of the two tokens that should leave one. -/
theorem preTradingFee_may_fall_short :
    ¬ ∀ (fees : Fees) (x q f₁ f₂ : U128), fees.validate = .ok () → 1 ≤ x.toNat →
      fees.preTradingFeeAmount x = some q → fees.tradingFee q = some f₁ →
      fees.ownerTradingFee q = some f₂ →
      f₁.toNat + f₂.toNat ≤ q.toNat ∧ x.toNat ≤ q.toNat - f₁.toNat - f₂.toNat := by
  intro h
  have hcovers := h ⟨1, 1000, 1, 1000, 0, 0, 0, 0⟩ 1#128 2#128 1#128 1#128 (by decide) (by decide)
    (by decide +kernel) (by decide +kernel) (by decide +kernel)
  exact absurd hcovers (by decide)

end Fees

/-! ## Exact-out withdrawals -/

namespace WithdrewSingle

open Linear

/-- No more pool tokens are minted for the owner fee than are burned, when the fee counts for
no more against the reserves left without it than the charge does against what it leaves of
the reserves. -/
theorem minted_le_burn {p x adjusted fee burn minted : ℕ} {dir : TradeDirection}
    {s s' : Balances} (hm : WithdrewSingle p dir s s' x adjusted fee burn minted)
    (hcounts : (s.reserves.truncated p - givenValue p adjusted dir) * givenValue p fee dir ≤
      givenValue p adjusted dir * (s.reserves.without dir.source (x + fee)).truncated p) :
    minted ≤ burn := by
  rcases Nat.eq_zero_or_pos fee with h0 | hpos
  · rw [hm.mint.none h0]
    exact Nat.zero_le _
  rw [← hm.without_eq] at hcounts
  have hleft := hm.mint.pos hpos
  have hmint := hm.mint.le
  have hshare := hm.share
  have htotal := hm.total_pos
  generalize (s'.reserves.without dir.source fee).truncated p = left at *
  generalize s.reserves.truncated p = total at *
  generalize givenValue p adjusted dir = charge at *
  generalize givenValue p fee dir = given at *
  -- the pool tokens the burn leaves over are at most the share the charge leaves over
  have hrest : (s.supply.toNat - burn) * total ≤ s.supply.toNat * (total - charge) := by
    rw [Nat.sub_mul, Nat.mul_sub]
    exact Nat.sub_le_sub_left hshare _
  refine Nat.le_of_mul_le_mul_right ?_ (Nat.mul_pos htotal hleft)
  calc minted * (total * left) = minted * left * total := by ring
    _ ≤ (s.supply.toNat - burn) * given * total := Nat.mul_le_mul_right _ hmint
    _ = (s.supply.toNat - burn) * total * given := by ring
    _ ≤ s.supply.toNat * (total - charge) * given := Nat.mul_le_mul_right _ hrest
    _ = s.supply.toNat * ((total - charge) * given) := Nat.mul_assoc _ _ _
    _ ≤ s.supply.toNat * (charge * left) := Nat.mul_le_mul_left _ hcounts
    _ = s.supply.toNat * charge * left := (Nat.mul_assoc _ _ _).symm
    _ ≤ burn * total * left := Nat.mul_le_mul_right _ hshare
    _ = burn * (total * left) := Nat.mul_assoc _ _ _

/-- The charge for token A is a whole number of units, and counts for all it is worth. -/
theorem counts_of_whole {p x adjusted fee burn minted : ℕ} {dir : TradeDirection}
    {s s' : Balances} (hm : WithdrewSingle p dir s s' x adjusted fee burn minted)
    (hwhole : adjusted * unitValue p dir.source = givenValue p adjusted dir * ray) :
    (s.reserves.truncated p - givenValue p adjusted dir) * givenValue p fee dir ≤
      givenValue p adjusted dir * (s.reserves.without dir.source (x + fee)).truncated p := by
  have hfee : givenValue p fee dir ≤ givenValue p adjusted dir := by
    refine givenValue_mono ?_ dir
    exact (Nat.le_add_left fee x).trans hm.covers
  rw [Nat.mul_comm]
  exact Nat.mul_le_mul hfee (Nat.sub_le_of_le_add (hm.truncated_le_of_whole hwhole))

/-- At a supply of a whole number of pool tokens for each unit of value, at least as many as
units are left, the roundings do not make up for a fee that counts for more. -/
theorem counts_of_minted_le {p x adjusted fee burn minted k : ℕ} {dir : TradeDirection}
    {s s' : Balances} (hm : WithdrewSingle p dir s s' x adjusted fee burn minted)
    (hfull : 0 < fee → FullFeeMint p dir fee (s.supply.toNat - burn) s'.reserves minted)
    (hsupply : s.supply.toNat = k * s.reserves.truncated p)
    (hk : (s.reserves.without dir.source (x + fee)).truncated p ≤ k) (hle : minted ≤ burn) :
    (s.reserves.truncated p - givenValue p adjusted dir) * givenValue p fee dir ≤
      givenValue p adjusted dir * (s.reserves.without dir.source (x + fee)).truncated p := by
  rcases Nat.eq_zero_or_pos fee with rfl | hpos
  · have hzero : givenValue p 0 dir = 0 := by
      cases dir with
      | aToB => rfl
      | bToA => rw [givenValue, Nat.zero_mul, Nat.zero_div]
    rw [hzero, Nat.mul_zero]
    exact Nat.zero_le _
  have hfull := hfull hpos
  rw [FullFeeMint, hm.without_eq] at hfull
  have hshare := hm.share
  have hshare_lt := hm.share_lt
  have htotal := hm.total_pos
  generalize (s.reserves.without dir.source (x + fee)).truncated p = left at *
  generalize s.reserves.truncated p = total at *
  generalize givenValue p adjusted dir = charge at *
  generalize givenValue p fee dir = given at *
  rw [hsupply] at hfull hshare hshare_lt
  -- nothing is rounded in the burn
  have hburn : burn = k * charge := by
    have hexact : k * total * charge = k * charge * total := Nat.mul_right_comm _ _ _
    rw [hexact] at hshare hshare_lt
    have hge := Nat.le_of_mul_le_mul_right hshare htotal
    have hlt : burn < k * charge + 1 := by
      refine Nat.lt_of_mul_lt_mul_right (a := total) ?_
      rwa [Nat.add_mul, Nat.one_mul]
    omega
  rw [hburn, ← Nat.mul_sub] at hfull
  rw [hburn] at hle
  by_contra hmore
  have hscaled : k * (charge * left + 1) ≤ k * (total - charge) * given := by
    rw [Nat.mul_assoc]
    exact Nat.mul_le_mul_left k (Nat.lt_of_not_le hmore)
  have hminted : (minted + 1) * left ≤ (k * charge + 1) * left :=
    Nat.mul_le_mul_right _ (Nat.succ_le_succ hle)
  rw [Nat.mul_add, Nat.mul_one, ← Nat.mul_assoc] at hscaled
  rw [Nat.add_mul (k * charge), Nat.one_mul] at hminted
  omega

end WithdrewSingle

/-- What the owner fee of a withdrawal of `x` counts for, in whole units of token A and
relative to the reserves left without it, is at most what the charge counts for, relative to
what it leaves of the reserves. -/
def FeeCountsForLess (fees : Fees) (p : ℕ) (s : Balances) (dir : TradeDirection) (x : ℕ) :
    Prop :=
  (s.reserves.truncated p - Linear.givenValue p (fees.adjustedAmount x) dir) *
      Linear.givenValue p (fees.adjustedOwnerFee x) dir ≤
    Linear.givenValue p (fees.adjustedAmount x) dir *
      (s.reserves.without dir.source (x + fees.adjustedOwnerFee x)).truncated p

instance (fees : Fees) (p : ℕ) (s : Balances) (dir : TradeDirection) (x : ℕ) :
    Decidable (FeeCountsForLess fees p s dir x) := inferInstanceAs (Decidable (_ ≤ _))

/-- What the curve charges for covers the amount and the owner fee. -/
theorem SwapCurve.charge_covers [SplMath] {curve : SwapCurve} {fees : Fees} (hv : fees.Valid)
    {x a b S : U128} {dir : TradeDirection} {ts : Option U128} {r : SingleTokenTypeResult}
    (hx : 1 ≤ x.toNat) (h : curve.withdrawSingleTokenTypeExactOut x a b S dir fees ts = .ok r) :
    ∃ half pre adjusted : U128, half.toNat = x.toNat ⌈/⌉ (2 : ℕ) ∧
      fees.preTradingFeeAmount half = some pre ∧
      adjusted.toNat = x.toNat - half.toNat + pre.toNat ∧
      curve.calculator.withdrawSingleTokenTypeExactOut adjusted a b S dir .ceiling ts =
        .ok r.amount ∧
      x.toNat + r.ownerFee.toNat ≤ adjusted.toNat := by
  have hne : x ≠ 0#128 := by
    rintro rfl
    exact absurd hx (by decide)
  obtain ⟨half, pre, adjusted, hhalf, hpre, hfee, hadjusted, hamount⟩ :=
    withdrawSingleTokenTypeExactOut_steps hne h
  have hceil : half.toNat = x.toNat ⌈/⌉ (2 : ℕ) := by
    rw [hhalf, Nat.ceilDiv_eq_add_pred_div]
    rfl
  refine ⟨half, pre, adjusted, hceil, hpre, hadjusted, hamount, ?_⟩
  -- the inverse of half the amount covers that half and the fee on the inverse
  obtain ⟨hval, hfrac⟩ := Fees.preTradingFeeAmount_eq_some hpre
  have hcovers := hv.add_ownerFee_preFee_le (x := half.toNat) (by omega) hfrac
  rw [← hval, ← Fees.ownerTradingFee_eq_some hfee] at hcovers
  omega

namespace Amounts

open Script PoolEffect

/-- No more pool tokens are minted for the owner fee than are burned, when the truncation of
values does not interfere. -/
theorem minted_le_burned [SplMath] {curve : SwapCurve} {fees : Fees} (hv : fees.Valid)
    (hlin : curve.calculator.IsLinear) {ts : Option U128} {p : U256}
    (hp : curve.calculator.tokenBPrice ts = .ok p) {s s' : Balances} {accounts : FeeAccounts}
    {dir : TradeDirection} {source : Pubkey}
    {instruction : WithdrawSingleTokenTypeExactAmountOut} {log : List PoolEffect}
    (h : (withdrawSingleTokenTypeExactAmountOut curve fees ts s accounts dir source
      instruction).Returns log ())
    (hlog : performAll PoolEffect.apply log s = .ok s')
    (hsafe : dir = .aToB ∨
      FeeCountsForLess fees p.toNat s dir instruction.destinationTokenAmount.toNat) :
    total minted log ≤ total burned log := by
  obtain ⟨p', hp', burn, mints, hm⟩ := withdrawSingleTokenTypeExactAmountOut_moves hlin hv h hlog
  obtain rfl := Outcome.ok.inj (hp.symm.trans hp')
  have hle : mints ≤ burn := by
    refine hm.minted_le_burn ?_
    rcases hsafe with rfl | hsafe
    · exact hm.counts_of_whole rfl
    · exact hsafe
  have hsupply := hm.supply
  have htotal := (performAll_apply hlog).2
  omega

/-- Where no more is minted than burned at a supply that rounds nothing in the burn, and with
an account to mint to, the fee counts for less than the charge. -/
theorem fee_counts_of_minted_le [SplMath] {curve : SwapCurve} {fees : Fees} (hv : fees.Valid)
    (hlin : curve.calculator.IsLinear) {ts : Option U128} {p : U256}
    (hp : curve.calculator.tokenBPrice ts = .ok p) {s s' : Balances} {accounts : FeeAccounts}
    {dir : TradeDirection} {source : Pubkey}
    {instruction : WithdrawSingleTokenTypeExactAmountOut} {log : List PoolEffect}
    (h : (withdrawSingleTokenTypeExactAmountOut curve fees ts s accounts dir source
      instruction).Returns log ())
    (hlog : performAll PoolEffect.apply log s = .ok s') (hok : accounts.poolFeeOk = true) {k : ℕ}
    (hsupply : s.supply.toNat = k * s.reserves.truncated p.toNat)
    (hk : (s.reserves.without dir.source (instruction.destinationTokenAmount.toNat +
      fees.adjustedOwnerFee instruction.destinationTokenAmount.toNat)).truncated p.toNat ≤ k)
    (hle : total minted log ≤ total burned log) :
    FeeCountsForLess fees p.toNat s dir instruction.destinationTokenAmount.toNat := by
  obtain ⟨p', hp', burn, mints, hm, hfull⟩ :=
    withdrawSingleTokenTypeExactAmountOut_spec hlin hv h hlog
  obtain rfl := Outcome.ok.inj (hp.symm.trans hp')
  have hafter := hm.supply
  have htotal := (performAll_apply hlog).2
  exact hm.counts_of_minted_le (hfull hok) hsupply hk (by omega)

/-- The owner fee of an exact-out withdrawal is part of what the curve charges for, whatever
the curve. On a linear curve no more pool tokens are minted for it than are burned where,
in truncated values, the fee counts for less than the charge, as it always does for token A;
and only there, at supplies that leave nothing to the rounding of the burn. -/
theorem withdrawal_pays_owner_fee [SplMath] :
    (∀ (curve : SwapCurve) (fees : Fees) (x a b S : U128) (dir : TradeDirection)
      (ts : Option U128) (r : SingleTokenTypeResult), fees.validate = .ok () → 1 ≤ x.toNat →
      curve.withdrawSingleTokenTypeExactOut x a b S dir fees ts = .ok r →
      ∃ half pre adjusted : U128, half.toNat = x.toNat ⌈/⌉ (2 : ℕ) ∧
        fees.preTradingFeeAmount half = some pre ∧
        adjusted.toNat = x.toNat - half.toNat + pre.toNat ∧
        curve.calculator.withdrawSingleTokenTypeExactOut adjusted a b S dir .ceiling ts =
          .ok r.amount ∧
        x.toNat + r.ownerFee.toNat ≤ adjusted.toNat) ∧
    ∀ (curve : SwapCurve) (fees : Fees) (ts : Option U128) (s s' : Balances)
      (accounts : FeeAccounts) (dir : TradeDirection) (source : Pubkey)
      (instruction : WithdrawSingleTokenTypeExactAmountOut) (log : List PoolEffect) (p : U256),
      curve.calculator.IsLinear → curve.calculator.tokenBPrice ts = .ok p →
      fees.validate = .ok () →
      (withdrawSingleTokenTypeExactAmountOut curve fees ts s accounts dir source
        instruction).Returns log () →
      performAll PoolEffect.apply log s = .ok s' →
      (dir = .aToB ∨
          FeeCountsForLess fees p.toNat s dir instruction.destinationTokenAmount.toNat →
        total minted log ≤ total burned log) ∧
      ∀ k : ℕ, accounts.poolFeeOk = true →
        s.supply.toNat = k * s.reserves.truncated p.toNat →
        (s.reserves.without dir.source (instruction.destinationTokenAmount.toNat +
          fees.adjustedOwnerFee instruction.destinationTokenAmount.toNat)).truncated p.toNat ≤ k →
        total minted log ≤ total burned log →
        FeeCountsForLess fees p.toNat s dir instruction.destinationTokenAmount.toNat := by
  refine ⟨?_, ?_⟩
  · intro curve fees x a b S dir ts r hfees hx h
    exact SwapCurve.charge_covers (Fees.validate_eq_ok.mp hfees) hx h
  · intro curve fees ts s s' accounts dir source instruction log p hlin hp hfees h hlog
    refine ⟨fun hsafe => ?_, fun k hok hsupply hk hle => ?_⟩
    · exact minted_le_burned (Fees.validate_eq_ok.mp hfees) hlin hp h hlog hsafe
    · exact fee_counts_of_minted_le (Fees.validate_eq_ok.mp hfees) hlin hp h hlog hok hsupply hk
        hle

/-- A hundred tokens B at a price of one, with two fees of one in a hundred, at two thousand
pool tokens a unit. -/
theorem withdrawal_pays_owner_fee_hundred :
    (∃ half pre adjusted : U128, half.toNat = (100 : ℕ) ⌈/⌉ (2 : ℕ) ∧
      Fees.preTradingFeeAmount ⟨1#64, 100#64, 1#64, 100#64, 0#64, 0#64, 0#64, 0#64⟩ half =
        some pre ∧
      adjusted.toNat = 100 - half.toNat + pre.toNat ∧
      @Calculator.withdrawSingleTokenTypeExactOut SplMath.reference
          (.constantPrice ⟨1000000000000000000000000000#128⟩) adjusted 1000#128 1000#128
          4000000#128 .bToA .ceiling none =
        .ok 204000#128 ∧
      100 + 1 ≤ adjusted.toNat) ∧
    1998 ≤ 204000 ∧
    FeeCountsForLess ⟨1#64, 100#64, 1#64, 100#64, 0#64, 0#64, 0#64, 0#64⟩ ray
      ⟨1000#64, 1000#64, 4000000#64⟩ .bToA 100 :=
  have hpaid := @withdrawal_pays_owner_fee SplMath.reference
  have hminted := hpaid.2 ⟨.constantPrice, .constantPrice ⟨1000000000000000000000000000#128⟩⟩
    ⟨1#64, 100#64, 1#64, 100#64, 0#64, 0#64, 0#64, 0#64⟩ none ⟨1000#64, 1000#64, 4000000#64⟩
    ⟨1000#64, 900#64, 3797998#64⟩ ⟨0#256, true, none⟩ .bToA 1#256 ⟨100#64, 204000#64⟩
    [.mintTo 0#256 1998#64, .burn 1#256 204000#64, .payOut .b 100#64] _ trivial rfl (by decide)
    (by decide +kernel) (by decide +kernel)
  ⟨hpaid.1 ⟨.constantPrice, .constantPrice ⟨1000000000000000000000000000#128⟩⟩
      ⟨1#64, 100#64, 1#64, 100#64, 0#64, 0#64, 0#64, 0#64⟩ 100#128 1000#128 1000#128 4000000#128
      .bToA none ⟨204000#128, 1#128⟩ (by decide) (by decide) (by decide +kernel),
    hminted.1 (Or.inr (by decide +kernel)),
    hminted.2 2000 rfl (by decide +kernel) (by decide +kernel) (by decide)⟩

/-- One of eleven tokens B, at a price of 0.55 and an owner fee of nine tenths. The charge is
worth 5.5 units and burns for 5 of 7; what is left without the fee is worth 1.55 and counts
as one, and the fee of 4.95 as four. For 500 million pool tokens burned, 800 million are
minted. -/
theorem withdrawal_may_mint_more :
    ¬ ∀ [SplMath] (curve : SwapCurve) (fees : Fees) (ts : Option U128) (s s' : Balances)
      (accounts : FeeAccounts) (dir : TradeDirection) (source : Pubkey)
      (instruction : WithdrawSingleTokenTypeExactAmountOut) (log : List PoolEffect),
      fees.validate = .ok () → 1 ≤ instruction.destinationTokenAmount.toNat →
      (withdrawSingleTokenTypeExactAmountOut curve fees ts s accounts dir source
        instruction).Returns log () →
      performAll PoolEffect.apply log s = .ok s' → total minted log ≤ total burned log := by
  intro hall
  have hcovered := @hall SplMath.reference
    ⟨.constantPrice, .constantPrice ⟨550000000000000000000000000#128⟩⟩
    ⟨0#64, 0#64, 9#64, 10#64, 0#64, 0#64, 0#64, 0#64⟩ none ⟨1#64, 11#64, 700000000#64⟩
    ⟨1#64, 10#64, 1000000000#64⟩ ⟨0#256, true, none⟩ .bToA 1#256 ⟨1#64, 500000000#64⟩
    [.mintTo 0#256 800000000#64, .burn 1#256 500000000#64, .payOut .b 1#64] (by decide)
    (by decide) (by decide +kernel) (by decide +kernel)
  exact absurd hcovered (by decide)

end Amounts

end SolanaPsm
