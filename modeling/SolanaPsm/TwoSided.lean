import SolanaPsm.Movement

/-!
# When two-sided operations go through

The proportional amounts of the linear curves are computed in 256 bits, where no product
overflows, and never ask for a price. `Linear.poolTokensToTradingTokens_eq_ok` says exactly
when they exist: rounded down, whenever there is a supply; rounded up, when each share is
worth at least one token, since the ceiling division has no result below that.

A deposit rounds up, so an empty side stops it (`Calculator.deposit_shares_iff`), although
the share of an empty side is nothing. A withdrawal rounds down, so it always goes through
(`Amounts.withdrawal_never_blocked`): its fee is never more than the pool tokens given, and
the truncated share of what is left is never more than the reserve.
-/

namespace SolanaPsm

open Linear PoolEffect Script

/-! ## Deposits -/

namespace Calculator

/-- A linear curve gives both shares, rounded up, for a deposit into reserves of which the
non-empty sides have a share of at least one token, exactly when no side is empty (and both
shares fit in 128 bits, as those for 64-bit amounts do). -/
theorem deposit_shares_iff [SplMath] {calculator : Calculator} (hlin : calculator.IsLinear)
    {t S : U128} {a b : U64} (hS : 0 < S.toNat) (ha : a ≠ 0#64 → S.toNat ≤ t.toNat * a.toNat)
    (hb : b ≠ 0#64 → S.toNat ≤ t.toNat * b.toNat) :
    (∃ r, calculator.poolTokensToTradingTokens t S (a.widen 128) (b.widen 128) .ceiling = .ok r ∧
      r.tokenAAmount.toNat = t.toNat * a.toNat ⌈/⌉ S.toNat ∧
      r.tokenBAmount.toNat = t.toNat * b.toNat ⌈/⌉ S.toNat) ↔
    (a ≠ 0#64 ∧ b ≠ 0#64) ∧
      t.toNat * a.toNat ⌈/⌉ S.toNat < 2 ^ 128 ∧ t.toNat * b.toNat ⌈/⌉ S.toNat < 2 ^ 128 := by
  simp only [hlin.poolTokensToTradingTokens, Linear.poolTokensToTradingTokens_eq_ok,
    U64.toNat_widen, Linear.ShareDefined]
  refine ⟨?_, ?_⟩
  · rintro ⟨r, ⟨hquotA, hquotB, -⟩, hra, hrb⟩
    refine ⟨⟨?_, ?_⟩, hra ▸ r.tokenAAmount.isLt, hrb ▸ r.tokenBAmount.isLt⟩
    · -- an empty side has no quotient
      rintro rfl
      exact hquotA (by rw [BitVec.toNat_zero, Nat.mul_zero, Nat.zero_div])
    · rintro rfl
      exact hquotB (by rw [BitVec.toNat_zero, Nat.mul_zero, Nat.zero_div])
  · rintro ⟨⟨hA, hB⟩, hfitA, hfitB⟩
    obtain ⟨ra, hra⟩ := BitVec.exists_toNat_eq hfitA
    obtain ⟨rb, hrb⟩ := BitVec.exists_toNat_eq hfitB
    have hquotA : t.toNat * a.toNat / S.toNat ≠ 0 := (Nat.div_pos (ha hA) hS).ne'
    have hquotB : t.toNat * b.toNat / S.toNat ≠ 0 := (Nat.div_pos (hb hB) hS).ne'
    exact ⟨⟨ra, rb⟩, ⟨hquotA, hquotB, hra, hrb⟩, hra, hrb⟩

/-- Three of ten pool tokens, for reserves of seven and twenty tokens. -/
theorem deposit_shares_iff_three :
    (∃ r, @Calculator.poolTokensToTradingTokens SplMath.reference (.constantPrice ⟨RAY⟩) 3#128
        10#128 ((7#64).widen 128) ((20#64).widen 128) .ceiling = .ok r ∧
      r.tokenAAmount.toNat = (3 : ℕ) * 7 ⌈/⌉ (10 : ℕ) ∧
      r.tokenBAmount.toNat = (3 : ℕ) * 20 ⌈/⌉ (10 : ℕ)) ↔
    (7#64 ≠ 0#64 ∧ 20#64 ≠ 0#64) ∧
      (3 : ℕ) * 7 ⌈/⌉ (10 : ℕ) < 2 ^ 128 ∧ (3 : ℕ) * 20 ⌈/⌉ (10 : ℕ) < 2 ^ 128 :=
  @deposit_shares_iff SplMath.reference (.constantPrice ⟨RAY⟩) trivial 3#128 10#128 7#64 20#64
    (by decide) (fun _ => by decide) (fun _ => by decide)

/-- A pool with a hundred tokens A and no token B, as `Initialize` admits it, takes no
two-sided deposit. -/
theorem deposit_fails_on_empty_side :
    ¬ ∀ [SplMath] (calculator : Calculator) (t S : U128) (a b : U64), calculator.IsLinear →
      0 < S.toNat → a ≠ 0#64 ∨ b ≠ 0#64 → (a ≠ 0#64 → S.toNat ≤ t.toNat * a.toNat) →
      (b ≠ 0#64 → S.toNat ≤ t.toNat * b.toNat) →
      ∃ r, calculator.poolTokensToTradingTokens t S (a.widen 128) (b.widen 128) .ceiling = .ok r ∧
        r.tokenAAmount.toNat = t.toNat * a.toNat ⌈/⌉ S.toNat ∧
        r.tokenBAmount.toNat = t.toNat * b.toNat ⌈/⌉ S.toNat := by
  intro h
  obtain ⟨r, hr, -⟩ := @h SplMath.reference (.constantPrice ⟨RAY⟩) 1#128 10#128 100#64 0#64
    trivial (by decide) (Or.inl (by decide)) (by decide) (by decide)
  have hnone : @Calculator.poolTokensToTradingTokens SplMath.reference (.constantPrice ⟨RAY⟩)
      1#128 10#128 ((100#64).widen 128) ((0#64).widen 128) .ceiling = .err () := by decide +kernel
  rw [hnone] at hr
  cases hr

end Calculator

/-! ## Withdrawals -/

/-- The token program accepts a call that takes no more than there is, and brings nothing. -/
theorem PoolEffect.apply_total {e : PoolEffect} {s : Balances}
    (hreceived : ∀ token, e.received token = 0) (hminted : e.minted = 0)
    (hpaid : ∀ token, e.paid token ≤ s.reserves token) (hburned : e.burned ≤ s.supply.toNat) :
    ∃ s', e.apply s = .ok s' := by
  cases e with
  | unpackMint | unpackHostFeeAccount | transferPool => exact ⟨s, rfl⟩
  | payIn t amount =>
    have hzero : amount.toNat = 0 := (if_pos rfl).symm.trans (hreceived t)
    have hadd : (s.reserve t).checkedAdd amount = some (s.reserve t) := by
      rw [BitVec.checkedAdd_eq_some, hzero, Nat.add_zero]
    rw [apply, hadd]
    exact ⟨_, rfl⟩
  | payOut t amount =>
    have hle : amount.toNat ≤ (s.reserve t).toNat := (if_pos rfl).symm.trans_le (hpaid t)
    obtain ⟨x, hx⟩ := BitVec.exists_toNat_eq ((Nat.sub_le _ amount.toNat).trans_lt
      (s.reserve t).isLt)
    rw [apply, BitVec.checkedSub_eq_some.mpr ⟨hle, hx⟩]
    exact ⟨_, rfl⟩
  | mintTo account amount =>
    have hzero : amount.toNat = 0 := hminted
    have hadd : s.supply.checkedAdd amount = some s.supply := by
      rw [BitVec.checkedAdd_eq_some, hzero, Nat.add_zero]
    rw [apply, hadd]
    exact ⟨_, rfl⟩
  | burn account amount =>
    obtain ⟨x, hx⟩ := BitVec.exists_toNat_eq ((Nat.sub_le _ amount.toNat).trans_lt s.supply.isLt)
    rw [apply, BitVec.checkedSub_eq_some.mpr ⟨hburned, hx⟩]
    exact ⟨_, rfl⟩

/-- The token program accepts calls that together take no more than there is, when they
bring nothing. -/
theorem performAll_total {log : List PoolEffect} {s : Balances}
    (hreceived : ∀ token, total (received token) log = 0) (hminted : total minted log = 0)
    (hpaid : ∀ token, total (paid token) log ≤ s.reserves token)
    (hburned : total burned log ≤ s.supply.toNat) :
    ∃ s', performAll PoolEffect.apply log s = .ok s' := by
  induction log generalizing s with
  | nil => exact ⟨s, rfl⟩
  | cons e log ih =>
    simp only [total_cons, Nat.add_eq_zero_iff] at hreceived hminted hpaid hburned
    obtain ⟨u, hu⟩ := PoolEffect.apply_total (fun token => (hreceived token).1) hminted.1
      (fun token => (Nat.le_add_right _ _).trans (hpaid token))
      ((Nat.le_add_right _ _).trans hburned)
    obtain ⟨hreserves, hsupply⟩ := PoolEffect.apply_eq_ok hu
    have hrest : ∀ token, total (paid token) log ≤ u.reserves token := by
      intro token
      have := hreserves token
      have := hpaid token
      omega
    obtain ⟨s', hs'⟩ := ih (s := u) (fun token => (hreceived token).2) hminted.2 hrest (by omega)
    exact ⟨s', Outcome.bind_eq_ok.mpr ⟨u, hu, hs'⟩⟩

namespace Amounts

section Withdrawals

variable {fees : Fees} {accounts : FeeAccounts}

/-- The withdraw fee is always computed, and at most the amount. -/
theorem withdrawFee_total (hv : fees.Valid) (source : Pubkey) (x : U64) :
    ∃ fee, (withdrawFee fees accounts source (x.widen 128)).Returns [] fee ∧
      fee.toNat ≤ x.toNat := by
  rw [withdrawFee]
  split
  · split
    · exact ⟨0#128, returns_pure.mpr ⟨rfl, rfl⟩, Nat.zero_le _⟩
    · obtain ⟨fee, hfee, hle⟩ := hv.exists_ownerWithdrawFee x
      exact ⟨fee, returns_lift.mpr ⟨rfl, Outcome.ofOption_eq_ok.mpr hfee⟩, hle⟩
  · exact ⟨0#128, returns_pure.mpr ⟨rfl, rfl⟩, Nat.zero_le _⟩

/-- A withdraw fee of 64 bits is paid. -/
theorem payWithdrawFee_total {fee : U128} (h : fee.toNat < 2 ^ 64) (source : Pubkey) :
    ∃ log, (payWithdrawFee accounts source fee).Returns log () := by
  rw [payWithdrawFee]
  split
  · obtain ⟨x, hx⟩ := BitVec.exists_toNat_eq h
    exact ⟨_, returns_lift_bind.mpr ⟨x, toU64_eq_ok.mpr hx, returns_emit.mpr rfl⟩⟩
  · exact ⟨[], returns_pure.mpr ⟨rfl, rfl⟩⟩

/-- A payment goes through. -/
theorem payOutPositive_total (token : PoolToken) (amount : U64) :
    ∃ log, (payOutPositive token amount).Returns log () := by
  rw [payOutPositive]
  split
  · exact ⟨_, returns_emit.mpr rfl⟩
  · exact ⟨[], returns_pure.mpr ⟨rfl, rfl⟩⟩

/-- The truncated shares of at most the whole supply are amounts of the token program. -/
theorem exists_withdrawnAmounts [SplMath] {t S a b : U64} (hS : 0 < S.toNat)
    (ht : t.toNat ≤ S.toNat) : ∃ xa xb : U64,
    poolTokensToTradingTokens (t.widen 128) (S.widen 128) (a.widen 128) (b.widen 128) .floor =
      .ok ⟨xa.widen 128, xb.widen 128⟩ := by
  have hshare : ∀ x : U64, shareOf t.toNat S.toNat x.toNat .floor < 2 ^ 64 := by
    intro x
    have hle : t.toNat * x.toNat / S.toNat ≤ x.toNat :=
      Nat.div_le_of_le_mul (Nat.mul_le_mul_right _ ht)
    exact hle.trans_lt x.isLt
  obtain ⟨xa, hxa⟩ := BitVec.exists_toNat_eq (hshare a)
  obtain ⟨xb, hxb⟩ := BitVec.exists_toNat_eq (hshare b)
  refine ⟨xa, xb, ?_⟩
  rw [poolTokensToTradingTokens_eq_ok]
  simp only [U64.toNat_widen]
  exact ⟨hS, hS, hxa, hxb⟩

/-- The script of a two-sided withdrawal without minimum amounts always returns, and burns
all pool tokens but the fee. -/
theorem withdrawAllTokenTypes_total [SplMath] {curve : SwapCurve}
    (hlin : curve.calculator.IsLinear) (hwf : curve.WellFormed) {s : Balances} {t : U64}
    (hS : 0 < s.supply.toNat) (ht : t.toNat ≤ s.supply.toNat) {source : Pubkey} {fee : U128}
    (hfee : (withdrawFee fees accounts source (t.widen 128)).Returns [] fee)
    (hle : fee.toNat ≤ t.toNat) :
    ∃ log, (withdrawAllTokenTypes curve fees s accounts source ⟨t, 0#64, 0#64⟩).Returns log () ∧
      total burned log = t.toNat - fee.toNat := by
  obtain ⟨burn, hburn⟩ := BitVec.exists_toNat_eq ((Nat.sub_le t.toNat fee.toNat).trans_lt t.isLt)
  obtain ⟨xa, xb, hresults⟩ := exists_withdrawnAmounts (t := burn) (S := s.supply)
    (a := s.tokenA) (b := s.tokenB) hS (by omega)
  obtain ⟨logFee, hlogFee⟩ := @payWithdrawFee_total accounts fee (by omega) source
  obtain ⟨logA, hlogA⟩ := payOutPositive_total .a (s.tokenA.minimum xa)
  obtain ⟨logB, hlogB⟩ := payOutPositive_total .b (s.tokenB.minimum xb)
  have htype : curve.curveType ≠ .constantProduct := by
    rw [hwf]
    exact hlin.curveType_ne
  refine ⟨logFee ++ .burn source burn :: (logA ++ logB), ?_, ?_⟩
  · rw [withdrawAllTokenTypes, returns_bind]
    refine ⟨fee, [], _, hfee, ?_, rfl⟩
    simp only [returns_require_bind, returns_compute_bind, returns_lift_bind, returns_reject_bind,
      toU64_eq_ok, BitVec.checkedSub_eq_some, U64.toNat_widen, hlin.poolTokensToTradingTokens]
    refine ⟨burn.widen 128, ⟨hle, by rw [U64.toNat_widen, hburn]⟩, _, hresults, xa,
      (U64.toNat_widen xa).symm, ?_, xb, (U64.toNat_widen xb).symm, ?_, ?_, ?_, ?_⟩
    · exact Nat.not_lt_zero _
    · exact Nat.not_lt_zero _
    · exact fun h => htype h.1
    · exact fun h => htype h.1
    · refine returns_bind.mpr ⟨(), logFee, _, hlogFee, ?_, rfl⟩
      simp only [returns_lift_bind, returns_emit_bind, toU64_eq_ok, U64.toNat_widen]
      exact ⟨burn, rfl, _, returns_bind.mpr ⟨(), logA, logB, hlogA, hlogB, rfl⟩, rfl⟩
  · simp only [total_append, total_cons, (payWithdrawFee_returns hlogFee).2.2.2,
      (payOutPositive_returns hlogA).2.2.2, (payOutPositive_returns hlogB).2.2.2, burned,
      Nat.zero_add, Nat.add_zero, hburn]

/-- Funds can always be withdrawn proportionally: whatever the rates of a linear curve and
whatever the fee accounts, the amounts are computed, the fee is at most the pool tokens
given, the truncated share of the rest is paid of either token, which is no more than there is,
and the token program accepts it. -/
theorem withdrawal_never_blocked [SplMath] {curve : SwapCurve}
    (hlin : curve.calculator.IsLinear) (hwf : curve.WellFormed) (hfees : fees.validate = .ok ())
    (accounts : FeeAccounts) (source : Pubkey) {s : Balances} {t : U64} (hS : 0 < s.supply.toNat)
    (ht : t ≤ s.supply) :
    ∃ fee log s', (withdrawFee fees accounts source (t.widen 128)).Returns [] fee ∧
      fee.toNat ≤ t.toNat ∧
      (withdrawAllTokenTypes curve fees s accounts source ⟨t, 0#64, 0#64⟩).Returns log () ∧
      (∀ token, total (paid token) log ≤ s.reserves token ∧ total (paid token) log =
        (t.toNat - fee.toNat) * s.reserves token / s.supply.toNat) ∧
      total burned log = t.toNat - fee.toNat ∧
      performAll PoolEffect.apply log s = .ok s' := by
  have hv := Fees.validate_eq_ok.mp hfees
  rw [BitVec.le_def] at ht
  obtain ⟨fee, hfee, hle⟩ := @withdrawFee_total fees accounts hv source t
  obtain ⟨log, hscript, hburned⟩ := withdrawAllTokenTypes_total hlin hwf hS ht hfee hle
  obtain ⟨-, hreceived, hminted, hpaid⟩ :=
    withdrawAllTokenTypes_returns hlin.allowsDeposits hscript
  have hcapped : ∀ token, total (paid token) log ≤ s.reserves token := by
    intro token
    rw [hpaid]
    exact min_le_left _ _
  -- no more than the supply is burned, so the cap of the payments is never met
  have hshare : ∀ token, total (paid token) log =
      (t.toNat - fee.toNat) * s.reserves token / s.supply.toNat := by
    intro token
    have hfits : (t.toNat - fee.toNat) * s.reserves token / s.supply.toNat ≤ s.reserves token :=
      Nat.div_le_of_le_mul (Nat.mul_le_mul_right _ ((Nat.sub_le _ _).trans ht))
    rw [hpaid, hburned]
    exact min_eq_right hfits
  obtain ⟨s', hs'⟩ := performAll_total hreceived hminted hcapped (by omega)
  exact ⟨fee, log, s', hfee, hle, hscript, fun token => ⟨hcapped token, hshare token⟩, hburned, hs'⟩

end Withdrawals

/-- Nine of ten pool tokens from a pool whose accumulated rate is zero and dated in the
future, at a withdraw fee of one in three. -/
theorem withdrawal_never_blocked_nine :
    ∃ fee log s', (withdrawFee ⟨0#64, 0#64, 0#64, 0#64, 1#64, 3#64, 0#64, 0#64⟩
        ⟨0#256, true, none⟩ 1#256 ((9#64).widen 128)).Returns [] fee ∧
      fee.toNat ≤ (9#64).toNat ∧
      (@withdrawAllTokenTypes SplMath.reference
        ⟨.redemptionRateCurve, .redemptionRate ⟨0#128, RAY, BitVec.allOnes 128, 0#128⟩⟩
        ⟨0#64, 0#64, 0#64, 0#64, 1#64, 3#64, 0#64, 0#64⟩ ⟨7#64, 0#64, 10#64⟩ ⟨0#256, true, none⟩
        1#256 ⟨9#64, 0#64, 0#64⟩).Returns log () ∧
      (∀ token, total (paid token) log ≤ (⟨7#64, 0#64, 10#64⟩ : Balances).reserves token ∧
        total (paid token) log =
          ((9#64).toNat - fee.toNat) * (⟨7#64, 0#64, 10#64⟩ : Balances).reserves token /
            (10#64).toNat) ∧
      total burned log = (9#64).toNat - fee.toNat ∧
      performAll PoolEffect.apply log (⟨7#64, 0#64, 10#64⟩ : Balances) = .ok s' :=
  @withdrawal_never_blocked ⟨0#64, 0#64, 0#64, 0#64, 1#64, 3#64, 0#64, 0#64⟩ SplMath.reference
    ⟨.redemptionRateCurve, .redemptionRate ⟨0#128, RAY, BitVec.allOnes 128, 0#128⟩⟩ trivial rfl
    (by decide) ⟨0#256, true, none⟩ 1#256 ⟨7#64, 0#64, 10#64⟩ 9#64 (by decide) (by decide)

end Amounts

end SolanaPsm
