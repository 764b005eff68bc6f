import SolanaPsm.Fund
import SolanaPsm.Movement
import SolanaPsm.SwapCharge

/-!
# Value laws of single operations

What one operation does to the value of a pool, at the exact price.

A swap on a linear curve leaves the value up by the fees and by less than one unit of
token A. A single-sided deposit or withdrawal takes its ratio between truncated values;
whether the pool tokens are worth the deposit or the withdrawal depends on what the
truncation drops (`givenDust`, `Reserves.dust`). `WithdrawsFairly` and `DepositsFairly`
compare what is dropped, relative to the exact values: where they hold, the law of the
operation holds at every supply, and where they fail, it fails at some supply. The
two-sided operations take the same share of both reserves, so no price appears.
-/

namespace SolanaPsm

open Linear PoolEffect

namespace Reserves

/-- Reserves of `a` units of token A and `b` units of token B. -/
def of (a b : ℕ) : Reserves
  | .a => a
  | .b => b

/-- Reserves of `source` and `destination` units of the tokens a trade takes and gives. -/
def ofSides (source destination : ℕ) : TradeDirection → Reserves
  | .aToB => of source destination
  | .bToA => of destination source

theorem value_ofSides (p source destination : ℕ) (dir : TradeDirection) :
    (ofSides source destination dir).value p =
      source * unitValue p dir.source + destination * unitValue p dir.destination := by
  cases dir with
  | aToB => rfl
  | bToA => exact Nat.add_comm _ _

/-- What the truncation drops from the value. -/
def dust (p : ℕ) (r : Reserves) : ℕ := r.value p % ray

theorem truncated_mul_add_dust (p : ℕ) (r : Reserves) :
    r.truncated p * ray + r.dust p = r.value p := by
  have hdiv : r.value p / ray = r.truncated p := by
    rw [value, truncated, totalValue, Nat.mul_comm, Nat.mul_add_div ray_pos, Nat.add_comm]
  rw [dust, ← hdiv, Nat.div_add_mod']

/-- Reserves worth a unit of token A have a truncated value, and no others. -/
theorem truncated_pos_iff {p : ℕ} {r : Reserves} : 0 < r.truncated p ↔ ray ≤ r.value p := by
  have hvalue := r.truncated_mul_add_dust p
  have hdust : r.dust p < ray := Nat.mod_lt _ ray_pos
  refine ⟨fun hT => ?_, fun hV => Nat.pos_of_ne_zero fun h0 => ?_⟩
  · have := Nat.le_mul_of_pos_left ray hT
    omega
  · rw [h0, Nat.zero_mul] at hvalue
    omega

end Reserves

namespace Linear

/-- What the truncation drops from the value of `x` units. -/
def givenDust (p x : ℕ) (dir : TradeDirection) : ℕ := x * unitValue p dir.source % ray

theorem givenValue_mul_add_dust (p x : ℕ) (dir : TradeDirection) :
    givenValue p x dir * ray + givenDust p x dir = x * unitValue p dir.source := by
  cases dir with
  | aToB =>
    rw [givenDust]
    exact Nat.add_eq_left.mpr (Nat.mul_mod_left x ray)
  | bToA => exact Nat.div_add_mod' _ _

/-- Units of token A are worth whole units of token A. -/
@[simp] theorem givenDust_aToB (p x : ℕ) : givenDust p x .aToB = 0 := Nat.mul_mod_left x ray

/-- What is used of the source exceeds what it buys by less than one unit of token A. -/
theorem usedAmount_value_lt (p s : ℕ) (dir : TradeDirection) :
    usedAmount p s dir * unitValue p dir.source <
      boughtAmount p s dir * unitValue p dir.destination + ray := by
  cases dir with
  | aToB => exact ceilDiv_mul_lt ray_pos _
  | bToA => exact Nat.lt_div_mul_add ray_pos

end Linear

/-! ## Swaps -/

namespace SwapCurve

/-- A swap never costs the pool value, and never overcharges by a unit of token A: the value
rises by the fees and by less than one unit. -/
theorem swap_value_bounds [SplMath] {curve : SwapCurve} (hlin : curve.calculator.IsLinear)
    {fees : Fees} {s x y : U128} {dir : TradeDirection} {ts : Option U128} {p : U256}
    {r : SwapResult} (hp : curve.calculator.tokenBPrice ts = .ok p)
    (h : curve.swap s x y dir fees ts = .ok r) :
    (Reserves.ofSides x.toNat y.toNat dir).value p.toNat +
        (r.tradeFee.toNat + r.ownerFee.toNat) * unitValue p.toNat dir.source ≤
      (Reserves.ofSides r.newSwapSourceAmount.toNat r.newSwapDestinationAmount.toNat dir).value
        p.toNat ∧
    (Reserves.ofSides r.newSwapSourceAmount.toNat r.newSwapDestinationAmount.toNat dir).value
        p.toNat <
      (Reserves.ofSides x.toNat y.toNat dir).value p.toNat +
        (r.tradeFee.toNat + r.ownerFee.toNat) * unitValue p.toNat dir.source + ray := by
  obtain ⟨p', base, hp', hcharged, hbought, -, -, hx, hle, hy⟩ := swap_linear_eq_ok hlin h
  obtain rfl := Outcome.ok.inj (hp.symm.trans hp')
  have hsource := hcharged.source
  rw [← hcharged.tradeFee, ← hcharged.ownerFee, Nat.add_assoc] at hsource
  have hlower := boughtAmount_value_le p.toNat (s.toNat - fees.totalFee s.toNat) dir
  have hupper := usedAmount_value_lt p.toNat (s.toNat - fees.totalFee s.toNat) dir
  rw [← hbought] at hlower hupper
  have hrest : (y.toNat - r.destinationAmountSwapped.toNat) * unitValue p.toNat dir.destination +
      r.destinationAmountSwapped.toNat * unitValue p.toNat dir.destination =
        y.toNat * unitValue p.toNat dir.destination := by
    rw [← Nat.add_mul, Nat.sub_add_cancel hle]
  rw [Reserves.value_ofSides, Reserves.value_ofSides, hx, hy, hsource]
  simp only [Nat.add_mul]
  omega

/-- Twelve units of token A with a fee of one in ten buy seven of token B at one and a half,
and are charged half a unit of token A for rounding. -/
theorem swap_value_bounds_twelve :
    100 * ray + 100 * (3 * (ray / 2)) + (1 + 0) * ray ≤ 112 * ray + 93 * (3 * (ray / 2)) ∧
    112 * ray + 93 * (3 * (ray / 2)) <
      100 * ray + 100 * (3 * (ray / 2)) + (1 + 0) * ray + ray :=
  @swap_value_bounds SplMath.reference
    ⟨.constantPrice, .constantPrice ⟨1500000000000000000000000000#128⟩⟩ trivial
    ⟨1#64, 10#64, 0#64, 0#64, 0#64, 0#64, 0#64, 0#64⟩ 12#128 100#128 100#128 .aToB none
    1500000000000000000000000000#256 ⟨112#128, 93#128, 12#128, 7#128, 1#128, 0#128⟩ rfl
    (by decide +kernel)

end SwapCurve

/-! ## Single-sided deposits and withdrawals -/

namespace Linear

/-- An amount worth a unit of token A has a truncated value, and no other. -/
theorem givenValue_pos_iff {p x : ℕ} {dir : TradeDirection} :
    0 < givenValue p x dir ↔ ray ≤ x * unitValue p dir.source := by
  have hvalue := givenValue_mul_add_dust p x dir
  have hdust : givenDust p x dir < ray := Nat.mod_lt _ ray_pos
  refine ⟨fun hg => ?_, fun hy => Nat.pos_of_ne_zero fun h0 => ?_⟩
  · have := Nat.le_mul_of_pos_left ray hg
    omega
  · rw [h0, Nat.zero_mul] at hvalue
    omega

/-- At a supply of one pool token for each unit of the truncated value, nothing is rounded:
the pool tokens for `x` units are their truncated value. -/
theorem exists_tradingTokensToPoolTokens [SplMath] {p : U256} {x a b S : U128}
    {dir : TradeDirection} (rd : RoundDirection)
    (hgiven : x.toNat * unitValue p.toNat dir.source < 2 ^ 128 * ray)
    (hvalue : b.toNat * p.toNat < 2 ^ 128 * ray)
    (hS : S.toNat = totalValue p.toNat a.toNat b.toNat) (hpos : 0 < S.toNat)
    (hceiling : rd = .ceiling → 0 < givenValue p.toNat x.toNat dir) :
    ∃ m, tradingTokensToPoolTokens p x a b S dir rd = .ok m ∧
      m.toNat = givenValue p.toNat x.toNat dir := by
  have hwide : 2 ^ 128 * ray < 2 ^ 256 := by decide
  have hfits : givenValue p.toNat x.toNat dir < 2 ^ 128 := by
    cases dir with
    | aToB => exact x.isLt
    | bToA => exact Nat.div_lt_of_lt_mul (by rwa [Nat.mul_comm ray])
  obtain ⟨m, hm⟩ := BitVec.exists_toNat_eq hfits
  obtain ⟨g, hg⟩ : ∃ g : U256, g.toNat = givenValue p.toNat x.toNat dir :=
    BitVec.exists_toNat_eq (hfits.trans (by decide))
  obtain ⟨v, hv⟩ := BitVec.exists_toNat_eq (hvalue.trans hwide)
  obtain ⟨q, hq⟩ := BitVec.exists_toNat_eq ((Nat.div_le_self v.toNat ray).trans_lt v.isLt)
  obtain ⟨T, hT⟩ : ∃ T : U256, T.toNat = S.toNat :=
    BitVec.exists_toNat_eq (S.isLt.trans (by decide))
  obtain ⟨share, hshare⟩ : ∃ share : U256, share.toNat = S.toNat * m.toNat :=
    BitVec.exists_toNat_eq BitVec.toNat_mul_toNat_lt
  have hquot : share.toNat / T.toNat = g.toNat := by
    rw [hshare, hT, hm, hg, Nat.mul_div_cancel_left _ hpos]
  simp only [tradingTokensToPoolTokens, Outcome.bind_eq_ok, Calc.liftM_eq_ok,
    BitVec.checkedMul_eq_some, BitVec.checkedDiv_eq_some, BitVec.checkedAdd_eq_some,
    U128.toNat_widen, toNat_RAY]
  refine ⟨m, ⟨g, ?_, v, hv, q, ⟨ray_pos, hq⟩, T, ?_, share, by rw [hshare, hm, hg], ?_⟩, hm⟩
  · cases dir with
    | aToB =>
      refine Calc.liftM_eq_ok.mpr (congrArg some (BitVec.eq_of_toNat_eq ?_))
      rw [hg, U128.toNat_widen]
      rfl
    | bToA =>
      obtain ⟨y, hy⟩ := BitVec.exists_toNat_eq (hgiven.trans hwide)
      simp only [Outcome.bind_eq_ok, Calc.liftM_eq_ok, BitVec.checkedMul_eq_some,
        BitVec.checkedDiv_eq_some, U128.toNat_widen, toNat_RAY]
      refine ⟨y, hy, ray_pos, ?_⟩
      rw [hg, hy]
      rfl
  · rw [hT, hS, hq, hv]
    rfl
  · cases rd with
    | floor =>
      simp only [Outcome.bind_eq_ok, Calc.liftM_eq_ok, BitVec.checkedDiv_eq_some,
        BitVec.narrowOrPanic_eq_ok]
      exact ⟨g, ⟨hT ▸ hpos, hquot.symm⟩, hm.trans hg.symm⟩
    | ceiling =>
      obtain ⟨c, r, hc, hceil⟩ := SplMath.u256CheckedCeilDiv_some share T
        (hquot ▸ hg ▸ (hceiling rfl).ne')
      simp only [Outcome.bind_eq_ok, Calc.liftM_eq_ok, BitVec.narrowOrPanic_eq_ok]
      refine ⟨(c, r), hc, ?_⟩
      rw [hceil, hshare, hT, ceilDiv_eq hpos, Nat.mul_mod_right, if_pos rfl,
        Nat.mul_div_cancel_left _ hpos]

end Linear

/-- The supply of one pool token for each unit of the truncated value. -/
theorem Reserves.exists_supply {p : ℕ} {r : Reserves} (h : r.value p < 2 ^ 128 * ray) :
    ∃ S : U128, S.toNat = r.truncated p :=
  BitVec.exists_toNat_eq
    (Nat.lt_of_mul_lt_mul_right ((r.truncated_mul_le p).trans_lt h))

/-! ### Withdrawals -/

/-- The truncation takes no larger a share of the value of the `x` units withdrawn than of
the value of the reserves `r`. An amount worth less than a unit of token A is refused. -/
def WithdrawsFairly (p : ℕ) (r : Reserves) (x : ℕ) (dir : TradeDirection) : Prop :=
  x * unitValue p dir.source < ray ∨
    givenDust p x dir * r.value p ≤ x * unitValue p dir.source * r.dust p

instance (p : ℕ) (r : Reserves) (x : ℕ) (dir : TradeDirection) :
    Decidable (WithdrawsFairly p r x dir) := inferInstanceAs (Decidable (_ ∨ _))

/-- Nothing is truncated off a withdrawal of whole units of value. -/
theorem withdrawsFairly_of_whole {p x : ℕ} {r : Reserves} {dir : TradeDirection}
    (h : givenDust p x dir = 0) : WithdrawsFairly p r x dir := by
  refine Or.inr ?_
  rw [h, Nat.zero_mul]
  exact Nat.zero_le _

/-- Every withdrawal of token A is one. -/
theorem withdrawsFairly_aToB (p x : ℕ) (r : Reserves) : WithdrawsFairly p r x .aToB :=
  withdrawsFairly_of_whole (givenDust_aToB p x)

namespace Calculator

section Single

variable [SplMath] {calculator : Calculator} {x a b : U128} {dir : TradeDirection}
  {ts : Option U128} {p : U256}

/-- The pool tokens burned for a single-sided withdrawal are worth at least what is
withdrawn, at every supply, where the truncation is fair; and only there, unless values are
too large for 128 bits. -/
theorem withdrawal_worth_iff (hlin : calculator.IsLinear)
    (hp : calculator.tokenBPrice ts = .ok p) :
    (WithdrawsFairly p.toNat (Reserves.of a.toNat b.toNat) x.toNat dir →
      ∀ S burn : U128,
        calculator.withdrawSingleTokenTypeExactOut x a b S dir .ceiling ts = .ok burn →
        S.toNat * (x.toNat * unitValue p.toNat dir.source) ≤
          burn.toNat * (Reserves.of a.toNat b.toNat).value p.toNat) ∧
    (x.toNat * unitValue p.toNat dir.source < 2 ^ 128 * ray →
      (Reserves.of a.toNat b.toNat).value p.toNat < 2 ^ 128 * ray →
      (∀ S burn : U128,
        calculator.withdrawSingleTokenTypeExactOut x a b S dir .ceiling ts = .ok burn →
        S.toNat * (x.toNat * unitValue p.toNat dir.source) ≤
          burn.toNat * (Reserves.of a.toNat b.toNat).value p.toNat) →
      WithdrawsFairly p.toNat (Reserves.of a.toNat b.toNat) x.toNat dir) := by
  have hratio := Fund.exact_ratio_le_iff ray_pos (givenValue_mul_add_dust p.toNat x.toNat dir)
    ((Reserves.of a.toNat b.toNat).truncated_mul_add_dust p.toNat)
  refine ⟨?_, ?_⟩
  · intro hfair S burn h
    rw [hlin.withdrawSingleTokenTypeExactOut, hp, Outcome.ok_bind] at h
    obtain ⟨hT, hquot, hburn⟩ := tradingTokensToPoolTokens_spec h
    have hgiven : 0 < givenValue p.toNat x.toNat dir := by
      refine Nat.pos_of_ne_zero fun h0 => ?_
      rw [h0, Nat.mul_zero, Nat.zero_div] at hquot
      exact absurd hquot (Nat.lt_irrefl 0)
    have hvalue := hratio.mpr
      (hfair.resolve_left (Nat.not_lt.mpr (givenValue_pos_iff.mp hgiven)))
    have hceil := (ceilDiv_le_iff_le_mul hT).mp hburn.ge
    rw [Nat.mul_comm S.toNat, Nat.mul_comm _ burn.toNat] at hceil
    rw [Nat.mul_comm S.toNat]
    exact Fund.ratio_trans hT hvalue hceil
  · intro hgiven hfits hlaw
    rcases Nat.lt_or_ge (x.toNat * unitValue p.toNat dir.source) ray with hsmall | hwhole
    · exact Or.inl hsmall
    refine Or.inr (hratio.mp ?_)
    obtain ⟨S, hS⟩ := Reserves.exists_supply hfits
    rcases Nat.eq_zero_or_pos S.toNat with h0 | hpos
    · rw [← hS, h0, Nat.mul_zero]
      exact Nat.zero_le _
    -- at this supply the pool tokens burned are exactly the truncated value
    obtain ⟨burn, hburn, hexact⟩ := exists_tradingTokensToPoolTokens .ceiling hgiven
      ((Nat.le_add_left _ _).trans_lt hfits) hS hpos fun _ => givenValue_pos_iff.mpr hwhole
    have hworth := hlaw S burn (by
      rw [hlin.withdrawSingleTokenTypeExactOut, hp, Outcome.ok_bind, hburn])
    rwa [hexact, hS, Nat.mul_comm] at hworth

end Single

/-- Seven units of token B out of a pool of one and nine, at one and three tenths: a tenth of
a unit is dropped from nine, seven tenths from twelve. -/
theorem withdrawal_worth_iff_seven :
    1000000000 * (7 * 1300000000000000000000000000) ≤
      750000000 * (1 * ray + 9 * 1300000000000000000000000000) :=
  (@withdrawal_worth_iff SplMath.reference
    (.constantPrice ⟨1300000000000000000000000000#128⟩) 7#128 1#128 9#128 .bToA none
    1300000000000000000000000000#256 trivial rfl).1 (by decide) 1000000000#128 750000000#128
    (by decide +kernel)

/-- At one and a half, half the pool tokens of a new pool withdraw its only unit of token B,
three fifths of its value. -/
theorem withdrawal_may_underburn :
    ¬ ∀ [SplMath] (calculator : Calculator) (x a b S : U128) (dir : TradeDirection)
      (ts : Option U128) (p : U256) (burn : U128), calculator.IsLinear →
      calculator.tokenBPrice ts = .ok p → 0 < p.toNat → 0 < S.toNat →
      calculator.withdrawSingleTokenTypeExactOut x a b S dir .ceiling ts = .ok burn →
      S.toNat * (x.toNat * unitValue p.toNat dir.source) ≤
        burn.toNat * (Reserves.of a.toNat b.toNat).value p.toNat := by
  intro h
  have hworth := @h SplMath.reference (.constantPrice ⟨1500000000000000000000000000#128⟩) 1#128
    1#128 1#128 1000000000#128 .bToA none 1500000000000000000000000000#256 500000000#128 trivial
    rfl (by decide) (by decide) (by decide +kernel)
  exact absurd hworth (by decide)

end Calculator

/-! ### Deposits -/

/-- The truncation takes no larger a share of the value of the reserves `r` than of the value
of the `x` units deposited. Into reserves worth less than a unit of token A no deposit is
made. -/
def DepositsFairly (p : ℕ) (r : Reserves) (x : ℕ) (dir : TradeDirection) : Prop :=
  r.value p < ray ∨
    x * unitValue p dir.source * r.dust p ≤ givenDust p x dir * r.value p

instance (p : ℕ) (r : Reserves) (x : ℕ) (dir : TradeDirection) :
    Decidable (DepositsFairly p r x dir) := inferInstanceAs (Decidable (_ ∨ _))

/-- Nothing is truncated off reserves of whole units of value. -/
theorem depositsFairly_of_whole {p x : ℕ} {r : Reserves} {dir : TradeDirection}
    (h : r.dust p = 0) : DepositsFairly p r x dir := by
  refine Or.inr ?_
  rw [h, Nat.mul_zero]
  exact Nat.zero_le _

namespace Calculator

section Single

variable [SplMath] {calculator : Calculator} {x a b : U128} {dir : TradeDirection}
  {ts : Option U128} {p : U256}

/-- The pool tokens minted for a single-sided deposit are worth at most what is deposited, at
every supply, where the truncation is fair; and only there, unless values are too large for
128 bits. -/
theorem deposit_worth_iff (hlin : calculator.IsLinear)
    (hp : calculator.tokenBPrice ts = .ok p) :
    (DepositsFairly p.toNat (Reserves.of a.toNat b.toNat) x.toNat dir →
      ∀ S m : U128, calculator.depositSingleTokenType x a b S dir ts = .ok m →
        m.toNat * (Reserves.of a.toNat b.toNat).value p.toNat ≤
          S.toNat * (x.toNat * unitValue p.toNat dir.source)) ∧
    (x.toNat * unitValue p.toNat dir.source < 2 ^ 128 * ray →
      (Reserves.of a.toNat b.toNat).value p.toNat < 2 ^ 128 * ray →
      (∀ S m : U128, calculator.depositSingleTokenType x a b S dir ts = .ok m →
        m.toNat * (Reserves.of a.toNat b.toNat).value p.toNat ≤
          S.toNat * (x.toNat * unitValue p.toNat dir.source)) →
      DepositsFairly p.toNat (Reserves.of a.toNat b.toNat) x.toNat dir) := by
  have hratio := Fund.truncated_ratio_le_iff ray_pos
    (givenValue_mul_add_dust p.toNat x.toNat dir)
    ((Reserves.of a.toNat b.toNat).truncated_mul_add_dust p.toNat)
  refine ⟨?_, ?_⟩
  · intro hfair S m h
    rw [hlin.depositSingleTokenType, hp, Outcome.ok_bind] at h
    obtain ⟨hT, hm⟩ := tradingTokensToPoolTokens_spec h
    have hvalue := hratio.mpr
      (hfair.resolve_left (Nat.not_lt.mpr (Reserves.truncated_pos_iff.mp hT)))
    have hfloor : m.toNat * totalValue p.toNat a.toNat b.toNat ≤
        givenValue p.toNat x.toNat dir * S.toNat := by
      rw [hm, Nat.mul_comm _ S.toNat]
      exact Nat.div_mul_le_self _ _
    rw [Nat.mul_comm S.toNat]
    exact Fund.ratio_trans hT hfloor hvalue
  · intro hgiven hfits hlaw
    rcases Nat.lt_or_ge ((Reserves.of a.toNat b.toNat).value p.toNat) ray with hsmall | hwhole
    · exact Or.inl hsmall
    refine Or.inr (hratio.mp ?_)
    obtain ⟨S, hS⟩ := Reserves.exists_supply hfits
    -- at this supply the pool tokens minted are exactly the truncated value
    obtain ⟨m, hm, hexact⟩ := exists_tradingTokensToPoolTokens .floor hgiven
      ((Nat.le_add_left _ _).trans_lt hfits) hS (hS ▸ Reserves.truncated_pos_iff.mpr hwhole)
      fun hround => nomatch hround
    have hworth := hlaw S m (by
      rw [hlin.depositSingleTokenType, hp, Outcome.ok_bind, hm])
    rwa [hexact, hS, Nat.mul_comm (Reserves.truncated _ _)] at hworth

end Single

/-- Nine units of token B into a pool of one and seven, at one and three tenths: seven tenths
of a unit are dropped from eleven, a tenth from ten. -/
theorem deposit_worth_iff_nine :
    1100000000 * (1 * ray + 7 * 1300000000000000000000000000) ≤
      1000000000 * (9 * 1300000000000000000000000000) :=
  (@deposit_worth_iff SplMath.reference
    (.constantPrice ⟨1300000000000000000000000000#128⟩) 9#128 1#128 7#128 .bToA none
    1300000000000000000000000000#256 trivial rfl).1 (by decide) 1000000000#128 1100000000#128
    (by decide +kernel)

/-- At one and a half, two units of token A double the pool tokens of a new pool that is
worth two and a half. -/
theorem deposit_may_overmint :
    ¬ ∀ [SplMath] (calculator : Calculator) (x a b S : U128) (dir : TradeDirection)
      (ts : Option U128) (p : U256) (m : U128), calculator.IsLinear →
      calculator.tokenBPrice ts = .ok p → 0 < p.toNat → 0 < S.toNat →
      calculator.depositSingleTokenType x a b S dir ts = .ok m →
      m.toNat * (Reserves.of a.toNat b.toNat).value p.toNat ≤
        S.toNat * (x.toNat * unitValue p.toNat dir.source) := by
  intro h
  have hworth := @h SplMath.reference (.constantPrice ⟨1500000000000000000000000000#128⟩) 2#128
    1#128 1#128 1000000000#128 .aToB none 1500000000000000000000000000#256 1000000000#128 trivial
    rfl (by decide) (by decide) (by decide +kernel)
  exact absurd hworth (by decide)

end Calculator

/-! ## Two-sided deposits and withdrawals -/

namespace Amounts

/-- Two-sided deposits and withdrawals never dilute the other holders of pool tokens, on
either token: neither reserve falls relative to the supply, and a deposit takes less than one
token more than its share. A deposit mints the pool tokens it names; a withdrawal burns those it
names but for the withdraw fee. -/
theorem two_sided_not_dilutive [SplMath] {curve : SwapCurve} (hwf : curve.WellFormed)
    (hdeposits : curve.calculator.allowsDeposits = true) :
    (∀ (s : Balances) (destination : Pubkey) (instruction : DepositAllTokenTypes)
      (log : List PoolEffect),
      (depositAllTokenTypes curve s destination instruction).Returns log () →
      total minted log = instruction.poolTokenAmount.toNat ∧ ∀ token,
        s.reserves token * (s.supply.toNat + total minted log) ≤
          (s.reserves token + total (received token) log) * s.supply.toNat ∧
        total (received token) log * s.supply.toNat <
          s.reserves token * total minted log + s.supply.toNat) ∧
    ∀ (fees : Fees) (s : Balances) (accounts : FeeAccounts) (source : Pubkey)
      (instruction : WithdrawAllTokenTypes) (log : List PoolEffect),
      (withdrawAllTokenTypes curve fees s accounts source instruction).Returns log () →
      (∃ fee,
        (withdrawFee fees accounts source (instruction.poolTokenAmount.widen 128)).Returns [] fee ∧
        total burned log + fee.toNat = instruction.poolTokenAmount.toNat) ∧
      ∀ token, total (paid token) log ≤ s.reserves token ∧
        s.reserves token * (s.supply.toNat - total burned log) ≤
          (s.reserves token - total (paid token) log) * s.supply.toNat := by
  refine ⟨?_, ?_⟩
  · intro s destination instruction log h
    have htype : curve.calculator = .constantProduct → curve.curveType = .constantProduct :=
      fun hproduct => hwf.trans (congrArg Calculator.curveType hproduct)
    obtain ⟨hS, -, hminted, -, hreceived⟩ := depositAllTokenTypes_returns hdeposits htype h
    refine ⟨hminted, fun token => ?_⟩
    have hshare := hreceived token
    rw [shareOf] at hshare
    have hlower := (ceilDiv_le_iff_le_mul hS).mp hshare.ge
    have hupper := ceilDiv_mul_lt hS (total minted log * s.reserves token)
    rw [← hshare, Nat.mul_comm _ (s.reserves token)] at hupper
    refine ⟨?_, hupper⟩
    rw [Nat.mul_comm, Nat.mul_comm s.supply.toNat] at hlower
    rw [Nat.mul_add, Nat.add_mul]
    exact Nat.add_le_add_left hlower _
  · intro fees s accounts source instruction log h
    obtain ⟨hgiven, -, -, hpaid⟩ := withdrawAllTokenTypes_returns hdeposits h
    refine ⟨hgiven, fun token => ?_⟩
    have hle : total (paid token) log ≤ s.reserves token := by
      rw [hpaid]
      exact min_le_left _ _
    have hshare : total (paid token) log * s.supply.toNat ≤
        total burned log * s.reserves token := by
      rw [hpaid]
      exact (Nat.mul_le_mul_right _ (min_le_right _ _)).trans (Nat.div_mul_le_self _ _)
    refine ⟨hle, ?_⟩
    rw [Nat.mul_sub, Nat.sub_mul, Nat.mul_comm _ (total burned log)]
    exact Nat.sub_le_sub_left hshare _

/-- A deposit of three and a withdrawal of three of ten pool tokens, constant product. -/
theorem two_sided_not_dilutive_three :
    (7 * (10 + 3) ≤ (7 + 3) * 10 ∧ 3 * 10 < 7 * 3 + 10) ∧ 7 * (10 - 3) ≤ (7 - 2) * 10 :=
  have hlaw := @two_sided_not_dilutive SplMath.reference ⟨.constantProduct, .constantProduct⟩ rfl
    rfl
  ⟨(hlaw.1 ⟨7#64, 20#64, 10#64⟩ 0#256 ⟨3#64, 5#64, 9#64⟩
      [.payIn .a 3#64, .payIn .b 6#64, .mintTo 0#256 3#64] (by decide +kernel)).2 .a,
    (hlaw.2 ⟨0#64, 0#64, 0#64, 0#64, 0#64, 0#64, 0#64, 0#64⟩ ⟨7#64, 20#64, 10#64⟩
      ⟨0#256, true, none⟩ 0#256 ⟨3#64, 1#64, 1#64⟩
      [.burn 0#256 3#64, .payOut .a 2#64, .payOut .b 6#64] (by decide +kernel)).2 .a |>.2⟩

end Amounts

end SolanaPsm
