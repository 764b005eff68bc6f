import SolanaPsm.SwapCurve

/-!
# When the linear curves abort

Every 256-bit step of the linear curves is checked; the last one, back to 128 bits, aborts
on a number that does not fit. `SwapAborts` and `ShareAborts` say which amounts reach it
with such a number, `swapWithoutFees_eq_panic` and `tradingTokensToPoolTokens_eq_panic` that
no others abort. The proportional amounts of both tokens always fit.
-/

namespace SolanaPsm

namespace Linear

/-! ## Swaps -/

/-- The amount that `s` units buy at price `p` has more than 128 bits, and nothing fails
before it is narrowed. -/
def SwapAborts (p s : ℕ) : TradeDirection → Prop
  | .aToB => 0 < p ∧ 2 ^ 128 * p ≤ s * ray
  | .bToA => s * p < 2 ^ 256 ∧ 2 ^ 128 * ray ≤ s * p

instance (p s : ℕ) (dir : TradeDirection) : Decidable (SwapAborts p s dir) :=
  match dir with
  | .aToB | .bToA => inferInstanceAs (Decidable (_ ∧ _))

/-- The amounts of a swap that aborts are defined; only the amount bought is too large. -/
theorem swapAborts_iff {p s : ℕ} {dir : TradeDirection} (hs : s < 2 ^ 128) :
    SwapAborts p s dir ↔ SwapDefined p s dir ∧ 2 ^ 128 ≤ boughtAmount p s dir := by
  cases dir with
  | bToA =>
    rw [SwapAborts, SwapDefined, boughtAmount, Nat.le_div_iff_mul_le ray_pos]
  | aToB =>
    rw [SwapAborts, SwapDefined]
    refine ⟨?_, ?_⟩
    · rintro ⟨hp, hlarge⟩
      have hbought : 2 ^ 128 ≤ boughtAmount p s .aToB := (Nat.le_div_iff_mul_le hp).mpr hlarge
      refine ⟨?_, hbought⟩
      -- the price is less than one, and at least two units are offered
      have hprice : p < ray := by
        refine Nat.lt_of_mul_lt_mul_left (a := 2 ^ 128) (hlarge.trans_lt ?_)
        exact Nat.mul_lt_mul_of_pos_right hs ray_pos
      have hcut : s * ray < boughtAmount p s .aToB * p + p := Nat.lt_div_mul_add hp
      have htwo : 2 ≤ s := by
        by_contra hone
        have hbound : s * ray ≤ 1 * ray := Nat.mul_le_mul_right ray (by omega)
        have hray : 1 * ray < 2 ^ 128 := by decide
        omega
      have hoffer : 2 * ray ≤ s * ray := Nat.mul_le_mul_right ray htwo
      omega
    · rintro ⟨-, hlarge⟩
      have hp : 0 < p := by
        refine Nat.pos_of_ne_zero fun h0 => ?_
        rw [boughtAmount, h0, Nat.div_zero] at hlarge
        exact absurd hlarge (by decide)
      exact ⟨hp, (Nat.le_div_iff_mul_le hp).mp hlarge⟩

/-- What is used of a swap that is defined and buys something is not zero. -/
theorem usedAmount_pos {p s : ℕ} {dir : TradeDirection} (hdef : SwapDefined p s dir)
    (hbought : 0 < boughtAmount p s dir) : 0 < usedAmount p s dir := by
  cases dir with
  | bToA =>
    refine Nat.pos_of_ne_zero fun h0 => ?_
    rw [usedAmount] at h0
    rw [boughtAmount, h0, Nat.zero_mul, Nat.zero_div] at hbought
    exact lt_irrefl 0 hbought
  | aToB =>
    have hfull : ray ≤ boughtAmount p s .aToB * p := hdef
    have hceil := (ceilDiv_le_iff_le_mul ray_pos).mp
      (le_refl (boughtAmount p s .aToB * p ⌈/⌉ ray))
    refine Nat.pos_of_ne_zero fun h0 => ?_
    rw [usedAmount] at h0
    rw [h0, Nat.mul_zero] at hceil
    exact absurd (hfull.trans hceil) (by decide)

variable [SplMath]

/-- A swap aborts on exactly these amounts. -/
theorem swapWithoutFees_eq_panic {p : U256} {s : U128} {dir : TradeDirection} :
    swapWithoutFees p s dir = .panic ↔ SwapAborts p.toNat s.toNat dir := by
  rw [swapAborts_iff s.isLt]
  simp only [swapWithoutFees, Outcome.bind_eq_panic, Calc.liftM_eq_panic, Calc.liftM_eq_ok,
    false_or, BitVec.narrowOrPanic_eq_panic, BitVec.narrowOrPanic_eq_ok, mapZeroToNone_eq_some,
    Outcome.pure_eq, reduceCtorEq, and_false, exists_false, or_false, Prod.exists]
  refine ⟨?_, ?_⟩
  · rintro ⟨src, dst, hamt, hlarge⟩
    obtain ⟨hdef, hused, hbought⟩ := swapAmounts_eq_some hamt
    refine ⟨hdef, ?_⟩
    rw [← hbought]
    have hle := usedAmount_le p.toNat s.toNat dir
    have hs := s.isLt
    rcases hlarge with hlarge | ⟨_, -, _, -, hlarge⟩
    · omega
    · exact hlarge
  · rintro ⟨hdef, hlarge⟩
    obtain ⟨src, dst, hamt⟩ := exists_swapAmounts hdef
    obtain ⟨-, hused, hbought⟩ := swapAmounts_eq_some hamt
    have hpos := usedAmount_pos hdef ((Nat.two_pow_pos 128).trans_le hlarge)
    obtain ⟨src', hsrc⟩ := BitVec.exists_toNat_eq
      ((usedAmount_le p.toNat s.toNat dir).trans_lt s.isLt)
    rw [← hsrc] at hused hpos
    rw [← hbought] at hlarge
    exact ⟨src, dst, hamt, Or.inr ⟨src', hused.symm, src', ⟨hpos, rfl⟩, hlarge⟩⟩

/-! ## Single-sided deposits and withdrawals -/

omit [SplMath] in
/-- The share that `n` is of the total `T`, rounded, has more than 128 bits. -/
def ShareOverflows (n T : ℕ) : RoundDirection → Prop
  | .floor => 2 ^ 128 * T ≤ n
  | .ceiling => (2 ^ 128 - 1) * T < n

instance (n T : ℕ) (rd : RoundDirection) : Decidable (ShareOverflows n T rd) :=
  match rd with
  | .floor => inferInstanceAs (Decidable (_ ≤ _))
  | .ceiling => inferInstanceAs (Decidable (_ < _))

/-- The pool tokens for `x` units at price `p` have more than 128 bits, and nothing fails
before they are narrowed: the products fit in 256 bits, and the reserves `a` and `b` are
worth something. -/
def ShareAborts (p x a b S : ℕ) (dir : TradeDirection) (rd : RoundDirection) : Prop :=
  (dir = .bToA → x * p < 2 ^ 256) ∧ b * p < 2 ^ 256 ∧ S * givenValue p x dir < 2 ^ 256 ∧
    0 < totalValue p a b ∧ ShareOverflows (S * givenValue p x dir) (totalValue p a b) rd

instance (p x a b S : ℕ) (dir : TradeDirection) (rd : RoundDirection) :
    Decidable (ShareAborts p x a b S dir rd) := inferInstanceAs (Decidable (_ ∧ _))

omit [SplMath] in
/-- The floored share aborts when it is too large. -/
theorem floorShare_eq_panic {n T : U256} :
    (∃ q : U256, (0 < T.toNat ∧ q.toNat = n.toNat / T.toNat) ∧
      (q.narrowOrPanic 128 : Calc U128) = .panic) ↔
    0 < T.toNat ∧ ShareOverflows n.toNat T.toNat .floor := by
  simp only [BitVec.narrowOrPanic_eq_panic, ShareOverflows]
  refine ⟨?_, ?_⟩
  · rintro ⟨q, ⟨hT, hq⟩, hlarge⟩
    rw [hq, Nat.le_div_iff_mul_le hT] at hlarge
    exact ⟨hT, hlarge⟩
  · rintro ⟨hT, hlarge⟩
    obtain ⟨q, hq⟩ := BitVec.exists_toNat_eq ((Nat.div_le_self n.toNat T.toNat).trans_lt n.isLt)
    refine ⟨q, ⟨hT, hq⟩, ?_⟩
    rwa [hq, Nat.le_div_iff_mul_le hT]

/-- The share rounded up aborts when it is too large. -/
theorem ceilShare_eq_panic {n T : U256} :
    (∃ q : U256 × U256, SplMath.u256CheckedCeilDiv n T = some q ∧
      (q.1.narrowOrPanic 128 : Calc U128) = .panic) ↔
    0 < T.toNat ∧ ShareOverflows n.toNat T.toNat .ceiling := by
  have hceil (hT : 0 < T.toNat) :
      2 ^ 128 ≤ n.toNat ⌈/⌉ T.toNat ↔ (2 ^ 128 - 1) * T.toNat < n.toNat := by
    rw [← not_lt, ← Nat.le_sub_one_iff_lt (by decide), ceilDiv_le_iff_le_mul hT, not_le,
      Nat.mul_comm]
  simp only [BitVec.narrowOrPanic_eq_panic, ShareOverflows]
  refine ⟨?_, ?_⟩
  · rintro ⟨q, hq, hlarge⟩
    obtain ⟨hne, hq⟩ := SplMath.u256CheckedCeilDiv_eq_some hq
    have hT : 0 < T.toNat := Nat.pos_of_ne_zero fun h0 => hne (by rw [h0, Nat.div_zero])
    rw [hq, hceil hT] at hlarge
    exact ⟨hT, hlarge⟩
  · rintro ⟨hT, hlarge⟩
    have hle : T.toNat ≤ n.toNat := (Nat.le_mul_of_pos_left _ (by decide)).trans hlarge.le
    obtain ⟨q, r, hs, hq⟩ := SplMath.u256CheckedCeilDiv_some n T (Nat.div_pos hle hT).ne'
    refine ⟨(q, r), hs, ?_⟩
    rwa [hq, hceil hT]

omit [SplMath] in
/-- The total value of reserves always fits when the value of the token B side does. -/
theorem totalValue_lt {p b : ℕ} {a : U128} (h : b * p < 2 ^ 256) :
    totalValue p a.toNat b < 2 ^ 256 := by
  have hquot : b * p / ray ≤ 2 ^ 256 / ray := Nat.div_le_div_right h.le
  have ha := a.isLt
  have hsum : 2 ^ 256 / ray + 2 ^ 128 < 2 ^ 256 := by decide
  rw [totalValue]
  omega

omit [SplMath] in
/-- The steps from the given value to a share that is too large: every number on the way
fits, and is the one over the natural numbers. -/
theorem share_steps_iff {p : U256} {a b S : U128} {rd : RoundDirection} {g : ℕ} :
    (∃ valueB : U256, valueB.toNat = b.toNat * p.toNat ∧
      ∃ wholeB : U256, wholeB.toNat = valueB.toNat / ray ∧
      ∃ T : U256, T.toNat = wholeB.toNat + a.toNat ∧
      ∃ n : U256, n.toNat = S.toNat * g ∧
        0 < T.toNat ∧ ShareOverflows n.toNat T.toNat rd) ↔
    b.toNat * p.toNat < 2 ^ 256 ∧ S.toNat * g < 2 ^ 256 ∧
      0 < totalValue p.toNat a.toNat b.toNat ∧
      ShareOverflows (S.toNat * g) (totalValue p.toNat a.toNat b.toNat) rd := by
  refine ⟨?_, ?_⟩
  · rintro ⟨valueB, hvalue, wholeB, hwhole, T, hT, n, hn, hpos, hover⟩
    have htotal : T.toNat = totalValue p.toNat a.toNat b.toNat := by
      rw [hT, hwhole, hvalue]
      rfl
    rw [← hvalue, ← hn, ← htotal]
    exact ⟨valueB.isLt, n.isLt, hpos, hover⟩
  · rintro ⟨hb, hS, hpos, hover⟩
    obtain ⟨valueB, hvalue⟩ := BitVec.exists_toNat_eq hb
    obtain ⟨wholeB, hwhole⟩ := BitVec.exists_toNat_eq
      ((Nat.div_le_self valueB.toNat ray).trans_lt valueB.isLt)
    obtain ⟨T, htotal⟩ := BitVec.exists_toNat_eq (totalValue_lt (a := a) hb)
    obtain ⟨n, hn⟩ := BitVec.exists_toNat_eq hS
    have hT : T.toNat = wholeB.toNat + a.toNat := by
      rw [htotal, hwhole, hvalue]
      rfl
    rw [← htotal] at hpos hover
    rw [← hn] at hover
    exact ⟨valueB, hvalue, wholeB, hwhole, T, hT, n, hn, hpos, hover⟩

omit [SplMath] in
/-- The same, from the amount of token B. -/
theorem share_steps_bToA_iff {p : U256} {x a b S : U128} {rd : RoundDirection} :
    (∃ g : U256, (∃ value : U256, value.toNat = x.toNat * p.toNat ∧
        g.toNat = value.toNat / ray) ∧ b.toNat * p.toNat < 2 ^ 256 ∧ S.toNat * g.toNat < 2 ^ 256 ∧
          0 < totalValue p.toNat a.toNat b.toNat ∧
          ShareOverflows (S.toNat * g.toNat) (totalValue p.toNat a.toNat b.toNat) rd) ↔
    ShareAborts p.toNat x.toNat a.toNat b.toNat S.toNat .bToA rd := by
  refine ⟨?_, ?_⟩
  · rintro ⟨g, ⟨value, hvalue, hg⟩, h⟩
    have hfits := value.isLt
    rw [hvalue] at hg hfits
    rw [hg] at h
    exact ⟨fun _ => hfits, h⟩
  · rintro ⟨hx, h⟩
    obtain ⟨value, hvalue⟩ := BitVec.exists_toNat_eq (hx rfl)
    obtain ⟨g, hg⟩ := BitVec.exists_toNat_eq
      ((Nat.div_le_self value.toNat ray).trans_lt value.isLt)
    refine ⟨g, ⟨value, hvalue, hg⟩, ?_⟩
    rw [hg, hvalue]
    exact h

/-- A single-sided deposit or withdrawal aborts on exactly these amounts. -/
theorem tradingTokensToPoolTokens_eq_panic {p : U256} {x a b S : U128} {dir : TradeDirection}
    {rd : RoundDirection} :
    tradingTokensToPoolTokens p x a b S dir rd = .panic ↔
      ShareAborts p.toNat x.toNat a.toNat b.toNat S.toNat dir rd := by
  simp only [tradingTokensToPoolTokens, Outcome.bind_eq_panic, Calc.liftM_eq_panic,
    Calc.liftM_eq_ok, false_or, BitVec.checkedMul_eq_some, BitVec.checkedDiv_eq_some,
    BitVec.checkedAdd_eq_some, U128.toNat_widen, toNat_RAY, ray_pos,
    true_and]
  cases dir with
  | aToB =>
    rw [ShareAborts]
    cases rd <;>
      simp only [Outcome.bind_eq_panic, Calc.liftM_eq_panic, Calc.liftM_eq_ok, false_or,
        BitVec.checkedDiv_eq_some, floorShare_eq_panic, ceilShare_eq_panic, Option.some.injEq,
        exists_eq_left', U128.toNat_widen, share_steps_iff,
        givenValue, reduceCtorEq, false_implies, true_and]
  | bToA =>
    rw [← share_steps_bToA_iff]
    cases rd <;>
      simp only [Outcome.bind_eq_panic, Calc.liftM_eq_panic, Outcome.bind_eq_ok,
        Calc.liftM_eq_ok, false_or, and_false, exists_false, BitVec.checkedMul_eq_some,
        BitVec.checkedDiv_eq_some, U128.toNat_widen, toNat_RAY,
        ray_pos, true_and, floorShare_eq_panic, ceilShare_eq_panic, share_steps_iff]

/-! ## Two-sided deposits and withdrawals -/

omit [SplMath] in
/-- A share is at most the product it is taken of. -/
theorem shareOf_le {t S x : ℕ} (hS : 0 < S) (rd : RoundDirection) : shareOf t S x rd ≤ t * x := by
  cases rd with
  | floor => exact Nat.div_le_self _ _
  | ceiling => exact SplMath.ceilDiv_le_self hS

/-- The proportional amounts of 64-bit balances fit. -/
theorem noPanic_poolTokensToTradingTokens (t S a b : U64) (rd : RoundDirection) :
    (poolTokensToTradingTokens (t.widen 128) (S.widen 128) (a.widen 128) (b.widen 128)
      rd).NoPanic := by
  have hfits (x : U64) : t.toNat * x.toNat < 2 ^ 128 := BitVec.toNat_mul_toNat_lt
  intro hpanic
  rcases poolTokensToTradingTokens_cases (t.widen 128) (S.widen 128) (a.widen 128) (b.widen 128)
    rd with hnone | ⟨hdefined, -, shareA, shareB, hA, hB, hcases⟩
  · rw [hnone] at hpanic
    cases hpanic
  · rw [hcases] at hpanic
    simp only [Outcome.bind_eq_panic, BitVec.narrowOrPanic_eq_panic, Outcome.pure_eq,
      reduceCtorEq, and_false, exists_false, or_false] at hpanic
    have hS := hdefined.supply_pos
    simp only [U64.toNat_widen] at hS hA hB
    have hleA := shareOf_le (t := t.toNat) (x := a.toNat) hS rd
    have hleB := shareOf_le (t := t.toNat) (x := b.toNat) hS rd
    have hfitsA := hfits a
    have hfitsB := hfits b
    rcases hpanic with hlarge | ⟨_, -, hlarge⟩
    · omega
    · omega

end Linear

/-! ## The calculators -/

namespace Calculator

/-- On 64-bit amounts, a linear calculator aborts in none of its four operations exactly
when neither the amount a swap buys nor the pool tokens for the amount overflow 128 bits. -/
theorem linear_never_aborts_iff [SplMath] {calculator : Calculator} (hlin : calculator.IsLinear)
    {ts : Option U128} {p : U256} (hp : calculator.tokenBPrice ts = .ok p)
    (s x y t S a b : U64) (dir : TradeDirection) (rd : RoundDirection) :
    (calculator.swapWithoutFees (s.widen 128) (x.widen 128) (y.widen 128) dir ts).NoPanic ∧
    (calculator.poolTokensToTradingTokens (t.widen 128) (S.widen 128) (a.widen 128)
      (b.widen 128) rd).NoPanic ∧
    (calculator.depositSingleTokenType (s.widen 128) (a.widen 128) (b.widen 128) (S.widen 128)
      dir ts).NoPanic ∧
    (calculator.withdrawSingleTokenTypeExactOut (s.widen 128) (a.widen 128) (b.widen 128)
      (S.widen 128) dir rd ts).NoPanic ↔
    ¬ Linear.SwapAborts p.toNat s.toNat dir ∧
    ¬ Linear.ShareAborts p.toNat s.toNat a.toNat b.toNat S.toNat dir .floor ∧
    ¬ Linear.ShareAborts p.toNat s.toNat a.toNat b.toNat S.toNat dir rd := by
  have hshares := Linear.noPanic_poolTokensToTradingTokens t S a b rd
  rw [hlin.swapWithoutFees, hlin.poolTokensToTradingTokens, hlin.depositSingleTokenType,
    hlin.withdrawSingleTokenTypeExactOut, hp]
  simp only [Outcome.ok_bind, Outcome.NoPanic, ne_eq, Linear.swapWithoutFees_eq_panic,
    Linear.tradingTokensToPoolTokens_eq_panic, U64.toNat_widen]
  simp only [Outcome.NoPanic, ne_eq] at hshares
  simp only [hshares, not_false_eq_true, true_and]

/-- Five units of token A at price one. -/
theorem linear_never_aborts_iff_at_one :
    (@swapWithoutFees SplMath.reference (.constantPrice ⟨RAY⟩) 5#128 9#128 9#128 .aToB
      none).NoPanic :=
  ((@linear_never_aborts_iff SplMath.reference (.constantPrice ⟨RAY⟩) trivial none
    (RAY.widen 256) rfl 5#64 9#64 9#64 3#64 10#64 9#64 9#64 .aToB .ceiling).mpr (by decide)).1

/-- At the smallest price, 2^40 units of token A buy more than 128 bits hold. -/
theorem linear_may_abort :
    ¬ ∀ [SplMath] (calculator : Calculator) (ts : Option U128) (p : U256) (s x y t S a b : U64)
      (dir : TradeDirection) (rd : RoundDirection), calculator.IsLinear →
      calculator.validate ts = .ok () → calculator.tokenBPrice ts = .ok p →
      (calculator.swapWithoutFees (s.widen 128) (x.widen 128) (y.widen 128) dir ts).NoPanic ∧
      (calculator.poolTokensToTradingTokens (t.widen 128) (S.widen 128) (a.widen 128)
        (b.widen 128) rd).NoPanic ∧
      (calculator.depositSingleTokenType (s.widen 128) (a.widen 128) (b.widen 128) (S.widen 128)
        dir ts).NoPanic ∧
      (calculator.withdrawSingleTokenTypeExactOut (s.widen 128) (a.widen 128) (b.widen 128)
        (S.widen 128) dir rd ts).NoPanic := by
  intro h
  have hswap := (@h SplMath.reference (.constantPrice ⟨1#128⟩) none 1#256 0x10000000000#64 1#64
    1#64 1#64 1000000000#64 1#64 1#64 .aToB .floor trivial (by decide) rfl).1
  exact hswap (by decide +kernel)

end Calculator

end SolanaPsm
