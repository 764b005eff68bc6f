import SolanaPsm.FixedPoint

/-!
# The order of rounded powers

How the square-and-multiply loop over the natural numbers depends on its base, its
accumulator and its exponent.

The loop is monotone in the base and in the accumulator because the rounded product is
(`roundPow_mono`). Neighbouring exponents share their high digits and differ by a carry:
`u01…1` against `u10…0`. After the digits of the carry both runs hold the same square, and
the accumulator of the first is at most the next square, which is what the second
multiplies in (`roundPow_carry`). A base one unit above `one` makes every comparison
strict; the lemmas carry the difference as an offset `k`.

The same comparisons hold for the largest number a run forms (`peak_carry`), so a run that
fits leaves room for every smaller exponent.
-/

namespace FixedPoint

variable {one : ℕ}

/-! ## The order of rounded products -/

/-- The rounded product is monotone. -/
theorem roundMul_mono {x x' y y' : ℕ} (hx : x ≤ x') (hy : y ≤ y') :
    roundMul one x y ≤ roundMul one x' y' :=
  Nat.div_le_div_right (Nat.add_le_add_right (Nat.mul_le_mul hx hy) _)

/-- A factor of at least one unit keeps a difference. -/
theorem roundMul_add_le (hone : 0 < one) {x z w k : ℕ} (hx : one ≤ x) (h : z + k ≤ w) :
    roundMul one z x + k ≤ roundMul one w x := by
  rw [roundMul, roundMul, ← Nat.add_mul_div_right _ _ hone]
  refine Nat.div_le_div_right ?_
  calc z * x + one / 2 + k * one ≤ z * x + one / 2 + k * x :=
        Nat.add_le_add_left (Nat.mul_le_mul_left k hx) _
    _ = (z + k) * x + one / 2 := by ring
    _ ≤ w * x + one / 2 := Nat.add_le_add_right (Nat.mul_le_mul_right x h) _

/-! ## Base and accumulator -/

/-- The loop is monotone in its base and its accumulator. -/
theorem roundPow_mono : ∀ {fuel n x y z w : ℕ}, x ≤ y → z ≤ w →
    roundPow one fuel n x z ≤ roundPow one fuel n y w := by
  intro fuel
  induction fuel with
  | zero => exact fun _ hz => hz
  | succ fuel ih =>
    intro n x y z w hx hz
    rw [roundPow, roundPow]
    split
    · exact hz
    · have hsq : roundMul one x x ≤ roundMul one y y := roundMul_mono hx hx
      refine ih hsq ?_
      split
      · exact roundMul_mono hz hsq
      · exact hz

/-- A difference of accumulators is kept. -/
theorem roundPow_add_le (hone : 0 < one) : ∀ {fuel n x z w k : ℕ}, one ≤ x → z + k ≤ w →
    roundPow one fuel n x z + k ≤ roundPow one fuel n x w := by
  intro fuel
  induction fuel with
  | zero => exact fun _ hz => hz
  | succ fuel ih =>
    intro n x z w k hx hz
    rw [roundPow, roundPow]
    split
    · exact hz
    · have hsq : one ≤ roundMul one x x := hx.trans (le_roundMul_left hone hx)
      refine ih hsq ?_
      split
      · exact roundMul_add_le hone hsq hz
      · exact hz

/-- Numbers of at least one unit stay there. -/
theorem one_le_roundPow (hone : 0 < one) {fuel n x z : ℕ} (hx : one ≤ x) (hz : one ≤ z) :
    one ≤ roundPow one fuel n x z := by
  induction fuel generalizing n x z with
  | zero => exact hz
  | succ fuel ih =>
    rw [roundPow]
    split
    · exact hz
    · have hsq : one ≤ roundMul one x x := hx.trans (le_roundMul_left hone hx)
      refine ih hsq ?_
      split
      · exact hz.trans (le_roundMul_left hone hsq)
      · exact hz

/-- A larger accumulator forms larger numbers. -/
theorem peak_mono : ∀ {fuel n x z w : ℕ}, z ≤ w → peak one fuel n x z ≤ peak one fuel n x w := by
  intro fuel
  induction fuel with
  | zero => exact fun _ => le_rfl
  | succ fuel ih =>
    intro n x z w hz
    rw [peak, peak]
    dsimp only
    split
    · exact le_rfl
    split
    · have hacc : z * roundMul one x x + one / 2 ≤ w * roundMul one x x + one / 2 :=
        Nat.add_le_add_right (Nat.mul_le_mul_right _ hz) _
      exact max_le_max (max_le_max le_rfl hacc) (ih (roundMul_mono hz le_rfl))
    · exact max_le_max le_rfl (ih hz)

/-! ## The next exponent -/

/-- One digit of the loop at exponent `2 * m`. -/
theorem roundPow_even {fuel m x z : ℕ} (hm : m ≠ 0) :
    roundPow one (fuel + 1) (2 * m) x z = roundPow one fuel m (roundMul one x x) z := by
  rw [roundPow, if_neg (by omega)]
  dsimp only
  rw [if_neg (by omega), Nat.mul_div_cancel_left m two_pos]

/-- One digit of the loop at exponent `2 * m + 1`. -/
theorem roundPow_odd {fuel m x z : ℕ} :
    roundPow one (fuel + 1) (2 * m + 1) x z =
      roundPow one fuel m (roundMul one x x) (roundMul one z (roundMul one x x)) := by
  rw [roundPow, if_neg (by omega)]
  dsimp only
  rw [if_pos (by omega), show (2 * m + 1) / 2 = m by omega]

/-- Nothing is left to do at exponent zero. -/
theorem roundPow_zero {fuel x z : ℕ} : roundPow one fuel 0 x z = z := by
  cases fuel with
  | zero => rfl
  | succ fuel => rw [roundPow, if_pos rfl]

theorem peak_even {fuel m x z : ℕ} (hm : m ≠ 0) :
    peak one (fuel + 1) (2 * m) x z =
      max (x * x + one / 2) (peak one fuel m (roundMul one x x) z) := by
  rw [peak, if_neg (by omega)]
  dsimp only
  rw [if_neg (by omega), Nat.mul_div_cancel_left m two_pos]

theorem peak_odd {fuel m x z : ℕ} :
    peak one (fuel + 1) (2 * m + 1) x z =
      max (max (x * x + one / 2) (z * roundMul one x x + one / 2))
        (peak one fuel m (roundMul one x x) (roundMul one z (roundMul one x x))) := by
  rw [peak, if_neg (by omega)]
  dsimp only
  rw [if_pos (by omega), show (2 * m + 1) / 2 = m by omega]

theorem peak_zero {fuel x z : ℕ} : peak one fuel 0 x z = 0 := by
  cases fuel with
  | zero => rfl
  | succ fuel => rw [peak, if_pos rfl]

/-- A run that is not over squares its base. -/
theorem square_le_peak {fuel n x z : ℕ} (hn : n ≠ 0) :
    x * x + one / 2 ≤ peak one (fuel + 1) n x z := by
  rw [peak, if_neg hn]
  dsimp only
  split
  · exact (le_max_left _ _).trans (le_max_left _ _)
  · exact le_max_left _ _

/-- The carry. With an accumulator of at most the next square, exponent `n` stays below
exponent `n + 1` with a fresh accumulator. -/
theorem roundPow_carry (hone : 0 < one) : ∀ {fuel n x z k : ℕ}, one ≤ x →
    z + k ≤ roundMul one x x → n + 1 < 2 ^ fuel →
    roundPow one fuel n x z + k ≤ roundPow one fuel (n + 1) x one := by
  intro fuel
  induction fuel with
  | zero =>
    intro n x z k hx hz hn
    exact absurd hn (by simp)
  | succ fuel ih =>
    intro n x z k hx hz hn
    have hsq : one ≤ roundMul one x x := hx.trans (le_roundMul_left hone hx)
    rw [pow_succ] at hn
    rcases Nat.even_or_odd' n with ⟨m, rfl | rfl⟩
    · -- the carry stops here: the larger exponent multiplies the square in
      rw [roundPow_odd, roundMul_one_left hone]
      rcases Nat.eq_zero_or_pos m with rfl | hm
      · rw [Nat.mul_zero, roundPow_zero, roundPow_zero]
        exact hz
      · rw [roundPow_even hm.ne']
        exact roundPow_add_le hone hsq hz
    · -- the carry goes on: the smaller exponent multiplies its accumulator by the square
      rw [show 2 * m + 1 + 1 = 2 * (m + 1) by ring, roundPow_odd,
        roundPow_even (Nat.succ_ne_zero m)]
      exact ih hsq (roundMul_add_le hone hsq hz) (by omega)

/-- The carry, for the largest number of the run. -/
theorem peak_carry (hone : 0 < one) : ∀ {fuel n x z : ℕ}, one ≤ x → z ≤ roundMul one x x →
    n + 1 < 2 ^ fuel → peak one fuel n x z ≤ peak one fuel (n + 1) x one := by
  intro fuel
  induction fuel with
  | zero =>
    intro n x z hx hz hn
    exact absurd hn (by simp)
  | succ fuel ih =>
    intro n x z hx hz hn
    have hsq : one ≤ roundMul one x x := hx.trans (le_roundMul_left hone hx)
    rw [pow_succ] at hn
    rcases Nat.even_or_odd' n with ⟨m, rfl | rfl⟩
    · rw [peak_odd, roundMul_one_left hone]
      rcases Nat.eq_zero_or_pos m with rfl | hm
      · rw [Nat.mul_zero, peak_zero]
        exact Nat.zero_le _
      · rw [peak_even hm.ne']
        exact max_le_max (le_max_left _ _) (peak_mono hz)
    · rw [show 2 * m + 1 + 1 = 2 * (m + 1) by ring, peak_odd, peak_even (Nat.succ_ne_zero m)]
      -- the product of the smaller exponent is at most the next square of the larger one
      obtain ⟨fuel, rfl⟩ : ∃ f, fuel = f + 1 := by
        refine Nat.exists_eq_succ_of_ne_zero ?_
        rintro rfl
        omega
      have hprod : z * roundMul one x x + one / 2 ≤
          peak one (fuel + 1) (m + 1) (roundMul one x x) one :=
        (Nat.add_le_add_right (Nat.mul_le_mul_right _ hz) _).trans
          (square_le_peak (Nat.succ_ne_zero m))
      have hacc : roundMul one z (roundMul one x x) ≤
          roundMul one (roundMul one x x) (roundMul one x x) := roundMul_mono hz le_rfl
      have hrest := ih (n := m) hsq hacc (by omega)
      exact max_le (max_le (le_max_left _ _) (hprod.trans (le_max_right _ _)))
        (hrest.trans (le_max_right _ _))

/-! ## Powers of a base

The accumulator of a power starts with the lowest digit of the exponent: the unit, or the
base. -/

/-- The accumulator a power starts with. -/
def firstDigit (one x n : ℕ) : ℕ := if n % 2 = 0 then one else x

/-- The next power is larger by the excess of the base over one unit. -/
theorem roundPow_succ (hone : 0 < one) {fuel n x k : ℕ} (hx : one + k ≤ x)
    (hn : n + 1 < 2 ^ (fuel + 1)) :
    roundPow one fuel (n / 2) x (firstDigit one x n) + k ≤
      roundPow one fuel ((n + 1) / 2) x (firstDigit one x (n + 1)) := by
  have hx' : one ≤ x := (Nat.le_add_right _ _).trans hx
  rw [pow_succ] at hn
  rcases Nat.even_or_odd' n with ⟨m, rfl | rfl⟩
  · rw [firstDigit, firstDigit, if_pos (by omega), if_neg (by omega),
      show (2 * m + 1) / 2 = 2 * m / 2 by omega]
    exact roundPow_add_le hone hx' hx
  · rw [firstDigit, firstDigit, if_neg (by omega), if_pos (by omega),
      show (2 * m + 1) / 2 = m by omega, show (2 * m + 1 + 1) / 2 = m + 1 by omega]
    refine roundPow_carry hone hx' ?_ (by omega)
    have hsq := roundMul_add_le hone hx' hx
    rwa [roundMul_one_left hone] at hsq

/-- The next power forms numbers at least as large. -/
theorem peak_succ (hone : 0 < one) {fuel n x : ℕ} (hx : one ≤ x) (hn : n + 1 < 2 ^ (fuel + 1)) :
    peak one fuel (n / 2) x (firstDigit one x n) ≤
      peak one fuel ((n + 1) / 2) x (firstDigit one x (n + 1)) := by
  rw [pow_succ] at hn
  rcases Nat.even_or_odd' n with ⟨m, rfl | rfl⟩
  · rw [firstDigit, firstDigit, if_pos (by omega), if_neg (by omega),
      show (2 * m + 1) / 2 = 2 * m / 2 by omega]
    exact peak_mono hx
  · rw [firstDigit, firstDigit, if_neg (by omega), if_pos (by omega),
      show (2 * m + 1) / 2 = m by omega, show (2 * m + 1 + 1) / 2 = m + 1 by omega]
    exact peak_carry hone hx (le_roundMul_left hone hx) (by omega)

/-- Larger exponents give larger powers, each by the excess of the base. -/
theorem roundPow_add_le_of_lt (hone : 0 < one) {fuel m n x k : ℕ} (hx : one + k ≤ x) (h : m < n)
    (hn : n < 2 ^ (fuel + 1)) :
    roundPow one fuel (m / 2) x (firstDigit one x m) + k ≤
      roundPow one fuel (n / 2) x (firstDigit one x n) := by
  induction n, h using Nat.le_induction with
  | base => exact roundPow_succ hone hx hn
  | succ n _ ih =>
    exact (ih (by omega)).trans ((Nat.le_add_right _ _).trans (roundPow_succ hone hx hn))

/-- Larger exponents form larger numbers. -/
theorem peak_mono_exponent (hone : 0 < one) {fuel m n x : ℕ} (hx : one ≤ x) (h : m ≤ n)
    (hn : n < 2 ^ (fuel + 1)) :
    peak one fuel (m / 2) x (firstDigit one x m) ≤
      peak one fuel (n / 2) x (firstDigit one x n) := by
  induction n, h using Nat.le_induction with
  | base => exact le_rfl
  | succ n _ ih => exact (ih (by omega)).trans (peak_succ hone hx hn)

/-! ## Powers of the unit and of zero -/

section Extremes

variable {fuel n z : ℕ}

/-- The unit stays the unit. -/
theorem roundPow_unit (hone : 0 < one) : roundPow one fuel n one one = one := by
  induction fuel generalizing n with
  | zero => rfl
  | succ fuel ih =>
    rw [roundPow]
    simp only [roundMul_one_left hone, ite_self, ih]

/-- The unit forms one product only, its own. -/
theorem peak_unit_le (hone : 0 < one) : peak one fuel n one one ≤ one * one + one / 2 := by
  induction fuel generalizing n with
  | zero => exact Nat.zero_le _
  | succ fuel ih =>
    rw [peak]
    simp only [roundMul_one_left hone]
    split
    · exact Nat.zero_le _
    split
    · exact max_le (max_le le_rfl le_rfl) ih
    · exact max_le le_rfl ih

/-- Half a unit rounds down to zero. -/
theorem roundMul_zero_right (hone : 0 < one) (x : ℕ) : roundMul one x 0 = 0 := by
  rw [roundMul, Nat.mul_zero, Nat.zero_add]
  exact Nat.div_eq_of_lt (Nat.div_lt_self hone one_lt_two)

/-- A zero accumulator stays zero at base zero. -/
theorem roundPow_zero_zero (hone : 0 < one) : roundPow one fuel n 0 0 = 0 := by
  induction fuel generalizing n with
  | zero => rfl
  | succ fuel ih =>
    rw [roundPow]
    simp only [roundMul_zero_right hone, ite_self, ih]

/-- Any digit of the exponent brings a zero base into the accumulator. -/
theorem roundPow_zero_base (hone : 0 < one) (hn : n ≠ 0) (hfuel : n < 2 ^ fuel) :
    roundPow one fuel n 0 z = 0 := by
  induction fuel generalizing n with
  | zero => exact absurd hfuel (by omega)
  | succ fuel ih =>
    rw [pow_succ] at hfuel
    rcases Nat.even_or_odd' n with ⟨m, rfl | rfl⟩
    · rw [roundPow_even (by omega), roundMul_zero_right hone]
      exact ih (by omega) (by omega)
    · rw [roundPow_odd, roundMul_zero_right hone, roundMul_zero_right hone]
      exact roundPow_zero_zero hone

/-- A zero base forms half a unit at most. -/
theorem peak_zero_base_le (hone : 0 < one) : peak one fuel n 0 z ≤ one / 2 := by
  induction fuel generalizing n z with
  | zero => exact Nat.zero_le _
  | succ fuel ih =>
    rw [peak]
    simp only [roundMul_zero_right hone, Nat.mul_zero, Nat.zero_add]
    split
    · exact Nat.zero_le _
    split
    · exact max_le (max_le le_rfl le_rfl) ih
    · exact max_le le_rfl ih

end Extremes

end FixedPoint
