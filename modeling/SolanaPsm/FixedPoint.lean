import Mathlib.Algebra.Order.Ring.Nat
import Mathlib.Data.Nat.Basic
import Mathlib.Tactic.Ring
import Mathlib.Tactic.Linarith

/-!
# Powers by repeated squaring, exact and rounded

Independent of any machine word.

* `powLoop mul` is the right-to-left square-and-multiply loop over a partial
  multiplication `mul`. It is used through one rule, `powLoop_rep`: a predicate
  `P m y` ("`y` stands for the `m`-th power") that one multiplication respects is
  respected by the whole loop, whatever the binary digits of the exponent are.
* `roundMul one` is the product of two fixed-point numbers with unit `one`,
  rounded to the nearest. `Upper one b m y` says that `y` stands for the `m`-th
  power of `b` with at most `m - 1` roundings behind it, each of which inflates by
  a factor of at most `1 + 1 / (2 * one)`; `Lower` is the same from below.
  `Upper.mul` and `Lower.mul` are the steps the loop rule needs.
* `roundPow` and `peak` are the loop over the natural numbers and the largest number
  it forms; `powLoop_bounded` compares a loop over bounded words with them.
-/

namespace FixedPoint

/-! ## The square-and-multiply loop -/

section Loop

variable {α : Type} (mul : α → α → Option α)

/-- Square `x`, multiply it into `z` when the current digit is odd, halve the
exponent; stop at exponent zero. The fuel bounds the number of digits. -/
def powLoop : (fuel : ℕ) → (n : ℕ) → (x z : α) → Option α
  | 0, _, _, z => some z
  | fuel + 1, n, x, z =>
    if n = 0 then some z
    else do
      let x ← mul x x
      let z ← (if n % 2 = 1 then mul z x else some z)
      powLoop fuel (n / 2) x z

variable {mul}

/-- The loop rule. If `P` is respected by one multiplication, `x` stands for the
`k`-th power and `z` for the `j`-th, the loop on exponent `n` returns a
representative of the power `j + 2 * k * n`. -/
theorem powLoop_rep {P : ℕ → α → Prop}
    (hmul : ∀ {a b : ℕ} {x y w : α}, P a x → P b y → mul x y = some w → P (a + b) w) :
    ∀ {fuel n k j : ℕ} {x z r : α}, n < 2 ^ fuel → P k x → P j z →
      powLoop mul fuel n x z = some r → P (j + 2 * k * n) r := by
  intro fuel
  induction fuel with
  | zero =>
    intro n k j x z r hn _ hz hr
    obtain rfl : n = 0 := by omega
    obtain rfl : z = r := Option.some.inj hr
    exact hz
  | succ fuel ih =>
    intro n k j x z r hn hx hz hr
    rw [powLoop] at hr
    split at hr
    · rename_i h0
      obtain rfl : z = r := Option.some.inj hr
      rw [h0]
      exact hz
    · obtain ⟨x', hx', hr⟩ := Option.bind_eq_some_iff.mp hr
      obtain ⟨z', hz', hr⟩ := Option.bind_eq_some_iff.mp hr
      have hhalf : n / 2 < 2 ^ fuel := by
        rw [pow_succ] at hn
        omega
      have hsq : P (k + k) x' := hmul hx hx hx'
      -- the low digit of `n` decides whether the square enters the accumulator
      rcases Nat.mod_two_eq_zero_or_one n with hodd | hodd
      · rw [if_neg (by omega)] at hz'
        obtain rfl : z = z' := Option.some.inj hz'
        have hexp : j + 2 * (k + k) * (n / 2) = j + 2 * k * n := by
          conv_rhs => rw [← Nat.div_add_mod n 2, hodd]
          ring
        exact hexp ▸ ih hhalf hsq hz hr
      · rw [if_pos hodd] at hz'
        have hacc : P (j + (k + k)) z' := hmul hz hsq hz'
        have hexp : j + (k + k) + 2 * (k + k) * (n / 2) = j + 2 * k * n := by
          conv_rhs => rw [← Nat.div_add_mod n 2, hodd]
          ring
        exact hexp ▸ ih hhalf hsq hacc hr

end Loop

/-! ## Rounded products -/

variable {one : ℕ}

/-- The product of two fixed-point numbers, rounded to the nearest unit. -/
def roundMul (one x y : ℕ) : ℕ := (x * y + one / 2) / one

/-- The unit is neutral, with no rounding. -/
theorem roundMul_one_left (hone : 0 < one) (y : ℕ) : roundMul one one y = y := by
  rw [roundMul, Nat.mul_add_div hone, Nat.div_eq_of_lt (Nat.div_lt_self hone one_lt_two),
    Nat.add_zero]

theorem roundMul_comm (x y : ℕ) : roundMul one x y = roundMul one y x := by
  rw [roundMul, roundMul, Nat.mul_comm]

theorem roundMul_one_right (hone : 0 < one) (x : ℕ) : roundMul one x one = x := by
  rw [roundMul_comm, roundMul_one_left hone]

/-- Multiplying by a number of at least one unit does not decrease. -/
theorem le_roundMul_left (hone : 0 < one) {x y : ℕ} (hy : one ≤ y) : x ≤ roundMul one x y := by
  rw [roundMul, Nat.le_div_iff_mul_le hone]
  exact (Nat.mul_le_mul_left x hy).trans (Nat.le_add_right _ _)

/-- Whole numbers of units multiply exactly. -/
theorem roundMul_whole (hone : 0 < one) (x y : ℕ) :
    roundMul one (x * one) (y * one) = x * y * one := by
  rw [roundMul, show x * one * (y * one) = one * (x * y * one) by ring, Nat.mul_add_div hone,
    Nat.div_eq_of_lt (Nat.div_lt_self hone one_lt_two), Nat.add_zero]

/-- Rounding to the nearest inflates by at most half a unit. -/
theorem roundMul_mul_le (x y : ℕ) : roundMul one x y * (2 * one) ≤ 2 * (x * y) + one := by
  have hdiv : roundMul one x y * one ≤ x * y + one / 2 := Nat.div_mul_le_self _ _
  have hhalf : one / 2 * 2 ≤ one := Nat.div_mul_le_self _ _
  linarith

/-- The same, relative to the exact product of two numbers of at least one unit. -/
theorem roundMul_mul_le_of_le {x y : ℕ} (hx : one ≤ x) (hy : one ≤ y) :
    roundMul one x y * (2 * one) * one ≤ x * y * (2 * one + 1) := by
  calc roundMul one x y * (2 * one) * one
      ≤ (2 * (x * y) + one) * one := Nat.mul_le_mul_right _ (roundMul_mul_le x y)
    _ = x * y * (2 * one) + one * one := by ring
    _ ≤ x * y * (2 * one) + x * y := Nat.add_le_add_left (Nat.mul_le_mul hx hy) _
    _ = x * y * (2 * one + 1) := by ring

/-- Rounding to the nearest takes off at most half a unit. -/
theorem le_roundMul_mul (hone : 0 < one) (heven : one / 2 * 2 = one) (x y : ℕ) :
    2 * (x * y) ≤ roundMul one x y * (2 * one) + one := by
  have hlt : x * y + one / 2 < roundMul one x y * one + one :=
    Nat.lt_div_mul_add (a := x * y + one / 2) hone
  linarith

/-- The same, relative to the exact product of two numbers of at least one unit. -/
theorem le_roundMul_mul_of_le (hone : 0 < one) (heven : one / 2 * 2 = one) {x y : ℕ}
    (hx : one ≤ x) (hy : one ≤ y) :
    x * y * (2 * one - 1) ≤ roundMul one x y * (2 * one) * one := by
  have hunits : one * one ≤ x * y := Nat.mul_le_mul hx hy
  have hround : 2 * (x * y) * one ≤ (roundMul one x y * (2 * one) + one) * one :=
    Nat.mul_le_mul_right _ (le_roundMul_mul hone heven x y)
  have hsplit : x * y * (2 * one - 1) + x * y = 2 * (x * y) * one := by
    rw [← Nat.mul_succ, Nat.succ_eq_add_one, Nat.sub_add_cancel (by omega)]
    ring
  have hexpand : (roundMul one x y * (2 * one) + one) * one =
      roundMul one x y * (2 * one) * one + one * one := Nat.add_mul _ _ _
  omega

/-! ## Bounded words

The loop over words that hold numbers below some bound, against the same loop over
all natural numbers: the two agree, and the bounded one succeeds exactly when the
largest number it has to hold fits. -/

section Bounded

/-- The result of the loop over the natural numbers. -/
def roundPow (one : ℕ) : (fuel : ℕ) → (n : ℕ) → (x z : ℕ) → ℕ
  | 0, _, _, z => z
  | fuel + 1, n, x, z =>
    if n = 0 then z
    else
      let x := roundMul one x x
      roundPow one fuel (n / 2) x (if n % 2 = 1 then roundMul one z x else z)

/-- The largest number the loop forms, half a unit included. -/
def peak (one : ℕ) : (fuel : ℕ) → (n : ℕ) → (x z : ℕ) → ℕ
  | 0, _, _, _ => 0
  | fuel + 1, n, x, z =>
    if n = 0 then 0
    else
      let square := x * x + one / 2
      let x := roundMul one x x
      if n % 2 = 1 then
        max (max square (z * x + one / 2)) (peak one fuel (n / 2) x (roundMul one z x))
      else max square (peak one fuel (n / 2) x z)

variable {α : Type} {val : α → ℕ} {bound : ℕ} {mul : α → α → Option α}

/-- The bounded loop computes the unbounded one, and is defined exactly when its peak
stays below the bound. -/
theorem powLoop_bounded (hbound : 0 < bound)
    (hval : ∀ {x y w : α}, mul x y = some w → val w = roundMul one (val x) (val y))
    (hdef : ∀ x y : α, (mul x y).isSome ↔ val x * val y + one / 2 < bound) :
    ∀ (fuel n : ℕ) (x z : α),
      ((powLoop mul fuel n x z).isSome ↔ peak one fuel n (val x) (val z) < bound) ∧
      ∀ r, powLoop mul fuel n x z = some r → val r = roundPow one fuel n (val x) (val z) := by
  intro fuel
  induction fuel with
  | zero =>
    intro n x z
    refine ⟨by simp [powLoop, peak, hbound], fun r hr => ?_⟩
    obtain rfl : z = r := Option.some.inj hr
    rfl
  | succ fuel ih =>
    intro n x z
    by_cases hn : n = 0
    · refine ⟨by simp [powLoop, peak, hn, hbound], fun r hr => ?_⟩
      rw [powLoop, if_pos hn] at hr
      obtain rfl : z = r := Option.some.inj hr
      rw [roundPow, if_pos hn]
    rw [powLoop, peak, roundPow, if_neg hn, if_neg hn, if_neg hn]
    cases hx : mul x x with
    | none =>
      have hsq : ¬ val x * val x + one / 2 < bound := by
        rw [← hdef, hx]
        exact Bool.false_ne_true
      refine ⟨iff_of_false Bool.false_ne_true fun hlt => hsq ?_, nofun⟩
      refine lt_of_le_of_lt ?_ hlt
      dsimp only
      split
      · exact (le_max_left _ _).trans (le_max_left _ _)
      · exact le_max_left _ _
    | some x' =>
      have hsq : val x * val x + one / 2 < bound := by rw [← hdef, hx]; rfl
      rw [← hval hx]
      rcases Nat.mod_two_eq_zero_or_one n with hodd | hodd
      · -- an even digit: only the square is formed
        obtain ⟨hsome, hres⟩ := ih (n / 2) x' z
        simp only [hodd, zero_ne_one, if_false, Option.bind_eq_bind, Option.bind_some, max_lt_iff,
          hsq, true_and]
        exact ⟨hsome, hres⟩
      · simp only [hodd, if_true, Option.bind_eq_bind, Option.bind_some, max_lt_iff, hsq, true_and]
        cases hz : mul z x' with
        | none =>
          have hacc : ¬ val z * val x' + one / 2 < bound := by
            rw [← hdef, hz]
            exact Bool.false_ne_true
          exact ⟨iff_of_false Bool.false_ne_true fun hlt => hacc hlt.1, nofun⟩
        | some z' =>
          have hacc : val z * val x' + one / 2 < bound := by rw [← hdef, hz]; rfl
          rw [← hval hz]
          obtain ⟨hsome, hres⟩ := ih (n / 2) x' z'
          simp only [Option.bind_some, hacc, true_and]
          exact ⟨hsome, hres⟩

end Bounded

/-- The peak rule. A predicate as in the loop rule keeps a run below a bound, when it keeps
the products of representatives below it, up to the power that the run computes. -/
theorem peak_lt {P : ℕ → ℕ → Prop} {bound total : ℕ} (hbound : 0 < bound)
    (hmul : ∀ {a b x y : ℕ}, P a x → P b y → P (a + b) (roundMul one x y))
    (hprod : ∀ {a b x y : ℕ}, P a x → P b y → a + b ≤ total → x * y + one / 2 < bound) :
    ∀ {fuel n k j x z : ℕ}, P k x → P j z → j + 2 * k * n ≤ total →
      peak one fuel n x z < bound := by
  intro fuel
  induction fuel with
  | zero => exact fun _ _ _ => hbound
  | succ fuel ih =>
    intro n k j x z hx hz hle
    rw [peak]
    split
    · exact hbound
    · rename_i hn
      have hsq : P (k + k) (roundMul one x x) := hmul hx hx
      -- the leading digit of the exponent multiplies the last square in
      have hdouble : 2 * k ≤ 2 * k * n := Nat.le_mul_of_pos_right _ (Nat.pos_of_ne_zero hn)
      have hsquare : x * x + one / 2 < bound := hprod hx hx (by omega)
      have hhalf : 2 * (k + k) * (n / 2) + 2 * k * (n % 2) = 2 * k * n := by
        conv_rhs => rw [← Nat.div_add_mod n 2]
        ring
      dsimp only
      rcases Nat.mod_two_eq_zero_or_one n with hodd | hodd
      · rw [if_neg (by omega)]
        rw [hodd, Nat.mul_zero] at hhalf
        exact max_lt hsquare (ih hsq hz (by omega))
      · rw [if_pos hodd]
        rw [hodd, Nat.mul_one] at hhalf
        have hacc : z * roundMul one x x + one / 2 < bound := hprod hz hsq (by omega)
        exact max_lt (max_lt hsquare hacc) (ih hsq (hmul hz hsq) (by omega))

/-! ## Upper bounds on rounded powers -/

/-- `y` stands for the `m`-th power of `b`, rounded at most `m - 1` times. The
zeroth power is the unit itself: it enters no product with an error. -/
structure Upper (one b m y : ℕ) : Prop where
  /-- powers of a number of at least one unit stay there -/
  one_le : one ≤ y
  /-- the zeroth power is exact -/
  eq_one : m = 0 → y = one
  /-- the relative error of the roundings -/
  bound : y * one ^ m * (2 * one) ^ (m - 1) ≤ one * b ^ m * (2 * one + 1) ^ (m - 1)

namespace Upper

variable {b : ℕ}

/-- The unit is the zeroth power. -/
theorem unit : Upper one b 0 one := ⟨le_refl _, fun _ => rfl, by simp⟩

/-- The base is the first power. -/
theorem base (hb : one ≤ b) : Upper one b 1 b :=
  ⟨hb, fun h => absurd h one_ne_zero, by simp [Nat.mul_comm]⟩

/-- One rounded product adds the exponents. -/
theorem mul (hone : 0 < one) {a c x y : ℕ} (hx : Upper one b a x) (hy : Upper one b c y) :
    Upper one b (a + c) (roundMul one x y) := by
  have hle : one ≤ roundMul one x y := hx.one_le.trans (le_roundMul_left hone hy.one_le)
  rcases Nat.eq_zero_or_pos a with rfl | ha
  · rw [hx.eq_one rfl, roundMul_one_left hone, Nat.zero_add]
    exact hy
  rcases Nat.eq_zero_or_pos c with rfl | hc
  · rw [hy.eq_one rfl, roundMul_one_right hone, Nat.add_zero]
    exact hx
  refine ⟨hle, fun h => absurd h (by omega), ?_⟩
  -- both factors carry errors: the product spends one more rounding
  have hexp : a + c - 1 = (a - 1) + (c - 1) + 1 := by omega
  have hprod := Nat.mul_le_mul hx.bound hy.bound
  have hround := roundMul_mul_le_of_le hx.one_le hy.one_le
  refine Nat.le_of_mul_le_mul_left ?_ hone
  rw [hexp]
  calc one * (roundMul one x y * one ^ (a + c) * (2 * one) ^ (a - 1 + (c - 1) + 1))
      = roundMul one x y * (2 * one) * one
          * (one ^ a * (2 * one) ^ (a - 1) * (one ^ c * (2 * one) ^ (c - 1))) := by ring
    _ ≤ x * y * (2 * one + 1)
          * (one ^ a * (2 * one) ^ (a - 1) * (one ^ c * (2 * one) ^ (c - 1))) :=
        Nat.mul_le_mul_right _ hround
    _ = x * one ^ a * (2 * one) ^ (a - 1) * (y * one ^ c * (2 * one) ^ (c - 1))
          * (2 * one + 1) := by ring
    _ ≤ one * b ^ a * (2 * one + 1) ^ (a - 1) * (one * b ^ c * (2 * one + 1) ^ (c - 1))
          * (2 * one + 1) := Nat.mul_le_mul_right _ hprod
    _ = one * (one * b ^ (a + c) * (2 * one + 1) ^ (a - 1 + (c - 1) + 1)) := by ring

/-- The bound with one rounding charged for every factor; in this form the bounds
of consecutive powers multiply. -/
theorem bound' {m y : ℕ} (h : Upper one b m y) :
    y * (2 * one * one) ^ m ≤ one * (b * (2 * one + 1)) ^ m := by
  rcases Nat.eq_zero_or_pos m with rfl | hm
  · simp [h.eq_one rfl]
  · obtain ⟨k, rfl⟩ : ∃ k, m = k + 1 := ⟨m - 1, by omega⟩
    have hb := h.bound
    rw [Nat.add_sub_cancel] at hb
    calc y * (2 * one * one) ^ (k + 1)
        = y * one ^ (k + 1) * (2 * one) ^ k * (2 * one) := by ring
      _ ≤ one * b ^ (k + 1) * (2 * one + 1) ^ k * (2 * one + 1) :=
          Nat.mul_le_mul hb (Nat.le_succ _)
      _ = one * (b * (2 * one + 1)) ^ (k + 1) := by rw [mul_pow]; ring

/-- Two representatives of powers that add up to at most the `n`-th multiply to at most what
the bound of the `n`-th power allows. -/
theorem mul_le {a c n x y bound : ℕ} (hone : 0 < one) (hb : one ≤ b) (hn : 1 ≤ n)
    (hx : Upper one b a x) (hy : Upper one b c y) (hle : a + c ≤ n)
    (hbound : b ^ n * (2 * one + 1) ^ (n - 1) * one ^ 2 ≤
      bound * one ^ n * (2 * one) ^ (n - 1)) :
    x * y ≤ bound := by
  obtain ⟨i, hi⟩ : ∃ i, n = a + c + i := Nat.exists_eq_add_of_le hle
  obtain ⟨j, hj⟩ : ∃ j, n - 1 = (a - 1) + (c - 1) + j := Nat.exists_eq_add_of_le (by omega)
  have hpos : 0 < one ^ n * (2 * one) ^ (n - 1) :=
    Nat.mul_pos (Nat.pow_pos hone) (Nat.pow_pos (Nat.mul_pos two_pos hone))
  have hprod := Nat.mul_le_mul hx.bound hy.bound
  -- the powers still missing only add to the right-hand side
  have hrest : one ^ i * (2 * one) ^ j ≤ b ^ i * (2 * one + 1) ^ j :=
    Nat.mul_le_mul (Nat.pow_le_pow_left hb i) (Nat.pow_le_pow_left (Nat.le_succ _) j)
  refine Nat.le_of_mul_le_mul_right (c := one ^ n * (2 * one) ^ (n - 1)) ?_ hpos
  calc x * y * (one ^ n * (2 * one) ^ (n - 1))
      = x * one ^ a * (2 * one) ^ (a - 1) * (y * one ^ c * (2 * one) ^ (c - 1))
          * (one ^ i * (2 * one) ^ j) := by
        rw [hj, hi]
        ring
    _ ≤ one * b ^ a * (2 * one + 1) ^ (a - 1) * (one * b ^ c * (2 * one + 1) ^ (c - 1))
          * (b ^ i * (2 * one + 1) ^ j) := Nat.mul_le_mul hprod hrest
    _ = b ^ n * (2 * one + 1) ^ (n - 1) * one ^ 2 := by
        rw [hj, hi]
        ring
    _ ≤ bound * one ^ n * (2 * one) ^ (n - 1) := hbound
    _ = bound * (one ^ n * (2 * one) ^ (n - 1)) := by ring

/-- The bound for an amount `c` that grew with the power to at least `r`. -/
theorem accrued {m y c r : ℕ} (hone : 0 < one) (h : Upper one b m y) (hr : r * one ≤ y * c) :
    r * (2 * one) ^ (m - 1) * one ^ m ≤ c * b ^ m * (2 * one + 1) ^ (m - 1) := by
  have hbound := h.bound
  refine Nat.le_of_mul_le_mul_left ?_ hone
  calc one * (r * (2 * one) ^ (m - 1) * one ^ m)
      = r * one * (one ^ m * (2 * one) ^ (m - 1)) := by ring
    _ ≤ y * c * (one ^ m * (2 * one) ^ (m - 1)) := Nat.mul_le_mul_right _ hr
    _ = c * (y * one ^ m * (2 * one) ^ (m - 1)) := by ring
    _ ≤ c * (one * b ^ m * (2 * one + 1) ^ (m - 1)) := Nat.mul_le_mul_left c hbound
    _ = one * (c * b ^ m * (2 * one + 1) ^ (m - 1)) := by ring

end Upper

/-! ## Lower bounds on rounded powers -/

/-- `y` stands for the `m`-th power of `b`, rounded at most `m - 1` times, seen from
below. -/
structure Lower (one b m y : ℕ) : Prop where
  /-- powers of a number of at least one unit stay there -/
  one_le : one ≤ y
  /-- the zeroth power is exact -/
  eq_one : m = 0 → y = one
  /-- the relative error of the roundings -/
  bound : one * b ^ m * (2 * one - 1) ^ (m - 1) ≤ y * one ^ m * (2 * one) ^ (m - 1)

namespace Lower

variable {b : ℕ}

/-- The unit is the zeroth power. -/
theorem unit : Lower one b 0 one := ⟨le_refl _, fun _ => rfl, by simp⟩

/-- The base is the first power. -/
theorem base (hb : one ≤ b) : Lower one b 1 b :=
  ⟨hb, fun h => absurd h one_ne_zero, by simp [Nat.mul_comm]⟩

/-- One rounded product adds the exponents. -/
theorem mul (hone : 0 < one) (heven : one / 2 * 2 = one) {a c x y : ℕ} (hx : Lower one b a x)
    (hy : Lower one b c y) : Lower one b (a + c) (roundMul one x y) := by
  have hle : one ≤ roundMul one x y := hx.one_le.trans (le_roundMul_left hone hy.one_le)
  rcases Nat.eq_zero_or_pos a with rfl | ha
  · rw [hx.eq_one rfl, roundMul_one_left hone, Nat.zero_add]
    exact hy
  rcases Nat.eq_zero_or_pos c with rfl | hc
  · rw [hy.eq_one rfl, roundMul_one_right hone, Nat.add_zero]
    exact hx
  refine ⟨hle, fun h => absurd h (by omega), ?_⟩
  have hexp : a + c - 1 = (a - 1) + (c - 1) + 1 := by omega
  have hprod := Nat.mul_le_mul hx.bound hy.bound
  have hround := le_roundMul_mul_of_le hone heven hx.one_le hy.one_le
  refine Nat.le_of_mul_le_mul_left ?_ hone
  rw [hexp]
  generalize 2 * one - 1 = e at *
  calc one * (one * b ^ (a + c) * e ^ (a - 1 + (c - 1) + 1))
      = one * b ^ a * e ^ (a - 1) * (one * b ^ c * e ^ (c - 1)) * e := by ring
    _ ≤ x * one ^ a * (2 * one) ^ (a - 1) * (y * one ^ c * (2 * one) ^ (c - 1)) * e :=
        Nat.mul_le_mul_right _ hprod
    _ = x * y * e * (one ^ a * (2 * one) ^ (a - 1) * (one ^ c * (2 * one) ^ (c - 1))) := by ring
    _ ≤ roundMul one x y * (2 * one) * one
          * (one ^ a * (2 * one) ^ (a - 1) * (one ^ c * (2 * one) ^ (c - 1))) :=
        Nat.mul_le_mul_right _ hround
    _ = one * (roundMul one x y * one ^ (a + c) * (2 * one) ^ (a - 1 + (c - 1) + 1)) := by ring

/-- The bound for an amount `c` that grew with the power to less than `r`. -/
theorem accrued {m y c r : ℕ} (hone : 0 < one) (h : Lower one b m y) (hr : y * c < r * one) :
    c * b ^ m * (2 * one - 1) ^ (m - 1) < r * (2 * one) ^ (m - 1) * one ^ m := by
  have hbound := h.bound
  have hpos : 0 < one ^ m * (2 * one) ^ (m - 1) :=
    Nat.mul_pos (Nat.pow_pos hone) (Nat.pow_pos (Nat.mul_pos two_pos hone))
  refine Nat.lt_of_mul_lt_mul_left (a := one) ?_
  generalize 2 * one - 1 = e at *
  calc one * (c * b ^ m * e ^ (m - 1)) = c * (one * b ^ m * e ^ (m - 1)) := by ring
    _ ≤ c * (y * one ^ m * (2 * one) ^ (m - 1)) := Nat.mul_le_mul_left c hbound
    _ = y * c * (one ^ m * (2 * one) ^ (m - 1)) := by ring
    _ < r * one * (one ^ m * (2 * one) ^ (m - 1)) := Nat.mul_lt_mul_of_pos_right hr hpos
    _ = one * (r * (2 * one) ^ (m - 1) * one ^ m) := by ring

end Lower

end FixedPoint
