import SolanaPsm.RedemptionRate

/-!
# Which powers are computed

The power stops only where a number it forms does not fit in 256 bits. Every one of these
numbers is the product of two representatives of powers that add up to at most the exponent:
no square is formed that the result does not use. So whatever bounds the product that gives
the result bounds them all (`powerPeak_lt`), with the rounding errors counted
(`rpow_defined`), or without any for a base of whole units (`rpow_whole`).
-/

namespace SolanaPsm.RedemptionRateCurve

open FixedPoint

/-- The rule of the largest number: products of representatives that stay below a bound up
to the power computed keep every number of the computation below it. -/
theorem powerPeak_lt {P : ℕ → ℕ → Prop} {x n bound : ℕ} (hbound : 0 < bound) (hunit : P 0 ray)
    (hbase : P 1 x)
    (hmul : ∀ {a b u v : ℕ}, P a u → P b v → P (a + b) (roundMul ray u v))
    (hprod : ∀ {a b u v : ℕ}, P a u → P b v → a + b ≤ n → u * v + ray / 2 < bound) :
    powerPeak x n < bound := by
  -- the low digit of the exponent is already in the accumulator
  have hacc : P (n % 2) (firstDigit ray x n) := by
    rw [firstDigit]
    rcases Nat.mod_two_eq_zero_or_one n with hodd | hodd
    · rw [hodd, if_pos rfl]
      exact hunit
    · rw [hodd, if_neg one_ne_zero]
      exact hbase
  rw [powerPeak_eq]
  refine peak_lt hbound hmul hprod hbase hacc ?_
  rw [Nat.mul_one, Nat.mod_add_div]

/-- The power fails only on genuine overflow: when its upper bound, rounding included, fits,
so does every number formed on the way. -/
theorem rpow_defined {x n : U128} (hray : ray ≤ x.toNat) (hn : 1 ≤ n.toNat)
    (hfits : x.toNat ^ n.toNat * (2 * ray + 1) ^ (n.toNat - 1) * ray ^ 2 ≤
      (2 ^ 256 - 1 - ray / 2) * ray ^ n.toNat * (2 * ray) ^ (n.toNat - 1)) :
    powerPeak x.toNat n.toNat < 2 ^ 256 ∧ ∃ p, rpow x n = some p := by
  have hpeak : powerPeak x.toNat n.toNat < 2 ^ 256 := by
    refine powerPeak_lt (P := Upper ray x.toNat) (by decide) Upper.unit (Upper.base hray)
      (fun hu hv => hu.mul ray_pos hv) ?_
    intro a b u v hu hv hle
    have hproduct : u * v ≤ 2 ^ 256 - 1 - ray / 2 :=
      hu.mul_le ray_pos hray hn hv hle hfits
    have hhalf : ray / 2 < 2 ^ 256 := by decide
    omega
  obtain ⟨p, hp, -⟩ := rpow_of_fits hpeak
  exact ⟨hpeak, p, hp⟩

/-- The third power of two. -/
theorem rpow_defined_two :
    powerPeak (2 * ray) 3 < 2 ^ 256 ∧ ∃ p, rpow (2#128 * RAY) 3#128 = some p :=
  @rpow_defined (2#128 * RAY) 3#128 (by decide) (by decide) (by decide)

/-- The power is exact on whole multiples of `RAY`, and fails only when the product that
gives it does not fit. -/
theorem rpow_whole {k : ℕ} {x n : U128} (hk : 1 ≤ k) (hx : x.toNat = k * ray) :
    (∀ p, rpow x n = some p → p.toNat = k ^ n.toNat * ray) ∧
    (k ^ n.toNat * ray ^ 2 + ray / 2 < 2 ^ 256 → ∃ p, rpow x n = some p) := by
  have hunit : ray = k ^ 0 * ray := by rw [pow_zero, Nat.one_mul]
  have hbase : x.toNat = k ^ 1 * ray := by rw [pow_one, hx]
  have hmul : ∀ {a b u v : ℕ}, u = k ^ a * ray → v = k ^ b * ray →
      roundMul ray u v = k ^ (a + b) * ray := by
    rintro a b _ _ rfl rfl
    rw [roundMul_whole ray_pos, pow_add]
  refine ⟨?_, ?_⟩
  · intro p hp
    have hne : x ≠ 0#128 := by
      refine ne_zero_of_ray_le ?_
      rw [hx]
      exact Nat.le_mul_of_pos_left ray hk
    exact rpow_rep (P := fun m y => y = k ^ m * ray) hne hunit hbase hmul hp
  · intro hfits
    have hpeak : powerPeak x.toNat n.toNat < 2 ^ 256 := by
      refine powerPeak_lt (P := fun m y => y = k ^ m * ray) (by decide) hunit hbase hmul ?_
      rintro a b _ _ rfl rfl hle
      refine lt_of_le_of_lt ?_ hfits
      have hpow : k ^ (a + b) ≤ k ^ n.toNat := Nat.pow_le_pow_right hk hle
      calc k ^ a * ray * (k ^ b * ray) + ray / 2 = k ^ (a + b) * ray ^ 2 + ray / 2 := by
            rw [pow_add]
            ring
        _ ≤ k ^ n.toNat * ray ^ 2 + ray / 2 :=
            Nat.add_le_add_right (Nat.mul_le_mul_right _ hpow) _
    obtain ⟨p, hp, -⟩ := rpow_of_fits hpeak
    exact ⟨p, hp⟩

/-- The fiftieth power of two. -/
theorem rpow_whole_two :
    (∀ p, rpow (2#128 * RAY) 50#128 = some p → p.toNat = 2 ^ 50 * ray) ∧
    ∃ p, rpow (2#128 * RAY) 50#128 = some p :=
  have hwhole := @rpow_whole 2 (2#128 * RAY) 50#128 (by decide) (by decide)
  ⟨hwhole.1, hwhole.2 (by decide)⟩

end SolanaPsm.RedemptionRateCurve
