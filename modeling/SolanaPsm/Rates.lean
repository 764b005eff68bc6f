import SolanaPsm.RedemptionRate
import SolanaPsm.Transition

/-!
# Runs of rate updates

What any sequence of updates does to the quoted price, and when an update leaves the
curve usable.

`Capped` is the invariant of a run under a limit: the price has not fallen, and it
has not grown faster than the limit compounding over the seconds since the start,
each second allowed one rounding of the fixed-point power. An update spends the
seconds between the old and the new `rho`, the final quote those since `rho`, and
both through the same lemma, `Capped.accrue`.
-/

namespace SolanaPsm.RedemptionRateCurve

open FixedPoint Transition

/-- The arguments of a rate update. -/
structure RateUpdate : Type where
  /-- new rate -/
  ssr : U128
  /-- time of the update -/
  rho : U128
  /-- conversion factor at that time -/
  chi : U128
  /-- clock at the update -/
  now : U128
  deriving DecidableEq, Repr

/-- A successful update. -/
def RateStep (c : RedemptionRateCurve) (u : RateUpdate) (c' : RedemptionRateCurve) : Prop :=
  c.setRates u.ssr u.rho u.chi u.now = .ok c'

/-! ## The cap on the price -/

/-- `c` is reached from `c₀` under its limit. -/
structure Capped (c₀ c : RedemptionRateCurve) : Prop where
  /-- the limit does not change -/
  maxSsr : c.maxSsr = c₀.maxSsr
  /-- the first update lies behind -/
  rho_ne : c.rho ≠ 0#128
  /-- the rate is at least one -/
  ray_le : ray ≤ c.ssr.toNat
  /-- the rate respects the limit -/
  le_max : c.ssr.toNat ≤ c₀.maxSsr.toNat
  /-- time goes on -/
  rho_le : c₀.rho.toNat ≤ c.rho.toNat
  /-- the price does not fall -/
  chi_le : c₀.chi.toNat ≤ c.chi.toNat
  /-- the price does not outgrow the limit -/
  cap : c.chi.toNat * (2 * ray * ray) ^ (c.rho.toNat - c₀.rho.toNat) ≤
    c₀.chi.toNat * (c₀.maxSsr.toNat * (2 * ray + 1)) ^ (c.rho.toNat - c₀.rho.toNat)

/-- Accruing `x` from `chi` over `d` more seconds, at a base below the limit, keeps
the cap. -/
theorem Capped.accrue {c₀ c : RedemptionRateCurve} (h : Capped c₀ c) {b d : U128} {p : U256}
    {x : ℕ} (hb : ray ≤ b.toNat) (hmax : b.toNat ≤ c₀.maxSsr.toNat) (hp : rpow b d = some p)
    (hx : x * ray ≤ p.toNat * c.chi.toNat) :
    x * (2 * ray * ray) ^ (c.rho.toNat - c₀.rho.toNat + d.toNat) ≤
      c₀.chi.toNat *
        (c₀.maxSsr.toNat * (2 * ray + 1)) ^ (c.rho.toNat - c₀.rho.toNat + d.toNat) := by
  have hpow := (rpow_upper hb hp).bound'
  have hbase : (b.toNat * (2 * ray + 1)) ^ d.toNat ≤
      (c₀.maxSsr.toNat * (2 * ray + 1)) ^ d.toNat :=
    Nat.pow_le_pow_left (Nat.mul_le_mul_right _ hmax) _
  have hcap := h.cap
  generalize hk : 2 * ray * ray = k at *
  generalize hm : c₀.maxSsr.toNat * (2 * ray + 1) = m at *
  generalize c.rho.toNat - c₀.rho.toNat = e at *
  refine Nat.le_of_mul_le_mul_right ?_ ray_pos
  calc x * k ^ (e + d.toNat) * ray
      = x * ray * (k ^ e * k ^ d.toNat) := by rw [pow_add]; ring
    _ ≤ p.toNat * c.chi.toNat * (k ^ e * k ^ d.toNat) := Nat.mul_le_mul_right _ hx
    _ = p.toNat * k ^ d.toNat * (c.chi.toNat * k ^ e) := by ring
    _ ≤ ray * m ^ d.toNat * (c₀.chi.toNat * m ^ e) :=
        Nat.mul_le_mul (hpow.trans (Nat.mul_le_mul_left _ hbase)) hcap
    _ = c₀.chi.toNat * m ^ (e + d.toNat) * ray := by rw [pow_add]; ring

/-- The start of a run. -/
theorem Capped.start {c₀ : RedemptionRateCurve} (hrho : c₀.rho ≠ 0#128)
    (hray : ray ≤ c₀.ssr.toNat) (hle : c₀.ssr.toNat ≤ c₀.maxSsr.toNat) : Capped c₀ c₀ where
  maxSsr := rfl
  rho_ne := hrho
  ray_le := hray
  le_max := hle
  rho_le := le_rfl
  chi_le := le_rfl
  cap := by rw [Nat.sub_self, pow_zero, pow_zero]

/-- An update keeps the cap. -/
theorem Capped.step {c₀ c c' : RedemptionRateCurve} {u : RateUpdate} (hmax : c₀.maxSsr ≠ 0#128)
    (h : Capped c₀ c) (hstep : RateStep c u c') : Capped c₀ c' := by
  have hu := Update.of_setRates hstep
  obtain ⟨hrho, hchi⟩ := hu.mono h.rho_ne
  have hlimit : c.maxSsr ≠ 0#128 := by rwa [h.maxSsr]
  obtain ⟨d, p, hd, hp, hgrow⟩ := hu.growth h.rho_ne hlimit
  obtain ⟨-, hd⟩ := BitVec.checkedSub_eq_some.mp hd
  rw [h.maxSsr] at hp
  have hle : u.ssr.toNat ≤ c₀.maxSsr.toNat := by
    rw [← h.maxSsr]
    exact hu.le_max.resolve_left hlimit
  have hcap := h.accrue (h.ray_le.trans h.le_max) le_rfl hp hgrow
  have hspan : c.rho.toNat - c₀.rho.toNat + d.toNat = u.rho.toNat - c₀.rho.toNat := by
    have := h.rho_le
    omega
  rw [hspan] at hcap
  rw [hu.result]
  refine ⟨h.maxSsr, ?_, hu.ray_le, hle, h.rho_le.trans hrho, h.chi_le.trans hchi, hcap⟩
  -- a later `rho` than a positive one is positive
  intro h0
  have hzero : u.rho.toNat = 0 := congrArg BitVec.toNat h0
  have hpos : c.rho.toNat ≠ 0 := fun h0 => h.rho_ne (BitVec.eq_of_toNat_eq h0)
  omega

/-- `max_ssr` caps the quoted price over any run of updates: it never falls below the
initial `chi` and never grows faster than `max_ssr` compounding per second, up to the
half-unit rounding factor of the power. -/
theorem quoted_price_capped {c₀ c : RedemptionRateCurve} {updates : List RateUpdate} {t : U128}
    {r : U256} (hrho : c₀.rho ≠ 0#128) (hmax : c₀.maxSsr ≠ 0#128) (hray : ray ≤ c₀.ssr.toNat)
    (hle : c₀.ssr.toNat ≤ c₀.maxSsr.toNat) (hrun : Run RateStep c₀ updates c)
    (ht : c.rho.toNat ≤ t.toNat) (hr : c.getConversionRate t = .ok r) :
    c₀.chi.toNat ≤ r.toNat ∧
    r.toNat * (2 * ray * ray) ^ (t.toNat - c₀.rho.toNat) ≤
      c₀.chi.toNat * (c₀.maxSsr.toNat * (2 * ray + 1)) ^ (t.toNat - c₀.rho.toNat) := by
  have h : Capped c₀ c :=
    hrun.invariant (fun hs hstep => Capped.step hmax hs hstep) (Capped.start hrho hray hle)
  rcases getConversionRate_eq_ok.mp hr with ⟨rfl, hval⟩ | ⟨-, d, p, hd, hp, -, hval⟩
  · rw [hval]
    exact ⟨h.chi_le, h.cap⟩
  · obtain ⟨-, hd⟩ := BitVec.checkedSub_eq_some.mp hd
    have hspan : c.rho.toNat - c₀.rho.toNat + d.toNat = t.toNat - c₀.rho.toNat := by
      have := h.rho_le
      omega
    have hmul : r.toNat * ray ≤ p.toNat * c.chi.toNat := by
      rw [hval]
      exact Nat.div_mul_le_self _ _
    have hcap := h.accrue h.ray_le h.le_max hp hmul
    rw [hspan] at hcap
    refine ⟨h.chi_le.trans ?_, hcap⟩
    -- a power of a rate of at least one is at least one
    rw [hval, Nat.le_div_iff_mul_le ray_pos, Nat.mul_comm]
    exact Nat.mul_le_mul_right _ (rpow_upper h.ray_le hp).one_le

/-- A pool at price one, capped at doubling every second, updated once. -/
theorem quoted_price_capped_doubling :
    ray ≤ 3 * ray ∧
    3 * ray * (2 * ray * ray) ^ 2 ≤ ray * (2 * ray * (2 * ray + 1)) ^ 2 :=
  let c₀ : RedemptionRateCurve := ⟨2 * RAY, RAY, 1#128, RAY⟩
  let u : RateUpdate := ⟨2 * RAY, 2#128, 3 * (RAY / 2#128), 5#128⟩
  let c : RedemptionRateCurve := c₀.withRates u.ssr u.rho u.chi
  @quoted_price_capped c₀ c [u] 3#128 (3 * RAY.widen 256)
    (by decide) (by decide) (by decide) (by decide)
    (Run.single (show c₀.setRates _ _ _ _ = _ by decide +kernel)) (by decide)
    (by decide +kernel)

/-! ## Updates that leave a usable price -/

/-- The price `elapsed` seconds after `rho` fits in 256 bits, and so does every number
formed on the way: the products of the power and its product with `chi`. -/
def RateFits (ssr chi elapsed : ℕ) : Prop :=
  powerPeak ssr elapsed < 2 ^ 256 ∧ unboundedPower ssr elapsed * chi < 2 ^ 256

instance (ssr chi elapsed : ℕ) : Decidable (RateFits ssr chi elapsed) :=
  inferInstanceAs (Decidable (_ ∧ _))

/-- At `rho` itself there is nothing to accrue. -/
theorem rateFits_zero (ssr : ℕ) (chi : U128) : RateFits ssr chi.toNat 0 := by
  refine ⟨?_, ?_⟩
  · rw [powerPeak, Nat.zero_div, peak_zero]
    exact Nat.two_pow_pos 256
  · rw [unboundedPower, Nat.zero_div, roundPow_zero, if_pos rfl]
    exact (Nat.mul_lt_mul_of_pos_left chi.isLt ray_pos).trans (by decide)

/-- Spec of the conversion rate over the natural numbers: it is quoted from `rho` on, as
long as it fits. -/
theorem getConversionRate_eq_ok_iff_fits {c : RedemptionRateCurve} {t : U128} {r : U256} :
    c.getConversionRate t = .ok r ↔ c.rho.toNat ≤ t.toNat ∧
      RateFits c.ssr.toNat c.chi.toNat (t.toNat - c.rho.toNat) ∧
      r.toNat = unboundedPower c.ssr.toNat (t.toNat - c.rho.toNat) * c.chi.toNat / ray := by
  rw [getConversionRate_eq_ok]
  by_cases ht : t = c.rho
  · have hvalue : unboundedPower c.ssr.toNat 0 * c.chi.toNat / ray = c.chi.toNat := by
      rw [unboundedPower, Nat.zero_div, roundPow_zero, if_pos rfl,
        Nat.mul_div_cancel_left _ ray_pos]
    simp only [ht, true_and, ne_eq, not_true_eq_false, false_and, or_false, le_refl, Nat.sub_self,
      hvalue, rateFits_zero]
  · simp only [ht, false_and, false_or, ne_eq, not_false_eq_true, true_and]
    refine ⟨?_, ?_⟩
    · rintro ⟨d, p, hd, hp, hlt, hr⟩
      obtain ⟨hle, hd⟩ := BitVec.checkedSub_eq_some.mp hd
      obtain ⟨hpeak, hval⟩ := fits_of_rpow hp
      rw [hd] at hpeak hval
      rw [hval] at hlt hr
      exact ⟨hle, ⟨hpeak, hlt⟩, hr⟩
    · rintro ⟨hle, ⟨hpeak, hlt⟩, hr⟩
      have hd : (t - c.rho).toNat = t.toNat - c.rho.toNat := BitVec.toNat_sub_of_le hle
      rw [← hd] at hpeak hlt hr
      obtain ⟨p, hp, hval⟩ := rpow_of_fits hpeak
      rw [← hval] at hlt hr
      exact ⟨t - c.rho, p, BitVec.checkedSub_eq_some.mpr ⟨hle, hd⟩, hp, hlt, hr⟩

/-- A power of a rate of at least one is at least one. -/
theorem ray_le_unboundedPower {ssr n : ℕ} (hray : ray ≤ ssr) : ray ≤ unboundedPower ssr n := by
  rw [unboundedPower]
  refine one_le_roundPow ray_pos hray ?_
  split
  · exact le_rfl
  · exact hray

/-- A price with a rate of at least one is at least `chi`. -/
theorem chi_le_accrued {ssr chi n : ℕ} (hray : ray ≤ ssr) :
    chi ≤ unboundedPower ssr n * chi / ray := by
  rw [Nat.le_div_iff_mul_le ray_pos, Nat.mul_comm]
  exact Nat.mul_le_mul_right _ (ray_le_unboundedPower hray)

/-- A price with a rate of at least one and a `chi` other than zero is zero at no
time. -/
theorem validate_eq_ok_iff_fits {c : RedemptionRateCurve} {now : U128} (hray : ray ≤ c.ssr.toNat)
    (hrho : c.rho.toNat ≤ now.toNat) :
    c.validate (some now) = .ok () ↔ c.chi ≠ 0#128 ∧
      (c.rho ≠ now → RateFits c.ssr.toNat c.chi.toNat (now.toNat - c.rho.toNat)) := by
  have hfits : (c.rho ≠ now → RateFits c.ssr.toNat c.chi.toNat (now.toNat - c.rho.toNat)) ↔
      RateFits c.ssr.toNat c.chi.toNat (now.toNat - c.rho.toNat) := by
    refine ⟨fun h => ?_, fun h _ => h⟩
    by_cases hnow : c.rho = now
    · rw [hnow, Nat.sub_self]
      exact rateFits_zero _ _
    · exact h hnow
  have hzero {r : U256} : r ≠ 0#256 ↔ r.toNat ≠ 0 := by rw [ne_eq, ← BitVec.toNat_inj]; rfl
  have hchi0 : c.chi ≠ 0#128 ↔ c.chi.toNat ≠ 0 := by rw [ne_eq, ← BitVec.toNat_inj]; rfl
  rw [validate_eq_ok, hfits, hchi0]
  simp only [hzero, getConversionRate_eq_ok_iff_fits, hrho, true_and]
  refine ⟨?_, ?_⟩
  · rintro ⟨r, ⟨hfits, hr⟩, hr0⟩
    refine ⟨fun h0 => hr0 ?_, hfits⟩
    rw [hr, h0, Nat.mul_zero, Nat.zero_div]
  · rintro ⟨hchi, hfits⟩
    obtain ⟨r, hr⟩ := BitVec.exists_toNat_eq ((Nat.div_le_self _ ray).trans_lt hfits.2)
    refine ⟨r, ⟨hfits, hr⟩, ?_⟩
    rw [hr]
    exact (Nat.pos_of_ne_zero hchi |>.trans_le (chi_le_accrued hray)).ne'

/-- A valid curve has a `chi` other than zero. -/
theorem chi_ne_zero_of_validate {c : RedemptionRateCurve} {now : U128}
    (h : c.validate (some now) = .ok ()) : c.chi.toNat ≠ 0 := by
  obtain ⟨r, hr, hr0⟩ := validate_eq_ok.mp h
  have hr0 : r.toNat ≠ 0 := fun h0 => hr0 (BitVec.eq_of_toNat_eq h0)
  intro h0
  rcases getConversionRate_eq_ok.mp hr with ⟨-, hr⟩ | ⟨-, d, p, -, -, -, hr⟩
  · exact hr0 (hr.trans h0)
  · rw [h0, Nat.mul_zero, Nat.zero_div] at hr
    exact hr0 hr

/-- A successful update of a valid curve leaves it valid exactly when the first update
does not set `chi` to zero and the price accrued since the given `rho` still fits. -/
theorem setRates_validate_iff {c c' : RedemptionRateCurve} {ssr rho chi now : U128}
    (hv : c.validate (some now) = .ok ()) (h : c.setRates ssr rho chi now = .ok c') :
    c'.validate (some now) = .ok () ↔ (c.rho = 0#128 → chi ≠ 0#128) ∧
      (rho ≠ now → RateFits ssr.toNat chi.toNat (now.toNat - rho.toNat)) := by
  have hu := Update.of_setRates h
  rw [hu.result, validate_eq_ok_iff_fits (show ray ≤ (c.withRates ssr rho chi).ssr.toNat from
    hu.ray_le) hu.rho_le]
  refine and_congr_left fun _ => ⟨fun hchi _ => hchi, fun hfirst => ?_⟩
  by_cases h0 : c.rho = 0#128
  · exact hfirst h0
  · -- `chi` does not fall below the old one, which is not zero
    intro hchi
    have hzero : chi.toNat = 0 := congrArg BitVec.toNat hchi
    have := (hu.mono h0).2
    have := chi_ne_zero_of_validate hv
    omega

/-- A first update at price one, of a pool that has accrued since the epoch. -/
theorem setRates_validate_iff_first :
    RedemptionRateCurve.validate ⟨0#128, RAY, 1700000000#128, RAY⟩ (some 1700000000#128) = .ok () :=
  (@setRates_validate_iff ⟨0#128, RAY, 0#128, RAY⟩ ⟨0#128, RAY, 1700000000#128, RAY⟩ RAY
    1700000000#128 RAY 1700000000#128 (by decide +kernel) (by decide +kernel)).mpr
    ⟨fun _ => by decide, fun h => absurd rfl h⟩

/-- The first update may set `chi` to zero, and the price with it. -/
theorem setRates_may_invalidate :
    ¬ ∀ (c c' : RedemptionRateCurve) (ssr rho chi now : U128), c.validate (some now) = .ok () →
      c.setRates ssr rho chi now = .ok c' → c'.validate (some now) = .ok () := by
  intro h
  have hzero := h ⟨0#128, RAY, 0#128, RAY⟩ ⟨0#128, RAY, 1700000000#128, 0#128⟩ RAY
    1700000000#128 0#128 1700000000#128 (by decide +kernel) (by decide +kernel)
  exact absurd hzero (by decide +kernel)

end SolanaPsm.RedemptionRateCurve
