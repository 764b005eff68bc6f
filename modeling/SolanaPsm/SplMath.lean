import SolanaPsm.Checked
import Mathlib.Algebra.Order.Floor.Div

/-!
# The math library the curves call

`spl_math` is a third-party crate, so its routines are parameters of the model.
`SplMath` bundles the routines together with what the curves rely on: the ceiling
division fails on a zero divisor and on a zero truncated quotient, and otherwise
returns the exact ceiling; the 128-bit version also returns the least divisor that
reaches that quotient. Nothing is assumed about `PreciseNumber`.

`SplMath.reference` is a concrete library with these properties; closed evaluations
use it.
-/

namespace SolanaPsm

/-! ## Ceilings -/

/-- A ceiling is the truncated quotient, and one more when there is a remainder. -/
theorem ceilDiv_eq {d : ℕ} (hd : 0 < d) (n : ℕ) :
    n ⌈/⌉ d = if n % d = 0 then n / d else n / d + 1 := by
  have hn := Nat.div_add_mod' n d
  have hlt := Nat.mod_lt n hd
  rw [Nat.ceilDiv_eq_add_pred_div]
  split
  · refine Nat.div_eq_of_lt_le (by omega) ?_
    rw [Nat.add_mul]
    omega
  · refine Nat.div_eq_of_lt_le ?_ ?_
    · rw [Nat.add_mul]
      omega
    · rw [Nat.add_mul, Nat.add_mul]
      omega

/-- A ceiling exceeds the exact quotient by what is missing to the next multiple. -/
theorem ceilDiv_mul_eq {d : ℕ} (hd : 0 < d) (n : ℕ) : n ⌈/⌉ d * d = n + (d - n % d) % d := by
  have hn := Nat.div_add_mod' n d
  have hlt := Nat.mod_lt n hd
  rw [ceilDiv_eq hd]
  split
  · rename_i h0
    rw [h0, Nat.sub_zero, Nat.mod_self]
    omega
  · rename_i h0
    rw [Nat.mod_eq_of_lt (a := d - n % d) (by omega), Nat.add_mul]
    omega

/-- A ceiling exceeds the exact quotient by less than one. -/
theorem ceilDiv_mul_lt {d : ℕ} (hd : 0 < d) (n : ℕ) : n ⌈/⌉ d * d < n + d := by
  rw [ceilDiv_mul_eq hd]
  exact Nat.add_lt_add_left (Nat.mod_lt _ hd) n

/-- One less than a ceiling falls short. -/
theorem ceilDiv_pred_mul_lt {d n : ℕ} (hd : 0 < d) (hn : 0 < n) : (n ⌈/⌉ d - 1) * d < n := by
  have hlt := ceilDiv_mul_lt hd n
  rw [Nat.sub_mul]
  omega

/-! ## The routines -/

/-- The routines of `spl_math`, with the documented behaviour of its ceiling
division. (`x / y` is `0` for `y = 0`, so a zero divisor is a zero quotient.) -/
class SplMath where
  /-- `CheckedCeilDiv for U256` -/
  u256CheckedCeilDiv : U256 → U256 → Option (U256 × U256)
  /-- no quotient, no result -/
  u256CheckedCeilDiv_none : ∀ x y : U256, x.toNat / y.toNat = 0 → u256CheckedCeilDiv x y = none
  /-- the first component is the exact ceiling -/
  u256CheckedCeilDiv_some : ∀ x y : U256, x.toNat / y.toNat ≠ 0 →
    ∃ q r, u256CheckedCeilDiv x y = some (q, r) ∧ q.toNat = x.toNat ⌈/⌉ y.toNat
  /-- `CheckedCeilDiv for u128` -/
  u128CheckedCeilDiv : U128 → U128 → Option (U128 × U128)
  /-- no quotient, no result -/
  u128CheckedCeilDiv_none : ∀ x y : U128, x.toNat / y.toNat = 0 → u128CheckedCeilDiv x y = none
  /-- the exact ceiling, and the least divisor that reaches it -/
  u128CheckedCeilDiv_some : ∀ x y : U128, x.toNat / y.toNat ≠ 0 →
    ∃ q r, u128CheckedCeilDiv x y = some (q, r) ∧ q.toNat = x.toNat ⌈/⌉ y.toNat ∧
      r.toNat = if x.toNat % y.toNat = 0 then y.toNat else x.toNat ⌈/⌉ q.toNat
  /-- fixed-point numbers -/
  PreciseNumber : Type
  /-- `PreciseNumber::new` -/
  preciseNew : U128 → Option PreciseNumber
  /-- `PreciseNumber::checked_add` -/
  preciseAdd : PreciseNumber → PreciseNumber → Option PreciseNumber
  /-- `PreciseNumber::checked_sub` -/
  preciseSub : PreciseNumber → PreciseNumber → Option PreciseNumber
  /-- `PreciseNumber::checked_mul` -/
  preciseMul : PreciseNumber → PreciseNumber → Option PreciseNumber
  /-- `PreciseNumber::checked_div` -/
  preciseDiv : PreciseNumber → PreciseNumber → Option PreciseNumber
  /-- `PreciseNumber::sqrt` -/
  preciseSqrt : PreciseNumber → Option PreciseNumber
  /-- `PreciseNumber::floor` -/
  preciseFloor : PreciseNumber → Option PreciseNumber
  /-- `PreciseNumber::ceiling` -/
  preciseCeiling : PreciseNumber → Option PreciseNumber
  /-- `PreciseNumber::to_imprecise` -/
  toImprecise : PreciseNumber → Option U128

namespace SplMath

/-- The 256-bit ceiling division: it succeeds only with the exact ceiling of a
quotient of at least one. -/
theorem u256CheckedCeilDiv_eq_some [SplMath] {x y q r : U256}
    (h : u256CheckedCeilDiv x y = some (q, r)) :
    x.toNat / y.toNat ≠ 0 ∧ q.toNat = x.toNat ⌈/⌉ y.toNat := by
  by_cases hq : x.toNat / y.toNat = 0
  · rw [u256CheckedCeilDiv_none x y hq] at h
    cases h
  · obtain ⟨q', r', h', hval⟩ := u256CheckedCeilDiv_some x y hq
    rw [h'] at h
    obtain ⟨rfl, rfl⟩ := Prod.mk.inj (Option.some.inj h)
    exact ⟨hq, hval⟩

/-- The 128-bit ceiling division, when it succeeds: the exact ceiling of a quotient of at
least one, and a divisor of at most the given one that reaches the dividend with it, by less
than one quotient. -/
theorem u128CheckedCeilDiv_eq_some [SplMath] {x y q r : U128}
    (h : u128CheckedCeilDiv x y = some (q, r)) :
    0 < q.toNat ∧ x.toNat ≤ y.toNat * q.toNat ∧ y.toNat * (q.toNat - 1) < x.toNat ∧
      r.toNat ≤ y.toNat ∧ x.toNat ≤ r.toNat * q.toNat ∧
      (r.toNat - 1) * q.toNat < x.toNat := by
  have hquot : x.toNat / y.toNat ≠ 0 := by
    intro hquot
    rw [u128CheckedCeilDiv_none x y hquot] at h
    cases h
  obtain ⟨q', r', h', hq, hr⟩ := u128CheckedCeilDiv_some x y hquot
  rw [h'] at h
  obtain ⟨rfl, rfl⟩ := Prod.mk.inj (Option.some.inj h)
  obtain ⟨hy, hyx⟩ := Nat.div_pos_iff.mp (Nat.pos_of_ne_zero hquot)
  have hx : 0 < x.toNat := hy.trans_le hyx
  have hle := (ceilDiv_le_iff_le_mul hy).mp hq.ge
  have hlt := ceilDiv_pred_mul_lt hy hx
  rw [← hq, Nat.mul_comm] at hlt
  have hpos : 0 < q'.toNat := by
    refine Nat.pos_of_ne_zero fun h0 => ?_
    rw [h0, Nat.mul_zero] at hle
    omega
  refine ⟨hpos, hle, hlt, ?_⟩
  split at hr
  · -- an exact division keeps its divisor
    rename_i hexact
    have hmul : x.toNat = y.toNat * q'.toNat := by
      rw [hq, ceilDiv_eq hy, if_pos hexact, Nat.mul_div_cancel' (Nat.dvd_of_mod_eq_zero hexact)]
    rw [hr]
    refine ⟨le_rfl, hmul.le, ?_⟩
    rw [hmul]
    exact Nat.mul_lt_mul_of_pos_right (Nat.pred_lt hy.ne') hpos
  · have hreach := (ceilDiv_le_iff_le_mul hpos).mp hr.ge
    have hleast := ceilDiv_pred_mul_lt hpos hx
    rw [Nat.mul_comm] at hreach
    rw [← hr] at hleast
    rw [Nat.mul_comm] at hle
    refine ⟨?_, hreach, hleast⟩
    rw [hr]
    exact (ceilDiv_le_iff_le_mul hpos).mpr hle

/-! ## A concrete library -/

/-- The ceiling division written out. -/
def ceilDiv {w : ℕ} (x y : BitVec w) : Option (BitVec w × BitVec w) :=
  if x.toNat / y.toNat = 0 then none
  else
    let q := x.toNat ⌈/⌉ y.toNat
    some (BitVec.ofNat w q,
      if x.toNat % y.toNat = 0 then y else BitVec.ofNat w (x.toNat ⌈/⌉ q))

theorem ceilDiv_le_self {n d : ℕ} (hd : 0 < d) : n ⌈/⌉ d ≤ n := by
  rw [ceilDiv_le_iff_le_mul hd]
  exact Nat.le_mul_of_pos_left n hd

theorem ceilDiv_some {w : ℕ} (x y : BitVec w) (h : x.toNat / y.toNat ≠ 0) :
    ∃ q r, ceilDiv x y = some (q, r) ∧ q.toNat = x.toNat ⌈/⌉ y.toNat ∧
      r.toNat = if x.toNat % y.toNat = 0 then y.toNat else x.toNat ⌈/⌉ q.toNat := by
  have hy : 0 < y.toNat := Nat.pos_of_ne_zero fun h0 => h (by rw [h0, Nat.div_zero])
  have hx : 0 < x.toNat := Nat.pos_of_ne_zero fun h0 => h (by rw [h0, Nat.zero_div])
  have hq : x.toNat ⌈/⌉ y.toNat < 2 ^ w := (ceilDiv_le_self hy).trans_lt x.isLt
  have hq0 : 0 < x.toNat ⌈/⌉ y.toNat := by
    rw [Nat.ceilDiv_eq_add_pred_div]
    exact Nat.div_pos (by omega) hy
  have hr : x.toNat ⌈/⌉ (x.toNat ⌈/⌉ y.toNat) < 2 ^ w := (ceilDiv_le_self hq0).trans_lt x.isLt
  refine ⟨_, _, if_neg h, ?_, ?_⟩
  · rw [BitVec.toNat_ofNat, Nat.mod_eq_of_lt hq]
  · rw [BitVec.toNat_ofNat, Nat.mod_eq_of_lt hq]
    split
    · rfl
    · rw [BitVec.toNat_ofNat, Nat.mod_eq_of_lt hr]

/-- The scale of the fixed-point numbers of `reference`. -/
def preciseOne : ℕ := 10 ^ 12

/-- A library with the documented behaviour: the ceiling division written out, and
fixed-point numbers of twelve decimals. -/
@[reducible] def reference : SplMath where
  u256CheckedCeilDiv := ceilDiv
  u256CheckedCeilDiv_none _ _ h := if_pos h
  u256CheckedCeilDiv_some x y h :=
    have ⟨q, r, hs, hq, _⟩ := ceilDiv_some x y h
    ⟨q, r, hs, hq⟩
  u128CheckedCeilDiv := ceilDiv
  u128CheckedCeilDiv_none _ _ h := if_pos h
  u128CheckedCeilDiv_some := ceilDiv_some
  PreciseNumber := ℕ
  preciseNew x := some (x.toNat * preciseOne)
  preciseAdd a b := some (a + b)
  preciseSub a b := if b ≤ a then some (a - b) else none
  preciseMul a b := some (a * b / preciseOne)
  preciseDiv a b := if b = 0 then none else some (a * preciseOne / b)
  preciseSqrt a := some (Nat.sqrt (a * preciseOne))
  preciseFloor a := some (a / preciseOne * preciseOne)
  preciseCeiling a := some (a ⌈/⌉ preciseOne * preciseOne)
  toImprecise a := BitVec.ofNat? 128 (a / preciseOne)

end SplMath

end SolanaPsm
