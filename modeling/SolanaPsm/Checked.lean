import SolanaPsm.Outcome
import Mathlib.Order.MinMax
import Mathlib.Tactic.NormNum

/-!
# Checked fixed-width arithmetic

Unsigned machine integers are bit vectors, read as natural numbers. The operations
below are the ones a program uses when it refuses to wrap around:

* `checkedAdd` … `checkedRem` return nothing when the exact result does not fit
  (or the divisor is zero);
* `mulOrPanic` is an unchecked multiplication operator: it aborts instead;
* `widen`, `tryNarrow`, `narrowOrPanic` change the width.

Each operation has one specification lemma, `…_eq_some` or `…_eq_ok`: it succeeds
with `c` exactly when `c` *is* the exact result as a natural number. That `c` fits
is carried by its type, so no bound appears in the statements; callers reason about
natural numbers and never unfold an operation.
-/

namespace BitVec

variable {w v : ℕ} {ε : Type}

/-- The vector holding `n`, if `n` fits. -/
def ofNat? (w n : ℕ) : Option (BitVec w) :=
  if n < 2 ^ w then some (BitVec.ofNat w n) else none

theorem ofNat?_eq_some {n : ℕ} {c : BitVec w} : ofNat? w n = some c ↔ c.toNat = n := by
  rw [ofNat?]
  refine ⟨?_, ?_⟩
  · intro h
    split at h
    · rename_i hn
      obtain rfl := Option.some.inj h
      exact Nat.mod_eq_of_lt hn
    · cases h
  · rintro rfl
    rw [if_pos c.isLt, BitVec.ofNat_toNat, BitVec.setWidth_eq]

theorem ofNat?_eq_none {n : ℕ} : ofNat? w n = none ↔ 2 ^ w ≤ n := by
  rw [ofNat?]
  split <;> simp <;> omega

/-- A number that fits is the value of a vector. -/
theorem exists_toNat_eq {n : ℕ} (h : n < 2 ^ w) : ∃ c : BitVec w, c.toNat = n :=
  ⟨BitVec.ofNat w n, (BitVec.toNat_ofNat n w).trans (Nat.mod_eq_of_lt h)⟩

/-! ## Checked operations -/

/-- Addition, or nothing on overflow. -/
def checkedAdd (a b : BitVec w) : Option (BitVec w) := ofNat? w (a.toNat + b.toNat)

/-- Subtraction, or nothing when the difference is negative. -/
def checkedSub (a b : BitVec w) : Option (BitVec w) :=
  if b.toNat ≤ a.toNat then ofNat? w (a.toNat - b.toNat) else none

/-- Multiplication, or nothing on overflow. -/
def checkedMul (a b : BitVec w) : Option (BitVec w) := ofNat? w (a.toNat * b.toNat)

/-- Truncating division, or nothing when the divisor is zero. -/
def checkedDiv (a b : BitVec w) : Option (BitVec w) :=
  if b.toNat = 0 then none else ofNat? w (a.toNat / b.toNat)

/-- Remainder, or nothing when the divisor is zero. -/
def checkedRem (a b : BitVec w) : Option (BitVec w) :=
  if b.toNat = 0 then none else ofNat? w (a.toNat % b.toNat)

theorem checkedAdd_eq_some {a b c : BitVec w} :
    a.checkedAdd b = some c ↔ c.toNat = a.toNat + b.toNat := ofNat?_eq_some

theorem checkedSub_eq_some {a b c : BitVec w} :
    a.checkedSub b = some c ↔ b.toNat ≤ a.toNat ∧ c.toNat = a.toNat - b.toNat := by
  rw [checkedSub]
  split
  · simp [*, ofNat?_eq_some]
  · simp [*]

theorem checkedMul_eq_some {a b c : BitVec w} :
    a.checkedMul b = some c ↔ c.toNat = a.toNat * b.toNat := ofNat?_eq_some

theorem checkedDiv_eq_some {a b c : BitVec w} :
    a.checkedDiv b = some c ↔ 0 < b.toNat ∧ c.toNat = a.toNat / b.toNat := by
  rw [checkedDiv]
  split
  · simp [*]
  · simp only [ofNat?_eq_some]
    omega

theorem checkedRem_eq_some {a b c : BitVec w} :
    a.checkedRem b = some c ↔ 0 < b.toNat ∧ c.toNat = a.toNat % b.toNat := by
  rw [checkedRem]
  split
  · simp [*]
  · simp only [ofNat?_eq_some]
    omega

theorem checkedAdd_eq_none {a b : BitVec w} :
    a.checkedAdd b = none ↔ 2 ^ w ≤ a.toNat + b.toNat := ofNat?_eq_none

theorem checkedMul_eq_none {a b : BitVec w} :
    a.checkedMul b = none ↔ 2 ^ w ≤ a.toNat * b.toNat := ofNat?_eq_none

/-- The larger of two vectors. -/
def maximum (a b : BitVec w) : BitVec w := if a ≤ b then b else a

@[simp] theorem toNat_maximum (a b : BitVec w) :
    (a.maximum b).toNat = max a.toNat b.toNat := by
  rw [maximum, max_def, apply_ite BitVec.toNat]
  rfl

/-- The smaller of two vectors. -/
def minimum (a b : BitVec w) : BitVec w := if a ≤ b then a else b

@[simp] theorem toNat_minimum (a b : BitVec w) :
    (a.minimum b).toNat = min a.toNat b.toNat := by
  rw [minimum, min_def, apply_ite BitVec.toNat]
  rfl

/-! ## Unchecked operators -/

/-- Multiplication by the plain operator: aborts on overflow. -/
def mulOrPanic (a b : BitVec w) : Outcome ε (BitVec w) :=
  match a.checkedMul b with
  | some c => .ok c
  | none => .panic

theorem mulOrPanic_eq_ok {a b c : BitVec w} :
    (a.mulOrPanic b : Outcome ε _) = .ok c ↔ c.toNat = a.toNat * b.toNat := by
  rw [← checkedMul_eq_some]
  rw [mulOrPanic]
  cases a.checkedMul b <;> simp

theorem mulOrPanic_eq_panic {a b : BitVec w} :
    (a.mulOrPanic b : Outcome ε _) = .panic ↔ 2 ^ w ≤ a.toNat * b.toNat := by
  rw [← checkedMul_eq_none]
  rw [mulOrPanic]
  cases a.checkedMul b <;> simp

/-! ## Changing the width -/

/-- The same number in a wider vector. -/
def widen (v : ℕ) (a : BitVec w) : BitVec v := a.setWidth v

theorem toNat_widen (h : w ≤ v) (a : BitVec w) : (a.widen v).toNat = a.toNat := by
  rw [widen, BitVec.toNat_setWidth]
  exact Nat.mod_eq_of_lt (lt_of_lt_of_le a.isLt (Nat.pow_le_pow_right (by norm_num) h))

/-- The same number in a narrower vector, or nothing when it does not fit. -/
def tryNarrow (v : ℕ) (a : BitVec w) : Option (BitVec v) := ofNat? v a.toNat

theorem tryNarrow_eq_some {a : BitVec w} {c : BitVec v} :
    a.tryNarrow v = some c ↔ c.toNat = a.toNat := ofNat?_eq_some

/-- The same number in a narrower vector; aborts when it does not fit. -/
def narrowOrPanic (v : ℕ) (a : BitVec w) : Outcome ε (BitVec v) :=
  match a.tryNarrow v with
  | some c => .ok c
  | none => .panic

theorem narrowOrPanic_eq_ok {a : BitVec w} {c : BitVec v} :
    (a.narrowOrPanic v : Outcome ε _) = .ok c ↔ c.toNat = a.toNat := by
  rw [← tryNarrow_eq_some]
  rw [narrowOrPanic]
  cases a.tryNarrow v <;> simp

theorem narrowOrPanic_eq_panic {a : BitVec w} :
    (a.narrowOrPanic v : Outcome ε _) = .panic ↔ 2 ^ v ≤ a.toNat := by
  rw [← ofNat?_eq_none, ← tryNarrow]
  rw [narrowOrPanic]
  cases a.tryNarrow v <;> simp

end BitVec

/-- 64-bit unsigned integers. -/
abbrev U64 : Type := BitVec 64

/-- 128-bit unsigned integers. -/
abbrev U128 : Type := BitVec 128

/-- 256-bit unsigned integers. -/
abbrev U256 : Type := BitVec 256

@[simp] theorem U64.toNat_widen (x : U64) : (x.widen 128).toNat = x.toNat :=
  BitVec.toNat_widen (by decide) x

@[simp] theorem U128.toNat_widen (x : U128) : (x.widen 256).toNat = x.toNat :=
  BitVec.toNat_widen (by decide) x
