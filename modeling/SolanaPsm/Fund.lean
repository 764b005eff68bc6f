import Mathlib.Algebra.Order.Ring.Nat
import Mathlib.Tactic.Linarith
import Mathlib.Tactic.Ring

/-!
# Shares of a fund

A fund has a value `V` and `S` shares; a holding of `h` shares is worth `h * V / S`.
The fund is valued in fine units; a routine that issues or redeems shares only sees
the truncated value `T`, in coarse units of `R` fine ones, with
`T * R ≤ V ≤ (T + 1) * R`.

`LosesAtMost d h V S V' S'` says that the holding loses at most `d` when the fund goes
from `(V, S)` to `(V', S')`, cross-multiplied so that no division appears. Losses add
up along a sequence (`trans`). Issuing shares for a truncated price loses less than one
coarse unit (`issue`), and so does redeeming shares (`redeem`). Redeeming shares and
issuing part of them again is compared in truncated values (`redeem_issue`), because
the shares left in between may be fewer than the holding.
-/

namespace Fund

variable {d d' h R S S₁ S' V V₁ V' T T₁ T' w g g' m B : ℕ}

/-- Ratios compare transitively. -/
theorem ratio_trans (hS : 0 < S₁) (h₁ : V * S₁ ≤ V₁ * S) (h₂ : V₁ * S' ≤ V' * S₁) :
    V * S' ≤ V' * S := by
  refine Nat.le_of_mul_le_mul_left ?_ hS
  calc S₁ * (V * S') = V * S₁ * S' := by ring
    _ ≤ V₁ * S * S' := Nat.mul_le_mul_right _ h₁
    _ = V₁ * S' * S := by ring
    _ ≤ V' * S₁ * S := Nat.mul_le_mul_right _ h₂
    _ = S₁ * (V' * S) := by ring

/-- A holding of `h` shares loses at most `d` from `(V, S)` to `(V', S')`. -/
def LosesAtMost (d h V S V' S' : ℕ) : Prop := h * V * S' ≤ h * V' * S + d * S * S'

namespace LosesAtMost

/-- Losses add up. -/
theorem trans (hS : 0 < S₁) (h₁ : LosesAtMost d h V S V₁ S₁)
    (h₂ : LosesAtMost d' h V₁ S₁ V' S') : LosesAtMost (d + d') h V S V' S' := by
  rw [LosesAtMost] at *
  refine Nat.le_of_mul_le_mul_left ?_ hS
  calc S₁ * (h * V * S') = h * V * S₁ * S' := by ring
    _ ≤ (h * V₁ * S + d * S * S₁) * S' := Nat.mul_le_mul_right _ h₁
    _ = h * V₁ * S' * S + d * S * S₁ * S' := by ring
    _ ≤ (h * V' * S₁ + d' * S₁ * S') * S + d * S * S₁ * S' :=
        Nat.add_le_add_right (Nat.mul_le_mul_right _ h₂) _
    _ = S₁ * (h * V' * S + (d + d') * S * S') := by ring

/-- A larger allowance. -/
theorem mono (hd : d ≤ d') (h₁ : LosesAtMost d h V S V' S') : LosesAtMost d' h V S V' S' := by
  rw [LosesAtMost] at *
  have hdust : d * S * S' ≤ d' * S * S' :=
    Nat.mul_le_mul_right _ (Nat.mul_le_mul_right _ hd)
  omega

/-- Nothing is held, nothing is lost. -/
theorem zero_holding : LosesAtMost d 0 V S V' S' := by
  rw [LosesAtMost, Nat.zero_mul, Nat.zero_mul]
  exact Nat.zero_le _

/-- The value rises, the shares stay. -/
theorem of_value_le (hV : V ≤ V') : LosesAtMost 0 h V S V' S := by
  rw [LosesAtMost, Nat.zero_mul, Nat.zero_mul, Nat.add_zero]
  exact Nat.mul_le_mul_right _ (Nat.mul_le_mul_left _ hV)

/-- The value per share does not fall. -/
theorem of_ratio_le (hV : V * S' ≤ V' * S) : LosesAtMost 0 h V S V' S' := by
  rw [LosesAtMost, Nat.zero_mul, Nat.zero_mul, Nat.add_zero, Nat.mul_assoc, Nat.mul_assoc]
  exact Nat.mul_le_mul_left h hV

/-- Issuing `m` shares for `w`, at most as many as the truncated value allows. -/
theorem issue (hm : m * T * R ≤ S * w) (hV : V ≤ (T + 1) * R) (hh : h ≤ S) :
    LosesAtMost R h V S (V + w) (S + m) := by
  rw [LosesAtMost]
  have hshare : V * m ≤ S * w + R * m := by
    calc V * m ≤ (T + 1) * R * m := Nat.mul_le_mul_right m hV
      _ = m * T * R + R * m := by ring
      _ ≤ S * w + R * m := Nat.add_le_add_right hm _
  have hdust : h * (R * m) ≤ R * S * m := by
    calc h * (R * m) ≤ S * (R * m) := Nat.mul_le_mul_right _ hh
      _ = R * S * m := by ring
  calc h * V * (S + m) = h * V * S + h * (V * m) := by ring
    _ ≤ h * V * S + h * (S * w + R * m) := Nat.add_le_add_left (Nat.mul_le_mul_left h hshare) _
    _ = h * (V + w) * S + h * (R * m) := by ring
    _ ≤ h * (V + w) * S + R * S * (S + m) :=
        Nat.add_le_add_left (hdust.trans (Nat.mul_le_mul_left _ (Nat.le_add_left m S))) _

/-- Redeeming `B` shares for `w`, at least as many as the truncated value `g` of what is
paid requires. -/
theorem redeem (hB : S * g ≤ B * T) (hT : T * R ≤ V) (hw : w ≤ (g + 1) * R) (hwV : w ≤ V)
    (hBS : B ≤ S) (hh : h ≤ S - B) : LosesAtMost R h V S (V - w) (S - B) := by
  rw [LosesAtMost]
  obtain ⟨S₁, rfl⟩ := Nat.exists_eq_add_of_le hBS
  obtain ⟨V₁, rfl⟩ := Nat.exists_eq_add_of_le hwV
  rw [Nat.add_sub_cancel_left] at hh ⊢
  rw [Nat.add_sub_cancel_left]
  have hpaid : (B + S₁) * (g * R) ≤ B * (w + V₁) := by
    calc (B + S₁) * (g * R) = (B + S₁) * g * R := by ring
      _ ≤ B * T * R := Nat.mul_le_mul_right R hB
      _ = B * (T * R) := by ring
      _ ≤ B * (w + V₁) := Nat.mul_le_mul_left B hT
  have hworth : (B + S₁) * w ≤ B * (w + V₁) + (B + S₁) * R := by
    calc (B + S₁) * w ≤ (B + S₁) * ((g + 1) * R) := Nat.mul_le_mul_left _ hw
      _ = (B + S₁) * (g * R) + (B + S₁) * R := by ring
      _ ≤ B * (w + V₁) + (B + S₁) * R := Nat.add_le_add_right hpaid _
  have hrest : (w + V₁) * S₁ ≤ V₁ * (B + S₁) + R * (B + S₁) := by
    have hexpand : (B + S₁) * w + V₁ * (B + S₁) = B * (w + V₁) + (w + V₁) * S₁ := by ring
    have hcomm : R * (B + S₁) = (B + S₁) * R := Nat.mul_comm _ _
    omega
  calc h * (w + V₁) * S₁ = h * ((w + V₁) * S₁) := Nat.mul_assoc _ _ _
    _ ≤ h * (V₁ * (B + S₁) + R * (B + S₁)) := Nat.mul_le_mul_left h hrest
    _ = h * V₁ * (B + S₁) + R * (B + S₁) * h := by ring
    _ ≤ h * V₁ * (B + S₁) + R * (B + S₁) * S₁ :=
        Nat.add_le_add_left (Nat.mul_le_mul_left _ hh) _

/-- When truncated values keep their ratio, a holding loses less than one coarse unit. -/
theorem of_truncated (hratio : S' * T ≤ S * T') (hV : V ≤ (T + 1) * R) (hV' : T' * R ≤ V')
    (hh : h ≤ S) : LosesAtMost R h V S V' S' := by
  rw [LosesAtMost]
  calc h * V * S' ≤ h * ((T + 1) * R) * S' :=
        Nat.mul_le_mul_right _ (Nat.mul_le_mul_left _ hV)
    _ = h * R * (S' * T) + h * (R * S') := by ring
    _ ≤ h * R * (S * T') + S * (R * S') :=
        Nat.add_le_add (Nat.mul_le_mul_left _ hratio) (Nat.mul_le_mul_right _ hh)
    _ = h * (T' * R) * S + R * S * S' := by ring
    _ ≤ h * V' * S + R * S * S' :=
        Nat.add_le_add_right (Nat.mul_le_mul_right _ (Nat.mul_le_mul_left _ hV')) _

end LosesAtMost

/-- Redeeming `B` shares for a truncated value of at least what leaves, then issuing `m`
shares for `g'` of it again: the truncated value per share does not fall. -/
theorem redeem_issue (hB : S * g ≤ B * T) (hBS : B ≤ S) (hT₁ : T ≤ T₁ + g)
    (hm : m * T₁ ≤ (S - B) * g') (hpos : 0 < T₁ ∨ m = 0) (hT' : T₁ + g' ≤ T') :
    (S - B + m) * T ≤ S * T' := by
  obtain ⟨S₁, rfl⟩ := Nat.exists_eq_add_of_le hBS
  rw [Nat.add_sub_cancel_left] at hm ⊢
  have hleft : S₁ * T ≤ (B + S₁) * T₁ := by
    have hsplit : (B + S₁) * T ≤ (B + S₁) * (T₁ + g) := Nat.mul_le_mul_left _ hT₁
    rw [Nat.mul_add, Nat.add_mul] at hsplit
    omega
  have hissued : m * T ≤ (B + S₁) * g' := by
    rcases Nat.eq_zero_or_pos S₁ with rfl | hS₁
    · -- no share is left to issue against
      rcases hpos with hpos | rfl
      · have hzero : m * T₁ = 0 := by
          rw [Nat.zero_mul] at hm
          omega
        rcases Nat.mul_eq_zero.mp hzero with rfl | h0
        · rw [Nat.zero_mul]
          exact Nat.zero_le _
        · omega
      · rw [Nat.zero_mul]
        exact Nat.zero_le _
    · refine Nat.le_of_mul_le_mul_left ?_ hS₁
      calc S₁ * (m * T) = m * (S₁ * T) := by ring
        _ ≤ m * ((B + S₁) * T₁) := Nat.mul_le_mul_left m hleft
        _ = (B + S₁) * (m * T₁) := by ring
        _ ≤ (B + S₁) * (S₁ * g') := Nat.mul_le_mul_left _ hm
        _ = S₁ * ((B + S₁) * g') := by ring
  calc (S₁ + m) * T = S₁ * T + m * T := Nat.add_mul _ _ _
    _ ≤ (B + S₁) * T₁ + (B + S₁) * g' := Nat.add_le_add hleft hissued
    _ = (B + S₁) * (T₁ + g') := (Nat.mul_add _ _ _).symm
    _ ≤ (B + S₁) * T' := Nat.mul_le_mul_left _ hT'

/-! ## Exact values

`g` and `T` are truncated values, in coarse units of `R`; `e` and `f` are what the
truncation dropped from them. Shares are redeemed and issued at the ratio of `g` to `T`
(`ratio_trans`), so it matters how this ratio compares with the exact one. -/

section Exact

variable {e f y : ℕ}

/-- A product of exact values, split at the truncation of either factor. -/
theorem mul_eq_of_truncated (hy : g * R + e = y) (hV : T * R + f = V) :
    y * T * R + y * f = g * V * R + e * V := by
  calc y * T * R + y * f = y * (T * R + f) := by ring
    _ = (g * R + e) * V := by rw [hV, hy]
    _ = g * V * R + e * V := by ring

/-- The exact ratio is at most the truncated one when the part loses no larger a share of
itself to the truncation than the whole. -/
theorem exact_ratio_le_iff (hR : 0 < R) (hy : g * R + e = y) (hV : T * R + f = V) :
    y * T ≤ g * V ↔ e * V ≤ y * f := by
  have hsplit := mul_eq_of_truncated hy hV
  rw [← Nat.mul_le_mul_right_iff hR]
  omega

/-- The truncated ratio is at most the exact one when the whole loses no larger a share of
itself to the truncation than the part. -/
theorem truncated_ratio_le_iff (hR : 0 < R) (hy : g * R + e = y) (hV : T * R + f = V) :
    g * V ≤ y * T ↔ y * f ≤ e * V := by
  have hsplit := mul_eq_of_truncated hy hV
  rw [← Nat.mul_le_mul_right_iff hR]
  omega

end Exact

end Fund
