import Mathlib.Data.List.Basic
import Mathlib.Order.Monotone.Basic

/-!
# Runs of a labelled transition relation

A `Run step s as t` performs the steps labelled `as` one after the other, from `s`
to `t`. `Run.invariant` carries what one step does to a whole run: a predicate every step
preserves holds at the end. `Run.invariant_of` is the version for runs whose labels all
satisfy a condition. `Run.simulate` carries a step-by-step simulation to whole runs.

A `Potential` rises with what it measures; a run that keeps it cannot take anything away
(`Run.keeps`).
-/

namespace Transition

variable {σ α : Type}

/-- The steps labelled `as`, in order, lead from the first state to the second. -/
inductive Run (step : σ → α → σ → Prop) : σ → List α → σ → Prop where
  /-- no step -/
  | nil (s : σ) : Run step s [] s
  /-- a step, then a run -/
  | cons {s u t : σ} {a : α} {as : List α} : step s a u → Run step u as t → Run step s (a :: as) t

namespace Run

variable {step : σ → α → σ → Prop} {s t u : σ} {as bs : List α}

/-- Runs compose. -/
theorem append (h : Run step s as u) (h' : Run step u bs t) : Run step s (as ++ bs) t := by
  induction h with
  | nil s => exact h'
  | cons hstep _ ih => exact cons hstep (ih h')

/-- One step is a run. -/
theorem single {a : α} (h : step s a t) : Run step s [a] t := cons h (nil t)

/-- A run whose labels are constrained, with an invariant that may use the constraint. -/
theorem invariant_of {A : α → Prop} {P : σ → Prop}
    (hstep : ∀ {s a u}, A a → P s → step s a u → P u) (h : Run step s as t)
    (has : ∀ a ∈ as, A a) (hs : P s) : P t := by
  induction h with
  | nil s => exact hs
  | cons hu _ ih =>
    rw [List.forall_mem_cons] at has
    exact ih has.2 (hstep has.1 hs hu)

/-- What every step preserves, every run preserves. -/
theorem invariant {P : σ → Prop} (hstep : ∀ {s a u}, P s → step s a u → P u)
    (h : Run step s as t) (hs : P s) : P t :=
  h.invariant_of (A := fun _ => True) (fun _ => hstep) (fun _ _ => trivial) hs

/-- What every step relates, every run relates, when the relation composes. -/
theorem relates_of {A : α → Prop} {R : σ → σ → Prop} (hrefl : ∀ s, R s s)
    (htrans : ∀ {s t u}, R s t → R t u → R s u) (hstep : ∀ {s a u}, A a → step s a u → R s u)
    (h : Run step s as t) (has : ∀ a ∈ as, A a) : R s t := by
  induction h with
  | nil s => exact hrefl s
  | cons hu _ ih =>
    rw [List.forall_mem_cons] at has
    exact htrans (hstep has.1 hu) (ih has.2)

/-- A run that starts where some labels are barred has none of them. -/
theorem avoids {A : α → Prop} {P : σ → Prop} (h : Run step s as t) (hs : P s)
    (hkeeps : ∀ {s a u}, P s → step s a u → P u) (hbars : ∀ {s a u}, P s → step s a u → ¬ A a) :
    ∀ a ∈ as, ¬ A a := by
  induction h with
  | nil s => exact List.forall_mem_nil _
  | cons hu _ ih => exact List.forall_mem_cons.mpr ⟨hbars hs hu, ih (hkeeps hs hu)⟩

/-- A step that bars its own repetition is made once. -/
theorem once {A : α → Prop} {P : σ → Prop} {before after : List α} {a : α}
    (h : Run step s (before ++ a :: after) t) (ha : A a)
    (hkeeps : ∀ {s a u}, P s → step s a u → P u) (hbars : ∀ {s a u}, P s → step s a u → ¬ A a)
    (hleads : ∀ {s a u}, step s a u → A a → P u) : ∀ b ∈ before ++ after, ¬ A b := by
  induction before generalizing s with
  | nil =>
    cases h with
    | cons hu hrest => exact hrest.avoids (hleads hu ha) hkeeps hbars
  | cons b before ih =>
    cases h with
    | cons hu hrest =>
      refine List.forall_mem_cons.mpr ⟨fun hb => ?_, ih hrest⟩
      -- after the first such step, the other one is barred
      exact hrest.avoids (hleads hu hb) hkeeps hbars a
        (List.mem_append_right before List.mem_cons_self) ha

/-- A map that takes every step to a step of the same label takes every run to a run. -/
theorem map {τ : Type} {T : τ → α → τ → Prop} (f : σ → τ)
    (hstep : ∀ {s a u}, step s a u → T (f s) a (f u)) (h : Run step s as t) :
    Run T (f s) as (f t) := by
  induction h with
  | nil s => exact nil (f s)
  | cons hu _ ih => exact cons (hstep hu) ih

/-- Forward simulation: when every step is matched by a step of another system, between related
states, every run is matched by a run of it, label by label. -/
theorem simulate {τ β : Type} {T : τ → β → τ → Prop} {A : α → Prop} {R : σ → τ → Prop}
    {M : α → β → Prop}
    (hstep : ∀ {s a u x}, A a → R s x → step s a u → ∃ b y, M a b ∧ T x b y ∧ R u y)
    (h : Run step s as t) (has : ∀ a ∈ as, A a) {x : τ} (hR : R s x) :
    ∃ bs y, List.Forall₂ M as bs ∧ Run T x bs y ∧ R t y := by
  induction h generalizing x with
  | nil s => exact ⟨[], x, .nil, nil x, hR⟩
  | cons hu _ ih =>
    rw [List.forall_mem_cons] at has
    obtain ⟨b, y, hM, hxy, hR'⟩ := hstep has.1 hR hu
    obtain ⟨bs, z, hMs, hrun, hRz⟩ := ih has.2 hR'
    exact ⟨b :: bs, z, .cons hM hMs, cons hxy hrun, hRz⟩

end Run

/-! ## Potentials -/

section Potential

variable {ρ : Type} [PartialOrder ρ]

/-- A measure of what there is: it rises with it, and where it is positive, less is less. -/
structure Potential (D : ρ → ℕ) : Prop where
  /-- more is more -/
  mono : Monotone D
  /-- less is less -/
  strict : ∀ {x y}, x ≤ y → 0 < D y → D y ≤ D x → x = y

/-- A step that only adds, or that starts from a positive potential and keeps it. -/
def Keeps (D : ρ → ℕ) (x y : ρ) : Prop := x ≤ y ∨ 0 < D x ∧ D x ≤ D y

/-- Steps that keep a potential lose nothing for free: whatever the run, it cannot end with less
than it started from. -/
theorem Run.keeps {step : σ → α → σ → Prop} {D : ρ → ℕ} {r : σ → ρ} {s t : σ} {as : List α}
    (hD : Potential D) (hstep : ∀ {s a u}, step s a u → Keeps D (r s) (r u))
    (h : Run step s as t) : D (r s) ≤ D (r t) ∧ (r t ≤ r s → r t = r s) := by
  -- without a potential there were no steps but those that add
  have hrel : D (r s) ≤ D (r t) ∧ (D (r t) = 0 → r s ≤ r t) := by
    refine h.relates_of (A := fun _ => True)
      (R := fun s t => D (r s) ≤ D (r t) ∧ (D (r t) = 0 → r s ≤ r t)) ?_ ?_ ?_ fun _ _ => trivial
    · exact fun s => ⟨le_rfl, fun _ => le_rfl⟩
    · rintro s t u ⟨hle, hzero⟩ ⟨hle', hzero'⟩
      refine ⟨hle.trans hle', fun hu => ?_⟩
      exact (hzero (Nat.eq_zero_of_le_zero (hu ▸ hle'))).trans (hzero' hu)
    · rintro s a u - hu
      rcases hstep hu with hle | ⟨hpos, hle⟩
      · exact ⟨hD.mono hle, fun _ => hle⟩
      · exact ⟨hle, fun hu => absurd hu (hpos.trans_le hle).ne'⟩
  refine ⟨hrel.1, fun hle => ?_⟩
  rcases Nat.eq_zero_or_pos (D (r s)) with hzero | hpos
  · exact hle.antisymm (hrel.2 (Nat.eq_zero_of_le_zero (hzero ▸ hD.mono hle)))
  · exact hD.strict hle hpos hrel.1

end Potential

end Transition
