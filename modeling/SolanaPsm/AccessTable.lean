import Mathlib.Data.List.Basic
import Mathlib.Logic.Function.Basic
import SolanaPsm.Transition

/-!
# Access tables

A table of rights over principals. A founder opens it with all rights; from then on an admin
grants rights to principals that have none, and changes the rights of those that have some. There
is no way to remove an entry.

The labels of a system stand for such acts (`Step`). `run_origin` traces an entry along a run: back
to the start, or to a founder, through grants made one after the other (`Descends`). `Step.frozen`
says what happens to a table without admins: nothing. `run_kept` keeps an entry no admin changes.
-/

namespace AccessTable

open Transition

/-- The rights of a principal. -/
@[ext] structure Rights : Type where
  /-- to grant and change rights -/
  admin : Bool
  /-- to do what the table protects -/
  operator : Bool
  deriving DecidableEq, Repr

/-- A table: the rights of the principals that have an entry. -/
abbrev Table (P : Type) : Type := P → Option Rights

/-- What happens to a table. -/
inductive Act (P : Type) : Type where
  /-- it is opened by a founder -/
  | found (founder : P)
  /-- an admin makes an entry -/
  | grant (grantor grantee : P) (rights : Rights)
  /-- an admin changes an entry -/
  | change (grantor holder : P) (rights : Rights)
  /-- nothing -/
  | keep
  deriving DecidableEq, Repr

section Table

variable {P : Type} {t t' : Table P} {act : Act P} {p q r : P}

/-- A principal of the table is an admin. -/
def Table.IsAdmin (t : Table P) (p : P) : Prop := ∃ rights ∈ t p, rights.admin = true

/-- A principal of the table is an operator. -/
def Table.IsOperator (t : Table P) (p : P) : Prop := ∃ rights ∈ t p, rights.operator = true

/-- Rights traced from one principal to another: the first granted to the second, which then
granted to the third, and so on. -/
inductive Descends {α : Type} (M : α → Act P → Prop) : List α → P → P → Prop where
  /-- its own -/
  | self (p : P) : Descends M [] p p
  /-- an act that does not matter here -/
  | skip {a : α} {as : List α} {p q : P} : Descends M as p q → Descends M (a :: as) p q
  /-- a grant -/
  | grant {a : α} {as : List α} {p q r : P} {rights : Rights} : M a (.grant p q rights) →
      Descends M as q r → Descends M (a :: as) p r

variable [DecidableEq P]

/-- What an act does. -/
def Act.Does (t : Table P) : Act P → Table P → Prop
  | found founder, t' => t founder = none ∧ t' = Function.update t founder (some ⟨true, true⟩)
  | grant grantor grantee rights, t' => t.IsAdmin grantor ∧ t grantee = none ∧
      t' = Function.update t grantee (some rights)
  | change grantor holder rights, t' => t.IsAdmin grantor ∧ t holder ≠ none ∧
      t' = Function.update t holder (some rights)
  | keep, t' => t' = t

/-- Where an entry after an act comes from. -/
theorem Act.Does.origin (h : act.Does t t') (hp : t' p ≠ none) :
    t p ≠ none ∨ act = .found p ∨
      ∃ grantor rights, act = .grant grantor p rights ∧ t grantor ≠ none := by
  cases act with
  | found founder =>
    obtain ⟨-, rfl⟩ := h
    by_cases hfounder : p = founder
    · exact .inr (.inl (congrArg Act.found hfounder.symm))
    · exact .inl (by rwa [Function.update_of_ne hfounder] at hp)
  | grant grantor grantee rights =>
    obtain ⟨⟨_, hgrantor, -⟩, -, rfl⟩ := h
    by_cases hgrantee : p = grantee
    · subst hgrantee
      exact .inr (.inr ⟨grantor, rights, rfl, Option.ne_none_iff_exists'.mpr ⟨_, hgrantor⟩⟩)
    · exact .inl (by rwa [Function.update_of_ne hgrantee] at hp)
  | change grantor holder rights =>
    obtain ⟨-, hsome, rfl⟩ := h
    by_cases hholder : p = holder
    · exact .inl (hholder ▸ hsome)
    · exact .inl (by rwa [Function.update_of_ne hholder] at hp)
  | keep =>
    obtain rfl := h
    exact .inl hp

/-- Without an admin, and when it is not founded, a table does not change. -/
theorem Act.Does.frozen (h : act.Does t t') (hadmin : ∀ p, ¬ t.IsAdmin p)
    (hfound : ∀ founder, act ≠ .found founder) : t' = t := by
  cases act with
  | found founder => exact absurd rfl (hfound founder)
  | grant grantor grantee rights => exact absurd h.1 (hadmin grantor)
  | change grantor holder rights => exact absurd h.1 (hadmin grantor)
  | keep => exact h

/-- An entry stays, and changes only when an admin changes it. -/
theorem Act.Does.kept {rights : Rights} (h : act.Does t t') (hp : t p = some rights)
    (hchange : ∀ grantor rights', act ≠ .change grantor p rights') : t' p = some rights := by
  cases act with
  | found founder =>
    obtain ⟨hnone, rfl⟩ := h
    have hne : p ≠ founder := fun he => by rw [he, hnone] at hp; cases hp
    rwa [Function.update_of_ne hne]
  | grant grantor grantee rights' =>
    obtain ⟨-, hnone, rfl⟩ := h
    have hne : p ≠ grantee := fun he => by rw [he, hnone] at hp; cases hp
    rwa [Function.update_of_ne hne]
  | change grantor holder rights' =>
    obtain ⟨-, -, rfl⟩ := h
    have hne : p ≠ holder := fun he => hchange grantor rights' (congrArg (Act.change grantor · _)
      he.symm)
    rwa [Function.update_of_ne hne]
  | keep =>
    obtain rfl := h
    exact hp

/-! ## Steps and runs -/

variable {α : Type} {M : α → Act P → Prop} {as : List α}

/-- One step: its label stands for an act. -/
def Step (M : α → Act P → Prop) (t : Table P) (a : α) (t' : Table P) : Prop :=
  ∃ act, M a act ∧ act.Does t t'

/-- Every entry goes back, through the grants of the run, to one it started with or to a
founder. -/
theorem run_origin (h : Run (Step M) t as t') (hp : t' p ≠ none) :
    (∃ root, t root ≠ none ∧ Descends M as root p) ∨
    ∃ before a after founder, as = before ++ a :: after ∧ M a (.found founder) ∧
      Descends M after founder p := by
  induction h with
  | nil t => exact .inl ⟨p, hp, .self p⟩
  | @cons t u t' a as hstep _ ih =>
    rcases ih hp with ⟨root, hroot, hdescends⟩ | ⟨before, b, after, founder, rfl, hfound⟩
    · obtain ⟨act, hact, hdoes⟩ := hstep
      rcases hdoes.origin hroot with hroot | rfl | ⟨grantor, rights, rfl, hgrantor⟩
      · exact .inl ⟨root, hroot, .skip hdescends⟩
      · exact .inr ⟨[], a, as, root, rfl, hact, hdescends⟩
      · exact .inl ⟨grantor, hgrantor, .grant hact hdescends⟩
    · exact .inr ⟨a :: before, b, after, founder, rfl, hfound⟩

/-- Without an admin, and when it is not founded, a table does not change. -/
theorem Step.frozen {a : α} (h : Step M t a t') (hadmin : ∀ p, ¬ t.IsAdmin p)
    (hfound : ∀ founder, ¬ M a (.found founder)) : t' = t := by
  obtain ⟨act, hact, hdoes⟩ := h
  refine hdoes.frozen hadmin ?_
  rintro founder rfl
  exact hfound founder hact

/-- An entry stays, and changes only when an admin changes it. -/
theorem run_kept {rights : Rights} (h : Run (Step M) t as t') (hp : t p = some rights)
    (hchange : ∀ a ∈ as, ∀ grantor rights', ¬ M a (.change grantor p rights')) :
    t' p = some rights := by
  refine h.invariant_of (A := fun a => ∀ grantor rights', ¬ M a (.change grantor p rights'))
    (P := fun u => u p = some rights) ?_ hchange hp
  rintro u a v hchange hp ⟨act, hact, hdoes⟩
  refine hdoes.kept hp ?_
  rintro grantor rights' rfl
  exact hchange grantor rights' hact

end Table

end AccessTable
