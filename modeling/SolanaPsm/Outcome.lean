import Mathlib.Data.Option.Basic

/-!
# Three-way outcomes

The meaning of a fallible machine routine: it hands back a value, it reports a
failure the caller can see, or it *aborts* (an out-of-range index, an unchecked
operator that overflows). The abort is kept apart from the failure, because a
caller that catches failures does not catch aborts, and because "never aborts" is
a property one wants to state on its own.

* `Outcome ε` is the monad: the first failure or abort ends the computation.
* `Calc` is `Outcome` with a contentless failure, the shape of a routine that
  returns an optional value but may abort on the way. Plain optional values lift
  into it.
* `NoPanic` is the safety predicate; it composes along `bind`.
-/

/-- The outcome of a fallible computation that may abort. A failure carries what the caller is told;
an abort carries nothing, as nobody is there to be told. -/
inductive Outcome (ε α : Type) : Type where
  /-- a value -/
  | ok : α → Outcome ε α
  /-- a reported failure -/
  | err : ε → Outcome ε α
  /-- an abort -/
  | panic : Outcome ε α
  deriving DecidableEq, Repr

namespace Outcome

variable {ε ε' α β : Type}

/-- Sequencing: failures and aborts end the computation. -/
protected def bind (x : Outcome ε α) (f : α → Outcome ε β) : Outcome ε β :=
  match x with
  | ok a => f a
  | err e => err e
  | panic => panic

instance : Monad (Outcome ε) where
  pure := ok
  bind := Outcome.bind

@[simp] theorem pure_eq (a : α) : (pure a : Outcome ε α) = ok a := rfl

@[simp] theorem ok_bind (a : α) (f : α → Outcome ε β) : (ok a >>= f) = f a := rfl

@[simp] theorem err_bind (e : ε) (f : α → Outcome ε β) : (err e >>= f) = err e := rfl

@[simp] theorem panic_bind (f : α → Outcome ε β) : (panic >>= f) = panic := rfl

/-- Inversion for `bind`: a value comes from a value of each part. -/
theorem bind_eq_ok {x : Outcome ε α} {f : α → Outcome ε β} {b : β} :
    (x >>= f) = ok b ↔ ∃ a, x = ok a ∧ f a = ok b := by
  cases x <;> simp

/-- Inversion for `bind`: an abort comes from the first part, or from the second at a value
of the first. -/
theorem bind_eq_panic {x : Outcome ε α} {f : α → Outcome ε β} :
    (x >>= f) = panic ↔ x = panic ∨ ∃ a, x = ok a ∧ f a = panic := by
  cases x <;> simp

instance : LawfulMonad (Outcome ε) := LawfulMonad.mk' _
  (fun x => by cases x <;> rfl)
  (fun _ _ => rfl)
  (fun x _ _ => by cases x <;> rfl)

/-! ## Failing on a condition -/

/-- Fail with `e` when the condition holds, go on otherwise. -/
def rejectIf (c : Prop) [Decidable c] (e : ε) : Outcome ε Unit :=
  if c then err e else ok ()

/-- Going on means that the condition does not hold. -/
@[simp] theorem rejectIf_eq_ok {c : Prop} [Decidable c] {e : ε} {u : Unit} :
    rejectIf c e = ok u ↔ ¬ c := by
  rw [rejectIf]
  split <;> simp_all

/-- The check fails where the condition holds. -/
theorem rejectIf_of {c : Prop} [Decidable c] {e : ε} (h : c) :
    rejectIf c e = err e := if_pos h

/-- And passes where it does not. -/
theorem rejectIf_of_not {c : Prop} [Decidable c] {e : ε} (h : ¬ c) :
    rejectIf c e = ok () := if_neg h

/-! ## Changing the failure -/

/-- Translate the failure; values and aborts are untouched. -/
def mapErr (f : ε → ε') : Outcome ε α → Outcome ε' α
  | ok a => ok a
  | err e => err (f e)
  | panic => panic

/-- A translated failure is still one, so the values are the same. -/
@[simp] theorem mapErr_eq_ok {f : ε → ε'} {x : Outcome ε α} {a : α} :
    x.mapErr f = ok a ↔ x = ok a := by
  cases x <;> simp [mapErr]

/-- An optional value, its absence reported as `e`. -/
def ofOption (o : Option α) (e : ε) : Outcome ε α :=
  match o with
  | some a => ok a
  | none => err e

/-- A value comes from a value. -/
@[simp] theorem ofOption_eq_ok {o : Option α} {e : ε} {a : α} :
    ofOption o e = ok a ↔ o = some a := by
  cases o <;> simp [ofOption]

@[simp] theorem ofOption_some (a : α) (e : ε) : ofOption (some a) e = ok a := rfl

@[simp] theorem ofOption_none (e : ε) : (ofOption none e : Outcome ε α) = err e := rfl

/-- Whether the outcome is a value. A caller that only asks this does not see which failure it was.
-/
def isOk : Outcome ε α → Bool
  | ok _ => true
  | _ => false

/-- Asking is knowing a value. -/
theorem isOk_iff {x : Outcome ε α} : x.isOk ↔ ∃ a, x = ok a := by
  cases x <;> simp [isOk]

@[simp] theorem isOk_ok (a : α) : (ok a : Outcome ε α).isOk = true := rfl

@[simp] theorem isOk_err (e : ε) : (err e : Outcome ε α).isOk = false := rfl

@[simp] theorem isOk_panic : (panic : Outcome ε α).isOk = false := rfl

/-! ## Acceptance -/

/-- The computation succeeds, with a value that satisfies a predicate. -/
def Accepts (x : Outcome ε α) (P : α → Prop) : Prop := ∃ a, x = ok a ∧ P a

namespace Accepts

variable {P : β → Prop}

/-- A value that satisfies the predicate. -/
theorem ok {b : β} (h : P b) : (ok b : Outcome ε β).Accepts P := ⟨b, rfl, h⟩

/-- A first part that succeeds. What is accepted is decided by the second. -/
theorem bind {x : Outcome ε α} {f : α → Outcome ε β} {a : α} (hx : x = .ok a)
    (hf : (f a).Accepts P) : (x >>= f).Accepts P := by
  rw [hx]
  exact hf

end Accepts

/-! ## Aborts -/

/-- The computation does not abort. It may fail. -/
def NoPanic (x : Outcome ε α) : Prop := x ≠ panic

instance (x : Outcome ε α) : Decidable (NoPanic x) :=
  match x with
  | ok _ => isTrue nofun
  | err _ => isTrue nofun
  | panic => isFalse fun h => h rfl

@[simp] theorem noPanic_ok (a : α) : NoPanic (ok a : Outcome ε α) := nofun

@[simp] theorem noPanic_err (e : ε) : NoPanic (err e : Outcome ε α) := nofun

@[simp] theorem not_noPanic_panic : ¬ NoPanic (panic : Outcome ε α) := fun h => h rfl

/-- Aborts are excluded along a sequence when they are excluded in each part,
the second part only for the values the first can produce. -/
theorem NoPanic.bind {x : Outcome ε α} {f : α → Outcome ε β} (hx : x.NoPanic)
    (hf : ∀ a, x = ok a → (f a).NoPanic) : (x >>= f).NoPanic := by
  cases x with
  | ok a => exact hf a rfl
  | err e => simp
  | panic => exact absurd rfl hx

/-- Checks do not abort, and neither do optional values. -/
@[simp] theorem noPanic_rejectIf {c : Prop} [Decidable c] {e : ε} :
    (rejectIf c e).NoPanic := by
  rw [rejectIf]
  split <;> simp

@[simp] theorem noPanic_ofOption {o : Option α} {e : ε} : (ofOption o e).NoPanic := by
  cases o <;> simp [ofOption]

/-- Translating the failure changes nothing about aborts. -/
@[simp] theorem noPanic_mapErr {f : ε → ε'} {x : Outcome ε α} :
    (x.mapErr f).NoPanic ↔ x.NoPanic := by
  cases x <;> simp [mapErr]

end Outcome

/-! ## Optional values that may abort -/

/-- An optional value whose computation may abort. -/
abbrev Calc (α : Type) : Type := Outcome Unit α

namespace Calc

variable {α : Type}

instance : MonadLift Option (Outcome Unit) where
  monadLift o := Outcome.ofOption o ()

/-- A lifted optional value is that value. -/
@[simp] theorem liftM_eq_ok {o : Option α} {a : α} :
    (liftM o : Calc α) = .ok a ↔ o = some a := Outcome.ofOption_eq_ok

@[simp] theorem liftM_some (a : α) : (liftM (some a) : Calc α) = .ok a := rfl

/-- A computation that starts with an optional value fails or goes on with it. -/
theorem liftM_bind_cases {β : Type} (o : Option α) (f : α → Calc β) :
    (liftM o >>= f) = .err () ∨ ∃ a, o = some a ∧ (liftM o >>= f) = f a := by
  cases o with
  | none => exact Or.inl rfl
  | some a => exact Or.inr ⟨a, rfl, rfl⟩

@[simp] theorem liftM_none : (liftM (none : Option α) : Calc α) = .err () := rfl

/-- It never aborts. -/
@[simp] theorem noPanic_liftM (o : Option α) : (liftM o : Calc α).NoPanic :=
  Outcome.noPanic_ofOption

@[simp] theorem liftM_eq_panic {o : Option α} : (liftM o : Calc α) = .panic ↔ False :=
  iff_false_intro (noPanic_liftM o)

/-- Report the missing value as `e`. This is where an optional value becomes a failure with a name.
-/
def okOr {ε : Type} (x : Calc α) (e : ε) : Outcome ε α := x.mapErr fun _ => e

@[simp] theorem okOr_eq_ok {ε : Type} {x : Calc α} {e : ε} {a : α} :
    okOr x e = .ok a ↔ x = .ok a := Outcome.mapErr_eq_ok

@[simp] theorem noPanic_okOr {ε : Type} {x : Calc α} {e : ε} :
    (okOr x e).NoPanic ↔ x.NoPanic := Outcome.noPanic_mapErr

end Calc
