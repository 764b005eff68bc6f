import SolanaPsm.Outcome

/-!
# Scripts

A routine that calls out to other components while it computes: `Script ω ε α` logs
the calls it makes, in order, and ends with an outcome. The calls made before a
failure stay in the log, so the order of computations and calls is not lost; what a
call does is left to whoever runs the script.

`Returns x log a` says that the script ends with the value `a` after exactly the
calls `log`. It is used through its inversion along `bind`, `emit` and `lift`.
-/

/-- A log of calls and an outcome. -/
structure Script (ω ε α : Type) : Type where
  /-- the calls made, in order -/
  log : List ω
  /-- how the script ends -/
  result : Outcome ε α
  deriving DecidableEq, Repr

namespace Script

variable {ω ε α β σ : Type}

/-- Sequencing: the second part runs only on a value of the first. -/
protected def bind (x : Script ω ε α) (f : α → Script ω ε β) : Script ω ε β :=
  match x.result with
  | .ok a => { log := x.log ++ (f a).log, result := (f a).result }
  | .err e => { log := x.log, result := .err e }
  | .panic => { log := x.log, result := .panic }

instance : Monad (Script ω ε) where
  pure a := { log := [], result := .ok a }
  bind := Script.bind

instance : LawfulMonad (Script ω ε) := LawfulMonad.mk' _
  (fun x => by
    obtain ⟨log, result⟩ := x
    cases result <;> simp [Functor.map, Script.bind])
  (fun _ _ => rfl)
  (fun x f g => by
    obtain ⟨log, result⟩ := x
    cases result with
    | ok a => cases hf : (f a).result <;> simp [Bind.bind, Script.bind, hf]
    | err | panic => rfl)

/-- Make one call. -/
def emit (call : ω) : Script ω ε Unit := { log := [call], result := .ok () }

/-- Compute without calls. -/
def lift (x : Outcome ε α) : Script ω ε α := { log := [], result := x }

/-- The script ends with `a` after the calls `log`. -/
def Returns (x : Script ω ε α) (log : List ω) (a : α) : Prop := x.log = log ∧ x.result = .ok a

instance [DecidableEq ω] [DecidableEq ε] [DecidableEq α] (x : Script ω ε α) (log : List ω) (a : α) :
    Decidable (x.Returns log a) := inferInstanceAs (Decidable (_ ∧ _))

@[simp] theorem returns_pure {a b : α} {log : List ω} :
    (pure a : Script ω ε α).Returns log b ↔ log = [] ∧ a = b := by
  simp [Returns, Pure.pure, eq_comm]

@[simp] theorem returns_emit {call : ω} {log : List ω} {u : Unit} :
    (emit call : Script ω ε Unit).Returns log u ↔ log = [call] := by
  simp [Returns, emit, eq_comm]

@[simp] theorem returns_lift {x : Outcome ε α} {log : List ω} {a : α} :
    (lift x : Script ω ε α).Returns log a ↔ log = [] ∧ x = .ok a := by
  simp [Returns, lift, eq_comm]

/-- Inversion along `bind`: the log splits between the parts. -/
theorem returns_bind {x : Script ω ε α} {f : α → Script ω ε β} {log : List ω} {b : β} :
    (x >>= f).Returns log b ↔
      ∃ a log₁ log₂, x.Returns log₁ a ∧ (f a).Returns log₂ b ∧ log = log₁ ++ log₂ := by
  refine ⟨?_, ?_⟩
  · rintro ⟨hlog, hres⟩
    change (Script.bind x f).log = log at hlog
    change (Script.bind x f).result = .ok b at hres
    rw [Script.bind] at hlog hres
    cases hx : x.result with
    | ok a =>
      rw [hx] at hlog hres
      exact ⟨a, x.log, (f a).log, ⟨rfl, hx⟩, ⟨rfl, hres⟩, hlog.symm⟩
    | err e =>
      rw [hx] at hres
      cases hres
    | panic =>
      rw [hx] at hres
      cases hres
  · rintro ⟨a, _, _, ⟨rfl, ha⟩, ⟨rfl, hb⟩, rfl⟩
    change (Script.bind x f).log = _ ∧ (Script.bind x f).result = _
    rw [Script.bind]
    rw [ha]
    exact ⟨rfl, hb⟩

/-- A computation without calls, then a script. -/
@[simp] theorem returns_lift_bind {x : Outcome ε α} {f : α → Script ω ε β} {log : List ω} {b : β} :
    (lift x >>= f).Returns log b ↔ ∃ a, x = .ok a ∧ (f a).Returns log b := by
  rw [returns_bind]
  refine ⟨?_, ?_⟩
  · rintro ⟨a, _, log₂, hx, hf, rfl⟩
    obtain ⟨rfl, hval⟩ := returns_lift.mp hx
    exact ⟨a, hval, hf⟩
  · rintro ⟨a, hx, hf⟩
    exact ⟨a, [], log, returns_lift.mpr ⟨rfl, hx⟩, hf, rfl⟩

/-- A call, then a script. -/
@[simp] theorem returns_emit_bind {call : ω} {f : Unit → Script ω ε β} {log : List ω} {b : β} :
    (emit call >>= f).Returns log b ↔ ∃ rest, (f ()).Returns rest b ∧ log = call :: rest := by
  rw [returns_bind]
  refine ⟨?_, ?_⟩
  · rintro ⟨_, _, log₂, hcall, hf, rfl⟩
    obtain rfl := returns_emit.mp hcall
    exact ⟨log₂, hf, rfl⟩
  · rintro ⟨rest, hf, rfl⟩
    exact ⟨(), [call], rest, returns_emit.mpr rfl, hf, rfl⟩

/-! ## What a script can call -/

/-- Every call the script makes satisfies a predicate, whether the script fails or not. -/
def Emits (P : ω → Prop) (x : Script ω ε α) : Prop := ∀ call ∈ x.log, P call

variable {P : ω → Prop}

@[simp] theorem emits_pure (a : α) : (pure a : Script ω ε α).Emits P := List.forall_mem_nil P

@[simp] theorem emits_lift (x : Outcome ε α) : (lift x : Script ω ε α).Emits P :=
  List.forall_mem_nil P

@[simp] theorem emits_emit {call : ω} : (emit call : Script ω ε Unit).Emits P ↔ P call :=
  List.forall_mem_singleton

/-- The calls of a sequence are those of its parts. -/
theorem Emits.bind {x : Script ω ε α} {f : α → Script ω ε β} (hx : x.Emits P)
    (hf : ∀ a, (f a).Emits P) : (x >>= f).Emits P := by
  intro call hcall
  change call ∈ (Script.bind x f).log at hcall
  rw [Script.bind] at hcall
  cases hres : x.result with
  | ok a =>
    rw [hres] at hcall
    rcases List.mem_append.mp hcall with hcall | hcall
    · exact hx call hcall
    · exact hf a call hcall
  | err | panic =>
    rw [hres] at hcall
    exact hx call hcall

theorem Emits.imp {Q : ω → Prop} {x : Script ω ε α} (h : x.Emits P)
    (himp : ∀ {call}, P call → Q call) : x.Emits Q := fun call hcall => himp (h call hcall)

/-- The calls of a script that returns. -/
theorem Emits.of_returns {x : Script ω ε α} {log : List ω} {a : α} (hx : x.Emits P)
    (h : x.Returns log a) : ∀ call ∈ log, P call := h.1 ▸ hx

/-! ## Running a script -/

/-- Perform calls in order, each on the state the one before left. -/
def performAll (perform : ω → σ → Outcome ε σ) : List ω → σ → Outcome ε σ
  | [], s => .ok s
  | call :: rest, s => do
    let s ← perform call s
    performAll perform rest s

/-- Perform the calls of a script, then end as it does. -/
def run (x : Script ω ε α) (perform : ω → σ → Outcome ε σ) (s : σ) : Outcome ε σ := do
  let s ← performAll perform x.log s
  let _ ← x.result
  return s

theorem run_eq_ok {x : Script ω ε α} {perform : ω → σ → Outcome ε σ} {s s' : σ} :
    x.run perform s = .ok s' ↔
      ∃ log a, x.Returns log a ∧ performAll perform log s = .ok s' := by
  simp only [run, Outcome.bind_eq_ok, Outcome.pure_eq, Outcome.ok.injEq, Returns]
  refine ⟨?_, ?_⟩
  · rintro ⟨t, ht, a, ha, rfl⟩
    exact ⟨x.log, a, ⟨rfl, ha⟩, ht⟩
  · rintro ⟨_, a, ⟨rfl, ha⟩, ht⟩
    exact ⟨s', ht, a, ha, rfl⟩

/-- What every call preserves, the script preserves. -/
theorem performAll_invariant {perform : ω → σ → Outcome ε σ} {P : σ → σ → Prop}
    (hrefl : ∀ s, P s s) (htrans : ∀ {s t u}, P s t → P t u → P s u) {log : List ω}
    (hcall : ∀ call ∈ log, ∀ {s t}, perform call s = .ok t → P s t) {s t : σ}
    (h : performAll perform log s = .ok t) : P s t := by
  induction log generalizing s with
  | nil =>
    obtain rfl := Outcome.ok.inj h
    exact hrefl s
  | cons call rest ih =>
    obtain ⟨u, hu, h⟩ := Outcome.bind_eq_ok.mp h
    rw [List.forall_mem_cons] at hcall
    exact htrans (hcall.1 hu) (ih hcall.2 h)

end Script
