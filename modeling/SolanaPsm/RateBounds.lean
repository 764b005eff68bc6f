import SolanaPsm.Owned
import SolanaPsm.Reference

/-!
# The bounds of the rates

SetRates refuses a rate below `RAY` or above the limit of the pool. Initialize takes the rate
it is given, so the bounds hold of a pool exactly when they hold of the parameters it was
initialized with, or when its rates have been set since (`rate_bounds_iff`).

Time is part of the state here: a `ClockedStep` is an event whose clock, as the program reads
it, does not go back.
-/

namespace SolanaPsm

open FixedPoint

namespace RedemptionRateCurve

/-- The rate is at least one, and respects the limit. -/
def RateBounds (curve : RedemptionRateCurve) : Prop :=
  RAY ≤ curve.ssr ∧ (curve.maxSsr = 0#128 ∨ curve.ssr ≤ curve.maxSsr)

instance (curve : RedemptionRateCurve) : Decidable curve.RateBounds :=
  inferInstanceAs (Decidable (_ ∧ _))

/-- The rate is within its bounds, and the last update is not in the future. -/
def RateInvariant (curve : RedemptionRateCurve) (now : U128) : Prop :=
  curve.RateBounds ∧ curve.rho ≤ now

/-- A set rate is within its bounds, and the update is not in the future. -/
theorem Update.rateInvariant {curve curve' : RedemptionRateCurve} {ssr rho chi now : U128}
    (h : Update curve ssr rho chi now curve') : curve'.RateInvariant now := by
  obtain ⟨rfl, hrho, hray, hmax, -, -⟩ := h
  refine ⟨⟨?_, hmax⟩, hrho⟩
  rw [BitVec.le_def, toNat_RAY]
  exact hray

/-- A rate that can be quoted was not updated in the future. -/
theorem rho_le_of_validate {curve : RedemptionRateCurve} {now : U128} {u : Unit}
    (h : curve.validate (some now) = .ok u) : curve.rho ≤ now := by
  obtain ⟨r, hr, -⟩ := validate_eq_ok.mp h
  rcases getConversionRate_eq_ok.mp hr with ⟨rfl, -⟩ | ⟨-, d, p, hd, -⟩
  · exact BitVec.le_refl _
  · exact (BitVec.checkedSub_eq_some.mp hd).1

end RedemptionRateCurve

/-- The event sets the rates of the pool. -/
def Event.UpdatesRates (event : Event) (swap : Pubkey) : Prop :=
  ∃ clock data, event.SetsRates swap clock data

/-- The time after an event, as the program reads it. -/
def Event.time (event : Event) (now : U128) : U128 :=
  match event with
  | .instruction clock _ _ => clock.timestamp
  | .foreign => now

/-- A ledger and the time hold an accruing pool. -/
def Accrues (swap : Pubkey) (s : Ledger × U128) (curve : RedemptionRateCurve) : Prop :=
  ∃ state, s.1.StoresPool swap state ∧ state.swapCurve = .redemptionRate curve ∧ curve.rho ≤ s.2

section RateBounds

variable [Solana] [SplMath] {swapConstraints : Option SwapConstraints} {swap : Pubkey}

variable (swapConstraints) in
/-- An event at a time that does not go back. -/
def ClockedStep (s : Ledger × U128) (event : Event) (s' : Ledger × U128) : Prop :=
  Step swapConstraints s.1 event s'.1 ∧ s'.2 = event.time s.2 ∧ s.2 ≤ s'.2

/-- One event: a SetRates of the pool establishes the bounds, any other keeps the rates. -/
theorem Accrues.step {s s' : Ledger × U128} {event : Event} {curve : RedemptionRateCurve}
    (h : Accrues swap s curve) (hstep : ClockedStep swapConstraints s event s') :
    ∃ curve', Accrues swap s' curve' ∧
      (curve'.RateBounds ↔ curve.RateBounds ∨ event.UpdatesRates swap) := by
  obtain ⟨state, hpool, hcurve, hrho⟩ := h
  obtain ⟨hstep, htime, hmono⟩ := hstep
  by_cases hupdates : event.UpdatesRates swap
  · obtain ⟨clock, data, hevent⟩ := hupdates
    obtain ⟨_, c, c', hset⟩ := step_setsRates hstep hevent
    obtain rfl := hpool.unique ⟨hset.owner, hset.unpack⟩
    obtain ⟨hbounds, hrho'⟩ := (RedemptionRateCurve.Update.of_setRates hset.setRates).rateInvariant
    have hnow : s'.2 = clock.timestamp := by
      obtain ⟨_, _, ⟨_, rfl, -⟩, -⟩ := hevent
      exact htime
    refine ⟨c', ⟨_, ⟨hset.placed.owner, hset.unpack'⟩, rfl, hnow ▸ hrho'⟩, ?_⟩
    exact iff_of_true hbounds (.inr ⟨clock, data, hevent⟩)
  · rcases step_pool hstep hpool with hsame | ⟨_, clock, data, _, _, hevent, -⟩
    · refine ⟨curve, ⟨state, hpool.sameAt hsame, hcurve, BitVec.le_trans hrho hmono⟩, ?_⟩
      exact (or_iff_left hupdates).symm
    · exact absurd ⟨clock, data, hevent⟩ hupdates

/-- A run: the bounds hold at the end when they held at the start, or a SetRates of the pool
lies in between. -/
theorem Accrues.run {s s' : Ledger × U128} {events : List Event} {curve : RedemptionRateCurve}
    (h : Accrues swap s curve)
    (hrun : Transition.Run (ClockedStep swapConstraints) s events s') :
    ∃ curve', Accrues swap s' curve' ∧
      (curve'.RateBounds ↔ curve.RateBounds ∨ ∃ event ∈ events, event.UpdatesRates swap) := by
  induction hrun generalizing curve with
  | nil s => exact ⟨curve, h, by simp⟩
  | cons hstep _ ih =>
    obtain ⟨c₁, h₁, hbounds₁⟩ := h.step hstep
    obtain ⟨c₂, h₂, hbounds₂⟩ := ih h₁
    refine ⟨c₂, h₂, ?_⟩
    rw [hbounds₂, hbounds₁, List.exists_mem_cons_iff, or_assoc]

/-- A new redemption-rate pool accrues, at the parameters of its Initialize. -/
theorem Accrues.start {l₀ l₁ : Ledger} {clock : Clock} {info : AccountInfo}
    {rest : List AccountInfo} {input : Bytes} {data : Initialize} {curve : RedemptionRateCurve}
    (hinput : SwapInstruction.unpack input = .ok (.initializeSwap data))
    (hcurve : data.swapCurve = .redemptionRate curve)
    (hinit : Step swapConstraints l₀ (.instruction clock (info :: rest) input) l₁) :
    Accrues info.key (l₁, clock.timestamp) curve := by
  have hwell := SwapInstruction.wellFormed_of_unpack hinput
  rw [Step, processWithConstraints_of_unpack swapConstraints hinput] at hinit
  obtain ⟨swap, _, _, _, state, haccounts, hcreated, hstate, -, _, _, _, hamounts⟩ :=
    processInitialize_eq_ok hwell hinit
  obtain ⟨rfl, -⟩ := List.cons.inj haccounts
  refine ⟨state, ⟨hcreated.placed.owner, hcreated.stored⟩, hstate.trans hcurve, ?_⟩
  simp only [Amounts.initializePool, Script.returns_lift_bind, Amounts.returns_reject_bind,
    liftSwapError_eq_ok, hcurve] at hamounts
  obtain ⟨_, -, -, _, -, _, hvalidate, -⟩ := hamounts
  exact RedemptionRateCurve.rho_le_of_validate hvalidate

/-- The bounds of the rates over runs: after an Initialize and any events at times that do not
go back, the pool satisfies them exactly when the parameters of the Initialize do, or when its
rates have been set since. -/
theorem rate_bounds_iff {l₀ l₁ l : Ledger} {clock : Clock} {now : U128} {info : AccountInfo}
    {rest : List AccountInfo} {input : Bytes} {data : Initialize} {curve : RedemptionRateCurve}
    {events : List Event}
    (hinput : SwapInstruction.unpack input = .ok (.initializeSwap data))
    (hcurve : data.swapCurve = .redemptionRate curve)
    (hinit : Step swapConstraints l₀ (.instruction clock (info :: rest) input) l₁)
    (hrun : Transition.Run (ClockedStep swapConstraints) (l₁, clock.timestamp) events (l, now)) :
    ∃ state curve', l.StoresPool info.key state ∧ state.swapCurve = .redemptionRate curve' ∧
      (curve'.RateInvariant now ↔
        curve.RateBounds ∨ ∃ event ∈ events, event.UpdatesRates info.key) := by
  obtain ⟨curve', ⟨state, hpool, hstate, hrho⟩, hbounds⟩ :=
    (Accrues.start hinput hcurve hinit).run hrun
  refine ⟨state, curve', hpool, hstate, ?_⟩
  rw [← hbounds]
  exact and_iff_left hrho

end RateBounds

/-- The pool of the reference runtime starts with a rate of zero; a SetRates a minute later
brings it within its bounds. -/
theorem rate_bounds_iff_minute :
    ∃ l₁ l₂ state curve, World.Step World.ledger World.initializeEvent l₁ ∧
      World.Step l₁ World.setRatesEvent l₂ ∧ l₂.StoresPool World.swap state ∧
      state.swapCurve = .redemptionRate curve ∧
      (curve.RateInvariant World.later.timestamp ↔ World.curve.RateBounds ∨
        ∃ event ∈ [World.setRatesEvent], event.UpdatesRates World.swap) := by
  let _ : Solana := Solana.reference
  let _ : SplMath := SplMath.reference
  obtain ⟨l₁, l₂, hinit, hset⟩ := World.steps
  have hmono : World.clock.timestamp ≤ World.later.timestamp := by decide
  have hclocked : ClockedStep none (l₁, World.clock.timestamp) World.setRatesEvent
      (l₂, World.later.timestamp) := ⟨hset, rfl, hmono⟩
  obtain ⟨state, curve, hpool, hcurve, hiff⟩ := rate_bounds_iff World.unpack_initializeInput rfl
    hinit (Transition.Run.single hclocked)
  exact ⟨l₁, l₂, state, curve, hinit, hset, hpool, hcurve, hiff⟩

/-- Initialize accepts a rate of zero: the new pool is not within its bounds. -/
theorem initialize_may_break_bounds :
    ∃ l₁ state, World.Step World.ledger World.initializeEvent l₁ ∧
      l₁.StoresPool World.swap state ∧ state.swapCurve = .redemptionRate World.curve ∧
      ¬ World.curve.RateInvariant World.clock.timestamp := by
  let _ : Solana := Solana.reference
  let _ : SplMath := SplMath.reference
  obtain ⟨l₁, -, hinit, -⟩ := World.steps
  obtain ⟨state, hpool, hcurve, -⟩ := Accrues.start World.unpack_initializeInput rfl hinit
  exact ⟨l₁, state, hinit, hpool, hcurve, fun h => absurd h.1 (by decide)⟩

end SolanaPsm
