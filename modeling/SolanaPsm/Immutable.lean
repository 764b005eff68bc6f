import SolanaPsm.Owned
import SolanaPsm.Reference

/-!
# A pool is immutable but for its rates

`PoolKept` relates the ledger right after an Initialize to any later one: the account of the
pool holds the same bytes, or the pool accrues and holds the same fixed fields with other
rates. One event keeps it (`PoolKept.step`), so a run does, and `ImmutablePool` reads off
what that means for the bytes, for another Initialize and for SetRates.
-/

namespace SolanaPsm

/-- The pool stored at an address is the one of an earlier ledger, with other rates at most. -/
def PoolKept (state : SwapV1) (swap : Pubkey) (l₁ l : Ledger) : Prop :=
  l₁.SameAt l swap ∨ ∃ curve curve', state.swapCurve = .redemptionRate curve ∧
    curve'.maxSsr = curve.maxSsr ∧ l.StoresPool swap (state.withCurve curve')

variable {state : SwapV1} {swap : Pubkey} {l₁ l l' : Ledger}

/-- A kept pool is stored, with the same fixed fields. -/
theorem PoolKept.storesPool (hpool : l₁.StoresPool swap state)
    (hkept : PoolKept state swap l₁ l) :
    ∃ state', l.StoresPool swap state' ∧ (state' = state ∨ ∃ curve curve',
      state.swapCurve = .redemptionRate curve ∧ curve'.maxSsr = curve.maxSsr ∧
      state' = state.withCurve curve') := by
  rcases hkept with hsame | ⟨c, c', hcurve, hmax, hstored⟩
  · exact ⟨state, hpool.sameAt hsame, .inl rfl⟩
  · exact ⟨state.withCurve c', hstored, .inr ⟨c, c', hcurve, hmax, rfl⟩⟩

/-- Only the rate bytes of a kept pool differ. -/
theorem PoolKept.take_eq (hpool : l₁.StoresPool swap state) (hkept : PoolKept state swap l₁ l) :
    (l swap).data.take SwapV1.ratesOffset = (l₁ swap).data.take SwapV1.ratesOffset := by
  rcases hkept with hsame | ⟨c, c', hcurve, hmax, hstored⟩
  · rw [hsame.2]
  · rw [SwapVersion.take_of_unpack hcurve hpool.2,
      SwapVersion.take_of_unpack (c := c') rfl hstored.2, SwapV1.fixedBytes_withCurve, hmax]

/-- Another Initialize of a stored pool is refused. -/
theorem processInitialize_of_stored [Solana] {swapConstraints : Option SwapConstraints}
    (hpool : l.StoresPool swap state) (instruction : Initialize)
    {info : AccountInfo} (rest : List AccountInfo) (hinfo : info.key = swap) (clock : Clock) :
    processInitialize swapConstraints instruction (info :: rest) clock l =
      .err (if 10 ≤ (info :: rest).length then .custom .alreadyInUse
        else .notEnoughAccountKeys) := by
  rcases initializeAccounts_cases (info :: rest) with ⟨hlong, infos, hinfos⟩ | ⟨hshort, hinfos⟩
  · obtain ⟨first, _, haccounts, hswap⟩ := initializeAccounts_eq_ok hinfos
    obtain ⟨rfl, -⟩ := List.cons.inj haccounts
    rw [hinfo] at hswap
    have hused : SwapVersion.isInitialized (l infos.swap).data = true := by
      rw [hswap]
      exact SwapVersion.isInitialized_of_unpack hpool.2
    rw [processInitialize, hinfos, Outcome.ok_bind, readNewPool_of_initialized hused,
      Outcome.err_bind, if_pos hlong]
  · rw [processInitialize, hinfos, Outcome.err_bind, if_neg (by omega)]

section Runs

variable [Solana] [SplMath] {swapConstraints : Option SwapConstraints}

/-- One event keeps the pool. -/
theorem PoolKept.step {event : Event} (hpool : l₁.StoresPool swap state)
    (hkept : PoolKept state swap l₁ l) (h : Step swapConstraints l event l') :
    PoolKept state swap l₁ l' := by
  rcases hkept with hsame | ⟨c, c', hcurve, hmax, hstored⟩
  · rcases step_pool h (hpool.sameAt hsame) with hsame' | ⟨_, _, _, c, c', _, _, _, hset⟩
    · exact .inl (hsame.trans hsame')
    · exact .inr ⟨c, c', hset.swapCurve, hset.maxSsr, hset.placed.owner, hset.unpack'⟩
  · rcases step_pool h hstored with hsame' | ⟨_, _, _, c'', c''', _, _, _, hset⟩
    · exact .inr ⟨c, c', hcurve, hmax, hstored.sameAt hsame'⟩
    · -- the rates are set on those set before
      obtain rfl := SwapCurve.redemptionRate_inj hset.swapCurve
      exact .inr ⟨c, c''', hcurve, hset.maxSsr.trans hmax, hset.placed.owner, hset.unpack'⟩

/-- What never changes in a pool, from one ledger to a later one. -/
structure ImmutablePool (swapConstraints : Option SwapConstraints) (swap : Pubkey) (state : SwapV1)
    (l₁ l : Ledger) : Prop where
  /-- the account stays the program's, and keeps its length -/
  owned : (l swap).owner = ID ∧ (l swap).data.length = SwapVersion.LATEST_LEN
  /-- an Initialize with its ten accounts finds it in use; a shorter one fails before that -/
  alreadyInUse : ∀ (clock : Clock) (info : AccountInfo) (rest : List AccountInfo) (input : Bytes)
    (data : Initialize), info.key = swap →
    SwapInstruction.unpack input = .ok (.initializeSwap data) →
    processWithConstraints swapConstraints (info :: rest) input clock l =
      .err (if 10 ≤ (info :: rest).length then .custom .alreadyInUse else .notEnoughAccountKeys)
  /-- only the last 48 bytes can change -/
  bytes : (l swap).data.take SwapV1.ratesOffset = (l₁ swap).data.take SwapV1.ratesOffset
  /-- and those only in a redemption-rate pool -/
  otherCurves : state.swapCurve.curveType ≠ .redemptionRateCurve →
    (l swap).data = (l₁ swap).data
  /-- after a SetRates both readings give the same pool with exactly the new rates -/
  setRates : ∀ (clock : Clock) (info : AccountInfo) (rest : List AccountInfo) (input : Bytes)
    (data : SetRates) (l' : Ledger), info.key = swap →
    SwapInstruction.unpack input = .ok (.setRates data) →
    processWithConstraints swapConstraints (info :: rest) input clock l = .ok l' →
    ∃ curve, state.swapCurve = .redemptionRate curve ∧
      SwapVersion.unpack (l' swap).data =
        .ok (state.withCurve (curve.withRates data.ssr data.rho data.chi)) ∧
      extractCurve (l' swap).data = .ok (curve.withRates data.ssr data.rho data.chi)

/-- A kept pool is immutable but for its rates. -/
theorem PoolKept.immutable (hpool : l₁.StoresPool swap state) (hkept : PoolKept state swap l₁ l) :
    ImmutablePool swapConstraints swap state l₁ l := by
  obtain ⟨state', hstored, hstate⟩ := hkept.storesPool hpool
  refine ⟨⟨hstored.1, hstored.length⟩, ?_, hkept.take_eq hpool, ?_, ?_⟩
  · intro clock info rest input data hinfo hunpack
    rw [processWithConstraints_of_unpack swapConstraints hunpack]
    exact processInitialize_of_stored hstored data rest hinfo clock
  · intro htype
    rcases hkept with hsame | ⟨c, _, hcurve, -⟩
    · exact hsame.2
    · rw [hcurve] at htype
      exact absurd rfl htype
  · intro clock info rest input data l' hinfo hunpack hset
    rw [processWithConstraints_of_unpack swapConstraints hunpack] at hset
    obtain ⟨_, _, _, _, haccounts, -, -, before, curve, curve', hset⟩ :=
      processCurveUpdate_eq_ok hset
    obtain ⟨rfl, -⟩ := List.cons.inj haccounts
    rw [hinfo] at hset
    obtain rfl := hstored.unique ⟨hset.owner, hset.unpack⟩
    have hresult := (RedemptionRateCurve.Update.of_setRates hset.setRates).result
    have hread := hset.unpack'
    rw [hresult] at hread
    have hextract := (extractCurve_of_unpack (c := curve.withRates data.ssr data.rho data.chi)
      hread).mpr rfl
    -- the curve before has the limit of the first one, and the update keeps the limit only
    rcases hstate with rfl | ⟨c, c', hcurve, hmax, rfl⟩
    · exact ⟨curve, hset.swapCurve, hread, hextract⟩
    · obtain rfl := SwapCurve.redemptionRate_inj hset.swapCurve
      have hlimit : c'.withRates data.ssr data.rho data.chi =
          c.withRates data.ssr data.rho data.chi := by
        rw [RedemptionRateCurve.withRates, RedemptionRateCurve.withRates, hmax]
      rw [hlimit] at hread hextract
      exact ⟨c, hcurve, hread, hextract⟩

/-- A pool written by an Initialize is immutable but for its rates: after any later run,
every further Initialize fails, only the rate bytes of a redemption-rate pool have changed,
and a SetRates leaves the same pool with exactly the given rates, by both readings. SetRates
never aborts, whatever the accounts hold. -/
theorem initialized_pool_immutable {l₀ : Ledger} {clock : Clock} {info : AccountInfo}
    {rest : List AccountInfo} {input : Bytes} {data : Initialize} {events : List Event}
    (hinput : SwapInstruction.unpack input = .ok (.initializeSwap data))
    (hinit : Step swapConstraints l₀ (.instruction clock (info :: rest) input) l₁)
    (hrun : Transition.Run (Step swapConstraints) l₁ events l) :
    (∃ state, l₁.StoresPool info.key state ∧ state.swapCurve = data.swapCurve ∧
      ImmutablePool swapConstraints info.key state l₁ l) ∧
    ∀ (accounts : List AccountInfo) (instruction : SetRates) (clock : Clock) (ledger : Ledger),
      (processCurveUpdate accounts instruction clock ledger).NoPanic := by
  refine ⟨?_, noPanic_processCurveUpdate⟩
  have hwell := SwapInstruction.wellFormed_of_unpack hinput
  rw [Step, processWithConstraints_of_unpack swapConstraints hinput] at hinit
  obtain ⟨swap, _, _, _, state, haccounts, hcreated, hcurve, -⟩ :=
    processInitialize_eq_ok hwell hinit
  obtain ⟨rfl, -⟩ := List.cons.inj haccounts
  have hpool : l₁.StoresPool info.key state := ⟨hcreated.placed.owner, hcreated.stored⟩
  have hkept : PoolKept state info.key l₁ l :=
    hrun.invariant (P := PoolKept state info.key l₁) (fun hkept h => hkept.step hpool h)
      (.inl (.refl l₁ info.key))
  exact ⟨state, hpool, hcurve, hkept.immutable hpool⟩

end Runs

/-- The pool of the reference runtime, after its Initialize and a SetRates. -/
theorem initialized_pool_immutable_minute :
    ∃ l₁ l₂ state, World.Step World.ledger World.initializeEvent l₁ ∧
      World.Step l₁ World.setRatesEvent l₂ ∧ l₁.StoresPool World.swap state ∧
      state.swapCurve = .redemptionRate World.curve ∧
      @ImmutablePool Solana.reference SplMath.reference none World.swap state l₁ l₂ := by
  let _ : Solana := Solana.reference
  let _ : SplMath := SplMath.reference
  obtain ⟨l₁, l₂, hinit, hset⟩ := World.steps
  obtain ⟨⟨state, hpool, hcurve, himmutable⟩, -⟩ := initialized_pool_immutable
    World.unpack_initializeInput hinit (Transition.Run.single hset)
  exact ⟨l₁, l₂, state, hinit, hset, hpool, hcurve, himmutable⟩

/-- An Initialize of a pool in use that lists the pool alone fails for its accounts. -/
theorem initialize_may_lack_accounts :
    ∃ l₁, World.Step World.ledger World.initializeEvent l₁ ∧
      @processWithConstraints Solana.reference SplMath.reference none [⟨World.swap, false⟩]
        World.initializeInput World.clock l₁ = .err .notEnoughAccountKeys ∧
      @processWithConstraints Solana.reference SplMath.reference none [⟨World.swap, false⟩]
        World.initializeInput World.clock l₁ ≠ .err (.custom .alreadyInUse) := by
  let _ : Solana := Solana.reference
  let _ : SplMath := SplMath.reference
  obtain ⟨l₁, -, hinit, -⟩ := World.steps
  have hshort : processWithConstraints none [⟨World.swap, false⟩] World.initializeInput World.clock
      l₁ = .err .notEnoughAccountKeys := by
    rw [processWithConstraints, World.unpack_initializeInput]
    rfl
  refine ⟨l₁, hinit, hshort, ?_⟩
  rw [hshort]
  intro h
  cases h

end SolanaPsm
