import SolanaPsm.Authority
import SolanaPsm.SwapRuns

/-!
# The pools that are stored

Initialize checks a new pool once; the trades rely on it forever after, and read the pool
without checking it again. `SwapV1.Sound` collects what they rely on. Starting from a world
in which the program owns nothing but zeros, it holds of every pool of every reachable ledger
(`stored_pools_sound`): a pool is stored by its Initialize only, and a SetRates changes nothing
that was checked but the rates.
-/

namespace SolanaPsm

section Sound

variable [Solana]

/-- What the trades rely on in a stored pool. -/
structure SwapV1.Sound (swapConstraints : Option SwapConstraints) (swap : Pubkey)
    (state : SwapV1) : Prop where
  /-- it signs with the bump seed of its own authority -/
  bumpSeed : state.bumpSeed = poolBumpSeed swap
  /-- its pool tokens are those of a token program -/
  tokenProgram : checkSplTokenProgramAccount state.tokenProgramId = .ok ()
  /-- the mints differ -/
  differ : state.MintsDiffer
  /-- and so do the accounts -/
  reserves : state.tokenA ≠ state.tokenB
  feeAccount : ∀ token, state.reserve token ≠ state.poolFeeAccount
  /-- the fees are valid -/
  fees : state.fees.Valid
  /-- the curve is of its type -/
  wellFormed : state.swapCurve.WellFormed
  /-- a curve without rates is valid at all times -/
  curve : state.swapCurve.calculator.IsTimeless →
    ∀ timestamp, state.swapCurve.calculator.validate timestamp = .ok ()
  /-- the constraints of the build admit both -/
  admitted : ∀ constraints ∈ swapConstraints,
    constraints.validateCurve state.swapCurve = .ok () ∧
      constraints.validateFees state.fees = .ok ()

variable {swapConstraints : Option SwapConstraints} {swap : Pubkey} {state : SwapV1}
  {l l' : Ledger} {event : Event}

omit [Solana] in
/-- The validity of a curve without rates does not depend on the time. -/
theorem Calculator.IsTimeless.validate {calculator : Calculator} (h : calculator.IsTimeless)
    (timestamp timestamp' : Option U128) :
    calculator.validate timestamp = calculator.validate timestamp' := by
  cases calculator with
  | redemptionRate curve => exact h.elim
  | constantProduct | constantPrice | offset => rfl

/-- New rates keep a pool sound. -/
theorem SwapV1.Sound.withCurve {curve : RedemptionRateCurve}
    (h : state.Sound swapConstraints swap) (hcurve : state.swapCurve = .redemptionRate curve)
    (curve' : RedemptionRateCurve) : (state.withCurve curve').Sound swapConstraints swap where
  bumpSeed := h.bumpSeed
  tokenProgram := h.tokenProgram
  differ := ⟨h.differ.tokens, h.differ.poolMint⟩
  reserves := h.reserves
  feeAccount := h.feeAccount
  fees := h.fees
  wellFormed := rfl
  curve htimeless := htimeless.elim
  admitted constraints hconstraints := by
    obtain ⟨hvalid, hfees⟩ := h.admitted constraints hconstraints
    -- only the type of the curve is constrained
    rw [SwapConstraints.validateCurve, hcurve] at hvalid
    exact ⟨hvalid, hfees⟩

/-- Accounts of different mints are different accounts. -/
theorem Ledger.TokenAt.ne_of_mint {key key' : Pubkey} {a b : TokenAccount}
    (ha : l.TokenAt key a) (hb : l.TokenAt key' b) (hmint : a.mint ≠ b.mint) : key ≠ key' := by
  rintro rfl
  exact hmint (congrArg TokenAccount.mint (ha.unique hb))

/-- What Initialize read and checked makes the pool it stores sound. -/
theorem newPoolState_sound {infos : InitializeAccounts} {pool : NewPool} {data : Initialize}
    {clock : Clock} (hwell : data.swapCurve.WellFormed) (hat : NewPoolAt l infos pool)
    (hchecked : NewPoolChecked swapConstraints infos pool data clock)
    (hprogram : checkSplTokenProgramAccount infos.poolTokenProgram = .ok ()) :
    (newPoolState infos pool data).Sound swapConstraints infos.swap where
  bumpSeed := hat.bumpSeed
  tokenProgram := hprogram
  differ := by
    refine ⟨hchecked.tokens, ?_⟩
    intro token
    cases token with
    | a => exact hchecked.poolTokens.1
    | b => exact hchecked.poolTokens.2
  reserves := hat.tokenA.1.ne_of_mint hat.tokenB.1 hchecked.tokens
  feeAccount := by
    have hfee := hat.feeAccount
    intro token
    cases token with
    | a => exact hat.tokenA.1.ne_of_mint hfee.1 (hfee.2 ▸ hchecked.poolTokens.1)
    | b => exact hat.tokenB.1.ne_of_mint hfee.1 (hfee.2 ▸ hchecked.poolTokens.2)
  fees := hchecked.fees
  wellFormed := hwell
  curve htimeless timestamp := (htimeless.validate timestamp _).trans hchecked.curve
  admitted := hchecked.admitted

/-- Every pool stored in a ledger is sound. -/
def Ledger.PoolsSound (swapConstraints : Option SwapConstraints) (l : Ledger) : Prop :=
  ∀ swap state, l.StoresPool swap state → state.Sound swapConstraints swap

/-- Nothing is stored in the beginning. -/
theorem Genesis.poolsSound (h : Genesis l) : l.PoolsSound swapConstraints :=
  fun swap state hpool =>
    absurd hpool.2 (SwapVersion.unpack_ne_ok_of_zeroed (h swap hpool.1) state)

variable [SplMath]

/-- A pool that an Initialize stores is sound. -/
theorem initialize_sound (h : Step swapConstraints l event l') (hevent : event.Initializes swap)
    (hpool' : l'.StoresPool swap state) : state.Sound swapConstraints swap := by
  obtain ⟨clock, info, rest, data, ⟨input, rfl, hunpack⟩, rfl⟩ := hevent
  rw [Step, processWithConstraints_of_unpack swapConstraints hunpack] at h
  have hwell : data.swapCurve.WellFormed := SwapInstruction.wellFormed_of_unpack hunpack
  obtain ⟨infos, hinfos, pool, hpool, hcheck, _, _, -, hmint, -, hstored⟩ :=
    processInitialize_mints hwell h
  obtain ⟨_, _, haccounts, hswap⟩ := initializeAccounts_eq_ok hinfos
  obtain ⟨rfl, -⟩ := List.cons.inj haccounts
  obtain ⟨_, hprogram, -⟩ := Outcome.bind_eq_ok.mp hmint
  rw [← hswap] at hpool' ⊢
  obtain rfl := hpool'.unique hstored
  exact newPoolState_sound hwell (readNewPool_at hpool) (checkNewPool_checked hcheck) hprogram

/-- Pools stay sound. -/
theorem Ledger.PoolsSound.step (hsound : l.PoolsSound swapConstraints)
    (h : Step swapConstraints l event l') : l'.PoolsSound swapConstraints := by
  intro swap state' hpool'
  rcases step_pool_origin h hpool' with ⟨state, hpool⟩ | hevent
  · rcases step_pool h hpool with hsame | ⟨_, _, _, _, curve', _, _, _, hset⟩
    · obtain rfl := hpool'.unique (hpool.sameAt hsame)
      exact hsound swap _ hpool
    · obtain rfl := hpool'.unique ⟨hset.placed.owner, hset.unpack'⟩
      exact (hsound swap state hpool).withCurve hset.swapCurve curve'
  · exact initialize_sound h hevent hpool'

/-- Every pool of every reachable ledger is sound: whatever was sent, in whatever order, and
whatever other programs did, each pool keeps what its Initialize checked. -/
theorem stored_pools_sound {l₀ : Ledger} {events : List Event} (hgenesis : Genesis l₀)
    (hrun : Transition.Run (Step swapConstraints) l₀ events l) (hpool : l.StoresPool swap state) :
    state.Sound swapConstraints swap := by
  have hsound : l.PoolsSound swapConstraints :=
    hrun.invariant (P := Ledger.PoolsSound swapConstraints) (fun hsound h => hsound.step h)
      hgenesis.poolsSound
  exact hsound swap state hpool

end Sound

/-- The pool of the reference runtime after its Initialize and a SetRates. -/
theorem stored_pools_sound_minute :
    ∃ l₁ l₂ state, World.Step World.ledger World.initializeEvent l₁ ∧
      World.Step l₁ World.setRatesEvent l₂ ∧ l₂.StoresPool World.swap state ∧
      @SwapV1.Sound Solana.reference none World.swap state := by
  let _ : Solana := Solana.reference
  let _ : SplMath := SplMath.reference
  obtain ⟨l₁, l₂, hinit, hset⟩ := World.steps
  have hevent : World.initializeEvent.Initializes World.swap :=
    ⟨_, _, _, _, ⟨_, rfl, World.unpack_initializeInput⟩, rfl⟩
  obtain ⟨_, _, _, hcreated⟩ := step_initializes hinit hevent
  obtain ⟨state, hpool⟩ := step_pool_stored hset ⟨_, hcreated.placed.owner, hcreated.stored⟩
  exact ⟨l₁, l₂, state, hinit, hset, hpool, stored_pools_sound
    (fun _ => World.zeroed_of_owned) ((Transition.Run.single hinit).append (.single hset)) hpool⟩

end SolanaPsm
