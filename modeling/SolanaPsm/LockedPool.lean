import SolanaPsm.Books
import SolanaPsm.Liveness

/-!
# The locked liquidity, at the token programs

Initialize mints the initial supply to an account whose owner is an address of the program that
it never signs for. `locked_pool_lives` shows on the ledger what the locked account is for: it
keeps the initial supply through every run, so a linear pool is never emptied.

That trades leave something in the reserves as long as pool tokens are left is a fact about the
balances (`Balances.Alive.trade`); the simulation of `CustodyRuns` carries it to the ledger.
-/

namespace SolanaPsm

/-- One event of the balances that leaves pool tokens leaves something in the reserves. -/
theorem Balances.Alive.step [SplMath] {curve : SwapCurve} {fees : Fees} {s s' : Balances}
    {e : BalanceEvent} (h : s.Alive) (hfees : fees.Valid) (hlin : curve.calculator.IsLinear)
    (hleft : 0 < s'.supply.toNat) (hstep : BalanceStep curve fees s e s') : s'.Alive := by
  cases e with
  | trade trade => exact h.trade hfees (hstep.1.isLinear hlin) hleft hstep.2.2
  | others => exact h.of_le hstep.1

section PoolRuns

variable [Solana] {l₀ l₁ l : Ledger} {clock : Clock} {accounts : List AccountInfo}
  {input : Bytes} {data : Initialize} {infos : InitializeAccounts} {events : List Event}

/-- A pool whose initial supply is still locked, and which is not empty. -/
structure LivesOn (l₁ : Ledger) (infos : InitializeAccounts) (state : SwapV1) (l : Ledger)
    (s : Balances) : Prop where
  /-- it is kept and in custody -/
  refines : Refines l₁ infos.swap state (poolAuthority infos.swap) l s
  /-- the initial supply is where it was minted -/
  locked : l.Locks infos.destination state.poolMint (initDestinationOwner infos.swap)
    INITIAL_SWAP_POOL_AMOUNT.toNat
  /-- the accounts of its mint hold no more than the supply -/
  backed : l.Backed state.poolMint
  /-- some reserve is not empty -/
  alive : s.Alive

/-- As long as it is locked, the initial supply is part of the supply. -/
theorem LivesOn.le_supply {state : SwapV1} {s : Balances} (h : LivesOn l₁ infos state l s) :
    INITIAL_SWAP_POOL_AMOUNT.toNat ≤ s.supply.toNat :=
  h.locked.le_supply h.backed h.refines.custody.poolMint

variable [TokenProgram] [CallEffects] {swapConstraints : Option SwapConstraints}

omit [TokenProgram] in
/-- An Initialize mints its initial supply, so its pool tokens are no wrapped lamports. -/
theorem initialize_not_native (hwell : data.swapCurve.WellFormed)
    (hinfos : initializeAccounts accounts = .ok infos)
    (h : processInitialize swapConstraints data accounts clock l₀ = .ok l₁) :
    infos.poolMint ∉ NATIVE_MINT_IDS := by
  obtain ⟨_, hinfos', _, _, _, _, _, _, hmint, -⟩ := processInitialize_mints hwell h
  obtain rfl := Outcome.ok.inj (hinfos.symm.trans hinfos')
  exact CallEffects.native hmint

variable [SplMath]

/-- The locked initial liquidity, at the token programs. Nobody holds a key to the authority of the
pool or to the owner of the initial supply, no pool signs for the latter, and its account starts
without a delegate. The mints of the pool are neither closed nor replaced, and the books of the
pool mint are right at the start and stay so when other programs act. Then, in every ledger that a
run from the Initialize of a linear pool reaches, the initial supply is still where it was minted,
the supply is at least that, and the reserves are not both empty. -/
theorem locked_pool_lives (hinput : SwapInstruction.unpack input = .ok (.initializeSwap data))
    (hinfos : initializeAccounts accounts = .ok infos)
    (hlin : data.swapCurve.calculator.IsLinear)
    (hinit : Step swapConstraints l₀ (.instruction clock accounts input) l₁)
    (hdelegate : ∀ {a}, l₀.TokenAt infos.destination a →
      a.owner = initDestinationOwner infos.swap → a.delegate = none)
    (hbacked : l₀.Backed infos.poolMint)
    (hexclusive : Exclusive infos.swap (poolAuthority infos.swap))
    (hbystander : Bystander (initDestinationOwner infos.swap))
    (hrun : Transition.Run (BookedStep swapConstraints infos.mints
      [poolAuthority infos.swap, initDestinationOwner infos.swap] infos.poolMint) l₁ events l) :
    ∃ state s, l₁.StoresPool infos.swap state ∧ l.Custody state (poolAuthority infos.swap) s ∧
      l.Locks infos.destination state.poolMint (initDestinationOwner infos.swap)
        INITIAL_SWAP_POOL_AMOUNT.toNat ∧
      INITIAL_SWAP_POOL_AMOUNT.toNat ≤ s.supply.toNat ∧
      ¬ (s.tokenA = 0#64 ∧ s.tokenB = 0#64) := by
  have hbacked₁ := step_backed (by rintro ⟨⟩) hbacked hinit
  have hwell := SwapInstruction.wellFormed_of_unpack hinput
  rw [Step, processWithConstraints_of_unpack swapConstraints hinput] at hinit
  obtain ⟨state, s₁, hopened, ⟨hmints, hpoolMint⟩, hlocks⟩ := initialize_opens hwell hinfos hinit
  rw [← hpoolMint] at hbacked₁ hrun
  have hstart : LivesOn l₁ infos state l₁ s₁ := by
    refine ⟨hopened.refines, hlocks (initialize_not_native hwell hinfos hinit) hdelegate, hbacked₁,
      .a, ?_⟩
    have hreserves := hopened.reserves
    rw [hlin.validateSupply, Linear.validateSupply, Outcome.rejectIf_eq_ok, toNat_eq_zero]
      at hreserves
    exact Nat.pos_of_ne_zero hreserves
  obtain ⟨s, hlives⟩ := hrun.invariant (P := fun l => ∃ s, LivesOn l₁ infos state l s) (by
    rintro l event l' ⟨s, hlives⟩ hstep
    obtain ⟨e, s', -, hbalance, hrefines⟩ := hlives.refines.step hopened.stored hexclusive
      hmints.subset List.mem_cons_self hstep.step
    -- no pool signs for the owner of the initial supply, not even this one
    have hguarded : l.Guarded infos.mints l' (initDestinationOwner infos.swap) :=
      hbystander.guarded (List.mem_cons_of_mem _ List.mem_cons_self) hstep.step
    have hlocks' := hlives.locked.guarded (by decide) (hmints ▸ state.poolMint_mem_mints)
      hlives.refines.custody.plainPool.of_pool hguarded
    have hbacked' := hstep.backed hlives.backed
    have hleft : 0 < s'.supply.toNat :=
      lt_of_lt_of_le (by decide) (hlocks'.le_supply hbacked' hrefines.custody.poolMint)
    exact ⟨s', hrefines, hlocks', hbacked', hlives.alive.step (hopened.fees ▸ hopened.valid)
      (hopened.swapCurve ▸ hlin) hleft hbalance⟩) ⟨s₁, hstart⟩
  refine ⟨state, s, hopened.stored, hlives.refines.custody, hlives.locked, hlives.le_supply, ?_⟩
  rintro ⟨ha, hb⟩
  obtain ⟨token, hpos⟩ := hlives.alive
  cases token with
  | a => exact absurd hpos (by rw [Balances.reserves, Balances.reserve, ha]; decide)
  | b => exact absurd hpos (by rw [Balances.reserves, Balances.reserve, hb]; decide)

end PoolRuns

section Market

attribute [local instance] Solana.bank SplMath.reference Solana.Bank.promises Solana.Bank.effects

/-- No pool signs for the owner of the initial supply. -/
theorem Market.bystander_locked : Bystander (initDestinationOwner World.swap) :=
  Market.bystander (by decide +kernel) (by decide +kernel)

/-- The account for the initial supply has no delegate. -/
theorem Market.delegate_eq_none {a : TokenAccount} (ha : Market.ledger.TokenAt 9#256 a) :
    a.delegate = none := by
  have hread : (unpackTokenAccount 9#256 none Market.ledger >>= fun a =>
      Outcome.rejectIf (a.delegate ≠ none) (ProgramError.external 0)).isOk := by decide +kernel
  rw [ha] at hread
  obtain ⟨_, hread⟩ := Outcome.isOk_iff.mp hread
  exact not_not.mp (Outcome.rejectIf_eq_ok.mp hread)

/-- The Initialize of the market locks the initial supply. -/
theorem Market.locks {l : Ledger} (h : Step none Market.ledger Market.initializeEvent l) :
    ∃ state s, PoolOpened l World.swap Market.initializeData state s ∧
      l.Locks 9#256 state.poolMint (initDestinationOwner World.swap)
        INITIAL_SWAP_POOL_AMOUNT.toNat ∧
      l.Backed state.poolMint := by
  have hbacked := step_backed (by rintro ⟨⟩) Market.backed_ledger h
  have hwell := SwapInstruction.wellFormed_of_unpack Market.unpack_initializeInput
  rw [Market.initializeEvent, Step, processWithConstraints_of_unpack none
    Market.unpack_initializeInput] at h
  obtain ⟨state, s, hopened, ⟨-, hpoolMint⟩, hlocks⟩ := initialize_opens hwell rfl h
  exact ⟨state, s, hopened, hlocks (initialize_not_native hwell rfl h)
    fun ha _ => Market.delegate_eq_none ha, hpoolMint ▸ hbacked⟩

/-- The pool of the market, and a swap. -/
theorem locked_pool_lives_market :
    ∃ l₁ l₂ state s, Step none Market.ledger Market.initializeEvent l₁ ∧
      Step none l₁ Market.swapEvent l₂ ∧ l₁.StoresPool World.swap state ∧
      l₂.Custody state (poolAuthority World.swap) s ∧
      l₂.Locks 9#256 state.poolMint (initDestinationOwner World.swap)
        INITIAL_SWAP_POOL_AMOUNT.toNat ∧
      INITIAL_SWAP_POOL_AMOUNT.toNat ≤ s.supply.toNat ∧
      ¬ (s.tokenA = 0#64 ∧ s.tokenB = 0#64) := by
  obtain ⟨l₁, l₂, hinit, hswap⟩ := Market.steps
  have hinfos : initializeAccounts Market.initializeAccounts = .ok ⟨World.swap, World.authority,
      3#256, 4#256, 5#256, 6#256, 7#256, 8#256, 9#256, SPL_TOKEN_ID, []⟩ := rfl
  obtain ⟨state, s, h⟩ := locked_pool_lives Market.unpack_initializeInput hinfos trivial hinit
    (fun ha _ => Market.delegate_eq_none ha) Market.backed_ledger Market.exclusive_authority
    Market.bystander_locked (.single (Market.bookedStep (by decide +kernel) hswap))
  exact ⟨l₁, l₂, state, s, hinit, hswap, h⟩

end Market

end SolanaPsm
