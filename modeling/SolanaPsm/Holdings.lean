import SolanaPsm.LockedPool
import SolanaPsm.ShareValue
import SolanaPsm.SwapRuns

/-!
# Holdings

A liquidity provider who leaves pool tokens in an account and signs nothing. On the ledger the
account keeps its pool tokens whatever others do, and on the balances a trade at a constant price
costs a holding at most two units of token A. `absent_holder_keeps_value` puts the two together:
over any run, what the holding is worth falls by at most two units for each trade.

The exact-out withdrawals of a pool with an owner trade fee are left out: they may mint the fee
too cheaply (`RoundsSafely`).
-/

namespace SolanaPsm

open Fund

/-! ## On the balances -/

section Balances

variable {curve : SwapCurve} {c : ConstantPriceCurve} {fees : Fees} {h : ℕ} {s s' : Balances}

/-- The trades an event counts for. -/
def BalanceEvent.trades : BalanceEvent → ℕ
  | trade _ => 1
  | others => 0

/-- The event mints no owner fee against what an exact-out withdrawal leaves. -/
def BalanceEvent.KeepsHoldings (fees : Fees) : BalanceEvent → Prop
  | trade t => fees.ownerTradeFeeNumerator = 0#64 ∨
      ∀ dir source data, t.instruction ≠ .withdrawSingleTokenTypeExactAmountOut dir source data
  | others => True

/-- Such a trade rounds safely. -/
theorem BalanceEvent.KeepsHoldings.roundsSafely {trade : Trade} {p : ℕ}
    (h' : (BalanceEvent.trade trade).KeepsHoldings fees) :
    Trade.RoundsSafely fees h p s trade.instruction := by
  cases hinstruction : trade.instruction with
  | swap | depositAllTokenTypes | withdrawAllTokenTypes
  | depositSingleTokenTypeExactAmountIn => exact trivial
  | withdrawSingleTokenTypeExactAmountOut dir source data =>
    rcases h' with hfee | hnone
    · cases dir with
      | aToB => exact trivial
      | bToA =>
        refine .inr (.inl ?_)
        rw [Fees.adjustedOwnerFee, Fees.ownerFee, hfee]
        exact feeOf_zero_left _ _
    · exact absurd hinstruction (hnone dir source data)

variable [SplMath]

/-- One event costs a holding at most two units, and none when it is no trade. -/
theorem BalanceStep.loses {e : BalanceEvent} (hcurve : curve.calculator = .constantPrice c)
    (hfees : fees.Valid) (hkeeps : e.KeepsHoldings fees) (hheld : h ≤ s.supply.toNat)
    (hheld' : h ≤ s'.supply.toNat) (hstep : BalanceStep curve fees s e s') :
    LosesAtMost (2 * e.trades * ray) h
      (s.reserves.value c.tokenBPrice.toNat) s.supply.toNat
      (s'.reserves.value c.tokenBPrice.toNat) s'.supply.toNat := by
  cases e with
  | others =>
    -- the value rises and the supply falls
    obtain ⟨hreserves, hsupply⟩ := hstep
    have hvalue : s.reserves.value c.tokenBPrice.toNat ≤ s'.reserves.value c.tokenBPrice.toNat :=
      Nat.add_le_add (Nat.mul_le_mul_right _ (hreserves .a)) (Nat.mul_le_mul_right _ (hreserves .b))
    exact (LosesAtMost.of_ratio_le (Nat.mul_le_mul hvalue hsupply)).mono (Nat.zero_le _)
  | trade trade =>
    obtain ⟨hreprices, -, hrun⟩ := hstep
    have htimeless : curve.calculator.IsTimeless := hcurve ▸ trivial
    have hcalculator : trade.curve.calculator = .constantPrice c := by
      rw [hreprices.eq_of_timeless htimeless, hcurve]
    have hprice : trade.curve.calculator.tokenBPrice trade.timestamp =
        .ok (c.tokenBPrice.widen 256) := by
      rw [hcalculator]
      rfl
    have hlinear : trade.curve.calculator.IsLinear := by
      rw [hcalculator]
      trivial
    have hstep : Trade.Step fees h ⟨s, c.tokenBPrice.toNat⟩ trade ⟨s', c.tokenBPrice.toNat⟩ :=
      ⟨hlinear, ⟨_, hprice, (U128.toNat_widen _).symm⟩, le_rfl, hrun, hheld, hheld'⟩
    have hloses := hstep.loses hfees hkeeps.roundsSafely
    rw [BalanceEvent.trades, Nat.mul_one]
    exact hloses

/-- Along a run a holding that stays in circulation loses at most two units for each trade. -/
theorem BalanceStep.run_loses {events : List BalanceEvent}
    (hcurve : curve.calculator = .constantPrice c) (hfees : fees.Valid)
    (hrun : Transition.Run (fun s e s' => BalanceStep curve fees s e s' ∧ e.KeepsHoldings fees ∧
      h ≤ s'.supply.toNat) s events s') (hheld : h ≤ s.supply.toNat) :
    LosesAtMost (2 * (events.map BalanceEvent.trades).sum * ray) h
      (s.reserves.value c.tokenBPrice.toNat) s.supply.toNat
      (s'.reserves.value c.tokenBPrice.toNat) s'.supply.toNat := by
  induction hrun with
  | nil s =>
    rw [List.map_nil, List.sum_nil, Nat.mul_zero, Nat.zero_mul]
    exact LosesAtMost.of_value_le le_rfl
  | @cons s t u e events hstep hrest ih =>
    obtain ⟨hstep, hkeeps, hheld'⟩ := hstep
    rcases Nat.eq_zero_or_pos h with rfl | hpos
    · exact LosesAtMost.zero_holding
    have hboth := (hstep.loses hcurve hfees hkeeps hheld hheld').trans (hpos.trans_le hheld')
      (ih hheld')
    rwa [← Nat.add_mul, ← Nat.mul_add, ← List.sum_cons, ← List.map_cons] at hboth

end Balances

/-! ## On the ledger -/

/-- The event does not withdraw an exact amount from the pool, unless there is no owner fee. -/
def Event.KeepsHoldings (event : Event) (fees : Fees) (swap : Pubkey) : Prop :=
  fees.ownerTradeFeeNumerator = 0#64 ∨
    ∀ data, ¬ event.Trades swap (.withdrawSingleTokenTypeExactAmountOut data)

theorem Event.Matches.keepsHoldings {event : Event} {fees : Fees} {swap : Pubkey}
    {e : BalanceEvent} (h : event.Matches swap e) (hkeeps : event.KeepsHoldings fees swap) :
    e.KeepsHoldings fees := by
  cases e with
  | others => exact trivial
  | trade trade =>
    refine hkeeps.imp_right fun hnone dir source data hinstruction => ?_
    have htrades : event.Trades swap trade.instruction.request := h
    rw [hinstruction] at htrades
    exact hnone data htrades

section Ledger

variable [Solana] [SplMath] [TokenProgram] [CallEffects]
  {swapConstraints : Option SwapConstraints} {l l' : Ledger} {swap authority key owner : Pubkey}
  {state : SwapV1} {s : Balances} {c : ConstantPriceCurve} {holding : ℕ} {events : List Event}

/-- A run in which a holder of pool tokens signs nothing, on the balances: the account keeps the
pool tokens, so that they stay in circulation. -/
theorem absent_holder_run {A : Event → Prop} {B : BalanceEvent → Prop}
    (hpool : l.StoresPool swap state) (hcustody : l.Custody state authority s)
    (hexclusive : Exclusive swap authority) (hbystander : Bystander owner) (hpos : 0 < holding)
    (hlocks : l.Locks key state.poolMint owner holding) (hbacked : l.Backed state.poolMint)
    (hAB : ∀ {event e}, A event → event.Matches swap e → B e) (hA : ∀ event ∈ events, A event)
    (hrun : Transition.Run (BookedStep swapConstraints state.mints [authority, owner]
      state.poolMint) l events l') :
    ∃ balanceEvents s', l'.Custody state authority s' ∧
      l'.Locks key state.poolMint owner holding ∧
      List.Forall₂ (Event.Matches swap) events balanceEvents ∧
      Transition.Run (fun s e s' => BalanceStep state.swapCurve state.fees s e s' ∧ B e ∧
        holding ≤ s'.supply.toNat) s balanceEvents s' := by
  have hstart : Refines l swap state authority l s ∧
      l.Locks key state.poolMint owner holding ∧ l.Backed state.poolMint :=
    ⟨⟨.inl (.refl l _), hcustody⟩, hlocks, hbacked⟩
  obtain ⟨balanceEvents, s', hmatches, hrun', hrefines, hlocks', -⟩ := hrun.simulate
    (A := A)
    (R := fun l₁ s₁ => Refines l swap state authority l₁ s₁ ∧
      l₁.Locks key state.poolMint owner holding ∧ l₁.Backed state.poolMint)
    (M := Event.Matches swap)
    (T := fun s e s' => BalanceStep state.swapCurve state.fees s e s' ∧ B e ∧
      holding ≤ s'.supply.toNat)
    (by
      rintro l₁ event l₂ s₁ hevent ⟨hrefines, hlocks, hbacked⟩ hstep
      obtain ⟨e, s₂, hmatches, hbalance, hrefines'⟩ :=
        hrefines.step hpool hexclusive subset_rfl List.mem_cons_self hstep.step
      -- no pool signs for the holder
      have hguarded : l₁.Guarded state.mints l₂ owner :=
        hbystander.guarded (List.mem_cons_of_mem _ List.mem_cons_self) hstep.step
      have hlocks' := hlocks.guarded hpos state.poolMint_mem_mints
        hrefines.custody.plainPool.of_pool hguarded
      have hbacked' := hstep.backed hbacked
      have hheld := hlocks'.le_supply hbacked' hrefines'.custody.poolMint
      exact ⟨e, s₂, hmatches, ⟨hbalance, hAB hevent hmatches, hheld⟩, hrefines', hlocks',
        hbacked'⟩)
    hA hstart
  exact ⟨balanceEvents, s', hrefines.custody, hlocks', hmatches, hrun'⟩

/-- A holder of pool tokens who signs nothing. The pool keeps a constant price; an account of the
holder without a delegate has some pool tokens, and nobody holds a key to the authority of the
pool. The mints of the pool are neither closed nor replaced, and the books of the pool mint are
right at the start and stay so when other programs act. Then, whatever the holder's absence is used
for, the account keeps these pool tokens, and their share of the reserves is worth what it was, but
for two units of token A for each trade of the pool. -/
theorem absent_holder_keeps_value (hpool : l.StoresPool swap state)
    (hcustody : l.Custody state authority s)
    (hcurve : state.swapCurve.calculator = .constantPrice c) (hfees : state.fees.validate = .ok ())
    (hexclusive : Exclusive swap authority) (hbystander : Bystander owner) (hpos : 0 < holding)
    (hlocks : l.Locks key state.poolMint owner holding) (hbacked : l.Backed state.poolMint)
    (hkeeps : ∀ event ∈ events, event.KeepsHoldings state.fees swap)
    (hrun : Transition.Run (BookedStep swapConstraints state.mints [authority, owner]
      state.poolMint) l events l') :
    ∃ s' balanceEvents, l'.Custody state authority s' ∧
      l'.Locks key state.poolMint owner holding ∧
      List.Forall₂ (Event.Matches swap) events balanceEvents ∧
      LosesAtMost (2 * (balanceEvents.map BalanceEvent.trades).sum * ray) holding
        (s.reserves.value c.tokenBPrice.toNat) s.supply.toNat
        (s'.reserves.value c.tokenBPrice.toNat) s'.supply.toNat := by
  obtain ⟨balanceEvents, s', hcustody', hlocks', hmatches, hrun'⟩ := absent_holder_run hpool
    hcustody hexclusive hbystander hpos hlocks hbacked
    (fun h hmatches => hmatches.keepsHoldings h) hkeeps hrun
  exact ⟨s', balanceEvents, hcustody', hlocks', hmatches,
    BalanceStep.run_loses hcurve (Fees.validate_eq_ok.mp hfees) hrun'
      (hlocks.le_supply hbacked hcustody.poolMint)⟩

end Ledger

section Market

attribute [local instance] Solana.bank SplMath.reference Solana.Bank.promises Solana.Bank.effects

/-- The initial supply of the market is a holding, and a swap is a trade. -/
theorem absent_holder_keeps_value_market :
    ∃ l₁ l₂ state s, Step none Market.ledger Market.initializeEvent l₁ ∧
      Step none l₁ Market.swapEvent l₂ ∧ l₁.StoresPool World.swap state ∧
      l₁.Custody state (poolAuthority World.swap) s ∧
      ∃ s' balanceEvents, l₂.Custody state (poolAuthority World.swap) s' ∧
        l₂.Locks 9#256 state.poolMint (initDestinationOwner World.swap)
          INITIAL_SWAP_POOL_AMOUNT.toNat ∧
        List.Forall₂ (Event.Matches World.swap) [Market.swapEvent] balanceEvents ∧
        LosesAtMost (2 * (balanceEvents.map BalanceEvent.trades).sum * ray)
          INITIAL_SWAP_POOL_AMOUNT.toNat (s.reserves.value (2#128 * RAY).toNat) s.supply.toNat
          (s'.reserves.value (2#128 * RAY).toNat) s'.supply.toNat := by
  obtain ⟨l₁, l₂, hinit, hswap⟩ := Market.steps
  obtain ⟨state, s, hopened, hlocks, hbacked⟩ := Market.locks hinit
  have hcurve : state.swapCurve.calculator = .constantPrice ⟨2#128 * RAY⟩ := by
    rw [hopened.swapCurve]
    rfl
  have hkeeps : ∀ event ∈ [Market.swapEvent], event.KeepsHoldings state.fees World.swap := by
    rw [List.forall_mem_singleton]
    refine .inr fun data htrades => ?_
    obtain ⟨-, clock, info, rest, ⟨input, hevent, hunpack⟩, -⟩ := htrades
    obtain ⟨-, -, rfl⟩ := Event.instruction.inj hevent
    cases (Market.unpack_swapInput.symm.trans hunpack)
  exact ⟨l₁, l₂, state, s, hinit, hswap, hopened.stored, hopened.custody,
    absent_holder_keeps_value hopened.stored hopened.custody hcurve
      (Fees.validate_eq_ok.mpr (hopened.fees ▸ hopened.valid)) Market.exclusive_authority
      Market.bystander_locked (by decide) hlocks hbacked hkeeps
      (.single (Market.bookedStep (by decide +kernel) hswap))⟩

end Market

end SolanaPsm
