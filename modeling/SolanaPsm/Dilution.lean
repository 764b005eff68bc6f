import SolanaPsm.Holdings
import SolanaPsm.OwnerFees

/-!
# What a pool token stands for

The pool tokens of a curve that does not know the time stand for the depth of its reserves. The
depth of a product grows with the square of the reserves, that of a constant price with the
reserves themselves (`Calculator.degree`), so it is compared with that power of the supply
(`Calculator.Undiluted`). Two-sided trades and, where the owner takes no part of the fees, swaps
round every amount in favour of the pool. So a holder who stays away loses nothing to them, not
even a unit (`absent_holder_is_undiluted`).
-/

namespace SolanaPsm

open PoolEffect Script

namespace Calculator

/-- The power of the reserves that the depth grows with. -/
def degree : Calculator → ℕ
  | constantPrice _ => 1
  | _ => 2

/-- The reserves a curve counts: the offset is counted as token B. -/
def sides : Calculator → Reserves → Reserves
  | offset curve, r => fun
    | .a => r .a
    | .b => r .b + curve.tokenBOffset.toNat
  | _, r => r

/-- The depth per pool token does not fall. -/
def Undiluted (calculator : Calculator) (s s' : Balances) : Prop :=
  calculator.depth s.reserves * s'.supply.toNat ^ calculator.degree ≤
    calculator.depth s'.reserves * s.supply.toNat ^ calculator.degree

variable {calculator : Calculator}

theorem sides_of_allowsDeposits (h : calculator.allowsDeposits = true) (r : Reserves) :
    calculator.sides r = r := by
  cases calculator with
  | constantProduct | constantPrice | redemptionRate => rfl
  | offset => exact absurd h Bool.false_ne_true

/-- What is paid out of the reserves is paid out of the sides. -/
theorem sides_of_paid (calculator : Calculator) {r r' x : Reserves}
    (h : ∀ token, r' token + x token = r token) (token : PoolToken) :
    calculator.sides r' token + x token = calculator.sides r token := by
  have htoken := h token
  cases calculator with
  | constantProduct | constantPrice | redemptionRate => exact htoken
  | offset curve =>
    cases token with
    | a => exact htoken
    | b =>
      simp only [sides]
      omega

/-- The depth is that of the sides, and homogeneous in them. -/
theorem depth_of_sides {r r' : Reserves} {n n' : ℕ}
    (h : ∀ token, calculator.sides r token * n' ≤ calculator.sides r' token * n) :
    calculator.depth r * n' ^ calculator.degree ≤ calculator.depth r' * n ^ calculator.degree := by
  have ha := h .a
  have hb := h .b
  cases calculator with
  | constantProduct | offset =>
    simp only [depth, degree, sides, pow_two] at *
    rw [Nat.mul_mul_mul_comm, Nat.mul_mul_mul_comm (r' .a)]
    exact Nat.mul_le_mul ha hb
  | constantPrice curve =>
    simp only [depth, degree, sides, pow_one, Reserves.value, Nat.mul_assoc, Nat.add_mul] at *
    refine Nat.mul_le_mul_left _ (Nat.add_le_add ?_ ?_)
    · rw [Nat.mul_left_comm, Nat.mul_left_comm (r' .a)]
      exact Nat.mul_le_mul_left _ ha
    · rw [Nat.mul_left_comm, Nat.mul_left_comm (r' .b)]
      exact Nat.mul_le_mul_left _ hb
  | redemptionRate => exact (Nat.zero_mul _).trans_le (Nat.zero_le _)

theorem Undiluted.refl (s : Balances) : calculator.Undiluted s s := le_rfl

theorem Undiluted.trans {s t u : Balances} (hpos : 0 < t.supply.toNat)
    (h : calculator.Undiluted s t) (h' : calculator.Undiluted t u) : calculator.Undiluted s u :=
  Fund.ratio_trans (Nat.pow_pos hpos) h h'

/-- More in the reserves for fewer pool tokens. -/
theorem Undiluted.of_le {s s' : Balances}
    (hdepth : calculator.depth s.reserves ≤ calculator.depth s'.reserves)
    (hsupply : s'.supply.toNat ≤ s.supply.toNat) : calculator.Undiluted s s' :=
  Nat.mul_le_mul hdepth (Nat.pow_le_pow_left hsupply _)

/-- As many pool tokens and less in the reserves is the same in the reserves. -/
theorem Undiluted.reserves_eq {s s' : Balances} (h : calculator.Undiluted s s')
    (hdepth : 0 < calculator.depth s.reserves) (hpos : 0 < s'.supply.toNat)
    (hsupply : s.supply.toNat ≤ s'.supply.toNat) (hle : s'.reserves ≤ s.reserves) :
    s'.reserves = s.reserves := by
  rw [Undiluted] at h
  have hscaled : calculator.depth s.reserves * s'.supply.toNat ^ calculator.degree ≤
      calculator.depth s'.reserves * s'.supply.toNat ^ calculator.degree :=
    h.trans (Nat.mul_le_mul_left _ (Nat.pow_le_pow_left hsupply _))
  exact calculator.depth_potential.strict hle hdepth
    (Nat.le_of_mul_le_mul_right hscaled (Nat.pow_pos hpos))

/-- A truncated share is at most the share of the side. -/
theorem floor_mul_le [SplMath] {t S a b : U128} {r : TradingTokenResult} (reserves : Reserves)
    (h : calculator.poolTokensToTradingTokens t S a b .floor = .ok r)
    (ha : a.toNat = reserves .a) (hb : b.toNat = reserves .b) :
    r.tokenAAmount.toNat * S.toNat ≤ t.toNat * calculator.sides reserves .a ∧
      r.tokenBAmount.toNat * S.toNat ≤ t.toNat * calculator.sides reserves .b := by
  have hshares (calculator : Calculator) {b : U128} (hdeposits : calculator.allowsDeposits = true)
      (h : calculator.poolTokensToTradingTokens t S a b .floor = .ok r) :
      r.tokenAAmount.toNat * S.toNat ≤ t.toNat * a.toNat ∧
        r.tokenBAmount.toNat * S.toNat ≤ t.toNat * b.toNat := by
    obtain ⟨-, hra, hrb⟩ := poolTokensToTradingTokens_spec hdeposits h
    simp only [IsTwoSidedShare, reduceCtorEq, false_and, and_false, or_false,
      Linear.shareOf] at hra hrb
    rw [hra, hrb]
    exact ⟨Nat.div_mul_le_self _ _, Nat.div_mul_le_self _ _⟩
  cases calculator with
  | constantProduct | constantPrice | redemptionRate =>
    rw [sides_of_allowsDeposits rfl, ← ha, ← hb]
    exact hshares _ rfl h
  | offset curve =>
    -- the product curve, with the offset among the reserves
    obtain ⟨b', hb', h⟩ := Option.bind_eq_some_iff.mp (Calc.liftM_eq_ok.mp h)
    rw [BitVec.checkedAdd_eq_some, U64.toNat_widen, hb] at hb'
    have hboth := hshares constantProduct rfl (Calc.liftM_eq_ok.mpr h)
    rwa [ha, hb'] at hboth

end Calculator

/-! ## One trade -/

namespace Amounts

variable [SplMath] {curve : SwapCurve} {fees : Fees} {ts : Option U128} {accounts : FeeAccounts}
  {log : List PoolEffect} {s s' : Balances}

/-- A two-sided deposit takes at least the share of both reserves. -/
theorem depositAllTokenTypes_undiluted (hwell : curve.WellFormed)
    (hdeposits : curve.calculator.allowsDeposits = true) {destination : Pubkey}
    {instruction : DepositAllTokenTypes}
    (h : (depositAllTokenTypes curve s destination instruction).Returns log ())
    (hlog : performAll PoolEffect.apply log s = .ok s') : curve.calculator.Undiluted s s' := by
  obtain ⟨hS, hpaid, -, hburned, hreceived⟩ := depositAllTokenTypes_returns hdeposits
    (fun hproduct => hwell.trans (congrArg Calculator.curveType hproduct)) h
  obtain ⟨hreserves, hsupply⟩ := performAll_apply hlog
  refine Calculator.depth_of_sides fun token => ?_
  have hceil := (ceilDiv_le_iff_le_mul hS).mp (hreceived token).ge
  have htoken := hreserves token
  rw [hpaid, Nat.add_zero] at htoken
  rw [hburned, Nat.add_zero] at hsupply
  rw [Calculator.sides_of_allowsDeposits hdeposits, Calculator.sides_of_allowsDeposits hdeposits,
    htoken, hsupply]
  calc s.reserves token * (s.supply.toNat + total minted log)
      = s.reserves token * s.supply.toNat + total minted log * s.reserves token := by ring
    _ ≤ s.reserves token * s.supply.toNat + s.supply.toNat * total (received token) log :=
        Nat.add_le_add_left hceil _
    _ = (s.reserves token + total (received token) log) * s.supply.toNat := by ring

/-- A two-sided withdrawal pays at most the share of both sides, on every curve. -/
theorem withdrawAllTokenTypes_paid {source : Pubkey} {instruction : WithdrawAllTokenTypes}
    (h : (withdrawAllTokenTypes curve fees s accounts source instruction).Returns log ()) :
    (∀ token, total (received token) log = 0) ∧ total minted log = 0 ∧
    ∀ token, total (paid token) log * s.supply.toNat ≤
      total burned log * curve.calculator.sides s.reserves token := by
  obtain ⟨fee, burn, r, -, -, hburn, hr, hreceived, hminted, hpaidA, hpaidB⟩ :=
    withdrawAllTokenTypes_log h
  obtain ⟨ha, hb⟩ := Calculator.floor_mul_le s.reserves hr (U64.toNat_widen _)
    (U64.toNat_widen _)
  rw [U64.toNat_widen, hburn] at ha hb
  refine ⟨hreceived, hminted, fun token => ?_⟩
  cases token with
  | a =>
    rw [hpaidA]
    exact (Nat.mul_le_mul_right _ (min_le_right _ _)).trans ha
  | b =>
    rw [hpaidB]
    exact (Nat.mul_le_mul_right _ (min_le_right _ _)).trans hb

theorem withdrawAllTokenTypes_undiluted {source : Pubkey} {instruction : WithdrawAllTokenTypes}
    (h : (withdrawAllTokenTypes curve fees s accounts source instruction).Returns log ())
    (hlog : performAll PoolEffect.apply log s = .ok s') : curve.calculator.Undiluted s s' := by
  obtain ⟨hreceived, hminted, hpaid⟩ := withdrawAllTokenTypes_paid h
  obtain ⟨hreserves, hsupply⟩ := performAll_apply hlog
  simp only [hreceived, Nat.add_zero] at hreserves
  rw [hminted, Nat.add_zero] at hsupply
  refine Calculator.depth_of_sides fun token => ?_
  have hshare := hpaid token
  have hsides := curve.calculator.sides_of_paid hreserves token
  have hsplit : curve.calculator.sides s.reserves token * s'.supply.toNat +
      total burned log * curve.calculator.sides s.reserves token =
      curve.calculator.sides s'.reserves token * s.supply.toNat +
        total (paid token) log * s.supply.toNat := by
    rw [← Nat.add_mul, hsides, ← hsupply]
    ring
  omega

/-- Without an owner fee, a swap mints nothing. -/
theorem swap_supply {dir : TradeDirection} {instruction : Swap}
    (hfee : fees.ownerTradeFeeNumerator = 0#64)
    (h : (swap curve fees ts s accounts dir instruction).Returns log ())
    (hlog : performAll PoolEffect.apply log s = .ok s') : s'.supply = s.supply := by
  obtain ⟨r, shares, hr, hbuys, hbook⟩ := swap_books h hlog
  obtain ⟨_, _, base, -, hcharged, -⟩ := SwapCurve.swap_eq_ok hr
  have hzero : r.ownerFee.toNat = 0 := by
    rw [hcharged.ownerFee, Fees.ownerFee, hfee]
    exact feeOf_zero_left _ _
  have hnone : ¬ 0#128 < r.ownerFee := by
    rw [BitVec.lt_def, hzero]
    exact lt_irrefl 0
  rw [SwapCurve.FeeBuys, if_neg hnone] at hbuys
  rw [hbuys, FeeAccounts.shareOut_zero] at hbook
  obtain ⟨-, hsupply⟩ := performAll_apply hlog
  have hminted : total minted log = 0 := congrArg ShareBook.minted hbook
  have hburned : total burned log = 0 := congrArg ShareBook.burned hbook
  rw [hminted, hburned] at hsupply
  exact BitVec.eq_of_toNat_eq hsupply

end Amounts

/-- Two-sided trades, and swaps of which the owner takes no fee. -/
def SwapInstruction.KeepsShares (fees : Fees) : SwapInstruction → Prop
  | depositAllTokenTypes _ | withdrawAllTokenTypes _ => True
  | swap _ => fees.ownerTradeFeeNumerator = 0#64
  | _ => False

/-- The event is one of these, or no trade. -/
def BalanceEvent.KeepsShares (fees : Fees) : BalanceEvent → Prop
  | trade t => t.instruction.request.KeepsShares fees
  | others => True

section Balances

variable [SplMath] {curve : SwapCurve} {fees : Fees} {s s' : Balances}

/-- One of these takes nothing from what a pool token stands for, and others only add to it. -/
theorem BalanceStep.undiluted {e : BalanceEvent} (hwell : curve.WellFormed)
    (htimeless : curve.calculator.IsTimeless) (hkeeps : e.KeepsShares fees)
    (hstep : BalanceStep curve fees s e s') : curve.calculator.Undiluted s s' := by
  cases e with
  | others => exact .of_le (curve.calculator.depth_potential.mono hstep.1) hstep.2
  | trade trade =>
    obtain ⟨hcurve, hdeposits, hrun⟩ := hstep
    rw [hcurve.eq_of_timeless htimeless] at hdeposits
    obtain ⟨log, ⟨⟩, hscript, hlog⟩ := Script.run_eq_ok.mp hrun
    rw [Trade.amounts, hcurve.eq_of_timeless htimeless] at hscript
    rw [BalanceEvent.KeepsShares] at hkeeps
    cases hinstruction : trade.instruction with
    | swap dir instruction =>
      rw [hinstruction] at hscript hkeeps
      obtain ⟨net, w, paid, hw, hpaid, hsource, hdestination⟩ :=
        Amounts.swap_reserves hscript hlog
      have hdepth := Calculator.depth_of_swap htimeless hw (U64.toNat_widen _)
        (U64.toNat_widen _) hpaid hsource hdestination
      have hsupply := Amounts.swap_supply hkeeps hscript hlog
      exact .of_le hdepth.2 (congrArg BitVec.toNat hsupply).le
    | depositAllTokenTypes destination instruction =>
      rw [hinstruction] at hscript hdeposits
      exact Amounts.depositAllTokenTypes_undiluted hwell (hdeposits trivial) hscript hlog
    | withdrawAllTokenTypes source instruction =>
      rw [hinstruction] at hscript
      exact Amounts.withdrawAllTokenTypes_undiluted hscript hlog
    | depositSingleTokenTypeExactAmountIn | withdrawSingleTokenTypeExactAmountOut =>
      rw [hinstruction] at hkeeps
      exact hkeeps.elim

/-- Nor does a run that leaves pool tokens in circulation. -/
theorem BalanceStep.run_undiluted {events : List BalanceEvent} {h : ℕ} (hwell : curve.WellFormed)
    (htimeless : curve.calculator.IsTimeless) (hpos : 0 < h)
    (hrun : Transition.Run (fun s e s' => BalanceStep curve fees s e s' ∧ e.KeepsShares fees ∧
      h ≤ s'.supply.toNat) s events s') :
    s = s' ∨ 0 < s'.supply.toNat ∧ curve.calculator.Undiluted s s' := by
  refine hrun.relates_of (A := fun _ => True)
    (R := fun s t => s = t ∨ 0 < t.supply.toNat ∧ curve.calculator.Undiluted s t)
    (fun _ => .inl rfl) ?_ ?_ fun _ _ => trivial
  · -- after any step there are pool tokens to compare with
    rintro s t u (rfl | ⟨hpos, hst⟩) (rfl | ⟨hpos', htu⟩)
    · exact .inl rfl
    · exact .inr ⟨hpos', htu⟩
    · exact .inr ⟨hpos, hst⟩
    · exact .inr ⟨hpos', hst.trans hpos htu⟩
  · rintro s e t - ⟨hstep, hkeeps, hheld⟩
    exact .inr ⟨hpos.trans_le hheld, hstep.undiluted hwell htimeless hkeeps⟩

end Balances

/-! ## On the ledger -/

/-- What the event trades with the pool is one of these. -/
def Event.KeepsShares (event : Event) (fees : Fees) (swap : Pubkey) : Prop :=
  ∀ instruction, event.Trades swap instruction → instruction.KeepsShares fees

theorem Event.Matches.keepsShares {event : Event} {fees : Fees} {swap : Pubkey}
    {e : BalanceEvent} (h : event.Matches swap e) (hkeeps : event.KeepsShares fees swap) :
    e.KeepsShares fees := by
  cases e with
  | others => exact trivial
  | trade trade => exact hkeeps _ h

section Ledger

variable [Solana] [SplMath] [TokenProgram] [CallEffects]
  {swapConstraints : Option SwapConstraints} {l l' : Ledger} {swap authority key owner : Pubkey}
  {state : SwapV1} {s : Balances} {holding : ℕ} {events : List Event}

/-- A holder of pool tokens who signs nothing is not diluted at all by two-sided trades, nor by
swaps of which the owner takes no fee. Take a curve that does not know the time, an account of the
holder without a delegate, and a pool whose authority nobody holds a key to. The mints of the pool
are neither closed nor replaced, and the books of the pool mint are right at the start and stay so
when other programs act. Then, over any run in which the pool is traded in these ways only, the
account keeps its pool tokens, and the depth of the reserves that a pool token stands for does not
fall. So there is no free round trip: when all the pool tokens are back, some reserve holds more,
or both hold the same. -/
theorem absent_holder_is_undiluted (hpool : l.StoresPool swap state)
    (hcustody : l.Custody state authority s)
    (htimeless : state.swapCurve.calculator.IsTimeless)
    (hexclusive : Exclusive swap authority) (hbystander : Bystander owner) (hpos : 0 < holding)
    (hlocks : l.Locks key state.poolMint owner holding) (hbacked : l.Backed state.poolMint)
    (hkeeps : ∀ event ∈ events, event.KeepsShares state.fees swap)
    (hrun : Transition.Run (BookedStep swapConstraints state.mints [authority, owner]
      state.poolMint) l events l') :
    ∃ s', l'.Custody state authority s' ∧ l'.Locks key state.poolMint owner holding ∧
      state.swapCurve.calculator.Undiluted s s' ∧
      (0 < state.swapCurve.calculator.depth s.reserves → s.supply.toNat ≤ s'.supply.toNat →
        s'.reserves ≤ s.reserves → s'.reserves = s.reserves) := by
  obtain ⟨balanceEvents, s', hcustody', hlocks', -, hrun'⟩ := absent_holder_run hpool
    hcustody hexclusive hbystander hpos hlocks hbacked
    (fun h hmatches => hmatches.keepsShares h) hkeeps hrun
  refine ⟨s', hcustody', hlocks', ?_⟩
  rcases BalanceStep.run_undiluted (SwapVersion.wellFormed_of_unpack hpool.2) htimeless hpos
    hrun' with rfl | ⟨hpos', hundiluted⟩
  · exact ⟨.refl s, fun _ _ _ => rfl⟩
  · exact ⟨hundiluted, fun hdepth => hundiluted.reserves_eq hdepth hpos'⟩

end Ledger

section Market

attribute [local instance] Solana.bank SplMath.reference Solana.Bank.promises Solana.Bank.effects

namespace Market

/-- The user of the market deposits both tokens for a thousandth of the pool tokens. -/
def depositAllData : DepositAllTokenTypes := ⟨1000000#64, 500000#64, 500000#64⟩

/-- Its accounts. -/
def depositAllAccounts : List AccountInfo :=
  [ ⟨World.swap, false⟩, ⟨World.authority, false⟩, ⟨user, true⟩, ⟨11#256, false⟩, ⟨12#256, false⟩,
    ⟨3#256, false⟩, ⟨4#256, false⟩, ⟨5#256, false⟩, ⟨9#256, false⟩, ⟨6#256, false⟩,
    ⟨7#256, false⟩, ⟨SPL_TOKEN_ID, false⟩, ⟨SPL_TOKEN_ID, false⟩, ⟨SPL_TOKEN_ID, false⟩ ]

/-- Its input. -/
def depositAllInput : Bytes := (SwapInstruction.depositAllTokenTypes depositAllData).pack

/-- The deposit. -/
def depositAllEvent : Event := .instruction World.later depositAllAccounts depositAllInput

theorem unpack_depositAllInput :
    SwapInstruction.unpack depositAllInput = .ok (.depositAllTokenTypes depositAllData) := rfl

end Market

/-- The initial supply of the market, and a deposit. -/
theorem absent_holder_is_undiluted_market :
    ∃ l₁ l₂ state s, Step none Market.ledger Market.initializeEvent l₁ ∧
      Step none l₁ Market.depositAllEvent l₂ ∧
      l₁.Custody state (poolAuthority World.swap) s ∧
      ∃ s', l₂.Custody state (poolAuthority World.swap) s' ∧
        l₂.Locks 9#256 state.poolMint (initDestinationOwner World.swap)
          INITIAL_SWAP_POOL_AMOUNT.toNat ∧
        state.swapCurve.calculator.Undiluted s s' ∧
        (0 < state.swapCurve.calculator.depth s.reserves → s.supply.toNat ≤ s'.supply.toNat →
          s'.reserves ≤ s.reserves → s'.reserves = s.reserves) := by
  have hrun : (do
      let l₁ ← processWithConstraints none Market.initializeAccounts Market.initializeInput
        World.clock Market.ledger
      processWithConstraints none Market.depositAllAccounts Market.depositAllInput World.later
        l₁).isOk := by
    decide +kernel
  obtain ⟨l₂, hrun⟩ := Outcome.isOk_iff.mp hrun
  obtain ⟨l₁, hinit, hdeposit⟩ := Outcome.bind_eq_ok.mp hrun
  obtain ⟨state, s, hopened, hlocks, hbacked⟩ := Market.locks hinit
  have hstep : BookedStep none state.mints
      [poolAuthority World.swap, initDestinationOwner World.swap] state.poolMint l₁
      Market.depositAllEvent l₂ := by
    refine ⟨⟨hdeposit, ?_, by rintro ⟨⟩⟩, by rintro ⟨⟩⟩
    have hall : ∀ info ∈ Market.depositAllAccounts, info.isSigner = true →
        info.key ∉ [poolAuthority World.swap, initDestinationOwner World.swap] := by
      decide +kernel
    rintro address haddress ⟨_, _, _, ⟨⟩, info, hinfo, rfl, hsigner⟩
    exact hall info hinfo hsigner haddress
  have htimeless : state.swapCurve.calculator.IsTimeless := by
    rw [hopened.swapCurve]
    exact trivial
  have hkeeps : ∀ event ∈ [Market.depositAllEvent], event.KeepsShares state.fees World.swap := by
    rw [List.forall_mem_singleton]
    rintro instruction ⟨-, clock, info, rest, ⟨input, hevent, hunpack⟩, -⟩
    obtain ⟨-, -, rfl⟩ := Event.instruction.inj hevent
    obtain rfl := Outcome.ok.inj (Market.unpack_depositAllInput.symm.trans hunpack)
    exact trivial
  exact ⟨l₁, l₂, state, s, hinit, hdeposit, hopened.custody,
    absent_holder_is_undiluted hopened.stored hopened.custody htimeless
      Market.exclusive_authority Market.bystander_locked (by decide) hlocks hbacked hkeeps
      (.single hstep)⟩

end Market

end SolanaPsm
