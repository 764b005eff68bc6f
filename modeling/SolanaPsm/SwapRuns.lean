import SolanaPsm.Limits

/-!
# Runs of swaps

On the curves that do not know the time, a swap never lowers the depth of the reserves: their
product, with the offset counted as token B, or their value at the constant price
(`Calculator.depth`). The depth is a potential, so no run of swaps, whoever sends them and in
whatever order and direction, takes tokens out of the reserves for free
(`swaps_take_nothing`).
-/

namespace SolanaPsm

open PoolEffect Linear Transition

/-! ## The depth of the reserves -/

namespace Calculator

/-- The curve does not know the time. -/
def IsTimeless : Calculator → Prop
  | redemptionRate _ => False
  | _ => True

/-- What a swap keeps; at a price of zero there are no swaps. -/
def depth : Calculator → Reserves → ℕ
  | constantProduct, r => r .a * r .b
  | offset curve, r => r .a * (r .b + curve.tokenBOffset.toNat)
  | constantPrice curve, r => curve.tokenBPrice.toNat * r.value curve.tokenBPrice.toNat
  | redemptionRate _, _ => 0

end Calculator

/-- Smaller factors have a smaller product. -/
theorem eq_of_mul_le_mul {a b a' b' : ℕ} (ha : a' ≤ a) (hb : b' ≤ b) (hpos : 0 < a * b)
    (hle : a * b ≤ a' * b') : a' = a ∧ b' = b := by
  have hapos : 0 < a := Nat.pos_of_mul_pos_right hpos
  have hbpos : 0 < b := Nat.pos_of_mul_pos_left hpos
  refine ⟨?_, ?_⟩
  · refine Nat.le_antisymm ha (Nat.le_of_mul_le_mul_right ?_ hbpos)
    exact hle.trans (Nat.mul_le_mul_left _ hb)
  · refine Nat.le_antisymm hb (Nat.le_of_mul_le_mul_left ?_ hapos)
    exact hle.trans (Nat.mul_le_mul_right _ ha)

theorem Reserves.ext_iff {r r' : Reserves} : r = r' ↔ r .a = r' .a ∧ r .b = r' .b := by
  refine ⟨fun h => h ▸ ⟨rfl, rfl⟩, ?_⟩
  rintro ⟨ha, hb⟩
  funext token
  cases token with
  | a => exact ha
  | b => exact hb

theorem Calculator.depth_potential (calculator : Calculator) : Potential calculator.depth := by
  refine ⟨?_, ?_⟩
  · intro r r' hle
    have ha : r .a ≤ r' .a := hle .a
    have hb : r .b ≤ r' .b := hle .b
    cases calculator with
    | constantProduct => exact Nat.mul_le_mul ha hb
    | offset curve => exact Nat.mul_le_mul ha (Nat.add_le_add_right hb _)
    | constantPrice curve =>
      refine Nat.mul_le_mul_left _ ?_
      exact Nat.add_le_add (Nat.mul_le_mul_right _ ha) (Nat.mul_le_mul_right _ hb)
    | redemptionRate curve => exact le_rfl
  · intro r r' hle hpos hkeeps
    have ha : r .a ≤ r' .a := hle .a
    have hb : r .b ≤ r' .b := hle .b
    rw [Reserves.ext_iff]
    cases calculator with
    | constantProduct => exact eq_of_mul_le_mul ha hb hpos hkeeps
    | offset curve =>
      obtain ⟨ha', hb'⟩ := eq_of_mul_le_mul ha (Nat.add_le_add_right hb _) hpos hkeeps
      exact ⟨ha', Nat.add_right_cancel hb'⟩
    | constantPrice curve =>
      have hprice : 0 < curve.tokenBPrice.toNat := Nat.pos_of_mul_pos_right hpos
      have hvalue : r'.value curve.tokenBPrice.toNat ≤ r.value curve.tokenBPrice.toNat :=
        Nat.le_of_mul_le_mul_left hkeeps hprice
      rw [Reserves.value, Reserves.value] at hvalue
      have hvalueA := Nat.mul_le_mul_right ray ha
      have hvalueB := Nat.mul_le_mul_right curve.tokenBPrice.toNat hb
      refine ⟨Nat.eq_of_mul_eq_mul_right ray_pos ?_, Nat.eq_of_mul_eq_mul_right hprice ?_⟩
      · omega
      · omega
    | redemptionRate curve => exact absurd hpos (lt_irrefl 0)

theorem Calculator.depth_constantProduct (dir : TradeDirection) (r : Reserves) :
    constantProduct.depth r = r dir.source * r dir.destination := by
  cases dir with
  | aToB => rfl
  | bToA => exact Nat.mul_comm _ _

theorem Calculator.depth_offset (curve : OffsetCurve) (dir : TradeDirection) (r : Reserves) :
    (offset curve).depth r =
      (curve.offsetReserves dir (r dir.source) (r dir.destination)).1 *
        (curve.offsetReserves dir (r dir.source) (r dir.destination)).2 := by
  cases dir with
  | aToB => rfl
  | bToA => exact Nat.mul_comm _ _

/-! ## One swap -/

/-- The product after a swap that charges at least the least. -/
theorem ConstantProduct.LeastCharge.product {s x y used bought x' y' : ℕ}
    (h : LeastCharge s x y used bought) (hx : x + used ≤ x') (hy : y' + bought = y) :
    0 < x * y ∧ x * y ≤ x' * y' := by
  refine ⟨(Nat.zero_le _).trans_lt h.least, h.keeps.trans ?_⟩
  exact Nat.mul_le_mul hx (by omega)

/-- What is bought from a reserve at a price is worth something, and no more than what is
paid. -/
theorem Linear.value_of_swap {p paid net : ℕ} {dir : TradeDirection} {r r' : Reserves}
    (hbought : 0 < boughtAmount p net dir) (hpaid : usedAmount p net dir ≤ paid)
    (hsource : r' dir.source = r dir.source + paid)
    (hdestination : r' dir.destination + boughtAmount p net dir = r dir.destination) :
    0 < p ∧ 0 < r.value p ∧ r.value p ≤ r'.value p := by
  have hp : 0 < p := by
    refine Nat.pos_of_ne_zero ?_
    rintro rfl
    cases dir with
    | aToB | bToA => simp [boughtAmount] at hbought
  have hunit : 0 < unitValue p dir.destination := by
    cases dir with
    | aToB => exact hp
    | bToA => exact ray_pos
  have hworth := (boughtAmount_value_le p net dir).trans (Nat.mul_le_mul_right _ hpaid)
  have hpos : 0 < r dir.destination * unitValue p dir.destination :=
    Nat.mul_pos (by omega) hunit
  rw [Reserves.value_eq p r dir, Reserves.value_eq p r' dir, hsource, ← hdestination]
  rw [← hdestination, Nat.add_mul] at hpos
  rw [Nat.add_mul, Nat.add_mul]
  exact ⟨hp, by omega, by omega⟩

section Swaps

variable [SplMath] {dir : TradeDirection} {ts : Option U128}

/-- The charge of the offset curve, with its offset among the reserves. -/
theorem OffsetCurve.leastCharge_of_swap {curve : OffsetCurve} {s x y : U128}
    {w : SwapWithoutFeesResult} (h : curve.swapWithoutFees s x y dir = some w) :
    ConstantProduct.LeastCharge s.toNat (curve.offsetReserves dir x.toNat y.toNat).1
      (curve.offsetReserves dir x.toNat y.toNat).2 w.sourceAmountSwapped.toNat
      w.destinationAmountSwapped.toNat := by
  cases dir with
  | aToB =>
    obtain ⟨y', hy', h⟩ := Option.bind_eq_some_iff.mp h
    rw [BitVec.checkedAdd_eq_some, U64.toNat_widen] at hy'
    have hleast := ConstantProduct.leastCharge_of_swap h
    rwa [hy'] at hleast
  | bToA =>
    obtain ⟨x', hx', h⟩ := Option.bind_eq_some_iff.mp h
    rw [BitVec.checkedAdd_eq_some, U64.toNat_widen] at hx'
    have hleast := ConstantProduct.leastCharge_of_swap h
    rwa [hx'] at hleast

/-- A swap starts from some depth and keeps it. -/
theorem Calculator.depth_of_swap {calculator : Calculator} (htimeless : calculator.IsTimeless)
    {net x y : U128} {w : SwapWithoutFeesResult} {paid : ℕ}
    (h : calculator.swapWithoutFees net x y dir ts = .ok w) {r r' : Reserves}
    (hx : x.toNat = r dir.source) (hy : y.toNat = r dir.destination)
    (hpaid : w.sourceAmountSwapped.toNat ≤ paid) (hsource : r' dir.source = r dir.source + paid)
    (hdestination : r' dir.destination + w.destinationAmountSwapped.toNat = r dir.destination) :
    0 < calculator.depth r ∧ calculator.depth r ≤ calculator.depth r' := by
  cases calculator with
  | constantProduct =>
    have hleast := ConstantProduct.leastCharge_of_swap (Calc.liftM_eq_ok.mp h)
    rw [hx, hy] at hleast
    rw [depth_constantProduct dir r, depth_constantProduct dir r']
    exact hleast.product (by omega) hdestination
  | offset curve =>
    have hleast := OffsetCurve.leastCharge_of_swap (Calc.liftM_eq_ok.mp h)
    rw [hx, hy] at hleast
    rw [depth_offset curve dir r, depth_offset curve dir r']
    refine hleast.product ?_ ?_
    · cases dir with
      | aToB =>
        simp only [OffsetCurve.offsetReserves]
        omega
      | bToA =>
        simp only [OffsetCurve.offsetReserves]
        omega
    · cases dir with
      | aToB =>
        simp only [OffsetCurve.offsetReserves]
        omega
      | bToA => exact hdestination
  | constantPrice curve =>
    obtain ⟨hused, hbought, -, -, hpos⟩ := swapWithoutFees_spec h
    rw [hused] at hpaid
    rw [hbought] at hdestination hpos
    obtain ⟨hp, hvalue, hle⟩ := value_of_swap hpos hpaid hsource hdestination
    rw [U128.toNat_widen] at hp hvalue hle
    exact ⟨Nat.mul_pos hp hvalue, Nat.mul_le_mul_left _ hle⟩
  | redemptionRate curve => exact htimeless.elim

/-- The reserves after a successful swap: fees are paid on top of what the curve charges. -/
theorem Amounts.swap_reserves {curve : SwapCurve} {fees : Fees} {s s' : Balances}
    {accounts : FeeAccounts} {instruction : Swap} {log : List PoolEffect}
    (h : (swap curve fees ts s accounts dir instruction).Returns log ())
    (hlog : Script.performAll PoolEffect.apply log s = .ok s') :
    ∃ (net : U128) (w : SwapWithoutFeesResult) (paid : ℕ),
      curve.calculator.swapWithoutFees net ((s.reserve dir.source).widen 128)
        ((s.reserve dir.destination).widen 128) dir ts = .ok w ∧
      w.sourceAmountSwapped.toNat ≤ paid ∧
      s'.reserves dir.source = s.reserves dir.source + paid ∧
      s'.reserves dir.destination + w.destinationAmountSwapped.toNat =
        s.reserves dir.destination := by
  simp only [swap, returns_compute_bind, Script.returns_lift_bind, Script.returns_emit_bind,
    returns_reject_bind, toU64_eq_ok] at h
  obtain ⟨r, hr, x, hx, log₁, ⟨log₂, ⟨y, hy, -, log₃, htail, rfl⟩, rfl⟩, rfl⟩ := h
  obtain ⟨_, log₄, log₅, hmints, hout, rfl⟩ := Script.returns_bind.mp htail
  obtain rfl := Script.returns_emit.mp hout
  obtain ⟨net, w, base, hw, hcharged, hdst, -, -, -⟩ := SwapCurve.swap_eq_ok hr
  have hpaid := hcharged.source
  have hlog₄ := mintsOnly_of_emits (emits_mintSwapOwnerFee dir r) hmints
  obtain ⟨hreserves, -⟩ := performAll_apply hlog
  have hsrc := hreserves dir.source
  have hdest := hreserves dir.destination
  simp only [total_cons, total_append, total_nil, received, paid, hlog₄.received_eq,
    hlog₄.paid_eq, if_neg dir.destination_ne_source, if_neg dir.destination_ne_source.symm,
    if_true, Nat.zero_add, Nat.add_zero] at hsrc hdest
  rw [hdst] at hy
  exact ⟨net, w, x.toNat, hw, by omega, hsrc, hy ▸ hdest⟩

end Swaps

/-! ## Runs -/

/-- A trade is a swap. -/
def BalanceEvent.IsSwap : BalanceEvent → Prop
  | .trade t => ∃ dir data, t.instruction = .swap dir data
  | .others => True

/-- The event can trade the pool only by a swap. -/
def Event.OnlySwaps (event : Event) (swap : Pubkey) : Prop :=
  ∀ instruction, event.Trades swap instruction → ∃ data, instruction = .swap data

theorem Event.Matches.isSwap {event : Event} {swap : Pubkey} {e : BalanceEvent}
    (h : event.Matches swap e) (honly : event.OnlySwaps swap) : e.IsSwap := by
  cases e with
  | others => exact trivial
  | trade trade =>
    obtain ⟨data, hrequest⟩ := honly _ h
    cases hinstruction : trade.instruction with
    | swap dir data => exact ⟨dir, data, hinstruction⟩
    | depositAllTokenTypes | withdrawAllTokenTypes | depositSingleTokenTypeExactAmountIn
    | withdrawSingleTokenTypeExactAmountOut =>
      rw [hinstruction] at hrequest
      cases hrequest

theorem SwapCurve.Reprices.eq_of_timeless {curve curve' : SwapCurve} (h : curve.Reprices curve')
    (htimeless : curve.calculator.IsTimeless) : curve' = curve := by
  rcases h with rfl | ⟨c, c', rfl, -, -⟩
  · rfl
  · exact htimeless.elim

/-- A swap keeps the depth, and others only add. -/
theorem BalanceStep.keeps [SplMath] {curve : SwapCurve} {fees : Fees} {s s' : Balances}
    {e : BalanceEvent} (htimeless : curve.calculator.IsTimeless)
    (h : BalanceStep curve fees s e s') (hswap : e.IsSwap) :
    Keeps curve.calculator.depth s.reserves s'.reserves := by
  cases e with
  | others => exact .inl h.1
  | trade trade =>
    obtain ⟨dir, data, hinstruction⟩ := hswap
    obtain ⟨hcurve, -, hrun⟩ := h
    obtain ⟨log, ⟨⟩, hscript, hlog⟩ := Script.run_eq_ok.mp hrun
    rw [Trade.amounts, hinstruction, hcurve.eq_of_timeless htimeless] at hscript
    obtain ⟨net, w, paid, hw, hpaid, hsource, hdestination⟩ := Amounts.swap_reserves hscript hlog
    exact .inr (Calculator.depth_of_swap htimeless hw (U64.toNat_widen _) (U64.toNat_widen _)
      hpaid hsource hdestination)

section Ledger

variable [Solana] [SplMath] [TokenProgram] {swapConstraints : Option SwapConstraints}
  {l l' : Ledger} {swap authority : Pubkey} {state : SwapV1} {s : Balances} {events : List Event}

/-- No run of swaps takes tokens for free. Take a pool in custody on a curve that does not know
the time, and any run in which nobody but the pool signs for its authority, the mints of the pool
are neither closed nor replaced, and the pool is traded by swaps only. Then the depth of the
reserves has not fallen; and unless nothing has changed, some reserve holds more than before. -/
theorem swaps_take_nothing (hpool : l.StoresPool swap state)
    (hcustody : l.Custody state authority s)
    (htimeless : state.swapCurve.calculator.IsTimeless)
    (hexclusive : Exclusive swap authority)
    (hrun : Run (TokenStep swapConstraints state.mints [authority]) l events l')
    (hswaps : ∀ event ∈ events, event.OnlySwaps swap) :
    ∃ s', l'.Custody state authority s' ∧
      state.swapCurve.calculator.depth s.reserves ≤
        state.swapCurve.calculator.depth s'.reserves ∧
      (s'.reserves ≤ s.reserves → s'.reserves = s.reserves) := by
  have hstart : Refines l swap state authority l s := ⟨.inl (.refl l _), hcustody⟩
  obtain ⟨balanceEvents, s', -, hrun', hrefines⟩ := hrun.simulate
    (R := Refines l swap state authority) (M := Event.Matches swap)
    (T := fun s e s' => BalanceStep state.swapCurve state.fees s e s' ∧ e.IsSwap)
    (fun {l₁ event l₂ s₁} (hevent : event.OnlySwaps swap) hrefines hstep => by
      obtain ⟨e, s₂, hmatches, hbalance, hrefines'⟩ :=
        hrefines.step hpool hexclusive subset_rfl (List.mem_singleton_self _) hstep
      exact ⟨e, s₂, hmatches, ⟨hbalance, hmatches.isSwap hevent⟩, hrefines'⟩)
    hswaps hstart
  have hkeeps := hrun'.keeps (r := Balances.reserves)
    state.swapCurve.calculator.depth_potential
    fun {_ _ _} hstep => hstep.1.keeps htimeless hstep.2
  exact ⟨s', hrefines.custody, hkeeps⟩

end Ledger

section Market

attribute [local instance] Solana.bank SplMath.reference Solana.Bank.promises

/-- The swap of the market. -/
theorem swaps_take_nothing_market :
    ∃ l₁ l₂ state s s', Step none Market.ledger Market.initializeEvent l₁ ∧
      Step none l₁ Market.swapEvent l₂ ∧ PoolOpened l₁ World.swap Market.initializeData state s ∧
      l₂.Custody state (poolAuthority World.swap) s' ∧
      state.swapCurve.calculator.depth s.reserves ≤
        state.swapCurve.calculator.depth s'.reserves ∧
      (s'.reserves ≤ s.reserves → s'.reserves = s.reserves) := by
  obtain ⟨l₁, l₂, hinit, hswap⟩ := Market.steps
  obtain ⟨state, s, hopened⟩ := Market.opened hinit
  have hswaps : ∀ event ∈ [Market.swapEvent], event.OnlySwaps World.swap := by
    intro event hevent
    obtain rfl := List.mem_singleton.mp hevent
    rintro instruction ⟨-, clock, info, rest, ⟨input, hcarries, hunpack⟩, -⟩
    obtain ⟨-, -, rfl⟩ := Event.instruction.inj hcarries
    exact ⟨Market.swapData, (Outcome.ok.inj (Market.unpack_swapInput.symm.trans hunpack)).symm⟩
  have htimeless : state.swapCurve.calculator.IsTimeless := by
    rw [hopened.swapCurve]
    exact trivial
  obtain ⟨s', h⟩ := swaps_take_nothing hopened.stored hopened.custody htimeless
    Market.exclusive_authority (.single (Market.tokenStep (by decide +kernel) hswap)) hswaps
  exact ⟨l₁, l₂, state, s, s', hinit, hswap, hopened, h⟩

end Market

end SolanaPsm
