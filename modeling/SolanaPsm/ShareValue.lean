import SolanaPsm.Fund
import SolanaPsm.Movement
import SolanaPsm.Transition

/-!
# The value of a pool token

The pool as a fund: its value is `Reserves.value` at the price of the moment, its
shares are the pool tokens, and a coarse unit is one token A. Every trade makes a
holding that is not burned lose at most two units (`Trade.loses`), with one exception.

An exact-out withdrawal of token B burns pool tokens for the *truncated* value of what
leaves. The fraction of a unit it forgets is taken from the pool tokens it leaves over.
The owner fee is then minted against these few, and dilutes a holding that counts on the
new pool tokens as well. `RoundsSafely` excludes this, and nothing else.
-/

namespace SolanaPsm

open Linear Fund

/-! ## One trade -/

section Movements

variable {p h : ℕ} {dir : TradeDirection} {s s' : Balances}

/-- Taking the owner fee off the reserves takes off its value. -/
theorem Reserves.value_without {r : Reserves} {fee : ℕ} (hfee : fee ≤ r dir.source) :
    (r.without dir.source fee).value p + fee * unitValue p dir.source = r.value p := by
  rw [Reserves.value_eq p r dir, Reserves.value_eq p _ dir, Reserves.without_self,
    Reserves.without_of_ne dir.destination_ne_source, Nat.add_right_comm, ← Nat.add_mul,
    Nat.sub_add_cancel hfee]

/-- The pool tokens for an owner fee are issued for the fee. -/
theorem FeeMint.loses {fee S minted : ℕ} {r : Reserves} (hmint : FeeMint p dir fee S r minted)
    (hh : h ≤ S) :
    LosesAtMost ray h ((r.without dir.source fee).value p) S (r.value p) (S + minted) := by
  rw [← Reserves.value_without (p := p) hmint.fee_le]
  refine LosesAtMost.issue ?_ (Reserves.value_lt p _).le hh
  calc minted * (r.without dir.source fee).truncated p * ray
      ≤ S * givenValue p fee dir * ray := Nat.mul_le_mul_right _ hmint.le
    _ = S * (givenValue p fee dir * ray) := Nat.mul_assoc _ _ _
    _ ≤ S * (fee * unitValue p dir.source) :=
        Nat.mul_le_mul_left _ (givenValue_mul_le p fee dir)

/-- The change of the value, side by side. -/
theorem value_eq_of_sides {r r' : Reserves} {x : ℕ} (hsource : r' dir.source = r dir.source + x)
    (hdestination : r' dir.destination = r dir.destination) :
    r'.value p = r.value p + x * unitValue p dir.source := by
  rw [Reserves.value_eq p r dir, Reserves.value_eq p r' dir, hsource, hdestination, Nat.add_mul]
  omega

/-- A swap: the reserves without the owner fee are worth no less than before. -/
theorem Swapped.loses {paid got fee minted : ℕ} (hm : Swapped p dir s s' paid got fee minted)
    (hS : 0 < s.supply.toNat) (hh : h ≤ s.supply.toNat) :
    LosesAtMost ray h (s.reserves.value p) s.supply.toNat (s'.reserves.value p)
      s'.supply.toNat := by
  have hvalue : s.reserves.value p ≤ (s'.reserves.without dir.source fee).value p := by
    have hrest : s.reserves dir.source + (paid - fee) = s'.reserves dir.source - fee := by
      have := hm.source
      have := hm.fee_le
      omega
    rw [Reserves.value_eq p _ dir, Reserves.value_eq p (s'.reserves.without _ _) dir,
      Reserves.without_self, Reserves.without_of_ne dir.destination_ne_source, ← hrest,
      ← hm.destination, Nat.add_mul, Nat.add_mul]
    have := hm.worth
    omega
  rw [hm.supply, ← Nat.zero_add ray]
  exact (LosesAtMost.of_value_le hvalue).trans hS (hm.mint.loses hh)

/-- A two-sided deposit: both shares are rounded up. -/
theorem DepositedAll.loses {t : ℕ} {x : Reserves} (hm : DepositedAll s s' t x) :
    LosesAtMost 0 h (s.reserves.value p) s.supply.toNat (s'.reserves.value p)
      s'.supply.toNat := by
  refine LosesAtMost.of_ratio_le ?_
  have hshare : t * s.reserves.value p ≤ x.value p * s.supply.toNat := by
    calc t * s.reserves.value p
        = t * s.reserves .a * ray + t * s.reserves .b * p := by rw [Reserves.value]; ring
      _ ≤ x .a * s.supply.toNat * ray + x .b * s.supply.toNat * p :=
          Nat.add_le_add (Nat.mul_le_mul_right _ (hm.share .a))
            (Nat.mul_le_mul_right _ (hm.share .b))
      _ = x.value p * s.supply.toNat := by rw [Reserves.value]; ring
  have hvalue : s'.reserves.value p = s.reserves.value p + x.value p := by
    simp only [Reserves.value]
    rw [hm.reserves, hm.reserves]
    ring
  rw [hm.supply, hvalue, Nat.mul_add, Nat.add_mul, Nat.mul_comm _ t]
  exact Nat.add_le_add_left hshare _

/-- A two-sided withdrawal: both shares are rounded down. -/
theorem WithdrewAll.loses {t : ℕ} {x : Reserves} (hm : WithdrewAll s s' t x) :
    LosesAtMost 0 h (s.reserves.value p) s.supply.toNat (s'.reserves.value p)
      s'.supply.toNat := by
  refine LosesAtMost.of_ratio_le ?_
  have hshare : x.value p * s.supply.toNat ≤ t * s.reserves.value p := by
    calc x.value p * s.supply.toNat
        = x .a * s.supply.toNat * ray + x .b * s.supply.toNat * p := by
          rw [Reserves.value]; ring
      _ ≤ t * s.reserves .a * ray + t * s.reserves .b * p :=
          Nat.add_le_add (Nat.mul_le_mul_right _ (hm.share .a))
            (Nat.mul_le_mul_right _ (hm.share .b))
      _ = t * s.reserves.value p := by rw [Reserves.value]; ring
  have hvalue : s.reserves.value p = s'.reserves.value p + x.value p := by
    simp only [Reserves.value]
    rw [← hm.reserves, ← hm.reserves]
    ring
  have hsplit : s.reserves.value p * s.supply.toNat =
      s'.reserves.value p * s.supply.toNat + x.value p * s.supply.toNat := by
    rw [hvalue, Nat.add_mul]
  have hburned : s.reserves.value p * s.supply.toNat =
      s.reserves.value p * s'.supply.toNat + t * s.reserves.value p := by
    rw [← hm.supply, Nat.mul_add, Nat.mul_comm _ t]
  omega

/-- A single-sided deposit: pool tokens for the depositor, then for the owner. -/
theorem DepositedSingle.loses {x net fee m minted : ℕ}
    (hm : DepositedSingle p dir s s' x net fee m minted) (hS : 0 < s.supply.toNat)
    (hh : h ≤ s.supply.toNat) :
    LosesAtMost (2 * ray) h (s.reserves.value p) s.supply.toNat (s'.reserves.value p)
      s'.supply.toNat := by
  have hissue : LosesAtMost ray h (s.reserves.value p) s.supply.toNat
      (s.reserves.value p + net * unitValue p dir.source) (s.supply.toNat + m) := by
    refine LosesAtMost.issue ?_ (Reserves.value_lt p _).le hh
    calc m * s.reserves.truncated p * ray
        ≤ s.supply.toNat * givenValue p net dir * ray := Nat.mul_le_mul_right _ hm.share
      _ = s.supply.toNat * (givenValue p net dir * ray) := Nat.mul_assoc _ _ _
      _ ≤ s.supply.toNat * (net * unitValue p dir.source) :=
          Nat.mul_le_mul_left _ (givenValue_mul_le p net dir)
  have hvalue : s.reserves.value p + net * unitValue p dir.source ≤
      (s'.reserves.without dir.source fee).value p := by
    have htotal := value_eq_of_sides (p := p) hm.source hm.destination
    have hfee := Reserves.value_without (p := p) hm.mint.fee_le
    have hcovers := Nat.mul_le_mul_right (unitValue p dir.source) hm.covers
    rw [Nat.add_mul] at hcovers
    omega
  have hmint := hm.mint.loses (h := h) (by omega)
  rw [hm.supply, Nat.two_mul]
  exact (hissue.trans (by omega) (LosesAtMost.of_value_le hvalue)).trans (by omega) hmint

/-! ### Exact-out withdrawals -/

namespace WithdrewSingle

variable {x adjusted fee burn minted : ℕ}

/-- The value before, from the reserves left without the owner fee. -/
theorem value_eq (hm : WithdrewSingle p dir s s' x adjusted fee burn minted) :
    s.reserves.value p =
      (s'.reserves.without dir.source fee).value p + (x + fee) * unitValue p dir.source := by
  rw [value_eq_of_sides (p := p) hm.source.symm hm.destination.symm,
    ← Reserves.value_without (p := p) hm.mint.fee_le, Nat.add_mul]
  omega

/-- The charge is worth at least what leaves. -/
theorem worth_le (hm : WithdrewSingle p dir s s' x adjusted fee burn minted) :
    (x + fee) * unitValue p dir.source ≤ adjusted * unitValue p dir.source :=
  Nat.mul_le_mul_right _ hm.covers

/-- The reserves left, seen from those before. -/
theorem without_eq (hm : WithdrewSingle p dir s s' x adjusted fee burn minted) :
    s'.reserves.without dir.source fee = s.reserves.without dir.source (x + fee) := by
  funext token
  have hsource := hm.source
  have hdestination := hm.destination
  by_cases htoken : token = dir.source
  · subst htoken
    rw [Reserves.without_self, Reserves.without_self]
    omega
  · rw [Reserves.without_of_ne htoken, Reserves.without_of_ne htoken, dir.eq_destination htoken]
    exact hdestination

/-- When the charge is a whole number of units, the truncated value falls by no more. -/
theorem truncated_le_of_whole (hm : WithdrewSingle p dir s s' x adjusted fee burn minted)
    (hwhole : adjusted * unitValue p dir.source = givenValue p adjusted dir * ray) :
    s.reserves.truncated p ≤
      (s.reserves.without dir.source (x + fee)).truncated p + givenValue p adjusted dir := by
  have hvalue := hm.value_eq
  have hworth := hm.worth_le
  rw [← hm.without_eq]
  have hT := s.reserves.truncated_mul_le p
  have hT₁ := (s'.reserves.without dir.source fee).value_lt p
  refine Nat.le_of_lt_succ (Nat.lt_of_mul_lt_mul_right (a := ray) ?_)
  rw [Nat.succ_mul, Nat.add_mul]
  rw [Nat.add_mul, Nat.one_mul] at hT₁
  omega

/-- When the truncated value falls by no more than the charge, even a holding that counts
on the new pool tokens is safe. -/
theorem loses_of_truncated_le (hm : WithdrewSingle p dir s s' x adjusted fee burn minted)
    (hbefore : s.reserves.truncated p ≤
      (s.reserves.without dir.source (x + fee)).truncated p + givenValue p adjusted dir)
    (hh : h ≤ s.supply.toNat) :
    LosesAtMost ray h (s.reserves.value p) s.supply.toNat (s'.reserves.value p)
      s'.supply.toNat := by
  rw [← hm.without_eq] at hbefore
  have hafter : (s'.reserves.without dir.source fee).truncated p + givenValue p fee dir ≤
      s'.reserves.truncated p := by
    have hfee := Reserves.value_without (p := p) hm.mint.fee_le
    have hgiven := givenValue_mul_le p fee dir
    have hT₁ := (s'.reserves.without dir.source fee).truncated_mul_le p
    have hT' := s'.reserves.value_lt p
    refine Nat.le_of_lt_succ (Nat.lt_of_mul_lt_mul_right (a := ray) ?_)
    rw [Nat.add_mul]
    rw [Nat.add_mul, Nat.one_mul] at hT'
    rw [Nat.succ_mul]
    omega
  have hpos : 0 < (s'.reserves.without dir.source fee).truncated p ∨ minted = 0 :=
    (Nat.eq_zero_or_pos fee).elim (fun h0 => Or.inr (hm.mint.none h0))
      fun hpos => Or.inl (hm.mint.pos hpos)
  have hratio := redeem_issue hm.share hm.burn_le hbefore hm.mint.le hpos hafter
  have hsupply : s'.supply.toNat = s.supply.toNat - burn + minted := by
    have := hm.supply
    have := hm.burn_le
    omega
  rw [hsupply]
  exact LosesAtMost.of_truncated hratio (Reserves.value_lt p _).le (Reserves.truncated_mul_le p _)
    hh

/-- A holding among the pool tokens left over by the burn. -/
theorem redeem_loses (hm : WithdrewSingle p dir s s' x adjusted fee burn minted)
    (hh : h ≤ s.supply.toNat - burn) :
    LosesAtMost ray h (s.reserves.value p) s.supply.toNat
      ((s'.reserves.without dir.source fee).value p) (s.supply.toNat - burn) := by
  have hvalue := hm.value_eq
  rw [show (s'.reserves.without dir.source fee).value p =
    s.reserves.value p - (x + fee) * unitValue p dir.source by omega]
  exact LosesAtMost.redeem hm.share (s.reserves.truncated_mul_le p)
    (hm.worth_le.trans (le_givenValue_succ_mul p adjusted dir)) (by omega) hm.burn_le hh

/-- Without an owner fee the holding is among what the burn leaves over. -/
theorem loses_of_no_fee (hm : WithdrewSingle p dir s s' x adjusted fee burn minted)
    (hzero : fee = 0) (hh : h ≤ s'.supply.toNat) :
    LosesAtMost ray h (s.reserves.value p) s.supply.toNat (s'.reserves.value p)
      s'.supply.toNat := by
  subst hzero
  have hminted := hm.mint.none rfl
  have hsupply : s'.supply.toNat = s.supply.toNat - burn := by
    have := hm.supply
    omega
  have hfee := Reserves.value_without (p := p) hm.mint.fee_le
  rw [Nat.zero_mul, Nat.add_zero] at hfee
  have hredeem := hm.redeem_loses (h := h) (hsupply ▸ hh)
  rwa [hfee, ← hsupply] at hredeem

/-- A holding of at most the share of the value the charge leaves. -/
theorem loses_of_share_le (hm : WithdrewSingle p dir s s' x adjusted fee burn minted)
    (hh : h * s.reserves.truncated p + s.supply.toNat * givenValue p adjusted dir ≤
      s.supply.toNat * s.reserves.truncated p) :
    LosesAtMost (2 * ray) h (s.reserves.value p) s.supply.toNat (s'.reserves.value p)
      s'.supply.toNat := by
  have hleft : h ≤ s.supply.toNat - burn := by
    have hlt := hm.share_lt
    have hburn := hm.burn_le
    have hsum : (h + burn) * s.reserves.truncated p <
        (s.supply.toNat + 1) * s.reserves.truncated p := by
      rw [Nat.add_mul, Nat.succ_mul]
      omega
    have := Nat.lt_of_mul_lt_mul_right hsum
    omega
  rcases Nat.eq_zero_or_pos h with rfl | hpos
  · exact LosesAtMost.zero_holding
  have hsupply : s'.supply.toNat = s.supply.toNat - burn + minted := by
    have := hm.supply
    have := hm.burn_le
    omega
  rw [hsupply, Nat.two_mul]
  exact (hm.redeem_loses hleft).trans (by omega) (hm.mint.loses hleft)

end WithdrewSingle

end Movements

/-! ## Runs of trades -/

/-- The balances of a pool and the price it last traded at. -/
structure Priced : Type where
  /-- reserves and supply -/
  balances : Balances
  /-- price of token B, scaled by `RAY` -/
  price : ℕ
  deriving DecidableEq, Repr

namespace Priced

/-- The value of the reserves at the last price. -/
def value (s : Priced) : ℕ := s.balances.reserves.value s.price

/-- The supply as a number. -/
def supply (s : Priced) : ℕ := s.balances.supply.toNat

end Priced

namespace Trade

section Runs

variable [SplMath]

/-- A successful trade on a linear curve at a price no lower than the last one, while a
holding of `h` pool tokens is in circulation. -/
structure Step (fees : Fees) (h : ℕ) (s : Priced) (trade : Trade) (s' : Priced) : Prop where
  /-- the curve is linear -/
  linear : trade.curve.calculator.IsLinear
  /-- the price of the trade -/
  price : ∃ p, trade.curve.calculator.tokenBPrice trade.timestamp = .ok p ∧ s'.price = p.toNat
  /-- the price does not fall -/
  price_le : s.price ≤ s'.price
  /-- the amounts are computed and moved -/
  performed : (trade.amounts fees s.balances).run PoolEffect.apply s.balances = .ok s'.balances
  /-- the holding exists before -/
  held : h ≤ s.supply
  /-- and after -/
  held' : h ≤ s'.supply

/-- Nothing is lost to the truncation of a withdrawal: the truncated value falls by no
more than what is charged, or there is no owner fee to mint pool tokens for, or the
holding is at most the share of the value that the charge leaves. -/
def RoundsSafely (fees : Fees) (h p : ℕ) (s : Balances) : TradeInstruction → Prop
  | .withdrawSingleTokenTypeExactAmountOut .bToA _ instruction =>
    let x := instruction.destinationTokenAmount.toNat
    let charge := givenValue p (fees.adjustedAmount x) .bToA
    s.reserves.truncated p ≤
        (s.reserves.without .b (x + fees.adjustedOwnerFee x)).truncated p + charge ∨
      fees.adjustedOwnerFee x = 0 ∨
      h * s.reserves.truncated p + s.supply.toNat * charge ≤
        s.supply.toNat * s.reserves.truncated p
  | _ => True

variable {fees : Fees} {h : ℕ} {s s' : Priced} {trade : Trade}

/-- One trade: a holding loses at most two units. -/
theorem Step.loses (hfees : fees.Valid) (hstep : Step fees h s trade s')
    (hsafe : RoundsSafely fees h s'.price s.balances trade.instruction) :
    LosesAtMost (2 * ray) h s.value s.supply s'.value s'.supply := by
  rcases Nat.eq_zero_or_pos h with rfl | hpos
  · exact LosesAtMost.zero_holding
  have hS : 0 < s.supply := hpos.trans_le hstep.held
  have hheld := hstep.held
  have hheld' := hstep.held'
  -- the price rises first, then the trade is made at the new price
  have hprice : s.value ≤ s.balances.reserves.value s'.price :=
    Nat.add_le_add_left (Nat.mul_le_mul_left _ hstep.price_le) _
  suffices htrade : LosesAtMost (2 * ray) h (s.balances.reserves.value s'.price) s.supply
      s'.value s'.supply by
    have hboth := (LosesAtMost.of_value_le hprice).trans hS htrade
    rwa [Nat.zero_add] at hboth
  obtain ⟨p, hp, hs'⟩ := hstep.price
  obtain ⟨log, ⟨⟩, hscript, hlog⟩ := Script.run_eq_ok.mp hstep.performed
  have hlin := hstep.linear
  rw [hs'] at hsafe
  rw [Priced.value, hs']
  cases hinstr : trade.instruction with
  | swap dir instruction =>
    rw [Trade.amounts, hinstr] at hscript
    obtain ⟨q, hq, paid, got, fee, minted, hm⟩ := Amounts.swap_moves hlin hscript hlog
    obtain rfl := Outcome.ok.inj (hq.symm.trans hp)
    exact (hm.loses hS hheld).mono (by omega)
  | depositAllTokenTypes destination instruction =>
    rw [Trade.amounts, hinstr] at hscript
    obtain ⟨x, hm⟩ := Amounts.depositAllTokenTypes_moves hlin hscript hlog
    exact hm.loses.mono (Nat.zero_le _)
  | withdrawAllTokenTypes source instruction =>
    rw [Trade.amounts, hinstr] at hscript
    obtain ⟨t, x, hm⟩ := Amounts.withdrawAllTokenTypes_moves hlin hscript hlog
    exact hm.loses.mono (Nat.zero_le _)
  | depositSingleTokenTypeExactAmountIn dir destination instruction =>
    rw [Trade.amounts, hinstr] at hscript
    obtain ⟨q, hq, net, fee, m, minted, hm⟩ :=
      Amounts.depositSingleTokenTypeExactAmountIn_moves hlin hscript hlog
    obtain rfl := Outcome.ok.inj (hq.symm.trans hp)
    exact hm.loses hS hheld
  | withdrawSingleTokenTypeExactAmountOut dir source instruction =>
    rw [hinstr] at hsafe
    rw [Trade.amounts, hinstr] at hscript
    obtain ⟨q, hq, burn, minted, hm⟩ :=
      Amounts.withdrawSingleTokenTypeExactAmountOut_moves hlin hfees hscript hlog
    obtain rfl := Outcome.ok.inj (hq.symm.trans hp)
    cases dir with
    | aToB =>
      exact (hm.loses_of_truncated_le (hm.truncated_le_of_whole rfl) hheld).mono (by omega)
    | bToA =>
      rcases hsafe with htruncated | hzero | hshare
      · exact (hm.loses_of_truncated_le htruncated hheld).mono (by omega)
      · exact (hm.loses_of_no_fee hzero hheld').mono (by omega)
      · exact hm.loses_of_share_le hshare

/-- A run of trades that all round safely. -/
abbrev SafeRun (fees : Fees) (h : ℕ) : Priced → List Trade → Priced → Prop :=
  Transition.Run fun s trade s' =>
    Step fees h s trade s' ∧ RoundsSafely fees h s'.price s.balances trade.instruction

/-- Along a run a holding loses at most two units for each trade. -/
theorem SafeRun.loses (hfees : fees.Valid) {trades : List Trade}
    (hrun : SafeRun fees h s trades s') :
    LosesAtMost (2 * trades.length * ray) h s.value s.supply s'.value s'.supply := by
  induction hrun with
  | nil s =>
    rw [List.length_nil, Nat.mul_zero, Nat.zero_mul]
    exact LosesAtMost.of_value_le le_rfl
  | @cons s u t trade trades hstep hrest ih =>
    rcases Nat.eq_zero_or_pos h with rfl | hpos
    · exact LosesAtMost.zero_holding
    have hboth := (hstep.1.loses hfees hstep.2).trans (hpos.trans_le hstep.1.held') ih
    rwa [show 2 * ray + 2 * trades.length * ray = 2 * (trade :: trades).length * ray by
      rw [List.length_cons]; ring] at hboth

/-- Liquidity providers cannot be drained: along a run of trades at prices that never
fall, a holding in circulation loses less than two units of token A for each trade, as
long as every exact-out withdrawal of token B rounds safely. -/
theorem SafeRun.value_bound (hfees : fees.validate = .ok ()) {trades : List Trade}
    (hrun : SafeRun fees h s trades s') {price : ℕ} (hprice : s'.price ≤ price) :
    h * s.value * s'.supply ≤ h * s'.balances.reserves.value price * s.supply +
      2 * trades.length * ray * s.supply * s'.supply := by
  have hloses := hrun.loses (Fees.validate_eq_ok.mp hfees)
  have hvalue : s'.value ≤ s'.balances.reserves.value price :=
    Nat.add_le_add_left (Nat.mul_le_mul_left _ hprice) _
  exact Nat.le_trans hloses (Nat.add_le_add_right
    (Nat.mul_le_mul_right _ (Nat.mul_le_mul_left h hvalue)) _)

end Runs

/-! ### A withdrawal that forgets half a unit

At a price of one and a half, and an owner fee of one half, 4002 of 6004 tokens B are
withdrawn. The charge of 6003 tokens B is worth 9004 units and a half; 9004 of the 9006
billion pool tokens are burned for it. What is left is worth a unit and a half, counts as
one, and two billion pool tokens share it. At one billion a unit, 6002 billion more are
minted for the owner fee of 3001 units, which the fee account had among the rest. -/

/-- The withdrawal of the example. -/
def exampleTrade : Trade where
  curve := ⟨.constantPrice, .constantPrice ⟨1500000000000000000000000000#128⟩⟩
  timestamp := none
  accounts := { poolFee := 0#256, poolFeeOk := true, host := none }
  instruction := .withdrawSingleTokenTypeExactAmountOut .bToA 0#256 ⟨4002#64, 9004000000000#64⟩

/-- The step of the example, for any holding that stays in circulation. -/
theorem example_step {h : ℕ} (hh : h ≤ 6004000000000) :
    @Step SplMath.reference ⟨0#64, 0#64, 1#64, 2#64, 0#64, 0#64, 0#64, 0#64⟩ h
      ⟨⟨0#64, 6004#64, 9006000000000#64⟩, 1500000000000000000000000000⟩ exampleTrade
      ⟨⟨0#64, 2002#64, 6004000000000#64⟩, 1500000000000000000000000000⟩ :=
  @Step.mk SplMath.reference _ _ _ _ _ trivial ⟨_, rfl, rfl⟩ le_rfl (by decide +kernel)
    (hh.trans (by decide)) hh

/-- Two billion pool tokens, all that are left of the old ones, are worth as much as the
bound says. -/
theorem SafeRun.value_bound_example :
    2000000000 * (6004 * 1500000000000000000000000000) * 6004000000000 ≤
      2000000000 * (2002 * 1500000000000000000000000000) * 9006000000000 +
        2 * 1 * ray * 9006000000000 * 6004000000000 :=
  @SafeRun.value_bound SplMath.reference ⟨0#64, 0#64, 1#64, 2#64, 0#64, 0#64, 0#64, 0#64⟩
    2000000000 ⟨⟨0#64, 6004#64, 9006000000000#64⟩, 1500000000000000000000000000⟩
    ⟨⟨0#64, 2002#64, 6004000000000#64⟩, 1500000000000000000000000000⟩ (by decide) [exampleTrade]
    (Transition.Run.single ⟨example_step (by decide), Or.inr (Or.inr (by decide))⟩)
    1500000000000000000000000000 le_rfl

/-- A holding of 6003 billion pool tokens, which the fee account never falls below, loses
half its value. -/
theorem holding_may_lose :
    ¬ ∀ [SplMath] (fees : Fees) (h : ℕ) (s s' : Priced) (trades : List Trade),
      fees.validate = .ok () → Transition.Run (Step fees h) s trades s' →
      h * s.value * s'.supply ≤
        h * s'.value * s.supply + 2 * trades.length * ray * s.supply * s'.supply := by
  intro hall
  have hbound := @hall SplMath.reference _ 6003000000000 _ _ [exampleTrade] (by decide)
    (Transition.Run.single (example_step (by decide)))
  exact absurd hbound (by decide)

end Trade

end SolanaPsm
