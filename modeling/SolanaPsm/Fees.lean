import SolanaPsm.Bytes
import SolanaPsm.Error
import SolanaPsm.Checked
import Mathlib.Algebra.Order.Floor.Div
import Mathlib.Tactic.Linarith

/-!
# Fees

The fee fractions of a pool (`fees.rs`): the fee of an amount, the inverse of a
fee, the validation of the fractions and their 64-byte layout.

The checked 128-bit routines are specified by two functions on the natural numbers:
`feeOf`, a truncated share with a minimum of one token, and `grossUp`, the least
amount whose share left after the fee covers a given amount. `add_feeOf_grossUp_le`
is the law between them: grossing up leaves room for the fee, the minimum fee
included.
-/

namespace SolanaPsm

/-! ## One fraction -/

/-- Helper function for calculating swap fee. -/
def calculateFee (tokenAmount feeNumerator feeDenominator : U128) : Option U128 :=
  if feeNumerator = 0#128 ∨ tokenAmount = 0#128 then some 0#128
  else do
    let product ← tokenAmount.checkedMul feeNumerator
    let fee ← product.checkedDiv feeDenominator
    -- minimum fee of one token
    if fee = 0#128 then some 1#128 else some fee

/-- Division rounded up; the sum before the division is checked. -/
def ceilDiv (dividend divisor : U128) : Option U128 := do
  let sum ← dividend.checkedAdd divisor
  let sum ← sum.checkedSub 1#128
  sum.checkedDiv divisor

/-- The amount before the fee from the amount after it. -/
def preFeeAmount (postFeeAmount feeNumerator feeDenominator : U128) : Option U128 :=
  if feeNumerator = 0#128 ∨ feeDenominator = 0#128 then some postFeeAmount
  else if feeDenominator ≤ feeNumerator then none
  else if postFeeAmount = 0#128 then some 0#128
  else do
    let numerator ← postFeeAmount.checkedMul feeDenominator
    let denominator ← feeDenominator.checkedSub feeNumerator
    ceilDiv numerator denominator

/-- A fraction is absent or less than one. -/
def validateFraction (numerator denominator : U64) : Outcome SwapError Unit :=
  if denominator = 0#64 ∧ numerator = 0#64 then .ok ()
  else Outcome.rejectIf (denominator ≤ numerator) .invalidFee

/-- The fee of `x` tokens: the truncated share, at least one token. -/
def feeOf (n d x : ℕ) : ℕ := if n = 0 ∨ x = 0 then 0 else max 1 (x * n / d)

/-- The least amount of which `x` is left after a share `n / d` is taken. -/
def grossUp (n d x : ℕ) : ℕ := if n = 0 ∨ d = 0 then x else x * d ⌈/⌉ (d - n)

/-- What `validateFraction` accepts. -/
def ValidFraction (n d : ℕ) : Prop := n = 0 ∨ n < d

theorem toNat_eq_zero {w : ℕ} {x : BitVec w} : x = 0#w ↔ x.toNat = 0 := by
  rw [← BitVec.toNat_inj, BitVec.toNat_ofNat, Nat.zero_mod]

theorem calculateFee_eq_some {x n d r : U128} (h : calculateFee x n d = some r) :
    r.toNat = feeOf n.toNat d.toNat x.toNat := by
  rw [calculateFee] at h
  simp only [toNat_eq_zero] at h
  rw [feeOf]
  split at h
  · rename_i h0
    obtain rfl := Option.some.inj h
    rw [if_pos h0]
    rfl
  · rename_i h0
    rw [if_neg h0]
    simp only [Option.bind_eq_bind, Option.bind_eq_some_iff, BitVec.checkedMul_eq_some,
      BitVec.checkedDiv_eq_some] at h
    obtain ⟨p, hp, f, ⟨-, hf⟩, h⟩ := h
    rw [← hp, ← hf]
    split at h
    · rename_i hf0
      obtain rfl := Option.some.inj h
      rw [hf0]
      rfl
    · rename_i hf0
      obtain rfl := Option.some.inj h
      exact (Nat.max_eq_right (by omega)).symm

/-- The fee is defined for a valid fraction, as long as the product fits. -/
theorem exists_calculateFee {x n d : U128} (h : ValidFraction n.toNat d.toNat)
    (hfit : x.toNat * n.toNat < 2 ^ 128) : ∃ r, calculateFee x n d = some r := by
  rw [calculateFee]
  simp only [toNat_eq_zero]
  split
  · exact ⟨_, rfl⟩
  · rename_i h0
    have hd : 0 < d.toNat := by
      have := h.resolve_left fun hn => h0 (Or.inl hn)
      omega
    obtain ⟨p, hp⟩ := BitVec.exists_toNat_eq hfit
    obtain ⟨f, hf⟩ := BitVec.exists_toNat_eq ((Nat.div_le_self p.toNat d.toNat).trans_lt p.isLt)
    simp only [BitVec.checkedMul_eq_some.mpr hp, BitVec.checkedDiv_eq_some.mpr ⟨hd, hf⟩,
      Option.bind_eq_bind, Option.bind_some]
    split
    · exact ⟨_, rfl⟩
    · exact ⟨_, rfl⟩

theorem ceilDiv_eq_some {x y r : U128} (h : ceilDiv x y = some r) :
    r.toNat = x.toNat ⌈/⌉ y.toNat := by
  simp only [ceilDiv, Option.bind_eq_bind, Option.bind_eq_some_iff, BitVec.checkedAdd_eq_some,
    BitVec.checkedSub_eq_some, BitVec.checkedDiv_eq_some] at h
  obtain ⟨a, ha, b, ⟨-, hb⟩, -, hr⟩ := h
  rw [hr, hb, ha, Nat.ceilDiv_eq_add_pred_div]
  rfl

theorem zero_ceilDiv_nat (d : ℕ) : 0 ⌈/⌉ d = 0 := by
  rw [Nat.ceilDiv_eq_add_pred_div, Nat.zero_add]
  rcases Nat.eq_zero_or_pos d with rfl | hd
  · rfl
  · exact Nat.div_eq_of_lt (by omega)

theorem preFeeAmount_eq_some {x n d r : U128} (h : preFeeAmount x n d = some r) :
    r.toNat = grossUp n.toNat d.toNat x.toNat ∧
    (n.toNat = 0 ∨ d.toNat = 0 ∨ n.toNat < d.toNat) := by
  rw [preFeeAmount] at h
  simp only [toNat_eq_zero, BitVec.le_def] at h
  rw [grossUp]
  split at h
  · rename_i h0
    obtain rfl := Option.some.inj h
    exact ⟨by rw [if_pos h0], by tauto⟩
  · rename_i h0
    rw [if_neg h0]
    split at h
    · cases h
    · rename_i hlt
      refine ⟨?_, Or.inr (Or.inr (not_le.mp hlt))⟩
      split at h
      · rename_i hx
        obtain rfl := Option.some.inj h
        rw [hx, Nat.zero_mul, zero_ceilDiv_nat]
        rfl
      · simp only [Option.bind_eq_bind, Option.bind_eq_some_iff, BitVec.checkedMul_eq_some,
          BitVec.checkedSub_eq_some] at h
        obtain ⟨a, ha, b, ⟨-, hb⟩, h⟩ := h
        rw [ceilDiv_eq_some h, ha, hb]

theorem validateFraction_eq_ok {n d : U64} {u : Unit} :
    validateFraction n d = .ok u ↔ ValidFraction n.toNat d.toNat := by
  rw [validateFraction, ValidFraction]
  simp only [toNat_eq_zero]
  split
  · rename_i h
    simp [h.2]
  · rename_i h
    rw [Outcome.rejectIf_eq_ok, BitVec.le_def]
    omega

/-! ## Laws of fees -/

theorem feeOf_zero_left (d x : ℕ) : feeOf 0 d x = 0 := if_pos (Or.inl rfl)

theorem feeOf_zero_right (n d : ℕ) : feeOf n d 0 = 0 := if_pos (Or.inr rfl)

/-- A fee that is on takes at least one token. -/
theorem one_le_feeOf {n d x : ℕ} (hn : 0 < n) (hx : 0 < x) : 1 ≤ feeOf n d x := by
  rw [feeOf, if_neg (by omega)]
  exact le_max_left _ _

/-- A fee is at most the amount. -/
theorem feeOf_le {n d x : ℕ} (h : ValidFraction n d) : feeOf n d x ≤ x := by
  rw [feeOf]
  split
  · exact Nat.zero_le x
  · rename_i h0
    rw [not_or] at h0
    have hlt : n < d := h.resolve_left h0.1
    refine max_le (Nat.pos_of_ne_zero h0.2) (Nat.div_le_of_le_mul ?_)
    rw [Nat.mul_comm d]
    exact Nat.mul_le_mul_left x hlt.le

/-- Fees are monotone in the amount. -/
theorem feeOf_mono {n d x y : ℕ} (h : x ≤ y) : feeOf n d x ≤ feeOf n d y := by
  simp only [feeOf]
  split
  · exact Nat.zero_le _
  · rename_i h0
    rw [if_neg (by omega)]
    exact max_le_max_left 1 (Nat.div_le_div_right (Nat.mul_le_mul_right n h))

/-- The fee is more than the exact share less one token. -/
theorem mul_lt_feeOf_succ_mul {n d x : ℕ} (h : n < d) : x * n < (feeOf n d x + 1) * d := by
  rw [feeOf]
  split
  · rename_i h0
    rcases h0 with rfl | rfl <;> simp <;> omega
  · have hfloor : x * n < (x * n / d + 1) * d := by
      rw [Nat.mul_comm _ d]
      exact Nat.lt_mul_div_succ _ (by omega)
    exact hfloor.trans_le (Nat.mul_le_mul_right d (Nat.succ_le_succ (le_max_right _ _)))

/-- What is left of the grossed-up amount covers the amount. -/
theorem mul_le_grossUp_mul {n d x : ℕ} (hn : 0 < n) (h : n < d) :
    x * d ≤ grossUp n d x * (d - n) := by
  rw [grossUp, if_neg (by omega), Nat.mul_comm (_ ⌈/⌉ _)]
  exact (ceilDiv_le_iff_le_mul (by omega)).mp le_rfl

/-- It is the least such amount. -/
theorem grossUp_le {n d x y : ℕ} (hn : 0 < n) (h : n < d) (hy : x * d ≤ y * (d - n)) :
    grossUp n d x ≤ y := by
  rw [grossUp, if_neg (by omega), ceilDiv_le_iff_le_mul (by omega), Nat.mul_comm _ y]
  exact hy

theorem le_grossUp {n d x : ℕ} (h : n = 0 ∨ d = 0 ∨ n < d) : x ≤ grossUp n d x := by
  rcases Nat.eq_zero_or_pos n with rfl | hn
  · rw [grossUp, if_pos (Or.inl rfl)]
  rcases Nat.eq_zero_or_pos d with rfl | hd
  · rw [grossUp, if_pos (Or.inr rfl)]
  have hlt : n < d := by omega
  refine Nat.le_of_mul_le_mul_right ?_ hd
  calc x * d ≤ grossUp n d x * (d - n) := mul_le_grossUp_mul hn hlt
    _ ≤ grossUp n d x * d := Nat.mul_le_mul_left _ (Nat.sub_le d n)

/-- Grossing up a positive amount leaves room for the fee: the fee, of the same
fraction or of a smaller one, is at most what was added. -/
theorem add_feeOf_grossUp_le {n d n' d' x : ℕ} (hn : 0 < n) (h : n < d) (hx : 0 < x)
    (hd' : 0 < d') (hfrac : n' * d ≤ n * d') :
    x + feeOf n' d' (grossUp n d x) ≤ grossUp n d x := by
  have hleft := mul_le_grossUp_mul (x := x) hn h
  generalize grossUp n d x = q at hleft ⊢
  have hsplit : q * (d - n) + q * n = q * d := by
    rw [← Nat.mul_add, Nat.sub_add_cancel h.le]
  have hlt : x < q := by
    by_contra hge
    have : q * (d - n) ≤ x * (d - n) := Nat.mul_le_mul_right _ (by omega)
    have : x * (d - n) < x * d := Nat.mul_lt_mul_of_pos_left (by omega) hx
    omega
  rw [feeOf]
  split
  · omega
  · have hshare : x + q * n' / d' ≤ q := by
      -- cross-multiplied: the truncated share times `d` is at most `q * n`
      have hk : q * n' / d' * d ≤ q * n := by
        refine Nat.le_of_mul_le_mul_right ?_ hd'
        calc q * n' / d' * d * d' = q * n' / d' * d' * d := by ring
          _ ≤ q * n' * d := Nat.mul_le_mul_right d (Nat.div_mul_le_self _ _)
          _ = q * (n' * d) := by ring
          _ ≤ q * (n * d') := Nat.mul_le_mul_left q hfrac
          _ = q * n * d' := by ring
      refine Nat.le_of_mul_le_mul_right ?_ (by omega : 0 < d)
      rw [Nat.add_mul]
      omega
    rcases le_total (q * n' / d') 1 with hmin | hmin
    · rw [Nat.max_eq_left hmin]
      omega
    · rw [Nat.max_eq_right hmin]
      exact hshare

/-! ## The fees of a pool -/

/-- Encapsulates all fee information and calculations for swap operations. -/
@[ext] structure Fees : Type where
  /-- trade fee, kept in the pool -/
  tradeFeeNumerator : U64
  /-- trade fee denominator -/
  tradeFeeDenominator : U64
  /-- owner trading fee, kept in the pool and minted to the owner as pool tokens -/
  ownerTradeFeeNumerator : U64
  /-- owner trade fee denominator -/
  ownerTradeFeeDenominator : U64
  /-- owner withdraw fee, in pool tokens -/
  ownerWithdrawFeeNumerator : U64
  /-- owner withdraw fee denominator -/
  ownerWithdrawFeeDenominator : U64
  /-- share of the owner trading fee that goes to the host -/
  hostFeeNumerator : U64
  /-- host trading fee denominator -/
  hostFeeDenominator : U64
  deriving DecidableEq, Repr

namespace Fees

variable (fees : Fees)

/-- Calculate the withdraw fee in pool tokens. -/
def ownerWithdrawFee (poolTokens : U128) : Option U128 :=
  calculateFee poolTokens (fees.ownerWithdrawFeeNumerator.widen 128)
    (fees.ownerWithdrawFeeDenominator.widen 128)

/-- Calculate the trading fee in trading tokens. -/
def tradingFee (tradingTokens : U128) : Option U128 :=
  calculateFee tradingTokens (fees.tradeFeeNumerator.widen 128)
    (fees.tradeFeeDenominator.widen 128)

/-- Calculate the owner trading fee in trading tokens. -/
def ownerTradingFee (tradingTokens : U128) : Option U128 :=
  calculateFee tradingTokens (fees.ownerTradeFeeNumerator.widen 128)
    (fees.ownerTradeFeeDenominator.widen 128)

/-- Calculate the host fee based on the owner fee. -/
def hostFee (ownerFee : U128) : Option U128 :=
  calculateFee ownerFee (fees.hostFeeNumerator.widen 128) (fees.hostFeeDenominator.widen 128)

/-- Calculate the inverse trading amount, how much input is needed to give the
provided output. -/
def preTradingFeeAmount (postFeeAmount : U128) : Option U128 :=
  if fees.tradeFeeNumerator = 0#64 ∨ fees.tradeFeeDenominator = 0#64 then
    preFeeAmount postFeeAmount (fees.ownerTradeFeeNumerator.widen 128)
      (fees.ownerTradeFeeDenominator.widen 128)
  else if fees.ownerTradeFeeNumerator = 0#64 ∨ fees.ownerTradeFeeDenominator = 0#64 then
    preFeeAmount postFeeAmount (fees.tradeFeeNumerator.widen 128)
      (fees.tradeFeeDenominator.widen 128)
  else do
    let trade ← (fees.tradeFeeNumerator.widen 128).checkedMul
      (fees.ownerTradeFeeDenominator.widen 128)
    let owner ← (fees.ownerTradeFeeNumerator.widen 128).checkedMul
      (fees.tradeFeeDenominator.widen 128)
    let feeNumerator ← trade.checkedAdd owner
    let feeDenominator ← (fees.tradeFeeDenominator.widen 128).checkedMul
      (fees.ownerTradeFeeDenominator.widen 128)
    preFeeAmount postFeeAmount feeNumerator feeDenominator

/-- Validate that the fees are reasonable. -/
def validate : Outcome SwapError Unit := do
  validateFraction fees.tradeFeeNumerator fees.tradeFeeDenominator
  validateFraction fees.ownerTradeFeeNumerator fees.ownerTradeFeeDenominator
  validateFraction fees.ownerWithdrawFeeNumerator fees.ownerWithdrawFeeDenominator
  validateFraction fees.hostFeeNumerator fees.hostFeeDenominator

/-! ### Values -/

/-- The trading fee of `x` tokens. -/
def tradeFee (x : ℕ) : ℕ := feeOf fees.tradeFeeNumerator.toNat fees.tradeFeeDenominator.toNat x

/-- The owner trading fee of `x` tokens. -/
def ownerFee (x : ℕ) : ℕ :=
  feeOf fees.ownerTradeFeeNumerator.toNat fees.ownerTradeFeeDenominator.toNat x

/-- The two trading fees as one fraction, as the inverse takes them together. -/
def combinedFraction : ℕ × ℕ :=
  let n₁ := fees.tradeFeeNumerator.toNat
  let d₁ := fees.tradeFeeDenominator.toNat
  let n₂ := fees.ownerTradeFeeNumerator.toNat
  let d₂ := fees.ownerTradeFeeDenominator.toNat
  if n₁ = 0 ∨ d₁ = 0 then (n₂, d₂)
  else if n₂ = 0 ∨ d₂ = 0 then (n₁, d₁)
  else (n₁ * d₂ + n₂ * d₁, d₁ * d₂)

/-- The inverse trading amount of `x` tokens. -/
def preFee (x : ℕ) : ℕ := grossUp fees.combinedFraction.1 fees.combinedFraction.2 x

/-- The fractions are absent or less than one. -/
structure Valid : Prop where
  /-- trade fee -/
  trade : ValidFraction fees.tradeFeeNumerator.toNat fees.tradeFeeDenominator.toNat
  /-- owner trade fee -/
  ownerTrade : ValidFraction fees.ownerTradeFeeNumerator.toNat fees.ownerTradeFeeDenominator.toNat
  /-- owner withdraw fee -/
  ownerWithdraw :
    ValidFraction fees.ownerWithdrawFeeNumerator.toNat fees.ownerWithdrawFeeDenominator.toNat
  /-- host fee -/
  host : ValidFraction fees.hostFeeNumerator.toNat fees.hostFeeDenominator.toNat

variable {fees}

theorem validate_eq_ok {u : Unit} : fees.validate = .ok u ↔ fees.Valid := by
  simp only [validate, Outcome.bind_eq_ok, validateFraction_eq_ok, exists_const]
  exact ⟨fun ⟨h₁, h₂, h₃, h₄⟩ => ⟨h₁, h₂, h₃, h₄⟩,
    fun h => ⟨h.trade, h.ownerTrade, h.ownerWithdraw, h.host⟩⟩

theorem tradingFee_eq_some {x r : U128} (h : fees.tradingFee x = some r) :
    r.toNat = fees.tradeFee x.toNat := by
  have hfee := calculateFee_eq_some h
  rwa [U64.toNat_widen, U64.toNat_widen] at hfee

theorem ownerTradingFee_eq_some {x r : U128} (h : fees.ownerTradingFee x = some r) :
    r.toNat = fees.ownerFee x.toNat := by
  have hfee := calculateFee_eq_some h
  rwa [U64.toNat_widen, U64.toNat_widen] at hfee

theorem ownerWithdrawFee_eq_some {x r : U128} (h : fees.ownerWithdrawFee x = some r) :
    r.toNat = feeOf fees.ownerWithdrawFeeNumerator.toNat
      fees.ownerWithdrawFeeDenominator.toNat x.toNat := by
  have hfee := calculateFee_eq_some h
  rwa [U64.toNat_widen, U64.toNat_widen] at hfee

/-- The withdraw fee of a 64-bit amount is defined, and at most that amount. -/
theorem Valid.exists_ownerWithdrawFee (hv : fees.Valid) (x : U64) :
    ∃ r, fees.ownerWithdrawFee (x.widen 128) = some r ∧ r.toNat ≤ x.toNat := by
  have hvalid := hv.ownerWithdraw
  have hfit : (x.widen 128).toNat * (fees.ownerWithdrawFeeNumerator.widen 128).toNat < 2 ^ 128 := by
    rw [U64.toNat_widen, U64.toNat_widen]
    exact BitVec.toNat_mul_toNat_lt
  obtain ⟨r, hr⟩ := exists_calculateFee (d := fees.ownerWithdrawFeeDenominator.widen 128)
    (by rwa [U64.toNat_widen, U64.toNat_widen]) hfit
  refine ⟨r, hr, ?_⟩
  rw [ownerWithdrawFee_eq_some hr, U64.toNat_widen]
  exact feeOf_le hvalid

theorem hostFee_eq_some {x r : U128} (h : fees.hostFee x = some r) :
    r.toNat = feeOf fees.hostFeeNumerator.toNat fees.hostFeeDenominator.toNat x.toNat := by
  have hfee := calculateFee_eq_some h
  rwa [U64.toNat_widen, U64.toNat_widen] at hfee

/-- The inverse is taken of the combined fraction, which is absent or less than one. -/
theorem preTradingFeeAmount_eq_some {x r : U128} (h : fees.preTradingFeeAmount x = some r) :
    r.toNat = fees.preFee x.toNat ∧
    (fees.combinedFraction.1 = 0 ∨ fees.combinedFraction.2 = 0 ∨
      fees.combinedFraction.1 < fees.combinedFraction.2) := by
  rw [preTradingFeeAmount] at h
  simp only [toNat_eq_zero] at h
  unfold preFee combinedFraction
  have hwiden (y : U64) : (y.widen 128).toNat = y.toNat := U64.toNat_widen y
  dsimp only
  split at h
  · rename_i h₁
    rw [if_pos h₁]
    have hpre := preFeeAmount_eq_some h
    rwa [hwiden, hwiden] at hpre
  · rename_i h₁
    rw [if_neg h₁]
    split at h
    · rename_i h₂
      rw [if_pos h₂]
      have hpre := preFeeAmount_eq_some h
      rwa [hwiden, hwiden] at hpre
    · rename_i h₂
      rw [if_neg h₂]
      simp only [Option.bind_eq_bind, Option.bind_eq_some_iff, BitVec.checkedMul_eq_some,
        BitVec.checkedAdd_eq_some, hwiden] at h
      obtain ⟨t, ht, o, ho, n, hn, d, hd, h⟩ := h
      have hpre := preFeeAmount_eq_some h
      rwa [hn, ht, ho, hd] at hpre

/-- The inverse trading amount covers the amount and the owner fee on itself. -/
theorem Valid.add_ownerFee_preFee_le (hv : fees.Valid) {x : ℕ} (hx : 0 < x)
    (hfrac : fees.combinedFraction.1 = 0 ∨ fees.combinedFraction.2 = 0 ∨
      fees.combinedFraction.1 < fees.combinedFraction.2) :
    x + fees.ownerFee (fees.preFee x) ≤ fees.preFee x := by
  have htrade := hv.trade
  have howner := hv.ownerTrade
  rw [ValidFraction] at htrade howner
  rw [ownerFee, preFee]
  by_cases hn₂ : fees.ownerTradeFeeNumerator.toNat = 0
  · rw [hn₂, feeOf_zero_left]
    exact le_grossUp hfrac
  unfold combinedFraction at hfrac ⊢
  dsimp only at hfrac ⊢
  split at hfrac
  · rename_i h₁
    rw [if_pos h₁]
    exact add_feeOf_grossUp_le (by omega) (by omega) hx (by omega) le_rfl
  · rename_i h₁
    rw [if_neg h₁]
    split at hfrac
    · omega
    · rename_i h₂
      rw [if_neg h₂]
      dsimp only at hfrac ⊢
      have hpos : 0 < fees.tradeFeeNumerator.toNat * fees.ownerTradeFeeDenominator.toNat :=
        Nat.mul_pos (by omega) (by omega)
      have hden : 0 < fees.tradeFeeDenominator.toNat * fees.ownerTradeFeeDenominator.toNat :=
        Nat.mul_pos (by omega) (by omega)
      refine add_feeOf_grossUp_le (by omega) (by omega) hx (by omega) ?_
      calc fees.ownerTradeFeeNumerator.toNat *
            (fees.tradeFeeDenominator.toNat * fees.ownerTradeFeeDenominator.toNat)
          = fees.ownerTradeFeeNumerator.toNat * fees.tradeFeeDenominator.toNat *
              fees.ownerTradeFeeDenominator.toNat := by ring
        _ ≤ _ := Nat.mul_le_mul_right _ (Nat.le_add_left _ _)

/-! ### Layout -/

/-- Size of the fees in bytes. -/
def LEN : ℕ := 64

/-- The eight fields in the order of the layout, eight bytes each. -/
def fields (fees : Fees) : List Bytes :=
  [ Bytes.toLE 8 fees.tradeFeeNumerator,
    Bytes.toLE 8 fees.tradeFeeDenominator,
    Bytes.toLE 8 fees.ownerTradeFeeNumerator,
    Bytes.toLE 8 fees.ownerTradeFeeDenominator,
    Bytes.toLE 8 fees.ownerWithdrawFeeNumerator,
    Bytes.toLE 8 fees.ownerWithdrawFeeDenominator,
    Bytes.toLE 8 fees.hostFeeNumerator,
    Bytes.toLE 8 fees.hostFeeDenominator ]

/-- `pack_into_slice` on a slice of `LEN` bytes. -/
def packIntoSlice (fees : Fees) : Bytes := fees.fields.flatten

/-- `unpack_from_slice` of a slice of `LEN` bytes. -/
def unpackFromSlice (input : Bytes) : Fees where
  tradeFeeNumerator := Bytes.ofLE 8 (Bytes.slice 0 8 input)
  tradeFeeDenominator := Bytes.ofLE 8 (Bytes.slice 8 8 input)
  ownerTradeFeeNumerator := Bytes.ofLE 8 (Bytes.slice 16 8 input)
  ownerTradeFeeDenominator := Bytes.ofLE 8 (Bytes.slice 24 8 input)
  ownerWithdrawFeeNumerator := Bytes.ofLE 8 (Bytes.slice 32 8 input)
  ownerWithdrawFeeDenominator := Bytes.ofLE 8 (Bytes.slice 40 8 input)
  hostFeeNumerator := Bytes.ofLE 8 (Bytes.slice 48 8 input)
  hostFeeDenominator := Bytes.ofLE 8 (Bytes.slice 56 8 input)

/-- The lengths of the fields. -/
def fieldLengths : List ℕ := [8, 8, 8, 8, 8, 8, 8, 8]

theorem map_length_fields (fees : Fees) : fees.fields.map List.length = fieldLengths := by
  simp [fields, fieldLengths]

@[simp] theorem length_packIntoSlice (fees : Fees) : fees.packIntoSlice.length = LEN := by
  rw [packIntoSlice, List.length_flatten, map_length_fields]
  rfl

/-- Fees that were written are read back. -/
@[simp] theorem unpack_pack (fees : Fees) : unpackFromSlice fees.packIntoSlice = fees := by
  have hsplit : Bytes.splitFields 0 fieldLengths fees.packIntoSlice = fees.fields :=
    Bytes.splitFields_flatten (map_length_fields fees)
  generalize fees.packIntoSlice = input at hsplit ⊢
  simp only [Bytes.splitFields, fieldLengths, fields, List.cons.injEq, and_true, Nat.reduceAdd,
    Nat.zero_add] at hsplit
  obtain ⟨h₁, h₂, h₃, h₄, h₅, h₆, h₇, h₈⟩ := hsplit
  simp only [unpackFromSlice, h₁, h₂, h₃, h₄, h₅, h₆, h₇, h₈, Bytes.ofLE_toLE]

/-- Bytes that were read are written back. -/
theorem pack_unpack {input : Bytes} (h : input.length = LEN) :
    (unpackFromSlice input).packIntoSlice = input := by
  have hfield (off : ℕ) (hoff : off + 8 ≤ LEN) :
      Bytes.toLE 8 (Bytes.ofLE 8 (Bytes.slice off 8 input)) = Bytes.slice off 8 input :=
    Bytes.toLE_ofLE (Bytes.length_slice (by omega))
  conv_rhs => rw [← Bytes.flatten_splitFields_zero (show input.length = fieldLengths.sum from h)]
  simp only [packIntoSlice, fields, unpackFromSlice, Bytes.splitFields, fieldLengths]
  rw [hfield 0 (by decide), hfield 8 (by decide), hfield 16 (by decide), hfield 24 (by decide),
    hfield 32 (by decide), hfield 40 (by decide), hfield 48 (by decide), hfield 56 (by decide)]

end Fees

end SolanaPsm
