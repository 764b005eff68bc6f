import SolanaPsm.Instruction
import SolanaPsm.Script

/-!
# The amounts of the trading instructions

The part of the five trading processors (`processor.rs`) that computes amounts: from
the balances read off the accounts to the token movements, in the order in which the
program requests them. A computation is a script whose calls are `PoolEffect`s; a
failed check ends it.

The account checks around it belong to the processors. What they find out about the
fee accounts enters as `FeeAccounts`.
-/

namespace SolanaPsm

/-! ## Token movements -/

/-- The two tokens of a pool. -/
inductive PoolToken : Type where
  | a
  | b
  deriving DecidableEq, Repr

namespace TradeDirection

/-- The token a trade takes in. -/
def source : TradeDirection → PoolToken
  | aToB => .a
  | bToA => .b

/-- The token a trade gives out. -/
def destination : TradeDirection → PoolToken
  | aToB => .b
  | bToA => .a

end TradeDirection

/-- What a trading instruction asks of the token program. -/
inductive PoolEffect : Type where
  /-- unpack the mint of a token -/
  | unpackMint (token : PoolToken)
  /-- unpack the host fee account, for the pool mint -/
  | unpackHostFeeAccount (account : Pubkey)
  /-- transfer from the user into the reserve of a token -/
  | payIn (token : PoolToken) (amount : U64)
  /-- transfer from the reserve of a token to the user -/
  | payOut (token : PoolToken) (amount : U64)
  /-- mint pool tokens -/
  | mintTo (account : Pubkey) (amount : U64)
  /-- burn pool tokens -/
  | burn (account : Pubkey) (amount : U64)
  /-- transfer pool tokens -/
  | transferPool (source destination : Pubkey) (amount : U64)
  deriving DecidableEq, Repr

/-- The balances an instruction reads: both reserves and the pool token supply. -/
@[ext] structure Balances : Type where
  /-- reserve of token A -/
  tokenA : U64
  /-- reserve of token B -/
  tokenB : U64
  /-- supply of pool tokens -/
  supply : U64
  deriving DecidableEq, Repr

namespace Balances

/-- The reserve of a token. -/
def reserve (balances : Balances) : PoolToken → U64
  | .a => balances.tokenA
  | .b => balances.tokenB

/-- Replace the reserve of a token. -/
def setReserve (balances : Balances) (token : PoolToken) (amount : U64) : Balances :=
  match token with
  | .a => { balances with tokenA := amount }
  | .b => { balances with tokenB := amount }

end Balances

/-- The token program moves, mints and burns exactly the amounts it is given, and
refuses what does not fit. -/
def PoolEffect.apply : PoolEffect → Balances → Outcome ProgramError Balances
  | .unpackMint _, s | .unpackHostFeeAccount _, s | .transferPool _ _ _, s => .ok s
  | .payIn token amount, s =>
    match (s.reserve token).checkedAdd amount with
    | some reserve => .ok (s.setReserve token reserve)
    | none => .err (.external 0)
  | .payOut token amount, s =>
    match (s.reserve token).checkedSub amount with
    | some reserve => .ok (s.setReserve token reserve)
    | none => .err (.external 0)
  | .mintTo _ amount, s =>
    match s.supply.checkedAdd amount with
    | some supply => .ok { s with supply }
    | none => .err (.external 0)
  | .burn _ amount, s =>
    match s.supply.checkedSub amount with
    | some supply => .ok { s with supply }
    | none => .err (.external 0)

/-- What the account checks found out about the fee accounts. -/
structure FeeAccounts : Type where
  /-- the pool fee account -/
  poolFee : Pubkey
  /-- the instruction names it and `check_pool_fee_info` accepts it -/
  poolFeeOk : Bool
  /-- the host fee account, when the instruction names one -/
  host : Option Pubkey
  deriving DecidableEq, Repr

/-- Amounts of the token program have 64 bits. -/
def toU64 (val : U128) : Outcome ProgramError U64 :=
  Outcome.ofOption (val.tryNarrow 64) (.custom .conversionFailure)

theorem toU64_eq_ok {val : U128} {x : U64} : toU64 val = .ok x ↔ x.toNat = val.toNat := by
  rw [toU64, Outcome.ofOption_eq_ok, BitVec.tryNarrow_eq_some]

namespace Amounts

open Script

/-- A script of a trading instruction. -/
abbrev TradeScript (α : Type) : Type := Script PoolEffect ProgramError α

/-- Fail with a `SwapError` when the condition holds. -/
def reject (c : Prop) [Decidable c] (e : SwapError) : TradeScript Unit :=
  lift (Outcome.rejectIf c (.custom e))

/-- A missing value as a `SwapError`. -/
def require {α : Type} (x : Option α) (e : SwapError) : TradeScript α :=
  lift (Outcome.ofOption x (.custom e))

/-- The result of a curve, its absence as a `SwapError`. -/
def compute {α : Type} (x : Calc α) (e : SwapError) : TradeScript α := lift (x.okOr (.custom e))

@[simp] theorem returns_reject_bind {α : Type} {c : Prop} [Decidable c] {e : SwapError}
    {f : Unit → TradeScript α} {log : List PoolEffect} {a : α} :
    (reject c e >>= f).Returns log a ↔ ¬ c ∧ (f ()).Returns log a := by
  rw [reject, returns_lift_bind]
  simp only [Outcome.rejectIf_eq_ok]
  exact ⟨fun ⟨_, hc, h⟩ => ⟨hc, h⟩, fun ⟨hc, h⟩ => ⟨(), hc, h⟩⟩

@[simp] theorem returns_require_bind {α β : Type} {x : Option α} {e : SwapError}
    {f : α → TradeScript β} {log : List PoolEffect} {b : β} :
    (require x e >>= f).Returns log b ↔ ∃ a, x = some a ∧ (f a).Returns log b := by
  simp [require]

@[simp] theorem returns_compute_bind {α β : Type} {x : Calc α} {e : SwapError}
    {f : α → TradeScript β} {log : List PoolEffect} {b : β} :
    (compute x e >>= f).Returns log b ↔ ∃ a, x = .ok a ∧ (f a).Returns log b := by
  simp [compute]

/-! ## Pool tokens for the owner fee -/

/-- The host's part of the pool tokens for the owner fee; returns what is left. -/
def mintHostFee (fees : Fees) (host : Option Pubkey) (poolTokenAmount : U128) : TradeScript U128 :=
  match host with
  | none => return poolTokenAmount
  | some hostFeeAccount => do
    -- unpack it in order to verify it is associated to the pool mint
    emit (.unpackHostFeeAccount hostFeeAccount)
    let hostFee ← require (fees.hostFee poolTokenAmount) .feeCalculationFailure
    if 0#128 < hostFee then do
      let poolTokenAmount ← require (poolTokenAmount.checkedSub hostFee) .feeCalculationFailure
      let hostFee ← lift (toU64 hostFee)
      emit (.mintTo hostFeeAccount hostFee)
      return poolTokenAmount
    else return poolTokenAmount

/-- The pool's part, minted to the pool fee account when that is usable. -/
def mintPoolFee (accounts : FeeAccounts) (poolTokenAmount : U128) : TradeScript Unit :=
  if accounts.poolFeeOk then do
    let poolTokenAmount ← lift (toU64 poolTokenAmount)
    emit (.mintTo accounts.poolFee poolTokenAmount)
  else return ()

section Instructions

variable [SplMath] (curve : SwapCurve) (fees : Fees) (timestamp : Option U128)
  (balances : Balances) (accounts : FeeAccounts)

/-! ## Swap -/

/-- Pool tokens for the owner fee of a swap. The reserves are adjusted to exclude the
fee, which came from the side the user swapped *from*. -/
def mintSwapOwnerFee (tradeDirection : TradeDirection) (result : SwapResult) :
    TradeScript Unit := do
  let (swapTokenAAmount, swapTokenBAmount) := (match tradeDirection with
    | .aToB => (result.newSwapSourceAmount, result.newSwapDestinationAmount)
    | .bToA => (result.newSwapDestinationAmount, result.newSwapSourceAmount))
  if 0#128 < result.ownerFee then do
    let (swapTokenAAmount, swapTokenBAmount) ← (match tradeDirection with
      | .aToB => do
        let a ← require (swapTokenAAmount.checkedSub result.ownerFee) .calculationFailure
        return (a, swapTokenBAmount)
      | .bToA => do
        let b ← require (swapTokenBAmount.checkedSub result.ownerFee) .calculationFailure
        return (swapTokenAAmount, b) : TradeScript (U128 × U128))
    let poolTokenAmount ← compute (curve.calculator.depositSingleTokenType result.ownerFee
      swapTokenAAmount swapTokenBAmount (balances.supply.widen 128) tradeDirection timestamp)
      .feeCalculationFailure
    if 0#128 < poolTokenAmount then do
      let poolTokenAmount ← mintHostFee fees accounts.host poolTokenAmount
      if 0#128 < poolTokenAmount then mintPoolFee accounts poolTokenAmount else return ()
    else return ()
  else return ()

/-- The amounts of `process_swap`. -/
def swap (tradeDirection : TradeDirection) (instruction : Swap) : TradeScript Unit := do
  -- calculate the trade amounts
  let result ← compute (curve.swap (instruction.amountIn.widen 128)
    ((balances.reserve tradeDirection.source).widen 128)
    ((balances.reserve tradeDirection.destination).widen 128) tradeDirection fees timestamp)
    .zeroTradingTokens
  -- re-calculate the source amount swapped based on what the curve says
  let sourceTransferAmount ← lift (toU64 result.sourceAmountSwapped)
  emit (.unpackMint tradeDirection.source)
  emit (.unpackMint tradeDirection.destination)
  let destinationTransferAmount ← lift (toU64 result.destinationAmountSwapped)
  reject (destinationTransferAmount < instruction.minimumAmountOut) .exceededSlippage
  emit (.payIn tradeDirection.source sourceTransferAmount)
  mintSwapOwnerFee curve fees timestamp balances accounts tradeDirection result
  emit (.payOut tradeDirection.destination destinationTransferAmount)

/-! ## Both tokens -/

/-- The amounts of `process_deposit_all_token_types`; pool tokens go to `destination`. -/
def depositAllTokenTypes (destination : Pubkey) (instruction : DepositAllTokenTypes) :
    TradeScript Unit := do
  let results ← compute (curve.calculator.poolTokensToTradingTokens
    (instruction.poolTokenAmount.widen 128) (balances.supply.widen 128)
    (balances.tokenA.widen 128) (balances.tokenB.widen 128) .ceiling) .zeroTradingTokens
  let tokenAAmount ← lift (toU64 results.tokenAAmount)
  reject (instruction.maximumTokenAAmount < tokenAAmount) .exceededSlippage
  let tokenBAmount ← lift (toU64 results.tokenBAmount)
  reject (instruction.maximumTokenBAmount < tokenBAmount) .exceededSlippage
  reject (curve.curveType = .constantProduct ∧ (tokenAAmount = 0#64 ∨ tokenBAmount = 0#64))
    .zeroTradingTokens
  emit (.payIn .a tokenAAmount)
  emit (.payIn .b tokenBAmount)
  emit (.mintTo destination instruction.poolTokenAmount)

/-- The withdraw fee of `x` pool tokens from `source`: withdrawing from the fee account
is free, and so is withdrawing while the fee account is unusable. -/
def withdrawFee (source : Pubkey) (x : U128) : TradeScript U128 :=
  if accounts.poolFeeOk then
    if accounts.poolFee = source then return 0#128
    else require (fees.ownerWithdrawFee x) .feeCalculationFailure
  else return 0#128

/-- Transfer the withdraw fee, if any. -/
def payWithdrawFee (source : Pubkey) (fee : U128) : TradeScript Unit :=
  if 0#128 < fee then do
    let fee ← lift (toU64 fee)
    emit (.transferPool source accounts.poolFee fee)
  else return ()

/-- Transfer out of a reserve, unless the amount is zero. -/
def payOutPositive (token : PoolToken) (amount : U64) : TradeScript Unit :=
  if 0#64 < amount then emit (.payOut token amount) else return ()

/-- The amounts of `process_withdraw_all_token_types`; pool tokens come from `source`. -/
def withdrawAllTokenTypes (source : Pubkey) (instruction : WithdrawAllTokenTypes) :
    TradeScript Unit := do
  let fee ← withdrawFee fees accounts source (instruction.poolTokenAmount.widen 128)
  let poolTokenAmount ← require ((instruction.poolTokenAmount.widen 128).checkedSub fee)
    .calculationFailure
  let results ← compute (curve.calculator.poolTokensToTradingTokens poolTokenAmount
    (balances.supply.widen 128) (balances.tokenA.widen 128) (balances.tokenB.widen 128) .floor)
    .zeroTradingTokens
  let tokenAAmount ← lift (toU64 results.tokenAAmount)
  let tokenAAmount := balances.tokenA.minimum tokenAAmount
  reject (tokenAAmount < instruction.minimumTokenAAmount) .exceededSlippage
  let tokenBAmount ← lift (toU64 results.tokenBAmount)
  let tokenBAmount := balances.tokenB.minimum tokenBAmount
  reject (tokenBAmount < instruction.minimumTokenBAmount) .exceededSlippage
  reject (curve.curveType = .constantProduct ∧ tokenAAmount = 0#64 ∧ balances.tokenA ≠ 0#64)
    .zeroTradingTokens
  reject (curve.curveType = .constantProduct ∧ tokenBAmount = 0#64 ∧ balances.tokenB ≠ 0#64)
    .zeroTradingTokens
  payWithdrawFee accounts source fee
  let burnAmount ← lift (toU64 poolTokenAmount)
  emit (.burn source burnAmount)
  payOutPositive .a tokenAAmount
  payOutPositive .b tokenBAmount

/-! ## One token -/

/-- The reserves after `change` is made on the source side and the owner fee is taken
off it. -/
def adjustReserves (tradeDirection : TradeDirection) (change : U128 → Option U128)
    (ownerFee : U128) : TradeScript (U128 × U128) :=
  let swapTokenAAmount := balances.tokenA.widen 128
  let swapTokenBAmount := balances.tokenB.widen 128
  match tradeDirection with
  | .aToB => do
    let a ← require (change swapTokenAAmount) .feeCalculationFailure
    let a ← require (a.checkedSub ownerFee) .feeCalculationFailure
    return (a, swapTokenBAmount)
  | .bToA => do
    let b ← require (change swapTokenBAmount) .feeCalculationFailure
    let b ← require (b.checkedSub ownerFee) .feeCalculationFailure
    return (swapTokenAAmount, b)

/-- Pool tokens for the owner fee of a single-sided deposit. -/
def mintDepositOwnerFee (tradeDirection : TradeDirection) (sourceTokenAmount : U64)
    (poolTokenAmount : U64) (ownerFee : U128) : TradeScript Unit :=
  if 0#128 < ownerFee then do
    let (swapTokenAAmount, swapTokenBAmount) ← adjustReserves balances tradeDirection
      (fun x => x.checkedAdd (sourceTokenAmount.widen 128)) ownerFee
    let poolMintSupply ← require ((balances.supply.widen 128).checkedAdd
      (poolTokenAmount.widen 128)) .feeCalculationFailure
    let ownerFeePool ← compute (curve.calculator.depositSingleTokenType ownerFee
      swapTokenAAmount swapTokenBAmount poolMintSupply tradeDirection timestamp)
      .feeCalculationFailure
    if 0#128 < ownerFeePool then do
      let ownerFeePool ← mintHostFee fees accounts.host ownerFeePool
      if 0#128 < ownerFeePool then mintPoolFee accounts ownerFeePool else return ()
    else return ()
  else return ()

/-- The amounts of `process_deposit_single_token_type_exact_amount_in`; pool tokens go
to `destination`. -/
def depositSingleTokenTypeExactAmountIn (tradeDirection : TradeDirection) (destination : Pubkey)
    (instruction : DepositSingleTokenTypeExactAmountIn) : TradeScript Unit := do
  let result ← compute (curve.depositSingleTokenType
    (instruction.sourceTokenAmount.widen 128) (balances.tokenA.widen 128)
    (balances.tokenB.widen 128) (balances.supply.widen 128) tradeDirection fees timestamp)
    .zeroTradingTokens
  let poolTokenAmount ← lift (toU64 result.amount)
  reject (poolTokenAmount < instruction.minimumPoolTokenAmount) .exceededSlippage
  reject (poolTokenAmount = 0#64) .zeroTradingTokens
  mintDepositOwnerFee curve fees timestamp balances accounts tradeDirection
    instruction.sourceTokenAmount poolTokenAmount result.ownerFee
  emit (.payIn tradeDirection.source instruction.sourceTokenAmount)
  emit (.mintTo destination poolTokenAmount)

/-- Pool tokens for the owner fee of an exact-out withdrawal. Here the pool's part is
minted even when the host took all. -/
def mintWithdrawOwnerFee (tradeDirection : TradeDirection) (destinationTokenAmount : U64)
    (burnPoolTokenAmount ownerFee : U128) : TradeScript Unit :=
  if 0#128 < ownerFee then do
    let (swapTokenAAmount, swapTokenBAmount) ← adjustReserves balances tradeDirection
      (fun x => x.checkedSub (destinationTokenAmount.widen 128)) ownerFee
    let poolMintSupply ← require ((balances.supply.widen 128).checkedSub burnPoolTokenAmount)
      .feeCalculationFailure
    let ownerFeePool ← compute (curve.calculator.depositSingleTokenType ownerFee
      swapTokenAAmount swapTokenBAmount poolMintSupply tradeDirection timestamp)
      .feeCalculationFailure
    if 0#128 < ownerFeePool then do
      let ownerFeePool ← mintHostFee fees accounts.host ownerFeePool
      mintPoolFee accounts ownerFeePool
    else return ()
  else return ()

/-- The amounts of `process_withdraw_single_token_type_exact_amount_out`; pool tokens
come from `source`. -/
def withdrawSingleTokenTypeExactAmountOut (tradeDirection : TradeDirection) (source : Pubkey)
    (instruction : WithdrawSingleTokenTypeExactAmountOut) : TradeScript Unit := do
  let result ← compute (curve.withdrawSingleTokenTypeExactOut
    (instruction.destinationTokenAmount.widen 128) (balances.tokenA.widen 128)
    (balances.tokenB.widen 128) (balances.supply.widen 128) tradeDirection fees timestamp)
    .zeroTradingTokens
  let burnPoolTokenAmount := result.amount
  let fee ← withdrawFee fees accounts source burnPoolTokenAmount
  mintWithdrawOwnerFee curve fees timestamp balances accounts tradeDirection
    instruction.destinationTokenAmount burnPoolTokenAmount result.ownerFee
  let poolTokenAmount ← require (burnPoolTokenAmount.checkedAdd fee) .calculationFailure
  let poolTokenAmount64 ← lift (toU64 poolTokenAmount)
  reject (instruction.maximumPoolTokenAmount < poolTokenAmount64) .exceededSlippage
  reject (poolTokenAmount = 0#128) .zeroTradingTokens
  payWithdrawFee accounts source fee
  let burnAmount ← lift (toU64 burnPoolTokenAmount)
  emit (.burn source burnAmount)
  emit (.payOut tradeDirection.source instruction.destinationTokenAmount)

/-! ## A new pool -/

/-- The checks of amounts in `process_initialize`, and the initial supply, minted to
`destination`. `balances` holds the reserves and the supply of the pool mint. -/
def initializePool (destination : Pubkey) : TradeScript Unit := do
  lift (liftSwapError (curve.calculator.validateSupply balances.tokenA balances.tokenB))
  reject (balances.supply ≠ 0#64) .invalidSupply
  lift (liftSwapError fees.validate)
  lift (liftSwapError (curve.calculator.validate timestamp))
  let initialAmount ← lift (toU64 curve.calculator.newPoolSupply)
  emit (.mintTo destination initialAmount)

end Instructions

end Amounts

/-! ## Any trade -/

/-- A trading instruction, with the direction and the pool token account it names. -/
inductive TradeInstruction : Type where
  | swap (tradeDirection : TradeDirection) (instruction : Swap)
  | depositAllTokenTypes (destination : Pubkey) (instruction : DepositAllTokenTypes)
  | withdrawAllTokenTypes (source : Pubkey) (instruction : WithdrawAllTokenTypes)
  | depositSingleTokenTypeExactAmountIn (tradeDirection : TradeDirection) (destination : Pubkey)
    (instruction : DepositSingleTokenTypeExactAmountIn)
  | withdrawSingleTokenTypeExactAmountOut (tradeDirection : TradeDirection) (source : Pubkey)
    (instruction : WithdrawSingleTokenTypeExactAmountOut)
  deriving DecidableEq, Repr

/-- The amounts of a trading instruction. -/
def TradeInstruction.amounts [SplMath] (curve : SwapCurve) (fees : Fees) (timestamp : Option U128)
    (balances : Balances) (accounts : FeeAccounts) : TradeInstruction → Amounts.TradeScript Unit
  | swap tradeDirection instruction =>
    Amounts.swap curve fees timestamp balances accounts tradeDirection instruction
  | depositAllTokenTypes destination instruction =>
    Amounts.depositAllTokenTypes curve balances destination instruction
  | withdrawAllTokenTypes source instruction =>
    Amounts.withdrawAllTokenTypes curve fees balances accounts source instruction
  | depositSingleTokenTypeExactAmountIn tradeDirection destination instruction =>
    Amounts.depositSingleTokenTypeExactAmountIn curve fees timestamp balances accounts
      tradeDirection destination instruction
  | withdrawSingleTokenTypeExactAmountOut tradeDirection source instruction =>
    Amounts.withdrawSingleTokenTypeExactAmountOut curve fees timestamp balances accounts
      tradeDirection source instruction

/-- A trade: the instruction, and the curve, the clock and the accounts it finds. -/
structure Trade : Type where
  /-- the curve, with the rates of the moment -/
  curve : SwapCurve
  /-- the clock -/
  timestamp : Option U128
  /-- the fee accounts -/
  accounts : FeeAccounts
  /-- what is asked for -/
  instruction : TradeInstruction
  deriving DecidableEq, Repr

/-- The amounts of a trade. -/
def Trade.amounts [SplMath] (trade : Trade) (fees : Fees) (balances : Balances) :
    Amounts.TradeScript Unit :=
  trade.instruction.amounts trade.curve fees trade.timestamp balances trade.accounts

end SolanaPsm
