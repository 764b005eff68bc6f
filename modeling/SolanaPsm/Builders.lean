import SolanaPsm.Program

/-!
# Building instructions

The functions that build an instruction (`instruction.rs`): its data, and the accounts it lists
with the privileges it asks for each. The addresses of an instruction are a record.
-/

namespace SolanaPsm

/-- An account an instruction lists. -/
structure AccountMeta : Type where
  /-- its address -/
  pubkey : Pubkey
  /-- its owner signs -/
  isSigner : Bool
  /-- it may be written -/
  isWritable : Bool
  deriving DecidableEq, Repr

namespace AccountMeta

/-- An account that may be written. -/
def new (pubkey : Pubkey) (isSigner : Bool) : AccountMeta := ⟨pubkey, isSigner, true⟩

/-- An account that is only read. -/
def newReadonly (pubkey : Pubkey) (isSigner : Bool) : AccountMeta := ⟨pubkey, isSigner, false⟩

end AccountMeta

/-- An instruction for a program. -/
structure Instruction : Type where
  /-- the program -/
  programId : Pubkey
  /-- the accounts it lists -/
  accounts : List AccountMeta
  /-- its input -/
  data : Bytes
  deriving DecidableEq, Repr

namespace Instruction

/-- The accounts, as the runtime hands them to the program: an address is a signer when it signs
the transaction, whichever entry or instruction asks for its signature. -/
def accountInfos (instruction : Instruction) (signers : List Pubkey) : List AccountInfo :=
  instruction.accounts.map fun account => ⟨account.pubkey, signers.contains account.pubkey⟩

/-- The instruction is run, in a transaction with these signatures. -/
def event (instruction : Instruction) (signers : List Pubkey) (clock : Clock) : Event :=
  .instruction clock (instruction.accountInfos signers) instruction.data

/-- The instruction lets the address be written. -/
def Writes (instruction : Instruction) (key : Pubkey) : Prop :=
  ∃ account ∈ instruction.accounts, account.pubkey = key ∧ account.isWritable = true

/-- The instruction asks for the signature of the address. -/
def Signs (instruction : Instruction) (key : Pubkey) : Prop :=
  ∃ account ∈ instruction.accounts, account.pubkey = key ∧ account.isSigner = true

/-- The addresses it lists, and which of them may be written. -/
def privileges (instruction : Instruction) : List (Pubkey × Bool) :=
  instruction.accounts.map fun account => (account.pubkey, account.isWritable)

end Instruction

/-! ## Initialize -/

/-- Extra accounts needed for RedemptionRate curve. -/
structure RedemptionRateExtraAccounts : Type where
  /-- pda created at initialization -/
  permissionAccount : Pubkey
  /-- authority of permission account -/
  authority : Pubkey
  /-- payer of account creation -/
  payer : Pubkey
  /-- system program -/
  systemProgram : Pubkey
  deriving DecidableEq, Repr

/-- The addresses of an Initialize. -/
structure InitializeKeys : Type where
  tokenProgram : Pubkey
  swap : Pubkey
  authority : Pubkey
  tokenA : Pubkey
  tokenB : Pubkey
  pool : Pubkey
  tokenAMint : Pubkey
  tokenBMint : Pubkey
  fee : Pubkey
  destination : Pubkey
  deriving DecidableEq, Repr

namespace Build

/-- Creates an 'initialize' instruction. -/
def initializeSwap (programId : Pubkey) (keys : InitializeKeys) (fees : Fees)
    (swapCurve : SwapCurve)
    (redemptionRateExtraAccounts : Option RedemptionRateExtraAccounts) :
    Outcome ProgramError Instruction := do
  let data := (SwapInstruction.initializeSwap { fees, swapCurve }).pack
  let accounts : List AccountMeta := [
    .new keys.swap true,
    .newReadonly keys.authority false,
    .newReadonly keys.tokenA false,
    .newReadonly keys.tokenB false,
    .new keys.pool false,
    .newReadonly keys.tokenAMint false,
    .newReadonly keys.tokenBMint false,
    .newReadonly keys.fee false,
    .new keys.destination false,
    .newReadonly keys.tokenProgram false]
  if swapCurve.curveType = .redemptionRateCurve then do
    let extra ← Outcome.ofOption redemptionRateExtraAccounts ProgramError.invalidInstructionData
    let accounts := accounts ++ [
      .new extra.permissionAccount false,
      .newReadonly extra.authority false,
      .new extra.payer true,
      .newReadonly extra.systemProgram false]
    return { programId, accounts, data }
  else return { programId, accounts, data }

end Build

/-! ## Trades -/

/-- The addresses of a Swap. -/
structure SwapKeys : Type where
  sourceTokenProgram : Pubkey
  destinationTokenProgram : Pubkey
  poolTokenProgram : Pubkey
  swap : Pubkey
  authority : Pubkey
  userTransferAuthority : Pubkey
  source : Pubkey
  swapSource : Pubkey
  swapDestination : Pubkey
  destination : Pubkey
  poolMint : Pubkey
  poolFee : Pubkey
  sourceMint : Pubkey
  destinationMint : Pubkey
  hostFee : Option Pubkey
  deriving DecidableEq, Repr

/-- The addresses of a DepositAllTokenTypes. -/
structure DepositAllKeys : Type where
  tokenAProgram : Pubkey
  tokenBProgram : Pubkey
  poolTokenProgram : Pubkey
  swap : Pubkey
  authority : Pubkey
  userTransferAuthority : Pubkey
  depositTokenA : Pubkey
  depositTokenB : Pubkey
  swapTokenA : Pubkey
  swapTokenB : Pubkey
  poolMint : Pubkey
  destination : Pubkey
  tokenAMint : Pubkey
  tokenBMint : Pubkey
  deriving DecidableEq, Repr

/-- The addresses of a WithdrawAllTokenTypes. -/
structure WithdrawAllKeys : Type where
  poolTokenProgram : Pubkey
  tokenAProgram : Pubkey
  tokenBProgram : Pubkey
  swap : Pubkey
  authority : Pubkey
  userTransferAuthority : Pubkey
  poolMint : Pubkey
  feeAccount : Pubkey
  source : Pubkey
  swapTokenA : Pubkey
  swapTokenB : Pubkey
  destinationTokenA : Pubkey
  destinationTokenB : Pubkey
  tokenAMint : Pubkey
  tokenBMint : Pubkey
  deriving DecidableEq, Repr

/-- The addresses of a DepositSingleTokenTypeExactAmountIn. -/
structure DepositSingleKeys : Type where
  sourceTokenProgram : Pubkey
  poolTokenProgram : Pubkey
  swap : Pubkey
  authority : Pubkey
  userTransferAuthority : Pubkey
  sourceToken : Pubkey
  swapTokenA : Pubkey
  swapTokenB : Pubkey
  poolMint : Pubkey
  destination : Pubkey
  sourceMint : Pubkey
  deriving DecidableEq, Repr

/-- The addresses of a WithdrawSingleTokenTypeExactAmountOut. -/
structure WithdrawSingleKeys : Type where
  poolTokenProgram : Pubkey
  destinationTokenProgram : Pubkey
  swap : Pubkey
  authority : Pubkey
  userTransferAuthority : Pubkey
  poolMint : Pubkey
  feeAccount : Pubkey
  poolTokenSource : Pubkey
  swapTokenA : Pubkey
  swapTokenB : Pubkey
  destination : Pubkey
  destinationMint : Pubkey
  deriving DecidableEq, Repr

namespace Build

/-- Creates a 'deposit_all_token_types' instruction. -/
def depositAllTokenTypes (programId : Pubkey) (keys : DepositAllKeys)
    (instruction : DepositAllTokenTypes) : Instruction where
  programId
  accounts := [
    .newReadonly keys.swap false,
    .newReadonly keys.authority false,
    .newReadonly keys.userTransferAuthority true,
    .new keys.depositTokenA false,
    .new keys.depositTokenB false,
    .new keys.swapTokenA false,
    .new keys.swapTokenB false,
    .new keys.poolMint false,
    .new keys.destination false,
    .newReadonly keys.tokenAMint false,
    .newReadonly keys.tokenBMint false,
    .newReadonly keys.tokenAProgram false,
    .newReadonly keys.tokenBProgram false,
    .newReadonly keys.poolTokenProgram false]
  data := (SwapInstruction.depositAllTokenTypes instruction).pack

/-- Creates a 'withdraw_all_token_types' instruction. -/
def withdrawAllTokenTypes (programId : Pubkey) (keys : WithdrawAllKeys)
    (instruction : WithdrawAllTokenTypes) : Instruction where
  programId
  accounts := [
    .newReadonly keys.swap false,
    .newReadonly keys.authority false,
    .newReadonly keys.userTransferAuthority true,
    .new keys.poolMint false,
    .new keys.source false,
    .new keys.swapTokenA false,
    .new keys.swapTokenB false,
    .new keys.destinationTokenA false,
    .new keys.destinationTokenB false,
    .new keys.feeAccount false,
    .newReadonly keys.tokenAMint false,
    .newReadonly keys.tokenBMint false,
    .newReadonly keys.poolTokenProgram false,
    .newReadonly keys.tokenAProgram false,
    .newReadonly keys.tokenBProgram false]
  data := (SwapInstruction.withdrawAllTokenTypes instruction).pack

/-- Creates a 'deposit_single_token_type_exact_amount_in' instruction. -/
def depositSingleTokenTypeExactAmountIn (programId : Pubkey) (keys : DepositSingleKeys)
    (instruction : DepositSingleTokenTypeExactAmountIn) : Instruction where
  programId
  accounts := [
    .newReadonly keys.swap false,
    .newReadonly keys.authority false,
    .newReadonly keys.userTransferAuthority true,
    .new keys.sourceToken false,
    .new keys.swapTokenA false,
    .new keys.swapTokenB false,
    .new keys.poolMint false,
    .new keys.destination false,
    .newReadonly keys.sourceMint false,
    .newReadonly keys.sourceTokenProgram false,
    .newReadonly keys.poolTokenProgram false]
  data := (SwapInstruction.depositSingleTokenTypeExactAmountIn instruction).pack

/-- Creates a 'withdraw_single_token_type_exact_amount_out' instruction. -/
def withdrawSingleTokenTypeExactAmountOut (programId : Pubkey) (keys : WithdrawSingleKeys)
    (instruction : WithdrawSingleTokenTypeExactAmountOut) : Instruction where
  programId
  accounts := [
    .newReadonly keys.swap false,
    .newReadonly keys.authority false,
    .newReadonly keys.userTransferAuthority true,
    .new keys.poolMint false,
    .new keys.poolTokenSource false,
    .new keys.swapTokenA false,
    .new keys.swapTokenB false,
    .new keys.destination false,
    .new keys.feeAccount false,
    .newReadonly keys.destinationMint false,
    .newReadonly keys.poolTokenProgram false,
    .newReadonly keys.destinationTokenProgram false]
  data := (SwapInstruction.withdrawSingleTokenTypeExactAmountOut instruction).pack

/-- Creates a 'swap' instruction. -/
def swap (programId : Pubkey) (keys : SwapKeys) (instruction : Swap) : Instruction where
  programId
  accounts := [
    .newReadonly keys.swap false,
    .newReadonly keys.authority false,
    .newReadonly keys.userTransferAuthority true,
    .new keys.source false,
    .new keys.swapSource false,
    .new keys.swapDestination false,
    .new keys.destination false,
    .new keys.poolMint false,
    .new keys.poolFee false,
    .newReadonly keys.sourceMint false,
    .newReadonly keys.destinationMint false,
    .newReadonly keys.sourceTokenProgram false,
    .newReadonly keys.destinationTokenProgram false,
    .newReadonly keys.poolTokenProgram false] ++
    keys.hostFee.toList.map fun hostFee => .new hostFee false
  data := (SwapInstruction.swap instruction).pack

end Build

/-- A trade with its addresses. -/
inductive TradeOrder : Type where
  | swap (keys : SwapKeys) (data : Swap)
  | depositAllTokenTypes (keys : DepositAllKeys) (data : DepositAllTokenTypes)
  | withdrawAllTokenTypes (keys : WithdrawAllKeys) (data : WithdrawAllTokenTypes)
  | depositSingleTokenTypeExactAmountIn (keys : DepositSingleKeys)
    (data : DepositSingleTokenTypeExactAmountIn)
  | withdrawSingleTokenTypeExactAmountOut (keys : WithdrawSingleKeys)
    (data : WithdrawSingleTokenTypeExactAmountOut)
  deriving DecidableEq, Repr

namespace TradeOrder

/-- What is asked for. -/
def request : TradeOrder → SwapInstruction
  | swap _ data => .swap data
  | depositAllTokenTypes _ data => .depositAllTokenTypes data
  | withdrawAllTokenTypes _ data => .withdrawAllTokenTypes data
  | depositSingleTokenTypeExactAmountIn _ data => .depositSingleTokenTypeExactAmountIn data
  | withdrawSingleTokenTypeExactAmountOut _ data => .withdrawSingleTokenTypeExactAmountOut data

/-- The instruction of the program's own builder. -/
def build (programId : Pubkey) : TradeOrder → Instruction
  | swap keys data => Build.swap programId keys data
  | depositAllTokenTypes keys data => Build.depositAllTokenTypes programId keys data
  | withdrawAllTokenTypes keys data => Build.withdrawAllTokenTypes programId keys data
  | depositSingleTokenTypeExactAmountIn keys data =>
    Build.depositSingleTokenTypeExactAmountIn programId keys data
  | withdrawSingleTokenTypeExactAmountOut keys data =>
    Build.withdrawSingleTokenTypeExactAmountOut programId keys data

theorem isTrade_request (order : TradeOrder) : order.request.IsTrade := by
  cases order <;> exact trivial

end TradeOrder

end SolanaPsm
