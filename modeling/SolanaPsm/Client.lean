import SolanaPsm.Builders

/-!
# The client

The JavaScript client (`js/src/index.ts`): how it reads a pool (`TokenSwapLayout`,
`loadTokenSwap`), and the instructions it builds. It encodes data and lists accounts on its own,
not through the builders of the program's crate; the trades but Swap carry eight more bytes for
a referral code.
-/

namespace SolanaPsm

open Bytes (toLE ofLE slice)

/-! ## Reading a pool -/

/-- A pool as its bytes say. -/
structure RawTokenSwap : Type where
  version : UInt8
  isInitialized : UInt8
  bumpSeed : UInt8
  poolTokenProgramId : Pubkey
  tokenAccountA : Pubkey
  tokenAccountB : Pubkey
  tokenPool : Pubkey
  mintA : Pubkey
  mintB : Pubkey
  feeAccount : Pubkey
  /-- the eight numbers of the fees -/
  fees : Fees
  curveType : UInt8
  curveParameters : Bytes
  deriving DecidableEq, Repr

namespace TokenSwapLayout

/-- The bytes the layout covers. -/
def span : ℕ := 356

/-- Decode a buffer; a short one throws, and bytes behind the layout are ignored. -/
def decode (b : Bytes) : Option RawTokenSwap :=
  if b.length < span then none
  else some {
    version := (slice 0 1 b).headD 0
    isInitialized := (slice 1 1 b).headD 0
    bumpSeed := (slice 2 1 b).headD 0
    poolTokenProgramId := ofLE 32 (slice 3 32 b)
    tokenAccountA := ofLE 32 (slice 35 32 b)
    tokenAccountB := ofLE 32 (slice 67 32 b)
    tokenPool := ofLE 32 (slice 99 32 b)
    mintA := ofLE 32 (slice 131 32 b)
    mintB := ofLE 32 (slice 163 32 b)
    feeAccount := ofLE 32 (slice 195 32 b)
    fees := {
      tradeFeeNumerator := ofLE 8 (slice 227 8 b)
      tradeFeeDenominator := ofLE 8 (slice 235 8 b)
      ownerTradeFeeNumerator := ofLE 8 (slice 243 8 b)
      ownerTradeFeeDenominator := ofLE 8 (slice 251 8 b)
      ownerWithdrawFeeNumerator := ofLE 8 (slice 259 8 b)
      ownerWithdrawFeeDenominator := ofLE 8 (slice 267 8 b)
      hostFeeNumerator := ofLE 8 (slice 275 8 b)
      hostFeeDenominator := ofLE 8 (slice 283 8 b) }
    curveType := (slice 291 1 b).headD 0
    curveParameters := slice 292 64 b }

end TokenSwapLayout

/-- A program to exchange tokens against a pool of liquidity. -/
structure TokenSwap : Type where
  tokenSwap : Pubkey
  swapProgramId : Pubkey
  poolTokenProgramId : Pubkey
  poolToken : Pubkey
  feeAccount : Pubkey
  authority : Pubkey
  tokenAccountA : Pubkey
  tokenAccountB : Pubkey
  mintA : Pubkey
  mintB : Pubkey
  fees : Fees
  curveType : UInt8
  deriving DecidableEq, Repr

namespace TokenSwap

/-- The data of an account of the program; any other account throws, as a missing one does. -/
def loadAccount (ledger : Ledger) (address programId : Pubkey) : Option Bytes :=
  if (ledger address).owner = programId then some (ledger address).data else none

/-- Load a pool; `none` where the client throws. -/
def loadTokenSwap [Solana] (ledger : Ledger) (address programId : Pubkey) : Option TokenSwap := do
  let data ← loadAccount ledger address programId
  let tokenSwapData ← TokenSwapLayout.decode data
  if tokenSwapData.isInitialized = 0 then none
  else
    let (authority, _) := Solana.findProgramAddress [toLE 32 address] programId
    return {
      tokenSwap := address
      swapProgramId := programId
      poolTokenProgramId := tokenSwapData.poolTokenProgramId
      poolToken := tokenSwapData.tokenPool
      feeAccount := tokenSwapData.feeAccount
      authority
      tokenAccountA := tokenSwapData.tokenAccountA
      tokenAccountB := tokenSwapData.tokenAccountB
      mintA := tokenSwapData.mintA
      mintB := tokenSwapData.mintB
      fees := tokenSwapData.fees
      curveType := tokenSwapData.curveType }

/-! ## Creating a pool -/

/-- The object for a pool, from what it is created with. -/
def ofKeys (swapProgramId : Pubkey) (keys : InitializeKeys) (fees : Fees) (curveType : UInt8) :
    TokenSwap where
  tokenSwap := keys.swap
  swapProgramId
  poolTokenProgramId := keys.tokenProgram
  poolToken := keys.pool
  feeAccount := keys.fee
  authority := keys.authority
  tokenAccountA := keys.tokenA
  tokenAccountB := keys.tokenB
  mintA := keys.tokenAMint
  mintB := keys.tokenBMint
  fees
  curveType

/-- The parameters of a curve in 64 bytes: longer ones are cut, shorter ones filled with
zeros. -/
def packCurveParameters (curveParameters : Bytes) : Bytes :=
  curveParameters.take 64 ++ List.replicate (64 - curveParameters.length) 0

/-- The instruction that initializes a pool. The accounts for the permission record of a super
admin are always listed. -/
def createInitSwapInstruction [Solana] (swapProgramId : Pubkey) (keys : InitializeKeys)
    (fees : Fees) (curveType : UInt8) (curveParameters : Bytes) (superAdmin payer : Pubkey) :
    Instruction :=
  let (permissionAccount, _) := Solana.findProgramAddress
    [PERMISSION_SEED, toLE 32 keys.swap, toLE 32 superAdmin] swapProgramId
  { programId := swapProgramId
    accounts := [
      ⟨keys.swap, false, true⟩,
      ⟨keys.authority, false, false⟩,
      ⟨keys.tokenA, false, false⟩,
      ⟨keys.tokenB, false, false⟩,
      ⟨keys.pool, false, true⟩,
      ⟨keys.tokenAMint, false, false⟩,
      ⟨keys.tokenBMint, false, false⟩,
      ⟨keys.fee, false, false⟩,
      ⟨keys.destination, false, true⟩,
      ⟨keys.tokenProgram, false, false⟩,
      -- authority pda (super admin)
      ⟨permissionAccount, false, true⟩,
      -- pubkey associated with authority
      ⟨superAdmin, false, false⟩,
      ⟨payer, true, true⟩,
      -- system program for creating authority pda
      ⟨SYSTEM_PROGRAM_ID, false, false⟩]
    data := 0 :: (
      toLE 8 fees.tradeFeeNumerator ++
      toLE 8 fees.tradeFeeDenominator ++
      toLE 8 fees.ownerTradeFeeNumerator ++
      toLE 8 fees.ownerTradeFeeDenominator ++
      toLE 8 fees.ownerWithdrawFeeNumerator ++
      toLE 8 fees.ownerWithdrawFeeDenominator ++
      toLE 8 fees.hostFeeNumerator ++
      toLE 8 fees.hostFeeDenominator ++
      [curveType] ++
      packCurveParameters curveParameters) }

/-- Create a new pool: the object that is returned, and the instruction that is sent after the
account has been allocated. The payer becomes the super admin. -/
def createTokenSwap [Solana] (swapProgramId : Pubkey) (keys : InitializeKeys) (fees : Fees)
    (curveType : UInt8) (curveParameters : Bytes) (payer : Pubkey) : TokenSwap × Instruction :=
  (ofKeys swapProgramId keys fees curveType,
    createInitSwapInstruction swapProgramId keys fees curveType curveParameters payer payer)

/-! ## Trades -/

/-- No referral code. -/
def referralCode : Bytes := List.replicate 8 0

/-- The instruction of a swap. -/
def swapInstruction (swapProgramId : Pubkey) (keys : SwapKeys) (data : Swap) : Instruction where
  programId := swapProgramId
  accounts := [
    ⟨keys.swap, false, false⟩,
    ⟨keys.authority, false, false⟩,
    ⟨keys.userTransferAuthority, true, false⟩,
    ⟨keys.source, false, true⟩,
    ⟨keys.swapSource, false, true⟩,
    ⟨keys.swapDestination, false, true⟩,
    ⟨keys.destination, false, true⟩,
    ⟨keys.poolMint, false, true⟩,
    ⟨keys.poolFee, false, true⟩,
    ⟨keys.sourceMint, false, false⟩,
    ⟨keys.destinationMint, false, false⟩,
    ⟨keys.sourceTokenProgram, false, false⟩,
    ⟨keys.destinationTokenProgram, false, false⟩,
    ⟨keys.poolTokenProgram, false, false⟩] ++
    keys.hostFee.toList.map fun hostFeeAccount => ⟨hostFeeAccount, false, true⟩
  data := 1 :: (toLE 8 data.amountIn ++ toLE 8 data.minimumAmountOut)

/-- The instruction of a deposit of both tokens. -/
def depositAllTokenTypesInstruction (swapProgramId : Pubkey) (keys : DepositAllKeys)
    (data : DepositAllTokenTypes) : Instruction where
  programId := swapProgramId
  accounts := [
    ⟨keys.swap, false, false⟩,
    ⟨keys.authority, false, false⟩,
    ⟨keys.userTransferAuthority, true, false⟩,
    ⟨keys.depositTokenA, false, true⟩,
    ⟨keys.depositTokenB, false, true⟩,
    ⟨keys.swapTokenA, false, true⟩,
    ⟨keys.swapTokenB, false, true⟩,
    ⟨keys.poolMint, false, true⟩,
    ⟨keys.destination, false, true⟩,
    ⟨keys.tokenAMint, false, false⟩,
    ⟨keys.tokenBMint, false, false⟩,
    ⟨keys.tokenAProgram, false, false⟩,
    ⟨keys.tokenBProgram, false, false⟩,
    ⟨keys.poolTokenProgram, false, false⟩]
  data := 2 :: (toLE 8 data.poolTokenAmount ++ toLE 8 data.maximumTokenAAmount ++
    toLE 8 data.maximumTokenBAmount ++ referralCode)

/-- The instruction of a withdrawal of both tokens. -/
def withdrawAllTokenTypesInstruction (swapProgramId : Pubkey) (keys : WithdrawAllKeys)
    (data : WithdrawAllTokenTypes) : Instruction where
  programId := swapProgramId
  accounts := [
    ⟨keys.swap, false, false⟩,
    ⟨keys.authority, false, false⟩,
    ⟨keys.userTransferAuthority, true, false⟩,
    ⟨keys.poolMint, false, true⟩,
    ⟨keys.source, false, true⟩,
    ⟨keys.swapTokenA, false, true⟩,
    ⟨keys.swapTokenB, false, true⟩,
    ⟨keys.destinationTokenA, false, true⟩,
    ⟨keys.destinationTokenB, false, true⟩,
    ⟨keys.feeAccount, false, true⟩,
    ⟨keys.tokenAMint, false, false⟩,
    ⟨keys.tokenBMint, false, false⟩,
    ⟨keys.poolTokenProgram, false, false⟩,
    ⟨keys.tokenAProgram, false, false⟩,
    ⟨keys.tokenBProgram, false, false⟩]
  data := 3 :: (toLE 8 data.poolTokenAmount ++ toLE 8 data.minimumTokenAAmount ++
    toLE 8 data.minimumTokenBAmount ++ referralCode)

/-- The instruction of a deposit of one token. -/
def depositSingleTokenTypeExactAmountInInstruction (swapProgramId : Pubkey)
    (keys : DepositSingleKeys) (data : DepositSingleTokenTypeExactAmountIn) : Instruction where
  programId := swapProgramId
  accounts := [
    ⟨keys.swap, false, false⟩,
    ⟨keys.authority, false, false⟩,
    ⟨keys.userTransferAuthority, true, false⟩,
    ⟨keys.sourceToken, false, true⟩,
    ⟨keys.swapTokenA, false, true⟩,
    ⟨keys.swapTokenB, false, true⟩,
    ⟨keys.poolMint, false, true⟩,
    ⟨keys.destination, false, true⟩,
    ⟨keys.sourceMint, false, false⟩,
    ⟨keys.sourceTokenProgram, false, false⟩,
    ⟨keys.poolTokenProgram, false, false⟩]
  data := 4 :: (toLE 8 data.sourceTokenAmount ++ toLE 8 data.minimumPoolTokenAmount ++
    referralCode)

/-- The instruction of a withdrawal of one token. -/
def withdrawSingleTokenTypeExactAmountOutInstruction (swapProgramId : Pubkey)
    (keys : WithdrawSingleKeys) (data : WithdrawSingleTokenTypeExactAmountOut) :
    Instruction where
  programId := swapProgramId
  accounts := [
    ⟨keys.swap, false, false⟩,
    ⟨keys.authority, false, false⟩,
    ⟨keys.userTransferAuthority, true, false⟩,
    ⟨keys.poolMint, false, true⟩,
    ⟨keys.poolTokenSource, false, true⟩,
    ⟨keys.swapTokenA, false, true⟩,
    ⟨keys.swapTokenB, false, true⟩,
    ⟨keys.destination, false, true⟩,
    ⟨keys.feeAccount, false, true⟩,
    ⟨keys.destinationMint, false, false⟩,
    ⟨keys.poolTokenProgram, false, false⟩,
    ⟨keys.destinationTokenProgram, false, false⟩]
  data := 5 :: (toLE 8 data.destinationTokenAmount ++ toLE 8 data.maximumPoolTokenAmount ++
    referralCode)

end TokenSwap

namespace TradeOrder

/-- The instruction of the client. -/
def clientInstruction (programId : Pubkey) : TradeOrder → Instruction
  | swap keys data => TokenSwap.swapInstruction programId keys data
  | depositAllTokenTypes keys data => TokenSwap.depositAllTokenTypesInstruction programId keys data
  | withdrawAllTokenTypes keys data =>
    TokenSwap.withdrawAllTokenTypesInstruction programId keys data
  | depositSingleTokenTypeExactAmountIn keys data =>
    TokenSwap.depositSingleTokenTypeExactAmountInInstruction programId keys data
  | withdrawSingleTokenTypeExactAmountOut keys data =>
    TokenSwap.withdrawSingleTokenTypeExactAmountOutInstruction programId keys data

end TradeOrder

namespace TokenSwap

/-- A trade method of the object, with the accounts and the amounts its caller picks. -/
inductive Method : Type where
  | swap (userSource poolSource poolDestination userDestination sourceMint destinationMint
    sourceTokenProgramId destinationTokenProgramId : Pubkey) (hostFeeAccount : Option Pubkey)
    (data : Swap)
  | depositAllTokenTypes (userAccountA userAccountB poolAccount tokenProgramIdA
    tokenProgramIdB : Pubkey) (data : DepositAllTokenTypes)
  | withdrawAllTokenTypes (userAccountA userAccountB poolAccount tokenProgramIdA
    tokenProgramIdB : Pubkey) (data : WithdrawAllTokenTypes)
  | depositSingleTokenTypeExactAmountIn (userAccount poolAccount sourceMint
    sourceTokenProgramId : Pubkey) (data : DepositSingleTokenTypeExactAmountIn)
  | withdrawSingleTokenTypeExactAmountOut (userAccount poolAccount destinationMint
    destinationTokenProgramId : Pubkey) (data : WithdrawSingleTokenTypeExactAmountOut)
  deriving DecidableEq, Repr

/-- The addresses a method passes on: those of the pool come from the object. -/
def order (pool : TokenSwap) (userTransferAuthority : Pubkey) : Method → TradeOrder
  | .swap userSource poolSource poolDestination userDestination sourceMint destinationMint
      sourceTokenProgramId destinationTokenProgramId hostFeeAccount data =>
    .swap {
      sourceTokenProgram := sourceTokenProgramId
      destinationTokenProgram := destinationTokenProgramId
      poolTokenProgram := pool.poolTokenProgramId
      swap := pool.tokenSwap
      authority := pool.authority
      userTransferAuthority
      source := userSource
      swapSource := poolSource
      swapDestination := poolDestination
      destination := userDestination
      poolMint := pool.poolToken
      poolFee := pool.feeAccount
      sourceMint
      destinationMint
      hostFee := hostFeeAccount } data
  | .depositAllTokenTypes userAccountA userAccountB poolAccount tokenProgramIdA tokenProgramIdB
      data =>
    .depositAllTokenTypes {
      tokenAProgram := tokenProgramIdA
      tokenBProgram := tokenProgramIdB
      poolTokenProgram := pool.poolTokenProgramId
      swap := pool.tokenSwap
      authority := pool.authority
      userTransferAuthority
      depositTokenA := userAccountA
      depositTokenB := userAccountB
      swapTokenA := pool.tokenAccountA
      swapTokenB := pool.tokenAccountB
      poolMint := pool.poolToken
      destination := poolAccount
      tokenAMint := pool.mintA
      tokenBMint := pool.mintB } data
  | .withdrawAllTokenTypes userAccountA userAccountB poolAccount tokenProgramIdA tokenProgramIdB
      data =>
    .withdrawAllTokenTypes {
      poolTokenProgram := pool.poolTokenProgramId
      tokenAProgram := tokenProgramIdA
      tokenBProgram := tokenProgramIdB
      swap := pool.tokenSwap
      authority := pool.authority
      userTransferAuthority
      poolMint := pool.poolToken
      feeAccount := pool.feeAccount
      source := poolAccount
      swapTokenA := pool.tokenAccountA
      swapTokenB := pool.tokenAccountB
      destinationTokenA := userAccountA
      destinationTokenB := userAccountB
      tokenAMint := pool.mintA
      tokenBMint := pool.mintB } data
  | .depositSingleTokenTypeExactAmountIn userAccount poolAccount sourceMint sourceTokenProgramId
      data =>
    .depositSingleTokenTypeExactAmountIn {
      sourceTokenProgram := sourceTokenProgramId
      poolTokenProgram := pool.poolTokenProgramId
      swap := pool.tokenSwap
      authority := pool.authority
      userTransferAuthority
      sourceToken := userAccount
      swapTokenA := pool.tokenAccountA
      swapTokenB := pool.tokenAccountB
      poolMint := pool.poolToken
      destination := poolAccount
      sourceMint } data
  | .withdrawSingleTokenTypeExactAmountOut userAccount poolAccount destinationMint
      destinationTokenProgramId data =>
    .withdrawSingleTokenTypeExactAmountOut {
      poolTokenProgram := pool.poolTokenProgramId
      destinationTokenProgram := destinationTokenProgramId
      swap := pool.tokenSwap
      authority := pool.authority
      userTransferAuthority
      poolMint := pool.poolToken
      feeAccount := pool.feeAccount
      poolTokenSource := poolAccount
      swapTokenA := pool.tokenAccountA
      swapTokenB := pool.tokenAccountB
      destination := userAccount
      destinationMint } data

end TokenSwap

end SolanaPsm
