import SolanaPsm.Amounts
import SolanaPsm.Constraints
import SolanaPsm.Permission

/-!
# The processors of the pool

The accounts side of `processor.rs`: which accounts an instruction accepts, and which calls
it issues for the amounts of `Amounts`.

Each trading processor checks its accounts on the ledger it finds (`prepareSwap` …) and ends
with a `PreparedTrade`: the addresses its calls name, the trade, and the balances it read.
Performing it runs the script of the trade, each movement of tokens being one call to the
token program. `process_initialize` is split the same way into its checks (`checkNewPool`)
and its calls and writes.

`PreparedTrade.perform_foreign` and `processInitialize_eq_ok` say what this does to the
accounts of the program.
-/

namespace SolanaPsm

open Bytes (toLE)

section Processor

variable [Solana]

/-! ## Reading accounts -/

/-- Unpacks a token `Account`. A token program has to own it, and where the caller expects a mint
the account has to be one of that mint. -/
def unpackTokenAccount (account : Pubkey) (expectedMint : Option Pubkey) (ledger : Ledger) :
    Outcome ProgramError TokenAccount := do
  Outcome.rejectIf ((checkSplTokenProgramAccount (ledger account).owner).isOk = false)
    (ProgramError.custom .incorrectTokenProgramId)
  let tokenAccount ← Outcome.ofOption (Solana.unpackAccount (ledger account).data)
    (ProgramError.custom .expectedAccount)
  -- optionally check if account is associated with the expected mint
  (match expectedMint with
    | some expectedMint =>
      Outcome.rejectIf (tokenAccount.mint ≠ expectedMint) (ProgramError.custom .invalidAccountMint)
    | none => .ok ())
  return tokenAccount

/-- Unpacks a token `Mint`, which a token program has to own. -/
def unpackMint (mint : Pubkey) (ledger : Ledger) : Outcome ProgramError Mint := do
  Outcome.rejectIf ((checkSplTokenProgramAccount (ledger mint).owner).isOk = false)
    (ProgramError.custom .incorrectTokenProgramId)
  Outcome.ofOption (Solana.unpackMint (ledger mint).data) (ProgramError.custom .expectedMint)

/-- Calculates the authority id by generating a program address. Not every seed gives one, so this
can fail. -/
def authorityId (myInfo : Pubkey) (bumpSeed : UInt8) : Outcome ProgramError Pubkey :=
  Outcome.ofOption (Solana.createProgramAddress [toLE 32 myInfo, [bumpSeed]] ID)
    (ProgramError.custom .invalidProgramAddress)

/-- Check if the pool fee account can receive pool tokens. A trade goes on without its fees when it
cannot, so that a closed or frozen fee account stops nobody. -/
def SwapV1.checkPoolFeeInfo (swap : SwapV1) (poolFeeInfo : Pubkey) (ledger : Ledger) :
    Outcome ProgramError Unit := do
  let tokenAccount ← Outcome.ofOption (Solana.unpackAccount (ledger poolFeeInfo).data)
    (ProgramError.custom .invalidFeeAccount)
  Outcome.rejectIf ((ledger poolFeeInfo).owner ≠ swap.tokenProgramId ∨
    tokenAccount.state ≠ .initialized ∨ tokenAccount.mint ≠ swap.poolMint)
    (ProgramError.custom .invalidFeeAccount)

/-- The current timestamp, only needed for a redemption-rate curve. The other curves are never told
the time. -/
def SwapCurve.currentTimestampOpt (curve : SwapCurve) (clock : Clock) : Option U128 :=
  match curve.curveType with
  | .redemptionRateCurve => some clock.timestamp
  | .constantProduct | .constantPrice | .offset => none

/-- The checks shared by the deposits and the withdrawals: the accounts that are listed for the pool
are those of the pool, and the user's are not its reserves. -/
def checkAccounts (tokenSwap : SwapV1) (swap authority tokenA tokenB poolMint
    poolTokenProgram : Pubkey) (userTokenA userTokenB poolFeeAccount : Option Pubkey)
    (ledger : Ledger) : Outcome ProgramError Unit := do
  Outcome.rejectIf ((ledger swap).owner ≠ ID) ProgramError.incorrectProgramId
  let swapAuthority ← authorityId swap tokenSwap.bumpSeed
  Outcome.rejectIf (authority ≠ swapAuthority) (ProgramError.custom .invalidProgramAddress)
  Outcome.rejectIf (tokenA ≠ tokenSwap.tokenA) (ProgramError.custom .incorrectSwapAccount)
  Outcome.rejectIf (tokenB ≠ tokenSwap.tokenB) (ProgramError.custom .incorrectSwapAccount)
  Outcome.rejectIf (poolMint ≠ tokenSwap.poolMint) (ProgramError.custom .incorrectPoolMint)
  Outcome.rejectIf (poolTokenProgram ≠ tokenSwap.tokenProgramId)
    (ProgramError.custom .incorrectTokenProgramId)
  Outcome.rejectIf (userTokenA = some tokenA) (ProgramError.custom .invalidInput)
  Outcome.rejectIf (userTokenB = some tokenB) (ProgramError.custom .invalidInput)
  (match poolFeeAccount with
    | some poolFeeAccount =>
      Outcome.rejectIf (poolFeeAccount ≠ tokenSwap.poolFeeAccount)
        (ProgramError.custom .incorrectFeeAccount)
    | none => .ok ())

/-! ## The calls of a trade -/

/-- The accounts the calls name for one token of the pool. A trade moves the token between the user
and the reserve. -/
structure TokenSide : Type where
  /-- the reserve of the pool -/
  reserve : Pubkey
  /-- the mint -/
  mint : Pubkey
  /-- the account of the user -/
  user : Pubkey
  /-- the token program -/
  tokenProgram : Pubkey
  deriving DecidableEq, Repr

/-- The accounts the calls of a trade name. They are fixed before the first call: whatever amounts
the script computes, its calls go to these. -/
structure TradeCalls : Type where
  /-- the pool -/
  swap : Pubkey
  /-- its bump seed -/
  bumpSeed : UInt8
  /-- its authority -/
  authority : Pubkey
  /-- the authority of the user -/
  userTransferAuthority : Pubkey
  /-- the pool mint -/
  poolMint : Pubkey
  /-- its decimals -/
  poolDecimals : UInt8
  /-- its token program -/
  poolTokenProgram : Pubkey
  /-- who signed the instruction -/
  signers : List Pubkey
  /-- the accounts of each token -/
  side : PoolToken → TokenSide
  /-- the decimals of each token: read before the first call, or when they are needed -/
  decimals : PoolToken → Ledger → Outcome ProgramError UInt8

/-- The decimals of a mint, read when they are needed. -/
def mintDecimals (mint : Pubkey) (ledger : Ledger) : Outcome ProgramError UInt8 := do
  let mint ← unpackMint mint ledger
  return mint.decimals

/-- Perform a movement of tokens: one call to the token program. -/
def TradeCalls.perform (calls : TradeCalls) (effect : PoolEffect) (ledger : Ledger) :
    Outcome ProgramError Ledger :=
  match effect with
  | .unpackMint token => do
    let _ ← calls.decimals token ledger
    return ledger
  | .unpackHostFeeAccount account => do
    let _ ← unpackTokenAccount account (some calls.poolMint) ledger
    return ledger
  | .payIn token amount => do
    let decimals ← calls.decimals token ledger
    let side := calls.side token
    tokenTransfer calls.swap side.tokenProgram side.user side.mint side.reserve
      calls.userTransferAuthority calls.bumpSeed amount decimals calls.signers ledger
  | .payOut token amount => do
    let decimals ← calls.decimals token ledger
    let side := calls.side token
    tokenTransfer calls.swap side.tokenProgram side.reserve side.mint side.user calls.authority
      calls.bumpSeed amount decimals calls.signers ledger
  | .mintTo account amount =>
    tokenMintTo calls.swap calls.poolTokenProgram calls.poolMint account calls.authority
      calls.bumpSeed amount calls.signers ledger
  | .burn account amount =>
    tokenBurn calls.swap calls.poolTokenProgram account calls.poolMint
      calls.userTransferAuthority calls.bumpSeed amount calls.signers ledger
  | .transferPool source destination amount =>
    tokenTransfer calls.swap calls.poolTokenProgram source calls.poolMint destination
      calls.userTransferAuthority calls.bumpSeed amount calls.poolDecimals calls.signers ledger

/-- A trade whose accounts have been checked. The script computes its amounts from the balances that
were read, and nothing is read again but decimals. -/
structure PreparedTrade : Type where
  /-- the accounts its calls name -/
  calls : TradeCalls
  /-- the trade -/
  trade : Trade
  /-- the fees of the pool -/
  fees : Fees
  /-- the balances that were read -/
  balances : Balances

/-- Perform a trade: the calls of its script, in order. The first call that fails ends it, and the
transaction is rolled back. -/
def PreparedTrade.perform [SplMath] (prepared : PreparedTrade) (ledger : Ledger) :
    Outcome ProgramError Ledger :=
  (prepared.trade.amounts prepared.fees prepared.balances).run prepared.calls.perform ledger

/-! ## The trading processors -/

section Trading

variable (accounts : List AccountInfo) (clock : Clock) (ledger : Ledger)

/-- The accounts of a Swap. Source and destination are listed for the user and for the pool, and the
direction of the trade is read off the pool's; a host fee account may follow. -/
def prepareSwap (instruction : Swap) : Outcome ProgramError PreparedTrade := do
  let (swapInfo, rest) ← nextAccountInfo accounts
  let (authorityInfo, rest) ← nextAccountInfo rest
  let (userTransferAuthorityInfo, rest) ← nextAccountInfo rest
  let (sourceInfo, rest) ← nextAccountInfo rest
  let (swapSourceInfo, rest) ← nextAccountInfo rest
  let (swapDestinationInfo, rest) ← nextAccountInfo rest
  let (destinationInfo, rest) ← nextAccountInfo rest
  let (poolMintInfo, rest) ← nextAccountInfo rest
  let (poolFeeAccountInfo, rest) ← nextAccountInfo rest
  let (sourceTokenMintInfo, rest) ← nextAccountInfo rest
  let (destinationTokenMintInfo, rest) ← nextAccountInfo rest
  let (sourceTokenProgramInfo, rest) ← nextAccountInfo rest
  let (destinationTokenProgramInfo, rest) ← nextAccountInfo rest
  let (poolTokenProgramInfo, rest) ← nextAccountInfo rest
  Outcome.rejectIf ((ledger swapInfo.key).owner ≠ ID) ProgramError.incorrectProgramId
  let tokenSwap ← SwapVersion.unpack (ledger swapInfo.key).data
  let swapAuthority ← authorityId swapInfo.key tokenSwap.bumpSeed
  Outcome.rejectIf (authorityInfo.key ≠ swapAuthority) (ProgramError.custom .invalidProgramAddress)
  Outcome.rejectIf (¬ (swapSourceInfo.key = tokenSwap.tokenA ∨
    swapSourceInfo.key = tokenSwap.tokenB)) (ProgramError.custom .incorrectSwapAccount)
  Outcome.rejectIf (¬ (swapDestinationInfo.key = tokenSwap.tokenA ∨
    swapDestinationInfo.key = tokenSwap.tokenB)) (ProgramError.custom .incorrectSwapAccount)
  Outcome.rejectIf (swapSourceInfo.key = swapDestinationInfo.key)
    (ProgramError.custom .invalidInput)
  Outcome.rejectIf (swapSourceInfo.key = sourceInfo.key) (ProgramError.custom .invalidInput)
  Outcome.rejectIf (swapDestinationInfo.key = destinationInfo.key)
    (ProgramError.custom .invalidInput)
  Outcome.rejectIf (poolMintInfo.key ≠ tokenSwap.poolMint) (ProgramError.custom .incorrectPoolMint)
  Outcome.rejectIf (poolFeeAccountInfo.key ≠ tokenSwap.poolFeeAccount)
    (ProgramError.custom .incorrectFeeAccount)
  Outcome.rejectIf (poolTokenProgramInfo.key ≠ tokenSwap.tokenProgramId)
    (ProgramError.custom .incorrectTokenProgramId)
  let sourceAccount ← unpackTokenAccount swapSourceInfo.key (some sourceTokenMintInfo.key) ledger
  let destAccount ← unpackTokenAccount swapDestinationInfo.key (some destinationTokenMintInfo.key)
    ledger
  let poolMint ← unpackMint poolMintInfo.key ledger
  let tradeDirection : TradeDirection :=
    if swapSourceInfo.key = tokenSwap.tokenA then .aToB else .bToA
  let source : TokenSide :=
    ⟨swapSourceInfo.key, sourceTokenMintInfo.key, sourceInfo.key, sourceTokenProgramInfo.key⟩
  let destination : TokenSide := ⟨swapDestinationInfo.key, destinationTokenMintInfo.key,
    destinationInfo.key, destinationTokenProgramInfo.key⟩
  let side := fun token => if token = tradeDirection.source then source else destination
  let balances : Balances := (match tradeDirection with
    | .aToB => ⟨sourceAccount.amount, destAccount.amount, poolMint.supply⟩
    | .bToA => ⟨destAccount.amount, sourceAccount.amount, poolMint.supply⟩)
  return {
    calls := {
      swap := swapInfo.key
      bumpSeed := tokenSwap.bumpSeed
      authority := authorityInfo.key
      userTransferAuthority := userTransferAuthorityInfo.key
      poolMint := poolMintInfo.key
      poolDecimals := poolMint.decimals
      poolTokenProgram := poolTokenProgramInfo.key
      signers := signersOf accounts
      side
      decimals := fun token _ => mintDecimals (side token).mint ledger }
    trade := {
      curve := tokenSwap.swapCurve
      timestamp := tokenSwap.swapCurve.currentTimestampOpt clock
      accounts := {
        poolFee := poolFeeAccountInfo.key
        poolFeeOk := (tokenSwap.checkPoolFeeInfo poolFeeAccountInfo.key ledger).isOk
        host := rest.head?.map (·.key) }
      instruction := .swap tradeDirection instruction }
    fees := tokenSwap.fees
    balances }

/-- The accounts of a DepositAllTokenTypes. No fee is taken, so no fee account is listed. -/
def prepareDepositAllTokenTypes (instruction : DepositAllTokenTypes) :
    Outcome ProgramError PreparedTrade := do
  let (swapInfo, rest) ← nextAccountInfo accounts
  let (authorityInfo, rest) ← nextAccountInfo rest
  let (userTransferAuthorityInfo, rest) ← nextAccountInfo rest
  let (sourceAInfo, rest) ← nextAccountInfo rest
  let (sourceBInfo, rest) ← nextAccountInfo rest
  let (tokenAInfo, rest) ← nextAccountInfo rest
  let (tokenBInfo, rest) ← nextAccountInfo rest
  let (poolMintInfo, rest) ← nextAccountInfo rest
  let (destInfo, rest) ← nextAccountInfo rest
  let (tokenAMintInfo, rest) ← nextAccountInfo rest
  let (tokenBMintInfo, rest) ← nextAccountInfo rest
  let (tokenAProgramInfo, rest) ← nextAccountInfo rest
  let (tokenBProgramInfo, rest) ← nextAccountInfo rest
  let (poolTokenProgramInfo, _) ← nextAccountInfo rest
  let tokenSwap ← SwapVersion.unpack (ledger swapInfo.key).data
  Outcome.rejectIf (tokenSwap.swapCurve.calculator.allowsDeposits = false)
    (ProgramError.custom .unsupportedCurveOperation)
  checkAccounts tokenSwap swapInfo.key authorityInfo.key tokenAInfo.key tokenBInfo.key
    poolMintInfo.key poolTokenProgramInfo.key (some sourceAInfo.key) (some sourceBInfo.key) none
    ledger
  let tokenA ← unpackTokenAccount tokenAInfo.key (some tokenAMintInfo.key) ledger
  let tokenB ← unpackTokenAccount tokenBInfo.key (some tokenBMintInfo.key) ledger
  let poolMint ← unpackMint poolMintInfo.key ledger
  let side : PoolToken → TokenSide := fun token => (match token with
    | .a => ⟨tokenAInfo.key, tokenAMintInfo.key, sourceAInfo.key, tokenAProgramInfo.key⟩
    | .b => ⟨tokenBInfo.key, tokenBMintInfo.key, sourceBInfo.key, tokenBProgramInfo.key⟩)
  return {
    calls := {
      swap := swapInfo.key
      bumpSeed := tokenSwap.bumpSeed
      authority := authorityInfo.key
      userTransferAuthority := userTransferAuthorityInfo.key
      poolMint := poolMintInfo.key
      poolDecimals := poolMint.decimals
      poolTokenProgram := poolTokenProgramInfo.key
      signers := signersOf accounts
      side
      decimals := fun token => mintDecimals (side token).mint }
    trade := {
      curve := tokenSwap.swapCurve
      timestamp := tokenSwap.swapCurve.currentTimestampOpt clock
      -- no fee is minted
      accounts := { poolFee := tokenSwap.poolFeeAccount, poolFeeOk := false, host := none }
      instruction := .depositAllTokenTypes destInfo.key instruction }
    fees := tokenSwap.fees
    balances := ⟨tokenA.amount, tokenB.amount, poolMint.supply⟩ }

/-- The accounts of a WithdrawAllTokenTypes. The withdraw fee goes to the fee account of the pool,
which has to be listed. -/
def prepareWithdrawAllTokenTypes (instruction : WithdrawAllTokenTypes) :
    Outcome ProgramError PreparedTrade := do
  let (swapInfo, rest) ← nextAccountInfo accounts
  let (authorityInfo, rest) ← nextAccountInfo rest
  let (userTransferAuthorityInfo, rest) ← nextAccountInfo rest
  let (poolMintInfo, rest) ← nextAccountInfo rest
  let (sourceInfo, rest) ← nextAccountInfo rest
  let (tokenAInfo, rest) ← nextAccountInfo rest
  let (tokenBInfo, rest) ← nextAccountInfo rest
  let (destTokenAInfo, rest) ← nextAccountInfo rest
  let (destTokenBInfo, rest) ← nextAccountInfo rest
  let (poolFeeAccountInfo, rest) ← nextAccountInfo rest
  let (tokenAMintInfo, rest) ← nextAccountInfo rest
  let (tokenBMintInfo, rest) ← nextAccountInfo rest
  let (poolTokenProgramInfo, rest) ← nextAccountInfo rest
  let (tokenAProgramInfo, rest) ← nextAccountInfo rest
  let (tokenBProgramInfo, _) ← nextAccountInfo rest
  let tokenSwap ← SwapVersion.unpack (ledger swapInfo.key).data
  checkAccounts tokenSwap swapInfo.key authorityInfo.key tokenAInfo.key tokenBInfo.key
    poolMintInfo.key poolTokenProgramInfo.key (some destTokenAInfo.key) (some destTokenBInfo.key)
    (some poolFeeAccountInfo.key) ledger
  let tokenA ← unpackTokenAccount tokenAInfo.key (some tokenAMintInfo.key) ledger
  let tokenB ← unpackTokenAccount tokenBInfo.key (some tokenBMintInfo.key) ledger
  let poolMint ← unpackMint poolMintInfo.key ledger
  let side : PoolToken → TokenSide := fun token => (match token with
    | .a => ⟨tokenAInfo.key, tokenAMintInfo.key, destTokenAInfo.key, tokenAProgramInfo.key⟩
    | .b => ⟨tokenBInfo.key, tokenBMintInfo.key, destTokenBInfo.key, tokenBProgramInfo.key⟩)
  return {
    calls := {
      swap := swapInfo.key
      bumpSeed := tokenSwap.bumpSeed
      authority := authorityInfo.key
      userTransferAuthority := userTransferAuthorityInfo.key
      poolMint := poolMintInfo.key
      poolDecimals := poolMint.decimals
      poolTokenProgram := poolTokenProgramInfo.key
      signers := signersOf accounts
      side
      decimals := fun token => mintDecimals (side token).mint }
    trade := {
      curve := tokenSwap.swapCurve
      timestamp := tokenSwap.swapCurve.currentTimestampOpt clock
      accounts := {
        poolFee := poolFeeAccountInfo.key
        poolFeeOk := (tokenSwap.checkPoolFeeInfo poolFeeAccountInfo.key ledger).isOk
        host := none }
      instruction := .withdrawAllTokenTypes sourceInfo.key instruction }
    fees := tokenSwap.fees
    balances := ⟨tokenA.amount, tokenB.amount, poolMint.supply⟩ }

/-- The side of the pool an account of a mint trades on. An account of another mint is refused. -/
def directionOf (mint tokenAMint tokenBMint : Pubkey) : Outcome ProgramError TradeDirection :=
  if mint = tokenAMint then .ok .aToB
  else if mint = tokenBMint then .ok .bToA
  else .err (.custom .incorrectSwapAccount)

/-- The user's account where it is on the side of token A, and where on that of token B. -/
def userAccounts (tradeDirection : TradeDirection) (user : Pubkey) :
    Option Pubkey × Option Pubkey :=
  match tradeDirection with
  | .aToB => (some user, none)
  | .bToA => (none, some user)

/-- The accounts of a DepositSingleTokenTypeExactAmountIn. The fee account of the pool and one of a
host may be listed at the end; the owner fee stays in the pool when they are not. -/
def prepareDepositSingleTokenTypeExactAmountIn
    (instruction : DepositSingleTokenTypeExactAmountIn) : Outcome ProgramError PreparedTrade := do
  let (swapInfo, rest) ← nextAccountInfo accounts
  let (authorityInfo, rest) ← nextAccountInfo rest
  let (userTransferAuthorityInfo, rest) ← nextAccountInfo rest
  let (sourceInfo, rest) ← nextAccountInfo rest
  let (swapTokenAInfo, rest) ← nextAccountInfo rest
  let (swapTokenBInfo, rest) ← nextAccountInfo rest
  let (poolMintInfo, rest) ← nextAccountInfo rest
  let (destinationInfo, rest) ← nextAccountInfo rest
  let (sourceTokenMintInfo, rest) ← nextAccountInfo rest
  let (sourceTokenProgramInfo, rest) ← nextAccountInfo rest
  let (poolTokenProgramInfo, rest) ← nextAccountInfo rest
  let poolFeeAccount : Option Pubkey := rest.head?.map (·.key)
  let hostFeeAccount : Option Pubkey := rest.tail.head?.map (·.key)
  let tokenSwap ← SwapVersion.unpack (ledger swapInfo.key).data
  Outcome.rejectIf (tokenSwap.swapCurve.calculator.allowsDeposits = false)
    (ProgramError.custom .unsupportedCurveOperation)
  let sourceAccount ← unpackTokenAccount sourceInfo.key (some sourceTokenMintInfo.key) ledger
  let swapTokenA ← unpackTokenAccount swapTokenAInfo.key (some tokenSwap.tokenAMint) ledger
  let swapTokenB ← unpackTokenAccount swapTokenBInfo.key (some tokenSwap.tokenBMint) ledger
  let tradeDirection ← directionOf sourceAccount.mint swapTokenA.mint swapTokenB.mint
  let users := userAccounts tradeDirection sourceInfo.key
  checkAccounts tokenSwap swapInfo.key authorityInfo.key swapTokenAInfo.key swapTokenBInfo.key
    poolMintInfo.key poolTokenProgramInfo.key users.1 users.2 poolFeeAccount ledger
  let poolMint ← unpackMint poolMintInfo.key ledger
  let side : PoolToken → TokenSide := fun token => (match token with
    | .a => ⟨swapTokenAInfo.key, sourceTokenMintInfo.key, sourceInfo.key,
        sourceTokenProgramInfo.key⟩
    | .b => ⟨swapTokenBInfo.key, sourceTokenMintInfo.key, sourceInfo.key,
        sourceTokenProgramInfo.key⟩)
  return {
    calls := {
      swap := swapInfo.key
      bumpSeed := tokenSwap.bumpSeed
      authority := authorityInfo.key
      userTransferAuthority := userTransferAuthorityInfo.key
      poolMint := poolMintInfo.key
      poolDecimals := poolMint.decimals
      poolTokenProgram := poolTokenProgramInfo.key
      signers := signersOf accounts
      side
      decimals := fun token => mintDecimals (side token).mint }
    trade := {
      curve := tokenSwap.swapCurve
      timestamp := tokenSwap.swapCurve.currentTimestampOpt clock
      accounts := {
        poolFee := poolFeeAccount.getD tokenSwap.poolFeeAccount
        poolFeeOk := poolFeeAccount.any fun account =>
          (tokenSwap.checkPoolFeeInfo account ledger).isOk
        host := hostFeeAccount }
      instruction :=
        .depositSingleTokenTypeExactAmountIn tradeDirection destinationInfo.key instruction }
    fees := tokenSwap.fees
    balances := ⟨swapTokenA.amount, swapTokenB.amount, poolMint.supply⟩ }

/-- The accounts of a WithdrawSingleTokenTypeExactAmountOut. The fee account of the pool has to be
listed, and one of a host may be. -/
def prepareWithdrawSingleTokenTypeExactAmountOut
    (instruction : WithdrawSingleTokenTypeExactAmountOut) :
    Outcome ProgramError PreparedTrade := do
  let (swapInfo, rest) ← nextAccountInfo accounts
  let (authorityInfo, rest) ← nextAccountInfo rest
  let (userTransferAuthorityInfo, rest) ← nextAccountInfo rest
  let (poolMintInfo, rest) ← nextAccountInfo rest
  let (sourceInfo, rest) ← nextAccountInfo rest
  let (swapTokenAInfo, rest) ← nextAccountInfo rest
  let (swapTokenBInfo, rest) ← nextAccountInfo rest
  let (destinationInfo, rest) ← nextAccountInfo rest
  let (poolFeeAccountInfo, rest) ← nextAccountInfo rest
  let (destinationTokenMintInfo, rest) ← nextAccountInfo rest
  let (poolTokenProgramInfo, rest) ← nextAccountInfo rest
  let (destinationTokenProgramInfo, rest) ← nextAccountInfo rest
  let tokenSwap ← SwapVersion.unpack (ledger swapInfo.key).data
  let destinationAccount ← unpackTokenAccount destinationInfo.key
    (some destinationTokenMintInfo.key) ledger
  let swapTokenA ← unpackTokenAccount swapTokenAInfo.key (some tokenSwap.tokenAMint) ledger
  let swapTokenB ← unpackTokenAccount swapTokenBInfo.key (some tokenSwap.tokenBMint) ledger
  let tradeDirection ← directionOf destinationAccount.mint swapTokenA.mint swapTokenB.mint
  let users := userAccounts tradeDirection destinationInfo.key
  checkAccounts tokenSwap swapInfo.key authorityInfo.key swapTokenAInfo.key swapTokenBInfo.key
    poolMintInfo.key poolTokenProgramInfo.key users.1 users.2 (some poolFeeAccountInfo.key) ledger
  let poolMint ← unpackMint poolMintInfo.key ledger
  let side : PoolToken → TokenSide := fun token => (match token with
    | .a => ⟨swapTokenAInfo.key, destinationTokenMintInfo.key, destinationInfo.key,
        destinationTokenProgramInfo.key⟩
    | .b => ⟨swapTokenBInfo.key, destinationTokenMintInfo.key, destinationInfo.key,
        destinationTokenProgramInfo.key⟩)
  return {
    calls := {
      swap := swapInfo.key
      bumpSeed := tokenSwap.bumpSeed
      authority := authorityInfo.key
      userTransferAuthority := userTransferAuthorityInfo.key
      poolMint := poolMintInfo.key
      poolDecimals := poolMint.decimals
      poolTokenProgram := poolTokenProgramInfo.key
      signers := signersOf accounts
      side
      decimals := fun token => mintDecimals (side token).mint }
    trade := {
      curve := tokenSwap.swapCurve
      timestamp := tokenSwap.swapCurve.currentTimestampOpt clock
      accounts := {
        poolFee := poolFeeAccountInfo.key
        poolFeeOk := (tokenSwap.checkPoolFeeInfo poolFeeAccountInfo.key ledger).isOk
        host := rest.head?.map (·.key) }
      instruction :=
        .withdrawSingleTokenTypeExactAmountOut tradeDirection sourceInfo.key instruction }
    fees := tokenSwap.fees
    balances := ⟨swapTokenA.amount, swapTokenB.amount, poolMint.supply⟩ }

variable [SplMath]

/-- Processes a Swap: the accounts are checked, then the script of the trade makes its calls. -/
def processSwap (instruction : Swap) : Outcome ProgramError Ledger := do
  let prepared ← prepareSwap accounts clock ledger instruction
  prepared.perform ledger

/-- Processes a DepositAllTokenTypes, in the same two parts. -/
def processDepositAllTokenTypes (instruction : DepositAllTokenTypes) :
    Outcome ProgramError Ledger := do
  let prepared ← prepareDepositAllTokenTypes accounts clock ledger instruction
  prepared.perform ledger

/-- Processes a WithdrawAllTokenTypes, in the same two parts. -/
def processWithdrawAllTokenTypes (instruction : WithdrawAllTokenTypes) :
    Outcome ProgramError Ledger := do
  let prepared ← prepareWithdrawAllTokenTypes accounts clock ledger instruction
  prepared.perform ledger

/-- Processes a DepositSingleTokenTypeExactAmountIn, in the same two parts. -/
def processDepositSingleTokenTypeExactAmountIn
    (instruction : DepositSingleTokenTypeExactAmountIn) : Outcome ProgramError Ledger := do
  let prepared ← prepareDepositSingleTokenTypeExactAmountIn accounts clock ledger instruction
  prepared.perform ledger

/-- Processes a WithdrawSingleTokenTypeExactAmountOut, in the same two parts. -/
def processWithdrawSingleTokenTypeExactAmountOut
    (instruction : WithdrawSingleTokenTypeExactAmountOut) : Outcome ProgramError Ledger := do
  let prepared ← prepareWithdrawSingleTokenTypeExactAmountOut accounts clock ledger instruction
  prepared.perform ledger

end Trading

/-- A trade calls the token program only, so none of its movements touches a pool or a record. -/
theorem TradeCalls.perform_foreign {calls : TradeCalls} {effect : PoolEffect} {l l' : Ledger}
    (h : calls.perform effect l = .ok l') : l.Foreign l' := by
  cases effect with
  | unpackMint | unpackHostFeeAccount =>
    obtain ⟨_, -, h⟩ := Outcome.bind_eq_ok.mp h
    obtain rfl := Outcome.ok.inj h
    exact .refl l
  | payIn token amount =>
    obtain ⟨_, -, h⟩ := Outcome.bind_eq_ok.mp h
    exact foreign_of_tokenTransfer h
  | payOut token amount =>
    obtain ⟨_, -, h⟩ := Outcome.bind_eq_ok.mp h
    exact foreign_of_tokenTransfer h
  | mintTo account amount => exact foreign_of_tokenMintTo h
  | burn account amount => exact foreign_of_tokenBurn h
  | transferPool source destination amount => exact foreign_of_tokenTransfer h

/-- A performed trade leaves the accounts of the program alone. -/
theorem PreparedTrade.perform_foreign [SplMath] {prepared : PreparedTrade} {l l' : Ledger}
    (h : prepared.perform l = .ok l') : l.Foreign l' := by
  obtain ⟨log, _, -, hlog⟩ := Script.run_eq_ok.mp h
  exact Script.performAll_invariant (P := Ledger.Foreign) .refl .trans
    (fun _ _ _ _ hcall => TradeCalls.perform_foreign hcall) hlog

/-! ## A new pool -/

/-- The accounts an Initialize starts with. What comes after them is for the record of a super
admin. -/
structure InitializeAccounts : Type where
  swap : Pubkey
  authority : Pubkey
  tokenA : Pubkey
  tokenB : Pubkey
  poolMint : Pubkey
  tokenAMint : Pubkey
  tokenBMint : Pubkey
  feeAccount : Pubkey
  destination : Pubkey
  poolTokenProgram : Pubkey
  /-- the accounts not read yet -/
  rest : List AccountInfo
  deriving DecidableEq, Repr

/-- Read the accounts of an Initialize. The source takes ten off its list before it looks at any of
them. -/
def initializeAccounts (accounts : List AccountInfo) : Outcome ProgramError InitializeAccounts := do
  let (swapInfo, rest) ← nextAccountInfo accounts
  let (authorityInfo, rest) ← nextAccountInfo rest
  let (tokenAInfo, rest) ← nextAccountInfo rest
  let (tokenBInfo, rest) ← nextAccountInfo rest
  let (poolMintInfo, rest) ← nextAccountInfo rest
  let (tokenAMintInfo, rest) ← nextAccountInfo rest
  let (tokenBMintInfo, rest) ← nextAccountInfo rest
  let (feeAccountInfo, rest) ← nextAccountInfo rest
  let (destinationInfo, rest) ← nextAccountInfo rest
  let (poolTokenProgramInfo, rest) ← nextAccountInfo rest
  return {
    swap := swapInfo.key
    authority := authorityInfo.key
    tokenA := tokenAInfo.key
    tokenB := tokenBInfo.key
    poolMint := poolMintInfo.key
    tokenAMint := tokenAMintInfo.key
    tokenBMint := tokenBMintInfo.key
    feeAccount := feeAccountInfo.key
    destination := destinationInfo.key
    poolTokenProgram := poolTokenProgramInfo.key
    rest }

/-- What an Initialize finds in its accounts. The checks and the stored pool are computed from it.
-/
structure NewPool : Type where
  /-- the bump seed of the authority -/
  bumpSeed : UInt8
  /-- the reserves -/
  tokenA : TokenAccount
  tokenB : TokenAccount
  /-- the fee account -/
  feeAccount : TokenAccount
  /-- the account of the initial supply -/
  destination : TokenAccount
  /-- the pool mint -/
  poolMint : Mint
  /-- the mints of the reserves -/
  tokenAMint : Mint
  tokenBMint : Mint
  deriving DecidableEq, Repr

/-- Unpack the accounts of an account that is not in use yet. -/
def readNewPool (accounts : InitializeAccounts) (ledger : Ledger) :
    Outcome ProgramError NewPool := do
  Outcome.rejectIf (SwapVersion.isInitialized (ledger accounts.swap).data = true)
    (ProgramError.custom .alreadyInUse)
  let (swapAuthority, bumpSeed) := Solana.findProgramAddress [toLE 32 accounts.swap] ID
  Outcome.rejectIf (accounts.authority ≠ swapAuthority) (ProgramError.custom .invalidProgramAddress)
  let tokenA ← unpackTokenAccount accounts.tokenA (some accounts.tokenAMint) ledger
  let tokenB ← unpackTokenAccount accounts.tokenB (some accounts.tokenBMint) ledger
  let feeAccount ← unpackTokenAccount accounts.feeAccount (some accounts.poolMint) ledger
  let destination ← unpackTokenAccount accounts.destination (some accounts.poolMint) ledger
  let poolMint ← unpackMint accounts.poolMint ledger
  validateMintExtensions (ledger accounts.poolMint).data true
  let tokenAMint ← unpackMint accounts.tokenAMint ledger
  validateMintExtensions (ledger accounts.tokenAMint).data false
  let tokenBMint ← unpackMint accounts.tokenBMint ledger
  validateMintExtensions (ledger accounts.tokenBMint).data false
  return {
    bumpSeed, tokenA, tokenB, feeAccount, destination, poolMint, tokenAMint, tokenBMint }

/-- Seed for the owner of the initial supply: `b"init_destination"`. The program never signs with
it, so the initial supply cannot be moved. -/
def INIT_DESTINATION_SEED : Bytes :=
  [105, 110, 105, 116, 95, 100, 101, 115, 116, 105, 110, 97, 116, 105, 111, 110]

/-- The checks of an Initialize before its first call: who owns the accounts, who else could take
from them, and whether the curve and the fees are admitted. -/
def checkNewPool (swapConstraints : Option SwapConstraints) (instruction : Initialize)
    (accounts : InitializeAccounts) (pool : NewPool) (clock : Clock) (ledger : Ledger) :
    Outcome ProgramError Unit := do
  Outcome.rejectIf (accounts.authority ≠ pool.tokenA.owner) (ProgramError.custom .invalidOwner)
  Outcome.rejectIf (accounts.authority ≠ pool.tokenB.owner) (ProgramError.custom .invalidOwner)
  -- owner of destination account (initial lp supply)
  let destinationOwnerPda :=
    (Solana.findProgramAddress [INIT_DESTINATION_SEED, toLE 32 accounts.swap] ID).1
  Outcome.rejectIf ((ledger accounts.swap).owner ≠ ID) ProgramError.invalidAccountOwner
  Outcome.rejectIf (destinationOwnerPda ≠ pool.destination.owner)
    (ProgramError.custom .invalidOutputOwner)
  Outcome.rejectIf (accounts.authority = pool.feeAccount.owner)
    (ProgramError.custom .invalidOutputOwner)
  Outcome.rejectIf (some accounts.authority ≠ pool.poolMint.mintAuthority)
    (ProgramError.custom .invalidOwner)
  Outcome.rejectIf (pool.tokenA.mint = pool.tokenB.mint) (ProgramError.custom .repeatedMint)
  liftSwapError
    (instruction.swapCurve.calculator.validateSupply pool.tokenA.amount pool.tokenB.amount)
  Outcome.rejectIf (pool.tokenA.delegate.isSome = true) (ProgramError.custom .invalidDelegate)
  Outcome.rejectIf (pool.tokenB.delegate.isSome = true) (ProgramError.custom .invalidDelegate)
  Outcome.rejectIf (pool.tokenA.closeAuthority.isSome = true)
    (ProgramError.custom .invalidCloseAuthority)
  Outcome.rejectIf (pool.tokenB.closeAuthority.isSome = true)
    (ProgramError.custom .invalidCloseAuthority)
  Outcome.rejectIf (pool.poolMint.supply ≠ 0#64) (ProgramError.custom .invalidSupply)
  Outcome.rejectIf (accounts.poolMint ≠ pool.feeAccount.mint)
    (ProgramError.custom .incorrectPoolMint)
  Outcome.rejectIf (pool.tokenA.mint = accounts.poolMint ∨ pool.tokenB.mint = accounts.poolMint)
    (ProgramError.custom .incorrectPoolMint)
  Outcome.rejectIf (pool.poolMint.freezeAuthority.isSome = true)
    (ProgramError.custom .invalidFreezeAuthority)
  (match swapConstraints with
    | some swapConstraints => do
      swapConstraints.validateOwner pool.feeAccount.owner
      swapConstraints.validateCurve instruction.swapCurve
      swapConstraints.validateFees instruction.fees
    | none => .ok ())
  liftSwapError instruction.fees.validate
  let timestampOpt := instruction.swapCurve.currentTimestampOpt clock
  liftSwapError (instruction.swapCurve.calculator.validate timestampOpt)

/-- A redemption-rate pool starts with a record of its super admin. -/
def createSuperAdmin (accounts : InitializeAccounts) (pool : NewPool) (signers : List Pubkey)
    (ledger : Ledger) : Outcome ProgramError Ledger := do
  -- both mints must have the same decimals
  Outcome.rejectIf (pool.tokenAMint.decimals ≠ pool.tokenBMint.decimals)
    (ProgramError.custom .mismatchedMintDecimals)
  let (permissionInfo, rest) ← nextAccountInfo accounts.rest
  let (superAdminInfo, rest) ← nextAccountInfo rest
  let (payerInfo, rest) ← nextAccountInfo rest
  let (systemProgramInfo, _) ← nextAccountInfo rest
  let ledger ← createPermissionAccount payerInfo permissionInfo systemProgramInfo accounts.swap
    superAdminInfo.key signers ledger
  let permission : Permission := {
    isInitialized := true
    swap := accounts.swap
    authority := superAdminInfo.key
    isSuperAdmin := true
    canUpdateParameters := true }
  let data ← permission.pack (ledger permissionInfo.key).data
  return ledger.write permissionInfo.key data

/-- The pool that is stored. Its mints are those the reserves hold, which the accounts that were
listed agree with. -/
def newPoolState (accounts : InitializeAccounts) (pool : NewPool) (instruction : Initialize) :
    SwapV1 where
  isInitialized := true
  bumpSeed := pool.bumpSeed
  tokenProgramId := accounts.poolTokenProgram
  tokenA := accounts.tokenA
  tokenB := accounts.tokenB
  poolMint := accounts.poolMint
  tokenAMint := pool.tokenA.mint
  tokenBMint := pool.tokenB.mint
  poolFeeAccount := accounts.feeAccount
  fees := instruction.fees
  swapCurve := instruction.swapCurve

/-- Processes an Initialize: the initial supply is minted, a redemption-rate pool gets its super
admin, and the pool is stored. -/
def processInitialize (swapConstraints : Option SwapConstraints) (instruction : Initialize)
    (accounts : List AccountInfo) (clock : Clock) (ledger : Ledger) :
    Outcome ProgramError Ledger := do
  let infos ← initializeAccounts accounts
  let pool ← readNewPool infos ledger
  checkNewPool swapConstraints instruction infos pool clock ledger
  let initialAmount ← toU64 instruction.swapCurve.calculator.newPoolSupply
  let ledger ← tokenMintTo infos.swap infos.poolTokenProgram infos.poolMint infos.destination
    infos.authority pool.bumpSeed initialAmount (signersOf accounts) ledger
  let ledger ← (if instruction.swapCurve.curveType = .redemptionRateCurve then
      createSuperAdmin infos pool (signersOf accounts) ledger
    else .ok ledger)
  let data ← SwapVersion.pack (newPoolState infos pool instruction) (ledger infos.swap).data
  return ledger.write infos.swap data

end Processor

/-! ## What Initialize does -/

/-- The account of the pool comes first, as for every instruction. -/
theorem initializeAccounts_eq_ok {accounts : List AccountInfo} {infos : InitializeAccounts}
    (h : initializeAccounts accounts = .ok infos) :
    ∃ swap rest, accounts = swap :: rest ∧ infos.swap = swap.key := by
  simp only [initializeAccounts, Outcome.bind_eq_ok, Prod.exists, nextAccountInfo_eq_ok,
    Outcome.pure_eq, Outcome.ok.injEq] at h
  obtain ⟨swap, rest, haccounts, _, _, -, _, _, -, _, _, -, _, _, -, _, _, -, _, _, -, _, _, -,
    _, _, -, _, _, -, rfl⟩ := h
  exact ⟨swap, rest, haccounts, rfl⟩

/-- Ten accounts are read; a shorter list is refused before anything else is. -/
theorem initializeAccounts_cases (accounts : List AccountInfo) :
    (10 ≤ accounts.length ∧ ∃ infos, initializeAccounts accounts = .ok infos) ∨
    (accounts.length < 10 ∧ initializeAccounts accounts = .err .notEnoughAccountKeys) := by
  rcases accounts with _ | ⟨_, _ | ⟨_, _ | ⟨_, _ | ⟨_, _ | ⟨_, _ | ⟨_, _ | ⟨_, _ | ⟨_, _ | ⟨_,
    _ | ⟨_, rest⟩⟩⟩⟩⟩⟩⟩⟩⟩⟩
  case cons.cons.cons.cons.cons.cons.cons.cons.cons.cons =>
    exact .inl ⟨Nat.le_add_left 10 rest.length, _, rfl⟩
  all_goals exact .inr ⟨of_decide_eq_true rfl, rfl⟩

variable [Solana]

/-- An account in use is refused. This is what keeps a pool from being created again. -/
theorem readNewPool_of_initialized {infos : InitializeAccounts} {l : Ledger}
    (h : SwapVersion.isInitialized (l infos.swap).data = true) :
    readNewPool infos l = .err (.custom .alreadyInUse) := by
  rw [readNewPool, Outcome.rejectIf_of h, Outcome.err_bind]

/-- The accounts that are read are those of an account that is not in use. -/
theorem readNewPool_eq_ok {infos : InitializeAccounts} {pool : NewPool} {l : Ledger}
    (h : readNewPool infos l = .ok pool) :
    SwapVersion.isInitialized (l infos.swap).data = false := by
  obtain ⟨_, hunused, -⟩ := Outcome.bind_eq_ok.mp h
  rwa [Outcome.rejectIf_eq_ok, Bool.not_eq_true] at hunused

/-- The checks include those of the amounts of a new pool. -/
theorem checkNewPool_eq_ok {swapConstraints : Option SwapConstraints} {instruction : Initialize}
    {infos : InitializeAccounts} {pool : NewPool} {clock : Clock} {l : Ledger} {u : Unit}
    (h : checkNewPool swapConstraints instruction infos pool clock l = .ok u)
    {initialAmount : U64}
    (hamount : toU64 instruction.swapCurve.calculator.newPoolSupply = .ok initialAmount) :
    (l infos.swap).owner = ID ∧
    (Amounts.initializePool instruction.swapCurve instruction.fees
      (instruction.swapCurve.currentTimestampOpt clock)
      ⟨pool.tokenA.amount, pool.tokenB.amount, pool.poolMint.supply⟩ infos.destination).Returns
      [.mintTo infos.destination initialAmount] () := by
  simp only [checkNewPool, Outcome.bind_eq_ok, Outcome.rejectIf_eq_ok, exists_const,
    liftSwapError_eq_ok, not_not] at h
  obtain ⟨-, -, howner, -, -, -, -, _, hamounts, -, -, -, -, hsupply, -, -, -, _, -, _, hfees,
    hcurve⟩ := h
  refine ⟨howner, ?_⟩
  simp only [Amounts.initializePool, Script.returns_lift_bind, Amounts.returns_reject_bind,
    liftSwapError_eq_ok, Script.returns_emit]
  exact ⟨(), hamounts, not_not.mpr hsupply, (), hfees, (), hcurve, initialAmount, hamount, rfl⟩

/-- A new super admin is recorded. Both rights are given, and the record is for this pool. -/
theorem createSuperAdmin_eq_ok {infos : InitializeAccounts} {pool : NewPool}
    {signers : List Pubkey} {l l' : Ledger} (h : createSuperAdmin infos pool signers l = .ok l') :
    ∃ key authority, Recorded l l' key ⟨true, infos.swap, authority, true, true⟩ := by
  simp only [createSuperAdmin, Outcome.bind_eq_ok, Prod.exists, nextAccountInfo_eq_ok,
    Outcome.rejectIf_eq_ok, exists_const, Outcome.pure_eq, Outcome.ok.injEq] at h
  obtain ⟨-, permission, _, -, admin, _, -, payer, _, -, system, _, -, l₁, hcreate, data, hpack,
    rfl⟩ := h
  obtain ⟨haddress, hvacant, hcreated⟩ := createPermissionAccount_placed hcreate
  exact ⟨permission.key, admin.key, rfl, haddress, hvacant, hcreated.record hpack⟩

/-- A new pool: the initial supply is minted, a redemption-rate pool gets a super admin, and
the pool is stored. -/
structure PoolCreated (l l₁ l₂ l' : Ledger) (swap : Pubkey) (state : SwapV1) : Prop where
  /-- the account is the program's -/
  owner : (l swap).owner = ID
  /-- it was not in use -/
  unused : SwapVersion.isInitialized (l swap).data = false
  /-- it has the length of a pool -/
  length : (l swap).data.length = SwapVersion.LATEST_LEN
  /-- the token program is called -/
  minted : l.Foreign l₁
  /-- one record may be created -/
  admin : l₂ = l₁ ∨ ∃ key authority, Recorded l₁ l₂ key ⟨true, swap, authority, true, true⟩
  /-- nothing else is touched -/
  placed : l₂.Placed l' swap ID (l' swap).data
  /-- the pool is read back -/
  stored : SwapVersion.unpack (l' swap).data = .ok state

/-- Spec of Initialize. Later proofs about a new pool start here and do not open the processor. -/
theorem processInitialize_eq_ok {swapConstraints : Option SwapConstraints}
    {instruction : Initialize} (hwell : instruction.swapCurve.WellFormed)
    {accounts : List AccountInfo} {clock : Clock} {l l' : Ledger}
    (h : processInitialize swapConstraints instruction accounts clock l = .ok l') :
    ∃ swap rest l₁ l₂ state, accounts = swap :: rest ∧ PoolCreated l l₁ l₂ l' swap.key state ∧
      state.swapCurve = instruction.swapCurve ∧ state.fees = instruction.fees ∧
      ∃ balances destination initialAmount,
        (Amounts.initializePool instruction.swapCurve instruction.fees
          (instruction.swapCurve.currentTimestampOpt clock) balances destination).Returns
          [.mintTo destination initialAmount] () := by
  simp only [processInitialize, Outcome.bind_eq_ok, Outcome.pure_eq, Outcome.ok.injEq] at h
  obtain ⟨infos, hinfos, pool, hpool, _, hcheck, initialAmount, hamount, l₁, hmint, l₂, hadmin,
    data, hpack, rfl⟩ := h
  obtain ⟨swap, rest, haccounts, hswap⟩ := initializeAccounts_eq_ok hinfos
  obtain ⟨howner, hamounts⟩ := checkNewPool_eq_ok hcheck hamount
  have hminted : l.Foreign l₁ := foreign_of_tokenMintTo hmint
  have hadmin' : l₂ = l₁ ∨
      ∃ key authority, Recorded l₁ l₂ key ⟨true, infos.swap, authority, true, true⟩ := by
    split at hadmin
    · exact .inr (createSuperAdmin_eq_ok hadmin)
    · exact .inl (Outcome.ok.inj hadmin).symm
  -- neither the token program nor the record touches the account of the pool
  have hsame₁ : l.SameAt l₁ infos.swap := hminted.kept howner
  have hsame₂ : l.SameAt l₂ infos.swap := by
    rcases hadmin' with rfl | ⟨key, authority, hrecorded⟩
    · exact hsame₁
    · have hne := Ledger.ne_of_owned hrecorded.vacant (hsame₁.1.trans howner)
      exact hsame₁.trans (hrecorded.placed.frame hne)
  have hplaced := Ledger.Placed.write data (hsame₂.1.trans howner)
  have hlength := (SwapVersion.pack_eq_ok.mp hpack).1
  rw [hsame₂.2] at hlength
  have hunused := readNewPool_eq_ok hpool
  rw [hswap] at hplaced howner hlength hunused hadmin'
  refine ⟨swap, rest, l₁, l₂, newPoolState infos pool instruction, haccounts,
    ⟨howner, hunused, hlength, hminted, hadmin', ?_, ?_⟩, rfl, rfl, _, _, _, hamounts⟩
  · rw [hswap, hplaced.data]
    exact hplaced
  · rw [hswap, hplaced.data]
    exact SwapVersion.unpack_pack rfl hwell hpack

end SolanaPsm
