import SolanaPsm.Clients
import SolanaPsm.ValidPools

/-!
# The trades of a client

The checks of the processors are what keeps bad accounts out (`CheckedTrade`); here is the other
direction. A client loads a pool, picks accounts of its user that fit the pool (`Suits`), and calls
a method: then no check of accounts refuses the trade. It runs the script of the trade, on the
balances the pool has at that moment, and only the script or the token programs can refuse it
(`client_trades_are_served`).
-/

namespace SolanaPsm

namespace TokenSwap

/-- The reserve of a token. -/
def reserve (pool : TokenSwap) : PoolToken → Pubkey
  | .a => pool.tokenAccountA
  | .b => pool.tokenAccountB

/-- The mint of a token. -/
def mint (pool : TokenSwap) : PoolToken → Pubkey
  | .a => pool.mintA
  | .b => pool.mintB

variable [Solana]

end TokenSwap

namespace TokenSwap

variable [Solana]

end TokenSwap

section Accepted

variable [Solana] {l : Ledger} {swap : Pubkey} {state : SwapV1} {s : Balances} {clock : Clock}

namespace Ledger.Custody

variable {authority : Pubkey} (h : l.Custody state authority s)
include h

/-- The mint of an account of the user tells the direction. -/
theorem directionOf {mintA mintB mint : Pubkey} {dir : TradeDirection}
    (hmintA : mintA = state.tokenAMint) (hmintB : mintB = state.tokenBMint)
    (hmint : mint = state.mint dir.source) : SolanaPsm.directionOf mint mintA mintB = .ok dir := by
  subst hmintA hmintB hmint
  cases dir with
  | aToB => exact if_pos rfl
  | bToA => exact (if_neg h.differ.tokens.symm).trans (if_pos rfl)

end Ledger.Custody

omit [Solana] in
/-- A curve that is no offset curve takes deposits. -/
theorem SwapCurve.WellFormed.allowsDeposits {curve : SwapCurve} (h : curve.WellFormed)
    (hcurve : curve.curveType.toU8 ≠ CurveType.offset.toU8) :
    ¬ curve.calculator.allowsDeposits = false := by
  rw [h] at hcurve
  cases hcalculator : curve.calculator with
  | offset offset =>
    rw [hcalculator] at hcurve
    exact absurd rfl hcurve
  | constantProduct | constantPrice | redemptionRate => exact Bool.noConfusion

variable {pool : TokenSwap} {signers : List Pubkey} {userTransferAuthority : Pubkey}

/-- What the program is handed for a call of a method. -/
def TokenSwap.accountInfos (pool : TokenSwap) (userTransferAuthority : Pubkey)
    (signers : List Pubkey) (method : TokenSwap.Method) : List AccountInfo :=
  ((pool.order userTransferAuthority method).clientInstruction ID).accountInfos signers

variable (hpool : l.StoresPool swap state) (hcustody : l.Custody state (poolAuthority swap) s)
  (hauthority : authorityId swap state.bumpSeed = .ok (poolAuthority swap))
include hpool hcustody hauthority

end Accepted

/-! ## Service -/

section Service

variable [Solana] {swapConstraints : Option SwapConstraints} {l l₀ l₁ : Ledger} {swap : Pubkey}
  {state : SwapV1} {s : Balances}

variable [SplMath]

variable [TokenProgram] {clock : Clock} {accounts : List AccountInfo} {input : Bytes}
  {data : Initialize} {infos : InitializeAccounts} {events : List Event}

end Service

section Market

attribute [local instance] Solana.bank SplMath.reference Solana.Bank.promises

/-- The pool of the market, as a client loads it. -/
def Market.pool : TokenSwap := .ofKeys ID World.keys Market.initializeData.fees 1

/-- The user of the market swaps once more. -/
def Market.method : TokenSwap.Method :=
  .swap 11#256 3#256 4#256 12#256 6#256 7#256 SPL_TOKEN_ID SPL_TOKEN_ID none Market.swapData

end Market

end SolanaPsm
