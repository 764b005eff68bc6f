import SolanaPsm.Outcome

/-!
# Errors

`SwapError` is the program's own error enumeration, in the order that fixes its
numeric codes. `ProgramError` keeps the runtime's error values the program
returns itself, with `custom` carrying a `SwapError`.
-/

namespace SolanaPsm

/-- Errors that may be returned by the token-swap program. -/
inductive SwapError : Type where
  | alreadyInUse
  | invalidProgramAddress
  | invalidOwner
  | invalidOutputOwner
  | expectedMint
  | expectedAccount
  | emptySupply
  | invalidSupply
  | invalidDelegate
  | invalidInput
  | incorrectSwapAccount
  | incorrectPoolMint
  | invalidOutput
  | calculationFailure
  | invalidInstruction
  | repeatedMint
  | exceededSlippage
  | invalidCloseAuthority
  | invalidFreezeAuthority
  | incorrectFeeAccount
  | zeroTradingTokens
  | feeCalculationFailure
  | conversionFailure
  | invalidFee
  | incorrectTokenProgramId
  | unsupportedCurveType
  | invalidCurve
  | unsupportedCurveOperation
  | invalidFeeAccount
  | missingTimestamp
  | invalidRho
  | invalidSsr
  | invalidChi
  | invalidPermissionAddress
  | invalidUpdatePermission
  | invalidRay
  | unsupportedTokenExtension
  | mismatchedMintDecimals
  | invalidAccountMint
  deriving DecidableEq, Repr

/-- Errors of an instruction: the runtime's own, or a `SwapError`. -/
inductive ProgramError : Type where
  /-- the numeric code of a `SwapError` -/
  | custom : SwapError → ProgramError
  | invalidInstructionData
  | invalidAccountData
  | uninitializedAccount
  | incorrectProgramId
  | missingRequiredSignature
  | accountAlreadyInitialized
  | notEnoughAccountKeys
  | illegalOwner
  | arithmeticOverflow
  | invalidAccountOwner
  /-- an error raised inside a called program -/
  | external : Nat → ProgramError
  deriving DecidableEq, Repr

/-- `From<SwapError> for ProgramError`, applied by `?`. -/
def liftSwapError {α : Type} (x : Outcome SwapError α) : Outcome ProgramError α :=
  x.mapErr .custom

@[simp] theorem liftSwapError_eq_ok {α : Type} {x : Outcome SwapError α} {a : α} :
    liftSwapError x = .ok a ↔ x = .ok a := Outcome.mapErr_eq_ok

@[simp] theorem noPanic_liftSwapError {α : Type} {x : Outcome SwapError α} :
    (liftSwapError x).NoPanic ↔ x.NoPanic := Outcome.noPanic_mapErr

end SolanaPsm
