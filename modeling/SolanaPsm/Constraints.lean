import SolanaPsm.Accounts

/-!
# Constraints

What a production build demands of new pools, and the extensions a mint may have
(`constraints.rs`).
-/

namespace SolanaPsm

/-- Fee constraints of a production build. -/
structure SwapConstraints : Type where
  /-- the key that must own the fee account: the outcome of parsing it, where it is given -/
  ownerKey : Option (Option Pubkey)
  /-- valid curve types -/
  validCurveTypes : List CurveType
  /-- valid fees -/
  fees : Fees
  deriving DecidableEq, Repr

namespace SwapConstraints

/-- Checks that the fee account has the owner of the constraints; a missing key aborts. -/
def validateOwner (constraints : SwapConstraints) (feeAccountOwner : Pubkey) :
    Outcome ProgramError Unit :=
  match constraints.ownerKey with
  | none => .panic
  | some ownerKey => do
    let ownerKey ← Outcome.ofOption ownerKey (ProgramError.custom .invalidOwner)
    Outcome.rejectIf (feeAccountOwner ≠ ownerKey) (ProgramError.custom .invalidOwner)

/-- Checks that the provided curve is valid for the given constraints. -/
def validateCurve (constraints : SwapConstraints) (swapCurve : SwapCurve) :
    Outcome ProgramError Unit :=
  Outcome.rejectIf (swapCurve.curveType ∉ constraints.validCurveTypes)
    (ProgramError.custom .unsupportedCurveType)

/-- Checks that the provided fees are valid for the given constraints. -/
def validateFees (constraints : SwapConstraints) (fees : Fees) : Outcome ProgramError Unit :=
  Outcome.rejectIf (¬ (constraints.fees.tradeFeeNumerator ≤ fees.tradeFeeNumerator ∧
      fees.tradeFeeDenominator = constraints.fees.tradeFeeDenominator ∧
      constraints.fees.ownerTradeFeeNumerator ≤ fees.ownerTradeFeeNumerator ∧
      fees.ownerTradeFeeDenominator = constraints.fees.ownerTradeFeeDenominator ∧
      constraints.fees.ownerWithdrawFeeNumerator ≤ fees.ownerWithdrawFeeNumerator ∧
      fees.ownerWithdrawFeeDenominator = constraints.fees.ownerWithdrawFeeDenominator ∧
      fees.hostFeeNumerator = constraints.fees.hostFeeNumerator ∧
      fees.hostFeeDenominator = constraints.fees.hostFeeDenominator))
    (ProgramError.custom .invalidFee)

end SwapConstraints

/-- Extensions a pool mint may have. -/
def VALID_POOL_MINT_EXTENSIONS : List ExtensionType :=
  [.confidentialTransferMint, .metadataPointer, .tokenMetadata]

/-- Extensions a mint of token A or B may have. -/
def VALID_TOKEN_A_B_EXTENSIONS : List ExtensionType :=
  [.confidentialTransferMint, .mintCloseAuthority, .metadataPointer, .tokenMetadata]

/-- Ensures the mint doesn't carry any disallowed extensions. -/
def validateMintExtensions [Solana] (data : Bytes) (isPoolMint : Bool) :
    Outcome ProgramError Unit := do
  let extensions ← Solana.extensionTypes data
  let validExtensions :=
    if isPoolMint then VALID_POOL_MINT_EXTENSIONS else VALID_TOKEN_A_B_EXTENSIONS
  Outcome.rejectIf (∃ e ∈ extensions, e ∉ validExtensions)
    (ProgramError.custom .unsupportedTokenExtension)

end SolanaPsm
