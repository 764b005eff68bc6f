import SolanaPsm.Processor
import SolanaPsm.RateProcessor
import SolanaPsm.Transition

/-!
# The program

Dispatch of an instruction to its processor (`processor.rs`), and the program in the world:
a `Step` is a successful instruction, with any accounts and any input, or anything other
programs do. A failed instruction leaves no trace.

`Effect` says once what a successful instruction can do to the accounts of the program.
The trading instructions do nothing to them; the other four write one or two accounts.
-/

namespace SolanaPsm

/-- A trading instruction. -/
def SwapInstruction.IsTrade : SwapInstruction → Prop
  | swap _ | depositAllTokenTypes _ | withdrawAllTokenTypes _
  | depositSingleTokenTypeExactAmountIn _ | withdrawSingleTokenTypeExactAmountOut _ => True
  | initializeSwap _ | setRates _ | initializePermission _ | updatePermission _ => False

section Program

variable [Solana] [SplMath] (swapConstraints : Option SwapConstraints)

/-- Processes a decoded instruction. -/
def processInstruction (accounts : List AccountInfo) (instruction : SwapInstruction)
    (clock : Clock) (ledger : Ledger) : Outcome ProgramError Ledger :=
  match instruction with
  | .initializeSwap data => processInitialize swapConstraints data accounts clock ledger
  | .swap data => processSwap accounts clock ledger data
  | .depositAllTokenTypes data => processDepositAllTokenTypes accounts clock ledger data
  | .withdrawAllTokenTypes data => processWithdrawAllTokenTypes accounts clock ledger data
  | .depositSingleTokenTypeExactAmountIn data =>
    processDepositSingleTokenTypeExactAmountIn accounts clock ledger data
  | .withdrawSingleTokenTypeExactAmountOut data =>
    processWithdrawSingleTokenTypeExactAmountOut accounts clock ledger data
  | .setRates data => processCurveUpdate accounts data clock ledger
  | .initializePermission data => processInitializePermission accounts data ledger
  | .updatePermission data => processUpdatePermission accounts data ledger

/-- Processes an instruction given extra constraints. -/
def processWithConstraints (accounts : List AccountInfo) (input : Bytes) (clock : Clock)
    (ledger : Ledger) : Outcome ProgramError Ledger := do
  let instruction ← SwapInstruction.unpack input
  processInstruction swapConstraints accounts instruction clock ledger

/-- A decoded input goes to its processor. -/
theorem processWithConstraints_of_unpack {accounts : List AccountInfo} {input : Bytes}
    {instruction : SwapInstruction} (hunpack : SwapInstruction.unpack input = .ok instruction)
    (clock : Clock) (ledger : Ledger) :
    processWithConstraints swapConstraints accounts input clock ledger =
      processInstruction swapConstraints accounts instruction clock ledger := by
  rw [processWithConstraints, hunpack, Outcome.ok_bind]

/-! ## What an instruction does -/

/-- What a successful instruction does to the accounts of the program. -/
inductive Effect (accounts : List AccountInfo) (clock : Clock) (l l' : Ledger) :
    SwapInstruction → Prop where
  /-- Initialize stores the pool it names, which was not in use -/
  | initialized {data : Initialize} {swap : AccountInfo} {rest : List AccountInfo}
      {l₁ l₂ : Ledger} {state : SwapV1} (haccounts : accounts = swap :: rest)
      (hcreated : PoolCreated l l₁ l₂ l' swap.key state) :
      Effect accounts clock l l' (.initializeSwap data)
  /-- SetRates changes the rates of the pool it names -/
  | ratesSet {data : SetRates} {swap permission signer : AccountInfo} {rest : List AccountInfo}
      {state : SwapV1} {curve curve' : RedemptionRateCurve}
      (haccounts : accounts = swap :: permission :: signer :: rest)
      (hsigner : signer.isSigner = true)
      (hpermits : l.Permits swap.key signer.key Permission.canUpdateParameters)
      (hset : RatesSet l l' swap.key data clock state curve curve') :
      Effect accounts clock l l' (.setRates data)
  /-- InitializePermission adds a record of the pool it names -/
  | recorded {data : InitializePermission} {swap permission target signer : AccountInfo}
      {rest : List AccountInfo}
      (haccounts : accounts = swap :: permission :: target :: signer :: rest)
      (hsigner : signer.isSigner = true)
      (hpermits : l.Permits swap.key signer.key Permission.isSuperAdmin)
      (hrecorded : Recorded l l' target.key ⟨true, swap.key, data.permissionAuthority,
        data.isSuperAdmin, data.canUpdateParameters⟩) :
      Effect accounts clock l l' (.initializePermission data)
  /-- UpdatePermission changes the flags of a record of the pool it names -/
  | reflagged {data : UpdatePermission} {swap permission target signer : AccountInfo}
      {rest : List AccountInfo} {record : Permission}
      (haccounts : accounts = swap :: permission :: target :: signer :: rest)
      (hsigner : signer.isSigner = true)
      (hpermits : l.Permits swap.key signer.key Permission.isSuperAdmin)
      (hpool : record.swap = swap.key)
      (hreflagged : Reflagged l l' target.key record data.isSuperAdmin data.canUpdateParameters) :
      Effect accounts clock l l' (.updatePermission data)
  /-- a trade calls other programs only -/
  | traded {instruction : SwapInstruction} (htrade : instruction.IsTrade)
      (hforeign : l.Foreign l') : Effect accounts clock l l' instruction

variable {swapConstraints} {accounts : List AccountInfo} {clock : Clock} {l l' : Ledger}

/-- Every successful instruction has its effect. -/
theorem processInstruction_effect {instruction : SwapInstruction} (hwell : instruction.WellFormed)
    (h : processInstruction swapConstraints accounts instruction clock l = .ok l') :
    Effect accounts clock l l' instruction := by
  cases instruction with
  | initializeSwap data =>
    obtain ⟨swap, rest, l₁, l₂, state, haccounts, hcreated, -⟩ := processInitialize_eq_ok hwell h
    exact .initialized haccounts hcreated
  | setRates data =>
    obtain ⟨swap, permission, signer, rest, haccounts, hsigner, hpermits, state, curve, curve',
      hset⟩ := processCurveUpdate_eq_ok h
    exact .ratesSet haccounts hsigner hpermits hset
  | initializePermission data =>
    obtain ⟨swap, permission, target, signer, rest, haccounts, hsigner, hpermits, hrecorded⟩ :=
      processInitializePermission_eq_ok h
    exact .recorded haccounts hsigner hpermits hrecorded
  | updatePermission data =>
    obtain ⟨swap, permission, target, signer, rest, haccounts, hsigner, hpermits, record, hpool,
      hreflagged⟩ := processUpdatePermission_eq_ok h
    exact .reflagged haccounts hsigner hpermits hpool hreflagged
  | swap | depositAllTokenTypes | withdrawAllTokenTypes | depositSingleTokenTypeExactAmountIn
  | withdrawSingleTokenTypeExactAmountOut =>
    obtain ⟨prepared, -, h⟩ := Outcome.bind_eq_ok.mp h
    exact .traded trivial (PreparedTrade.perform_foreign h)

/-! ## Runs -/

/-- What can happen: an instruction to the program, or the work of other programs. -/
inductive Event : Type where
  /-- an instruction, with the clock, the accounts and the input of its transaction -/
  | instruction (clock : Clock) (accounts : List AccountInfo) (input : Bytes)
  /-- other programs -/
  | foreign
  deriving DecidableEq, Repr

variable (swapConstraints) in
/-- One event: the instruction succeeds, or other programs do what they can. -/
def Step (l : Ledger) (event : Event) (l' : Ledger) : Prop :=
  match event with
  | .instruction clock accounts input =>
    processWithConstraints swapConstraints accounts input clock l = .ok l'
  | .foreign => l.Foreign l'

/-- An event is the work of other programs or a decoded instruction with its effect. -/
theorem step_cases {event : Event} (h : Step swapConstraints l event l') :
    (event = .foreign ∧ l.Foreign l') ∨
    ∃ clock accounts input instruction, event = .instruction clock accounts input ∧
      SwapInstruction.unpack input = .ok instruction ∧ Effect accounts clock l l' instruction := by
  cases event with
  | foreign => exact .inl ⟨rfl, h⟩
  | instruction clock accounts input =>
    obtain ⟨instruction, hunpack, h⟩ := Outcome.bind_eq_ok.mp h
    have hwell := SwapInstruction.wellFormed_of_unpack hunpack
    exact .inr ⟨clock, accounts, input, instruction, rfl, hunpack,
      processInstruction_effect hwell h⟩

end Program

end SolanaPsm
