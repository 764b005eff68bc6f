import SolanaPsm.Client
import SolanaPsm.CustodyRuns

/-!
# The client and the program

The client has its own encoder and its own reading of the layout. Both agree with the program:
what it reads in a pool is what the program stored (`loadTokenSwap_of_stored`), and what it asks
for is what the program decodes. So a pool is loaded, after any later run, as it was created
(`created_pool_is_loaded`), and an instruction of the client is as good as one of the
program's own builders (`clients_agree`).
-/

namespace SolanaPsm

open Bytes (toLE ofLE slice)

/-- The lengths of the fields of the layout. -/
def TokenSwapLayout.fieldLengths : List ℕ :=
  [1, 1, 1, 32, 32, 32, 32, 32, 32, 32, 8, 8, 8, 8, 8, 8, 8, 8, 1, 64]

/-- What the client reads in a pool of the program. -/
def RawTokenSwap.ofState (state : SwapV1) (curveParameters : Bytes) : RawTokenSwap where
  version := 1
  isInitialized := 1
  bumpSeed := state.bumpSeed
  poolTokenProgramId := state.tokenProgramId
  tokenAccountA := state.tokenA
  tokenAccountB := state.tokenB
  tokenPool := state.poolMint
  mintA := state.tokenAMint
  mintB := state.tokenBMint
  feeAccount := state.poolFeeAccount
  fees := state.fees
  curveType := state.swapCurve.curveType.toU8
  curveParameters

/-- The client reads every pool that the program accepts, and the same in it. -/
theorem TokenSwapLayout.decode_of_unpack {b : Bytes} {state : SwapV1}
    (h : SwapVersion.unpack b = .ok state) :
    ∃ curveParameters, decode b = some (.ofState state curveParameters) ∧
      state.swapCurve.calculator =
        Calculator.unpackFromSlice state.swapCurve.curveType curveParameters := by
  have hspan : ¬ b.length < span := (SwapVersion.length_of_unpack h).ge.not_gt
  obtain ⟨hinit, curve, hlen, hb, hcurve⟩ := SwapVersion.unpack_eq_ok.mp h
  cases curve with
  | nil => cases hlen
  | cons curveType curveParameters =>
    obtain ⟨rfl, hcalculator⟩ := SwapCurve.unpackFromSlice_eq_ok.mp hcurve
    have hparameters : curveParameters.length = 64 := Nat.succ.inj hlen
    -- the bytes are the concatenation of their fields
    let fields : List Bytes := [[1], [Bytes.boolByte state.isInitialized], [state.bumpSeed],
      toLE 32 state.tokenProgramId, toLE 32 state.tokenA, toLE 32 state.tokenB,
      toLE 32 state.poolMint, toLE 32 state.tokenAMint, toLE 32 state.tokenBMint,
      toLE 32 state.poolFeeAccount] ++ state.fees.fields ++
      [[state.swapCurve.curveType.toU8], curveParameters]
    have hfields : b = fields.flatten := by
      rw [hb]
      simp [fields, SwapV1.headFields, Fees.packIntoSlice]
    have hsplit : Bytes.splitFields 0 fieldLengths b = fields := by
      rw [hfields]
      refine Bytes.splitFields_flatten ?_
      simp [fields, fieldLengths, Fees.fields, hparameters]
    refine ⟨curveParameters, ?_, hcalculator⟩
    simp only [fields, Bytes.splitFields, fieldLengths, Fees.fields, List.cons_append,
      List.nil_append, List.cons.injEq, and_true, Nat.reduceAdd, Nat.zero_add, hinit] at hsplit
    obtain ⟨h₁, h₂, h₃, h₄, h₅, h₆, h₇, h₈, h₉, h₁₀, h₁₁, h₁₂, h₁₃, h₁₄, h₁₅, h₁₆, h₁₇, h₁₈, h₁₉,
      h₂₀⟩ := hsplit
    simp only [decode, if_neg hspan, h₁, h₂, h₃, h₄, h₅, h₆, h₇, h₈, h₉, h₁₀, h₁₁, h₁₂, h₁₃, h₁₄,
      h₁₅, h₁₆, h₁₇, h₁₈, h₁₉, h₂₀, Bytes.ofLE_toLE, List.headD_cons]
    rfl

/-! ## Encoding -/

namespace TradeOrder

/-- The client lists the accounts that the builder lists, with the same privileges. -/
theorem accounts_clientInstruction (order : TradeOrder) (programId : Pubkey) :
    (order.clientInstruction programId).accounts = (order.build programId).accounts := by
  cases order <;> rfl

/-- What the builder writes is decoded. -/
theorem unpack_build (order : TradeOrder) (programId : Pubkey) :
    SwapInstruction.unpack (order.build programId).data = .ok order.request := by
  have hnot : ¬ order.request.IsInitialize := by
    cases order <;> exact not_false
  have hdata : (order.build programId).data = order.request.pack := by
    cases order <;> rfl
  rw [hdata, ← List.append_nil order.request.pack, SwapInstruction.unpack_pack_append hnot]

/-- What the client writes is decoded as well: a referral code is ignored. -/
theorem unpack_clientInstruction (order : TradeOrder) (programId : Pubkey) :
    SwapInstruction.unpack (order.clientInstruction programId).data = .ok order.request := by
  have hnot : ¬ order.request.IsInitialize := by
    cases order <;> exact not_false
  obtain ⟨tail, hdata⟩ :
      ∃ tail, (order.clientInstruction programId).data = order.request.pack ++ tail := by
    cases order with
    | swap keys data => exact ⟨[], (List.append_nil _).symm⟩
    | depositAllTokenTypes keys data =>
      exact ⟨TokenSwap.referralCode, by
        simp [clientInstruction, TokenSwap.depositAllTokenTypesInstruction, request,
          SwapInstruction.pack]⟩
    | withdrawAllTokenTypes keys data =>
      exact ⟨TokenSwap.referralCode, by
        simp [clientInstruction, TokenSwap.withdrawAllTokenTypesInstruction, request,
          SwapInstruction.pack]⟩
    | depositSingleTokenTypeExactAmountIn keys data =>
      exact ⟨TokenSwap.referralCode, by
        simp [clientInstruction, TokenSwap.depositSingleTokenTypeExactAmountInInstruction, request,
          SwapInstruction.pack]⟩
    | withdrawSingleTokenTypeExactAmountOut keys data =>
      exact ⟨TokenSwap.referralCode, by
        simp [clientInstruction, TokenSwap.withdrawSingleTokenTypeExactAmountOutInstruction,
          request, SwapInstruction.pack]⟩
  rw [hdata, SwapInstruction.unpack_pack_append hnot]

end TradeOrder

/-- Parameters that fit are filled with zeros, as the curve itself is packed. -/
theorem TokenSwap.packCurveParameters_packed (calculator : Calculator) :
    packCurveParameters calculator.packed = calculator.packIntoSlice (List.replicate 64 0) := by
  rw [packCurveParameters, List.take_of_length_le calculator.length_packed_le,
    Calculator.packIntoSlice, List.drop_replicate]

/-- The client writes the Initialize that the builder writes. -/
theorem data_createInitSwapInstruction [Solana] (keys : InitializeKeys) (fees : Fees)
    (swapCurve : SwapCurve) (superAdmin payer : Pubkey) :
    (TokenSwap.createInitSwapInstruction ID keys fees swapCurve.curveType.toU8
      swapCurve.calculator.packed superAdmin payer).data =
      (SwapInstruction.initializeSwap ⟨fees, swapCurve⟩).pack := by
  simp [TokenSwap.createInitSwapInstruction, SwapInstruction.pack, Fees.packIntoSlice, Fees.fields,
    SwapCurve.packIntoSlice, SwapCurve.LEN, TokenSwap.packCurveParameters_packed]

section Agree

variable [Solana] [SplMath] {swapConstraints : Option SwapConstraints}

variable (swapConstraints) in
/-- What the program does with an instruction, in a transaction with these signatures. -/
def Instruction.process (instruction : Instruction) (signers : List Pubkey) (clock : Clock)
    (ledger : Ledger) : Outcome ProgramError Ledger :=
  processWithConstraints swapConstraints (instruction.accountInfos signers) instruction.data clock
    ledger

theorem Instruction.process_of_unpack {instruction : Instruction} {request : SwapInstruction}
    (hunpack : SwapInstruction.unpack instruction.data = .ok request) (signers : List Pubkey)
    (clock : Clock) (l : Ledger) :
    instruction.process swapConstraints signers clock l =
      processInstruction swapConstraints (instruction.accountInfos signers) request clock l :=
  processWithConstraints_of_unpack swapConstraints hunpack clock l

/-- The two clients of the program agree. For a trade the JavaScript client lists the accounts
that the builder of the crate lists, with the same privileges. For a new redemption-rate pool both
list the same addresses, and the same of them as writable, but the builder of the crate also asks
the account of the pool to sign. And in a transaction that has the signatures, whatever they are,
the program does with both instructions what was asked for. -/
theorem clients_agree (signers : List Pubkey) (clock : Clock) (l : Ledger) :
    (∀ order : TradeOrder,
      (order.clientInstruction ID).accounts = (order.build ID).accounts ∧
      (order.clientInstruction ID).process swapConstraints signers clock l =
        processInstruction swapConstraints ((order.build ID).accountInfos signers) order.request
          clock l ∧
      (order.build ID).process swapConstraints signers clock l =
        processInstruction swapConstraints ((order.build ID).accountInfos signers) order.request
          clock l) ∧
    ∀ (keys : InitializeKeys) (fees : Fees) (curve : RedemptionRateCurve)
      (superAdmin payer : Pubkey), ∃ built,
      Build.initializeSwap ID keys fees (.redemptionRate curve)
        (some ⟨(derivePermissionPubkeyAndBump keys.swap superAdmin).1, superAdmin, payer,
          SYSTEM_PROGRAM_ID⟩) = .ok built ∧
      (TokenSwap.createInitSwapInstruction ID keys fees 3 curve.packed superAdmin
          payer).privileges = built.privileges ∧
      (∀ key, built.Signs key ↔ key = keys.swap ∨ (TokenSwap.createInitSwapInstruction ID keys
        fees 3 curve.packed superAdmin payer).Signs key) ∧
      (TokenSwap.createInitSwapInstruction ID keys fees 3 curve.packed superAdmin payer).process
          swapConstraints signers clock l =
        processInstruction swapConstraints (built.accountInfos signers)
          (.initializeSwap ⟨fees, .redemptionRate curve⟩) clock l ∧
      built.process swapConstraints signers clock l =
        processInstruction swapConstraints (built.accountInfos signers)
          (.initializeSwap ⟨fees, .redemptionRate curve⟩) clock l := by
  refine ⟨?_, ?_⟩
  · intro order
    have haccounts := order.accounts_clientInstruction ID
    refine ⟨haccounts, ?_, ?_⟩
    · rw [Instruction.process_of_unpack (order.unpack_clientInstruction ID),
        Instruction.accountInfos, haccounts]
      rfl
    · rw [Instruction.process_of_unpack (order.unpack_build ID)]
  · intro keys fees curve superAdmin payer
    have hdata := data_createInitSwapInstruction keys fees (.redemptionRate curve) superAdmin payer
    have hunpack : SwapInstruction.unpack
        (SwapInstruction.initializeSwap ⟨fees, .redemptionRate curve⟩).pack =
          .ok (.initializeSwap ⟨fees, .redemptionRate curve⟩) :=
      SwapInstruction.unpack_pack_initialize rfl
    refine ⟨_, rfl, rfl, ?_, ?_, ?_⟩
    · intro key
      simp [Instruction.Signs, TokenSwap.createInitSwapInstruction, AccountMeta.new,
        AccountMeta.newReadonly, eq_comm (a := key)]
    · rw [Instruction.process_of_unpack (hdata ▸ hunpack)]
      rfl
    · rw [Instruction.process_of_unpack hunpack]

end Agree

namespace TokenSwap

/-- The data of the client's Initialize is decoded to the fees it was given, and to a curve with
its parameters. -/
theorem unpack_createInitSwapInstruction [Solana] {keys : InitializeKeys} {fees : Fees}
    {curveType : UInt8} {curveParameters : Bytes} {superAdmin payer : Pubkey}
    {instruction : SwapInstruction}
    (h : SwapInstruction.unpack (createInitSwapInstruction ID keys fees curveType curveParameters
      superAdmin payer).data = .ok instruction) :
    ∃ swapCurve : SwapCurve, instruction = .initializeSwap ⟨fees, swapCurve⟩ ∧
      curveType = swapCurve.curveType.toU8 ∧ swapCurve.calculator =
        Calculator.unpackFromSlice swapCurve.curveType (packCurveParameters curveParameters) := by
  have hdata : (createInitSwapInstruction ID keys fees curveType curveParameters superAdmin
      payer).data =
      0 :: (fees.packIntoSlice ++ curveType :: packCurveParameters curveParameters) := by
    simp [createInitSwapInstruction, Fees.packIntoSlice, Fees.fields]
  have hfees := Fees.length_packIntoSlice fees
  rw [hdata, SwapInstruction.unpack] at h
  obtain ⟨data, rfl, -, htake, hdrop⟩ := SwapInstruction.unpackTagged_zero_eq_ok.mp h
  rw [List.take_left' hfees] at htake
  rw [List.drop_left' hfees, SwapCurve.unpackFromSlice_eq_ok] at hdrop
  have hsame : data.fees = fees := by
    rw [← Fees.unpack_pack fees, htake, Fees.unpack_pack]
  exact ⟨data.swapCurve, by rw [← hsame], hdrop.1, hdrop.2⟩

end TokenSwap

section Load

variable [Solana]

namespace TokenSwap

/-- The object for a stored pool. -/
def ofState (swap : Pubkey) (state : SwapV1) : TokenSwap where
  tokenSwap := swap
  swapProgramId := ID
  poolTokenProgramId := state.tokenProgramId
  poolToken := state.poolMint
  feeAccount := state.poolFeeAccount
  authority := poolAuthority swap
  tokenAccountA := state.tokenA
  tokenAccountB := state.tokenB
  mintA := state.tokenAMint
  mintB := state.tokenBMint
  fees := state.fees
  curveType := state.swapCurve.curveType.toU8

/-- A stored pool is loaded. -/
theorem loadTokenSwap_of_stored {l : Ledger} {swap : Pubkey} {state : SwapV1}
    (h : l.StoresPool swap state) : loadTokenSwap l swap ID = some (ofState swap state) := by
  obtain ⟨curveParameters, hdecode, -⟩ := TokenSwapLayout.decode_of_unpack h.2
  rw [loadTokenSwap, loadAccount, if_pos h.1, Option.bind_eq_bind, Option.bind_some, hdecode]
  rfl

/-- The object does not show the rates. -/
theorem ofState_withCurve {swap : Pubkey} {state : SwapV1} {curve : RedemptionRateCurve}
    (h : state.swapCurve = .redemptionRate curve) (curve' : RedemptionRateCurve) :
    ofState swap (state.withCurve curve') = ofState swap state := by
  simp only [ofState, SwapV1.withCurve, h, SwapCurve.redemptionRate]

end TokenSwap

variable [SplMath] {swapConstraints : Option SwapConstraints} {l₀ l₁ l : Ledger}
  {clock : Clock} {signers : List Pubkey} {events : List Event} {keys : InitializeKeys}
  {fees : Fees} {curveType : UInt8} {curveParameters : Bytes} {superAdmin payer : Pubkey}

/-- The client's Initialize stores the pool it asks for. -/
theorem createInitSwapInstruction_stores
    (h : Step swapConstraints l₀ ((TokenSwap.createInitSwapInstruction ID keys fees curveType
      curveParameters superAdmin payer).event signers clock) l₁) :
    ∃ state, l₁.StoresPool keys.swap state ∧
      TokenSwap.ofState keys.swap state = .ofKeys ID keys fees curveType := by
  obtain ⟨instruction, hunpack, h⟩ := Outcome.bind_eq_ok.mp h
  obtain ⟨swapCurve, rfl, hcurveType, -⟩ := TokenSwap.unpack_createInitSwapInstruction hunpack
  obtain ⟨infos, hinfos, pool, hpool, -, _, _, -, -, -, hstored⟩ :=
    processInitialize_mints (SwapInstruction.wellFormed_of_unpack hunpack) h
  obtain rfl := Outcome.ok.inj hinfos
  -- the authority and the mints that were passed are those that were found
  have hat := readNewPool_at hpool
  have hauthority : keys.authority = poolAuthority keys.swap := hat.authority
  have hmintA : pool.tokenA.mint = keys.tokenAMint := hat.tokenA.2
  have hmintB : pool.tokenB.mint = keys.tokenBMint := hat.tokenB.2
  refine ⟨_, hstored, ?_⟩
  simp only [TokenSwap.ofState, TokenSwap.ofKeys, newPoolState, hauthority, hmintA, hmintB,
    hcurveType]

/-- A pool that a client created is loaded as it was created: after any later run, whatever was
sent and whatever other programs did, the client reads back the addresses, the fees and the
curve type it asked for, and the authority of the pool. -/
theorem created_pool_is_loaded
    (hinit : Step swapConstraints l₀ ((TokenSwap.createTokenSwap ID keys fees curveType
      curveParameters payer).2.event signers clock) l₁)
    (hrun : Transition.Run (Step swapConstraints) l₁ events l) :
    TokenSwap.loadTokenSwap l keys.swap ID =
      some (TokenSwap.createTokenSwap ID keys fees curveType curveParameters payer).1 := by
  obtain ⟨state, hpool, hcreated⟩ := createInitSwapInstruction_stores hinit
  have hkept : PoolKept state keys.swap l₁ l :=
    hrun.invariant (P := PoolKept state keys.swap l₁) (fun hkept h => hkept.step hpool h)
      (.inl (.refl l₁ keys.swap))
  obtain ⟨state', hstored, hstate⟩ := hkept.storesPool hpool
  rw [TokenSwap.loadTokenSwap_of_stored hstored, TokenSwap.createTokenSwap, ← hcreated]
  rcases hstate with rfl | ⟨curve, curve', hcurve, -, rfl⟩
  · rfl
  · rw [TokenSwap.ofState_withCurve hcurve]

end Load

namespace World

/-- The addresses of the pool. -/
def keys : InitializeKeys where
  tokenProgram := SPL_TOKEN_ID
  swap
  authority
  tokenA := 3#256
  tokenB := 4#256
  pool := 5#256
  tokenAMint := 6#256
  tokenBMint := 7#256
  fee := 8#256
  destination := 9#256

/-- The ledger in which the super admin can pay. -/
def funded : Ledger := fun key =>
  if key = superAdmin then ⟨SYSTEM_PROGRAM_ID, 1000000000#64, []⟩ else ledger key

end World

/-- The pool of the reference runtime, created by a client, is loaded after a SetRates. -/
theorem created_pool_is_loaded_minute :
    let _ : Solana := Solana.reference
    let _ : SplMath := SplMath.reference
    let created := TokenSwap.createTokenSwap ID World.keys World.initializeData.fees 3
      World.curve.packed World.superAdmin
    ∃ l₁ l₂,
      Step none World.funded (created.2.event [World.swap, World.superAdmin] World.clock) l₁ ∧
      Step none l₁ World.setRatesEvent l₂ ∧
      TokenSwap.loadTokenSwap l₂ World.swap ID = some created.1 := by
  intro _ _ created
  have hrun : (processWithConstraints none
      (created.2.accountInfos [World.swap, World.superAdmin]) created.2.data World.clock
      World.funded >>= fun l₁ => processWithConstraints none
        [⟨World.swap, false⟩, ⟨World.permission, false⟩, ⟨World.superAdmin, true⟩]
        World.setRatesInput World.later l₁).isOk := by
    decide +kernel
  obtain ⟨l₂, hrun⟩ := Outcome.isOk_iff.mp hrun
  obtain ⟨l₁, hinit, hset⟩ := Outcome.bind_eq_ok.mp hrun
  have hset : Step none l₁ World.setRatesEvent l₂ := hset
  exact ⟨l₁, l₂, hinit, hset, created_pool_is_loaded hinit (.single hset)⟩

end SolanaPsm
