import SolanaPsm.Permission

/-!
# Setting the rates

The processor of SetRates (`redemption_rate_processor.rs`). It reads the account twice, by
the layout of the pool and by the absolute offset of the curve, and writes the whole pool
back.

The two readings agree on every stored pool (`extractCurve_of_unpack`). A redemption-rate
pool is its fixed bytes followed by its 48 rate bytes (`SwapVersion.unpack_redemption`), so
writing it back changes the rate bytes and nothing else.
-/

namespace SolanaPsm

open Bytes (toLE slice)

/-! ## The bytes of a redemption-rate pool -/

namespace RedemptionRateCurve

/-- The bytes of the three rates. -/
def rateBytes (curve : RedemptionRateCurve) : Bytes :=
  toLE 16 curve.ssr ++ toLE 16 curve.rho ++ toLE 16 curve.chi

theorem packed_eq (curve : RedemptionRateCurve) :
    curve.packed = toLE 16 curve.maxSsr ++ curve.rateBytes := by
  simp only [packed, fields, rateBytes, List.flatten_cons, List.flatten_nil, List.append_nil,
    List.append_assoc]

end RedemptionRateCurve

/-- A swap curve on a redemption-rate curve. -/
def SwapCurve.redemptionRate (curve : RedemptionRateCurve) : SwapCurve where
  curveType := .redemptionRateCurve
  calculator := .redemptionRate curve

theorem SwapCurve.redemptionRate_inj {c c' : RedemptionRateCurve}
    (h : SwapCurve.redemptionRate c = .redemptionRate c') : c = c' := by
  cases h
  rfl

namespace SwapV1

/-- Where the rates start in the account. -/
def ratesOffset : ℕ := 308

/-- The bytes before the rates: version, head, curve type and limit. -/
def fixedBytes (swap : SwapV1) (maxSsr : U128) : Bytes :=
  1 :: (swap.headFields.flatten ++ CurveType.redemptionRateCurve.toU8 :: toLE 16 maxSsr)

theorem length_fixedBytes (swap : SwapV1) (maxSsr : U128) :
    (swap.fixedBytes maxSsr).length = ratesOffset := by
  rw [fixedBytes, List.length_cons, List.length_append, length_headFields, List.length_cons,
    Bytes.length_toLE]
  rfl

/-- The pool with new rates. -/
def withCurve (swap : SwapV1) (curve : RedemptionRateCurve) : SwapV1 :=
  { swap with swapCurve := .redemptionRate curve }

@[simp] theorem fixedBytes_withCurve (swap : SwapV1) (curve : RedemptionRateCurve) (maxSsr : U128) :
    (swap.withCurve curve).fixedBytes maxSsr = swap.fixedBytes maxSsr := rfl

end SwapV1

namespace SwapVersion

/-- A stored redemption-rate pool: its fixed bytes, then its rates. -/
theorem unpack_redemption {input : Bytes} {swap : SwapV1} {c : RedemptionRateCurve}
    (hcurve : swap.swapCurve = .redemptionRate c) :
    unpack input = .ok swap ↔
      swap.isInitialized = true ∧ input = swap.fixedBytes c.maxSsr ++ c.rateBytes := by
  have hbytes : swap.fixedBytes c.maxSsr ++ c.rateBytes =
      1 :: (swap.headFields.flatten ++ CurveType.redemptionRateCurve.toU8 :: c.packed) := by
    rw [SwapV1.fixedBytes, RedemptionRateCurve.packed_eq, List.cons_append, List.append_assoc,
      List.cons_append]
  rw [unpack_eq_ok, hcurve, hbytes]
  refine ⟨?_, ?_⟩
  · rintro ⟨hinit, curve, hlen, rfl, hunpack⟩
    refine ⟨hinit, ?_⟩
    cases curve with
    | nil => cases hlen
    | cons b rest =>
      obtain ⟨hb, hrest⟩ := SwapCurve.unpackFromSlice_eq_ok.mp hunpack
      obtain rfl := Calculator.redemptionRate.inj hrest
      have hrest' : rest.length = RedemptionRateCurve.LEN := Nat.succ.inj hlen
      rw [hb, RedemptionRateCurve.packed_unpack hrest']
      rfl
  · rintro ⟨hinit, rfl⟩
    refine ⟨hinit, _, ?_, rfl, ?_⟩
    · rw [List.length_cons, RedemptionRateCurve.length_packed]
      rfl
    · refine SwapCurve.unpackFromSlice_eq_ok.mpr ⟨rfl, ?_⟩
      have hread := RedemptionRateCurve.unpack_packed_append c []
      rw [List.append_nil] at hread
      exact congrArg Calculator.redemptionRate hread.symm

/-- The bytes in front of the rates. -/
theorem take_of_unpack {input : Bytes} {swap : SwapV1} {c : RedemptionRateCurve}
    (hcurve : swap.swapCurve = .redemptionRate c) (h : unpack input = .ok swap) :
    input.take SwapV1.ratesOffset = swap.fixedBytes c.maxSsr := by
  obtain ⟨-, rfl⟩ := (unpack_redemption hcurve).mp h
  exact List.take_left' (SwapV1.length_fixedBytes swap c.maxSsr)

end SwapVersion

/-! ## The processor -/

/-- The curve at its absolute offset; a shorter account aborts. -/
def extractCurve (input : Bytes) : Outcome ProgramError RedemptionRateCurve :=
  if input.length < SwapVersion.LATEST_LEN - SwapCurve.LEN + SwapCurve.LEN then .panic
  else do
    let input := slice (SwapVersion.LATEST_LEN - SwapCurve.LEN) SwapCurve.LEN input
    let curveType ← CurveType.tryFrom (input.headD 0)
    match curveType with
    | .redemptionRateCurve => return RedemptionRateCurve.unpackFromSlice (input.drop 1)
    | _ => .err .invalidAccountData

/-- The pool with the new rates, all else copied field by field. -/
def createNewSwapState (instruction : SetRates) (curve : RedemptionRateCurve) (swap : SwapV1)
    (clock : Clock) : Outcome ProgramError SwapV1 := do
  let newCalculator ← curve.setRates instruction.ssr instruction.rho instruction.chi
    clock.timestamp
  return {
    isInitialized := swap.isInitialized
    bumpSeed := swap.bumpSeed
    tokenProgramId := swap.tokenProgramId
    tokenA := swap.tokenA
    tokenB := swap.tokenB
    poolMint := swap.poolMint
    tokenAMint := swap.tokenAMint
    tokenBMint := swap.tokenBMint
    poolFeeAccount := swap.poolFeeAccount
    fees := swap.fees
    swapCurve := {
      curveType := .redemptionRateCurve
      calculator := .redemptionRate newCalculator } }

/-- Processes update. -/
def processCurveUpdate [Solana] (accounts : List AccountInfo) (instruction : SetRates)
    (clock : Clock) (ledger : Ledger) : Outcome ProgramError Ledger := do
  let (swapInfo, rest) ← nextAccountInfo accounts
  let (permissionInfo, rest) ← nextAccountInfo rest
  let (signerInfo, _) ← nextAccountInfo rest
  Outcome.rejectIf ((ledger swapInfo.key).owner ≠ ID) ProgramError.illegalOwner
  Outcome.rejectIf (signerInfo.isSigner = false) ProgramError.missingRequiredSignature
  let permission ← unpackPermission permissionInfo swapInfo signerInfo ledger
  permission.validateUpdateParamsPermission
  let swap ← SwapVersion.unpack (ledger swapInfo.key).data
  let curve ← extractCurve (ledger swapInfo.key).data
  let newSwapState ← createNewSwapState instruction curve swap clock
  let data ← SwapVersion.pack newSwapState (ledger swapInfo.key).data
  return ledger.write swapInfo.key data

/-! ## What it does -/

/-- The two readings of a stored pool agree. -/
theorem extractCurve_of_unpack {data : Bytes} {swap : SwapV1} {c : RedemptionRateCurve}
    (h : SwapVersion.unpack data = .ok swap) :
    extractCurve data = .ok c ↔ swap.swapCurve = .redemptionRate c := by
  have hlen := SwapVersion.length_of_unpack h
  obtain ⟨-, curve, hcurve, rfl, hunpack⟩ := SwapVersion.unpack_eq_ok.mp h
  have htail : slice (SwapVersion.LATEST_LEN - SwapCurve.LEN) SwapCurve.LEN
      (1 :: (swap.headFields.flatten ++ curve)) = curve := by
    have hdrop : List.drop 290 (swap.headFields.flatten ++ curve) = curve :=
      List.drop_left' (SwapV1.length_headFields swap)
    change List.take SwapCurve.LEN (List.drop 290 (swap.headFields.flatten ++ curve)) = curve
    rw [hdrop, ← hcurve, List.take_length]
  rw [extractCurve, if_neg (by rw [hlen]; decide), htail]
  obtain ⟨b, rest, rfl⟩ := List.exists_cons_of_length_pos (by rw [hcurve]; decide)
  obtain ⟨rfl, hcalc⟩ := SwapCurve.unpackFromSlice_eq_ok.mp hunpack
  simp only [List.headD_cons, CurveType.tryFrom_toU8, Outcome.ok_bind, List.drop_one,
    List.tail_cons]
  generalize swap.swapCurve = swapCurve at hcalc ⊢
  obtain ⟨curveType, calculator⟩ := swapCurve
  dsimp only at hcalc ⊢
  subst hcalc
  cases curveType with
  | redemptionRateCurve =>
    simp [SwapCurve.redemptionRate, Calculator.unpackFromSlice]
  | constantProduct | constantPrice | offset => simp [SwapCurve.redemptionRate]

/-- A pool with new rates in place of the old ones. -/
structure RatesSet (l l' : Ledger) (key : Pubkey) (instruction : SetRates) (clock : Clock)
    (swap : SwapV1) (curve curve' : RedemptionRateCurve) : Prop where
  /-- the account is the program's -/
  owner : (l key).owner = ID
  /-- the pool before -/
  unpack : SwapVersion.unpack (l key).data = .ok swap
  /-- it accrues -/
  swapCurve : swap.swapCurve = .redemptionRate curve
  /-- the update is accepted -/
  setRates : curve.setRates instruction.ssr instruction.rho instruction.chi clock.timestamp =
    .ok curve'
  /-- the fixed bytes stay, the rates are new, nothing else is touched -/
  placed : l.Placed l' key ID (swap.fixedBytes curve.maxSsr ++ curve'.rateBytes)

section RatesSet

variable {l l' : Ledger} {key : Pubkey} {instruction : SetRates} {clock : Clock} {swap : SwapV1}
  {curve curve' : RedemptionRateCurve}

/-- Updates keep the limit. -/
theorem RatesSet.maxSsr (h : RatesSet l l' key instruction clock swap curve curve') :
    curve'.maxSsr = curve.maxSsr := by
  rw [(RedemptionRateCurve.Update.of_setRates h.setRates).result]
  rfl

/-- The new pool is read back: the old one with the new curve. -/
theorem RatesSet.unpack' (h : RatesSet l l' key instruction clock swap curve curve') :
    SwapVersion.unpack (l' key).data = .ok (swap.withCurve curve') := by
  have hold := (SwapVersion.unpack_redemption h.swapCurve).mp h.unpack
  refine (SwapVersion.unpack_redemption (c := curve') rfl).mpr ⟨hold.1, ?_⟩
  rw [h.placed.data, SwapV1.fixedBytes_withCurve, h.maxSsr]

end RatesSet

/-- Spec of SetRates: a signing authority that may update the parameters of the pool sets
its rates. -/
theorem processCurveUpdate_eq_ok [Solana] {accounts : List AccountInfo} {instruction : SetRates}
    {clock : Clock} {l l' : Ledger} (h : processCurveUpdate accounts instruction clock l = .ok l') :
    ∃ swap permission signer rest, accounts = swap :: permission :: signer :: rest ∧
      signer.isSigner = true ∧ l.Permits swap.key signer.key Permission.canUpdateParameters ∧
      ∃ state curve curve', RatesSet l l' swap.key instruction clock state curve curve' := by
  simp only [processCurveUpdate, Outcome.bind_eq_ok, Prod.exists, nextAccountInfo_eq_ok,
    Outcome.rejectIf_eq_ok, not_not, exists_const, Bool.not_eq_false,
    Permission.validateUpdateParamsPermission, unpackPermission_eq_ok, createNewSwapState,
    Outcome.pure_eq, Outcome.ok.injEq] at h
  obtain ⟨swap, _, rfl, permission, _, rfl, signer, _, rfl, howner, hsigner, p,
    ⟨haddress, hstored, hswap, hauthority⟩, hflag, state, hunpack, curve, hextract, _,
    ⟨curve', hset, rfl⟩, data, hpack, rfl⟩ := h
  rw [haddress] at hstored
  rw [extractCurve_of_unpack hunpack] at hextract
  have hmax : curve'.maxSsr = curve.maxSsr := by
    rw [(RedemptionRateCurve.Update.of_setRates hset).result]
    rfl
  obtain ⟨hinit, hbytes⟩ := (SwapVersion.unpack_redemption hextract).mp hunpack
  -- the written pool is one that is read back
  have hread : SwapVersion.unpack data = .ok (state.withCurve curve') :=
    SwapVersion.unpack_pack hinit rfl hpack
  obtain ⟨-, rfl⟩ := (SwapVersion.unpack_redemption (c := curve') rfl).mp hread
  rw [SwapV1.fixedBytes_withCurve, hmax]
  exact ⟨swap, permission, signer, _, rfl, hsigner, ⟨p, hstored, hswap, hauthority, hflag⟩,
    state, curve, curve', howner, hunpack, hextract, hset, .write _ howner⟩

/-- Setting the rates never aborts. -/
theorem noPanic_processCurveUpdate [Solana] (accounts : List AccountInfo) (instruction : SetRates)
    (clock : Clock) (l : Ledger) : (processCurveUpdate accounts instruction clock l).NoPanic := by
  refine (noPanic_nextAccountInfo _).bind fun swap _ => ?_
  refine (noPanic_nextAccountInfo _).bind fun permission _ => ?_
  refine (noPanic_nextAccountInfo _).bind fun signer _ => ?_
  refine Outcome.noPanic_rejectIf.bind fun _ _ => ?_
  refine Outcome.noPanic_rejectIf.bind fun _ _ => ?_
  refine (noPanic_unpackPermission _ _ _ _).bind fun _ _ => ?_
  refine Outcome.noPanic_rejectIf.bind fun _ _ => ?_
  refine (SwapVersion.noPanic_unpack _).bind fun state hunpack => ?_
  -- what was unpacked is long enough for the absolute offset and for packing
  have hlen := SwapVersion.length_of_unpack hunpack
  have hextract : (extractCurve (l swap.1.key).data).NoPanic := by
    rw [extractCurve, if_neg (by rw [hlen]; decide)]
    refine (CurveType.noPanic_tryFrom _).bind fun curveType _ => ?_
    cases curveType with
    | redemptionRateCurve => exact Outcome.noPanic_ok _
    | constantProduct | constantPrice | offset => exact Outcome.noPanic_err _
  refine hextract.bind fun curve _ => ?_
  have hstate : (createNewSwapState instruction curve state clock).NoPanic :=
    (RedemptionRateCurve.noPanic_setRates _ _ _ _ _).bind fun _ _ => Outcome.noPanic_ok _
  refine hstate.bind fun _ _ => ?_
  exact (SwapVersion.noPanic_pack hlen).bind fun _ _ => Outcome.noPanic_ok _

end SolanaPsm
