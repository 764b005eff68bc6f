import SolanaPsm.Instruction

/-!
# The stored pool

The account of a pool (`state.rs`): a version byte, then `SwapV1` in 355 bytes, of which
the last 65 hold the curve. `SwapVersion.unpack_eq_ok` describes the decoder completely:
it accepts a version byte, the head of an initialised pool and a curve it can read, and
nothing else. Everything about the layout is read off that description.
-/

namespace SolanaPsm

/-! ## Packing of accounts -/

/-- `Pack::unpack`: the length and the initialised flag are checked. -/
def unpackInitialized {α : Type} (len : ℕ) (unpackFromSlice : Bytes → Outcome ProgramError α)
    (isInitialized : α → Bool) (input : Bytes) : Outcome ProgramError α := do
  let value ← unpackUnchecked len unpackFromSlice input
  Outcome.rejectIf (isInitialized value = false) ProgramError.uninitializedAccount
  return value

theorem unpackInitialized_eq_ok {α : Type} {len : ℕ}
    {unpackFromSlice : Bytes → Outcome ProgramError α} {isInitialized : α → Bool} {input : Bytes}
    {x : α} : unpackInitialized len unpackFromSlice isInitialized input = .ok x ↔
      input.length = len ∧ unpackFromSlice input = .ok x ∧ isInitialized x = true := by
  simp only [unpackInitialized, Outcome.bind_eq_ok, unpackUnchecked_eq_ok, Outcome.rejectIf_eq_ok,
    Outcome.pure_eq, Outcome.ok.injEq, exists_const, Bool.not_eq_false]
  refine ⟨?_, ?_⟩
  · rintro ⟨x, ⟨hlen, hx⟩, hinit, rfl⟩
    exact ⟨hlen, hx, hinit⟩
  · rintro ⟨hlen, hx, hinit⟩
    exact ⟨x, ⟨hlen, hx⟩, hinit, rfl⟩

/-- `Pack::pack`: the length of the destination is checked. -/
def packInto (len : ℕ) (packIntoSlice : Bytes → Bytes) (dst : Bytes) :
    Outcome ProgramError Bytes := do
  Outcome.rejectIf (dst.length ≠ len) ProgramError.invalidAccountData
  return packIntoSlice dst

theorem packInto_eq_ok {len : ℕ} {packIntoSlice : Bytes → Bytes} {dst data : Bytes} :
    packInto len packIntoSlice dst = .ok data ↔ dst.length = len ∧ data = packIntoSlice dst := by
  simp only [packInto, Outcome.bind_eq_ok, Outcome.rejectIf_eq_ok, not_not, exists_const,
    Outcome.pure_eq, Outcome.ok.injEq, @eq_comm _ (packIntoSlice dst)]

/-! ## Version one -/

/-- Program states. -/
@[ext] structure SwapV1 : Type where
  /-- Initialized state -/
  isInitialized : Bool
  /-- Bump seed used in program address -/
  bumpSeed : UInt8
  /-- Program ID of the tokens being exchanged -/
  tokenProgramId : Pubkey
  /-- Token A -/
  tokenA : Pubkey
  /-- Token B -/
  tokenB : Pubkey
  /-- Pool tokens are issued when A or B tokens are deposited -/
  poolMint : Pubkey
  /-- Mint information for token A -/
  tokenAMint : Pubkey
  /-- Mint information for token B -/
  tokenBMint : Pubkey
  /-- Pool token account to receive trading and / or withdrawal fees -/
  poolFeeAccount : Pubkey
  /-- All fee information -/
  fees : Fees
  /-- Swap curve parameters -/
  swapCurve : SwapCurve
  deriving DecidableEq, Repr

namespace SwapV1

open Bytes (toLE ofLE slice)

/-- Size of the state in bytes. -/
def LEN : ℕ := 355

/-- The fields before the curve, in the order of the layout. -/
def headFields (swap : SwapV1) : List Bytes :=
  [ [Bytes.boolByte swap.isInitialized],
    [swap.bumpSeed],
    toLE 32 swap.tokenProgramId,
    toLE 32 swap.tokenA,
    toLE 32 swap.tokenB,
    toLE 32 swap.poolMint,
    toLE 32 swap.tokenAMint,
    toLE 32 swap.tokenBMint,
    toLE 32 swap.poolFeeAccount,
    swap.fees.packIntoSlice ]

/-- The lengths of these fields. -/
def headLengths : List ℕ := [1, 1, 32, 32, 32, 32, 32, 32, 32, 64]

/-- Where the curve starts. -/
def headLength : ℕ := 290

/-- `pack_into_slice` on a slice of `LEN` bytes. -/
def packIntoSlice (swap : SwapV1) (output : Bytes) : Bytes :=
  swap.headFields.flatten ++ swap.swapCurve.packIntoSlice (output.drop headLength)

/-- The initialised flag is zero or one. -/
def unpackFlag (input : Bytes) : Outcome ProgramError Bool :=
  match input with
  | [0] => .ok false
  | [1] => .ok true
  | _ => .err .invalidAccountData

/-- `unpack_from_slice` of a slice of `LEN` bytes. -/
def unpackFromSlice (input : Bytes) : Outcome ProgramError SwapV1 := do
  let isInitialized ← unpackFlag (slice 0 1 input)
  let swapCurve ← SwapCurve.unpackFromSlice (slice 290 65 input)
  return {
    isInitialized
    bumpSeed := (slice 1 1 input).headD 0
    tokenProgramId := ofLE 32 (slice 2 32 input)
    tokenA := ofLE 32 (slice 34 32 input)
    tokenB := ofLE 32 (slice 66 32 input)
    poolMint := ofLE 32 (slice 98 32 input)
    tokenAMint := ofLE 32 (slice 130 32 input)
    tokenBMint := ofLE 32 (slice 162 32 input)
    poolFeeAccount := ofLE 32 (slice 194 32 input)
    fees := Fees.unpackFromSlice (slice 226 64 input)
    swapCurve }

/-- `Pack::pack`. -/
def pack (swap : SwapV1) (dst : Bytes) : Outcome ProgramError Bytes :=
  packInto LEN swap.packIntoSlice dst

/-- `Pack::unpack`. -/
def unpack (input : Bytes) : Outcome ProgramError SwapV1 :=
  unpackInitialized LEN unpackFromSlice isInitialized input

theorem map_length_headFields (swap : SwapV1) :
    swap.headFields.map List.length = headLengths := by
  simp [headFields, headLengths, Fees.LEN]

@[simp] theorem length_headFields (swap : SwapV1) :
    swap.headFields.flatten.length = headLength := by
  rw [List.length_flatten, map_length_headFields]
  rfl

theorem unpackFlag_eq_ok {input : Bytes} {flag : Bool} :
    unpackFlag input = .ok flag ↔ input = [Bytes.boolByte flag] := by
  refine ⟨?_, ?_⟩
  · intro h
    simp only [unpackFlag] at h
    split at h
    · cases h
      rfl
    · cases h
      rfl
    · cases h
  · rintro rfl
    cases flag <;> rfl

/-- The decoder accepts the head of a state followed by a curve it can read. -/
theorem unpackFromSlice_eq_ok {input : Bytes} (hlen : input.length = LEN) {swap : SwapV1} :
    unpackFromSlice input = .ok swap ↔ ∃ curve, input = swap.headFields.flatten ++ curve ∧
      SwapCurve.unpackFromSlice curve = .ok swap.swapCurve := by
  have hcover : input = (Bytes.splitFields 0 headLengths input).flatten ++ input.drop 290 := by
    rw [Bytes.flatten_splitFields, slice, List.drop_zero]
    exact (List.take_append_drop _ _).symm
  have hcurve : slice 290 65 input = input.drop 290 := by
    rw [slice, List.take_of_length_le]
    rw [List.length_drop, hlen]
    decide
  have hkey (off : ℕ) (hoff : off + 32 ≤ LEN) :
      toLE 32 (ofLE 32 (slice off 32 input)) = slice off 32 input :=
    Bytes.toLE_ofLE (Bytes.length_slice (by omega))
  refine ⟨?_, ?_⟩
  · intro h
    simp only [unpackFromSlice, Outcome.bind_eq_ok, unpackFlag_eq_ok, Outcome.pure_eq,
      Outcome.ok.injEq] at h
    obtain ⟨flag, hflag, c, hc, rfl⟩ := h
    rw [hcurve] at hc
    refine ⟨input.drop 290, ?_, hc⟩
    have hbump : [(slice 1 1 input).headD 0] = slice 1 1 input := by
      have hone : (slice 1 1 input).length = 1 := Bytes.length_slice (by rw [hlen]; decide)
      obtain ⟨b, hb⟩ := List.length_eq_one_iff.mp hone
      rw [hb]
      rfl
    have hfees : (Fees.unpackFromSlice (slice 226 64 input)).packIntoSlice = slice 226 64 input :=
      Fees.pack_unpack (Bytes.length_slice (by rw [hlen]; decide))
    conv_lhs => rw [hcover]
    simp only [headFields, Bytes.splitFields, headLengths, ← hflag, hbump, hfees, Nat.reduceAdd,
      hkey 2 (by decide), hkey 34 (by decide), hkey 66 (by decide), hkey 98 (by decide),
      hkey 130 (by decide), hkey 162 (by decide), hkey 194 (by decide)]
  · rintro ⟨curve, rfl, hc⟩
    have hsplit : Bytes.splitFields 0 headLengths (swap.headFields.flatten ++ curve) =
        swap.headFields :=
      Bytes.splitFields_append_flatten (rfl : ([] : Bytes).length = 0) (map_length_headFields swap)
    have hrest : (swap.headFields.flatten ++ curve).drop 290 = curve :=
      List.drop_left' (length_headFields swap)
    rw [hrest] at hcurve
    generalize swap.headFields.flatten ++ curve = input at hsplit hcurve ⊢
    simp only [Bytes.splitFields, headLengths, headFields, List.cons.injEq, and_true,
      Nat.reduceAdd] at hsplit
    obtain ⟨h₁, h₂, h₃, h₄, h₅, h₆, h₇, h₈, h₉, h₁₀⟩ := hsplit
    simp only [unpackFromSlice, h₁, h₂, h₃, h₄, h₅, h₆, h₇, h₈, h₉, h₁₀, hcurve,
      unpackFlag_eq_ok.mpr rfl, hc, Outcome.ok_bind, Bytes.ofLE_toLE, Fees.unpack_pack,
      List.headD_cons]
    rfl

/-- A slice of the right length does not abort. -/
theorem noPanic_unpackFromSlice {input : Bytes} (hlen : input.length = LEN) :
    (unpackFromSlice input).NoPanic := by
  refine Outcome.NoPanic.bind ?_ fun _ _ => ?_
  · simp only [unpackFlag]
    split
    · exact Outcome.noPanic_ok _
    · exact Outcome.noPanic_ok _
    · exact Outcome.noPanic_err _
  · refine Outcome.NoPanic.bind ?_ fun _ _ => Outcome.noPanic_ok _
    refine SwapCurve.noPanic_unpackFromSlice (List.ne_nil_of_length_pos ?_)
    rw [Bytes.length_slice (by rw [hlen]; decide)]
    decide

end SwapV1

/-! ## All versions -/

namespace SwapVersion

/-- Size of the latest version of the state: one byte more for the version. -/
def LATEST_LEN : ℕ := 356

/-- Pack a swap into a byte array; an empty one aborts. -/
def pack (src : SwapV1) (dst : Bytes) : Outcome ProgramError Bytes :=
  match dst with
  | [] => .panic
  | _ :: rest => do
    let rest ← src.pack rest
    return 1 :: rest

/-- Unpack the swap account based on its version. -/
def unpack (input : Bytes) : Outcome ProgramError SwapV1 :=
  match input with
  | [] => .err .invalidAccountData
  | version :: rest => if version = 1 then SwapV1.unpack rest else .err .uninitializedAccount

/-- The second byte, the initialized flag, is non-zero. -/
def isInitialized (input : Bytes) : Bool :=
  match input with
  | _ :: flag :: _ => flag != 0
  | _ => false

/-- The decoder accepts a version byte, the head of an initialised state and a curve of
the right length it can read, and nothing else. -/
theorem unpack_eq_ok {input : Bytes} {swap : SwapV1} :
    unpack input = .ok swap ↔ swap.isInitialized = true ∧ ∃ curve, curve.length = SwapCurve.LEN ∧
      input = 1 :: (swap.headFields.flatten ++ curve) ∧
      SwapCurve.unpackFromSlice curve = .ok swap.swapCurve := by
  refine ⟨?_, ?_⟩
  · intro h
    cases input with
    | nil => cases h
    | cons version rest =>
      simp only [unpack] at h
      split at h
      · rename_i hversion
        obtain ⟨hlen, h, hinit⟩ := unpackInitialized_eq_ok.mp h
        obtain ⟨curve, rfl, hcurve⟩ := (SwapV1.unpackFromSlice_eq_ok hlen).mp h
        rw [List.length_append, SwapV1.length_headFields] at hlen
        have hlen' : curve.length = SwapCurve.LEN := Nat.add_left_cancel hlen
        exact ⟨hinit, curve, hlen', by rw [hversion], hcurve⟩
      · cases h
  · rintro ⟨hinit, curve, hlen, rfl, hcurve⟩
    have hlen' : (swap.headFields.flatten ++ curve).length = SwapV1.LEN := by
      rw [List.length_append, SwapV1.length_headFields, hlen]
      rfl
    simp only [unpack, if_true]
    exact unpackInitialized_eq_ok.mpr
      ⟨hlen', (SwapV1.unpackFromSlice_eq_ok hlen').mpr ⟨curve, rfl, hcurve⟩, hinit⟩

/-- A stored pool has the length of the latest version. -/
theorem length_of_unpack {input : Bytes} {swap : SwapV1} (h : unpack input = .ok swap) :
    input.length = LATEST_LEN := by
  obtain ⟨-, curve, hlen, rfl, -⟩ := unpack_eq_ok.mp h
  rw [List.length_cons, List.length_append, SwapV1.length_headFields, hlen]
  rfl

/-- Its curve names its calculator. -/
theorem wellFormed_of_unpack {input : Bytes} {swap : SwapV1} (h : unpack input = .ok swap) :
    swap.swapCurve.WellFormed := by
  obtain ⟨-, curve, -, -, hcurve⟩ := unpack_eq_ok.mp h
  exact SwapCurve.wellFormed_of_unpack hcurve

/-- It counts as initialised. -/
theorem isInitialized_of_unpack {input : Bytes} {swap : SwapV1} (h : unpack input = .ok swap) :
    isInitialized input = true := by
  obtain ⟨hinit, curve, -, rfl, -⟩ := unpack_eq_ok.mp h
  simp only [SwapV1.headFields, hinit]
  rfl

/-- The encoder needs a destination of the right length and writes the head and the curve. -/
theorem pack_eq_ok {src : SwapV1} {dst data : Bytes} :
    pack src dst = .ok data ↔ dst.length = LATEST_LEN ∧
      data = 1 :: (src.headFields.flatten ++ src.swapCurve.packIntoSlice (dst.drop 291)) := by
  cases dst with
  | nil =>
    simp only [pack, List.length_nil, reduceCtorEq, false_iff, not_and]
    intro h
    cases h
  | cons version rest =>
    simp only [pack, SwapV1.pack, Outcome.bind_eq_ok, packInto_eq_ok, Outcome.pure_eq,
      Outcome.ok.injEq, List.length_cons, SwapV1.LEN, LATEST_LEN, Nat.reduceEqDiff,
      List.drop_succ_cons, SwapV1.packIntoSlice, SwapV1.headLength]
    refine ⟨?_, ?_⟩
    · rintro ⟨_, ⟨hlen, rfl⟩, rfl⟩
      exact ⟨hlen, rfl⟩
    · rintro ⟨hlen, rfl⟩
      exact ⟨_, ⟨hlen, rfl⟩, rfl⟩

/-- A well-formed initialised pool is read back, whatever the account held before. -/
theorem unpack_pack {src : SwapV1} {dst data : Bytes} (hinit : src.isInitialized = true)
    (hcurve : src.swapCurve.WellFormed) (h : pack src dst = .ok data) :
    unpack data = .ok src := by
  obtain ⟨hlen, rfl⟩ := pack_eq_ok.mp h
  refine unpack_eq_ok.mpr ⟨hinit, _, ?_, rfl, hcurve.unpack_pack _⟩
  apply SwapCurve.length_packIntoSlice
  rw [List.length_drop, hlen]
  rfl

/-- Decoding does not abort. -/
theorem noPanic_unpack (input : Bytes) : (unpack input).NoPanic := by
  cases input with
  | nil => exact Outcome.noPanic_err _
  | cons version rest =>
    simp only [unpack]
    split
    · refine Outcome.NoPanic.bind ?_ fun _ _ =>
        Outcome.noPanic_rejectIf.bind fun _ _ => Outcome.noPanic_ok _
      refine Outcome.noPanic_rejectIf.bind fun _ hlen => ?_
      rw [Outcome.rejectIf_eq_ok, not_not] at hlen
      exact SwapV1.noPanic_unpackFromSlice hlen
    · exact Outcome.noPanic_err _

/-- Encoding over a stored pool does not abort. -/
theorem noPanic_pack {src : SwapV1} {dst : Bytes} (h : dst.length = LATEST_LEN) :
    (pack src dst).NoPanic := by
  have hok : pack src dst = .ok _ := pack_eq_ok.mpr ⟨h, rfl⟩
  rw [hok]
  exact Outcome.noPanic_ok _

/-- The first two bytes of a stored pool are one, and its curve type is a known one. -/
theorem bytes_of_unpack {input : Bytes} {swap : SwapV1} (h : unpack input = .ok swap) :
    input[0]? = some 1 ∧ input[1]? = some 1 ∧
      input[291]? = some swap.swapCurve.curveType.toU8 := by
  obtain ⟨hinit, curve, hlen, rfl, hcurve⟩ := unpack_eq_ok.mp h
  refine ⟨rfl, ?_, ?_⟩
  · simp only [SwapV1.headFields, hinit]
    rfl
  · cases curve with
    | nil => cases hlen
    | cons b rest =>
      have hoff : swap.headFields.flatten.length ≤ 290 := (SwapV1.length_headFields swap).le
      rw [List.getElem?_cons_succ, List.getElem?_append_right hoff, SwapV1.length_headFields,
        (SwapCurve.unpackFromSlice_eq_ok.mp hcurve).1]
      rfl

/-- The stored pool survives packing, for every curve and over any bytes, and what is decoded
was stored by a version one pool. -/
theorem pool_survives_packing :
    (∀ (src : SwapV1) (dst : Bytes), src.isInitialized = true → src.swapCurve.WellFormed →
      dst.length = LATEST_LEN →
      ∃ data, pack src dst = .ok data ∧ isInitialized data = true ∧ unpack data = .ok src) ∧
    ∀ input : Bytes, (unpack input).NoPanic ∧ ∀ swap, unpack input = .ok swap →
      input.length = LATEST_LEN ∧ input[0]? = some 1 ∧ input[1]? = some 1 ∧
        ∃ b, input[291]? = some b ∧ b ≤ 3 := by
  refine ⟨?_, ?_⟩
  · intro src dst hinit hcurve hlen
    have hpack : pack src dst = .ok _ := pack_eq_ok.mpr ⟨hlen, rfl⟩
    have hunpack := unpack_pack hinit hcurve hpack
    exact ⟨_, hpack, isInitialized_of_unpack hunpack, hunpack⟩
  · intro input
    refine ⟨noPanic_unpack input, ?_⟩
    intro swap h
    obtain ⟨hversion, hflag, hcurve⟩ := bytes_of_unpack h
    exact ⟨length_of_unpack h, hversion, hflag, _, hcurve, CurveType.toU8_le _⟩

/-- A redemption-rate pool over 356 bytes of ones, and the empty input. -/
theorem pool_survives_packing_over_ones :
    (∃ data, pack ⟨true, 7, 1, 2, 3, 4, 5, 6, 8, ⟨1, 100, 2, 100, 3, 100, 4, 100⟩,
        ⟨.redemptionRateCurve, .redemptionRate ⟨0, RAY, 9, RAY⟩⟩⟩ (List.replicate 356 255) =
          .ok data ∧ isInitialized data = true ∧ data.length = LATEST_LEN) ∧
    (unpack []).NoPanic :=
  have ⟨hpack, hunpack⟩ := pool_survives_packing
  have ⟨data, hdata, hinit, hback⟩ := hpack ⟨true, 7, 1, 2, 3, 4, 5, 6, 8,
    ⟨1, 100, 2, 100, 3, 100, 4, 100⟩, ⟨.redemptionRateCurve, .redemptionRate ⟨0, RAY, 9, RAY⟩⟩⟩
    (List.replicate 356 255) rfl rfl List.length_replicate
  ⟨⟨data, hdata, hinit, ((hunpack data).2 _ hback).1⟩, (hunpack []).1⟩

end SwapVersion

end SolanaPsm
