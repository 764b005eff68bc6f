import SolanaPsm.SwapCurve

/-!
# Instructions

The instructions and their byte encoding (`instruction.rs`). The decoder reads a tag
and then the fields from the front of the rest; only Initialize fixes the length of
its input, the others leave extra bytes unread.

`unpack_eq_ok` relates the two directions: decoding yields an instruction exactly on
the buffers that start with its encoding. Round trips, prefixes and the grammar of
accepted buffers are read off it.
-/

namespace SolanaPsm

/-- An address: 32 bytes. -/
abbrev Pubkey : Type := BitVec 256

/-- Initializes a new swap. -/
@[ext] structure Initialize : Type where
  /-- all swap fees -/
  fees : Fees
  /-- swap curve info for pool -/
  swapCurve : SwapCurve
  deriving DecidableEq, Repr

/-- Swap the tokens in the pool. -/
@[ext] structure Swap : Type where
  /-- SOURCE amount to transfer -/
  amountIn : U64
  /-- minimum amount of DESTINATION token to output -/
  minimumAmountOut : U64
  deriving DecidableEq, Repr

/-- Deposit both types of tokens into the pool. -/
@[ext] structure DepositAllTokenTypes : Type where
  /-- pool token amount to transfer -/
  poolTokenAmount : U64
  /-- maximum token A amount to deposit -/
  maximumTokenAAmount : U64
  /-- maximum token B amount to deposit -/
  maximumTokenBAmount : U64
  deriving DecidableEq, Repr

/-- Withdraw both types of tokens from the pool at the current ratio. -/
@[ext] structure WithdrawAllTokenTypes : Type where
  /-- amount of pool tokens to burn -/
  poolTokenAmount : U64
  /-- minimum amount of token A to receive -/
  minimumTokenAAmount : U64
  /-- minimum amount of token B to receive -/
  minimumTokenBAmount : U64
  deriving DecidableEq, Repr

/-- Deposit one type of tokens into the pool. -/
@[ext] structure DepositSingleTokenTypeExactAmountIn : Type where
  /-- token amount to deposit -/
  sourceTokenAmount : U64
  /-- minimum pool token amount to receive -/
  minimumPoolTokenAmount : U64
  deriving DecidableEq, Repr

/-- Withdraw one token type from the pool. -/
@[ext] structure WithdrawSingleTokenTypeExactAmountOut : Type where
  /-- amount of token A or B to receive -/
  destinationTokenAmount : U64
  /-- maximum amount of pool tokens to burn -/
  maximumPoolTokenAmount : U64
  deriving DecidableEq, Repr

/-- Set the rates of a redemption-rate pool. -/
@[ext] structure SetRates : Type where
  /-- new rate -/
  ssr : U128
  /-- time of the update -/
  rho : U128
  /-- conversion factor at that time -/
  chi : U128
  deriving DecidableEq, Repr

/-- Create a permission record. -/
@[ext] structure InitializePermission : Type where
  /-- authority the record is for -/
  permissionAuthority : Pubkey
  /-- may manage permissions -/
  isSuperAdmin : Bool
  /-- may update the rates -/
  canUpdateParameters : Bool
  deriving DecidableEq, Repr

/-- Change the flags of a permission record. -/
@[ext] structure UpdatePermission : Type where
  /-- may manage permissions -/
  isSuperAdmin : Bool
  /-- may update the rates -/
  canUpdateParameters : Bool
  deriving DecidableEq, Repr

/-- Instructions supported by the token swap program. -/
inductive SwapInstruction : Type where
  | initializeSwap (data : Initialize)
  | swap (data : Swap)
  | depositAllTokenTypes (data : DepositAllTokenTypes)
  | withdrawAllTokenTypes (data : WithdrawAllTokenTypes)
  | depositSingleTokenTypeExactAmountIn (data : DepositSingleTokenTypeExactAmountIn)
  | withdrawSingleTokenTypeExactAmountOut (data : WithdrawSingleTokenTypeExactAmountOut)
  | setRates (data : SetRates)
  | initializePermission (data : InitializePermission)
  | updatePermission (data : UpdatePermission)
  deriving DecidableEq, Repr

/-- `Pack::unpack_unchecked`: a slice of any other length is rejected. -/
def unpackUnchecked {α : Type} (len : ℕ) (unpackFromSlice : Bytes → Outcome ProgramError α)
    (input : Bytes) : Outcome ProgramError α := do
  Outcome.rejectIf (input.length ≠ len) ProgramError.invalidAccountData
  unpackFromSlice input

theorem unpackUnchecked_eq_ok {α : Type} {len : ℕ}
    {unpackFromSlice : Bytes → Outcome ProgramError α} {input : Bytes} {x : α} :
    unpackUnchecked len unpackFromSlice input = .ok x ↔
      input.length = len ∧ unpackFromSlice input = .ok x := by
  simp only [unpackUnchecked, Outcome.bind_eq_ok, Outcome.rejectIf_eq_ok, not_not, exists_const]

namespace SwapInstruction

open Bytes (toLE)

/-! ## Decoding -/

/-- Read a flag. -/
def unpackBool : Bytes.Reader ProgramError Bool :=
  Bytes.readBool (ProgramError.custom .invalidInstruction)

/-- Read a 64-bit amount. -/
def unpackU64 : Bytes.Reader ProgramError U64 :=
  Bytes.readLE 8 (ProgramError.custom .invalidInstruction)

/-- Read a 128-bit amount. -/
def unpackU128 : Bytes.Reader ProgramError U128 :=
  Bytes.readLE 16 (ProgramError.custom .invalidInstruction)

/-- Unpacks the bytes after the tag. -/
def unpackTagged (tag : UInt8) (rest : Bytes) : Outcome ProgramError SwapInstruction :=
  match tag.toNat with
  | 0 =>
    if Fees.LEN ≤ rest.length then do
      let fees ← unpackUnchecked Fees.LEN (fun input => .ok (Fees.unpackFromSlice input))
        (rest.take Fees.LEN)
      let swapCurve ← unpackUnchecked SwapCurve.LEN SwapCurve.unpackFromSlice
        (rest.drop Fees.LEN)
      return initializeSwap { fees, swapCurve }
    else .err (.custom .invalidInstruction)
  | 1 => do
    let (amountIn, rest) ← unpackU64 rest
    let (minimumAmountOut, _) ← unpackU64 rest
    return swap { amountIn, minimumAmountOut }
  | 2 => do
    let (poolTokenAmount, rest) ← unpackU64 rest
    let (maximumTokenAAmount, rest) ← unpackU64 rest
    let (maximumTokenBAmount, _) ← unpackU64 rest
    return depositAllTokenTypes { poolTokenAmount, maximumTokenAAmount, maximumTokenBAmount }
  | 3 => do
    let (poolTokenAmount, rest) ← unpackU64 rest
    let (minimumTokenAAmount, rest) ← unpackU64 rest
    let (minimumTokenBAmount, _) ← unpackU64 rest
    return withdrawAllTokenTypes { poolTokenAmount, minimumTokenAAmount, minimumTokenBAmount }
  | 4 => do
    let (sourceTokenAmount, rest) ← unpackU64 rest
    let (minimumPoolTokenAmount, _) ← unpackU64 rest
    return depositSingleTokenTypeExactAmountIn { sourceTokenAmount, minimumPoolTokenAmount }
  | 5 => do
    let (destinationTokenAmount, rest) ← unpackU64 rest
    let (maximumPoolTokenAmount, _) ← unpackU64 rest
    return withdrawSingleTokenTypeExactAmountOut
      { destinationTokenAmount, maximumPoolTokenAmount }
  | 6 => do
    let (ssr, rest) ← unpackU128 rest
    let (rho, rest) ← unpackU128 rest
    let (chi, _) ← unpackU128 rest
    return setRates { ssr, rho, chi }
  | 7 => do
    -- `split_at` aborts when there are fewer than 32 bytes
    let (permissionAuthority, rest) ← Bytes.readSplit 32 rest
    let (isSuperAdmin, rest) ← unpackBool rest
    let (canUpdateParameters, _) ← unpackBool rest
    let permissionAuthority := Bytes.ofLE 32 permissionAuthority
    return initializePermission { permissionAuthority, isSuperAdmin, canUpdateParameters }
  | 8 => do
    let (isSuperAdmin, rest) ← unpackBool rest
    let (canUpdateParameters, _) ← unpackBool rest
    return updatePermission { isSuperAdmin, canUpdateParameters }
  | _ => .err (.custom .invalidInstruction)

/-- Unpacks a byte buffer into a `SwapInstruction`. -/
def unpack (input : Bytes) : Outcome ProgramError SwapInstruction :=
  match input with
  | [] => .err (.custom .invalidInstruction)
  | tag :: rest => unpackTagged tag rest

/-! ## Encoding -/

/-- Packs a `SwapInstruction` into a byte buffer. -/
def pack : SwapInstruction → Bytes
  | initializeSwap ⟨fees, swapCurve⟩ =>
    0 :: (fees.packIntoSlice ++ swapCurve.packIntoSlice (List.replicate SwapCurve.LEN 0))
  | swap ⟨amountIn, minimumAmountOut⟩ => 1 :: (toLE 8 amountIn ++ toLE 8 minimumAmountOut)
  | depositAllTokenTypes ⟨poolTokenAmount, maximumTokenAAmount, maximumTokenBAmount⟩ =>
    2 :: (toLE 8 poolTokenAmount ++ toLE 8 maximumTokenAAmount ++ toLE 8 maximumTokenBAmount)
  | withdrawAllTokenTypes ⟨poolTokenAmount, minimumTokenAAmount, minimumTokenBAmount⟩ =>
    3 :: (toLE 8 poolTokenAmount ++ toLE 8 minimumTokenAAmount ++ toLE 8 minimumTokenBAmount)
  | depositSingleTokenTypeExactAmountIn ⟨sourceTokenAmount, minimumPoolTokenAmount⟩ =>
    4 :: (toLE 8 sourceTokenAmount ++ toLE 8 minimumPoolTokenAmount)
  | withdrawSingleTokenTypeExactAmountOut ⟨destinationTokenAmount, maximumPoolTokenAmount⟩ =>
    5 :: (toLE 8 destinationTokenAmount ++ toLE 8 maximumPoolTokenAmount)
  | setRates ⟨ssr, rho, chi⟩ => 6 :: (toLE 16 ssr ++ toLE 16 rho ++ toLE 16 chi)
  | initializePermission ⟨permissionAuthority, isSuperAdmin, canUpdateParameters⟩ =>
    7 :: (toLE 32 permissionAuthority ++
      [Bytes.boolByte isSuperAdmin, Bytes.boolByte canUpdateParameters])
  | updatePermission ⟨isSuperAdmin, canUpdateParameters⟩ =>
    8 :: [Bytes.boolByte isSuperAdmin, Bytes.boolByte canUpdateParameters]

/-- The curve of an Initialize names its calculator. -/
def WellFormed : SwapInstruction → Prop
  | initializeSwap data => data.swapCurve.WellFormed
  | _ => True

/-- The instruction initializes a pool. -/
def IsInitialize : SwapInstruction → Prop
  | initializeSwap _ => True
  | _ => False

/-! ## The two directions together -/

theorem exact_unpackBool : Bytes.Exact (fun v => [Bytes.boolByte v]) unpackBool :=
  Bytes.exact_readBool _

theorem exact_unpackU64 : Bytes.Exact (toLE 8) unpackU64 := Bytes.exact_readLE 8 _

theorem exact_unpackU128 : Bytes.Exact (toLE 16) unpackU128 := Bytes.exact_readLE 16 _

/-- Initialize: exactly the fees, then a curve of a known type. -/
theorem unpackTagged_zero_eq_ok {rest : Bytes} {i : SwapInstruction} :
    unpackTagged 0 rest = .ok i ↔ ∃ data : Initialize, i = initializeSwap data ∧
      rest.length = Fees.LEN + SwapCurve.LEN ∧ rest.take Fees.LEN = data.fees.packIntoSlice ∧
      SwapCurve.unpackFromSlice (rest.drop Fees.LEN) = .ok data.swapCurve := by
  change (if Fees.LEN ≤ rest.length then _ else _) = _ ↔ _
  refine ⟨?_, ?_⟩
  · intro h
    split at h
    · rename_i hlen
      simp only [Outcome.bind_eq_ok, unpackUnchecked_eq_ok, Outcome.pure_eq, Outcome.ok.injEq] at h
      obtain ⟨_, ⟨hfees, rfl⟩, curve, ⟨hcurve, hunpack⟩, rfl⟩ := h
      refine ⟨_, rfl, ?_, (Fees.pack_unpack hfees).symm, hunpack⟩
      rw [List.length_drop] at hcurve
      omega
    · cases h
  · rintro ⟨⟨fees, curve⟩, rfl, hlen, hfees, hcurve⟩
    dsimp only at hfees hcurve
    have hdrop : (rest.drop Fees.LEN).length = SwapCurve.LEN := by
      rw [List.length_drop]
      omega
    rw [if_pos (by omega), hfees]
    simp only [Outcome.bind_eq_ok, unpackUnchecked_eq_ok, Outcome.pure_eq, Outcome.ok.injEq,
      Fees.length_packIntoSlice, true_and, Fees.unpack_pack]
    exact ⟨fees, rfl, curve, ⟨hdrop, hcurve⟩, rfl⟩

/-- A buffer that decodes to anything but an Initialize starts with the encoding. -/
theorem prefix_of_unpack {b : Bytes} {i : SwapInstruction} (hi : ¬ i.IsInitialize)
    (h : unpack b = .ok i) : ∃ rest, b = i.pack ++ rest := by
  cases b with
  | nil => cases h
  | cons tag rest =>
    have htag {n : ℕ} (hn : tag.toNat = n) : tag = UInt8.ofNat n := by
      rw [← hn, UInt8.ofNat_toNat]
    simp only [unpack, unpackTagged] at h
    split at h <;> rename_i hn
    · -- tag 0 only yields an Initialize
      obtain ⟨data, rfl, -⟩ := unpackTagged_zero_eq_ok.mp h
      exact absurd trivial hi
    any_goals
      simp only [exact_unpackU64.bind_eq_ok, exact_unpackU128.bind_eq_ok,
        exact_unpackBool.bind_eq_ok, Outcome.pure_eq, Outcome.ok.injEq] at h
    · obtain ⟨x, _, rfl, y, tail, rfl, rfl⟩ := h
      exact ⟨tail, by simp [pack, htag hn]⟩
    · obtain ⟨x, _, rfl, y, _, rfl, z, tail, rfl, rfl⟩ := h
      exact ⟨tail, by simp [pack, htag hn]⟩
    · obtain ⟨x, _, rfl, y, _, rfl, z, tail, rfl, rfl⟩ := h
      exact ⟨tail, by simp [pack, htag hn]⟩
    · obtain ⟨x, _, rfl, y, tail, rfl, rfl⟩ := h
      exact ⟨tail, by simp [pack, htag hn]⟩
    · obtain ⟨x, _, rfl, y, tail, rfl, rfl⟩ := h
      exact ⟨tail, by simp [pack, htag hn]⟩
    · obtain ⟨x, _, rfl, y, _, rfl, z, tail, rfl, rfl⟩ := h
      exact ⟨tail, by simp [pack, htag hn]⟩
    · obtain ⟨⟨key, _⟩, hkey, hflags⟩ := Outcome.bind_eq_ok.mp h
      obtain ⟨hlen, rfl⟩ := Bytes.readSplit_eq_ok.mp hkey
      simp only [exact_unpackBool.bind_eq_ok, Outcome.ok.injEq] at hflags
      obtain ⟨x, _, rfl, y, tail, rfl, rfl⟩ := hflags
      exact ⟨tail, by simp [pack, htag hn, Bytes.toLE_ofLE hlen]⟩
    · obtain ⟨x, _, rfl, y, tail, rfl, rfl⟩ := h
      exact ⟨tail, by simp [pack, htag hn]⟩
    · cases h

/-- The encoding of anything but an Initialize is decoded, whatever follows it. -/
theorem unpack_pack_append {i : SwapInstruction} (hi : ¬ i.IsInitialize) (tail : Bytes) :
    unpack (i.pack ++ tail) = .ok i := by
  cases i with
  | initializeSwap data => exact absurd trivial hi
  | swap data =>
    simp only [pack, List.cons_append, List.append_assoc, unpack]
    refine exact_unpackU64.bind_eq_ok.mpr ⟨_, _, rfl, ?_⟩
    exact exact_unpackU64.bind_eq_ok.mpr ⟨_, _, rfl, rfl⟩
  | depositAllTokenTypes data =>
    simp only [pack, List.cons_append, List.append_assoc, unpack]
    refine exact_unpackU64.bind_eq_ok.mpr ⟨_, _, rfl, ?_⟩
    refine exact_unpackU64.bind_eq_ok.mpr ⟨_, _, rfl, ?_⟩
    exact exact_unpackU64.bind_eq_ok.mpr ⟨_, _, rfl, rfl⟩
  | withdrawAllTokenTypes data =>
    simp only [pack, List.cons_append, List.append_assoc, unpack]
    refine exact_unpackU64.bind_eq_ok.mpr ⟨_, _, rfl, ?_⟩
    refine exact_unpackU64.bind_eq_ok.mpr ⟨_, _, rfl, ?_⟩
    exact exact_unpackU64.bind_eq_ok.mpr ⟨_, _, rfl, rfl⟩
  | depositSingleTokenTypeExactAmountIn data =>
    simp only [pack, List.cons_append, List.append_assoc, unpack]
    refine exact_unpackU64.bind_eq_ok.mpr ⟨_, _, rfl, ?_⟩
    exact exact_unpackU64.bind_eq_ok.mpr ⟨_, _, rfl, rfl⟩
  | withdrawSingleTokenTypeExactAmountOut data =>
    simp only [pack, List.cons_append, List.append_assoc, unpack]
    refine exact_unpackU64.bind_eq_ok.mpr ⟨_, _, rfl, ?_⟩
    exact exact_unpackU64.bind_eq_ok.mpr ⟨_, _, rfl, rfl⟩
  | setRates data =>
    simp only [pack, List.cons_append, List.append_assoc, unpack]
    refine exact_unpackU128.bind_eq_ok.mpr ⟨_, _, rfl, ?_⟩
    refine exact_unpackU128.bind_eq_ok.mpr ⟨_, _, rfl, ?_⟩
    exact exact_unpackU128.bind_eq_ok.mpr ⟨_, _, rfl, rfl⟩
  | initializePermission data =>
    simp only [pack, List.cons_append, List.append_assoc, List.nil_append, unpack]
    refine Outcome.bind_eq_ok.mpr
      ⟨_, Bytes.readSplit_eq_ok.mpr ⟨Bytes.length_toLE 32 data.permissionAuthority, rfl⟩, ?_⟩
    refine exact_unpackBool.bind_eq_ok.mpr ⟨_, _, rfl, ?_⟩
    refine exact_unpackBool.bind_eq_ok.mpr ⟨_, _, rfl, ?_⟩
    simp only [Bytes.ofLE_toLE]
    rfl
  | updatePermission data =>
    simp only [pack, List.cons_append, List.nil_append, unpack]
    refine exact_unpackBool.bind_eq_ok.mpr ⟨_, _, rfl, ?_⟩
    exact exact_unpackBool.bind_eq_ok.mpr ⟨_, _, rfl, rfl⟩

/-- Every other instruction is decoded exactly from the buffers that start with its
encoding. -/
theorem unpack_eq_ok {b : Bytes} {i : SwapInstruction} (hi : ¬ i.IsInitialize) :
    unpack b = .ok i ↔ ∃ rest, b = i.pack ++ rest := by
  refine ⟨?_, ?_⟩
  · exact prefix_of_unpack hi
  · rintro ⟨rest, rfl⟩
    exact unpack_pack_append hi rest

/-- A well-formed Initialize is decoded from its encoding. -/
theorem unpack_pack_initialize {data : Initialize} (h : data.swapCurve.WellFormed) :
    unpack (initializeSwap data).pack = .ok (initializeSwap data) := by
  have hfees := Fees.length_packIntoSlice data.fees
  rw [pack, unpack]
  refine unpackTagged_zero_eq_ok.mpr ⟨data, rfl, ?_, List.take_left' hfees, ?_⟩
  · rw [List.length_append, hfees,
      SwapCurve.length_packIntoSlice _ (List.length_replicate)]
  · rw [List.drop_left' hfees]
    exact h.unpack_pack _

/-- An Initialize is only decoded under tag 0. -/
theorem tag_of_initializeSwap {tag : UInt8} {rest : Bytes} {data : Initialize}
    (h : unpack (tag :: rest) = .ok (initializeSwap data)) : tag.toNat = 0 := by
  simp only [unpack, unpackTagged] at h
  split at h
  · assumption
  all_goals
    simp [exact_unpackU64.bind_eq_ok, exact_unpackU128.bind_eq_ok,
      exact_unpackBool.bind_eq_ok, Outcome.bind_eq_ok] at h

/-- What is decoded is well formed. -/
theorem wellFormed_of_unpack {b : Bytes} {i : SwapInstruction} (h : unpack b = .ok i) :
    i.WellFormed := by
  cases i with
  | initializeSwap data =>
    cases b with
    | nil => cases h
    | cons tag rest =>
      have htag : tag = 0 := UInt8.toNat_inj.mp (tag_of_initializeSwap h)
      rw [htag] at h
      obtain ⟨_, hdata, -, -, hcurve⟩ := unpackTagged_zero_eq_ok.mp h
      obtain rfl := initializeSwap.inj hdata
      exact SwapCurve.wellFormed_of_unpack hcurve
  | _ => exact trivial

/-! ## Round trips -/

/-- Encoding and decoding are inverse, and extra trailing bytes are harmless: a
well-formed instruction is decoded from its encoding; unless it is an Initialize,
with any bytes behind it; and what is decoded under the tags 1 to 8 starts with its
own encoding. -/
theorem encode_decode_inverse :
    (∀ i : SwapInstruction, i.WellFormed → unpack i.pack = .ok i) ∧
    (∀ (i : SwapInstruction) (tail : Bytes), i.WellFormed → ¬ i.IsInitialize →
      unpack (i.pack ++ tail) = .ok i) ∧
    (∀ (tag : UInt8) (rest : Bytes) (i : SwapInstruction), 1 ≤ tag.toNat → tag.toNat ≤ 8 →
      unpack (tag :: rest) = .ok i → i.pack <+: tag :: rest) := by
  refine ⟨fun i hi => ?_, fun i tail _ hi => (unpack_eq_ok hi).mpr ⟨tail, rfl⟩, ?_⟩
  · cases i with
    | initializeSwap data => exact unpack_pack_initialize hi
    | _ => exact (unpack_eq_ok id).mpr ⟨[], (List.append_nil _).symm⟩
  · intro tag rest i htag _ h
    by_cases hi : i.IsInitialize
    · cases i with
      | initializeSwap data =>
        have := tag_of_initializeSwap h
        omega
      | _ => exact hi.elim
    · obtain ⟨tail, htail⟩ := (unpack_eq_ok hi).mp h
      exact ⟨tail, htail.symm⟩

/-! ## The grammar of instructions -/

/-- A byte that is a flag. -/
def IsFlag (byte : Option UInt8) : Prop := byte = some 0 ∨ byte = some 1

/-- The buffers that are instructions, by the tag and the bytes after it. -/
def Grammar : Bytes → Prop
  | [] => False
  | tag :: rest =>
    match tag.toNat with
    | 0 => rest.length = 64 + 65 ∧ ∃ curveType, rest[64]? = some curveType ∧ curveType.toNat ≤ 3
    | 1 | 4 | 5 => 16 ≤ rest.length
    | 2 | 3 => 24 ≤ rest.length
    | 6 => 48 ≤ rest.length
    | 7 => 34 ≤ rest.length ∧ IsFlag rest[32]? ∧ IsFlag rest[33]?
    | 8 => 2 ≤ rest.length ∧ IsFlag rest[0]? ∧ IsFlag rest[1]?
    | _ => False

/-- An InitializePermission that ends before its 32-byte key does. -/
def TruncatedKey : Bytes → Prop
  | [] => False
  | tag :: rest => tag = 7 ∧ rest.length < 32

theorem IsFlag.length_lt {rest : Bytes} {n : ℕ} (h : IsFlag rest[n]?) : n < rest.length := by
  by_contra hn
  rw [IsFlag, List.getElem?_eq_none (not_lt.mp hn)] at h
  simp at h

theorem curveType_tryFrom_isOk {b : UInt8} : (CurveType.tryFrom b).isOk ↔ b.toNat ≤ 3 := by
  rw [Outcome.isOk_iff]
  simp only [CurveType.tryFrom_eq_ok]
  refine ⟨?_, ?_⟩
  · rintro ⟨ct, rfl⟩
    cases ct <;> decide
  · intro h
    have hb : b = 0 ∨ b = 1 ∨ b = 2 ∨ b = 3 := by
      simp only [← UInt8.toNat_inj]
      simp
      omega
    rcases hb with rfl | rfl | rfl | rfl
    exacts [⟨.constantProduct, rfl⟩, ⟨.constantPrice, rfl⟩, ⟨.offset, rfl⟩,
      ⟨.redemptionRateCurve, rfl⟩]

/-- The Initialize branch accepts fees followed by a curve of a known type. -/
theorem unpackTagged_zero_isOk {rest : Bytes} :
    (unpackTagged 0 rest).isOk ↔
      rest.length = 64 + 65 ∧ ∃ curveType, rest[64]? = some curveType ∧ curveType.toNat ≤ 3 := by
  rw [Outcome.isOk_iff]
  simp only [unpackTagged_zero_eq_ok]
  refine ⟨?_, ?_⟩
  · rintro ⟨_, data, -, hlen, -, hcurve⟩
    refine ⟨hlen, ?_⟩
    cases hdrop : rest.drop Fees.LEN with
    | nil =>
      rw [hdrop] at hcurve
      cases hcurve
    | cons b tail =>
      rw [hdrop, SwapCurve.unpackFromSlice_eq_ok] at hcurve
      refine ⟨b, ?_, curveType_tryFrom_isOk.mp (by rw [hcurve.1, CurveType.tryFrom_toU8]; rfl)⟩
      have hget := congrArg (fun l => l[0]?) hdrop
      simpa [Fees.LEN] using hget
  · rintro ⟨hlen, b, hb, hle⟩
    obtain ⟨ct, hct⟩ := Outcome.isOk_iff.mp (curveType_tryFrom_isOk.mpr hle)
    obtain rfl := CurveType.tryFrom_eq_ok.mp hct
    obtain ⟨hlt, hget⟩ := List.getElem?_eq_some_iff.mp hb
    have hdrop : rest.drop Fees.LEN = ct.toU8 :: rest.drop 65 := by
      rw [← hget]
      exact List.drop_eq_getElem_cons hlt
    refine ⟨_, ⟨Fees.unpackFromSlice (rest.take Fees.LEN),
      ⟨ct, Calculator.unpackFromSlice ct (rest.drop 65)⟩⟩, rfl, hlen, ?_, ?_⟩
    · refine (Fees.pack_unpack ?_).symm
      rw [List.length_take, hlen]
      decide
    · rw [hdrop, SwapCurve.unpackFromSlice_eq_ok]
      exact ⟨rfl, rfl⟩

theorem isOk_unpackU64_bind {b : Bytes} {f : U64 × Bytes → Outcome ProgramError SwapInstruction} :
    (unpackU64 b >>= f).isOk ↔
      8 ≤ b.length ∧ (f (Bytes.ofLE 8 (b.take 8), b.drop 8)).isOk :=
  Bytes.isOk_readLE_bind

theorem isOk_unpackU128_bind {b : Bytes}
    {f : U128 × Bytes → Outcome ProgramError SwapInstruction} :
    (unpackU128 b >>= f).isOk ↔
      16 ≤ b.length ∧ (f (Bytes.ofLE 16 (b.take 16), b.drop 16)).isOk :=
  Bytes.isOk_readLE_bind

/-- Two flags in a row. -/
theorem isOk_two_flags (b : Bytes) (f : Bool → Bool → SwapInstruction) :
    (unpackBool b >>= fun x => unpackBool x.2 >>= fun y =>
      (.ok (f x.1 y.1) : Outcome ProgramError SwapInstruction)).isOk ↔
      IsFlag b[0]? ∧ IsFlag b[1]? := by
  simp only [unpackBool, Bytes.isOk_readBool_bind, Outcome.isOk_ok, and_true, List.getElem?_drop,
    IsFlag]
  tauto

/-- Exactly the grammar is accepted. -/
theorem unpack_isOk_iff {tag : UInt8} {rest : Bytes} :
    (unpack (tag :: rest)).isOk ↔ Grammar (tag :: rest) := by
  by_cases h0 : tag = 0
  · rw [h0]
    exact unpackTagged_zero_isOk
  have hne : tag.toNat ≠ 0 := fun h => h0 (UInt8.toNat_inj.mp h)
  simp only [unpack, unpackTagged, Grammar]
  generalize tag.toNat = n at hne
  split
  · exact absurd rfl hne
  case h_8 =>
    have hflags := isOk_two_flags (rest.drop 32)
      fun x y => initializePermission ⟨Bytes.ofLE 32 (rest.take 32), x, y⟩
    rw [List.getElem?_drop, List.getElem?_drop] at hflags
    rw [Bytes.isOk_readSplit_bind]
    refine ⟨?_, ?_⟩
    · rintro ⟨-, h⟩
      obtain ⟨h₀, h₁⟩ := hflags.mp h
      exact ⟨h₁.length_lt, h₀, h₁⟩
    · rintro ⟨hlen, h⟩
      exact ⟨by omega, hflags.mpr h⟩
  case h_9 =>
    refine (isOk_two_flags rest fun x y => updatePermission ⟨x, y⟩).trans ?_
    exact ⟨fun h => ⟨h.2.length_lt, h⟩, And.right⟩
  case h_10 => simp
  all_goals
    simp only [isOk_unpackU64_bind, isOk_unpackU128_bind, Outcome.pure_eq, Outcome.isOk_ok,
      and_true, List.length_drop]
    omega

/-- Reading on after a reader that never aborts. -/
theorem noPanic_bind {α : Type} {read : Bytes.Reader ProgramError α}
    (hread : ∀ b, (read b).NoPanic) {b : Bytes}
    {f : α × Bytes → Outcome ProgramError SwapInstruction} (hf : ∀ x, (f x).NoPanic) :
    (read b >>= f).NoPanic := (hread b).bind fun x _ => hf x

theorem noPanic_unpackU64 (b : Bytes) : (unpackU64 b).NoPanic := Bytes.noPanic_readLE 8 _ b

theorem noPanic_unpackU128 (b : Bytes) : (unpackU128 b).NoPanic := Bytes.noPanic_readLE 16 _ b

theorem noPanic_unpackBool (b : Bytes) : (unpackBool b).NoPanic := Bytes.noPanic_readBool _ b

/-- The nested layouts never abort: their length is checked first. -/
theorem noPanic_unpackTagged_zero (rest : Bytes) : (unpackTagged 0 rest).NoPanic := by
  change (if Fees.LEN ≤ rest.length then _ else _ : Outcome ProgramError SwapInstruction).NoPanic
  split
  · refine Outcome.NoPanic.bind ?_ fun fees _ => ?_
    · exact Outcome.noPanic_rejectIf.bind fun _ _ => Outcome.noPanic_ok _
    · refine Outcome.NoPanic.bind ?_ fun _ _ => Outcome.noPanic_ok _
      refine Outcome.noPanic_rejectIf.bind fun _ hlen => ?_
      rw [Outcome.rejectIf_eq_ok, not_not] at hlen
      exact SwapCurve.noPanic_unpackFromSlice (List.ne_nil_of_length_pos (by rw [hlen]; decide))
  · exact Outcome.noPanic_err _

/-- Decoding only aborts on a truncated key. -/
theorem unpack_noPanic_iff {tag : UInt8} {rest : Bytes} :
    (unpack (tag :: rest)).NoPanic ↔ ¬ TruncatedKey (tag :: rest) := by
  have hseven {n : ℕ} (hn : tag.toNat = n) (h7 : n ≠ 7) : ¬ TruncatedKey (tag :: rest) := by
    rintro ⟨rfl, -⟩
    exact h7 hn.symm
  rw [unpack, unpackTagged]
  dsimp only
  split
  case h_1 hn =>
    exact iff_of_true (noPanic_unpackTagged_zero rest) (hseven hn (by decide))
  case h_8 hn =>
    have htag : tag = 7 := UInt8.toNat_inj.mp hn
    rw [TruncatedKey, and_iff_right htag, not_lt, Bytes.readSplit]
    split
    · rename_i hlen
      refine iff_of_true ?_ hlen
      exact noPanic_bind noPanic_unpackBool fun _ =>
        noPanic_bind noPanic_unpackBool fun _ => Outcome.noPanic_ok _
    · rename_i hlen
      exact iff_of_false Outcome.not_noPanic_panic hlen
  case h_9 hn =>
    exact iff_of_true (noPanic_bind noPanic_unpackBool fun _ =>
      noPanic_bind noPanic_unpackBool fun _ => Outcome.noPanic_ok _) (hseven hn (by decide))
  case h_10 =>
    refine iff_of_true (Outcome.noPanic_err _) ?_
    rintro ⟨rfl, -⟩
    simp_all
  case h_7 hn =>
    exact iff_of_true (noPanic_bind noPanic_unpackU128 fun _ =>
      noPanic_bind noPanic_unpackU128 fun _ =>
        noPanic_bind noPanic_unpackU128 fun _ => Outcome.noPanic_ok _) (hseven hn (by decide))
  case h_2 hn | h_5 hn | h_6 hn =>
    exact iff_of_true (noPanic_bind noPanic_unpackU64 fun _ =>
      noPanic_bind noPanic_unpackU64 fun _ => Outcome.noPanic_ok _) (hseven hn (by decide))
  case h_3 hn | h_4 hn =>
    exact iff_of_true (noPanic_bind noPanic_unpackU64 fun _ =>
      noPanic_bind noPanic_unpackU64 fun _ =>
        noPanic_bind noPanic_unpackU64 fun _ => Outcome.noPanic_ok _) (hseven hn (by decide))

/-- Decoding is total and accepts exactly the grammar, except on a truncated key,
where it aborts. -/
theorem decoding_total_iff (b : Bytes) :
    ((unpack b).NoPanic ∧ ((unpack b).isOk ↔ Grammar b)) ↔ ¬ TruncatedKey b := by
  cases b with
  | nil => simp [unpack, Grammar, TruncatedKey]
  | cons tag rest =>
    rw [← unpack_isOk_iff, ← unpack_noPanic_iff]
    exact and_iff_left Iff.rfl

/-- A lone tag 7 aborts. -/
theorem decoding_aborts : ¬ ((unpack [7]).NoPanic ∧ ((unpack [7]).isOk ↔ Grammar [7])) :=
  fun h => h.1 rfl

end SwapInstruction

end SolanaPsm
