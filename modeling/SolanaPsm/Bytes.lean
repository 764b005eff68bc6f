import SolanaPsm.Checked
import Mathlib.Data.List.Basic
import Mathlib.Tactic.Ring

/-!
# Byte layouts

Reading and writing fixed layouts.

* `encodeLE` / `decodeLE`: little-endian numbers of a fixed number of bytes, with
  both round trips; `toLE` / `ofLE` are the same for machine integers.
* `slice` is one field at an offset, `splitFields` the consecutive fields of given
  lengths. A record is written as the concatenation of its fields; cutting and
  concatenating are inverse (`splitFields_flatten`, `flatten_splitFields`), so a
  codec is proved correct field by field.
* `boolByte`: a flag as one byte.
* `Reader`: reading from the front of a buffer. `Exact` relates a reader to an
  encoding in both directions at once, with an arbitrary rest behind the value, so
  readers compose.
-/

/-- A byte string. -/
abbrev Bytes : Type := List UInt8

namespace Bytes

/-! ## Little-endian numbers -/

/-- The `k` low bytes of `n`, least significant first. -/
def encodeLE : (k n : ℕ) → Bytes
  | 0, _ => []
  | k + 1, n => UInt8.ofNat n :: encodeLE k (n / 256)

/-- The number written least significant byte first. -/
def decodeLE : Bytes → ℕ
  | [] => 0
  | b :: bs => b.toNat + 256 * decodeLE bs

@[simp] theorem length_encodeLE (k n : ℕ) : (encodeLE k n).length = k := by
  induction k generalizing n with
  | zero => rfl
  | succ k ih => rw [encodeLE, List.length_cons, ih]

theorem decodeLE_lt (bs : Bytes) : decodeLE bs < 256 ^ bs.length := by
  induction bs with
  | nil => exact Nat.one_pos
  | cons b bs ih =>
    have hb : b.toNat < 256 := b.toNat_lt
    rw [decodeLE, List.length_cons, pow_succ]
    omega

/-- A number that fits is read back. -/
theorem decodeLE_encodeLE {k n : ℕ} (h : n < 256 ^ k) : decodeLE (encodeLE k n) = n := by
  induction k generalizing n with
  | zero => exact (Nat.lt_one_iff.mp h).symm
  | succ k ih =>
    have hdiv : n / 256 < 256 ^ k := by
      rw [pow_succ] at h
      exact Nat.div_lt_of_lt_mul (by omega)
    rw [encodeLE, decodeLE, ih hdiv, UInt8.toNat_ofNat']
    exact Nat.mod_add_div n 256

/-- Bytes that were read are written back. -/
theorem encodeLE_decodeLE (bs : Bytes) : encodeLE bs.length (decodeLE bs) = bs := by
  induction bs with
  | nil => rfl
  | cons b bs ih =>
    have hb : b.toNat < 256 := b.toNat_lt
    have hdiv : (b.toNat + 256 * decodeLE bs) / 256 = decodeLE bs := by omega
    have hlow : UInt8.ofNat (b.toNat + 256 * decodeLE bs) = b := by
      apply UInt8.toNat_inj.mp
      rw [UInt8.toNat_ofNat']
      omega
    rw [List.length_cons, decodeLE, encodeLE, hdiv, hlow, ih]

/-- `to_le_bytes` of a machine integer of `8 * k` bits. -/
def toLE (k : ℕ) (x : BitVec (8 * k)) : Bytes := encodeLE k x.toNat

/-- `from_le_bytes` of a machine integer of `8 * k` bits. -/
def ofLE (k : ℕ) (bs : Bytes) : BitVec (8 * k) := BitVec.ofNat (8 * k) (decodeLE bs)

@[simp] theorem length_toLE (k : ℕ) (x : BitVec (8 * k)) : (toLE k x).length = k :=
  length_encodeLE _ _

theorem pow_bytes (k : ℕ) : (256 : ℕ) ^ k = 2 ^ (8 * k) := by
  rw [pow_mul]
  norm_num

@[simp] theorem ofLE_toLE (k : ℕ) (x : BitVec (8 * k)) : ofLE k (toLE k x) = x := by
  rw [ofLE, toLE, decodeLE_encodeLE (by rw [pow_bytes]; exact x.isLt), BitVec.ofNat_toNat,
    BitVec.setWidth_eq]

theorem toLE_ofLE {k : ℕ} {bs : Bytes} (h : bs.length = k) : toLE k (ofLE k bs) = bs := by
  subst h
  have hlt : decodeLE bs < 2 ^ (8 * bs.length) := pow_bytes bs.length ▸ decodeLE_lt bs
  rw [toLE, ofLE, BitVec.toNat_ofNat, Nat.mod_eq_of_lt hlt, encodeLE_decodeLE]

/-! ## Consecutive fields -/

/-- The `len` bytes from offset `off`. -/
def slice (off len : ℕ) (b : Bytes) : Bytes := (b.drop off).take len

theorem length_slice {off len : ℕ} {b : Bytes} (h : off + len ≤ b.length) :
    (slice off len b).length = len := by
  rw [slice, List.length_take, List.length_drop]
  omega

/-- The consecutive fields of the given lengths, from offset `off` on. -/
def splitFields : (off : ℕ) → (lens : List ℕ) → Bytes → List Bytes
  | _, [], _ => []
  | off, n :: lens, b => slice off n b :: splitFields (off + n) lens b

/-- Cutting a concatenation of fields gives the fields back, whatever stands before
and after it. -/
theorem splitFields_append_flatten {before after : Bytes} {fields : List Bytes} {off : ℕ}
    {lens : List ℕ} (hoff : before.length = off) (hlens : fields.map List.length = lens) :
    splitFields off lens (before ++ (fields.flatten ++ after)) = fields := by
  subst hoff hlens
  induction fields generalizing before with
  | nil => rfl
  | cons f fields ih =>
    have hrest := @ih (before ++ f)
    rw [List.append_assoc, List.length_append] at hrest
    rw [List.map_cons, splitFields, List.flatten_cons, List.append_assoc, hrest, slice,
      List.drop_left, List.take_left]

/-- Cutting a concatenation of fields gives the fields back. -/
theorem splitFields_flatten {fields : List Bytes} {lens : List ℕ}
    (h : fields.map List.length = lens) : splitFields 0 lens fields.flatten = fields := by
  have hnil := @splitFields_append_flatten [] [] fields 0 lens rfl h
  rwa [List.append_nil, List.nil_append] at hnil

/-- Concatenating the fields of a buffer gives back what they cover. -/
theorem flatten_splitFields (off : ℕ) (lens : List ℕ) (b : Bytes) :
    (splitFields off lens b).flatten = slice off lens.sum b := by
  induction lens generalizing off with
  | nil => simp [splitFields, slice]
  | cons n lens ih =>
    rw [splitFields, List.flatten_cons, ih, slice, slice, slice, List.sum_cons, ← List.drop_drop,
      List.take_add]

/-- The fields that cover a whole buffer, concatenated. -/
theorem flatten_splitFields_zero {lens : List ℕ} {b : Bytes} (h : b.length = lens.sum) :
    (splitFields 0 lens b).flatten = b := by
  rw [flatten_splitFields, slice, List.drop_zero, ← h, List.take_length]

/-! ## Flags -/

/-- A flag as a byte. -/
def boolByte (b : Bool) : UInt8 := if b then 1 else 0

@[simp] theorem boolByte_ne_zero (b : Bool) : (boolByte b != 0) = b := by
  cases b <;> rfl

/-! ## Readers -/

section Reader

variable {ε α β : Type}

/-- A reader takes a value from the front of a buffer and returns it with the rest. -/
abbrev Reader (ε α : Type) : Type := Bytes → Outcome ε (α × Bytes)

/-- A reader is exact for an encoding when it accepts precisely the buffers that
start with an encoded value. -/
def Exact (encode : α → Bytes) (read : Reader ε α) : Prop :=
  ∀ (b : Bytes) (x : α) (rest : Bytes), read b = .ok (x, rest) ↔ b = encode x ++ rest

/-- Reading on after an exact reader. -/
theorem Exact.bind_eq_ok {encode : α → Bytes} {read : Reader ε α} (h : Exact encode read)
    {f : α × Bytes → Outcome ε β} {b : Bytes} {r : β} :
    (read b >>= f) = .ok r ↔ ∃ x rest, b = encode x ++ rest ∧ f (x, rest) = .ok r := by
  simp only [Outcome.bind_eq_ok, Prod.exists, h b]

/-- A little-endian integer of `k` bytes; a short buffer fails with `e`. -/
def readLE (k : ℕ) (e : ε) : Reader ε (BitVec (8 * k)) := fun input =>
  if k ≤ input.length then .ok (ofLE k (input.take k), input.drop k) else .err e

/-- One byte, zero or one; anything else fails with `e`. -/
def readBool (e : ε) : Reader ε Bool
  | [] => .err e
  | byte :: rest =>
    if byte = 0 then .ok (false, rest)
    else if byte = 1 then .ok (true, rest)
    else .err e

/-- The first `n` bytes; a short buffer aborts. -/
def readSplit (n : ℕ) : Reader ε Bytes := fun input =>
  if n ≤ input.length then .ok (input.take n, input.drop n) else .panic

theorem exact_readLE (k : ℕ) (e : ε) : Exact (toLE k) (readLE k e) := by
  intro b x rest
  rw [readLE]
  refine ⟨?_, ?_⟩
  · intro h
    split at h
    · rename_i hk
      obtain ⟨rfl, rfl⟩ := Prod.mk.inj (Outcome.ok.inj h)
      rw [toLE_ofLE (by rw [List.length_take]; omega), List.take_append_drop]
    · cases h
  · rintro rfl
    rw [if_pos (by simp), List.take_left' (length_toLE k x), List.drop_left' (length_toLE k x),
      ofLE_toLE]

theorem exact_readBool (e : ε) : Exact (fun v => [boolByte v]) (readBool e) := by
  intro b v rest
  refine ⟨?_, ?_⟩
  · intro h
    cases b with
    | nil => cases h
    | cons byte rest' =>
      simp only [readBool] at h
      split at h
      · rename_i h0
        obtain ⟨rfl, rfl⟩ := Prod.mk.inj (Outcome.ok.inj h)
        rw [h0]
        rfl
      · split at h
        · rename_i h1
          obtain ⟨rfl, rfl⟩ := Prod.mk.inj (Outcome.ok.inj h)
          rw [h1]
          rfl
        · cases h
  · rintro rfl
    cases v <;> rfl

theorem readSplit_eq_ok {n : ℕ} {b front rest : Bytes} :
    (readSplit n b : Outcome ε _) = .ok (front, rest) ↔ front.length = n ∧ b = front ++ rest := by
  rw [readSplit]
  refine ⟨?_, ?_⟩
  · intro h
    split at h
    · rename_i hn
      obtain ⟨rfl, rfl⟩ := Prod.mk.inj (Outcome.ok.inj h)
      exact ⟨List.length_take_of_le hn, (List.take_append_drop n b).symm⟩
    · cases h
  · rintro ⟨rfl, rfl⟩
    rw [if_pos (by simp), List.take_left, List.drop_left]

/-! Which buffers a reader accepts, with what is read next. -/

theorem isOk_readLE_bind {k : ℕ} {e : ε} {b : Bytes} {f : BitVec (8 * k) × Bytes → Outcome ε β} :
    (readLE k e b >>= f).isOk ↔ k ≤ b.length ∧ (f (ofLE k (b.take k), b.drop k)).isOk := by
  rw [readLE]
  split <;> simp [*, Outcome.isOk]

theorem isOk_readBool_bind {e : ε} {b : Bytes} {f : Bool × Bytes → Outcome ε β} :
    (readBool e b >>= f).isOk ↔ (b[0]? = some 0 ∧ (f (false, b.drop 1)).isOk) ∨
      (b[0]? = some 1 ∧ (f (true, b.drop 1)).isOk) := by
  cases b with
  | nil => simp [readBool, Outcome.isOk]
  | cons byte rest =>
    simp only [readBool, List.getElem?_cons_zero, Option.some.injEq, List.drop_one, List.tail_cons]
    split
    · rename_i h0
      simp [h0]
    · split
      · rename_i h0 h1
        simp [h1]
      · simp [*, Outcome.isOk]

theorem isOk_readSplit_bind {n : ℕ} {b : Bytes} {f : Bytes × Bytes → Outcome ε β} :
    (readSplit n b >>= f).isOk ↔ n ≤ b.length ∧ (f (b.take n, b.drop n)).isOk := by
  rw [readSplit]
  split <;> simp [*, Outcome.isOk]

theorem noPanic_readLE (k : ℕ) (e : ε) (b : Bytes) : (readLE k e b).NoPanic := by
  rw [readLE]
  split <;> simp

theorem noPanic_readBool (e : ε) (b : Bytes) : (readBool e b).NoPanic := by
  cases b with
  | nil => simp [readBool]
  | cons byte rest =>
    simp only [readBool]
    split
    · simp
    · split <;> simp

end Reader

end Bytes
