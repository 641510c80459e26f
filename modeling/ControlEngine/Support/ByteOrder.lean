import Mathlib.Data.Nat.Digits.Defs
import Mathlib.Tactic.NormNum

/-!
# Fixed-width words in memory

A word of `width` bytes is a list of bytes, least significant byte first or
last.  The two layouts share their laws: encoding loses only what does not fit
into the width, and decoding loses nothing, so a word can be moved between the
number and its bytes in memory without a case split on the machine.
-/

namespace ControlEngine

/-- One byte of memory or of a stream. -/
abbrev Byte := UInt8

/-- The `width` low-order bytes of `value`, least significant first. -/
def littleEndian : ℕ → ℕ → List Byte
  | 0, _ => []
  | width + 1, value => UInt8.ofNat value :: littleEndian width (value / 256)

@[simp] theorem length_littleEndian (width value : ℕ) :
    (littleEndian width value).length = width := by
  induction width generalizing value with
  | zero => rfl
  | succ width ih => simp [littleEndian, ih]

/-- The number written by bytes that stand least significant first. -/
def ofLittleEndian (bytes : List Byte) : ℕ :=
  Nat.ofDigits 256 (bytes.map UInt8.toNat)

@[simp] theorem ofLittleEndian_nil : ofLittleEndian [] = 0 := rfl

@[simp] theorem ofLittleEndian_cons (byte : Byte) (bytes : List Byte) :
    ofLittleEndian (byte :: bytes) = byte.toNat + 256 * ofLittleEndian bytes := by
  simp [ofLittleEndian, Nat.ofDigits_cons]

theorem ofLittleEndian_littleEndian (width value : ℕ) :
    ofLittleEndian (littleEndian width value) = value % 256 ^ width := by
  induction width generalizing value with
  | zero => simp [littleEndian, Nat.mod_one]
  | succ width ih =>
      rw [littleEndian, ofLittleEndian_cons, ih, pow_succ', Nat.mod_mul]
      simp

theorem ofLittleEndian_lt (bytes : List Byte) :
    ofLittleEndian bytes < 256 ^ bytes.length := by
  induction bytes with
  | nil => simp
  | cons byte bytes ih =>
      rw [ofLittleEndian_cons, List.length_cons, pow_succ]
      have hbyte : byte.toNat < 256 := byte.toNat_lt
      omega

theorem littleEndian_ofLittleEndian (bytes : List Byte) :
    littleEndian bytes.length (ofLittleEndian bytes) = bytes := by
  induction bytes with
  | nil => rfl
  | cons byte bytes ih =>
      have hbyte : byte.toNat < 256 := byte.toNat_lt
      have hhead : UInt8.ofNat (byte.toNat + 256 * ofLittleEndian bytes) = byte := by
        apply UInt8.toNat_inj.mp
        rw [UInt8.toNat_ofNat']
        omega
      have hrest : (byte.toNat + 256 * ofLittleEndian bytes) / 256 =
          ofLittleEndian bytes := by
        omega
      rw [List.length_cons, ofLittleEndian_cons, littleEndian, hhead, hrest, ih]

/-- The order in which a machine lays out the bytes of a word. -/
inductive ByteOrder
  | little
  | big
deriving DecidableEq, Repr

namespace ByteOrder

/-- The bytes of a word in memory. -/
def bytesOf (order : ByteOrder) (width value : ℕ) : List Byte :=
  match order with
  | little => littleEndian width value
  | big => (littleEndian width value).reverse

/-- The number held by the bytes of a word. -/
def valueOf (order : ByteOrder) (bytes : List Byte) : ℕ :=
  match order with
  | little => ofLittleEndian bytes
  | big => ofLittleEndian bytes.reverse

variable (order : ByteOrder)

@[simp] theorem length_bytesOf (width value : ℕ) :
    (order.bytesOf width value).length = width := by
  cases order <;> simp [bytesOf]

theorem valueOf_bytesOf (width value : ℕ) :
    order.valueOf (order.bytesOf width value) = value % 256 ^ width := by
  cases order <;> simp [bytesOf, valueOf, ofLittleEndian_littleEndian]

theorem valueOf_lt (bytes : List Byte) :
    order.valueOf bytes < 256 ^ bytes.length := by
  cases order with
  | little => exact ofLittleEndian_lt bytes
  | big => simpa [valueOf] using ofLittleEndian_lt bytes.reverse

theorem bytesOf_valueOf (bytes : List Byte) :
    order.bytesOf bytes.length (order.valueOf bytes) = bytes := by
  cases order with
  | little => exact littleEndian_ofLittleEndian bytes
  | big =>
      have h := littleEndian_ofLittleEndian bytes.reverse
      rw [List.length_reverse] at h
      simp [bytesOf, valueOf, h]

/-! ## Machine words -/

/-- The bytes of an `n`-bit word that occupies `width` bytes. -/
def encode {n : ℕ} (width : ℕ) (word : BitVec n) : List Byte :=
  order.bytesOf width word.toNat

/-- The `n`-bit word held by a list of bytes. -/
def decode (n : ℕ) (bytes : List Byte) : BitVec n :=
  BitVec.ofNat n (order.valueOf bytes)

@[simp] theorem length_encode {n : ℕ} (width : ℕ) (word : BitVec n) :
    (order.encode width word).length = width := by
  simp [encode]

theorem pow_256_eq {n width : ℕ} (hwidth : n = 8 * width) : 256 ^ width = 2 ^ n := by
  rw [hwidth, pow_mul]
  norm_num

theorem decode_encode {n width : ℕ} (hwidth : n = 8 * width) (word : BitVec n) :
    order.decode n (order.encode width word) = word := by
  have hword : word.toNat < 256 ^ width := by
    rw [pow_256_eq hwidth]
    exact word.isLt
  rw [decode, encode, valueOf_bytesOf, Nat.mod_eq_of_lt hword, BitVec.ofNat_toNat,
    BitVec.setWidth_eq]

theorem encode_decode {n width : ℕ} (hwidth : n = 8 * width) {bytes : List Byte}
    (hbytes : bytes.length = width) :
    order.encode width (order.decode n bytes) = bytes := by
  have hvalue : order.valueOf bytes < 2 ^ n := by
    rw [← pow_256_eq hwidth, ← hbytes]
    exact order.valueOf_lt bytes
  rw [decode, encode, BitVec.toNat_ofNat, Nat.mod_eq_of_lt hvalue, ← hbytes]
  exact order.bytesOf_valueOf bytes

/-- Any one byte of a word can be changed. -/
theorem exists_encode_ne {n width i : ℕ} (hwidth : n = 8 * width) (hi : i < width)
    (word : BitVec n) :
    ∃ other : BitVec n, (order.encode width other)[i]? ≠ (order.encode width word)[i]? := by
  have hlength := order.length_encode width word
  have hbyte : i < (order.encode width word).length := by omega
  let changed := (order.encode width word).set i ((order.encode width word)[i] + 1)
  refine ⟨order.decode n changed, ?_⟩
  rw [order.encode_decode hwidth (by simp [changed]), List.getElem?_eq_getElem hbyte]
  intro hsame
  rw [List.getElem?_set_self hbyte, Option.some.injEq] at hsame
  have hone := congrArg UInt8.toNat hsame
  rw [UInt8.toNat_add] at hone
  have hlt := ((order.encode width word)[i]).toNat_lt
  simp only [UInt8.reduceToNat] at hone
  omega

end ByteOrder
end ControlEngine
