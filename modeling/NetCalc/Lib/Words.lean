import Mathlib.Tactic.NormNum

/-!
# Machine words as bytes

A word of `8 * k` bits is `k` bytes, least significant first: `encode` lays it
out in memory and `decode` loads it back. `byteSwap` reverses the bytes of a
word, which turns a word loaded least significant first into the word whose
bytes were written most significant first.

A packed record is its fields' bytes one after the other. `slice` cuts a field
out of a block, and the rules about `slice` and `++` read a field of a block
that is written as such a sum.
-/

namespace NetCalc.Lib

set_option autoImplicit false

/-- A byte of memory. -/
abbrev Byte := BitVec 8

/-- The `k` low bytes of a natural, least significant first. -/
def bytesOf : Nat → Nat → List Byte
  | 0, _ => []
  | k + 1, v => BitVec.ofNat 8 v :: bytesOf k (v / 256)

/-- The natural that bytes denote, least significant first. -/
def valueOf : List Byte → Nat
  | [] => 0
  | b :: bs => b.toNat + 256 * valueOf bs

/-- A word as it lies in memory. -/
def encode {w : Nat} (k : Nat) (x : BitVec w) : List Byte := bytesOf k x.toNat

/-- The word that lies in memory. -/
def decode (w : Nat) (bs : List Byte) : BitVec w := BitVec.ofNat w (valueOf bs)

/-- A word with its bytes in the opposite order. -/
def byteSwap {w : Nat} (k : Nat) (x : BitVec w) : BitVec w := decode w (encode k x).reverse

/-- `len` bytes from `off` on. -/
def slice (off len : Nat) (bs : List Byte) : List Byte := (bs.drop off).take len

/-! ## Naturals -/

@[simp] theorem bytesOf_length (k v : Nat) : (bytesOf k v).length = k := by
  induction k generalizing v with
  | zero => rfl
  | succ k ih => simp [bytesOf, ih]

theorem valueOf_bytesOf (k v : Nat) : valueOf (bytesOf k v) = v % 256 ^ k := by
  induction k generalizing v with
  | zero => simp [bytesOf, valueOf, Nat.mod_one]
  | succ k ih =>
    rw [bytesOf, valueOf, ih, BitVec.toNat_ofNat, show (2 : Nat) ^ 8 = 256 by decide, Nat.pow_succ']
    exact Nat.mod_mul.symm

theorem valueOf_lt (bs : List Byte) : valueOf bs < 256 ^ bs.length := by
  induction bs with
  | nil => simp [valueOf]
  | cons b bs ih =>
    have small := b.isLt
    rw [valueOf, List.length_cons, Nat.pow_succ]
    omega

theorem bytesOf_valueOf (bs : List Byte) : bytesOf bs.length (valueOf bs) = bs := by
  induction bs with
  | nil => rfl
  | cons b bs ih =>
    have small : b.toNat < 256 := b.isLt
    rw [List.length_cons, bytesOf, valueOf]
    congr 1
    · apply BitVec.eq_of_toNat_eq
      rw [BitVec.toNat_ofNat]
      omega
    · rw [show (b.toNat + 256 * valueOf bs) / 256 = valueOf bs by omega, ih]

/-! ## Words -/

section Words
variable {w k : Nat}

@[simp] theorem encode_length (x : BitVec w) : (encode k x).length = k := bytesOf_length ..

/-- A byte lies in memory as itself. -/
@[simp] theorem encode_byte (x : Byte) : encode 1 x = [x] := by
  simp [encode, bytesOf]

/-- The value of a stored word. -/
theorem valueOf_encode (x : BitVec w) (width : w = 8 * k) : valueOf (encode k x) = x.toNat := by
  have fits : x.toNat < 256 ^ k := by
    rw [show (256 : Nat) = 2 ^ 8 by decide, ← Nat.pow_mul, ← width]
    exact x.isLt
  rw [encode, valueOf_bytesOf, Nat.mod_eq_of_lt fits]

/-- What was stored is loaded. -/
theorem decode_encode (x : BitVec w) (width : w = 8 * k) : decode w (encode k x) = x := by
  rw [decode, valueOf_encode x width, BitVec.ofNat_toNat, BitVec.setWidth_eq]

/-- What is loaded lies in memory. -/
theorem encode_decode (bs : List Byte) (width : w = 8 * k) (len : bs.length = k) :
    encode k (decode w bs) = bs := by
  have fits : valueOf bs < 2 ^ w := by
    rw [width, Nat.pow_mul, ← len]
    exact valueOf_lt bs
  rw [encode, decode, BitVec.toNat_ofNat, Nat.mod_eq_of_lt fits, ← len]
  exact bytesOf_valueOf bs

theorem encode_byteSwap (x : BitVec w) (width : w = 8 * k) :
    encode k (byteSwap k x) = (encode k x).reverse :=
  encode_decode _ width (by simp)

@[simp] theorem byteSwap_byteSwap (x : BitVec w) (width : w = 8 * k) :
    byteSwap k (byteSwap k x) = x := by
  rw [byteSwap, encode_byteSwap x width, List.reverse_reverse, decode_encode x width]

/-- The last byte of a swapped word is the lowest of the word. -/
theorem encode_byteSwap_last (x : BitVec w) (width : w = 8 * (k + 1)) :
    (encode (k + 1) (byteSwap (k + 1) x))[k]? = some (BitVec.ofNat 8 x.toNat) := by
  rw [encode_byteSwap x width, List.getElem?_reverse (by simp), encode_length]
  simp [encode, bytesOf]

/-- A number written most significant byte first is a swapped word in memory. -/
theorem bytesOf_reverse {v : Nat} (fits : v < 256 ^ k) :
    (bytesOf k v).reverse = encode k (byteSwap k (BitVec.ofNat (8 * k) v)) := by
  have small : v < 2 ^ (8 * k) := by
    rw [Nat.pow_mul]
    exact fits
  rw [encode_byteSwap _ rfl, encode, BitVec.toNat_ofNat, Nat.mod_eq_of_lt small]

/-- Bytes read most significant first are the swapped word. -/
theorem valueOf_reverse (bs : List Byte) (width : w = 8 * k) (len : bs.length = k) :
    valueOf bs.reverse = (byteSwap k (decode w bs)).toNat := by
  have stored := encode_byteSwap (decode w bs) width
  rw [encode_decode bs width len] at stored
  rw [← stored, valueOf_encode _ width]

end Words

/-! ## Fields of a block -/

section Fields
variable {off len n : Nat} {a b bs : List Byte}

theorem slice_length (room : off + len ≤ bs.length) : (slice off len bs).length = len := by
  simp only [slice, List.length_take, List.length_drop]
  omega

/-- The first field. -/
theorem slice_here (width : a.length = len) : slice 0 len (a ++ b) = a := by
  simp [slice, ← width]

/-- A field past the first. -/
theorem slice_past (width : a.length = n) (past : n ≤ off) : slice off len (a ++ b) = slice (off - n) len b := by
  subst width
  simp only [slice, List.drop_append, List.drop_eq_nil_of_le past, List.nil_append]

/-- The last field. -/
theorem slice_all (width : bs.length = len) : slice 0 len bs = bs := by
  simp [slice, ← width]

/-- A slice of a block that is followed by more. -/
theorem slice_left (room : off + len ≤ a.length) : slice off len (a ++ b) = slice off len a := by
  simp only [slice, List.drop_append, List.take_append]
  have enough : len - (a.drop off).length = 0 := by
    rw [List.length_drop]
    omega
  rw [enough, List.take_zero, List.append_nil]

/-- Two adjacent fields. -/
theorem slice_append_slice (bs : List Byte) :
    slice off n bs ++ slice (off + n) len bs = slice off (n + len) bs := by
  simp [slice, List.take_add, List.drop_drop]

end Fields

end NetCalc.Lib
