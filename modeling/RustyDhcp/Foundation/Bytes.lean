import Mathlib.Algebra.Group.Nat.Defs
import Mathlib.Data.List.Induction
import RustyDhcp.Foundation.Checked

/-! # Big-endian numbers

The bytes of a number, most significant first, and the number of such bytes. A
fixed count of bytes keeps the number modulo a power of 256. -/

namespace RustyDhcp

def bigEndian : (count value : Nat) → List UInt8
  | 0, _ => []
  | count + 1, value => bigEndian count (value / 256) ++ [.ofNat value]

def ofBigEndian (bytes : List UInt8) : Nat :=
  bytes.foldl (fun value byte => value * 256 + byte.toNat) 0

/-- `to_be_bytes` -/
def toBeBytes (value : BitVec width) : List UInt8 := bigEndian (width / 8) value.toNat

/-- `from_be_bytes` -/
def ofBeBytes (width : Nat) (bytes : List UInt8) : BitVec width := .ofNat width (ofBigEndian bytes)

/-- `value as u8` -/
def lowByte (value : BitVec width) : UInt8 := .ofBitVec (value.setWidth 8)

/-- `from_be_bytes` of the bytes from an index on, each of them read by its index. -/
def Checked.readBe (width : Nat) (bytes : List UInt8) (start : Nat) : Checked (BitVec width) := do
  let field ← slice bytes start (start + width / 8)
  return ofBeBytes width field

@[simp] theorem length_bigEndian (count value : Nat) : (bigEndian count value).length = count := by
  induction count generalizing value with
  | zero => rfl
  | succ count induction => rw [bigEndian, List.length_append, induction, List.length_singleton]

@[simp] theorem length_toBeBytes (value : BitVec width) :
    (toBeBytes value).length = width / 8 := length_bigEndian _ _

theorem toNat_lowByte (value : BitVec width) : (lowByte value).toNat = value.toNat % 256 := by
  rw [lowByte, UInt8.toNat_ofBitVec, BitVec.toNat_setWidth]

theorem toNat_low8 {width : Nat} (wide : 8 ≤ width) (value : BitVec width) :
    (value &&& 0xFF).toNat = value.toNat % 256 := by
  have power : 2 ^ 8 ≤ 2 ^ width := Nat.pow_le_pow_right (Nat.succ_pos 1) wide
  have mask : (0xFF : BitVec width).toNat = 2 ^ 8 - 1 :=
    Nat.mod_eq_of_lt (show 255 < 2 ^ width by omega)
  rw [BitVec.toNat_and, mask, Nat.and_two_pow_sub_one_eq_mod]

theorem ofBigEndian_concat (bytes : List UInt8) (byte : UInt8) :
    ofBigEndian (bytes ++ [byte]) = ofBigEndian bytes * 256 + byte.toNat := by
  rw [ofBigEndian, List.foldl_append]
  rfl

theorem ofBigEndian_lt (bytes : List UInt8) : ofBigEndian bytes < 256 ^ bytes.length := by
  induction bytes using List.reverseRecOn with
  | nil => exact Nat.one_pos
  | append_singleton bytes byte induction =>
      have small := byte.toNat_lt
      rw [ofBigEndian_concat, List.length_append, List.length_singleton, Nat.pow_succ]
      omega

theorem ofBigEndian_bigEndian (count value : Nat) :
    ofBigEndian (bigEndian count value) = value % 256 ^ count := by
  induction count generalizing value with
  | zero => rw [bigEndian, Nat.pow_zero, Nat.mod_one]; rfl
  | succ count induction =>
      have low : (UInt8.ofNat value).toNat = value % 256 := rfl
      rw [bigEndian, ofBigEndian_concat, induction, low, Nat.pow_succ', Nat.mod_mul]
      omega

theorem bigEndian_ofBigEndian (bytes : List UInt8) :
    bigEndian bytes.length (ofBigEndian bytes) = bytes := by
  induction bytes using List.reverseRecOn with
  | nil => rfl
  | append_singleton bytes byte induction =>
      have small := byte.toNat_lt
      have high : (ofBigEndian bytes * 256 + byte.toNat) / 256 = ofBigEndian bytes := by omega
      have low : UInt8.ofNat (ofBigEndian bytes * 256 + byte.toNat) = byte := by
        apply UInt8.toNat_inj.mp
        rw [UInt8.toNat_ofNat']
        omega
      rw [ofBigEndian_concat, List.length_append, List.length_singleton, bigEndian, high, low,
        induction]

theorem ofBeBytes_toBeBytes {width : Nat} (whole : 8 * (width / 8) = width)
    (value : BitVec width) : ofBeBytes width (toBeBytes value) = value := by
  have bound := value.isLt
  have power : 256 ^ (width / 8) = 2 ^ width := by
    rw [show 256 = 2 ^ 8 from rfl, ← Nat.pow_mul, whole]
  rw [ofBeBytes, toBeBytes, ofBigEndian_bigEndian, power, Nat.mod_eq_of_lt bound,
    BitVec.ofNat_toNat, BitVec.setWidth_eq]

theorem toBeBytes_ofBeBytes {width : Nat} (whole : 8 * (width / 8) = width)
    {bytes : List UInt8} (length : bytes.length = width / 8) :
    toBeBytes (ofBeBytes width bytes) = bytes := by
  have power : 256 ^ (width / 8) = 2 ^ width := by
    rw [show 256 = 2 ^ 8 from rfl, ← Nat.pow_mul, whole]
  have bound := ofBigEndian_lt bytes
  rw [length, power] at bound
  rw [toBeBytes, ofBeBytes, BitVec.toNat_ofNat, Nat.mod_eq_of_lt bound, ← length,
    bigEndian_ofBigEndian]

theorem Checked.readBe_eq_ok {width start : Nat} {bytes : List UInt8}
    (inside : start + width / 8 ≤ bytes.length) :
    readBe width bytes start = .ok (ofBeBytes width ((bytes.drop start).take (width / 8))) := by
  rw [readBe, slice_eq_ok (by omega) inside, Nat.add_sub_cancel_left]
  rfl

/-! ## Chunks -/

def chunks (size : Nat) : (count : Nat) → List α → List (List α)
  | 0, _ => []
  | count + 1, values => values.take size :: chunks size count (values.drop size)

/-- `chunks_exact` -/
def chunksExact (size : Nat) (values : List α) : List (List α) :=
  chunks size (values.length / size) values

variable {size count : Nat}

theorem flatten_chunks {values : List α} (exact : values.length = count * size) :
    (chunks size count values).flatten = values := by
  induction count generalizing values with
  | zero => exact (List.length_eq_zero_iff.mp (by omega)).symm
  | succ count induction =>
      have rest : (values.drop size).length = count * size := by
        rw [List.length_drop, exact, Nat.succ_mul, Nat.add_sub_cancel]
      rw [chunks, List.flatten_cons, induction rest, List.take_append_drop]

theorem length_of_mem_chunks {values chunk : List α} (exact : values.length = count * size)
    (member : chunk ∈ chunks size count values) : chunk.length = size := by
  induction count generalizing values with
  | zero => cases member
  | succ count induction =>
      rw [Nat.succ_mul] at exact
      rcases List.mem_cons.mp member with rfl | later
      · rw [List.length_take]
        omega
      · exact induction (by rw [List.length_drop]; omega) later

theorem chunks_flatten {pieces : List (List α)} (sizes : ∀ piece ∈ pieces, piece.length = size) :
    chunks size pieces.length pieces.flatten = pieces := by
  induction pieces with
  | nil => rfl
  | cons piece pieces induction =>
      rcases List.forall_mem_cons.mp sizes with ⟨rfl, others⟩
      rw [List.length_cons, chunks, List.flatten_cons, List.take_left, List.drop_left,
        induction others]

theorem length_flatten_of_sizes {pieces : List (List α)}
    (sizes : ∀ piece ∈ pieces, piece.length = size) :
    pieces.flatten.length = pieces.length * size := by
  induction pieces with
  | nil => exact (Nat.zero_mul _).symm
  | cons piece pieces induction =>
      rcases List.forall_mem_cons.mp sizes with ⟨rfl, others⟩
      rw [List.flatten_cons, List.length_append, induction others, List.length_cons, Nat.succ_mul,
        Nat.add_comm]

theorem chunksExact_flatten {pieces : List (List α)} (positive : 0 < size)
    (sizes : ∀ piece ∈ pieces, piece.length = size) : chunksExact size pieces.flatten = pieces := by
  rw [chunksExact, length_flatten_of_sizes sizes, Nat.mul_div_cancel _ positive,
    chunks_flatten sizes]

end RustyDhcp
