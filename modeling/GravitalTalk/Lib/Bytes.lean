import Mathlib.Tactic

/-! Byte strings with big-endian integer fields, slices and in-place writes.
A wire format is a concatenation of fixed-width fields, so the two directions of
every codec reduce to the laws of `slice` and `overwrite` proved here. -/
namespace GravitalTalk.Lib

abbrev Bytes := List UInt8

/-- The `width` low bytes of `value`, most significant first. -/
def beEncode : Nat → Nat → Bytes
  | 0, _ => []
  | width + 1, value => beEncode width (value / 256) ++ [UInt8.ofNat value]

def beDecode (bytes : Bytes) : Nat :=
  bytes.foldl (fun acc byte => acc * 256 + byte.toNat) 0

@[simp] theorem length_beEncode (width value : Nat) :
    (beEncode width value).length = width := by
  induction width generalizing value with
  | zero => rfl
  | succ width ih => simp [beEncode, ih]

theorem beDecode_concat (bytes : Bytes) (byte : UInt8) :
    beDecode (bytes ++ [byte]) = beDecode bytes * 256 + byte.toNat := by
  simp [beDecode]

theorem beDecode_beEncode (width value : Nat) :
    beDecode (beEncode width value) = value % 256 ^ width := by
  induction width generalizing value with
  | zero => simp [beEncode, beDecode, Nat.mod_one]
  | succ width ih =>
    rw [beEncode, beDecode_concat, ih, Nat.pow_succ, Nat.mul_comm (256 ^ width) 256,
      Nat.mod_mul]
    simp only [UInt8.toNat_ofNat']
    omega

theorem beEncode_beDecode (bytes : Bytes) :
    beEncode bytes.length (beDecode bytes) = bytes := by
  induction bytes using List.reverseRecOn with
  | nil => rfl
  | append_singleton bytes byte ih =>
    have hbyte : byte.toNat < 256 := byte.toNat_lt
    have hdiv : (beDecode bytes * 256 + byte.toNat) / 256 = beDecode bytes := by omega
    have hlast : UInt8.ofNat (beDecode bytes * 256 + byte.toNat) = byte := by
      apply UInt8.toNat_inj.mp
      rw [UInt8.toNat_ofNat']
      omega
    rw [List.length_append, List.length_singleton, beEncode, beDecode_concat, hdiv, ih, hlast]

theorem beDecode_lt (bytes : Bytes) : beDecode bytes < 256 ^ bytes.length := by
  induction bytes using List.reverseRecOn with
  | nil => simp [beDecode]
  | append_singleton bytes byte ih =>
    have hbyte : byte.toNat < 256 := byte.toNat_lt
    rw [beDecode_concat, List.length_append, List.length_singleton, Nat.pow_succ]
    omega

def be16 (value : UInt16) : Bytes := beEncode 2 value.toNat
def be32 (value : UInt32) : Bytes := beEncode 4 value.toNat
def be64 (value : UInt64) : Bytes := beEncode 8 value.toNat

def fromBe16 (bytes : Bytes) : UInt16 := UInt16.ofNat (beDecode bytes)
def fromBe32 (bytes : Bytes) : UInt32 := UInt32.ofNat (beDecode bytes)
def fromBe64 (bytes : Bytes) : UInt64 := UInt64.ofNat (beDecode bytes)

@[simp] theorem length_be16 (value : UInt16) : (be16 value).length = 2 := length_beEncode _ _
@[simp] theorem length_be32 (value : UInt32) : (be32 value).length = 4 := length_beEncode _ _
@[simp] theorem length_be64 (value : UInt64) : (be64 value).length = 8 := length_beEncode _ _

@[simp] theorem fromBe16_be16 (value : UInt16) : fromBe16 (be16 value) = value := by
  apply UInt16.toNat_inj.mp
  rw [fromBe16, be16, beDecode_beEncode, UInt16.toNat_ofNat']
  have := value.toNat_lt
  omega

@[simp] theorem fromBe32_be32 (value : UInt32) : fromBe32 (be32 value) = value := by
  apply UInt32.toNat_inj.mp
  rw [fromBe32, be32, beDecode_beEncode, UInt32.toNat_ofNat']
  have := value.toNat_lt
  omega

@[simp] theorem fromBe64_be64 (value : UInt64) : fromBe64 (be64 value) = value := by
  apply UInt64.toNat_inj.mp
  rw [fromBe64, be64, beDecode_beEncode, UInt64.toNat_ofNat']
  have := value.toNat_lt
  omega

theorem be16_fromBe16 (bytes : Bytes) (h : bytes.length = 2) : be16 (fromBe16 bytes) = bytes := by
  have hlt := beDecode_lt bytes
  rw [h] at hlt
  rw [be16, fromBe16, UInt16.toNat_ofNat', Nat.mod_eq_of_lt (by omega), ← h, beEncode_beDecode]

theorem be32_fromBe32 (bytes : Bytes) (h : bytes.length = 4) : be32 (fromBe32 bytes) = bytes := by
  have hlt := beDecode_lt bytes
  rw [h] at hlt
  rw [be32, fromBe32, UInt32.toNat_ofNat', Nat.mod_eq_of_lt (by omega), ← h, beEncode_beDecode]

theorem be64_fromBe64 (bytes : Bytes) (h : bytes.length = 8) : be64 (fromBe64 bytes) = bytes := by
  have hlt := beDecode_lt bytes
  rw [h] at hlt
  rw [be64, fromBe64, UInt64.toNat_ofNat', Nat.mod_eq_of_lt (by omega), ← h, beEncode_beDecode]

theorem be32_injective : Function.Injective be32 := by
  intro left right h
  simpa using congrArg fromBe32 h

/-- `buf[off .. off + len]`. -/
def slice (buf : Bytes) (off len : Nat) : Bytes := (buf.drop off).take len

theorem length_slice {buf : Bytes} {off len : Nat} (h : off + len ≤ buf.length) :
    (slice buf off len).length = len := by
  simp only [slice, List.length_take, List.length_drop]
  omega

theorem slice_append_slice (buf : Bytes) (off left right : Nat) :
    slice buf off left ++ slice buf (off + left) right = slice buf off (left + right) := by
  simp [slice, List.take_add, List.drop_drop]

@[simp] theorem slice_zero (buf : Bytes) (len : Nat) : slice buf 0 len = buf.take len := by
  simp [slice]

theorem slice_append_mid (front field back : Bytes) (off len : Nat) (hoff : off = front.length)
    (hlen : len = field.length) : slice (front ++ (field ++ back)) off len = field := by
  subst hoff hlen
  simp [slice]

/-- The array copied out of `buf[off .. off + n]`. -/
def readVector (n : Nat) (buf : Bytes) (off : Nat) : Vector UInt8 n :=
  Vector.ofFn fun i => buf.getD (off + i.val) 0

theorem toList_readVector (n : Nat) (buf : Bytes) (off : Nat) (h : off + n ≤ buf.length) :
    (readVector n buf off).toList = slice buf off n := by
  apply List.ext_getElem
  · rw [length_slice h, Vector.length_toList]
  · intro i hi _
    rw [Vector.length_toList] at hi
    have hin : off + i < buf.length := by omega
    simp [readVector, slice, List.getElem?_eq_getElem hin]

theorem readVector_eq (n : Nat) (buf : Bytes) (off : Nat) (value : Vector UInt8 n)
    (h : off + n ≤ buf.length) (hslice : slice buf off n = value.toList) :
    readVector n buf off = value := by
  apply Vector.toList_inj.mp
  rw [toList_readVector n buf off h, hslice]

/-- The buffer after `buf[off .. off + src.len()].copy_from_slice(src)`. -/
def overwrite (buf : Bytes) (off : Nat) (src : Bytes) : Bytes :=
  buf.take off ++ src ++ buf.drop (off + src.length)

theorem overwrite_zero (buf src : Bytes) : overwrite buf 0 src = src ++ buf.drop src.length := by
  simp [overwrite]

theorem overwrite_overwrite {buf left right : Bytes} {off next : Nat}
    (hnext : next = off + left.length) (h : next ≤ buf.length) :
    overwrite (overwrite buf off left) next right = overwrite buf off (left ++ right) := by
  subst hnext
  have hfront : (buf.take off ++ left).length = off + left.length := by
    simp only [List.length_append, List.length_take]
    omega
  unfold overwrite
  rw [List.take_append_of_le_length (by omega), List.take_of_length_le (by omega),
    List.drop_append, hfront, List.drop_of_length_le (by omega), List.nil_append, List.drop_drop,
    List.append_assoc, List.length_append]
  simp only [List.append_assoc, List.append_cancel_left_eq]
  congr 1
  omega

theorem take_overwrite_zero (buf src : Bytes) (len : Nat) (h : len = src.length) :
    (overwrite buf 0 src).take len = src := by
  subst h
  simp [overwrite]

end GravitalTalk.Lib
