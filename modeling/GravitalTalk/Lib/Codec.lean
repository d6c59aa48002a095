import GravitalTalk.Lib.Bytes

/-! Codecs of a fixed size: `encode` writes to the front of a caller's buffer and `decode` reads from
the front of one.  A codec that follows a layout of bytes is its own inverse in both directions. -/
namespace GravitalTalk.Lib

theorem slice_take {buf : Bytes} {off len size : Nat} (h : off + len ≤ size) :
    slice (buf.take size) off len = slice buf off len := by
  simp only [slice, List.drop_take, List.take_take]
  congr 1
  omega

theorem getD_take {buf : Bytes} {i size : Nat} (h : i < size) :
    (buf.take size).getD i 0 = buf.getD i 0 := by
  simp [List.getD_eq_getElem?_getD, h]

theorem readVector_take {n : Nat} {buf : Bytes} {off size : Nat} (h : off + n ≤ size) :
    readVector n (buf.take size) off = readVector n buf off := by
  unfold readVector
  congr 1
  funext i
  exact getD_take (by omega)

theorem length_take_lt_iff {buf : Bytes} {size : Nat} :
    (buf.take size).length < size ↔ buf.length < size := by
  rw [List.length_take]
  omega

theorem slice_whole {buf : Bytes} {size : Nat} (h : buf.length = size) : slice buf 0 size = buf := by
  rw [slice_zero, List.take_of_length_le h.le]

theorem slice_join {buf : Bytes} {off left mid right : Nat} (h : mid = off + left) :
    slice buf off left ++ slice buf mid right = slice buf off (left + right) := by
  rw [h, slice_append_slice]

theorem singleton_getD {buf : Bytes} {i : Nat} (h : i < buf.length) :
    [buf.getD i 0] = slice buf i 1 := by
  rw [slice, List.drop_eq_getElem_cons h, List.take_succ_cons, List.take_zero]
  simp [h]

theorem pair_getD {buf : Bytes} {i j : Nat} (hj : j = i + 1) (h : j < buf.length) :
    [buf.getD i 0, buf.getD j 0] = slice buf i 2 := by
  subst hj
  rw [← slice_append_slice buf i 1 1, ← singleton_getD (by omega), ← singleton_getD h]
  rfl

theorem be16_slice {buf : Bytes} {off : Nat} (h : off + 2 ≤ buf.length) :
    be16 (fromBe16 (slice buf off 2)) = slice buf off 2 :=
  be16_fromBe16 _ (length_slice h)

theorem be32_slice {buf : Bytes} {off : Nat} (h : off + 4 ≤ buf.length) :
    be32 (fromBe32 (slice buf off 4)) = slice buf off 4 :=
  be32_fromBe32 _ (length_slice h)

/-- `buf[off .. off + len]`; `none` is an index out of bounds. -/
def checkedSlice (buf : Bytes) (off len : Nat) : Option Bytes :=
  if off + len ≤ buf.length then some (slice buf off len) else none

def checkedBe16 (buf : Bytes) (off : Nat) : Option UInt16 := (checkedSlice buf off 2).map fromBe16

def checkedBe32 (buf : Bytes) (off : Nat) : Option UInt32 := (checkedSlice buf off 4).map fromBe32

variable {buf : Bytes} {off : Nat}

theorem checkedSlice_eq {len : Nat} (h : off + len ≤ buf.length) :
    checkedSlice buf off len = some (slice buf off len) := if_pos h

theorem checkedBe16_eq (h : off + 2 ≤ buf.length) :
    checkedBe16 buf off = some (fromBe16 (slice buf off 2)) := by
  rw [checkedBe16, checkedSlice_eq h, Option.map_some]

theorem checkedBe32_eq (h : off + 4 ≤ buf.length) :
    checkedBe32 buf off = some (fromBe32 (slice buf off 4)) := by
  rw [checkedBe32, checkedSlice_eq h, Option.map_some]

structure BufCodec (α ε : Type) where
  size : Nat
  encode : α → Bytes → Except ε Unit × Bytes
  decode : Bytes → Except ε α

namespace BufCodec
variable {α ε : Type} {codec : BufCodec α ε} {valid : α → Prop} {bytes : α → Bytes}

/-- The two directions undo each other, and neither touches what is behind the first `size` bytes. -/
structure Exact (codec : BufCodec α ε) (valid : α → Prop) : Prop where
  decode_encode : ∀ value buf, valid value → codec.size ≤ buf.length →
    ∃ out, codec.encode value buf = (.ok (), out) ∧ out.length = buf.length ∧
      out.drop codec.size = buf.drop codec.size ∧ codec.decode out = .ok value
  encode_short : ∀ value buf, buf.length < codec.size →
    ∃ e, codec.encode value buf = (.error e, buf)
  encode_decode : ∀ buf value, codec.decode buf = .ok value →
    codec.size ≤ buf.length ∧ valid value ∧ ∀ target, codec.size ≤ target.length →
      ∃ out, codec.encode value target = (.ok (), out) ∧ out.take codec.size = buf.take codec.size

structure Follows (codec : BufCodec α ε) (valid : α → Prop) (bytes : α → Bytes) : Prop where
  length : ∀ value, (bytes value).length = codec.size
  encode_eq : ∀ value buf, codec.size ≤ buf.length →
    codec.encode value buf = (.ok (), overwrite buf 0 (bytes value))
  encode_short : ∀ value buf, buf.length < codec.size →
    ∃ e, codec.encode value buf = (.error e, buf)
  decode_short : ∀ buf, buf.length < codec.size → ∃ e, codec.decode buf = .error e
  decode_take : ∀ buf, codec.decode (buf.take codec.size) = codec.decode buf
  decode_bytes : ∀ value, valid value → codec.decode (bytes value) = .ok value
  bytes_decode : ∀ buf value, buf.length = codec.size → codec.decode buf = .ok value →
    valid value ∧ bytes value = buf

theorem Follows.exact (h : codec.Follows valid bytes) : codec.Exact valid where
  decode_encode value buf hvalid hlen := by
    have hout : overwrite buf 0 (bytes value) = bytes value ++ buf.drop codec.size := by
      rw [overwrite_zero, h.length]
    refine ⟨_, h.encode_eq value buf hlen, ?_, ?_, ?_⟩
    · rw [hout, List.length_append, h.length, List.length_drop]
      omega
    · rw [hout, ← h.length value, List.drop_left]
    · rw [← h.decode_take, take_overwrite_zero _ _ _ (h.length value).symm]
      exact h.decode_bytes value hvalid
  encode_short := h.encode_short
  encode_decode buf value hdecode := by
    have hlen : codec.size ≤ buf.length := by
      by_contra hshort
      obtain ⟨e, he⟩ := h.decode_short buf (not_le.mp hshort)
      rw [he] at hdecode
      cases hdecode
    have htake : (buf.take codec.size).length = codec.size := List.length_take_of_le hlen
    obtain ⟨hvalid, hbytes⟩ :=
      h.bytes_decode _ value htake ((h.decode_take buf).trans hdecode)
    refine ⟨hlen, hvalid, fun target htarget => ⟨_, h.encode_eq value target htarget, ?_⟩⟩
    rw [take_overwrite_zero _ _ _ (h.length value).symm, hbytes]

end BufCodec
end GravitalTalk.Lib
