import GravitalTalk.Core.Constants

/-! The 24-byte packet header.  `payload_len` and `checksum` are not part of it:
they stand at the end of the packet. -/
namespace GravitalTalk.Core
open Lib

structure Flags where
  bits : UInt8
  deriving DecidableEq, Repr

namespace Flags
def encrypted : Flags := ⟨0b00100000⟩
def empty : Flags := ⟨0⟩

def contains (self other : Flags) : Bool := self.bits &&& other.bits == other.bits
end Flags

structure PacketHeader where
  version : UInt8
  flags : Flags
  msgType : UInt8
  sessionId : UInt32
  sequence : UInt32
  timestamp : UInt64
  deriving DecidableEq, Repr

namespace PacketHeader

def new (msgType : UInt8) (sessionId sequence : UInt32) (timestamp : UInt64) : PacketHeader where
  version := protocolVersion
  flags := Flags.empty
  msgType := msgType
  sessionId := sessionId
  sequence := sequence
  timestamp := timestamp

def decode (buf : Bytes) : Except Error PacketHeader :=
  if buf.length < headerSize then .error .tooShort
  else if buf.getD Offsets.magic 0 ≠ magicBytes.1 ∨ buf.getD (Offsets.magic + 1) 0 ≠ magicBytes.2 then
    .error .badMagic
  else if buf.getD Offsets.version 0 ≠ protocolVersion then .error .protocolMismatch
  else if buf.getD Offsets.reserved 0 ≠ 0 ∨ buf.getD (Offsets.reserved + 1) 0 ≠ 0 ∨
      buf.getD (Offsets.reserved + 2) 0 ≠ 0 then
    .error .reservedFieldNonZero
  else
    .ok {
      version := buf.getD Offsets.version 0
      flags := ⟨buf.getD Offsets.flags 0⟩
      msgType := buf.getD Offsets.msgType 0
      sessionId := fromBe32 (slice buf Offsets.sessionId 4)
      sequence := fromBe32 (slice buf Offsets.sequence 4)
      timestamp := fromBe64 (slice buf Offsets.timestamp 8) }

/-- The result together with the caller's buffer after the call. -/
def encode (self : PacketHeader) (buf : Bytes) : Except Error Unit × Bytes :=
  if buf.length < headerSize then (.error .bufferTooSmall, buf)
  else
    let buf := overwrite buf Offsets.magic [magicBytes.1]
    let buf := overwrite buf (Offsets.magic + 1) [magicBytes.2]
    let buf := overwrite buf Offsets.version [self.version]
    let buf := overwrite buf Offsets.flags [self.flags.bits]
    let buf := overwrite buf Offsets.msgType [self.msgType]
    let buf := overwrite buf Offsets.reserved [0]
    let buf := overwrite buf (Offsets.reserved + 1) [0]
    let buf := overwrite buf (Offsets.reserved + 2) [0]
    let buf := overwrite buf Offsets.sessionId (be32 self.sessionId)
    let buf := overwrite buf Offsets.sequence (be32 self.sequence)
    let buf := overwrite buf Offsets.timestamp (be64 self.timestamp)
    (.ok (), buf)

def bytes (self : PacketHeader) : Bytes :=
  [magicBytes.1, magicBytes.2, self.version, self.flags.bits, self.msgType, 0, 0, 0] ++
    (be32 self.sessionId ++ (be32 self.sequence ++ be64 self.timestamp))

@[simp] theorem length_bytes (self : PacketHeader) : self.bytes.length = headerSize := by
  simp [bytes, headerSize]

theorem encode_eq (self : PacketHeader) (buf : Bytes) (h : headerSize ≤ buf.length) :
    self.encode buf = (.ok (), overwrite buf 0 self.bytes) := by
  have hlen : 24 ≤ buf.length := h
  rw [encode, if_neg (by omega)]
  simp only [Offsets.magic, Offsets.version, Offsets.flags, Offsets.msgType, Offsets.reserved,
    Offsets.sessionId, Offsets.sequence, Offsets.timestamp, bytes]
  -- the eleven writes touch, so they fuse from the inside out
  simp (disch := first | (simp; done) | (simp; omega) | omega) only [overwrite_overwrite]
  simp

theorem decode_bytes_append (self : PacketHeader) (rest : Bytes)
    (hversion : self.version = protocolVersion) : decode (self.bytes ++ rest) = .ok self := by
  have hlen : ¬(self.bytes ++ rest).length < headerSize := by simp
  have hsid : slice (self.bytes ++ rest) Offsets.sessionId 4 = be32 self.sessionId := by
    simp [slice, bytes, Offsets.sessionId]
  have hseq : slice (self.bytes ++ rest) Offsets.sequence 4 = be32 self.sequence := by
    simp [slice, bytes, Offsets.sequence]
  have hts : slice (self.bytes ++ rest) Offsets.timestamp 8 = be64 self.timestamp := by
    simp [slice, bytes, Offsets.timestamp, List.drop_append, List.drop_of_length_le]
  rw [decode, if_neg hlen, hsid, hseq, hts]
  cases self
  simp_all [bytes, Offsets.magic, Offsets.version, Offsets.flags, Offsets.msgType,
    Offsets.reserved]

private theorem take_eight (buf : Bytes) (h : 8 ≤ buf.length) :
    buf.take 8 = [buf.getD 0 0, buf.getD 1 0, buf.getD 2 0, buf.getD 3 0, buf.getD 4 0,
      buf.getD 5 0, buf.getD 6 0, buf.getD 7 0] := by
  match buf, h with
  | _ :: _ :: _ :: _ :: _ :: _ :: _ :: _ :: _, _ => rfl

theorem take_of_decode {buf : Bytes} {header : PacketHeader} (h : decode buf = .ok header) :
    headerSize ≤ buf.length ∧ header.version = protocolVersion ∧
      buf.take headerSize = header.bytes := by
  unfold decode at h
  split_ifs at h with hlen hmagic hversion hreserved
  injection h with h
  subst h
  push Not at hlen hmagic hversion hreserved
  have hbound : 24 ≤ buf.length := hlen
  refine ⟨hlen, hversion, ?_⟩
  have hsplit : buf.take 24 = slice buf 0 8 ++ (slice buf 8 4 ++ (slice buf 12 4 ++ slice buf 16 8)) := by
    rw [slice_append_slice buf 12 4 8, slice_append_slice buf 8 4 12, slice_append_slice buf 0 8 16,
      slice_zero]
  simp only [bytes, headerSize, Offsets.sessionId, Offsets.sequence, Offsets.timestamp]
  rw [be32_fromBe32 _ (length_slice (by omega)), be32_fromBe32 _ (length_slice (by omega)),
    be64_fromBe64 _ (length_slice (by omega)), hsplit, slice_zero, take_eight buf (by omega),
    ← hmagic.1, ← hmagic.2]
  simp only [Offsets.magic, Offsets.version, Offsets.flags, Offsets.msgType, Offsets.reserved]
    at hreserved ⊢
  rw [hreserved.1, hreserved.2.1, hreserved.2.2]

end PacketHeader
end GravitalTalk.Core
