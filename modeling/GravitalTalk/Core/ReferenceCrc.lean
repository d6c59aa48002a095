import GravitalTalk.Lib.Codec
import GravitalTalk.Core.Packet

/-! The checksum as the packet format documents it, bit by bit, against the loops over the two tables. -/
namespace GravitalTalk.Core
open Lib Lib.TableCrc

/-- The reference implementation of the packet-format document. -/
def Reference.crc16CcittFalse (data : Bytes) : UInt16 := data.foldl (bitwiseStep 0x1021) 0xFFFF

theorem Checksum.crc16CcittFalse_eq (data : Bytes) :
    crc16CcittFalse data = Reference.crc16CcittFalse data :=
  update_eq_bitwise poly init data

namespace Packet

theorem crcStep_eq (data : Bytes) : crcStep 0xFFFF data = Reference.crc16CcittFalse data :=
  update_eq_bitwise poly 0xFFFF data

theorem computeChecksum_eq_reference (header payload : Bytes) (payloadLen : UInt16) :
    computeChecksum header payload payloadLen =
      Reference.crc16CcittFalse (header ++ payload ++ be16 payloadLen) := by
  rw [computeChecksum_eq, crcStep_eq, List.append_assoc]

theorem fields_of_encode {self : PacketBuilder} {out written : Bytes} {n : Nat}
    (h : self.encode out = (.ok n, written)) :
    written.take headerSize = self.header.bytes ∧
      slice written (n - checksumTailOffset) 2 =
        be16 (crcStep 0xFFFF (body self.header self.payload)) := by
  have htake := PacketBuilder.encode_take h
  obtain ⟨-, -, hn, -⟩ := PacketBuilder.encode_ok h
  have htail : n - checksumTailOffset = (body self.header self.payload).length := by
    rw [hn, length_body]
    rfl
  constructor
  · have hhead := congrArg (List.take headerSize) htake
    rwa [List.take_take, Nat.min_eq_left (by omega), take_bytes] at hhead
  · have hfield := slice_append_mid (body self.header self.payload)
      (be16 (crcStep 0xFFFF (body self.header self.payload))) [] _ 2 htail (by simp)
    have hinside : n - checksumTailOffset + 2 ≤ n := by
      rw [hn, checksumTailOffset]
      omega
    rw [List.append_nil, ← bytes, ← htake, slice_take hinside] at hfield
    exact hfield

end Packet
open Packet

/-- The table-driven checksum is the documented one, over one segment, over two, and over the header,
payload and length of a packet; and it is the checksum that a packet is written with. -/
theorem checksums_agree :
    (∀ data : Bytes, Checksum.crc16CcittFalse data = Reference.crc16CcittFalse data) ∧
    (∀ a b : Bytes, Checksum.crc16TwoSegments a b = Checksum.crc16CcittFalse (a ++ b)) ∧
    (∀ (header payload : Bytes) (payloadLen : UInt16),
      update Packet.table (Checksum.crc16TwoSegments header payload) (be16 payloadLen) =
          computeChecksum header payload payloadLen ∧
        computeChecksum header payload payloadLen =
          Reference.crc16CcittFalse (header ++ payload ++ be16 payloadLen)) ∧
    ∀ (self : PacketBuilder) (out written : Bytes) (n : Nat),
      self.encode out = (.ok n, written) →
        written.take headerSize = self.header.bytes ∧
          fromBe16 (slice written (n - checksumTailOffset) 2) =
            computeChecksum self.header.bytes self.payload (UInt16.ofNat self.payload.length) := by
  refine ⟨Checksum.crc16CcittFalse_eq, fun a b => ?_, fun header payload payloadLen => ⟨?_, ?_⟩, ?_⟩
  · rw [Checksum.crc16CcittFalse, Checksum.crc16Table, update_append]
    rfl
  · rw [encoderChecksum_eq, computeChecksum_eq]
  · exact computeChecksum_eq_reference header payload payloadLen
  · intro self out written n h
    obtain ⟨hhead, hfield⟩ := fields_of_encode h
    refine ⟨hhead, ?_⟩
    rw [hfield, fromBe16_be16, computeChecksum_eq, body]

/-- The documented check value. -/
theorem checksums_agree_check :
    Checksum.crc16CcittFalse [0x31, 0x32, 0x33, 0x34, 0x35, 0x36, 0x37, 0x38, 0x39] = 0x29B1 := by
  rw [checksums_agree.1]
  decide +kernel

end GravitalTalk.Core
