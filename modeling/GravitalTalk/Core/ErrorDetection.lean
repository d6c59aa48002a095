import GravitalTalk.Core.Packet

/-! Which transmission errors the packet checksum catches.  Header, payload, length
and checksum stand on the wire in the order in which they enter the register, so an
accepted packet is a word that drives the register from its initial value to zero,
and an error is missed only if its bits alone drive the zero register back to zero. -/
namespace GravitalTalk.Core
open Lib Lib.TableCrc

def corrupt (packet pattern : Bytes) : Bytes := List.zipWith (· ^^^ ·) packet pattern

namespace Packet

/-- The feedback word, and the register the bits of a packet are fed into. -/
def generator : BitVec 16 := poly.toBitVec

theorem generator_low : generator.getLsbD 0 = true := by decide

theorem generator_parity : ShiftRegister.parity generator = true := by decide

/-- The period exceeds the 9632 bits of the longest packet. -/
theorem generator_period :
    ShiftRegister.avoids generator (ShiftRegister.entry 16 true) 9631
      (ShiftRegister.entry 16 true) = true := by decide +kernel

theorem feeds_of_decode {packet : Bytes} {view : PacketView}
    (h : PacketView.decode packet = .ok view) :
    ShiftRegister.feeds generator 0xFFFF#16 (bits packet) = 0#16 := by
  obtain ⟨-, -, rfl⟩ := PacketView.eq_bytes_of_decode h
  have hzero : crcStep 0xFFFF (bytes view.header view.payload) = 0 := by
    rw [bytes, crcStep, update_append]
    exact update_self _ _
  have hfeeds := toBitVec_update poly 0xFFFF (bytes view.header view.payload)
  exact hfeeds.symm.trans (congrArg UInt16.toBitVec hzero)

theorem length_of_decode {packet : Bytes} {view : PacketView}
    (h : PacketView.decode packet = .ok view) : packet.length ≤ 1204 := by
  obtain ⟨-, hpayload, rfl⟩ := PacketView.eq_bytes_of_decode h
  rw [length_bytes]
  exact Nat.add_le_add_right (Nat.add_le_add_left hpayload headerSize) 4

theorem decode_corrupt {packet pattern : Bytes} {view : PacketView}
    (hpacket : PacketView.decode packet = .ok view) (hlen : pattern.length = packet.length)
    (hpattern : ShiftRegister.feeds generator 0#16 (bits pattern) ≠ 0#16) :
    ∃ e, PacketView.decode (corrupt packet pattern) = .error e := by
  cases hmixed : PacketView.decode (corrupt packet pattern) with
  | error e => exact ⟨e, rfl⟩
  | ok other =>
    have hword := feeds_of_decode hmixed
    rw [corrupt, bits_xor _ _ hlen.symm] at hword
    exact absurd (ShiftRegister.feeds_pattern (by simp [hlen]) (feeds_of_decode hpacket) hword)
      hpattern

end Packet
open Packet

/-- A burst of up to sixteen bits, wherever it falls and whatever its shape, is detected. -/
theorem decode_burst (packet pattern : Bytes) (view : PacketView) (start : Nat)
    (hpacket : PacketView.decode packet = .ok view) (hlen : pattern.length = packet.length)
    (hburst : ∀ i, (bits pattern).getD i false = true → start ≤ i ∧ i < start + 16)
    (hsome : ∃ i, (bits pattern).getD i false = true) :
    ∃ e, PacketView.decode (corrupt packet pattern) = .error e :=
  decode_corrupt hpacket hlen (ShiftRegister.feeds_window generator_low hburst hsome)

private def spoken : Bytes := Packet.bytes (PacketHeader.new 0x10 7 42 1000) [0xAB, 0xCD]

private theorem length_spoken : spoken.length = 30 := length_bytes _ _

private theorem spoken_decodes :
    PacketView.decode spoken = .ok ⟨PacketHeader.new 0x10 7 42 1000, [0xAB, 0xCD]⟩ :=
  PacketView.decode_bytes _ _ rfl (by decide)

/-- A burst that starts in the last byte of the payload and ends in its length. -/
theorem decode_burst_straddling :
    ∃ e, PacketView.decode (corrupt spoken
      (List.replicate 25 0 ++ ([0x03, 0xFF, 0xC0] ++ List.replicate 2 0))) = .error e := by
  refine decode_burst _ _ _ 206 spoken_decodes length_spoken.symm (fun i h => ?_) ⟨206, by decide⟩
  have hbounded : ∀ j < 240, (bits (List.replicate 25 0 ++ ([0x03, 0xFF, 0xC0] ++
      List.replicate 2 0))).getD j false = true → 206 ≤ j ∧ j < 206 + 16 := by decide +kernel
  rcases Nat.lt_or_ge i 240 with hlt | hge
  · exact hbounded i hlt h
  · rw [List.getD_eq_getElem?_getD, List.getElem?_eq_none (by simp; omega)] at h
    cases h

/-- An odd number of flipped bits is detected, and so are two, however far apart. -/
theorem decode_flips (packet pattern : Bytes) (view : PacketView)
    (hpacket : PacketView.decode packet = .ok view) (hlen : pattern.length = packet.length)
    (hflips : Odd ((bits pattern).count true) ∨ (bits pattern).count true = 2) :
    ∃ e, PacketView.decode (corrupt packet pattern) = .error e := by
  refine decode_corrupt hpacket hlen ?_
  rcases hflips with hodd | htwo
  · exact ShiftRegister.feeds_odd (by decide) generator_parity hodd
  · have hshort := length_of_decode hpacket
    exact ShiftRegister.feeds_two generator_low generator_period
      (by rw [length_bits, hlen]; omega) htwo

/-- The first and the last bit of a packet. -/
theorem decode_flips_ends :
    ∃ e, PacketView.decode (corrupt spoken ([0x80] ++ (List.replicate 28 0 ++ [0x01]))) =
      .error e :=
  decode_flips _ _ _ spoken_decodes length_spoken.symm (.inr (by decide +kernel))

end GravitalTalk.Core
