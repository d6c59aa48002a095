import GravitalTalk.Core.Checksum
import GravitalTalk.Core.Header

/-! Whole packets on the wire:

    header (24) ++ payload (N) ++ payload_len (2) ++ checksum (2)

The length and the checksum stand at the end, and the checksum covers everything
before it.  The encoder and the decoder compute it by separately written loops over
separately built tables. -/
namespace GravitalTalk.Core
open Lib Lib.TableCrc

structure PacketView where
  header : PacketHeader
  payload : Bytes
  deriving DecidableEq, Repr

namespace Packet

def poly : UInt16 := 0x1021

/-- The second table, built in the packet module. -/
def table : Table := buildTable poly

def crcStep (crc : UInt16) (data : Bytes) : UInt16 := update table crc data

def computeChecksum (header payload : Bytes) (payloadLen : UInt16) : UInt16 :=
  let crc : UInt16 := 0xFFFF
  let crc := crcStep crc header
  let crc := crcStep crc payload
  crcStep crc (be16 payloadLen)

end Packet

def PacketView.decode (buf : Bytes) : Except Error PacketView :=
  let totalLen := buf.length
  if totalLen < headerSize + 4 then .error .tooShort
  else
    match PacketHeader.decode buf with
    | .error e => .error e
    | .ok header =>
      let payloadLen := fromBe16 (slice buf (totalLen - payloadLenTailOffset) 2)
      let expectedLen := headerSize + payloadLen.toNat + 4
      if expectedLen ≠ totalLen then .error .lengthMismatch
      else if payloadLen.toNat > maxPayloadSize then .error .payloadTooLarge
      else
        let payload := slice buf headerSize payloadLen.toNat
        let storedChecksum := fromBe16 (slice buf (totalLen - checksumTailOffset) 2)
        let computed := Packet.computeChecksum (buf.take headerSize) payload payloadLen
        if storedChecksum ≠ computed then .error .badChecksum
        else .ok ⟨header, payload⟩

structure PacketBuilder where
  header : PacketHeader
  payload : Bytes

def PacketBuilder.encode (self : PacketBuilder) (out : Bytes) : Except Error Nat × Bytes :=
  let payloadLen := self.payload.length
  if payloadLen > maxPayloadSize then (.error .payloadTooLarge, out)
  else
    let total := headerSize + payloadLen + 4
    if out.length < total then (.error .bufferTooSmall, out)
    else
      let (result, head) := self.header.encode (out.take headerSize)
      let out := head ++ out.drop headerSize
      match result with
      | .error e => (.error e, out)
      | .ok () =>
        let out := overwrite out headerSize self.payload
        let payloadLenU16 := UInt16.ofNat payloadLen
        let out := overwrite out (total - payloadLenTailOffset) (be16 payloadLenU16)
        let crc := Checksum.crc16TwoSegments (out.take headerSize) self.payload
        let crc := update Packet.table crc (be16 payloadLenU16)
        let out := overwrite out (total - checksumTailOffset) (be16 crc)
        (.ok total, out)

namespace Packet

def body (header : PacketHeader) (payload : Bytes) : Bytes :=
  header.bytes ++ (payload ++ be16 (UInt16.ofNat payload.length))

def bytes (header : PacketHeader) (payload : Bytes) : Bytes :=
  body header payload ++ be16 (crcStep 0xFFFF (body header payload))

@[simp] theorem length_body (header : PacketHeader) (payload : Bytes) :
    (body header payload).length = headerSize + payload.length + 2 := by
  simp [body]
  omega

@[simp] theorem length_bytes (header : PacketHeader) (payload : Bytes) :
    (bytes header payload).length = headerSize + payload.length + 4 := by
  simp [bytes]

theorem computeChecksum_eq (header payload : Bytes) (payloadLen : UInt16) :
    computeChecksum header payload payloadLen =
      crcStep 0xFFFF (header ++ (payload ++ be16 payloadLen)) := by
  simp [computeChecksum, crcStep]

theorem encoderChecksum_eq (header payload : Bytes) (payloadLen : UInt16) :
    update table (Checksum.crc16TwoSegments header payload) (be16 payloadLen) =
      crcStep 0xFFFF (header ++ (payload ++ be16 payloadLen)) := by
  have htable : Checksum.table = table := rfl
  simp only [crcStep, Checksum.crc16TwoSegments, Checksum.init, htable, update_append]

end Packet

open Packet

theorem PacketBuilder.encode_eq (self : PacketBuilder) (out : Bytes)
    (hpayload : self.payload.length ≤ maxPayloadSize)
    (hout : headerSize + self.payload.length + 4 ≤ out.length) :
    self.encode out =
      (.ok (headerSize + self.payload.length + 4),
        overwrite out 0 (bytes self.header self.payload)) := by
  have hhead : self.header.encode (out.take headerSize) =
      (.ok (), overwrite (out.take headerSize) 0 self.header.bytes) :=
    self.header.encode_eq _ (by rw [List.length_take]; omega)
  have hfront : overwrite (out.take headerSize) 0 self.header.bytes ++ out.drop headerSize =
      overwrite out 0 self.header.bytes := by
    simp [overwrite_zero]
  rw [encode, if_neg (by omega), if_neg (by omega)]
  simp only [hhead, hfront]
  have htwo : overwrite (overwrite out 0 self.header.bytes) headerSize self.payload =
      overwrite out 0 (self.header.bytes ++ self.payload) :=
    overwrite_overwrite (by simp) (by omega)
  have hthree : overwrite (overwrite out 0 (self.header.bytes ++ self.payload))
      (headerSize + self.payload.length + 4 - payloadLenTailOffset)
      (be16 (UInt16.ofNat self.payload.length)) = overwrite out 0 (body self.header self.payload) := by
    rw [overwrite_overwrite (by simp [payloadLenTailOffset])
      (by simp only [payloadLenTailOffset]; omega), body, List.append_assoc]
  have htake : (overwrite out 0 (body self.header self.payload)).take headerSize =
      self.header.bytes := by
    rw [overwrite_zero, body, List.append_assoc, List.take_append_of_le_length (by simp),
      List.take_of_length_le (by simp)]
  rw [htwo, hthree, htake, encoderChecksum_eq, ← body,
    overwrite_overwrite (by simp [checksumTailOffset])
      (by simp only [checksumTailOffset]; omega), ← bytes]

/-- Every failure is decided before the first write. -/
theorem PacketBuilder.encode_error (self : PacketBuilder) (out : Bytes) (e : Error)
    (h : (self.encode out).1 = .error e) : (self.encode out).2 = out := by
  by_cases hpayload : self.payload.length ≤ maxPayloadSize
  · by_cases hout : headerSize + self.payload.length + 4 ≤ out.length
    · rw [encode_eq self out hpayload hout] at h
      cases h
    · rw [encode, if_neg (by omega), if_pos (by omega)]
  · rw [encode, if_pos (by omega)]

theorem PacketBuilder.encode_ok {self : PacketBuilder} {out written : Bytes} {n : Nat}
    (h : self.encode out = (.ok n, written)) :
    self.payload.length ≤ maxPayloadSize ∧ headerSize + self.payload.length + 4 ≤ out.length ∧
      n = headerSize + self.payload.length + 4 ∧
      written = overwrite out 0 (bytes self.header self.payload) := by
  by_cases hpayload : self.payload.length ≤ maxPayloadSize
  · by_cases hout : headerSize + self.payload.length + 4 ≤ out.length
    · rw [encode_eq self out hpayload hout] at h
      simp only [Prod.mk.injEq, Except.ok.injEq] at h
      exact ⟨hpayload, hout, h.1.symm, h.2.symm⟩
    · rw [encode, if_neg (by omega), if_pos (by omega)] at h
      simp at h
  · rw [encode, if_pos (by omega)] at h
    simp at h

theorem PacketBuilder.encode_take {self : PacketBuilder} {out written : Bytes} {n : Nat}
    (h : self.encode out = (.ok n, written)) : written.take n = bytes self.header self.payload := by
  obtain ⟨-, -, rfl, rfl⟩ := encode_ok h
  exact take_overwrite_zero _ _ _ (by simp)

theorem take_bytes (header : PacketHeader) (payload : Bytes) :
    (bytes header payload).take headerSize = header.bytes := by
  rw [bytes, body, List.append_assoc, List.take_append_of_le_length (by simp),
    List.take_of_length_le (by simp)]

theorem PacketView.decode_bytes (header : PacketHeader) (payload : Bytes)
    (hversion : header.version = protocolVersion) (hpayload : payload.length ≤ maxPayloadSize) :
    PacketView.decode (bytes header payload) = .ok ⟨header, payload⟩ := by
  have hsmall : payload.length ≤ 1176 := hpayload
  have hheader : PacketHeader.decode (bytes header payload) = .ok header := by
    rw [bytes, body, List.append_assoc]
    exact header.decode_bytes_append _ hversion
  have hlenField : slice (bytes header payload)
      (headerSize + payload.length + 4 - payloadLenTailOffset) 2 =
        be16 (UInt16.ofNat payload.length) := by
    rw [bytes, body, ← List.append_assoc, List.append_assoc (header.bytes ++ payload)]
    exact slice_append_mid _ _ _ _ _ (by simp [payloadLenTailOffset]) (by simp)
  have hcrcField : slice (bytes header payload)
      (headerSize + payload.length + 4 - checksumTailOffset) 2 =
        be16 (crcStep 0xFFFF (body header payload)) := by
    have := slice_append_mid (body header payload) (be16 (crcStep 0xFFFF (body header payload))) []
      (headerSize + payload.length + 4 - checksumTailOffset) 2
      (by simp [checksumTailOffset]) (by simp)
    simpa [bytes] using this
  have hpayloadField : slice (bytes header payload) headerSize payload.length = payload := by
    rw [bytes, body, List.append_assoc, List.append_assoc]
    exact slice_append_mid _ _ _ _ _ (by simp) rfl
  have hhead := take_bytes header payload
  have hlenNat : (UInt16.ofNat payload.length).toNat = payload.length := by
    rw [UInt16.toNat_ofNat']
    omega
  rw [PacketView.decode, length_bytes, if_neg (by omega), hheader]
  simp only [hlenField, hcrcField, hhead, fromBe16_be16, hlenNat, hpayloadField,
    computeChecksum_eq]
  rw [if_neg (by simp), if_neg (by omega), if_neg (by simp [body])]

theorem PacketView.eq_bytes_of_decode {buf : Bytes} {view : PacketView}
    (h : PacketView.decode buf = .ok view) :
    view.header.version = protocolVersion ∧ view.payload.length ≤ maxPayloadSize ∧
      buf = bytes view.header view.payload := by
  unfold PacketView.decode at h
  by_cases hshort : buf.length < headerSize + 4
  · rw [if_pos hshort] at h
    cases h
  rw [if_neg hshort] at h
  cases hheader : PacketHeader.decode buf <;> simp only [hheader] at h
  case error => cases h
  rename_i header
  split_ifs at h with hlen hmax hcrc
  injection h with h
  subst h
  push Not at hlen hmax hcrc
  obtain ⟨-, hversion, hhead⟩ := PacketHeader.take_of_decode hheader
  set payloadLen := fromBe16 (slice buf (buf.length - payloadLenTailOffset) 2) with hpayloadLen
  have htotal : 24 + payloadLen.toNat + 4 = buf.length := hlen
  have hplen : (slice buf headerSize payloadLen.toNat).length = payloadLen.toNat :=
    length_slice (by simp only [headerSize]; omega)
  have hlenField : be16 payloadLen = slice buf (24 + payloadLen.toNat) 2 := by
    rw [hpayloadLen, be16_fromBe16 _ (length_slice (by simp only [payloadLenTailOffset]; omega)),
      ← hpayloadLen, payloadLenTailOffset, ← htotal, Nat.add_sub_cancel]
  have hcrcField : be16 (computeChecksum (buf.take headerSize)
      (slice buf headerSize payloadLen.toNat) payloadLen) =
        slice buf (24 + payloadLen.toNat + 2) 2 := by
    rw [← hcrc, be16_fromBe16 _ (length_slice (by simp only [checksumTailOffset]; omega)),
      checksumTailOffset, ← htotal]
    congr 1
  have hofNat : UInt16.ofNat payloadLen.toNat = payloadLen := UInt16.ofNat_toNat
  have hbody : body header (slice buf headerSize payloadLen.toNat) =
      buf.take headerSize ++ (slice buf headerSize payloadLen.toNat ++ be16 payloadLen) := by
    rw [body, hplen, hofNat, hhead]
  refine ⟨hversion, by rw [hplen]; exact hmax, ?_⟩
  calc buf = slice buf 0 buf.length := by simp
    _ = slice buf 0 24 ++ (slice buf 24 payloadLen.toNat ++
          (slice buf (24 + payloadLen.toNat) 2 ++ slice buf (24 + payloadLen.toNat + 2) 2)) := by
        rw [slice_append_slice buf (24 + payloadLen.toNat) 2 2, slice_append_slice buf 24,
          slice_append_slice buf 0 24]
        congr 1
        omega
    _ = bytes header (slice buf headerSize payloadLen.toNat) := by
        rw [bytes, hbody, ← computeChecksum_eq, hcrcField, hlenField, ← slice_zero]
        simp only [headerSize, List.append_assoc]

theorem PacketView.decode_take {header : PacketHeader} {payload : Bytes} {mtu : Nat}
    {view : PacketView} (hversion : header.version = protocolVersion)
    (hpayload : payload.length ≤ maxPayloadSize)
    (h : PacketView.decode ((bytes header payload).take mtu) = .ok view) :
    view.header = header ∧ (view.payload = payload ∨ view.payload.length < payload.length) := by
  rcases Nat.lt_or_ge mtu (bytes header payload).length with hcut | hwhole
  · obtain ⟨hversion', -, hbytes⟩ := PacketView.eq_bytes_of_decode h
    have hlen : mtu = headerSize + view.payload.length + 4 := by
      have := congrArg List.length hbytes
      rwa [List.length_take, Nat.min_eq_left (Nat.le_of_lt hcut), length_bytes] at this
    have hhead : header.bytes = view.header.bytes := by
      have := congrArg (List.take headerSize) hbytes
      rwa [List.take_take, Nat.min_eq_left (by omega), take_bytes, take_bytes] at this
    have hsame : (Except.ok header : Except Error PacketHeader) = .ok view.header := by
      rw [← PacketHeader.decode_bytes_append header [] hversion,
        ← PacketHeader.decode_bytes_append view.header [] hversion', hhead]
    rw [length_bytes] at hcut
    exact ⟨(Except.ok.inj hsame).symm, .inr (by omega)⟩
  · rw [List.take_of_length_le hwhole, PacketView.decode_bytes header payload hversion hpayload] at h
    cases h
    exact ⟨rfl, .inl rfl⟩

/-- The exact wire format.  Encoding writes one packet that decodes to what was encoded and
leaves the rest of the buffer alone; a failed encoding writes nothing; and every byte string the
decoder accepts is the encoding of what it decodes to.  Hence the accepted byte strings are the
encoded ones, and encoding is injective. -/
theorem packetFormat_exact :
    (∀ (header : PacketHeader) (payload out : Bytes), header.version = protocolVersion →
      payload.length ≤ maxPayloadSize → 28 + payload.length ≤ out.length →
      ∃ written : Bytes, written.length = 28 + payload.length ∧
        (PacketBuilder.mk header payload).encode out =
          (.ok (28 + payload.length), written ++ out.drop (28 + payload.length)) ∧
        PacketView.decode written = .ok ⟨header, payload⟩) ∧
    (∀ (self : PacketBuilder) (out : Bytes) (e : Error),
      (self.encode out).1 = .error e → (self.encode out).2 = out) ∧
    (∀ (buf : Bytes) (view : PacketView), PacketView.decode buf = .ok view →
      ∀ out : Bytes, buf.length ≤ out.length →
        (PacketBuilder.mk view.header view.payload).encode out =
          (.ok buf.length, buf ++ out.drop buf.length)) ∧
    (∀ buf : Bytes, (∃ view, PacketView.decode buf = .ok view) ↔
      ∃ (self : PacketBuilder) (out written : Bytes) (n : Nat),
        self.header.version = protocolVersion ∧ self.encode out = (.ok n, written) ∧
          buf = written.take n) ∧
    (∀ (left right : PacketBuilder) (outL outR writtenL writtenR : Bytes) (n m : Nat),
      left.header.version = protocolVersion → right.header.version = protocolVersion →
      left.encode outL = (.ok n, writtenL) → right.encode outR = (.ok m, writtenR) →
      writtenL.take n = writtenR.take m → left = right) := by
  refine ⟨?_, PacketBuilder.encode_error, ?_, ?_, ?_⟩
  · intro header payload out hversion hpayload hout
    have htotal : headerSize + payload.length + 4 = 28 + payload.length := by
      simp only [headerSize]
      omega
    refine ⟨bytes header payload, by rw [length_bytes, htotal], ?_,
      PacketView.decode_bytes header payload hversion hpayload⟩
    rw [PacketBuilder.encode_eq _ out hpayload (by simp only [htotal]; exact hout), overwrite_zero,
      length_bytes, htotal]
  · intro buf view h out hout
    obtain ⟨-, hpayload, rfl⟩ := PacketView.eq_bytes_of_decode h
    rw [length_bytes] at hout
    rw [PacketBuilder.encode_eq _ out hpayload hout, overwrite_zero, length_bytes]
  · intro buf
    constructor
    · rintro ⟨view, h⟩
      obtain ⟨hversion, hpayload, hbuf⟩ := PacketView.eq_bytes_of_decode h
      have henc := PacketBuilder.encode_eq ⟨view.header, view.payload⟩ buf hpayload
        (by rw [hbuf, length_bytes])
      refine ⟨⟨view.header, view.payload⟩, buf, _, _, hversion, henc, ?_⟩
      rw [PacketBuilder.encode_take henc]
      exact hbuf
    · rintro ⟨self, out, written, n, hversion, henc, rfl⟩
      obtain ⟨hpayload, -⟩ := PacketBuilder.encode_ok henc
      exact ⟨_, by rw [PacketBuilder.encode_take henc,
        PacketView.decode_bytes _ _ hversion hpayload]⟩
  · intro left right outL outR writtenL writtenR n m hversionL hversionR hL hR heq
    rw [PacketBuilder.encode_take hL, PacketBuilder.encode_take hR] at heq
    have hdecode := congrArg PacketView.decode heq
    rw [PacketView.decode_bytes _ _ hversionL (PacketBuilder.encode_ok hL).1,
      PacketView.decode_bytes _ _ hversionR (PacketBuilder.encode_ok hR).1] at hdecode
    cases left
    cases right
    simpa using hdecode

/-- A two-byte audio payload in a 40-byte buffer. -/
theorem packetFormat_exact_audio :
    ∃ written : Bytes, written.length = 30 ∧
      (PacketBuilder.mk (PacketHeader.new 0x10 7 42 1000) [0xAB, 0xCD]).encode
        (List.replicate 40 0) = (.ok 30, written ++ List.replicate 10 0) ∧
      PacketView.decode written = .ok ⟨PacketHeader.new 0x10 7 42 1000, [0xAB, 0xCD]⟩ :=
  packetFormat_exact.1 (PacketHeader.new 0x10 7 42 1000) [0xAB, 0xCD] (List.replicate 40 0)
    rfl (by decide) (by decide)

end GravitalTalk.Core
