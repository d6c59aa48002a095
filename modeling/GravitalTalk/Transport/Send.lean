import GravitalTalk.Transport.Session

/-! The send path: `send_audio` and `send_fec_parity` as one task runs them with nobody in
between. -/
namespace GravitalTalk.Transport
open Lib GravitalTalk.Core

/-- What the outside answers during a send: the clock at each of its two packets, and the
transport. -/
structure SendEnv where
  audioClock : UInt64
  parityClock : UInt64
  sendTo : Bytes → SocketAddr → Except TransportError Nat

namespace Session

/-- The plaintext of an AudioFrame: the audio sequence number in front of the payload. -/
def prefixed (audioSeq : UInt32) (payload : Bytes) : Bytes := be32 audioSeq ++ payload

/-- The plaintext of an AudioFec packet: `seq_base` (4), `window` (1), parity. -/
def fecPayload (parity : FecParity) : Bytes := be32 parity.seqBase ++ ([parity.window] ++ parity.payload)

def encryptedHeader (mt : MessageType) (seq sid : UInt32) (ts : UInt64) : PacketHeader :=
  ⟨1, Flags.encrypted, mt.code, sid, seq, ts⟩

/-- Encrypts `plain` with the nonce of the header's sequence number and the encoded header as
associated data. -/
def sealPayload (aead : Aead) (key : SessionKey) (header : PacketHeader) (plain : Bytes) :
    Except TransportError Bytes :=
  let nonce := makeNonce header.sequence header.sessionId
  match header.encode (List.replicate headerSize 0) with
  | (.error e, _) => .error (.protocol e)
  | (.ok (), hdrBuf) =>
    match encryptInPlace aead key nonce hdrBuf (plain ++ List.replicate tagSize 0) plain.length with
    | (.error e, _) => .error (.protocol e)
    | (.ok encLen, buffer) => .ok (buffer.take encLen)

/-- The header and payload of an AudioFrame: encrypted under the key, or, without one, the clear
fallback with the flag taken out of the header. -/
def audioPacket (aead : Aead) (key : Option SessionKey) (audioSeq seq sid : UInt32) (ts : UInt64)
    (payload : Bytes) : Except TransportError (PacketHeader × Bytes) :=
  let header := encryptedHeader .audioFrame seq sid ts
  match key with
  | some key => (sealPayload aead key header (prefixed audioSeq payload)).map fun wire => (header, wire)
  | none => .ok ({ header with flags := Flags.empty }, prefixed audioSeq payload)

def sendFecParity (self : Session) (aead : Aead) (env : SendEnv) (parity : FecParity)
    (peer : SocketAddr) (sid : UInt32) : Except TransportError Unit × Session × List Sent :=
  let seq := self.txSequence
  let self := { self with txSequence := seq + 1 }
  let header := encryptedHeader .audioFec seq sid env.parityClock
  match self.encryptKey with
  | none => (.ok (), self, [])
  | some key =>
    match sealPayload aead key header (fecPayload parity) with
    | .error e => (.error e, self, [])
    | .ok wire => self.sendPacket env.sendTo header wire peer

/-- The part of `send_audio` after the datagram went out: the parity of a complete group follows,
and its fate is ignored. -/
def feedFec (self : Session) (aead : Aead) (env : SendEnv) (audioSeq : UInt32) (payload : Bytes)
    (peer : SocketAddr) (sid : UInt32) : Session × List Sent :=
  match self.fecEnc.push audioSeq payload with
  | (none, fecEnc) => ({ self with fecEnc := fecEnc }, [])
  | (some parity, fecEnc) =>
    ({ self with fecEnc := fecEnc }.sendFecParity aead env parity peer sid).2

def sendAudio (self : Session) (aead : Aead) (env : SendEnv) (payload : Bytes) :
    Except TransportError Unit × Session × List Sent :=
  if self.state.state ≠ .active then (.error (.invalidState "not active"), self, [])
  else
    match self.peer with
    | none => (.error (.invalidState "no peer"), self, [])
    | some peer =>
      let audioSeq := self.audioTxSeq
      let seq := self.txSequence
      let self := { self with audioTxSeq := audioSeq + 1, txSequence := seq + 1 }
      let sid := self.sessionId
      match audioPacket aead self.encryptKey audioSeq seq sid env.audioClock payload with
      | .error e => (.error e, self, [])
      | .ok (header, wire) =>
        match self.sendPacket env.sendTo header wire peer with
        | (.error e, self, sent) => (.error e, self, sent)
        | (.ok (), self, sent) =>
          let (self, sentFec) := self.feedFec aead env audioSeq payload peer sid
          (.ok (), self, sent ++ sentFec)

theorem encryptedHeader_flag (mt : MessageType) (seq sid : UInt32) (ts : UInt64) :
    (encryptedHeader mt seq sid ts).flags.contains Flags.encrypted = true :=
  show Flags.encrypted.contains Flags.encrypted = true by decide

theorem sealPayload_eq (aead : Aead) (key : SessionKey) (header : PacketHeader) (plain : Bytes) :
    sealPayload aead key header plain =
      match aead.encryptDetached key (makeNonce header.sequence header.sessionId) header.bytes
        plain with
      | none => .error (.protocol .decryptionFailed)
      | some (cipher, tag) => .ok (cipher ++ tag.toList) := by
  have hencode := header.encode_eq (List.replicate headerSize 0) (by simp)
  have hbytes : overwrite (List.replicate headerSize 0) 0 header.bytes = header.bytes := by
    rw [overwrite_zero]
    simp
  simp only [sealPayload, hencode, hbytes]
  rw [encryptInPlace_eq aead key _ _ plain _ (by simp)]
  cases hseal : aead.encryptDetached key (makeNonce header.sequence header.sessionId) header.bytes
      plain with
  | none => rfl
  | some found =>
    obtain ⟨cipher, tag⟩ := found
    have hlen := aead.length_encrypt _ _ _ _ _ _ hseal
    have htake : (cipher ++ tag.toList).take (plain.length + tagSize) = cipher ++ tag.toList := by
      rw [List.take_of_length_le]
      simp [hlen, tagSize]
    simp only [htake]

theorem length_sealPayload {aead : Aead} {key : SessionKey} {header : PacketHeader}
    {plain wire : Bytes} (h : sealPayload aead key header plain = .ok wire) :
    wire.length = plain.length + tagSize := by
  rw [sealPayload_eq] at h
  cases hseal : aead.encryptDetached key (makeNonce header.sequence header.sessionId) header.bytes
      plain with
  | none =>
    rw [hseal] at h
    cases h
  | some found =>
    obtain ⟨cipher, tag⟩ := found
    rw [hseal] at h
    cases h
    simp [aead.length_encrypt _ _ _ _ _ _ hseal, tagSize]

theorem audioPacket_some {aead : Aead} {key : SessionKey} {audioSeq seq sid : UInt32} {ts : UInt64}
    {payload : Bytes} {header : PacketHeader} {wire : Bytes}
    (h : audioPacket aead (some key) audioSeq seq sid ts payload = .ok (header, wire)) :
    header = encryptedHeader .audioFrame seq sid ts ∧
      sealPayload aead key header (prefixed audioSeq payload) = .ok wire := by
  unfold audioPacket at h
  simp only at h
  cases hseal : sealPayload aead key (encryptedHeader .audioFrame seq sid ts)
      (prefixed audioSeq payload) with
  | error e =>
    rw [hseal] at h
    cases h
  | ok found =>
    rw [hseal] at h
    obtain ⟨rfl, rfl⟩ := Prod.mk.inj (Except.ok.inj h)
    exact ⟨rfl, hseal⟩

section Config
variable (s : Session) (aead : Aead) (env : SendEnv)

theorem sendPacket_config (sendTo : Bytes → SocketAddr → Except TransportError Nat)
    (header : PacketHeader) (payload : Bytes) (peer : SocketAddr) :
    (s.sendPacket sendTo header payload peer).2.1.config = s.config := by
  obtain ⟨metrics, hafter⟩ := s.sendPacket_session sendTo header payload peer
  rw [hafter]

theorem sendFecParity_config (parity : FecParity) (peer : SocketAddr) (sid : UInt32) :
    (s.sendFecParity aead env parity peer sid).2.1.config = s.config := by
  unfold sendFecParity
  simp only
  split
  · rfl
  · split
    · rfl
    · exact sendPacket_config _ _ _ _ _

theorem feedFec_config (audioSeq : UInt32) (payload : Bytes) (peer : SocketAddr) (sid : UInt32) :
    (s.feedFec aead env audioSeq payload peer sid).1.config = s.config := by
  unfold feedFec
  split
  · rfl
  · exact sendFecParity_config _ _ _ _ _ _

theorem sendAudio_config (payload : Bytes) :
    (s.sendAudio aead env payload).2.1.config = s.config := by
  unfold sendAudio
  split_ifs
  · rfl
  · split
    · rfl
    · simp only
      split
      · rfl
      · rename_i peer _ _ header wire _
        have hpacket := sendPacket_config
          { s with audioTxSeq := s.audioTxSeq + 1, txSequence := s.txSequence + 1 } env.sendTo header
          wire peer
        split
        · rename_i hsend
          rwa [hsend] at hpacket
        · rename_i hsend
          rw [hsend] at hpacket
          exact (feedFec_config ..).trans hpacket

end Config

end Session
end GravitalTalk.Transport
