import GravitalTalk.Core.Constants

/-! Message types and the structured payloads of the handshake, of FEC, of bitrate control and of
authentication. -/
namespace GravitalTalk.Core
open Lib

inductive MessageType where
  | handshakeClientHello
  | handshakeServerHello
  | handshakeSessionConfirm
  | handshakeKeyExchange
  | audioFrame
  | audioFragment
  | audioFec
  | heartbeat
  | heartbeatAck
  | controlPause
  | controlResume
  | controlMetrics
  | controlBitrate
  | floorRequest
  | floorGrant
  | floorDeny
  | floorRelease
  | floorTaken
  | authChallenge
  | authResponse
  | authAccepted
  | authRejected
  | extension (byte : UInt8)
  | error
  | close
  deriving DecidableEq, Repr

namespace MessageType

def code : MessageType → UInt8
  | handshakeClientHello => 0x01
  | handshakeServerHello => 0x02
  | handshakeSessionConfirm => 0x03
  | handshakeKeyExchange => 0x04
  | audioFrame => 0x10
  | audioFragment => 0x11
  | audioFec => 0x12
  | heartbeat => 0x20
  | heartbeatAck => 0x21
  | controlPause => 0x30
  | controlResume => 0x31
  | controlMetrics => 0x32
  | controlBitrate => 0x33
  | floorRequest => 0x40
  | floorGrant => 0x41
  | floorDeny => 0x42
  | floorRelease => 0x43
  | floorTaken => 0x44
  | authChallenge => 0x50
  | authResponse => 0x51
  | authAccepted => 0x52
  | authRejected => 0x53
  | extension byte => byte
  | error => 0xFE
  | close => 0xFF

def fromCode (code : UInt8) : Except Error MessageType :=
  match code with
  | 0x01 => .ok handshakeClientHello
  | 0x02 => .ok handshakeServerHello
  | 0x03 => .ok handshakeSessionConfirm
  | 0x04 => .ok handshakeKeyExchange
  | 0x10 => .ok audioFrame
  | 0x11 => .ok audioFragment
  | 0x12 => .ok audioFec
  | 0x20 => .ok heartbeat
  | 0x21 => .ok heartbeatAck
  | 0x30 => .ok controlPause
  | 0x31 => .ok controlResume
  | 0x32 => .ok controlMetrics
  | 0x33 => .ok controlBitrate
  | 0x40 => .ok floorRequest
  | 0x41 => .ok floorGrant
  | 0x42 => .ok floorDeny
  | 0x43 => .ok floorRelease
  | 0x44 => .ok floorTaken
  | 0x50 => .ok authChallenge
  | 0x51 => .ok authResponse
  | 0x52 => .ok authAccepted
  | 0x53 => .ok authRejected
  | 0xFE => .ok error
  | 0xFF => .ok close
  | other =>
    if (0x45 ≤ other ∧ other ≤ 0x4F) ∨ (0x54 ≤ other ∧ other ≤ 0x7F) then .ok (extension other)
    else .error (.unknownMessageType other)

theorem code_of_fromCode {code : UInt8} {mt : MessageType} (h : fromCode code = .ok mt) :
    mt.code = code := by
  unfold fromCode at h
  split at h
  all_goals first
    | (injection h with h; subst h; rfl)
    | (split_ifs at h; injection h with h; subst h; rfl)

end MessageType

structure ClientHello where
  ephemeralPublicKey : Vector UInt8 32
  clientNonce : Vector UInt8 32
  protocolVersion : UInt8
  codecPreferred : UInt8
  sampleRate : UInt32
  channels : UInt8
  frameDurationMs : UInt8
  maxBitrate : UInt32
  capabilityFlags : UInt32
  deriving DecidableEq, Repr

namespace ClientHello

def size : Nat := 80

def encode (self : ClientHello) (buf : Bytes) : Except Error Unit × Bytes :=
  if buf.length < size then (.error .bufferTooSmall, buf)
  else
    let buf := overwrite buf 0 self.ephemeralPublicKey.toList
    let buf := overwrite buf 32 self.clientNonce.toList
    let buf := overwrite buf 64 [self.protocolVersion]
    let buf := overwrite buf 65 [self.codecPreferred]
    let buf := overwrite buf 66 (be32 self.sampleRate)
    let buf := overwrite buf 70 [self.channels]
    let buf := overwrite buf 71 [self.frameDurationMs]
    let buf := overwrite buf 72 (be32 self.maxBitrate)
    let buf := overwrite buf 76 (be32 self.capabilityFlags)
    (.ok (), buf)

def decode (buf : Bytes) : Except Error ClientHello :=
  if buf.length < size then .error .malformedPayload
  else
    .ok {
      ephemeralPublicKey := readVector 32 buf 0
      clientNonce := readVector 32 buf 32
      protocolVersion := buf.getD 64 0
      codecPreferred := buf.getD 65 0
      sampleRate := fromBe32 (slice buf 66 4)
      channels := buf.getD 70 0
      frameDurationMs := buf.getD 71 0
      maxBitrate := fromBe32 (slice buf 72 4)
      capabilityFlags := fromBe32 (slice buf 76 4) }

def bytes (self : ClientHello) : Bytes :=
  self.ephemeralPublicKey.toList ++ (self.clientNonce.toList ++
    ([self.protocolVersion, self.codecPreferred] ++ (be32 self.sampleRate ++
      ([self.channels, self.frameDurationMs] ++
        (be32 self.maxBitrate ++ be32 self.capabilityFlags)))))

@[simp] theorem length_bytes (self : ClientHello) : self.bytes.length = size := by
  simp [bytes, size]

theorem encode_eq (self : ClientHello) (buf : Bytes) (h : size ≤ buf.length) :
    self.encode buf = (.ok (), overwrite buf 0 self.bytes) := by
  have hlen : 80 ≤ buf.length := h
  rw [encode, if_neg (by omega)]
  simp (disch := first | (simp; done) | (simp; omega) | omega) only [overwrite_overwrite]
  simp [bytes]

theorem decode_bytes (self : ClientHello) : decode self.bytes = .ok self := by
  have hlen : ¬self.bytes.length < size := by simp
  have hkey : readVector 32 self.bytes 0 = self.ephemeralPublicKey :=
    readVector_eq _ _ _ _ (by simp [size]) (by simp [bytes])
  have hnonce : readVector 32 self.bytes 32 = self.clientNonce :=
    readVector_eq _ _ _ _ (by simp [size]) (by simp [slice, bytes])
  have hrate : slice self.bytes 66 4 = be32 self.sampleRate := by
    simp [slice, bytes, List.drop_append, List.drop_of_length_le]
  have hbitrate : slice self.bytes 72 4 = be32 self.maxBitrate := by
    simp [slice, bytes, List.drop_append, List.drop_of_length_le]
  have hflags : slice self.bytes 76 4 = be32 self.capabilityFlags := by
    simp [slice, bytes, List.drop_append, List.drop_of_length_le]
  rw [decode, if_neg hlen, hkey, hnonce, hrate, hbitrate, hflags]
  simp [bytes]

end ClientHello

structure ServerHello where
  ephemeralPublicKey : Vector UInt8 32
  serverNonce : Vector UInt8 32
  sessionId : UInt32
  protocolVersion : UInt8
  codecAccepted : UInt8
  sampleRate : UInt32
  channels : UInt8
  frameDurationMs : UInt8
  maxBitrate : UInt32
  capabilityFlags : UInt32
  deriving DecidableEq, Repr

namespace ServerHello

def size : Nat := 84

def encode (self : ServerHello) (buf : Bytes) : Except Error Unit × Bytes :=
  if buf.length < size then (.error .bufferTooSmall, buf)
  else
    let buf := overwrite buf 0 self.ephemeralPublicKey.toList
    let buf := overwrite buf 32 self.serverNonce.toList
    let buf := overwrite buf 64 (be32 self.sessionId)
    let buf := overwrite buf 68 [self.protocolVersion]
    let buf := overwrite buf 69 [self.codecAccepted]
    let buf := overwrite buf 70 (be32 self.sampleRate)
    let buf := overwrite buf 74 [self.channels]
    let buf := overwrite buf 75 [self.frameDurationMs]
    let buf := overwrite buf 76 (be32 self.maxBitrate)
    let buf := overwrite buf 80 (be32 self.capabilityFlags)
    (.ok (), buf)

def decode (buf : Bytes) : Except Error ServerHello :=
  if buf.length < size then .error .malformedPayload
  else
    .ok {
      ephemeralPublicKey := readVector 32 buf 0
      serverNonce := readVector 32 buf 32
      sessionId := fromBe32 (slice buf 64 4)
      protocolVersion := buf.getD 68 0
      codecAccepted := buf.getD 69 0
      sampleRate := fromBe32 (slice buf 70 4)
      channels := buf.getD 74 0
      frameDurationMs := buf.getD 75 0
      maxBitrate := fromBe32 (slice buf 76 4)
      capabilityFlags := fromBe32 (slice buf 80 4) }

def bytes (self : ServerHello) : Bytes :=
  self.ephemeralPublicKey.toList ++ (self.serverNonce.toList ++ (be32 self.sessionId ++
    ([self.protocolVersion, self.codecAccepted] ++ (be32 self.sampleRate ++
      ([self.channels, self.frameDurationMs] ++
        (be32 self.maxBitrate ++ be32 self.capabilityFlags))))))

@[simp] theorem length_bytes (self : ServerHello) : self.bytes.length = size := by
  simp [bytes, size]

theorem encode_eq (self : ServerHello) (buf : Bytes) (h : size ≤ buf.length) :
    self.encode buf = (.ok (), overwrite buf 0 self.bytes) := by
  have hlen : 84 ≤ buf.length := h
  rw [encode, if_neg (by omega)]
  simp (disch := first | (simp; done) | (simp; omega) | omega) only [overwrite_overwrite]
  simp [bytes]

theorem decode_bytes (self : ServerHello) : decode self.bytes = .ok self := by
  have hlen : ¬self.bytes.length < size := by simp
  have hkey : readVector 32 self.bytes 0 = self.ephemeralPublicKey :=
    readVector_eq _ _ _ _ (by simp [size]) (by simp [bytes])
  have hnonce : readVector 32 self.bytes 32 = self.serverNonce :=
    readVector_eq _ _ _ _ (by simp [size]) (by simp [slice, bytes])
  have hsid : slice self.bytes 64 4 = be32 self.sessionId := by
    simp [slice, bytes, List.drop_append, List.drop_of_length_le]
  have hrate : slice self.bytes 70 4 = be32 self.sampleRate := by
    simp [slice, bytes, List.drop_append, List.drop_of_length_le]
  have hbitrate : slice self.bytes 76 4 = be32 self.maxBitrate := by
    simp [slice, bytes, List.drop_append, List.drop_of_length_le]
  have hflags : slice self.bytes 80 4 = be32 self.capabilityFlags := by
    simp [slice, bytes, List.drop_append, List.drop_of_length_le]
  rw [decode, if_neg hlen, hkey, hnonce, hsid, hrate, hbitrate, hflags]
  simp [bytes]

end ServerHello

/-- The shared layout: `session_id` (4) and a tag (16). -/
def encodeTagged (sessionId : UInt32) (tag : Vector UInt8 16) (buf : Bytes) :
    Except Error Unit × Bytes :=
  if buf.length < 20 then (.error .bufferTooSmall, buf)
  else
    let buf := overwrite buf 0 (be32 sessionId)
    let buf := overwrite buf 4 tag.toList
    (.ok (), buf)

def decodeTagged (buf : Bytes) : Except Error (UInt32 × Vector UInt8 16) :=
  if buf.length < 20 then .error .malformedPayload
  else .ok (fromBe32 (slice buf 0 4), readVector 16 buf 4)

def taggedBytes (sessionId : UInt32) (tag : Vector UInt8 16) : Bytes := be32 sessionId ++ tag.toList

@[simp] theorem length_taggedBytes (sessionId : UInt32) (tag : Vector UInt8 16) :
    (taggedBytes sessionId tag).length = 20 := by
  simp [taggedBytes]

theorem encodeTagged_eq (sessionId : UInt32) (tag : Vector UInt8 16) (buf : Bytes)
    (h : 20 ≤ buf.length) :
    encodeTagged sessionId tag buf = (.ok (), overwrite buf 0 (taggedBytes sessionId tag)) := by
  rw [encodeTagged, if_neg (by omega)]
  simp (disch := first | (simp; done) | (simp; omega) | omega) only [overwrite_overwrite]
  rfl

theorem decodeTagged_bytes (sessionId : UInt32) (tag : Vector UInt8 16) :
    decodeTagged (taggedBytes sessionId tag) = .ok (sessionId, tag) := by
  have hlen : ¬(taggedBytes sessionId tag).length < 20 := by simp
  have hsid : slice (taggedBytes sessionId tag) 0 4 = be32 sessionId := by
    simp [taggedBytes]
  have htag : readVector 16 (taggedBytes sessionId tag) 4 = tag :=
    readVector_eq _ _ _ _ (by simp) (by simp [slice, taggedBytes])
  rw [decodeTagged, if_neg hlen, hsid, htag, fromBe32_be32]

structure KeyExchangeMsg where
  sessionId : UInt32
  authTag : Vector UInt8 16
  deriving DecidableEq, Repr

namespace KeyExchangeMsg

def size : Nat := 20

def encode (self : KeyExchangeMsg) (buf : Bytes) : Except Error Unit × Bytes :=
  encodeTagged self.sessionId self.authTag buf

def decode (buf : Bytes) : Except Error KeyExchangeMsg :=
  (decodeTagged buf).map fun fields => ⟨fields.1, fields.2⟩

def bytes (self : KeyExchangeMsg) : Bytes := taggedBytes self.sessionId self.authTag

@[simp] theorem decode_bytes (self : KeyExchangeMsg) : decode self.bytes = .ok self := by
  rw [decode, bytes, decodeTagged_bytes]
  rfl

end KeyExchangeMsg

structure SessionConfirm where
  sessionId : UInt32
  serverAuthTag : Vector UInt8 16
  deriving DecidableEq, Repr

namespace SessionConfirm

def size : Nat := 20

def encode (self : SessionConfirm) (buf : Bytes) : Except Error Unit × Bytes :=
  encodeTagged self.sessionId self.serverAuthTag buf

def decode (buf : Bytes) : Except Error SessionConfirm :=
  (decodeTagged buf).map fun fields => ⟨fields.1, fields.2⟩

def bytes (self : SessionConfirm) : Bytes := taggedBytes self.sessionId self.serverAuthTag

@[simp] theorem decode_bytes (self : SessionConfirm) : decode self.bytes = .ok self := by
  rw [decode, bytes, decodeTagged_bytes]
  rfl

end SessionConfirm

structure FecHeader where
  seqBase : UInt32
  window : UInt8
  dataLen : UInt32
  deriving DecidableEq, Repr

namespace FecHeader

def size : Nat := 9

def encode (self : FecHeader) (buf : Bytes) : Except Error Unit × Bytes :=
  if buf.length < size then (.error .bufferTooSmall, buf)
  else
    let buf := overwrite buf 0 (be32 self.seqBase)
    let buf := overwrite buf 4 [self.window]
    let buf := overwrite buf 5 (be32 self.dataLen)
    (.ok (), buf)

def decode (buf : Bytes) : Except Error FecHeader :=
  if buf.length < size then .error .malformedPayload
  else
    let window := buf.getD 4 0
    if window = 0 then .error .malformedPayload
    else .ok ⟨fromBe32 (slice buf 0 4), window, fromBe32 (slice buf 5 4)⟩

end FecHeader

structure ControlBitrateMsg where
  requestedBitrate : UInt32
  deriving DecidableEq, Repr

namespace ControlBitrateMsg

def size : Nat := 4

def encode (self : ControlBitrateMsg) (buf : Bytes) : Except Error Unit × Bytes :=
  if buf.length < size then (.error .bufferTooSmall, buf)
  else (.ok (), overwrite buf 0 (be32 self.requestedBitrate))

def decode (buf : Bytes) : Except Error ControlBitrateMsg :=
  if buf.length < size then .error .malformedPayload else .ok ⟨fromBe32 (slice buf 0 4)⟩

end ControlBitrateMsg

structure AuthChallengeMsg where
  nonce : Vector UInt8 32
  deriving DecidableEq, Repr

namespace AuthChallengeMsg

def size : Nat := 32

def encode (self : AuthChallengeMsg) (buf : Bytes) : Except Error Unit × Bytes :=
  if buf.length < size then (.error .bufferTooSmall, buf)
  else (.ok (), overwrite buf 0 self.nonce.toList)

def decode (buf : Bytes) : Except Error AuthChallengeMsg :=
  if buf.length < size then .error .malformedPayload else .ok ⟨readVector 32 buf 0⟩

end AuthChallengeMsg

structure AuthResponseMsg where
  publicKey : Vector UInt8 32
  signature : Vector UInt8 64
  deriving DecidableEq, Repr

namespace AuthResponseMsg

def size : Nat := 96

def encode (self : AuthResponseMsg) (buf : Bytes) : Except Error Unit × Bytes :=
  if buf.length < size then (.error .bufferTooSmall, buf)
  else
    let buf := overwrite buf 0 self.publicKey.toList
    let buf := overwrite buf 32 self.signature.toList
    (.ok (), buf)

def decode (buf : Bytes) : Except Error AuthResponseMsg :=
  if buf.length < size then .error .malformedPayload
  else .ok ⟨readVector 32 buf 0, readVector 64 buf 32⟩

end AuthResponseMsg
end GravitalTalk.Core
