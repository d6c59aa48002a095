import GravitalTalk.Core.Crypto
import GravitalTalk.Core.Message
import GravitalTalk.Core.Packet
import GravitalTalk.Core.SessionState
import GravitalTalk.Metrics.Estimators
import GravitalTalk.Transport.Congestion
import GravitalTalk.Transport.Fec
import GravitalTalk.Transport.JitterBuffer

/-! The session record and control messages.  The atomics and the fields behind locks are plain
fields here: this is the state one task sees between two of its own accesses. -/
namespace GravitalTalk.Transport
open Lib GravitalTalk.Core Estimators

inductive SocketAddr where
  | v4 (ip : UInt32) (port : UInt16)
  | v6 (ip : Vector UInt8 16) (port : UInt16) (flowinfo scopeId : UInt32)
  deriving DecidableEq, Repr

inductive TransportError where
  | io
  | timeout
  | closed
  | bufferTooSmall (needed available : Nat)
  | protocol (error : Error)
  | handshake (reason : String)
  | invalidState (reason : String)
  | peerClosed (reason : String)
  | authenticationFailed (reason : String)
  deriving DecidableEq, Repr

structure Config where
  sampleRate : UInt32
  channels : UInt8
  frameDurationMs : UInt8
  maxBitrate : UInt32
  codecPreferred : UInt8
  supportedCodecs : List UInt8
  capabilityFlags : UInt32
  jitterBufferMs : UInt16
  mtu : Nat
  deriving DecidableEq, Repr

def Config.default : Config where
  sampleRate := defaultSampleRate
  channels := 1
  frameDurationMs := defaultFrameDurationMs
  maxBitrate := defaultMaxBitrate
  codecPreferred := 0x01
  supportedCodecs := [0x01, 0x02]
  capabilityFlags := 0
  jitterBufferMs := defaultJitterBufferMs
  mtu := defaultMtu

structure Session where
  state : SessionStateMachine
  metrics : Metrics
  jitter : JitterBuffer
  config : Config
  peer : Option SocketAddr
  sessionId : UInt32
  txSequence : UInt32
  audioTxSeq : UInt32
  lastRx : UInt64
  negotiatedCodec : UInt8
  encryptKey : Option SessionKey
  decryptKey : Option SessionKey
  congestion : CongestionController
  fecEnc : FecEncoder
  fecDec : FecDecoder
  pttActive : Bool
  peerPttActive : Bool
  localSsrc : UInt32
  closed : Bool

structure Sent where
  data : Bytes
  dest : SocketAddr
  deriving DecidableEq, Repr

/-- What the outside answers while one datagram is handled: the reading stored in `last_rx`, the
later reading of the clock, and the transport's answer to a send. -/
structure Env where
  rxClock : UInt64
  clock : UInt64
  sendTo : Bytes → SocketAddr → Except TransportError Nat

def Env.Accepts (env : Env) : Prop := ∀ data dest, ∃ n, env.sendTo data dest = .ok n

namespace Session

def nextPowerOfTwo (n : Nat) : Nat := (((List.range 32).map (2 ^ ·)).find? (n ≤ ·)).getD (2 ^ 32)

def jitterSlots (bufferMs : UInt16) (frameMs : UInt8) : UInt32 :=
  let frames := max (bufferMs.toNat / max frameMs.toNat 1) 1
  UInt32.ofNat (max (nextPowerOfTwo frames) 16)

/-- `none` is a panic of the jitter buffer's or the congestion controller's constructor. -/
def new (config : Config) : Option Session := do
  let jitter ← JitterBuffer.new (jitterSlots config.jitterBufferMs config.frameDurationMs)
  let congestion ←
    CongestionController.new config.maxBitrate congestionMinBitrate config.maxBitrate
  return {
    state := .new
    metrics := .new
    jitter := jitter
    config := config
    peer := none
    sessionId := 0
    txSequence := 0
    audioTxSeq := 0
    lastRx := 0
    negotiatedCodec := 0
    encryptKey := none
    decryptKey := none
    congestion := congestion
    fecEnc := .withDefaultWindow
    fecDec := .withDefaultWindow
    pttActive := false
    peerPttActive := false
    localSsrc := 0
    closed := false }

def ofDefault : Session := (new Config.default).get (by decide)

/-- What a completed handshake stores. -/
def establish (self : Session) (peer : SocketAddr) (sessionId : UInt32) (codec : UInt8)
    (encKey decKey : SessionKey) : Session :=
  { self with
    state := ⟨.active⟩
    peer := some peer
    sessionId := sessionId
    negotiatedCodec := codec
    encryptKey := some encKey
    decryptKey := some decKey }

def integrityError (self : Session) : Session :=
  { self with metrics := self.metrics.recordIntegrityError }

/-- The packet as built in a zeroed buffer of `mtu` bytes. -/
def encodePacket (mtu : Nat) (header : PacketHeader) (payload : Bytes) : Except Error Bytes :=
  match (PacketBuilder.mk header payload).encode (List.replicate mtu 0) with
  | (.error e, _) => .error e
  | (.ok n, buf) => .ok (buf.take n)

def sendPacket (self : Session) (sendTo : Bytes → SocketAddr → Except TransportError Nat)
    (header : PacketHeader) (payload : Bytes) (peer : SocketAddr) :
    Except TransportError Unit × Session × List Sent :=
  match encodePacket self.config.mtu header payload with
  | .error e => (.error (.protocol e), self, [])
  | .ok data =>
    match sendTo data peer with
    | .error e => (.error e, self, [⟨data, peer⟩])
    | .ok sent => (.ok (), { self with metrics := self.metrics.recordSent sent }, [⟨data, peer⟩])

def sendControl (self : Session) (env : Env) (msg : MessageType) (sessionId : UInt32)
    (payload : Bytes) (peer : SocketAddr) : Except TransportError Unit × Session × List Sent :=
  let seq := self.txSequence
  let header := PacketHeader.new msg.code sessionId seq env.clock
  { self with txSequence := seq + 1 }.sendPacket env.sendTo header payload peer

theorem encodePacket_eq {mtu : Nat} {header : PacketHeader} {payload : Bytes}
    (hpayload : payload.length ≤ maxPayloadSize) (hmtu : headerSize + payload.length + 4 ≤ mtu) :
    encodePacket mtu header payload = .ok (Packet.bytes header payload) := by
  have hencode := PacketBuilder.encode_eq ⟨header, payload⟩ (List.replicate mtu 0) hpayload
    (by rwa [List.length_replicate])
  have htake := PacketBuilder.encode_take hencode
  simp only [encodePacket, hencode, htake]

theorem encodePacket_ok {mtu : Nat} {header : PacketHeader} {payload data : Bytes}
    (h : encodePacket mtu header payload = .ok data) :
    payload.length ≤ maxPayloadSize ∧ headerSize + payload.length + 4 ≤ mtu ∧
      data = Packet.bytes header payload := by
  unfold encodePacket at h
  cases hencode : (PacketBuilder.mk header payload).encode (List.replicate mtu 0) with
  | mk result buf =>
    rw [hencode] at h
    cases result with
    | error e => cases h
    | ok n =>
      obtain ⟨hpayload, hout, -⟩ := PacketBuilder.encode_ok hencode
      rw [List.length_replicate] at hout
      cases h
      exact ⟨hpayload, hout, PacketBuilder.encode_take hencode⟩

/-- A packet is refused for its size alone. -/
theorem encodePacket_error {mtu : Nat} {header : PacketHeader} {payload : Bytes} {e : Error}
    (h : encodePacket mtu header payload = .error e) : e = .payloadTooLarge ∨ e = .bufferTooSmall := by
  by_cases hpayload : payload.length ≤ maxPayloadSize
  · by_cases hmtu : headerSize + payload.length + 4 ≤ mtu
    · rw [encodePacket_eq hpayload hmtu] at h
      cases h
    · refine .inr ?_
      simpa [encodePacket, PacketBuilder.encode, Nat.not_lt.mpr hpayload, Nat.not_le.mp hmtu]
        using h.symm
  · refine .inl ?_
    simpa [encodePacket, PacketBuilder.encode, Nat.not_le.mp hpayload] using h.symm

/-- A send touches the metrics and nothing else of the session. -/
theorem sendPacket_session (self : Session)
    (sendTo : Bytes → SocketAddr → Except TransportError Nat) (header : PacketHeader)
    (payload : Bytes) (peer : SocketAddr) :
    ∃ metrics, (self.sendPacket sendTo header payload peer).2.1 =
      { self with metrics := metrics } := by
  unfold sendPacket
  split
  · exact ⟨self.metrics, rfl⟩
  · split
    · exact ⟨self.metrics, rfl⟩
    · exact ⟨_, rfl⟩

theorem sendPacket_ok_iff (self : Session)
    (sendTo : Bytes → SocketAddr → Except TransportError Nat) (header : PacketHeader)
    (payload : Bytes) (peer : SocketAddr) :
    (self.sendPacket sendTo header payload peer).1 = .ok () ↔
      payload.length ≤ maxPayloadSize ∧ headerSize + payload.length + 4 ≤ self.config.mtu ∧
        ∃ n, sendTo (Packet.bytes header payload) peer = .ok n := by
  unfold sendPacket
  cases hencode : encodePacket self.config.mtu header payload with
  | error e =>
    simp only [reduceCtorEq, false_iff]
    rintro ⟨hpayload, hmtu, -⟩
    rw [encodePacket_eq hpayload hmtu] at hencode
    cases hencode
  | ok data =>
    obtain ⟨hpayload, hmtu, rfl⟩ := encodePacket_ok hencode
    cases hsend : sendTo (Packet.bytes header payload) peer <;> simp [hpayload, hmtu, hsend]

theorem sendPacket_built {self : Session} {sendTo : Bytes → SocketAddr → Except TransportError Nat}
    {header : PacketHeader} {wire : Bytes} {peer : SocketAddr} {sent : Sent}
    (h : sent ∈ (self.sendPacket sendTo header wire peer).2.2) :
    encodePacket self.config.mtu header wire = .ok sent.data ∧ sent.dest = peer := by
  unfold sendPacket at h
  cases hencode : encodePacket self.config.mtu header wire with
  | error e => simp [hencode] at h
  | ok data =>
    have hmem : sent = ⟨data, peer⟩ := by
      cases hsend : sendTo data peer <;> simpa [hencode, hsend] using h
    rw [hmem]
    exact ⟨rfl, rfl⟩

theorem sendPacket_sent {self : Session} {sendTo : Bytes → SocketAddr → Except TransportError Nat}
    {header : PacketHeader} {wire : Bytes} {peer : SocketAddr} {sent : Sent}
    (h : sent ∈ (self.sendPacket sendTo header wire peer).2.2) :
    wire.length ≤ maxPayloadSize ∧ sent.data = Packet.bytes header wire ∧ sent.dest = peer := by
  obtain ⟨hencode, hdest⟩ := sendPacket_built h
  obtain ⟨hsize, -, hdata⟩ := encodePacket_ok hencode
  exact ⟨hsize, hdata, hdest⟩

theorem sendControl_session (self : Session) (env : Env) (msg : MessageType) (sessionId : UInt32)
    (payload : Bytes) (peer : SocketAddr) :
    ∃ metrics, (self.sendControl env msg sessionId payload peer).2.1 =
      { self with txSequence := self.txSequence + 1, metrics := metrics } :=
  sendPacket_session _ _ _ _ _

theorem sendControl_accepted (self : Session) {env : Env} (haccepts : env.Accepts)
    (msg : MessageType) (sessionId : UInt32) {payload : Bytes} (peer : SocketAddr)
    (hsize : payload.length ≤ maxPayloadSize)
    (hmtu : headerSize + payload.length + 4 ≤ self.config.mtu) :
    ∃ metrics, self.sendControl env msg sessionId payload peer =
      (.ok (), { self with txSequence := self.txSequence + 1, metrics := metrics },
        [⟨Packet.bytes (PacketHeader.new msg.code sessionId self.txSequence env.clock) payload,
          peer⟩]) := by
  set header := PacketHeader.new msg.code sessionId self.txSequence env.clock with hheader
  obtain ⟨n, hsend⟩ := haccepts (Packet.bytes header payload) peer
  have hencode := @encodePacket_eq self.config.mtu header payload hsize hmtu
  refine ⟨self.metrics.recordSent n, ?_⟩
  simp only [sendControl, sendPacket, ← hheader, hencode, hsend]

end Session
end GravitalTalk.Transport
