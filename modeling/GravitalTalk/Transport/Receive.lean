import GravitalTalk.Transport.Session

/-! The receive path: `dispatch_packet` with its arms, and the two entry points `poll_once` and
`recv_audio`.  Every function returns what it sent and which audio it handed to the jitter buffer
and the FEC decoder beside its result. -/
namespace GravitalTalk.Transport
open Lib GravitalTalk.Core Estimators

/-- Audio handed on: a frame to `JitterBuffer::push`, or a payload to `FecDecoder::push_data`. -/
inductive Handed where
  | jitterPush (frame : Frame)
  | pushData (sequence : UInt32) (payload : Bytes)
  deriving DecidableEq, Repr

structure Outcome where
  result : Except TransportError Unit
  session : Session
  sent : List Sent
  handed : List Handed

structure Datagram where
  data : Bytes
  source : SocketAddr
  deriving DecidableEq, Repr

/-- What a bounded wait on the transport brings. -/
inductive RecvEvent where
  | datagram (datagram : Datagram)
  | failed (error : TransportError)
  | timeout

namespace Session

def quiet (self : Session) : Outcome := ⟨.ok (), self, [], []⟩

/-- The plaintext `decrypt_in_place` leaves in a copy of the payload, with the header bytes as
associated data. -/
def openPayload (aead : Aead) (key : SessionKey) (sid : UInt32) (view : PacketView)
    (rawBuf : Bytes) : Option Bytes :=
  let nonce := makeNonce view.header.sequence sid
  let aad := rawBuf.take headerSize
  match decryptInPlace aead key nonce aad view.payload view.payload.length with
  | (.ok plainLen, tmp) => some (tmp.take plainLen)
  | (.error _, _) => none

/-- The plaintext of an AudioFrame: decrypted if the flag says so, else the payload itself. -/
def audioPlaintext (self : Session) (aead : Aead) (view : PacketView) (rawBuf : Bytes) :
    Option Bytes :=
  if view.header.flags.contains Flags.encrypted then
    match self.decryptKey with
    | some key => openPayload aead key self.sessionId view rawBuf
    | none => none
  else some view.payload

def dispatchAudioFrame (self : Session) (aead : Aead) (env : Env) (view : PacketView)
    (rawBuf : Bytes) : Outcome :=
  match self.audioPlaintext aead view rawBuf with
  | none => self.integrityError.quiet
  | some plaintext =>
    if plaintext.length < 4 then self.integrityError.quiet
    else
      let audioSeq := fromBe32 (slice plaintext 0 4)
      let audioPayload := plaintext.drop 4
      let frame : Frame := ⟨audioSeq, view.header.timestamp, audioPayload⟩
      let metrics :=
        { self.metrics with
          loss := self.metrics.loss.record audioSeq
          jitter := self.metrics.jitter.record frame.timestamp env.clock }
      { result := .ok ()
        session :=
          { self with
            metrics := metrics
            fecDec := (self.fecDec.pushData audioSeq audioPayload).2
            jitter := (self.jitter.push frame).2 }
        sent := []
        handed := [.pushData audioSeq audioPayload, .jitterPush frame] }

def parityOf (fecData : Bytes) : FecParity :=
  ⟨fromBe32 (slice fecData 0 4), fecData.getD 4 0, fecData.drop 5⟩

/-- A decrypted AudioFec payload: the parity goes to the decoder, a recovered frame to the jitter
buffer. -/
def dispatchParity (self : Session) (fecData : Bytes) : Outcome :=
  if fecData.length ≥ 5 then
    match self.fecDec.pushParity (parityOf fecData) with
    | (none, fecDec) => { self with fecDec := fecDec }.quiet
    | (some (recSeq, recPayload), fecDec) =>
      let frame : Frame := ⟨recSeq, 0, recPayload⟩
      { result := .ok ()
        session := { self with fecDec := fecDec, jitter := (self.jitter.push frame).2 }
        sent := []
        handed := [.jitterPush frame] }
  else self.quiet

def dispatchAudioFec (self : Session) (aead : Aead) (view : PacketView) (rawBuf : Bytes) :
    Outcome :=
  if view.header.flags.contains Flags.encrypted then
    match self.decryptKey with
    | none => self.quiet
    | some key =>
      match openPayload aead key self.sessionId view rawBuf with
      | none => self.integrityError.quiet
      | some fecData => self.dispatchParity fecData
  else self.quiet

def dispatchHeartbeat (self : Session) (env : Env) : Outcome :=
  match self.peer with
  | none => self.quiet
  | some peer =>
    let (result, session, sent) := self.sendControl env .heartbeatAck self.sessionId [] peer
    ⟨result, session, sent, []⟩

/-- The floor is granted at once while this side is not talking; the answer's fate is ignored. -/
def dispatchFloorRequest (self : Session) (env : Env) : Outcome :=
  if self.pttActive then self.quiet
  else
    match self.peer with
    | none => self.quiet
    | some peer =>
      let (_, session, sent) :=
        self.sendControl env .floorGrant self.sessionId (be32 self.sessionId) peer
      ⟨.ok (), session, sent, []⟩

def dispatchControlBitrate (self : Session) (view : PacketView) : Outcome :=
  match ControlBitrateMsg.decode view.payload with
  | .ok msg => { self with congestion := self.congestion.setBitrate msg.requestedBitrate }.quiet
  | .error _ => self.quiet

def dispatchClose (self : Session) : Outcome :=
  ⟨.error (.peerClosed "remote close"), { self with state := (self.state.transition .peerClosed).2 },
    [], []⟩

def dispatchPacket (self : Session) (aead : Aead) (env : Env) (view : PacketView)
    (rawBuf : Bytes) : Outcome :=
  match MessageType.fromCode view.header.msgType with
  | .ok .audioFrame => self.dispatchAudioFrame aead env view rawBuf
  | .ok .heartbeat => self.dispatchHeartbeat env
  | .ok .heartbeatAck => self.quiet
  | .ok .audioFec => self.dispatchAudioFec aead view rawBuf
  | .ok .controlPause => { self with peerPttActive := false }.quiet
  | .ok .controlResume => { self with peerPttActive := true }.quiet
  | .ok .floorRequest => self.dispatchFloorRequest env
  | .ok .floorGrant => self.quiet
  | .ok .floorDeny => { self with pttActive := false }.quiet
  | .ok .floorRelease => { self with peerPttActive := false }.quiet
  | .ok .floorTaken => self.quiet
  | .ok .controlBitrate => self.dispatchControlBitrate view
  | .ok .close => self.dispatchClose
  | .ok _ => self.quiet
  | .error _ => self.integrityError.quiet

/-- `record_received` and, for a packet that decodes, the store to `last_rx`. -/
def arrived (self : Session) (lastRx : UInt64) (n : Nat) : Session :=
  { self with metrics := self.metrics.recordReceived n, lastRx := lastRx }

/-- What `poll_once` and `recv_audio` do with a datagram.  It is received into a buffer of `mtu`
bytes; the source address is dropped. -/
def processDatagram (self : Session) (aead : Aead) (env : Env) (datagram : Datagram) : Outcome :=
  let data := datagram.data.take self.config.mtu
  match PacketView.decode data with
  | .ok view => (self.arrived env.rxClock data.length).dispatchPacket aead env view data
  | .error _ => (self.arrived self.lastRx data.length).integrityError.quiet

def sendHeartbeat (self : Session) (env : Env) : Outcome :=
  match self.peer with
  | none => self.quiet
  | some peer =>
    let (result, session, sent) := self.sendControl env .heartbeat self.sessionId [] peer
    ⟨result, session, sent, []⟩

def checkLiveness (self : Session) (now : UInt64) : Except TransportError Unit × Session :=
  -- `now.saturating_sub(last)`
  let silent := now.toNat - self.lastRx.toNat
  if self.lastRx ≠ 0 ∧ silent > heartbeatTimeoutMs.toNat * 1000 then
    (.error (.peerClosed "heartbeat timeout"),
      { self with state := (self.state.transition .peerTimeout).2 })
  else
    let rttUs := (self.metrics.rtt.currentUs.getD 0).toUInt64
    (.ok (),
      { self with
        congestion := self.congestion.update self.metrics.loss.lost lossWindowSize.toNat rttUs })

def pollOnce (self : Session) (aead : Aead) (env : Env) : RecvEvent → Outcome
  | .failed e => ⟨.error e, self, [], []⟩
  | .datagram datagram => self.processDatagram aead env datagram
  | .timeout =>
    if self.state.state = .active ∨ self.state.state = .paused then
      let beat := self.sendHeartbeat env
      match beat.result with
      | .error e => ⟨.error e, beat.session, beat.sent, []⟩
      | .ok () =>
        let (result, session) := beat.session.checkLiveness env.rxClock
        ⟨result, session, beat.sent, []⟩
    else self.quiet

/-- One round of `recv_audio`'s loop: the clock at its top, and what the short receive window
brings if the round gets that far. -/
structure Tick where
  nowUs : UInt64
  event : RecvEvent
  env : Env

/-- `result` is `none` while the call has not returned; `processed` has each datagram the call took
with the session as it was before. -/
structure AudioOutcome where
  result : Option (Except TransportError Frame)
  session : Session
  sent : List Sent
  handed : List Handed
  processed : List (Session × Datagram)

def skipUs (self : Session) : UInt64 := self.config.jitterBufferMs.toUInt64 * 3 * 1000

def recvLoop (aead : Aead) (deadlineUs : UInt64) (self : Session) : List Tick → AudioOutcome
  | [] => ⟨none, self, [], [], []⟩
  | tick :: ticks =>
    match self.jitter.popWithDeadline tick.nowUs deadlineUs with
    | (some frame, jitter) => ⟨some (.ok frame), { self with jitter := jitter }, [], [], []⟩
    | (none, jitter) =>
      let self := { self with jitter := jitter }
      if tick.nowUs ≥ deadlineUs then recvLoop aead (tick.nowUs + self.skipUs) self ticks
      else
        match tick.event with
        | .timeout => recvLoop aead deadlineUs self ticks
        | .failed e => ⟨some (.error e), self, [], [], []⟩
        | .datagram datagram =>
          let step := self.processDatagram aead tick.env datagram
          match step.result with
          | .error e =>
            ⟨some (.error e), step.session, step.sent, step.handed, [(self, datagram)]⟩
          | .ok () =>
            let rest := recvLoop aead deadlineUs step.session ticks
            { rest with
              sent := step.sent ++ rest.sent
              handed := step.handed ++ rest.handed
              processed := (self, datagram) :: rest.processed }

/-- `startUs` is the clock reading the first deadline is counted from. -/
def recvAudio (self : Session) (aead : Aead) (startUs : UInt64) (ticks : List Tick) :
    AudioOutcome :=
  recvLoop aead (startUs + self.skipUs) self ticks

/-- What a datagram may change: eight fields, the state machine only as a Close does. -/
inductive Dispatched (self : Session) : Session → Prop
  | fields {state : SessionStateMachine} {metrics : Metrics} {jitter : JitterBuffer}
    {txSequence : UInt32} {congestion : CongestionController} {fecDec : FecDecoder}
    {pttActive peerPttActive : Bool}
    (hstate : state = self.state ∨ state = (self.state.transition .peerClosed).2) :
    Dispatched self
      { self with
        state := state
        metrics := metrics
        jitter := jitter
        txSequence := txSequence
        congestion := congestion
        fecDec := fecDec
        pttActive := pttActive
        peerPttActive := peerPttActive }

section Dispatched
variable {self : Session} {aead : Aead} {env : Env} {view : PacketView} {rawBuf : Bytes}

theorem dispatched_sendControl (msg : MessageType) (sessionId : UInt32) (payload : Bytes)
    (peer : SocketAddr) : Dispatched self (self.sendControl env msg sessionId payload peer).2.1 := by
  obtain ⟨metrics, hsession⟩ := self.sendControl_session env msg sessionId payload peer
  rw [hsession]
  exact .fields (.inl rfl)

theorem dispatched_audioFrame :
    Dispatched self (self.dispatchAudioFrame aead env view rawBuf).session := by
  unfold dispatchAudioFrame
  split
  · exact .fields (.inl rfl)
  · split_ifs
    · exact .fields (.inl rfl)
    · exact .fields (.inl rfl)

theorem dispatched_audioFec : Dispatched self (self.dispatchAudioFec aead view rawBuf).session := by
  unfold dispatchAudioFec
  split_ifs
  · split
    · exact .fields (.inl rfl)
    · split
      · exact .fields (.inl rfl)
      · unfold dispatchParity
        split_ifs
        · split
          · exact .fields (.inl rfl)
          · exact .fields (.inl rfl)
        · exact .fields (.inl rfl)
  · exact .fields (.inl rfl)

theorem dispatched_heartbeat : Dispatched self (self.dispatchHeartbeat env).session := by
  unfold dispatchHeartbeat
  split
  · exact .fields (.inl rfl)
  · exact dispatched_sendControl _ _ _ _

theorem dispatched_floorRequest : Dispatched self (self.dispatchFloorRequest env).session := by
  unfold dispatchFloorRequest
  split_ifs
  · exact .fields (.inl rfl)
  · split
    · exact .fields (.inl rfl)
    · exact dispatched_sendControl _ _ _ _

theorem dispatched_packet : Dispatched self (self.dispatchPacket aead env view rawBuf).session := by
  unfold dispatchPacket
  cases MessageType.fromCode view.header.msgType with
  | error e => exact .fields (.inl rfl)
  | ok msg =>
    cases msg
    case audioFrame => exact dispatched_audioFrame
    case heartbeat => exact dispatched_heartbeat
    case audioFec => exact dispatched_audioFec
    case floorRequest => exact dispatched_floorRequest
    case controlBitrate =>
      dsimp only
      unfold dispatchControlBitrate
      split
      · exact .fields (.inl rfl)
      · exact .fields (.inl rfl)
    case close => exact .fields (.inr rfl)
    all_goals exact .fields (.inl rfl)

end Dispatched

theorem dispatchPacket_audioFrame {self : Session} {aead : Aead} {env : Env} {view : PacketView}
    {rawBuf : Bytes} (h : view.header.msgType = MessageType.audioFrame.code) :
    self.dispatchPacket aead env view rawBuf = self.dispatchAudioFrame aead env view rawBuf := by
  have hcode : MessageType.fromCode MessageType.audioFrame.code = .ok .audioFrame := rfl
  simp only [dispatchPacket, h, hcode]

theorem dispatchPacket_audioFec {self : Session} {aead : Aead} {env : Env} {view : PacketView}
    {rawBuf : Bytes} (h : view.header.msgType = MessageType.audioFec.code) :
    self.dispatchPacket aead env view rawBuf = self.dispatchAudioFec aead view rawBuf := by
  have hcode : MessageType.fromCode MessageType.audioFec.code = .ok .audioFec := rfl
  simp only [dispatchPacket, h, hcode]

theorem processDatagram_ok {self : Session} {aead : Aead} {env : Env} {datagram : Datagram}
    {view : PacketView} (h : PacketView.decode (datagram.data.take self.config.mtu) = .ok view) :
    self.processDatagram aead env datagram =
      (self.arrived env.rxClock (datagram.data.take self.config.mtu).length).dispatchPacket
        aead env view (datagram.data.take self.config.mtu) := by
  simp only [processDatagram, h]

theorem processDatagram_error {self : Session} {aead : Aead} {env : Env} {datagram : Datagram}
    {e : Error} (h : PacketView.decode (datagram.data.take self.config.mtu) = .error e) :
    self.processDatagram aead env datagram =
      (self.arrived self.lastRx
        (datagram.data.take self.config.mtu).length).integrityError.quiet := by
  simp only [processDatagram, h]

theorem recvAudio_processes {self : Session} {aead : Aead} {startUs nowUs : UInt64} {env : Env}
    {datagram : Datagram} (hempty : self.jitter.pop = (none, self.jitter))
    (hearly : ¬nowUs ≥ startUs + self.skipUs) :
    let step := self.processDatagram aead env datagram
    self.recvAudio aead startUs [⟨nowUs, .datagram datagram, env⟩] =
      ⟨match step.result with
        | .error e => some (.error e)
        | .ok () => none, step.session, step.sent, step.handed, [(self, datagram)]⟩ := by
  have hpop : self.jitter.popWithDeadline nowUs (startUs + self.skipUs) = (none, self.jitter) := by
    simp [JitterBuffer.popWithDeadline, hempty, hearly]
  simp only [recvAudio, recvLoop, hpop, if_neg hearly]
  cases (self.processDatagram aead env datagram).result with
  | error e => rfl
  | ok _ => simp

end Session
end GravitalTalk.Transport
