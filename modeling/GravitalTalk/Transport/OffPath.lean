import GravitalTalk.Transport.JitterWindow
import GravitalTalk.Transport.Receive

/-! What a datagram from elsewhere does to an Active session.  Neither receive entry point looks at
the source address or at the session id of the header, so such a datagram acts like the peer's
own; it leaves the session alone only where the peer's own would have. -/
namespace GravitalTalk.Transport
open Lib GravitalTalk.Core

/-- A push that changes nothing: the frame is refused, or it is already stored as it is. -/
def JitterBuffer.Unmoved (jb : JitterBuffer) (frame : Frame) : Prop :=
  jb.primed = true ∧
    (frame.sequence - jb.nextSeq > 0x80000000 ∨ frame.sequence - jb.nextSeq ≥ jb.capacity ∨
      ((jb.slotAt (jb.slotIdx frame.sequence)).occupied = true ∧
        (jb.slotAt (jb.slotIdx frame.sequence)).sequence ≠ frame.sequence) ∨
      jb.slotAt (jb.slotIdx frame.sequence) = ⟨true, frame.sequence, some frame⟩)

theorem JitterBuffer.setSlot_eq_self_iff (jb : JitterBuffer) (idx : Nat) (slot : Slot)
    (h : idx < jb.capacity.toNat) : jb.setSlot idx slot = jb ↔ jb.slotAt idx = slot := by
  constructor
  · intro heq
    have := jb.slotAt_setSlot idx idx slot h
    rwa [heq, if_pos rfl] at this
  · rintro rfl
    have hlen : idx < jb.slots.length := by rw [jb.slots_length]; exact h
    have hset : jb.slots.set idx (jb.slotAt idx) = jb.slots := by
      rw [slotAt, List.getD_eq_getElem?_getD, List.getElem?_eq_getElem hlen, Option.getD_some,
        List.set_getElem_self]
    simp only [setSlot, hset]

theorem JitterBuffer.store_primed (jb : JitterBuffer) (frame : Frame) :
    (jb.store frame).2.primed = jb.primed := by
  simp only [store]
  split_ifs <;> rfl

theorem JitterBuffer.push_eq_self_iff (jb : JitterBuffer) (frame : Frame) :
    (jb.push frame).2 = jb ↔ jb.Unmoved frame := by
  unfold push Unmoved
  cases hprimed : jb.primed with
  | false =>
    simp only [Bool.not_false, if_true, Bool.false_eq_true, false_and, iff_false]
    intro heq
    have hstored := congrArg JitterBuffer.primed heq
    rw [store_primed, hprimed] at hstored
    cases hstored
  | true =>
    simp only [Bool.not_true, Bool.false_eq_true, if_false, true_and]
    by_cases hold : frame.sequence - jb.nextSeq > 0x80000000
    · simp [hold]
    by_cases hfar : frame.sequence - jb.nextSeq ≥ jb.capacity
    · simp [hold, hfar]
    rw [if_neg hold, if_neg hfar]
    simp only [hold, hfar, false_or, store]
    by_cases hcollide : (jb.slotAt (jb.slotIdx frame.sequence)).occupied = true ∧
        (jb.slotAt (jb.slotIdx frame.sequence)).sequence ≠ frame.sequence
    · simp [hcollide]
    · rw [if_neg (by simpa [-not_and] using hcollide)]
      simp only [hcollide, false_or]
      exact jb.setSlot_eq_self_iff _ _ (jb.slotIdx_lt _)

namespace FecDecoder

def HasData (dec : FecDecoder) (sequence : UInt32) (payload : Bytes) : Prop :=
  dec.active = true ∧ dec.seqBase = sequence - sequence % dec.window.toUInt32 ∧
    dec.received.getD (sequence - dec.seqBase).toNat none = some payload

def HasParity (dec : FecDecoder) (parity : FecParity) : Prop :=
  dec.active = true ∧ dec.seqBase = parity.seqBase ∧ dec.parity = some parity.payload

theorem pushData_eq_self_iff (dec : FecDecoder) (sequence : UInt32) (payload : Bytes) :
    (dec.pushData sequence payload).2 = dec ↔ dec.HasData sequence payload := by
  obtain ⟨hactive, hbase, hwindow⟩ :=
    dec.selectGroup_spec (sequence - sequence % dec.window.toUInt32)
  have hoffset : (sequence - (dec.selectGroup
      (sequence - sequence % dec.window.toUInt32)).seqBase).toNat < dec.window.toNat := by
    rw [hbase, sub_mod_offset]
    exact Nat.mod_lt _ (UInt8.lt_iff_toNat_lt.mp (zero_lt_of_two_le dec.window_ge))
  simp only [pushData, hwindow, if_pos hoffset, HasData]
  constructor
  · intro heq
    have hact := (congrArg FecDecoder.active heq).symm.trans hactive
    have hseq := (congrArg FecDecoder.seqBase heq).symm.trans hbase
    have hself := selectGroup_eq_self hact hseq
    have hrec := congrArg FecDecoder.received heq
    simp only [hself] at hrec hoffset
    refine ⟨hact, hseq, ?_⟩
    rw [← hrec, List.getD_eq_getElem?_getD, List.getElem?_set_self (by
      rwa [dec.received_length hact])]
    rfl
  · rintro ⟨hact, hseq, hget⟩
    have hself := selectGroup_eq_self hact hseq
    have hlen : (sequence - dec.seqBase).toNat < dec.received.length := by
      rw [dec.received_length hact]
      simpa only [hself] using hoffset
    rw [List.getD_eq_getElem?_getD, List.getElem?_eq_getElem hlen, Option.getD_some] at hget
    have hset : dec.received.set (sequence - dec.seqBase).toNat (some payload) = dec.received := by
      rw [← hget, List.set_getElem_self]
    simp only [hself, hset]

theorem pushParity_eq_self_iff (dec : FecDecoder) (parity : FecParity) :
    (dec.pushParity parity).2 = dec ↔ dec.HasParity parity := by
  unfold pushParity HasParity
  obtain ⟨hactive, hbase, -⟩ := dec.selectGroup_spec parity.seqBase
  constructor
  · intro heq
    have hact := congrArg FecDecoder.active heq
    have hseq := congrArg FecDecoder.seqBase heq
    have hpar := congrArg FecDecoder.parity heq
    simp only at hact hseq hpar
    exact ⟨hact.symm.trans hactive, hseq.symm.trans hbase, hpar.symm⟩
  · rintro ⟨hact, hseq, hpar⟩
    simp only [selectGroup_eq_self hact hseq, ← hpar]

end FecDecoder

structure Unmoved (s s' : Session) : Prop where
  state : s'.state = s.state
  pttActive : s'.pttActive = s.pttActive
  peerPttActive : s'.peerPttActive = s.peerPttActive
  bitrate : s'.congestion.currentBitrate = s.congestion.currentBitrate
  jitter : s'.jitter = s.jitter
  fecDec : s'.fecDec = s.fecDec
  lastRx : s'.lastRx = s.lastRx

def Undisturbed (s : Session) (o : Outcome) : Prop := o.result = .ok () ∧ Unmoved s o.session

namespace Session

/-- The audio of a frame is dropped, or it is already there. -/
def AudioFrameInert (s : Session) (aead : Aead) (view : PacketView) (rawBuf : Bytes) : Prop :=
  ∀ plain, s.audioPlaintext aead view rawBuf = some plain → 4 ≤ plain.length →
    s.jitter.Unmoved ⟨fromBe32 (slice plain 0 4), view.header.timestamp, plain.drop 4⟩ ∧
      s.fecDec.HasData (fromBe32 (slice plain 0 4)) (plain.drop 4)

/-- The parity is too short, or it is already there and recovers nothing new. -/
def ParityInert (s : Session) (plain : Bytes) : Prop :=
  5 ≤ plain.length → s.fecDec.HasParity (parityOf plain) ∧
    ∀ recSeq recPayload, s.fecDec.tryRecover = some (recSeq, recPayload) →
      s.jitter.Unmoved ⟨recSeq, 0, recPayload⟩

def AudioFecInert (s : Session) (aead : Aead) (view : PacketView) (rawBuf : Bytes) : Prop :=
  view.header.flags.contains Flags.encrypted = true → ∀ key, s.decryptKey = some key →
    ∀ plain, openPayload aead key s.sessionId view rawBuf = some plain → s.ParityInert plain

def AckAccepted (s : Session) (env : Env) : Prop :=
  ∀ peer, s.peer = some peer → headerSize + 4 ≤ s.config.mtu ∧
    ∃ n, env.sendTo (Packet.bytes
      (PacketHeader.new MessageType.heartbeatAck.code s.sessionId s.txSequence env.clock) []) peer =
        .ok n

/-- The requested bitrate comes out as the current one. -/
def BitrateKept (s : Session) (view : PacketView) : Prop :=
  ∀ msg, ControlBitrateMsg.decode view.payload = .ok msg →
    clamp msg.requestedBitrate s.congestion.minBitrate s.congestion.maxBitrate =
      s.congestion.currentBitrate

/-- By message type, when handling the packet moves none of the fields. -/
def ArmInert (s : Session) (aead : Aead) (env : Env) (view : PacketView) (rawBuf : Bytes) : Prop :=
  match MessageType.fromCode view.header.msgType with
  | .ok .audioFrame => s.AudioFrameInert aead view rawBuf
  | .ok .heartbeat => s.AckAccepted env
  | .ok .audioFec => s.AudioFecInert aead view rawBuf
  | .ok .controlPause => s.peerPttActive = false
  | .ok .controlResume => s.peerPttActive = true
  | .ok .floorDeny => s.pttActive = false
  | .ok .floorRelease => s.peerPttActive = false
  | .ok .controlBitrate => s.BitrateKept view
  | .ok .close => False
  | _ => True

-- One lemma for each arm, about a session `s'` that differs from `s` in metrics and `last_rx`.
section Arms
variable {s : Session} {aead : Aead} {env : Env} {view : PacketView} {rawBuf : Bytes} {n : Nat}

theorem quiet_undisturbed_iff :
    Undisturbed s (s.arrived env.rxClock n).quiet ↔ env.rxClock = s.lastRx :=
  ⟨fun h => h.2.lastRx, fun h => ⟨rfl, rfl, rfl, rfl, rfl, rfl, rfl, h⟩⟩

theorem integrityError_undisturbed_iff :
    Undisturbed s (s.arrived env.rxClock n).integrityError.quiet ↔ env.rxClock = s.lastRx :=
  ⟨fun h => h.2.lastRx, fun h => ⟨rfl, rfl, rfl, rfl, rfl, rfl, rfl, h⟩⟩

theorem sendControl_unmoved_iff (msg : MessageType) (sid : UInt32) (payload : Bytes)
    (peer : SocketAddr) :
    Unmoved s ((s.arrived env.rxClock n).sendControl env msg sid payload peer).2.1 ↔
      env.rxClock = s.lastRx := by
  obtain ⟨metrics, hsession⟩ :=
    (s.arrived env.rxClock n).sendControl_session env msg sid payload peer
  rw [hsession]
  exact ⟨fun h => h.lastRx, fun h => ⟨rfl, rfl, rfl, rfl, rfl, rfl, h⟩⟩

theorem audioFrame_undisturbed_iff :
    Undisturbed s ((s.arrived env.rxClock n).dispatchAudioFrame aead env view rawBuf) ↔
      env.rxClock = s.lastRx ∧ s.AudioFrameInert aead view rawBuf := by
  have hplain : (s.arrived env.rxClock n).audioPlaintext aead view rawBuf =
      s.audioPlaintext aead view rawBuf := rfl
  unfold dispatchAudioFrame AudioFrameInert
  rw [hplain]
  cases s.audioPlaintext aead view rawBuf with
  | none =>
    simp only [reduceCtorEq, false_implies, implies_true, and_true]
    exact integrityError_undisturbed_iff
  | some plain =>
    by_cases hshort : plain.length < 4
    · simp only [if_pos hshort, integrityError_undisturbed_iff]
      refine ⟨fun h => ⟨h, ?_⟩, fun h => h.1⟩
      rintro _ ⟨⟩ hlen
      omega
    · simp only [if_neg hshort]
      constructor
      · rintro ⟨-, hun⟩
        refine ⟨hun.lastRx, ?_⟩
        rintro _ ⟨⟩ -
        exact ⟨(s.jitter.push_eq_self_iff _).mp hun.jitter,
          (s.fecDec.pushData_eq_self_iff _ _).mp hun.fecDec⟩
      · rintro ⟨hclock, hinert⟩
        obtain ⟨hjitter, hfec⟩ := hinert plain rfl (Nat.not_lt.mp hshort)
        exact ⟨rfl, rfl, rfl, rfl, rfl, (s.jitter.push_eq_self_iff _).mpr hjitter,
          (s.fecDec.pushData_eq_self_iff _ _).mpr hfec, hclock⟩

theorem parity_undisturbed_iff (plain : Bytes) :
    Undisturbed s ((s.arrived env.rxClock n).dispatchParity plain) ↔
      env.rxClock = s.lastRx ∧ s.ParityInert plain := by
  have hparity := s.fecDec.pushParity_eq_self_iff (parityOf plain)
  have hrecover : s.fecDec.HasParity (parityOf plain) →
      (s.fecDec.pushParity (parityOf plain)).1 = s.fecDec.tryRecover := by
    intro hhas
    have hself := hparity.mpr hhas
    simp only [FecDecoder.pushParity] at hself ⊢
    rw [hself]
  have hdec : (s.arrived env.rxClock n).fecDec = s.fecDec := rfl
  unfold dispatchParity ParityInert
  rw [hdec]
  by_cases hlen : plain.length ≥ 5
  · rw [if_pos hlen]
    cases hpush : s.fecDec.pushParity (parityOf plain) with
    | mk recovered fecDec =>
      rw [hpush] at hparity hrecover
      cases recovered with
      | none =>
        constructor
        · rintro ⟨-, hun⟩
          have hhas := hparity.mp hun.fecDec
          refine ⟨hun.lastRx, fun _ => ⟨hhas, ?_⟩⟩
          intro recSeq recPayload hsome
          rw [← hrecover hhas] at hsome
          cases hsome
        · rintro ⟨hclock, hinert⟩
          exact ⟨rfl, rfl, rfl, rfl, rfl, rfl, hparity.mpr (hinert hlen).1, hclock⟩
      | some found =>
        obtain ⟨recSeq, recPayload⟩ := found
        constructor
        · rintro ⟨-, hun⟩
          have hhas := hparity.mp hun.fecDec
          refine ⟨hun.lastRx, fun _ => ⟨hhas, ?_⟩⟩
          intro seq payload hsome
          rw [← hrecover hhas] at hsome
          cases hsome
          exact (s.jitter.push_eq_self_iff _).mp hun.jitter
        · rintro ⟨hclock, hinert⟩
          obtain ⟨hhas, hjitter⟩ := hinert hlen
          have hmoved := hjitter recSeq recPayload (hrecover hhas).symm
          exact ⟨rfl, rfl, rfl, rfl, rfl, (s.jitter.push_eq_self_iff _).mpr hmoved,
            hparity.mpr hhas, hclock⟩
  · rw [if_neg hlen, quiet_undisturbed_iff]
    exact ⟨fun h => ⟨h, fun hlen' => absurd hlen' hlen⟩, fun h => h.1⟩

theorem audioFec_undisturbed_iff :
    Undisturbed s ((s.arrived env.rxClock n).dispatchAudioFec aead view rawBuf) ↔
      env.rxClock = s.lastRx ∧ s.AudioFecInert aead view rawBuf := by
  have hkey : (s.arrived env.rxClock n).decryptKey = s.decryptKey := rfl
  have hsid : (s.arrived env.rxClock n).sessionId = s.sessionId := rfl
  unfold dispatchAudioFec AudioFecInert
  rw [hkey, hsid]
  by_cases hflag : view.header.flags.contains Flags.encrypted = true
  · rw [if_pos hflag]
    cases s.decryptKey with
    | none => simp [quiet_undisturbed_iff]
    | some key =>
      simp only [hflag, Option.some.injEq, forall_const, forall_eq']
      cases openPayload aead key s.sessionId view rawBuf with
      | none => simp [integrityError_undisturbed_iff]
      | some plain =>
        simp only [Option.some.injEq, forall_eq']
        exact parity_undisturbed_iff plain
  · rw [if_neg hflag, quiet_undisturbed_iff]
    exact ⟨fun h => ⟨h, fun hflag' => absurd hflag' hflag⟩, fun h => h.1⟩

theorem heartbeat_undisturbed_iff :
    Undisturbed s ((s.arrived env.rxClock n).dispatchHeartbeat env) ↔
      env.rxClock = s.lastRx ∧ s.AckAccepted env := by
  have hpeer : (s.arrived env.rxClock n).peer = s.peer := rfl
  unfold dispatchHeartbeat AckAccepted
  rw [hpeer]
  cases s.peer with
  | none => simp [quiet_undisturbed_iff]
  | some peer =>
    simp only [Undisturbed, sendControl_unmoved_iff, Option.some.injEq, forall_eq']
    rw [sendControl, sendPacket_ok_iff, and_comm]
    simp only [List.length_nil, Nat.zero_le, true_and, Nat.add_zero]
    rfl

theorem floorRequest_undisturbed_iff :
    Undisturbed s ((s.arrived env.rxClock n).dispatchFloorRequest env) ↔
      env.rxClock = s.lastRx := by
  have hpeer : (s.arrived env.rxClock n).peer = s.peer := rfl
  unfold dispatchFloorRequest
  rw [hpeer]
  split_ifs
  · exact quiet_undisturbed_iff
  · cases s.peer with
    | none => exact quiet_undisturbed_iff
    | some peer => simp only [Undisturbed, sendControl_unmoved_iff, true_and]

theorem controlBitrate_undisturbed_iff :
    Undisturbed s ((s.arrived env.rxClock n).dispatchControlBitrate view) ↔
      env.rxClock = s.lastRx ∧ s.BitrateKept view := by
  unfold dispatchControlBitrate BitrateKept
  cases ControlBitrateMsg.decode view.payload with
  | error e => simp [quiet_undisturbed_iff]
  | ok msg =>
    simp only [Except.ok.injEq, forall_eq']
    exact ⟨fun h => ⟨h.2.lastRx, h.2.bitrate⟩,
      fun h => ⟨rfl, rfl, rfl, rfl, h.2, rfl, rfl, h.1⟩⟩

end Arms

theorem dispatchPacket_undisturbed_iff {s : Session} {aead : Aead} {env : Env} {view : PacketView}
    {rawBuf : Bytes} {n : Nat} :
    Undisturbed s ((s.arrived env.rxClock n).dispatchPacket aead env view rawBuf) ↔
      env.rxClock = s.lastRx ∧ s.ArmInert aead env view rawBuf := by
  unfold dispatchPacket ArmInert
  cases MessageType.fromCode view.header.msgType with
  | error e => simp [integrityError_undisturbed_iff]
  | ok mt =>
    cases mt with
    | audioFrame => exact audioFrame_undisturbed_iff
    | audioFec => exact audioFec_undisturbed_iff
    | heartbeat => exact heartbeat_undisturbed_iff
    | floorRequest => simpa using floorRequest_undisturbed_iff
    | controlBitrate => exact controlBitrate_undisturbed_iff
    | controlPause | controlResume | floorRelease =>
      exact ⟨fun h => ⟨h.2.lastRx, h.2.peerPttActive.symm⟩,
        fun h => ⟨rfl, rfl, rfl, h.2.symm, rfl, rfl, rfl, h.1⟩⟩
    | floorDeny =>
      exact ⟨fun h => ⟨h.2.lastRx, h.2.pttActive.symm⟩,
        fun h => ⟨rfl, rfl, h.2.symm, rfl, rfl, rfl, rfl, h.1⟩⟩
    | close =>
      simp only [and_false, iff_false]
      rintro ⟨hresult, -⟩
      cases hresult
    | _ => simp [quiet_undisturbed_iff]

theorem processDatagram_undisturbed_iff {s : Session} {aead : Aead} {env : Env}
    {datagram : Datagram} {view : PacketView}
    (hdecode : PacketView.decode (datagram.data.take s.config.mtu) = .ok view) :
    Undisturbed s (s.processDatagram aead env datagram) ↔
      env.rxClock = s.lastRx ∧ s.ArmInert aead env view (datagram.data.take s.config.mtu) := by
  rw [processDatagram_ok hdecode]
  exact dispatchPacket_undisturbed_iff

end Session

/-- The same for a call of `recv_audio`, which may still be waiting. -/
def AudioUndisturbed (s : Session) (o : Session.AudioOutcome) : Prop :=
  (∀ e, o.result ≠ some (.error e)) ∧ Unmoved s o.session

/-- The source address or the session id is not the session's own. -/
def OffPath (s : Session) (datagram : Datagram) (view : PacketView) : Prop :=
  s.peer ≠ some datagram.source ∨ view.header.sessionId ≠ s.sessionId

/-- An off-path datagram leaves an Active session undisturbed exactly when the clock stands where
`last_rx` has it and the arm of its message type has nothing to change. -/
theorem offPath_undisturbed_iff (aead : Aead) (env : Env) (s : Session) (datagram : Datagram)
    (view : PacketView) :
    s.state.state = .active →
    PacketView.decode (datagram.data.take s.config.mtu) = .ok view →
    OffPath s datagram view →
      (Undisturbed s (s.pollOnce aead env (.datagram datagram)) ↔
        env.rxClock = s.lastRx ∧ s.ArmInert aead env view (datagram.data.take s.config.mtu)) ∧
      ∀ startUs nowUs, s.jitter.pop = (none, s.jitter) → ¬nowUs ≥ startUs + s.skipUs →
        (AudioUndisturbed s (s.recvAudio aead startUs [⟨nowUs, .datagram datagram, env⟩]) ↔
          env.rxClock = s.lastRx ∧ s.ArmInert aead env view (datagram.data.take s.config.mtu)) := by
  intro _ hdecode _
  have hiff := @Session.processDatagram_undisturbed_iff s aead env datagram view hdecode
  refine ⟨hiff, ?_⟩
  intro startUs nowUs hempty hearly
  rw [Session.recvAudio_processes hempty hearly, ← hiff]
  unfold AudioUndisturbed Undisturbed
  cases (s.processDatagram aead env datagram).result with
  | error e => simp
  | ok _ => simp

private def peerAddr : SocketAddr := .v4 0x0A000001 9000

private def strangerAddr : SocketAddr := .v4 0x0A000002 9000

private def activeSession : Session :=
  Session.ofDefault.establish peerAddr 7 1 (Vector.replicate 32 0) (Vector.replicate 32 0)

private def still : Env := ⟨0, 1, fun data _ => .ok data.length⟩

private def strangerPacket (mt : MessageType) : Datagram :=
  ⟨Packet.bytes (PacketHeader.new mt.code 99 0 0) [], strangerAddr⟩

private theorem decode_strangerPacket (mt : MessageType) :
    PacketView.decode ((strangerPacket mt).data.take activeSession.config.mtu) =
      .ok ⟨PacketHeader.new mt.code 99 0 0, []⟩ := by
  rw [List.take_of_length_le]
  · exact PacketView.decode_bytes _ _ rfl (by decide)
  · rw [strangerPacket, Packet.length_bytes]
    decide

/-- A Close of another session from another address closes this one. -/
theorem offPath_undisturbed_fails : ¬∀ (aead : Aead) (env : Env) (s : Session)
    (datagram : Datagram) (view : PacketView), s.state.state = .active →
      PacketView.decode (datagram.data.take s.config.mtu) = .ok view →
      OffPath s datagram view → Undisturbed s (s.pollOnce aead env (.datagram datagram)) := by
  intro hall
  have hdecode := decode_strangerPacket .close
  have hiff := @Session.processDatagram_undisturbed_iff activeSession Aead.transparent still
    (strangerPacket .close) _ hdecode
  exact (hiff.mp (hall Aead.transparent still activeSession (strangerPacket .close) _ rfl hdecode
    (.inl (by decide)))).2

/-- A HeartbeatAck at the clock reading of `last_rx` changes nothing. -/
theorem offPath_undisturbed_iff_ack :
    Undisturbed activeSession
      (activeSession.pollOnce Aead.transparent still (.datagram (strangerPacket .heartbeatAck))) :=
  (offPath_undisturbed_iff Aead.transparent still activeSession (strangerPacket .heartbeatAck) _ rfl
    (decode_strangerPacket .heartbeatAck) (.inl (by decide))).1.mpr
      ⟨rfl, trivial⟩

end GravitalTalk.Transport
