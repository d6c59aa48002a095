import GravitalTalk.Transport.EndToEnd
import GravitalTalk.Transport.ParitySize

/-! One datagram from the sender's buffers to the receiver's: what `send_audio` and
`send_fec_parity` build, `dispatch_packet` takes apart into the same sequence number, payload and
parity.  With a key the frame is sealed and opened; without one on either side it travels in the
clear, and no parity is sent. -/
namespace GravitalTalk.Transport
open Lib GravitalTalk.Core

/-- The receiver has the session id and the key of the sender, and the cipher opens under that key
what it sealed under it. -/
structure Paired (aead : Aead) (sender receiver : Session) : Prop where
  sessionId : sender.sessionId = receiver.sessionId
  key : sender.encryptKey = receiver.decryptKey
  correct : ∀ key, sender.encryptKey = some key → Correct aead key

/-- The datagram makes the receiver push the frame, with the timestamp of the header, into the FEC
decoder and the jitter buffer. -/
def PushesFrame (aead : Aead) (receiver : Session) (data : Bytes) (frame : Frame) : Prop :=
  ∃ view, PacketView.decode data = .ok view ∧
    view.header.msgType = MessageType.audioFrame.code ∧ view.header.timestamp = frame.timestamp ∧
    ∀ env,
      let out := receiver.dispatchPacket aead env view data
      out.handed = [.pushData frame.sequence frame.payload, .jitterPush frame] ∧
        out.session.jitter = (receiver.jitter.push frame).2

def PushesParity (aead : Aead) (receiver : Session) (data : Bytes) (parity : FecParity) : Prop :=
  ∃ view fecData, PacketView.decode data = .ok view ∧
    view.header.msgType = MessageType.audioFec.code ∧
    5 ≤ fecData.length ∧ Session.parityOf fecData = parity ∧
    ∀ env,
      let out := receiver.dispatchPacket aead env view data
      out = receiver.dispatchParity fecData ∧
        out.session.fecDec = (receiver.fecDec.pushParity parity).2

namespace Session

theorem dispatchParity_fecDec (s : Session) {fecData : Bytes} (h : 5 ≤ fecData.length) :
    (s.dispatchParity fecData).session.fecDec = (s.fecDec.pushParity (parityOf fecData)).2 := by
  unfold dispatchParity
  rw [if_pos h]
  cases s.fecDec.pushParity (parityOf fecData) with
  | mk found dec =>
    cases found with
    | none => rfl
    | some found => rfl

end Session

section Paths
variable {aead : Aead} {sender receiver : Session} {sendEnv : SendEnv} {payload : Bytes}

theorem audioPlaintext_clear (s : Session) (aead : Aead) {view : PacketView} (rawBuf : Bytes)
    (h : view.header.flags = Flags.empty) :
    s.audioPlaintext aead view rawBuf = some view.payload := by
  have hclear : ¬view.header.flags.contains Flags.encrypted = true := by
    rw [h]
    decide
  rw [Session.audioPlaintext, if_neg hclear]

theorem sealed_opens (h : Paired aead sender receiver) {key : SessionKey}
    (hkey : sender.encryptKey = some key) {mt : MessageType} {plain data : Bytes}
    (hsealed : SealedAs aead key sender.sessionId mt plain data) {view : PacketView}
    (hdecode : PacketView.decode data = .ok view) :
    Session.openPayload aead key receiver.sessionId view data = some plain := by
  rw [← h.sessionId]
  exact sealedAs_open (h.correct key hkey) hsealed hdecode

theorem audioPacket_pushes (h : Paired aead sender receiver) {audioSeq seq : UInt32} {ts : UInt64}
    {header : PacketHeader} {wire : Bytes}
    (hpacket : Session.audioPacket aead sender.encryptKey audioSeq seq sender.sessionId ts payload =
      .ok (header, wire)) (hsize : wire.length ≤ maxPayloadSize) :
    PushesFrame aead receiver (Packet.bytes header wire) ⟨audioSeq, ts, payload⟩ := by
  have hpushes : ∀ {view : PacketView} {data : Bytes}, PacketView.decode data = .ok view →
      view.header.msgType = MessageType.audioFrame.code → view.header.timestamp = ts →
        receiver.audioPlaintext aead view data = some (Session.prefixed audioSeq payload) →
          PushesFrame aead receiver data ⟨audioSeq, ts, payload⟩ := by
    rintro view data hdecode htype rfl hplain
    refine ⟨view, hdecode, htype, rfl, fun env => ?_⟩
    simp only [Session.dispatchPacket_audioFrame htype, dispatchAudioFrame_plain env hplain]
    exact ⟨trivial, trivial⟩
  cases hkey : sender.encryptKey with
  | none =>
    rw [hkey] at hpacket
    cases hpacket
    exact hpushes (PacketView.decode_bytes _ _ rfl hsize) rfl rfl (audioPlaintext_clear _ _ _ rfl)
  | some key =>
    rw [hkey] at hpacket
    obtain ⟨rfl, hseal⟩ := Session.audioPacket_some hpacket
    have hdecode := PacketView.decode_bytes
      (Session.encryptedHeader .audioFrame seq sender.sessionId ts) wire rfl hsize
    have hopen := sealed_opens h hkey ⟨_, _, wire, hseal, hsize, rfl⟩ hdecode
    refine hpushes hdecode rfl rfl ?_
    simp only [Session.audioPlaintext, Session.encryptedHeader_flag, ← h.key, hkey, if_true, hopen]

theorem sendFecParity_pushes (h : Paired aead sender receiver) (parity : FecParity)
    (peer : SocketAddr) {sent : Sent}
    (hsent : sent ∈ (sender.sendFecParity aead sendEnv parity peer sender.sessionId).2.2) :
    PushesParity aead receiver sent.data parity := by
  cases hkey : sender.encryptKey with
  | none => simp [Session.sendFecParity, hkey] at hsent
  | some key =>
    have hsealed := (Session.sendFecParity_spec ⟨hkey, rfl, rfl, rfl⟩ aead sendEnv parity peer).2
      sent hsent
    obtain ⟨view, hdecode, htype⟩ := sealedAs_decode hsealed
    obtain ⟨hlen, hparity⟩ := parityOf_fecPayload parity
    refine ⟨view, Session.fecPayload parity, hdecode, htype, hlen, hparity, fun env => ?_⟩
    have hflag : view.header.flags.contains Flags.encrypted = true := by
      obtain ⟨seq, ts, wire, -, hsize, hdata⟩ := hsealed
      rw [hdata, PacketView.decode_bytes _ wire rfl hsize] at hdecode
      cases hdecode
      exact Session.encryptedHeader_flag _ _ _ _
    have harm := dispatchAudioFec_open hflag (h.key ▸ hkey) (sealed_opens h hkey hsealed hdecode)
    simp only [Session.dispatchPacket_audioFec htype, harm]
    refine ⟨trivial, ?_⟩
    rw [Session.dispatchParity_fecDec _ hlen, hparity]

/-- What `send_audio` and `send_fec_parity` send is what the receiver pushes. -/
theorem audio_round_trip (aead : Aead) (sender receiver : Session) (sendEnv : SendEnv)
    (payload : Bytes) (h : Paired aead sender receiver) :
    ((sender.sendAudio aead sendEnv payload).1 = .ok () →
      ∃ sent fecs, (sender.sendAudio aead sendEnv payload).2.2 = sent :: fecs ∧
        PushesFrame aead receiver sent.data
          ⟨sender.audioTxSeq, sendEnv.audioClock, payload⟩) ∧
    ∀ parity peer,
      ∀ sent ∈ (sender.sendFecParity aead sendEnv parity peer sender.sessionId).2.2,
        PushesParity aead receiver sent.data parity := by
  refine ⟨fun hok => ?_, fun parity peer sent hsent => sendFecParity_pushes h parity peer hsent⟩
  obtain ⟨peer, header, wire, metrics, -, hpacket, hsize, -, hcall⟩ := Session.sendAudio_ok hok
  rw [hcall]
  exact ⟨_, _, rfl, audioPacket_pushes h hpacket hsize⟩

end Paths

private def tripKey : SessionKey := Vector.replicate 32 0

private def tripSender : Session :=
  { Session.ofDefault.establish (.v4 0x0A000001 9000) 7 1 tripKey tripKey with
    audioTxSeq := 3
    fecEnc := (((FecEncoder.withDefaultWindow.push 0 [1]).2.push 1 [2]).2.push 2 [3]).2 }

private def tripReceiver : Session :=
  Session.ofDefault.establish (.v4 0x0A000002 9000) 7 1 tripKey tripKey

private def tripEnv : SendEnv := ⟨5, 6, fun _ _ => .ok 0⟩

/-- The last frame of a group arrives as it was sent, and so does a parity. -/
theorem audio_round_trip_last :
    (∃ sent fecs, (tripSender.sendAudio Aead.transparent tripEnv [4, 5]).2.2 = sent :: fecs ∧
      PushesFrame Aead.transparent tripReceiver sent.data ⟨3, 5, [4, 5]⟩) ∧
    ∃ sent ∈ (tripSender.sendFecParity Aead.transparent tripEnv ⟨0, 4, [4, 5]⟩
        (.v4 0x0A000001 9000) tripSender.sessionId).2.2,
      PushesParity Aead.transparent tripReceiver sent.data ⟨0, 4, [4, 5]⟩ := by
  have hseals : Session.Seals Aead.transparent tripKey := fun _ _ _ _ => rfl
  have hpaired : Paired Aead.transparent tripSender tripReceiver := by
    refine ⟨rfl, rfl, fun key _ nonce aad plain cipher tag h => ?_⟩
    cases h
    rfl
  have hok : (tripSender.sendAudio Aead.transparent tripEnv [4, 5]).1 = .ok () :=
    Session.sendAudio_succeeds hseals rfl rfl rfl (by decide) fun _ _ => rfl
  obtain ⟨sent, hmem, -, -⟩ := @Session.sendFecParity_sends Aead.transparent tripKey tripSender
    hseals rfl ⟨0, 4, [4, 5]⟩ (by decide) tripEnv (.v4 0x0A000001 9000)
    tripSender.sessionId
  have htrip := audio_round_trip Aead.transparent tripSender tripReceiver tripEnv [4, 5] hpaired
  exact ⟨htrip.1 hok, sent, hmem, htrip.2 ⟨0, 4, [4, 5]⟩ (.v4 0x0A000001 9000) sent hmem⟩

end GravitalTalk.Transport
