import GravitalTalk.Transport.Contents
import GravitalTalk.Transport.Receive

/-! From `send_audio` on one side to `recv_audio` on the other, over a network that loses, repeats
and reorders.  A frame that arrives in its own packet is delivered as it was sent.  A frame rebuilt
from a parity comes out as long as the longest frame of its group, padded with zeros: the length of
the lost frame is nowhere in the packet. -/
namespace GravitalTalk.Transport
open Lib GravitalTalk.Core

def Correct (aead : Aead) (key : SessionKey) : Prop :=
  ∀ nonce aad plain cipher tag, aead.encryptDetached key nonce aad plain = some (cipher, tag) →
    aead.decryptDetached key nonce aad cipher tag = some plain

/-- What the cipher promises: it opens what it sealed, and of the byte strings the receiver can cut
out of the datagrams `sent`, only whole datagrams open. -/
structure Integrity (aead : Aead) (key : SessionKey) (sid : UInt32) (mtu : Nat) (sent : List Sent) :
    Prop where
  correct : Correct aead key
  unforgeable : ∀ d ∈ sent, ∀ view plain, PacketView.decode (d.data.take mtu) = .ok view →
    Session.openPayload aead key sid view (d.data.take mtu) = some plain →
      ∃ d' ∈ sent, d'.data = d.data.take mtu

section Opening
variable {aead : Aead} {key : SessionKey} {sid : UInt32} {mtu : Nat} {sent : List Sent}
  {payloads : List Bytes}

theorem sealedAs_decode {mt : MessageType} {plain data : Bytes}
    (h : SealedAs aead key sid mt plain data) :
    ∃ view, PacketView.decode data = .ok view ∧ view.header.msgType = mt.code := by
  obtain ⟨seq, ts, wire, -, hsize, rfl⟩ := h
  exact ⟨_, PacketView.decode_bytes _ wire rfl hsize, rfl⟩

theorem sealedAs_open (hcorrect : Correct aead key) {mt : MessageType} {plain data : Bytes}
    (h : SealedAs aead key sid mt plain data) {view : PacketView}
    (hdecode : PacketView.decode data = .ok view) :
    Session.openPayload aead key sid view data = some plain := by
  obtain ⟨seq, ts, wire, hseal, hsize, rfl⟩ := h
  rw [PacketView.decode_bytes _ wire rfl hsize] at hdecode
  cases hdecode
  rw [Session.sealPayload_eq] at hseal
  cases hencrypt : aead.encryptDetached key (makeNonce (Session.encryptedHeader mt seq sid ts).sequence
      (Session.encryptedHeader mt seq sid ts).sessionId)
      (Session.encryptedHeader mt seq sid ts).bytes plain with
  | none =>
    rw [hencrypt] at hseal
    cases hseal
  | some found =>
    obtain ⟨cipher, tag⟩ := found
    rw [hencrypt] at hseal
    cases hseal
    have hdecrypt := hcorrect _ _ _ _ _ hencrypt
    have hopen := decryptInPlace_eq hdecrypt
    simp only [Session.openPayload, take_bytes]
    rw [show makeNonce (Session.encryptedHeader mt seq sid ts).sequence sid =
      makeNonce (Session.encryptedHeader mt seq sid ts).sequence
        (Session.encryptedHeader mt seq sid ts).sessionId from rfl, hopen]
    simp

theorem genuine_header {data : Bytes} (h : Genuine aead key sid payloads data) {view : PacketView}
    (hdecode : PacketView.decode (data.take mtu) = .ok view) :
    view.header.flags.contains Flags.encrypted = true ∧
      (view.header.msgType = MessageType.audioFrame.code ∨
        view.header.msgType = MessageType.audioFec.code) := by
  have hsealed : ∀ {mt plain}, SealedAs aead key sid mt plain data →
      view.header.flags.contains Flags.encrypted = true ∧ view.header.msgType = mt.code := by
    rintro mt plain ⟨seq, ts, wire, -, hsize, rfl⟩
    obtain ⟨hheader, -⟩ := PacketView.decode_take rfl hsize hdecode
    rw [hheader]
    exact ⟨Session.encryptedHeader_flag _ _ _ _, rfl⟩
  rcases h with ⟨n, payload, -, hframe⟩ | ⟨k, -, hparity⟩
  · exact ⟨(hsealed hframe).1, .inl (hsealed hframe).2⟩
  · exact ⟨(hsealed hparity).1, .inr (hsealed hparity).2⟩

/-- What opens is the plaintext of a frame or of a parity of the stream. -/
theorem genuine_open (hintegrity : Integrity aead key sid mtu sent)
    (hgenuine : ∀ d ∈ sent, Genuine aead key sid payloads d.data) {d : Sent} (hd : d ∈ sent)
    {view : PacketView} (hdecode : PacketView.decode (d.data.take mtu) = .ok view) {plain : Bytes}
    (hopen : Session.openPayload aead key sid view (d.data.take mtu) = some plain) :
    (view.header.msgType = MessageType.audioFrame.code ∧ ∃ n payload,
      payloads[n]? = some payload ∧ plain = Session.prefixed (UInt32.ofNat n) payload) ∨
    (view.header.msgType = MessageType.audioFec.code ∧ ∃ k,
      CarriesParity aead key sid payloads k (d.data.take mtu) ∧
        plain = Session.fecPayload ⟨UInt32.ofNat (k * 4), fecWindow,
          XorParity.parity (fecGroup payloads k)⟩) := by
  obtain ⟨d', hd', hdata⟩ := hintegrity.unforgeable d hd view plain hdecode hopen
  rw [← hdata] at hdecode hopen ⊢
  have hsealed : ∀ {mt plain'}, SealedAs aead key sid mt plain' d'.data →
      view.header.msgType = mt.code ∧ plain = plain' := by
    intro mt plain' hseal
    obtain ⟨view', hdecode', htype⟩ := sealedAs_decode hseal
    have hopen' := sealedAs_open hintegrity.correct hseal hdecode
    rw [hdecode] at hdecode'
    cases hdecode'
    rw [hopen] at hopen'
    exact ⟨htype, Option.some.inj hopen'⟩
  rcases hgenuine d' hd' with ⟨n, payload, hpayload, hframe⟩ | ⟨k, hparity⟩
  · obtain ⟨htype, rfl⟩ := hsealed hframe
    exact .inl ⟨htype, n, payload, hpayload, rfl⟩
  · obtain ⟨htype, rfl⟩ := hsealed hparity.2
    exact .inr ⟨htype, k, hparity, rfl⟩

end Opening

def Sound (payloads : List Bytes) (frame : Frame) : Prop :=
  payloads[frame.sequence.toNat]? = some frame.payload

/-- If the datagram carries the parity of a group of which the decoder lacks exactly one frame, and
the jitter buffer would take that frame, then no frame of the group is longer than it. -/
def Whole (aead : Aead) (key : SessionKey) (payloads : List Bytes) (s : Session)
    (datagram : Datagram) : Prop :=
  ∀ k lost, CarriesParity aead key s.sessionId payloads k (datagram.data.take s.config.mtu) →
    (s.fecDec.selectGroup (UInt32.ofNat (k * 4))).missing = [lost] →
      s.jitter.Accepts (UInt32.ofNat (k * 4 + lost)) →
        ∀ frame ∈ fecGroup payloads k, frame.length ≤ (payloads.getD (k * 4 + lost) []).length

structure Faithful (key : SessionKey) (sid : UInt32) (mtu : Nat) (payloads : List Bytes)
    (s : Session) : Prop where
  decryptKey : s.decryptKey = some key
  sessionId : s.sessionId = sid
  mtu : s.config.mtu = mtu
  jitter : s.jitter.Holds (Sound payloads)
  fecDec : s.fecDec.Holds payloads

theorem parityOf_fecPayload (parity : FecParity) :
    5 ≤ (Session.fecPayload parity).length ∧
      Session.parityOf (Session.fecPayload parity) = parity := by
  have hbase : (Session.fecPayload parity).take 4 = be32 parity.seqBase := by
    rw [Session.fecPayload, List.take_append_of_le_length (by simp),
      List.take_of_length_le (by simp)]
  have hwindow : (Session.fecPayload parity).getD 4 0 = parity.window := by
    simp [Session.fecPayload]
  have hrest : (Session.fecPayload parity).drop 5 = parity.payload := by
    simp [Session.fecPayload, List.drop_append]
  refine ⟨by simp [Session.fecPayload]; omega, ?_⟩
  rw [Session.parityOf, slice_zero, hbase, hwindow, hrest, fromBe32_be32]

theorem dispatchAudioFrame_plain {aead : Aead} {s : Session} {view : PacketView}
    {rawBuf payload : Bytes} {n : UInt32} (env : Env)
    (hplain : s.audioPlaintext aead view rawBuf = some (Session.prefixed n payload)) :
    s.dispatchAudioFrame aead env view rawBuf =
      { result := .ok ()
        session :=
          { s with
            metrics := { s.metrics with
              loss := s.metrics.loss.record n
              jitter := s.metrics.jitter.record view.header.timestamp env.clock }
            fecDec := (s.fecDec.pushData n payload).2
            jitter := (s.jitter.push ⟨n, view.header.timestamp, payload⟩).2 }
        sent := []
        handed := [.pushData n payload, .jitterPush ⟨n, view.header.timestamp, payload⟩] } := by
  have hlen : ¬(Session.prefixed n payload).length < 4 := by simp [Session.prefixed]
  have hseq : fromBe32 (slice (Session.prefixed n payload) 0 4) = n := by
    rw [slice_zero, Session.prefixed, List.take_append_of_le_length (by simp),
      List.take_of_length_le (by simp), fromBe32_be32]
  have hrest : (Session.prefixed n payload).drop 4 = payload := by
    simp [Session.prefixed]
  simp only [Session.dispatchAudioFrame, hplain, if_neg hlen, hseq, hrest]

theorem dispatchAudioFrame_prefixed {aead : Aead} {key : SessionKey} {s : Session}
    {view : PacketView} {rawBuf payload : Bytes} {n : UInt32} (env : Env)
    (hflag : view.header.flags.contains Flags.encrypted = true) (hkey : s.decryptKey = some key)
    (hopen : Session.openPayload aead key s.sessionId view rawBuf =
      some (Session.prefixed n payload)) :
    (s.dispatchAudioFrame aead env view rawBuf).session =
      { s with
        metrics := { s.metrics with
          loss := s.metrics.loss.record n
          jitter := s.metrics.jitter.record view.header.timestamp env.clock }
        fecDec := (s.fecDec.pushData n payload).2
        jitter := (s.jitter.push ⟨n, view.header.timestamp, payload⟩).2 } := by
  have hplain : s.audioPlaintext aead view rawBuf = some (Session.prefixed n payload) := by
    simp only [Session.audioPlaintext, hflag, hkey, if_true, hopen]
  rw [dispatchAudioFrame_plain env hplain]

theorem dispatchAudioFec_open {aead : Aead} {key : SessionKey} {s : Session} {view : PacketView}
    {rawBuf plain : Bytes} (hflag : view.header.flags.contains Flags.encrypted = true)
    (hkey : s.decryptKey = some key)
    (hopen : Session.openPayload aead key s.sessionId view rawBuf = some plain) :
    s.dispatchAudioFec aead view rawBuf = s.dispatchParity plain := by
  simp only [Session.dispatchAudioFec, hflag, hkey, hopen, if_true]

section Receiving
variable {aead : Aead} {key : SessionKey} {sid : UInt32} {mtu : Nat} {payloads : List Bytes}
  {s s' : Session} {view : PacketView} {rawBuf : Bytes}

theorem Faithful.same (h : Faithful key sid mtu payloads s) (hkey : s'.decryptKey = s.decryptKey)
    (hsid : s'.sessionId = s.sessionId) (hconfig : s'.config = s.config)
    (hjitter : s'.jitter = s.jitter) (hfecDec : s'.fecDec = s.fecDec) :
    Faithful key sid mtu payloads s' := by
  constructor
  · rw [hkey, h.decryptKey]
  · rw [hsid, h.sessionId]
  · rw [hconfig, h.mtu]
  · rw [hjitter]
    exact h.jitter
  · rw [hfecDec]
    exact h.fecDec

theorem sound_ofNat {n : Nat} {payload : Bytes} {ts : UInt64} (hcount : payloads.length < 2 ^ 32)
    (h : payloads[n]? = some payload) : Sound payloads ⟨UInt32.ofNat n, ts, payload⟩ := by
  have hlt := (List.getElem?_eq_some_iff.mp h).1
  rw [Sound, UInt32.toNat_ofNat', Nat.mod_eq_of_lt (by omega)]
  exact h

theorem Faithful.audioFrame (h : Faithful key sid mtu payloads s)
    (hcount : payloads.length < 2 ^ 32) (env : Env)
    (hflag : view.header.flags.contains Flags.encrypted = true)
    (hopen : ∀ plain, Session.openPayload aead key sid view rawBuf = some plain → ∃ n payload,
      payloads[n]? = some payload ∧ plain = Session.prefixed (UInt32.ofNat n) payload) :
    Faithful key sid mtu payloads (s.dispatchAudioFrame aead env view rawBuf).session := by
  cases hfound : Session.openPayload aead key sid view rawBuf with
  | none =>
    have hplain : s.audioPlaintext aead view rawBuf = none := by
      simp only [Session.audioPlaintext, hflag, h.decryptKey, h.sessionId, if_true, hfound]
    simp only [Session.dispatchAudioFrame, hplain]
    exact h.same rfl rfl rfl rfl rfl
  | some plain =>
    obtain ⟨n, payload, hpayload, rfl⟩ := hopen plain hfound
    have hlt := (List.getElem?_eq_some_iff.mp hpayload).1
    rw [dispatchAudioFrame_prefixed env hflag h.decryptKey (h.sessionId ▸ hfound)]
    exact ⟨h.decryptKey, h.sessionId, h.mtu, h.jitter.push (sound_ofNat hcount hpayload),
      h.fecDec.pushData (by omega) hpayload⟩

theorem sound_recovered {k lost : Nat} {frame : Bytes} (hcount : payloads.length < 2 ^ 32)
    (hframe : (fecGroup payloads k)[lost]? = some frame)
    (hlong : ∀ other ∈ fecGroup payloads k,
      other.length ≤ (payloads.getD (k * 4 + lost) []).length) :
    Sound payloads ⟨UInt32.ofNat (k * 4 + lost), 0, frame ++ List.replicate
      ((XorParity.parity (fecGroup payloads k)).length - frame.length) 0⟩ := by
  have hlt : lost < 4 := by
    have hin := (List.getElem?_eq_some_iff.mp hframe).1
    rw [fecGroup_eq, List.length_take] at hin
    omega
  rw [getElem?_fecGroup _ _ hlt] at hframe
  have hget : payloads.getD (k * 4 + lost) [] = frame := by
    rw [List.getD_eq_getElem?_getD, hframe]
    rfl
  rw [hget] at hlong
  rw [Nat.sub_eq_zero_of_le (XorParity.length_parity_le hlong), List.replicate_zero, List.append_nil]
  exact sound_ofNat hcount hframe

theorem Faithful.parity (h : Faithful key sid mtu payloads s) (hcount : payloads.length < 2 ^ 32)
    {k : Nat} (hfull : (k + 1) * 4 ≤ payloads.length)
    (hwhole : ∀ lost, (s.fecDec.selectGroup (UInt32.ofNat (k * 4))).missing = [lost] →
      s.jitter.Accepts (UInt32.ofNat (k * 4 + lost)) →
        ∀ frame ∈ fecGroup payloads k, frame.length ≤ (payloads.getD (k * 4 + lost) []).length) :
    Faithful key sid mtu payloads (s.dispatchParity (Session.fecPayload
      ⟨UInt32.ofNat (k * 4), fecWindow, XorParity.parity (fecGroup payloads k)⟩)).session := by
  obtain ⟨hlen, hparity⟩ := parityOf_fecPayload
    ⟨UInt32.ofNat (k * 4), fecWindow, XorParity.parity (fecGroup payloads k)⟩
  have hk : k * 4 < 2 ^ 32 := by omega
  have hdec := h.fecDec.pushParity hk
    ⟨UInt32.ofNat (k * 4), fecWindow, XorParity.parity (fecGroup payloads k)⟩ rfl
  unfold Session.dispatchParity
  rw [if_pos hlen, hparity]
  cases hpush : s.fecDec.pushParity
      ⟨UInt32.ofNat (k * 4), fecWindow, XorParity.parity (fecGroup payloads k)⟩ with
  | mk found dec =>
    rw [hpush] at hdec
    cases found with
    | none => exact ⟨h.decryptKey, h.sessionId, h.mtu, h.jitter, hdec⟩
    | some found =>
      obtain ⟨sequence, data⟩ := found
      obtain ⟨lost, frame, hmissing, rfl, hframe, rfl⟩ :=
        h.fecDec.recovers hk hfull (congrArg Prod.fst hpush)
      refine ⟨h.decryptKey, h.sessionId, h.mtu, ?_, hdec⟩
      by_cases haccepts : s.jitter.Accepts (UInt32.ofNat (k * 4 + lost))
      · exact h.jitter.push (sound_recovered hcount hframe (hwhole lost hmissing haccepts))
      · simp only [JitterBuffer.push_reject ⟨UInt32.ofNat (k * 4 + lost), 0, _⟩ haccepts]
        exact h.jitter

theorem Faithful.audioFec (h : Faithful key sid mtu payloads s)
    (hflag : view.header.flags.contains Flags.encrypted = true)
    (hopen : ∀ plain, Session.openPayload aead key sid view rawBuf = some plain →
      Faithful key sid mtu payloads (s.dispatchParity plain).session) :
    Faithful key sid mtu payloads (s.dispatchAudioFec aead view rawBuf).session := by
  cases hfound : Session.openPayload aead key sid view rawBuf with
  | none =>
    simp only [Session.dispatchAudioFec, hflag, h.decryptKey, h.sessionId, if_true, hfound]
    exact h.same rfl rfl rfl rfl rfl
  | some plain =>
    rw [dispatchAudioFec_open hflag h.decryptKey (h.sessionId ▸ hfound)]
    exact hopen plain hfound

theorem Faithful.process {sent : List Sent} (h : Faithful key sid mtu payloads s)
    (hcount : payloads.length < 2 ^ 32) (hintegrity : Integrity aead key sid mtu sent)
    (hgenuine : ∀ d ∈ sent, Genuine aead key sid payloads d.data) (env : Env) {datagram : Datagram}
    (hsent : ∃ d ∈ sent, d.data = datagram.data) (hwhole : Whole aead key payloads s datagram) :
    Faithful key sid mtu payloads (s.processDatagram aead env datagram).session := by
  obtain ⟨d, hd, hdata⟩ := hsent
  cases hdecode : PacketView.decode (datagram.data.take s.config.mtu) with
  | error e =>
    rw [Session.processDatagram_error hdecode]
    exact h.same rfl rfl rfl rfl rfl
  | ok view =>
    rw [Session.processDatagram_ok hdecode]
    have harrived : ∀ n, Faithful key sid mtu payloads (s.arrived env.rxClock n) :=
      fun _ => h.same rfl rfl rfl rfl rfl
    unfold Whole at hwhole
    rw [h.sessionId, h.mtu, ← hdata] at hwhole
    rw [h.mtu, ← hdata] at hdecode ⊢
    obtain ⟨hflag, htype⟩ := genuine_header (hgenuine d hd) hdecode
    have hopened := fun plain => @genuine_open _ _ _ _ _ _ hintegrity hgenuine d hd view hdecode plain
    rcases htype with htype | htype
    · rw [Session.dispatchPacket_audioFrame htype]
      refine (harrived _).audioFrame hcount env hflag fun plain hopen => ?_
      rcases hopened plain hopen with ⟨-, hframe⟩ | ⟨hfec, -⟩
      · exact hframe
      · exact absurd (htype.symm.trans hfec)
          (show MessageType.audioFrame.code ≠ MessageType.audioFec.code by decide)
    · rw [Session.dispatchPacket_audioFec htype]
      refine (harrived _).audioFec hflag fun plain hopen => ?_
      rcases hopened plain hopen with ⟨hframe, -⟩ | ⟨-, k, hparity, rfl⟩
      · exact absurd (htype.symm.trans hframe)
          (show MessageType.audioFec.code ≠ MessageType.audioFrame.code by decide)
      · exact (harrived _).parity hcount hparity.1 fun lost => hwhole k lost hparity

theorem Faithful.pollTimeout (h : Faithful key sid mtu payloads s) (env : Env) :
    Faithful key sid mtu payloads (s.pollOnce aead env .timeout).session := by
  have hbeat : Faithful key sid mtu payloads (s.sendHeartbeat env).session := by
    unfold Session.sendHeartbeat
    cases s.peer with
    | none => exact h
    | some peer =>
      obtain ⟨metrics, hsession⟩ := s.sendControl_session env .heartbeat s.sessionId [] peer
      simp only
      rw [hsession]
      exact h.same rfl rfl rfl rfl rfl
  have hlive : ∀ now, Faithful key sid mtu payloads
      ((s.sendHeartbeat env).session.checkLiveness now).2 := by
    intro now
    unfold Session.checkLiveness
    simp only
    split_ifs
    · exact hbeat.same rfl rfl rfl rfl rfl
    · exact hbeat.same rfl rfl rfl rfl rfl
  unfold Session.pollOnce
  split_ifs
  · simp only
    cases (s.sendHeartbeat env).result with
    | error e => exact hbeat
    | ok _ => exact hlive _
  · exact h

end Receiving

inductive RecvCall where
  | recvAudio (startUs : UInt64) (ticks : List Session.Tick)
  | pollOnce (env : Env) (event : RecvEvent)

namespace Session

def recvCall (self : Session) (aead : Aead) : RecvCall → AudioOutcome
  | .recvAudio startUs ticks => self.recvAudio aead startUs ticks
  | .pollOnce env event =>
    let out := self.pollOnce aead env event
    let processed := match event with
      | .datagram datagram => [(self, datagram)]
      | _ => []
    ⟨none, out.session, out.sent, out.handed, processed⟩

def recvCalls (self : Session) (aead : Aead) :
    List RecvCall → List Frame × List (Session × Datagram)
  | [] => ([], [])
  | call :: calls =>
    let out := self.recvCall aead call
    let (frames, processed) := out.session.recvCalls aead calls
    match out.result with
    | some (.ok frame) => (frame :: frames, out.processed ++ processed)
    | _ => (frames, out.processed ++ processed)

end Session

section Runs
variable {aead : Aead} {key : SessionKey} {sid : UInt32} {mtu : Nat} {payloads : List Bytes}
  {sent : List Sent} {s : Session}

theorem Faithful.recvLoop (hcount : payloads.length < 2 ^ 32)
    (hintegrity : Integrity aead key sid mtu sent)
    (hgenuine : ∀ d ∈ sent, Genuine aead key sid payloads d.data) (ticks : List Session.Tick)
    (deadlineUs : UInt64) (h : Faithful key sid mtu payloads s)
    (hprocessed : ∀ p ∈ (Session.recvLoop aead deadlineUs s ticks).processed,
      (∃ d ∈ sent, d.data = p.2.data) ∧ Whole aead key payloads p.1 p.2) :
    Faithful key sid mtu payloads (Session.recvLoop aead deadlineUs s ticks).session ∧
      ∀ frame, (Session.recvLoop aead deadlineUs s ticks).result = some (.ok frame) →
        Sound payloads frame := by
  induction ticks generalizing s deadlineUs with
  | nil => exact ⟨h, fun frame hframe => by cases hframe⟩
  | cons tick ticks ih =>
    obtain ⟨hrest, hpopped⟩ := h.jitter.popWithDeadline tick.nowUs deadlineUs
    unfold Session.recvLoop at hprocessed ⊢
    cases hpop : s.jitter.popWithDeadline tick.nowUs deadlineUs with
    | mk popped jitter =>
      rw [hpop] at hrest hpopped
      have hkept : Faithful key sid mtu payloads { s with jitter := jitter } :=
        ⟨h.decryptKey, h.sessionId, h.mtu, hrest, h.fecDec⟩
      simp only [hpop] at hprocessed ⊢
      cases popped with
      | some frame =>
        refine ⟨hkept, fun found hfound => ?_⟩
        cases hfound
        exact hpopped frame rfl
      | none =>
        simp only at hprocessed ⊢
        split_ifs at hprocessed ⊢ with hlate
        · exact ih _ hkept hprocessed
        · cases hevent : tick.event with
          | timeout =>
            simp only [hevent] at hprocessed ⊢
            exact ih _ hkept hprocessed
          | failed e =>
            simp only
            exact ⟨hkept, fun frame hframe => by cases hframe⟩
          | datagram datagram =>
            simp only [hevent] at hprocessed ⊢
            cases hresult : ({ s with jitter := jitter }.processDatagram aead tick.env
                datagram).result with
            | error e =>
              simp only [hresult, List.mem_singleton, forall_eq] at hprocessed ⊢
              exact ⟨hkept.process hcount hintegrity hgenuine _ hprocessed.1 hprocessed.2,
                fun frame hframe => by cases hframe⟩
            | ok _ =>
              simp only [hresult, List.mem_cons, forall_eq_or_imp] at hprocessed ⊢
              obtain ⟨hnow, hlater⟩ := hprocessed
              exact ih _ (hkept.process hcount hintegrity hgenuine _ hnow.1 hnow.2) hlater

theorem Faithful.recvCalls (hcount : payloads.length < 2 ^ 32)
    (hintegrity : Integrity aead key sid mtu sent)
    (hgenuine : ∀ d ∈ sent, Genuine aead key sid payloads d.data) (calls : List RecvCall)
    (h : Faithful key sid mtu payloads s)
    (hprocessed : ∀ p ∈ (s.recvCalls aead calls).2,
      (∃ d ∈ sent, d.data = p.2.data) ∧ Whole aead key payloads p.1 p.2) :
    ∀ frame ∈ (s.recvCalls aead calls).1, Sound payloads frame := by
  induction calls generalizing s with
  | nil =>
    intro frame hmem
    cases hmem
  | cons call calls ih =>
    have hall : ∀ p ∈ (s.recvCall aead call).processed ++
        ((s.recvCall aead call).session.recvCalls aead calls).2,
          (∃ d ∈ sent, d.data = p.2.data) ∧ Whole aead key payloads p.1 p.2 := by
      intro p hmem
      apply hprocessed
      unfold Session.recvCalls
      simp only
      split <;> exact hmem
    have hnow : ∀ p ∈ (s.recvCall aead call).processed, _ :=
      fun p hmem => hall p (List.mem_append_left _ hmem)
    have hlater : ∀ p ∈ ((s.recvCall aead call).session.recvCalls aead calls).2, _ :=
      fun p hmem => hall p (List.mem_append_right _ hmem)
    obtain ⟨hsession, hframe⟩ : Faithful key sid mtu payloads (s.recvCall aead call).session ∧
        ∀ frame, (s.recvCall aead call).result = some (.ok frame) → Sound payloads frame := by
      cases call with
      | recvAudio startUs ticks =>
        exact h.recvLoop hcount hintegrity hgenuine ticks _ hnow
      | pollOnce env event =>
        refine ⟨?_, fun frame hfound => by cases hfound⟩
        cases event with
        | datagram datagram =>
          have hthis := hnow (s, datagram) (List.mem_singleton_self _)
          exact h.process hcount hintegrity hgenuine env hthis.1 hthis.2
        | failed e => exact h
        | timeout => exact h.pollTimeout env
    intro frame hmem
    unfold Session.recvCalls at hmem
    simp only at hmem
    split at hmem
    · case h_1 first hfirst =>
      rcases List.mem_cons.mp hmem with rfl | hrest
      · exact hframe frame hfirst
      · exact ih hsession hlater frame hrest
    · exact ih hsession hlater frame hmem

end Runs

/-- Two sessions after their handshake: the sender's stream and the receiver's buffers are new. -/
structure Pair (key : SessionKey) (sender receiver : Session) : Prop where
  encryptKey : sender.encryptKey = some key
  decryptKey : receiver.decryptKey = some key
  sessionId : sender.sessionId = receiver.sessionId
  audioTxSeq : sender.audioTxSeq = 0
  fecEnc : sender.fecEnc = .withDefaultWindow
  fecDec : receiver.fecDec = .withDefaultWindow
  jitter : ∃ capacity, JitterBuffer.new capacity = some receiver.jitter

/-- The receiver makes `recvs` and all it gets is datagrams of the calls `sends`. -/
structure Delivers (aead : Aead) (key : SessionKey) (sender receiver : Session)
    (sends : List (SendEnv × Bytes)) (recvs : List RecvCall) : Prop extends
    Pair key sender receiver where
  succeed : ∀ result ∈ (sender.sendAudios aead sends).1, result = .ok ()
  count : sends.length < 2 ^ 32
  integrity : Integrity aead key receiver.sessionId receiver.config.mtu
    (sender.sendAudios aead sends).2.2
  delivered : ∀ p ∈ (receiver.recvCalls aead recvs).2,
    ∃ d ∈ (sender.sendAudios aead sends).2.2, d.data = p.2.data

/-- Every frame `recv_audio` returns has the payload of the call its number names, in every run in
which no parity is used to rebuild a frame shorter than another one of its group. -/
theorem frames_arrive_intact (aead : Aead) (key : SessionKey) (sender receiver : Session)
    (sends : List (SendEnv × Bytes)) (recvs : List RecvCall)
    (hrun : Delivers aead key sender receiver sends recvs)
    (hwhole : ∀ p ∈ (receiver.recvCalls aead recvs).2,
      Whole aead key (sends.map Prod.snd) p.1 p.2) :
    ∀ frame ∈ (receiver.recvCalls aead recvs).1,
      (sends.map Prod.snd)[frame.sequence.toNat]? = some frame.payload := by
  obtain ⟨capacity, hjitter⟩ := hrun.jitter
  have hstreams : sender.Streams key receiver.sessionId (UInt32.ofNat ([] : List Bytes).length)
      .withDefaultWindow :=
    ⟨hrun.encryptKey, hrun.sessionId, hrun.audioTxSeq, hrun.fecEnc⟩
  have hgenuine := sendAudios_genuine sends [] hstreams inStep_nil hrun.succeed
  have hfaithful : Faithful key receiver.sessionId receiver.config.mtu (sends.map Prod.snd)
      receiver :=
    ⟨hrun.decryptKey, rfl, rfl, JitterBuffer.holds_new hjitter, hrun.fecDec ▸ FecDecoder.holds_new⟩
  have hcount : (sends.map Prod.snd).length < 2 ^ 32 := by
    rw [List.length_map]
    exact hrun.count
  exact hfaithful.recvCalls hcount hrun.integrity hgenuine recvs fun p hmem =>
    ⟨hrun.delivered p hmem, hwhole p hmem⟩

structure Listening (key : SessionKey) (sid : UInt32) (mtu : Nat) (jitter : JitterBuffer)
    (fecDec : FecDecoder) (s : Session) : Prop where
  decryptKey : s.decryptKey = some key
  sessionId : s.sessionId = sid
  mtu : s.config.mtu = mtu
  jitter : s.jitter = jitter
  fecDec : s.fecDec = fecDec

section Listening
variable {aead : Aead} {key : SessionKey} {sid : UInt32} {mtu : Nat} {jitter : JitterBuffer}
  {fecDec : FecDecoder} {s : Session} {view : PacketView} {data : Bytes}

theorem Listening.arrived (h : Listening key sid mtu jitter fecDec s) (lastRx : UInt64) (n : Nat) :
    Listening key sid mtu jitter fecDec (s.arrived lastRx n) :=
  ⟨h.decryptKey, h.sessionId, h.mtu, h.jitter, h.fecDec⟩

theorem Listening.frame (h : Listening key sid mtu jitter fecDec s) (env : Env)
    (source : SocketAddr) {n : UInt32} {payload : Bytes}
    (hdecode : PacketView.decode (data.take mtu) = .ok view)
    (hflag : view.header.flags.contains Flags.encrypted = true)
    (htype : view.header.msgType = MessageType.audioFrame.code)
    (hopen : Session.openPayload aead key sid view (data.take mtu) =
      some (Session.prefixed n payload)) :
    Listening key sid mtu (jitter.push ⟨n, view.header.timestamp, payload⟩).2
      (fecDec.pushData n payload).2 (s.processDatagram aead env ⟨data, source⟩).session := by
  have harrived := h.arrived env.rxClock (data.take mtu).length
  rw [Session.processDatagram_ok (by rw [h.mtu]; exact hdecode), h.mtu,
    Session.dispatchPacket_audioFrame htype,
    dispatchAudioFrame_prefixed env hflag harrived.decryptKey (harrived.sessionId ▸ hopen)]
  exact ⟨h.decryptKey, h.sessionId, h.mtu, by rw [← h.jitter]; rfl, by rw [← h.fecDec]; rfl⟩

theorem Listening.parity (h : Listening key sid mtu jitter fecDec s) (env : Env)
    (source : SocketAddr) {parity : FecParity} {n : UInt32} {payload : Bytes}
    (hdecode : PacketView.decode (data.take mtu) = .ok view)
    (hflag : view.header.flags.contains Flags.encrypted = true)
    (htype : view.header.msgType = MessageType.audioFec.code)
    (hopen : Session.openPayload aead key sid view (data.take mtu) =
      some (Session.fecPayload parity))
    (hrecovers : (fecDec.pushParity parity).1 = some (n, payload)) :
    Listening key sid mtu (jitter.push ⟨n, 0, payload⟩).2 (fecDec.pushParity parity).2
      (s.processDatagram aead env ⟨data, source⟩).session := by
  obtain ⟨hlen, hparity⟩ := parityOf_fecPayload parity
  have harrived := h.arrived env.rxClock (data.take mtu).length
  rw [Session.processDatagram_ok (by rw [h.mtu]; exact hdecode), h.mtu,
    Session.dispatchPacket_audioFec htype,
    dispatchAudioFec_open hflag harrived.decryptKey (harrived.sessionId ▸ hopen),
    Session.dispatchParity, if_pos hlen, hparity, harrived.fecDec]
  cases hpush : fecDec.pushParity parity with
  | mk found dec =>
    rw [hpush] at hrecovers
    cases hrecovers
    exact ⟨h.decryptKey, h.sessionId, h.mtu, by rw [← h.jitter]; rfl, rfl⟩

end Listening

private def pairKey : SessionKey := Vector.replicate 32 0

private def pairPeer : SocketAddr := .v4 0x0A000001 9000

private def paired : Session := Session.ofDefault.establish pairPeer 7 1 pairKey pairKey

private def accepting : SendEnv := ⟨0, 0, fun _ _ => .ok 0⟩

private def wireOf (mt : MessageType) (seq : UInt32) (plain : Bytes) : Bytes :=
  Packet.bytes (Session.encryptedHeader mt seq 7 0) (plain ++ List.replicate 16 0)

private theorem transparent_seal (mt : MessageType) (seq : UInt32) (plain : Bytes) :
    Session.sealPayload Aead.transparent pairKey (Session.encryptedHeader mt seq 7 0) plain =
      .ok (plain ++ List.replicate 16 0) :=
  Session.sealPayload_eq _ _ _ _

private structure Speaking (seq n : UInt32) (fecEnc : FecEncoder) (s : Session) : Prop where
  active : s.state.state = .active
  peer : s.peer = some pairPeer
  encryptKey : s.encryptKey = some pairKey
  sessionId : s.sessionId = 7
  mtu : s.config.mtu = 1200
  txSequence : s.txSequence = seq
  audioTxSeq : s.audioTxSeq = n
  fecEnc : s.fecEnc = fecEnc

private theorem speaking_frame {seq n : UInt32} {fecEnc : FecEncoder} {s : Session}
    (h : Speaking seq n fecEnc s) {payload : Bytes} (hlen : payload.length ≤ 100) :
    ∃ s', Speaking (seq + 1) (n + 1) fecEnc s' ∧
      s.sendAudio Aead.transparent accepting payload =
        let fed := s'.feedFec Aead.transparent accepting n payload pairPeer 7
        (.ok (), fed.1, ⟨wireOf .audioFrame seq (Session.prefixed n payload), pairPeer⟩ :: fed.2) := by
  have hwire : (Session.prefixed n payload ++ List.replicate 16 0).length ≤ 120 := by
    simp [Session.prefixed]
    omega
  have hseal := transparent_seal .audioFrame seq (Session.prefixed n payload)
  have hsend := @Session.sendAudio_eq s pairKey Aead.transparent accepting payload
    (Session.prefixed n payload ++ List.replicate 16 0) pairPeer 0 h.active h.peer h.encryptKey
    (by rw [h.txSequence, h.sessionId, h.audioTxSeq]; exact hseal)
    (Nat.le_trans hwire (by decide))
    (by rw [h.mtu]; exact Nat.le_trans (Nat.add_le_add_right (Nat.add_le_add_left hwire _) 4) (by decide))
    (fun _ _ => rfl)
  rw [h.txSequence, h.sessionId, h.audioTxSeq] at hsend
  refine ⟨_, ?_, hsend⟩
  exact ⟨h.active, h.peer, h.encryptKey, rfl, h.mtu, rfl, rfl, h.fecEnc⟩

private theorem speaking_collects {seq n : UInt32} {fecEnc : FecEncoder} {s : Session}
    (h : Speaking seq n fecEnc s) {payload : Bytes} (hlen : payload.length ≤ 100)
    (hpush : (fecEnc.push n payload).1 = none) :
    ∃ s', Speaking (seq + 1) (n + 1) (fecEnc.push n payload).2 s' ∧
      s.sendAudio Aead.transparent accepting payload =
        (.ok (), s', [⟨wireOf .audioFrame seq (Session.prefixed n payload), pairPeer⟩]) := by
  obtain ⟨s', h', hsend⟩ := speaking_frame h hlen
  refine ⟨{ s' with fecEnc := (fecEnc.push n payload).2 }, ?_, ?_⟩
  · exact ⟨h'.active, h'.peer, h'.encryptKey, h'.sessionId, h'.mtu, h'.txSequence, h'.audioTxSeq,
      rfl⟩
  · have hfed : s'.feedFec Aead.transparent accepting n payload pairPeer 7 =
        ({ s' with fecEnc := (fecEnc.push n payload).2 }, []) := by
      unfold Session.feedFec
      rw [h'.fecEnc]
      cases hfull : fecEnc.push n payload with
      | mk parity enc =>
        rw [hfull] at hpush
        cases hpush
        rfl
    rw [hsend, hfed]

private theorem speaking_completes {seq n : UInt32} {fecEnc : FecEncoder} {s : Session}
    (h : Speaking seq n fecEnc s) {payload : Bytes} (hlen : payload.length ≤ 100) {parity : FecParity}
    (hpush : (fecEnc.push n payload).1 = some parity) (hparity : parity.payload.length ≤ 100) :
    ∃ s', s.sendAudio Aead.transparent accepting payload =
      (.ok (), s', [⟨wireOf .audioFrame seq (Session.prefixed n payload), pairPeer⟩,
        ⟨wireOf .audioFec (seq + 1) (Session.fecPayload parity), pairPeer⟩]) := by
  obtain ⟨s', h', hsend⟩ := speaking_frame h hlen
  have hwire : (Session.fecPayload parity ++ List.replicate 16 0).length ≤ 121 := by
    simp [Session.fecPayload]
    omega
  have hencode : Session.encodePacket s'.config.mtu (Session.encryptedHeader .audioFec (seq + 1) 7 0)
      (Session.fecPayload parity ++ List.replicate 16 0) =
        .ok (wireOf .audioFec (seq + 1) (Session.fecPayload parity)) := by
    refine Session.encodePacket_eq (Nat.le_trans hwire (by decide)) ?_
    rw [h'.mtu]
    exact Nat.le_trans (Nat.add_le_add_right (Nat.add_le_add_left hwire _) 4) (by decide)
  have hfed : (s'.feedFec Aead.transparent accepting n payload pairPeer 7).2 =
      [⟨wireOf .audioFec (seq + 1) (Session.fecPayload parity), pairPeer⟩] := by
    unfold Session.feedFec
    rw [h'.fecEnc]
    cases hfull : fecEnc.push n payload with
    | mk found enc =>
      rw [hfull] at hpush
      cases hpush
      simp only
      rw [Session.sendFecParity_eq (show { s' with fecEnc := enc }.encryptKey = _ from h'.encryptKey)]
      simp only [h'.txSequence]
      rw [show accepting.parityClock = 0 from rfl, transparent_seal]
      simp only [Session.sendPacket, hencode]
      rfl
  exact ⟨(s'.feedFec Aead.transparent accepting n payload pairPeer 7).1, by
    simp only [hsend, hfed]⟩

private theorem empty_short : ([] : Bytes).length ≤ 100 := Nat.zero_le 100

/-- One group: two frames of any length and two empty ones. -/
private def groupCalls (a b : Bytes) : List (SendEnv × Bytes) :=
  [(accepting, a), (accepting, b), (accepting, []), (accepting, [])]

private def groupParity (a b : Bytes) : FecParity := ⟨0, fecWindow, XorParity.parity [a, b, [], []]⟩

private def groupSent (a b : Bytes) : List Sent :=
  [⟨wireOf .audioFrame 0 (Session.prefixed 0 a), pairPeer⟩,
    ⟨wireOf .audioFrame 1 (Session.prefixed 1 b), pairPeer⟩,
    ⟨wireOf .audioFrame 2 (Session.prefixed 2 []), pairPeer⟩,
    ⟨wireOf .audioFrame 3 (Session.prefixed 3 []), pairPeer⟩,
    ⟨wireOf .audioFec 4 (Session.fecPayload (groupParity a b)), pairPeer⟩]

private def groupEnc (a b : Bytes) : FecEncoder :=
  (((FecEncoder.withDefaultWindow.push 0 a).2.push 1 b).2.push 2 []).2

private theorem groupEnc_parity (a b : Bytes) :
    ((groupEnc a b).push 3 []).1 = some (groupParity a b) := by
  have henc : InStep [a, b, []] (groupEnc a b) := (((inStep_nil.push a).1.push b).1.push []).1
  have hstart : groupStart [a, b, []].length = 0 := show 3 / 4 * 4 = 0 from rfl
  have hgroup := henc.group
  rw [hstart, List.drop_zero] at hgroup
  have hempty : [a, b, []] = [] → (3 : UInt32) = UInt32.ofNat 0 := fun h => by cases h
  have hfull := (FecEncoder.push_spec hgroup hempty []).2
  have hlast : ¬[a, b, []].length + 1 < fecWindow.toNat := show ¬(3 + 1 < 4) by omega
  rw [henc.window, if_neg hlast] at hfull
  exact hfull.1

private theorem groupParity_length {a b : Bytes} (ha : a.length ≤ 100) (hb : b.length ≤ 100) :
    (groupParity a b).payload.length ≤ 100 := by
  refine XorParity.length_parity_le fun frame hmem => ?_
  simp only [List.mem_cons, List.not_mem_nil, or_false] at hmem
  rcases hmem with rfl | rfl | rfl | rfl
  · exact ha
  · exact hb
  · exact Nat.zero_le _
  · exact Nat.zero_le _

private theorem sendAudios_group {a b : Bytes} (ha : a.length ≤ 100) (hb : b.length ≤ 100) :
    (paired.sendAudios Aead.transparent (groupCalls a b)).1 =
        [.ok (), .ok (), .ok (), .ok ()] ∧
      (paired.sendAudios Aead.transparent (groupCalls a b)).2.2 = groupSent a b := by
  have h₀ : Speaking 0 0 .withDefaultWindow paired := ⟨rfl, rfl, rfl, rfl, rfl, rfl, rfl, rfl⟩
  obtain ⟨s₁, h₁, hsend₁⟩ := speaking_collects h₀ ha rfl
  obtain ⟨s₂, h₂, hsend₂⟩ := speaking_collects h₁ hb rfl
  obtain ⟨s₃, h₃, hsend₃⟩ := speaking_collects h₂ empty_short rfl
  obtain ⟨s₄, hsend₄⟩ := speaking_completes h₃ empty_short (groupEnc_parity a b)
    (groupParity_length ha hb)
  simp only [groupCalls, Session.sendAudios, hsend₁, hsend₂, hsend₃, hsend₄]
  exact ⟨trivial, rfl⟩

private def stillEnv : Env := ⟨0, 0, fun _ _ => .ok 0⟩

private def poll (data : Bytes) : RecvCall := .pollOnce stillEnv (.datagram ⟨data, pairPeer⟩)

private def popOnce : RecvCall := .recvAudio 0 [⟨0, .timeout, stillEnv⟩]

/-- The second frame is lost; the rest of the group and its parity arrive, and two frames are
taken. -/
private def groupRecvs (a b : Bytes) : List RecvCall :=
  [poll (wireOf .audioFrame 0 (Session.prefixed 0 a)),
    poll (wireOf .audioFrame 2 (Session.prefixed 2 [])),
    poll (wireOf .audioFrame 3 (Session.prefixed 3 [])),
    poll (wireOf .audioFec 4 (Session.fecPayload (groupParity a b))), popOnce, popOnce]

private theorem transparent_correct : Correct Aead.transparent pairKey := by
  intro nonce aad plain cipher tag h
  cases h
  rfl

private theorem wireOf_take (mt : MessageType) (seq : UInt32) {plain : Bytes}
    (hlen : plain.length ≤ 105) : (wireOf mt seq plain).take 1200 = wireOf mt seq plain := by
  have hwire : (plain ++ List.replicate 16 (0 : UInt8)).length ≤ 121 := by
    simp
    omega
  rw [List.take_of_length_le]
  rw [wireOf, Packet.length_bytes]
  exact Nat.le_trans (Nat.add_le_add_right (Nat.add_le_add_left hwire _) 4) (by decide)

private theorem wireOf_opens (mt : MessageType) (seq : UInt32) {plain : Bytes}
    (hlen : plain.length ≤ 105) :
    PacketView.decode ((wireOf mt seq plain).take 1200) =
        .ok ⟨Session.encryptedHeader mt seq 7 0, plain ++ List.replicate 16 0⟩ ∧
      Session.openPayload Aead.transparent pairKey 7
        ⟨Session.encryptedHeader mt seq 7 0, plain ++ List.replicate 16 0⟩
          ((wireOf mt seq plain).take 1200) = some plain := by
  have hwire : (plain ++ List.replicate 16 (0 : UInt8)).length ≤ 121 := by
    simp
    omega
  have hdecode : PacketView.decode (wireOf mt seq plain) =
      .ok ⟨Session.encryptedHeader mt seq 7 0, plain ++ List.replicate 16 0⟩ :=
    PacketView.decode_bytes _ _ rfl (Nat.le_trans hwire (by decide))
  have hsealed : SealedAs Aead.transparent pairKey 7 mt plain (wireOf mt seq plain) :=
    ⟨seq, 0, _, transparent_seal mt seq plain, Nat.le_trans hwire (by decide), rfl⟩
  rw [wireOf_take mt seq hlen]
  exact ⟨hdecode, sealedAs_open transparent_correct hsealed hdecode⟩

private theorem prefixed_length (n : UInt32) {payload : Bytes} (h : payload.length ≤ 100) :
    (Session.prefixed n payload).length ≤ 105 := by
  simp [Session.prefixed]
  omega

private theorem fecPayload_length {parity : FecParity} (h : parity.payload.length ≤ 100) :
    (Session.fecPayload parity).length ≤ 105 := by
  simp [Session.fecPayload]
  omega

private def groupDec (a : Bytes) : FecDecoder :=
  (((FecDecoder.withDefaultWindow.pushData 0 a).2.pushData 2 []).2.pushData 3 []).2

private def groupJitter (a rebuilt : Bytes) : JitterBuffer :=
  ((((paired.jitter.push ⟨0, 0, a⟩).2.push ⟨2, 0, []⟩).2.push ⟨3, 0, []⟩).2.push ⟨1, 0, rebuilt⟩).2

private theorem recvCalls_poll (s : Session) (data : Bytes) (calls : List RecvCall) :
    s.recvCalls Aead.transparent (poll data :: calls) =
      let rest := (s.processDatagram Aead.transparent stillEnv ⟨data, pairPeer⟩).session.recvCalls
        Aead.transparent calls
      (rest.1, (s, ⟨data, pairPeer⟩) :: rest.2) := rfl

private theorem popOnce_frame {s : Session} {jitter : JitterBuffer} {frame : Frame}
    (hjitter : s.jitter = jitter) (hpop : jitter.pop.1 = some frame) :
    s.recvCall Aead.transparent popOnce =
      ⟨some (.ok frame), { s with jitter := jitter.pop.2 }, [], [], []⟩ := by
  have hpopped : ∀ deadlineUs, s.jitter.popWithDeadline 0 deadlineUs =
      (some frame, jitter.pop.2) := by
    intro deadlineUs
    rw [hjitter, JitterBuffer.popWithDeadline]
    cases hcases : jitter.pop with
    | mk popped rest =>
      rw [hcases] at hpop
      cases hpop
      rfl
  simp only [popOnce, Session.recvCall, Session.recvAudio, Session.recvLoop, hpopped]

private theorem recvCalls_pop {s : Session} {jitter : JitterBuffer} {frame : Frame}
    (hjitter : s.jitter = jitter) (hpop : jitter.pop.1 = some frame) (calls : List RecvCall) :
    s.recvCalls Aead.transparent (popOnce :: calls) =
      let rest := { s with jitter := jitter.pop.2 }.recvCalls Aead.transparent calls
      (frame :: rest.1, rest.2) := by
  have hcall := popOnce_frame hjitter hpop
  simp only [Session.recvCalls, hcall, List.nil_append]

private theorem groupRecvs_run {a b rebuilt : Bytes} (ha : a.length ≤ 100) (hb : b.length ≤ 100)
    (hrebuilt : ((groupDec a).pushParity (groupParity a b)).1 = some (1, rebuilt))
    (hfirst : (groupJitter a rebuilt).pop.1 = some ⟨0, 0, a⟩)
    (hsecond : (groupJitter a rebuilt).pop.2.pop.1 = some ⟨1, 0, rebuilt⟩) :
    (paired.recvCalls Aead.transparent (groupRecvs a b)).1 = [⟨0, 0, a⟩, ⟨1, 0, rebuilt⟩] ∧
      ∃ s₁ s₂ s₃, s₁.config.mtu = 1200 ∧ s₂.config.mtu = 1200 ∧ s₃.fecDec = groupDec a ∧
        (paired.recvCalls Aead.transparent (groupRecvs a b)).2 =
          [(paired, ⟨wireOf .audioFrame 0 (Session.prefixed 0 a), pairPeer⟩),
            (s₁, ⟨wireOf .audioFrame 2 (Session.prefixed 2 []), pairPeer⟩),
            (s₂, ⟨wireOf .audioFrame 3 (Session.prefixed 3 []), pairPeer⟩),
            (s₃, ⟨wireOf .audioFec 4 (Session.fecPayload (groupParity a b)), pairPeer⟩)] := by
  have h₀ : Listening pairKey 7 1200 paired.jitter .withDefaultWindow paired :=
    ⟨rfl, rfl, rfl, rfl, rfl⟩
  have hopen₀ := wireOf_opens .audioFrame 0 (prefixed_length 0 ha)
  have hopen₂ := wireOf_opens .audioFrame 2 (prefixed_length 2 empty_short)
  have hopen₃ := wireOf_opens .audioFrame 3 (prefixed_length 3 empty_short)
  have hopen₄ := wireOf_opens .audioFec 4 (fecPayload_length (groupParity_length ha hb))
  have hflag := Session.encryptedHeader_flag
  have h₁ := h₀.frame stillEnv pairPeer hopen₀.1 (hflag _ _ _ _) rfl hopen₀.2
  have h₂ := h₁.frame stillEnv pairPeer hopen₂.1 (hflag _ _ _ _) rfl hopen₂.2
  have h₃ := h₂.frame stillEnv pairPeer hopen₃.1 (hflag _ _ _ _) rfl hopen₃.2
  have h₄ := h₃.parity stillEnv pairPeer hopen₄.1 (hflag _ _ _ _) rfl hopen₄.2 hrebuilt
  have hpop := recvCalls_pop h₄.jitter hfirst [popOnce]
  rw [recvCalls_pop rfl hsecond []] at hpop
  simp only [groupRecvs, recvCalls_poll, hpop]
  exact ⟨rfl, _, _, _, h₁.mtu, h₂.mtu, h₃.fecDec, rfl⟩

private theorem delivers_group {a b rebuilt : Bytes} (ha : a.length ≤ 100) (hb : b.length ≤ 100)
    (hrebuilt : ((groupDec a).pushParity (groupParity a b)).1 = some (1, rebuilt))
    (hfirst : (groupJitter a rebuilt).pop.1 = some ⟨0, 0, a⟩)
    (hsecond : (groupJitter a rebuilt).pop.2.pop.1 = some ⟨1, 0, rebuilt⟩) :
    Delivers Aead.transparent pairKey paired paired (groupCalls a b) (groupRecvs a b) := by
  obtain ⟨hresults, hsent⟩ := sendAudios_group ha hb
  obtain ⟨-, s₁, s₂, s₃, -, -, -, hprocessed⟩ := groupRecvs_run ha hb hrebuilt hfirst hsecond
  constructor
  case toPair => exact ⟨rfl, rfl, rfl, rfl, rfl, rfl, ⟨16, rfl⟩⟩
  case succeed =>
    rw [hresults]
    simp
  case count => exact show 4 < 2 ^ 32 by decide
  case integrity =>
    rw [hsent]
    refine ⟨transparent_correct, fun d hd view plain _ _ => ⟨d, hd, ?_⟩⟩
    simp only [groupSent, List.mem_cons, List.not_mem_nil, or_false] at hd
    rcases hd with rfl | rfl | rfl | rfl | rfl
    · exact (wireOf_take _ _ (prefixed_length 0 ha)).symm
    · exact (wireOf_take _ _ (prefixed_length 1 hb)).symm
    · exact (wireOf_take _ _ (prefixed_length 2 empty_short)).symm
    · exact (wireOf_take _ _ (prefixed_length 3 empty_short)).symm
    · exact (wireOf_take _ _ (fecPayload_length (groupParity_length ha hb))).symm
  case delivered =>
    rw [hprocessed, hsent]
    intro p hp
    simp only [List.mem_cons, List.not_mem_nil, or_false] at hp
    simp only [groupSent, List.mem_cons, List.not_mem_nil, or_false, exists_eq_or_imp, exists_eq_left]
    rcases hp with rfl | rfl | rfl | rfl
    · exact .inl rfl
    · exact .inr (.inr (.inl rfl))
    · exact .inr (.inr (.inr (.inl rfl)))
    · exact .inr (.inr (.inr (.inr rfl)))

/-- The empty second frame of a group comes back as one zero byte. -/
theorem recovered_frame_padded : ¬∀ (aead : Aead) (key : SessionKey) (sender receiver : Session)
    (sends : List (SendEnv × Bytes)) (recvs : List RecvCall),
    Delivers aead key sender receiver sends recvs →
      ∀ frame ∈ (receiver.recvCalls aead recvs).1,
        (sends.map Prod.snd)[frame.sequence.toNat]? = some frame.payload := by
  intro hall
  have hrebuilt : ((groupDec [7]).pushParity (groupParity [7] [])).1 = some (1, [0]) := by decide
  have hfirst : (groupJitter [7] [0]).pop.1 = some ⟨0, 0, [7]⟩ := by decide
  have hsecond : (groupJitter [7] [0]).pop.2.pop.1 = some ⟨1, 0, [0]⟩ := by decide
  have hshort : ([7] : Bytes).length ≤ 100 := by decide
  have hrun := delivers_group hshort empty_short hrebuilt hfirst hsecond
  have hframes := (groupRecvs_run hshort empty_short hrebuilt hfirst hsecond).1
  have hpadded := hall _ _ _ _ _ _ hrun ⟨1, 0, [0]⟩ (by rw [hframes]; simp)
  cases hpadded

private theorem whole_frame {s : Session} (key : SessionKey) (payloads : List Bytes) (seq : UInt32)
    {plain : Bytes} (hmtu : s.config.mtu = 1200) (hlen : plain.length ≤ 105) :
    Whole Aead.transparent key payloads s ⟨wireOf .audioFrame seq plain, pairPeer⟩ := by
  intro k lost hparity
  obtain ⟨view, hdecode, htype⟩ := sealedAs_decode hparity.2
  rw [hmtu, (wireOf_opens .audioFrame seq hlen).1] at hdecode
  cases hdecode
  exact absurd htype (show MessageType.audioFrame.code ≠ MessageType.audioFec.code by decide)

/-- The longest frame of a group is lost and comes back. -/
theorem frames_arrive_intact_recovered :
    ∃ (aead : Aead) (key : SessionKey) (sender receiver : Session) (sends : List (SendEnv × Bytes))
      (recvs : List RecvCall), Delivers aead key sender receiver sends recvs ∧
        (receiver.recvCalls aead recvs).1 = [⟨0, 0, []⟩, ⟨1, 0, [7]⟩] ∧
        ∀ frame ∈ (receiver.recvCalls aead recvs).1,
          (sends.map Prod.snd)[frame.sequence.toNat]? = some frame.payload := by
  have hrebuilt : ((groupDec []).pushParity (groupParity [] [7])).1 = some (1, [7]) := by decide
  have hfirst : (groupJitter [] [7]).pop.1 = some ⟨0, 0, []⟩ := by decide
  have hsecond : (groupJitter [] [7]).pop.2.pop.1 = some ⟨1, 0, [7]⟩ := by decide
  have hshort : ([7] : Bytes).length ≤ 100 := by decide
  obtain ⟨hframes, s₁, s₂, s₃, hmtu₁, hmtu₂, hdec, hprocessed⟩ :=
    groupRecvs_run empty_short hshort hrebuilt hfirst hsecond
  have hrun := delivers_group empty_short hshort hrebuilt hfirst hsecond
  refine ⟨Aead.transparent, pairKey, paired, paired, groupCalls [] [7], groupRecvs [] [7], hrun,
    hframes, frames_arrive_intact _ _ _ _ _ _ hrun fun p hp => ?_⟩
  rw [hprocessed] at hp
  simp only [List.mem_cons, List.not_mem_nil, or_false] at hp
  rcases hp with rfl | rfl | rfl | rfl
  · exact whole_frame _ _ 0 rfl (prefixed_length 0 empty_short)
  · exact whole_frame _ _ 2 hmtu₁ (prefixed_length 2 empty_short)
  · exact whole_frame _ _ 3 hmtu₂ (prefixed_length 3 empty_short)
  · -- only the frame `[7]` is missing, and it is the longest
    intro k lost hparity hmissing _ frame hframe
    have hk : k = 0 := by
      have hfull : (k + 1) * 4 ≤ 4 := hparity.1
      omega
    subst hk
    have hone : ((groupDec []).selectGroup (UInt32.ofNat (0 * 4))).missing = [1] := by decide
    simp only [hdec, hone] at hmissing
    cases hmissing
    exact (show ∀ frame ∈ fecGroup ([[], [7], [], []] : List Bytes) 0, frame.length ≤ 1 by
      decide) frame hframe

end GravitalTalk.Transport
