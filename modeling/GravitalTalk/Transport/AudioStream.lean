import GravitalTalk.Transport.FecGroups
import GravitalTalk.Transport.Send

/-! What a run of successful `send_audio` calls puts on the wire: for each call the packet of its
frame, sealed under the number of the call, and after every fourth one the parity of the group.

The encoder's groups start at multiples of the window because every call succeeded: a call that
fails uses up a number of the stream without feeding the encoder. -/
namespace GravitalTalk.Transport
open Lib GravitalTalk.Core

namespace Session

def sendAudios (self : Session) (aead : Aead) :
    List (SendEnv × Bytes) → List (Except TransportError Unit) × Session × List Sent
  | [] => ([], self, [])
  | (env, payload) :: calls =>
    let (result, self, sent) := self.sendAudio aead env payload
    let (results, self, rest) := self.sendAudios aead calls
    (result :: results, self, sent ++ rest)

end Session

def fecGroup (payloads : List Bytes) (k : Nat) : List Bytes :=
  (payloads.drop (k * fecWindow.toNat)).take fecWindow.toNat

def SealedAs (aead : Aead) (key : SessionKey) (sid : UInt32) (mt : MessageType) (plain data : Bytes) :
    Prop :=
  ∃ seq ts wire, Session.sealPayload aead key (Session.encryptedHeader mt seq sid ts) plain = .ok wire ∧
    wire.length ≤ maxPayloadSize ∧
      data = Packet.bytes (Session.encryptedHeader mt seq sid ts) wire

def CarriesFrame (aead : Aead) (key : SessionKey) (sid : UInt32) (payloads : List Bytes) (n : Nat)
    (data : Bytes) : Prop :=
  ∃ payload, payloads[n]? = some payload ∧
    SealedAs aead key sid .audioFrame (Session.prefixed (UInt32.ofNat n) payload) data

def CarriesParity (aead : Aead) (key : SessionKey) (sid : UInt32) (payloads : List Bytes) (k : Nat)
    (data : Bytes) : Prop :=
  (k + 1) * fecWindow.toNat ≤ payloads.length ∧
    SealedAs aead key sid .audioFec
      (Session.fecPayload ⟨UInt32.ofNat (k * fecWindow.toNat), fecWindow,
        XorParity.parity (fecGroup payloads k)⟩) data

def Genuine (aead : Aead) (key : SessionKey) (sid : UInt32) (payloads : List Bytes) (data : Bytes) :
    Prop :=
  (∃ n, CarriesFrame aead key sid payloads n data) ∨
    ∃ k, CarriesParity aead key sid payloads k data

namespace Session
variable {s : Session} {key : SessionKey} {sid audioSeq : UInt32} {fecEnc : FecEncoder}

structure Streams (s : Session) (key : SessionKey) (sid audioSeq : UInt32) (fecEnc : FecEncoder) :
    Prop where
  encryptKey : s.encryptKey = some key
  sessionId : s.sessionId = sid
  audioTxSeq : s.audioTxSeq = audioSeq
  fecEnc : s.fecEnc = fecEnc

theorem streams_sendPacket (h : s.Streams key sid audioSeq fecEnc)
    (sendTo : Bytes → SocketAddr → Except TransportError Nat) (header : PacketHeader)
    (wire : Bytes) (peer : SocketAddr) :
    (s.sendPacket sendTo header wire peer).2.1.Streams key sid audioSeq fecEnc := by
  obtain ⟨metrics, hsession⟩ := s.sendPacket_session sendTo header wire peer
  rw [hsession]
  exact ⟨h.encryptKey, h.sessionId, h.audioTxSeq, h.fecEnc⟩

theorem sendFecParity_eq (hkey : s.encryptKey = some key) (aead : Aead) (env : SendEnv)
    (parity : FecParity) (peer : SocketAddr) (sid : UInt32) :
    s.sendFecParity aead env parity peer sid =
      let counted := { s with txSequence := s.txSequence + 1 }
      let header := encryptedHeader .audioFec s.txSequence sid env.parityClock
      match sealPayload aead key header (fecPayload parity) with
      | .error e => (.error e, counted, [])
      | .ok wire => counted.sendPacket env.sendTo header wire peer := by
  cases s
  cases hkey
  rfl

theorem sendFecParity_session (s : Session) (aead : Aead) (env : SendEnv) (parity : FecParity)
    (peer : SocketAddr) (sid : UInt32) :
    ∃ metrics, (s.sendFecParity aead env parity peer sid).2.1 =
      { s with txSequence := s.txSequence + 1, metrics := metrics } := by
  unfold sendFecParity
  cases s.encryptKey with
  | none => exact ⟨_, rfl⟩
  | some key =>
    simp only
    split
    · exact ⟨_, rfl⟩
    · exact sendPacket_session _ _ _ _ _

theorem feedFec_session (s : Session) (aead : Aead) (env : SendEnv) (audioSeq : UInt32)
    (payload : Bytes) (peer : SocketAddr) (sid : UInt32) :
    ∃ txSequence metrics, (s.feedFec aead env audioSeq payload peer sid).1 =
      { s with
        fecEnc := (s.fecEnc.push audioSeq payload).2
        txSequence := txSequence
        metrics := metrics } := by
  unfold feedFec
  cases s.fecEnc.push audioSeq payload with
  | mk parity enc =>
    cases parity with
    | none => exact ⟨_, _, rfl⟩
    | some parity =>
      obtain ⟨metrics, hsession⟩ := { s with fecEnc := enc }.sendFecParity_session aead env parity
        peer sid
      exact ⟨_, metrics, hsession⟩

theorem sendFecParity_spec (h : s.Streams key sid audioSeq fecEnc) (aead : Aead) (env : SendEnv)
    (parity : FecParity) (peer : SocketAddr) :
    (s.sendFecParity aead env parity peer sid).2.1.Streams key sid audioSeq fecEnc ∧
      ∀ sent ∈ (s.sendFecParity aead env parity peer sid).2.2,
        SealedAs aead key sid .audioFec (fecPayload parity) sent.data := by
  have hcounted : { s with txSequence := s.txSequence + 1 }.Streams key sid audioSeq fecEnc :=
    ⟨h.encryptKey, h.sessionId, h.audioTxSeq, h.fecEnc⟩
  rw [sendFecParity_eq h.encryptKey]
  cases hseal : sealPayload aead key (encryptedHeader .audioFec s.txSequence sid env.parityClock)
      (fecPayload parity) with
  | error e =>
    simp only [hseal]
    exact ⟨hcounted, fun sent hmem => by cases hmem⟩
  | ok wire =>
    simp only [hseal]
    refine ⟨streams_sendPacket hcounted _ _ _ _, fun sent hmem => ?_⟩
    obtain ⟨hsize, hdata, -⟩ := sendPacket_sent hmem
    exact ⟨_, _, wire, hseal, hsize, hdata⟩

theorem feedFec_spec (h : s.Streams key sid (audioSeq + 1) fecEnc) (aead : Aead) (env : SendEnv)
    (payload : Bytes) (peer : SocketAddr) :
    (s.feedFec aead env audioSeq payload peer sid).1.Streams key sid (audioSeq + 1)
        (fecEnc.push audioSeq payload).2 ∧
      ∀ sent ∈ (s.feedFec aead env audioSeq payload peer sid).2,
        ∃ parity, (fecEnc.push audioSeq payload).1 = some parity ∧
          SealedAs aead key sid .audioFec (fecPayload parity) sent.data := by
  unfold feedFec
  rw [h.fecEnc]
  cases hpush : fecEnc.push audioSeq payload with
  | mk parity enc =>
    have hfed : { s with fecEnc := enc }.Streams key sid (audioSeq + 1) enc :=
      ⟨h.encryptKey, h.sessionId, h.audioTxSeq, rfl⟩
    cases parity with
    | none => exact ⟨hfed, fun sent hmem => by cases hmem⟩
    | some parity =>
      obtain ⟨hstreams, hsent⟩ := sendFecParity_spec hfed aead env parity peer
      exact ⟨hstreams, fun sent hmem => ⟨parity, rfl, hsent sent hmem⟩⟩

theorem sendAudio_eq {aead : Aead} {env : SendEnv} {payload wire : Bytes} {peer : SocketAddr}
    {n : Nat} (hactive : s.state.state = .active) (hpeer : s.peer = some peer)
    (hkey : s.encryptKey = some key)
    (hseal : sealPayload aead key (encryptedHeader .audioFrame s.txSequence s.sessionId
      env.audioClock) (prefixed s.audioTxSeq payload) = .ok wire)
    (hsize : wire.length ≤ maxPayloadSize) (hmtu : headerSize + wire.length + 4 ≤ s.config.mtu)
    (hsend : ∀ data dest, env.sendTo data dest = .ok n) :
    let counted := { s with
      audioTxSeq := s.audioTxSeq + 1
      txSequence := s.txSequence + 1
      metrics := s.metrics.recordSent n }
    let fed := counted.feedFec aead env s.audioTxSeq payload peer s.sessionId
    s.sendAudio aead env payload =
      (.ok (), fed.1, ⟨Packet.bytes (encryptedHeader .audioFrame s.txSequence s.sessionId
        env.audioClock) wire, peer⟩ :: fed.2) := by
  have hencode : encodePacket s.config.mtu (encryptedHeader .audioFrame s.txSequence s.sessionId
      env.audioClock) wire = .ok (Packet.bytes (encryptedHeader .audioFrame s.txSequence s.sessionId
        env.audioClock) wire) := encodePacket_eq hsize hmtu
  simp [sendAudio, hactive, hpeer, hkey, audioPacket, hseal, sendPacket, hencode, hsend, Except.map]

/-- A call that returns `Ok` has built its packet, handed it to the transport and fed the encoder. -/
theorem sendAudio_ok {aead : Aead} {env : SendEnv} {payload : Bytes}
    (hok : (s.sendAudio aead env payload).1 = .ok ()) :
    ∃ peer header wire metrics, s.peer = some peer ∧
      audioPacket aead s.encryptKey s.audioTxSeq s.txSequence s.sessionId env.audioClock payload =
        .ok (header, wire) ∧
      wire.length ≤ maxPayloadSize ∧ headerSize + wire.length + 4 ≤ s.config.mtu ∧
      s.sendAudio aead env payload =
        let counted := { s with
          audioTxSeq := s.audioTxSeq + 1
          txSequence := s.txSequence + 1
          metrics := metrics }
        let fed := counted.feedFec aead env s.audioTxSeq payload peer s.sessionId
        (.ok (), fed.1, ⟨Packet.bytes header wire, peer⟩ :: fed.2) := by
  unfold sendAudio at hok ⊢
  split_ifs at hok ⊢ with hactive
  cases hpeer : s.peer with
  | none => simp [hpeer] at hok
  | some peer =>
    simp only [hpeer] at hok ⊢
    cases hpacket : audioPacket aead s.encryptKey s.audioTxSeq s.txSequence s.sessionId
        env.audioClock payload with
    | error e => simp [hpacket] at hok
    | ok found =>
      obtain ⟨header, wire⟩ := found
      simp only [hpacket, sendPacket] at hok ⊢
      cases hencode : encodePacket s.config.mtu header wire with
      | error e => simp [hencode] at hok
      | ok data =>
        obtain ⟨hsize, hmtu, rfl⟩ := encodePacket_ok hencode
        cases hsend : env.sendTo (Packet.bytes header wire) peer with
        | error e => simp [hencode, hsend] at hok
        | ok n =>
          refine ⟨peer, header, wire, s.metrics.recordSent n, rfl, rfl, hsize, hmtu, ?_⟩
          simp only [hsend, List.singleton_append]

theorem sendAudio_session {aead : Aead} {env : SendEnv} {payload : Bytes}
    (hok : (s.sendAudio aead env payload).1 = .ok ()) :
    ∃ txSequence metrics, (s.sendAudio aead env payload).2.1 =
      { s with
        audioTxSeq := s.audioTxSeq + 1
        fecEnc := (s.fecEnc.push s.audioTxSeq payload).2
        txSequence := txSequence
        metrics := metrics } := by
  obtain ⟨peer, header, wire, metrics, -, -, -, -, hcall⟩ := sendAudio_ok hok
  obtain ⟨txSequence, metrics', hfed⟩ := feedFec_session { s with
    audioTxSeq := s.audioTxSeq + 1
    txSequence := s.txSequence + 1
    metrics := metrics } aead env s.audioTxSeq payload peer s.sessionId
  rw [hcall]
  exact ⟨txSequence, metrics', hfed⟩

theorem sendAudio_spec {aead : Aead} {env : SendEnv} {payload : Bytes}
    (h : s.Streams key sid audioSeq fecEnc) (hok : (s.sendAudio aead env payload).1 = .ok ()) :
    (s.sendAudio aead env payload).2.1.Streams key sid (audioSeq + 1)
        (fecEnc.push audioSeq payload).2 ∧
      ∀ sent ∈ (s.sendAudio aead env payload).2.2,
        SealedAs aead key sid .audioFrame (prefixed audioSeq payload) sent.data ∨
          ∃ parity, (fecEnc.push audioSeq payload).1 = some parity ∧
            SealedAs aead key sid .audioFec (fecPayload parity) sent.data := by
  obtain ⟨hkey, rfl, rfl, rfl⟩ := h
  obtain ⟨peer, header, wire, metrics, -, hpacket, hsize, -, hcall⟩ := sendAudio_ok hok
  rw [hkey] at hpacket
  obtain ⟨rfl, hseal⟩ := audioPacket_some hpacket
  have hcounted : { s with
      audioTxSeq := s.audioTxSeq + 1
      txSequence := s.txSequence + 1
      metrics := metrics }.Streams key s.sessionId (s.audioTxSeq + 1) s.fecEnc :=
    ⟨hkey, rfl, rfl, rfl⟩
  obtain ⟨hfed, hparity⟩ := feedFec_spec hcounted aead env payload peer
  rw [hcall]
  refine ⟨hfed, fun sent hmem => ?_⟩
  rcases List.mem_cons.mp hmem with rfl | hlater
  · exact .inl ⟨_, _, wire, hseal, hsize, rfl⟩
  · exact .inr (hparity sent hlater)

end Session

def groupStart (n : Nat) : Nat := n / fecWindow.toNat * fecWindow.toNat

theorem groupStart_eq (n : Nat) : groupStart n = n / 4 * 4 := rfl

theorem fecGroup_eq (payloads : List Bytes) (k : Nat) :
    fecGroup payloads k = (payloads.drop (k * 4)).take 4 := rfl

theorem getElem?_fecGroup (payloads : List Bytes) (k : Nat) {i : Nat} (h : i < 4) :
    (fecGroup payloads k)[i]? = payloads[k * 4 + i]? :=
  getElem?_groupFrames payloads k h

/-- The encoder has seen the frames `sent` and nothing else. -/
structure InStep (sent : List Bytes) (fecEnc : FecEncoder) : Prop where
  window : fecEnc.window = fecWindow
  group : fecEnc.Group (UInt32.ofNat (groupStart sent.length)) (sent.drop (groupStart sent.length))

theorem inStep_nil : InStep [] FecEncoder.withDefaultWindow :=
  ⟨rfl, FecEncoder.group_new _ _⟩

theorem InStep.counted {sent : List Bytes} {fecEnc : FecEncoder} (h : InStep sent fecEnc) :
    fecEnc.Counted (sent.length / 4) sent := by
  refine ⟨?_, ?_, ?_⟩ <;> rw [h.window, show fecWindow.toNat = 4 from rfl]
  · omega
  · omega
  · exact h.group

theorem inStep_of_counted {sent : List Bytes} {fecEnc : FecEncoder} {k : Nat}
    (hwindow : fecEnc.window = fecWindow) (h : fecEnc.Counted k sent) : InStep sent fecEnc := by
  obtain ⟨hbegun, hroom, hgroup⟩ := h
  rw [hwindow, show fecWindow.toNat = 4 from rfl] at hbegun hroom hgroup
  refine ⟨hwindow, ?_⟩
  rw [groupStart_eq, show sent.length / 4 = k by omega]
  exact hgroup

theorem InStep.push {sent : List Bytes} {fecEnc : FecEncoder} (h : InStep sent fecEnc)
    (payload : Bytes) :
    InStep (sent ++ [payload]) (fecEnc.push (UInt32.ofNat sent.length) payload).2 ∧
      ∀ parity, (fecEnc.push (UInt32.ofNat sent.length) payload).1 = some parity →
        ∃ k, (k + 1) * fecWindow.toNat ≤ (sent ++ [payload]).length ∧
          parity = streamParity fecWindow (sent ++ [payload]) k := by
  obtain ⟨hwindow, hpush⟩ := h.counted.push payload
  rw [h.window] at hwindow hpush
  split_ifs at hpush with hroom
  · obtain ⟨hnone, hnext⟩ := hpush
    refine ⟨inStep_of_counted hwindow hnext, fun parity hsome => ?_⟩
    rw [hnone] at hsome
    cases hsome
  · obtain ⟨hfull, hnext⟩ := hpush
    refine ⟨inStep_of_counted hwindow hnext, fun parity hsome => ⟨sent.length / 4, ?_, ?_⟩⟩
    · rw [List.length_append, List.length_singleton]
      exact Nat.le_of_not_lt hroom
    · rw [hfull] at hsome
      exact (Option.some.inj hsome).symm

theorem carriesParity_of_full {aead : Aead} {key : SessionKey} {sid : UInt32}
    {payloads : List Bytes} {k : Nat} {data : Bytes}
    (hfull : (k + 1) * fecWindow.toNat ≤ payloads.length)
    (hsealed : SealedAs aead key sid .audioFec
      (Session.fecPayload (streamParity fecWindow payloads k)) data) (rest : List Bytes) :
    CarriesParity aead key sid (payloads ++ rest) k data := by
  refine ⟨?_, ?_⟩
  · rw [List.length_append]
    exact Nat.le_add_right_of_le hfull
  · have hgroup : fecGroup (payloads ++ rest) k = groupFrames fecWindow.toNat payloads k :=
      groupFrames_append hfull rest
    rw [hgroup]
    exact hsealed

theorem sendAudios_genuine {aead : Aead} {key : SessionKey} {sid : UInt32}
    (calls : List (SendEnv × Bytes)) (before : List Bytes) {s : Session} {fecEnc : FecEncoder}
    (h : s.Streams key sid (UInt32.ofNat before.length) fecEnc) (hstep : InStep before fecEnc)
    (hok : ∀ result ∈ (s.sendAudios aead calls).1, result = .ok ()) :
    ∀ sent ∈ (s.sendAudios aead calls).2.2,
      Genuine aead key sid (before ++ calls.map Prod.snd) sent.data := by
  induction calls generalizing before s fecEnc with
  | nil =>
    intro sent hmem
    cases hmem
  | cons call calls ih =>
    obtain ⟨env, payload⟩ := call
    simp only [Session.sendAudios, List.mem_cons, forall_eq_or_imp] at hok
    obtain ⟨hstreams, hsent⟩ := Session.sendAudio_spec h hok.1
    obtain ⟨hnext, hparity⟩ := hstep.push payload
    intro sent hmem
    simp only [Session.sendAudios] at hmem
    rcases List.mem_append.mp hmem with hnow | hlater
    · rcases hsent sent hnow with hframe | ⟨parity, hpush, hsealed⟩
      · refine .inl ⟨before.length, payload, ?_, hframe⟩
        simp
      · obtain ⟨k, hfull, rfl⟩ := hparity parity hpush
        have hcarries := carriesParity_of_full hfull hsealed (calls.map Prod.snd)
        rw [List.append_assoc] at hcarries
        exact .inr ⟨k, hcarries⟩
    · have hcount : UInt32.ofNat before.length + 1 = UInt32.ofNat (before ++ [payload]).length := by
        rw [List.length_append, List.length_singleton, UInt32.ofNat_add]
        rfl
      rw [hcount] at hstreams
      have := ih (before ++ [payload]) hstreams hnext hok.2 sent hlater
      rwa [List.append_assoc] at this

end GravitalTalk.Transport
