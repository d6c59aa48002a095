import GravitalTalk.Transport.Receive

/-! Which datagrams contribute audio.  An AudioFec packet only ever does after `decrypt_in_place`
accepted it, and so does an AudioFrame with the `ENCRYPTED` flag; an AudioFrame without the flag
is taken as it stands, key or no key. -/
namespace GravitalTalk.Transport
open Lib GravitalTalk.Core

/-- The datagram carried a ciphertext that `decrypt_in_place` accepted under `key`, with the nonce
of its sequence number and the raw header bytes as associated data. -/
def Authenticated (aead : Aead) (key : SessionKey) (sid : UInt32) (data : Bytes) : Prop :=
  ∃ view, PacketView.decode data = .ok view ∧ view.header.flags.contains Flags.encrypted = true ∧
    ∃ plainLen tmp, decryptInPlace aead key (makeNonce view.header.sequence sid)
      (data.take headerSize) view.payload view.payload.length = (.ok plainLen, tmp)

/-- An AudioFrame packet without the flag, long enough for the sequence prefix. -/
def ClearAudio (data : Bytes) : Prop :=
  ∃ view, PacketView.decode data = .ok view ∧
    view.header.msgType = MessageType.audioFrame.code ∧
    view.header.flags.contains Flags.encrypted = false ∧ 4 ≤ view.payload.length

namespace Session
variable {aead : Aead} {env : Env} {s : Session} {key : SessionKey} {view : PacketView}
  {data : Bytes}

theorem openPayload_some {sid : UInt32} {plain : Bytes}
    (h : openPayload aead key sid view data = some plain) :
    ∃ plainLen tmp, decryptInPlace aead key (makeNonce view.header.sequence sid)
      (data.take headerSize) view.payload view.payload.length = (.ok plainLen, tmp) ∧
        plain = tmp.take plainLen := by
  simp only [openPayload] at h
  split at h
  · case h_1 plainLen tmp hopen =>
    exact ⟨plainLen, tmp, hopen, (Option.some.inj h).symm⟩
  · cases h

theorem dispatchAudioFrame_handed :
    (s.dispatchAudioFrame aead env view data).handed ≠ [] ↔
      ∃ plain, s.audioPlaintext aead view data = some plain ∧ 4 ≤ plain.length := by
  unfold dispatchAudioFrame
  cases hplain : s.audioPlaintext aead view data with
  | none => simp [quiet]
  | some plain =>
    by_cases hshort : plain.length < 4
    · simp [hshort, quiet, Nat.not_le.mpr hshort]
    · simp [hshort, Nat.not_lt.mp hshort]

theorem dispatchAudioFec_handed (h : (s.dispatchAudioFec aead view data).handed ≠ []) :
    view.header.flags.contains Flags.encrypted = true ∧
      ∃ key plain, s.decryptKey = some key ∧
        openPayload aead key s.sessionId view data = some plain := by
  unfold dispatchAudioFec at h
  split_ifs at h with hflag
  · refine ⟨hflag, ?_⟩
    cases hkey : s.decryptKey with
    | none => simp [hkey, quiet] at h
    | some key =>
      cases hopen : openPayload aead key s.sessionId view data with
      | none => simp [hkey, hopen, quiet] at h
      | some plain => exact ⟨key, plain, rfl, hopen⟩
  · exact absurd rfl h

/-- The only arms that hand on audio are the two audio arms. -/
theorem dispatchPacket_handed (h : (s.dispatchPacket aead env view data).handed ≠ []) :
    (view.header.msgType = MessageType.audioFrame.code ∧
        (s.dispatchAudioFrame aead env view data).handed ≠ []) ∨
      (s.dispatchAudioFec aead view data).handed ≠ [] := by
  unfold dispatchPacket at h
  split at h
  · case h_1 hcode => exact .inl ⟨(MessageType.code_of_fromCode hcode).symm, h⟩
  · exfalso
    unfold dispatchHeartbeat at h
    split at h <;> exact h rfl
  · exact absurd rfl h
  · exact .inr h
  · exact absurd rfl h
  · exact absurd rfl h
  · exfalso
    unfold dispatchFloorRequest at h
    split_ifs at h
    · exact h rfl
    · split at h <;> exact h rfl
  · exact absurd rfl h
  · exact absurd rfl h
  · exact absurd rfl h
  · exact absurd rfl h
  · exfalso
    unfold dispatchControlBitrate at h
    split at h <;> exact h rfl
  all_goals exact absurd rfl h

theorem dispatchPacket_authenticated_iff (hdecode : PacketView.decode data = .ok view)
    (hkey : s.decryptKey = some key) :
    ((s.dispatchPacket aead env view data).handed ≠ [] →
        Authenticated aead key s.sessionId data) ↔ ¬ClearAudio data := by
  constructor
  · rintro hauth ⟨view', hdecode', htype, hflag, hlen⟩
    rw [hdecode] at hdecode'
    cases hdecode'
    have hdispatch : s.dispatchPacket aead env view data =
        s.dispatchAudioFrame aead env view data := by
      rw [dispatchPacket, htype]
      rfl
    have hhanded : (s.dispatchPacket aead env view data).handed ≠ [] := by
      rw [hdispatch, dispatchAudioFrame_handed]
      exact ⟨view.payload, by simp [audioPlaintext, hflag], hlen⟩
    obtain ⟨view', hdecode', hflag', -⟩ := hauth hhanded
    rw [hdecode] at hdecode'
    cases hdecode'
    rw [hflag] at hflag'
    cases hflag'
  · intro hclear hhanded
    rcases dispatchPacket_handed hhanded with ⟨htype, hframe⟩ | hfec
    · obtain ⟨plain, hplain, hlen⟩ := dispatchAudioFrame_handed.mp hframe
      unfold audioPlaintext at hplain
      split_ifs at hplain with hflag
      · rw [hkey] at hplain
        obtain ⟨plainLen, tmp, hopen, -⟩ := openPayload_some hplain
        exact ⟨view, hdecode, hflag, plainLen, tmp, hopen⟩
      · cases hplain
        exact absurd ⟨view, hdecode, htype, by simpa using hflag, hlen⟩ hclear
    · obtain ⟨hflag, key', plain, hkey', hplain⟩ := dispatchAudioFec_handed hfec
      rw [hkey] at hkey'
      cases hkey'
      obtain ⟨plainLen, tmp, hopen, -⟩ := openPayload_some hplain
      exact ⟨view, hdecode, hflag, plainLen, tmp, hopen⟩

theorem processDatagram_authenticated_iff (hkey : s.decryptKey = some key) (datagram : Datagram) :
    ((s.processDatagram aead env datagram).handed ≠ [] →
        Authenticated aead key s.sessionId (datagram.data.take s.config.mtu)) ↔
      ¬ClearAudio (datagram.data.take s.config.mtu) := by
  cases hdecode : PacketView.decode (datagram.data.take s.config.mtu) with
  | error e =>
    rw [processDatagram_error hdecode]
    constructor
    · rintro - ⟨view, hview, -⟩
      rw [hdecode] at hview
      cases hview
    · intro _ h
      exact absurd rfl h
  | ok view =>
    rw [processDatagram_ok hdecode]
    exact dispatchPacket_authenticated_iff hdecode hkey

end Session

/-- With a key installed, a datagram hands on audio without having been authenticated if and only
if it is a clear AudioFrame; both receive entry points behave so. -/
theorem audio_authenticated_iff (aead : Aead) (env : Env) (s : Session) (key : SessionKey)
    (hkey : s.decryptKey = some key) (datagram : Datagram) :
    let data := datagram.data.take s.config.mtu
    (((s.pollOnce aead env (.datagram datagram)).handed ≠ [] →
        Authenticated aead key s.sessionId data) ↔ ¬ClearAudio data) ∧
      ∀ startUs nowUs, s.jitter.pop = (none, s.jitter) → ¬nowUs ≥ startUs + s.skipUs →
        (((s.recvAudio aead startUs [⟨nowUs, .datagram datagram, env⟩]).handed ≠ [] →
          Authenticated aead key s.sessionId data) ↔ ¬ClearAudio data) := by
  refine ⟨Session.processDatagram_authenticated_iff hkey datagram, ?_⟩
  intro startUs nowUs hempty hearly
  rw [Session.recvAudio_processes hempty hearly]
  exact Session.processDatagram_authenticated_iff hkey datagram

private def zeroKey : SessionKey := Vector.replicate 32 0

private def talking : Session :=
  Session.ofDefault.establish (.v4 0x0A000001 9000) 7 1 zeroKey zeroKey

private def calm : Env := ⟨1000, 1001, fun data _ => .ok data.length⟩

private def audioHeader (flags : Flags) : PacketHeader :=
  ⟨1, flags, MessageType.audioFrame.code, 7, 0, 5⟩

private theorem decode_take_mtu (flags : Flags) (payload : Bytes) (h : payload.length ≤ 100) :
    PacketView.decode ((Packet.bytes (audioHeader flags) payload).take talking.config.mtu) =
      .ok ⟨audioHeader flags, payload⟩ := by
  rw [List.take_of_length_le]
  · exact PacketView.decode_bytes _ _ rfl (Nat.le_trans h (by decide))
  · rw [Packet.length_bytes]
    exact Nat.le_trans (Nat.add_le_add_right (Nat.add_le_add_left h headerSize) 4) (by decide)

/-- A clear AudioFrame from anyone is handed on. -/
theorem audio_authenticated_fails : ¬∀ (aead : Aead) (env : Env) (s : Session) (key : SessionKey)
    (datagram : Datagram), s.decryptKey = some key →
      (s.pollOnce aead env (.datagram datagram)).handed ≠ [] →
        Authenticated aead key s.sessionId (datagram.data.take s.config.mtu) := by
  intro hall
  have hdecode := decode_take_mtu Flags.empty [0, 0, 0, 0, 0xAB] (by decide)
  have hclear : ClearAudio
      ((Packet.bytes (audioHeader Flags.empty) [0, 0, 0, 0, 0xAB]).take talking.config.mtu) :=
    ⟨_, hdecode, rfl, rfl, by decide⟩
  exact (Session.processDatagram_authenticated_iff rfl
    ⟨Packet.bytes (audioHeader Flags.empty) [0, 0, 0, 0, 0xAB], .v4 0 0⟩).mp
    (hall Aead.transparent calm talking zeroKey _ rfl) hclear

private def encryptedFrame : Datagram :=
  ⟨Packet.bytes (audioHeader Flags.encrypted) ([0, 0, 0, 0, 0xAB] ++ List.replicate 16 0), .v4 0 0⟩

/-- A frame with the flag is not clear, so what it hands on was authenticated. -/
theorem audio_authenticated_iff_encrypted :
    (talking.pollOnce Aead.transparent calm (.datagram encryptedFrame)).handed ≠ [] ∧
      Authenticated Aead.transparent zeroKey talking.sessionId
        (encryptedFrame.data.take talking.config.mtu) := by
  have hview : PacketView.decode (encryptedFrame.data.take talking.config.mtu) =
      .ok ⟨audioHeader Flags.encrypted, [0, 0, 0, 0, 0xAB] ++ List.replicate 16 0⟩ :=
    decode_take_mtu _ _ (by decide)
  have hhanded :
      (talking.pollOnce Aead.transparent calm (.datagram encryptedFrame)).handed ≠ [] := by
    show (talking.processDatagram Aead.transparent calm encryptedFrame).handed ≠ []
    rw [Session.processDatagram_ok hview, Session.dispatchPacket_audioFrame rfl,
      Session.dispatchAudioFrame_handed]
    exact ⟨[0, 0, 0, 0, 0xAB], rfl, by decide⟩
  refine ⟨hhanded, (audio_authenticated_iff Aead.transparent calm talking zeroKey rfl
    encryptedFrame).1.mpr ?_ hhanded⟩
  rintro ⟨view, hdecode, -, hflag, -⟩
  rw [hview] at hdecode
  cases hdecode
  revert hflag
  decide

end GravitalTalk.Transport
