import GravitalTalk.Transport.AudioStream

/-! Whether the parity of a group fits the packet it goes out in.  A parity is as long as the
longest frame of its group, and its prefix has five bytes where that of a frame has four: a frame
of the greatest length that `send_audio` takes leaves its group without a parity.  The packet is
not built, and `send_audio` returns `Ok` all the same. -/
namespace GravitalTalk.Transport.Session
open Lib GravitalTalk.Core

/-- The cipher seals whatever a packet has room for. -/
def Seals (aead : Aead) (key : SessionKey) : Prop :=
  ∀ nonce aad plain, plain.length ≤ maxPayloadSize →
    (aead.encryptDetached key nonce aad plain).isSome

/-- The packet of a sealed plaintext of `n` bytes passes both limits of the builder. -/
def Room (mtu n : Nat) : Prop :=
  n + tagSize ≤ maxPayloadSize ∧ headerSize + (n + tagSize) + 4 ≤ mtu

/-- The payload fits behind the prefix of a parity, one byte longer than its own. -/
def LeavesRoom (mtu : Nat) (payload : Bytes) : Prop := Room mtu (5 + payload.length)

instance (mtu n : Nat) : Decidable (Room mtu n) := instDecidableAnd

/-- `FEC_WINDOW` calls from the start of a group on a keyed session, all of them `Ok`. -/
structure GroupSent (aead : Aead) (key : SessionKey) (s : Session) (calls : List (SendEnv × Bytes)) :
    Prop where
  encryptKey : s.encryptKey = some key
  window : s.fecEnc.window = fecWindow
  fresh : s.fecEnc.count = 0
  length : calls.length = fecWindow.toNat
  succeed : ∀ result ∈ (s.sendAudios aead calls).1, result = .ok ()

def SendsParity (aead : Aead) (key : SessionKey) (s : Session) (calls : List (SendEnv × Bytes)) :
    Prop :=
  ∃ sent ∈ (s.sendAudios aead calls).2.2, s.peer = some sent.dest ∧
    SealedAs aead key s.sessionId .audioFec (fecPayload
      ⟨s.audioTxSeq, fecWindow, XorParity.parity (calls.map Prod.snd)⟩) sent.data

theorem length_fecPayload (parity : FecParity) :
    (fecPayload parity).length = 5 + parity.payload.length := by
  simp [fecPayload]
  omega

theorem seals_ok {aead : Aead} {key : SessionKey} (h : Seals aead key) (header : PacketHeader)
    {plain : Bytes} (hlen : plain.length ≤ maxPayloadSize) :
    ∃ wire, sealPayload aead key header plain = .ok wire := by
  obtain ⟨found, hfound⟩ := Option.isSome_iff_exists.mp
    (h (makeNonce header.sequence header.sessionId) header.bytes plain hlen)
  rw [sealPayload_eq, hfound]
  exact ⟨_, rfl⟩

section Sending
variable {aead : Aead} {key : SessionKey} {s : Session} {env : SendEnv} {payload : Bytes}
  {calls : List (SendEnv × Bytes)} {base : UInt32} {frames : List Bytes}

theorem sendPacket_fits {sendTo : Bytes → SocketAddr → Except TransportError Nat}
    {header : PacketHeader} {wire : Bytes} {peer : SocketAddr} {sent : Sent}
    (h : sent ∈ (s.sendPacket sendTo header wire peer).2.2) : sent.data.length ≤ s.config.mtu := by
  obtain ⟨-, hmtu, hdata⟩ := encodePacket_ok (sendPacket_built h).1
  rw [hdata, Packet.length_bytes]
  exact hmtu

theorem sendFecParity_fits {parity : FecParity} {peer : SocketAddr} {sid : UInt32} {sent : Sent}
    (h : sent ∈ (s.sendFecParity aead env parity peer sid).2.2) :
    sent.data.length ≤ s.config.mtu := by
  unfold sendFecParity at h
  cases hkey : s.encryptKey with
  | none => simp [hkey] at h
  | some key =>
    simp only [hkey] at h
    split at h
    · cases h
    · have hle := sendPacket_fits h
      exact hle

theorem feedFec_fits {audioSeq : UInt32} {peer : SocketAddr} {sid : UInt32} {sent : Sent}
    (h : sent ∈ (s.feedFec aead env audioSeq payload peer sid).2) :
    sent.data.length ≤ s.config.mtu := by
  unfold feedFec at h
  cases hpush : s.fecEnc.push audioSeq payload with
  | mk parity enc =>
    cases parity with
    | none => simp [hpush] at h
    | some parity =>
      simp only [hpush] at h
      have hle := sendFecParity_fits h
      exact hle

theorem sendAudio_fits (hok : (s.sendAudio aead env payload).1 = .ok ()) :
    ∀ sent ∈ (s.sendAudio aead env payload).2.2, sent.data.length ≤ s.config.mtu := by
  obtain ⟨peer, header, wire, metrics, -, -, -, hmtu, hcall⟩ := sendAudio_ok hok
  rw [hcall]
  intro sent hmem
  rcases List.mem_cons.mp hmem with rfl | hparity
  · rw [Packet.length_bytes]
    exact hmtu
  · have hle := feedFec_fits hparity
    exact hle

theorem sendAudios_fits (hok : ∀ result ∈ (s.sendAudios aead calls).1, result = .ok ()) :
    ∀ sent ∈ (s.sendAudios aead calls).2.2, sent.data.length ≤ s.config.mtu := by
  induction calls generalizing s with
  | nil =>
    intro sent hmem
    cases hmem
  | cons call calls ih =>
    obtain ⟨env, payload⟩ := call
    simp only [sendAudios, List.mem_cons, forall_eq_or_imp] at hok
    obtain ⟨txSequence, metrics, hnext⟩ := sendAudio_session hok.1
    intro sent hmem
    simp only [sendAudios] at hmem
    rcases List.mem_append.mp hmem with hnow | hlater
    · exact sendAudio_fits hok.1 sent hnow
    · have hle := ih hok.2 sent hlater
      rwa [hnext] at hle

theorem SendsParity.room (hok : ∀ result ∈ (s.sendAudios aead calls).1, result = .ok ())
    (h : SendsParity aead key s calls) : ∀ call ∈ calls, LeavesRoom s.config.mtu call.2 := by
  obtain ⟨sent, hmem, -, seq, ts, wire, hseal, hsize, hdata⟩ := h
  have hmtu := sendAudios_fits hok sent hmem
  have hlen := length_sealPayload hseal
  rw [hdata, Packet.length_bytes] at hmtu
  rw [length_fecPayload] at hlen
  intro call hcall
  have hle := XorParity.length_le_parity (List.mem_map_of_mem (f := Prod.snd) hcall)
  simp only [LeavesRoom, Room]
  dsimp only at hlen
  omega

theorem sendFecParity_sends (hseals : Seals aead key) (hkey : s.encryptKey = some key)
    {parity : FecParity} (hroom : Room s.config.mtu (5 + parity.payload.length)) (env : SendEnv)
    (peer : SocketAddr) (sid : UInt32) :
    ∃ sent ∈ (s.sendFecParity aead env parity peer sid).2.2, sent.dest = peer ∧
      SealedAs aead key sid .audioFec (fecPayload parity) sent.data := by
  have hplain := length_fecPayload parity
  unfold Room at hroom
  obtain ⟨wire, hseal⟩ := seals_ok hseals
    (encryptedHeader .audioFec s.txSequence sid env.parityClock)
    (show (fecPayload parity).length ≤ maxPayloadSize by omega)
  have hwire := length_sealPayload hseal
  have hsize : wire.length ≤ maxPayloadSize := by omega
  have hencode : encodePacket s.config.mtu (encryptedHeader .audioFec s.txSequence sid
      env.parityClock) wire = .ok _ := encodePacket_eq hsize (by omega)
  refine ⟨⟨Packet.bytes (encryptedHeader .audioFec s.txSequence sid env.parityClock) wire, peer⟩,
    ?_, rfl, _, _, wire, hseal, hsize, rfl⟩
  rw [sendFecParity_eq hkey]
  simp only [hseal, sendPacket, hencode]
  split <;> exact List.mem_singleton_self _

theorem feedFec_sends (hseals : Seals aead key) (hkey : s.encryptKey = some key) {audioSeq : UInt32}
    {parity : FecParity} (hpush : (s.fecEnc.push audioSeq payload).1 = some parity)
    (hroom : Room s.config.mtu (5 + parity.payload.length)) (env : SendEnv) (peer : SocketAddr)
    (sid : UInt32) :
    ∃ sent ∈ (s.feedFec aead env audioSeq payload peer sid).2, sent.dest = peer ∧
      SealedAs aead key sid .audioFec (fecPayload parity) sent.data := by
  unfold feedFec
  cases hfull : s.fecEnc.push audioSeq payload with
  | mk found enc =>
    rw [hfull] at hpush
    cases hpush
    have hsends := @sendFecParity_sends aead key { s with fecEnc := enc } hseals hkey parity hroom
      env peer sid
    exact hsends

theorem sendAudio_sends (hseals : Seals aead key) (hkey : s.encryptKey = some key)
    (hok : (s.sendAudio aead env payload).1 = .ok ()) {parity : FecParity}
    (hpush : (s.fecEnc.push s.audioTxSeq payload).1 = some parity)
    (hroom : Room s.config.mtu (5 + parity.payload.length)) :
    ∃ sent ∈ (s.sendAudio aead env payload).2.2, s.peer = some sent.dest ∧
      SealedAs aead key s.sessionId .audioFec (fecPayload parity) sent.data := by
  obtain ⟨peer, header, wire, metrics, hpeer, -, -, -, hcall⟩ := sendAudio_ok hok
  have hsends := @feedFec_sends aead key { s with
    audioTxSeq := s.audioTxSeq + 1
    txSequence := s.txSequence + 1
    metrics := metrics } payload hseals hkey s.audioTxSeq parity hpush hroom env peer s.sessionId
  obtain ⟨sent, hmem, rfl, hsealed⟩ := hsends
  rw [hcall]
  exact ⟨sent, List.mem_cons_of_mem _ hmem, hpeer, hsealed⟩

theorem sendAudios_sends (hseals : Seals aead key) (hkey : s.encryptKey = some key)
    (hgroup : s.fecEnc.Group base frames) (hbase : frames = [] → s.audioTxSeq = base)
    (hwindow : s.fecEnc.window = fecWindow) (hcalls : calls ≠ [])
    (hlen : frames.length + calls.length = fecWindow.toNat)
    (hok : ∀ result ∈ (s.sendAudios aead calls).1, result = .ok ())
    (hroom : Room s.config.mtu
      (5 + (XorParity.parity (frames ++ calls.map Prod.snd)).length)) :
    ∃ sent ∈ (s.sendAudios aead calls).2.2, s.peer = some sent.dest ∧
      SealedAs aead key s.sessionId .audioFec (fecPayload
        ⟨base, fecWindow, XorParity.parity (frames ++ calls.map Prod.snd)⟩) sent.data := by
  induction calls generalizing s frames with
  | nil => exact absurd rfl hcalls
  | cons call calls ih =>
    obtain ⟨env, payload⟩ := call
    simp only [sendAudios, List.mem_cons, forall_eq_or_imp] at hok ⊢
    obtain ⟨hwindow', hpush⟩ := FecEncoder.push_spec hgroup hbase payload
    rw [hwindow] at hwindow' hpush
    rw [List.length_cons] at hlen
    cases calls with
    | nil =>
      rw [if_neg (by rw [← hlen]; simp)] at hpush
      obtain ⟨sent, hmem, hdest, hsealed⟩ := sendAudio_sends hseals hkey hok.1 hpush.1 hroom
      exact ⟨sent, List.mem_append_left _ hmem, hdest, hsealed⟩
    | cons next calls =>
      rw [if_pos (by rw [← hlen, List.length_cons]; omega)] at hpush
      obtain ⟨txSequence, metrics, hnext⟩ := sendAudio_session hok.1
      have hlater := @ih (s.sendAudio aead env payload).2.1 (frames ++ [payload])
      rw [hnext] at hlater
      obtain ⟨sent, hmem, hdest, hsealed⟩ := hlater hkey hpush.2 (by simp) hwindow' (by simp)
        (by rw [← hlen, List.length_append, List.length_singleton]; omega) (hnext ▸ hok.2)
        (by simpa using hroom)
      rw [← hnext] at hmem
      refine ⟨sent, List.mem_append_right _ hmem, hdest, ?_⟩
      rwa [List.append_assoc] at hsealed

theorem sendAudio_succeeds (hseals : Seals aead key) (hactive : s.state.state = .active)
    {peer : SocketAddr} (hpeer : s.peer = some peer) (hkey : s.encryptKey = some key)
    (hroom : Room s.config.mtu (4 + payload.length)) {n : Nat}
    (hsend : ∀ data dest, env.sendTo data dest = .ok n) :
    (s.sendAudio aead env payload).1 = .ok () := by
  have hplain : (prefixed s.audioTxSeq payload).length = 4 + payload.length := by simp [prefixed]
  unfold Room at hroom
  obtain ⟨wire, hseal⟩ := seals_ok hseals
    (encryptedHeader .audioFrame s.txSequence s.sessionId env.audioClock)
    (show (prefixed s.audioTxSeq payload).length ≤ maxPayloadSize by omega)
  have hwire := length_sealPayload hseal
  rw [sendAudio_eq hactive hpeer hkey hseal (by omega) (by omega) hsend]

theorem sendAudios_succeed (hseals : Seals aead key) (hactive : s.state.state = .active)
    {peer : SocketAddr} (hpeer : s.peer = some peer) (hkey : s.encryptKey = some key)
    (hroom : ∀ call ∈ calls, Room s.config.mtu (4 + call.2.length)) {n : Nat}
    (hsend : ∀ call ∈ calls, ∀ data dest, call.1.sendTo data dest = .ok n) :
    ∀ result ∈ (s.sendAudios aead calls).1, result = .ok () := by
  induction calls generalizing s with
  | nil =>
    intro result hmem
    cases hmem
  | cons call calls ih =>
    obtain ⟨env, payload⟩ := call
    simp only [List.mem_cons, forall_eq_or_imp] at hroom hsend
    have hok := sendAudio_succeeds hseals hactive hpeer hkey hroom.1 hsend.1
    obtain ⟨txSequence, metrics, hnext⟩ := sendAudio_session hok
    have hlater := @ih (s.sendAudio aead env payload).2.1
    rw [hnext] at hlater
    simp only [sendAudios, List.mem_cons, forall_eq_or_imp]
    rw [hnext]
    exact ⟨hok, hlater hactive hpeer hkey hroom.2 hsend.2⟩

theorem room_parity {mtu : Nat} (hcalls : calls ≠ [])
    (h : ∀ call ∈ calls, LeavesRoom mtu call.2) :
    Room mtu (5 + (XorParity.parity (calls.map Prod.snd)).length) := by
  obtain ⟨first, hfirst⟩ := List.exists_mem_of_ne_nil calls hcalls
  have hroom := h first hfirst
  have hle : (XorParity.parity (calls.map Prod.snd)).length ≤
      min (maxPayloadSize - (5 + tagSize)) (mtu - (headerSize + 5 + tagSize + 4)) := by
    refine XorParity.length_parity_le fun frame hmem => ?_
    obtain ⟨call, hcall, rfl⟩ := List.mem_map.mp hmem
    have := h call hcall
    simp only [LeavesRoom, Room] at this
    omega
  simp only [LeavesRoom, Room] at hroom ⊢
  omega

/-- The parity of a group goes out exactly when no frame of the group takes up the byte by which
the prefix of the parity is longer. -/
theorem parity_sent_iff (aead : Aead) (key : SessionKey) (s : Session)
    (calls : List (SendEnv × Bytes)) (hseals : Seals aead key) (h : GroupSent aead key s calls) :
    SendsParity aead key s calls ↔ ∀ call ∈ calls, LeavesRoom s.config.mtu call.2 := by
  refine ⟨fun hsent => hsent.room h.succeed, fun hroom => ?_⟩
  have hcalls : calls ≠ [] := by
    rintro rfl
    exact absurd h.length (by decide)
  have hgroup : s.fecEnc.Group s.audioTxSeq [] :=
    ⟨congrArg UInt8.toNat h.fresh, fun hne => absurd rfl hne, fun hne => absurd rfl hne⟩
  have hparity := sendAudios_sends hseals h.encryptKey hgroup (fun _ => rfl) h.window hcalls
    (by rw [List.length_nil, Nat.zero_add, h.length]) h.succeed
    (by rw [List.nil_append]; exact room_parity hcalls hroom)
  rw [List.nil_append] at hparity
  exact hparity

end Sending

private def speakerKey : SessionKey := Vector.replicate 32 0

private def speaker : Session :=
  Session.ofDefault.establish (.v4 0x0A000001 9000) 7 1 speakerKey speakerKey

private def framesOf (n : Nat) : List (SendEnv × Bytes) :=
  List.replicate 4 (⟨0, 0, fun _ _ => .ok 0⟩, List.replicate n 0)

private theorem transparent_seals : Seals Aead.transparent speakerKey := fun _ _ _ _ => rfl

private theorem framesOf_length {n : Nat} {call : SendEnv × Bytes} (h : call ∈ framesOf n) :
    call.2.length = n := by
  rw [List.eq_of_mem_replicate h, List.length_replicate]

private theorem room_framesOf {n : Nat} (h : ∀ call ∈ framesOf n, LeavesRoom 1200 call.2) :
    Room 1200 (5 + n) := by
  have hmem : (⟨0, 0, fun _ _ => .ok 0⟩, List.replicate n 0) ∈ framesOf n :=
    List.mem_replicate.mpr ⟨four_ne_zero, rfl⟩
  have hroom := h _ hmem
  rwa [LeavesRoom, framesOf_length hmem] at hroom

private theorem groupSent_framesOf {n : Nat} (h : Room 1200 (4 + n)) :
    GroupSent Aead.transparent speakerKey speaker (framesOf n) where
  encryptKey := rfl
  window := rfl
  fresh := rfl
  length := rfl
  succeed := by
    refine sendAudios_succeed (n := 0) transparent_seals rfl rfl rfl (fun call hcall => ?_)
      fun call hcall data dest => ?_
    · rw [framesOf_length hcall]
      exact h
    · rw [List.eq_of_mem_replicate hcall]

/-- The parity of a group of short frames is sent. -/
theorem parity_sent_short : SendsParity Aead.transparent speakerKey speaker (framesOf 100) := by
  refine (parity_sent_iff Aead.transparent speakerKey speaker (framesOf 100) transparent_seals
    (groupSent_framesOf (by decide))).mpr fun call hcall => ?_
  rw [LeavesRoom, framesOf_length hcall]
  exact show Room 1200 (5 + 100) by decide

/-- With the default mtu, four frames of 1152 bytes are accepted and their parity is not sent. -/
theorem longest_frames_unprotected : ¬∀ (aead : Aead) (key : SessionKey) (s : Session)
    (calls : List (SendEnv × Bytes)), Seals aead key → GroupSent aead key s calls →
      SendsParity aead key s calls := by
  intro hall
  have hsent := groupSent_framesOf (n := 1152) (by decide)
  have hparity := hall Aead.transparent speakerKey speaker (framesOf 1152) transparent_seals hsent
  exact absurd (room_framesOf (hparity.room hsent.succeed))
    (show ¬Room 1200 (5 + 1152) by decide)

end GravitalTalk.Transport.Session
