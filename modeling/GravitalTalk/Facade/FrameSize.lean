import GravitalTalk.Facade.CodecSession
import GravitalTalk.Transport.ParitySize

/-! Which frames fit on their way out: into the scratch buffer of `send_samples`, under the limit of
a payload and into a packet. -/
namespace GravitalTalk.Facade
open Lib GravitalTalk.Core Codec Transport

def TooLarge : TransportError → Prop
  | .protocol .payloadTooLarge | .protocol .bufferTooSmall => True
  | _ => False

/-- The call gets as far as a packet: there is a peer to send it to, and the cipher seals it. -/
def Sealed (aead : Aead) (key : SessionKey) (env : SendEnv) (s : Session) (payload : Bytes) : Prop :=
  s.peer ≠ none ∧ ∃ wire, Session.sealPayload aead key
    (Session.encryptedHeader .audioFrame s.txSequence s.sessionId env.audioClock)
      (Session.prefixed s.audioTxSeq payload) = .ok wire

section Sending
variable {s : Session} {aead : Aead} {env : SendEnv} {key : SessionKey} {payload : Bytes}

theorem sealPayload_error {header : PacketHeader} {plain : Bytes} {e : TransportError}
    (h : Session.sealPayload aead key header plain = .error e) :
    e = .protocol .decryptionFailed := by
  rw [Session.sealPayload_eq] at h
  split at h
  · injection h with h
    exact h.symm
  · cases h

theorem sendPacket_tooLarge_iff {sendTo : Bytes → SocketAddr → Except TransportError Nat}
    (haccepts : ∀ data dest, ∃ n, sendTo data dest = .ok n) (s : Session) (header : PacketHeader)
    (wire : Bytes) (peer : SocketAddr) :
    (∃ e, (s.sendPacket sendTo header wire peer).1 = .error e ∧ TooLarge e) ↔
      ¬(wire.length ≤ maxPayloadSize ∧ headerSize + wire.length + 4 ≤ s.config.mtu) := by
  have hok := s.sendPacket_ok_iff sendTo header wire peer
  constructor
  · rintro ⟨e, herror, -⟩ ⟨hsize, hmtu⟩
    rw [hok.mpr ⟨hsize, hmtu, haccepts _ _⟩] at herror
    cases herror
  · intro hroom
    cases hencode : Session.encodePacket s.config.mtu header wire with
    | error e =>
      refine ⟨.protocol e, by simp only [Session.sendPacket, hencode], ?_⟩
      obtain rfl | rfl := Session.encodePacket_error hencode <;> trivial
    | ok data =>
      obtain ⟨hsize, hmtu, -⟩ := Session.encodePacket_ok hencode
      exact absurd ⟨hsize, hmtu⟩ hroom

theorem sendAudio_sealed {peer : SocketAddr} {wire : Bytes} (hactive : s.state.state = .active)
    (hpeer : s.peer = some peer) (hkey : s.encryptKey = some key)
    (hseal : Session.sealPayload aead key (Session.encryptedHeader .audioFrame s.txSequence
      s.sessionId env.audioClock) (Session.prefixed s.audioTxSeq payload) = .ok wire) :
    (s.sendAudio aead env payload).1 =
      ({ s with audioTxSeq := s.audioTxSeq + 1, txSequence := s.txSequence + 1 }.sendPacket
        env.sendTo (Session.encryptedHeader .audioFrame s.txSequence s.sessionId env.audioClock)
          wire peer).1 := by
  simp only [Session.sendAudio, hactive, hpeer, ne_eq, not_true_eq_false, if_false,
    Session.audioPacket, hkey, hseal, Except.map]
  split
  · rename_i hsend
    rw [hsend]
  · rename_i hsend
    rw [hsend]

theorem sendAudio_unsealed {e : TransportError} (hactive : s.state.state = .active)
    (hkey : s.encryptKey = some key) (herror : (s.sendAudio aead env payload).1 = .error e)
    (hunsealed : ¬Sealed aead key env s payload) : ¬TooLarge e := by
  cases hpeer : s.peer with
  | none =>
    simp only [Session.sendAudio, hactive, hpeer, ne_eq, not_true_eq_false, if_false] at herror
    cases herror
    exact id
  | some peer =>
    cases hseal : Session.sealPayload aead key
        (Session.encryptedHeader .audioFrame s.txSequence s.sessionId env.audioClock)
        (Session.prefixed s.audioTxSeq payload) with
    | ok wire => exact absurd ⟨by rw [hpeer]; exact Option.some_ne_none _, wire, hseal⟩ hunsealed
    | error e =>
      simp only [Session.sendAudio, hactive, hpeer, ne_eq, not_true_eq_false, if_false,
        Session.audioPacket, hkey, hseal, Except.map] at herror
      cases herror
      rw [sealPayload_error hseal]
      exact id

theorem sendAudio_tooLarge_iff (hactive : s.state.state = .active) (hkey : s.encryptKey = some key)
    (haccepts : ∀ data dest, ∃ n, env.sendTo data dest = .ok n) :
    (∃ e, (s.sendAudio aead env payload).1 = .error e ∧ TooLarge e) ↔
      Sealed aead key env s payload ∧ ¬Session.Room s.config.mtu (4 + payload.length) := by
  by_cases hsealed : Sealed aead key env s payload
  · rw [and_iff_right hsealed]
    obtain ⟨hpeer, wire, hseal⟩ := hsealed
    obtain ⟨peer, hpeer⟩ := Option.ne_none_iff_exists'.mp hpeer
    have hlength : wire.length = 4 + payload.length + tagSize := by
      rw [Session.length_sealPayload hseal]
      simp [Session.prefixed]
    rw [sendAudio_sealed hactive hpeer hkey hseal, sendPacket_tooLarge_iff haccepts, hlength]
    rfl
  · refine iff_of_false ?_ fun h => hsealed h.1
    rintro ⟨e, herror, hlarge⟩
    exact sendAudio_unsealed hactive hkey herror hsealed hlarge

end Sending

namespace CodecSession
variable {ω : Type} [Encoder ω] [Decoder ω] {opus : Option (OpusCodec ω)} {config : Config}
  {cs : CodecSession (AnyCodec ω) (AnyCodec ω)} {aead : Aead} {env : SendEnv} {key : SessionKey}
  {samples : List Int16}

/-- A call failed because something was too small for the frame: the scratch buffer, a payload or a
packet. -/
def SizeRefused : Except CodecSessionError Unit → Prop
  | .error (.codec (.bufferTooSmall _ _)) => True
  | .error (.transport e) => TooLarge e
  | _ => False

def pcmCodec (config : Config) : PcmCodec :=
  ⟨config.sampleRate, config.channels, config.frameDurationMs⟩

/-- The bytes of a frame fit the scratch buffer, and a packet if the call gets that far. -/
structure Fits (config : Config) (aead : Aead) (key : SessionKey) (env : SendEnv) (s : Session)
    (samples : List Int16) : Prop where
  scratch : (pcmCodec config).wireBytes ≤ max config.mtu 1500
  packet : Sealed aead key env s (pcmBytes samples) →
    Session.Room config.mtu (4 + (pcmCodec config).wireBytes)

omit [Decoder ω] in
theorem sendSamples_small (h : Built config cs)
    (hlength : samples.length = (pcmCodec config).totalSamples)
    (hsmall : max config.mtu 1500 < (pcmCodec config).wireBytes) :
    (cs.sendSamples aead env samples).1 = .error (.codec (.bufferTooSmall
      (pcmCodec config).wireBytes (max config.mtu 1500))) := by
  have hencode := @PcmCodec.encode_small (pcmCodec config) samples
    (List.replicate (max config.mtu 1500) 0) hlength (by rwa [List.length_replicate])
  rw [List.length_replicate] at hencode
  simp only [sendSamples, h.encoder, h.mtu, encode_pcm]
  rw [show PcmCodec.mk config.sampleRate config.channels config.frameDurationMs =
    pcmCodec config from rfl, hencode]

omit [Decoder ω] in
theorem sendSamples_result (h : Built config cs)
    (hlength : samples.length = (pcmCodec config).totalSamples)
    (hroom : (pcmCodec config).wireBytes ≤ max config.mtu 1500) :
    (cs.sendSamples aead env samples).1 =
      (cs.inner.sendAudio aead env (pcmBytes samples)).1.mapError .transport := by
  have hencode := @PcmCodec.encode_eq (pcmCodec config) samples
    (List.replicate (max config.mtu 1500) 0) hlength (by rwa [List.length_replicate])
  have htake : (overwrite (List.replicate (max config.mtu 1500) 0) 0 (pcmBytes samples)).take
      (pcmCodec config).wireBytes = pcmBytes samples :=
    take_overwrite_zero _ _ _ (by rw [length_pcmBytes, hlength]; rfl)
  simp only [sendSamples, h.encoder, h.mtu, encode_pcm]
  rw [show PcmCodec.mk config.sampleRate config.channels config.frameDurationMs =
    pcmCodec config from rfl, hencode]
  simp only [htake]
  split
  · rename_i hsend
    rw [hsend]
    rfl
  · rename_i hsend
    rw [hsend]
    rfl

/-- A frame of the codec's own size is refused for its size exactly if it does not fit. -/
theorem sendSamples_refused_iff (hreached : Reached opus config .pcm cs)
    (hactive : cs.inner.state.state = .active) (hkey : cs.inner.encryptKey = some key)
    (haccepts : ∀ data dest, ∃ n, env.sendTo data dest = .ok n)
    (hlength : samples.length = cs.frameSamples * cs.channels.toNat) :
    ¬SizeRefused (cs.sendSamples aead env samples).1 ↔
      Fits config aead key env cs.inner samples := by
  have hbuilt := hreached.built
  have htotal : samples.length = (pcmCodec config).totalSamples := by
    rw [hlength, hbuilt.frameSamples, hbuilt.channels]
    rfl
  have hwire : (pcmBytes samples).length = (pcmCodec config).wireBytes := by
    rw [length_pcmBytes, htotal]
    rfl
  by_cases hscratch : (pcmCodec config).wireBytes ≤ max config.mtu 1500
  · have hlarge := @sendAudio_tooLarge_iff cs.inner aead env key (pcmBytes samples) hactive hkey
      haccepts
    rw [hbuilt.innerMtu, hwire] at hlarge
    have hrefused : SizeRefused (cs.sendSamples aead env samples).1 ↔
        ∃ e, (cs.inner.sendAudio aead env (pcmBytes samples)).1 = .error e ∧ TooLarge e := by
      rw [sendSamples_result hbuilt htotal hscratch]
      cases (cs.inner.sendAudio aead env (pcmBytes samples)).1 <;>
        simp [Except.mapError, SizeRefused]
    rw [hrefused, hlarge, not_and_not_right]
    exact ⟨fun h => ⟨hscratch, h⟩, fun h => h.packet⟩
  · rw [sendSamples_small hbuilt htotal (Nat.not_le.mp hscratch)]
    exact iff_of_false (fun h => h trivial) fun h => hscratch h.scratch

theorem reached_established (opus : Option (OpusCodec ω)) {config : Config}
    (hnew : (Session.new (configFor config .pcm)).isSome) (peer : SocketAddr)
    (key : SessionKey) :
    ∃ cs, Reached opus config .pcm cs ∧ cs.inner.state.state = .active ∧
      cs.inner.encryptKey = some key := by
  obtain ⟨inner, hinner⟩ := Option.isSome_iff_exists.mp hnew
  have hmade : ∃ cs, CodecSession.new opus config .pcm = some (.ok cs) := by
    simp only [CodecSession.new, buildPair, hinner, Option.map_some]
    exact ⟨_, rfl⟩
  obtain ⟨cs, hcs⟩ := hmade
  exact ⟨_, (Reached.new hcs).inner (cs.inner.establish peer 7 1 key key) rfl, rfl, rfl⟩

private def openEnv : SendEnv := ⟨0, 0, fun data _ => .ok data.length⟩

private def zeroKey : SessionKey := Vector.replicate 32 0

private def tenMs : Config := { Config.default with frameDurationMs := 10 }

theorem tenMs_frame_sent : ∃ cs, Reached (none : Option (OpusCodec PcmCodec)) tenMs .pcm cs ∧
    ¬SizeRefused (cs.sendSamples .transparent openEnv (List.replicate 480 0)).1 := by
  obtain ⟨cs, hreached, hactive, hkey⟩ := @reached_established PcmCodec _ _ none tenMs (by decide)
    (.v4 0 0) zeroKey
  have hlength : (List.replicate 480 (0 : Int16)).length = cs.frameSamples * cs.channels.toNat := by
    rw [hreached.built.frameSamples, hreached.built.channels, List.length_replicate]
    decide
  refine ⟨cs, hreached, ?_⟩
  exact (@sendSamples_refused_iff PcmCodec _ _ none tenMs cs .transparent openEnv zeroKey _ hreached
    hactive hkey (fun data _ => ⟨data.length, rfl⟩) hlength).mpr ⟨by decide, fun _ => by decide⟩

/-- The default configuration: 20 ms of mono at 48 kHz are 1920 bytes. -/
theorem default_frame_refused : ∃ cs,
    Reached (none : Option (OpusCodec PcmCodec)) Config.default .pcm cs ∧
      cs.inner.state.state = .active ∧ cs.inner.encryptKey = some zeroKey ∧
      (List.replicate 960 (0 : Int16)).length = cs.frameSamples * cs.channels.toNat ∧
      (cs.sendSamples .transparent openEnv (List.replicate 960 0)).1 =
        .error (.codec (.bufferTooSmall 1920 1500)) ∧
      SizeRefused (cs.sendSamples .transparent openEnv (List.replicate 960 0)).1 := by
  obtain ⟨cs, hreached, hactive, hkey⟩ := @reached_established PcmCodec _ _ none Config.default
    (by decide) (.v4 0 0) zeroKey
  have hlength : (List.replicate 960 (0 : Int16)).length = cs.frameSamples * cs.channels.toNat := by
    rw [hreached.built.frameSamples, hreached.built.channels, List.length_replicate]
    decide
  have hrefused : (cs.sendSamples .transparent openEnv (List.replicate 960 0)).1 =
      .error (.codec (.bufferTooSmall 1920 1500)) :=
    sendSamples_small hreached.built (by rw [List.length_replicate]; decide) (by decide)
  exact ⟨cs, hreached, hactive, hkey, hlength, hrefused, by rw [hrefused]; trivial⟩

end CodecSession

end GravitalTalk.Facade
