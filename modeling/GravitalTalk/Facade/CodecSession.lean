import GravitalTalk.Codec.Pcm
import GravitalTalk.Transport.Send

/-! A session with a codec on top: samples in and samples out.  What `recv_audio` returns, and what it
does to the session, is the outside's. -/
namespace GravitalTalk.Facade
open Lib GravitalTalk.Core Codec Transport

inductive CodecSessionError where
  | transport (error : TransportError)
  | codec (error : CodecError)
  deriving DecidableEq, Repr

structure CodecSession (ε δ : Type) where
  inner : Session
  encoder : ε
  decoder : δ
  channels : UInt8
  frameSamples : Nat
  mtu : Nat
  /-- `u32::MAX` until a frame has been received. -/
  lastRxSeq : UInt32
  /-- What later calls return before they go to the network. -/
  plcQueue : List (List Int16)

namespace CodecSession

/-- The handshake asks for the codec of the session, and accepts it. -/
def configFor (config : Config) (codec : CodecId) : Config :=
  { config with
    codecPreferred := codec.code
    supportedCodecs :=
      if config.supportedCodecs.contains codec.code then config.supportedCodecs
      else codec.code :: config.supportedCodecs }

/-- `none` is a panic of the session's constructor. -/
def new {ω : Type} [Encoder ω] (opus : Option (OpusCodec ω)) (config : Config) (codec : CodecId) :
    Option (Except CodecSessionError (CodecSession (AnyCodec ω) (AnyCodec ω))) :=
  match buildPair opus codec config.sampleRate config.channels config.frameDurationMs with
  | .error e => some (.error (.codec e))
  | .ok (encoder, decoder) =>
    (Session.new (configFor config codec)).map fun inner =>
      .ok {
        inner := inner
        encoder := encoder
        decoder := decoder
        channels := config.channels
        frameSamples := Encoder.frameSamples encoder
        mtu := config.mtu
        lastRxSeq := 0xFFFFFFFF
        plcQueue := [] }

def decodeFrame {δ : Type} [Decoder δ] (expected channels : Nat) (decoder : δ) (frame : Frame) :
    Except CodecError (List Int16) × δ :=
  match Decoder.decode decoder frame.payload (List.replicate (max expected 5760) 0) with
  | (.error e, decoder, _) => (.error e, decoder)
  | (.ok produced, decoder, pcm) => (.ok (pcm.take (produced * channels)), decoder)

section Calls
variable {ε δ : Type} (self : CodecSession ε δ)

def sendSamples [Encoder ε] (aead : Aead) (env : SendEnv) (samples : List Int16) :
    Except CodecSessionError Unit × CodecSession ε δ × List Sent :=
  match Encoder.encode self.encoder samples (List.replicate (max self.mtu 1500) 0) with
  | (.error e, encoder, _) => (.error (.codec e), { self with encoder := encoder }, [])
  | (.ok n, encoder, out) =>
    match self.inner.sendAudio aead env (out.take n) with
    | (.error e, inner, sent) =>
      (.error (.transport e), { self with encoder := encoder, inner := inner }, sent)
    | (.ok (), inner, sent) => (.ok (), { self with encoder := encoder, inner := inner }, sent)

def expected : Nat := self.frameSamples * self.channels.toNat

def silence : List Int16 := List.replicate self.expected 0

/-- How many frames are missing before the one of the given sequence. -/
def gap (sequence : UInt32) : UInt32 :=
  if self.lastRxSeq = 0xFFFFFFFF then 0
  else
    let step := sequence - self.lastRxSeq
    if step = 0 then 0 else step - 1

def playFrame [Decoder δ] (frame : Frame) :
    Except CodecSessionError (List Int16) × CodecSession ε δ :=
  let gap := self.gap frame.sequence
  let (result, decoder) := decodeFrame self.expected self.channels.toNat self.decoder frame
  let self := { self with lastRxSeq := frame.sequence, decoder := decoder }
  match result with
  | .error e => (.error (.codec e), self)
  | .ok pcm =>
    if gap = 0 then (.ok pcm, self)
    else
      let queue := self.plcQueue ++ List.replicate (min gap.toNat 4) self.silence ++ [pcm]
      (.ok (queue.headD []), { self with plcQueue := queue.tail })

/-- A call, given what `recv_audio` is going to return, one answer after the other; `none` if it
still waits for the next. -/
def recvSamples [Decoder δ] (recv : List (Except TransportError Frame)) :
    Option (Except CodecSessionError (List Int16) × CodecSession ε δ ×
      List (Except TransportError Frame)) :=
  match self.plcQueue, recv with
  | pcm :: queue, recv => some (.ok pcm, { self with plcQueue := queue }, recv)
  | [], [] => none
  | [], .error e :: recv => some (.error (.transport e), self, recv)
  | [], .ok frame :: recv =>
    let (result, self) := self.playFrame frame
    some (result, self, recv)

end Calls

/-- A session some time after `new`: a handshake, a receive or anything else that leaves the
configuration alone may come in between. -/
inductive Reached {ω : Type} [Encoder ω] [Decoder ω] (opus : Option (OpusCodec ω)) (config : Config)
    (codec : CodecId) : CodecSession (AnyCodec ω) (AnyCodec ω) → Prop where
  | new {self} (hnew : CodecSession.new opus config codec = some (.ok self)) :
      Reached opus config codec self
  | inner {self} (h : Reached opus config codec self) (session : Session)
      (hconfig : session.config = self.inner.config) :
      Reached opus config codec { self with inner := session }
  | sends {self} (h : Reached opus config codec self) (aead : Aead) (env : SendEnv)
      (samples : List Int16) : Reached opus config codec (self.sendSamples aead env samples).2.1
  | receives {self} (h : Reached opus config codec self) {recv rest result next}
      (hrecv : self.recvSamples recv = some (result, next, rest)) :
      Reached opus config codec next

section Invariant
variable {ω : Type} {config : Config}

structure Built (config : Config) (cs : CodecSession (AnyCodec ω) (AnyCodec ω)) : Prop where
  encoder : cs.encoder = .pcm ⟨config.sampleRate, config.channels, config.frameDurationMs⟩
  channels : cs.channels = config.channels
  frameSamples : cs.frameSamples =
    PcmCodec.samplesPerChannel ⟨config.sampleRate, config.channels, config.frameDurationMs⟩
  mtu : cs.mtu = config.mtu
  innerMtu : cs.inner.config.mtu = config.mtu

theorem session_new_config {config : Config} {session : Session}
    (h : Session.new config = some session) : session.config = config := by
  simp only [Session.new, bind, Option.bind_eq_some_iff] at h
  obtain ⟨jitter, -, congestion, -, h⟩ := h
  cases h
  rfl

theorem new_built {opus : Option (OpusCodec ω)} [Encoder ω]
    {self : CodecSession (AnyCodec ω) (AnyCodec ω)}
    (h : CodecSession.new opus config .pcm = some (.ok self)) : Built config self := by
  simp only [CodecSession.new, buildPair, Option.map_eq_some_iff] at h
  obtain ⟨inner, hinner, h⟩ := h
  injection h with h
  subst h
  have hmtu : inner.config.mtu = config.mtu := by rw [session_new_config hinner]; rfl
  exact ⟨rfl, rfl, rfl, rfl, hmtu⟩

section Calls
variable {self : CodecSession (AnyCodec ω) (AnyCodec ω)}

theorem Built.sendSamples [Encoder ω] (h : Built config self) (aead : Aead) (env : SendEnv)
    (samples : List Int16) : Built config (self.sendSamples aead env samples).2.1 := by
  obtain ⟨hencoder, hchannels, hframe, hmtu, hinner⟩ := h
  simp only [CodecSession.sendSamples, hencoder, encode_pcm]
  generalize PcmCodec.encode _ samples (List.replicate (max self.mtu 1500) 0) = encoded
  obtain ⟨result, out⟩ := encoded
  cases result with
  | error e => exact ⟨rfl, hchannels, hframe, hmtu, hinner⟩
  | ok n =>
    have hconfig := self.inner.sendAudio_config aead env (out.take n)
    simp only
    split
    · rename_i hsend
      rw [hsend] at hconfig
      exact ⟨rfl, hchannels, hframe, hmtu, by rw [hconfig]; exact hinner⟩
    · rename_i hsend
      rw [hsend] at hconfig
      exact ⟨rfl, hchannels, hframe, hmtu, by rw [hconfig]; exact hinner⟩

theorem Built.recvSamples [Decoder ω] (h : Built config self)
    {recv rest : List (Except TransportError Frame)}
    {result : Except CodecSessionError (List Int16)}
    {next : CodecSession (AnyCodec ω) (AnyCodec ω)}
    (hrecv : self.recvSamples recv = some (result, next, rest)) : Built config next := by
  obtain ⟨hencoder, hchannels, hframe, hmtu, hinner⟩ := h
  have hplay : ∀ frame, Built config (self.playFrame frame).2 := by
    intro frame
    unfold playFrame
    simp only
    split
    · exact ⟨hencoder, hchannels, hframe, hmtu, hinner⟩
    · split_ifs <;> exact ⟨hencoder, hchannels, hframe, hmtu, hinner⟩
  unfold CodecSession.recvSamples at hrecv
  split at hrecv
  · cases hrecv
    exact ⟨hencoder, hchannels, hframe, hmtu, hinner⟩
  · cases hrecv
  · cases hrecv
    exact ⟨hencoder, hchannels, hframe, hmtu, hinner⟩
  · cases hrecv
    exact hplay _

theorem Reached.built [Encoder ω] [Decoder ω] {opus : Option (OpusCodec ω)}
    (h : Reached opus config .pcm self) : Built config self := by
  induction h with
  | new hnew => exact new_built hnew
  | inner _ session hconfig ih =>
    exact ⟨ih.encoder, ih.channels, ih.frameSamples, ih.mtu, by rw [hconfig]; exact ih.innerMtu⟩
  | sends _ aead env samples ih => exact ih.sendSamples aead env samples
  | receives _ hrecv ih => exact ih.recvSamples hrecv

end Calls

end Invariant

end CodecSession

end GravitalTalk.Facade
