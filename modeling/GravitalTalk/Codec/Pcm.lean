import GravitalTalk.Lib.Bytes

/-! Codecs behind the `Encoder` and `Decoder` traits: PCM, signed 16-bit little-endian without
compression, and a place for Opus. -/
namespace GravitalTalk.Codec
open Lib

inductive CodecId where
  | pcm
  | opus
  | other (code : UInt8)
  deriving DecidableEq, Repr

namespace CodecId

def code : CodecId → UInt8
  | .pcm => 0x01
  | .opus => 0x02
  | .other code => code

end CodecId

inductive CodecError where
  | bufferTooSmall (needed available : Nat)
  | frameSizeMismatch (expected got : Nat)
  | invalidParams (reason : String)
  | unsupported (id : CodecId)
  | backend (reason : String)
  deriving DecidableEq, Repr

class Encoder (ε : Type) where
  /-- Samples of one frame, for each channel. -/
  frameSamples : ε → Nat
  encode : ε → List Int16 → Bytes → Except CodecError Nat × ε × Bytes

class Decoder (δ : Type) where
  decode : δ → Bytes → List Int16 → Except CodecError Nat × δ × List Int16

def le16 (sample : Int16) : Bytes := (be16 sample.toUInt16).reverse

def fromLe16 (bytes : Bytes) : Int16 := (fromBe16 bytes.reverse).toInt16

@[simp] theorem length_le16 (sample : Int16) : (le16 sample).length = 2 := by simp [le16]

@[simp] theorem fromLe16_le16 (sample : Int16) : fromLe16 (le16 sample) = sample := by
  simp [fromLe16, le16]

structure PcmCodec where
  sampleRate : UInt32
  channels : UInt8
  frameDurationMs : UInt8
  deriving DecidableEq, Repr

namespace PcmCodec

/-- The products below stay under `2 ^ 49`. -/
def samplesPerChannel (self : PcmCodec) : Nat :=
  self.sampleRate.toNat * self.frameDurationMs.toNat / 1000

def totalSamples (self : PcmCodec) : Nat := self.samplesPerChannel * self.channels.toNat

def wireBytes (self : PcmCodec) : Nat := self.totalSamples * 2

def encode (self : PcmCodec) (pcm : List Int16) (out : Bytes) : Except CodecError Nat × Bytes :=
  if pcm.length ≠ self.totalSamples then
    (.error (.frameSizeMismatch self.totalSamples pcm.length), out)
  else if out.length < self.wireBytes then
    (.error (.bufferTooSmall self.wireBytes out.length), out)
  else
    (.ok self.wireBytes,
      pcm.zipIdx.foldl (fun out sample => overwrite out (sample.2 * 2) (le16 sample.1)) out)

def decode (self : PcmCodec) (bytes : Bytes) (pcm : List Int16) :
    Except CodecError Nat × List Int16 :=
  if bytes.length % 2 ≠ 0 then (.error (.invalidParams "PCM payload length not even"), pcm)
  else
    let samples := bytes.length / 2
    if pcm.length < samples then (.error (.bufferTooSmall samples pcm.length), pcm)
    else
      (.ok (samples / max self.channels.toNat 1),
        (List.range samples).foldl (fun pcm i => pcm.set i (fromLe16 (slice bytes (i * 2) 2))) pcm)

end PcmCodec

instance : Encoder PcmCodec where
  frameSamples := PcmCodec.samplesPerChannel
  encode self pcm out := ((self.encode pcm out).1, self, (self.encode pcm out).2)

instance : Decoder PcmCodec where
  decode self bytes pcm := ((self.decode bytes pcm).1, self, (self.decode bytes pcm).2)

inductive AnyCodec (ω : Type) where
  | pcm (codec : PcmCodec)
  | opus (codec : ω)

instance {ω : Type} [Encoder ω] : Encoder (AnyCodec ω) where
  frameSamples
    | .pcm codec => Encoder.frameSamples codec
    | .opus codec => Encoder.frameSamples codec
  encode
    | .pcm codec, pcm, out =>
      let (result, codec, out) := Encoder.encode codec pcm out
      (result, .pcm codec, out)
    | .opus codec, pcm, out =>
      let (result, codec, out) := Encoder.encode codec pcm out
      (result, .opus codec, out)

instance {ω : Type} [Decoder ω] : Decoder (AnyCodec ω) where
  decode
    | .pcm codec, bytes, pcm =>
      let (result, codec, pcm) := Decoder.decode codec bytes pcm
      (result, .pcm codec, pcm)
    | .opus codec, bytes, pcm =>
      let (result, codec, pcm) := Decoder.decode codec bytes pcm
      (result, .opus codec, pcm)

@[simp] theorem encode_pcm {ω : Type} [Encoder ω] (codec : PcmCodec) (pcm : List Int16)
    (out : Bytes) : Encoder.encode (.pcm codec : AnyCodec ω) pcm out =
      ((codec.encode pcm out).1, .pcm codec, (codec.encode pcm out).2) := rfl

@[simp] theorem decode_pcm {ω : Type} [Decoder ω] (codec : PcmCodec) (bytes : Bytes)
    (pcm : List Int16) : Decoder.decode (.pcm codec : AnyCodec ω) bytes pcm =
      ((codec.decode bytes pcm).1, .pcm codec, (codec.decode bytes pcm).2) := rfl

structure OpusCodec (ω : Type) where
  newEncoder : UInt32 → UInt8 → UInt8 → Except CodecError ω
  newDecoder : UInt32 → UInt8 → UInt8 → Except CodecError ω

/-- Without the feature `opus` there is no wrapper. -/
def buildPair {ω : Type} (opus : Option (OpusCodec ω)) (id : CodecId) (sampleRate : UInt32)
    (channels frameDurationMs : UInt8) : Except CodecError (AnyCodec ω × AnyCodec ω) :=
  match id, opus with
  | .pcm, _ =>
    let codec : PcmCodec := ⟨sampleRate, channels, frameDurationMs⟩
    .ok (.pcm codec, .pcm codec)
  | .opus, some opus => do
    let encoder ← opus.newEncoder sampleRate channels frameDurationMs
    let decoder ← opus.newDecoder sampleRate channels frameDurationMs
    return (.opus encoder, .opus decoder)
  | .opus, none => .error (.unsupported id)
  | .other _, _ => .error (.unsupported id)

def pcmBytes (pcm : List Int16) : Bytes := pcm.flatMap le16

@[simp] theorem length_pcmBytes (pcm : List Int16) : (pcmBytes pcm).length = pcm.length * 2 := by
  simp [pcmBytes, List.length_flatMap]

def pcmSamples (bytes : Bytes) : List Int16 :=
  (List.range (bytes.length / 2)).map fun i => fromLe16 (slice bytes (i * 2) 2)

@[simp] theorem length_pcmSamples (bytes : Bytes) :
    (pcmSamples bytes).length = bytes.length / 2 := by
  simp [pcmSamples]

theorem pcmSamples_pcmBytes (pcm : List Int16) : pcmSamples (pcmBytes pcm) = pcm := by
  induction pcm with
  | nil => rfl
  | cons sample pcm ih =>
    have hshift : ∀ i, slice (pcmBytes (sample :: pcm)) ((i + 1) * 2) 2 =
        slice (pcmBytes pcm) (i * 2) 2 := by
      intro i
      have hskip : List.drop ((i + 1) * 2) (le16 sample) = [] :=
        List.drop_of_length_le (by rw [length_le16]; omega)
      rw [slice, slice, pcmBytes, List.flatMap_cons, List.drop_append, hskip, length_le16,
        show (i + 1) * 2 - 2 = i * 2 by omega, List.nil_append]
      rfl
    have hhead : slice (pcmBytes (sample :: pcm)) (0 * 2) 2 = le16 sample := by
      simp [slice, pcmBytes]
    have hcount : (pcmBytes (sample :: pcm)).length / 2 = (pcmBytes pcm).length / 2 + 1 := by
      simp
    rw [pcmSamples, hcount, List.range_succ_eq_map, List.map_cons, hhead, fromLe16_le16,
      List.map_map]
    simp only [Function.comp_def, Nat.succ_eq_add_one, hshift]
    exact congrArg (sample :: ·) ih

theorem writes_eq (pcm : List Int16) {out : Bytes} (h : pcm.length * 2 ≤ out.length) :
    pcm.zipIdx.foldl (fun out sample => overwrite out (sample.2 * 2) (le16 sample.1)) out =
      overwrite out 0 (pcmBytes pcm) := by
  induction pcm using List.reverseRecOn with
  | nil => simp [overwrite, pcmBytes]
  | append_singleton pcm sample ih =>
    rw [List.length_append, List.length_singleton] at h
    have hnext : pcm.length * 2 = 0 + (pcmBytes pcm).length := by rw [length_pcmBytes, Nat.zero_add]
    rw [List.zipIdx_append, List.foldl_append, ih (by omega)]
    simp only [List.zipIdx_singleton, List.foldl_cons, List.foldl_nil, Nat.zero_add]
    rw [overwrite_overwrite hnext (by omega)]
    simp [pcmBytes]

theorem sets_eq (f : Nat → Int16) (pcm : List Int16) {samples : Nat} (h : samples ≤ pcm.length) :
    (List.range samples).foldl (fun pcm i => pcm.set i (f i)) pcm =
      (List.range samples).map f ++ pcm.drop samples := by
  induction samples with
  | zero => simp
  | succ samples ih =>
    have hdrop : pcm.drop samples = pcm.get ⟨samples, h⟩ :: pcm.drop (samples + 1) :=
      List.drop_eq_getElem_cons h
    rw [List.range_succ, List.foldl_append, ih (by omega), List.map_append, hdrop]
    simp only [List.foldl_cons, List.foldl_nil, List.map_cons, List.map_nil]
    rw [List.set_append_right _ _ (by simp)]
    simp only [List.length_map, List.length_range, Nat.sub_self, List.set_cons_zero,
      List.append_assoc, List.singleton_append]

namespace PcmCodec
variable {self : PcmCodec} {pcm : List Int16}

theorem encode_eq {out : Bytes} (hlength : pcm.length = self.totalSamples)
    (hroom : self.wireBytes ≤ out.length) :
    self.encode pcm out = (.ok self.wireBytes, overwrite out 0 (pcmBytes pcm)) := by
  have hfits : pcm.length * 2 ≤ out.length := by rwa [hlength]
  rw [encode, if_neg (not_not.mpr hlength), if_neg (Nat.not_lt.mpr hroom), writes_eq pcm hfits]

theorem encode_small {out : Bytes} (hlength : pcm.length = self.totalSamples)
    (hroom : out.length < self.wireBytes) :
    self.encode pcm out = (.error (.bufferTooSmall self.wireBytes out.length), out) := by
  rw [encode, if_neg (not_not.mpr hlength), if_pos hroom]

theorem decode_eq {bytes : Bytes} (heven : bytes.length % 2 = 0)
    (hroom : bytes.length / 2 ≤ pcm.length) :
    self.decode bytes pcm = (.ok (bytes.length / 2 / max self.channels.toNat 1),
      pcmSamples bytes ++ pcm.drop (bytes.length / 2)) := by
  rw [decode, if_neg (not_not.mpr heven)]
  simp only
  rw [if_neg (Nat.not_lt.mpr hroom), sets_eq _ _ hroom]
  rfl

theorem decode_encode {out : Bytes} {buf : List Int16} (hlength : pcm.length = self.totalSamples)
    (hout : self.wireBytes ≤ out.length) (hbuf : pcm.length ≤ buf.length) :
    self.decode ((self.encode pcm out).2.take self.wireBytes) buf =
      (.ok (pcm.length / max self.channels.toNat 1), pcm ++ buf.drop pcm.length) := by
  have hbytes : (self.encode pcm out).2.take self.wireBytes = pcmBytes pcm := by
    rw [encode_eq hlength hout, take_overwrite_zero _ _ _ (by rw [length_pcmBytes, hlength]; rfl)]
  have hhalf : (pcmBytes pcm).length / 2 = pcm.length := by rw [length_pcmBytes]; omega
  rw [hbytes, decode_eq (by rw [length_pcmBytes]; omega) (by rwa [hhalf]), hhalf,
    pcmSamples_pcmBytes]

end PcmCodec

end GravitalTalk.Codec
