import GravitalTalk.Facade.CodecSession
import GravitalTalk.Lib.Batching

/-! What `recv_samples` makes of the frames that arrive: each as it decodes, behind silence for those
that are missing. -/
namespace GravitalTalk.Facade
open Lib GravitalTalk.Core Codec Transport Batching

namespace CodecSession

section Calls
variable {ε δ : Type} [Decoder δ]

def recvCalls : Nat → CodecSession ε δ → List (Except TransportError Frame) →
    List (Except CodecSessionError (List Int16))
  | 0, _, _ => []
  | n + 1, self, recv =>
    match self.recvSamples recv with
    | none => []
    | some (result, self, recv) => result :: recvCalls n self recv

structure Decoded where
  sequence : UInt32
  pcm : List Int16

def decodeAll (expected channels : Nat) : δ → List Frame → Except CodecError (List Decoded)
  | _, [] => .ok []
  | decoder, frame :: frames =>
    match decodeFrame expected channels decoder frame with
    | (.error e, _) => .error e
    | (.ok pcm, decoder) =>
      (decodeAll expected channels decoder frames).map fun rest => ⟨frame.sequence, pcm⟩ :: rest

end Calls

def missing (prev sequence : UInt32) : Nat := min ((sequence - prev).toNat - 1) 4

def concealedAfter (silence : List Int16) : UInt32 → List Decoded → List (List Int16)
  | _, [] => []
  | prev, frame :: frames =>
    List.replicate (missing prev frame.sequence) silence ++
      frame.pcm :: concealedAfter silence frame.sequence frames

def concealed (silence : List Int16) : List Decoded → List (List Int16)
  | [] => []
  | frame :: frames => frame.pcm :: concealedAfter silence frame.sequence frames

/-- No frame that carries the sentinel for its sequence is followed by a gap, unless nothing but
silence comes after it. -/
def Noticed (silence : List Int16) : List Decoded → Prop
  | [] => True
  | frame :: frames =>
    (frame.sequence = 0xFFFFFFFF → ∀ next ∈ frames.head?, 0 < missing frame.sequence next.sequence →
      ∀ later ∈ frames, later.pcm = silence) ∧ Noticed silence frames

def inserted (prev sequence : UInt32) : Nat :=
  if prev = 0xFFFFFFFF then 0 else missing prev sequence

def behindSilence (silence : List Int16) (pcm : List Int16) : Nat → List Int16 × List (List Int16)
  | 0 => (pcm, [])
  | n + 1 => (silence, List.replicate n silence ++ [pcm])

def plays (silence : List Int16) (prev : UInt32) (frame : Decoded) :
    (List Int16 × List (List Int16)) × UInt32 :=
  (behindSilence silence frame.pcm (inserted prev frame.sequence), frame.sequence)

theorem behindSilence_cons (silence pcm : List Int16) (n : Nat) :
    (behindSilence silence pcm n).1 :: (behindSilence silence pcm n).2 =
      List.replicate n silence ++ [pcm] := by
  cases n <;> rfl

theorem stream_cons (silence : List Int16) (prev : UInt32) (frame : Decoded)
    (frames : List Decoded) :
    stream (plays silence) prev (frame :: frames) =
      List.replicate (inserted prev frame.sequence) silence ++
        frame.pcm :: stream (plays silence) frame.sequence frames := by
  have hcons := behindSilence_cons silence frame.pcm (inserted prev frame.sequence)
  rw [stream, plays, hcons, List.append_assoc, List.singleton_append]

section Reading
variable {ε δ : Type} [Decoder δ] {cs : CodecSession ε δ} {frame : Frame} {decoder : δ}
  {pcm : List Int16}

omit [Decoder δ] in
theorem min_gap (cs : CodecSession ε δ) (sequence : UInt32) :
    min (cs.gap sequence).toNat 4 = inserted cs.lastRxSeq sequence := by
  unfold gap inserted missing
  split_ifs with hfirst
  · rfl
  · simp only
    split_ifs with hstep
    · rw [hstep]
      rfl
    · have hpos : (sequence - cs.lastRxSeq).toNat ≠ 0 := fun h => hstep (UInt32.toNat_inj.mp h)
      have hone : (1 : UInt32) ≤ sequence - cs.lastRxSeq :=
        UInt32.le_iff_toNat_le.mpr (Nat.one_le_iff_ne_zero.mpr hpos)
      rw [UInt32.toNat_sub_of_le _ _ hone]
      rfl

theorem playFrame_eq (hqueue : cs.plcQueue = [])
    (hdecode : decodeFrame cs.expected cs.channels.toNat cs.decoder frame = (.ok pcm, decoder)) :
    cs.playFrame frame =
      (.ok (plays cs.silence cs.lastRxSeq ⟨frame.sequence, pcm⟩).1.1,
        { cs with
          lastRxSeq := frame.sequence
          decoder := decoder
          plcQueue := (plays cs.silence cs.lastRxSeq ⟨frame.sequence, pcm⟩).1.2 }) := by
  have hgap := cs.min_gap frame.sequence
  simp only [playFrame, hdecode, plays]
  split_ifs with hzero
  · rw [hzero] at hgap
    rw [← hgap]
    simp only [UInt32.toNat_zero, Nat.zero_min, behindSilence, ← hqueue]
  · have hpos : (cs.gap frame.sequence).toNat ≠ 0 := fun h => hzero (UInt32.toNat_inj.mp h)
    obtain ⟨n, hn⟩ := Nat.exists_eq_succ_of_ne_zero
      (show min (cs.gap frame.sequence).toNat 4 ≠ 0 by omega)
    rw [hn] at hgap ⊢
    rw [← hgap]
    simp only [hqueue, behindSilence, Nat.succ_eq_add_one, List.replicate_succ, List.nil_append,
      List.cons_append, List.headD_cons, List.tail_cons]
    rfl

theorem decodeAll_cons {expected channels : Nat} {frames : List Frame} {heard : List Decoded}
    (h : decodeAll expected channels decoder (frame :: frames) = .ok heard) :
    ∃ pcm next rest, decodeFrame expected channels decoder frame = (.ok pcm, next) ∧
      decodeAll expected channels next frames = .ok rest ∧
        heard = ⟨frame.sequence, pcm⟩ :: rest := by
  unfold decodeAll at h
  split at h
  · cases h
  · rename_i pcm next hdecode
    cases hrest : decodeAll expected channels next frames with
    | error e =>
      rw [hrest] at h
      cases h
    | ok rest =>
      rw [hrest] at h
      cases h
      exact ⟨pcm, next, rest, hdecode, hrest, rfl⟩

theorem recvCalls_eq (n : Nat) {cs : CodecSession ε δ} {frames : List Frame} {heard : List Decoded}
    (hdecodes : decodeAll cs.expected cs.channels.toNat cs.decoder frames = .ok heard) :
    cs.recvCalls n (frames.map .ok) =
      (Reader.reads (plays cs.silence) n ⟨cs.plcQueue, cs.lastRxSeq, heard⟩).map .ok := by
  induction n generalizing cs frames heard with
  | zero => rfl
  | succ n ih =>
    cases hqueue : cs.plcQueue with
    | cons pcm queue =>
      have hnext := @ih { cs with plcQueue := queue } frames heard hdecodes
      simp only [recvCalls, recvSamples, hqueue, Reader.reads, Reader.read, hnext, List.map_cons]
      rfl
    | nil =>
      cases frames with
      | nil =>
        cases hdecodes
        simp only [recvCalls, recvSamples, hqueue, List.map_nil, Reader.reads, Reader.read]
      | cons frame frames =>
        obtain ⟨pcm, next, rest, hframe, hrest, rfl⟩ := decodeAll_cons hdecodes
        have hplay := playFrame_eq hqueue hframe
        have hnext := @ih (cs.playFrame frame).2 frames rest (by rw [hplay]; exact hrest)
        simp only [recvCalls, recvSamples, hqueue, List.map_cons, Reader.reads, Reader.read, hnext]
        rw [hplay]
        rfl

end Reading

section Law
variable {silence : List Int16}

theorem noticed_silent {frames : List Decoded} (h : ∀ frame ∈ frames, frame.pcm = silence) :
    Noticed silence frames := by
  induction frames with
  | nil => trivial
  | cons frame frames ih =>
    have hrest := fun f hf => h f (List.mem_cons_of_mem _ hf)
    exact ⟨fun _ _ _ _ => hrest, ih hrest⟩

theorem inserted_le (prev sequence : UInt32) : inserted prev sequence ≤ missing prev sequence := by
  unfold inserted
  split_ifs
  · exact Nat.zero_le _
  · exact Nat.le_refl _

theorem stream_padded (prev : UInt32) (frames : List Decoded) :
    Padded silence (stream (plays silence) prev frames) (concealedAfter silence prev frames) := by
  induction frames generalizing prev with
  | nil => exact .nil
  | cons frame frames ih =>
    rw [stream_cons, concealedAfter]
    exact (ih frame.sequence).replicate frame.pcm (inserted_le prev frame.sequence)

/-- A gap costs no frame, noticed or not. -/
theorem frames_padded (prev : UInt32) (frames : List Decoded) :
    Padded silence (frames.map Decoded.pcm) (stream (plays silence) prev frames) := by
  induction frames generalizing prev with
  | nil => exact .nil
  | cons frame frames ih =>
    rw [stream_cons]
    exact .cons _ frame.pcm (ih frame.sequence)

theorem stream_silent_iff (prev : UInt32) (frames : List Decoded) :
    (∀ pcm ∈ stream (plays silence) prev frames, pcm = silence) ↔
      ∀ frame ∈ frames, frame.pcm = silence := by
  induction frames generalizing prev with
  | nil => simp [stream]
  | cons frame frames ih =>
    rw [stream_cons, List.forall_mem_append, List.forall_mem_cons, List.forall_mem_cons, ih]
    exact and_iff_right fun pcm hpcm => List.eq_of_mem_replicate hpcm

/-- From any frame on, the stream is a beginning of the law's exactly if no later gap is taken for
the start, and neither is the next. -/
theorem stream_prefix_iff (prev : UInt32) (frames : List Decoded) :
    stream (plays silence) prev frames <+: concealedAfter silence prev frames ↔
      (prev = 0xFFFFFFFF → ∀ next ∈ frames.head?, 0 < missing prev next.sequence →
        ∀ later ∈ frames, later.pcm = silence) ∧ Noticed silence frames := by
  induction frames generalizing prev with
  | nil => exact iff_of_true (List.prefix_refl _) ⟨fun _ _ h => absurd h nofun, trivial⟩
  | cons frame frames ih =>
    rw [List.head?_cons]
    by_cases hlost : prev = 0xFFFFFFFF ∧ 0 < missing prev frame.sequence
    · obtain ⟨hprev, hgap⟩ := hlost
      have hinserted : inserted prev frame.sequence = 0 := by rw [inserted, if_pos hprev]
      have hstream := stream_cons silence prev frame frames
      rw [hinserted, List.replicate_zero, List.nil_append] at hstream
      have hpadded := Padded.cons 0 frame.pcm
        (@stream_padded silence frame.sequence frames)
      have hsilent := @stream_silent_iff silence prev (frame :: frames)
      rw [hstream] at hsilent ⊢
      rw [concealedAfter]
      refine (hpadded.prefix_iff hgap).trans (hsilent.trans ⟨fun h => ?_, fun h => ?_⟩)
      · exact ⟨fun _ _ _ _ => h, noticed_silent h⟩
      · exact h.1 hprev frame rfl hgap
    · have hinserted : inserted prev frame.sequence = missing prev frame.sequence := by
        unfold inserted
        split_ifs with hprev
        · exact (Nat.eq_zero_of_not_pos fun hgap => hlost ⟨hprev, hgap⟩).symm
        · rfl
      rw [stream_cons, concealedAfter, hinserted, List.prefix_append_right_inj,
        List.cons_prefix_cons, and_iff_right rfl, ih]
      refine (and_iff_right ?_).symm
      intro hprev next hnext hgap
      cases hnext
      exact absurd ⟨hprev, hgap⟩ hlost

end Law

structure Fresh {ε δ : Type} (cs : CodecSession ε δ) : Prop where
  lastRxSeq : cs.lastRxSeq = 0xFFFFFFFF
  plcQueue : cs.plcQueue = []

theorem new_fresh {ω : Type} [Encoder ω] {opus : Option (OpusCodec ω)} {config : Config}
    {codec : CodecId} {cs : CodecSession (AnyCodec ω) (AnyCodec ω)}
    (h : CodecSession.new opus config codec = some (.ok cs)) : cs.Fresh := by
  unfold CodecSession.new at h
  split at h
  · cases h
  · obtain ⟨inner, -, h⟩ := Option.map_eq_some_iff.mp h
    cases h
    exact ⟨rfl, rfl⟩

theorem stream_concealed_iff (silence : List Int16) (frames : List Decoded) :
    stream (plays silence) 0xFFFFFFFF frames <+: concealed silence frames ↔
      Noticed silence frames := by
  cases frames with
  | nil => exact iff_of_true (List.prefix_refl _) trivial
  | cons frame frames =>
    have hfirst : inserted 0xFFFFFFFF frame.sequence = 0 := if_pos rfl
    rw [stream_cons, hfirst, List.replicate_zero, List.nil_append, concealed, List.cons_prefix_cons,
      and_iff_right rfl, stream_prefix_iff]
    rfl

/-- What is left of the law when a gap goes unnoticed: no frame is lost, repeated or moved, silence is
all that is added, and enough calls return them all. -/
theorem frames_returned {ε δ : Type} [Decoder δ] {cs : CodecSession ε δ} (hfresh : cs.Fresh)
    {frames : List Frame} {heard : List Decoded}
    (hdecodes : decodeAll cs.expected cs.channels.toNat cs.decoder frames = .ok heard) :
    ∃ returned, Padded cs.silence (heard.map Decoded.pcm) returned ∧
      ∀ n, returned.length ≤ n → cs.recvCalls n (frames.map .ok) = returned.map .ok := by
  refine ⟨stream (plays cs.silence) cs.lastRxSeq heard, ?_, fun n hn => ?_⟩
  · exact frames_padded cs.lastRxSeq heard
  · rw [recvCalls_eq n hdecodes, reads_eq, hfresh.plcQueue, List.nil_append,
      List.take_of_length_le hn]

/-- Calls return the frames in order, with the silence owed between them, exactly if no gap follows
a frame that carries the sentinel for its sequence. -/
theorem concealment_iff {ε δ : Type} [Decoder δ] {cs : CodecSession ε δ} (hfresh : cs.Fresh)
    {frames : List Frame} {heard : List Decoded}
    (hdecodes : decodeAll cs.expected cs.channels.toNat cs.decoder frames = .ok heard) :
    (∀ n, ∃ returned, cs.recvCalls n (frames.map .ok) = returned.map .ok ∧
      returned <+: concealed cs.silence heard) ↔ Noticed cs.silence heard := by
  have hreads := @reads_prefix_iff _ _ _ (plays cs.silence) ⟨cs.plcQueue, cs.lastRxSeq, heard⟩
    (concealed cs.silence heard)
  rw [hfresh.plcQueue, hfresh.lastRxSeq, List.nil_append, stream_concealed_iff] at hreads
  rw [← hreads]
  refine forall_congr' fun n => ?_
  rw [recvCalls_eq n hdecodes, hfresh.plcQueue, hfresh.lastRxSeq]
  constructor
  · rintro ⟨returned, hmap, hbegins⟩
    rwa [(List.map_injective_iff.mpr fun _ _ h => Except.ok.inj h) hmap]
  · intro h
    exact ⟨_, rfl, h⟩

section Pcm
variable {ω : Type} [Decoder ω] {codec : PcmCodec} {expected : Nat}

def Whole (codec : PcmCodec) (expected : Nat) (frame : Frame) : Prop :=
  0 < codec.channels.toNat ∧ 2 * codec.channels.toNat ∣ frame.payload.length ∧
    frame.payload.length / 2 ≤ max expected 5760

theorem decodeFrame_pcm {frame : Frame} (h : Whole codec expected frame) :
    decodeFrame expected codec.channels.toNat (.pcm codec : AnyCodec ω) frame =
      (.ok (pcmSamples frame.payload), .pcm codec) := by
  obtain ⟨hchannels, ⟨k, hk⟩, hroom⟩ := h
  have hhalf : frame.payload.length / 2 = codec.channels.toNat * k := by
    rw [hk, Nat.mul_assoc, Nat.mul_div_cancel_left _ (Nat.succ_pos 1)]
  have heven : frame.payload.length % 2 = 0 := by
    rw [hk, Nat.mul_assoc, Nat.mul_mod_right]
  have hproduced : frame.payload.length / 2 / max codec.channels.toNat 1 * codec.channels.toNat =
      frame.payload.length / 2 := by
    rw [Nat.max_eq_left hchannels, hhalf, Nat.mul_div_cancel_left _ hchannels, Nat.mul_comm]
  have hdecode := @PcmCodec.decode_eq codec (List.replicate (max expected 5760) 0) frame.payload
    heven (by rwa [List.length_replicate])
  have htake : (pcmSamples frame.payload ++ (List.replicate (max expected 5760) (0 : Int16)).drop
      (frame.payload.length / 2)).take (frame.payload.length / 2) = pcmSamples frame.payload := by
    rw [List.take_append_of_le_length (by rw [length_pcmSamples]),
      List.take_of_length_le (by rw [length_pcmSamples])]
  simp only [decodeFrame, decode_pcm, hdecode, hproduced, htake]

theorem decodeAll_pcm {frames : List Frame} (h : ∀ frame ∈ frames, Whole codec expected frame) :
    decodeAll expected codec.channels.toNat (.pcm codec : AnyCodec ω) frames =
      .ok (frames.map fun frame => ⟨frame.sequence, pcmSamples frame.payload⟩) := by
  induction frames with
  | nil => rfl
  | cons frame frames ih =>
    rw [List.forall_mem_cons] at h
    rw [decodeAll, decodeFrame_pcm h.1]
    simp only [ih h.2]
    rfl

end Pcm

private def sampleFrame (sequence : UInt32) (sample : Int16) : Frame :=
  ⟨sequence, 0, pcmBytes [sample]⟩

private theorem default_session :
    ∃ cs : CodecSession (AnyCodec PcmCodec) (AnyCodec PcmCodec),
      CodecSession.new none Config.default .pcm = some (.ok cs) ∧
        cs.silence = List.replicate 960 0 ∧
          ∀ sequences : List (UInt32 × Int16), decodeAll cs.expected cs.channels.toNat cs.decoder
            (sequences.map fun f => sampleFrame f.1 f.2) =
              .ok (sequences.map fun f => ⟨f.1, [f.2]⟩) := by
  obtain ⟨inner, hinner⟩ := Option.isSome_iff_exists.mp
    (show (Session.new (configFor Config.default .pcm)).isSome by decide)
  refine ⟨_, by simp only [CodecSession.new, buildPair, hinner, Option.map_some]; rfl, rfl, ?_⟩
  intro frames
  have hwhole : ∀ frame ∈ frames.map fun f => sampleFrame f.1 f.2,
      Whole ⟨48000, 1, 20⟩ 960 frame := by
    intro frame hframe
    obtain ⟨f, -, rfl⟩ := List.mem_map.mp hframe
    have hlength : (sampleFrame f.1 f.2).payload.length = 2 := length_pcmBytes [f.2]
    exact ⟨by decide, by rw [hlength]; decide, by rw [hlength]; decide⟩
  have hdecodes := @decodeAll_pcm PcmCodec _ ⟨48000, 1, 20⟩ 960 _ hwhole
  simp only [List.map_map, Function.comp_def, sampleFrame, pcmSamples_pcmBytes] at hdecodes ⊢
  exact hdecodes

/-- One frame is missing, and one frame of silence stands in for it. -/
theorem concealment_one : ∃ cs : CodecSession (AnyCodec PcmCodec) (AnyCodec PcmCodec),
    CodecSession.new none Config.default .pcm = some (.ok cs) ∧
      ∀ n, ∃ returned, cs.recvCalls n ([sampleFrame 5 1, sampleFrame 7 2].map .ok) =
        returned.map .ok ∧ returned <+: [[1], List.replicate 960 0, [2]] := by
  obtain ⟨cs, hnew, hsilence, hdecodes⟩ := default_session
  have hlaw : concealed cs.silence [⟨5, [1]⟩, ⟨7, [2]⟩] = [[1], List.replicate 960 0, [2]] := by
    rw [hsilence]
    rfl
  refine ⟨cs, hnew,
    hlaw ▸ (concealment_iff (new_fresh hnew) (hdecodes [(5, 1), (7, 2)])).mpr ?_⟩
  exact ⟨nofun, nofun, trivial⟩

/-- Two frames are missing behind the one of sequence `u32::MAX`, and nothing stands in for them. -/
theorem sentinel_gap_unnoticed : ∃ cs : CodecSession (AnyCodec PcmCodec) (AnyCodec PcmCodec),
    CodecSession.new none Config.default .pcm = some (.ok cs) ∧
      decodeAll cs.expected cs.channels.toNat cs.decoder
        [sampleFrame 0xFFFFFFFF 1, sampleFrame 2 2] = .ok [⟨0xFFFFFFFF, [1]⟩, ⟨2, [2]⟩] ∧
      cs.recvCalls 2 ([sampleFrame 0xFFFFFFFF 1, sampleFrame 2 2].map .ok) =
        [.ok [1], .ok [2]] ∧
      ¬[[1], [2]] <+: concealed cs.silence [⟨0xFFFFFFFF, [1]⟩, ⟨2, [2]⟩] := by
  obtain ⟨cs, hnew, hsilence, hdecodes⟩ := default_session
  have hheard := hdecodes [(0xFFFFFFFF, 1), (2, 2)]
  have hfresh := new_fresh hnew
  refine ⟨cs, hnew, hheard, ?_, ?_⟩
  · have hcalls := @recvCalls_eq _ _ _ 2 cs _ _ hheard
    rw [hfresh.plcQueue, hfresh.lastRxSeq] at hcalls
    exact hcalls
  · have hlaw : concealed cs.silence [⟨0xFFFFFFFF, [1]⟩, ⟨2, [2]⟩] =
        [[1], List.replicate 960 0, List.replicate 960 0, [2]] := by
      rw [hsilence]
      rfl
    rw [hlaw]
    intro h
    have hhead := (List.cons_prefix_cons.mp (List.cons_prefix_cons.mp h).2).1
    have hlength := congrArg List.length hhead
    rw [List.length_replicate] at hlength
    exact absurd hlength (by decide)

end CodecSession

end GravitalTalk.Facade
