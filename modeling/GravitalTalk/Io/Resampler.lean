import GravitalTalk.Lib.Framing
import GravitalTalk.Lib.Greedy

/-! Resampling of audio: samples wait, channel by channel, until the library's resampler has as many as
it needs for its next block. -/
namespace GravitalTalk.Io
open Lib

/-- `rubato::FftFixedOut<f32>`. -/
structure Rubato (ρ : Type) where
  new : Nat → Nat → Nat → Nat → Nat → Except String ρ
  inputFramesNext : ρ → Nat
  /-- The text of an error, if there is one, and what the output buffers hold after the call. -/
  processIntoBuffer : ρ → List (List Float32) → List (List Float32) →
    Option String × ρ × List (List Float32)

inductive IoError where
  | unsupportedConfig (text : String)
  deriving DecidableEq, Repr

structure Resampler (ρ : Type) where
  inner : ρ
  inRate : UInt32
  outRate : UInt32
  channels : Nat
  outFramesPerChannel : Nat
  inF32 : List (List Float32)
  outF32 : List (List Float32)
  pendingIn : List (List Float32)

namespace Resampler
variable {ρ : Type} (rubato : Rubato ρ)

def new (inRate outRate : UInt32) (channels : UInt8) (outFramesPerChannel : Nat) :
    Except IoError (Resampler ρ) :=
  if channels = 0 then .error (.unsupportedConfig "zero channels")
  else
    let channels := channels.toNat
    match rubato.new inRate.toNat outRate.toNat outFramesPerChannel 2 channels with
    | .error e => .error (.unsupportedConfig ("rubato init: " ++ e))
    | .ok inner =>
      .ok ⟨inner, inRate, outRate, channels, outFramesPerChannel, List.replicate channels [],
        List.replicate channels (List.replicate outFramesPerChannel 0), List.replicate channels []⟩

def outBlockSize (self : Resampler ρ) : Nat := self.outFramesPerChannel * self.channels

/-- `sample as f32 / i16::MAX as f32` -/
def toF32 (sample : Int16) : Float32 := Float32.ofInt sample.toInt / Float32.ofInt 32767

/-- `(v.clamp(-1.0, 1.0) * i16::MAX as f32) as i16` -/
def toI16 (v : Float32) : Int16 :=
  let v := if v < -1 then -1 else if v > 1 then 1 else v
  (v * Float32.ofInt 32767).toInt16

def pushFrame (pendingIn : List (List Float32)) (frame : List Int16) : List (List Float32) :=
  List.zipWith (fun pending sample => pending ++ [toF32 sample]) pendingIn frame

def interleave (channels frames : Nat) (out : List (List Float32)) : List Int16 :=
  (List.range frames).flatMap fun i =>
    (List.range channels).map fun ch => toI16 ((out.getD ch []).getD i 0)

/-- One turn of the loop of `push` when there is enough input. -/
def turn (self : Resampler ρ) : Except IoError (List Int16) × Resampler ρ :=
  let needed := rubato.inputFramesNext self.inner
  let inF32 := self.pendingIn.map (·.take needed)
  let pendingIn := self.pendingIn.map (·.drop needed)
  let (failed, inner, outF32) := rubato.processIntoBuffer self.inner inF32 self.outF32
  let self := { self with inner := inner, inF32 := inF32, outF32 := outF32, pendingIn := pendingIn }
  match failed with
  | some e => (.error (.unsupportedConfig ("rubato process: " ++ e)), self)
  | none => (.ok (interleave self.channels self.outFramesPerChannel outF32), self)

/-- `none` if the loop is still running after so many turns. -/
def loop : Nat → Resampler ρ → List Int16 → Option (Except IoError (List Int16) × Resampler ρ)
  | 0, _, _ => none
  | turns + 1, self, outConcat =>
    if (self.pendingIn.headD []).length < rubato.inputFramesNext self.inner then
      some (.ok outConcat, self)
    else
      match self.turn rubato with
      | (.ok block, self) => loop turns self (outConcat ++ block)
      | (.error e, self) => some (.error e, self)

def push (turns : Nat) (samplesIn : List Int16) (self : Resampler ρ) :
    Option (Except IoError (List Int16) × Resampler ρ) :=
  if samplesIn.length % self.channels ≠ 0 then
    some (.error (.unsupportedConfig ("input length " ++ samplesIn.length.repr ++
      " not multiple of channels " ++ self.channels.repr)), self)
  else
    let pendingIn := (Framing.frames self.channels samplesIn).foldl pushFrame self.pendingIn
    loop rubato turns { self with pendingIn := pendingIn } []

def PushEnds (self : Resampler ρ) (samplesIn out : List Int16) (last : Resampler ρ) : Prop :=
  ∃ turns, self.push rubato turns samplesIn = some (.ok out, last)

inductive PushesEnd : Resampler ρ → List (List Int16) → List Int16 → Resampler ρ → Prop where
  | nil {self : Resampler ρ} : PushesEnd self [] [] self
  | cons {self next last : Resampler ρ} {slice out more : List Int16} {slices : List (List Int16)}
      (hpush : self.PushEnds rubato slice out next) (hrest : PushesEnd next slices more last) :
      PushesEnd self (slice :: slices) (out ++ more) last

def columns (channels : Nat) (frames : List (List Int16)) : List (List Float32) :=
  (List.range channels).map fun ch => frames.map fun frame => toF32 (frame.getD ch 0)

def atop (self : Resampler ρ) (queue : List (List Int16)) : Resampler ρ :=
  { self with pendingIn := columns self.channels queue }

section Columns
variable {channels n : Nat} {queue : List (List Int16)}

theorem map_take_columns : (columns channels queue).map (·.take n) = columns channels (queue.take n) := by
  simp [columns, Function.comp_def, List.map_take]

theorem map_drop_columns : (columns channels queue).map (·.drop n) = columns channels (queue.drop n) := by
  simp [columns, Function.comp_def, List.map_drop]

theorem length_headD_columns (h : 0 < channels) :
    ((columns channels queue).headD []).length = queue.length := by
  obtain ⟨k, rfl⟩ := Nat.exists_eq_succ_of_ne_zero (Nat.ne_of_gt h)
  simp [columns, List.range_succ_eq_map]

theorem pushFrame_columns {frame : List Int16} (h : frame.length = channels) :
    pushFrame (columns channels queue) frame = columns channels (queue ++ [frame]) := by
  apply List.ext_getElem
  · simp [pushFrame, columns, h]
  · intro ch hch _
    have hframe : ch < frame.length := by
      simp only [pushFrame, columns, List.length_zipWith, List.length_map, List.length_range] at hch
      omega
    simp [pushFrame, columns, hframe]

theorem foldl_pushFrame {frames : List (List Int16)} (h : ∀ frame ∈ frames, frame.length = channels) :
    frames.foldl pushFrame (columns channels queue) = columns channels (queue ++ frames) := by
  induction frames generalizing queue with
  | nil => simp
  | cons frame frames ih =>
    rw [List.forall_mem_cons] at h
    rw [List.foldl_cons, pushFrame_columns h.1, ih h.2, List.append_assoc]
    rfl

end Columns

def machine : Greedy.Machine (Resampler ρ) (List Int16) Int16 where
  need self := rubato.inputFramesNext self.inner
  turn self frames :=
    match (self.atop frames).turn rubato with
    | (.ok block, self) => some (block, self.atop [])
    | (.error _, _) => none

section Turns
variable {rubato} {self next last : Resampler ρ} {queue left : List (List Int16)}
  {block out : List Int16} {turns : Nat}

/-- A turn sees only the frames it takes. -/
theorem turn_atop (self : Resampler ρ) (queue : List (List Int16)) :
    (self.atop queue).turn rubato =
      ((self.atop (queue.take (rubato.inputFramesNext self.inner))).turn rubato).map id
        (·.atop (queue.drop (rubato.inputFramesNext self.inner))) := by
  simp only [turn, atop, map_take_columns, map_drop_columns, List.take_take, Nat.min_self]
  split <;> rfl

theorem turn_channels (self : Resampler ρ) : ((self.turn rubato).2).channels = self.channels := by
  simp only [turn]
  split <;> rfl

theorem length_interleave (channels frames : Nat) (buffers : List (List Float32)) :
    (interleave channels frames buffers).length = frames * channels := by
  simp [interleave, List.length_flatMap]

theorem turn_block {after : Resampler ρ} (h : self.turn rubato = (.ok block, after)) :
    block.length = self.outBlockSize ∧ after.outBlockSize = self.outBlockSize := by
  simp only [turn] at h
  split at h
  · cases h
  · obtain ⟨hblock, rfl⟩ := Prod.mk.inj h
    rw [← Except.ok.inj hblock]
    exact ⟨length_interleave _ _ _, rfl⟩

theorem machine_turn_iff (frames : List (List Int16)) :
    (machine rubato).turn self frames = some (block, next) ↔
      ∃ after, (self.atop frames).turn rubato = (.ok block, after) ∧ next = after.atop [] := by
  simp only [machine]
  cases hturn : (self.atop frames).turn rubato with
  | mk result after =>
    cases result with
    | ok made => simp [eq_comm]
    | error e => simp

theorem turn_of_machine (hturn : (machine rubato).turn self
      (queue.take ((machine rubato).need self)) = some (block, next)) :
    (self.atop queue).turn rubato =
      (.ok block, next.atop (queue.drop ((machine rubato).need self))) ∧
        next.channels = self.channels := by
  obtain ⟨after, hafter, rfl⟩ := (machine_turn_iff _).mp hturn
  constructor
  · exact (turn_atop self queue).trans (congrArg (Prod.map id _) hafter)
  · have hchannels := @turn_channels ρ rubato
      (self.atop (queue.take ((machine rubato).need self)))
    rwa [hafter] at hchannels

theorem machine_of_turn {after : Resampler ρ}
    (hturn : (self.atop queue).turn rubato = (.ok block, after)) :
    ∃ next, (machine rubato).turn self (queue.take ((machine rubato).need self)) =
        some (block, next) ∧ next.channels = self.channels ∧
          after = next.atop (queue.drop ((machine rubato).need self)) := by
  have hatop := @turn_atop ρ rubato self queue
  rw [hturn] at hatop
  generalize hone : (self.atop (queue.take (rubato.inputFramesNext self.inner))).turn rubato =
    result at hatop
  obtain ⟨made, next⟩ := result
  obtain ⟨rfl, rfl⟩ := Prod.mk.inj hatop
  refine ⟨next.atop [], (machine_turn_iff _).mpr ⟨next, hone, rfl⟩, ?_, rfl⟩
  have hchannels := @turn_channels ρ rubato
    (self.atop (queue.take (rubato.inputFramesNext self.inner)))
  rwa [hone] at hchannels

theorem loop_of_drains (hchannels : 0 < self.channels)
    (h : Greedy.Drains (machine rubato) self queue block last left) (out : List Int16) :
    ∃ turns, loop rubato turns (self.atop queue) out = some (.ok (out ++ block), last.atop left) := by
  induction h generalizing out with
  | stop hshort =>
    refine ⟨1, ?_⟩
    rw [loop, if_pos, List.append_nil]
    change ((columns _ _).headD []).length < _
    rw [length_headD_columns hchannels]
    exact hshort
  | turn hfull hturn _ ih =>
    obtain ⟨hone, hsame⟩ := turn_of_machine hturn
    obtain ⟨turns, hturns⟩ := ih (hsame ▸ hchannels) (out ++ _)
    refine ⟨turns + 1, ?_⟩
    rw [loop, if_neg, hone]
    · rw [← List.append_assoc]
      exact hturns
    · change ¬((columns _ _).headD []).length < _
      rw [length_headD_columns hchannels]
      exact Nat.not_lt.mpr hfull

theorem drains_of_loop (hchannels : 0 < self.channels)
    (h : loop rubato turns (self.atop queue) out = some (.ok block, last)) :
    ∃ more next left, Greedy.Drains (machine rubato) self queue more next left ∧
      block = out ++ more ∧ last = Resampler.atop next left := by
  induction turns generalizing self queue out with
  | zero => cases h
  | succ turns ih =>
    have hlength : (((self.atop queue).pendingIn).headD []).length = queue.length :=
      length_headD_columns hchannels
    rw [loop] at h
    split_ifs at h with hshort
    · injection h with h
      injection h with hblock hlast
      injection hblock with hblock
      refine ⟨[], self, queue, .stop (hlength ▸ hshort), ?_, hlast.symm⟩
      rw [← hblock, List.append_nil]
    · have hfull : (machine rubato).need self ≤ queue.length := by
        rw [hlength] at hshort
        exact Nat.not_lt.mp hshort
      generalize hone : (self.atop queue).turn rubato = result at h
      obtain ⟨made | made, after⟩ := result
      · cases h
      · obtain ⟨next, hnext, hsame, rfl⟩ := machine_of_turn hone
        obtain ⟨more, last, left, hdrains, rfl, rfl⟩ := ih (hsame ▸ hchannels) h
        exact ⟨made ++ more, last, left, .turn hfull hnext hdrains, List.append_assoc _ _ _, rfl⟩

theorem drains_channels (h : Greedy.Drains (machine rubato) self queue block last left) :
    last.channels = self.channels := by
  induction h with
  | stop => rfl
  | turn _ hturn _ ih => exact ih.trans (turn_of_machine hturn).2

theorem drains_blocks (h : Greedy.Drains (machine rubato) self queue block last left) :
    self.outBlockSize ∣ block.length := by
  induction h with
  | stop => exact Nat.dvd_zero _
  | turn _ hturn _ ih =>
    obtain ⟨after, hafter, rfl⟩ := (machine_turn_iff _).mp hturn
    obtain ⟨hblock, hsame⟩ := turn_block hafter
    rw [List.length_append, hblock]
    exact Nat.dvd_add (Nat.dvd_refl _) (hsame ▸ ih)

theorem pushEnds_iff {samplesIn : List Int16} (hchannels : 0 < self.channels)
    (hwhole : samplesIn.length % self.channels = 0) :
    (self.atop queue).PushEnds rubato samplesIn out last ↔
      ∃ next left, Greedy.Drains (machine rubato) self
        (queue ++ Framing.frames self.channels samplesIn) out next left ∧
          last = Resampler.atop next left := by
  have hpush : ∀ turns, (self.atop queue).push rubato turns samplesIn =
      loop rubato turns (self.atop (queue ++ Framing.frames self.channels samplesIn)) [] := by
    intro turns
    have hframes : ∀ frame ∈ Framing.frames self.channels samplesIn, frame.length = self.channels :=
      fun _ hframe => Framing.length_of_mem_frames hframe
    have hpending : (Framing.frames self.channels samplesIn).foldl pushFrame
        (columns self.channels queue) =
          columns self.channels (queue ++ Framing.frames self.channels samplesIn) :=
      foldl_pushFrame hframes
    have hmod : ¬samplesIn.length % (self.atop queue).channels ≠ 0 := not_not.mpr hwhole
    rw [push, if_neg hmod]
    exact congrArg (fun pendingIn => loop rubato turns { self with pendingIn := pendingIn } []) hpending
  constructor
  · rintro ⟨turns, hturns⟩
    rw [hpush] at hturns
    obtain ⟨more, next, left, hdrains, rfl, rfl⟩ := drains_of_loop hchannels hturns
    exact ⟨next, left, hdrains, rfl⟩
  · rintro ⟨next, left, hdrains, rfl⟩
    obtain ⟨turns, hturns⟩ := loop_of_drains hchannels hdrains []
    exact ⟨turns, (hpush turns).trans hturns⟩

theorem pushesEnd_iff {slices : List (List Int16)} (hchannels : 0 < self.channels)
    (hwhole : ∀ slice ∈ slices, slice.length % self.channels = 0) :
    (self.atop queue).PushesEnd rubato slices out last ↔
      ∃ next left, Greedy.Feeds (machine rubato) self queue
        (slices.map (Framing.frames self.channels)) out next left ∧
          last = Resampler.atop next left := by
  induction slices generalizing self queue out with
  | nil =>
    constructor
    · rintro ⟨⟩
      exact ⟨self, queue, .nil, rfl⟩
    · rintro ⟨_, _, ⟨⟩, rfl⟩
      exact .nil
  | cons slice slices ih =>
    rw [List.forall_mem_cons] at hwhole
    constructor
    · intro h
      cases h with
      | cons hpush hrest =>
        obtain ⟨next, between, hdrains, rfl⟩ := (pushEnds_iff hchannels hwhole.1).mp hpush
        have hsame := drains_channels hdrains
        obtain ⟨last, left, hfeeds, rfl⟩ := (ih (hsame ▸ hchannels) (hsame ▸ hwhole.2)).mp hrest
        exact ⟨last, left, .cons hdrains (hsame ▸ hfeeds), rfl⟩
    · rintro ⟨last, left, hfeeds, rfl⟩
      cases hfeeds with
      | cons hdrains hrest =>
        have hsame := drains_channels hdrains
        refine .cons ((pushEnds_iff hchannels hwhole.1).mpr ⟨_, _, hdrains, rfl⟩) ?_
        exact (ih (hsame ▸ hchannels) (hsame ▸ hwhole.2)).mpr ⟨last, left, hsame ▸ hrest, rfl⟩

end Turns

theorem new_eq_ok {rubato : Rubato ρ} {inRate outRate : UInt32} {channels : UInt8}
    {outFramesPerChannel : Nat} {self : Resampler ρ}
    (h : new rubato inRate outRate channels outFramesPerChannel = .ok self) :
    0 < self.channels ∧ self.channels = channels.toNat ∧ self = self.atop [] := by
  unfold new at h
  split_ifs at h with hzero
  dsimp only at h
  split at h
  · cases h
  · obtain rfl := Except.ok.inj h
    refine ⟨?_, rfl, ?_⟩
    · exact Nat.pos_of_ne_zero fun hnone => hzero (UInt8.toNat_inj.mp hnone)
    · have hcolumns : ∀ n, List.replicate n [] = columns n [] := by
        intro n
        simp [columns]
      exact congrArg (fun pendingIn => Resampler.mk _ _ _ _ _ _ _ pendingIn) (hcolumns _)

/-- However the input is cut into calls, of whole frames each, the calls return together what one call
with all of it returns, and leave the resampler in the same state.  Each ends with less waiting than the
next block needs, in every channel alike, and returns whole blocks. -/
theorem resampler_ignores_slices (rubato : Rubato ρ) {inRate outRate : UInt32} {channels : UInt8}
    {outFramesPerChannel : Nat} {self : Resampler ρ}
    (hnew : new rubato inRate outRate channels outFramesPerChannel = .ok self)
    {slices : List (List Int16)} (hne : slices ≠ [])
    (hwhole : ∀ slice ∈ slices, slice.length % channels.toNat = 0) (out : List Int16)
    (last : Resampler ρ) :
    (self.PushesEnd rubato slices out last ↔ self.PushEnds rubato slices.flatten out last) ∧
      (self.PushesEnd rubato slices out last → self.outBlockSize ∣ out.length ∧
        ∃ waiting < rubato.inputFramesNext last.inner,
          ∀ pending ∈ last.pendingIn, pending.length = waiting) := by
  obtain ⟨hchannels, hsame, hempty⟩ := new_eq_ok hnew
  rw [← hsame] at hwhole
  have hflat := Framing.length_flatten_mod hwhole
  have hmap : slices.map (Framing.frames self.channels) ≠ [] := by simpa using hne
  have hiff : self.PushesEnd rubato slices out last ↔ self.PushEnds rubato slices.flatten out last := by
    rw [hempty, pushesEnd_iff hchannels hwhole, pushEnds_iff hchannels hflat]
    simp only [Greedy.feeds_iff_drains hmap, Framing.frames_flatten hchannels hwhole]
  refine ⟨hiff, fun hpushes => ?_⟩
  have hpush := hiff.mp hpushes
  rw [hempty, pushEnds_iff hchannels hflat] at hpush
  obtain ⟨next, left, hdrains, rfl⟩ := hpush
  refine ⟨drains_blocks hdrains, left.length, hdrains.short, fun pending hpending => ?_⟩
  obtain ⟨ch, -, rfl⟩ := List.mem_map.mp hpending
  exact List.length_map _

private def silentPairs : Rubato Unit where
  new _ _ _ _ _ := .ok ()
  inputFramesNext _ := 2
  processIntoBuffer _ buffers _ := (none, (), buffers)

theorem resampler_ignores_slices_silence :
    ∃ (self last : Resampler Unit) (out : List Int16),
      new silentPairs 48000 48000 1 2 = .ok self ∧ out.length = 2 ∧
        self.PushesEnd silentPairs [[0], [0, 0]] out last ∧
        self.PushEnds silentPairs [0, 0, 0] out last := by
  have hpush : (Resampler.mk () 48000 48000 1 2 [[]] [[0, 0]] [[]]).PushEnds silentPairs [0, 0, 0]
      [toI16 (toF32 0), toI16 (toF32 0)]
      (Resampler.mk () 48000 48000 1 2 [[toF32 0, toF32 0]] [[toF32 0, toF32 0]] [[toF32 0]]) :=
    ⟨2, rfl⟩
  have hslices : _ ↔ _ := (@resampler_ignores_slices Unit silentPairs 48000 48000 1 2 _ rfl
    [[0], [0, 0]] (by decide) (by decide) [toI16 (toF32 0), toI16 (toF32 0)]
    ⟨(), 48000, 48000, 1, 2, [[toF32 0, toF32 0]], [[toF32 0, toF32 0]], [[toF32 0]]⟩).1
  exact ⟨_, _, _, rfl, rfl, hslices.mpr hpush, hpush⟩

end Resampler
end GravitalTalk.Io
