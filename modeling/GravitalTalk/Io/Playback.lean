import GravitalTalk.Io.CaptureFraming
import GravitalTalk.Lib.Transition

/-! Playback of audio: frames go through a channel to a thread that puts them in a buffer, from which the
callbacks of the device take what they play.  A step of the thread or of a callback is what it does
while it holds the lock. -/
namespace GravitalTalk.Io
open Lib Framing Transition

structure Playback where
  /-- Sent and not received yet. -/
  channel : List (List Int16)
  /-- Received by the thread, which waits for the lock. -/
  pump : Option (List Int16)
  buffer : List Int16
  deriving DecidableEq, Repr

namespace Playback

def start : Playback := ⟨[], none, []⟩

/-- What `pop_front` answers for each slot of a callback, and the buffer it leaves. -/
def popEach : Nat → List Int16 → List (Option Int16) × List Int16
  | 0, buffer => ([], buffer)
  | slots + 1, [] => (none :: (popEach slots []).1, (popEach slots []).2)
  | slots + 1, s :: buffer => (some s :: (popEach slots buffer).1, (popEach slots buffer).2)

def pullF32 (slots : Nat) (buffer : List Int16) : List Float32 × List Int16 :=
  (popEach slots buffer).map (·.map fun popped =>
    (popped.map fun s => Float32.ofInt s.toInt / Float32.ofInt 32767).getD 0) id

def pullI16 (slots : Nat) (buffer : List Int16) : List Int16 × List Int16 :=
  (popEach slots buffer).map (·.map fun popped => popped.getD 0) id

/-- `(s as i32 + 0x8000) as u16` -/
def i16ToU16 (s : Int16) : UInt16 := UInt16.ofInt (s.toInt + 0x8000)

def pullU16 (slots : Nat) (buffer : List Int16) : List UInt16 × List Int16 :=
  (popEach slots buffer).map (·.map fun popped => i16ToU16 (popped.getD 0)) id

/-- Any holder of the sender sends, the thread receives and extends the buffer, the device pulls. -/
inductive Action where
  | push (frame : List Int16)
  | recv
  | extend
  | pull (slots : Nat)

inductive Step : Playback → Action → Playback → Prop where
  | push (self : Playback) (frame : List Int16) :
      Step self (.push frame) { self with channel := self.channel ++ [frame] }
  | recv {frame : List Int16} {channel : List (List Int16)} {buffer : List Int16} :
      Step ⟨frame :: channel, none, buffer⟩ .recv ⟨channel, some frame, buffer⟩
  | extend {frame : List Int16} {channel : List (List Int16)} {buffer : List Int16} :
      Step ⟨channel, some frame, buffer⟩ .extend ⟨channel, none, buffer ++ frame⟩
  | pull (self : Playback) (slots : Nat) :
      Step self (.pull slots) { self with buffer := (popEach slots self.buffer).2 }

inductive Event where
  | sent (frame : List Int16)
  /-- The slots of one callback; one without a sample is silent. -/
  | played (slots : List (Option Int16))
  deriving DecidableEq

def events (self : Playback) (action : Action) (_ : Playback) : List Event :=
  match action with
  | .push frame => [.sent frame]
  | .pull slots => [.played (popEach slots self.buffer).1]
  | _ => []

def sentFrames (log : List Event) : List (List Int16) :=
  log.filterMap fun
    | .sent frame => some frame
    | .played _ => none

def playedSamples (log : List Event) : List Int16 :=
  log.flatMap fun
    | .sent _ => []
    | .played slots => slots.filterMap id

def queued (self : Playback) : List Int16 :=
  self.buffer ++ self.pump.getD [] ++ self.channel.flatten

theorem popEach_eq (slots : Nat) (buffer : List Int16) :
    popEach slots buffer = ((buffer.take slots).map some ++
      List.replicate (slots - buffer.length) none, buffer.drop slots) := by
  induction slots generalizing buffer with
  | zero => simp [popEach]
  | succ slots ih =>
    cases buffer with
    | nil => simp [popEach, ih, List.replicate_succ]
    | cons s buffer => simp [popEach, ih]

theorem map_popEach {α : Type} (convert : Int16 → α) (silence : α) (slots : Nat)
    (buffer : List Int16) :
    (popEach slots buffer).1.map (fun popped => (popped.map convert).getD silence) =
      (buffer.take slots).map convert ++ List.replicate (slots - buffer.length) silence := by
  rw [popEach_eq]
  simp [Function.comp_def]

theorem snd_popEach (slots : Nat) (buffer : List Int16) :
    (popEach slots buffer).2 = buffer.drop slots := by
  rw [popEach_eq]

theorem pullF32_eq (slots : Nat) (buffer : List Int16) :
    pullF32 slots buffer =
      ((buffer.take slots).map (fun s => Float32.ofInt s.toInt / Float32.ofInt 32767) ++
        List.replicate (slots - buffer.length) 0, buffer.drop slots) := by
  apply Prod.ext
  · exact map_popEach (fun s => Float32.ofInt s.toInt / Float32.ofInt 32767) 0 slots buffer
  · exact snd_popEach slots buffer

theorem pullI16_eq (slots : Nat) (buffer : List Int16) :
    pullI16 slots buffer =
      (buffer.take slots ++ List.replicate (slots - buffer.length) 0, buffer.drop slots) := by
  apply Prod.ext
  · have hpull := map_popEach id 0 slots buffer
    simpa [pullI16] using hpull
  · exact snd_popEach slots buffer

theorem pullU16_eq (slots : Nat) (buffer : List Int16) :
    pullU16 slots buffer =
      ((buffer.take slots).map i16ToU16 ++ List.replicate (slots - buffer.length) 0x8000,
        buffer.drop slots) := by
  have hconvert : (fun popped : Option Int16 => i16ToU16 (popped.getD 0)) =
      fun popped => (popped.map i16ToU16).getD 0x8000 := by
    funext popped
    cases popped with
    | none => rfl
    | some s => rfl
  apply Prod.ext
  · have hpull := map_popEach i16ToU16 0x8000 slots buffer
    rw [← hconvert] at hpull
    exact hpull
  · exact snd_popEach slots buffer

theorem sentFrames_append (log more : List Event) :
    sentFrames (log ++ more) = sentFrames log ++ sentFrames more := by
  simp [sentFrames]

theorem playedSamples_append (log more : List Event) :
    playedSamples (log ++ more) = playedSamples log ++ playedSamples more := by
  simp [playedSamples]

theorem playedSamples_pull (slots : Nat) (buffer : List Int16) :
    playedSamples [.played (popEach slots buffer).1] = buffer.take slots := by
  have hsome : ∀ samples : List Int16, (samples.map some).filterMap id = samples := by
    intro samples
    rw [List.filterMap_map]
    exact List.filterMap_some
  rw [playedSamples, List.flatMap_singleton, popEach_eq]
  dsimp only
  rw [List.filterMap_append, hsome]
  simp

abbrev Runs (run : Logged Playback Event) : Prop :=
  Reaches (LogStep Step events) (fun _ _ => True) ⟨start, []⟩ run

def InOrder (run : Logged Playback Event) : Prop :=
  playedSamples run.log ++ queued run.state = (sentFrames run.log).flatten

theorem InOrder.step {run run' : Logged Playback Event} {action : Action} (h : InOrder run)
    (hstep : LogStep Step events run action run') : InOrder run' := by
  obtain ⟨self, log⟩ := run
  unfold InOrder at h ⊢
  cases hstep with
  | log hstep =>
    dsimp only at h hstep ⊢
    rw [playedSamples_append, sentFrames_append, List.flatten_append, ← h]
    cases hstep with
    | push frame => simp [events, playedSamples, sentFrames, queued]
    | recv => simp [events, playedSamples, sentFrames, queued]
    | extend => simp [events, playedSamples, sentFrames, queued]
    | pull =>
      rename_i slots
      rw [show events self (.pull slots) _ = [.played (popEach slots self.buffer).1] from rfl,
        playedSamples_pull]
      simp [sentFrames, queued, popEach_eq, ← List.append_assoc (self.buffer.take slots)]

theorem Runs.inOrder {run : Logged Playback Event} (hrun : Runs run) : InOrder run :=
  hrun.invariant rfl fun _ _ _ h hstep _ => h.step hstep

/-- A callback of so many slots plays what is at the front of the buffer and drops it there, and is
silent only in slots that find the buffer empty. -/
structure Fed (buffer : List Int16) (slots : Nat) (popped : List (Option Int16))
    (left : List Int16) : Prop where
  played : popped = (buffer.take slots).map some ++ List.replicate (slots - buffer.length) none
  kept : left = buffer.drop slots
  silent : none ∈ popped → left = []
  f32 : pullF32 slots buffer =
    ((buffer.take slots).map (fun s => Float32.ofInt s.toInt / Float32.ofInt 32767) ++
      List.replicate (slots - buffer.length) 0, left)
  i16 : pullI16 slots buffer =
    (buffer.take slots ++ List.replicate (slots - buffer.length) 0, left)
  u16 : pullU16 slots buffer =
    ((buffer.take slots).map i16ToU16 ++ List.replicate (slots - buffer.length) 0x8000, left)

theorem fed_popEach (buffer : List Int16) (slots : Nat) :
    Fed buffer slots (popEach slots buffer).1 (popEach slots buffer).2 where
  played := congrArg Prod.fst (popEach_eq slots buffer)
  kept := snd_popEach slots buffer
  silent := by
    intro hsilent
    rw [popEach_eq, List.mem_append, List.mem_replicate] at hsilent
    obtain hsample | ⟨hempty, -⟩ := hsilent
    · obtain ⟨s, -, hs⟩ := List.mem_map.mp hsample
      cases hs
    · rw [snd_popEach]
      exact List.drop_eq_nil_of_le (by omega)
  f32 := by rw [pullF32_eq, snd_popEach]
  i16 := by rw [pullI16_eq, snd_popEach]
  u16 := by rw [pullU16_eq, snd_popEach]

theorem pull_fed {run run' : Logged Playback Event} {slots : Nat}
    (hstep : LogStep Step events run (.pull slots) run') :
    ∃ popped, run'.log = run.log ++ [.played popped] ∧
      Fed run.state.buffer slots popped run'.state.buffer := by
  obtain ⟨self, log⟩ := run
  cases hstep with
  | log hstep =>
    dsimp only at hstep
    cases hstep
    exact ⟨_, rfl, fed_popEach _ slots⟩

abbrev Quiet (run run' : Logged Playback Event) : Prop :=
  Reaches (LogStep Step events) (fun _ action => ∀ frame, action ≠ .push frame) run run'

theorem quiet_extend {channel : List (List Int16)} {frame buffer : List Int16} {log : List Event} :
    Quiet ⟨⟨channel, some frame, buffer⟩, log⟩ ⟨⟨channel, none, buffer ++ frame⟩, log⟩ :=
  (Reaches.refl _).tail (.silent .extend rfl) (by simp)

theorem quiet_recv (channel : List (List Int16)) (buffer : List Int16) (log : List Event) :
    Quiet ⟨⟨channel, none, buffer⟩, log⟩ ⟨⟨[], none, buffer ++ channel.flatten⟩, log⟩ := by
  induction channel generalizing buffer with
  | nil => simpa using Reaches.refl _
  | cons frame channel ih =>
    have hrecv : Quiet ⟨⟨frame :: channel, none, buffer⟩, log⟩
        ⟨⟨channel, some frame, buffer⟩, log⟩ := (Reaches.refl _).tail (.silent .recv rfl) (by simp)
    rw [List.flatten_cons, ← List.append_assoc]
    exact (hrecv.trans quiet_extend).trans (ih _)

theorem exists_drained (run : Logged Playback Event) : ∃ log, Quiet run ⟨start, log⟩ := by
  obtain ⟨⟨channel, pump, buffer⟩, log⟩ := run
  have hpump : ∃ all, Quiet ⟨⟨channel, pump, buffer⟩, log⟩ ⟨⟨[], none, all⟩, log⟩ := by
    cases pump with
    | none => exact ⟨_, quiet_recv channel buffer log⟩
    | some frame => exact ⟨_, quiet_extend.trans (quiet_recv channel _ log)⟩
  obtain ⟨all, hall⟩ := hpump
  have hpull : LogStep Step events ⟨⟨[], none, all⟩, log⟩ (.pull all.length)
      ⟨⟨[], none, (popEach all.length all).2⟩, _⟩ := .logs (.pull _ all.length) rfl
  rw [popEach_eq, List.drop_length] at hpull
  exact ⟨_, hall.tail hpull (by simp)⟩

/-- However senders, thread and device take turns, the device plays what has been sent in the order it
was sent in, without loss; each callback takes from the buffer what it can, and is silent only when it
leaves nothing there; and all that has been sent will be played. -/
theorem playback_in_order {run : Logged Playback Event} (hrun : Runs run) :
    playedSamples run.log ++ queued run.state = (sentFrames run.log).flatten ∧
      (∀ slots run', LogStep Step events run (.pull slots) run' →
        ∃ popped, run'.log = run.log ++ [.played popped] ∧
          Fed run.state.buffer slots popped run'.state.buffer) ∧
      ∃ log, Quiet run ⟨start, log⟩ ∧ playedSamples log = (sentFrames log).flatten := by
  refine ⟨hrun.inOrder, fun _ _ => pull_fed, ?_⟩
  obtain ⟨log, hquiet⟩ := exists_drained run
  have hall : Runs ⟨start, log⟩ := hrun.trans (hquiet.mono fun _ _ _ => trivial)
  refine ⟨log, hquiet, ?_⟩
  rw [← hall.inOrder]
  exact (List.append_nil _).symm

/-- Two frames, the first played in part with the second still in the channel, and a callback that
finds fewer samples than it has slots. -/
theorem playback_in_order_pair :
    ∃ run run' : Logged Playback Event, Runs run ∧ LogStep Step events run (.pull 2) run' ∧
      run.log = [.sent [1, 2], .sent [3], .played [some 1]] ∧
      playedSamples run.log ++ queued run.state = [1, 2, 3] ∧
      (∃ popped, run'.log = run.log ++ [.played popped] ∧ none ∈ popped ∧
        run'.state.buffer = []) := by
  have hrun : Runs ⟨start, []⟩ := .refl _
  have hrun := hrun.tail (.logs (.push _ [1, 2]) rfl) trivial
  have hrun := hrun.tail (.logs (.push _ [3]) rfl) trivial
  have hrun := hrun.tail (.silent .recv rfl) trivial
  have hrun := hrun.tail (.silent .extend rfl) trivial
  have hrun := hrun.tail (.logs (.pull _ 1) rfl) trivial
  have hpull : ∀ log, LogStep Step events ⟨⟨[[3]], none, [2]⟩, log⟩ (.pull 2)
      ⟨⟨[[3]], none, []⟩, log ++ [.played [some 2, none]]⟩ := fun _ => .logs (.pull _ 2) rfl
  obtain ⟨horder, hfed, -⟩ := playback_in_order hrun
  obtain ⟨popped, hlog, hpopped⟩ := hfed _ _ (hpull _)
  have hsilent : none ∈ popped := by
    rw [hpopped.played]
    decide
  exact ⟨_, _, hrun, hpull _, rfl, horder, popped, hlog, hsilent, hpopped.silent hsilent⟩

theorem ofInt_toInt (s : Int16) : UInt16.ofInt s.toInt = s.toUInt16 := by
  have hlt : (s.toInt % 65536).toNat < 65536 := by omega
  have hwrap : (UInt16.ofInt s.toInt).toBitVec = BitVec.ofInt 16 s.toBitVec.toInt := by
    apply BitVec.eq_of_toNat_eq
    rw [BitVec.toNat_ofInt]
    exact Nat.mod_eq_of_lt hlt
  apply UInt16.eq_of_toBitVec_eq
  rw [hwrap, BitVec.ofInt_toInt]
  rfl

theorem i16ToU16_u16ToI16 (u : UInt16) : i16ToU16 (Capture.u16ToI16 u) = u := by
  have hbytes : (Capture.u16ToI16 u).toUInt16 = u - 0x8000 := rfl
  rw [i16ToU16, UInt16.ofInt_add, ofInt_toInt, hbytes]
  exact UInt16.sub_add_cancel u _

/-- What was captured from a device of unsigned samples is played on another as it was captured, but for
what does not fill a frame, which the capture keeps. -/
theorem playback_plays_capture {n : Nat} (hn : 0 < n) (slices : List (List UInt16))
    {run : Logged Playback Event} (hrun : Runs run)
    (hsent : sentFrames run.log = (Capture.runU16 n slices).tx.sent) :
    (playedSamples run.log).map i16ToU16 ++ (queued run.state).map i16ToU16 ++
      (Capture.runU16 n slices).accum.map i16ToU16 = slices.flatten := by
  have hcapture := Capture.foldl_inOrder slices (Capture.inOrder_start hn)
  rw [List.nil_append] at hcapture
  have hwhole : (Capture.runU16 n slices).tx.sent.flatten ++ (Capture.runU16 n slices).accum =
      slices.flatten.map Capture.u16ToI16 := hcapture.cut.whole
  have hround : ∀ stream : List UInt16, (stream.map Capture.u16ToI16).map i16ToU16 = stream := by
    intro stream
    simp [Function.comp_def, i16ToU16_u16ToI16]
  calc (playedSamples run.log).map i16ToU16 ++ (queued run.state).map i16ToU16 ++
        (Capture.runU16 n slices).accum.map i16ToU16
      = ((Capture.runU16 n slices).tx.sent.flatten ++
          (Capture.runU16 n slices).accum).map i16ToU16 := by
        rw [← List.map_append, hrun.inOrder, hsent, List.map_append]
    _ = slices.flatten := by rw [hwhole, hround]

/-- One frame and a sample that does not fill another; of the frame one sample has been played. -/
theorem playback_plays_capture_one :
    ∃ run : Logged Playback Event, Runs run ∧ playedSamples run.log = [0] ∧
      sentFrames run.log = (Capture.runU16 2 [[0x8000], [0x8001, 7]]).tx.sent ∧
      (playedSamples run.log).map i16ToU16 ++ (queued run.state).map i16ToU16 ++
        (Capture.runU16 2 [[0x8000], [0x8001, 7]]).accum.map i16ToU16 = [0x8000, 0x8001, 7] := by
  have hrun : Runs ⟨start, []⟩ := .refl _
  have hrun := hrun.tail (.logs (.push _ [0, 1]) rfl) trivial
  have hrun := hrun.tail (.silent .recv rfl) trivial
  have hrun := hrun.tail (.silent .extend rfl) trivial
  have hrun := hrun.tail (.logs (.pull _ 1) rfl) trivial
  exact ⟨_, hrun, rfl, by decide,
    playback_plays_capture (by decide) [[0x8000], [0x8001, 7]] hrun (by decide)⟩

end Playback
end GravitalTalk.Io
