import GravitalTalk.Io.Capture
import Mathlib.Tactic.SplitIfs

/-! The callbacks over a whole stream, however it is sliced: they send it in consecutive frames, as long
as a frame has any samples. -/
namespace GravitalTalk.Io
open Lib.Framing

def HasSamples (sampleRate : UInt32) (channels : UInt16) (frameDurationMs : UInt8) : Prop :=
  1000 ≤ sampleRate.toNat * frameDurationMs.toNat ∧ 0 < channels.toNat

theorem frameSamples_pos_iff (sampleRate : UInt32) (channels : UInt16) (frameDurationMs : UInt8) :
    0 < frameSamples sampleRate channels frameDurationMs ↔
      HasSamples sampleRate channels frameDurationMs := by
  have hdiv : 0 < sampleRate.toNat * frameDurationMs.toNat / 1000 ↔
      1000 ≤ sampleRate.toNat * frameDurationMs.toNat := by omega
  rw [HasSamples, frameSamples, Nat.pos_iff_ne_zero, Nat.mul_ne_zero_iff, ← Nat.pos_iff_ne_zero,
    ← Nat.pos_iff_ne_zero, hdiv]

theorem Sender.send_connected {self : Sender} (h : self.remaining = none) (frame : List Int16) :
    self.send frame = (true, ⟨self.sent ++ [frame], none⟩) := by
  obtain ⟨sent, remaining⟩ := self
  subst h
  rfl

namespace Capture
variable {n turns : Nat} {self out : Capture} {stream : List Int16}

theorem whileFull_short (h : self.accum.length < n) : whileFull n (turns + 1) self = some self := by
  rw [whileFull, if_neg (Nat.not_le_of_lt h)]

theorem whileFull_full (hconnected : self.tx.remaining = none) (h : n ≤ self.accum.length) :
    whileFull n (turns + 1) self =
      whileFull n turns ⟨self.accum.drop n, ⟨self.tx.sent ++ [self.accum.take n], none⟩⟩ := by
  simp only [whileFull, ge_iff_le, if_pos h, Sender.send_connected hconnected, if_true]

theorem whileFull_ends (hn : 0 < n) (hturns : self.accum.length < turns) :
    (whileFull n turns self).isSome = true := by
  induction turns generalizing self with
  | zero => exact absurd hturns (Nat.not_lt_zero _)
  | succ turns ih =>
    rw [whileFull]
    split_ifs with hfull
    · dsimp only
      split_ifs
      · apply ih
        rw [List.length_drop]
        omega
      · rfl
    · rfl

/-- Frames of no samples are sent for ever, -/
theorem whileFull_zero (hconnected : self.tx.remaining = none) : whileFull 0 turns self = none := by
  induction turns generalizing self with
  | zero => rfl
  | succ turns ih =>
    rw [whileFull_full hconnected (Nat.zero_le _)]
    exact ih rfl

/-- or as long as the receiver takes them. -/
theorem whileFull_disconnected {k : Nat} (h : self.tx.remaining = some k) (hturns : k < turns) :
    (whileFull n turns self).isSome = true := by
  induction turns generalizing self k with
  | zero => exact absurd hturns (Nat.not_lt_zero k)
  | succ turns ih =>
    obtain ⟨accum, sent, remaining⟩ := self
    subst h
    rw [whileFull]
    split_ifs with hfull
    · cases k with
      | zero => rfl
      | succ k => exact ih rfl (Nat.lt_of_succ_lt_succ hturns)
    · rfl

theorem pushI16_zero (hconnected : self.tx.remaining = none) (data : List Int16) :
    pushI16 0 turns data self = none := by
  rw [pushI16]
  exact whileFull_zero hconnected

def PushI16Ends (n : Nat) (data : List Int16) (self : Capture) : Prop :=
  ∃ turns, (self.pushI16 n turns data).isSome = true

theorem pushI16Ends_iff (data : List Int16) (self : Capture) :
    PushI16Ends n data self ↔ 0 < n ∨ self.tx.remaining.isSome = true := by
  constructor
  · rintro ⟨turns, hends⟩
    rcases Nat.eq_zero_or_pos n with rfl | hn
    · right
      cases hremaining : self.tx.remaining with
      | none =>
        rw [pushI16_zero hremaining] at hends
        cases hends
      | some k => rfl
    · exact .inl hn
  · rintro (hn | hremaining)
    · exact ⟨_, whileFull_ends hn (Nat.lt_succ_self _)⟩
    · obtain ⟨k, hk⟩ := Option.isSome_iff_exists.mp hremaining
      exact ⟨k + 1, whileFull_disconnected hk (Nat.lt_succ_self k)⟩

structure InOrder (n : Nat) (stream : List Int16) (capture : Capture) : Prop where
  cut : Cut n stream capture.tx.sent capture.accum
  short : capture.accum.length < n
  connected : capture.tx.remaining = none

theorem inOrder_start (hn : 0 < n) : InOrder n [] start := ⟨.start n [], hn, rfl⟩

theorem whileFull_inOrder (hcut : Cut n stream self.tx.sent self.accum)
    (hconnected : self.tx.remaining = none) (h : whileFull n turns self = some out) :
    InOrder n stream out := by
  induction turns generalizing self with
  | zero => cases h
  | succ turns ih =>
    rcases Nat.lt_or_ge self.accum.length n with hshort | hfull
    · rw [whileFull_short hshort, Option.some.injEq] at h
      subst h
      exact ⟨hcut, hshort, hconnected⟩
    · rw [whileFull_full hconnected hfull] at h
      apply ih _ rfl h
      apply Cut.next _ (List.length_take_of_le hfull)
      rwa [List.take_append_drop]

theorem InOrder.pushI16 (hself : InOrder n stream self) {data : List Int16}
    (h : pushI16 n turns data self = some out) : InOrder n (stream ++ data) out := by
  rw [Capture.pushI16] at h
  apply whileFull_inOrder _ _ h
  · exact hself.cut.append data
  · exact hself.connected

theorem InOrder.pushEach {α : Type} (convert : α → Int16) (data : List α)
    (hself : InOrder n stream self) :
    InOrder n (stream ++ data.map convert) (pushEach n convert data self) := by
  induction data generalizing stream self with
  | nil => rwa [List.map_nil, List.append_nil]
  | cons s data ih =>
    obtain ⟨hcut, hshort, hconnected⟩ := hself
    have hnext := hcut.append [convert s]
    have hlength : (self.accum ++ [convert s]).length = self.accum.length + 1 := List.length_append
    rw [List.map_cons, ← List.singleton_append, ← List.append_assoc]
    simp only [Capture.pushEach, Sender.send_connected hconnected, if_true]
    split_ifs with hfull
    · apply ih
      refine ⟨?_, Nat.zero_lt_of_lt hshort, rfl⟩
      apply Cut.next _ (by omega)
      rwa [List.append_nil]
    · exact ih ⟨hnext, Nat.lt_of_not_le hfull, hconnected⟩

theorem foldl_inOrder (slices : List (List UInt16)) (hself : InOrder n stream self) :
    InOrder n (stream ++ slices.flatten.map u16ToI16)
      (slices.foldl (fun self data => self.pushU16 n data) self) := by
  induction slices generalizing stream self with
  | nil => simpa using hself
  | cons data slices ih =>
    rw [List.flatten_cons, List.map_append, ← List.append_assoc]
    exact ih (hself.pushEach u16ToI16 data)

theorem foldlM_inOrder (slices : List (List Int16)) (hself : InOrder n stream self)
    (hturns : n + slices.flatten.length ≤ turns) :
    ∃ out, slices.foldlM (fun self data => self.pushI16 n turns data) self = some out ∧
      InOrder n (stream ++ slices.flatten) out := by
  induction slices generalizing stream self with
  | nil => exact ⟨self, rfl, by simpa using hself⟩
  | cons data slices ih =>
    rw [List.flatten_cons, List.length_append] at hturns
    have hn : 0 < n := Nat.zero_lt_of_lt hself.short
    have hlength : (self.accum ++ data).length < turns := by
      have hshort := hself.short
      rw [List.length_append]
      omega
    obtain ⟨next, hnext⟩ : ∃ next, self.pushI16 n turns data = some next :=
      Option.isSome_iff_exists.mp (whileFull_ends hn hlength)
    rw [List.foldlM_cons, List.flatten_cons, ← List.append_assoc]
    obtain ⟨out, hout, hstream⟩ := ih (hself.pushI16 hnext) (by omega)
    refine ⟨out, ?_, hstream⟩
    rw [hnext]
    exact hout

def Framed (n : Nat) (stream : List Int16) (out : Capture) : Prop :=
  out.tx.sent = frames n stream ∧ out.accum = rest n stream ∧ out.accum.length < n

theorem InOrder.framed (h : InOrder n stream out) : Framed n stream out := by
  obtain ⟨hframes, hrest⟩ := h.cut.unique h.short
  exact ⟨hframes, hrest, h.short⟩

def RunU16Framed (n : Nat) (slices : List (List UInt16)) : Prop :=
  Framed n (slices.flatten.map u16ToI16) (runU16 n slices)

theorem runU16_framed (hn : 0 < n) (slices : List (List UInt16)) : RunU16Framed n slices := by
  have hrun := foldl_inOrder slices (inOrder_start hn)
  rw [List.nil_append] at hrun
  exact hrun.framed

/-- All calls end, and what they send and keep is the stream in frames. -/
def RunI16Framed (n : Nat) (slices : List (List Int16)) : Prop :=
  ∃ enough, ∀ turns, enough ≤ turns →
    ∃ out, runI16 n turns slices = some out ∧ Framed n slices.flatten out

theorem runI16_framed (hn : 0 < n) (slices : List (List Int16)) : RunI16Framed n slices := by
  exists n + slices.flatten.length
  intro turns hturns
  obtain ⟨out, hout, hstream⟩ := foldlM_inOrder slices (inOrder_start hn) hturns
  rw [List.nil_append] at hstream
  exact ⟨out, hout, hstream.framed⟩

end Capture

/-- With the size of a frame that `AudioCapture::start` computes, a call ends before a receiver that stays,
and a run sends the frames of its stream, if and only if the frame has any samples.  (`push_u16` goes over
its slice once, so it ends with every size.) -/
theorem capture_framed_iff (sampleRate : UInt32) (channels : UInt16) (frameDurationMs : UInt8) :
    (∀ (data : List Int16) (self : Capture), self.tx.remaining = none →
      (self.PushI16Ends (frameSamples sampleRate channels frameDurationMs) data ↔
        HasSamples sampleRate channels frameDurationMs)) ∧
    (∀ slices : List (List Int16),
      Capture.RunI16Framed (frameSamples sampleRate channels frameDurationMs) slices ↔
        HasSamples sampleRate channels frameDurationMs) ∧
    ∀ slices : List (List UInt16),
      Capture.RunU16Framed (frameSamples sampleRate channels frameDurationMs) slices ↔
        HasSamples sampleRate channels frameDurationMs := by
  rw [← frameSamples_pos_iff]
  generalize frameSamples sampleRate channels frameDurationMs = n
  refine ⟨?_, ?_, ?_⟩
  · intro data self hconnected
    rw [Capture.pushI16Ends_iff, hconnected]
    simp
  · intro slices
    constructor
    · rintro ⟨enough, hruns⟩
      obtain ⟨out, -, -, -, hshort⟩ := hruns enough (Nat.le_refl _)
      exact Nat.zero_lt_of_lt hshort
    · intro hn
      exact Capture.runI16_framed hn slices
  · intro slices
    constructor
    · intro hframed
      exact Nat.zero_lt_of_lt hframed.2.2
    · intro hn
      exact Capture.runU16_framed hn slices

/-- Frames of no duration: one loop goes on for ever, and the other sends every sample on its own. -/
theorem capture_zero_duration :
    frameSamples 48000 1 0 = 0 ∧
      ¬Capture.start.PushI16Ends (frameSamples 48000 1 0) [7] ∧
      (Capture.start.pushU16 (frameSamples 48000 1 0) [0x8000, 0x8001]).tx.sent = [[0], [1]] := by
  refine ⟨by decide, ?_, by decide⟩
  rintro ⟨turns, hends⟩
  rw [show frameSamples 48000 1 0 = 0 by decide, Capture.pushI16_zero rfl] at hends
  cases hends

end GravitalTalk.Io
