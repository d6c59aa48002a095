import Mathlib.Data.Nat.Log
import GravitalTalk.Transport.Session

/-! Which configurations a session can be made of: the ring has to fit its assertions and the bitrate
its bounds. -/
namespace GravitalTalk.Transport
open GravitalTalk.Core Lib

theorem clamp_mem {value low high : UInt32} (h : low ≤ high) :
    low ≤ clamp value low high ∧ clamp value low high ≤ high := by
  unfold clamp
  split_ifs with hlow hhigh
  · exact ⟨UInt32.le_refl low, h⟩
  · exact ⟨h, UInt32.le_refl high⟩
  · exact ⟨UInt32.not_lt.mp hlow, UInt32.not_lt.mp hhigh⟩

namespace CongestionController

inductive Adjustment where
  | update (lost window : Nat) (rttUs : UInt64)
  | setBitrate (bitrate : UInt32)

def adjust (self : CongestionController) : Adjustment → CongestionController
  | .update lost window rttUs => self.update lost window rttUs
  | .setBitrate bitrate => self.setBitrate bitrate

def Within (self : CongestionController) (low high : UInt32) : Prop :=
  low ≤ self.currentBitrate ∧ self.currentBitrate ≤ high

theorem adjust_bounds (self : CongestionController) (call : Adjustment) :
    (self.adjust call).minBitrate = self.minBitrate ∧
      (self.adjust call).maxBitrate = self.maxBitrate ∧
      (self.adjust call).Within self.minBitrate self.maxBitrate := by
  cases call with
  | update lost window rttUs => exact ⟨rfl, rfl, clamp_mem self.min_le_max⟩
  | setBitrate bitrate => exact ⟨rfl, rfl, clamp_mem self.min_le_max⟩

theorem foldl_adjust_bounds {self : CongestionController}
    (h : self.Within self.minBitrate self.maxBitrate) (calls : List Adjustment) :
    (calls.foldl adjust self).Within self.minBitrate self.maxBitrate := by
  induction calls generalizing self with
  | nil => exact h
  | cons call calls ih =>
    obtain ⟨hmin, hmax, hwithin⟩ := self.adjust_bounds call
    rw [← hmin, ← hmax] at hwithin ⊢
    exact ih hwithin

theorem within_of_new {initialBitrate minBitrate maxBitrate : UInt32} {self : CongestionController}
    (h : new initialBitrate minBitrate maxBitrate = some self) :
    self.Within self.minBitrate self.maxBitrate := by
  unfold new at h
  simp only at h
  split_ifs at h
  all_goals
    obtain rfl := Option.some.inj h
    exact clamp_mem (by assumption)

/-- The lower bound is raised to the smallest bitrate, the upper bound is not. -/
theorem new_isSome_iff (maxBitrate : UInt32) :
    (new maxBitrate congestionMinBitrate maxBitrate).isSome ↔ congestionMinBitrate ≤ maxBitrate := by
  unfold new
  rw [if_neg (UInt32.lt_irrefl _)]
  by_cases h : congestionMinBitrate ≤ maxBitrate
  · simp [h]
  · simp [h]

end CongestionController

namespace Session

theorem nextPowerOfTwo_eq {n : Nat} (h : n ≤ 2 ^ 31) : nextPowerOfTwo n = 2 ^ Nat.clog 2 n := by
  have hclog : Nat.clog 2 n ≤ 31 := Nat.clog_le_of_le_pow h
  have hfind : (List.range 32).find? (fun k => decide (n ≤ 2 ^ k)) = some (Nat.clog 2 n) := by
    rw [List.find?_range_eq_some]
    refine ⟨decide_eq_true (Nat.le_pow_clog (by decide) n), List.mem_range.mpr (by omega), ?_⟩
    intro j hj
    have hlt : 2 ^ j < n := Nat.pow_lt_of_lt_clog hj
    simpa using hlt
  rw [nextPowerOfTwo, List.find?_map]
  simp only [Function.comp_def, hfind]
  rfl

def frames (bufferMs : UInt16) (frameMs : UInt8) : Nat :=
  max (bufferMs.toNat / max frameMs.toNat 1) 1

theorem frames_le (bufferMs : UInt16) (frameMs : UInt8) : frames bufferMs frameMs ≤ 2 ^ 16 := by
  have hbuffer := bufferMs.toNat_lt
  have hdiv : bufferMs.toNat / max frameMs.toNat 1 ≤ bufferMs.toNat := Nat.div_le_self _ _
  unfold frames
  omega

theorem toNat_jitterSlots (bufferMs : UInt16) (frameMs : UInt8) :
    (jitterSlots bufferMs frameMs).toNat = 2 ^ max (Nat.clog 2 (frames bufferMs frameMs)) 4 := by
  have hframes := frames_le bufferMs frameMs
  have hclog : Nat.clog 2 (frames bufferMs frameMs) ≤ 16 := Nat.clog_le_of_le_pow hframes
  have hmono : Monotone fun k : Nat => 2 ^ k :=
    fun _ _ h => Nat.pow_le_pow_right (by decide) h
  have hmax : max (nextPowerOfTwo (frames bufferMs frameMs)) 16 =
      2 ^ max (Nat.clog 2 (frames bufferMs frameMs)) 4 := by
    rw [nextPowerOfTwo_eq (le_trans hframes (by decide)), hmono.map_max]
    rfl
  have hlt : 2 ^ max (Nat.clog 2 (frames bufferMs frameMs)) 4 < 2 ^ 32 :=
    Nat.pow_lt_pow_right (by decide) (by omega)
  rw [jitterSlots]
  change (UInt32.ofNat (max (nextPowerOfTwo (frames bufferMs frameMs)) 16)).toNat = _
  rw [hmax, UInt32.toNat_ofNat_of_lt' hlt]

theorem jitterSlots_powerOfTwo (bufferMs : UInt16) (frameMs : UInt8) :
    isPowerOfTwo (jitterSlots bufferMs frameMs) = true := by
  have hclog : Nat.clog 2 (frames bufferMs frameMs) ≤ 16 :=
    Nat.clog_le_of_le_pow (frames_le bufferMs frameMs)
  rw [isPowerOfTwo, List.any_eq_true]
  refine ⟨_, List.mem_range.mpr ?_, beq_iff_eq.mpr (toNat_jitterSlots bufferMs frameMs)⟩
  omega

theorem sixteen_le_jitterSlots (bufferMs : UInt16) (frameMs : UInt8) :
    16 ≤ jitterSlots bufferMs frameMs := by
  rw [UInt32.le_iff_toNat_le, toNat_jitterSlots]
  exact Nat.pow_le_pow_right Nat.two_pos (le_max_right _ 4)

theorem jitterSlots_le_iff (bufferMs : UInt16) (frameMs : UInt8) :
    jitterSlots bufferMs frameMs ≤ 2048 ↔ bufferMs.toNat / max frameMs.toNat 1 ≤ 2048 := by
  have hpow : (2048 : UInt32).toNat = 2 ^ 11 := rfl
  rw [UInt32.le_iff_toNat_le, toNat_jitterSlots, hpow,
    Nat.pow_le_pow_iff_right Nat.one_lt_two]
  have hclog : Nat.clog 2 (frames bufferMs frameMs) ≤ 11 ↔ frames bufferMs frameMs ≤ 2 ^ 11 :=
    Nat.clog_le_iff_le_pow Nat.one_lt_two
  unfold frames at hclog ⊢
  omega

theorem jitter_new_isSome_iff (bufferMs : UInt16) (frameMs : UInt8) :
    (JitterBuffer.new (jitterSlots bufferMs frameMs)).isSome ↔
      jitterSlots bufferMs frameMs ≤ 2048 := by
  unfold JitterBuffer.new
  by_cases h : ValidCapacity (jitterSlots bufferMs frameMs)
  · simp [h, h.notTooLarge]
  · have hle : ¬jitterSlots bufferMs frameMs ≤ 2048 := fun hle =>
      h ⟨jitterSlots_powerOfTwo bufferMs frameMs, hle⟩
    simp [h, hle]

structure Constructed (config : Config) (session : Session) : Prop where
  new_eq : Session.new config = some session
  slots_powerOfTwo :
    isPowerOfTwo (jitterSlots config.jitterBufferMs config.frameDurationMs) = true
  slots_mem : 16 ≤ jitterSlots config.jitterBufferMs config.frameDurationMs ∧
    jitterSlots config.jitterBufferMs config.frameDurationMs ≤ 2048
  clamp_ordered : session.congestion.minBitrate ≤ session.congestion.maxBitrate
  within : ∀ calls : List CongestionController.Adjustment,
    (calls.foldl CongestionController.adjust session.congestion).Within
      session.congestion.minBitrate session.congestion.maxBitrate

theorem new_eq_some {config : Config} {session : Session} (h : Session.new config = some session) :
    JitterBuffer.new (jitterSlots config.jitterBufferMs config.frameDurationMs) =
        some session.jitter ∧
      CongestionController.new config.maxBitrate congestionMinBitrate config.maxBitrate =
        some session.congestion := by
  obtain ⟨jitter, hjitter, h⟩ := Option.bind_eq_some_iff.mp h
  obtain ⟨congestion, hcongestion, h⟩ := Option.bind_eq_some_iff.mp h
  obtain rfl := Option.some.inj h
  exact ⟨hjitter, hcongestion⟩

theorem new_isSome_iff (config : Config) : (Session.new config).isSome ↔
    jitterSlots config.jitterBufferMs config.frameDurationMs ≤ 2048 ∧
      congestionMinBitrate ≤ config.maxBitrate := by
  rw [← jitter_new_isSome_iff, ← CongestionController.new_isSome_iff]
  constructor
  · intro h
    obtain ⟨session, hsession⟩ := Option.isSome_iff_exists.mp h
    obtain ⟨hjitter, hcongestion⟩ := new_eq_some hsession
    rw [hjitter, hcongestion]
    exact ⟨rfl, rfl⟩
  · rintro ⟨hjitter, hcongestion⟩
    obtain ⟨jitter, hjitter⟩ := Option.isSome_iff_exists.mp hjitter
    obtain ⟨congestion, hcongestion⟩ := Option.isSome_iff_exists.mp hcongestion
    rw [Session.new, hjitter, hcongestion]
    rfl

/-- A configuration is accepted exactly if it allows the smallest bitrate and asks for no more than
2048 frames. -/
theorem session_constructed_iff (config : Config) :
    (∃ session, Constructed config session) ↔
      8000 ≤ config.maxBitrate ∧
        config.jitterBufferMs.toNat / max config.frameDurationMs.toNat 1 ≤ 2048 := by
  rw [← jitterSlots_le_iff, and_comm]
  constructor
  · rintro ⟨session, h⟩
    exact (new_isSome_iff config).mp (Option.isSome_iff_exists.mpr ⟨session, h.new_eq⟩)
  · intro h
    obtain ⟨session, hsession⟩ := Option.isSome_iff_exists.mp ((new_isSome_iff config).mpr h)
    obtain ⟨-, hcongestion⟩ := new_eq_some hsession
    exact ⟨session, hsession, jitterSlots_powerOfTwo _ _, ⟨sixteen_le_jitterSlots _ _, h.1⟩,
      session.congestion.min_le_max,
      CongestionController.foldl_adjust_bounds (CongestionController.within_of_new hcongestion)⟩

/-- Nothing checks the bitrate of a configuration. -/
theorem no_bitrate_not_constructed : ¬∀ config : Config, ∃ session, Constructed config session := by
  intro h
  obtain ⟨session, hsession⟩ := h { Config.default with maxBitrate := 0 }
  have hsome := Option.isSome_iff_exists.mpr ⟨session, hsession.new_eq⟩
  obtain ⟨-, hbitrate⟩ := (new_isSome_iff _).mp hsome
  exact absurd hbitrate (by decide)

/-- A long buffer of short frames asks for too large a ring. -/
example :
    ¬(Session.new { Config.default with jitterBufferMs := 65535, frameDurationMs := 1 }).isSome := by
  rw [new_isSome_iff]
  decide

end Session
end GravitalTalk.Transport
