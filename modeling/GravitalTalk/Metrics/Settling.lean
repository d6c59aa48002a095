import GravitalTalk.Lib.Smoothing
import GravitalTalk.Metrics.Estimators

/-! The smoothed round trip time: it stays between its samples and settles at a steady one. -/
namespace GravitalTalk.Estimators
open Lib Smoothing

theorem toNat_capped (n : UInt64) : (min n 0xFFFFFFFF).toUInt32.toNat = min n.toNat (2 ^ 32 - 1) := by
  have hmin : min n 0xFFFFFFFF = if n ≤ 0xFFFFFFFF then n else 0xFFFFFFFF := rfl
  have hle : n ≤ 0xFFFFFFFF ↔ n.toNat ≤ 2 ^ 32 - 1 := UInt64.le_iff_toNat_le
  rw [hmin, UInt64.toNat_toUInt32]
  split_ifs with hsmall
  · rw [hle] at hsmall
    omega
  · rw [hle] at hsmall
    change 0xFFFFFFFF % 2 ^ 32 = _
    omega

namespace RttEstimator

def recordAll (self : RttEstimator) (samples : List UInt32) : RttEstimator := samples.foldl record self

variable {self : RttEstimator}

theorem toNat_part {a b : UInt64} (h : a ≤ b) :
    ((b - a) * alphaNum / alphaDen).toNat = (b.toNat - a.toNat) / 8 := by
  rw [alphaNum, UInt64.mul_one, UInt64.toNat_div, UInt64.toNat_sub_of_le _ _ h]
  rfl

theorem toNat_record (h : self.rttUs ≠ 0xFFFFFFFF) (sampleUs : UInt32) :
    (self.record sampleUs).rttUs.toNat = smooth 8 self.rttUs.toNat sampleUs.toNat := by
  have hprev : self.rttUs.toUInt64.toNat = self.rttUs.toNat := UInt32.toNat_toUInt64 _
  have hsample : sampleUs.toUInt64.toNat = sampleUs.toNat := UInt32.toNat_toUInt64 _
  have hprevLt := self.rttUs.toNat_lt
  have hsampleLt := sampleUs.toNat_lt
  have hbetween := smooth_between 8 self.rttUs.toNat sampleUs.toNat
  simp only [record, if_neg h]
  rw [toNat_capped]
  by_cases hmore : sampleUs.toUInt64 > self.rttUs.toUInt64
  · have hpart := toNat_part (UInt64.le_of_lt hmore)
    have hless : self.rttUs.toNat < sampleUs.toNat := by
      rwa [gt_iff_lt, UInt64.lt_iff_toNat_lt, hprev, hsample] at hmore
    rw [if_pos hmore, UInt64.toNat_add, hpart, hprev, hsample]
    rw [smooth, if_pos hless] at hbetween ⊢
    omega
  · have hle := UInt64.not_lt.mp hmore
    have hpart := toNat_part hle
    have hless : ¬self.rttUs.toNat < sampleUs.toNat := by
      rwa [gt_iff_lt, UInt64.lt_iff_toNat_lt, hprev, hsample] at hmore
    have hfits : (self.rttUs.toUInt64 - sampleUs.toUInt64) * alphaNum / alphaDen ≤
        self.rttUs.toUInt64 := by
      rw [UInt64.le_iff_toNat_le, hpart]
      omega
    rw [if_neg hmore, if_pos hfits, UInt64.toNat_sub_of_le _ _ hfits, hpart, hprev, hsample]
    rw [smooth, if_neg hless] at hbetween ⊢
    omega

theorem record_first (h : self.rttUs = 0xFFFFFFFF) (sampleUs : UInt32) :
    self.record sampleUs = ⟨sampleUs⟩ := by
  simp only [record, if_pos h]

theorem ne_max_iff {value : UInt32} : value ≠ 0xFFFFFFFF ↔ value.toNat < 2 ^ 32 - 1 := by
  have hlt := value.toNat_lt
  rw [Ne, ← UInt32.toNat_inj]
  change ¬value.toNat = 4294967295 ↔ _
  omega

theorem record_ne_max (h : self.rttUs ≠ 0xFFFFFFFF) (sampleUs : UInt32) :
    (self.record sampleUs).rttUs ≠ 0xFFFFFFFF := by
  have hsample := sampleUs.toNat_lt
  rw [ne_max_iff, toNat_record h]
  exact smooth_lt_of_lt (by omega) (ne_max_iff.mp h) (by omega)

theorem recordAll_smoothed (h : self.rttUs ≠ 0xFFFFFFFF) (samples : List UInt32) :
    (self.recordAll samples).rttUs.toNat =
      smoothAll 8 self.rttUs.toNat (samples.map UInt32.toNat) := by
  induction samples generalizing self with
  | nil => rfl
  | cons sampleUs samples ih =>
    rw [List.map_cons, smoothAll, List.foldl_cons, ← toNat_record h]
    exact ih (record_ne_max h sampleUs)

theorem recordAll_concat (self : RttEstimator) (samples : List UInt32) (sampleUs : UInt32) :
    self.recordAll (samples ++ [sampleUs]) = (self.recordAll samples).record sampleUs := by
  simp [recordAll]

/-- No estimate from no sample but the marker; else between two of the samples. -/
def Between (samples : List UInt32) (self : RttEstimator) : Prop :=
  (self.rttUs = 0xFFFFFFFF ∧ ∀ s ∈ samples, s = 0xFFFFFFFF) ∨
    self.rttUs ≠ 0xFFFFFFFF ∧ (∃ s ∈ samples, s ≠ 0xFFFFFFFF) ∧
      (∃ low ∈ samples, low ≤ self.rttUs) ∧ ∃ high ∈ samples, self.rttUs ≤ high

theorem Between.record {samples : List UInt32} (h : Between samples self) (sampleUs : UInt32) :
    Between (samples ++ [sampleUs]) (self.record sampleUs) := by
  have hlast : sampleUs ∈ samples ++ [sampleUs] := by simp
  obtain ⟨hmax, hall⟩ | ⟨hsome, ⟨s, hs, hne⟩, ⟨low, hlow, hlower⟩, high, hhigh, hupper⟩ := h
  · rw [record_first hmax]
    by_cases hsample : sampleUs = 0xFFFFFFFF
    · refine .inl ⟨hsample, fun s hs => ?_⟩
      obtain hs | hs := List.mem_append.mp hs
      · exact hall s hs
      · exact (List.mem_singleton.mp hs).trans hsample
    · exact .inr ⟨hsample, ⟨sampleUs, hlast, hsample⟩, ⟨sampleUs, hlast, UInt32.le_refl _⟩,
        sampleUs, hlast, UInt32.le_refl _⟩
  · have hspanned := smooth_spanned (k := 8)
      (p := fun value => ∃ s ∈ samples ++ [sampleUs], s.toNat = value)
      ⟨low, List.mem_append_left _ hlow, rfl⟩ ⟨high, List.mem_append_left _ hhigh, rfl⟩
      ⟨sampleUs, hlast, rfl⟩ (UInt32.le_iff_toNat_le.mp hlower) (UInt32.le_iff_toNat_le.mp hupper)
    rw [← toNat_record hsome] at hspanned
    obtain ⟨⟨_, ⟨newLow, hnewLow, rfl⟩, hlower⟩, _, ⟨newHigh, hnewHigh, rfl⟩, hupper⟩ := hspanned
    exact .inr ⟨record_ne_max hsome sampleUs, ⟨s, List.mem_append_left _ hs, hne⟩,
      ⟨newLow, hnewLow, UInt32.le_iff_toNat_le.mpr hlower⟩,
      newHigh, hnewHigh, UInt32.le_iff_toNat_le.mpr hupper⟩

theorem between_recordAll (samples : List UInt32) : Between samples (new.recordAll samples) := by
  induction samples using List.reverseRecOn with
  | nil => exact .inl ⟨rfl, by simp⟩
  | append_singleton samples sampleUs ih =>
    rw [recordAll_concat]
    exact ih.record sampleUs

theorem dist_toNat_le (a b : UInt32) : Nat.dist a.toNat b.toNat ≤ 2 ^ 32 := by
  have ha := a.toNat_lt
  have hb := b.toNat_lt
  unfold Nat.dist
  omega

theorem dist_recordAll (h : self.rttUs ≠ 0xFFFFFFFF) (s : UInt32) {n : Nat} (hn : 167 ≤ n) :
    Nat.dist (self.recordAll (List.replicate n s)).rttUs.toNat s.toNat ≤ 7 := by
  rw [recordAll_smoothed h, List.map_replicate]
  exact settles (by omega) (dist_toNat_le _ _) (by norm_num) hn

theorem recordAll_first (h : self.rttUs = 0xFFFFFFFF) (s : UInt32) (n : Nat) :
    self.recordAll (List.replicate (n + 1) s) = ⟨s⟩ := by
  induction n with
  | zero => exact record_first h s
  | succ n ih =>
    rw [List.replicate_succ', recordAll_concat, ih]
    by_cases hs : s = 0xFFFFFFFF
    · exact record_first hs s
    · have hsame : (record ⟨s⟩ s).rttUs.toNat = s.toNat := by
        rw [toNat_record hs]
        simp [smooth]
      cases hrecord : record ⟨s⟩ s with
      | mk rttUs =>
        rw [hrecord] at hsame
        exact congrArg mk (UInt32.toNat_inj.mp hsame)

/-- The estimate is there once a sample is, between the least and the greatest of them, and within
seven microseconds of a round trip time that has lasted. -/
theorem rtt_between_samples (samples : List UInt32) :
    ((new.recordAll samples).currentUs = none ↔ ∀ s ∈ samples, s = 0xFFFFFFFF) ∧
      ∀ us, (new.recordAll samples).currentUs = some us →
        (∃ low ∈ samples, low ≤ us) ∧ (∃ high ∈ samples, us ≤ high) ∧
          ∀ before s n, samples = before ++ List.replicate n s → 167 ≤ n →
            Nat.dist us.toNat s.toNat ≤ 7 := by
  have hcurrent : (new.recordAll samples).currentUs =
      if (new.recordAll samples).rttUs = 0xFFFFFFFF then none
      else some (new.recordAll samples).rttUs := rfl
  obtain ⟨hmax, hall⟩ | ⟨hsome, ⟨s, hs, hne⟩, hlow, hhigh⟩ := between_recordAll samples
  · rw [hcurrent, if_pos hmax]
    exact ⟨⟨fun _ => hall, fun _ => rfl⟩, fun us hus => nomatch hus⟩
  · rw [hcurrent, if_neg hsome]
    refine ⟨⟨fun h => (nomatch h), fun h => absurd (h s hs) hne⟩, ?_⟩
    rintro _ ⟨⟩
    refine ⟨hlow, hhigh, ?_⟩
    rintro before s n rfl hn
    have hsplit : new.recordAll (before ++ List.replicate n s) =
        (new.recordAll before).recordAll (List.replicate n s) := List.foldl_append
    rw [hsplit]
    by_cases hbefore : (new.recordAll before).rttUs = 0xFFFFFFFF
    · obtain ⟨n, rfl⟩ : ∃ m, n = m + 1 := ⟨n - 1, by omega⟩
      rw [recordAll_first hbefore, Nat.dist_self]
      omega
    · exact dist_recordAll hbefore s hn

end RttEstimator

end GravitalTalk.Estimators
