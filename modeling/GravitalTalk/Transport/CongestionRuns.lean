import GravitalTalk.Transport.Construction

/-! The bitrate over many reports: how soon it is down at its bound when the network is congested, and
up again when it is not. -/
namespace GravitalTalk.Transport.CongestionController
open GravitalTalk.Core

structure Report where
  lost : Nat
  window : Nat
  rttUs : UInt64

namespace Report

/-- More than 5 % is lost. -/
def Lossy (report : Report) : Prop := report.lost * 20 > report.window

/-- Little is lost, but it takes more than 150 ms there and back. -/
def Slow (report : Report) : Prop := ¬report.Lossy ∧ report.rttUs > rttThresholdUs

def Clear (report : Report) : Prop := ¬report.Lossy ∧ ¬report.rttUs > rttThresholdUs

end Report

def report (self : CongestionController) (report : Report) : CongestionController :=
  self.update report.lost report.window report.rttUs

structure Bounded (low high : UInt32) (controller : CongestionController) : Prop where
  minBitrate : controller.minBitrate = low
  maxBitrate : controller.maxBitrate = high
  floor : congestionMinBitrate ≤ low
  within : controller.Within low high

theorem toNat_clamp {value low high : UInt32} (h : low ≤ high) :
    (clamp value low high).toNat = max low.toNat (min value.toNat high.toNat) := by
  have hle : low.toNat ≤ high.toNat := UInt32.le_iff_toNat_le.mp h
  unfold clamp
  split_ifs with hlow hhigh
  · have hlt : value.toNat < low.toNat := UInt32.lt_iff_toNat_lt.mp hlow
    omega
  · have hlt : high.toNat < value.toNat := UInt32.lt_iff_toNat_lt.mp hhigh
    omega
  · have hlt : ¬value.toNat < low.toNat := fun h => hlow (UInt32.lt_iff_toNat_lt.mpr h)
    have hlt' : ¬high.toNat < value.toNat := fun h => hhigh (UInt32.lt_iff_toNat_lt.mpr h)
    omega

section Bounds
variable {low high : UInt32} {self : CongestionController} {given : Report}

theorem Bounded.adjust (h : Bounded low high self) (call : Adjustment) :
    Bounded low high (self.adjust call) := by
  obtain ⟨hmin, hmax, hwithin⟩ := self.adjust_bounds call
  rw [h.minBitrate, h.maxBitrate] at hwithin
  exact ⟨hmin.trans h.minBitrate, hmax.trans h.maxBitrate, h.floor, hwithin⟩

theorem Bounded.report (h : Bounded low high self) (given : Report) :
    Bounded low high (self.report given) := h.adjust (.update given.lost given.window given.rttUs)

theorem Bounded.foldl_adjust (h : Bounded low high self) (calls : List Adjustment) :
    Bounded low high (calls.foldl CongestionController.adjust self) := by
  induction calls generalizing self with
  | nil => exact h
  | cons call calls ih => exact ih (h.adjust call)

theorem bounded_of_new {initialBitrate minBitrate maxBitrate : UInt32}
    (h : new initialBitrate minBitrate maxBitrate = some self) :
    Bounded self.minBitrate self.maxBitrate self := by
  refine ⟨rfl, rfl, ?_, within_of_new h⟩
  unfold new at h
  simp only at h
  split_ifs at h with hraised
  all_goals obtain rfl := Option.some.inj h
  · exact UInt32.le_refl _
  · exact UInt32.not_lt.mp hraised

theorem Bounded.low_le_high (h : Bounded low high self) : low.toNat ≤ high.toNat :=
  (UInt32.le_iff_toNat_le.mp h.within.1).trans (UInt32.le_iff_toNat_le.mp h.within.2)

theorem toNat_report (h : Bounded low high self) {value : UInt32}
    (hvalue : (self.report given).currentBitrate = clamp value self.minBitrate self.maxBitrate) :
    (self.report given).currentBitrate.toNat = max low.toNat (min value.toNat high.toNat) := by
  rw [hvalue, h.minBitrate, h.maxBitrate]
  exact toNat_clamp (UInt32.le_iff_toNat_le.mpr h.low_le_high)

theorem toNat_ofNat_part (current : UInt32) {p q : Nat} (hpart : p ≤ q) :
    (UInt32.ofNat (current.toNat * p / q)).toNat = current.toNat * p / q := by
  apply UInt32.toNat_ofNat_of_lt'
  have hlt := current.toNat_lt
  have hle : current.toNat * p / q ≤ current.toNat :=
    Nat.div_le_of_le_mul (by rw [Nat.mul_comm q]; exact Nat.mul_le_mul_left _ hpart)
  exact hle.trans_lt hlt

theorem report_lossy (h : Bounded low high self) (hlossy : given.Lossy) :
    (self.report given).currentBitrate.toNat =
      max low.toNat (min (self.currentBitrate.toNat * 17 / 20) high.toNat) := by
  have hvalue : (self.report given).currentBitrate =
      clamp (UInt32.ofNat (self.currentBitrate.toNat * 17 / 20)) self.minBitrate self.maxBitrate := by
    have hlost : given.lost * 20 > given.window := hlossy
    rw [CongestionController.report, update, if_pos hlost]
  rw [toNat_report h hvalue, toNat_ofNat_part _ (by decide)]

theorem report_slow (h : Bounded low high self) (hslow : given.Slow) :
    (self.report given).currentBitrate.toNat =
      max low.toNat (min (self.currentBitrate.toNat * 19 / 20) high.toNat) := by
  have hvalue : (self.report given).currentBitrate =
      clamp (UInt32.ofNat (self.currentBitrate.toNat * 19 / 20)) self.minBitrate self.maxBitrate := by
    have hlost : ¬given.lost * 20 > given.window := hslow.1
    rw [CongestionController.report, update, if_neg hlost, if_pos hslow.2]
  rw [toNat_report h hvalue, toNat_ofNat_part _ (by decide)]

theorem report_clear (h : Bounded low high self) (hclear : given.Clear) :
    (self.report given).currentBitrate.toNat =
      min (self.currentBitrate.toNat + 2000) high.toNat := by
  have hvalue : (self.report given).currentBitrate =
      clamp (UInt32.ofNat (min (self.currentBitrate.toNat + 2000) 0xFFFFFFFF)) self.minBitrate
        self.maxBitrate := by
    have hlost : ¬given.lost * 20 > given.window := hclear.1
    rw [CongestionController.report, update, if_neg hlost, if_neg hclear.2]
    rfl
  have hsum : (UInt32.ofNat (min (self.currentBitrate.toNat + 2000) 0xFFFFFFFF)).toNat =
      min (self.currentBitrate.toNat + 2000) 0xFFFFFFFF :=
    UInt32.toNat_ofNat_of_lt' (Nat.lt_of_le_of_lt (Nat.min_le_right _ _) (by decide))
  have hlow : low.toNat ≤ self.currentBitrate.toNat := UInt32.le_iff_toNat_le.mp h.within.1
  have hhigh := high.toNat_lt
  have hbounds := h.low_le_high
  rw [toNat_report h hvalue, hsum]
  omega

end Bounds

def reports (self : CongestionController) (given : List Report) : CongestionController :=
  given.foldl report self

section Runs
variable {low high : UInt32} {self : CongestionController} {given : List Report}

theorem Bounded.reports (h : Bounded low high self) (given : List Report) :
    Bounded low high (self.reports given) := by
  unfold CongestionController.reports
  induction given generalizing self with
  | nil => exact h
  | cons first given ih => exact ih (h.report first)

theorem reports_clear (h : Bounded low high self) (hclear : ∀ report ∈ given, report.Clear) :
    (self.reports given).currentBitrate.toNat =
      min (self.currentBitrate.toNat + 2000 * given.length) high.toNat := by
  induction given generalizing self with
  | nil =>
    have hle : self.currentBitrate.toNat ≤ high.toNat := UInt32.le_iff_toNat_le.mp h.within.2
    exact (Nat.min_eq_left hle).symm
  | cons first given ih =>
    have hfirst := report_clear h (hclear first (by simp))
    have hrest := ih (h.report first) fun report hreport => hclear report (by simp [hreport])
    change ((self.report first).reports given).currentBitrate.toNat = _
    rw [hrest, hfirst, List.length_cons]
    omega

/-- Where every report takes the bitrate down to `p / q` of it: it is at the lower bound, or has come
down with every one. -/
theorem reports_cut {p q : Nat} (hpart : p ≤ q) (hq : 0 < q) (h : Bounded low high self)
    (hcut : ∀ report ∈ given, ∀ controller : CongestionController, Bounded low high controller →
      (controller.report report).currentBitrate.toNat =
        max low.toNat (min (controller.currentBitrate.toNat * p / q) high.toNat)) :
    (self.reports given).currentBitrate.toNat = low.toNat ∨
      (self.reports given).currentBitrate.toNat * q ^ given.length ≤
        self.currentBitrate.toNat * p ^ given.length := by
  induction given generalizing self with
  | nil => exact .inr (Nat.le_refl _)
  | cons first given ih =>
    have hfirst := hcut first (by simp) self h
    have hend := ((h.report first).reports given).within.1
    have hlow : low.toNat ≤ ((self.report first).reports given).currentBitrate.toNat :=
      UInt32.le_iff_toNat_le.mp hend
    have hpow : p ^ given.length ≤ q ^ given.length := Nat.pow_le_pow_left hpart _
    change ((self.report first).reports given).currentBitrate.toNat = _ ∨
      ((self.report first).reports given).currentBitrate.toNat * _ ≤ _
    rcases ih (h.report first) fun report hreport => hcut report (by simp [hreport]) with
      hdone | hrest
    · exact .inl hdone
    generalize ((self.report first).reports given).currentBitrate.toNat = final at hlow hrest ⊢
    rcases Nat.le_total (self.currentBitrate.toNat * p / q) low.toNat with hsmall | hlarge
    · -- At the lower bound a report changes nothing.
      have hstart : (self.report first).currentBitrate.toNat = low.toNat := by omega
      left
      rw [hstart] at hrest
      have hle : final * q ^ given.length ≤ low.toNat * q ^ given.length :=
        hrest.trans (Nat.mul_le_mul_left _ hpow)
      exact Nat.le_antisymm (Nat.le_of_mul_le_mul_right hle (Nat.pow_pos hq)) hlow
    · right
      have hstart : (self.report first).currentBitrate.toNat * q ≤ self.currentBitrate.toNat * p :=
        (Nat.mul_le_mul_right q (by omega)).trans (Nat.div_mul_le_self _ q)
      rw [List.length_cons]
      calc final * q ^ (given.length + 1)
          = final * q ^ given.length * q := by rw [pow_succ, mul_assoc]
        _ ≤ (self.report first).currentBitrate.toNat * p ^ given.length * q :=
            Nat.mul_le_mul_right q hrest
        _ = (self.report first).currentBitrate.toNat * q * p ^ given.length := by ring
        _ ≤ self.currentBitrate.toNat * p * p ^ given.length := Nat.mul_le_mul_right _ hstart
        _ = self.currentBitrate.toNat * p ^ (given.length + 1) := by rw [pow_succ']; ring

theorem reports_down {p q m : Nat} (hpart : p ≤ q) (hq : 0 < q) (h : Bounded low high self)
    (hcut : ∀ report ∈ given, ∀ controller : CongestionController, Bounded low high controller →
      (controller.report report).currentBitrate.toNat =
        max low.toNat (min (controller.currentBitrate.toNat * p / q) high.toNat))
    (henough : 733 * p ^ m ≤ q ^ m) (hlong : 2 * m ≤ given.length) :
    (self.reports given).currentBitrate = low := by
  have hend := (h.reports given).within.1
  have hlow : low.toNat ≤ (self.reports given).currentBitrate.toNat :=
    UInt32.le_iff_toNat_le.mp hend
  rcases reports_cut hpart hq h hcut with hdone | hall
  · exact UInt32.toNat.inj hdone
  · exfalso
    have hfloor : 8000 ≤ low.toNat := UInt32.le_iff_toNat_le.mp h.floor
    have hpow : 0 < q ^ given.length := Nat.pow_pos hq
    have hmore : 733 * 733 * p ^ given.length ≤ q ^ given.length := by
      obtain ⟨more, hmore⟩ := Nat.exists_eq_add_of_le hlong
      rw [hmore, pow_add, pow_add, Nat.two_mul, pow_add, pow_add, ← mul_assoc]
      apply Nat.mul_le_mul _ (Nat.pow_le_pow_left hpart more)
      calc 733 * 733 * (p ^ m * p ^ m) = 733 * p ^ m * (733 * p ^ m) := by ring
        _ ≤ q ^ m * q ^ m := Nat.mul_le_mul henough henough
    have hcome : 8000 * q ^ given.length ≤ self.currentBitrate.toNat * p ^ given.length :=
      (Nat.mul_le_mul_right _ (hfloor.trans hlow)).trans hall
    have hstart : (self.currentBitrate.toNat + 1) * p ^ given.length ≤ 2 ^ 32 * p ^ given.length :=
      Nat.mul_le_mul_right _ self.currentBitrate.toNat_lt
    rw [Nat.add_mul, Nat.one_mul] at hstart
    -- 8000 * 733 * 733 is more than 2 ^ 32, so nothing is left.
    have hnone : p ^ given.length = 0 := by omega
    rw [hnone, Nat.mul_zero] at hcome
    omega

end Runs

/-- From every state of a controller: clear reports raise the bitrate by 2000 each up to the upper
bound; 82 lossy ones in a row, or 258 slow ones, bring it down to the lower bound. -/
theorem bitrate_follows {initialBitrate minBitrate maxBitrate : UInt32} {made : CongestionController}
    (hnew : new initialBitrate minBitrate maxBitrate = some made) (calls : List Adjustment)
    (given : List Report) :
    let self := calls.foldl adjust made
    ((∀ report ∈ given, report.Clear) → (self.reports given).currentBitrate.toNat =
      min (self.currentBitrate.toNat + 2000 * given.length) made.maxBitrate.toNat) ∧
    ((∀ report ∈ given, report.Lossy) → 82 ≤ given.length →
      (self.reports given).currentBitrate = made.minBitrate) ∧
    ((∀ report ∈ given, report.Slow) → 258 ≤ given.length →
      (self.reports given).currentBitrate = made.minBitrate) := by
  intro self
  have h : Bounded made.minBitrate made.maxBitrate self := (bounded_of_new hnew).foldl_adjust calls
  refine ⟨reports_clear h, fun hlossy hlong => ?_, fun hslow hlong => ?_⟩
  · exact reports_down (by decide) (by decide) h
      (fun report hreport _ hbounded => report_lossy hbounded (hlossy report hreport))
      (by norm_num : 733 * 17 ^ 41 ≤ 20 ^ 41) hlong
  · exact reports_down (by decide) (by decide) h
      (fun report hreport _ hbounded => report_slow hbounded (hslow report hreport))
      (by norm_num : 733 * 19 ^ 129 ≤ 20 ^ 129) hlong

/-- A tenth lost, 82 times over. -/
theorem bitrate_follows_lossy :
    ∃ made, new 64000 8000 128000 = some made ∧
      (made.reports (List.replicate 82 ⟨1, 10, 0⟩)).currentBitrate = made.minBitrate := by
  obtain ⟨made, hmade⟩ : ∃ made, new 64000 8000 128000 = some made := ⟨_, rfl⟩
  have hfollows := bitrate_follows hmade [] (List.replicate 82 ⟨1, 10, 0⟩)
  exact ⟨made, hmade, hfollows.2.1 (by simp [Report.Lossy]) (by simp)⟩

end GravitalTalk.Transport.CongestionController
