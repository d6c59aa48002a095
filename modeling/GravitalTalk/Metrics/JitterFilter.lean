import GravitalTalk.Metrics.Estimators
import Mathlib.Tactic.NormNum
import Mathlib.Tactic.SplitIfs

/-! The jitter filter against the recurrence of RFC 3550 over exact integers. -/
namespace GravitalTalk.Estimators

def InI64 (x : Int) : Prop := -2 ^ 63 ≤ x ∧ x < 2 ^ 63

instance (x : Int) : Decidable (InI64 x) := inferInstanceAs (Decidable (_ ∧ _))

/-- A difference of signed words where overflow checks are on; `none` is their panic. -/
def checkedSubSigned (a b : Int64) : Option Int64 :=
  if InI64 (a.toInt - b.toInt) then some (a - b) else none

def checkedSub (a b : UInt64) : Option UInt64 := if b ≤ a then some (a - b) else none

def checkedAdd (a b : UInt64) : Option UInt64 :=
  if a.toNat + b.toNat < 2 ^ 64 then some (a + b) else none

structure Sample where
  sendTsUs : UInt64
  recvTsUs : UInt64
  deriving DecidableEq, Repr

namespace JitterEstimator

def newJChecked (j d : UInt64) : Option UInt64 :=
  if d > j then do checkedAdd j ((← checkedSub d j) / 16)
  else do checkedSub j ((← checkedSub j d) / 16)

def recordChecked (self : JitterEstimator) (sendTsUs recvTsUs : UInt64) :
    Option JitterEstimator := do
  let currentDiff ← checkedSubSigned recvTsUs.toInt64 sendTsUs.toInt64
  let prev := self.prevDiffUs
  if prev = Int64.minValue then
    some { self with prevDiffUs := currentDiff }
  else
    let d := unsignedAbs (← checkedSubSigned currentDiff prev)
    let j := self.jitterUsQ4.toUInt64
    let newJ ← newJChecked j d
    some { jitterUsQ4 := (min newJ 0xFFFFFFFF).toUInt32, prevDiffUs := currentDiff }

def recordAll (self : JitterEstimator) (samples : List Sample) : JitterEstimator :=
  samples.foldl (fun self sample => self.record sample.sendTsUs sample.recvTsUs) self

def recordAllChecked (self : JitterEstimator) (samples : List Sample) : Option JitterEstimator :=
  samples.foldlM (fun self sample => self.recordChecked sample.sendTsUs sample.recvTsUs) self

end JitterEstimator

def transit (sample : Sample) : Int := sample.recvTsUs.toNat - sample.sendTsUs.toNat

def rfcStep (j d : Int) : Int := min (j + (|d| - j).tdiv 16) (2 ^ 32 - 1)

/-- The recurrence from the estimate `j` and the sample before. -/
def rfcJitterFrom (j : Int) (prev : Sample) : List Sample → Int
  | [] => j
  | sample :: rest => rfcJitterFrom (rfcStep j (transit sample - transit prev)) sample rest

def rfcJitter : List Sample → Int
  | [] => 0
  | first :: rest => rfcJitterFrom 0 first rest

/-- After every call: nothing has overflowed, no sample stands for none, and the estimate is that of
the recurrence. -/
def Follows (samples : List Sample) : Prop :=
  ∀ before, before <+: samples →
    JitterEstimator.new.recordAllChecked before = some (JitterEstimator.new.recordAll before) ∧
      (before ≠ [] → (JitterEstimator.new.recordAll before).prevDiffUs ≠ Int64.minValue) ∧
      ((JitterEstimator.new.recordAll before).jitterUsQ4.toNat : Int) = rfcJitter before

def signed (ts : UInt64) : Int := if ts.toNat < 2 ^ 63 then ts.toNat else ts.toNat - 2 ^ 64

def signedTransit (sample : Sample) : Int := signed sample.recvTsUs - signed sample.sendTsUs

/-- How many times 2^64 reading the timestamps as signed takes from `R - S`. -/
def folds (sample : Sample) : Int :=
  (if sample.recvTsUs.toNat < 2 ^ 63 then 0 else 1) - if sample.sendTsUs.toNat < 2 ^ 63 then 0 else 1

/-- The difference is a signed word, and not the marker. -/
def TransitFits (sample : Sample) : Prop :=
  InI64 (signedTransit sample) ∧ signedTransit sample ≠ -2 ^ 63

/-- Reading as signed takes the same from both samples, or the estimate runs into its cap anyway. -/
def SameFold (j : Int) (prev sample : Sample) : Prop :=
  folds sample = folds prev ∨ rfcStep j (signedTransit sample - signedTransit prev) = 2 ^ 32 - 1

def Fits (j : Int) (prev sample : Sample) : Prop :=
  TransitFits sample ∧ InI64 (signedTransit sample - signedTransit prev) ∧ SameFold j prev sample

def AllFitFrom (j : Int) (prev : Sample) : List Sample → Prop
  | [] => True
  | sample :: rest =>
      Fits j prev sample ∧ AllFitFrom (rfcStep j (transit sample - transit prev)) sample rest

def AllFit : List Sample → Prop
  | [] => True
  | first :: rest => TransitFits first ∧ AllFitFrom 0 first rest

theorem toInt_toInt64 (ts : UInt64) : ts.toInt64.toInt = signed ts := by
  have hbits : ts.toInt64.toInt = ts.toBitVec.toInt := rfl
  rw [hbits, BitVec.toInt_eq_toNat_cond]
  change (if 2 * ts.toNat < 2 ^ 64 then (ts.toNat : Int) else (ts.toNat : Int) - (2 ^ 64 : Nat)) = _
  rw [signed]
  split_ifs <;> omega

theorem toInt_sub_of_fits {a b : Int64} (h : InI64 (a.toInt - b.toInt)) :
    (a - b).toInt = a.toInt - b.toInt := by
  rw [InI64] at h
  rw [Int64.toInt_sub]
  apply Int.bmod_eq_of_le
  · omega
  · omega

theorem checkedSubSigned_eq {a b : Int64} (h : InI64 (a.toInt - b.toInt)) :
    checkedSubSigned a b = some (a - b) := if_pos h

theorem checkedSubSigned_none {a b : Int64} (h : ¬InI64 (a.toInt - b.toInt)) :
    checkedSubSigned a b = none := if_neg h

theorem toNat_unsignedAbs (value : Int64) :
    (JitterEstimator.unsignedAbs value).toNat = value.toInt.natAbs := by
  have hsigned : value.toInt = signed value.toUInt64 := toInt_toInt64 value.toUInt64
  have hlt := value.toUInt64.toNat_lt
  have hneg : value < 0 ↔ value.toInt < 0 := Int64.lt_iff_toInt_lt
  rw [JitterEstimator.unsignedAbs]
  split_ifs with hvalue
  · rw [hneg, hsigned, signed] at hvalue
    have hsize : UInt64.size = 2 ^ 64 := rfl
    rw [Int64.toUInt64_neg, UInt64.toNat_neg, hsize, hsigned, signed]
    split_ifs at hvalue ⊢ <;> omega
  · rw [hneg, hsigned, signed] at hvalue
    rw [hsigned, signed]
    split_ifs at hvalue ⊢ <;> omega

theorem signedTransit_eq (sample : Sample) :
    signedTransit sample = transit sample - 2 ^ 64 * folds sample := by
  rw [signedTransit, transit, folds, signed, signed]
  split_ifs <;> omega

theorem rfcStep_eq {j d : Nat} {D : Int} (h : D.natAbs = d) :
    rfcStep j D =
      (min (if d > j then j + (d - j) / 16 else j - (j - d) / 16) (2 ^ 32 - 1) : Nat) := by
  rw [rfcStep, Int.abs_eq_natAbs, h]
  split_ifs with hmore
  · have hdiff : ((d : Int) - j) = ((d - j : Nat) : Int) := by omega
    rw [hdiff, Int.tdiv_eq_ediv_of_nonneg (Int.natCast_nonneg _)]
    omega
  · have hdiff : ((d : Int) - j) = -((j - d : Nat) : Int) := by omega
    rw [hdiff, Int.neg_tdiv, Int.tdiv_eq_ediv_of_nonneg (Int.natCast_nonneg _)]
    omega

theorem rfcStep_cap {j : Nat} {D : Int} (h : 2 ^ 63 ≤ |D|) (hj : j < 2 ^ 32) :
    rfcStep j D = 2 ^ 32 - 1 := by
  rw [Int.abs_eq_natAbs] at h
  have hmore : D.natAbs > j := by omega
  rw [rfcStep_eq rfl, if_pos hmore]
  omega

theorem newJ_up {j d : UInt64} (hmore : j < d) :
    ((d - j) / 16).toNat = (d.toNat - j.toNat) / 16 := by
  rw [UInt64.toNat_div, UInt64.toNat_sub_of_le _ _ (UInt64.le_of_lt hmore)]
  rfl

theorem newJ_down {j d : UInt64} (hle : d ≤ j) :
    ((j - d) / 16).toNat = (j.toNat - d.toNat) / 16 := by
  rw [UInt64.toNat_div, UInt64.toNat_sub_of_le _ _ hle]
  rfl

section Filter
variable {j d : UInt64} (hj : j.toNat < 2 ^ 32) (hmax : d.toNat ≤ 2 ^ 63)
include hj hmax

theorem newJChecked_eq : JitterEstimator.newJChecked j d =
    some (if d > j then j + (d - j) / 16 else j - (j - d) / 16) := by
  rw [JitterEstimator.newJChecked]
  split_ifs with hmore
  · have hup := newJ_up hmore
    have hsum : j.toNat + ((d - j) / 16).toNat < 2 ^ 64 := by omega
    rw [checkedSub, if_pos (UInt64.le_of_lt hmore), Option.bind_eq_bind, Option.bind_some,
      checkedAdd, if_pos hsum]
  · have hle : d ≤ j := UInt64.not_lt.mp hmore
    have hdown := newJ_down hle
    have hsub : (j - d) / 16 ≤ j := by
      rw [UInt64.le_iff_toNat_le]
      omega
    rw [checkedSub, if_pos hle, Option.bind_eq_bind, Option.bind_some, checkedSub, if_pos hsub]

theorem toNat_newJ {D : Int} (hd : D.natAbs = d.toNat) :
    ((min (if d > j then j + (d - j) / 16 else j - (j - d) / 16) 0xFFFFFFFF).toUInt32.toNat : Int) =
      rfcStep j.toNat D := by
  have hcap (n : UInt64) : (min n 0xFFFFFFFF).toUInt32.toNat = min n.toNat (2 ^ 32 - 1) := by
    have hmin : min n 0xFFFFFFFF = if n ≤ 0xFFFFFFFF then n else 0xFFFFFFFF := rfl
    have hle : n ≤ 0xFFFFFFFF ↔ n.toNat ≤ 2 ^ 32 - 1 := UInt64.le_iff_toNat_le
    rw [hmin, UInt64.toNat_toUInt32]
    split_ifs with hsmall
    · rw [hle] at hsmall
      omega
    · rw [hle] at hsmall
      change 0xFFFFFFFF % 2 ^ 32 = _
      omega
  rw [rfcStep_eq hd, hcap]
  congr 2
  have hiff : d > j ↔ d.toNat > j.toNat := UInt64.lt_iff_toNat_lt
  split_ifs with hmore hless hless
  · have hup := newJ_up hmore
    rw [UInt64.toNat_add, hup]
    omega
  · exact absurd (hiff.mp hmore) hless
  · exact absurd (hiff.mpr hless) hmore
  · have hle : d ≤ j := UInt64.not_lt.mp hmore
    have hdown := newJ_down hle
    have hsub : (j - d) / 16 ≤ j := by
      rw [UInt64.le_iff_toNat_le]
      omega
    rw [UInt64.toNat_sub_of_le _ _ hsub, hdown]

end Filter

theorem rfcStep_signed_iff {j : Nat} {prev sample : Sample} (hj : j < 2 ^ 32)
    (hdiff : InI64 (signedTransit sample - signedTransit prev)) :
    rfcStep j (signedTransit sample - signedTransit prev) =
        rfcStep j (transit sample - transit prev) ↔ SameFold j prev sample := by
  have hsample := signedTransit_eq sample
  have hprev := signedTransit_eq prev
  rw [InI64] at hdiff
  rw [SameFold]
  by_cases hfold : folds sample = folds prev
  · have hsame : signedTransit sample - signedTransit prev = transit sample - transit prev := by
      omega
    rw [hsame]
    exact iff_of_true rfl (.inl hfold)
  · have hfar : 2 ^ 63 ≤ |transit sample - transit prev| := by
      rw [Int.abs_eq_natAbs]
      omega
    rw [rfcStep_cap hfar hj, or_iff_right hfold]

namespace JitterEstimator

structure Holds (estimator : JitterEstimator) (prev : Sample) : Prop where
  fits : TransitFits prev
  prevDiffUs : estimator.prevDiffUs.toInt = signedTransit prev

variable {self : JitterEstimator} {prev sample : Sample}

theorem toInt_currentDiff (hrange : InI64 (signedTransit sample)) :
    checkedSubSigned sample.recvTsUs.toInt64 sample.sendTsUs.toInt64 =
        some (sample.recvTsUs.toInt64 - sample.sendTsUs.toInt64) ∧
      (sample.recvTsUs.toInt64 - sample.sendTsUs.toInt64).toInt = signedTransit sample := by
  have hdiff : sample.recvTsUs.toInt64.toInt - sample.sendTsUs.toInt64.toInt =
      signedTransit sample := by
    rw [toInt_toInt64, toInt_toInt64, signedTransit]
  rw [← hdiff] at hrange
  exact ⟨checkedSubSigned_eq hrange, (toInt_sub_of_fits hrange).trans hdiff⟩

theorem ne_minValue_iff {value : Int64} : value ≠ Int64.minValue ↔ value.toInt ≠ -2 ^ 63 :=
  not_congr Int64.toInt_inj.symm

theorem Holds.started (h : self.Holds prev) : self.prevDiffUs ≠ Int64.minValue := by
  rw [ne_minValue_iff, h.prevDiffUs]
  exact h.fits.2

theorem recordChecked_none (h : ¬InI64 (signedTransit sample)) :
    self.recordChecked sample.sendTsUs sample.recvTsUs = none := by
  rw [signedTransit, ← toInt_toInt64, ← toInt_toInt64] at h
  rw [recordChecked, checkedSubSigned_none h]
  rfl

theorem record_first (h : self.prevDiffUs = Int64.minValue) :
    self.record sample.sendTsUs sample.recvTsUs =
      { self with prevDiffUs := sample.recvTsUs.toInt64 - sample.sendTsUs.toInt64 } := by
  rw [record, if_pos h]

theorem record_first_iff (h : self.prevDiffUs = Int64.minValue) :
    (self.recordChecked sample.sendTsUs sample.recvTsUs =
          some (self.record sample.sendTsUs sample.recvTsUs) ∧
        (self.record sample.sendTsUs sample.recvTsUs).prevDiffUs ≠ Int64.minValue) ↔
      TransitFits sample := by
  by_cases hrange : InI64 (signedTransit sample)
  · obtain ⟨hsub, hint⟩ := toInt_currentDiff hrange
    have hchecked : self.recordChecked sample.sendTsUs sample.recvTsUs =
        some (self.record sample.sendTsUs sample.recvTsUs) := by
      rw [recordChecked, hsub, Option.bind_eq_bind, Option.bind_some, if_pos h, record_first h]
    rw [hchecked, record_first h, ne_minValue_iff, hint, TransitFits]
    constructor
    · rintro ⟨-, hne⟩
      exact ⟨hrange, hne⟩
    · intro hfits
      exact ⟨rfl, hfits.2⟩
  · rw [recordChecked_none hrange]
    exact iff_of_false (fun hcall => by cases hcall.1) fun hfits => hrange hfits.1

section Next
variable (h : self.Holds prev)
include h

theorem record_next (hrange : InI64 (signedTransit sample))
    (hdiff : InI64 (signedTransit sample - signedTransit prev)) :
    self.recordChecked sample.sendTsUs sample.recvTsUs =
        some (self.record sample.sendTsUs sample.recvTsUs) ∧
      (self.record sample.sendTsUs sample.recvTsUs).prevDiffUs.toInt = signedTransit sample ∧
      ((self.record sample.sendTsUs sample.recvTsUs).jitterUsQ4.toNat : Int) =
        rfcStep self.jitterUsQ4.toNat (signedTransit sample - signedTransit prev) := by
  obtain ⟨hsub, hint⟩ := toInt_currentDiff hrange
  set currentDiff := sample.recvTsUs.toInt64 - sample.sendTsUs.toInt64 with hcurrent
  rw [← hint, ← h.prevDiffUs] at hdiff
  have hd : (signedTransit sample - signedTransit prev).natAbs =
      (unsignedAbs (currentDiff - self.prevDiffUs)).toNat := by
    rw [toNat_unsignedAbs, toInt_sub_of_fits hdiff, hint, h.prevDiffUs]
  have hj : self.jitterUsQ4.toUInt64.toNat < 2 ^ 32 := self.jitterUsQ4.toNat_lt
  have hmax : (unsignedAbs (currentDiff - self.prevDiffUs)).toNat ≤ 2 ^ 63 := by
    rw [hint, h.prevDiffUs, InI64] at hdiff
    omega
  have hfilter := toNat_newJ hj hmax hd
  refine ⟨?_, ?_, ?_⟩
  · rw [recordChecked, hsub, Option.bind_eq_bind, Option.bind_some, if_neg h.started,
      checkedSubSigned_eq hdiff, Option.bind_some]
    simp only [newJChecked_eq hj hmax, record, if_neg h.started]
    rfl
  · rw [record, if_neg h.started]
    exact hint
  · rw [record, if_neg h.started]
    exact hfilter

theorem recordChecked_next_none (hrange : InI64 (signedTransit sample))
    (hdiff : ¬InI64 (signedTransit sample - signedTransit prev)) :
    self.recordChecked sample.sendTsUs sample.recvTsUs = none := by
  obtain ⟨hsub, hint⟩ := toInt_currentDiff hrange
  rw [← hint, ← h.prevDiffUs] at hdiff
  rw [recordChecked, hsub, Option.bind_eq_bind, Option.bind_some, if_neg h.started,
    checkedSubSigned_none hdiff]
  rfl

/-- One call follows the recurrence just when the sample fits. -/
theorem record_next_iff :
    (self.recordChecked sample.sendTsUs sample.recvTsUs =
          some (self.record sample.sendTsUs sample.recvTsUs) ∧
        (self.record sample.sendTsUs sample.recvTsUs).prevDiffUs ≠ Int64.minValue ∧
        ((self.record sample.sendTsUs sample.recvTsUs).jitterUsQ4.toNat : Int) =
          rfcStep self.jitterUsQ4.toNat (transit sample - transit prev)) ↔
      Fits self.jitterUsQ4.toNat prev sample := by
  by_cases hrange : InI64 (signedTransit sample)
  · by_cases hdiff : InI64 (signedTransit sample - signedTransit prev)
    · obtain ⟨hchecked, hprev, hj⟩ := record_next h hrange hdiff
      rw [hj, rfcStep_signed_iff self.jitterUsQ4.toNat_lt hdiff, ne_minValue_iff, hprev]
      constructor
      · rintro ⟨-, hne, hfold⟩
        exact ⟨⟨hrange, hne⟩, hdiff, hfold⟩
      · rintro ⟨hfits, -, hfold⟩
        exact ⟨hchecked, hfits.2, hfold⟩
    · rw [recordChecked_next_none h hrange hdiff]
      exact iff_of_false (fun hcall => by cases hcall.1) fun hfits => hdiff hfits.2.1
  · rw [recordChecked_none hrange]
    exact iff_of_false (fun hcall => by cases hcall.1) fun hfits => hrange hfits.1.1

theorem Holds.next (hfits : Fits self.jitterUsQ4.toNat prev sample) :
    (self.record sample.sendTsUs sample.recvTsUs).Holds sample :=
  ⟨hfits.1, (record_next h hfits.1.1 hfits.2.1).2.1⟩

end Next

theorem Holds.first (h : self.prevDiffUs = Int64.minValue) (hfits : TransitFits sample) :
    (self.record sample.sendTsUs sample.recvTsUs).Holds sample := by
  refine ⟨hfits, ?_⟩
  rw [record_first h]
  exact (toInt_currentDiff hfits.1).2

theorem recordAllChecked_cons {after : JitterEstimator} {samples : List Sample}
    (h : self.recordChecked sample.sendTsUs sample.recvTsUs = some after) :
    self.recordAllChecked (sample :: samples) = after.recordAllChecked samples := by
  rw [recordAllChecked, List.foldlM_cons, h]
  rfl

def FollowsFrom (self : JitterEstimator) (prev : Sample) (samples : List Sample) : Prop :=
  ∀ before, before <+: samples →
    self.recordAllChecked before = some (self.recordAll before) ∧
      (self.recordAll before).prevDiffUs ≠ Int64.minValue ∧
      ((self.recordAll before).jitterUsQ4.toNat : Int) =
        rfcJitterFrom self.jitterUsQ4.toNat prev before

theorem recordAllChecked_single {after : JitterEstimator} :
    self.recordAllChecked [sample] = some after ↔
      self.recordChecked sample.sendTsUs sample.recvTsUs = some after := by
  rw [recordAllChecked, List.foldlM_cons]
  simp

theorem followsFrom_iff {samples : List Sample} (h : self.Holds prev) :
    self.FollowsFrom prev samples ↔ AllFitFrom self.jitterUsQ4.toNat prev samples := by
  induction samples generalizing self prev with
  | nil =>
    refine iff_of_true (fun before hbefore => ?_) trivial
    rw [List.prefix_nil.mp hbefore]
    exact ⟨rfl, h.started, rfl⟩
  | cons sample samples ih =>
    constructor
    · intro hfollows
      obtain ⟨hchecked, hne, hestimate⟩ := hfollows [sample] (List.prefix_append [sample] samples)
      have hcall := recordAllChecked_single.mp hchecked
      have hj : ((self.record sample.sendTsUs sample.recvTsUs).jitterUsQ4.toNat : Int) =
          rfcStep self.jitterUsQ4.toNat (transit sample - transit prev) := hestimate
      have hfits := (record_next_iff h).mp ⟨hcall, hne, hj⟩
      have hafter : (self.record sample.sendTsUs sample.recvTsUs).FollowsFrom sample samples := by
        intro before hbefore
        have hmore := hfollows (sample :: before) ((List.prefix_cons_inj sample).mpr hbefore)
        rw [recordAllChecked_cons hcall, rfcJitterFrom, ← hj] at hmore
        exact hmore
      have hrest := (ih (h.next hfits)).mp hafter
      rw [hj] at hrest
      exact ⟨hfits, hrest⟩
    · rintro ⟨hfits, hrest⟩ before hbefore
      obtain ⟨hcall, hne, hj⟩ := (record_next_iff h).mpr hfits
      obtain rfl | ⟨tail, rfl, htail⟩ := List.prefix_cons_iff.mp hbefore
      · exact ⟨rfl, h.started, rfl⟩
      · rw [← hj] at hrest
        have hmore := (ih (h.next hfits)).mpr hrest tail htail
        rw [recordAllChecked_cons hcall, rfcJitterFrom, ← hj]
        exact hmore

theorem new_record (first : Sample) :
    ((JitterEstimator.new.record first.sendTsUs first.recvTsUs).jitterUsQ4.toNat : Int) = 0 := by
  rw [record_first rfl]
  rfl

/-- The estimator follows the recurrence after every call just when every sample fits. -/
theorem follows_iff (samples : List Sample) : Follows samples ↔ AllFit samples := by
  have hnew : JitterEstimator.new.prevDiffUs = Int64.minValue := rfl
  cases samples with
  | nil =>
    refine iff_of_true (fun before hbefore => ?_) trivial
    rw [List.prefix_nil.mp hbefore]
    exact ⟨rfl, fun hne => absurd rfl hne, rfl⟩
  | cons first samples =>
    have hzero := new_record first
    constructor
    · intro hfollows
      obtain ⟨hchecked, hne, -⟩ := hfollows [first] (List.prefix_append [first] samples)
      have hcall := recordAllChecked_single.mp hchecked
      have hfits := (record_first_iff hnew).mp ⟨hcall, hne (List.cons_ne_nil _ _)⟩
      have hafter : (JitterEstimator.new.record first.sendTsUs first.recvTsUs).FollowsFrom first
          samples := by
        intro before hbefore
        have hmore := hfollows (first :: before) ((List.prefix_cons_inj first).mpr hbefore)
        rw [recordAllChecked_cons hcall] at hmore
        obtain ⟨hrun, hmarker, hestimate⟩ := hmore
        rw [hzero]
        exact ⟨hrun, hmarker (List.cons_ne_nil _ _), hestimate⟩
      have hrest := (followsFrom_iff (Holds.first hnew hfits)).mp hafter
      rw [hzero] at hrest
      exact ⟨hfits, hrest⟩
    · rintro ⟨hfits, hrest⟩ before hbefore
      obtain ⟨hcall, -⟩ := (record_first_iff hnew).mpr hfits
      obtain rfl | ⟨tail, rfl, htail⟩ := List.prefix_cons_iff.mp hbefore
      · exact ⟨rfl, fun hne => absurd rfl hne, rfl⟩
      · rw [← hzero] at hrest
        obtain ⟨hrun, hmarker, hestimate⟩ :=
          (followsFrom_iff (Holds.first hnew hfits)).mpr hrest tail htail
        rw [hzero] at hestimate
        rw [recordAllChecked_cons hcall]
        exact ⟨hrun, fun _ => hmarker, hestimate⟩

/-- The sender's timestamps can take the transit out of the signed range and onto the marker; and where
nothing overflows, a timestamp 2^64 - 1 later passes for one a microsecond earlier. -/
theorem peer_breaks_filter :
    JitterEstimator.new.recordAllChecked [⟨0x80000000000F4240, 0xF4240⟩] = none ∧
      (JitterEstimator.new.recordAll [⟨0x80000000000F4240, 0xF4240⟩]).prevDiffUs = Int64.minValue ∧
      (JitterEstimator.new.recordAll [⟨0, 5⟩, ⟨0xFFFFFFFFFFFFFFFF, 5⟩]).jitterUsQ4 = 0 ∧
      rfcJitter [⟨0, 5⟩, ⟨0xFFFFFFFFFFFFFFFF, 5⟩] = 2 ^ 32 - 1 ∧ ¬∀ samples, Follows samples := by
  have hnone : JitterEstimator.new.recordAllChecked [⟨0x80000000000F4240, 0xF4240⟩] = none := by
    decide +kernel
  refine ⟨hnone, by decide +kernel, by decide +kernel, by decide +kernel, fun hclaim => ?_⟩
  obtain ⟨hchecked, -⟩ := hclaim _ _ (List.prefix_refl [⟨0x80000000000F4240, 0xF4240⟩])
  rw [hnone] at hchecked
  cases hchecked

end JitterEstimator

end GravitalTalk.Estimators
