import GravitalTalk.Lib.Serial
import GravitalTalk.Metrics.Estimators

/-! The loss bitmap against the sequence numbers recorded.  Sequence numbers are a base and an
offset, so that the offsets are the numbers unwrapped. -/
namespace GravitalTalk.Estimators
open Lib GravitalTalk.Core Serial

/-- A left shift where overflow checks are on; `none` is their panic. -/
def checkedShl (value : UInt64) (amount : UInt32) : Option UInt64 :=
  if amount < 64 then some (value <<< amount.toUInt64) else none

def checkedNeg (value : Int32) : Option Int32 :=
  if value = Int32.minValue then none else some (-value)

namespace LossTracker

def recordChecked (self : LossTracker) (sequence : UInt32) : Option LossTracker :=
  if self.initialised = 0 then
    some { self with highSeq := sequence, bitmap := 1, totalPackets := 1, initialised := 1 }
  else do
    let diff := (sequence - self.highSeq).toInt32
    let self ←
      if diff > 0 then do
        let shift := min diff.toUInt32 lossWindowSize
        let bitmap ← checkedShl self.bitmap shift
        pure { self with bitmap := bitmap ||| 1, highSeq := sequence }
      else if diff < 0 then do
        let gap := (← checkedNeg diff).toUInt32
        let bitmap ←
          if gap < lossWindowSize then (checkedShl 1 gap).map (self.bitmap ||| ·)
          else pure self.bitmap
        pure { self with bitmap := bitmap, reorderCount := self.reorderCount + 1 }
      else pure self
    pure { self with totalPackets := self.totalPackets + 1 }

def recordAll (sequences : List UInt32) : LossTracker := sequences.foldl record new

def recordAllChecked (sequences : List UInt32) : Option LossTracker :=
  sequences.foldlM recordChecked new

def marked (self : LossTracker) (i : Nat) : Bool := self.bitmap.toNat.testBit i

end LossTracker

theorem testBit_shl (word : UInt64) {amount : UInt32} (hamount : amount.toNat < 64) {i : Nat}
    (hi : i < 64) : (word <<< amount.toUInt64).toNat.testBit i =
      (decide (amount.toNat ≤ i) && word.toNat.testBit (i - amount.toNat)) := by
  have hmod : amount.toUInt64.toNat % 64 = amount.toNat := Nat.mod_eq_of_lt hamount
  rw [UInt64.toNat_shiftLeft, Nat.testBit_mod_two_pow, Nat.testBit_shiftLeft, hmod]
  simp [hi]

theorem testBit_one (i : Nat) : (1 : UInt64).toNat.testBit i = decide (i = 0) := by
  rw [Bool.eq_iff_iff, decide_eq_true_eq]
  exact Nat.testBit_one_eq_true_iff_self_eq_zero

theorem testBit_or (a b : UInt64) (i : Nat) :
    (a ||| b).toNat.testBit i = (a.toNat.testBit i || b.toNat.testBit i) := by
  rw [UInt64.toNat_or, Nat.testBit_or]

theorem toInt_distance (a b : UInt32) :
    (a - b).toInt32.toInt = if ahead a b < 2 ^ 31 then (ahead a b : Int) else ahead a b - 2 ^ 32 := by
  have hbits : (a - b).toInt32.toInt = (a - b).toBitVec.toInt := rfl
  rw [hbits, BitVec.toInt_eq_toNat_cond]
  change (if 2 * ahead a b < 2 ^ 32 then (ahead a b : Int) else (ahead a b : Int) - (2 ^ 32 : Nat)) = _
  split_ifs <;> omega

theorem distance_pos_iff {a b : UInt32} :
    0 < (a - b).toInt32 ↔ 0 < ahead a b ∧ ahead a b < 2 ^ 31 := by
  have hlt := ahead_lt a b
  rw [Int32.lt_iff_toInt_lt, toInt_distance]
  change (0 : Int) < _ ↔ _
  split_ifs <;> omega

theorem distance_neg_iff {a b : UInt32} : (a - b).toInt32 < 0 ↔ 2 ^ 31 ≤ ahead a b := by
  have hlt := ahead_lt a b
  rw [Int32.lt_iff_toInt_lt, toInt_distance]
  change _ < (0 : Int) ↔ _
  split_ifs <;> omega

namespace LossTracker
variable {self : LossTracker} {sequence : UInt32}

theorem record_first (h : self.initialised = 0) :
    self.recordChecked sequence = some (self.record sequence) ∧ self.record sequence =
      { self with highSeq := sequence, bitmap := 1, totalPackets := 1, initialised := 1 } := by
  simp only [recordChecked, record, if_pos h, and_self]

theorem min_window (value : UInt32) :
    min value lossWindowSize = if value ≤ lossWindowSize then value else lossWindowSize := rfl

theorem min_window_far {high : UInt32} (hfar : 64 ≤ ahead sequence high) :
    min (sequence - high).toInt32.toUInt32 lossWindowSize = 64 := by
  rw [min_window]
  split_ifs with hle
  · have heq : (sequence - high).toNat ≤ 64 := UInt32.le_iff_toNat_le.mp hle
    exact UInt32.toNat_inj.mp (le_antisymm heq hfar)
  · rfl

section Started
variable (h : self.initialised ≠ 0)
include h

theorem record_newer (hnew : 0 < ahead sequence self.highSeq)
    (hnear : ahead sequence self.highSeq < 64) :
    self.recordChecked sequence = some (self.record sequence) ∧ self.record sequence =
      { self with
        bitmap := self.bitmap <<< (sequence - self.highSeq).toUInt64 ||| 1
        highSeq := sequence
        totalPackets := self.totalPackets + 1 } := by
  have hpos : (sequence - self.highSeq).toInt32 > 0 := distance_pos_iff.mpr ⟨hnew, by omega⟩
  have hlt : sequence - self.highSeq < 64 := UInt32.lt_iff_toNat_lt.mpr hnear
  have hmin : min (sequence - self.highSeq).toInt32.toUInt32 lossWindowSize =
      sequence - self.highSeq := (min_window _).trans (if_pos (UInt32.le_of_lt hlt))
  have hshl : checkedShl self.bitmap (sequence - self.highSeq) =
      some (self.bitmap <<< (sequence - self.highSeq).toUInt64) := if_pos hlt
  simp only [recordChecked, record, if_neg h, if_pos hpos, hmin, hshl]
  exact ⟨rfl, trivial⟩

theorem recordChecked_jump (hfar : 64 ≤ ahead sequence self.highSeq)
    (hspan : ahead sequence self.highSeq < 2 ^ 31) : self.recordChecked sequence = none := by
  have hpos : (sequence - self.highSeq).toInt32 > 0 := distance_pos_iff.mpr ⟨by omega, hspan⟩
  have hshl : checkedShl self.bitmap 64 = none := rfl
  simp only [recordChecked, if_neg h, if_pos hpos, min_window_far hfar, hshl]
  rfl

theorem record_older (hold : 0 < ahead self.highSeq sequence)
    (hspan : ahead self.highSeq sequence < 2 ^ 31) :
    self.recordChecked sequence = some (self.record sequence) ∧ self.record sequence =
      { self with
        bitmap := if ahead self.highSeq sequence < 64 then
          self.bitmap ||| 1 <<< (self.highSeq - sequence).toUInt64 else self.bitmap
        reorderCount := self.reorderCount + 1
        totalPackets := self.totalPackets + 1 } := by
  have hback : ahead sequence self.highSeq = 2 ^ 32 - ahead self.highSeq sequence := by
    have htrans := ahead_trans sequence self.highSeq sequence
    have hlt := ahead_lt sequence self.highSeq
    rw [ahead_self] at htrans
    omega
  have hneg : (sequence - self.highSeq).toInt32 < 0 := distance_neg_iff.mpr (by omega)
  have hpos : ¬(sequence - self.highSeq).toInt32 > 0 := by
    rw [gt_iff_lt, distance_pos_iff]
    omega
  have hmin : (sequence - self.highSeq).toInt32 ≠ Int32.minValue := by
    intro hmin
    have hint := congrArg Int32.toInt hmin
    rw [toInt_distance, if_neg (by omega)] at hint
    change _ = (-2147483648 : Int) at hint
    omega
  have hgap : (-(sequence - self.highSeq).toInt32).toUInt32 = self.highSeq - sequence := by
    rw [Int32.toUInt32_neg, UInt32.toUInt32_toInt32, UInt32.neg_sub]
  have hchecked : checkedNeg (sequence - self.highSeq).toInt32 =
      some (-(sequence - self.highSeq).toInt32) := if_neg hmin
  have hwindow : self.highSeq - sequence < lossWindowSize ↔ ahead self.highSeq sequence < 64 :=
    UInt32.lt_iff_toNat_lt
  simp only [recordChecked, record, if_neg h, if_neg hpos, if_pos hneg, hchecked, hgap, hwindow,
    Option.bind_eq_bind, Option.bind_some]
  split_ifs with hnear
  · have hshl : checkedShl 1 (self.highSeq - sequence) =
        some (1 <<< (self.highSeq - sequence).toUInt64) := if_pos (hwindow.mpr hnear)
    rw [hshl]
    exact ⟨rfl, trivial⟩
  · exact ⟨rfl, trivial⟩

theorem record_newest (hsame : sequence = self.highSeq) :
    self.recordChecked sequence = some (self.record sequence) ∧ self.record sequence =
      { self with totalPackets := self.totalPackets + 1 } := by
  have hzero : (sequence - self.highSeq).toInt32 = 0 := by
    rw [hsame, UInt32.sub_self]
    rfl
  have hpos : ¬(0 : Int32) > 0 := by decide
  simp only [recordChecked, record, if_neg h, hzero, if_neg hpos]
  exact ⟨rfl, trivial⟩

end Started

/-- The tracker after the numbers at `offsets` from `base`, of which `high` is the largest. -/
structure Window (base : UInt32) (offsets : List Nat) (high : Nat) (tracker : LossTracker) : Prop where
  started : tracker.initialised ≠ 0
  seen : high ∈ offsets
  newest : ∀ n ∈ offsets, n ≤ high
  highSeq : tracker.highSeq = base + UInt32.ofNat high
  bits : ∀ i < 64, tracker.marked i ↔ ∃ n ∈ offsets, n + i = high

/-- No number but the first is 64 or more ahead of all that came before it. -/
def NoJump (offsets : List Nat) : Prop :=
  ∀ before n after, offsets = before ++ n :: after → before ≠ [] → ∃ m ∈ before, n < m + 64

theorem noJump_concat {offsets : List Nat} {n : Nat} :
    NoJump (offsets ++ [n]) ↔ NoJump offsets ∧ (offsets ≠ [] → ∃ m ∈ offsets, n < m + 64) := by
  constructor
  · intro h
    refine ⟨fun before m after hsplit => ?_, h offsets n [] rfl⟩
    exact h before m (after ++ [n]) (by rw [hsplit]; simp)
  · rintro ⟨hpast, hlast⟩ before m after hsplit hne
    induction after using List.reverseRecOn with
    | nil =>
      obtain ⟨rfl, hm⟩ := List.append_inj' hsplit rfl
      injection hm with hm
      exact hm ▸ hlast hne
    | append_singleton after last _ =>
      have hregroup : offsets ++ [n] = (before ++ m :: after) ++ [last] := by simpa using hsplit
      exact hpast before m after (List.append_inj' hregroup rfl).1 hne

theorem Window.first {tracker : LossTracker} (h : tracker.initialised = 0) (base : UInt32) (n : Nat) :
    Window base [n] n (tracker.record (base + UInt32.ofNat n)) := by
  obtain ⟨-, hrecord⟩ := @record_first tracker (base + UInt32.ofNat n) h
  rw [hrecord]
  have hone : (1 : UInt32) ≠ 0 := by decide
  refine ⟨hone, by simp, by simp, rfl, fun i _ => ?_⟩
  simp only [marked, testBit_one, decide_eq_true_eq, List.mem_singleton]
  constructor
  · rintro rfl
    exact ⟨n, rfl, rfl⟩
  · rintro ⟨m, rfl, heq⟩
    omega

section Step
variable {base : UInt32} {offsets : List Nat} {high n : Nat} {tracker : LossTracker}
  (h : Window base offsets high tracker)
include h

theorem Window.newer (hnew : high < n) (hnear : n < high + 64) :
    tracker.recordChecked (base + UInt32.ofNat n) = some (tracker.record (base + UInt32.ofNat n)) ∧
      Window base (offsets ++ [n]) n (tracker.record (base + UInt32.ofNat n)) := by
  have hahead : ahead (base + UInt32.ofNat n) tracker.highSeq = n - high := by
    rw [h.highSeq, ahead_offsets base hnew.le (by omega)]
  obtain ⟨hchecked, hrecord⟩ := record_newer h.started (by rw [hahead]; omega) (by rw [hahead]; omega)
  refine ⟨hchecked, ?_⟩
  rw [hrecord]
  refine ⟨h.started, by simp, ?_, rfl, fun i hi => ?_⟩
  · intro m hm
    obtain hm | hm := List.mem_append.mp hm
    · exact (h.newest m hm).trans hnew.le
    · exact (List.mem_singleton.mp hm).le
  · have hamount : (base + UInt32.ofNat n - tracker.highSeq).toNat = n - high := hahead
    have hbits := h.bits (i - (n - high)) (by omega)
    rw [marked] at hbits
    rw [marked, testBit_or, testBit_shl _ (by omega) hi, testBit_one, hamount, Bool.or_eq_true,
      Bool.and_eq_true, decide_eq_true_eq, decide_eq_true_eq, hbits]
    clear hbits
    constructor
    · rintro (⟨hle, m, hm, heq⟩ | rfl)
      · exact ⟨m, List.mem_append_left _ hm, by omega⟩
      · exact ⟨n, by simp, rfl⟩
    · rintro ⟨m, hm, heq⟩
      obtain hm | hm := List.mem_append.mp hm
      · -- nothing recorded lies between the old newest number and the new one
        have hle := h.newest m hm
        exact .inl ⟨by omega, m, hm, by omega⟩
      · have hsame := List.mem_singleton.mp hm
        exact .inr (by omega)

theorem Window.older (hspan : high < 2 ^ 31) (hold : n ≤ high) :
    tracker.recordChecked (base + UInt32.ofNat n) = some (tracker.record (base + UInt32.ofNat n)) ∧
      Window base (offsets ++ [n]) high (tracker.record (base + UInt32.ofNat n)) := by
  have hseen : high ∈ offsets ++ [n] := List.mem_append_left _ h.seen
  have hnewest : ∀ m ∈ offsets ++ [n], m ≤ high := by
    intro m hm
    obtain hm | hm := List.mem_append.mp hm
    · exact h.newest m hm
    · exact List.mem_singleton.mp hm ▸ hold
  obtain heq | hlt := Nat.eq_or_lt_of_le hold
  · subst heq
    obtain ⟨hchecked, hrecord⟩ := record_newest h.started h.highSeq.symm
    refine ⟨hchecked, ?_⟩
    rw [hrecord]
    refine ⟨h.started, hseen, hnewest, h.highSeq, fun i hi => (h.bits i hi).trans ?_⟩
    constructor
    · exact fun ⟨m, hm, heq⟩ => ⟨m, List.mem_append_left _ hm, heq⟩
    · rintro ⟨m, hm, heq⟩
      obtain hm | hm := List.mem_append.mp hm
      · exact ⟨m, hm, heq⟩
      · exact ⟨n, h.seen, List.mem_singleton.mp hm ▸ heq⟩
  · have hahead : ahead tracker.highSeq (base + UInt32.ofNat n) = high - n := by
      rw [h.highSeq, ahead_offsets base hlt.le (by omega)]
    obtain ⟨hchecked, hrecord⟩ := record_older h.started (by rw [hahead]; omega) (by rw [hahead]; omega)
    refine ⟨hchecked, ?_⟩
    rw [hrecord]
    refine ⟨h.started, hseen, hnewest, h.highSeq, fun i hi => ?_⟩
    have hbits := h.bits i hi
    rw [marked] at hbits
    have hmore : (∃ m ∈ offsets ++ [n], m + i = high) ↔
        (∃ m ∈ offsets, m + i = high) ∨ n + i = high := by
      simp [or_and_right, exists_or]
    rw [marked, hmore, ← hbits, hahead]
    clear hbits hmore
    split_ifs with hnear
    · have hgap : (tracker.highSeq - (base + UInt32.ofNat n)).toNat = high - n := hahead
      rw [testBit_or, testBit_shl _ (by omega) hi, testBit_one, hgap, Bool.or_eq_true,
        Bool.and_eq_true, decide_eq_true_eq, decide_eq_true_eq]
      exact or_congr_right (by omega)
    · exact (or_iff_left (by omega)).symm

theorem Window.jump (hspan : n < 2 ^ 31) (hfar : high + 64 ≤ n) :
    tracker.recordChecked (base + UInt32.ofNat n) = none := by
  have hahead : ahead (base + UInt32.ofNat n) tracker.highSeq = n - high := by
    rw [h.highSeq, ahead_offsets base (by omega) (by omega)]
  exact recordChecked_jump h.started (by rw [hahead]; omega) (by rw [hahead]; omega)

end Step

def sequencesFrom (base : UInt32) (offsets : List Nat) : List UInt32 :=
  offsets.map fun n => base + UInt32.ofNat n

theorem recordAll_concat (base : UInt32) (offsets : List Nat) (n : Nat) :
    recordAll (sequencesFrom base (offsets ++ [n])) =
      (recordAll (sequencesFrom base offsets)).record (base + UInt32.ofNat n) := by
  simp [recordAll, sequencesFrom]

theorem recordAllChecked_concat (base : UInt32) (offsets : List Nat) (n : Nat) :
    recordAllChecked (sequencesFrom base (offsets ++ [n])) =
      (recordAllChecked (sequencesFrom base offsets)).bind
        (recordChecked · (base + UInt32.ofNat n)) := by
  simp only [recordAllChecked, sequencesFrom, List.map_append, List.map_cons, List.map_nil,
    List.foldlM_append, List.foldlM_cons, List.foldlM_nil]
  cases (offsets.map fun n => base + UInt32.ofNat n).foldlM recordChecked new <;> simp

section Runs
variable {base : UInt32} {offsets : List Nat} (hspan : ∀ n ∈ offsets, n < 2 ^ 31)
include hspan

theorem window_of_noJump (hjump : NoJump offsets) :
    recordAllChecked (sequencesFrom base offsets) = some (recordAll (sequencesFrom base offsets)) ∧
      (offsets ≠ [] → ∃ high, Window base offsets high (recordAll (sequencesFrom base offsets))) := by
  induction offsets using List.reverseRecOn with
  | nil => exact ⟨rfl, fun h => absurd rfl h⟩
  | append_singleton offsets n ih =>
    obtain ⟨hpast, hlast⟩ := noJump_concat.mp hjump
    obtain ⟨hchecked, hwindow⟩ := ih (fun m hm => hspan m (List.mem_append_left _ hm)) hpast
    rw [recordAllChecked_concat, recordAll_concat, hchecked, Option.bind_some]
    by_cases hne : offsets = []
    · subst hne
      exact ⟨(record_first rfl).1, fun _ => ⟨n, .first rfl base n⟩⟩
    · obtain ⟨high, hwindow⟩ := hwindow hne
      obtain ⟨m, hm, hnear⟩ := hlast hne
      have hle := hwindow.newest m hm
      obtain hold | hnew := le_or_gt n high
      · obtain ⟨hcall, hafter⟩ :=
          hwindow.older (hspan high (List.mem_append_left _ hwindow.seen)) hold
        exact ⟨hcall, fun _ => ⟨high, hafter⟩⟩
      · obtain ⟨hcall, hafter⟩ := hwindow.newer hnew (by omega)
        exact ⟨hcall, fun _ => ⟨n, hafter⟩⟩

theorem overshift_of_jump (hjump : ¬NoJump offsets) :
    recordAllChecked (sequencesFrom base offsets) = none := by
  induction offsets using List.reverseRecOn with
  | nil => exact absurd (fun before n after hsplit => by simp at hsplit) hjump
  | append_singleton offsets n ih =>
    have hspan' : ∀ m ∈ offsets, m < 2 ^ 31 := fun m hm => hspan m (List.mem_append_left _ hm)
    rw [recordAllChecked_concat]
    by_cases hpast : NoJump offsets
    · rw [noJump_concat, not_and] at hjump
      obtain ⟨hne, hfar⟩ := Classical.not_imp.mp (hjump hpast)
      obtain ⟨hchecked, hwindow⟩ := @window_of_noJump base _ hspan' hpast
      obtain ⟨high, hwindow⟩ := hwindow hne
      rw [hchecked, Option.bind_some]
      refine hwindow.jump (hspan n (by simp)) (not_lt.mp fun hnear => ?_)
      exact hfar ⟨high, hwindow.seen, hnear⟩
    · rw [ih hspan' hpast, Option.bind_none]

end Runs

/-- What the bitmap is said to be: no shift is as wide as the word, the newest number is kept, and
bit `i` says whether the number `i` before it came. -/
structure Exact (sequences : List UInt32) (newest : UInt32) : Prop where
  shifts : recordAllChecked sequences = some (recordAll sequences)
  highSeq : (recordAll sequences).highSeq = newest
  bits : ∀ i < 64, (recordAll sequences).marked i ↔ newest - UInt32.ofNat i ∈ sequences

theorem mem_sequencesFrom {base : UInt32} {offsets : List Nat} {high i : Nat}
    (hnewest : ∀ n ∈ offsets, n ≤ high) (hspan : high < 2 ^ 31) (hi : i < 64) :
    base + UInt32.ofNat high - UInt32.ofNat i ∈ sequencesFrom base offsets ↔
      ∃ n ∈ offsets, n + i = high := by
  simp only [sequencesFrom, List.mem_map]
  refine exists_congr fun n => and_congr_right fun hn => ?_
  have hle := hnewest n hn
  have hsum : base + UInt32.ofNat n + UInt32.ofNat i = base + UInt32.ofNat (n + i) := by
    rw [UInt32.add_assoc, ← UInt32.ofNat_add]
  constructor
  · intro heq
    have hoffset : base + UInt32.ofNat (n + i) = base + UInt32.ofNat high := by
      rw [← hsum, heq, UInt32.sub_add_cancel]
    obtain hmore | hless := Nat.le_total high (n + i)
    · exact offset_inj hmore (by omega) hoffset
    · exact (offset_inj hless (by omega) hoffset.symm).symm
  · rintro rfl
    rw [← hsum, UInt32.add_sub_cancel]

/-- The bitmap is exact just when no number but the first is 64 or more ahead of all before it. -/
theorem bitmap_exact_iff (base : UInt32) (offsets : List Nat) (high : Nat) (hseen : high ∈ offsets)
    (hnewest : ∀ n ∈ offsets, n ≤ high) (hspan : high < 2 ^ 31) :
    Exact (sequencesFrom base offsets) (base + UInt32.ofNat high) ↔ NoJump offsets := by
  have hall : ∀ n ∈ offsets, n < 2 ^ 31 := fun n hn => (hnewest n hn).trans_lt hspan
  constructor
  · intro h
    by_contra hjump
    have hnone := @overshift_of_jump base _ hall hjump
    rw [h.shifts] at hnone
    cases hnone
  · intro hjump
    obtain ⟨hchecked, hwindow⟩ := @window_of_noJump base _ hall hjump
    obtain ⟨top, hwindow⟩ := hwindow (List.ne_nil_of_mem hseen)
    obtain rfl : top = high := le_antisymm (hnewest top hwindow.seen) (hwindow.newest high hseen)
    refine ⟨hchecked, hwindow.highSeq, fun i hi => ?_⟩
    rw [mem_sequencesFrom hnewest hspan hi]
    exact hwindow.bits i hi

/-- Across the wrap of the counter, with a late packet and a duplicate. -/
theorem bitmap_exact_wrap : Exact (sequencesFrom 0xFFFFFFFF [0, 3, 1, 3]) 2 := by
  have h := bitmap_exact_iff 0xFFFFFFFF [0, 3, 1, 3] 3 (by simp) (by simp) (by norm_num)
  refine h.mpr fun before n after hsplit hne => ?_
  obtain ⟨first, rest, rfl⟩ := List.exists_cons_of_ne_nil hne
  have hmem : n ∈ [0, 3, 1, 3] := hsplit ▸ by simp
  have hsmall : ∀ m ∈ [0, 3, 1, 3], m ≤ 3 := by decide
  have hle := hsmall n hmem
  exact ⟨first, by simp, by omega⟩

/-- After 0 and 1 a packet comes 64 ahead: the word is shifted by its own width, which panics where
overflow checks are on and shifts nothing where they are off, so that the old marks stay. -/
theorem jump_keeps_marks :
    recordAllChecked (sequencesFrom 0 [0, 1, 65]) = none ∧
      (recordAll (sequencesFrom 0 [0, 1, 65])).marked 1 = true ∧
      (0 + UInt32.ofNat 65 - UInt32.ofNat 1 : UInt32) ∉ sequencesFrom 0 [0, 1, 65] ∧
      ¬Exact (sequencesFrom 0 [0, 1, 65]) (0 + UInt32.ofNat 65) := by
  have hmarked : (recordAll (sequencesFrom 0 [0, 1, 65])).marked 1 = true := by decide +kernel
  have habsent : (0 + UInt32.ofNat 65 - UInt32.ofNat 1 : UInt32) ∉ sequencesFrom 0 [0, 1, 65] := by
    decide
  exact ⟨by decide +kernel, hmarked, habsent, fun h => habsent ((h.bits 1 (by simp)).mp hmarked)⟩

end LossTracker
end GravitalTalk.Estimators
