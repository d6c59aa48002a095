import GravitalTalk.Metrics.LossWindow
import GravitalTalk.Transport.Congestion

/-! The number of lost packets that the loss percentage is made of, against the numbers of the window
that were never recorded. -/
namespace GravitalTalk.Estimators.LossTracker
open Lib GravitalTalk.Core Serial

/-- The numbers of the window, from the oldest recorded on, that were never recorded. -/
def missing (offsets : List Nat) (low high : Nat) : Nat :=
  ((Finset.Icc (max low (high - 63)) high).filter fun n => n ∉ offsets).card

/-- A number 64 or more ahead of all before it. Where overflow checks are off it shifts the bitmap by
nothing, so that every mark afterwards stands for a number as much later as the jump is long. -/
def jump (top n : Nat) : Nat := if top + 64 ≤ n then n - top else 0

/-- The length of all jumps among these numbers, of which those before reach up to `top`. -/
def jumps (top : Nat) : List Nat → Nat
  | [] => 0
  | n :: rest => jump top n + jumps (max top n) rest

/-- The numbers the marks stand for in the end: each number moved up by the jumps that come after it. -/
def landings (top : Nat) : List Nat → List Nat
  | [] => []
  | n :: rest => (n + jumps (max top n) rest) :: landings (max top n) rest

/-- No mark stands for a number of the window that was never recorded. -/
def NoGhost (offsets : List Nat) (high : Nat) : Prop :=
  ∀ n ∈ landings 0 offsets, high < n + 64 → n ∈ offsets

theorem jumps_concat (top : Nat) (offsets : List Nat) (n : Nat) :
    jumps top (offsets ++ [n]) = jumps top offsets + jump (offsets.foldl max top) n := by
  induction offsets generalizing top with
  | nil => simp [jumps]
  | cons m offsets ih =>
    rw [List.cons_append, jumps, jumps, ih, List.foldl_cons, Nat.add_assoc]

theorem landings_concat (top : Nat) (offsets : List Nat) (n : Nat) :
    landings top (offsets ++ [n]) =
      (landings top offsets).map (· + jump (offsets.foldl max top) n) ++ [n] := by
  induction offsets generalizing top with
  | nil => simp [landings, jumps]
  | cons m offsets ih =>
    rw [List.cons_append, landings, landings, ih, jumps_concat, List.foldl_cons, List.map_cons,
      List.cons_append, Nat.add_assoc]

section Record
variable {self : LossTracker} {sequence : UInt32} {base : UInt32} {shown : List Nat} {high n : Nat}
  {tracker : LossTracker}

theorem record_jump (h : self.initialised ≠ 0) (hfar : 64 ≤ ahead sequence self.highSeq)
    (hspan : ahead sequence self.highSeq < 2 ^ 31) :
    self.record sequence =
      { self with
        bitmap := self.bitmap ||| 1
        highSeq := sequence
        totalPackets := self.totalPackets + 1 } := by
  have hpos : (sequence - self.highSeq).toInt32 > 0 := distance_pos_iff.mpr ⟨by omega, hspan⟩
  have hshift : self.bitmap <<< (64 : UInt32).toUInt64 = self.bitmap := by
    apply UInt64.toNat_inj.mp
    have hlt := self.bitmap.toNat_lt
    rw [UInt64.toNat_shiftLeft]
    exact Nat.mod_eq_of_lt hlt
  simp only [record, if_neg h, if_pos hpos, min_window_far hfar, hshift]

theorem Window.jumped (h : Window base shown high tracker) (hspan : n < 2 ^ 31)
    (hfar : high + 64 ≤ n) :
    Window base (shown.map (· + (n - high)) ++ [n]) n (tracker.record (base + UInt32.ofNat n)) := by
  have hahead : ahead (base + UInt32.ofNat n) tracker.highSeq = n - high := by
    rw [h.highSeq, ahead_offsets base (by omega) (by omega)]
  rw [record_jump h.started (by rw [hahead]; omega) (by rw [hahead]; omega)]
  refine ⟨h.started, by simp, ?_, rfl, fun i hi => ?_⟩
  · intro m hm
    obtain hm | hm := List.mem_append.mp hm
    · obtain ⟨k, hk, rfl⟩ := List.mem_map.mp hm
      have hle := h.newest k hk
      omega
    · exact (List.mem_singleton.mp hm).le
  · have hbits := h.bits i hi
    rw [marked] at hbits
    rw [marked, testBit_or, testBit_one, Bool.or_eq_true, decide_eq_true_eq, hbits]
    clear hbits
    constructor
    · rintro (⟨m, hm, heq⟩ | rfl)
      · exact ⟨m + (n - high), List.mem_append_left _ (List.mem_map_of_mem hm), by omega⟩
      · exact ⟨n, by simp, rfl⟩
    · rintro ⟨m, hm, heq⟩
      obtain hm | hm := List.mem_append.mp hm
      · obtain ⟨k, hk, rfl⟩ := List.mem_map.mp hm
        exact .inl ⟨k, hk, by omega⟩
      · have hsame := List.mem_singleton.mp hm
        exact .inr (by omega)

end Record

theorem foldl_max_le_iff {offsets : List Nat} {top bound : Nat} :
    offsets.foldl max top ≤ bound ↔ top ≤ bound ∧ ∀ n ∈ offsets, n ≤ bound := by
  induction offsets generalizing top with
  | nil => simp
  | cons n offsets ih =>
    rw [List.foldl_cons, ih, max_le_iff, List.forall_mem_cons, and_assoc]

theorem window_landings {base : UInt32} {offsets : List Nat} (hspan : ∀ n ∈ offsets, n < 2 ^ 31)
    (hne : offsets ≠ []) :
    Window base (landings 0 offsets) (offsets.foldl max 0)
      (recordAll (sequencesFrom base offsets)) := by
  induction offsets using List.reverseRecOn with
  | nil => exact absurd rfl hne
  | append_singleton offsets n ih =>
    rw [landings_concat, recordAll_concat, List.foldl_append, List.foldl_cons, List.foldl_nil]
    by_cases hfirst : offsets = []
    · subst hfirst
      simpa [landings, recordAll] using Window.first rfl base n
    · have hwindow := ih (fun m hm => hspan m (List.mem_append_left _ hm)) hfirst
      set top := offsets.foldl max 0
      have hn : n < 2 ^ 31 := hspan n (by simp)
      by_cases hfar : top + 64 ≤ n
      · rw [jump, if_pos hfar, max_eq_right (by omega)]
        exact hwindow.jumped hn hfar
      · have hsame : (landings 0 offsets).map (· + jump top n) = landings 0 offsets := by
          rw [jump, if_neg hfar]
          simp
        rw [hsame]
        obtain hold | hnew := le_or_gt n top
        · rw [max_eq_left hold]
          have hpast : ∀ m ∈ offsets, m ≤ 2 ^ 31 - 1 :=
            fun m hm => Nat.le_sub_one_of_lt (hspan m (List.mem_append_left _ hm))
          have htop : top ≤ 2 ^ 31 - 1 := foldl_max_le_iff.mpr ⟨Nat.zero_le _, hpast⟩
          exact (hwindow.older (by omega) hold).2
        · rw [max_eq_right hnew.le]
          exact (hwindow.newer hnew (by omega)).2

theorem jumps_eq_zero {top : Nat} {offsets : List Nat} (h : ∀ m ∈ offsets, m < top + 64) :
    jumps top offsets = 0 := by
  induction offsets generalizing top with
  | nil => rfl
  | cons m offsets ih =>
    rw [List.forall_mem_cons] at h
    have hrest : ∀ k ∈ offsets, k < max top m + 64 := by
      intro k hk
      have hlt := h.2 k hk
      omega
    rw [jumps, ih hrest, jump, if_neg (by omega)]

theorem mem_landings {top : Nat} {offsets : List Nat} {n : Nat} (hn : n ∈ offsets)
    (hnear : ∀ m ∈ offsets, m < n + 64) : n ∈ landings top offsets := by
  induction offsets generalizing top with
  | nil => cases hn
  | cons m offsets ih =>
    rw [List.forall_mem_cons] at hnear
    rw [landings]
    obtain rfl | hn := List.mem_cons.mp hn
    · have hzero : jumps (max top n) offsets = 0 := by
        apply jumps_eq_zero
        intro k hk
        have hlt := hnear.2 k hk
        omega
      rw [hzero]
      exact List.mem_cons_self
    · exact List.mem_cons_of_mem _ (ih hn hnear.2)

theorem landings_eq {top : Nat} {offsets : List Nat}
    (hnear : ∀ n ∈ offsets, ∀ m ∈ offsets, m < n + 64) : landings top offsets = offsets := by
  induction offsets generalizing top with
  | nil => rfl
  | cons n offsets ih =>
    have hzero : jumps (max top n) offsets = 0 := by
      apply jumps_eq_zero
      intro m hm
      have hlt := hnear n List.mem_cons_self m (List.mem_cons_of_mem _ hm)
      omega
    rw [landings, hzero, ih fun k hk m hm =>
      hnear k (List.mem_cons_of_mem _ hk) m (List.mem_cons_of_mem _ hm), Nat.add_zero]

def gaps (marks : List Nat) (high : Nat) : Finset Nat :=
  (Finset.range 64).filter fun i => ∀ n ∈ marks, n + i ≠ high

theorem mem_gaps {marks : List Nat} {high i : Nat} :
    i ∈ gaps marks high ↔ i < 64 ∧ ∀ n ∈ marks, n + i ≠ high := by
  rw [gaps, Finset.mem_filter, Finset.mem_range]

theorem gaps_subset_iff {marks seen : List Nat} {high : Nat} (hle : ∀ n ∈ marks, n ≤ high) :
    gaps seen high ⊆ gaps marks high ↔ ∀ n ∈ marks, high < n + 64 → n ∈ seen := by
  constructor
  · intro hsub n hn hnear
    by_contra habsent
    have hnle := hle n hn
    have hgap : high - n ∈ gaps seen high := by
      refine mem_gaps.mpr ⟨by omega, fun m hm heq => habsent ?_⟩
      have hsame : m = n := by omega
      exact hsame ▸ hm
    exact (mem_gaps.mp (hsub hgap)).2 n hn (by omega)
  · intro hseen i hi
    obtain ⟨hwindow, habsent⟩ := mem_gaps.mp hi
    refine mem_gaps.mpr ⟨hwindow, fun n hn heq => ?_⟩
    exact habsent n (hseen n hn (by omega)) heq

theorem lost_eq_card {base : UInt32} {marks : List Nat} {high : Nat} {tracker : LossTracker}
    (h : Window base marks high tracker) : tracker.lost = (gaps marks high).card := by
  have hcount : ((List.range 64).countP fun i => tracker.bitmap.toNat.testBit i) =
      ((Finset.range 64).filter fun i => tracker.marked i).card := by
    rw [Finset.card_def, Finset.filter_val, Finset.range_val, Multiset.range,
      ← Multiset.countP_eq_card_filter, Multiset.coe_countP]
    apply List.countP_congr
    intro i _
    rw [decide_eq_true_eq]
    rfl
  have hgaps : gaps marks high = (Finset.range 64).filter fun i => ¬tracker.marked i := by
    ext i
    rw [mem_gaps, Finset.mem_filter, Finset.mem_range]
    refine and_congr_right fun hi => ?_
    rw [h.bits i hi]
    push Not
    rfl
  have htotal := Finset.card_filter_add_card_filter_not (s := Finset.range 64)
    (fun i => (tracker.marked i : Prop))
  rw [Finset.card_range] at htotal
  have hwindow : lossWindowSize.toNat = 64 := rfl
  rw [lost, if_neg h.started, hcount, hgaps, hwindow]
  omega

theorem missing_eq_card {offsets : List Nat} {low high : Nat} (hle : low ≤ high) :
    missing offsets low high = ((gaps offsets high).filter fun i => low + i ≤ high).card := by
  rw [missing]
  apply Finset.card_nbij' (high - ·) (high - ·)
  · intro n hn
    simp only [Finset.coe_filter, Finset.mem_Icc, Set.mem_ofPred_eq] at hn
    obtain ⟨⟨hmax, hnle⟩, habsent⟩ := hn
    simp only [Finset.coe_filter, mem_gaps, Set.mem_ofPred_eq]
    refine ⟨⟨by omega, fun m hm heq => habsent ?_⟩, by omega⟩
    have hsame : m = n := by omega
    exact hsame ▸ hm
  · intro i hi
    simp only [Finset.coe_filter, mem_gaps, Set.mem_ofPred_eq] at hi
    obtain ⟨⟨hwindow, habsent⟩, hlow⟩ := hi
    simp only [Finset.coe_filter, Finset.mem_Icc, Set.mem_ofPred_eq]
    exact ⟨by omega, fun hmem => habsent _ hmem (by omega)⟩
  · intro n hn
    simp only [Finset.coe_filter, Finset.mem_Icc, Set.mem_ofPred_eq] at hn
    change high - (high - n) = n
    omega
  · intro i hi
    simp only [Finset.coe_filter, mem_gaps, Set.mem_ofPred_eq] at hi
    change high - (high - i) = i
    omega

theorem gaps_landings_subset {offsets : List Nat} {low high : Nat}
    (hbounds : ∀ n ∈ offsets, low ≤ n ∧ n ≤ high) :
    gaps (landings 0 offsets) high ⊆ gaps offsets high := by
  apply (gaps_subset_iff fun n hn => (hbounds n hn).2).mpr
  intro n hn hnear
  apply mem_landings hn
  intro m hm
  have hle := (hbounds m hm).2
  omega

/-- The gaps are the numbers missing just when the window is full and no mark is a ghost. -/
theorem card_gaps_eq_iff {offsets : List Nat} {low high : Nat}
    (hbounds : ∀ n ∈ offsets, low ≤ n ∧ n ≤ high) (hnewest : ∀ n ∈ landings 0 offsets, n ≤ high) :
    (gaps (landings 0 offsets) high).card =
        ((gaps offsets high).filter fun i => low + i ≤ high).card ↔
      low + 63 ≤ high ∧ NoGhost offsets high := by
  have hsub := gaps_landings_subset hbounds
  have hfull (hle : low + 63 ≤ high) :
      ((gaps offsets high).filter fun i => low + i ≤ high) = gaps offsets high := by
    apply Finset.filter_true_of_mem
    intro i hi
    have hwindow := (mem_gaps.mp hi).1
    omega
  constructor
  · intro hcard
    have hle : low + 63 ≤ high := by
      by_contra hshort
      have hall : landings 0 offsets = offsets := by
        apply landings_eq
        intro n hn m hm
        have hn := hbounds n hn
        have hm := hbounds m hm
        omega
      rw [hall] at hcard
      -- the place before the oldest number counts as lost
      have hbefore : 63 ∈ gaps offsets high := by
        refine mem_gaps.mpr ⟨by norm_num, fun n hn heq => ?_⟩
        have hn := hbounds n hn
        omega
      exact hshort (Finset.card_filter_eq_iff.mp hcard.symm 63 hbefore)
    rw [hfull hle] at hcard
    have heq := Finset.eq_of_subset_of_card_le hsub hcard.ge
    exact ⟨hle, (gaps_subset_iff hnewest).mp heq.ge⟩
  · rintro ⟨hle, hghost⟩
    have hback : gaps offsets high ⊆ gaps (landings 0 offsets) high :=
      (gaps_subset_iff hnewest).mpr hghost
    rw [hfull hle, Finset.Subset.antisymm hsub hback]

section Runs
variable {base : UInt32} {offsets : List Nat} {low high : Nat} (hhigh : high ∈ offsets)
  (hbounds : ∀ n ∈ offsets, low ≤ n ∧ n ≤ high) (hspan : high < 2 ^ 31)
include hhigh hbounds hspan

theorem window_high : Window base (landings 0 offsets) high
    (recordAll (sequencesFrom base offsets)) := by
  have hall : ∀ n ∈ offsets, n < 2 ^ 31 := fun n hn => (hbounds n hn).2.trans_lt hspan
  have htop : offsets.foldl max 0 = high := by
    apply le_antisymm
    · exact foldl_max_le_iff.mpr ⟨Nat.zero_le _, fun n hn => (hbounds n hn).2⟩
    · exact (foldl_max_le_iff.mp le_rfl).2 high hhigh
  rw [← htop]
  exact window_landings hall (List.ne_nil_of_mem hhigh)

theorem lost_eq_missing_iff (hle : low ≤ high) :
    (recordAll (sequencesFrom base offsets)).lost = missing offsets low high ↔
      low + 63 ≤ high ∧ NoGhost offsets high := by
  have hwindow := @window_high base offsets low high hhigh hbounds hspan
  rw [lost_eq_card hwindow, missing_eq_card hle]
  exact card_gaps_eq_iff hbounds hwindow.newest

theorem noGhost_of_noJump (hjump : NoJump offsets) : NoGhost offsets high := by
  have hall : ∀ n ∈ offsets, n < 2 ^ 31 := fun n hn => (hbounds n hn).2.trans_lt hspan
  have hmarks := @window_high 0 offsets low high hhigh hbounds hspan
  obtain ⟨-, hwindow⟩ := @window_of_noJump 0 offsets hall hjump
  obtain ⟨top, hwindow⟩ := hwindow (List.ne_nil_of_mem hhigh)
  have htop : top = high :=
    le_antisymm (hbounds top hwindow.seen).2 (hwindow.newest high hhigh)
  rw [htop] at hwindow
  intro n hn hnear
  have hnle := hmarks.newest n hn
  have hmark := (hmarks.bits (high - n) (by omega)).mpr ⟨n, hn, by omega⟩
  obtain ⟨m, hm, heq⟩ := (hwindow.bits (high - n) (by omega)).mp hmark
  have hsame : m = n := by omega
  exact hsame ▸ hm

end Runs

/-- The numbers lost are those missing from the window just when the window is full and no mark
stands for a number never recorded; where a shift as wide as the word panics, just when the window is
full and no number but the first is 64 or more ahead of all before it. -/
theorem lost_exact_iff (base : UInt32) (offsets : List Nat) (low high : Nat) (hlow : low ∈ offsets)
    (hhigh : high ∈ offsets) (hbounds : ∀ n ∈ offsets, low ≤ n ∧ n ≤ high)
    (hspan : high < 2 ^ 31) :
    ((recordAll (sequencesFrom base offsets)).lost = missing offsets low high ↔
        low + 63 ≤ high ∧ NoGhost offsets high) ∧
      (((recordAllChecked (sequencesFrom base offsets)).map lost = some (missing offsets low high)) ↔
        low + 63 ≤ high ∧ NoJump offsets) := by
  have hcount := @lost_eq_missing_iff base offsets low high hhigh hbounds hspan (hbounds low hlow).2
  refine ⟨hcount, ?_⟩
  have hall : ∀ n ∈ offsets, n < 2 ^ 31 := fun n hn => (hbounds n hn).2.trans_lt hspan
  by_cases hjump : NoJump offsets
  · have hghost := noGhost_of_noJump hhigh hbounds hspan hjump
    obtain ⟨hchecked, -⟩ := @window_of_noJump base offsets hall hjump
    rw [hchecked, Option.map_some, Option.some_inj, hcount, and_iff_left hghost, and_iff_left hjump]
  · have hnone := @overshift_of_jump base offsets hall hjump
    rw [hnone, Option.map_none]
    exact iff_of_false (by simp) fun h => hjump h.2

/-- A full window across the wrap of the counter. -/
theorem lost_exact_full :
    (recordAll (sequencesFrom 0xFFFFFFF0 (List.range 64))).lost = missing (List.range 64) 0 63 := by
  have h := lost_exact_iff 0xFFFFFFF0 (List.range 64) 0 63 (by simp) (by simp)
    (fun n hn => ⟨Nat.zero_le n, Nat.le_of_lt_succ (List.mem_range.mp hn)⟩) (by norm_num)
  exact h.1.mpr ⟨by norm_num, by unfold NoGhost; decide +kernel⟩

/-- The first packet of a stream leaves nothing out, yet 63 packets count as lost, and the bitrate is
cut for them. -/
theorem first_packet_counts_as_loss :
    (recordAll (sequencesFrom 0 [0])).lost = 63 ∧ missing [0] 0 0 = 0 ∧
      (Transport.CongestionController.update ⟨64000, 8000, 128000, by decide⟩
        (recordAll (sequencesFrom 0 [0])).lost lossWindowSize.toNat 0).currentBitrate = 54400 ∧
      ¬∀ (base : UInt32) (offsets : List Nat) (low high : Nat), low ∈ offsets → high ∈ offsets →
        (∀ n ∈ offsets, low ≤ n ∧ n ≤ high) → high < 2 ^ 31 →
          (recordAll (sequencesFrom base offsets)).lost = missing offsets low high := by
  have hlost : (recordAll (sequencesFrom 0 [0])).lost = 63 := by decide +kernel
  have hmissing : missing [0] 0 0 = 0 := by decide
  refine ⟨hlost, hmissing, by rw [hlost]; decide +kernel, fun hclaim => ?_⟩
  have heq := hclaim 0 [0] 0 0 (by simp) (by simp) (by simp) (by norm_num)
  rw [hlost, hmissing] at heq
  cases heq

end GravitalTalk.Estimators.LossTracker
