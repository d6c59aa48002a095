import GravitalTalk.Lib.Serial
import GravitalTalk.Transport.JitterBuffer

/-! What the ring stores: a partial map from sequence numbers to frames whose domain
lies in the window of `capacity` numbers from the cursor.  `Rep` is the representation
invariant, and each operation has one lemma that says what it does to the map. -/
namespace GravitalTalk.Transport.JitterBuffer
open Lib Lib.Serial

def lookup (jb : JitterBuffer) (sequence : UInt32) : Option Frame :=
  let slot := jb.slotAt (jb.slotIdx sequence)
  if slot.occupied && slot.sequence == sequence then slot.frame else none

/-- An occupied slot holds the frame of its own sequence, at that sequence's index, inside the
window; an unoccupied slot holds nothing; and before the first push nothing is occupied. -/
structure Rep (jb : JitterBuffer) : Prop where
  frame_some : ∀ i < jb.capacity.toNat, (jb.slotAt i).occupied = true →
    ∃ frame, (jb.slotAt i).frame = some frame ∧ frame.sequence = (jb.slotAt i).sequence
  index_eq : ∀ i < jb.capacity.toNat, (jb.slotAt i).occupied = true →
    jb.slotIdx (jb.slotAt i).sequence = i
  in_window : ∀ i < jb.capacity.toNat, (jb.slotAt i).occupied = true →
    ahead (jb.slotAt i).sequence jb.nextSeq < jb.capacity.toNat
  frame_none : ∀ i < jb.capacity.toNat, (jb.slotAt i).occupied = false →
    (jb.slotAt i).frame = none
  unprimed : jb.primed = false → ∀ i < jb.capacity.toNat, (jb.slotAt i).occupied = false

theorem slotIdx_inj {jb : JitterBuffer} {a b : UInt32}
    (ha : ahead a jb.nextSeq < jb.capacity.toNat)
    (hb : ahead b jb.nextSeq < jb.capacity.toNat)
    (h : jb.slotIdx a = jb.slotIdx b) : a = b := by
  rw [slotIdx_eq_mod, slotIdx_eq_mod] at h
  exact eq_of_mod_eq jb.capacity_dvd ha hb h

theorem lookup_eq_some {jb : JitterBuffer} {sequence : UInt32} {frame : Frame}
    (h : jb.lookup sequence = some frame) :
    (jb.slotAt (jb.slotIdx sequence)).occupied = true ∧
      (jb.slotAt (jb.slotIdx sequence)).sequence = sequence ∧
      (jb.slotAt (jb.slotIdx sequence)).frame = some frame := by
  unfold lookup at h
  simp only [Bool.and_eq_true, beq_iff_eq] at h
  split_ifs at h with hslot
  exact ⟨hslot.1, hslot.2, h⟩

namespace Rep
variable {jb : JitterBuffer}

theorem lookup_sequence (rep : jb.Rep) {sequence : UInt32} {frame : Frame}
    (h : jb.lookup sequence = some frame) : frame.sequence = sequence := by
  obtain ⟨hocc, hseq, hframe⟩ := lookup_eq_some h
  obtain ⟨stored, hstored, hsame⟩ := rep.frame_some _ (jb.slotIdx_lt sequence) hocc
  rw [hframe] at hstored
  cases hstored
  rw [hsame, hseq]

theorem lookup_window (rep : jb.Rep) {sequence : UInt32} {frame : Frame}
    (h : jb.lookup sequence = some frame) :
    ahead sequence jb.nextSeq < jb.capacity.toNat := by
  obtain ⟨hocc, hseq, -⟩ := lookup_eq_some h
  have := rep.in_window _ (jb.slotIdx_lt sequence) hocc
  rwa [hseq] at this

theorem lookup_unprimed (rep : jb.Rep) (h : jb.primed = false) (sequence : UInt32) :
    jb.lookup sequence = none := by
  simp [lookup, rep.unprimed h _ (jb.slotIdx_lt sequence)]

/-- Inside the window the slot of a sequence is either empty or its own: the collision branch of
`push` is dead. -/
theorem occupied_sequence (rep : jb.Rep) {sequence : UInt32}
    (hwindow : ahead sequence jb.nextSeq < jb.capacity.toNat)
    (hocc : (jb.slotAt (jb.slotIdx sequence)).occupied = true) :
    (jb.slotAt (jb.slotIdx sequence)).sequence = sequence :=
  slotIdx_inj (rep.in_window _ (jb.slotIdx_lt sequence) hocc) hwindow
    (rep.index_eq _ (jb.slotIdx_lt sequence) hocc)

theorem lookup_isSome_iff (rep : jb.Rep) {sequence : UInt32}
    (hwindow : ahead sequence jb.nextSeq < jb.capacity.toNat) :
    (jb.lookup sequence).isSome = (jb.slotAt (jb.slotIdx sequence)).occupied := by
  cases hocc : (jb.slotAt (jb.slotIdx sequence)).occupied with
  | false => simp [lookup, hocc]
  | true =>
    obtain ⟨frame, hframe, -⟩ := rep.frame_some _ (jb.slotIdx_lt sequence) hocc
    simp [lookup, hocc, rep.occupied_sequence hwindow hocc, hframe]

end Rep

theorem rep_new {capacity : UInt32} {jb : JitterBuffer} (h : new capacity = some jb) :
    jb.Rep ∧ jb.primed = false ∧ jb.capacity = capacity := by
  unfold new at h
  split_ifs at h with hvalid
  injection h with h
  subst h
  have hempty : ∀ i < capacity.toNat,
      (List.replicate capacity.toNat Slot.empty).getD i Slot.empty = Slot.empty := by
    intro i hi
    simp [hi]
  refine ⟨⟨?_, ?_, ?_, ?_, ?_⟩, rfl, rfl⟩
  all_goals simp only [slotAt]
  · intro i hi hocc
    rw [hempty i hi] at hocc
    cases hocc
  · intro i hi hocc
    rw [hempty i hi] at hocc
    cases hocc
  · intro i hi hocc
    rw [hempty i hi] at hocc
    cases hocc
  · intro i hi _
    rw [hempty i hi]
    rfl
  · intro _ i hi
    rw [hempty i hi]
    rfl

def Accepts (jb : JitterBuffer) (sequence : UInt32) : Prop :=
  jb.primed = false ∨ ahead sequence jb.nextSeq < jb.capacity.toNat

def cursorFor (jb : JitterBuffer) (sequence : UInt32) : UInt32 :=
  if jb.primed then jb.nextSeq else sequence

theorem store_spec {jb : JitterBuffer} (rep : jb.Rep) (hprimed : jb.primed = true)
    (frame : Frame) (hwindow : ahead frame.sequence jb.nextSeq < jb.capacity.toNat) :
    jb.store frame =
        (true, jb.setSlot (jb.slotIdx frame.sequence) ⟨true, frame.sequence, some frame⟩) ∧
      (jb.setSlot (jb.slotIdx frame.sequence) ⟨true, frame.sequence, some frame⟩).Rep ∧
      ∀ sequence, (jb.setSlot (jb.slotIdx frame.sequence)
        ⟨true, frame.sequence, some frame⟩).lookup sequence =
          if sequence = frame.sequence then some frame else jb.lookup sequence := by
  have hidx := jb.slotIdx_lt frame.sequence
  set idx := jb.slotIdx frame.sequence with hidxDef
  have hget := fun other => jb.slotAt_setSlot idx other ⟨true, frame.sequence, some frame⟩ hidx
  refine ⟨?_, ⟨?_, ?_, ?_, ?_, ?_⟩, ?_⟩
  · unfold store
    rw [if_neg]
    simp only [Bool.and_eq_true, bne_iff_ne, ne_eq, not_and, not_not]
    exact fun hocc => rep.occupied_sequence hwindow hocc
  · intro i hi hocc
    rw [hget] at hocc ⊢
    split_ifs at hocc ⊢ with h
    · exact ⟨frame, rfl, rfl⟩
    · exact rep.frame_some i hi hocc
  · intro i hi hocc
    rw [hget] at hocc ⊢
    split_ifs at hocc ⊢ with h
    · exact h.symm
    · exact rep.index_eq i hi hocc
  · intro i hi hocc
    rw [hget] at hocc ⊢
    split_ifs at hocc ⊢ with h
    · exact hwindow
    · exact rep.in_window i hi hocc
  · intro i hi hocc
    rw [hget] at hocc ⊢
    split_ifs at hocc ⊢ with h
    exact rep.frame_none i hi hocc
  · intro h
    rw [setSlot_primed, hprimed] at h
    cases h
  · intro sequence
    have hsame : (jb.setSlot idx ⟨true, frame.sequence, some frame⟩).slotIdx sequence =
        jb.slotIdx sequence := rfl
    unfold lookup
    rw [hsame, hget]
    by_cases heq : sequence = frame.sequence
    · subst heq
      simp [← hidxDef]
    · by_cases hcollide : jb.slotIdx sequence = idx
      · -- a different sequence with this index lies outside the window, so it was not stored
        have hold : ¬((jb.slotAt idx).occupied = true ∧ (jb.slotAt idx).sequence = sequence) := by
          rintro ⟨hocc, hseq⟩
          exact heq (hseq.symm.trans (rep.occupied_sequence hwindow hocc))
        simp [hcollide, heq, Ne.symm heq, hold]
      · simp [hcollide, heq]

structure Effect (jb jb' : JitterBuffer) (cursor : UInt32) (stored : UInt32 → Option Frame) :
    Prop where
  rep : jb'.Rep
  capacity : jb'.capacity = jb.capacity
  primed : jb'.primed = true
  nextSeq : jb'.nextSeq = cursor
  lookup : ∀ sequence, jb'.lookup sequence = stored sequence

theorem push_accept {jb : JitterBuffer} (rep : jb.Rep) (frame : Frame)
    (h : jb.Accepts frame.sequence) :
    (jb.push frame).1 = true ∧
      Effect jb (jb.push frame).2 (jb.cursorFor frame.sequence)
        (fun sequence => if sequence = frame.sequence then some frame else jb.lookup sequence) := by
  cases hprimed : jb.primed with
  | false =>
    set first : JitterBuffer := { jb with nextSeq := frame.sequence, primed := true } with hfirst
    have hunocc : ∀ i < jb.capacity.toNat, (first.slotAt i).occupied = false := rep.unprimed hprimed
    have hrep : first.Rep := by
      refine ⟨?_, ?_, ?_, rep.frame_none, ?_⟩
      · intro i hi hocc
        rw [hunocc i hi] at hocc
        cases hocc
      · intro i hi hocc
        rw [hunocc i hi] at hocc
        cases hocc
      · intro i hi hocc
        rw [hunocc i hi] at hocc
        cases hocc
      · intro h
        cases h
    have hwindow : ahead frame.sequence first.nextSeq < first.capacity.toNat := by
      rw [hfirst, ahead_self]
      exact jb.capacity_pos
    obtain ⟨hstore, hrep', hlookup⟩ := store_spec hrep rfl frame hwindow
    have hpush : jb.push frame = first.store frame := by
      simp [push, hprimed, hfirst]
    rw [hpush, hstore]
    exact ⟨rfl, hrep', rfl, rfl, by simp [cursorFor, hprimed, hfirst], hlookup⟩
  | true =>
    have hwindow : ahead frame.sequence jb.nextSeq < jb.capacity.toNat := by
      rcases h with h | h
      · rw [hprimed] at h
        cases h
      · exact h
    have hcap := jb.capacity_le
    have hold : ¬frame.sequence - jb.nextSeq > 0x80000000 := by
      rw [gt_iff_lt, UInt32.lt_iff_toNat_lt, Nat.not_lt]
      exact le_trans (Nat.le_of_lt hwindow) (le_trans hcap (by decide))
    have hfar : ¬frame.sequence - jb.nextSeq ≥ jb.capacity := by
      rw [ge_iff_le, UInt32.le_iff_toNat_le, Nat.not_le]
      exact hwindow
    obtain ⟨hstore, hrep', hlookup⟩ := store_spec rep hprimed frame hwindow
    have hpush : jb.push frame = jb.store frame := by
      simp only [push, hprimed, Bool.not_true, Bool.false_eq_true, if_false, hold, hfar]
    rw [hpush, hstore]
    exact ⟨rfl, hrep', rfl, hprimed, by simp [cursorFor, hprimed], hlookup⟩

theorem push_reject {jb : JitterBuffer} (frame : Frame) (h : ¬jb.Accepts frame.sequence) :
    jb.push frame = (false, jb) := by
  simp only [Accepts, not_or, Bool.not_eq_false, Nat.not_lt] at h
  obtain ⟨hprimed, hfar⟩ := h
  have hfar' : frame.sequence - jb.nextSeq ≥ jb.capacity := UInt32.le_iff_toNat_le.mpr hfar
  simp [push, hprimed, hfar']

def Slot.cleared (slot : Slot) : Slot := { slot with occupied := false, frame := none }

section Cleared
variable {jb jb' : JitterBuffer} {gone : Nat → Prop} [DecidablePred gone]

theorem rep_of_cleared (rep : jb.Rep) (hcap : jb'.capacity = jb.capacity)
    (hprimed : jb'.primed = true)
    (hget : ∀ i, jb'.slotAt i = if gone i then Slot.cleared (jb.slotAt i) else jb.slotAt i)
    (hwindow : ∀ i < jb.capacity.toNat, ¬gone i → (jb.slotAt i).occupied = true →
      ahead (jb.slotAt i).sequence jb'.nextSeq < jb.capacity.toNat) : jb'.Rep := by
  have hidx : jb'.slotIdx = jb.slotIdx := by
    funext sequence
    simp [slotIdx, mask, hcap]
  constructor
  case frame_some =>
    intro i hi hocc
    rw [hcap] at hi
    rw [hget] at hocc ⊢
    split_ifs at hocc ⊢
    · cases hocc
    · exact rep.frame_some i hi hocc
  case index_eq =>
    intro i hi hocc
    rw [hcap] at hi
    rw [hget] at hocc ⊢
    split_ifs at hocc ⊢
    · cases hocc
    · rw [hidx]
      exact rep.index_eq i hi hocc
  case in_window =>
    intro i hi hocc
    rw [hcap] at hi ⊢
    rw [hget] at hocc ⊢
    split_ifs at hocc ⊢ with hgone
    · cases hocc
    · exact hwindow i hi hgone hocc
  case frame_none =>
    intro i hi hocc
    rw [hcap] at hi
    rw [hget] at hocc ⊢
    split_ifs at hocc ⊢
    · rfl
    · exact rep.frame_none i hi hocc
  case unprimed =>
    intro h
    rw [hprimed] at h
    cases h

theorem lookup_of_cleared (hcap : jb'.capacity = jb.capacity)
    (hget : ∀ i, jb'.slotAt i = if gone i then Slot.cleared (jb.slotAt i) else jb.slotAt i)
    (sequence : UInt32) :
    jb'.lookup sequence = if gone (jb.slotIdx sequence) then none else jb.lookup sequence := by
  have hidx : jb'.slotIdx sequence = jb.slotIdx sequence := by
    simp [slotIdx, mask, hcap]
  unfold lookup
  rw [hidx, hget]
  by_cases hgone : gone (jb.slotIdx sequence)
  · simp [hgone, Slot.cleared]
  · simp [hgone]

end Cleared

theorem pop_none {jb : JitterBuffer} (rep : jb.Rep) (h : jb.lookup jb.nextSeq = none) :
    jb.pop = (none, jb) := by
  unfold pop
  by_cases hprimed : jb.primed
  · have hwindow : ahead jb.nextSeq jb.nextSeq < jb.capacity.toNat := by
      rw [ahead_self]
      exact jb.capacity_pos
    have hocc := rep.lookup_isSome_iff hwindow
    rw [h] at hocc
    simp [hprimed, ← hocc]
  · simp [hprimed]

theorem primed_of_lookup {jb : JitterBuffer} (rep : jb.Rep) {sequence : UInt32} {frame : Frame}
    (h : jb.lookup sequence = some frame) : jb.primed = true := by
  cases hp : jb.primed with
  | true => rfl
  | false =>
    rw [rep.lookup_unprimed hp] at h
    cases h

theorem pop_some {jb : JitterBuffer} (rep : jb.Rep) {frame : Frame}
    (h : jb.lookup jb.nextSeq = some frame) :
    (jb.pop).1 = some frame ∧
      Effect jb (jb.pop).2 (jb.nextSeq + 1)
        (fun sequence => if sequence = jb.nextSeq then none else jb.lookup sequence) := by
  obtain ⟨hocc, hseq, hframe⟩ := lookup_eq_some h
  have hprimed := primed_of_lookup rep h
  have hidx := jb.slotIdx_lt jb.nextSeq
  set idx := jb.slotIdx jb.nextSeq with hidxDef
  set jb' : JitterBuffer :=
    { jb.setSlot idx (Slot.cleared (jb.slotAt idx)) with nextSeq := jb.nextSeq + 1 } with hjb'
  have hpop : jb.pop = (some frame, jb') := by
    unfold pop
    simp [hprimed, ← hidxDef, hocc, hseq, hframe, hjb', Slot.cleared]
  have hget : ∀ i, jb'.slotAt i = if i = idx then Slot.cleared (jb.slotAt i) else jb.slotAt i := by
    intro i
    rw [show jb'.slotAt i = (jb.setSlot idx (Slot.cleared (jb.slotAt idx))).slotAt i from rfl,
      jb.slotAt_setSlot idx i _ hidx]
    split_ifs with heq
    · rw [heq]
    · rfl
  rw [hpop]
  refine ⟨rfl, rep_of_cleared rep rfl hprimed hget ?_, rfl, hprimed, rfl, ?_⟩
  · -- another slot in the window is at least one step ahead of the old cursor
    intro i hi hne hocc'
    have hwindow := rep.in_window i hi hocc'
    have hpos : ahead (jb.slotAt i).sequence jb.nextSeq ≠ 0 := by
      intro hzero
      have hsame := ahead_inj (hzero.trans (ahead_self jb.nextSeq).symm)
      exact hne (by rw [← rep.index_eq i hi hocc', hsame, hidxDef])
    have hstep := ahead_add_le (jb.slotAt i).sequence jb.nextSeq 1 (by omega)
    rw [show jb'.nextSeq = jb.nextSeq + UInt32.ofNat 1 from rfl, hstep]
    omega
  · intro sequence
    refine (@lookup_of_cleared jb jb' _ _ rfl hget sequence).trans ?_
    by_cases heq : sequence = jb.nextSeq
    · simp [heq, hidxDef]
    · by_cases hcollide : jb.slotIdx sequence = idx
      · -- the slot held the popped frame, so this sequence was not stored
        simp [heq, hcollide, lookup, hseq, Ne.symm heq]
      · simp [heq, hcollide]

theorem clearSlots_spec (jb : JitterBuffer) (next : UInt32) (n : Nat) :
    (jb.clearSlots next n).capacity = jb.capacity ∧
      (jb.clearSlots next n).primed = jb.primed ∧
      ∀ i, (jb.clearSlots next n).slotAt i =
        if ∃ k < n, jb.slotIdx (next + UInt32.ofNat k) = i then Slot.cleared (jb.slotAt i)
        else jb.slotAt i := by
  induction n with
  | zero => simp [clearSlots]
  | succ n ih =>
    obtain ⟨hcap, hprimed, hget⟩ := ih
    have hidx : ∀ sequence, (jb.clearSlots next n).slotIdx sequence = jb.slotIdx sequence := by
      intro sequence
      simp [slotIdx, mask, hcap]
    refine ⟨hcap, hprimed, ?_⟩
    intro i
    simp only [clearSlots]
    rw [slotAt_setSlot _ _ _ _ (slotIdx_lt _ _), hidx]
    by_cases hlast : i = jb.slotIdx (next + UInt32.ofNat n)
    · have hex : ∃ k < n + 1, jb.slotIdx (next + UInt32.ofNat k) = i := ⟨n, by omega, hlast.symm⟩
      rw [if_pos hlast, if_pos hex, ← hlast, hget]
      split_ifs <;> rfl
    · have hiff : (∃ k < n + 1, jb.slotIdx (next + UInt32.ofNat k) = i) ↔
          ∃ k < n, jb.slotIdx (next + UInt32.ofNat k) = i := by
        constructor
        · rintro ⟨k, hk, heq⟩
          rcases Nat.lt_succ_iff_lt_or_eq.mp hk with hlt | rfl
          · exact ⟨k, hlt, heq⟩
          · exact absurd heq.symm hlast
        · rintro ⟨k, hk, heq⟩
          exact ⟨k, by omega, heq⟩
      rw [if_neg hlast, hget, if_congr hiff rfl rfl]

theorem slotIdx_passed_iff {jb : JitterBuffer} {sequence : UInt32} (count : Nat)
    (hwindow : ahead sequence jb.nextSeq < jb.capacity.toNat) :
    (∃ k < count, jb.slotIdx (jb.nextSeq + UInt32.ofNat k) = jb.slotIdx sequence) ↔
      ahead sequence jb.nextSeq < count := by
  constructor
  · rintro ⟨k, hk, heq⟩
    by_contra hle
    have hcap := jb.capacity_le
    have hk' : ahead (jb.nextSeq + UInt32.ofNat k) jb.nextSeq = k := ahead_add_ofNat _ _ (by omega)
    have hsame := slotIdx_inj (by omega) hwindow heq
    rw [hsame] at hk'
    omega
  · intro hlt
    exact ⟨ahead sequence jb.nextSeq, hlt, by rw [add_ahead]⟩

theorem skip_unprimed {jb : JitterBuffer} (h : jb.primed = false) (count : UInt32) :
    jb.skip count = jb := by
  simp [skip, h]

theorem skip_primed {jb : JitterBuffer} (rep : jb.Rep) (hprimed : jb.primed = true)
    (count : UInt32) :
    Effect jb (jb.skip count) (jb.nextSeq + count)
      (fun sequence => if ahead sequence jb.nextSeq < count.toNat then none
        else jb.lookup sequence) := by
  obtain ⟨hcap, hprimed', hget⟩ := clearSlots_spec jb jb.nextSeq count.toNat
  set jb' : JitterBuffer :=
    { jb.clearSlots jb.nextSeq count.toNat with nextSeq := jb.nextSeq + count } with hjb'
  have hskip : jb.skip count = jb' := by
    simp [skip, hprimed, hjb']
  have hget' : ∀ i, jb'.slotAt i =
      if ∃ k < count.toNat, jb.slotIdx (jb.nextSeq + UInt32.ofNat k) = i then
        Slot.cleared (jb.slotAt i)
      else jb.slotAt i := hget
  rw [hskip]
  refine ⟨rep_of_cleared rep hcap (hprimed'.trans hprimed) hget' ?_, hcap,
    hprimed'.trans hprimed, rfl, ?_⟩
  · intro i hi hkept hocc
    have hwindow := rep.in_window i hi hocc
    rw [← rep.index_eq i hi hocc, slotIdx_passed_iff _ hwindow] at hkept
    have hstep := ahead_add_le (jb.slotAt i).sequence jb.nextSeq count.toNat (by omega)
    rw [UInt32.ofNat_toNat] at hstep
    rw [show jb'.nextSeq = jb.nextSeq + count from rfl, hstep]
    omega
  · intro sequence
    refine (@lookup_of_cleared jb jb' _ _ hcap hget' sequence).trans ?_
    by_cases hwindow : ahead sequence jb.nextSeq < jb.capacity.toNat
    · rw [if_congr (slotIdx_passed_iff _ hwindow) rfl rfl]
    · have hnone : jb.lookup sequence = none := by
        cases hl : jb.lookup sequence with
        | none => rfl
        | some frame => exact absurd (rep.lookup_window hl) hwindow
      rw [hnone, ite_self, ite_self]

/-- A deadline only ever discards a gap: no stored frame is touched. -/
theorem popWithDeadline_none {jb : JitterBuffer} (rep : jb.Rep) (hprimed : jb.primed = true)
    (h : jb.lookup jb.nextSeq = none) {nowUs deadlineUs : UInt64} (hexpired : deadlineUs ≤ nowUs) :
    (jb.popWithDeadline nowUs deadlineUs).1 = none ∧
      Effect jb (jb.popWithDeadline nowUs deadlineUs).2 (jb.nextSeq + 1) jb.lookup := by
  have hpop : jb.popWithDeadline nowUs deadlineUs = (none, jb.skip 1) := by
    simp [popWithDeadline, pop_none rep h, hexpired]
  obtain ⟨hrep, hcap, hprimed', hnext, hlookup⟩ := skip_primed rep hprimed 1
  rw [hpop]
  refine ⟨rfl, hrep, hcap, hprimed', hnext, ?_⟩
  intro sequence
  rw [hlookup]
  by_cases hzero : ahead sequence jb.nextSeq < (1 : UInt32).toNat
  · have hone : (1 : UInt32).toNat = 1 := rfl
    have hsame : sequence = jb.nextSeq := by
      apply ahead_inj (b := jb.nextSeq)
      rw [ahead_self]
      omega
    rw [if_pos hzero, hsame, h]
  · rw [if_neg hzero]

/-- The three outcomes of `pop_with_deadline`: the frame at the cursor, a discarded gap, nothing. -/
theorem popWithDeadline_cases {jb : JitterBuffer} (rep : jb.Rep) (nowUs deadlineUs : UInt64) :
    (∃ frame, jb.lookup jb.nextSeq = some frame ∧
        jb.popWithDeadline nowUs deadlineUs = (some frame, jb.pop.2) ∧
        Effect jb jb.pop.2 (jb.nextSeq + 1)
          (fun sequence => if sequence = jb.nextSeq then none else jb.lookup sequence)) ∨
      (jb.primed = true ∧ jb.lookup jb.nextSeq = none ∧ deadlineUs ≤ nowUs ∧
        jb.popWithDeadline nowUs deadlineUs = (none, jb.skip 1) ∧
        Effect jb (jb.skip 1) (jb.nextSeq + 1) jb.lookup) ∨
      (jb.lookup jb.nextSeq = none ∧ (jb.primed = false ∨ ¬deadlineUs ≤ nowUs) ∧
        jb.popWithDeadline nowUs deadlineUs = (none, jb)) := by
  cases hnext : jb.lookup jb.nextSeq with
  | some frame =>
    obtain ⟨hresult, effect⟩ := pop_some rep hnext
    refine .inl ⟨frame, rfl, ?_, effect⟩
    unfold popWithDeadline
    rw [← Prod.mk.eta (p := jb.pop), hresult]
  | none =>
    have hpop := pop_none rep hnext
    by_cases hexpired : deadlineUs ≤ nowUs
    · cases hprimed : jb.primed with
      | true =>
        obtain ⟨-, effect⟩ := popWithDeadline_none rep hprimed hnext hexpired
        have hskip : jb.popWithDeadline nowUs deadlineUs = (none, jb.skip 1) := by
          simp [popWithDeadline, hpop, hexpired]
        rw [hskip] at effect
        exact .inr (.inl ⟨rfl, rfl, hexpired, hskip, effect⟩)
      | false =>
        refine .inr (.inr ⟨rfl, .inl rfl, ?_⟩)
        simp [popWithDeadline, hpop, skip_unprimed hprimed]
    · refine .inr (.inr ⟨rfl, .inr hexpired, ?_⟩)
      simp [popWithDeadline, hpop, hexpired]

end GravitalTalk.Transport.JitterBuffer
