import GravitalTalk.Transport.JitterTrace

/-! The ring after any calls: the three fields of a slot agree with each other and with the cursor,
so that a push is refused for its distance from the cursor only. -/
namespace GravitalTalk.Transport.JitterBuffer
open Lib Lib.Serial

/-- An occupied slot holds the frame of its own number, lies at the index of that number, and the
number is inside the window; an unoccupied slot holds nothing. -/
structure SlotConsistent (jb : JitterBuffer) (i : Nat) : Prop where
  frame_some : (jb.slotAt i).occupied = true →
    ∃ frame, (jb.slotAt i).frame = some frame ∧ frame.sequence = (jb.slotAt i).sequence
  index_eq : (jb.slotAt i).occupied = true → ((jb.slotAt i).sequence &&& jb.mask).toNat = i
  in_window : (jb.slotAt i).occupied = true → (jb.slotAt i).sequence - jb.nextSeq < jb.capacity
  frame_none : (jb.slotAt i).occupied = false → (jb.slotAt i).frame = none

theorem Rep.slotConsistent {jb : JitterBuffer} (rep : jb.Rep) {i : Nat}
    (hi : i < jb.capacity.toNat) : jb.SlotConsistent i where
  frame_some := rep.frame_some i hi
  index_eq := rep.index_eq i hi
  in_window hocc := UInt32.lt_iff_toNat_lt.mpr (rep.in_window i hi hocc)
  frame_none := rep.frame_none i hi

/-- The buffer in which a push looks up its slot, unless the window check refuses the frame. -/
def admitted (jb : JitterBuffer) (frame : Frame) : Option JitterBuffer :=
  if !jb.primed then some { jb with nextSeq := frame.sequence, primed := true }
  else if frame.sequence - jb.nextSeq > 0x80000000 then none
  else if frame.sequence - jb.nextSeq ≥ jb.capacity then none
  else some jb

/-- The condition of the slot-collision branch. -/
def collides (jb : JitterBuffer) (frame : Frame) : Bool :=
  (jb.slotAt (jb.slotIdx frame.sequence)).occupied &&
    (jb.slotAt (jb.slotIdx frame.sequence)).sequence != frame.sequence

theorem push_of_admitted {jb target : JitterBuffer} {frame : Frame}
    (h : jb.admitted frame = some target) : jb.push frame = target.store frame := by
  unfold admitted at h
  unfold push
  split_ifs at h ⊢
  · obtain rfl := Option.some.inj h
    rfl
  · obtain rfl := Option.some.inj h
    rfl

theorem store_of_collides {jb : JitterBuffer} {frame : Frame} (h : jb.collides frame = true) :
    jb.store frame = (false, jb) := if_pos h

theorem accepts_of_admitted {jb target : JitterBuffer} {frame : Frame}
    (h : jb.admitted frame = some target) : jb.Accepts frame.sequence := by
  by_contra hrefused
  simp only [Accepts, not_or, Bool.not_eq_false, Nat.not_lt] at hrefused
  obtain ⟨hprimed, hfar⟩ := hrefused
  have hfar' : frame.sequence - jb.nextSeq ≥ jb.capacity := UInt32.le_iff_toNat_le.mpr hfar
  simp [admitted, hprimed, hfar'] at h

theorem push_accepted_iff {jb : JitterBuffer} (rep : jb.Rep) (frame : Frame) :
    (jb.push frame).1 = true ↔ jb.Accepts frame.sequence := by
  constructor
  · intro htrue
    by_contra hrefused
    rw [push_reject frame hrefused] at htrue
    cases htrue
  · intro haccepts
    exact (push_accept rep frame haccepts).1

theorem not_collides_of_admitted {jb target : JitterBuffer} (rep : jb.Rep) {frame : Frame}
    (h : jb.admitted frame = some target) : target.collides frame = false := by
  have htrue := (push_accepted_iff rep frame).mpr (accepts_of_admitted h)
  rw [push_of_admitted h] at htrue
  by_contra hcollides
  rw [store_of_collides (Bool.not_eq_false _ ▸ hcollides)] at htrue
  cases htrue

/-- In every buffer that calls on a new one leave, each slot is consistent, a push is accepted
exactly before the first frame and inside the window, and no frame the window admits collides. -/
theorem ring_invariant (capacity : UInt32) (jb : JitterBuffer) (hreach : Reachable capacity jb) :
    jb.capacity = capacity ∧ (∀ i < capacity.toNat, jb.SlotConsistent i) ∧
      ∀ frame : Frame,
        ((jb.push frame).1 = true ↔
          jb.primed = false ∨ frame.sequence - jb.nextSeq < capacity) ∧
        ∀ target, jb.admitted frame = some target →
          jb.push frame = target.store frame ∧ target.collides frame = false := by
  obtain ⟨rep, hcap⟩ := hreach.rep
  subst hcap
  refine ⟨rfl, fun i hi => rep.slotConsistent hi, fun frame => ⟨?_, ?_⟩⟩
  · rw [push_accepted_iff rep frame, Accepts, UInt32.lt_iff_toNat_lt]
    rfl
  · intro target hadmitted
    exact ⟨push_of_admitted hadmitted, not_collides_of_admitted rep hadmitted⟩

/-- A ring of four slots after a push, a skip over more than the ring and another push. -/
theorem ring_invariant_skipped :
    let jb := ((History.start newOfFour).run
      [.push ⟨7, 0, [1]⟩, .skip 6, .push ⟨14, 0, [2]⟩]).buffer
    jb.nextSeq = 13 ∧ jb.SlotConsistent 2 ∧ (jb.slotAt 2).occupied = true := by
  have hreach : Reachable 4 ((History.start newOfFour).run
      [.push ⟨7, 0, [1]⟩, .skip 6, .push ⟨14, 0, [2]⟩]).buffer := ⟨newOfFour, _, rfl, rfl⟩
  exact ⟨rfl, (ring_invariant 4 _ hreach).2.1 2 (by decide), rfl⟩

end GravitalTalk.Transport.JitterBuffer
