import GravitalTalk.Lib.Bytes

/-! The jitter buffer: a ring of `capacity` slots indexed by `sequence & mask`, and a
cursor `next_seq` that a pop, a skip or an expired deadline moves forward. -/
namespace GravitalTalk.Transport
open Lib

structure Frame where
  sequence : UInt32
  timestamp : UInt64
  payload : Bytes
  deriving DecidableEq, Repr

structure Slot where
  occupied : Bool
  sequence : UInt32
  frame : Option Frame
  deriving DecidableEq, Repr

def Slot.empty : Slot := ⟨false, 0, none⟩

def isPowerOfTwo (n : UInt32) : Bool := (List.range 32).any fun k => n.toNat == 2 ^ k

/-- The two assertions of the constructor. -/
structure ValidCapacity (capacity : UInt32) : Prop where
  powerOfTwo : isPowerOfTwo capacity = true
  notTooLarge : capacity ≤ 2048

instance (capacity : UInt32) : Decidable (ValidCapacity capacity) :=
  decidable_of_iff (isPowerOfTwo capacity = true ∧ capacity ≤ 2048)
    ⟨fun h => ⟨h.1, h.2⟩, fun h => ⟨h.1, h.2⟩⟩

structure JitterBuffer where
  capacity : UInt32
  slots : List Slot
  nextSeq : UInt32
  primed : Bool
  valid : ValidCapacity capacity
  slots_length : slots.length = capacity.toNat

namespace JitterBuffer

/-- `none` is a failed assertion. -/
def new (capacity : UInt32) : Option JitterBuffer :=
  if h : ValidCapacity capacity then
    some {
      capacity := capacity
      slots := List.replicate capacity.toNat Slot.empty
      nextSeq := 0
      primed := false
      valid := h
      slots_length := List.length_replicate }
  else none

def mask (self : JitterBuffer) : UInt32 := self.capacity - 1

def slotIdx (self : JitterBuffer) (sequence : UInt32) : Nat := (sequence &&& self.mask).toNat

def slotAt (self : JitterBuffer) (idx : Nat) : Slot := self.slots.getD idx Slot.empty

def setSlot (self : JitterBuffer) (idx : Nat) (slot : Slot) : JitterBuffer :=
  { self with
    slots := self.slots.set idx slot
    slots_length := by rw [List.length_set, self.slots_length] }

/-- The part of `push` after the window checks. -/
def store (self : JitterBuffer) (frame : Frame) : Bool × JitterBuffer :=
  let idx := self.slotIdx frame.sequence
  let slot := self.slotAt idx
  if slot.occupied && slot.sequence != frame.sequence then (false, self)
  else (true, self.setSlot idx ⟨true, frame.sequence, some frame⟩)

def push (self : JitterBuffer) (frame : Frame) : Bool × JitterBuffer :=
  if !self.primed then
    { self with nextSeq := frame.sequence, primed := true }.store frame
  else if frame.sequence - self.nextSeq > 0x80000000 then (false, self)
  else if frame.sequence - self.nextSeq ≥ self.capacity then (false, self)
  else self.store frame

def pop (self : JitterBuffer) : Option Frame × JitterBuffer :=
  if !self.primed then (none, self)
  else
    let next := self.nextSeq
    let idx := self.slotIdx next
    let slot := self.slotAt idx
    if !slot.occupied then (none, self)
    else if slot.sequence != next then (none, self)
    else
      (slot.frame,
        { self.setSlot idx { slot with occupied := false, frame := none } with
          nextSeq := next + 1 })

/-- Iterations `0 .. count` of the loop of `skip`. -/
def clearSlots (self : JitterBuffer) (next : UInt32) : Nat → JitterBuffer
  | 0 => self
  | i + 1 =>
    let self := self.clearSlots next i
    let idx := self.slotIdx (next + UInt32.ofNat i)
    self.setSlot idx { self.slotAt idx with occupied := false, frame := none }

def skip (self : JitterBuffer) (count : UInt32) : JitterBuffer :=
  if !self.primed then self
  else { self.clearSlots self.nextSeq count.toNat with nextSeq := self.nextSeq + count }

def popWithDeadline (self : JitterBuffer) (nowUs deadlineUs : UInt64) :
    Option Frame × JitterBuffer :=
  match self.pop with
  | (some frame, self) => (some frame, self)
  | (none, self) => if nowUs ≥ deadlineUs then (none, self.skip 1) else (none, self)

theorem capacity_eq_two_pow (self : JitterBuffer) : ∃ k ≤ 11, self.capacity.toNat = 2 ^ k := by
  obtain ⟨hpow, hle⟩ := self.valid
  simp only [isPowerOfTwo, List.any_eq_true, List.mem_range, beq_iff_eq] at hpow
  obtain ⟨k, -, hk⟩ := hpow
  refine ⟨k, ?_, hk⟩
  have hle' : 2 ^ k ≤ 2 ^ 11 := by
    rw [← hk]
    exact UInt32.le_iff_toNat_le.mp hle
  exact (Nat.pow_le_pow_iff_right (by decide)).mp hle'

theorem capacity_pos (self : JitterBuffer) : 0 < self.capacity.toNat := by
  obtain ⟨k, -, hk⟩ := self.capacity_eq_two_pow
  rw [hk]
  positivity

theorem capacity_le (self : JitterBuffer) : self.capacity.toNat ≤ 2048 :=
  UInt32.le_iff_toNat_le.mp self.valid.notTooLarge

theorem capacity_dvd (self : JitterBuffer) : self.capacity.toNat ∣ 2 ^ 32 := by
  obtain ⟨k, hle, hk⟩ := self.capacity_eq_two_pow
  rw [hk]
  exact Nat.pow_dvd_pow 2 (by omega)

theorem slotIdx_eq_mod (self : JitterBuffer) (sequence : UInt32) :
    self.slotIdx sequence = sequence.toNat % self.capacity.toNat := by
  obtain ⟨k, -, hk⟩ := self.capacity_eq_two_pow
  have hpos := self.capacity_pos
  have hmask : self.mask.toNat = 2 ^ k - 1 := by
    have hone : (1 : UInt32) ≤ self.capacity := UInt32.le_iff_toNat_le.mpr hpos
    rw [mask, UInt32.toNat_sub_of_le _ _ hone, hk]
    rfl
  rw [slotIdx, UInt32.toNat_and, hmask, Nat.and_two_pow_sub_one_eq_mod, hk]

theorem slotIdx_lt (self : JitterBuffer) (sequence : UInt32) :
    self.slotIdx sequence < self.capacity.toNat := by
  rw [slotIdx_eq_mod]
  exact Nat.mod_lt _ self.capacity_pos

@[simp] theorem setSlot_capacity (self : JitterBuffer) (idx : Nat) (slot : Slot) :
    (self.setSlot idx slot).capacity = self.capacity := rfl

@[simp] theorem setSlot_nextSeq (self : JitterBuffer) (idx : Nat) (slot : Slot) :
    (self.setSlot idx slot).nextSeq = self.nextSeq := rfl

@[simp] theorem setSlot_primed (self : JitterBuffer) (idx : Nat) (slot : Slot) :
    (self.setSlot idx slot).primed = self.primed := rfl

theorem slotAt_setSlot (self : JitterBuffer) (idx other : Nat) (slot : Slot)
    (h : idx < self.capacity.toNat) :
    (self.setSlot idx slot).slotAt other = if other = idx then slot else self.slotAt other := by
  have hlen : idx < self.slots.length := by rw [self.slots_length]; exact h
  simp only [slotAt, setSlot, List.getD_eq_getElem?_getD, List.getElem?_set]
  by_cases heq : idx = other
  · simp [heq ▸ hlen, heq]
  · simp [heq, Ne.symm heq]

end JitterBuffer
end GravitalTalk.Transport
