import GravitalTalk.Transport.AudioStream
import GravitalTalk.Transport.FecGroups
import GravitalTalk.Transport.JitterWindow

/-! What the receiver's two buffers hold.  Whatever is true of every frame put into the jitter buffer
is true of every frame in it and of every frame it gives back; and an FEC decoder fed from a stream
has frames of one group of that stream, so what a parity recovers is the one that is missing. -/
namespace GravitalTalk.Transport
open Lib GravitalTalk.Core

namespace JitterBuffer
variable {P : Frame → Prop} {jb : JitterBuffer}

def Holds (P : Frame → Prop) (jb : JitterBuffer) : Prop :=
  ∀ slot ∈ jb.slots, ∀ frame, slot.frame = some frame → P frame

theorem holds_new {capacity : UInt32} (h : new capacity = some jb) : jb.Holds P := by
  unfold new at h
  split_ifs at h
  cases h
  intro slot hmem frame hframe
  rw [List.eq_of_mem_replicate hmem] at hframe
  cases hframe

theorem Holds.slotAt (h : jb.Holds P) (idx : Nat) {frame : Frame}
    (hframe : (jb.slotAt idx).frame = some frame) : P frame := by
  rw [JitterBuffer.slotAt, List.getD_eq_getElem?_getD] at hframe
  cases hget : jb.slots[idx]? with
  | none =>
    rw [hget] at hframe
    cases hframe
  | some slot =>
    rw [hget] at hframe
    exact h slot (List.mem_of_getElem? hget) frame hframe

theorem Holds.setSlot (h : jb.Holds P) (idx : Nat) {slot : Slot}
    (hslot : ∀ frame, slot.frame = some frame → P frame) : (jb.setSlot idx slot).Holds P := by
  intro other hmem
  rcases List.mem_or_eq_of_mem_set hmem with hold | rfl
  · exact h other hold
  · exact hslot

theorem Holds.store (h : jb.Holds P) {frame : Frame} (hframe : P frame) :
    (jb.store frame).2.Holds P := by
  unfold JitterBuffer.store
  simp only
  split_ifs
  · exact h
  · refine h.setSlot _ fun stored hstored => ?_
    cases hstored
    exact hframe

theorem Holds.push (h : jb.Holds P) {frame : Frame} (hframe : P frame) :
    (jb.push frame).2.Holds P := by
  unfold JitterBuffer.push
  split_ifs
  · have hprimed : Holds P { jb with nextSeq := frame.sequence, primed := true } := h
    exact hprimed.store hframe
  · exact h
  · exact h
  · exact h.store hframe

theorem Holds.skip_one (h : jb.Holds P) : (jb.skip 1).Holds P := by
  unfold skip
  split_ifs
  · exact h
  · exact h.setSlot _ fun frame hframe => by cases hframe

theorem Holds.pop (h : jb.Holds P) :
    jb.pop.2.Holds P ∧ ∀ frame, jb.pop.1 = some frame → P frame := by
  unfold JitterBuffer.pop
  simp only
  split_ifs
  · exact ⟨h, fun _ hframe => by cases hframe⟩
  · exact ⟨h, fun _ hframe => by cases hframe⟩
  · exact ⟨h, fun _ hframe => by cases hframe⟩
  · exact ⟨h.setSlot _ (fun _ hframe => by cases hframe), fun _ => h.slotAt _⟩

theorem Holds.popWithDeadline (h : jb.Holds P) (nowUs deadlineUs : UInt64) :
    (jb.popWithDeadline nowUs deadlineUs).2.Holds P ∧
      ∀ frame, (jb.popWithDeadline nowUs deadlineUs).1 = some frame → P frame := by
  obtain ⟨hrest, hpopped⟩ := h.pop
  unfold JitterBuffer.popWithDeadline
  cases hpop : jb.pop with
  | mk popped rest =>
    rw [hpop] at hrest hpopped
    cases popped with
    | some frame => exact ⟨hrest, hpopped⟩
    | none =>
      simp only
      split_ifs
      · exact ⟨hrest.skip_one, fun _ hframe => by cases hframe⟩
      · exact ⟨hrest, fun _ hframe => by cases hframe⟩

end JitterBuffer

namespace FecDecoder
variable {payloads : List Bytes} {dec : FecDecoder}

structure GroupOf (payloads : List Bytes) (dec : FecDecoder) (k : Nat) : Prop where
  base : dec.seqBase = UInt32.ofNat (k * 4)
  frames : ∀ i payload, dec.received[i]? = some (some payload) → payloads[k * 4 + i]? = some payload

structure Holds (payloads : List Bytes) (dec : FecDecoder) : Prop where
  window : dec.window = fecWindow
  group : dec.active = true → ∃ k, k * 4 < 2 ^ 32 ∧ dec.GroupOf payloads k

theorem groupOf_iff (hwindow : dec.window = fecWindow) {k : Nat} :
    dec.GroupOf payloads k ↔ dec.GroupAt payloads k := by
  constructor
  · rintro ⟨hbase, hframes⟩
    exact ⟨by rw [hwindow]; exact hbase, by rw [hwindow]; exact hframes⟩
  · rintro ⟨hbase, hframes⟩
    rw [hwindow] at hbase hframes
    exact ⟨hbase, hframes⟩

theorem holds_iff : dec.Holds payloads ↔ dec.window = fecWindow ∧ dec.Stores payloads := by
  constructor
  · rintro ⟨hwindow, hgroup⟩
    refine ⟨hwindow, fun hactive => ?_⟩
    obtain ⟨k, hk, hof⟩ := hgroup hactive
    exact ⟨k, by rw [hwindow]; exact hk, (groupOf_iff hwindow).mp hof⟩
  · rintro ⟨hwindow, hstores⟩
    refine ⟨hwindow, fun hactive => ?_⟩
    obtain ⟨k, hk, hat⟩ := hstores hactive
    rw [hwindow] at hk
    exact ⟨k, hk, (groupOf_iff hwindow).mpr hat⟩

theorem holds_new : withDefaultWindow.Holds payloads := ⟨rfl, fun h => by cases h⟩

theorem Holds.pushData (h : dec.Holds payloads) {n : Nat} (hn : n < 2 ^ 32) {payload : Bytes}
    (hpayload : payloads[n]? = some payload) :
    (dec.pushData (UInt32.ofNat n) payload).2.Holds payloads := by
  obtain ⟨hwindow, hstores⟩ := holds_iff.mp h
  exact holds_iff.mpr ⟨(dec.pushData_window _ _).trans hwindow, hstores.pushData hn hpayload⟩

theorem Holds.pushParity (h : dec.Holds payloads) {k : Nat} (hk : k * 4 < 2 ^ 32)
    (parity : FecParity) (hbase : parity.seqBase = UInt32.ofNat (k * 4)) :
    (dec.pushParity parity).2.Holds payloads := by
  obtain ⟨hwindow, hstores⟩ := holds_iff.mp h
  have hfour : dec.window.toNat = 4 := congrArg UInt8.toNat hwindow
  refine holds_iff.mpr ⟨(dec.pushParity_window _).trans hwindow, hstores.pushParity (k := k) ?_ _ ?_⟩
  · rwa [hfour]
  · rwa [hfour]

/-- What a parity of the stream recovers: the missing frame, padded to the length of the parity. -/
theorem Holds.recovers (h : dec.Holds payloads) {k : Nat} (hk : k * 4 < 2 ^ 32)
    (hfull : (k + 1) * 4 ≤ payloads.length) {window : UInt8} {sequence : UInt32} {data : Bytes}
    (hsome : (dec.pushParity ⟨UInt32.ofNat (k * 4), window,
      XorParity.parity (fecGroup payloads k)⟩).1 = some (sequence, data)) :
    ∃ lost frame, (dec.selectGroup (UInt32.ofNat (k * 4))).missing = [lost] ∧
      sequence = UInt32.ofNat (k * 4 + lost) ∧ (fecGroup payloads k)[lost]? = some frame ∧
      data = frame ++ List.replicate
        ((XorParity.parity (fecGroup payloads k)).length - frame.length) 0 := by
  obtain ⟨hwindow, hstores⟩ := holds_iff.mp h
  have hfour : dec.window.toNat = 4 := congrArg UInt8.toNat hwindow
  have hgeneral := @Stores.recovers payloads dec k hstores
  rw [hfour] at hgeneral
  obtain ⟨lost, frame, hmissing, -, hsequence, hframe, hdata⟩ := hgeneral hk hfull hsome
  exact ⟨lost, frame, hmissing, hsequence, hframe, hdata⟩

end FecDecoder

end GravitalTalk.Transport
