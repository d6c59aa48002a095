import GravitalTalk.Core.Constants
import GravitalTalk.Lib.XorParity

/-! Forward error correction: one xor parity for each group of `window` frames.  The decoder keeps
one group at a time, and tries to recover only when a parity arrives. -/
namespace GravitalTalk.Transport
open Lib Lib.XorParity

structure FecParity where
  seqBase : UInt32
  window : UInt8
  payload : Bytes
  deriving DecidableEq, Repr

/-- `window.max(2)`. -/
def groupSize (window : UInt8) : UInt8 := if window < 2 then 2 else window

theorem two_le_groupSize (window : UInt8) : 2 ≤ groupSize window := by
  unfold groupSize
  split_ifs with h
  · exact UInt8.le_refl 2
  · exact UInt8.not_lt.mp h

theorem groupSize_of_two_le {window : UInt8} (h : 2 ≤ window) : groupSize window = window :=
  if_neg (UInt8.not_lt.mpr h)

theorem zero_lt_of_two_le {window : UInt8} (h : 2 ≤ window) : 0 < window :=
  UInt8.lt_iff_toNat_lt.mpr (Nat.lt_of_lt_of_le (by decide) (UInt8.le_iff_toNat_le.mp h))

structure FecEncoder where
  window : UInt8
  parityBuf : Bytes
  count : UInt8
  seqBase : UInt32
  window_ge : 2 ≤ window
  count_lt : count < window

namespace FecEncoder

def new (window : UInt8) : FecEncoder where
  window := groupSize window
  parityBuf := []
  count := 0
  seqBase := 0
  window_ge := two_le_groupSize window
  count_lt := zero_lt_of_two_le (two_le_groupSize window)

def withDefaultWindow : FecEncoder := new Core.fecWindow

def push (self : FecEncoder) (sequence : UInt32) (payload : Bytes) :
    Option FecParity × FecEncoder :=
  let seqBase := if self.count = 0 then sequence else self.seqBase
  let parityBuf := if self.count = 0 then List.replicate payload.length 0 else self.parityBuf
  let parityBuf :=
    if payload.length > parityBuf.length then extend parityBuf payload.length else parityBuf
  let parityBuf := xorInto parityBuf payload
  let count := self.count + 1
  if h : count ≥ self.window then
    (some ⟨seqBase, self.window, parityBuf⟩,
      { self with
        parityBuf := []
        count := 0
        seqBase := seqBase
        count_lt := zero_lt_of_two_le self.window_ge })
  else
    (none,
      { self with
        parityBuf := parityBuf
        count := count
        seqBase := seqBase
        count_lt := UInt8.not_le.mp h })

end FecEncoder

structure FecDecoder where
  window : UInt8
  seqBase : UInt32
  received : List (Option Bytes)
  parity : Option Bytes
  active : Bool
  window_ge : 2 ≤ window
  received_length : active = true → received.length = window.toNat

namespace FecDecoder

def new (window : UInt8) : FecDecoder where
  window := groupSize window
  seqBase := 0
  received := []
  parity := none
  active := false
  window_ge := two_le_groupSize window
  received_length := by simp

def withDefaultWindow : FecDecoder := new Core.fecWindow

def reset (self : FecDecoder) : FecDecoder :=
  { self with
    active := false
    received := []
    parity := none
    received_length := by simp }

def startGroup (self : FecDecoder) (seqBase : UInt32) : FecDecoder :=
  { self with
    seqBase := seqBase
    received := List.replicate self.window.toNat none
    parity := none
    active := true
    received_length := fun _ => List.length_replicate }

def selectGroup (self : FecDecoder) (seqBase : UInt32) : FecDecoder :=
  if !self.active || self.seqBase != seqBase then self.startGroup seqBase else self

def pushData (self : FecDecoder) (sequence : UInt32) (payload : Bytes) : Bool × FecDecoder :=
  let window := self.window.toUInt32
  let groupBase := sequence - sequence % window
  let self := self.selectGroup groupBase
  let offset := (sequence - self.seqBase).toNat
  if offset < self.window.toNat then
    (true,
      { self with
        received := self.received.set offset (some payload)
        received_length := fun h => by rw [List.length_set, self.received_length h] })
  else (false, self)

def missing (self : FecDecoder) : List Nat :=
  (List.range self.received.length).filter fun i => (self.received.getD i none).isNone

def xorOthers (received : List (Option Bytes)) (lostIdx : Nat) (parity : Bytes) : Bytes :=
  received.zipIdx.foldl (fun acc entry =>
    if entry.2 = lostIdx then acc
    else match entry.1 with
      | some data => xorInto acc data
      | none => acc) parity

def tryRecover (self : FecDecoder) : Option (UInt32 × Bytes) :=
  match self.parity with
  | none => none
  | some parity =>
    match self.missing with
    | [lostIdx] =>
      some (self.seqBase + UInt32.ofNat lostIdx, xorOthers self.received lostIdx parity)
    | _ => none

/-- `parity.window` is not looked at. -/
def pushParity (self : FecDecoder) (parity : FecParity) : Option (UInt32 × Bytes) × FecDecoder :=
  let self := self.selectGroup parity.seqBase
  let self := { self with parity := some parity.payload }
  (self.tryRecover, self)

end FecDecoder

namespace FecEncoder

/-- The frames pushed since the last parity, the first of them at `base`. -/
structure Group (enc : FecEncoder) (base : UInt32) (frames : List Bytes) : Prop where
  count : enc.count.toNat = frames.length
  seqBase : frames ≠ [] → enc.seqBase = base
  parityBuf : frames ≠ [] → enc.parityBuf = XorParity.parity frames

theorem group_new (window : UInt8) (base : UInt32) : Group (new window) base [] :=
  ⟨rfl, fun h => absurd rfl h, fun h => absurd rfl h⟩

private theorem nextParity {enc : FecEncoder} {base : UInt32} {frames : List Bytes}
    (group : Group enc base frames) (payload : Bytes) :
    (let buf := if enc.count = 0 then List.replicate payload.length 0 else enc.parityBuf
     let buf := if payload.length > buf.length then extend buf payload.length else buf
     xorInto buf payload) = XorParity.parity (frames ++ [payload]) := by
  have hextend : ∀ buf : Bytes,
      (if payload.length > buf.length then extend buf payload.length else buf) =
        extend buf payload.length := by
    intro buf
    split_ifs with h
    · rfl
    · simp [extend, Nat.sub_eq_zero_of_le (Nat.not_lt.mp h)]
  simp only [hextend, parity_concat, addFrame]
  have hzero : enc.count = 0 ↔ frames = [] := by
    rw [← List.length_eq_zero_iff, ← group.count, ← UInt8.toNat_inj]
    rfl
  by_cases hempty : frames = []
  · rw [if_pos (hzero.mpr hempty), hempty]
    simp [extend, XorParity.parity]
  · rw [if_neg (mt hzero.mp hempty), group.parityBuf hempty]

theorem group_base {enc : FecEncoder} {base sequence : UInt32} {frames : List Bytes}
    (group : Group enc base frames) (hseq : frames = [] → sequence = base) :
    (if enc.count = 0 then sequence else enc.seqBase) = base := by
  split_ifs with h
  · apply hseq
    rw [← List.length_eq_zero_iff, ← group.count, h]
    rfl
  · apply group.seqBase
    rintro rfl
    exact h (UInt8.toNat_inj.mp group.count)

theorem count_succ (enc : FecEncoder) : (enc.count + 1).toNat = enc.count.toNat + 1 := by
  have hlt := UInt8.lt_iff_toNat_lt.mp enc.count_lt
  have hwindow := enc.window.toNat_lt
  rw [UInt8.toNat_add, show (1 : UInt8).toNat = 1 from rfl, Nat.mod_eq_of_lt (by omega)]

/-- A frame short of the window adds to the group; the last one yields the group's parity. -/
theorem push_spec {enc : FecEncoder} {base sequence : UInt32} {frames : List Bytes}
    (group : Group enc base frames) (hseq : frames = [] → sequence = base) (payload : Bytes) :
    (enc.push sequence payload).2.window = enc.window ∧
      if frames.length + 1 < enc.window.toNat then
        (enc.push sequence payload).1 = none ∧
          Group (enc.push sequence payload).2 base (frames ++ [payload])
      else
        (enc.push sequence payload).1 =
            some ⟨base, enc.window, XorParity.parity (frames ++ [payload])⟩ ∧
          ∀ base', Group (enc.push sequence payload).2 base' [] := by
  have hparity := nextParity group payload
  have hbase := group_base group hseq
  have hcount := enc.count_succ
  rw [group.count] at hcount
  simp only at hparity
  unfold push
  simp only [hparity, hbase]
  by_cases hfull : enc.count + 1 ≥ enc.window
  · have hle := UInt8.le_iff_toNat_le.mp hfull
    rw [hcount] at hle
    rw [dif_pos hfull, if_neg (by omega)]
    exact ⟨rfl, rfl, fun base' => ⟨rfl, fun h => absurd rfl h, fun h => absurd rfl h⟩⟩
  · have hlt := UInt8.lt_iff_toNat_lt.mp (UInt8.not_le.mp hfull)
    rw [hcount] at hlt
    rw [dif_neg hfull, if_pos (by omega)]
    exact ⟨rfl, rfl, ⟨by simpa using hcount, fun _ => rfl, fun _ => rfl⟩⟩

end FecEncoder

namespace FecDecoder

theorem selectGroup_spec (dec : FecDecoder) (seqBase : UInt32) :
    (dec.selectGroup seqBase).active = true ∧ (dec.selectGroup seqBase).seqBase = seqBase ∧
      (dec.selectGroup seqBase).window = dec.window := by
  unfold selectGroup
  split_ifs with h
  · exact ⟨rfl, rfl, rfl⟩
  · simp only [Bool.or_eq_true, Bool.not_eq_true', bne_iff_ne, ne_eq, not_or, Bool.not_eq_false,
      not_not] at h
    exact ⟨h.1, h.2, rfl⟩

theorem selectGroup_eq_self {dec : FecDecoder} {seqBase : UInt32} (hactive : dec.active = true)
    (hbase : dec.seqBase = seqBase) : dec.selectGroup seqBase = dec := by
  simp [selectGroup, hactive, hbase]

theorem sub_mod_offset (sequence : UInt32) (window : UInt8) :
    (sequence - (sequence - sequence % window.toUInt32)).toNat =
      sequence.toNat % window.toNat := by
  have hcancel : sequence - (sequence - sequence % window.toUInt32) =
      sequence % window.toUInt32 := by grind
  rw [hcancel, UInt32.toNat_mod, UInt8.toNat_toUInt32]

theorem xorOthers_eq (received : List (Option Bytes)) {lostIdx : Nat}
    (h : received.getD lostIdx none = none) (parity : Bytes) :
    xorOthers received lostIdx parity = (received.map (·.getD [])).foldl xorInto parity := by
  have hstep : ∀ entry ∈ received.zipIdx, ∀ acc : Bytes,
      (if entry.2 = lostIdx then acc
        else match entry.1 with
          | some data => xorInto acc data
          | none => acc) = xorInto acc (entry.1.getD []) := by
    rintro ⟨frame, i⟩ hmem acc
    have hget : received[i]? = some frame := List.mem_zipIdx_iff_getElem?.mp hmem
    cases frame with
    | none => simp
    | some data =>
      have hne : i ≠ lostIdx := by
        rintro rfl
        rw [List.getD_eq_getElem?_getD, hget] at h
        cases h
      simp [hne]
  have hmap : received.map (·.getD []) = received.zipIdx.map (fun entry => entry.1.getD []) := by
    conv_lhs => rw [← List.zipIdx_map_fst 0 received]
    rw [List.map_map]
    rfl
  rw [hmap, List.foldl_map]
  exact List.foldl_ext _ _ _ fun acc entry hmem => hstep entry hmem acc

theorem tryRecover_some {dec : FecDecoder} {sequence : UInt32} {data : Bytes}
    (h : dec.tryRecover = some (sequence, data)) :
    ∃ lostIdx parity, dec.parity = some parity ∧ dec.missing = [lostIdx] ∧
      lostIdx < dec.received.length ∧ dec.received.getD lostIdx none = none ∧
      (∀ i < dec.received.length, i ≠ lostIdx → (dec.received.getD i none).isSome) ∧
      sequence = dec.seqBase + UInt32.ofNat lostIdx ∧
      data = (dec.received.map (·.getD [])).foldl xorInto parity := by
  unfold tryRecover at h
  cases hparity : dec.parity with
  | none =>
    rw [hparity] at h
    cases h
  | some parity =>
    simp only [hparity] at h
    split at h
    case h_2 => cases h
    case h_1 lostIdx hmissing =>
      have hmem : ∀ i, i ∈ dec.missing ↔
          i < dec.received.length ∧ (dec.received.getD i none).isNone = true := by
        intro i
        simp [missing, List.mem_filter]
      have hlost := (hmem lostIdx).mp (by simp [hmissing])
      simp only [Option.some.injEq, Prod.mk.injEq] at h
      obtain ⟨rfl, rfl⟩ := h
      have hnone := Option.isNone_iff_eq_none.mp hlost.2
      refine ⟨lostIdx, parity, rfl, hmissing, hlost.1, hnone, ?_, rfl, xorOthers_eq _ hnone _⟩
      intro i hi hne
      by_contra hcon
      have hin := (hmem i).mpr ⟨hi, by simpa using hcon⟩
      rw [hmissing, List.mem_singleton] at hin
      exact hne hin

end FecDecoder
end GravitalTalk.Transport
