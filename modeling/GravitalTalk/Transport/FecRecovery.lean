import GravitalTalk.Lib.Trace
import GravitalTalk.Transport.FecGroups

/-! What the FEC decoder hands back, over any calls made on it.  Fed with frames and parities of one
stream it hands back nothing but frames of that stream; of a group that lost one frame it hands that
frame back exactly when the parity is the last to arrive. -/
namespace GravitalTalk.Transport.FecDecoder
open Lib Trace

inductive Call (payloads : List Bytes) (parities : List FecParity) where
  | pushData (i : Fin payloads.length)
  | pushParity (j : Fin parities.length)
  | reset

def answers {payloads : List Bytes} {parities : List FecParity} (dec : FecDecoder) :
    Call payloads parities → FecDecoder × Option (UInt32 × Bytes)
  | .pushData i => ((dec.pushData (UInt32.ofNat i.val) (payloads.get i)).2, none)
  | .pushParity j => ((dec.pushParity (parities.get j)).2, (dec.pushParity (parities.get j)).1)
  | .reset => (dec.reset, none)

/-- The frame of the stream with that number, padded to the longest of its group. -/
def FromStream (window : Nat) (payloads : List Bytes) (sequence : UInt32) (data : Bytes) : Prop :=
  ∃ payload, payloads[sequence.toNat]? = some payload ∧
    data = payload ++ List.replicate (XorParity.longest
      (groupFrames window payloads (sequence.toNat / window)) - payload.length) 0

theorem answers_window {payloads : List Bytes} {parities : List FecParity} (dec : FecDecoder)
    (call : Call payloads parities) : (dec.answers call).1.window = dec.window := by
  cases call with
  | pushData i => exact dec.pushData_window _ _
  | pushParity j => exact dec.pushParity_window _
  | reset => rfl

section Stream
variable {payloads : List Bytes} {dec : FecDecoder}

theorem streamParity_of_emitted {window : UInt8} {parity : FecParity} (hwindow : 2 ≤ window)
    (hmem : parity ∈ (FecEncoder.new window).pushAll 0 payloads) :
    ∃ k, (k + 1) * window.toNat ≤ payloads.length ∧ parity = streamParity window payloads k := by
  have hsize : (FecEncoder.new window).window = window := groupSize_of_two_le hwindow
  have hcounted := (FecEncoder.counted_new window).pushAll payloads hmem
  rwa [hsize, List.nil_append] at hcounted

theorem Stores.fromStream (h : dec.Stores payloads) (hcount : payloads.length < 2 ^ 32) {k : Nat}
    (hfull : (k + 1) * dec.window.toNat ≤ payloads.length) {sequence : UInt32} {data : Bytes}
    (hsome : (dec.pushParity (streamParity dec.window payloads k)).1 = some (sequence, data)) :
    FromStream dec.window.toNat payloads sequence data := by
  have hmul := hfull
  rw [Nat.succ_mul] at hmul
  obtain ⟨lost, frame, -, hlost, rfl, hframe, rfl⟩ := h.recovers (by omega) hfull hsome
  have hnumber : (UInt32.ofNat (k * dec.window.toNat + lost)).toNat =
      k * dec.window.toNat + lost := by
    rw [UInt32.toNat_ofNat', Nat.mod_eq_of_lt (by omega)]
  have hgroup : (k * dec.window.toNat + lost) / dec.window.toNat = k := by
    rw [Nat.mul_comm, Nat.mul_add_div dec.window_pos, Nat.div_eq_of_lt hlost, Nat.add_zero]
  rw [getElem?_groupFrames _ _ hlost] at hframe
  refine ⟨frame, by rw [hnumber]; exact hframe, ?_⟩
  rw [hnumber, hgroup, XorParity.length_parity]

theorem Stores.answers {parities : List FecParity} (h : dec.Stores payloads)
    (hcount : payloads.length < 2 ^ 32) (hparities : ∀ parity ∈ parities,
      ∃ k, (k + 1) * dec.window.toNat ≤ payloads.length ∧
        parity = streamParity dec.window payloads k) (call : Call payloads parities) :
    (dec.answers call).1.Stores payloads ∧ ∀ sequence data,
      (dec.answers call).2 = some (sequence, data) →
        FromStream dec.window.toNat payloads sequence data := by
  cases call with
  | pushData i =>
    have hlt := i.isLt
    refine ⟨h.pushData (by omega) ?_, fun _ _ hsome => by cases hsome⟩
    rw [List.getElem?_eq_getElem hlt, List.get_eq_getElem]
  | pushParity j =>
    obtain ⟨k, hfull, hparity⟩ := hparities _ (List.get_mem parities j)
    have hmul := hfull
    rw [Nat.succ_mul] at hmul
    simp only [FecDecoder.answers, hparity]
    exact ⟨h.pushParity (k := k) (by omega) _ rfl,
      fun sequence data hsome => h.fromStream hcount hfull hsome⟩
  | reset => exact ⟨Stores.reset, fun _ _ hsome => by cases hsome⟩

end Stream

/-- Whatever calls are made, in any order and with any losses and repetitions, a frame handed back
is a frame of the stream. -/
theorem never_fabricates (window : UInt8) (hwindow : 2 ≤ window) (payloads : List Bytes)
    (hcount : payloads.length < 2 ^ 32)
    (calls : List (Call payloads ((FecEncoder.new window).pushAll 0 payloads)))
    (sequence : UInt32) (data : Bytes)
    (hanswer : some (sequence, data) ∈ (history answers (new window) calls).map (·.answer)) :
    sequence.toNat < payloads.length ∧ FromStream window.toNat payloads sequence data := by
  have hsize : (new window).window = window := groupSize_of_two_le hwindow
  have hinv := @history_induction _ _ _ (@answers payloads ((FecEncoder.new window).pushAll 0 payloads))
    (fun past dec => dec.window = window ∧ dec.Stores payloads ∧ ∀ call ∈ past,
      ∀ sequence data, call.answer = some (sequence, data) →
        FromStream window.toNat payloads sequence data)
    (new window) ⟨hsize, stores_new window, by simp⟩ (fun past dec call h => by
      obtain ⟨hsame, hstores, hpast⟩ := h
      obtain ⟨hnext, hfound⟩ := hstores.answers hcount
        (fun parity hmem => hsame.symm ▸ streamParity_of_emitted hwindow hmem) call
      refine ⟨(dec.answers_window call).trans hsame, hnext, fun event hmem => ?_⟩
      rcases List.mem_append.mp hmem with hold | hnew
      · exact hpast event hold
      · rw [List.mem_singleton.mp hnew]
        exact hsame ▸ hfound) calls
  obtain ⟨call, hmem, hcall⟩ := List.mem_map.mp hanswer
  have hstream := hinv.2.2 call hmem sequence data hcall
  have hnumber := hstream
  obtain ⟨payload, hget, -⟩ := hnumber
  exact ⟨(List.getElem?_eq_some_iff.mp hget).1, hstream⟩

private def shortAndLong : List Bytes := [[7], [2, 3]]

/-- The shorter frame of a group is lost, and comes back padded. -/
theorem never_fabricates_padded : (0 : UInt32).toNat < shortAndLong.length ∧
    FromStream (2 : UInt8).toNat shortAndLong 0 [7, 0] :=
  never_fabricates 2 (by decide) shortAndLong (by decide)
    [.reset, .pushData ⟨1, by decide⟩, .pushParity ⟨0, by decide⟩] 0 [7, 0] (by decide)

inductive Arrival where
  | data (i : Nat)
  | parity
  deriving DecidableEq

def hears (base : UInt32) (frames : List Bytes) (parity : FecParity) (dec : FecDecoder) :
    Arrival → FecDecoder × Option (UInt32 × Bytes)
  | .data i => ((dec.pushData (base + UInt32.ofNat i) (frames.getD i [])).2, none)
  | .parity => ((dec.pushParity parity).2, (dec.pushParity parity).1)

def survivors (window lost : Nat) : List Arrival :=
  ((List.range window).filter (· ≠ lost)).map .data

section Encoding
variable {enc : FecEncoder} {base : UInt32} {sent : List Bytes}

theorem pushAll_group (h : enc.Group base sent) {rest : List Bytes} (hrest : rest ≠ [])
    (hfull : sent.length + rest.length = enc.window.toNat) {sequence : UInt32}
    (hseq : sent = [] → sequence = base) :
    enc.pushAll sequence rest = [⟨base, enc.window, XorParity.parity (sent ++ rest)⟩] := by
  induction rest generalizing enc sent sequence with
  | nil => exact absurd rfl hrest
  | cons payload rest ih =>
    obtain ⟨hwindow, hpush⟩ := FecEncoder.push_spec h hseq payload
    rw [List.length_cons] at hfull
    rw [FecEncoder.pushAll]
    cases rest with
    | nil =>
      rw [if_neg (by simp at hfull; omega)] at hpush
      simp only [hpush.1, FecEncoder.pushAll, Option.toList_some, List.append_nil]
    | cons next rest =>
      rw [if_pos (by simp at hfull; omega)] at hpush
      have hlater : (enc.push sequence payload).2.pushAll (sequence + 1) (next :: rest) = _ :=
        ih hpush.2 (List.cons_ne_nil _ _)
          (by rw [hwindow, List.length_append, List.length_singleton]; omega) (by simp)
      simp only [hpush.1, hlater, hwindow, Option.toList_none, List.nil_append,
        List.append_assoc, List.singleton_append]

end Encoding

section Group
variable {base : UInt32} {frames : List Bytes} {parity : FecParity} {dec : FecDecoder}
  {heard : List Nat} {i : Nat}

def slots (window : Nat) (frames : List Bytes) (heard : List Nat) : List (Option Bytes) :=
  (List.range window).map fun i => if i ∈ heard then some (frames.getD i []) else none

structure Heard (base : UInt32) (frames : List Bytes) (heard : List Nat) (dec : FecDecoder) :
    Prop where
  received : (dec.selectGroup base).received = slots dec.window.toNat frames heard

theorem heard_new (window : UInt8) : Heard base frames [] (new window) where
  received := by
    rw [selectGroup, if_pos (by rfl), startGroup]
    simp [slots, List.map_const']

/-- All numbers of an aligned group that does not wrap lie in it. -/
theorem groupBase_inside {window : UInt8} (haligned : base.toNat % window.toNat = 0)
    (hi : i < window.toNat) (hroom : base.toNat + i < 2 ^ 32) :
    (base + UInt32.ofNat i) - (base + UInt32.ofNat i) % window.toUInt32 = base := by
  have hsum : base + UInt32.ofNat i = UInt32.ofNat (base.toNat + i) := by
    rw [UInt32.ofNat_add, UInt32.ofNat_toNat]
  obtain ⟨k, hk⟩ := Nat.dvd_of_mod_eq_zero haligned
  have hdiv : (base.toNat + i) / window.toNat * window.toNat = base.toNat := by
    rw [hk, Nat.mul_add_div (by omega), Nat.div_eq_of_lt hi, Nat.add_zero, Nat.mul_comm]
  rw [hsum, groupBase_eq window hroom, hdiv, UInt32.ofNat_toNat]

theorem slots_set (window : Nat) :
    (slots window frames heard).set i (some (frames.getD i [])) =
      slots window frames (i :: heard) := by
  apply List.ext_getElem
  · simp [slots]
  · intro j hj _
    rw [List.getElem_set]
    simp only [slots, List.getElem_map, List.getElem_range, List.mem_cons]
    rcases eq_or_ne i j with rfl | hne
    · simp
    · simp [hne, hne.symm]

theorem pushData_inside (haligned : base.toNat % dec.window.toNat = 0) (hi : i < dec.window.toNat)
    (hroom : base.toNat + i < 2 ^ 32) (payload : Bytes) :
    (dec.pushData (base + UInt32.ofNat i) payload).2.active = true ∧
      (dec.pushData (base + UInt32.ofNat i) payload).2.seqBase = base ∧
      (dec.pushData (base + UInt32.ofNat i) payload).2.received =
        (dec.selectGroup base).received.set i (some payload) := by
  obtain ⟨hactive, hbase, hwindow⟩ := dec.selectGroup_spec base
  have hoffset : (base + UInt32.ofNat i - base).toNat = i := by
    rw [show base + UInt32.ofNat i - base = UInt32.ofNat i by grind, UInt32.toNat_ofNat',
      Nat.mod_eq_of_lt (by omega)]
  unfold FecDecoder.pushData
  simp only [groupBase_inside haligned hi hroom, hbase, hoffset, hwindow]
  rw [if_pos hi]
  exact ⟨hactive, rfl, rfl⟩

theorem Heard.pushData (h : Heard base frames heard dec)
    (haligned : base.toNat % dec.window.toNat = 0) (hi : i < dec.window.toNat)
    (hroom : base.toNat + i < 2 ^ 32) :
    Heard base frames (i :: heard)
      (dec.pushData (base + UInt32.ofNat i) (frames.getD i [])).2 := by
  obtain ⟨hactive, hbase, hreceived⟩ := pushData_inside haligned hi hroom (frames.getD i [])
  constructor
  rw [selectGroup_eq_self hactive hbase, hreceived, h.received, slots_set, pushData_window]

structure AllBut (lost window : Nat) (heard : List Nat) : Prop where
  inside : lost < window
  missed : lost ∉ heard
  others : ∀ i < window, i ≠ lost → i ∈ heard

theorem length_slots (window : Nat) : (slots window frames heard).length = window := by
  simp [slots]

theorem AllBut.slot {window lost : Nat} (h : AllBut lost window heard) (hi : i < window) :
    (slots window frames heard).getD i none =
      if i = lost then none else some (frames.getD i []) := by
  rw [List.getD_eq_getElem?_getD, List.getElem?_eq_getElem (by rwa [length_slots])]
  simp only [slots, List.getElem_map, List.getElem_range, Option.getD_some]
  by_cases hsame : i = lost
  · rw [if_pos hsame, if_neg (hsame ▸ h.missed)]
  · rw [if_neg hsame, if_pos (h.others i hi hsame)]

theorem AllBut.missing {window lost : Nat} (h : AllBut lost window heard)
    (hreceived : dec.received = slots window frames heard) : dec.missing = [lost] := by
  have hone : (List.range window).count lost = 1 :=
    List.count_eq_one_of_mem List.nodup_range (List.mem_range.mpr h.inside)
  rw [FecDecoder.missing, hreceived, length_slots, ← List.replicate_one (a := lost), ← hone,
    ← List.filter_beq]
  refine List.filter_congr fun i hi => ?_
  rw [h.slot (List.mem_range.mp hi)]
  by_cases hsame : i = lost <;> simp [hsame]

theorem AllBut.blanked {window lost : Nat} (h : AllBut lost window heard)
    (hlen : frames.length = window) :
    (slots window frames heard).map (·.getD []) = frames.set lost [] := by
  apply List.ext_getElem
  · rw [List.length_map, length_slots, List.length_set, hlen]
  · intro i hi _
    rw [List.length_map] at hi
    have hin : i < window := by rwa [length_slots] at hi
    have hget : (slots window frames heard).getD i none =
        if i = lost then none else some (frames.getD i []) := h.slot hin
    rw [List.getD_eq_getElem?_getD, List.getElem?_eq_getElem hi, Option.getD_some] at hget
    rw [List.getElem_map, hget, List.getElem_set]
    by_cases hsame : i = lost
    · simp [hsame]
    · rw [if_neg hsame, if_neg (Ne.symm hsame), Option.getD_some, List.getD_eq_getElem?_getD,
        List.getElem?_eq_getElem (by omega), Option.getD_some]

theorem tryRecover_eq {parity : Bytes} {lost : Nat} (hparity : dec.parity = some parity)
    (hmissing : dec.missing = [lost]) : dec.tryRecover =
      some (dec.seqBase + UInt32.ofNat lost, xorOthers dec.received lost parity) := by
  simp only [tryRecover, hparity, hmissing]

/-- With every frame but one there, the parity gives that one back. -/
theorem Heard.recovers (h : Heard base frames heard dec) (hlen : frames.length = dec.window.toNat)
    (hequal : ∀ frame ∈ frames, ∀ other ∈ frames, frame.length = other.length) {lost : Nat}
    (hbut : AllBut lost dec.window.toNat heard) (window : UInt8) :
    (dec.pushParity ⟨base, window, XorParity.parity frames⟩).1 =
      some (base + UInt32.ofNat lost, frames.getD lost []) := by
  obtain ⟨-, hbase, -⟩ := dec.selectGroup_spec base
  have hlost := hbut.inside
  have hframe : frames[lost]? = some (frames.getD lost []) := by
    rw [List.getD_eq_getElem?_getD, List.getElem?_eq_getElem (by omega), Option.getD_some]
  have hwhole : (XorParity.parity frames).length - (frames.getD lost []).length = 0 := by
    refine Nat.sub_eq_zero_of_le (XorParity.length_parity_le fun frame hmem => ?_)
    exact (hequal frame hmem _ (List.mem_of_getElem? hframe)).le
  have hnone : (slots dec.window.toNat frames heard).getD lost none = none := by
    rw [hbut.slot hlost, if_pos rfl]
  have hmissing : FecDecoder.missing { dec.selectGroup base with
      parity := some (XorParity.parity frames) } = [lost] := hbut.missing h.received
  refine (tryRecover_eq rfl hmissing).trans ?_
  change some ((dec.selectGroup base).seqBase + _, xorOthers (dec.selectGroup base).received _ _) = _
  rw [hbase, h.received, xorOthers_eq _ hnone, hbut.blanked hlen, XorParity.recover hframe, hwhole,
    List.replicate_zero, List.append_nil]

def Within (base : UInt32) (heard : List Nat) (dec : FecDecoder) : Prop :=
  ∀ i payload, (dec.selectGroup base).received[i]? = some (some payload) →
    i ∈ heard ∧ base.toNat + i < 2 ^ 32

theorem within_fresh (hfresh : dec.active = false ∨ dec.seqBase ≠ base) :
    Within base heard dec := by
  intro i payload hget
  rw [selectGroup, if_pos (by rcases hfresh with h | h <;> simp [h]), startGroup] at hget
  cases List.eq_of_mem_replicate (List.mem_of_getElem? hget)

theorem pushData_seqBase (dec : FecDecoder) (sequence : UInt32) (payload : Bytes) :
    (dec.pushData sequence payload).2.seqBase = sequence - sequence % dec.window.toUInt32 := by
  have hbase := (dec.selectGroup_spec (sequence - sequence % dec.window.toUInt32)).2.1
  unfold FecDecoder.pushData
  simp only
  split <;> exact hbase

/-- A number that wrapped lies in the first group of all, not in this one. -/
theorem groupBase_wrapped {window : UInt8} (hi : i < window.toNat)
    (hwrap : 2 ^ 32 ≤ base.toNat + i) :
    (base + UInt32.ofNat i) - (base + UInt32.ofNat i) % window.toUInt32 ≠ base := by
  have hbase := base.toNat_lt
  have hsmall := window.toNat_lt
  have hnumber : (base + UInt32.ofNat i).toNat = base.toNat + i - 2 ^ 32 := by
    rw [UInt32.toNat_add, UInt32.toNat_ofNat', Nat.mod_eq_of_lt (a := i) (by omega)]
    omega
  have hsame : (base + UInt32.ofNat i) % window.toUInt32 = base + UInt32.ofNat i := by
    apply UInt32.toNat_inj.mp
    rw [UInt32.toNat_mod, UInt8.toNat_toUInt32, hnumber, Nat.mod_eq_of_lt (by omega)]
  rw [hsame, UInt32.sub_self]
  intro hzero
  rw [← hzero] at hwrap
  simp at hwrap
  omega

theorem Within.pushData (h : Within base heard dec)
    (haligned : base.toNat % dec.window.toNat = 0) (hi : i < dec.window.toNat) (payload : Bytes) :
    Within base (i :: heard) (dec.pushData (base + UInt32.ofNat i) payload).2 := by
  rcases Nat.lt_or_ge (base.toNat + i) (2 ^ 32) with hroom | hwrap
  · obtain ⟨hactive, hbase, hreceived⟩ := pushData_inside haligned hi hroom payload
    intro j found hget
    rw [selectGroup_eq_self hactive hbase, hreceived, List.getElem?_set] at hget
    split_ifs at hget with hsame
    · exact hsame ▸ ⟨List.mem_cons_self .., hroom⟩
    · obtain ⟨hmem, hin⟩ := h j found hget
      exact ⟨List.mem_cons_of_mem _ hmem, hin⟩
  · refine within_fresh (.inr ?_)
    rw [pushData_seqBase]
    exact groupBase_wrapped hi hwrap

theorem Within.complete (h : Within base heard dec) {window : UInt8} {payload data : Bytes}
    {sequence : UInt32}
    (hsome : (dec.pushParity ⟨base, window, payload⟩).1 = some (sequence, data)) :
    ∃ lost < dec.window.toNat, ∀ i < dec.window.toNat, i ≠ lost →
      i ∈ heard ∧ base.toNat + i < 2 ^ 32 := by
  obtain ⟨hactive, -, hwindow⟩ := dec.selectGroup_spec base
  have hlen := received_length _ hactive
  rw [hwindow] at hlen
  have htry : FecDecoder.tryRecover { dec.selectGroup base with parity := some payload } =
    some (sequence, data) := hsome
  obtain ⟨lost, -, -, -, hlost, -, hothers, -⟩ := tryRecover_some htry
  refine ⟨lost, hlen ▸ hlost, fun i hi hne => ?_⟩
  have hthere := hothers i (hlen.symm ▸ hi) hne
  obtain ⟨found, hfound⟩ := Option.isSome_iff_exists.mp hthere
  rw [List.getD_eq_getElem?_getD] at hfound
  refine h i found ?_
  rw [List.getElem?_eq_getElem (by rwa [hlen])] at hfound ⊢
  rw [← hfound]
  rfl

theorem window_not_dvd : ∀ n < 256, 2 ≤ n → (2 ^ 32 + 1) % n ≠ 0 := by decide +kernel

/-- No window divides 2^32 + 1, so a group that wraps wraps in more than its last frame. -/
theorem room_of_all_but_last {window : UInt8} (hwindow : 2 ≤ window)
    (haligned : base.toNat % window.toNat = 0)
    (hroom : base.toNat + (window.toNat - 2) < 2 ^ 32) : base.toNat + window.toNat ≤ 2 ^ 32 := by
  have htwo : 2 ≤ window.toNat := UInt8.le_iff_toNat_le.mp hwindow
  by_contra hwrap
  have hsum : base.toNat + window.toNat = 2 ^ 32 + 1 := by omega
  apply window_not_dvd window.toNat window.toNat_lt htwo
  rw [← hsum, Nat.add_mod_right, haligned]

end Group

section Runs
variable {base : UInt32} {frames : List Bytes} {parity : FecParity} {dec : FecDecoder}

theorem run_data {inv : List Nat → FecDecoder → Prop} {arrivals : List Arrival}
    (hstart : inv [] dec) (hdata : ∀ arrival ∈ arrivals, ∃ i < dec.window.toNat, arrival = .data i)
    (hstep : ∀ heard dec' i, dec'.window = dec.window → i < dec.window.toNat → inv heard dec' →
      inv (i :: heard) (dec'.pushData (base + UInt32.ofNat i) (frames.getD i [])).2) :
    ∃ heard, (∀ i, i ∈ heard ↔ .data i ∈ arrivals) ∧
      (final (hears base frames parity) dec arrivals).window = dec.window ∧
      inv heard (final (hears base frames parity) dec arrivals) := by
  induction arrivals using List.reverseRecOn with
  | nil => exact ⟨[], by simp, rfl, hstart⟩
  | append_singleton arrivals arrival ih =>
    obtain ⟨heard, hheard, hwindow, hinv⟩ :=
      ih fun a hmem => hdata a (List.mem_append_left _ hmem)
    obtain ⟨i, hi, rfl⟩ := hdata arrival (by simp)
    rw [final_append]
    refine ⟨i :: heard, fun j => ?_, (pushData_window _ _ _).trans hwindow,
      hstep heard _ i hwindow hi hinv⟩
    simp [hheard, or_comm]

theorem mem_survivors {window lost : Nat} {arrival : Arrival} :
    arrival ∈ survivors window lost ↔ ∃ i < window, i ≠ lost ∧ arrival = .data i := by
  simp only [survivors, List.mem_map, List.mem_filter, List.mem_range, decide_eq_true_eq]
  constructor
  · rintro ⟨i, ⟨hi, hne⟩, rfl⟩
    exact ⟨i, hi, hne, rfl⟩
  · rintro ⟨i, hi, hne, rfl⟩
    exact ⟨i, ⟨hi, hne⟩, rfl⟩

theorem nodup_arrivals (window lost : Nat) : (Arrival.parity :: survivors window lost).Nodup := by
  refine List.nodup_cons.mpr ⟨fun hmem => ?_, ?_⟩
  · obtain ⟨i, -, -, h⟩ := mem_survivors.mp hmem
    cases h
  · exact (List.nodup_range.filter _).map fun i j h => by cases h; rfl

theorem emitted_eq {window : UInt8} (hwindow : 2 ≤ window) (hlen : frames.length = window.toNat)
    (hemitted : parity ∈ (FecEncoder.new window).pushAll base frames) :
    parity = ⟨base, window, XorParity.parity frames⟩ := by
  have hsize : (FecEncoder.new window).window = window := groupSize_of_two_le hwindow
  have hpos := (FecEncoder.new window).window_pos
  rw [hsize] at hpos
  have hall := @pushAll_group _ _ _ (FecEncoder.group_new window base) frames
    (by rintro rfl; simp at hlen; omega) (by rw [hsize, hlen]; simp) base (fun _ => rfl)
  rw [hall, hsize, List.nil_append, List.mem_singleton] at hemitted
  exact hemitted

end Runs

/-- What arrives of a group that lost one frame, in some order. -/
structure OneLost (window : UInt8) (base : UInt32) (lost : Nat) (order : List Arrival) : Prop where
  two_le : 2 ≤ window
  aligned : base.toNat % window.toNat = 0
  inside : lost < window.toNat
  order : order.Perm (.parity :: survivors window.toNat lost)

section OneLost
variable {window : UInt8} {base : UInt32} {frames : List Bytes} {parity : FecParity} {lost : Nat}
  {order before after : List Arrival}

theorem OneLost.mem (h : OneLost window base lost order) (arrival : Arrival) : arrival ∈ order ↔
    arrival = .parity ∨ ∃ i < window.toNat, i ≠ lost ∧ arrival = .data i := by
  rw [h.order.mem_iff, List.mem_cons, mem_survivors]

theorem OneLost.heardFirst (h : OneLost window base lost (before ++ .parity :: after)) :
    ∀ arrival ∈ before, ∃ i < (new window).window.toNat, arrival = .data i := by
  intro arrival hin
  have hnodup := h.order.nodup_iff.mpr (nodup_arrivals window.toNat lost)
  have hnot : arrival ≠ .parity := by
    rintro rfl
    exact (List.nodup_append.mp hnodup).2.2 _ hin _ (List.mem_cons_self ..) rfl
  obtain heq | ⟨i, hi, -, heq⟩ := (h.mem arrival).mp (List.mem_append_left _ hin)
  · exact absurd heq hnot
  · exact ⟨i, by rwa [show (new window).window = window from groupSize_of_two_le h.two_le], heq⟩

theorem OneLost.last (h : OneLost window base lost (before ++ .parity :: after)) {payload : Bytes}
    {found : UInt32 × Bytes}
    (hsome : ((final (hears base frames parity) (new window) before).pushParity
      ⟨base, window, payload⟩).1 = some found) :
    after = [] ∧ base.toNat + window.toNat ≤ 2 ^ 32 := by
  have hsize : (new window).window = window := groupSize_of_two_le h.two_le
  have htwo : 2 ≤ window.toNat := UInt8.le_iff_toNat_le.mp h.two_le
  have hlost := h.inside
  have hnodup := h.order.nodup_iff.mpr (nodup_arrivals window.toNat lost)
  obtain ⟨heard, hheard, hsame, hwithin⟩ := @run_data base frames parity (new window)
    (Within base) before (within_fresh (.inl rfl)) h.heardFirst
    fun heard dec i hsame hi hinv => hinv.pushData (by rw [hsame, hsize]; exact h.aligned)
      (by rwa [hsame]) _
  obtain ⟨lost', -, hothers⟩ := hwithin.complete hsome
  rw [hsame, hsize] at hothers
  have hunheard : lost ∉ heard := by
    intro hin
    obtain heq | ⟨i, -, hne, heq⟩ := (h.mem (.data lost)).mp
      (List.mem_append_left _ ((hheard lost).mp hin))
    · cases heq
    · cases heq
      exact hne rfl
  obtain rfl : lost = lost' := by
    by_contra hne
    exact hunheard (hothers lost hlost hne).1
  constructor
  · by_contra hafter
    obtain ⟨arrival, hin⟩ := List.exists_mem_of_ne_nil after hafter
    obtain rfl | ⟨i, hi, hne, rfl⟩ := (h.mem arrival).mp (by simp [hin])
    · exact (List.nodup_cons.mp (List.nodup_append.mp hnodup).2.1).1 hin
    · exact (List.nodup_append.mp hnodup).2.2 _ ((hheard i).mp (hothers i hi hne).1) _
        (List.mem_cons_of_mem _ hin) rfl
  · rcases Nat.lt_or_ge (lost + 1) window.toNat with hinner | hend
    · have := (hothers (window.toNat - 1) (by omega) (by omega)).2
      omega
    · exact room_of_all_but_last h.two_le h.aligned (hothers (window.toNat - 2) (by omega) (by omega)).2

theorem OneLost.found (h : OneLost window base lost (before ++ [.parity]))
    (hlen : frames.length = window.toNat)
    (hequal : ∀ frame ∈ frames, ∀ other ∈ frames, frame.length = other.length)
    (hroom : base.toNat + window.toNat ≤ 2 ^ 32) :
    ((final (hears base frames parity) (new window) before).pushParity
      ⟨base, window, XorParity.parity frames⟩).1 =
        some (base + UInt32.ofNat lost, frames.getD lost []) := by
  have hsize : (new window).window = window := groupSize_of_two_le h.two_le
  obtain ⟨heard, hheard, hsame, hinv⟩ := @run_data base frames parity (new window)
    (Heard base frames) before (heard_new window) h.heardFirst
    fun heard dec i hsame hi hinv => hinv.pushData (by rw [hsame, hsize]; exact h.aligned)
      (by rwa [hsame]) (by rw [hsize] at hi; omega)
  refine hinv.recovers (by rw [hsame, hsize, hlen]) hequal ?_ window
  rw [hsame, hsize]
  refine ⟨h.inside, fun hin => ?_, fun i hi hne => (hheard i).mpr ?_⟩
  · obtain heq | ⟨i, -, hne, heq⟩ := (h.mem (.data lost)).mp
      (List.mem_append_left _ ((hheard lost).mp hin))
    · cases heq
    · cases heq
      exact hne rfl
  · have hin := (h.mem (.data i)).mpr (.inr ⟨i, hi, hne, rfl⟩)
    rcases List.mem_append.mp hin with hin | hin
    · exact hin
    · cases List.mem_singleton.mp hin

end OneLost

/-- Of an aligned group of frames of equal length that lost one, some call hands that frame back
exactly when the parity is the last to arrive and the numbers of the group do not wrap. -/
theorem single_loss_recovered_iff (window : UInt8) (hwindow : 2 ≤ window) (base : UInt32)
    (haligned : base.toNat % window.toNat = 0) (frames : List Bytes)
    (hlen : frames.length = window.toNat)
    (hequal : ∀ frame ∈ frames, ∀ other ∈ frames, frame.length = other.length)
    (parity : FecParity) (hemitted : parity ∈ (FecEncoder.new window).pushAll base frames)
    (lost : Nat) (hlost : lost < window.toNat) (order : List Arrival)
    (horder : order.Perm (.parity :: survivors window.toNat lost)) :
    some (base + UInt32.ofNat lost, frames.getD lost []) ∈
        (history (hears base frames parity) (new window) order).map (·.answer) ↔
      order.getLast? = some .parity ∧ base.toNat + window.toNat ≤ 2 ^ 32 := by
  obtain rfl := emitted_eq hwindow hlen hemitted
  have hlostOne : OneLost window base lost order := ⟨hwindow, haligned, hlost, horder⟩
  constructor
  · intro hanswer
    obtain ⟨call, hcall, hfound⟩ := List.mem_map.mp hanswer
    obtain ⟨past, rest, hhistory⟩ := List.append_of_mem hcall
    obtain ⟨before, input, after, rfl, -, rfl, -⟩ := history_split hhistory
    cases input with
    | data i => cases hfound
    | parity =>
      obtain ⟨rfl, hroom⟩ := hlostOne.last hfound
      exact ⟨by simp, hroom⟩
  · rintro ⟨hlast, hroom⟩
    obtain ⟨before, rfl⟩ : ∃ before, order = before ++ [.parity] :=
      List.getLast?_eq_some_iff.mp hlast
    rw [history_append, List.map_append, List.mem_append]
    exact .inr (List.mem_singleton.mpr (hlostOne.found hlen hequal hroom).symm)

private def four : List Bytes := [[1], [2], [3], [5]]

private def fourParity : FecParity := ⟨0, 4, [5]⟩

/-- The second of four frames is lost, and the parity comes last. -/
theorem parity_last_recovers :
    some ((0 : UInt32) + UInt32.ofNat 1, [2]) ∈
      (history (hears 0 four fourParity) (new 4) [.data 3, .data 0, .data 2, .parity]).map
        (·.answer) :=
  (single_loss_recovered_iff 4 (by decide) 0 (by decide) four (by decide) (by decide) fourParity
    (by decide) 1 (by decide) [.data 3, .data 0, .data 2, .parity] (by decide)).mpr
      ⟨by decide, by decide⟩

/-- The parity overtakes the last frame, and nothing comes back. -/
theorem parity_early_recovers_nothing :
    fourParity ∈ (FecEncoder.new 4).pushAll 0 four ∧
      [Arrival.data 0, .data 2, .parity, .data 3].Perm (.parity :: survivors 4 1) ∧
      some ((0 : UInt32) + UInt32.ofNat 1, [2]) ∉
        (history (hears 0 four fourParity) (new 4) [.data 0, .data 2, .parity, .data 3]).map
          (·.answer) := by
  decide

end GravitalTalk.Transport.FecDecoder
