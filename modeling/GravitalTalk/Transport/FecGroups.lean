import GravitalTalk.Transport.Fec

/-! The groups of a stream of frames numbered from zero.  The encoder forms them by counting its
calls and the decoder by the number of the frame; on such a stream both find the same groups, for
every window. -/
namespace GravitalTalk.Transport
open Lib

def groupFrames (window : Nat) (payloads : List Bytes) (k : Nat) : List Bytes :=
  (payloads.drop (k * window)).take window

def streamParity (window : UInt8) (payloads : List Bytes) (k : Nat) : FecParity where
  seqBase := UInt32.ofNat (k * window.toNat)
  window := window
  payload := XorParity.parity (groupFrames window.toNat payloads k)

theorem length_groupFrames {window : Nat} {payloads : List Bytes} {k : Nat}
    (h : (k + 1) * window ≤ payloads.length) : (groupFrames window payloads k).length = window := by
  rw [Nat.succ_mul] at h
  rw [groupFrames, List.length_take, List.length_drop]
  omega

theorem getElem?_groupFrames (payloads : List Bytes) (k : Nat) {window i : Nat} (h : i < window) :
    (groupFrames window payloads k)[i]? = payloads[k * window + i]? := by
  rw [groupFrames, List.getElem?_take_of_lt h, List.getElem?_drop]

theorem groupFrames_append {window : Nat} {payloads : List Bytes} {k : Nat}
    (h : (k + 1) * window ≤ payloads.length) (more : List Bytes) :
    groupFrames window (payloads ++ more) k = groupFrames window payloads k := by
  rw [Nat.succ_mul] at h
  rw [groupFrames, groupFrames, List.drop_append_of_le_length (by omega),
    List.take_append_of_le_length (by rw [List.length_drop]; omega)]

namespace FecEncoder
variable {enc : FecEncoder} {k : Nat} {sent : List Bytes}

/-- The encoder has been given the frames `sent`, and is in the `k`-th group. -/
structure Counted (enc : FecEncoder) (k : Nat) (sent : List Bytes) : Prop where
  begun : k * enc.window.toNat ≤ sent.length
  room : sent.length < (k + 1) * enc.window.toNat
  group : enc.Group (UInt32.ofNat (k * enc.window.toNat)) (sent.drop (k * enc.window.toNat))

theorem window_pos (enc : FecEncoder) : 0 < enc.window.toNat :=
  UInt8.lt_iff_toNat_lt.mp (zero_lt_of_two_le enc.window_ge)

theorem counted_new (window : UInt8) : Counted (new window) 0 [] where
  begun := by simp
  room := by
    rw [Nat.zero_add, Nat.one_mul]
    exact (new window).window_pos
  group := by simpa using group_new window 0

theorem Counted.push (h : Counted enc k sent) (payload : Bytes) :
    (enc.push (UInt32.ofNat sent.length) payload).2.window = enc.window ∧
      if sent.length + 1 < (k + 1) * enc.window.toNat then
        (enc.push (UInt32.ofNat sent.length) payload).1 = none ∧
          Counted (enc.push (UInt32.ofNat sent.length) payload).2 k (sent ++ [payload])
      else
        (enc.push (UInt32.ofNat sent.length) payload).1 =
            some (streamParity enc.window (sent ++ [payload]) k) ∧
          Counted (enc.push (UInt32.ofNat sent.length) payload).2 (k + 1) (sent ++ [payload]) := by
  have hbegun := h.begun
  have hroom := h.room
  rw [Nat.succ_mul] at hroom ⊢
  have hstart : sent.drop (k * enc.window.toNat) = [] →
      UInt32.ofNat sent.length = UInt32.ofNat (k * enc.window.toNat) := by
    intro hnil
    have hle := List.drop_eq_nil_iff.mp hnil
    rw [Nat.le_antisymm hle hbegun]
  obtain ⟨hwindow, hpush⟩ := push_spec h.group hstart payload
  rw [List.length_drop] at hpush
  have hdrop : (sent ++ [payload]).drop (k * enc.window.toNat) =
      sent.drop (k * enc.window.toNat) ++ [payload] := List.drop_append_of_le_length hbegun
  refine ⟨hwindow, ?_⟩
  by_cases hshort : sent.length + 1 < k * enc.window.toNat + enc.window.toNat
  · rw [if_pos (by omega)] at hpush
    rw [if_pos hshort]
    refine ⟨hpush.1, ?_, ?_, ?_⟩ <;> rw [hwindow]
    · rw [List.length_append, List.length_singleton]
      omega
    · rw [Nat.succ_mul, List.length_append, List.length_singleton]
      exact hshort
    · rw [hdrop]
      exact hpush.2
  · rw [if_neg (by omega)] at hpush
    rw [if_neg hshort]
    have hframes : groupFrames enc.window.toNat (sent ++ [payload]) k =
        sent.drop (k * enc.window.toNat) ++ [payload] := by
      rw [groupFrames, hdrop, List.take_of_length_le]
      rw [List.length_append, List.length_singleton, List.length_drop]
      omega
    have hpos := enc.window_pos
    refine ⟨?_, ?_, ?_, ?_⟩
    · rw [hpush.1, streamParity, hframes]
    all_goals rw [hwindow]
    · rw [Nat.succ_mul, List.length_append, List.length_singleton]
      omega
    · rw [Nat.succ_mul, Nat.succ_mul, List.length_append, List.length_singleton]
      omega
    · have hend : (sent ++ [payload]).drop ((k + 1) * enc.window.toNat) = [] := by
        rw [List.drop_eq_nil_iff, Nat.succ_mul, List.length_append, List.length_singleton]
        omega
      rw [hend]
      exact hpush.2 _

def pushAll (self : FecEncoder) (sequence : UInt32) : List Bytes → List FecParity
  | [] => []
  | payload :: rest =>
    let (parity, self) := self.push sequence payload
    parity.toList ++ self.pushAll (sequence + 1) rest

/-- Every parity of the stream is the parity of one of its groups. -/
theorem Counted.pushAll (h : Counted enc k sent) (rest : List Bytes) {parity : FecParity}
    (hmem : parity ∈ enc.pushAll (UInt32.ofNat sent.length) rest) :
    ∃ j, (j + 1) * enc.window.toNat ≤ (sent ++ rest).length ∧
      parity = streamParity enc.window (sent ++ rest) j := by
  induction rest generalizing enc k sent with
  | nil => cases hmem
  | cons payload rest ih =>
    obtain ⟨hwindow, hpush⟩ := h.push payload
    have hnext : UInt32.ofNat sent.length + 1 = UInt32.ofNat (sent ++ [payload]).length := by
      rw [List.length_append, List.length_singleton, UInt32.ofNat_add]
      rfl
    have hall : sent ++ payload :: rest = (sent ++ [payload]) ++ rest := by simp
    rw [FecEncoder.pushAll] at hmem
    simp only [hnext] at hmem
    rw [hall]
    rcases List.mem_append.mp hmem with hnow | hlater
    · rw [Option.mem_toList] at hnow
      split_ifs at hpush with hshort
      · rw [hpush.1] at hnow
        cases hnow
      · rw [hpush.1] at hnow
        have hfull : (k + 1) * enc.window.toNat ≤ (sent ++ [payload]).length := by
          have := hpush.2.begun
          rwa [hwindow] at this
        refine ⟨k, ?_, ?_⟩
        · exact hfull.trans (List.sublist_append_left _ _).length_le
        · rw [← Option.some.inj hnow, streamParity, streamParity, groupFrames_append hfull]
    · split_ifs at hpush <;>
        · have := ih hpush.2 hlater
          rwa [hwindow] at this

end FecEncoder

namespace FecDecoder
variable {payloads : List Bytes} {dec : FecDecoder} {k : Nat}

/-- The active group is the `k`-th of the stream, and the decoder has frames of that group only. -/
structure GroupAt (payloads : List Bytes) (dec : FecDecoder) (k : Nat) : Prop where
  base : dec.seqBase = UInt32.ofNat (k * dec.window.toNat)
  frames : ∀ i payload, dec.received[i]? = some (some payload) →
    payloads[k * dec.window.toNat + i]? = some payload

def Stores (payloads : List Bytes) (dec : FecDecoder) : Prop :=
  dec.active = true → ∃ k, k * dec.window.toNat < 2 ^ 32 ∧ dec.GroupAt payloads k

theorem stores_new (window : UInt8) : (new window).Stores payloads := fun h => by cases h

theorem Stores.reset : dec.reset.Stores payloads := fun h => by cases h

theorem window_pos (dec : FecDecoder) : 0 < dec.window.toNat :=
  UInt8.lt_iff_toNat_lt.mp (zero_lt_of_two_le dec.window_ge)

theorem ofNat_mul_inj {window j k : Nat} (hwindow : 0 < window)
    (h : UInt32.ofNat (j * window) = UInt32.ofNat (k * window)) (hj : j * window < 2 ^ 32)
    (hk : k * window < 2 ^ 32) : j = k := by
  have hval := congrArg UInt32.toNat h
  rw [UInt32.toNat_ofNat', UInt32.toNat_ofNat', Nat.mod_eq_of_lt hj, Nat.mod_eq_of_lt hk] at hval
  exact Nat.eq_of_mul_eq_mul_right hwindow hval

theorem Stores.selectGroup (h : dec.Stores payloads) (hk : k * dec.window.toNat < 2 ^ 32) :
    (dec.selectGroup (UInt32.ofNat (k * dec.window.toNat))).GroupAt payloads k := by
  unfold FecDecoder.selectGroup
  split_ifs with hnew
  · refine ⟨rfl, fun i payload hget => ?_⟩
    have hmem := List.mem_of_getElem? hget
    cases List.eq_of_mem_replicate hmem
  · simp only [Bool.or_eq_true, Bool.not_eq_true', bne_iff_ne, ne_eq, not_or, Bool.not_eq_false,
      not_not] at hnew
    obtain ⟨j, hj, hgroup⟩ := h hnew.1
    rw [← ofNat_mul_inj dec.window_pos (hgroup.base.symm.trans hnew.2) hj hk]
    exact hgroup

theorem groupBase_eq (window : UInt8) {n : Nat} (hn : n < 2 ^ 32) :
    UInt32.ofNat n - UInt32.ofNat n % window.toUInt32 =
      UInt32.ofNat (n / window.toNat * window.toNat) := by
  have hval : (UInt32.ofNat n).toNat = n := by rw [UInt32.toNat_ofNat', Nat.mod_eq_of_lt hn]
  have hmod : (UInt32.ofNat n % window.toUInt32).toNat = n % window.toNat := by
    rw [UInt32.toNat_mod, hval, UInt8.toNat_toUInt32]
  have hle : UInt32.ofNat n % window.toUInt32 ≤ UInt32.ofNat n := by
    rw [UInt32.le_iff_toNat_le, hmod, hval]
    exact Nat.mod_le n _
  have hsplit := Nat.div_add_mod' n window.toNat
  apply UInt32.toNat_inj.mp
  rw [UInt32.toNat_sub_of_le _ _ hle, hmod, hval, UInt32.toNat_ofNat',
    Nat.mod_eq_of_lt (Nat.lt_of_le_of_lt (Nat.div_mul_le_self n _) hn)]
  omega

theorem pushData_window (dec : FecDecoder) (sequence : UInt32) (payload : Bytes) :
    (dec.pushData sequence payload).2.window = dec.window := by
  have hwindow := (dec.selectGroup_spec (sequence - sequence % dec.window.toUInt32)).2.2
  unfold FecDecoder.pushData
  simp only
  split <;> exact hwindow

theorem pushParity_window (dec : FecDecoder) (parity : FecParity) :
    (dec.pushParity parity).2.window = dec.window := (dec.selectGroup_spec parity.seqBase).2.2

theorem Stores.pushData (h : dec.Stores payloads) {n : Nat} (hn : n < 2 ^ 32) {payload : Bytes}
    (hpayload : payloads[n]? = some payload) :
    (dec.pushData (UInt32.ofNat n) payload).2.Stores payloads := by
  have hk : n / dec.window.toNat * dec.window.toNat < 2 ^ 32 :=
    Nat.lt_of_le_of_lt (Nat.div_mul_le_self n _) hn
  have hgroup := h.selectGroup hk
  obtain ⟨hactive, hbase, hwindow⟩ :=
    dec.selectGroup_spec (UInt32.ofNat (n / dec.window.toNat * dec.window.toNat))
  have hoffset : (UInt32.ofNat n -
      UInt32.ofNat (n / dec.window.toNat * dec.window.toNat)).toNat = n % dec.window.toNat := by
    rw [← groupBase_eq dec.window hn, sub_mod_offset, UInt32.toNat_ofNat', Nat.mod_eq_of_lt hn]
  unfold FecDecoder.pushData
  simp only [groupBase_eq dec.window hn, hbase, hoffset, hwindow]
  rw [if_pos (Nat.mod_lt n dec.window_pos)]
  refine fun _ => ⟨n / dec.window.toNat, hk, rfl, fun i found hget => ?_⟩
  change payloads[n / dec.window.toNat * dec.window.toNat + i]? = some found
  simp only [List.getElem?_set] at hget
  split_ifs at hget with hsame hlt
  · cases hget
    rw [← hsame, Nat.div_add_mod']
    exact hpayload
  · have := hgroup.frames i found hget
    rwa [hwindow] at this

/-- The received frames of a group that lacks one are the group with that one blanked. -/
theorem GroupAt.received_eq {lost : Nat} (h : dec.GroupAt payloads k)
    (hfull : (k + 1) * dec.window.toNat ≤ payloads.length)
    (hlen : dec.received.length = dec.window.toNat) (hlost : dec.received.getD lost none = none)
    (hothers : ∀ i < dec.received.length, i ≠ lost → (dec.received.getD i none).isSome) :
    dec.received.map (·.getD []) = (groupFrames dec.window.toNat payloads k).set lost [] := by
  have hgroup := length_groupFrames hfull
  apply List.ext_getElem
  · rw [List.length_map, List.length_set, hlen, hgroup]
  · intro i hi _
    rw [List.length_map] at hi
    rw [List.getElem_map, List.getElem_set]
    have hget : dec.received.getD i none = dec.received[i] := by
      rw [List.getD_eq_getElem?_getD, List.getElem?_eq_getElem hi]
      rfl
    split_ifs with hsame
    · subst hsame
      rw [hget] at hlost
      rw [hlost]
      rfl
    · have hsome := hothers i hi (Ne.symm hsame)
      rw [hget] at hsome
      obtain ⟨payload, hpayload⟩ := Option.isSome_iff_exists.mp hsome
      have hin := h.frames i payload (by rw [List.getElem?_eq_getElem hi, hpayload])
      have hout : (groupFrames dec.window.toNat payloads k)[i]? = some payload := by
        rw [getElem?_groupFrames _ _ (by omega)]
        exact hin
      rw [hpayload, Option.getD_some]
      exact (List.getElem_eq_iff _).mpr hout |>.symm

theorem Stores.pushParity (h : dec.Stores payloads) (hk : k * dec.window.toNat < 2 ^ 32)
    (parity : FecParity) (hbase : parity.seqBase = UInt32.ofNat (k * dec.window.toNat)) :
    (dec.pushParity parity).2.Stores payloads := by
  have hgroup := h.selectGroup hk
  obtain ⟨-, -, hwindow⟩ := dec.selectGroup_spec (UInt32.ofNat (k * dec.window.toNat))
  unfold FecDecoder.pushParity
  rw [hbase]
  exact fun _ => ⟨k, by rwa [hwindow], hgroup.base, hgroup.frames⟩

/-- What a parity of the stream recovers: the missing frame, padded to the length of the parity. -/
theorem Stores.recovers (h : dec.Stores payloads) (hk : k * dec.window.toNat < 2 ^ 32)
    (hfull : (k + 1) * dec.window.toNat ≤ payloads.length) {window : UInt8} {sequence : UInt32}
    {data : Bytes} (hsome : (dec.pushParity ⟨UInt32.ofNat (k * dec.window.toNat), window,
      XorParity.parity (groupFrames dec.window.toNat payloads k)⟩).1 = some (sequence, data)) :
    ∃ lost frame, (dec.selectGroup (UInt32.ofNat (k * dec.window.toNat))).missing = [lost] ∧
      lost < dec.window.toNat ∧ sequence = UInt32.ofNat (k * dec.window.toNat + lost) ∧
      (groupFrames dec.window.toNat payloads k)[lost]? = some frame ∧
      data = frame ++ List.replicate
        ((XorParity.parity (groupFrames dec.window.toNat payloads k)).length - frame.length) 0 := by
  have hgroup := h.selectGroup hk
  obtain ⟨hactive, hbase, hwindow⟩ := dec.selectGroup_spec (UInt32.ofNat (k * dec.window.toNat))
  have hlen := received_length _ hactive
  have htry : FecDecoder.tryRecover { dec.selectGroup (UInt32.ofNat (k * dec.window.toNat)) with
      parity := some (XorParity.parity (groupFrames dec.window.toNat payloads k)) } =
        some (sequence, data) := hsome
  obtain ⟨lost, parity, hparity, hmissing, hlt, hnone, hothers, rfl, rfl⟩ := tryRecover_some htry
  cases hparity
  have hinside : lost < dec.window.toNat := by
    rw [← hwindow, ← hlen]
    exact hlt
  have hframe := List.getElem?_eq_getElem
    (show lost < (groupFrames dec.window.toNat payloads k).length by
      rwa [length_groupFrames hfull])
  refine ⟨lost, _, hmissing, hinside, ?_, hframe, ?_⟩
  · rw [hbase, UInt32.ofNat_add]
  · have hreceived := hgroup.received_eq (by rwa [hwindow]) hlen hnone hothers
    rw [hwindow] at hreceived
    rw [hreceived, XorParity.recover hframe]

end FecDecoder

end GravitalTalk.Transport
