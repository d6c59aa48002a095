import GravitalTalk.Lib.Slots
import GravitalTalk.Core.Fragment

/-! A reassembler after any inserts is a function of what each index was given first, and its counter
is the number of indices that were given anything. -/
namespace GravitalTalk.Core.FragmentReassembler
open Lib Lib.Slots

def insertAll (self : FragmentReassembler) (calls : List (UInt16 × Bytes)) : FragmentReassembler :=
  calls.foldl (fun self call => (self.insert call.1 call.2).2) self

theorem insertAll_concat (self : FragmentReassembler) (calls : List (UInt16 × Bytes))
    (call : UInt16 × Bytes) :
    self.insertAll (calls ++ [call]) = ((self.insertAll calls).insert call.1 call.2).2 := by
  rw [insertAll, List.foldl_append]
  rfl

theorem toNat_ofNat_of_le {total : UInt16} {n : Nat} (h : n ≤ total.toNat) :
    (UInt16.ofNat n).toNat = n :=
  UInt16.toNat_ofNat_of_lt' (lt_of_le_of_lt h total.toNat_lt)

def indices (total : UInt16) : List UInt16 := (List.range total.toNat).map UInt16.ofNat

theorem getElem?_indices {total index : UInt16} (h : index < total) :
    (indices total)[index.toNat]? = some index := by
  have hlt : index.toNat < total.toNat := UInt16.lt_iff_toNat_lt.mp h
  rw [indices, List.getElem?_map, List.getElem?_range hlt, Option.map_some, UInt16.ofNat_toNat]

theorem mem_indices {total index : UInt16} : index ∈ indices total ↔ index < total := by
  constructor
  · intro h
    obtain ⟨i, hi, rfl⟩ := List.mem_map.mp h
    rw [List.mem_range] at hi
    rwa [UInt16.lt_iff_toNat_lt, toNat_ofNat_of_le hi.le]
  · intro h
    exact List.mem_of_getElem? (getElem?_indices h)

theorem nodup_indices (total : UInt16) : (indices total).Nodup := by
  apply List.Nodup.map_on
  · intro i hi j hj heq
    rw [List.mem_range] at hi hj
    have hnat := congrArg UInt16.toNat heq
    rwa [toNat_ofNat_of_le hi.le, toNat_ofNat_of_le hj.le] at hnat
  · exact List.nodup_range

/-- The reassembler for `total` fragments that holds what each index was given first. -/
def holding (total : UInt16) (calls : List (UInt16 × Bytes)) : FragmentReassembler :=
  let buffers := table (indices total) calls
  ⟨total, buffers, UInt16.ofNat (filled buffers)⟩

variable {total : UInt16} {calls : List (UInt16 × Bytes)} {index : UInt16}

theorem length_indices (total : UInt16) : (indices total).length = total.toNat := by
  simp [indices]

theorem new_eq_holding (hone : 1 ≤ total) (hmax : total ≤ 16) :
    new total = .ok (holding total []) := by
  have hcheck : ¬(total = 0 ∨ total > maxFragments) := by
    rintro (rfl | hgt)
    · exact absurd hone (by decide)
    · exact absurd hmax (UInt16.not_le.mpr hgt)
  have hbuffers : table (indices total) ([] : List (UInt16 × Bytes)) =
      List.replicate total.toNat none := by
    rw [table_nil, length_indices]
  have hnone : filled (List.replicate total.toNat (none : Option Bytes)) = 0 := by
    simp [filled, List.countP_replicate]
  rw [new, if_neg hcheck, holding, hbuffers, hnone]
  rfl

theorem getD_holding (h : index < total) :
    (holding total calls).buffers.getD index.toNat none = calls.lookup index := by
  rw [holding, List.getD_eq_getElem?_getD, getElem?_table, getElem?_indices h]
  rfl

theorem insert_out_of_range (payload : Bytes) (h : ¬index < total) :
    (holding total calls).insert index payload =
      (.error .fragmentOutOfRange, holding total calls) :=
  if_pos (UInt16.not_lt.mp h)

theorem insert_duplicate (payload : Bytes) (h : index < total)
    (hseen : (calls.lookup index).isSome) :
    (holding total calls).insert index payload =
      (.error .duplicateFragment, holding total calls) := by
  have hrange : ¬index ≥ (holding total calls).expectedTotal := UInt16.not_le.mpr h
  rw [insert, if_neg hrange, getD_holding h, if_pos hseen]

theorem insert_fresh (payload : Bytes) (h : index < total) (hfresh : calls.lookup index = none) :
    (holding total calls).insert index payload =
      (.ok (), holding total (calls ++ [(index, payload)])) := by
  have hrange : ¬index ≥ (holding total calls).expectedTotal := UInt16.not_le.mpr h
  have hbuffers := table_concat_of_fresh (nodup_indices total) payload (getElem?_indices h) hfresh
  have hempty : (table (indices total) calls)[index.toNat]? = some none := by
    rw [getElem?_table, getElem?_indices h, Option.map_some, hfresh]
  rw [insert, if_neg hrange, getD_holding h, hfresh, if_neg (by decide)]
  simp only [holding]
  rw [hbuffers, filled_set payload hempty, UInt16.ofNat_add]
  rfl

theorem insert_outcome (index : UInt16) (payload : Bytes) :
    (((holding total calls).insert index payload).1 = .ok () ↔
      index < total ∧ ∀ call ∈ calls, call.1 ≠ index) ∧
    ∀ e, ((holding total calls).insert index payload).1 = .error e →
      ((holding total calls).insert index payload).2 = holding total calls := by
  by_cases h : index < total
  · cases hlookup : calls.lookup index with
    | none =>
      have hfresh : ∀ call ∈ calls, call.1 ≠ index := by
        intro call hcall heq
        have hseen := lookup_isSome_iff.mpr ⟨call, hcall, heq⟩
        rw [hlookup] at hseen
        cases hseen
      rw [insert_fresh payload h hlookup]
      exact ⟨iff_of_true rfl ⟨h, hfresh⟩, fun e he => by cases he⟩
    | some first =>
      have hseen : (calls.lookup index).isSome := by rw [hlookup]; rfl
      obtain ⟨call, hcall, heq⟩ := lookup_isSome_iff.mp hseen
      rw [insert_duplicate payload h hseen]
      refine ⟨iff_of_false (fun hok => by cases hok) ?_, fun _ _ => rfl⟩
      intro hfresh
      exact hfresh.2 call hcall heq
  · rw [insert_out_of_range payload h]
    exact ⟨iff_of_false (fun hok => by cases hok) fun hin => h hin.1, fun _ _ => rfl⟩

theorem insert_holding (calls : List (UInt16 × Bytes)) (call : UInt16 × Bytes) :
    ((holding total calls).insert call.1 call.2).2 = holding total (calls ++ [call]) := by
  by_cases h : call.1 < total
  · cases hlookup : calls.lookup call.1 with
    | none => rw [insert_fresh _ h hlookup]
    | some first =>
      have hseen : (calls.lookup call.1).isSome := by rw [hlookup]; rfl
      rw [insert_duplicate _ h hseen, holding, holding, table_concat_of_seen _ fun _ => hseen]
  · have habsent : call.1 ∈ indices total → (calls.lookup call.1).isSome :=
      fun hmem => absurd (mem_indices.mp hmem) h
    rw [insert_out_of_range _ h, holding, holding, table_concat_of_seen _ habsent]

theorem insertAll_holding (calls : List (UInt16 × Bytes)) :
    (holding total []).insertAll calls = holding total calls := by
  induction calls using List.reverseRecOn with
  | nil => rfl
  | append_singleton calls call ih => rw [insertAll_concat, ih, insert_holding]

theorem holding_congr {other : List (UInt16 × Bytes)}
    (h : ∀ index < total, calls.lookup index = other.lookup index) :
    holding total calls = holding total other := by
  have htable : table (indices total) calls = table (indices total) other :=
    List.map_congr_left fun index hmem => h index (mem_indices.mp hmem)
  rw [holding, holding, htable]

theorem isComplete_holding :
    (holding total calls).isComplete = true ↔ ∀ index < total, (calls.lookup index).isSome := by
  have hle : filled (table (indices total) calls) ≤ total.toNat := by
    have hle := filled_le (table (indices total) calls)
    rwa [table, List.length_map, length_indices] at hle
  have hreceived : (holding total calls).received.toNat = filled (table (indices total) calls) :=
    toNat_ofNat_of_le hle
  have hcount := @filled_table_eq_length_iff UInt16 Bytes _ (indices total) calls
  rw [length_indices] at hcount
  rw [isComplete, beq_iff_eq, ← UInt16.toNat_inj, hreceived]
  refine hcount.trans (forall_congr' fun index => ?_)
  rw [mem_indices]

theorem finish_holding :
    (holding total calls).finish =
      if (holding total calls).isComplete then
        .ok ((indices total).flatMap fun index => (calls.lookup index).getD [])
      else .error .incompleteReassembly := by
  have hbytes : (holding total calls).buffers.reduceOption.flatten =
      (indices total).flatMap fun index => (calls.lookup index).getD [] := by
    rw [flatten_reduceOption, holding, table, List.flatMap_map]
  unfold finish
  rw [hbytes]
  cases (holding total calls).isComplete <;> rfl

theorem holding_perm {other : List (UInt16 × Bytes)} (h : calls.Perm other)
    (hnodup : (calls.map Prod.fst).Nodup) : holding total calls = holding total other :=
  holding_congr fun index _ => lookup_perm h hnodup index

theorem holding_append_seen {later : List (UInt16 × Bytes)}
    (h : ∀ call ∈ later, call.1 < total → (calls.lookup call.1).isSome) :
    holding total (calls ++ later) = holding total calls := by
  apply holding_congr
  intro index hindex
  apply lookup_append_of_seen
  rintro ⟨call, hcall, rfl⟩
  exact h call hcall hindex

/-- After any inserts: an insert succeeds exactly for the first payload of an index in range, and one
that fails changes nothing; the frame is complete exactly when every index has come, and is then made
of the first payload of each.  So only the first payloads count: not the order of inserts for
different indices, nor what comes later for an index that has been filled. -/
theorem reassembly_order_insensitive (total : UInt16) (hone : 1 ≤ total) (hmax : total ≤ 16) :
    ∃ start, new total = .ok start ∧ ∀ calls : List (UInt16 × Bytes),
      (∀ index payload,
        (((start.insertAll calls).insert index payload).1 = .ok () ↔
          index < total ∧ ∀ call ∈ calls, call.1 ≠ index) ∧
        ∀ e, ((start.insertAll calls).insert index payload).1 = .error e →
          ((start.insertAll calls).insert index payload).2 = start.insertAll calls) ∧
      ((start.insertAll calls).isComplete = true ↔
        ∀ index < total, ∃ call ∈ calls, call.1 = index) ∧
      (start.insertAll calls).finish =
        (if (start.insertAll calls).isComplete then
          .ok ((indices total).flatMap fun index => (calls.lookup index).getD [])
        else .error .incompleteReassembly) ∧
      (∀ other, calls.Perm other → (calls.map Prod.fst).Nodup →
        start.insertAll other = start.insertAll calls) ∧
      ∀ later, (∀ call ∈ later, call.1 < total → ∃ first ∈ calls, first.1 = call.1) →
        start.insertAll (calls ++ later) = start.insertAll calls := by
  refine ⟨_, new_eq_holding hone hmax, fun calls => ?_⟩
  simp only [insertAll_holding]
  refine ⟨fun index payload => insert_outcome index payload, ?_, finish_holding, ?_, ?_⟩
  · rw [isComplete_holding]
    simp only [lookup_isSome_iff]
  · intro other hperm hnodup
    exact (holding_perm hperm hnodup).symm
  · intro later hlater
    apply holding_append_seen
    intro call hcall hin
    exact lookup_isSome_iff.mpr (hlater call hcall hin)

/-- Two fragments in reverse order, the first of them twice. -/
theorem reassembly_order_insensitive_reversed :
    ∃ start, new 2 = .ok start ∧
      (start.insertAll [(1, [3]), (1, [4]), (0, [])]).finish = .ok [3] := by
  obtain ⟨start, hnew, h⟩ := reassembly_order_insensitive 2 (by decide) (by decide)
  obtain ⟨-, hcomplete, hfinish, -⟩ := h [(1, [3]), (1, [4]), (0, [])]
  refine ⟨start, hnew, ?_⟩
  rw [hfinish, if_pos (hcomplete.mpr ?_)]
  · rfl
  · intro index hindex
    have hsmall : index = 0 ∨ index = 1 := by
      have hlt := UInt16.lt_iff_toNat_lt.mp hindex
      rw [← UInt16.toNat_inj, ← UInt16.toNat_inj]
      change index.toNat < 2 at hlt
      change index.toNat = 0 ∨ index.toNat = 1
      omega
    rcases hsmall with rfl | rfl
    · exact ⟨(0, []), by simp, rfl⟩
    · exact ⟨(1, [3]), by simp, rfl⟩

end GravitalTalk.Core.FragmentReassembler
