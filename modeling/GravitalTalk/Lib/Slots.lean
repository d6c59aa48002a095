import Mathlib.Data.List.ReduceOption

/-! Slots that keep the first value they are given.  A table with one slot for each key is a function
of what every key was given first, so neither the order of the other calls nor a later call shows. -/
namespace GravitalTalk.Lib.Slots
variable {κ α : Type*} [BEq κ]

def table (keys : List κ) (calls : List (κ × α)) : List (Option α) :=
  keys.map fun key => calls.lookup key

def filled (slots : List (Option α)) : Nat := slots.countP Option.isSome

theorem table_nil (keys : List κ) : table keys ([] : List (κ × α)) =
    List.replicate keys.length none := by
  rw [table, List.map_eq_replicate_iff]
  intro key _
  rfl

theorem getElem?_table (keys : List κ) (calls : List (κ × α)) (i : Nat) :
    (table keys calls)[i]? = keys[i]?.map fun key => calls.lookup key := List.getElem?_map

theorem filled_table_eq_length_iff {keys : List κ} {calls : List (κ × α)} :
    filled (table keys calls) = keys.length ↔ ∀ key ∈ keys, (calls.lookup key).isSome := by
  have hlen : (table keys calls).length = keys.length := List.length_map _
  rw [filled, ← hlen, List.countP_eq_length, table, List.forall_mem_map]

variable [LawfulBEq κ]

theorem lookup_concat_of_ne {calls : List (κ × α)} {key other : κ} (a : α) (h : other ≠ key) :
    (calls ++ [(key, a)]).lookup other = calls.lookup other := by
  have hnone : [(key, a)].lookup other = none := by
    simp [List.lookup_cons, beq_eq_false_iff_ne.mpr h]
  rw [List.lookup_append, hnone, Option.or_none]

theorem lookup_concat_self {calls : List (κ × α)} {key : κ} (a : α) (h : calls.lookup key = none) :
    (calls ++ [(key, a)]).lookup key = some a := by
  rw [List.lookup_append, h]
  simp

theorem lookup_isSome_iff {calls : List (κ × α)} {key : κ} :
    (calls.lookup key).isSome ↔ ∃ call ∈ calls, call.1 = key := by
  rw [List.lookup_isSome_iff]
  apply exists_congr
  intro call
  rw [beq_iff_eq, eq_comm]

theorem table_concat_of_seen {keys : List κ} {calls : List (κ × α)} {key : κ} (a : α)
    (h : key ∈ keys → (calls.lookup key).isSome) :
    table keys (calls ++ [(key, a)]) = table keys calls := by
  apply List.map_congr_left
  intro other hother
  by_cases heq : other = key
  · subst heq
    obtain ⟨b, hb⟩ := Option.isSome_iff_exists.mp (h hother)
    rw [List.lookup_append, hb, Option.some_or]
  · exact lookup_concat_of_ne a heq

theorem table_concat_of_fresh {keys : List κ} (hnodup : keys.Nodup) {calls : List (κ × α)} {key : κ}
    (a : α) {i : Nat} (hi : keys[i]? = some key) (h : calls.lookup key = none) :
    table keys (calls ++ [(key, a)]) = (table keys calls).set i (some a) := by
  apply List.ext_getElem?
  intro j
  obtain ⟨hlt, hkey⟩ := List.getElem?_eq_some_iff.mp hi
  have hlen : i < (table keys calls).length := by rwa [table, List.length_map]
  rw [List.getElem?_set, if_pos hlen, getElem?_table, getElem?_table]
  by_cases heq : i = j
  · rw [if_pos heq, ← heq, hi, Option.map_some, lookup_concat_self a h]
  · rw [if_neg heq]
    cases hj : keys[j]? with
    | none => rfl
    | some other =>
      have hne : other ≠ key := by
        rintro rfl
        exact heq ((List.getElem?_inj hlt hnodup).mp (hi.trans hj.symm))
      rw [Option.map_some, Option.map_some, lookup_concat_of_ne a hne]

theorem filled_set {slots : List (Option α)} {i : Nat} (a : α) (h : slots[i]? = some none) :
    filled (slots.set i (some a)) = filled slots + 1 := by
  obtain ⟨hi, hnone⟩ := List.getElem?_eq_some_iff.mp h
  simp [filled, List.countP_set hi, hnone]

theorem filled_le (slots : List (Option α)) : filled slots ≤ slots.length := List.countP_le_length

theorem flatten_reduceOption (slots : List (Option (List α))) :
    slots.reduceOption.flatten = slots.flatMap fun slot => slot.getD [] := by
  induction slots with
  | nil => rfl
  | cons slot slots ih =>
    cases slot with
    | none => simpa using ih
    | some value => simp [ih]

theorem lookup_perm {calls other : List (κ × α)} (h : calls.Perm other)
    (hnodup : (calls.map Prod.fst).Nodup) (key : κ) : calls.lookup key = other.lookup key := by
  induction h with
  | nil => rfl
  | cons call _ ih =>
    have htail := ih (List.nodup_cons.mp hnodup).2
    obtain ⟨first, a⟩ := call
    rw [List.lookup_cons, List.lookup_cons, htail]
  | swap first second calls =>
    obtain ⟨left, a⟩ := first
    obtain ⟨right, b⟩ := second
    have hne : right ≠ left := by
      intro heq
      rw [List.map_cons, List.map_cons, List.nodup_cons] at hnodup
      exact hnodup.1 (heq ▸ List.mem_cons_self)
    by_cases hright : key = right
    · simp [List.lookup_cons, hright, beq_eq_false_iff_ne.mpr hne]
    · simp [List.lookup_cons, beq_eq_false_iff_ne.mpr hright]
  | trans hleft _ ihleft ihright =>
    exact (ihleft hnodup).trans (ihright ((hleft.map Prod.fst).nodup_iff.mp hnodup))

theorem lookup_append_of_seen {calls later : List (κ × α)} {key : κ}
    (h : (∃ call ∈ later, call.1 = key) → (calls.lookup key).isSome) :
    (calls ++ later).lookup key = calls.lookup key := by
  rw [List.lookup_append]
  cases hlookup : calls.lookup key with
  | some a => rfl
  | none =>
    rw [Option.none_or, List.lookup_eq_none_iff]
    intro call hcall
    rw [bne_iff_ne]
    intro hkey
    have hseen := h ⟨call, hcall, hkey.symm⟩
    rw [hlookup] at hseen
    cases hseen

section Firsts
variable (key : α → κ)

def keepFirst (kept : List α) (a : α) : List α :=
  if kept.any fun b => key b == key a then kept else kept ++ [a]

def sameKey (a b : α) : Bool := key a == key b

theorem foldl_keepFirst (kept items : List α) :
    items.foldl (keepFirst key) kept =
      kept ++ (items.filter fun a => !kept.any fun b => key b == key a).eraseDupsBy (sameKey key) := by
  induction items generalizing kept with
  | nil => simp
  | cons a items ih =>
    rw [List.foldl_cons, ih]
    cases hseen : kept.any fun b => key b == key a with
    | true => simp [keepFirst, hseen]
    | false =>
      have hfilter : (items.filter fun c => !(kept ++ [a]).any fun b => key b == key c) =
          ((items.filter fun c => !kept.any fun b => key b == key c).filter
            fun c => sameKey key c a = false) := by
        rw [List.filter_filter]
        apply List.filter_congr
        intro c _
        rw [List.any_append, List.any_cons, List.any_nil, Bool.or_false, Bool.not_or, Bool.and_comm,
          sameKey, Bool.beq_comm]
        cases key c == key a <;> rfl
      rw [keepFirst, hseen, if_neg Bool.false_ne_true, hfilter, List.filter_cons, hseen,
        List.append_assoc]
      simp only [Bool.not_false, if_true, List.eraseDupsBy_cons, List.singleton_append]

theorem find?_eraseDupsBy (items : List α) (k : κ) :
    (items.eraseDupsBy (sameKey key)).find? (fun a => key a == k) =
      items.find? fun a => key a == k := by
  induction hlen : items.length using Nat.strongRecOn generalizing items with
  | _ n ih =>
    cases items with
    | nil => rfl
    | cons a items =>
      rw [List.eraseDupsBy_cons]
      by_cases hkey : key a == k
      · exact (List.find?_cons_of_pos (p := fun a => key a == k) hkey).trans
          (List.find?_cons_of_pos (p := fun a => key a == k) hkey).symm
      · have hle := List.length_filter_le (fun b => sameKey key b a = false) items
        rw [List.length_cons] at hlen
        rw [List.find?_cons_of_neg (p := fun a => key a == k) hkey,
          List.find?_cons_of_neg (p := fun a => key a == k) hkey, ih _ (by omega) _ rfl,
          List.find?_filter]
        congr 1
        funext b
        cases hb : key b == k with
        | false => simp
        | true =>
          have hne : key b ≠ key a := by
            intro heq
            exact hkey (heq ▸ hb)
          simp [sameKey, hne]

theorem nodup_eraseDupsBy (items : List α) :
    ((items.eraseDupsBy (sameKey key)).map key).Nodup := by
  induction hlen : items.length using Nat.strongRecOn generalizing items with
  | _ n ih =>
    cases items with
    | nil => exact List.nodup_nil
    | cons a items =>
      have hle := List.length_filter_le (fun b => sameKey key b a = false) items
      rw [List.length_cons] at hlen
      rw [List.eraseDupsBy_cons, List.map_cons, List.nodup_cons]
      refine ⟨?_, ih _ (by omega) _ rfl⟩
      intro hmem
      obtain ⟨b, hb, hkey⟩ := List.mem_map.mp hmem
      have hfind := find?_eraseDupsBy key (items.filter fun b => sameKey key b a = false) (key a)
      have hnone : (items.filter fun b => sameKey key b a = false).find?
          (fun c => key c == key a) = none := by
        rw [List.find?_eq_none]
        intro c hc
        have hdiffers := (List.mem_filter.mp hc).2
        rw [decide_eq_true_eq, sameKey] at hdiffers
        rw [hdiffers]
        exact Bool.false_ne_true
      rw [hnone, List.find?_eq_none] at hfind
      exact hfind b hb (beq_iff_eq.mpr hkey)

end Firsts
end GravitalTalk.Lib.Slots
