import Mathlib.Data.List.Nodup
import Mathlib.Data.List.Perm.Subperm

/-! Numbered items cut into blocks of `w` consecutive numbers.  When no number occurs twice a block
has at most `w` items, and `w` of them are all of it. -/
namespace GravitalTalk.Lib.Blocks

variable {α : Type*} {key : α → Nat} {w k : Nat} {items : List α}

def block (key : α → Nat) (w k : Nat) (items : List α) : List α :=
  items.filter fun item => key item / w = k

theorem mem_block {item : α} : item ∈ block key w k items ↔ item ∈ items ∧ key item / w = k := by
  simp [block]

theorem nodup_block (h : (items.map key).Nodup) : ((block key w k items).map key).Nodup :=
  h.sublist (List.filter_sublist.map key)

theorem length_block_le (hw : 0 < w) (h : (items.map key).Nodup) :
    (block key w k items).length ≤ w := by
  have hsubset : (block key w k items).map key ⊆ List.range' (k * w) w := by
    intro n hn
    obtain ⟨item, hitem, rfl⟩ := List.mem_map.mp hn
    obtain ⟨-, rfl⟩ := mem_block.mp hitem
    rw [List.mem_range'_1]
    have hmod := Nat.mod_lt (key item) hw
    have hdiv := Nat.div_add_mod (key item) w
    rw [Nat.mul_comm]
    omega
  have hle := (List.subperm_of_subset (nodup_block h) hsubset).length_le
  rwa [List.length_map, List.length_range'] at hle

theorem perm_block (hw : 0 < w) (h : (items.map key).Nodup) {part : List α}
    (hpart : (part.map key).Nodup) (hsubset : part ⊆ items) (hin : ∀ item ∈ part, key item / w = k)
    (hlen : part.length = w) : part.Perm (block key w k items) := by
  have hsubset' : part ⊆ block key w k items := fun item hitem =>
    mem_block.mpr ⟨hsubset hitem, hin item hitem⟩
  have hsubperm := List.subperm_of_subset (List.Nodup.of_map key hpart) hsubset'
  exact hsubperm.perm_of_length_le
    (Nat.le_trans (length_block_le hw h) (Nat.le_of_eq hlen.symm))

theorem exists_missing {part : List α} (hlen : part.length < w) (k : Nat) :
    ∃ n, n / w = k ∧ n ∉ part.map key := by
  by_contra hall
  push Not at hall
  have hsubset : List.range' (w * k) w ⊆ part.map key := by
    intro n hn
    obtain ⟨hle, hlt⟩ := List.mem_range'_1.mp hn
    refine hall n (Nat.div_eq_of_lt_le ?_ ?_)
    · rwa [Nat.mul_comm]
    · rwa [Nat.succ_mul, Nat.mul_comm]
  have hle := (List.subperm_of_subset List.nodup_range' hsubset).length_le
  rw [List.length_range', List.length_map] at hle
  omega

theorem mem_full (hw : 0 < w) {part : List α} (hpart : (part.map key).Nodup)
    (hin : ∀ item ∈ part, key item / w = k) (hlen : part.length = w) {n : Nat} (hn : n / w = k) :
    n ∈ part.map key := by
  by_contra hmissing
  have hmore : (n :: part.map key).Nodup := List.nodup_cons.mpr ⟨hmissing, hpart⟩
  have hblock : ∀ m ∈ n :: part.map key, id m / w = k := by
    intro m hm
    rcases List.mem_cons.mp hm with rfl | hm
    · exact hn
    · obtain ⟨item, hitem, rfl⟩ := List.mem_map.mp hm
      exact hin item hitem
  have hle := @length_block_le _ id w k (n :: part.map key) hw (by rwa [List.map_id])
  rw [block, List.filter_eq_self.mpr fun m hm => decide_eq_true (hblock m hm), List.length_cons,
    List.length_map] at hle
  omega

theorem block_concat (hw : 0 < w) {item : α} (h : ((items ++ [item]).map key).Nodup)
    (hfull : (block key w k items).length = w) :
    block key w k (items ++ [item]) = block key w k items := by
  have hle := length_block_le (k := k) hw h
  rw [block, List.filter_append] at hle ⊢
  rw [List.length_append, ← block, hfull] at hle
  rw [List.eq_nil_of_length_eq_zero (show ([item].filter fun i => key i / w = k).length = 0 by omega),
    List.append_nil]
  rfl

end GravitalTalk.Lib.Blocks
