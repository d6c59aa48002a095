import Mathlib.Data.List.Basic

/-! A stream cut into consecutive frames of `n` items, with a rest shorter than a frame. -/
namespace GravitalTalk.Lib.Framing
variable {α : Type*} {n : Nat}

def frames (n : Nat) (stream : List α) : List (List α) :=
  (List.range (stream.length / n)).map fun k => (stream.drop (k * n)).take n

def rest (n : Nat) (stream : List α) : List α := stream.drop (stream.length / n * n)

/-- Some whole frames and what is left, in order and without loss. -/
structure Cut (n : Nat) (stream : List α) (cut : List (List α)) (left : List α) : Prop where
  full : ∀ frame ∈ cut, frame.length = n
  whole : cut.flatten ++ left = stream

theorem Cut.start (n : Nat) (stream : List α) : Cut n stream [] stream := ⟨by simp, rfl⟩

theorem Cut.append {stream left : List α} {cut : List (List α)} (h : Cut n stream cut left)
    (items : List α) : Cut n (stream ++ items) cut (left ++ items) where
  full := h.full
  whole := by rw [← List.append_assoc, h.whole]

theorem Cut.next {stream frame left : List α} {cut : List (List α)}
    (h : Cut n stream cut (frame ++ left)) (hframe : frame.length = n) :
    Cut n stream (cut ++ [frame]) left where
  full := by
    rw [List.forall_mem_append]
    exact ⟨h.full, by simpa using hframe⟩
  whole := by rw [List.flatten_concat, List.append_assoc, h.whole]

theorem length_of_mem_frames {stream frame : List α} (h : frame ∈ frames n stream) :
    frame.length = n := by
  obtain ⟨k, hk, rfl⟩ := List.mem_map.mp h
  have hlt : k < stream.length / n := List.mem_range.mp hk
  have hend : (k + 1) * n ≤ stream.length :=
    Nat.le_trans (Nat.mul_le_mul_right n hlt) (Nat.div_mul_le_self _ _)
  rw [Nat.succ_mul] at hend
  rw [List.length_take, List.length_drop]
  omega

section Cons
variable {frame : List α} (hn : 0 < n) (h : frame.length = n) (stream : List α)
include hn h

theorem count_append : (frame ++ stream).length / n = stream.length / n + 1 := by
  rw [List.length_append, h, Nat.add_div_left _ hn]

omit hn in
theorem drop_append (k : Nat) : (frame ++ stream).drop ((k + 1) * n) = stream.drop (k * n) := by
  rw [Nat.succ_mul, Nat.add_comm, ← List.drop_drop, List.drop_left' h]

theorem frames_append : frames n (frame ++ stream) = frame :: frames n stream := by
  rw [frames, count_append hn h, List.range_succ_eq_map, List.map_cons, List.map_map, Nat.zero_mul,
    List.drop_zero, List.take_left' h]
  congr 1
  apply List.map_congr_left
  intro k _
  rw [Function.comp_apply, Nat.succ_eq_add_one, drop_append h]

theorem rest_append : rest n (frame ++ stream) = rest n stream := by
  rw [rest, count_append hn h, drop_append h, rest]

end Cons

theorem frames_append_of_mod {stream : List α} (hn : 0 < n) (h : stream.length % n = 0)
    (more : List α) : frames n (stream ++ more) = frames n stream ++ frames n more := by
  obtain ⟨k, hk⟩ : ∃ k, stream.length = n * k := ⟨_, (Nat.mul_div_cancel' (Nat.dvd_of_mod_eq_zero h)).symm⟩
  clear h
  induction k generalizing stream with
  | zero =>
    obtain rfl := List.eq_nil_of_length_eq_zero hk
    simp [frames]
  | succ k ih =>
    rw [Nat.mul_succ] at hk
    have hframe : (stream.take n).length = n := by
      rw [List.length_take]
      omega
    have hrest : (stream.drop n).length = n * k := by
      rw [List.length_drop]
      omega
    rw [← List.take_append_drop n stream, List.append_assoc, frames_append hn hframe,
      frames_append hn hframe, ih hrest, List.cons_append]

theorem length_flatten_mod {slices : List (List α)} (h : ∀ slice ∈ slices, slice.length % n = 0) :
    slices.flatten.length % n = 0 := by
  induction slices with
  | nil => exact Nat.zero_mod n
  | cons slice slices ih =>
    rw [List.forall_mem_cons] at h
    rw [List.flatten_cons, List.length_append, Nat.add_mod, h.1, ih h.2]
    exact Nat.zero_mod n

theorem frames_flatten {slices : List (List α)} (hn : 0 < n)
    (h : ∀ slice ∈ slices, slice.length % n = 0) :
    frames n slices.flatten = (slices.map (frames n)).flatten := by
  induction slices with
  | nil => simp [frames]
  | cons slice slices ih =>
    rw [List.forall_mem_cons] at h
    rw [List.flatten_cons, frames_append_of_mod hn h.1, ih h.2, List.map_cons, List.flatten_cons]

theorem Cut.unique {stream left : List α} {cut : List (List α)} (h : Cut n stream cut left)
    (hshort : left.length < n) : cut = frames n stream ∧ left = rest n stream := by
  obtain ⟨hfull, rfl⟩ := h
  have hn : 0 < n := Nat.zero_lt_of_lt hshort
  induction cut with
  | nil =>
    have hcount : left.length / n = 0 := Nat.div_eq_of_lt hshort
    simp [frames, rest, hcount]
  | cons frame cut ih =>
    rw [List.forall_mem_cons] at hfull
    obtain ⟨hcut, hleft⟩ := ih hfull.2
    rw [List.flatten_cons, List.append_assoc, frames_append hn hfull.1, rest_append hn hfull.1, ← hcut]
    exact ⟨rfl, hleft⟩

end GravitalTalk.Lib.Framing
