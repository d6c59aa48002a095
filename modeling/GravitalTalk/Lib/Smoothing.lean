import Mathlib.Data.Nat.Dist
import Mathlib.Tactic.Linarith
import Mathlib.Tactic.Ring
import Mathlib.Tactic.SplitIfs

/-! Exponential smoothing in natural numbers: a value goes the `k`-th part of the way to each sample,
rounded towards where it is.  So it stays between, and less than `k` from the sample it stops. -/
namespace GravitalTalk.Lib.Smoothing

def smooth (k x s : Nat) : Nat := if x < s then x + (s - x) / k else x - (x - s) / k

def smoothAll (k x : Nat) (samples : List Nat) : Nat := samples.foldl (smooth k) x

variable {k x s : Nat}

theorem smooth_between (k x s : Nat) : min x s ≤ smooth k x s ∧ smooth k x s ≤ max x s := by
  unfold smooth
  split_ifs with h
  · have hpart := Nat.div_le_self (s - x) k
    generalize (s - x) / k = part at hpart ⊢
    omega
  · have hpart := Nat.div_le_self (x - s) k
    generalize (x - s) / k = part at hpart ⊢
    omega

/-- Smoothing towards a sample keeps a value between two values of any set the sample joins. -/
theorem smooth_spanned {p : Nat → Prop} {low high : Nat} (hlow : p low) (hhigh : p high)
    (hs : p s) (hlower : low ≤ x) (hupper : x ≤ high) :
    (∃ low, p low ∧ low ≤ smooth k x s) ∧ ∃ high, p high ∧ smooth k x s ≤ high := by
  obtain ⟨hmin, hmax⟩ := smooth_between k x s
  constructor
  · obtain hle | hle := Nat.le_total x s
    · exact ⟨low, hlow, by omega⟩
    · exact ⟨s, hs, by omega⟩
  · obtain hle | hle := Nat.le_total x s
    · exact ⟨s, hs, by omega⟩
    · exact ⟨high, hhigh, by omega⟩

theorem smooth_lt_of_lt {bound : Nat} (hk : 1 < k) (hx : x < bound) (hs : s ≤ bound) :
    smooth k x s < bound := by
  unfold smooth
  split_ifs with h
  · have hpart : (s - x) / k < s - x := Nat.div_lt_self (by omega) hk
    generalize (s - x) / k = part at hpart ⊢
    omega
  · exact (Nat.sub_le _ _).trans_lt hx

theorem dist_smooth (k x s : Nat) : Nat.dist (smooth k x s) s = Nat.dist x s - Nat.dist x s / k := by
  unfold smooth
  split_ifs with h
  · have hpart := Nat.div_le_self (s - x) k
    rw [Nat.dist_eq_sub_of_le h.le]
    generalize (s - x) / k = part at hpart ⊢
    rw [Nat.dist_eq_sub_of_le (by omega)]
    omega
  · have hpart := Nat.div_le_self (x - s) k
    rw [Nat.dist_eq_sub_of_le_right (Nat.not_lt.mp h)]
    generalize (x - s) / k = part at hpart ⊢
    rw [Nat.dist_eq_sub_of_le_right (by omega)]
    omega

/-- What the distance has beyond `k - 1` shrinks by the `k`-th part. -/
theorem contract (hk : 0 < k) (d : Nat) :
    k * (d - d / k - (k - 1)) ≤ (k - 1) * (d - (k - 1)) := by
  obtain ⟨a, rfl⟩ : ∃ a, k = a + 1 := ⟨k - 1, by omega⟩
  have hsplit := Nat.div_add_mod d (a + 1)
  have hmod := Nat.mod_lt d hk
  generalize d / (a + 1) = q at hsplit ⊢
  generalize d % (a + 1) = r at hsplit hmod
  rw [Nat.add_sub_cancel]
  by_cases hfar : d ≤ q + a
  · rw [show d - q - a = 0 by omega, Nat.mul_zero]
    exact Nat.zero_le _
  · obtain ⟨e, rfl⟩ : ∃ e, d = e + q + a := ⟨d - q - a, by omega⟩
    rw [show e + q + a - q - a = e by omega, show e + q + a - a = e + q by omega]
    have hle : e ≤ a * q := by nlinarith
    nlinarith

theorem smoothAll_replicate_succ (k x s n : Nat) :
    smoothAll k x (List.replicate (n + 1) s) = smooth k (smoothAll k x (List.replicate n s)) s := by
  rw [List.replicate_succ', smoothAll, List.foldl_append]
  rfl

theorem dist_smoothAll (hk : 0 < k) (x s n : Nat) :
    k ^ n * (Nat.dist (smoothAll k x (List.replicate n s)) s - (k - 1)) ≤
      (k - 1) ^ n * (Nat.dist x s - (k - 1)) := by
  induction n with
  | zero => simp [smoothAll]
  | succ n ih =>
    rw [smoothAll_replicate_succ, dist_smooth]
    generalize Nat.dist (smoothAll k x (List.replicate n s)) s = d at ih ⊢
    calc k ^ (n + 1) * (d - d / k - (k - 1)) = k ^ n * (k * (d - d / k - (k - 1))) := by ring
      _ ≤ k ^ n * ((k - 1) * (d - (k - 1))) := Nat.mul_le_mul_left _ (contract hk d)
      _ = (k - 1) * (k ^ n * (d - (k - 1))) := by ring
      _ ≤ (k - 1) * ((k - 1) ^ n * (Nat.dist x s - (k - 1))) := Nat.mul_le_mul_left _ ih
      _ = (k - 1) ^ (n + 1) * (Nat.dist x s - (k - 1)) := by ring

theorem pow_lt_of_le {bound n m : Nat} (hk : 0 < k) (hn : (k - 1) ^ n * bound < k ^ n)
    (hm : n ≤ m) : (k - 1) ^ m * bound < k ^ m := by
  obtain ⟨more, rfl⟩ := Nat.exists_eq_add_of_le hm
  calc (k - 1) ^ (n + more) * bound = (k - 1) ^ more * ((k - 1) ^ n * bound) := by ring
    _ ≤ k ^ more * ((k - 1) ^ n * bound) :=
      Nat.mul_le_mul_right _ (Nat.pow_le_pow_left (Nat.sub_le _ _) _)
    _ < k ^ more * k ^ n := Nat.mul_lt_mul_of_pos_left hn (Nat.pow_pos hk)
    _ = k ^ (n + more) := by ring

theorem settles {n m bound : Nat} (hk : 0 < k) (hfar : Nat.dist x s ≤ bound)
    (hn : (k - 1) ^ n * bound < k ^ n) (hm : n ≤ m) :
    Nat.dist (smoothAll k x (List.replicate m s)) s ≤ k - 1 := by
  by_contra hdist
  have hshrunk := dist_smoothAll hk x s m
  have hone : 1 ≤ Nat.dist (smoothAll k x (List.replicate m s)) s - (k - 1) := by omega
  have hlow := Nat.mul_le_mul_left (k ^ m) hone
  have hhigh : (k - 1) ^ m * (Nat.dist x s - (k - 1)) ≤ (k - 1) ^ m * bound :=
    Nat.mul_le_mul_left _ ((Nat.sub_le _ _).trans hfar)
  have hpow := pow_lt_of_le hk hn hm
  omega

end GravitalTalk.Lib.Smoothing
