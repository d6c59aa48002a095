import Mathlib.Tactic

/-! Serial numbers: 32-bit counters that wrap around.  `ahead a b` is how many steps
forward lead from `b` to `a`; every window test on wrapping counters is a bound on it. -/
namespace GravitalTalk.Lib.Serial

def ahead (a b : UInt32) : Nat := (a - b).toNat

theorem ahead_eq_mod (a b : UInt32) : ahead a b = (2 ^ 32 - b.toNat + a.toNat) % 2 ^ 32 :=
  UInt32.toNat_sub a b

theorem ahead_lt (a b : UInt32) : ahead a b < 2 ^ 32 := (a - b).toNat_lt

@[simp] theorem ahead_self (a : UInt32) : ahead a a = 0 := by
  simp [ahead]

theorem toNat_add_ofNat (base : UInt32) (n : Nat) :
    (base + UInt32.ofNat n).toNat = (base.toNat + n) % 2 ^ 32 := by
  rw [UInt32.toNat_add, UInt32.toNat_ofNat']
  omega

theorem ahead_ofNat_mod (base : UInt32) (n : Nat) :
    ahead (base + UInt32.ofNat n) base = n % 2 ^ 32 := by
  have := base.toNat_lt
  rw [ahead_eq_mod, toNat_add_ofNat]
  omega

theorem ahead_add_ofNat (base : UInt32) (n : Nat) (h : n < 2 ^ 32) :
    ahead (base + UInt32.ofNat n) base = n := by
  rw [ahead_ofNat_mod, Nat.mod_eq_of_lt h]

theorem add_ofNat_sub (base : UInt32) {m n : Nat} (h : m ≤ n) :
    base + UInt32.ofNat n = base + UInt32.ofNat m + UInt32.ofNat (n - m) := by
  rw [UInt32.add_assoc, ← UInt32.ofNat_add, Nat.add_sub_cancel' h]

theorem ahead_offsets (base : UInt32) {m n : Nat} (hle : m ≤ n) (h : n - m < 2 ^ 32) :
    ahead (base + UInt32.ofNat n) (base + UInt32.ofNat m) = n - m := by
  rw [add_ofNat_sub base hle, ahead_add_ofNat _ _ h]

theorem offset_inj {base : UInt32} {m n : Nat} (hle : m ≤ n) (h : n - m < 2 ^ 32)
    (heq : base + UInt32.ofNat n = base + UInt32.ofNat m) : n = m := by
  have hzero := ahead_offsets base hle h
  rw [heq, ahead_self] at hzero
  omega

theorem add_ahead (a b : UInt32) : b + UInt32.ofNat (ahead a b) = a := by
  rw [ahead, UInt32.ofNat_toNat, UInt32.add_comm, UInt32.sub_add_cancel]

theorem ahead_inj {a a' b : UInt32} (h : ahead a b = ahead a' b) : a = a' := by
  rw [← add_ahead a b, h, add_ahead]

theorem ahead_trans (a b c : UInt32) : ahead a c = (ahead a b + ahead b c) % 2 ^ 32 := by
  have := a.toNat_lt
  have := b.toNat_lt
  have := c.toNat_lt
  simp only [ahead_eq_mod]
  omega

theorem ahead_add_le (a b : UInt32) (n : Nat) (h : n ≤ ahead a b) :
    ahead a (b + UInt32.ofNat n) = ahead a b - n := by
  have hlt := ahead_lt a b
  have hn : ahead (b + UInt32.ofNat n) b = n := ahead_add_ofNat b n (by omega)
  have htrans := ahead_trans a (b + UInt32.ofNat n) b
  have hlt' := ahead_lt a (b + UInt32.ofNat n)
  rw [hn] at htrans
  omega

theorem ahead_add_gt (a b : UInt32) (n : Nat) (h : ahead a b < n) (hn : n < 2 ^ 32) :
    ahead a (b + UInt32.ofNat n) = 2 ^ 32 + ahead a b - n := by
  have hlt := ahead_lt a b
  have hn' : ahead (b + UInt32.ofNat n) b = n := ahead_add_ofNat b n hn
  have htrans := ahead_trans a (b + UInt32.ofNat n) b
  have hlt' := ahead_lt a (b + UInt32.ofNat n)
  rw [hn'] at htrans
  omega

theorem toNat_mod_eq (a b : UInt32) {d : Nat} (hd : d ∣ 2 ^ 32) :
    a.toNat % d = (b.toNat + ahead a b) % d := by
  have hsum := toNat_add_ofNat b (ahead a b)
  rw [add_ahead] at hsum
  rw [hsum, Nat.mod_mod_of_dvd _ hd]

theorem eq_of_mod_eq {a a' b : UInt32} {d : Nat} (hd : d ∣ 2 ^ 32) (ha : ahead a b < d)
    (ha' : ahead a' b < d) (h : a.toNat % d = a'.toNat % d) : a = a' := by
  rw [toNat_mod_eq a b hd, toNat_mod_eq a' b hd] at h
  apply ahead_inj (b := b)
  have hmod : ahead a b % d = ahead a' b % d := Nat.ModEq.add_left_cancel' b.toNat h
  rwa [Nat.mod_eq_of_lt ha, Nat.mod_eq_of_lt ha'] at hmod

end GravitalTalk.Lib.Serial
