import Mathlib.Tactic

/-! A linear feedback shift register fed one bit at a time, and the errors it
detects.  Feeding is linear, so an error goes unnoticed exactly when the error
pattern alone brings the zero register back to zero.  With a feedback word whose
lowest bit is set no pattern of `w` consecutive bits does, with an odd number of
taps no pattern of odd weight does, and two bits do only at a multiple of the
register's period. -/
namespace GravitalTalk.Lib.ShiftRegister

variable {w : Nat}

/-- One step with nothing to feed: the bit that leaves at the top decides the feedback. -/
def shift (g r : BitVec w) : BitVec w :=
  if r.msb then (r <<< 1) ^^^ g else r <<< 1

def entry (w : Nat) (bit : Bool) : BitVec w :=
  if bit then BitVec.twoPow w (w - 1) else 0#w

def feed (g r : BitVec w) (bit : Bool) : BitVec w := shift g (r ^^^ entry w bit)

def feeds (g r : BitVec w) (bits : List Bool) : BitVec w := bits.foldl (feed g) r

@[simp] theorem feeds_nil (g r : BitVec w) : feeds g r [] = r := rfl

@[simp] theorem feeds_cons (g r : BitVec w) (bit : Bool) (bits : List Bool) :
    feeds g r (bit :: bits) = feeds g (feed g r bit) bits := rfl

@[simp] theorem feeds_append (g r : BitVec w) (left right : List Bool) :
    feeds g r (left ++ right) = feeds g (feeds g r left) right := by
  simp [feeds]

theorem getLsbD_shift (g r : BitVec w) (i : Nat) :
    (shift g r).getLsbD i =
      ((decide (i < w) && !decide (i < 1) && r.getLsbD (i - 1)) ^^ (r.msb && g.getLsbD i)) := by
  unfold shift
  split <;> rename_i hmsb
  · rw [BitVec.getLsbD_xor, BitVec.getLsbD_shiftLeft, hmsb, Bool.true_and]
  · rw [BitVec.getLsbD_shiftLeft, Bool.eq_false_of_not_eq_true hmsb, Bool.false_and, Bool.xor_false]

@[simp] theorem shift_zero (g : BitVec w) : shift g 0#w = 0#w := by
  simp [shift]

theorem shift_xor (g r s : BitVec w) : shift g (r ^^^ s) = shift g r ^^^ shift g s := by
  apply BitVec.eq_of_getLsbD_eq
  intro i _
  rw [BitVec.getLsbD_xor]
  simp only [getLsbD_shift, BitVec.getLsbD_xor, BitVec.msb_xor]
  generalize r.getLsbD (i - 1) = a, s.getLsbD (i - 1) = b, r.msb = c, s.msb = d, g.getLsbD i = e
  cases decide (i < w) <;> cases decide (i < 1) <;> revert a b c d e <;> decide

theorem entry_xor (left right : Bool) :
    entry w (left ^^ right) = entry w left ^^^ entry w right := by
  cases left <;> cases right <;> simp [entry]

theorem feeds_xor (g r s : BitVec w) (left right : List Bool)
    (hlen : left.length = right.length) :
    feeds g (r ^^^ s) (List.zipWith (· ^^ ·) left right) =
      feeds g r left ^^^ feeds g s right := by
  induction left generalizing right r s with
  | nil =>
    cases right with
    | nil => rfl
    | cons => cases hlen
  | cons bit left ih =>
    cases right with
    | nil => cases hlen
    | cons other right =>
      have hfeed : feed g (r ^^^ s) (bit ^^ other) = feed g r bit ^^^ feed g s other := by
        rw [feed, entry_xor, feed, feed, ← shift_xor]
        congr 1
        ac_rfl
      rw [List.zipWith_cons_cons, feeds_cons, hfeed,
        ih _ _ right (Nat.succ.inj hlen), feeds_cons, feeds_cons]

theorem feeds_pattern {g r : BitVec w} {word pattern : List Bool}
    (hlen : word.length = pattern.length) (hword : feeds g r word = 0#w)
    (hmixed : feeds g r (List.zipWith (· ^^ ·) word pattern) = 0#w) :
    feeds g 0#w pattern = 0#w := by
  have h := feeds_xor g r 0#w word pattern hlen
  rwa [BitVec.xor_zero, hmixed, hword, BitVec.zero_xor, eq_comm] at h

theorem feeds_replicate (g r : BitVec w) (n : Nat) :
    feeds g r (List.replicate n false) = (shift g)^[n] r := by
  induction n generalizing r with
  | zero => rfl
  | succ n ih =>
    rw [List.replicate_succ, feeds_cons, ih, Function.iterate_succ_apply, feed]
    simp [entry]

@[simp] theorem iterate_shift_zero (g : BitVec w) (n : Nat) : (shift g)^[n] 0#w = 0#w :=
  Function.iterate_fixed (shift_zero g) n

theorem iterate_shift_xor (g r s : BitVec w) (n : Nat) :
    (shift g)^[n] (r ^^^ s) = (shift g)^[n] r ^^^ (shift g)^[n] s := by
  induction n generalizing r s with
  | zero => rfl
  | succ n ih => rw [Function.iterate_succ_apply, shift_xor, ih, ← Function.iterate_succ_apply,
      ← Function.iterate_succ_apply]

theorem iterate_shift_low (g r : BitVec w) (n : Nat)
    (hlow : ∀ i, w ≤ i + n → r.getLsbD i = false) : (shift g)^[n] r = r <<< n := by
  induction n with
  | zero => simp
  | succ n ih =>
    have hmsb : (r <<< n).msb = false := by
      rw [BitVec.msb_eq_getLsbD_last, BitVec.getLsbD_shiftLeft]
      rcases Nat.lt_or_ge (w - 1) n with hlt | hge
      · simp [hlt]
      · rw [hlow _ (by omega), Bool.and_false]
    rw [Function.iterate_succ_apply', ih fun i hi => hlow i (by omega), shift, hmsb,
      if_neg Bool.false_ne_true, ← BitVec.shiftLeft_add]

/-- The feedback leaves a mark in the lowest bit, so the bit that left can be told. -/
theorem shift_injective {g : BitVec w} (hg : g.getLsbD 0 = true) :
    Function.Injective (shift g) := by
  have hw : 0 < w := BitVec.lt_of_getLsbD hg
  intro r s h
  have hbit : ∀ i, (shift g r).getLsbD i = (shift g s).getLsbD i := fun i => by rw [h]
  have hmsb : r.msb = s.msb := by
    have := hbit 0
    simpa [getLsbD_shift, hg] using this
  apply BitVec.eq_of_getLsbD_eq
  intro i hi
  rcases Nat.lt_or_ge (i + 1) w with hnext | hlast
  · have := hbit (i + 1)
    rw [getLsbD_shift, getLsbD_shift, hmsb] at this
    simpa [hnext] using this
  · obtain rfl : i = w - 1 := by omega
    rwa [BitVec.msb_eq_getLsbD_last, BitVec.msb_eq_getLsbD_last] at hmsb

theorem iterate_shift_eq_zero {g r : BitVec w} (hg : g.getLsbD 0 = true) (n : Nat) :
    (shift g)^[n] r = 0#w ↔ r = 0#w :=
  ((shift_injective hg).iterate n).eq_iff' (iterate_shift_zero g n)

/-- The register that holds at most `w` bits as they would be fed, the first at the top. -/
def place (w : Nat) : List Bool → BitVec w
  | [] => 0#w
  | bit :: bits => entry w bit ^^^ (place w bits >>> 1)

theorem getLsbD_entry (bit : Bool) (i : Nat) (hi : i < w) :
    (entry w bit).getLsbD i = (decide (i = w - 1) && bit) := by
  cases bit
  · simp [entry]
  · simp only [entry, if_true, BitVec.getLsbD_twoPow, Bool.and_true]
    have hlast : decide (w - 1 < w) = true := decide_eq_true (by omega)
    rw [hlast, Bool.true_and]
    exact decide_eq_decide.mpr eq_comm

theorem getLsbD_place (bits : List Bool) (i : Nat) (hi : i < w) :
    (place w bits).getLsbD i = bits.getD (w - 1 - i) false := by
  induction bits generalizing i with
  | nil => simp [place]
  | cons bit bits ih =>
    rw [place, BitVec.getLsbD_xor, BitVec.getLsbD_ushiftRight, getLsbD_entry bit i hi]
    rcases Nat.lt_or_ge (1 + i) w with hnext | hlast
    · have hback : w - 1 - i = (w - 1 - (1 + i)) + 1 := by omega
      have hne : decide (i = w - 1) = false := by simp; omega
      rw [ih (1 + i) hnext, hne, hback, List.getD_cons_succ]
      simp
    · obtain rfl : i = w - 1 := by omega
      rw [BitVec.getLsbD_of_ge _ _ hlast]
      simp

theorem feeds_place (g r : BitVec w) (bits : List Bool) (hlen : bits.length ≤ w) :
    feeds g r bits = (shift g)^[bits.length] (r ^^^ place w bits) := by
  induction bits generalizing r with
  | nil => simp [place]
  | cons bit bits ih =>
    rw [List.length_cons] at hlen
    have hmsb : (place w bits >>> 1).msb = false := by
      rw [BitVec.msb_eq_getLsbD_last, BitVec.getLsbD_ushiftRight,
        BitVec.getLsbD_of_ge _ _ (by omega)]
    have hback : shift g (place w bits >>> 1) = place w bits := by
      apply BitVec.eq_of_getLsbD_eq
      intro i hi
      rw [getLsbD_shift, hmsb, Bool.false_and, Bool.xor_false, BitVec.getLsbD_ushiftRight]
      rcases Nat.eq_zero_or_pos i with rfl | hpos
      · rw [getLsbD_place bits 0 hi, List.getD_eq_getElem?_getD, List.getElem?_eq_none (by omega)]
        simp
      · have hone : decide (i < 1) = false := by simp; omega
        rw [hone, Nat.add_sub_cancel' hpos]
        simp [hi]
    rw [feeds_cons, ih _ (by omega), List.length_cons, Function.iterate_succ_apply, place, feed,
      ← BitVec.xor_assoc, shift_xor g (r ^^^ entry w bit), hback]

theorem place_ne_zero {bits : List Bool} (hlen : bits.length ≤ w) (hbits : true ∈ bits) :
    place w bits ≠ 0#w := by
  intro hzero
  obtain ⟨i, hi, hget⟩ := List.getElem_of_mem hbits
  have := getLsbD_place (w := w) bits (w - 1 - i) (by omega)
  rw [hzero, BitVec.getLsbD_zero, show w - 1 - (w - 1 - i) = i by omega,
    List.getD_eq_getElem?_getD, List.getElem?_eq_getElem hi, hget] at this
  cases this

/-- A burst of at most `w` bits never goes unnoticed. -/
theorem feeds_burst {g : BitVec w} (hg : g.getLsbD 0 = true) (before after : Nat)
    {burst : List Bool} (hlen : burst.length ≤ w) (hburst : true ∈ burst) :
    feeds g 0#w (List.replicate before false ++ (burst ++ List.replicate after false)) ≠ 0#w := by
  rw [feeds_append, feeds_replicate, iterate_shift_zero, feeds_append, feeds_replicate,
    Ne, iterate_shift_eq_zero hg, feeds_place g _ burst hlen, iterate_shift_eq_zero hg,
    BitVec.zero_xor]
  exact place_ne_zero hlen hburst

theorem feeds_window {g : BitVec w} (hg : g.getLsbD 0 = true) {bits : List Bool} {start : Nat}
    (hbits : ∀ i, bits.getD i false = true → start ≤ i ∧ i < start + w)
    (hsome : ∃ i, bits.getD i false = true) : feeds g 0#w bits ≠ 0#w := by
  have hnone (part : List Bool) (h : ∀ i, part.getD i false = false) :
      part = List.replicate part.length false := by
    refine List.eq_replicate_of_mem fun b hb => ?_
    obtain ⟨i, hi, rfl⟩ := List.getElem_of_mem hb
    have := h i
    rwa [List.getD_eq_getElem?_getD, List.getElem?_eq_getElem hi] at this
  have hbefore := hnone (bits.take start) fun i => by
    by_contra h
    rw [Bool.not_eq_false, List.getD_eq_getElem?_getD, List.getElem?_take] at h
    split at h
    · have := hbits i (by rwa [List.getD_eq_getElem?_getD])
      omega
    · cases h
  have hafter := hnone ((bits.drop start).drop w) fun i => by
    by_contra h
    rw [Bool.not_eq_false, List.getD_eq_getElem?_getD, List.drop_drop, List.getElem?_drop,
      ← List.getD_eq_getElem?_getD] at h
    have := hbits _ h
    omega
  have hsplit : bits = bits.take start ++ ((bits.drop start).take w ++ (bits.drop start).drop w) := by
    rw [List.take_append_drop, List.take_append_drop]
  rw [hsplit, hbefore, hafter]
  refine feeds_burst hg _ _ (by simp) ?_
  obtain ⟨i, hi⟩ := hsome
  have hin : i < bits.length := by
    by_contra hout
    rw [List.getD_eq_getElem?_getD, List.getElem?_eq_none (by omega)] at hi
    cases hi
  have hrange := hbits i hi
  rw [List.getD_eq_getElem?_getD, List.getElem?_eq_getElem hin] at hi
  refine List.mem_iff_getElem.mpr ⟨i - start, by simp; omega, ?_⟩
  rw [List.getElem_take, List.getElem_drop]
  simpa [show start + (i - start) = i by omega] using hi

def parityTo (r : BitVec w) : Nat → Bool
  | 0 => false
  | n + 1 => parityTo r n ^^ r.getLsbD n

def parity (r : BitVec w) : Bool := parityTo r w

theorem parityTo_xor (r s : BitVec w) (n : Nat) :
    parityTo (r ^^^ s) n = (parityTo r n ^^ parityTo s n) := by
  induction n with
  | zero => rfl
  | succ n ih =>
    rw [parityTo, ih, BitVec.getLsbD_xor, parityTo, parityTo, Bool.xor_assoc, Bool.xor_assoc,
      Bool.xor_left_comm (r.getLsbD n)]

theorem parityTo_shiftLeft (r : BitVec w) (n : Nat) (hn : n < w) :
    parityTo (r <<< 1) (n + 1) = parityTo r n := by
  induction n with
  | zero => simp [parityTo]
  | succ n ih =>
    rw [parityTo, ih (by omega), parityTo, BitVec.getLsbD_shiftLeft]
    simp [hn]

theorem parity_shift {g : BitVec w} (hg : parity g = true) (r : BitVec w) :
    parity (shift g r) = parity r := by
  cases w with
  | zero => rfl
  | succ n =>
    have hleft : parity (r <<< 1) = parityTo r n := parityTo_shiftLeft r n (by omega)
    have hself : parity r = (parityTo r n ^^ r.msb) := by
      rw [BitVec.msb_eq_getLsbD_last]
      rfl
    unfold shift
    split <;> rename_i hmsb
    · rw [parity, parityTo_xor, ← parity, ← parity, hleft, hg, hself, hmsb]
    · rw [hleft, hself, Bool.eq_false_of_not_eq_true hmsb, Bool.xor_false]

theorem parity_entry (hw : 0 < w) (bit : Bool) : parity (entry w bit) = bit := by
  have hlow : ∀ n, n ≤ w - 1 → parityTo (entry w bit) n = false := by
    intro n hn
    induction n with
    | zero => rfl
    | succ n ih =>
      have hne : decide (n = w - 1) = false := by simp; omega
      rw [parityTo, ih (by omega), getLsbD_entry bit n (by omega), hne]
      rfl
  obtain ⟨n, rfl⟩ : ∃ n, w = n + 1 := ⟨w - 1, by omega⟩
  rw [parity, parityTo, hlow n (by omega), getLsbD_entry bit n (by omega)]
  simp

theorem parity_feeds {g : BitVec w} (hw : 0 < w) (hg : parity g = true) (r : BitVec w)
    (bits : List Bool) : parity (feeds g r bits) = (parity r ^^ decide (bits.count true % 2 = 1)) := by
  induction bits generalizing r with
  | nil => simp
  | cons bit bits ih =>
    have hxor : parity (r ^^^ entry w bit) = (parity r ^^ bit) := by
      rw [parity, parityTo_xor, ← parity, ← parity, parity_entry hw]
    rw [feeds_cons, ih, feed, parity_shift hg, hxor, List.count_cons]
    rcases Nat.mod_two_eq_zero_or_one (bits.count true) with h | h <;> cases bit <;>
      simp [h, Nat.add_mod]

theorem feeds_odd {g : BitVec w} (hw : 0 < w) (hg : parity g = true) {bits : List Bool}
    (hodd : Odd (bits.count true)) : feeds g 0#w bits ≠ 0#w := by
  intro hzero
  have h := parity_feeds hw hg 0#w bits
  have hnone : parity (0#w) = false := by
    have := parity_entry hw false
    rwa [entry, if_neg Bool.false_ne_true] at this
  rw [hzero, hnone, Bool.false_xor, decide_eq_true (Nat.odd_iff.mp hodd)] at h
  cases h

/-- Shifting the lone top bit does not bring it back within the next `n` steps from `r`. -/
def avoids (g start : BitVec w) : Nat → BitVec w → Bool
  | 0, _ => true
  | n + 1, r => if shift g r = start then false else avoids g start n (shift g r)

theorem avoids_iterate {g start r : BitVec w} {n : Nat} (h : avoids g start n r = true) (d : Nat)
    (hpos : 0 < d) (hd : d ≤ n) : (shift g)^[d] r ≠ start := by
  induction n generalizing r d with
  | zero => omega
  | succ n ih =>
    rw [avoids] at h
    split at h
    · cases h
    · rename_i hne
      obtain ⟨k, rfl⟩ : ∃ k, d = k + 1 := ⟨d - 1, by omega⟩
      rw [Function.iterate_succ_apply]
      rcases Nat.eq_zero_or_pos k with rfl | hk
      · exact hne
      · exact ih h k hk (by omega)

theorem exists_split_of_count {bits : List Bool} {n : Nat} (h : bits.count true = n + 1) :
    ∃ before rest, bits = List.replicate before false ++ true :: rest ∧ rest.count true = n := by
  have hmem : true ∈ bits := List.count_pos_iff.mp (by omega)
  obtain ⟨before, rest, rfl, hnone⟩ := List.eq_append_cons_of_mem hmem
  have hbefore : before = List.replicate before.length false :=
    List.eq_replicate_of_mem fun b hb => by
      cases b
      · rfl
      · exact absurd hb hnone
  refine ⟨before.length, rest, by rw [← hbefore], ?_⟩
  have hzero : before.count true = 0 := List.count_eq_zero.mpr hnone
  rw [List.count_append, hzero, List.count_cons_self] at h
  omega

theorem feeds_two {g : BitVec w} {n : Nat} (hg : g.getLsbD 0 = true)
    (hperiod : avoids g (entry w true) n (entry w true) = true) {bits : List Bool}
    (hlen : bits.length ≤ n + 1) (htwo : bits.count true = 2) : feeds g 0#w bits ≠ 0#w := by
  obtain ⟨before, rest, rfl, hone⟩ := exists_split_of_count htwo
  obtain ⟨between, rest, rfl, hnone⟩ := exists_split_of_count hone
  obtain ⟨after, rfl⟩ : ∃ after, rest = List.replicate after false :=
    ⟨rest.length, List.eq_replicate_of_mem fun b hb => by
      cases b
      · rfl
      · exact absurd hb (List.count_eq_zero.mp hnone)⟩
  simp only [List.length_append, List.length_replicate, List.length_cons] at hlen
  intro hzero
  rw [feeds_append, feeds_replicate, iterate_shift_zero, feeds_cons, feeds_append,
    feeds_replicate, feeds_cons, feeds_replicate, iterate_shift_eq_zero hg, feed, feed,
    BitVec.zero_xor, ← Function.iterate_succ_apply (shift g), ← shift_zero g,
    (shift_injective hg).eq_iff, BitVec.xor_eq_zero_iff] at hzero
  exact avoids_iterate hperiod (between + 1) (by omega) (by omega) hzero

end GravitalTalk.Lib.ShiftRegister
