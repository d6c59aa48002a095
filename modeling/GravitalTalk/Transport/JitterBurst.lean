import GravitalTalk.Transport.JitterTrace

/-! The jitter buffer after a burst of losses.  Every expired deadline moves the cursor by one
sequence, and in the meantime the sender goes on by `k`: the frames are never closer to the cursor
than right after the burst.  A burst that takes them out of the window keeps them out until the
distance has gone all the way round the counter. -/
namespace GravitalTalk.Transport.JitterBuffer
open Lib Lib.Serial

/-- The buffer before push `m`, where a pop at the times `clock m` follows every `k`-th push `m`. -/
def beforePush (jb : JitterBuffer) (frames : Nat → Frame) (clock : Nat → UInt64 × UInt64) (k : Nat) :
    Nat → JitterBuffer
  | 0 => jb
  | m + 1 =>
    let pushed := ((beforePush jb frames clock k m).push (frames m)).2
    if (m + 1) % k = 0 then (pushed.popWithDeadline (clock m).1 (clock m).2).2 else pushed

/-- A push is accepted after at most `bound` that are not. -/
def Recovers (jb : JitterBuffer) (frames : Nat → Frame) (clock : Nat → UInt64 × UInt64)
    (k bound : Nat) : Prop :=
  ∃ m ≤ bound, ((beforePush jb frames clock k m).push (frames m)).1 = true ∧
    ∀ i < m, ((beforePush jb frames clock k i).push (frames i)).1 = false

structure Resumes (jb : JitterBuffer) (g : Nat) (frames : Nat → Frame)
    (clock : Nat → UInt64 × UInt64) : Prop where
  primed : jb.primed = true
  sequence : ∀ m, (frames m).sequence = jb.nextSeq + UInt32.ofNat (g + m)
  expired : ∀ m, (clock m).2 ≤ (clock m).1

section Distance
variable {jb : JitterBuffer} {g k : Nat} {frames : Nat → Frame} {clock : Nat → UInt64 × UInt64}

theorem push_primed {jb : JitterBuffer} (rep : jb.Rep) (hprimed : jb.primed = true) (frame : Frame) :
    (jb.push frame).2.Rep ∧ (jb.push frame).2.capacity = jb.capacity ∧
      (jb.push frame).2.primed = true ∧ (jb.push frame).2.nextSeq = jb.nextSeq := by
  by_cases haccepts : jb.Accepts frame.sequence
  · obtain ⟨-, effect⟩ := push_accept rep frame haccepts
    refine ⟨effect.rep, effect.capacity, effect.primed, ?_⟩
    rw [effect.nextSeq, cursorFor, if_pos hprimed]
  · rw [push_reject frame haccepts]
    exact ⟨rep, rfl, hprimed, rfl⟩

theorem popWithDeadline_expired {jb : JitterBuffer} (rep : jb.Rep) (hprimed : jb.primed = true)
    {nowUs deadlineUs : UInt64} (hexpired : deadlineUs ≤ nowUs) :
    let jb' := (jb.popWithDeadline nowUs deadlineUs).2
    jb'.Rep ∧ jb'.capacity = jb.capacity ∧ jb'.primed = true ∧ jb'.nextSeq = jb.nextSeq + 1 := by
  rcases popWithDeadline_cases rep nowUs deadlineUs with
    ⟨frame, -, hpop, effect⟩ | ⟨-, -, -, hskip, effect⟩ | ⟨-, hstuck, -⟩
  · rw [hpop]
    exact ⟨effect.rep, effect.capacity, effect.primed, effect.nextSeq⟩
  · rw [hskip]
    exact ⟨effect.rep, effect.capacity, effect.primed, effect.nextSeq⟩
  · rcases hstuck with hunprimed | hearly
    · rw [hprimed] at hunprimed
      cases hunprimed
    · exact absurd hexpired hearly

/-- The cursor has moved once for every `k` pushes. -/
theorem beforePush_spec (rep : jb.Rep) (h : Resumes jb g frames clock) (m : Nat) :
    let jb' := beforePush jb frames clock k m
    jb'.Rep ∧ jb'.capacity = jb.capacity ∧ jb'.primed = true ∧
      jb'.nextSeq = jb.nextSeq + UInt32.ofNat (m / k) := by
  induction m with
  | zero =>
    refine ⟨rep, rfl, h.primed, ?_⟩
    rw [Nat.zero_div]
    exact (UInt32.add_zero _).symm
  | succ m ih =>
    obtain ⟨hrep, hcap, hprimed, hnext⟩ := ih
    obtain ⟨hrep', hcap', hprimed', hnext'⟩ := push_primed hrep hprimed (frames m)
    simp only [beforePush]
    split_ifs with hpop
    · obtain ⟨hrep'', hcap'', hprimed'', hnext''⟩ :=
        popWithDeadline_expired hrep' hprimed' (h.expired m)
      refine ⟨hrep'', hcap''.trans (hcap'.trans hcap), hprimed'', ?_⟩
      rw [hnext'', hnext', hnext, Nat.succ_div_of_mod_eq_zero hpop, UInt32.ofNat_add,
        ← UInt32.add_assoc]
      rfl
    · refine ⟨hrep', hcap'.trans hcap, hprimed', ?_⟩
      rw [hnext', hnext, Nat.succ_div_of_mod_ne_zero hpop]

/-- Push `m` is accepted if the distance is inside the window, modulo the turns of the counter. -/
theorem accepted_iff (rep : jb.Rep) (h : Resumes jb g frames clock) (m : Nat) :
    ((beforePush jb frames clock k m).push (frames m)).1 = true ↔
      (g + (m - m / k)) % 2 ^ 32 < jb.capacity.toNat := by
  obtain ⟨hrep, hcap, hprimed, hnext⟩ := @beforePush_spec jb g k frames clock rep h m
  have hle : m / k ≤ m := Nat.div_le_self m k
  have hdistance : ahead (frames m).sequence (beforePush jb frames clock k m).nextSeq =
      (g + (m - m / k)) % 2 ^ 32 := by
    rw [h.sequence, hnext, add_ofNat_sub jb.nextSeq (show m / k ≤ g + m by omega), ahead_ofNat_mod,
      Nat.add_sub_assoc hle]
  rw [← hdistance, ← hcap]
  constructor
  · intro haccepted
    by_contra hfar
    have hrefused : ¬(beforePush jb frames clock k m).Accepts (frames m).sequence := by
      rintro (hunprimed | hin)
      · rw [hprimed] at hunprimed
        cases hunprimed
      · exact hfar hin
    rw [push_reject _ hrefused] at haccepted
    cases haccepted
  · intro hin
    exact (push_accept hrep (frames m) (.inr hin)).1

end Distance

/-- The sender gains `k - 1` sequences on the cursor with every pop, and the first after the pop. -/
theorem le_gain_iff {k m n : Nat} (hk : 2 ≤ k) (hn : 1 ≤ n) :
    n ≤ m - m / k ↔ n + (n - 1) / (k - 1) ≤ m := by
  obtain ⟨d, rfl⟩ : ∃ d, k = d + 1 := ⟨k - 1, by omega⟩
  rw [Nat.add_sub_cancel]
  have hm := Nat.div_add_mod m (d + 1)
  have hb := Nat.mod_lt m (show 0 < d + 1 by omega)
  have hturns := Nat.div_add_mod (n - 1) d
  have hr := Nat.mod_lt (n - 1) (show 0 < d by omega)
  generalize m / (d + 1) = a at *
  generalize (n - 1) / d = e at *
  rw [Nat.succ_mul] at hm
  constructor
  · intro hgain
    have hle : e ≤ a := by
      by_contra hlt
      have hmul := Nat.mul_le_mul_left d (show a + 1 ≤ e by omega)
      rw [Nat.mul_succ] at hmul
      omega
    omega
  · intro hpushes
    by_contra hlt
    have hle : a ≤ e := by
      by_contra hgt
      have hmul := Nat.mul_le_mul_left d (show e + 1 ≤ a by omega)
      rw [Nat.mul_succ] at hmul
      omega
    omega

theorem gain_eq {k n : Nat} (hk : 2 ≤ k) (hn : 1 ≤ n) :
    n + (n - 1) / (k - 1) - (n + (n - 1) / (k - 1)) / k = n := by
  have hle := (le_gain_iff hk hn).mpr (Nat.le_refl (n + (n - 1) / (k - 1)))
  have hmono : (n - 1) / (k - 1) ≤ (n + 1 - 1) / (k - 1) := Nat.div_le_div_right (by omega)
  have hlt := mt (@le_gain_iff k (n + (n - 1) / (k - 1)) (n + 1) hk (by omega)).mp (by omega)
  omega

/-- With `turn` the distance from the burst's end once round the counter to the cursor: frames that
were lost within the window do no harm, and otherwise the stream comes back when the sender has
gained `turn`. -/
theorem burst_recovered_iff (capacity : UInt32) (jb : JitterBuffer) (hreach : Reachable capacity jb)
    (g k : Nat) (hk : 1 ≤ k) (frames : Nat → Frame) (clock : Nat → UInt64 × UInt64)
    (h : Resumes jb g frames clock) :
    Recovers jb frames clock k (g * k + capacity.toNat) ↔
      g % 2 ^ 32 < capacity.toNat ∨
        2 ≤ k ∧ let turn := 2 ^ 32 - g % 2 ^ 32
          turn + (turn - 1) / (k - 1) ≤ g * k + capacity.toNat := by
  obtain ⟨rep, rfl⟩ := hreach.rep
  have hcap := jb.capacity_le
  have hpos := jb.capacity_pos
  have haccepted := fun m => @accepted_iff jb g k frames clock rep h m
  generalize hbound : g * k + jb.capacity.toNat = bound
  by_cases hnear : g % 2 ^ 32 < jb.capacity.toNat
  · refine ⟨fun _ => .inl hnear, fun _ => ⟨0, Nat.zero_le _, (haccepted 0).mpr ?_, ?_⟩⟩
    · rwa [Nat.zero_div]
    · exact fun i hi => absurd hi (Nat.not_lt_zero i)
  · simp only [hnear, false_or]
    have hturn : 1 ≤ 2 ^ 32 - g % 2 ^ 32 := by
      have := Nat.mod_lt g (show 0 < 2 ^ 32 by decide)
      omega
    -- short of a turn the distance only grows
    have hgain : ∀ m, ((beforePush jb frames clock k m).push (frames m)).1 = true →
        2 ^ 32 - g % 2 ^ 32 ≤ m - m / k := by
      intro m hm
      rw [haccepted] at hm
      omega
    constructor
    · rintro ⟨m, hm, hfirst, -⟩
      have hgained := hgain m hfirst
      have hk' : 2 ≤ k := by
        by_contra hlt
        rw [show k = 1 by omega, Nat.div_one, Nat.sub_self] at hgained
        omega
      exact ⟨hk', Nat.le_trans ((le_gain_iff hk' hturn).mp hgained) hm⟩
    · rintro ⟨hk', hle⟩
      refine ⟨_, hle, (haccepted _).mpr ?_, fun i hi => ?_⟩
      · rw [gain_eq hk' hturn, show g + (2 ^ 32 - g % 2 ^ 32) = (g / 2 ^ 32 + 1) * 2 ^ 32 by omega,
          Nat.mul_mod_left]
        exact hpos
      · by_contra htrue
        rw [Bool.not_eq_false] at htrue
        have hgained := (le_gain_iff hk' hturn).mp (hgain i htrue)
        omega

private def waitingForOne : JitterBuffer := (newOfFour.push ⟨0, 0, []⟩).2.pop.2

private theorem waitingForOne_reachable : Reachable 4 waitingForOne :=
  ⟨newOfFour, [.push ⟨0, 0, []⟩, .pop], rfl, rfl⟩

private def streamAfter (g m : Nat) : Frame := ⟨1 + UInt32.ofNat (g + m), 0, []⟩

private theorem waitingForOne_resumes (g : Nat) :
    Resumes waitingForOne g (streamAfter g) fun _ => (0, 0) :=
  ⟨rfl, fun _ => rfl, fun _ => UInt64.le_refl 0⟩

/-- Four frames are lost; with one pop for each push the stream never comes back. -/
theorem burst_not_recovered : ¬∀ (capacity : UInt32) (jb : JitterBuffer), Reachable capacity jb →
    ∀ (g k : Nat), 1 ≤ k → ∀ (frames : Nat → Frame) (clock : Nat → UInt64 × UInt64),
      Resumes jb g frames clock → Recovers jb frames clock k (g * k + capacity.toNat) := by
  intro hall
  obtain ⟨m, -, haccepted, -⟩ := hall 4 waitingForOne waitingForOne_reachable 4 1 (by decide) _ _
    (waitingForOne_resumes 4)
  rw [accepted_iff waitingForOne_reachable.rep.1 (waitingForOne_resumes 4), Nat.div_one,
    Nat.sub_self] at haccepted
  exact absurd haccepted (by decide)

/-- Three frames are lost, one fewer than the window has. -/
theorem burst_recovered_short :
    Recovers waitingForOne (streamAfter 3) (fun _ => (0, 0)) 1 (3 * 1 + (4 : UInt32).toNat) :=
  (burst_recovered_iff 4 waitingForOne waitingForOne_reachable 3 1 (by decide) (streamAfter 3)
    (fun _ => (0, 0)) (waitingForOne_resumes 3)).mpr (.inl (by decide))

end GravitalTalk.Transport.JitterBuffer
