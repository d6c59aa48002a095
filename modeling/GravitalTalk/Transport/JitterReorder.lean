import GravitalTalk.Transport.JitterTrace

/-! What the order of arrival does to the frames of one window.  Once the cursor is placed, none:
the window holds them all and the pops take them in ascending order.  The first frame a buffer ever
receives places the cursor, though, so the frames before it are refused as too old although none of
them was ever delivered. -/
namespace GravitalTalk.Transport.JitterBuffer
open Lib Lib.Serial

def Consecutive (q : UInt32) (frames : List Frame) : Prop :=
  ∀ (i : Nat) (frame : Frame), frames[i]? = some frame → frame.sequence = q + UInt32.ofNat i

/-- Pushed in the given order every frame is accepted, and as many pops return `frames`. -/
def Reorders (jb : JitterBuffer) (frames order : List Frame) : Prop :=
  ((History.start jb).run (order.map .push ++ List.replicate frames.length .pop)).trace =
    order.map (fun frame => .pushed frame true) ++ frames.map (fun frame => .popped (some frame))

theorem History.run_eq (h : History) (ops : List Op) :
    (h.run ops).trace = h.trace ++ ((History.start h.buffer).run ops).trace ∧
      (h.run ops).buffer = ((History.start h.buffer).run ops).buffer := by
  induction ops generalizing h with
  | nil => exact ⟨(List.append_nil _).symm, rfl⟩
  | cons op ops ih =>
    obtain ⟨htrace, hbuffer⟩ := ih (h.exec op)
    obtain ⟨htrace', hbuffer'⟩ := ih ((History.start h.buffer).exec op)
    refine ⟨?_, hbuffer.trans hbuffer'.symm⟩
    rw [show h.run (op :: ops) = (h.exec op).run ops from rfl, htrace,
      show (History.start h.buffer).run (op :: ops) = ((History.start h.buffer).exec op).run ops
        from rfl, htrace']
    simp [History.exec, History.start]

theorem trace_cons (jb : JitterBuffer) (op : Op) (ops : List Op) :
    ((History.start jb).run (op :: ops)).trace =
        (jb.step op).1 :: ((History.start (jb.step op).2).run ops).trace ∧
      ((History.start jb).run (op :: ops)).buffer =
        ((History.start (jb.step op).2).run ops).buffer :=
  ((History.start jb).exec op).run_eq ops

theorem trace_append (jb : JitterBuffer) (ops more : List Op) :
    ((History.start jb).run (ops ++ more)).trace = ((History.start jb).run ops).trace ++
      ((History.start ((History.start jb).run ops).buffer).run more).trace := by
  rw [show (History.start jb).run (ops ++ more) = ((History.start jb).run ops).run more from
    List.foldl_append]
  exact (History.run_eq _ more).1

theorem length_trace (jb : JitterBuffer) (ops : List Op) :
    ((History.start jb).run ops).trace.length = ops.length := by
  induction ops generalizing jb with
  | nil => rfl
  | cons op ops ih => rw [(trace_cons jb op ops).1, List.length_cons, List.length_cons, ih]

section Window
variable {jb : JitterBuffer} {q : UInt32} {frames order : List Frame}

theorem pops_trace (rep : jb.Rep) (hlen : frames.length ≤ jb.capacity.toNat)
    (hstored : ∀ (i : Nat) (frame : Frame), frames[i]? = some frame →
      jb.lookup (jb.nextSeq + UInt32.ofNat i) = some frame) :
    ((History.start jb).run (List.replicate frames.length .pop)).trace =
      frames.map fun frame => .popped (some frame) := by
  induction frames generalizing jb with
  | nil => rfl
  | cons first frames ih =>
    have hnext : jb.lookup jb.nextSeq = some first := by
      have := hstored 0 first rfl
      rwa [show jb.nextSeq + UInt32.ofNat 0 = jb.nextSeq from UInt32.add_zero _] at this
    obtain ⟨hpop, effect⟩ := pop_some rep hnext
    rw [List.length_cons] at hlen
    have hrest := @ih jb.pop.2 effect.rep (by rw [effect.capacity]; omega) fun i frame hframe => by
      have hcap := jb.capacity_le
      have hlt := (List.getElem?_eq_some_iff.mp hframe).1
      have hstep : jb.nextSeq + 1 + UInt32.ofNat i = jb.nextSeq + UInt32.ofNat (i + 1) := by
        rw [UInt32.add_assoc, UInt32.add_comm 1, UInt32.ofNat_add]
        rfl
      have hne : jb.nextSeq + UInt32.ofNat (i + 1) ≠ jb.nextSeq := fun heq => by
        have := ahead_add_ofNat jb.nextSeq (i + 1) (by omega)
        rw [heq, ahead_self] at this
        omega
      rw [effect.nextSeq, effect.lookup, hstep, if_neg hne]
      exact hstored (i + 1) frame hframe
    rw [List.length_cons, List.replicate_succ, (trace_cons _ _ _).1, List.map_cons]
    exact congrArg₂ _ (congrArg Event.popped hpop) hrest

/-- The cursor stands at `q`, or the first frame will put it there. -/
def StartsAt (jb : JitterBuffer) (q : UInt32) (order : List Frame) : Prop :=
  (jb.primed = true ∧ jb.nextSeq = q) ∨
    (jb.primed = false ∧ ∀ first ∈ order.head?, first.sequence = q)

structure Stored (jb jb' : JitterBuffer) (q : UInt32) (order : List Frame) : Prop where
  rep : jb'.Rep
  capacity : jb'.capacity = jb.capacity
  nextSeq : order ≠ [] → jb'.nextSeq = q
  lookup : ∀ frame ∈ order, jb'.lookup frame.sequence = some frame
  others : ∀ sequence ∉ order.map Frame.sequence, jb'.lookup sequence = jb.lookup sequence

theorem pushes_trace (rep : jb.Rep) (hstart : StartsAt jb q order)
    (hwindow : ∀ frame ∈ order, ahead frame.sequence q < jb.capacity.toNat)
    (hnodup : (order.map Frame.sequence).Nodup) :
    ((History.start jb).run (order.map .push)).trace =
        order.map (fun frame => .pushed frame true) ∧
      Stored jb ((History.start jb).run (order.map .push)).buffer q order := by
  induction order generalizing jb with
  | nil =>
    exact ⟨rfl, rep, rfl, fun h => absurd rfl h, fun _ h => absurd h List.not_mem_nil, fun _ _ => rfl⟩
  | cons first order ih =>
    simp only [List.mem_cons, forall_eq_or_imp] at hwindow
    rw [List.map_cons, List.nodup_cons] at hnodup
    have hcursor : jb.Accepts first.sequence ∧ jb.cursorFor first.sequence = q := by
      rcases hstart with ⟨hprimed, hnext⟩ | ⟨hprimed, hfirst⟩
      · rw [cursorFor, if_pos hprimed]
        exact ⟨.inr (by rw [hnext]; exact hwindow.1), hnext⟩
      · rw [cursorFor, hprimed]
        exact ⟨.inl hprimed, hfirst first rfl⟩
    obtain ⟨haccepted, effect⟩ := push_accept rep first hcursor.1
    rw [hcursor.2] at effect
    obtain ⟨htrace, stored⟩ := @ih (jb.push first).2 effect.rep (.inl ⟨effect.primed, effect.nextSeq⟩)
      (fun frame hframe => by rw [effect.capacity]; exact hwindow.2 frame hframe) hnodup.2
    rw [List.map_cons, (trace_cons _ _ _).1, (trace_cons _ _ _).2, List.map_cons]
    refine ⟨congrArg₂ _ (by rw [step, haccepted]) htrace, stored.rep,
      stored.capacity.trans effect.capacity, fun _ => ?_, ?_, ?_⟩
    · by_cases hempty : order = []
      · subst hempty
        exact effect.nextSeq
      · exact stored.nextSeq hempty
    · intro frame hframe
      rcases List.mem_cons.mp hframe with rfl | hframe
      · refine (stored.others frame.sequence hnodup.1).trans ?_
        rw [effect.lookup, if_pos rfl]
      · exact stored.lookup frame hframe
    · intro sequence hsequence
      rw [List.map_cons, List.mem_cons, not_or] at hsequence
      refine (stored.others sequence hsequence.2).trans ?_
      rw [effect.lookup, if_neg hsequence.1]

/-- Frames that are all accepted lie in the window of the cursor, which they do not move. -/
theorem accepted_in_window (rep : jb.Rep) (hprimed : jb.primed = true)
    (h : ((History.start jb).run (order.map .push)).trace =
      order.map fun frame => .pushed frame true) :
    ∀ frame ∈ order, ahead frame.sequence jb.nextSeq < jb.capacity.toNat := by
  induction order generalizing jb with
  | nil => exact fun _ hmem => by cases hmem
  | cons first order ih =>
    rw [List.map_cons, (trace_cons _ _ _).1, List.map_cons, List.cons.injEq] at h
    obtain ⟨hfirst, hrest⟩ := h
    have hpushed : (jb.push first).1 = true := (Event.pushed.inj hfirst).2
    have haccepts : jb.Accepts first.sequence := by
      by_contra hrefused
      rw [push_reject first hrefused] at hpushed
      cases hpushed
    obtain ⟨-, effect⟩ := push_accept rep first haccepts
    have hnext : (jb.push first).2.nextSeq = jb.nextSeq := by
      rw [effect.nextSeq, cursorFor, if_pos hprimed]
    have hwindow := @ih (jb.push first).2 effect.rep effect.primed hrest
    rw [hnext, effect.capacity] at hwindow
    intro frame hframe
    rcases List.mem_cons.mp hframe with rfl | hframe
    · rcases haccepts with hunprimed | hin
      · rw [hprimed] at hunprimed
        cases hunprimed
      · exact hin
    · exact hwindow frame hframe

theorem Consecutive.mem (h : Consecutive q frames) {frame : Frame} (hmem : frame ∈ frames) :
    ∃ i < frames.length, frame.sequence = q + UInt32.ofNat i := by
  obtain ⟨i, hframe⟩ := List.mem_iff_getElem?.mp hmem
  exact ⟨i, (List.getElem?_eq_some_iff.mp hframe).1, h i frame hframe⟩

theorem Consecutive.nodup (h : Consecutive q frames) (hlen : frames.length < 2 ^ 32) :
    (frames.map Frame.sequence).Nodup := by
  rw [List.Nodup, List.pairwise_map, List.pairwise_iff_getElem]
  intro i j hi hj hlt heq
  rw [h i _ (List.getElem?_eq_getElem hi), h j _ (List.getElem?_eq_getElem hj)] at heq
  have := offset_inj (Nat.le_of_lt hlt) (by omega) heq.symm
  omega

theorem reorders_of_startsAt (rep : jb.Rep) (hframes : Consecutive q frames)
    (hlen : frames.length ≤ jb.capacity.toNat) (hperm : order.Perm frames)
    (hstart : StartsAt jb q order) : Reorders jb frames order := by
  have hcap := jb.capacity_le
  have hnodup : (order.map Frame.sequence).Nodup :=
    (hperm.map Frame.sequence).nodup_iff.mpr (hframes.nodup (by omega))
  have hwindow : ∀ frame ∈ order, ahead frame.sequence q < jb.capacity.toNat := by
    intro frame hframe
    obtain ⟨i, hi, hsequence⟩ := hframes.mem (hperm.mem_iff.mp hframe)
    rw [hsequence, ahead_add_ofNat _ _ (by omega)]
    omega
  obtain ⟨htrace, stored⟩ := pushes_trace rep hstart hwindow hnodup
  rw [Reorders, trace_append, htrace]
  congr 1
  refine pops_trace stored.rep (by rw [stored.capacity]; exact hlen) fun i frame hframe => ?_
  have hmem : frame ∈ order := hperm.mem_iff.mpr (List.mem_of_getElem? hframe)
  rw [stored.nextSeq (List.ne_nil_of_mem hmem), ← hframes i frame hframe]
  exact stored.lookup frame hmem

theorem pushes_of_reorders (h : Reorders jb frames order) :
    ((History.start jb).run (order.map .push)).trace =
      order.map fun frame => .pushed frame true := by
  rw [Reorders, trace_append] at h
  exact List.append_inj_left h (by rw [length_trace, List.length_map, List.length_map])

theorem head_of_accepted (rep : jb.Rep) (hprimed : jb.primed = false)
    (hframes : Consecutive q frames) (hlen : frames.length ≤ jb.capacity.toNat)
    (hperm : order.Perm frames) (h : ((History.start jb).run (order.map .push)).trace =
      order.map fun frame => .pushed frame true) : ∀ first ∈ order.head?, first.sequence = q := by
  intro first hfirst
  obtain ⟨rest, rfl⟩ := List.head?_eq_some_iff.mp hfirst
  obtain ⟨j, hj, hsequence⟩ := hframes.mem (hperm.mem_iff.mp (List.mem_cons_self ..))
  by_contra hne
  have hpos : 0 < j := by
    refine Nat.pos_of_ne_zero ?_
    rintro rfl
    exact hne (hsequence.trans (UInt32.add_zero _))
  obtain ⟨lowest, hlowest⟩ : ∃ lowest, frames[0]? = some lowest :=
    ⟨_, List.getElem?_eq_getElem (by omega)⟩
  have hzero : lowest.sequence = q := (hframes 0 lowest hlowest).trans (UInt32.add_zero _)
  have hrest : lowest ∈ rest := by
    rcases List.mem_cons.mp (hperm.mem_iff.mpr (List.mem_of_getElem? hlowest)) with heq | hrest
    · exact absurd (heq ▸ hzero) hne
    · exact hrest
  obtain ⟨-, effect⟩ := push_accept rep first (.inl hprimed)
  have hnext : (jb.push first).2.nextSeq = q + UInt32.ofNat j := by
    rw [effect.nextSeq, cursorFor, hprimed, ← hsequence]
    rfl
  rw [List.map_cons, (trace_cons _ _ _).1, List.map_cons, List.cons.injEq] at h
  have hwindow := accepted_in_window effect.rep effect.primed h.2 lowest hrest
  have hcap := jb.capacity_le
  rw [hnext, hzero, effect.capacity, ahead_add_gt q q j (by rwa [ahead_self]) (by omega),
    ahead_self] at hwindow
  omega

/-- A window of frames comes out in ascending order whatever order it arrives in, but for a buffer
that has received nothing: there the lowest frame has to arrive first. -/
theorem reorders_iff (capacity : UInt32) (jb : JitterBuffer) (hreach : Reachable capacity jb)
    (q : UInt32) (frames order : List Frame) (hcursor : jb.primed = true → jb.nextSeq = q)
    (hframes : Consecutive q frames) (hlen : frames.length ≤ capacity.toNat)
    (hperm : order.Perm frames) :
    Reorders jb frames order ↔
      jb.primed = true ∨ ∀ first ∈ order.head?, first.sequence = q := by
  obtain ⟨rep, rfl⟩ := hreach.rep
  cases hprimed : jb.primed with
  | true =>
    refine ⟨fun _ => .inl rfl, fun _ => ?_⟩
    exact reorders_of_startsAt rep hframes hlen hperm (.inl ⟨hprimed, hcursor hprimed⟩)
  | false =>
    constructor
    · intro h
      exact .inr (head_of_accepted rep hprimed hframes hlen hperm (pushes_of_reorders h))
    · rintro (h | hfirst)
      · cases h
      · exact reorders_of_startsAt rep hframes hlen hperm (.inr ⟨hprimed, hfirst⟩)

end Window

private def lateFrames : List Frame := [⟨7, 0, [1]⟩, ⟨8, 0, [2]⟩, ⟨9, 0, [3]⟩]

private theorem lateFrames_consecutive : Consecutive 7 lateFrames := by
  intro i frame h
  match i, h with
  | 0, h => cases h; rfl
  | 1, h => cases h; rfl
  | 2, h => cases h; rfl

/-- The second frame of a stream overtakes the first, which is then refused. -/
theorem overtaken_first_refused : ¬∀ (capacity : UInt32) (jb : JitterBuffer),
    Reachable capacity jb → ∀ (q : UInt32) (frames order : List Frame),
      (jb.primed = true → jb.nextSeq = q) → Consecutive q frames →
        frames.length ≤ capacity.toNat → order.Perm frames → Reorders jb frames order := by
  intro hall
  have hperm : [⟨8, 0, [2]⟩, ⟨7, 0, [1]⟩, ⟨9, 0, [3]⟩].Perm lateFrames := by decide
  have h := pushes_of_reorders (hall 4 newOfFour newOfFour_reachable 7 lateFrames _
    (fun hprimed => by cases hprimed) lateFrames_consecutive (by decide) hperm)
  exact absurd h (by decide)

/-- The first frame first, the other two in either order. -/
theorem reorders_first_first :
    Reorders newOfFour lateFrames [⟨7, 0, [1]⟩, ⟨9, 0, [3]⟩, ⟨8, 0, [2]⟩] :=
  (reorders_iff 4 newOfFour newOfFour_reachable 7 lateFrames
    [⟨7, 0, [1]⟩, ⟨9, 0, [3]⟩, ⟨8, 0, [2]⟩] (fun hprimed => by cases hprimed)
    lateFrames_consecutive (by decide) (by decide)).mpr
    (.inr fun first hfirst => by cases hfirst; rfl)

end GravitalTalk.Transport.JitterBuffer
