import GravitalTalk.Transport.JitterTrace

/-! A receiver fed consecutive frames.  `recv_audio` calls `pop_with_deadline` between the
pushes, and an expired deadline moves the cursor past a gap; on a buffer that has returned
everything there is no gap, and the cursor moves past the frame that comes next. -/
namespace GravitalTalk.Transport.JitterBuffer
open Lib Lib.Serial

def pushOf : Op → Option Frame
  | .push frame => some frame
  | _ => none

def pushes (ops : List Op) : List Frame := ops.filterMap pushOf

/-- Pushes of `s, s + 1, ...` with deadline pops between them, no push more than `capacity`
ahead of the cursor. -/
structure ReceiverRun (jb : JitterBuffer) (s : UInt32) (ops : List Op) : Prop where
  calls : ∀ op ∈ ops, (∃ frame, op = .push frame) ∨
    ∃ nowUs deadlineUs, op = .popWithDeadline nowUs deadlineUs
  consecutive : ∀ i frame, (pushes ops)[i]? = some frame → frame.sequence = s + UInt32.ofNat i
  paced : ∀ pre frame post, ops = pre ++ .push frame :: post →
    (pushes pre).length ≤ ((History.start jb).run pre).advanced + jb.capacity.toNat

/-- Every push returned true, and the returned frames are the pushed ones, in order. -/
def Lossless (trace : List Event) : Prop :=
  (∀ frame accepted, Event.pushed frame accepted ∈ trace → accepted = true) ∧
    returned trace <+: trace.filterMap pushedFrame

def Drained (jb : JitterBuffer) : Prop :=
  jb.primed = true ∧ ∀ slot ∈ jb.slots, slot.occupied = false

instance (jb : JitterBuffer) : Decidable jb.Drained := inferInstanceAs (Decidable (_ ∧ _))

/-- A deadline expired on a drained buffer. -/
def IdleSkip (jb : JitterBuffer) (ops : List Op) : Prop :=
  ∃ pre nowUs deadlineUs mid, ops = pre ++ .popWithDeadline nowUs deadlineUs :: mid ∧
    deadlineUs ≤ nowUs ∧ ((History.start jb).run pre).buffer.Drained

/-- Every push falls inside the window, and no deadline expired on a drained buffer before it. -/
def Quiet (jb : JitterBuffer) (ops : List Op) : Prop :=
  ∀ pre frame post, ops = pre ++ .push frame :: post →
    (pushes pre).length < ((History.start jb).run pre).advanced + jb.capacity.toNat ∧
      ¬IdleSkip jb pre

theorem History.run_concat (h : History) (ops : List Op) (op : Op) :
    h.run (ops ++ [op]) = (h.run ops).exec op := by
  simp [History.run]

theorem pushes_concat (ops : List Op) (op : Op) :
    pushes (ops ++ [op]) = pushes ops ++ (pushOf op).toList := by
  cases hop : pushOf op <;> simp [pushes, hop]

theorem idleSkip_concat (jb : JitterBuffer) (ops : List Op) (op : Op) :
    IdleSkip jb (ops ++ [op]) ↔ IdleSkip jb ops ∨ ∃ nowUs deadlineUs,
      op = .popWithDeadline nowUs deadlineUs ∧ deadlineUs ≤ nowUs ∧
        ((History.start jb).run ops).buffer.Drained := by
  constructor
  · rintro ⟨pre, nowUs, deadlineUs, mid, hops, hexpired, hdrained⟩
    rcases List.eq_nil_or_concat mid with rfl | ⟨mid', last, rfl⟩
    · obtain ⟨rfl, hop⟩ := List.append_inj' hops rfl
      exact .inr ⟨nowUs, deadlineUs, List.singleton_inj.mp hop, hexpired, hdrained⟩
    · rw [List.concat_eq_append, ← List.cons_append, ← List.append_assoc] at hops
      exact .inl ⟨pre, nowUs, deadlineUs, mid', (List.append_inj' hops rfl).1, hexpired, hdrained⟩
  · rintro (⟨pre, nowUs, deadlineUs, mid, rfl, hexpired, hdrained⟩ |
      ⟨nowUs, deadlineUs, rfl, hexpired, hdrained⟩)
    · exact ⟨pre, nowUs, deadlineUs, mid ++ [op], by simp, hexpired, hdrained⟩
    · exact ⟨ops, nowUs, deadlineUs, [], rfl, hexpired, hdrained⟩

theorem drained_iff {jb : JitterBuffer} (rep : jb.Rep) (hprimed : jb.primed = true) :
    jb.Drained ↔ ∀ sequence, jb.lookup sequence = none := by
  have hmem : (∀ slot ∈ jb.slots, slot.occupied = false) ↔
      ∀ i < jb.capacity.toNat, (jb.slotAt i).occupied = false := by
    rw [List.forall_mem_iff_getElem, ← jb.slots_length]
    refine forall₂_congr fun i hi => ?_
    rw [slotAt, List.getD_eq_getElem?_getD, List.getElem?_eq_getElem hi, Option.getD_some]
  rw [Drained, hmem]
  constructor
  · rintro ⟨-, hfree⟩ sequence
    simp [lookup, hfree _ (jb.slotIdx_lt sequence)]
  · intro hnone
    refine ⟨hprimed, fun i hi => ?_⟩
    cases hocc : (jb.slotAt i).occupied with
    | false => rfl
    | true =>
      obtain ⟨frame, hframe, -⟩ := rep.frame_some i hi hocc
      have hlookup := hnone (jb.slotAt i).sequence
      simp [lookup, rep.index_eq i hi hocc, hocc, hframe] at hlookup

/-- The state after `ops` whose pushes were all accepted.  `idle` counts the deadlines that
expired on the drained buffer; while it is 0 the buffer holds exactly the frames not yet
returned. -/
structure Tracks (jb : JitterBuffer) (s : UInt32) (ops : List Op) (idle : Nat) (h : History) :
    Prop where
  reached : (History.start jb).run ops = h
  rep : h.buffer.Rep
  capacity : h.buffer.capacity = jb.capacity
  pushed : h.trace.filterMap pushedFrame = pushes ops
  accepted : ∀ frame accepted, Event.pushed frame accepted ∈ h.trace → accepted = true
  inOrder : returned h.trace <+: pushes ops
  advanced : h.advanced = (returned h.trace).length + idle
  fits : (pushes ops).length ≤ (returned h.trace).length + jb.capacity.toNat
  unprimed : h.buffer.primed = false → pushes ops = [] ∧ idle = 0
  cursor : h.buffer.primed = true → h.buffer.nextSeq = s + UInt32.ofNat h.advanced
  pending : ∀ i frame, (pushes ops)[i]? = some frame → (returned h.trace).length ≤ i →
    h.buffer.lookup frame.sequence = some frame
  stored : ∀ sequence frame, h.buffer.lookup sequence = some frame →
    ∃ i, (returned h.trace).length ≤ i ∧ (pushes ops)[i]? = some frame
  drained : 0 < idle → (returned h.trace).length = (pushes ops).length
  bounded : idle ≤ ops.length
  skips : 0 < idle ↔ IdleSkip jb ops

theorem tracks_start {capacity : UInt32} {jb : JitterBuffer} (hnew : new capacity = some jb)
    (s : UInt32) : Tracks jb s [] 0 (History.start jb) := by
  obtain ⟨hrep, hprimed, -⟩ := rep_new hnew
  constructor
  case reached => rfl
  case rep => exact hrep
  case skips => simp [IdleSkip]
  case cursor =>
    intro h
    rw [show (History.start jb).buffer.primed = jb.primed from rfl, hprimed] at h
    cases h
  case stored =>
    intro sequence frame h
    rw [show (History.start jb).buffer = jb from rfl, hrep.lookup_unprimed hprimed] at h
    cases h
  all_goals simp [History.start, returned, pushes]

section Step
variable {jb : JitterBuffer} {s : UInt32} {ops : List Op} {idle : Nat} {h : History}

theorem tracks_push (tracks : Tracks jb s ops idle h) {frame : Frame}
    (hseq : frame.sequence = s + UInt32.ofNat (pushes ops).length)
    (hconsecutive : ∀ i f, (pushes ops)[i]? = some f → f.sequence = s + UInt32.ofNat i)
    (hidle : idle = 0) (hfits : (pushes ops).length < h.advanced + jb.capacity.toNat) :
    Tracks jb s (ops ++ [.push frame]) 0 (h.exec (.push frame)) := by
  subst hidle
  have hadv := tracks.advanced
  have hcap := jb.capacity_le
  have hlen := tracks.inOrder.length_le
  rw [Nat.add_zero] at hadv
  have haccepts : h.buffer.Accepts frame.sequence := by
    cases hprimed : h.buffer.primed with
    | false => exact .inl hprimed
    | true =>
      right
      rw [hseq, tracks.cursor hprimed, ahead_offsets s (by omega) (by omega), tracks.capacity]
      omega
  obtain ⟨hresult, effect⟩ := push_accept tracks.rep frame haccepts
  have htrace : (h.exec (.push frame)).trace = h.trace ++ [.pushed frame true] := by
    simp [History.exec, step, hresult]
  have hret : returned (h.exec (.push frame)).trace = returned h.trace := by
    rw [htrace, returned_concat]
    exact List.append_nil _
  have hpushes : pushes (ops ++ [.push frame]) = pushes ops ++ [frame] := pushes_concat ops _
  have hadvance : (h.exec (.push frame)).advanced = h.advanced := rfl
  constructor
  case reached => rw [History.run_concat, tracks.reached]
  case rep => exact effect.rep
  case capacity => exact effect.capacity.trans tracks.capacity
  case pushed => simp [htrace, hpushes, tracks.pushed, pushedFrame]
  case accepted =>
    intro other accepted hmem
    rw [htrace, List.mem_append, List.mem_singleton] at hmem
    rcases hmem with hmem | hmem
    · exact tracks.accepted other accepted hmem
    · cases hmem
      rfl
  case inOrder =>
    rw [hret, hpushes]
    exact tracks.inOrder.trans (List.prefix_append _ _)
  case advanced => rw [hadvance, hret, hadv, Nat.add_zero]
  case fits =>
    rw [hret, hpushes, List.length_append, List.length_singleton]
    omega
  case unprimed =>
    intro hfalse
    rw [show (h.exec (.push frame)).buffer.primed = true from effect.primed] at hfalse
    cases hfalse
  case cursor =>
    intro _
    rw [show (h.exec (.push frame)).buffer.nextSeq = _ from effect.nextSeq, cursorFor, hadvance]
    cases hprimed : h.buffer.primed with
    | true => exact tracks.cursor hprimed
    | false =>
      -- the first push: nothing was pushed or returned before it
      have hempty := (tracks.unprimed hprimed).1
      rw [hempty, List.length_nil] at hlen
      rw [if_neg Bool.false_ne_true, hseq, hempty, hadv, Nat.le_zero.mp hlen]
      rfl
  case pending =>
    intro i other hget hle
    rw [hret] at hle
    rw [show (h.exec (.push frame)).buffer.lookup _ = _ from effect.lookup _]
    rw [hpushes] at hget
    rcases Nat.lt_or_ge i (pushes ops).length with hi | hi
    · rw [List.getElem?_append_left hi] at hget
      have hne : other.sequence ≠ frame.sequence := by
        rw [hconsecutive i other hget, hseq]
        intro heq
        have := offset_inj (Nat.le_of_lt hi) (by omega) heq.symm
        omega
      rw [if_neg hne]
      exact tracks.pending i other hget hle
    · rw [List.getElem?_append_right hi] at hget
      obtain rfl : frame = other := by
        rw [List.getElem?_singleton] at hget
        split_ifs at hget
        exact Option.some.inj hget
      rw [if_pos rfl]
  case stored =>
    intro sequence other hl
    rw [show (h.exec (.push frame)).buffer.lookup _ = _ from effect.lookup _] at hl
    rw [hret, hpushes]
    split_ifs at hl with hsame
    · cases hl
      exact ⟨(pushes ops).length, hlen, by simp⟩
    · obtain ⟨i, hle, hget⟩ := tracks.stored sequence other hl
      refine ⟨i, hle, ?_⟩
      rw [List.getElem?_append_left (List.getElem?_eq_some_iff.mp hget).1]
      exact hget
  case drained =>
    intro hpos
    cases hpos
  case bounded => exact Nat.zero_le _
  case skips =>
    rw [idleSkip_concat, ← tracks.skips]
    simp

theorem tracks_next (tracks : Tracks jb s ops idle h)
    (hconsecutive : ∀ i f, (pushes ops)[i]? = some f → f.sequence = s + UInt32.ofNat i)
    {frame : Frame} (hnext : h.buffer.lookup h.buffer.nextSeq = some frame) :
    idle = 0 ∧ (pushes ops)[(returned h.trace).length]? = some frame := by
  obtain ⟨i, hle, hget⟩ := tracks.stored _ _ hnext
  have hi : i < (pushes ops).length := (List.getElem?_eq_some_iff.mp hget).1
  have hidle : idle = 0 := by
    by_contra hne
    have := tracks.drained (Nat.pos_of_ne_zero hne)
    omega
  have hfits := tracks.fits
  have hcap := jb.capacity_le
  have hadv := tracks.advanced
  have hseq : frame.sequence = s + UInt32.ofNat h.advanced := by
    rw [tracks.rep.lookup_sequence hnext, tracks.cursor (primed_of_lookup tracks.rep hnext)]
  rw [hconsecutive i frame hget] at hseq
  have hsame := offset_inj (by omega) (by omega) hseq
  refine ⟨hidle, ?_⟩
  rw [← hget, hsame, hadv, hidle, Nat.add_zero]

theorem tracks_take (tracks : Tracks jb s ops idle h)
    (hconsecutive : ∀ i f, (pushes ops)[i]? = some f → f.sequence = s + UInt32.ofNat i)
    {op : Op} (hop : pushOf op = none) {frame : Frame} {jb' : JitterBuffer}
    (hexec : h.exec op = ⟨jb', h.trace ++ [.popped (some frame)], h.advanced + 1⟩)
    (hnext : h.buffer.lookup h.buffer.nextSeq = some frame)
    (effect : Effect h.buffer jb' (h.buffer.nextSeq + 1)
      (fun sequence => if sequence = h.buffer.nextSeq then none else h.buffer.lookup sequence)) :
    Tracks jb s (ops ++ [op]) 0 (h.exec op) := by
  obtain ⟨rfl, hget⟩ := tracks_next tracks hconsecutive hnext
  have hpushes : pushes (ops ++ [op]) = pushes ops := by
    simp [pushes_concat, hop]
  have hret : returned (h.trace ++ [.popped (some frame)]) = returned h.trace ++ [frame] :=
    returned_concat _ _
  have hcap := jb.capacity_le
  have hfits := tracks.fits
  have hadv := tracks.advanced
  have hcursor := tracks.cursor (primed_of_lookup tracks.rep hnext)
  rw [hexec]
  constructor
  case reached => rw [History.run_concat, tracks.reached, hexec]
  case rep => exact effect.rep
  case capacity => exact effect.capacity.trans tracks.capacity
  case pushed => simp [hpushes, tracks.pushed, pushedFrame]
  case accepted =>
    intro other accepted hmem
    exact tracks.accepted other accepted (by simpa using hmem)
  case inOrder =>
    rw [hret, hpushes]
    obtain ⟨rest, hrest⟩ := tracks.inOrder
    rw [← hrest, List.getElem?_append_right (Nat.le_refl _), Nat.sub_self] at hget
    cases rest with
    | nil => cases hget
    | cons head tail =>
      cases hget
      exact ⟨tail, by rw [← hrest, List.append_assoc]; rfl⟩
  case advanced =>
    simp only [hret, List.length_append, List.length_singleton, hadv]
  case fits =>
    rw [hret, hpushes, List.length_append, List.length_singleton]
    omega
  case unprimed =>
    intro hfalse
    rw [effect.primed] at hfalse
    cases hfalse
  case cursor =>
    intro _
    rw [effect.nextSeq, hcursor, UInt32.ofNat_add, UInt32.add_assoc]
    rfl
  case pending =>
    intro i other hother hle
    rw [hret, List.length_append, List.length_singleton] at hle
    rw [hpushes] at hother
    have hi : i < (pushes ops).length := (List.getElem?_eq_some_iff.mp hother).1
    have hne : other.sequence ≠ h.buffer.nextSeq := by
      rw [hconsecutive i other hother, hcursor]
      intro heq
      have := offset_inj (by omega) (by omega) heq
      omega
    rw [effect.lookup, if_neg hne]
    exact tracks.pending i other hother (by omega)
  case stored =>
    intro sequence other hl
    rw [effect.lookup] at hl
    split_ifs at hl with hsame
    obtain ⟨i, hle, hother⟩ := tracks.stored sequence other hl
    refine ⟨i, ?_, hpushes ▸ hother⟩
    rw [hret, List.length_append, List.length_singleton]
    rcases Nat.eq_or_lt_of_le hle with heq | hlt
    · -- the entry at the old cursor is the frame just taken
      rw [← heq, hget] at hother
      cases hother
      rw [← tracks.rep.lookup_sequence hl, tracks.rep.lookup_sequence hnext] at hsame
      exact absurd rfl hsame
    · exact hlt
  case drained =>
    intro hpos
    cases hpos
  case bounded => exact Nat.zero_le _
  case skips =>
    rw [idleSkip_concat, ← tracks.skips, tracks.reached]
    refine ⟨fun hpos => absurd hpos (Nat.lt_irrefl 0), ?_⟩
    rintro (hpos | ⟨_, _, -, -, hdrained⟩)
    · exact hpos
    · rw [drained_iff tracks.rep hdrained.1] at hdrained
      rw [hdrained] at hnext
      cases hnext

theorem tracks_gap_drained (tracks : Tracks jb s ops idle h) (hprimed : h.buffer.primed = true)
    (hconsecutive : ∀ i f, (pushes ops)[i]? = some f → f.sequence = s + UInt32.ofNat i)
    (hnext : h.buffer.lookup h.buffer.nextSeq = none) :
    (returned h.trace).length = (pushes ops).length ∧ h.buffer.Drained := by
  have hall : (returned h.trace).length = (pushes ops).length := by
    rcases Nat.eq_zero_or_pos idle with rfl | hpos
    · by_contra hne
      have hlt : (returned h.trace).length < (pushes ops).length :=
        Nat.lt_of_le_of_ne tracks.inOrder.length_le hne
      have hget := List.getElem?_eq_getElem hlt
      have hstored := tracks.pending _ _ hget (Nat.le_refl _)
      have hcursor := tracks.cursor hprimed
      rw [tracks.advanced, Nat.add_zero] at hcursor
      rw [hconsecutive _ _ hget, ← hcursor, hnext] at hstored
      cases hstored
    · exact tracks.drained hpos
  refine ⟨hall, (drained_iff tracks.rep hprimed).mpr fun sequence => ?_⟩
  cases hl : h.buffer.lookup sequence with
  | none => rfl
  | some frame =>
    obtain ⟨i, hle, hget⟩ := tracks.stored sequence frame hl
    have := (List.getElem?_eq_some_iff.mp hget).1
    omega

theorem tracks_none (tracks : Tracks jb s ops idle h) {op : Op} (hop : pushOf op = none)
    {jb' : JitterBuffer} {n : Nat} (hle : n ≤ 1)
    (hexec : h.exec op = ⟨jb', h.trace ++ [.popped none], h.advanced + n⟩)
    (hrep : jb'.Rep) (hcapacity : jb'.capacity = h.buffer.capacity)
    (hprimed : jb'.primed = h.buffer.primed)
    (hcursor : h.buffer.primed = true → jb'.nextSeq = h.buffer.nextSeq + UInt32.ofNat n)
    (hlookup : ∀ sequence, jb'.lookup sequence = h.buffer.lookup sequence)
    (hdrained : 0 < n → (returned h.trace).length = (pushes ops).length)
    (hskip : 0 < n ↔ ∃ nowUs deadlineUs, op = .popWithDeadline nowUs deadlineUs ∧
      deadlineUs ≤ nowUs ∧ h.buffer.Drained) :
    Tracks jb s (ops ++ [op]) (idle + n) (h.exec op) := by
  have hpushes : pushes (ops ++ [op]) = pushes ops := by
    simp [pushes_concat, hop]
  have hret : returned (h.trace ++ [.popped none]) = returned h.trace := by
    rw [returned_concat]
    exact List.append_nil _
  rw [hexec]
  constructor
  case reached => rw [History.run_concat, tracks.reached, hexec]
  case rep => exact hrep
  case capacity => exact hcapacity.trans tracks.capacity
  case pushed => simp [hpushes, tracks.pushed, pushedFrame]
  case accepted =>
    intro other accepted hmem
    exact tracks.accepted other accepted (by simpa using hmem)
  case inOrder =>
    rw [hret, hpushes]
    exact tracks.inOrder
  case advanced => simp only [hret, tracks.advanced, Nat.add_assoc]
  case fits =>
    rw [hret, hpushes]
    exact tracks.fits
  case unprimed =>
    intro hfalse
    rw [hprimed] at hfalse
    have hn : ¬0 < n := by
      intro hpos
      obtain ⟨_, _, -, -, htrue, -⟩ := hskip.mp hpos
      rw [hfalse] at htrue
      cases htrue
    obtain ⟨hempty, hidle⟩ := tracks.unprimed hfalse
    exact ⟨hpushes.trans hempty, by omega⟩
  case cursor =>
    intro htrue
    rw [hprimed] at htrue
    rw [hcursor htrue, tracks.cursor htrue, UInt32.ofNat_add, UInt32.add_assoc]
  case pending =>
    intro i other hother hle
    rw [hlookup]
    exact tracks.pending i other (hpushes ▸ hother) (hret ▸ hle)
  case stored =>
    intro sequence other hl
    rw [hret, hpushes]
    exact tracks.stored sequence other (by rwa [hlookup] at hl)
  case drained =>
    intro hpos
    rw [hret, hpushes]
    rcases Nat.eq_zero_or_pos n with rfl | hn
    · exact tracks.drained hpos
    · exact hdrained hn
  case bounded =>
    rw [List.length_append, List.length_singleton]
    exact Nat.add_le_add tracks.bounded hle
  case skips => rw [idleSkip_concat, ← tracks.skips, tracks.reached, ← hskip, Nat.add_pos_iff_pos_or_pos]

theorem tracks_popWithDeadline (tracks : Tracks jb s ops idle h)
    (hconsecutive : ∀ i f, (pushes ops)[i]? = some f → f.sequence = s + UInt32.ofNat i)
    (nowUs deadlineUs : UInt64) :
    ∃ idle', Tracks jb s (ops ++ [.popWithDeadline nowUs deadlineUs]) idle'
      (h.exec (.popWithDeadline nowUs deadlineUs)) := by
  rcases popWithDeadline_cases tracks.rep nowUs deadlineUs with
    ⟨frame, hnext, hpop, effect⟩ | ⟨hprimed, hnext, hexpired, hskip, effect⟩ | ⟨hnext, hearly, hstay⟩
  · refine ⟨0, tracks_take tracks hconsecutive rfl ?_ hnext effect⟩
    simp only [History.exec, step, advance, hpop, effect.nextSeq, ahead_succ]
  · obtain ⟨hall, hdrained⟩ := tracks_gap_drained tracks hprimed hconsecutive hnext
    refine ⟨idle + 1, tracks_none tracks rfl (Nat.le_refl 1) ?_ effect.rep effect.capacity
      (effect.primed.trans hprimed.symm) (fun _ => effect.nextSeq) effect.lookup
      (fun _ => hall) ⟨fun _ => ⟨_, _, rfl, hexpired, hdrained⟩, fun _ => Nat.one_pos⟩⟩
    simp only [History.exec, step, advance, hskip, effect.nextSeq, ahead_succ]
  · refine ⟨idle + 0, tracks_none tracks rfl (Nat.zero_le 1) ?_ tracks.rep rfl rfl
      (fun _ => (UInt32.add_zero _).symm) (fun _ => rfl) (fun h => absurd h (Nat.lt_irrefl 0))
      ⟨fun h => absurd h (Nat.lt_irrefl 0), ?_⟩⟩
    · simp only [History.exec, step, advance, hstay, ahead_self]
    · rintro ⟨now, deadline, heq, hexpired, hdrained⟩
      cases heq
      rcases hearly with hfalse | hearly
      · rw [hdrained.1] at hfalse
        cases hfalse
      · exact absurd hexpired hearly

/-- While the deadlines have not carried the cursor round the whole counter, a push behind it is
refused. -/
theorem tracks_accepted (tracks : Tracks jb s ops idle h) {frame : Frame}
    (hseq : frame.sequence = s + UInt32.ofNat (pushes ops).length)
    (hidle : idle + jb.capacity.toNat ≤ 2 ^ 32)
    (hpaced : (pushes ops).length ≤ h.advanced + jb.capacity.toNat)
    (haccepted : (h.buffer.push frame).1 = true) :
    idle = 0 ∧ (pushes ops).length < h.advanced + jb.capacity.toNat := by
  have hadv := tracks.advanced
  have hcap := jb.capacity_le
  have hlen := tracks.inOrder.length_le
  have hpos := jb.capacity_pos
  have haccepts : h.buffer.Accepts frame.sequence := by
    by_contra hne
    rw [push_reject frame hne] at haccepted
    cases haccepted
  cases hprimed : h.buffer.primed with
  | false =>
    obtain ⟨hempty, hidle0⟩ := tracks.unprimed hprimed
    rw [hempty, List.length_nil]
    exact ⟨hidle0, by omega⟩
  | true =>
    have hwindow := haccepts.resolve_left (by simp [hprimed])
    rw [hseq, tracks.cursor hprimed, hadv, tracks.capacity] at hwindow
    rcases Nat.eq_zero_or_pos idle with rfl | hbehind
    · rw [ahead_offsets s (by omega) (by omega)] at hwindow
      exact ⟨rfl, by omega⟩
    · -- the cursor stands `idle` numbers past the frame
      rw [tracks.drained hbehind, UInt32.ofNat_add, ← UInt32.add_assoc,
        ahead_add_gt _ _ _ (by rwa [ahead_self]) (by omega), ahead_self] at hwindow
      omega

end Step

section Run
variable {jb : JitterBuffer} {s : UInt32} {ops : List Op}

theorem ReceiverRun.of_append {rest : List Op} (hrun : ReceiverRun jb s (ops ++ rest)) :
    ReceiverRun jb s ops where
  calls op hop := hrun.calls op (List.mem_append_left _ hop)
  consecutive i frame hget := by
    refine hrun.consecutive i frame ?_
    rw [pushes, List.filterMap_append, List.getElem?_append_left]
    · exact hget
    · exact (List.getElem?_eq_some_iff.mp hget).1
  paced pre frame post hops := hrun.paced pre frame (post ++ rest) (by simp [hops])

theorem ReceiverRun.push_sequence {frame : Frame} (hrun : ReceiverRun jb s (ops ++ [.push frame])) :
    frame.sequence = s + UInt32.ofNat (pushes ops).length :=
  hrun.consecutive _ _ (by rw [pushes_concat]; simp [pushOf])

theorem tracks_run {capacity : UInt32} (hnew : new capacity = some jb)
    (hrun : ReceiverRun jb s ops)
    (haccept : ∀ pre frame post, ops = pre ++ .push frame :: post →
      ∀ idle, Tracks jb s pre idle ((History.start jb).run pre) →
        idle = 0 ∧
          (pushes pre).length < ((History.start jb).run pre).advanced + jb.capacity.toNat) :
    ∃ idle, Tracks jb s ops idle ((History.start jb).run ops) := by
  induction ops using List.reverseRecOn with
  | nil => exact ⟨0, tracks_start hnew s⟩
  | append_singleton ops op ih =>
    have hbefore := hrun.of_append
    obtain ⟨idle, tracks⟩ := ih hbefore fun pre frame post hops =>
      haccept pre frame (post ++ [op]) (by simp [hops])
    rw [History.run_concat]
    rcases hrun.calls op (by simp) with ⟨frame, rfl⟩ | ⟨nowUs, deadlineUs, rfl⟩
    · obtain ⟨hidle, hfits⟩ := haccept ops frame [] rfl idle tracks
      exact ⟨0, tracks_push tracks hrun.push_sequence hbefore.consecutive hidle hfits⟩
    · exact tracks_popWithDeadline tracks hbefore.consecutive nowUs deadlineUs

theorem Tracks.lossless {idle : Nat} {h : History} (tracks : Tracks jb s ops idle h) :
    Lossless h.trace :=
  ⟨tracks.accepted, by rw [tracks.pushed]; exact tracks.inOrder⟩

theorem History.trace_prefix_run (h : History) (ops : List Op) : h.trace <+: (h.run ops).trace := by
  induction ops generalizing h with
  | nil => exact List.prefix_refl _
  | cons op ops ih => exact (List.prefix_append _ _).trans (ih (h.exec op))

theorem Lossless.push_accepted {pre post : List Op} {frame : Frame}
    (hloss : Lossless ((History.start jb).run (pre ++ .push frame :: post)).trace) :
    (((History.start jb).run pre).buffer.push frame).1 = true := by
  have hsplit : (History.start jb).run (pre ++ .push frame :: post) =
      (((History.start jb).run pre).exec (.push frame)).run post := by
    simp [History.run]
  rw [hsplit] at hloss
  refine hloss.1 frame _ ((History.trace_prefix_run _ post).mem ?_)
  simp [History.exec, step]

end Run

/-- A receiver fed consecutive frames loses none if no push follows a deadline that expired on a
drained buffer; and, short of the cursor going round the whole counter, only then. -/
theorem idle_time_loses_nothing (capacity : UInt32) (jb : JitterBuffer)
    (hnew : JitterBuffer.new capacity = some jb) (s : UInt32) (ops : List Op)
    (hrun : ReceiverRun jb s ops) :
    (Quiet jb ops → Lossless ((History.start jb).run ops).trace) ∧
      (ops.length + capacity.toNat ≤ 2 ^ 32 →
        Lossless ((History.start jb).run ops).trace → Quiet jb ops) := by
  constructor
  · intro hquiet
    obtain ⟨_, tracks⟩ := tracks_run hnew hrun fun pre frame post hops idle tracks => by
      obtain ⟨hfits, hno⟩ := hquiet pre frame post hops
      rw [← tracks.skips] at hno
      exact ⟨by omega, hfits⟩
    exact tracks.lossless
  · intro hbound hloss
    have haccept : ∀ pre frame post, ops = pre ++ .push frame :: post →
        ∀ idle, Tracks jb s pre idle ((History.start jb).run pre) → idle = 0 ∧
          (pushes pre).length < ((History.start jb).run pre).advanced + jb.capacity.toNat := by
      rintro pre frame post rfl idle tracks
      have hcap : jb.capacity = capacity := (rep_new hnew).2.2
      have hbounded := tracks.bounded
      have hrun' : ReceiverRun jb s (pre ++ [.push frame]) := by
        have hwhole : ReceiverRun jb s ((pre ++ [.push frame]) ++ post) := by
          rwa [List.append_assoc]
        exact hwhole.of_append
      refine tracks_accepted tracks hrun'.push_sequence ?_ (hrun.paced pre frame post rfl)
        hloss.push_accepted
      rw [List.length_append] at hbound
      rw [hcap]
      omega
    rintro pre frame post rfl
    obtain ⟨idle, tracks⟩ := tracks_run hnew hrun.of_append fun pre' frame' post' hpre =>
      haccept pre' frame' (post' ++ .push frame :: post) (by simp [hpre])
    obtain ⟨hidle, hfits⟩ := haccept pre frame post rfl idle tracks
    refine ⟨hfits, ?_⟩
    rw [← tracks.skips]
    omega

private def emptyOfFour : JitterBuffer :=
  ⟨4, List.replicate 4 Slot.empty, 0, false, by decide, rfl⟩

private theorem forall_split {ops : List Op} {p : List Op → Prop}
    (h : ∀ i < ops.length, p (ops.take i)) (pre : List Op) (frame : Frame) (post : List Op)
    (hops : ops = pre ++ .push frame :: post) : p pre := by
  have := h pre.length (by simp [hops])
  rwa [hops, List.take_left] at this

/-- Frame 0 is pushed and returned, a deadline pop follows, then frame 1 is pushed. -/
private def pause (nowUs : UInt64) : List Op :=
  [.push ⟨0, 0, [1]⟩, .popWithDeadline 0 60000, .popWithDeadline nowUs 60000, .push ⟨1, 0, [2]⟩]

private theorem pause_consecutive (nowUs : UInt64) (i : Nat) (frame : Frame)
    (h : (pushes (pause nowUs))[i]? = some frame) : frame.sequence = 0 + UInt32.ofNat i := by
  change [(⟨0, 0, [1]⟩ : Frame), ⟨1, 0, [2]⟩][i]? = some frame at h
  match i, h with
  | 0, h => cases h; rfl
  | 1, h => cases h; rfl

private theorem pause_calls (nowUs : UInt64) : ∀ op ∈ pause nowUs, (∃ frame, op = .push frame) ∨
    ∃ nowUs deadlineUs, op = .popWithDeadline nowUs deadlineUs := by
  simp [pause]

/-- A push to talk pause: the deadline expires on the drained buffer and frame 1 is refused. -/
theorem idle_time_loses_frame : ¬∀ (capacity : UInt32) (jb : JitterBuffer) (s : UInt32)
    (ops : List Op), JitterBuffer.new capacity = some jb → ReceiverRun jb s ops →
      Lossless ((History.start jb).run ops).trace := by
  intro hall
  have hrun : ReceiverRun emptyOfFour 0 (pause 60000) :=
    ⟨pause_calls _, pause_consecutive _, forall_split (by decide)⟩
  have hlost : Event.pushed ⟨1, 0, [2]⟩ false ∈
      ((History.start emptyOfFour).run (pause 60000)).trace := by
    decide
  cases (hall 4 emptyOfFour 0 (pause 60000) rfl hrun).1 _ _ hlost

/-- With the clock still short of the deadline both frames are accepted. -/
theorem idle_time_loses_nothing_early :
    Lossless ((History.start emptyOfFour).run (pause 59999)).trace := by
  have hrun : ReceiverRun emptyOfFour 0 (pause 59999) :=
    ⟨pause_calls _, pause_consecutive _, forall_split (by decide)⟩
  refine (idle_time_loses_nothing 4 emptyOfFour rfl 0 (pause 59999) hrun).1 ?_
  intro pre frame post hops
  refine ⟨forall_split (p := fun pre => (pushes pre).length <
    ((History.start emptyOfFour).run pre).advanced + emptyOfFour.capacity.toNat)
    (by decide) pre frame post hops, ?_⟩
  rintro ⟨before, nowUs, deadlineUs, mid, rfl, hexpired, -⟩
  have hmem : Op.popWithDeadline nowUs deadlineUs ∈ pause 59999 := by
    simp [hops]
  simp only [pause, List.mem_cons, reduceCtorEq, Op.popWithDeadline.injEq, List.not_mem_nil,
    false_or, or_false] at hmem
  rcases hmem with ⟨rfl, rfl⟩ | ⟨rfl, rfl⟩
  · exact absurd hexpired (by decide)
  · exact absurd hexpired (by decide)

end GravitalTalk.Transport.JitterBuffer
