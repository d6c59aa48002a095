import GravitalTalk.Transport.JitterWindow

/-! Whole runs of the jitter buffer.  A history carries the trace of calls and the total
distance the cursor has moved; positions are measured from the first pushed sequence, so
they do not wrap as long as that distance stays below `2^32 - capacity`. -/
namespace GravitalTalk.Transport.JitterBuffer
open Lib Lib.Serial

inductive Op where
  | push (frame : Frame)
  | pop
  | popWithDeadline (nowUs deadlineUs : UInt64)
  | skip (count : UInt32)

/-- A call with what it returned; an explicit skip keeps the cursor it started from. -/
inductive Event where
  | pushed (frame : Frame) (accepted : Bool)
  | popped (result : Option Frame)
  | skipped (start count : UInt32)
  deriving DecidableEq

def step (jb : JitterBuffer) : Op → Event × JitterBuffer
  | .push frame => (.pushed frame (jb.push frame).1, (jb.push frame).2)
  | .pop => (.popped jb.pop.1, jb.pop.2)
  | .popWithDeadline nowUs deadlineUs =>
    (.popped (jb.popWithDeadline nowUs deadlineUs).1, (jb.popWithDeadline nowUs deadlineUs).2)
  | .skip count => (.skipped jb.nextSeq count, jb.skip count)

/-- How far an operation moves the cursor.  The first push places it, which is no advance. -/
def advance (jb : JitterBuffer) : Op → Nat
  | .push _ => 0
  | op => ahead (jb.step op).2.nextSeq jb.nextSeq

structure History where
  buffer : JitterBuffer
  trace : List Event
  advanced : Nat

namespace History

def start (jb : JitterBuffer) : History := ⟨jb, [], 0⟩

def exec (h : History) (op : Op) : History where
  buffer := (h.buffer.step op).2
  trace := h.trace ++ [(h.buffer.step op).1]
  advanced := h.advanced + h.buffer.advance op

def run (h : History) (ops : List Op) : History := ops.foldl exec h

end History

def pushedFrame : Event → Option Frame
  | .pushed frame _ => some frame
  | _ => none

def acceptedFrame : Event → Option Frame
  | .pushed frame true => some frame
  | _ => none

def returnedFrame : Event → Option Frame
  | .popped result => result
  | _ => none

def returned (trace : List Event) : List Frame := trace.filterMap returnedFrame

def lastAccepted (trace : List Event) (sequence : UInt32) : Option Frame :=
  ((trace.filterMap acceptedFrame).filter fun frame => frame.sequence == sequence).getLast?

/-- The sequence of the first pushed frame, from which positions are counted. -/
def firstPushed (trace : List Event) : UInt32 :=
  (((trace.filterMap pushedFrame).head?).map Frame.sequence).getD 0

def position (trace : List Event) (frame : Frame) : Nat := ahead frame.sequence (firstPushed trace)

theorem lastAccepted_concat (trace : List Event) (event : Event) (sequence : UInt32) :
    lastAccepted (trace ++ [event]) sequence =
      match acceptedFrame event with
      | some frame => if sequence = frame.sequence then some frame else lastAccepted trace sequence
      | none => lastAccepted trace sequence := by
  unfold lastAccepted
  cases haccept : acceptedFrame event with
  | none => simp [haccept]
  | some frame =>
    by_cases heq : sequence = frame.sequence
    · simp [haccept, heq]
    · simp [haccept, heq, Ne.symm heq]

theorem firstPushed_concat {trace : List Event} (event : Event)
    (h : trace.filterMap pushedFrame ≠ []) : firstPushed (trace ++ [event]) = firstPushed trace := by
  unfold firstPushed
  rw [List.filterMap_append, List.head?_append_of_ne_nil _ h]

theorem split_concat {pre post trace : List Event} {event last : Event}
    (h : trace ++ [last] = pre ++ event :: post) :
    (∃ post', post = post' ++ [last] ∧ trace = pre ++ event :: post') ∨
      (post = [] ∧ event = last ∧ trace = pre) := by
  rcases List.eq_nil_or_concat post with rfl | ⟨post', final, rfl⟩
  · right
    have := List.append_inj' h rfl
    exact ⟨rfl, (List.singleton_inj.mp this.2).symm, this.1⟩
  · left
    rw [List.concat_eq_append, ← List.cons_append, ← List.append_assoc] at h
    have := List.append_inj' h rfl
    refine ⟨post', ?_, this.1⟩
    rw [List.concat_eq_append, List.singleton_inj.mp this.2]

/-- An accepted frame is accounted for by the calls `post` that followed its push. -/
def Accounted (h : History) (post : List Event) (sequence : UInt32) : Prop :=
  (∃ frame ∈ returned h.trace, frame.sequence = sequence) ∨
    (h.buffer.lookup sequence).isSome ∨
    ∃ start count, Event.skipped start count ∈ post ∧ ahead sequence start < count.toNat

structure Sound (h : History) : Prop where
  rep : h.buffer.Rep
  idle : h.buffer.primed = false →
    h.trace.filterMap pushedFrame = [] ∧ returned h.trace = [] ∧ h.advanced = 0
  cursor : h.buffer.primed = true → h.trace.filterMap pushedFrame ≠ [] ∧
    h.buffer.nextSeq = firstPushed h.trace + UInt32.ofNat h.advanced
  below : ∀ frame ∈ returned h.trace, position h.trace frame < h.advanced
  sorted : (returned h.trace).Pairwise
    (fun left right => position h.trace left < position h.trace right)
  stored : ∀ sequence frame, h.buffer.lookup sequence = some frame →
    lastAccepted h.trace sequence = some frame
  faithful : ∀ pre frame post, h.trace = pre ++ Event.popped (some frame) :: post →
    lastAccepted pre frame.sequence = some frame
  accounted : ∀ pre frame post, h.trace = pre ++ Event.pushed frame true :: post →
    Accounted h post frame.sequence

theorem sound_start {capacity : UInt32} {jb : JitterBuffer} (hnew : new capacity = some jb) :
    Sound (History.start jb) := by
  obtain ⟨hrep, hprimed, -⟩ := rep_new hnew
  refine ⟨hrep, fun _ => ⟨rfl, rfl, rfl⟩, ?_, ?_, List.Pairwise.nil, ?_, ?_, ?_⟩
  · intro h
    rw [show (History.start jb).buffer.primed = jb.primed from rfl, hprimed] at h
    cases h
  · simp [History.start, returned]
  · intro sequence frame h
    rw [show (History.start jb).buffer = jb from rfl, hrep.lookup_unprimed hprimed] at h
    cases h
  · intro pre frame post h
    simp [History.start] at h
  · intro pre frame post h
    simp [History.start] at h

inductive Moved (jb : JitterBuffer) : Event → JitterBuffer → Nat → Prop
  | store (frame : Frame) (jb' : JitterBuffer) (haccept : jb.Accepts frame.sequence)
      (effect : Effect jb jb' (jb.cursorFor frame.sequence)
        (fun sequence => if sequence = frame.sequence then some frame else jb.lookup sequence)) :
      Moved jb (.pushed frame true) jb' 0
  | refuse (frame : Frame) (hprimed : jb.primed = true) : Moved jb (.pushed frame false) jb 0
  | take (frame : Frame) (jb' : JitterBuffer) (hnext : jb.lookup jb.nextSeq = some frame)
      (effect : Effect jb jb' (jb.nextSeq + 1)
        (fun sequence => if sequence = jb.nextSeq then none else jb.lookup sequence)) :
      Moved jb (.popped (some frame)) jb' 1
  | wait : Moved jb (.popped none) jb 0
  | gap (jb' : JitterBuffer) (hprimed : jb.primed = true)
      (effect : Effect jb jb' (jb.nextSeq + 1) jb.lookup) : Moved jb (.popped none) jb' 1
  | jump (count : UInt32) (jb' : JitterBuffer) (hprimed : jb.primed = true)
      (effect : Effect jb jb' (jb.nextSeq + count)
        (fun sequence => if ahead sequence jb.nextSeq < count.toNat then none
          else jb.lookup sequence)) :
      Moved jb (.skipped jb.nextSeq count) jb' count.toNat
  | hold (count : UInt32) (hprimed : jb.primed = false) :
      Moved jb (.skipped jb.nextSeq count) jb 0

theorem ahead_succ (a : UInt32) : ahead (a + 1) a = 1 :=
  ahead_add_ofNat a 1 (by decide)

private theorem moved_pop {jb : JitterBuffer} (rep : jb.Rep) :
    Moved jb (.popped jb.pop.1) jb.pop.2 (ahead jb.pop.2.nextSeq jb.nextSeq) := by
  cases hnext : jb.lookup jb.nextSeq with
  | none =>
    rw [pop_none rep hnext, ahead_self]
    exact .wait
  | some frame =>
    obtain ⟨hresult, effect⟩ := pop_some rep hnext
    rw [hresult, effect.nextSeq, ahead_succ]
    exact .take frame _ hnext effect

theorem step_moved {jb : JitterBuffer} (rep : jb.Rep) (op : Op) :
    Moved jb (jb.step op).1 (jb.step op).2 (jb.advance op) := by
  cases op with
  | push frame =>
    simp only [step, advance]
    by_cases haccept : jb.Accepts frame.sequence
    · obtain ⟨hresult, effect⟩ := push_accept rep frame haccept
      rw [hresult]
      exact .store frame _ haccept effect
    · have hprimed : jb.primed = true := by
        simp only [Accepts, not_or, Bool.not_eq_false] at haccept
        exact haccept.1
      rw [push_reject frame haccept]
      exact .refuse frame hprimed
  | pop => exact moved_pop rep
  | popWithDeadline nowUs deadlineUs =>
    simp only [step, advance]
    rcases popWithDeadline_cases rep nowUs deadlineUs with
      ⟨frame, hnext, hpop, effect⟩ | ⟨hprimed, -, -, hskip, effect⟩ | ⟨-, -, hstay⟩
    · rw [hpop, effect.nextSeq, ahead_succ]
      exact .take frame _ hnext effect
    · rw [hskip, effect.nextSeq, ahead_succ]
      exact .gap _ hprimed effect
    · rw [hstay, ahead_self]
      exact .wait
  | skip count =>
    simp only [step, advance]
    cases hprimed : jb.primed with
    | false =>
      rw [skip_unprimed hprimed, ahead_self]
      exact .hold count hprimed
    | true =>
      have effect := skip_primed rep hprimed count
      have hmove : ahead (jb.nextSeq + count) jb.nextSeq = count.toNat := by
        have := ahead_add_ofNat jb.nextSeq count.toNat count.toNat_lt
        rwa [UInt32.ofNat_toNat] at this
      rw [effect.nextSeq, hmove]
      exact .jump count _ hprimed effect

theorem Moved.rep {jb jb' : JitterBuffer} {event : Event} {n : Nat} (h : Moved jb event jb' n)
    (rep : jb.Rep) : jb'.Rep ∧ jb'.capacity = jb.capacity := by
  cases h with
  | store frame _ _ effect => exact ⟨effect.rep, effect.capacity⟩
  | take frame _ _ effect => exact ⟨effect.rep, effect.capacity⟩
  | gap _ _ effect => exact ⟨effect.rep, effect.capacity⟩
  | jump count _ _ effect => exact ⟨effect.rep, effect.capacity⟩
  | refuse | wait | hold => exact ⟨rep, rfl⟩

section Step
variable {h : History}

theorem position_concat {trace : List Event} (event : Event)
    (hne : trace.filterMap pushedFrame ≠ []) : position (trace ++ [event]) = position trace := by
  funext frame
  rw [position, position, firstPushed_concat event hne]

theorem returned_concat (trace : List Event) (event : Event) :
    returned (trace ++ [event]) = returned trace ++ (returnedFrame event).toList := by
  cases hr : returnedFrame event <;> simp [returned, hr]

theorem primed_of_returned (sound : Sound h) {frame : Frame} (hf : frame ∈ returned h.trace) :
    h.trace.filterMap pushedFrame ≠ [] := by
  cases hprimed : h.buffer.primed with
  | true => exact (sound.cursor hprimed).1
  | false =>
    rw [(sound.idle hprimed).2.1] at hf
    cases hf

theorem sound_silent (sound : Sound h) {event : Event} {jb' : JitterBuffer} {n : Nat}
    (hrep : jb'.Rep) (haccept : acceptedFrame event = none) (hreturn : returnedFrame event = none)
    (hpush : pushedFrame event = none ∨ h.buffer.primed = true)
    (hprimed : jb'.primed = h.buffer.primed) (hstill : h.buffer.primed = false → n = 0)
    (hcursor : h.buffer.primed = true → jb'.nextSeq = h.buffer.nextSeq + UInt32.ofNat n)
    (hkept : ∀ sequence frame, jb'.lookup sequence = some frame →
      h.buffer.lookup sequence = some frame)
    (hlost : ∀ sequence, (h.buffer.lookup sequence).isSome → (jb'.lookup sequence).isSome ∨
      ∃ start count, event = .skipped start count ∧ ahead sequence start < count.toNat) :
    Sound ⟨jb', h.trace ++ [event], h.advanced + n⟩ := by
  have hret : returned (h.trace ++ [event]) = returned h.trace := by
    rw [returned_concat, hreturn, Option.toList_none, List.append_nil]
  constructor
  case rep => exact hrep
  case idle =>
    intro hidle
    rw [hprimed] at hidle
    obtain ⟨hempty, hnone, hzero⟩ := sound.idle hidle
    rcases hpush with hpush | hpush
    · simp [hpush, hempty, hret, hnone, hzero, hstill hidle]
    · rw [hidle] at hpush
      cases hpush
  case cursor =>
    intro hp
    rw [hprimed] at hp
    obtain ⟨hne, hnext⟩ := sound.cursor hp
    refine ⟨by simp [hne], ?_⟩
    rw [hcursor hp, hnext, firstPushed_concat event hne, UInt32.ofNat_add, UInt32.add_assoc]
  case below =>
    intro frame hframe
    simp only [hret] at hframe
    rw [position_concat event (primed_of_returned sound hframe)]
    exact Nat.lt_add_right n (sound.below frame hframe)
  case sorted =>
    simp only [hret]
    refine sound.sorted.imp_of_mem fun hl _ hlt => ?_
    rwa [position_concat event (primed_of_returned sound hl)]
  case stored =>
    intro sequence frame hl
    simp only [lastAccepted_concat, haccept]
    exact sound.stored sequence frame (hkept sequence frame hl)
  case faithful =>
    intro pre frame post htrace
    rcases split_concat htrace with ⟨post', -, hold⟩ | ⟨-, rfl, -⟩
    · exact sound.faithful pre frame post' hold
    · cases hreturn
  case accounted =>
    intro pre frame post htrace
    rcases split_concat htrace with ⟨post', rfl, hold⟩ | ⟨-, rfl, -⟩
    · rcases sound.accounted pre frame post' hold with hdone | hstored | ⟨start, count, hmem, hlt⟩
      · exact .inl (by simpa only [hret] using hdone)
      · rcases hlost _ hstored with hstill | ⟨start, count, rfl, hlt⟩
        · exact .inr (.inl hstill)
        · exact .inr (.inr ⟨start, count, by simp, hlt⟩)
      · exact .inr (.inr ⟨start, count, by simp [hmem], hlt⟩)
    · cases haccept

theorem sound_store (sound : Sound h) {frame : Frame} {jb' : JitterBuffer}
    (effect : Effect h.buffer jb' (h.buffer.cursorFor frame.sequence)
      (fun sequence => if sequence = frame.sequence then some frame
        else h.buffer.lookup sequence)) :
    Sound ⟨jb', h.trace ++ [.pushed frame true], h.advanced⟩ := by
  have hret : returned (h.trace ++ [.pushed frame true]) = returned h.trace := by
    rw [returned_concat]
    exact List.append_nil _
  constructor
  case rep => exact effect.rep
  case idle =>
    intro hidle
    rw [effect.primed] at hidle
    cases hidle
  case cursor =>
    intro _
    refine ⟨by simp [pushedFrame], ?_⟩
    rw [effect.nextSeq, cursorFor]
    cases hprimed : h.buffer.primed with
    | true =>
      obtain ⟨hne, hnext⟩ := sound.cursor hprimed
      rw [if_pos rfl, hnext, firstPushed_concat _ hne]
    | false =>
      obtain ⟨hempty, -, hzero⟩ := sound.idle hprimed
      simp [firstPushed, hempty, hzero, pushedFrame]
  case below =>
    intro other hother
    simp only [hret] at hother
    rw [position_concat _ (primed_of_returned sound hother)]
    exact sound.below other hother
  case sorted =>
    simp only [hret]
    refine sound.sorted.imp_of_mem fun hl _ hlt => ?_
    rwa [position_concat _ (primed_of_returned sound hl)]
  case stored =>
    intro sequence other hl
    simp only [effect.lookup] at hl
    simp only [lastAccepted_concat, acceptedFrame]
    split_ifs at hl ⊢
    · exact hl
    · exact sound.stored sequence other hl
  case faithful =>
    intro pre other post htrace
    rcases split_concat htrace with ⟨post', -, hold⟩ | ⟨-, hbad, -⟩
    · exact sound.faithful pre other post' hold
    · cases hbad
  case accounted =>
    intro pre other post htrace
    rcases split_concat htrace with ⟨post', rfl, hold⟩ | ⟨-, heq, -⟩
    · rcases sound.accounted pre other post' hold with hdone | hstored | ⟨start, count, hmem, hlt⟩
      · exact .inl (by simpa only [hret] using hdone)
      · refine .inr (.inl ?_)
        simp only [effect.lookup]
        split_ifs
        · rfl
        · exact hstored
      · exact .inr (.inr ⟨start, count, by simp [hmem], hlt⟩)
    · cases heq
      exact .inr (.inl (by simp [effect.lookup]))

/-- The returned frame stands at the cursor, so its position is the distance moved so far. -/
theorem sound_take (sound : Sound h) {frame : Frame} {jb' : JitterBuffer}
    (hnext : h.buffer.lookup h.buffer.nextSeq = some frame)
    (effect : Effect h.buffer jb' (h.buffer.nextSeq + 1)
      (fun sequence => if sequence = h.buffer.nextSeq then none else h.buffer.lookup sequence))
    (hbound : h.advanced < 2 ^ 32) :
    Sound ⟨jb', h.trace ++ [.popped (some frame)], h.advanced + 1⟩ := by
  have hprimed := primed_of_lookup sound.rep hnext
  obtain ⟨hne, hcursor⟩ := sound.cursor hprimed
  have hseq : frame.sequence = h.buffer.nextSeq := sound.rep.lookup_sequence hnext
  have hpos : position h.trace frame = h.advanced := by
    rw [position, hseq, hcursor, ahead_add_ofNat _ _ hbound]
  have hret : returned (h.trace ++ [.popped (some frame)]) = returned h.trace ++ [frame] := by
    rw [returned_concat]
    rfl
  have hposition := position_concat (Event.popped (some frame)) hne
  constructor
  case rep => exact effect.rep
  case idle =>
    intro hidle
    rw [effect.primed] at hidle
    cases hidle
  case cursor =>
    intro _
    refine ⟨by simp [hne], ?_⟩
    rw [effect.nextSeq, hcursor, firstPushed_concat _ hne, UInt32.ofNat_add, UInt32.add_assoc]
    rfl
  case below =>
    intro other hother
    simp only [hret, List.mem_append, List.mem_singleton] at hother
    simp only [hposition]
    rcases hother with hother | rfl
    · exact Nat.lt_add_right 1 (sound.below other hother)
    · omega
  case sorted =>
    simp only [hret, hposition, List.pairwise_append, List.pairwise_singleton, true_and]
    refine ⟨sound.sorted, fun other hother last hlast => ?_⟩
    rw [List.mem_singleton.mp hlast, hpos]
    exact sound.below other hother
  case stored =>
    intro sequence other hl
    simp only [effect.lookup] at hl
    simp only [lastAccepted_concat, acceptedFrame]
    split_ifs at hl
    exact sound.stored sequence other hl
  case faithful =>
    intro pre other post htrace
    rcases split_concat htrace with ⟨post', -, hold⟩ | ⟨-, heq, hpre⟩
    · exact sound.faithful pre other post' hold
    · cases heq
      rw [← hpre, hseq]
      exact sound.stored _ _ hnext
  case accounted =>
    intro pre other post htrace
    rcases split_concat htrace with ⟨post', rfl, hold⟩ | ⟨-, hbad, -⟩
    · rcases sound.accounted pre other post' hold with
        ⟨done, hdone, hsame⟩ | hstored | ⟨start, count, hmem, hlt⟩
      · exact .inl ⟨done, by simp only [hret]; exact List.mem_append_left _ hdone, hsame⟩
      · by_cases heq : other.sequence = h.buffer.nextSeq
        · exact .inl ⟨frame, by simp [hret], by rw [hseq, heq]⟩
        · exact .inr (.inl (by simpa only [effect.lookup, if_neg heq] using hstored))
      · exact .inr (.inr ⟨start, count, by simp [hmem], hlt⟩)
    · cases hbad

theorem sound_moved (sound : Sound h) {event : Event} {jb' : JitterBuffer} {n : Nat}
    (moved : Moved h.buffer event jb' n) (hbound : h.advanced < 2 ^ 32) :
    Sound ⟨jb', h.trace ++ [event], h.advanced + n⟩ := by
  cases moved with
  | store frame _ _ effect => exact sound_store sound effect
  | take frame _ hnext effect => exact sound_take sound hnext effect hbound
  | refuse frame hprimed =>
    exact sound_silent sound sound.rep rfl rfl (.inr hprimed) rfl (fun _ => rfl)
      (fun _ => (UInt32.add_zero _).symm) (fun _ _ hl => hl) (fun _ hl => .inl hl)
  | wait =>
    exact sound_silent sound sound.rep rfl rfl (.inl rfl) rfl (fun _ => rfl)
      (fun _ => (UInt32.add_zero _).symm) (fun _ _ hl => hl) (fun _ hl => .inl hl)
  | hold count hprimed =>
    exact sound_silent sound sound.rep rfl rfl (.inl rfl) rfl (fun _ => rfl)
      (fun _ => (UInt32.add_zero _).symm) (fun _ _ hl => hl) (fun _ hl => .inl hl)
  | gap _ hprimed effect =>
    refine sound_silent sound effect.rep rfl rfl (.inl rfl) (effect.primed.trans hprimed.symm)
      (fun h => ?_) (fun _ => effect.nextSeq) (fun sequence frame hl => ?_) (fun sequence hl => .inl ?_)
    · rw [hprimed] at h
      cases h
    · rwa [effect.lookup] at hl
    · rwa [effect.lookup]
  | jump count _ hprimed effect =>
    refine sound_silent sound effect.rep rfl rfl (.inl rfl) (effect.primed.trans hprimed.symm)
      (fun h => ?_) (fun _ => ?_) (fun sequence frame hl => ?_) (fun sequence hl => ?_)
    · rw [hprimed] at h
      cases h
    · rw [effect.nextSeq, UInt32.ofNat_toNat]
    · rw [effect.lookup] at hl
      split_ifs at hl
      exact hl
    · by_cases hlt : ahead sequence h.buffer.nextSeq < count.toNat
      · exact .inr ⟨_, _, rfl, hlt⟩
      · exact .inl (by rwa [effect.lookup, if_neg hlt])

end Step

def Reachable (capacity : UInt32) (jb : JitterBuffer) : Prop :=
  ∃ start ops, new capacity = some start ∧ jb = ((History.start start).run ops).buffer

theorem rep_run {h : History} (rep : h.buffer.Rep) (ops : List Op) :
    (h.run ops).buffer.Rep ∧ (h.run ops).buffer.capacity = h.buffer.capacity := by
  induction ops generalizing h with
  | nil => exact ⟨rep, rfl⟩
  | cons op ops ih =>
    obtain ⟨hrep, hcap⟩ := (step_moved rep op).rep rep
    obtain ⟨hrun, hrunCap⟩ := @ih (h.exec op) hrep
    exact ⟨hrun, hrunCap.trans hcap⟩

theorem Reachable.rep {capacity : UInt32} {jb : JitterBuffer} (h : Reachable capacity jb) :
    jb.Rep ∧ jb.capacity = capacity := by
  obtain ⟨start, ops, hnew, rfl⟩ := h
  obtain ⟨hrep, -, hcap⟩ := rep_new hnew
  obtain ⟨hrun, hrunCap⟩ := @rep_run (History.start start) hrep ops
  exact ⟨hrun, hrunCap.trans hcap⟩

theorem new_four : (new 4).isSome := rfl

def newOfFour : JitterBuffer := (new 4).get new_four

theorem newOfFour_reachable : Reachable 4 newOfFour := ⟨newOfFour, [], rfl, rfl⟩

theorem History.advanced_le_run (h : History) (ops : List Op) :
    h.advanced ≤ (h.run ops).advanced := by
  induction ops generalizing h with
  | nil => exact Nat.le_refl _
  | cons op ops ih => exact Nat.le_trans (Nat.le_add_right _ _) (ih (h.exec op))

theorem sound_run {h : History} (sound : Sound h) (ops : List Op)
    (hbound : (h.run ops).advanced < 2 ^ 32) : Sound (h.run ops) := by
  induction ops generalizing h with
  | nil => exact sound
  | cons op ops ih =>
    have hlt : h.advanced < 2 ^ 32 := Nat.lt_of_le_of_lt (h.advanced_le_run (op :: ops)) hbound
    exact ih (sound_moved sound (step_moved sound.rep op) hlt) hbound

theorem nodup_returned {h : History} (sound : Sound h) :
    ((returned h.trace).map Frame.sequence).Nodup := by
  rw [List.Nodup, List.pairwise_map]
  refine sound.sorted.imp fun hlt heq => ?_
  simp only [position, heq, Nat.lt_irrefl] at hlt

/-- In every run from a new buffer, frames come out in strictly increasing position, no sequence
twice, each as it was last accepted; and every accepted frame is returned exactly once, still
stored, or passed by an explicit skip made after its push. -/
theorem jitter_delivers_in_order (capacity : UInt32) (jb : JitterBuffer)
    (hnew : JitterBuffer.new capacity = some jb) (ops : List Op)
    (hadvance : ((History.start jb).run ops).advanced < 2 ^ 32 - capacity.toNat) :
    let h := (History.start jb).run ops
    (returned h.trace).Pairwise
        (fun left right => position h.trace left < position h.trace right) ∧
      ((returned h.trace).map Frame.sequence).Nodup ∧
      (∀ pre frame post, h.trace = pre ++ Event.popped (some frame) :: post →
        lastAccepted pre frame.sequence = some frame) ∧
      (∀ pre frame post, h.trace = pre ++ Event.pushed frame true :: post →
        ((returned h.trace).map Frame.sequence).count frame.sequence = 1 ∨
          (h.buffer.lookup frame.sequence).isSome ∨
          ∃ start count, Event.skipped start count ∈ post ∧
            ahead frame.sequence start < count.toNat) := by
  have sound := sound_run (sound_start hnew) ops (Nat.lt_of_lt_of_le hadvance (Nat.sub_le _ _))
  refine ⟨sound.sorted, nodup_returned sound, sound.faithful, ?_⟩
  intro pre frame post htrace
  rcases sound.accounted pre frame post htrace with ⟨done, hdone, hsame⟩ | hrest
  · left
    rw [List.count_eq_one_of_mem (nodup_returned sound)]
    exact List.mem_map.mpr ⟨done, hdone, hsame⟩
  · exact .inr hrest

private def emptyOfSixteen : JitterBuffer :=
  ⟨16, List.replicate 16 Slot.empty, 0, false, by decide, rfl⟩

private def acrossTheWrap : List Op :=
  [.push ⟨0xFFFFFFFE, 0, [1]⟩, .push ⟨0, 40000, [3]⟩, .push ⟨0xFFFFFFFF, 20000, [2]⟩,
    .push ⟨1, 60000, [4]⟩, .pop, .pop, .pop, .skip 1, .pop]

/-- Four frames across the wrap of the counter, two of them in the wrong order; the last one is
skipped. -/
theorem jitter_delivers_in_order_wrap :
    let h := (History.start emptyOfSixteen).run acrossTheWrap
    returned h.trace = [⟨0xFFFFFFFE, 0, [1]⟩, ⟨0xFFFFFFFF, 20000, [2]⟩, ⟨0, 40000, [3]⟩] ∧
      (returned h.trace).Pairwise
        (fun left right => position h.trace left < position h.trace right) ∧
      ((returned h.trace).map Frame.sequence).Nodup ∧
      (∀ pre frame post, h.trace = pre ++ Event.popped (some frame) :: post →
        lastAccepted pre frame.sequence = some frame) ∧
      ∀ pre frame post, h.trace = pre ++ Event.pushed frame true :: post →
        ((returned h.trace).map Frame.sequence).count frame.sequence = 1 ∨
          (h.buffer.lookup frame.sequence).isSome ∨
          ∃ start count, Event.skipped start count ∈ post ∧
            ahead frame.sequence start < count.toNat :=
  ⟨by decide, jitter_delivers_in_order 16 emptyOfSixteen rfl acrossTheWrap (by decide)⟩

end GravitalTalk.Transport.JitterBuffer
