import GravitalTalk.Ffi.RecvAudio
import GravitalTalk.Lib.Trace

/-! Runs of calls that receive audio, with buffers that may be too small.  Each call goes on where the
one before stopped to receive; time and what the transport brings do not depend on the buffers. -/
namespace GravitalTalk.Ffi
open Lib GravitalTalk.Core Transport

/-- A look of `recv_audio` at the jitter buffer and the clock, with what the short wait after it
brings.  A call that begins here counts its deadline from `startUs`. -/
structure Round where
  startUs : UInt64
  tick : Session.Tick

/-- The rounds that `recv_audio` leaves to the next call: where it finds a frame it does not wait. -/
def roundsLeft (aead : Aead) (deadlineUs : UInt64) (self : Session) : List Round → List Round
  | [] => []
  | round :: rounds =>
    match self.jitter.popWithDeadline round.tick.nowUs deadlineUs with
    | (some _, _) => round :: rounds
    | (none, jitter) =>
      let self := { self with jitter := jitter }
      if round.tick.nowUs ≥ deadlineUs then
        roundsLeft aead (round.tick.nowUs + self.skipUs) self rounds
      else
        match round.tick.event with
        | .timeout => roundsLeft aead deadlineUs self rounds
        | .failed _ => rounds
        | .datagram datagram =>
          let step := self.processDatagram aead round.tick.env datagram
          match step.result with
          | .error _ => rounds
          | .ok () => roundsLeft aead deadlineUs step.session rounds

structure World where
  session : Session
  rounds : List Round

structure Buffer where
  buf : Bytes
  cap : Nat
  cap_le : cap ≤ buf.length

def Buffer.ofSize (room : Nat) : Buffer :=
  ⟨List.replicate room 0, room, Nat.le_of_eq List.length_replicate.symm⟩

def Buffer.call (buffer : Buffer) (rounds : List Round) : Call where
  buf := buffer.buf
  cap := buffer.cap
  cap_le := buffer.cap_le
  startUs := (rounds.head?.map Round.startUs).getD 0
  ticks := rounds.map Round.tick

section Runs
variable (aead : Aead)

/-- A call that has not returned leaves no rounds, and no call returns without. -/
def exec (world : World) (buffer : Buffer) : World × Returned :=
  let call := buffer.call world.rounds
  let returned := call.run aead world.session
  (⟨returned.handle.getD world.session,
    roundsLeft aead (call.startUs + world.session.skipUs) world.session world.rounds⟩, returned)

abbrev Step := Trace.Event World Buffer Returned

def callOf (s : Step) : Call := s.input.call s.before.rounds

def taken (s : Step) : Option Bytes := ((callOf s).frame aead s.before.session).map Frame.payload

def HasRoom (s : Step) : Prop := (callOf s).Fits aead s.before.session

def deliveredBytes (steps : List Step) : List Bytes := steps.filterMap fun s => s.answer.delivered

def takenBytes (steps : List Step) : List Bytes := steps.filterMap (taken aead)

/-- The buffers of a run without those that it reports as too small. -/
def sufficient (steps : List Step) : List Buffer :=
  (steps.filter fun s => s.answer.status ≠ some .bufferTooSmall).map Trace.Event.input

end Runs

theorem filterMap_eq_filterMap_iff {α β : Type} {f g : α → Option β} {items : List α}
    (h : ∀ a ∈ items, f a = none ∨ f a = g a) :
    items.filterMap f = items.filterMap g ↔ ∀ a ∈ items, f a = g a := by
  refine ⟨?_, List.filterMap_congr⟩
  have hlen : ∀ {rest : List α}, (∀ a ∈ rest, f a = none ∨ f a = g a) →
      (rest.filterMap f).length ≤ (rest.filterMap g).length := by
    intro rest
    induction rest with
    | nil => exact fun _ => le_rfl
    | cons a rest ih =>
      intro hrest
      have htail := ih fun b hb => hrest b (List.mem_cons_of_mem a hb)
      rcases hrest a List.mem_cons_self with hnone | hsame
      · rw [List.filterMap_cons_none hnone, List.filterMap_cons]
        cases g a with
        | none => exact htail
        | some b => exact Nat.le_succ_of_le htail
      · rw [List.filterMap_cons, List.filterMap_cons, hsame]
        cases g a with
        | none => exact htail
        | some b => exact Nat.succ_le_succ htail
  induction items with
  | nil => intro _ a ha; cases ha
  | cons a items ih =>
    have htail := fun b hb => h b (List.mem_cons_of_mem a hb)
    intro heq
    have hhead : f a = g a := by
      rcases h a List.mem_cons_self with hnone | hsame
      · cases hg : g a with
        | none => exact hnone
        | some b =>
          rw [List.filterMap_cons_none hnone, List.filterMap_cons_some hg] at heq
          have hle := hlen htail
          rw [heq, List.length_cons] at hle
          omega
      · exact hsame
    have hrest : items.filterMap f = items.filterMap g := by
      rw [List.filterMap_cons, List.filterMap_cons, hhead] at heq
      cases hg : g a with
      | none => simpa only [hg] using heq
      | some b => exact (List.cons.inj (by simpa only [hg] using heq)).2
    intro b hb
    rcases List.mem_cons.mp hb with rfl | hb
    · exact hhead
    · exact ih htail hrest b hb

section Runs
variable {aead : Aead} {world : World} {buffers : List Buffer}

theorem answer_eq_run {s : Step} (hs : s ∈ Trace.history (exec aead) world buffers) :
    s.answer = (callOf s).run aead s.before.session :=
  congrArg Trace.Event.answer (Trace.eq_event_of_mem_history hs)

theorem answer_cases {s : Step} (hs : s ∈ Trace.history (exec aead) world buffers) :
    s.answer.delivered = none ∨ s.answer.delivered = taken aead s := by
  rw [answer_eq_run hs]
  change (callOf s).delivered aead s.before.session = none ∨
    (callOf s).delivered aead s.before.session = ((callOf s).frame aead s.before.session).map Frame.payload
  cases hframe : (callOf s).frame aead s.before.session with
  | none => exact .inl (Call.delivered_of_frame_none hframe)
  | some frame =>
    rw [Call.delivered_of_frame hframe]
    split_ifs
    · exact .inl rfl
    · exact .inr rfl

theorem answer_eq_taken_iff {s : Step} (hs : s ∈ Trace.history (exec aead) world buffers) :
    s.answer.delivered = taken aead s ↔ HasRoom aead s := by
  rw [answer_eq_run hs, HasRoom, Call.Fits]
  change (callOf s).delivered aead s.before.session =
    ((callOf s).frame aead s.before.session).map Frame.payload ↔ _
  cases hframe : (callOf s).frame aead s.before.session with
  | none =>
    rw [Call.delivered_of_frame_none hframe]
    exact iff_of_true rfl fun frame h => by cases h
  | some frame =>
    rw [Call.delivered_of_frame hframe]
    by_cases hcap : frame.payload.length > (callOf s).cap
    · rw [if_pos hcap]
      exact iff_of_false (fun h => by cases h) fun h => absurd (h frame rfl) (not_le.mpr hcap)
    · rw [if_neg hcap]
      refine iff_of_true rfl fun handed h => ?_
      obtain rfl := Option.some.inj h
      exact not_lt.mp hcap

theorem deliveredBytes_eq_iff (aead : Aead) (world : World) (buffers : List Buffer) :
    deliveredBytes (Trace.history (exec aead) world buffers) =
        takenBytes aead (Trace.history (exec aead) world buffers) ↔
      ∀ s ∈ Trace.history (exec aead) world buffers, HasRoom aead s := by
  rw [deliveredBytes, takenBytes, filterMap_eq_filterMap_iff fun s hs => answer_cases hs]
  exact forall₂_congr fun s hs => answer_eq_taken_iff hs

theorem sufficient_of_fits (h : ∀ s ∈ Trace.history (exec aead) world buffers, HasRoom aead s) :
    sufficient (Trace.history (exec aead) world buffers) = buffers := by
  have hall : (Trace.history (exec aead) world buffers).filter
      (fun s => s.answer.status ≠ some .bufferTooSmall) =
        Trace.history (exec aead) world buffers := by
    refine List.filter_eq_self.mpr fun s hs => ?_
    rw [decide_eq_true_iff, answer_eq_run hs]
    intro hsmall
    obtain ⟨frame, hframe, hlong⟩ := Call.status_tooSmall_iff.mp hsmall
    exact absurd (h s hs frame hframe) (not_le.mpr hlong)
  rw [sufficient, hall, Trace.map_input_history]

def frames (aead : Aead) (world : World) (n : Nat) : List Bytes :=
  takenBytes aead (Trace.history (exec aead) world (List.replicate n (.ofSize 0)))

theorem exec_fst (buffer other : Buffer) : (exec aead world buffer).1 = (exec aead world other).1 := by
  rw [exec, exec, Call.run_handle, Call.run_handle]
  rfl

theorem takenBytes_history (buffers : List Buffer) :
    takenBytes aead (Trace.history (exec aead) world buffers) =
      frames aead world buffers.length := by
  rw [frames, ← List.map_const', takenBytes, takenBytes]
  refine (Trace.filterMap_history_map ?_ ?_ world buffers).symm
  · exact fun world buffer => exec_fst _ _
  · exact fun world buffer => rfl

theorem final_replicate (buffers : List Buffer) :
    Trace.final (exec aead) world buffers =
      Trace.final (exec aead) world (List.replicate buffers.length (.ofSize 0)) := by
  induction buffers generalizing world with
  | nil => rfl
  | cons buffer rest ih =>
    rw [Trace.final, ih, List.length_cons, List.replicate_succ, Trace.final,
      exec_fst buffer (.ofSize 0)]

theorem frames_add (world : World) (m n : Nat) :
    frames aead world (m + n) = frames aead world m ++
      frames aead (Trace.final (exec aead) world (List.replicate m (.ofSize 0))) n := by
  rw [frames, List.replicate_add, Trace.history_append, takenBytes, List.filterMap_append]
  rfl

def filled (jitter : JitterBuffer) : Nat := jitter.slots.countP Slot.occupied

theorem filled_pop {jitter after : JitterBuffer} {frame : Frame}
    (hpop : jitter.pop = (some frame, after)) : filled after < filled jitter := by
  unfold JitterBuffer.pop at hpop
  dsimp only at hpop
  split_ifs at hpop with hprimed hempty hother
  · cases hpop
  · cases hpop
  · cases hpop
  injection hpop with hframe hafter
  subst hafter
  rw [Bool.not_eq_true', Bool.not_eq_false, JitterBuffer.slotAt,
    List.getD_eq_getElem?_getD] at hempty
  have hlt : jitter.slotIdx jitter.nextSeq < jitter.slots.length := by
    by_contra hge
    rw [List.getElem?_eq_none (Nat.not_lt.mp hge)] at hempty
    cases hempty
  rw [List.getElem?_eq_getElem hlt, Option.getD_some] at hempty
  have hpos : 0 < jitter.slots.countP Slot.occupied :=
    List.countP_pos_iff.mpr ⟨_, List.getElem_mem hlt, hempty⟩
  have hcount := @List.countP_set _ Slot.occupied jitter.slots _
    { jitter.slotAt (jitter.slotIdx jitter.nextSeq) with occupied := false, frame := none } hlt
  rw [if_pos hempty, if_neg (by simp)] at hcount
  rw [filled, filled]
  exact hcount.trans_lt (by omega)

theorem length_roundsLeft (aead : Aead) (deadlineUs : UInt64) (self : Session)
    (rounds : List Round) : (roundsLeft aead deadlineUs self rounds).length ≤ rounds.length := by
  induction rounds generalizing deadlineUs self with
  | nil => exact le_rfl
  | cons round rounds ih =>
    unfold roundsLeft
    split
    · exact le_rfl
    · dsimp only
      rw [List.length_cons]
      split_ifs
      · exact (ih _ _).trans (Nat.le_succ _)
      · split
        · exact (ih _ _).trans (Nat.le_succ _)
        · exact Nat.le_succ _
        · split
          · exact Nat.le_succ _
          · exact (ih _ _).trans (Nat.le_succ _)

theorem roundsLeft_cases (aead : Aead) (deadlineUs : UInt64) (self : Session) (round : Round)
    (rounds : List Round) :
    (roundsLeft aead deadlineUs self (round :: rounds)).length < (round :: rounds).length ∨
      roundsLeft aead deadlineUs self (round :: rounds) = round :: rounds ∧
        filled (Session.recvLoop aead deadlineUs self
          ((round :: rounds).map Round.tick)).session.jitter < filled self.jitter := by
  rw [List.map_cons, roundsLeft, Session.recvLoop]
  cases hpop : self.jitter.pop.1 with
  | some frame =>
    have hlook : self.jitter.popWithDeadline round.tick.nowUs deadlineUs =
        (some frame, self.jitter.pop.2) := by
      rw [JitterBuffer.popWithDeadline, ← Prod.mk.eta (p := self.jitter.pop), hpop]
    rw [hlook]
    exact .inr ⟨rfl, filled_pop (Prod.ext hpop rfl)⟩
  | none =>
    left
    rw [← Prod.mk.eta (p := self.jitter.popWithDeadline _ _), Call.popWithDeadline_fst, hpop]
    dsimp only
    rw [List.length_cons]
    split_ifs
    · exact Nat.lt_succ_of_le (length_roundsLeft _ _ _ _)
    · split
      · exact Nat.lt_succ_of_le (length_roundsLeft _ _ _ _)
      · exact Nat.lt_succ_self _
      · split
        · exact Nat.lt_succ_self _
        · exact Nat.lt_succ_of_le (length_roundsLeft _ _ _ _)

theorem exec_decreases (h : world.rounds ≠ []) (buffer : Buffer) :
    Prod.Lex (· < ·) (· < ·)
      ((exec aead world buffer).1.rounds.length, filled (exec aead world buffer).1.session.jitter)
      (world.rounds.length, filled world.session.jitter) := by
  obtain ⟨session, rounds⟩ := world
  cases rounds with
  | nil => exact absurd rfl h
  | cons round rounds =>
    have hsession : (exec aead ⟨session, round :: rounds⟩ buffer).1.session =
        ((buffer.call (round :: rounds)).audio aead session).session := by
      rw [exec, Call.run_handle]
      rfl
    rw [hsession]
    obtain hfewer | ⟨hsame, hfilled⟩ := roundsLeft_cases aead
      (round.startUs + session.skipUs) session round rounds
    · exact .left _ _ hfewer
    · have hrounds : (exec aead ⟨session, round :: rounds⟩ buffer).1.rounds = round :: rounds := hsame
      rw [hrounds]
      exact .right _ hfilled

theorem exists_stalled (aead : Aead) (world : World) :
    ∃ n, (Trace.final (exec aead) world (List.replicate n (.ofSize 0))).rounds = [] := by
  by_cases hrounds : world.rounds = []
  · exact ⟨0, hrounds⟩
  · obtain ⟨n, hn⟩ := exists_stalled aead (exec aead world (.ofSize 0)).1
    exact ⟨n + 1, hn⟩
termination_by (world.rounds.length, filled world.session.jitter)
decreasing_by exact exec_decreases hrounds _

theorem frames_stalled (h : world.rounds = []) (n : Nat) : frames aead world n = [] := by
  obtain ⟨session, rounds⟩ := world
  subst h
  induction n with
  | zero => rfl
  | succ n ih =>
    have hstays : (exec aead ⟨session, []⟩ (.ofSize 0)).1 = ⟨session, []⟩ := rfl
    have hone : frames aead ⟨session, []⟩ 1 = [] := rfl
    rw [Nat.add_comm, frames_add, hone, List.nil_append]
    change frames aead (exec aead ⟨session, []⟩ (.ofSize 0)).1 n = []
    rw [hstays, ih]

theorem exists_frames_eq (aead : Aead) (world : World) :
    ∃ all n, ∀ m, frames aead world (n + m) = all := by
  obtain ⟨n, hn⟩ := exists_stalled aead world
  refine ⟨frames aead world n, n, fun m => ?_⟩
  rw [frames_add, frames_stalled hn, List.append_nil]

theorem mem_frames {all : List Bytes} {n : Nat} (hall : ∀ m, frames aead world (n + m) = all)
    {s : Step} (hs : s ∈ Trace.history (exec aead) world buffers) {frame : Frame}
    (hframe : (callOf s).frame aead s.before.session = some frame) : frame.payload ∈ all := by
  have htaken : taken aead s = some frame.payload := by rw [taken, hframe, Option.map_some]
  have hmem : frame.payload ∈ frames aead world buffers.length := by
    rw [← takenBytes_history]
    exact List.mem_filterMap.mpr ⟨s, hs, htaken⟩
  rw [← hall buffers.length, Nat.add_comm, frames_add]
  exact List.mem_append_left _ hmem

theorem hasRoom_of_le {all : List Bytes} {n : Nat} (hall : ∀ m, frames aead world (n + m) = all)
    {s : Step} (hs : s ∈ Trace.history (exec aead) world buffers)
    (hcap : all.flatten.length ≤ s.input.cap) : HasRoom aead s := by
  intro frame hframe
  exact (List.sublist_flatten_of_mem (mem_frames hall hs hframe)).length_le.trans hcap

theorem hasRoom_append {all : List Bytes} {n room : Nat} (more : Nat)
    (hall : ∀ m, frames aead world (n + m) = all) (hroom : all.flatten.length ≤ room)
    (h : ∀ s ∈ Trace.history (exec aead) world buffers, HasRoom aead s) :
    ∀ s ∈ Trace.history (exec aead) world (buffers ++ List.replicate more (.ofSize room)),
      HasRoom aead s := by
  intro s hs
  have hmem := hs
  rw [Trace.history_append] at hmem
  obtain hbuffers | hmore := List.mem_append.mp hmem
  · exact h s hbuffers
  · apply hasRoom_of_le hall hs
    rw [List.eq_of_mem_replicate (Trace.mem_of_mem_history hmore)]
    exact hroom

/-- The calls that a run reports as sufficient, each with room enough, and so many more. -/
def alone (room more : Nat) (steps : List Step) : List Buffer :=
  (sufficient steps).map (fun _ => .ofSize room) ++ List.replicate more (.ofSize room)

theorem alone_eq (room more : Nat) (steps : List Step) :
    alone room more steps = List.replicate ((sufficient steps).length + more) (.ofSize room) := by
  rw [alone, List.map_const', List.replicate_add]

/-- What follows a frame that was lost is delivered in its place, until nothing follows. -/
theorem lossless_iff {all : List Bytes} {n room : Nat}
    (hall : ∀ m, frames aead world (n + m) = all) (hroom : all.flatten.length ≤ room)
    (buffers : List Buffer) :
    (∀ more, deliveredBytes (Trace.history (exec aead) world
        (buffers ++ List.replicate more (.ofSize room))) =
      deliveredBytes (Trace.history (exec aead) world
        (alone room more (Trace.history (exec aead) world buffers)))) ↔
      ∀ s ∈ Trace.history (exec aead) world buffers, HasRoom aead s := by
  have halone : ∀ more, deliveredBytes (Trace.history (exec aead) world
      (alone room more (Trace.history (exec aead) world buffers))) =
        frames aead world ((sufficient (Trace.history (exec aead) world buffers)).length + more) := by
    intro more
    have hroomy := @hasRoom_append aead world [] all n room
      ((sufficient (Trace.history (exec aead) world buffers)).length + more) hall hroom
      (fun s hs => by cases hs)
    rw [List.nil_append] at hroomy
    rw [alone_eq, (deliveredBytes_eq_iff aead world _).mpr hroomy, takenBytes_history,
      List.length_replicate]
  constructor
  · intro h
    have hlast := h n
    rw [halone, Nat.add_comm, hall, Trace.history_append, deliveredBytes, List.filterMap_append]
      at hlast
    have htail : deliveredBytes (Trace.history (exec aead) (Trace.final (exec aead) world buffers)
        (List.replicate n (.ofSize room))) =
          frames aead (Trace.final (exec aead) world buffers) n := by
      have hfits : ∀ s ∈ Trace.history (exec aead) (Trace.final (exec aead) world buffers)
          (List.replicate n (.ofSize room)), HasRoom aead s := by
        intro s hs
        have hwhole : s ∈ Trace.history (exec aead) world
            (buffers ++ List.replicate n (.ofSize room)) := by
          rw [Trace.history_append]
          exact List.mem_append_right _ hs
        apply hasRoom_of_le hall hwhole
        rw [List.eq_of_mem_replicate (Trace.mem_of_mem_history hs)]
        exact hroom
      rw [(deliveredBytes_eq_iff aead _ _).mpr hfits, takenBytes_history, List.length_replicate]
    have hsplit : frames aead world buffers.length ++
        frames aead (Trace.final (exec aead) world buffers) n = all := by
      rw [final_replicate, ← frames_add, Nat.add_comm, hall]
    rw [← hsplit] at hlast
    apply (deliveredBytes_eq_iff aead world buffers).mp
    rw [takenBytes_history]
    exact List.append_cancel_right (htail ▸ hlast)
  · intro h more
    rw [halone, sufficient_of_fits h,
      (deliveredBytes_eq_iff aead world _).mpr (hasRoom_append more hall hroom h),
      takenBytes_history, List.length_append, List.length_replicate]

end Runs

/-- A frame is kept for the next call exactly if it fits, or if the one behind it has the same bytes and
cannot be told from it.  And a run of calls, however it goes on with sufficient ones, delivers the same
frames in the same order as its sufficient calls alone exactly if no call is too small for its frame. -/
theorem recv_audio_lossless_iff (aead : Aead) (session : Session) :
    (∀ call : Call, call.Kept aead session ↔ ∀ frame, call.frame aead session = some frame →
      frame.payload.length ≤ call.cap ∨
        Call.Repeated (call.audio aead session).session frame.payload) ∧
    ∀ rounds : List Round, ∃ enough, ∀ room, enough ≤ room → ∀ buffers : List Buffer,
      (∀ more, ∀ s ∈ Trace.history (exec aead) ⟨session, rounds⟩
        (alone room more (Trace.history (exec aead) ⟨session, rounds⟩ buffers)), HasRoom aead s) ∧
      ((∀ more, deliveredBytes (Trace.history (exec aead) ⟨session, rounds⟩
          (buffers ++ List.replicate more (.ofSize room))) =
        deliveredBytes (Trace.history (exec aead) ⟨session, rounds⟩
          (alone room more (Trace.history (exec aead) ⟨session, rounds⟩ buffers)))) ↔
        ∀ s ∈ Trace.history (exec aead) ⟨session, rounds⟩ buffers, HasRoom aead s) := by
  refine ⟨fun call => Call.kept_iff, fun rounds => ?_⟩
  obtain ⟨all, n, hall⟩ := exists_frames_eq aead ⟨session, rounds⟩
  refine ⟨all.flatten.length, fun room hroom buffers => ⟨fun more s hs => ?_, ?_⟩⟩
  · apply hasRoom_of_le hall hs
    rw [alone_eq] at hs
    rw [List.eq_of_mem_replicate (Trace.mem_of_mem_history hs)]
    exact hroom
  · exact lossless_iff hall hroom buffers

end GravitalTalk.Ffi
