import GravitalTalk.Transport.ClosingMoves

/-! When `close` is final: the keys are gone, the state is Closed for good, and `recv_audio` returns. -/
namespace GravitalTalk.Transport.Closing
open Lib GravitalTalk.Core Transition Handshake

variable {Task : Type} [DecidableEq Task]

/-- Where the first part of an iteration of `recv_audio` led; `late` if the flag was set when it
began. -/
structure Iteration where
  late : Bool
  place : Place

def Iteration.ReturnsError (self : Iteration) : Prop :=
  ∃ e, self.place = .returned (.audio (.error e))

def iterations (st : State Task) (label : Label Task) (st' : State Task) : List Iteration :=
  match label with
  | .moves task _ =>
    match st.place task with
    | .recvTop _ => [⟨st.session.closed, st'.place task⟩]
    | _ => []
  | _ => []

abbrev Run (Task : Type) := Logged (State Task) Iteration

/-- `close` and every call made so far have returned. -/
def State.Settled (st : State Task) : Prop :=
  st.close = .returned ∧ ∀ task, st.place task = .start ∨ ∃ answer, st.place task = .returned answer

def Closes : SessionState → Prop
  | .handshaking | .active | .paused | .closing | .closed => True
  | .idle | .error | .reconnecting => False

def ClosePlace.EncryptCleared : ClosePlace → Prop
  | .start | .lockEncrypt => False
  | _ => True

def ClosePlace.DecryptCleared : ClosePlace → Prop
  | .start | .lockEncrypt | .lockDecrypt => False
  | _ => True

/-- `close` finds a state it can close, no handshake stores a key after `close` has cleared it, and
no iteration of `recv_audio` begins with the flag set. -/
def Orderly (st : State Task) : Label Task → Prop
  | .close => st.close = .lockState → Closes st.session.state.state
  | .moves task _ =>
    ((st.place task).StoresEncrypt → ¬st.close.EncryptCleared) ∧
      ((st.place task).StoresDecrypt → ¬st.close.DecryptCleared) ∧
        ∀ deadlineUs, st.place task = .recvTop deadlineUs → st.session.closed = false
  | .expires _ => True

structure Inv (st : State Task) : Prop where
  closed : st.close ≠ .start → st.session.closed = true
  encryptKey : st.close.EncryptCleared → st.session.encryptKey = none
  decryptKey : st.close.DecryptCleared → st.session.decryptKey = none
  alone : ∀ i j, (st.place i).Driving → (st.place j).Driving → i = j
  begun : ∀ i, (st.place i).Driving → Begun st.session.state.state
  state : st.close = .returned → st.session.state.state = .closed ∨
    st.session.state.state = .handshaking ∧ ∃ i, (st.place i).Leaving
  fixed : ∀ i s, st.place i = .server s ∨ st.place i = .attempt s → Fixed s

theorem stores_driving {place : Place} (h : place.StoresEncrypt ∨ place.StoresDecrypt) :
    place.Driving := by
  cases place <;> simp_all [Place.StoresEncrypt, Place.StoresDecrypt, Place.Driving]

section Runs
variable {suite : Suite} {aead : Aead} {calls : Task → Call} {session : Session} {st st' : State Task}

omit [DecidableEq Task] in
theorem Inv.init (session : Session) : Inv (State.init session : State Task) where
  closed h := absurd rfl h
  encryptKey := nofun
  decryptKey := nofun
  alone := nofun
  begun := nofun
  state := nofun
  fixed i s h := by obtain h | h := h <;> cases h

theorem Inv.goto (h : Inv st) {task : Task} {move : Move}
    (hfair : Fair st.session (st.place task) move)
    (hencrypt : st.close.EncryptCleared → move.session.encryptKey = st.session.encryptKey)
    (hdecrypt : st.close.DecryptCleared → move.session.decryptKey = st.session.decryptKey) :
    Inv (st.goto task move) := by
  have hself := st.goto_self task move
  have hother : ∀ i, i ≠ task → (st.goto task move).place i = st.place i := fun i hi =>
    st.goto_other hi move
  have hdrives := hfair.effect.drives
  refine ⟨fun hstarted => hfair.closed.trans (h.closed hstarted), fun hcleared => ?_,
    fun hcleared => ?_, fun i j hi hj => ?_, fun i hi => ?_, fun hreturned => ?_, ?_⟩
  · exact (hencrypt hcleared).trans (h.encryptKey hcleared)
  · exact (hdecrypt hcleared).trans (h.decryptKey hcleared)
  · -- a call that starts its handshake finds no other in one
    have hkey : ∀ k, k ≠ task → (st.place k).Driving → move.place.Driving → k = task := by
      intro k _ hk hmove
      obtain hdriving | ⟨hidle, -⟩ := hdrives hmove
      · exact h.alone k task hk hdriving
      · exact absurd (h.begun k hk) hidle
    by_cases hit : i = task
    · by_cases hjt : j = task
      · rw [hit, hjt]
      · rw [hit, hself] at hi
        rw [hother j hjt] at hj
        rw [hit, hkey j hjt hj hi]
    · rw [hother i hit] at hi
      by_cases hjt : j = task
      · rw [hjt, hself] at hj
        rw [hjt, hkey i hit hi hj]
      · rw [hother j hjt] at hj
        exact h.alone i j hi hj
  · by_cases hit : i = task
    · rw [hit, hself] at hi
      obtain hdriving | ⟨-, hbegun⟩ := hdrives hi
      · exact hfair.effect.begun (h.begun task hdriving)
      · exact hbegun
    · rw [hother i hit] at hi
      exact hfair.effect.begun (h.begun i hi)
  · have hclosed : st.session.closed = true := h.closed fun hstart => by
      have hreturned : st.close = .returned := hreturned
      rw [hstart] at hreturned
      cases hreturned
    obtain hstate | ⟨hstate, i, hleaving⟩ := h.state hreturned
    · obtain hstays | ⟨hagain, hleaving⟩ := hfair.effect.stays hstate
      · exact .inl hstays
      · exact .inr ⟨hagain, task, hself ▸ hleaving⟩
    · by_cases hit : i = task
      · rw [hit] at hleaving
        obtain hstays | ⟨hagain, hleaving⟩ := hfair.effect.leaving hleaving hclosed hstate
        · exact .inl hstays
        · exact .inr ⟨hagain, task, hself ▸ hleaving⟩
      · have hbystander : ¬(st.place task).Driving := fun hdriving =>
          hit (h.alone i task hleaving.driving hdriving)
        exact .inr ⟨hfair.effect.bystander hbystander hstate, i, hother i hit ▸ hleaving⟩
  · intro i s hs
    by_cases hit : i = task
    · rw [hit, hself] at hs
      exact hfair.fixed s hs
    · rw [hother i hit] at hs
      exact h.fixed i s hs

theorem expires_fair {place place' : Place} (h : place.expires = some place') :
    Fair session place ⟨place', session, []⟩ := by
  cases place <;> cases h
  all_goals
    exact .plain ⟨rfl, rfl, fun _ => rfl, fun _ => rfl⟩ (.quiet _ (fun _ => trivial) nofun) trivial

theorem expires_driving {place place' : Place} (h : place.expires = some place') :
    place.Driving := by
  cases place <;> cases h <;> trivial

/-- What a step of `close` does to what the calls rely on. -/
structure ClosesWell (session : Session) (close : ClosePlace) (session' : Session)
    (close' : ClosePlace) : Prop where
  closed : close' ≠ .start → session'.closed = true
  encryptKey : close'.EncryptCleared → session'.encryptKey = none
  decryptKey : close'.DecryptCleared → session'.decryptKey = none
  begun : Begun session.state.state → Begun session'.state.state
  state : close' = .returned → close ≠ .returned → session'.state.state = .closed
  rests : close = .returned → session'.state.state = session.state.state

omit [DecidableEq Task] in
theorem closesWell (h : Inv st) (env : Env)
    (hcloses : st.close = .lockState → Closes st.session.state.state) :
    ClosesWell st.session st.close (closes env st.session st.close).2.1
      (closes env st.session st.close).1 := by
  have hclosed := h.closed
  have hencrypt := h.encryptKey
  have hdecrypt := h.decryptKey
  cases hat : st.close <;> simp only [hat] at hclosed hencrypt hdecrypt hcloses
  case start =>
    exact ⟨fun _ => rfl, False.elim, False.elim, id, by simp [closes], by simp⟩
  case lockEncrypt =>
    exact ⟨fun _ => hclosed (by simp), fun _ => rfl, False.elim, id, by simp [closes], by simp⟩
  case lockDecrypt =>
    exact ⟨fun _ => hclosed (by simp), fun _ => hencrypt trivial, fun _ => rfl, id,
      by simp [closes], by simp⟩
  case lockPeer =>
    simp only [closes]
    split
    · exact ⟨fun _ => hclosed (by simp), fun _ => hencrypt trivial, fun _ => hdecrypt trivial, id,
        by simp, by simp⟩
    · exact ⟨fun _ => hclosed (by simp), fun _ => hencrypt trivial, fun _ => hdecrypt trivial, id,
        by simp, by simp⟩
  case sendClose peer =>
    obtain ⟨hstate, hsame, hencrypt', hdecrypt'⟩ :=
      same_sendControl st.session env .close st.session.sessionId [] peer
    refine ⟨fun _ => hsame.trans (hclosed (by simp)), fun _ => hencrypt'.trans (hencrypt trivial),
      fun _ => hdecrypt'.trans (hdecrypt trivial), fun hbegun => ?_, by simp [closes], by simp⟩
    simp only [closes]
    rw [hstate]
    exact hbegun
  case lockState =>
    have hends : (applies (applies st.session .close) .close).state.state = .closed := by
      have hcloses := hcloses trivial
      simp only [applies, transition_state]
      cases hstate : st.session.state.state <;> simp only [hstate] at hcloses
      case idle => exact hcloses.elim
      case error => exact hcloses.elim
      case reconnecting => exact hcloses.elim
      all_goals rfl
    refine ⟨fun _ => hclosed (by simp), fun _ => hencrypt trivial, fun _ => hdecrypt trivial,
      fun _ => ?_, fun _ _ => hends, by simp⟩
    show Begun (applies (applies st.session .close) .close).state.state
    rw [hends]
    exact ⟨by simp, by simp⟩
  case returned =>
    exact ⟨fun _ => hclosed (by simp), fun _ => hencrypt trivial, fun _ => hdecrypt trivial, id,
      fun _ h => absurd rfl h, fun _ => rfl⟩

theorem Inv.step (h : Inv st) {label : Label Task} (hstep : Step suite aead calls st label st')
    (horderly : Orderly st label) : Inv st' := by
  cases hstep with
  | close env =>
    obtain ⟨hclosed, hencrypt, hdecrypt, hbegun, hstate, hrests⟩ := closesWell h env horderly
    refine ⟨hclosed, hencrypt, hdecrypt, h.alone, fun i hi => hbegun (h.begun i hi),
      fun hreturned => ?_, h.fixed⟩
    by_cases hat : st.close = .returned
    · rw [hrests hat]
      exact h.state hat
    · exact .inl (hstate hreturned hat)
  | moves task moment =>
    obtain ⟨hencrypt, hdecrypt, -⟩ := horderly
    have hfair : Fair st.session (st.place task)
        (moves suite aead moment st.session (calls task) (st.place task)) :=
      moves_fair (calls task) (h.fixed task)
    exact h.goto hfair (fun hcleared => hfair.encryptKey fun hstores => hencrypt hstores hcleared)
      fun hcleared => hfair.decryptKey fun hstores => hdecrypt hstores hcleared
  | @expires task place hexpires =>
    exact h.goto (expires_fair hexpires) (fun _ => rfl) fun _ => rfl

structure Final (st : State Task) : Prop where
  close : st.close = .returned
  state : st.session.state.state = .closed
  encryptKey : st.session.encryptKey = none
  decryptKey : st.session.decryptKey = none
  rests : ∀ i, ¬(st.place i).Driving

omit [DecidableEq Task] in
theorem Inv.final (h : Inv st) (hsettled : st.Settled) : Final st := by
  obtain ⟨hclose, hplace⟩ := hsettled
  have hrests : ∀ i, ¬(st.place i).Driving := fun i hdriving => by
    obtain hstart | ⟨answer, hreturned⟩ := hplace i
    · rw [hstart] at hdriving
      exact hdriving
    · rw [hreturned] at hdriving
      exact hdriving
  refine ⟨hclose, ?_, h.encryptKey (by rw [hclose]; trivial), h.decryptKey (by rw [hclose]; trivial),
    hrests⟩
  obtain hclosed | ⟨-, i, hleaving⟩ := h.state hclose
  · exact hclosed
  · exact absurd hleaving.driving (hrests i)

/-- From then on no call starts a handshake, whatever it is. -/
theorem Final.step (h : Final st) {label : Label Task} (hstep : Step suite aead calls st label st') :
    Final st' := by
  obtain ⟨hclose, hstate, hencrypt, hdecrypt, hrests⟩ := h
  cases hstep with
  | close env =>
    rw [hclose]
    exact ⟨rfl, hstate, hencrypt, hdecrypt, hrests⟩
  | moves task moment =>
    have hfair : Fair st.session (st.place task)
        (moves suite aead moment st.session (calls task) (st.place task)) := by
      refine moves_fair (calls task) fun s h => absurd ?_ (hrests task)
      obtain h | h := h <;> rw [h] <;> trivial
    have hidle : ¬(moves suite aead moment st.session (calls task) (st.place task)).place.Driving := by
      intro hdriving
      obtain h | ⟨h, -⟩ := hfair.effect.drives hdriving
      · exact hrests task h
      · exact h ⟨by rw [hstate]; nofun, by rw [hstate]; nofun⟩
    have hkeepsEncrypt := hfair.encryptKey fun h => hrests task (stores_driving (.inl h))
    have hkeepsDecrypt := hfair.decryptKey fun h => hrests task (stores_driving (.inr h))
    refine ⟨hclose, ?_, hkeepsEncrypt.trans hencrypt, hkeepsDecrypt.trans hdecrypt, fun i => ?_⟩
    · obtain hclosed | ⟨-, hleaving⟩ := hfair.effect.stays hstate
      · exact hclosed
      · exact absurd hleaving.driving hidle
    · by_cases hit : i = task
      · rw [hit, State.goto_self]
        exact hidle
      · rw [st.goto_other hit]
        exact hrests i
  | expires hexpires => exact absurd (expires_driving hexpires) (hrests _)

theorem iterates_no_error (moment : Moment) (session : Session) (deadlineUs : UInt64)
    (e : TransportError) :
    (iterates moment session deadlineUs).place ≠ .returned (.audio (.error e)) := by
  unfold iterates
  split
  · nofun
  · simp only
    split_ifs <;> nofun

theorem mem_iterations {label : Label Task} (hstep : Step suite aead calls st label st')
    {iteration : Iteration} (h : iteration ∈ iterations st label st') :
    ∃ task moment deadlineUs, label = .moves task moment ∧ st.place task = .recvTop deadlineUs ∧
      iteration = ⟨st.session.closed, (iterates moment st.session deadlineUs).place⟩ := by
  cases hstep with
  | close => cases h
  | expires => cases h
  | moves task moment =>
    simp only [iterations] at h
    cases hplace : st.place task with
    | recvTop deadlineUs =>
      simp only [hplace, State.goto_self] at h
      exact ⟨task, moment, deadlineUs, rfl, hplace, List.mem_singleton.mp h⟩
    | _ =>
      simp only [hplace] at h
      cases h

def LateReturns (log : List Iteration) : Prop :=
  ∀ iteration ∈ log, iteration.late = true → iteration.ReturnsError

theorem no_iteration_returns {allowed : Run Task → Label Task → Prop} {run : Run Task}
    (hrun : Reaches (LogStep (Step suite aead calls) iterations) allowed ⟨.init session, []⟩ run) :
    ∀ iteration ∈ run.log, ¬iteration.ReturnsError := by
  refine @Reaches.invariant _ _ _ _
    (fun run : Run Task => ∀ iteration ∈ run.log, ¬iteration.ReturnsError) _ _ hrun
    (fun _ hmem => by cases hmem) ?_
  rintro run label _ h ⟨hstep⟩ - iteration hmem
  obtain hold | hnew := List.mem_append.mp hmem
  · exact h iteration hold
  · obtain ⟨task, moment, deadlineUs, -, -, rfl⟩ := mem_iterations hstep hnew
    rintro ⟨e, he⟩
    exact iterates_no_error moment run.state.session deadlineUs e he

theorem orderly_not_late {run : Run Task}
    (hrun : Reaches (LogStep (Step suite aead calls) iterations) (fun run => Orderly run.state)
      ⟨.init session, []⟩ run) : ∀ iteration ∈ run.log, iteration.late = false := by
  refine @Reaches.invariant _ _ _ _
    (fun run : Run Task => ∀ iteration ∈ run.log, iteration.late = false) _ _ hrun
    (fun _ hmem => by cases hmem) ?_
  rintro run label _ h ⟨hstep⟩ horderly iteration hmem
  obtain hold | hnew := List.mem_append.mp hmem
  · exact h iteration hold
  · obtain ⟨task, moment, deadlineUs, rfl, hplace, rfl⟩ := mem_iterations hstep hnew
    exact horderly.2.2 deadlineUs hplace

/-- In a run whose steps all meet the condition `close` is final: once it and the calls made so far
have returned there are no keys and the session is closed, no later call makes it Active, and every
iteration of `recv_audio` that began with the flag set returned an error.  For this last part no
other run will do. -/
theorem close_final (suite : Suite) (aead : Aead) (calls : Task → Call) (session : Session)
    (run : Run Task) :
    (Reaches (LogStep (Step suite aead calls) iterations) (fun run => Orderly run.state)
        ⟨.init session, []⟩ run →
      (run.state.Settled → run.state.session.encryptKey = none ∧
        run.state.session.decryptKey = none ∧ run.state.session.state.state = .closed ∧
          ∀ later, Reaches (Step suite aead calls) (fun _ _ => True) run.state later →
            later.session.state.state ≠ .active) ∧
        LateReturns run.log) ∧
    (Reaches (LogStep (Step suite aead calls) iterations) (fun _ _ => True)
        ⟨.init session, []⟩ run →
      (LateReturns run.log ↔ ∀ iteration ∈ run.log, iteration.late = false)) := by
  have hvacuous : (∀ iteration ∈ run.log, iteration.late = false) → LateReturns run.log :=
    fun h iteration hmem hlate => absurd (h iteration hmem) (by simp [hlate])
  refine ⟨fun hrun => ⟨fun hsettled => ?_, hvacuous (orderly_not_late hrun)⟩, fun hrun => ?_⟩
  · have hinv := @Reaches.invariant _ _ _ _ (fun run : Run Task => Inv run.state) _ _ hrun
      (Inv.init session) fun _ _ _ h hstep horderly => by
        cases hstep with
        | log hstep => exact h.step hstep horderly
    have hfinal := hinv.final hsettled
    refine ⟨hfinal.encryptKey, hfinal.decryptKey, hfinal.state, fun later hlater => ?_⟩
    have hlast := hlater.invariant hfinal fun _ _ _ h hstep _ => h.step hstep
    rw [hlast.state]
    nofun
  · refine ⟨fun h iteration hmem => ?_, hvacuous⟩
    by_contra hlate
    exact no_iteration_returns hrun iteration hmem
      (h iteration hmem (Bool.not_eq_false _ ▸ hlate))

end Runs

section Alone
variable {suite : Suite} {aead : Aead} {calls : Task → Call} {st : State Task}
  {allowed : Run Task → Label Task → Prop} {start : Run Task} {log : List Iteration}

theorem moved (task : Task) (moment : Moment) (move : Move)
    (hrun : Reaches (LogStep (Step suite aead calls) iterations) allowed start ⟨st, log⟩)
    (hmove : moves suite aead moment st.session (calls task) (st.place task) = move)
    (hallowed : allowed ⟨st, log⟩ (.moves task moment)) {more : List Iteration}
    (hiterations : iterations st (.moves task moment) (st.goto task move) = more) :
    Reaches (LogStep (Step suite aead calls) iterations) allowed start
      ⟨st.goto task move, log ++ more⟩ := by
  have hstep := @Step.moves Task _ suite aead calls st task moment
  rw [hmove] at hstep
  exact hrun.tail (.logs hstep hiterations) hallowed

theorem close_step {next : ClosePlace} {session : Session}
    (hrun : Reaches (LogStep (Step suite aead calls) iterations) allowed start ⟨st, log⟩)
    (h : closes quietEnv st.session st.close = (next, session, []))
    (hallowed : allowed ⟨st, log⟩ .close) :
    Reaches (LogStep (Step suite aead calls) iterations) allowed start
      ⟨{ st with close := next, session := session }, log⟩ := by
  have hstep := @Step.close Task _ suite aead calls st quietEnv
  simp only [h, List.append_nil] at hstep
  exact hrun.tail (.silent hstep rfl) hallowed

theorem closes_alone
    (hrun : Reaches (LogStep (Step suite aead calls) iterations) allowed start ⟨st, log⟩)
    (hclose : st.close = .start) (hpeer : st.session.peer = none)
    (hallowed : ∀ u, u.session.state = st.session.state → allowed ⟨u, log⟩ .close) :
    Reaches (LogStep (Step suite aead calls) iterations) allowed start
      ⟨{ st with
        close := .returned
        session := applies (applies
          { st.session with closed := true, encryptKey := none, decryptKey := none } .close)
            .close }, log⟩ := by
  set flagged : Session := { st.session with closed := true }
  set erased : Session := { flagged with encryptKey := none }
  set cleared : Session := { erased with decryptKey := none }
  have hstart : closes quietEnv st.session st.close = (.lockEncrypt, flagged, []) := by
    rw [hclose]
    rfl
  have hpeerless : closes quietEnv cleared .lockPeer = (.lockState, cleared, []) := by
    simp only [closes, cleared, erased, flagged, hpeer]
  have hflag := close_step hrun hstart (hallowed _ rfl)
  have herase := close_step hflag (show _ = (.lockDecrypt, erased, []) from rfl) (hallowed _ rfl)
  have hclear := close_step herase (show _ = (.lockPeer, cleared, []) from rfl) (hallowed _ rfl)
  have hsilent := close_step hclear hpeerless (hallowed _ rfl)
  have hends : closes quietEnv cleared .lockState =
      (.returned, applies (applies cleared .close) .close, []) := rfl
  have hlast := close_step hsilent hends (hallowed _ rfl)
  exact hlast

theorem iterates_unprimed {moment : Moment} {session : Session} {deadlineUs : UInt64}
    (hprimed : session.jitter.primed = false) (hearly : ¬moment.nowUs ≥ deadlineUs) :
    iterates moment session deadlineUs = ⟨.recvWait deadlineUs, session, []⟩ := by
  have hpop : session.jitter.popWithDeadline moment.nowUs deadlineUs = (none, session.jitter) := by
    simp [JitterBuffer.popWithDeadline, JitterBuffer.pop, hprimed, hearly]
  simp only [iterates, hpop, hearly, if_false]

theorem recvAudio_waits (task : Task) (moment : Moment)
    (hrun : Reaches (LogStep (Step suite aead calls) iterations) allowed start ⟨st, log⟩)
    (hplace : st.place task = .start) (hcall : calls task = .recvAudio)
    (hprimed : st.session.jitter.primed = false)
    (hearly : ¬moment.nowUs ≥ moment.nowUs + st.session.skipUs)
    (hallowed : ∀ u, u.session = st.session → u.place task = .start ∨
      (∃ deadlineUs, u.place task = .recvTop deadlineUs) →
        allowed ⟨u, log⟩ (.moves task moment)) :
    ∃ deadlineUs, Reaches (LogStep (Step suite aead calls) iterations) allowed start
      ⟨(st.goto task ⟨.recvTop deadlineUs, st.session, []⟩).goto task
        ⟨.recvWait deadlineUs, st.session, []⟩,
        log ++ [⟨st.session.closed, .recvWait deadlineUs⟩]⟩ := by
  set deadlineUs := moment.nowUs + st.session.skipUs
  have hbegins := moved task moment ⟨.recvTop deadlineUs, st.session, []⟩ hrun
    (by rw [hplace, hcall]; rfl) (hallowed st rfl (.inl hplace))
    (show _ = [] by simp only [iterations, hplace])
  set begun := st.goto task ⟨.recvTop deadlineUs, st.session, []⟩
  have hbegun : begun.place task = .recvTop deadlineUs := st.goto_self task _
  have hwaits := moved task moment ⟨.recvWait deadlineUs, st.session, []⟩ hbegins
    (by rw [hbegun]; exact iterates_unprimed hprimed hearly)
    (by rw [List.append_nil]; exact hallowed begun rfl (.inr ⟨deadlineUs, hbegun⟩))
    (show _ = [⟨st.session.closed, .recvWait deadlineUs⟩] by
      simp only [iterations, hbegun, State.goto_self]; rfl)
  rw [List.append_nil] at hwaits
  exact ⟨deadlineUs, hwaits⟩

end Alone

private def blankSuite : Suite where
  publicKey _ := Vector.replicate 32 0
  diffieHellman _ _ := Vector.replicate 32 0
  hkdf n _ _ _ := Vector.replicate n 0

private def bringing (event : RecvEvent) : Moment :=
  ⟨0, event, quietEnv, ⟨Vector.replicate 32 0, Vector.replicate 32 0, 0⟩⟩

/-- A new session on which `handshake_open` and `recv_audio` are called. -/
private def twoCalls : Bool → Call
  | true => .handshakeOpen
  | false => .recvAudio

private def opened : Session := { Session.ofDefault with state := ⟨.handshaking⟩ }

private def awaiting : Server := { anyServer opened with pc := .awaitHello }

private def ended : Session :=
  applies (applies { opened with closed := true, encryptKey := none, decryptKey := none } .close) .close

private def ignored : Server := { anyServer ended with pc := .helloTop }

/-- The session is closed while both calls wait; the one sees the flag, the other an error of the
transport. -/
theorem close_final_beside : ∃ run : Run Bool,
    Reaches (LogStep (Step blankSuite .transparent twoCalls) iterations)
      (fun run => Orderly run.state) ⟨.init Session.ofDefault, []⟩ run ∧
    run.state.place true = .returned (.handshake (.error (.peerClosed "session closed"))) ∧
    run.state.place false = .returned (.audio (.error .io)) ∧
    run.log.map Iteration.late = [false] ∧ run.state.session.state.state = .closed ∧
    LateReturns run.log := by
  have hrun : Reaches (LogStep (Step blankSuite .transparent twoCalls) iterations)
      (fun run => Orderly run.state) ⟨.init Session.ofDefault, []⟩ ⟨.init Session.ofDefault, []⟩ :=
    .refl _
  have hrun := moved true (bringing .timeout) ⟨.loopTop, opened, []⟩ hrun rfl ⟨nofun, nofun, nofun⟩ rfl
  have hrun := moved true (bringing .timeout) ⟨.attempt (anyServer opened), opened, []⟩ hrun rfl
    ⟨nofun, nofun, nofun⟩ rfl
  have hrun := moved true (bringing .timeout) ⟨.attempt awaiting, opened, []⟩ hrun rfl
    ⟨nofun, nofun, nofun⟩ rfl
  have hawaits : ∀ u : State Bool, u.session = opened →
      (u.place false = .start ∨ ∃ deadlineUs, u.place false = .recvTop deadlineUs) →
        Orderly u (.moves false (bringing .timeout)) := by
    rintro u hu hplace
    refine ⟨?_, ?_, fun _ _ => by rw [hu]; rfl⟩ <;>
      obtain hplace | ⟨deadlineUs, hplace⟩ := hplace <;> rw [hplace] <;> nofun
  obtain ⟨deadlineUs, hrun⟩ := recvAudio_waits false (bringing .timeout) hrun rfl rfl rfl (by decide)
    hawaits
  have hrun := closes_alone hrun rfl rfl fun u hu _ => by
    rw [hu]
    trivial
  have hrun := moved true (bringing .timeout) ⟨.attempt ignored, ended, []⟩ hrun rfl
    ⟨nofun, nofun, nofun⟩ rfl
  have hrun := moved true (bringing .timeout)
    ⟨.settleOpen (.error (.peerClosed "session closed")), ended, []⟩ hrun rfl ⟨nofun, nofun, nofun⟩ rfl
  have hrun := moved true (bringing .timeout)
    ⟨handshakeAnswer (.error (.peerClosed "session closed")), applies ended .close, []⟩ hrun rfl
    ⟨nofun, nofun, nofun⟩ rfl
  have hrun := moved false (bringing (.failed .io))
    ⟨.returned (.audio (.error .io)), applies ended .close, []⟩ hrun rfl ⟨nofun, nofun, nofun⟩ rfl
  obtain ⟨hfinal, hlate⟩ := (close_final blankSuite .transparent twoCalls Session.ofDefault _).1 hrun
  obtain ⟨-, -, hclosed, -⟩ := hfinal ⟨rfl, fun task => .inr (by cases task <;> exact ⟨_, rfl⟩)⟩
  exact ⟨_, hrun, rfl, rfl, rfl, hclosed, hlate⟩

/-- A new session stays Idle when it is closed, and a call of `recv_audio` made afterwards waits. -/
theorem closed_session_waits : ∃ run : Run Unit,
    Reaches (LogStep (Step blankSuite .transparent fun _ => .recvAudio) iterations) (fun _ _ => True)
        ⟨.init Session.ofDefault, []⟩ run ∧
      run.state.Settled ∧ run.state.session.state.state = .idle ∧
        ∃ later, Reaches (LogStep (Step blankSuite .transparent fun _ => .recvAudio) iterations)
            (fun _ _ => True) run later ∧
          later.state.session.closed = true ∧
            ∃ deadlineUs, later.log = [⟨true, .recvWait deadlineUs⟩] := by
  have hstart : Reaches (LogStep (Step blankSuite .transparent fun _ => .recvAudio) iterations)
      (fun _ _ => True) (⟨.init Session.ofDefault, []⟩ : Run Unit) ⟨.init Session.ofDefault, []⟩ :=
    .refl _
  have hrun := closes_alone hstart rfl rfl fun _ _ => trivial
  have hstays := @Reaches.refl _ _
    (LogStep (Step blankSuite .transparent fun _ : Unit => .recvAudio) iterations) (fun _ _ => True)
    ⟨{ (State.init Session.ofDefault : State Unit) with
      close := .returned
      session := applies (applies
        { Session.ofDefault with closed := true, encryptKey := none, decryptKey := none } .close)
          .close }, []⟩
  obtain ⟨deadlineUs, hwaits⟩ := recvAudio_waits () (bringing .timeout) hstays rfl rfl rfl
    (by decide) fun _ _ _ => trivial
  exact ⟨_, hrun, ⟨rfl, fun _ => .inl rfl⟩, rfl, _, hwaits, rfl, deadlineUs, rfl⟩

end GravitalTalk.Transport.Closing
