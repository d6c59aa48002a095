import GravitalTalk.Lib.Linearization
import GravitalTalk.Lib.Transition
import GravitalTalk.Relay.FanOut

/-! Calls of `route` and `register_room` that run at the same time.  A step is one call on a map;
the entry `get_mut` finds stays locked until `route` has returned. -/
namespace GravitalTalk.Relay.Concurrent
open Lib GravitalTalk.Core Transport Trace Linearization Transition

inductive Task where
  | route (sessionId : UInt32) (sender : SessionEndpoint) (now : Nat)
  | registerRoom (code : String) (sessionId : UInt32)

def Task.op : Task → Op
  | route sessionId sender now => .route sessionId sender now
  | registerRoom code sessionId => .registerRoom code sessionId

inductive Place where
  | start
  /-- `route` found no entry and is about to ask for the number of sessions. -/
  | checkSize
  | insert
  /-- The entry is in the table and the gauge is not written yet. -/
  | setGauge
  | insertRoom
  | returned (answer : Answer)

/-- What a call answers from here on, once that is settled. -/
def Place.answer : Place → Option Answer
  | setGauge => some (.route .registered)
  | returned answer => some answer
  | _ => none

structure State (ι : Type) where
  router : Router
  place : ι → Place

variable {ι : Type} [DecidableEq ι]

def State.moves (st : State ι) (i : ι) (place : Place) (router : Router) : State ι :=
  ⟨router, Function.update st.place i place⟩

def init (router : Router) : State ι := ⟨router, fun _ => .start⟩

inductive Step (tasks : ι → Task) : State ι → ι → State ι → Prop where
  | zero {st i sessionId sender now} (htask : tasks i = .route sessionId sender now)
      (hplace : st.place i = .start) (hzero : sessionId = 0) :
      Step tasks st i (st.moves i (.returned (.route .dropped)) (st.router.drop .zeroSession))
  | found {st i sessionId sender now entry} (htask : tasks i = .route sessionId sender now)
      (hplace : st.place i = .start) (hzero : sessionId ≠ 0)
      (hentry : st.router.routes[sessionId]? = some entry) :
      Step tasks st i (st.moves i
        (.returned (.route (st.router.route sessionId sender now).2))
        (st.router.route sessionId sender now).1)
  | missed {st i sessionId sender now} (htask : tasks i = .route sessionId sender now)
      (hplace : st.place i = .start) (hzero : sessionId ≠ 0)
      (hentry : st.router.routes[sessionId]? = none) :
      Step tasks st i (st.moves i .checkSize st.router)
  | full {st i sessionId sender now} (htask : tasks i = .route sessionId sender now)
      (hplace : st.place i = .checkSize) (hfull : st.router.maxSessions ≤ st.router.routes.size) :
      Step tasks st i (st.moves i (.returned (.route .dropped)) (st.router.drop .maxSessions))
  | fits {st i sessionId sender now} (htask : tasks i = .route sessionId sender now)
      (hplace : st.place i = .checkSize) (hroom : st.router.routes.size < st.router.maxSessions) :
      Step tasks st i (st.moves i .insert st.router)
  | inserts {st i sessionId sender now} (htask : tasks i = .route sessionId sender now)
      (hplace : st.place i = .insert) :
      Step tasks st i
        (st.moves i .setGauge (st.router.store sessionId ⟨[sender], now, none, none⟩))
  | gauges {st i} (hplace : st.place i = .setGauge) :
      Step tasks st i
        (st.moves i (.returned (.route .registered)) st.router.setActiveSessions)
  | taken {st i code sessionId} (htask : tasks i = .registerRoom code sessionId)
      (hplace : st.place i = .start) (hcode : st.router.rooms.contains code) :
      Step tasks st i (st.moves i (.returned (.registered false)) st.router)
  | free {st i code sessionId} (htask : tasks i = .registerRoom code sessionId)
      (hplace : st.place i = .start) (hcode : ¬st.router.rooms.contains code) :
      Step tasks st i (st.moves i .insertRoom st.router)
  | insertsRoom {st i code sessionId} (htask : tasks i = .registerRoom code sessionId)
      (hplace : st.place i = .insertRoom) :
      Step tasks st i (st.moves i (.returned (.registered true))
        { st.router with rooms := st.router.rooms.insert code sessionId })

/-- What the call found when it looked is still so when it acts on it. -/
def Undisturbed (tasks : ι → Task) (st : State ι) (i : ι) : Prop :=
  match st.place i, tasks i with
  | .checkSize, .route sessionId _ _ => sessionId ∉ st.router.routes
  | .insert, .route sessionId _ _ =>
    sessionId ∉ st.router.routes ∧ st.router.routes.size < st.router.maxSessions
  | .insertRoom, .registerRoom code _ => ¬st.router.rooms.contains code
  | _, _ => True

def view (router : Router) : Routes × Rooms × Nat × Nat :=
  (router.routes, router.rooms, router.maxSessions, router.maxPeersPerSession)

def answers (st : State ι) (i : ι) : Option Answer := (st.place i).answer

theorem answers_moves (st : State ι) (i : ι) (place : Place) (router : Router) :
    answers (st.moves i place router) = Function.update (answers st) i place.answer := by
  funext j
  by_cases hj : j = i
  · subst hj
    simp [answers, State.moves]
  · simp [answers, State.moves, hj]

theorem answers_silent {st : State ι} {i : ι} {place : Place} (router : Router)
    (h : (st.place i).answer = place.answer) : answers (st.moves i place router) = answers st := by
  rw [answers_moves, ← h]
  exact Function.update_eq_self i (answers st)

/-- What one allowed step of a call does: nothing that can be seen, or the whole call. -/
inductive Did (tasks : ι → Task) (st st' : State ι) (i : ι) : Prop
  | nothing (hview : view st'.router = view st.router) (hanswers : answers st' = answers st)
  | call (hpending : answers st i = none)
    (hanswers : answers st' =
      Function.update (answers st) i (some (st.router.exec (tasks i).op).2))
    (hview : view st'.router = view (st.router.exec (tasks i).op).1)

def Placed (tasks : ι → Task) (st : State ι) : Prop :=
  ∀ i, st.place i = .checkSize ∨ st.place i = .insert →
    ∀ sessionId sender now, tasks i = .route sessionId sender now → sessionId ≠ 0

section Steps
variable {tasks : ι → Task} {st st' : State ι} {i : ι}

theorem Placed.moves (h : Placed tasks st) {place : Place} (router : Router)
    (hplace : place = .checkSize ∨ place = .insert →
      ∀ sessionId sender now, tasks i = .route sessionId sender now → sessionId ≠ 0) :
    Placed tasks (st.moves i place router) := by
  intro j hj
  by_cases hji : j = i
  · subst hji
    simp only [State.moves, Function.update_self] at hj
    exact hplace hj
  · simp only [State.moves, Function.update_of_ne hji] at hj
    exact h j hj

theorem Placed.step (h : Placed tasks st) (hstep : Step tasks st i st') : Placed tasks st' := by
  cases hstep with
  | zero => exact h.moves _ (by simp)
  | found => exact h.moves _ (by simp)
  | missed htask _ hzero =>
    refine h.moves _ fun _ sessionId sender now hother => ?_
    injection htask.symm.trans hother with hsession
    exact hsession ▸ hzero
  | full => exact h.moves _ (by simp)
  | fits _ hplace => exact h.moves _ fun _ => h i (.inl hplace)
  | inserts => exact h.moves _ (by simp)
  | gauges => exact h.moves _ (by simp)
  | taken => exact h.moves _ (by simp)
  | free => exact h.moves _ (by simp)
  | insertsRoom => exact h.moves _ (by simp)

theorem Did.settles {place : Place} {router : Router}
    (hpending : (st.place i).answer = none)
    (hanswer : place.answer = some (st.router.exec (tasks i).op).2)
    (hview : view router = view (st.router.exec (tasks i).op).1) :
    Did tasks st (st.moves i place router) i := by
  refine .call hpending ?_ hview
  rw [answers_moves, hanswer]

theorem Step.did (hstep : Step tasks st i st') (hplaced : Placed tasks st)
    (hundisturbed : Undisturbed tasks st i) : Did tasks st st' i := by
  cases hstep with
  | zero htask hplace hzero =>
    refine .settles (by rw [hplace]; rfl) ?_ ?_ <;>
      simp [htask, Task.op, Router.exec, Router.route, hzero, Place.answer, view, Router.drop]
  | found htask hplace =>
    refine .settles (by rw [hplace]; rfl) ?_ ?_ <;>
      simp [htask, Task.op, Router.exec, Place.answer]
  | missed _ hplace =>
    exact .nothing rfl (answers_silent _ (by rw [hplace]; rfl))
  | full htask hplace hfull =>
    have hzero := hplaced i (.inl hplace) _ _ _ htask
    simp only [Undisturbed, hplace, htask] at hundisturbed
    have hnew := Router.lookup_eq_none_iff.mpr hundisturbed
    have hroute := fun sender now => Router.route_limit sender now hzero hnew hfull
    refine .settles (by rw [hplace]; rfl) ?_ ?_ <;>
      simp [htask, Task.op, Router.exec, hroute, Place.answer]
  | fits _ hplace =>
    exact .nothing rfl (answers_silent _ (by rw [hplace]; rfl))
  | inserts htask hplace =>
    have hzero := hplaced i (.inr hplace) _ _ _ htask
    simp only [Undisturbed, hplace, htask] at hundisturbed
    have hnew := Router.lookup_eq_none_iff.mpr hundisturbed.1
    have hroute := fun sender now => Router.route_created sender now hzero hnew hundisturbed.2
    refine .settles (by rw [hplace]; rfl) ?_ ?_
    · simp [htask, Task.op, Router.exec, hroute, Place.answer]
    · simp [htask, Task.op, Router.exec, hroute, view, Router.setActiveSessions]
  | gauges hplace =>
    exact .nothing rfl (answers_silent _ (by rw [hplace]; rfl))
  | taken htask hplace hcode =>
    refine .settles (by rw [hplace]; rfl) ?_ ?_ <;>
      simp [htask, Task.op, Router.exec, Router.registerRoom, hcode, Place.answer]
  | free _ hplace =>
    exact .nothing rfl (answers_silent _ (by rw [hplace]; rfl))
  | insertsRoom htask hplace =>
    simp only [Undisturbed, hplace, htask] at hundisturbed
    refine .settles (by rw [hplace]; rfl) ?_ ?_ <;>
      simp [htask, Task.op, Router.exec, Router.registerRoom, hundisturbed, Place.answer, view]

omit [DecidableEq ι] in
theorem op_respects (tasks : ι → Task) :
    Respects Router.exec view fun i => (tasks i).op := by
  intro a b i hview
  obtain ⟨routes, rooms, maxSessions, maxPeers, metrics⟩ := a
  obtain ⟨routes', rooms', maxSessions', maxPeers', metrics'⟩ := b
  simp only [view, Prod.mk.injEq] at hview
  obtain ⟨rfl, rfl, rfl, rfl⟩ := hview
  beta_reduce
  cases tasks i with
  | route sessionId sender now =>
    simp only [Task.op, Router.exec, Router.route]
    by_cases hzero : sessionId = 0
    · simp only [if_pos hzero]
      exact ⟨rfl, rfl⟩
    simp only [if_neg hzero]
    cases routes[sessionId]? with
    | some entry =>
      dsimp only
      split_ifs <;> exact ⟨rfl, rfl⟩
    | none =>
      dsimp only
      split_ifs <;> exact ⟨rfl, rfl⟩
  | registerRoom code sessionId =>
    simp only [Task.op, Router.exec, Router.registerRoom]
    split_ifs <;> exact ⟨rfl, rfl⟩

end Steps

section Calls
variable {router : Router} (task : Task)

theorem registered_mono {sessionId : UInt32} {e : SessionEndpoint}
    (h : Registered router sessionId e) : Registered (router.exec task.op).1 sessionId e := by
  refine (registered_exec router task.op sessionId e).mpr (.inr ⟨h, not_undone ?_⟩)
  cases task <;> simp [Task.op]

theorem routed_limits {after : Router} {sessionId : UInt32} {sender : SessionEndpoint} {now : Nat}
    {decision : RouteDecision} (h : router.Routed sessionId sender now after decision)
    (hsize : router.routes.size ≤ router.maxSessions) :
    after.routes.size ≤ after.maxSessions := by
  cases h with
  | zero => exact hsize
  | known _ hentry => exact (Router.size_store hentry _).trans_le hsize
  | full _ hentry => exact (Router.size_store hentry _).trans_le hsize
  | joined _ hentry => exact (Router.size_store hentry _).trans_le hsize
  | limit => exact hsize
  | created _ _ hroom => exact (router.size_store_le _ _).trans hroom

theorem size_mono (hsize : router.routes.size ≤ router.maxSessions) :
    (router.exec task.op).1.routes.size ≤ (router.exec task.op).1.maxSessions := by
  cases task with
  | route sessionId sender now =>
    exact routed_limits (router.route_routed sessionId sender now) hsize
  | registerRoom code sessionId =>
    simp only [Task.op, Router.exec, Router.registerRoom]
    split_ifs <;> exact hsize

theorem rooms_mono {code : String} (h : router.rooms.contains code) :
    (router.exec task.op).1.rooms.contains code := by
  cases task with
  | route sessionId sender now =>
    have hcall := router.route_routed sessionId sender now
    change (router.route sessionId sender now).1.rooms.contains code
    generalize router.route sessionId sender now = result at hcall
    obtain ⟨after, decision⟩ := result
    cases hcall <;> exact h
  | registerRoom other sessionId =>
    simp only [Task.op, Router.exec, Router.registerRoom]
    split_ifs
    · exact h
    · simp only [Prod.map, id, Std.ExtTreeMap.contains_insert, h, Bool.or_true]

theorem registered_room {code : String} {sessionId : UInt32}
    (h : (router.exec (.registerRoom code sessionId)).2 = .registered true) :
    ¬router.rooms.contains code ∧
      (router.exec (.registerRoom code sessionId)).1.rooms.contains code := by
  simp only [Router.exec, Router.registerRoom] at h ⊢
  split_ifs at h ⊢ with hcode
  · cases h
  · exact ⟨hcode, by simp⟩

end Calls

structure Inv (tasks : ι → Task) (start : Router) (st : State ι) : Prop where
  placed : Placed tasks st
  linearizable : Linearizable Router.exec view (fun i => (tasks i).op) start (answers st) st.router
  members : ∀ i sessionId sender now decision, tasks i = .route sessionId sender now →
    answers st i = some (.route decision) → decision ≠ .dropped →
      Registered st.router sessionId sender
  sessions : start.routes.size ≤ start.maxSessions →
    st.router.routes.size ≤ st.router.maxSessions
  rooms : ∀ i code sessionId, tasks i = .registerRoom code sessionId →
    answers st i = some (.registered true) → st.router.rooms.contains code
  single : ∀ i j code sessionId sessionId', tasks i = .registerRoom code sessionId →
    tasks j = .registerRoom code sessionId' → answers st i = some (.registered true) →
      answers st j = some (.registered true) → i = j

section Run
variable {tasks : ι → Task} {start : Router} {st st' : State ι} {i : ι}

omit [DecidableEq ι] in
theorem Inv.init (tasks : ι → Task) (start : Router) : Inv tasks start (init start) where
  placed := by
    rintro i (h | h) <;> cases h
  linearizable := Linearizable.init _ _ _ start
  members := by
    intro i sessionId sender now decision _ hanswer
    cases hanswer
  sessions := id
  rooms := by
    intro i code sessionId _ hanswer
    cases hanswer
  single := by
    intro i j code sessionId sessionId' _ _ hanswer
    cases hanswer

theorem view_eq {a b : Router} (h : view a = view b) :
    a.routes = b.routes ∧ a.rooms = b.rooms ∧ a.maxSessions = b.maxSessions := by
  simp only [view, Prod.mk.injEq] at h
  exact ⟨h.1, h.2.1, h.2.2.1⟩

theorem registered_of_routes {a b : Router} (h : a.routes = b.routes) {sessionId : UInt32}
    {e : SessionEndpoint} (hregistered : Registered b sessionId e) : Registered a sessionId e := by
  unfold Registered at hregistered ⊢
  rwa [h]

theorem Inv.step (h : Inv tasks start st) (hstep : Step tasks st i st')
    (hundisturbed : Undisturbed tasks st i) : Inv tasks start st' := by
  have hplaced := h.placed.step hstep
  cases hstep.did h.placed hundisturbed with
  | nothing hview hanswers =>
    obtain ⟨hroutes, hrooms, hmax⟩ := view_eq hview
    refine ⟨hplaced, ?_, ?_, ?_, ?_, ?_⟩
    · rw [hanswers]
      exact h.linearizable.silent hview
    · intro j sessionId sender now decision htask hanswer hdecision
      rw [hanswers] at hanswer
      exact registered_of_routes hroutes (h.members j _ _ _ _ htask hanswer hdecision)
    · rw [hroutes, hmax]
      exact h.sessions
    · intro j code sessionId htask hanswer
      rw [hanswers] at hanswer
      rw [hrooms]
      exact h.rooms j _ _ htask hanswer
    · rw [hanswers]
      exact h.single
  | call hpending hanswers hview =>
    obtain ⟨hroutes, hrooms, hmax⟩ := view_eq hview
    refine ⟨hplaced, ?_, ?_, ?_, ?_, ?_⟩
    · rw [hanswers]
      exact h.linearizable.effect (op_respects tasks) hpending hview
    · intro j sessionId sender now decision htask hanswer hdecision
      apply registered_of_routes hroutes
      by_cases hj : j = i
      · subst hj
        rw [hanswers, Function.update_self] at hanswer
        injection hanswer with hanswer
        refine (registered_exec _ _ _ _).mpr (.inl ⟨now, decision, ?_, hanswer, hdecision⟩)
        rw [event, htask]
        rfl
      · rw [hanswers, Function.update_of_ne hj] at hanswer
        exact registered_mono _ (h.members j _ _ _ _ htask hanswer hdecision)
    · intro hstart
      rw [hroutes, hmax]
      exact size_mono _ (h.sessions hstart)
    · intro j code sessionId htask hanswer
      rw [hrooms]
      by_cases hj : j = i
      · subst hj
        rw [hanswers, Function.update_self, htask] at hanswer
        rw [htask]
        exact (registered_room (Option.some.inj hanswer)).2
      · rw [hanswers, Function.update_of_ne hj] at hanswer
        exact rooms_mono _ (h.rooms j _ _ htask hanswer)
    · -- the code of a call that is still to answer is not in the table, those of the others are
      have hother : ∀ j code sessionId sessionId', tasks i = .registerRoom code sessionId →
          tasks j = .registerRoom code sessionId' → answers st' i = some (.registered true) →
            answers st' j = some (.registered true) → j = i := by
        intro j code sessionId sessionId' hi hj hanswer hanswer'
        by_contra hne
        rw [hanswers, Function.update_self, hi] at hanswer
        rw [hanswers, Function.update_of_ne hne] at hanswer'
        exact (registered_room (Option.some.inj hanswer)).1 (h.rooms j _ _ hj hanswer')
      intro j k code sessionId sessionId' hj hk hanswer hanswer'
      by_cases hji : j = i
      · subst hji
        exact (hother k _ _ _ hj hk hanswer hanswer').symm
      by_cases hki : k = i
      · subst hki
        exact hother j _ _ _ hk hj hanswer' hanswer
      rw [hanswers, Function.update_of_ne hji] at hanswer
      rw [hanswers, Function.update_of_ne hki] at hanswer'
      exact h.single j k _ _ _ hj hk hanswer hanswer'

end Run

/-- In a run whose steps all act on what their call found, the calls answered so far have the
answers, and leave the table, of some order of making them one after the other; so no accepted
endpoint is lost, the limit holds, and a code is given out once. -/
theorem undisturbed_calls_linearizable (tasks : ι → Task) (start : Router) (st : State ι)
    (hrun : Reaches (Step tasks) (Undisturbed tasks) (init start) st) :
    Linearizable Router.exec view (fun i => (tasks i).op) start (answers st) st.router ∧
      (∀ i sessionId sender now decision, tasks i = .route sessionId sender now →
        st.place i = .returned (.route decision) → decision ≠ .dropped →
          Registered st.router sessionId sender) ∧
      (start.routes.size ≤ start.maxSessions →
        st.router.routes.size ≤ st.router.maxSessions) ∧
      ∀ i j code sessionId sessionId', tasks i = .registerRoom code sessionId →
        tasks j = .registerRoom code sessionId' → st.place i = .returned (.registered true) →
          st.place j = .returned (.registered true) → i = j := by
  have h : Inv tasks start st :=
    hrun.invariant (Inv.init tasks start) fun _ _ _ hinv hstep hallowed => hinv.step hstep hallowed
  have hanswer : ∀ i answer, st.place i = .returned answer → answers st i = some answer := by
    intro i answer hplace
    rw [answers, hplace]
    rfl
  refine ⟨h.linearizable, ?_, h.sessions, ?_⟩
  · intro i sessionId sender now decision htask hplace hdecision
    exact h.members i _ _ _ _ htask (hanswer i _ hplace) hdecision
  · intro i j code sessionId sessionId' hi hj hplace hplace'
    exact h.single i j _ _ _ hi hj (hanswer i _ hplace) (hanswer j _ hplace')

private def lone : Router := .new 10 5 .new

private def threeTasks : Fin 3 → Task
  | 0 => .route 7 (.webSocket 1) 1
  | 1 => .route 8 (.webSocket 2) 2
  | 2 => .registerRoom "tango" 7

/-- All three look before any of them acts. -/
theorem undisturbed_call_registers :
    ∃ st, Reaches (Step threeTasks) (Undisturbed threeTasks) (init lone) st ∧
      st.place 0 = .returned (.route .registered) ∧ st.place 1 = .returned (.route .registered) ∧
      st.place 2 = .returned (.registered true) ∧ st.router.routes.size = 2 ∧
      Linearizable Router.exec view (fun i => (threeTasks i).op) lone (answers st) st.router ∧
      Registered st.router 7 (.webSocket 1) ∧ Registered st.router 8 (.webSocket 2) := by
  have hfirst : lone.routes[(7 : UInt32)]? = none := by decide +kernel
  have hsecond : lone.routes[(8 : UInt32)]? = none := by decide +kernel
  have hroom : lone.routes.size < lone.maxSessions := by decide +kernel
  have hcode : ¬lone.rooms.contains "tango" := by simp [lone, Router.new]
  have hmissed : Reaches (Step threeTasks) (Undisturbed threeTasks) (init lone) _ :=
    (Reaches.refl _).tail (.missed (i := 0) rfl rfl (by decide) hfirst) trivial
  have hmissed' := hmissed.tail (.missed (i := 1) rfl rfl (by decide) hsecond) trivial
  have hfree := hmissed'.tail (.free (i := 2) rfl rfl hcode) trivial
  have hnew : (7 : UInt32) ∉ lone.routes := Router.lookup_eq_none_iff.mp hfirst
  have hfits := hfree.tail (.fits (i := 0) rfl rfl hroom) hnew
  have hinserts := hfits.tail (.inserts (i := 0) rfl rfl) ⟨hnew, hroom⟩
  -- the table has the first session by now
  have hroom' : (lone.store 7 ⟨[.webSocket 1], 1, none, none⟩).routes.size < lone.maxSessions := by
    decide +kernel
  have hnew' : (8 : UInt32) ∉ (lone.store 7 ⟨[.webSocket 1], 1, none, none⟩).routes :=
    Router.lookup_eq_none_iff.mp (by decide +kernel)
  have hfits' := hinserts.tail (.fits (i := 1) rfl rfl hroom') hnew'
  have hinserts' := hfits'.tail (.inserts (i := 1) rfl rfl) ⟨hnew', hroom'⟩
  have hregisters := hinserts'.tail (.insertsRoom (i := 2) rfl rfl) hcode
  have hgauges := hregisters.tail (.gauges (i := 1) rfl) trivial
  have hrun := hgauges.tail (.gauges (i := 0) rfl) trivial
  obtain ⟨hlinear, hmembers, -⟩ := undisturbed_calls_linearizable threeTasks lone _ hrun
  refine ⟨_, hrun, rfl, rfl, rfl, ?_, hlinear, hmembers 0 7 (.webSocket 1) 1 .registered rfl rfl
    (by simp), hmembers 1 8 (.webSocket 2) 2 .registered rfl rfl (by simp)⟩
  decide +kernel

/-- Two endpoints that arrive together in a session nobody is in yet. -/
private def pairTasks : Bool → Task
  | true => .route 7 (.webSocket 1) 1
  | false => .route 7 (.webSocket 2) 2

private def pairEnd : State Bool where
  router := ((lone.store 7 ⟨[.webSocket 1], 1, none, none⟩).store 7
    ⟨[.webSocket 2], 2, none, none⟩).setActiveSessions.setActiveSessions
  place _ := .returned (.route .registered)

private theorem pair_ext {a b : State Bool} (hrouter : a.router = b.router)
    (htrue : a.place true = b.place true) (hfalse : a.place false = b.place false) : a = b := by
  obtain ⟨router, place⟩ := a
  obtain ⟨router', place'⟩ := b
  obtain rfl : router = router' := hrouter
  congr
  funext i
  cases i
  · exact hfalse
  · exact htrue

private theorem pair_runs : Reaches (Step pairTasks) (fun _ _ => True) (init lone) pairEnd := by
  have habsent : lone.routes[(7 : UInt32)]? = none := by decide +kernel
  have hroom : lone.routes.size < lone.maxSessions := by decide +kernel
  have hmissed : Reaches (Step pairTasks) (fun _ _ => True) (init lone) _ :=
    (Reaches.refl _).tail (.missed (i := true) rfl rfl (by decide) habsent) trivial
  have hmissed' := hmissed.tail (.missed (i := false) rfl rfl (by decide) habsent) trivial
  have hfits := hmissed'.tail (.fits (i := true) rfl rfl hroom) trivial
  have hfits' := hfits.tail (.fits (i := false) rfl rfl hroom) trivial
  -- both have found nothing and now both insert
  have hinserts := hfits'.tail (.inserts (i := true) rfl rfl) trivial
  have hinserts' := hinserts.tail (.inserts (i := false) rfl rfl) trivial
  have hgauges := hinserts'.tail (.gauges (i := true) rfl) trivial
  have hrun := hgauges.tail (.gauges (i := false) rfl) trivial
  convert hrun using 1
  exact pair_ext rfl rfl rfl

theorem concurrent_routes_lose_endpoint :
    Reaches (Step pairTasks) (fun _ _ => True) (init lone) pairEnd ∧
      (∀ i, pairEnd.place i = .returned (.route .registered)) ∧
      ¬Registered pairEnd.router 7 (.webSocket 1) ∧
      ¬Linearizable Router.exec view (fun i => (pairTasks i).op) lone (answers pairEnd)
        pairEnd.router := by
  refine ⟨pair_runs, fun _ => rfl, ?_, ?_⟩
  · have hlast : pairEnd.router.routes[(7 : UInt32)]? =
        some ⟨[.webSocket 2], 2, none, none⟩ := by decide +kernel
    rw [registered_of_some hlast]
    decide
  · rintro ⟨order, horder⟩
    have hboth : order.Perm [true, false] := by
      apply (List.perm_ext_iff_of_nodup horder.nodup (by decide)).mpr
      intro i
      rw [horder.answered]
      cases i <;> decide
    have hanswers := horder.answers
    have hnodup := horder.nodup
    obtain ⟨a, b, rfl⟩ := List.length_eq_two.mp hboth.length_eq
    -- alone, the second of the two is told about the first
    cases a <;> cases b
    · exact absurd hnodup (by decide)
    · exact absurd hanswers (by decide +kernel)
    · exact absurd hanswers (by decide +kernel)
    · exact absurd hnodup (by decide)

end GravitalTalk.Relay.Concurrent
