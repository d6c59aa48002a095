import GravitalTalk.Relay.Workers

/-! Floor arbitration when several workers call: who was granted the floor of a session, and what
happened before the next was. -/
namespace GravitalTalk.Relay.Workers
open Lib GravitalTalk.Core Transport Trace Transition

inductive FloorEvent where
  | granted (sessionId : UInt32) (holder : SocketAddr) (stamp : Nat)
  | released (sessionId : UInt32) (sender : SocketAddr)
  /-- The entry left the table, or another took its place. -/
  | lost (sessionId : UInt32)
  deriving DecidableEq

def FloorEvent.Grants (k : UInt32) : FloorEvent → Prop
  | granted sessionId _ _ => sessionId = k
  | _ => False

def onceEvents (router : Router) : Op → List FloorEvent
  | .floorRequest sessionId sender clock =>
    if (router.floorRequest sessionId sender clock).2.isGranted then
      [.granted sessionId sender clock.grant]
    else []
  | .floorRelease sessionId sender now =>
    match (router.floorRelease sessionId sender now).2 with
    | .released _ => [.released sessionId sender]
    | _ => []
  | _ => []

variable {ι : Type}

def floorEvents (st : State ι) (label : ι × Access) (_ : State ι) : List FloorEvent :=
  match label.2, st.place label.1 with
  | .once op, _ => onceEvents st.router op
  | .inserts, .insert sessionId _ _ =>
    if sessionId ∈ st.router.routes then [.lost sessionId] else []
  | .visits sessionId closed, .retain maxAge now _ =>
    match st.router.routes[sessionId]?.bind (Router.keep now maxAge closed) with
    | some _ => []
    | none => [.lost sessionId]
  | _, _ => []

/-- The floor of session `k` is still held since the grant, or there is a reason for it to be free. -/
def Kept (k : UInt32) (st : State ι) (grant : FloorEvent) (later : List FloorEvent) : Prop :=
  ∀ holder stamp, grant = .granted k holder stamp →
    Held st.router k holder stamp ∨ .released k holder ∈ later ∨ .lost k ∈ later ∨
      Duration.fromSecs floorMaxHoldSecs < st.time - stamp

def Succeeds (k : UInt32) (grant : FloorEvent) (between : List FloorEvent) (next : FloorEvent) :
    Prop :=
  ∀ holder holder' stamp stamp', grant = .granted k holder stamp →
    next = .granted k holder' stamp' → .released k holder ∈ between ∨ .lost k ∈ between ∨
      Duration.fromSecs floorMaxHoldSecs < stamp' - stamp

section Steps
variable {st st' : State ι} {i : ι} {k : UInt32}

theorem Kept.step {grant : FloorEvent} {past more : List FloorEvent} (h : Kept k st grant past)
    (htime : st.time ≤ st'.time)
    (hheld : ∀ holder stamp, Held st.router k holder stamp →
      Held st'.router k holder stamp ∨ .released k holder ∈ more ∨ .lost k ∈ more ∨
        Duration.fromSecs floorMaxHoldSecs < st'.time - stamp) :
    Kept k st' grant (past ++ more) := by
  intro holder stamp hgrant
  simp only [List.mem_append]
  obtain hheld' | hreleased | hlost | hover := h holder stamp hgrant
  · obtain hstill | hreleased | hlost | hover := hheld holder stamp hheld'
    · exact .inl hstill
    · exact .inr (.inl (.inr hreleased))
    · exact .inr (.inr (.inl (.inr hlost)))
    · exact .inr (.inr (.inr hover))
  · exact .inr (.inl (.inl hreleased))
  · exact .inr (.inr (.inl (.inl hlost)))
  · exact .inr (.inr (.inr (by omega)))

theorem Kept.same {grant : FloorEvent} {past more : List FloorEvent} (h : Kept k st grant past)
    (hroutes : st'.router.routes = st.router.routes) (htime : st.time ≤ st'.time) :
    Kept k st' grant (past ++ more) := by
  refine h.step htime fun holder stamp hheld => .inl ?_
  rwa [Held, hroutes]

theorem held_once {router : Router} {op : Op} (honce : Once router op) {holder : SocketAddr}
    {stamp time : Nat} (htime : ∀ now ∈ op.readings, now ≤ time)
    (hgrants : ∀ e ∈ onceEvents router op, ¬e.Grants k) (h : Held router k holder stamp) :
    Held (router.exec op).1 k holder stamp ∨ .released k holder ∈ onceEvents router op ∨
      .lost k ∈ onceEvents router op ∨ Duration.fromSecs floorMaxHoldSecs < time - stamp := by
  have hquiet : ¬Call.Grants (event Router.exec router op) k := by
    rintro ⟨sender, clock, others, hinput, hanswer⟩
    change op = _ at hinput
    subst hinput
    have hgranted : (router.floorRequest k sender clock).2 = .granted others :=
      Answer.floor.inj hanswer
    exact hgrants (.granted k sender clock.grant)
      (by simp [onceEvents, hgranted, FloorDecision.isGranted]) rfl
  obtain hheld | ⟨call, hcall, hreleases⟩ | ⟨call, hcall, hevicts⟩ | ⟨call, hcall, now, hnow, hover⟩ :=
    h.step op hquiet
  · exact .inl hheld
  · obtain ⟨now, others, hinput, hanswer⟩ := hreleases
    rw [List.mem_singleton.mp hcall] at hinput hanswer
    change op = _ at hinput
    subst hinput
    have hreleased : (router.floorRelease k holder now).2 = .released others :=
      Answer.floor.inj hanswer
    exact .inr (.inl (by simp [onceEvents, hreleased]))
  · obtain ⟨⟨maxAgeSecs, now, closed, hinput⟩, -⟩ := hevicts
    rw [List.mem_singleton.mp hcall] at hinput
    change op = _ at hinput
    subst hinput
    exact honce.elim
  · rw [List.mem_singleton.mp hcall] at hnow
    have hle := htime now hnow
    simp only [Instant.elapsed] at hover
    exact .inr (.inr (.inr (by omega)))

theorem held_inserts {router : Router} {sessionId : UInt32} {holder : SocketAddr} {stamp : Nat}
    (entry : RouteEntry) (h : Held router k holder stamp) :
    Held (router.store sessionId entry) k holder stamp ∨
      .lost k ∈ if sessionId ∈ router.routes then [FloorEvent.lost sessionId] else [] := by
  obtain ⟨found, hfound, hheld⟩ := h
  by_cases hk : sessionId = k
  · subst hk
    have hmem : sessionId ∈ router.routes := by
      rw [Std.ExtTreeMap.mem_iff_isSome_getElem?, hfound]
      rfl
    exact .inr (by simp [hmem])
  · exact .inl ⟨found, (router.lookup_store_of_ne hk entry).trans hfound, hheld⟩

theorem held_visited {router : Router} {sessionId : UInt32} {holder : SocketAddr}
    {stamp now maxAge : Nat} {closed : Channel → Bool} {entry : RouteEntry}
    (hentry : router.routes[sessionId]? = some entry) (h : Held router k holder stamp) :
    Held (visited router sessionId (Router.keep now maxAge closed entry)) k holder stamp ∨
      sessionId = k ∧ Router.keep now maxAge closed entry = none := by
  obtain ⟨found, hfound, hholder, hgranted⟩ := h
  by_cases hk : sessionId = k
  · subst hk
    obtain rfl := Option.some.inj (hentry.symm.trans hfound)
    cases hkeep : Router.keep now maxAge closed entry with
    | some kept =>
      obtain ⟨-, -, -, -, hsameHolder, hsameGranted⟩ := Router.keep_eq_some hkeep
      exact .inl ⟨kept, router.lookup_store_self sessionId kept, hsameHolder.trans hholder,
        hsameGranted.trans hgranted⟩
    | none => exact .inr ⟨rfl, rfl⟩
  · refine .inl ⟨found, ?_, hholder, hgranted⟩
    cases Router.keep now maxAge closed entry with
    | some kept => exact (router.lookup_store_of_ne hk kept).trans hfound
    | none =>
      rw [visited, Std.ExtTreeMap.getElem?_erase, if_neg (by simpa using hk)]
      exact hfound

theorem le_getLastD {a : Nat} {readings : List Nat} (h : (a :: readings).Pairwise (· ≤ ·)) :
    ∀ now ∈ a :: readings, now ≤ readings.getLastD a := by
  induction readings generalizing a with
  | nil => simp
  | cons b rest ih =>
    rw [List.pairwise_cons] at h
    have hle := ih h.2
    intro now hnow
    rw [List.getLastD_cons]
    obtain rfl | hnow := List.mem_cons.mp hnow
    · exact (h.1 b (by simp)).trans (hle b (by simp))
    · exact hle now hnow

theorem grants_once {router : Router} {op : Op} {e : FloorEvent} (he : e ∈ onceEvents router op)
    (hgrants : e.Grants k) :
    ∃ sender clock others, op = .floorRequest k sender clock ∧
      (router.exec op).2 = .floor (.granted others) ∧ e = .granted k sender clock.grant ∧
        onceEvents router op = [e] := by
  cases op with
  | floorRequest sessionId sender clock =>
    simp only [onceEvents] at he ⊢
    cases hdecision : (router.floorRequest sessionId sender clock).2 with
    | granted others =>
      rw [hdecision, FloorDecision.isGranted, if_pos rfl, List.mem_singleton] at he
      subst he
      have hk : sessionId = k := hgrants
      subst hk
      exact ⟨sender, clock, others, rfl, congrArg Answer.floor hdecision, rfl, if_pos rfl⟩
    | _ => simp [hdecision, FloorDecision.isGranted] at he
  | floorRelease sessionId sender now =>
    simp only [onceEvents] at he
    split at he
    · rw [List.mem_singleton.mp he] at hgrants
      exact hgrants.elim
    · simp at he
  | _ => simp [onceEvents] at he

end Steps

/-- A step that grants the floor of session `k` does so after the last grant is over; any other
leaves the floor as it is or says why not. -/
theorem Step.floor [DecidableEq ι] {st st' : State ι} {i : ι} {access : Access}
    (hstep : Step st (i, access) st') (k : UInt32) :
    (∀ e ∈ floorEvents st (i, access) st', ¬e.Grants k) ∧
        (∀ grant past, Kept k st grant past →
          Kept k st' grant (past ++ floorEvents st (i, access) st')) ∨
      ∃ e, floorEvents st (i, access) st' = [e] ∧ e.Grants k ∧ Kept k st' e [] ∧
        ∀ grant past, Kept k st grant past → Succeeds k grant past e := by
  have hsilent : ∀ (more : List FloorEvent), more = [] → ∀ e ∈ more, ¬e.Grants k := by
    rintro more rfl e he
    cases he
  cases hstep with
  | once hplace honce htime =>
    rename_i op
    have hle := le_getLastD htime
    by_cases hquiet : ∀ e ∈ onceEvents st.router op, ¬e.Grants k
    · refine .inl ⟨hquiet, fun grant past h => ?_⟩
      refine h.step (hle _ (by simp)) fun holder stamp hheld => ?_
      exact held_once honce (fun now hnow => hle now (List.mem_cons_of_mem _ hnow)) hquiet hheld
    · push Not at hquiet
      obtain ⟨e, he, hgrants⟩ := hquiet
      obtain ⟨sender, clock, others, rfl, hanswer, rfl, hevents⟩ := grants_once he hgrants
      refine .inr ⟨_, hevents, hgrants, ?_, ?_⟩
      · intro holder stamp hsame
        injection hsame with _ hholder hstamp
        exact hholder ▸ hstamp ▸ .inl (held_of_granted hanswer)
      · intro grant past h holder holder' stamp stamp' hgrant hnext
        injection hnext with _ hholder hstamp
        subst hstamp
        obtain hheld | hreleased | hlost | hover := h holder stamp hgrant
        · obtain ⟨now, hnow, hover⟩ := hheld.over hanswer
          have hlast : now ≤ clock.grant := hle now (List.mem_cons_of_mem _ hnow)
          simp only [Instant.elapsed] at hover
          exact .inr (.inr (by omega))
        · exact .inl hreleased
        · exact .inr (.inl hlost)
        · have hlast : st.time ≤ clock.grant := hle _ (by simp)
          exact .inr (.inr (by omega))
  | looks => exact .inl ⟨hsilent _ rfl, fun grant past h => h.same rfl (le_refl _)⟩
  | full => exact .inl ⟨hsilent _ rfl, fun grant past h => h.same rfl (le_refl _)⟩
  | fits _ _ htime => exact .inl ⟨hsilent _ rfl, fun grant past h => h.same rfl htime⟩
  | inserts hplace =>
    simp only [floorEvents, hplace]
    refine .inl ⟨?_, fun grant past h => h.step (le_refl _) fun holder stamp hheld => ?_⟩
    · intro e he
      split_ifs at he
      · rw [List.mem_singleton.mp he]
        exact id
      · cases he
    · exact (held_inserts _ hheld).imp_right fun hlost => .inr (.inl hlost)
  | counts => exact .inl ⟨hsilent _ rfl, fun grant past h => h.same rfl (le_refl _)⟩
  | writes => exact .inl ⟨hsilent _ rfl, fun grant past h => h.same rfl (le_refl _)⟩
  | looksRoom => exact .inl ⟨hsilent _ rfl, fun grant past h => h.same rfl (le_refl _)⟩
  | insertsRoom => exact .inl ⟨hsilent _ rfl, fun grant past h => h.same rfl (le_refl _)⟩
  | collects _ htime => exact .inl ⟨hsilent _ rfl, fun grant past h => h.same rfl htime⟩
  | visits hplace hentry =>
    simp only [floorEvents, hplace, hentry, Option.bind_some]
    refine .inl ⟨?_, fun grant past h => h.step (le_refl _) fun holder stamp hheld => ?_⟩
    · intro e he
      split at he
      · cases he
      · rw [List.mem_singleton.mp he]
        exact id
    · refine (held_visited hentry hheld).imp_right ?_
      rintro ⟨rfl, hkeep⟩
      simp [hkeep]
  | collected => exact .inl ⟨hsilent _ rfl, fun grant past h => h.same rfl (le_refl _)⟩

section Run
variable [DecidableEq ι] {maxSessions maxPeers : Nat}

abbrev LoggedRuns (maxSessions maxPeers : Nat) (run : Logged (State ι) FloorEvent) : Prop :=
  Reaches (LogStep Step floorEvents) (fun _ _ => True) ⟨init maxSessions maxPeers, []⟩ run

theorem LoggedRuns.step {st st' : State ι} {log more : List FloorEvent} (label : ι × Access)
    (h : LoggedRuns maxSessions maxPeers ⟨st, log⟩) (hstep : Step st label st')
    (hevents : floorEvents st label st' = more) :
    LoggedRuns maxSessions maxPeers ⟨st', log ++ more⟩ :=
  h.tail (.logs hstep hevents) trivial

omit [DecidableEq ι] in
/-- Every grant of a log but the last is over when the next is made, and the last is kept. -/
def Arbitrated (k : UInt32) (run : Logged (State ι) FloorEvent) : Prop :=
  Successive (FloorEvent.Grants k) (Succeeds k) run.log ∧
    Latest (FloorEvent.Grants k) (Kept k run.state) run.log

theorem LoggedRuns.arbitrated {run : Logged (State ι) FloorEvent}
    (hrun : LoggedRuns maxSessions maxPeers run) (k : UInt32) : Arbitrated k run := by
  refine hrun.invariant ⟨?_, ?_⟩ fun run label run' h hstep _ => hstep.successive h ?_
  · intro earlier first between second later hlog
    simp at hlog
  · intro earlier first between hlog
    simp at hlog
  · cases hstep with
    | log hstep => exact hstep.floor k

end Run

/-- Two grants of a session's floor in a row, by whichever workers: in between the first holder
released it, or the entry was lost, or more than 30 s went by. -/
theorem workers_floor_exclusive [DecidableEq ι] (maxSessions maxPeers : Nat)
    {run : Logged (State ι) FloorEvent} (hrun : LoggedRuns maxSessions maxPeers run)
    (earlier between later : List FloorEvent) (k : UInt32) (a b : SocketAddr) (stamp stamp' : Nat)
    (hlog : run.log = earlier ++ .granted k a stamp :: (between ++ .granted k b stamp' :: later))
    (hnone : ∀ holder stamp, .granted k holder stamp ∉ between) :
    .released k a ∈ between ∨ .lost k ∈ between ∨ Duration.fromSecs 30 < stamp' - stamp := by
  have hsuccessive := (hrun.arbitrated k).1
  refine hsuccessive earlier _ between _ later hlog rfl rfl ?_ a b stamp stamp' rfl rfl
  intro e he hgrants
  cases e with
  | granted sessionId holder stamp =>
    have hk : sessionId = k := hgrants
    exact hnone holder stamp (hk ▸ he)
  | released => exact hgrants
  | lost => exact hgrants

private def readAll (now : Nat) : FloorClock := ⟨now, now, now, now⟩

/-- One worker grants the floor to the peer that made the session, another takes it over. -/
theorem workers_floor_exclusive_two :
    ∃ run : Logged (State (Fin 2)) FloorEvent, LoggedRuns 10 5 run ∧
      run.log = [.granted 7 (.v4 1 4000) 0, .granted 7 (.v4 2 4000) 31000000000] ∧
      (.released 7 (.v4 1 4000) ∈ ([] : List FloorEvent) ∨ .lost 7 ∈ ([] : List FloorEvent) ∨
        Duration.fromSecs 30 < 31000000000 - 0) := by
  have hrun : LoggedRuns 10 5 ⟨(init 10 5 : State (Fin 2)), []⟩ := .refl _
  have hrun := hrun.step (0, .looks 7 (.udp (.v4 1 4000))) (.looks rfl (by decide) (by decide)) rfl
  have hrun := hrun.step (0, .checks 0) (.fits rfl (by decide +kernel) (by decide)) rfl
  have hrun := hrun.step (0, .inserts) (.inserts rfl) rfl
  have hrun := hrun.step (0, .counts) (.counts rfl) rfl
  have hrun := hrun.step (0, .writes) (.writes rfl) rfl
  have hrun := hrun.step (0, .once (.route 7 (.udp (.v4 2 4000)) 0))
    (.once rfl (.inr (by decide +kernel)) (by decide)) rfl
  have hrun := hrun.step (0, .once (.floorRequest 7 (.v4 1 4000) (readAll 0)))
    (.once rfl trivial (by decide)) rfl
  have hrun := hrun.step (1, .once (.floorRequest 7 (.v4 2 4000) (readAll 31000000000)))
    (.once rfl trivial (by decide)) rfl
  have hlog := workers_floor_exclusive 10 5 hrun [] [] [] 7 (.v4 1 4000) (.v4 2 4000) 0 31000000000
  exact ⟨_, hrun, by decide +kernel, hlog (by decide +kernel) (by simp)⟩

end GravitalTalk.Relay.Workers
