import Mathlib.Data.Fintype.Card
import GravitalTalk.Lib.Transition
import GravitalTalk.Relay.Floor
import GravitalTalk.Relay.RouterInvariant

/-! The relay as one process: the UDP loop, the connections and the collector work on the same router,
each making its calls one after the other.  A step is one access to a map; `retain` takes one for each
entry.  `list_rooms`, `peer_count` and `floor_holder` only read and are left out. -/
namespace GravitalTalk.Relay.Workers
open Lib GravitalTalk.Core Transport Transition

inductive Place where
  | idle
  | checkSize (sessionId : UInt32) (sender : SessionEndpoint)
  | insert (sessionId : UInt32) (sender : SessionEndpoint) (now : Nat)
  /-- About to read the number of sessions for the gauge. -/
  | count
  | setGauge (sessions : Nat)
  | insertRoom (code : String) (sessionId : UInt32)
  | retain (maxAge now removed : Nat)

structure State (ι : Type) where
  router : Router
  place : ι → Place
  time : Nat

inductive Access where
  | once (op : Op)
  | looks (sessionId : UInt32) (sender : SessionEndpoint)
  | checks (now : Nat)
  | inserts
  | counts
  | writes
  | looksRoom (code : String) (sessionId : UInt32)
  | insertsRoom
  | collects (maxAgeSecs : UInt64) (now : Nat)
  | visits (sessionId : UInt32) (closed : Channel → Bool)
  | collected

def Once (router : Router) : Op → Prop
  | .route sessionId _ _ => sessionId = 0 ∨ sessionId ∈ router.routes
  | .registerRoom code _ => router.rooms.contains code = true
  | .evictIdle _ _ _ => False
  | .listRooms => False
  | _ => True

/-- What the closure of `retain` leaves of an entry. -/
def visited (router : Router) (sessionId : UInt32) : Option RouteEntry → Router
  | some kept => router.store sessionId kept
  | none => { router with routes := router.routes.erase sessionId }

variable {ι : Type} [DecidableEq ι]

def State.moves (st : State ι) (i : ι) (place : Place) : State ι :=
  { st with place := Function.update st.place i place }

def init (maxSessions maxPeers : Nat) : State ι :=
  ⟨.new maxSessions maxPeers .new, fun _ => .idle, 0⟩

inductive Step : State ι → ι × Access → State ι → Prop where
  | once {st i op} (hplace : st.place i = .idle) (honce : Once st.router op)
    (htime : (st.time :: op.readings).Pairwise (· ≤ ·)) :
    Step st (i, .once op)
      { st with router := (st.router.exec op).1, time := op.readings.getLastD st.time }
  | looks {st i sessionId sender} (hplace : st.place i = .idle) (hzero : sessionId ≠ 0)
    (hnew : sessionId ∉ st.router.routes) :
    Step st (i, .looks sessionId sender) (st.moves i (.checkSize sessionId sender))
  | full {st i sessionId sender now} (hplace : st.place i = .checkSize sessionId sender)
    (hfull : st.router.maxSessions ≤ st.router.routes.size) :
    Step st (i, .checks now) { st.moves i .idle with router := st.router.drop .maxSessions }
  | fits {st i sessionId sender now} (hplace : st.place i = .checkSize sessionId sender)
    (hroom : st.router.routes.size < st.router.maxSessions) (htime : st.time ≤ now) :
    Step st (i, .checks now) { st.moves i (.insert sessionId sender now) with time := now }
  | inserts {st i sessionId sender now} (hplace : st.place i = .insert sessionId sender now) :
    Step st (i, .inserts)
      { st.moves i .count with router := st.router.store sessionId ⟨[sender], now, none, none⟩ }
  | counts {st i} (hplace : st.place i = .count) :
    Step st (i, .counts) (st.moves i (.setGauge st.router.routes.size))
  | writes {st i sessions} (hplace : st.place i = .setGauge sessions) :
    Step st (i, .writes)
      { st.moves i .idle with
        router := { st.router with
          metrics := { st.router.metrics with activeSessions := Int64.ofNat sessions } } }
  | looksRoom {st i code sessionId} (hplace : st.place i = .idle)
    (hcode : ¬st.router.rooms.contains code) :
    Step st (i, .looksRoom code sessionId) (st.moves i (.insertRoom code sessionId))
  | insertsRoom {st i code sessionId} (hplace : st.place i = .insertRoom code sessionId) :
    Step st (i, .insertsRoom)
      { st.moves i .idle with
        router := { st.router with rooms := st.router.rooms.insert code sessionId } }
  | collects {st i maxAgeSecs now} (hplace : st.place i = .idle) (htime : st.time ≤ now) :
    Step st (i, .collects maxAgeSecs now)
      { st.moves i (.retain (Duration.fromSecs maxAgeSecs.toNat) now 0) with time := now }
  | visits {st i sessionId closed entry maxAge now removed}
    (hplace : st.place i = .retain maxAge now removed)
    (hentry : st.router.routes[sessionId]? = some entry) :
    Step st (i, .visits sessionId closed)
      { st.moves i (.retain maxAge now
          (if (Router.keep now maxAge closed entry).isSome then removed else removed + 1)) with
        router := visited st.router sessionId (Router.keep now maxAge closed entry) }
  | collected {st i maxAge now removed} (hplace : st.place i = .retain maxAge now removed) :
    Step st (i, .collected) (st.moves i (if removed > 0 then .count else .idle))

structure EntryInv (maxPeers : Nat) (entry : RouteEntry) : Prop where
  peers : PeersInv maxPeers entry.peers
  floor : FloorInv entry

structure RoutesInv (maxPeers : Nat) (router : Router) : Prop where
  peerLimit : router.maxPeersPerSession = maxPeers
  zero : (0 : UInt32) ∉ router.routes
  entries : ∀ (sessionId : UInt32) (entry : RouteEntry),
    router.routes[sessionId]? = some entry → EntryInv maxPeers entry

section Table
variable {maxPeers : Nat} {router : Router} {sessionId : UInt32} {entry : RouteEntry}

theorem EntryInv.single (maxPeers : Nat) (sender : SessionEndpoint) (now : Nat) :
    EntryInv maxPeers ⟨[sender], now, none, none⟩ where
  peers := .single maxPeers sender
  floor := ⟨by simp, by simp⟩

theorem EntryInv.kept {kept : RouteEntry} {now maxAge : Nat} {closed : Channel → Bool}
    (h : EntryInv maxPeers entry) (hkept : Router.keep now maxAge closed entry = some kept) :
    EntryInv maxPeers kept := by
  obtain ⟨hne, hsub, hpeers, -, hholder, hgranted⟩ := Router.keep_eq_some hkept
  refine ⟨h.peers.sublist hsub hne, fun holder hheld => ?_, ?_⟩
  · rw [hpeers]
    exact ⟨h.floor.member holder (hholder ▸ hheld), by simp⟩
  · rw [hholder, hgranted]
    exact h.floor.stamped

theorem RoutesInv.dropped (h : RoutesInv maxPeers router) (reason : DropReason) :
    RoutesInv maxPeers (router.drop reason) where
  __ := h

theorem RoutesInv.stored (h : RoutesInv maxPeers router) (hzero : sessionId ≠ 0)
    (hentry : EntryInv maxPeers entry) : RoutesInv maxPeers (router.store sessionId entry) := by
  refine ⟨h.peerLimit, ?_, ?_⟩
  · rw [Router.store, Std.ExtTreeMap.mem_insert, Std.LawfulEqCmp.compare_eq_iff_eq]
    exact not_or.mpr ⟨hzero, h.zero⟩
  · intro k found hfound
    rw [Router.lookup_store] at hfound
    split_ifs at hfound
    · injection hfound with hfound
      exact hfound ▸ hentry
    · exact h.entries k found hfound

theorem RoutesInv.ne_zero (h : RoutesInv maxPeers router)
    (hentry : router.routes[sessionId]? = some entry) : sessionId ≠ 0 := by
  rintro rfl
  rw [Router.lookup_eq_none_iff.mpr h.zero] at hentry
  cases hentry

theorem RoutesInv.erased (h : RoutesInv maxPeers router) (sessionId : UInt32) :
    RoutesInv maxPeers { router with routes := router.routes.erase sessionId } := by
  refine ⟨h.peerLimit, fun hmem => h.zero (Std.ExtTreeMap.mem_of_mem_erase hmem), ?_⟩
  intro k found hfound
  rw [Std.ExtTreeMap.getElem?_erase] at hfound
  split_ifs at hfound
  exact h.entries k found hfound

theorem RoutesInv.visited (h : RoutesInv maxPeers router) {now maxAge : Nat}
    {closed : Channel → Bool} (hentry : router.routes[sessionId]? = some entry) :
    RoutesInv maxPeers (visited router sessionId (Router.keep now maxAge closed entry)) := by
  cases hkeep : Router.keep now maxAge closed entry with
  | some kept => exact h.stored (h.ne_zero hentry) ((h.entries _ _ hentry).kept hkeep)
  | none => exact h.erased sessionId

theorem RoutesInv.routed (h : RoutesInv maxPeers router) {sender : SessionEndpoint} {now : Nat}
    {after : Router} {decision : RouteDecision}
    (hcall : router.Routed sessionId sender now after decision) : RoutesInv maxPeers after := by
  cases hcall with
  | zero => exact h.dropped _
  | known hzero hentry =>
    have hold := h.entries _ _ hentry
    exact h.stored hzero ⟨hold.peers, { hold.floor with }⟩
  | full hzero hentry =>
    have hold := h.entries _ _ hentry
    apply dropped
    exact h.stored hzero ⟨hold.peers, { hold.floor with }⟩
  | joined hzero hentry hknown hroom =>
    have hold := h.entries _ _ hentry
    rw [h.peerLimit] at hroom
    refine h.stored hzero ⟨hold.peers.push hknown hroom, fun holder hholder => ?_, hold.floor.stamped⟩
    exact List.mem_append_left _ (hold.floor.member holder hholder)
  | limit => exact h.dropped _
  | created hzero => exact { h.stored hzero (.single maxPeers sender now) with }

theorem RoutesInv.requested (h : RoutesInv maxPeers router) {sender : SocketAddr}
    {clock : FloorClock} {after : Router} {decision : FloorDecision}
    (hcall : router.FloorRequested sessionId sender clock after decision) :
    RoutesInv maxPeers after := by
  cases hcall with
  | unknown => exact h
  | denied => exact h
  | granted hentry hknown =>
    refine h.stored (h.ne_zero hentry) ⟨(h.entries _ _ hentry).peers, fun holder hholder => ?_, by simp⟩
    injection hholder with hholder
    exact hholder ▸ hknown

theorem RoutesInv.released (h : RoutesInv maxPeers router) {sender : SocketAddr} {now : Nat}
    {after : Router} {decision : FloorDecision}
    (hcall : router.FloorReleased sessionId sender now after decision) :
    RoutesInv maxPeers after := by
  cases hcall with
  | unknown => exact h
  | denied => exact h
  | released hentry =>
    exact h.stored (h.ne_zero hentry) ⟨(h.entries _ _ hentry).peers, by simp, by simp⟩

theorem RoutesInv.once (h : RoutesInv maxPeers router) {op : Op} (honce : Once router op) :
    RoutesInv maxPeers (router.exec op).1 := by
  cases op with
  | route sessionId sender now => exact h.routed (router.route_routed sessionId sender now)
  | evictIdle => exact honce.elim
  | floorRequest sessionId sender clock =>
    exact h.requested (router.floorRequest_requested sessionId sender clock)
  | floorRelease sessionId sender now =>
    exact h.released (router.floorRelease_released sessionId sender now)
  | registerRoom code sessionId =>
    simp only [Router.exec, Router.registerRoom]
    split_ifs
    · exact h
    · exact { h with }
  | resolveRoom => exact h
  | removeRoom => exact { h with }
  | listRooms => exact honce.elim

def load (router : Router) : Nat × Nat := (router.routes.size, router.maxSessions)

theorem load_routed {sender : SessionEndpoint} {now : Nat} {after : Router}
    {decision : RouteDecision} (hcall : router.Routed sessionId sender now after decision)
    (honce : sessionId = 0 ∨ sessionId ∈ router.routes) : load after = load router := by
  cases hcall with
  | zero => rfl
  | known _ hentry => exact congrArg (·, _) (Router.size_store hentry _)
  | full _ hentry => exact congrArg (·, _) (Router.size_store hentry _)
  | joined _ hentry => exact congrArg (·, _) (Router.size_store hentry _)
  | limit => rfl
  | created hzero hnew => exact absurd (honce.resolve_left hzero) (Router.lookup_eq_none_iff.mp hnew)

theorem load_once {op : Op} (honce : Once router op) :
    load (router.exec op).1 = load router := by
  cases op with
  | route sessionId sender now => exact load_routed (router.route_routed sessionId sender now) honce
  | evictIdle => exact honce.elim
  | floorRequest sessionId sender clock =>
    have hcall := router.floorRequest_requested sessionId sender clock
    change load (router.floorRequest sessionId sender clock).1 = load router
    generalize router.floorRequest sessionId sender clock = result at hcall
    obtain ⟨after, decision⟩ := result
    cases hcall with
    | unknown => rfl
    | denied => rfl
    | granted hentry => exact congrArg (·, _) (Router.size_store hentry _)
  | floorRelease sessionId sender now =>
    have hcall := router.floorRelease_released sessionId sender now
    change load (router.floorRelease sessionId sender now).1 = load router
    generalize router.floorRelease sessionId sender now = result at hcall
    obtain ⟨after, decision⟩ := result
    cases hcall with
    | unknown => rfl
    | denied => rfl
    | released hentry => exact congrArg (·, _) (Router.size_store hentry _)
  | registerRoom code sessionId =>
    simp only [Router.exec, Router.registerRoom]
    split_ifs <;> rfl
  | resolveRoom => rfl
  | removeRoom => rfl
  | listRooms => exact honce.elim

theorem load_visited (hentry : router.routes[sessionId]? = some entry)
    (kept : Option RouteEntry) :
    (visited router sessionId kept).routes.size ≤ router.routes.size ∧
      (visited router sessionId kept).maxSessions = router.maxSessions := by
  cases kept with
  | some kept => exact ⟨(Router.size_store hentry kept).le, rfl⟩
  | none => exact ⟨Std.ExtTreeMap.size_erase_le, rfl⟩

end Table

variable [Fintype ι]

/-- One for a worker that has found room for a session it has not put in yet. -/
def Place.reserved : Place → Nat
  | insert _ _ _ => 1
  | _ => 0

def State.reserved (st : State ι) : Nat := ∑ i, (st.place i).reserved

omit [DecidableEq ι] in
theorem State.reserved_le (st : State ι) : st.reserved ≤ Fintype.card ι := by
  have hone : ∀ place : Place, place.reserved ≤ 1 := by
    intro place
    cases place <;> simp [Place.reserved]
  calc st.reserved ≤ ∑ _ : ι, 1 := Finset.sum_le_sum fun i _ => hone (st.place i)
    _ = Fintype.card ι := by simp

theorem State.reserved_moves (st : State ι) (i : ι) (place : Place) :
    (st.moves i place).reserved + (st.place i).reserved = st.reserved + place.reserved := by
  have hcomp : (fun j => ((st.moves i place).place j).reserved) =
      Function.update (fun j => (st.place j).reserved) i place.reserved :=
    Function.comp_update Place.reserved st.place i place
  have hrest := Finset.sum_update_of_mem (Finset.mem_univ i) (fun j => (st.place j).reserved)
    place.reserved
  have hall := Finset.sum_eq_add_sum_sdiff_singleton_of_mem (Finset.mem_univ i)
    fun j => (st.place j).reserved
  unfold State.reserved
  rw [hcomp, hrest, hall]
  omega

def Place.session : Place → Option UInt32
  | checkSize sessionId _ => some sessionId
  | insert sessionId _ _ => some sessionId
  | _ => none

structure Inv (maxSessions maxPeers : Nat) (st : State ι) : Prop where
  routes : RoutesInv maxPeers st.router
  session : ∀ i, (st.place i).session ≠ some 0
  sessionLimit : st.router.maxSessions = maxSessions
  sessions : st.router.routes.size + st.reserved ≤ maxSessions + (Fintype.card ι - 1)

section Run
variable {maxSessions maxPeers : Nat} {st st' : State ι} {i : ι} {place : Place}

omit [Fintype ι] in
theorem session_moves (h : ∀ i, (st.place i).session ≠ some 0) (hplace : place.session ≠ some 0)
    (j : ι) : ((st.moves i place).place j).session ≠ some 0 := by
  by_cases hj : j = i
  · subst hj
    simpa [State.moves] using hplace
  · simpa [State.moves, hj] using h j

theorem Inv.moves (h : Inv maxSessions maxPeers st) {router : Router} (time : Nat)
    (hroutes : RoutesInv maxPeers router) (hlimit : router.maxSessions = st.router.maxSessions)
    (hplace : place.session ≠ some 0)
    (hsize : router.routes.size + place.reserved ≤
      st.router.routes.size + (st.place i).reserved) :
    Inv maxSessions maxPeers { st.moves i place with router := router, time := time } := by
  refine ⟨hroutes, session_moves h.session hplace, hlimit.trans h.sessionLimit, ?_⟩
  have hmoves := st.reserved_moves i place
  have hsessions := h.sessions
  change router.routes.size + (st.moves i place).reserved ≤ _
  omega

theorem Inv.step (h : Inv maxSessions maxPeers st) {access : Access}
    (hstep : Step st (i, access) st') : Inv maxSessions maxPeers st' := by
  cases hstep with
  | once _ honce =>
    obtain ⟨hsize, hlimit⟩ := Prod.mk.inj (load_once honce)
    refine ⟨h.routes.once honce, h.session, hlimit.trans h.sessionLimit, ?_⟩
    exact hsize ▸ h.sessions
  | looks _ hzero =>
    exact h.moves _ h.routes rfl (by simpa [Place.session] using hzero) (Nat.le_add_right _ _)
  | full =>
    exact h.moves _ (h.routes.dropped _) rfl (by simp [Place.session]) (Nat.le_add_right _ _)
  | fits hplace hroom =>
    have hsession := h.session i
    rw [hplace] at hsession
    -- the table was below its limit, and no more than all workers keep room
    have hsessions : ∀ place : Place, st.router.routes.size + (st.moves i place).reserved ≤
        maxSessions + (Fintype.card ι - 1) := by
      intro place
      have hle := (st.moves i place).reserved_le
      have hlimit := h.sessionLimit
      have hcard : 0 < Fintype.card ι := Fintype.card_pos_iff.mpr ⟨i⟩
      omega
    exact ⟨h.routes, session_moves h.session hsession, h.sessionLimit, hsessions _⟩
  | inserts hplace =>
    have hsession := h.session i
    rw [hplace] at hsession
    have hzero := fun hzero => hsession (congrArg some hzero)
    refine h.moves _ (h.routes.stored hzero (.single _ _ _)) rfl (by simp [Place.session]) ?_
    rw [hplace]
    exact st.router.size_store_le _ _
  | counts => exact h.moves _ h.routes rfl (by simp [Place.session]) (Nat.le_add_right _ _)
  | writes =>
    exact h.moves _ { h.routes with } rfl (by simp [Place.session]) (Nat.le_add_right _ _)
  | looksRoom => exact h.moves _ h.routes rfl (by simp [Place.session]) (Nat.le_add_right _ _)
  | insertsRoom =>
    exact h.moves _ { h.routes with } rfl (by simp [Place.session]) (Nat.le_add_right _ _)
  | collects => exact h.moves _ h.routes rfl (by simp [Place.session]) (Nat.le_add_right _ _)
  | visits _ hentry =>
    obtain ⟨hsize, hlimit⟩ := load_visited hentry _
    exact h.moves _ (h.routes.visited hentry) hlimit (by simp [Place.session])
      (Nat.le_add_right_of_le hsize)
  | collected =>
    split_ifs <;>
      exact h.moves _ h.routes rfl (by simp [Place.session]) (Nat.le_add_right _ _)

omit [DecidableEq ι] in
theorem Inv.init (maxSessions maxPeers : Nat) :
    Inv maxSessions maxPeers (init maxSessions maxPeers : State ι) where
  routes := by
    refine ⟨rfl, Std.ExtTreeMap.not_mem_empty, fun sessionId entry hentry => ?_⟩
    simp [Workers.init, Router.new] at hentry
  session := by
    intro i hsession
    cases hsession
  sessionLimit := rfl
  sessions := by
    simp [Workers.init, Router.new, State.reserved, Place.reserved]

end Run

abbrev Runs (maxSessions maxPeers : Nat) (st : State ι) : Prop :=
  Reaches Step (fun _ _ => True) (init maxSessions maxPeers) st

theorem Inv.of_runs {maxSessions maxPeers : Nat} {st : State ι}
    (hrun : Runs maxSessions maxPeers st) : Inv maxSessions maxPeers st :=
  hrun.invariant (Inv.init maxSessions maxPeers) fun _ _ _ h hstep _ => h.step hstep

section Overrun
variable {n maxSessions maxPeers : Nat}

structure Filled (maxSessions k : Nat) (st : State ι) : Prop where
  sessionLimit : st.router.maxSessions = maxSessions
  size : st.router.routes.size = k
  below : ∀ sessionId ∈ st.router.routes, sessionId.toNat ≤ k
  time : st.time = 0

omit [Fintype ι] [DecidableEq ι] in
theorem Filled.fresh {k : Nat} {st : State ι} (h : Filled maxSessions k st)
    (hk : k + 1 < UInt32.size) : UInt32.ofNat (k + 1) ∉ st.router.routes := by
  intro hmem
  have hbelow := h.below _ hmem
  rw [UInt32.toNat_ofNat_of_lt' hk] at hbelow
  omega

omit [Fintype ι] in
theorem Filled.inserts {k : Nat} {st : State ι} (h : Filled maxSessions k st)
    (hk : k + 1 < UInt32.size) {i : ι} {sender : SessionEndpoint} {now : Nat}
    (hrun : Runs maxSessions maxPeers st)
    (hplace : st.place i = .insert (.ofNat (k + 1)) sender now) :
    ∃ st', Runs maxSessions maxPeers st' ∧ Filled maxSessions (k + 1) st' ∧
      st'.place = Function.update st.place i .count := by
  refine ⟨_, hrun.tail (.inserts hplace) trivial, ⟨h.sessionLimit, ?_, ?_, h.time⟩, rfl⟩
  · have hnew := h.fresh hk
    rw [← Std.ExtTreeMap.contains_iff_mem] at hnew
    simp only [Router.store, Std.ExtTreeMap.size_insert, if_neg hnew, h.size]
  · intro sessionId hmem
    simp only [Router.store, Std.ExtTreeMap.mem_insert, Std.LawfulEqCmp.compare_eq_iff_eq] at hmem
    obtain rfl | hmem := hmem
    · rw [UInt32.toNat_ofNat_of_lt' hk]
    · exact (h.below sessionId hmem).trans (Nat.le_succ k)

omit [Fintype ι] in
theorem Filled.finds {k k' : Nat} {st : State ι} (h : Filled maxSessions k st)
    (hk : k < k') (hroom : k < maxSessions) (hk' : k' < UInt32.size) {i : ι}
    (sender : SessionEndpoint) (hrun : Runs maxSessions maxPeers st) (hplace : st.place i = .idle) :
    ∃ st', Runs maxSessions maxPeers st' ∧ Filled maxSessions k st' ∧
      st'.place = Function.update st.place i (.insert (.ofNat k') sender 0) := by
  have htoNat := UInt32.toNat_ofNat_of_lt' hk'
  have hzero : UInt32.ofNat k' ≠ 0 := by
    intro hzero
    rw [hzero, UInt32.toNat_zero] at htoNat
    omega
  have hnew : UInt32.ofNat k' ∉ st.router.routes := by
    intro hmem
    have hbelow := h.below _ hmem
    omega
  have hlooks : Step st (i, .looks (.ofNat k') sender) _ := .looks hplace hzero hnew
  have hplace' : (st.moves i (.checkSize (.ofNat k') sender)).place i =
      .checkSize (.ofNat k') sender := by simp [State.moves]
  have hroom' : st.router.routes.size < st.router.maxSessions := by
    rw [h.size, h.sessionLimit]
    exact hroom
  have hfits := Step.fits hplace' hroom' h.time.le
  refine ⟨_, (hrun.tail hlooks trivial).tail hfits trivial, { h with time := rfl }, ?_⟩
  simp [State.moves]

theorem exists_filled (ι : Type) [DecidableEq ι] [Nonempty ι] (maxSessions maxPeers : Nat)
    (sender : SessionEndpoint) {k : Nat} (hk : k ≤ maxSessions) (hsize : k < UInt32.size) :
    ∃ st : State ι, Runs maxSessions maxPeers st ∧ Filled maxSessions k st ∧
      ∀ i, st.place i = .idle := by
  induction k with
  | zero =>
    refine ⟨init maxSessions maxPeers, .refl _, ⟨rfl, rfl, fun sessionId hmem => ?_, rfl⟩, ?_⟩
    · exact absurd hmem Std.ExtTreeMap.not_mem_empty
    · exact fun _ => rfl
  | succ k ih =>
    obtain ⟨st, hrun, hfilled, hidle⟩ := ih (by omega) (by omega)
    obtain ⟨i⟩ := ‹Nonempty ι›
    obtain ⟨found, hrun, hfilled, hfound⟩ :=
      hfilled.finds (Nat.lt_succ_self k) hk hsize sender hrun (hidle i)
    have hplace : found.place i = .insert (.ofNat (k + 1)) sender 0 := by simp [hfound]
    obtain ⟨put, hrun, hfilled, hput⟩ := hfilled.inserts hsize hrun hplace
    have hplace : put.place i = .count := by simp [hput]
    have hcounts := Step.counts hplace
    have hplace : (put.moves i (.setGauge put.router.routes.size)).place i =
        .setGauge put.router.routes.size := by simp [State.moves]
    have hwrites := Step.writes hplace
    refine ⟨_, (hrun.tail hcounts trivial).tail hwrites trivial, { hfilled with }, fun j => ?_⟩
    by_cases hj : j = i
    · simp [State.moves, hj]
    · simp [State.moves, hj, hput, hfound, hidle]

/-- With one session missing, the first `m` workers have found room for another. -/
theorem exists_found (maxPeers : Nat) (sender : SessionEndpoint) (hn : 0 < n)
    (hmax : 0 < maxSessions) (hsize : maxSessions + n ≤ UInt32.size) {m : Nat} (hm : m ≤ n) :
    ∃ st : State (Fin n), Runs maxSessions maxPeers st ∧ Filled maxSessions (maxSessions - 1) st ∧
      ∀ i, st.place i =
        if i.val < m then .insert (.ofNat (maxSessions + i.val)) sender 0 else .idle := by
  induction m with
  | zero =>
    have : Nonempty (Fin n) := ⟨⟨0, hn⟩⟩
    have hlt : maxSessions - 1 < UInt32.size := by omega
    simpa using exists_filled (Fin n) maxSessions maxPeers sender (Nat.sub_le _ 1) hlt
  | succ m ih =>
    obtain ⟨st, hrun, hfilled, hplace⟩ := ih (by omega)
    have hidle : st.place ⟨m, hm⟩ = .idle := by simp [hplace]
    have hsession : maxSessions - 1 < maxSessions + m := by omega
    obtain ⟨found, hrun, hfilled, hfound⟩ :=
      hfilled.finds hsession (by omega) (by omega) sender hrun hidle
    refine ⟨found, hrun, hfilled, fun i => ?_⟩
    rw [hfound]
    by_cases hi : i = ⟨m, hm⟩
    · subst hi
      simp
    · have hne : i.val ≠ m := fun hval => hi (Fin.ext hval)
      simp only [Function.update_of_ne hi, hplace, show i.val < m + 1 ↔ i.val < m by omega]

theorem exists_overrun (maxPeers : Nat) (sender : SessionEndpoint) (hn : 0 < n)
    (hmax : 0 < maxSessions) (hsize : maxSessions + n ≤ UInt32.size) {m : Nat} (hm : m ≤ n) :
    ∃ st : State (Fin n), Runs maxSessions maxPeers st ∧
      Filled maxSessions (maxSessions - 1 + m) st ∧
      ∀ i, m ≤ i.val → st.place i = .insert (.ofNat (maxSessions + i.val)) sender 0 := by
  induction m with
  | zero =>
    obtain ⟨st, hrun, hfilled, hplace⟩ :=
      exists_found maxPeers sender hn hmax hsize (le_refl n)
    exact ⟨st, hrun, hfilled, fun i _ => by simp [hplace]⟩
  | succ m ih =>
    obtain ⟨st, hrun, hfilled, hplace⟩ := ih (by omega)
    have hnext : maxSessions - 1 + m + 1 = maxSessions + m := by omega
    have hinsert : st.place ⟨m, hm⟩ = .insert (.ofNat (maxSessions - 1 + m + 1)) sender 0 := by
      rw [hnext]
      exact hplace _ (le_refl m)
    obtain ⟨put, hrun, hfilled, hput⟩ := hfilled.inserts (by omega) hrun hinsert
    refine ⟨put, hrun, hfilled, fun i hi => ?_⟩
    have hne : i ≠ ⟨m, hm⟩ := by
      rintro rfl
      exact Nat.not_succ_le_self m hi
    rw [hput, Function.update_of_ne hne]
    exact hplace i (by omega)

end Overrun

/-- However many workers call however often, each session is in order, and the limit on sessions is
passed by less than there are workers. -/
theorem workers_keep_table (maxSessions maxPeers : Nat) {st : State ι}
    (hrun : Runs maxSessions maxPeers st) :
    (0 : UInt32) ∉ st.router.routes ∧
      st.router.routes.size ≤ maxSessions + (Fintype.card ι - 1) ∧
      ∀ (sessionId : UInt32) (entry : RouteEntry), st.router.routes[sessionId]? = some entry →
        1 ≤ entry.peers.length ∧ entry.peers.length ≤ max 1 maxPeers ∧
          (entry.peers.Pairwise fun a b => ¬a.matchesEndpoint b) ∧
          (∀ holder, entry.floorHolder = some holder → .udp holder ∈ entry.peers) ∧
          (entry.floorHolder.isSome ↔ entry.floorGrantedAt.isSome) := by
  have h := Inv.of_runs hrun
  refine ⟨h.routes.zero, (Nat.le_add_right _ _).trans h.sessions, fun sessionId entry hentry => ?_⟩
  obtain ⟨hpeers, hfloor⟩ := h.routes.entries sessionId entry hentry
  exact ⟨hpeers.nonempty, hpeers.limit, hpeers.distinct, hfloor.member, hfloor.stamped⟩

theorem workers_keep_table_two : ∃ st : State (Fin 2), Runs 1 5 st ∧
    (0 : UInt32) ∉ st.router.routes ∧ st.router.routes.size = 2 ∧
      st.router.routes.size ≤ 1 + (Fintype.card (Fin 2) - 1) := by
  obtain ⟨st, hrun, hfilled, -⟩ := @exists_overrun 2 1 5 (.webSocket 0) (by decide) (by decide)
    (by decide) 2 (le_refl 2)
  obtain ⟨hzero, hsize, -⟩ := workers_keep_table 1 5 hrun
  exact ⟨st, hrun, hzero, hfilled.size, hsize⟩

/-- Workers that all look for room while one session is missing go that far beyond the limit. -/
theorem session_limit_overrun {n maxSessions : Nat} (maxPeers : Nat) (hn : 0 < n)
    (hmax : 0 < maxSessions) (hsize : maxSessions + n ≤ UInt32.size) :
    IsGreatest { size | ∃ st : State (Fin n), Runs maxSessions maxPeers st ∧
      st.router.routes.size = size } (maxSessions + (n - 1)) := by
  constructor
  · obtain ⟨st, hrun, hfilled, -⟩ :=
      exists_overrun maxPeers (.webSocket 0) hn hmax hsize (le_refl n)
    refine ⟨st, hrun, ?_⟩
    rw [hfilled.size]
    omega
  · rintro size ⟨st, hrun, rfl⟩
    have h := (Inv.of_runs hrun).sessions
    rw [Fintype.card_fin] at h
    omega

theorem session_limit_overrun_two : 0 < 2 ∧ 0 < 1 ∧ 1 + 2 ≤ UInt32.size ∧
    IsGreatest { size | ∃ st : State (Fin 2), Runs 1 5 st ∧ st.router.routes.size = size }
      (1 + (2 - 1)) :=
  ⟨by decide, by decide, by decide,
    session_limit_overrun 5 (by decide) (by decide) (by decide)⟩

end GravitalTalk.Relay.Workers
