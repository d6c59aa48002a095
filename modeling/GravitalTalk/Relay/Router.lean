import GravitalTalk.Lib.Trace
import GravitalTalk.Transport.Session
import Std.Data.ExtTreeMap

/-! The relay's routing table: sessions with their peers and floor, and room codes. -/
namespace GravitalTalk.Relay
open Lib GravitalTalk.Core Transport Trace

/-- Readings of the monotonic clock are nanoseconds; a difference stops at zero. -/
def Instant.elapsed (self now : Nat) : Nat := now - self

def Duration.fromSecs (secs : Nat) : Nat := secs * 1000000000

def floorMaxHoldSecs : Nat := 30

/-- Identifies a channel: two senders are of the same channel when their numbers are equal. -/
abbrev Channel := Nat

inductive SessionEndpoint where
  | udp (addr : SocketAddr)
  | webSocket (tx : Channel)
  deriving DecidableEq, Repr

namespace SessionEndpoint

/-- `matches` in the source. -/
def matchesEndpoint : SessionEndpoint → SessionEndpoint → Bool
  | udp a, udp b => a == b
  | webSocket a, webSocket b => a == b
  | _, _ => false

@[simp] theorem matchesEndpoint_iff (a b : SessionEndpoint) : a.matchesEndpoint b ↔ a = b := by
  cases a <;> cases b <;> simp [matchesEndpoint]

@[simp] theorem matchesEndpoint_eq_decide (a b : SessionEndpoint) :
    a.matchesEndpoint b = decide (a = b) := by
  rw [Bool.eq_iff_iff, matchesEndpoint_iff, decide_eq_true_eq]

end SessionEndpoint

structure RouteEntry where
  peers : List SessionEndpoint
  lastActivity : Nat
  floorHolder : Option SocketAddr
  floorGrantedAt : Option Nat
  deriving DecidableEq, Repr

namespace RouteEntry

def new (now : Nat) : RouteEntry := ⟨[], now, none, none⟩

def floorIsFree (self : RouteEntry) (now : Nat) : Bool :=
  match self.floorHolder, self.floorGrantedAt with
  | none, _ => true
  | some _, some granted => decide (Instant.elapsed granted now > Duration.fromSecs floorMaxHoldSecs)
  | some _, none => false

/-- The step of `floor_request` that drops a holder over its time. -/
def autoRelease (self : RouteEntry) (free expiry : Nat) : RouteEntry :=
  if !self.floorIsFree free then
    match self.floorHolder, self.floorGrantedAt with
    | some _, some granted =>
      if Instant.elapsed granted expiry > Duration.fromSecs floorMaxHoldSecs then
        { self with floorHolder := none, floorGrantedAt := none }
      else self
    | _, _ => self
  else self

def others (self : RouteEntry) (sender : SessionEndpoint) : List SessionEndpoint :=
  self.peers.filter (!·.matchesEndpoint sender)

def known (self : RouteEntry) (sender : SessionEndpoint) : Bool :=
  self.peers.any (·.matchesEndpoint sender)

@[simp] theorem known_iff (self : RouteEntry) (sender : SessionEndpoint) :
    self.known sender ↔ sender ∈ self.peers := by
  simp only [known, List.any_eq_true, SessionEndpoint.matchesEndpoint_iff, exists_eq_right]

@[simp] theorem mem_others (self : RouteEntry) (sender e : SessionEndpoint) :
    e ∈ self.others sender ↔ e ∈ self.peers ∧ e ≠ sender := by
  simp [others]

end RouteEntry

inductive DropReason where
  | zeroSession
  | sessionFull
  | maxSessions
  | malformed
  | sendError
  | wsDisconnected
  deriving DecidableEq, Repr

structure RelayMetrics where
  packetsIn : UInt64
  packetsOut : UInt64
  bytesIn : UInt64
  bytesOut : UInt64
  activeSessions : Int64
  dropped : DropReason → UInt64

namespace RelayMetrics

def new : RelayMetrics := ⟨0, 0, 0, 0, 0, fun _ => 0⟩

def drop (self : RelayMetrics) (reason : DropReason) : RelayMetrics :=
  { self with dropped := Function.update self.dropped reason (self.dropped reason + 1) }

end RelayMetrics

abbrev Routes := Std.ExtTreeMap UInt32 RouteEntry
abbrev Rooms := Std.ExtTreeMap String UInt32

structure Router where
  routes : Routes
  rooms : Rooms
  maxSessions : Nat
  maxPeersPerSession : Nat
  metrics : RelayMetrics

inductive RouteDecision where
  | broadcast (targets : List SessionEndpoint)
  | registered
  | dropped
  deriving DecidableEq, Repr

def RouteDecision.targets : RouteDecision → List SessionEndpoint
  | broadcast targets => targets
  | registered => []
  | dropped => []

/-- `Broadcast`, or `Registered` when there is nobody to forward to. -/
def RouteDecision.toAll (targets : List SessionEndpoint) : RouteDecision :=
  if targets.isEmpty then .registered else .broadcast targets

@[simp] theorem RouteDecision.targets_toAll (targets : List SessionEndpoint) :
    (toAll targets).targets = targets := by
  cases targets <;> rfl

@[simp] theorem RouteDecision.toAll_ne_dropped (targets : List SessionEndpoint) :
    toAll targets ≠ .dropped := by
  cases targets <;> simp [toAll]

inductive FloorDecision where
  | granted (others : List SessionEndpoint)
  | denied
  | released (others : List SessionEndpoint)
  | unknown
  deriving DecidableEq, Repr

/-- The clock readings of one `floor_request`, in the order the call takes them. -/
structure FloorClock where
  free : Nat
  expiry : Nat
  recheck : Nat
  grant : Nat
  deriving DecidableEq, Repr

def FloorClock.readings (self : FloorClock) : List Nat :=
  [self.free, self.expiry, self.recheck, self.grant]

namespace Router

def new (maxSessions maxPeersPerSession : Nat) (metrics : RelayMetrics) : Router :=
  ⟨∅, ∅, maxSessions, maxPeersPerSession, metrics⟩

/-- Writes back an entry that was held for writing. -/
def store (self : Router) (sessionId : UInt32) (entry : RouteEntry) : Router :=
  { self with routes := self.routes.insert sessionId entry }

def drop (self : Router) (reason : DropReason) : Router :=
  { self with metrics := self.metrics.drop reason }

/-- `active_sessions.set(self.routes.len() as i64)` -/
def setActiveSessions (self : Router) : Router :=
  { self with
    metrics := { self.metrics with activeSessions := Int64.ofNat self.routes.size } }

def route (self : Router) (sessionId : UInt32) (sender : SessionEndpoint) (now : Nat) :
    Router × RouteDecision :=
  if sessionId = 0 then (self.drop .zeroSession, .dropped)
  else
    match self.routes[sessionId]? with
    | some entry =>
      let entry := { entry with lastActivity := now }
      if entry.known sender then
        (self.store sessionId entry, .toAll (entry.others sender))
      else if entry.peers.length ≥ self.maxPeersPerSession then
        ((self.store sessionId entry).drop .sessionFull, .dropped)
      else
        let existing := entry.peers
        (self.store sessionId { entry with peers := entry.peers ++ [sender] }, .toAll existing)
    | none =>
      if self.routes.size ≥ self.maxSessions then (self.drop .maxSessions, .dropped)
      else
        let entry := RouteEntry.new now
        let entry := { entry with peers := entry.peers ++ [sender] }
        ((self.store sessionId entry).setActiveSessions, .registered)

/-- The closure of `evict_idle`: the entry without its closed channels, if it stays.  `closed`
is what `is_closed` answers for the channels of this session. -/
def keep (now : Nat) (maxAge : Nat) (closed : Channel → Bool) (entry : RouteEntry) :
    Option RouteEntry :=
  let peers := entry.peers.filter fun
    | .webSocket tx => !closed tx
    | .udp _ => true
  if !peers.isEmpty ∧ Instant.elapsed entry.lastActivity now < maxAge then some { entry with peers := peers }
  else none

def evictIdle (self : Router) (maxAgeSecs : UInt64) (now : Nat)
    (closed : UInt32 → Channel → Bool) : Router × Nat :=
  let maxAge := Duration.fromSecs maxAgeSecs.toNat
  let routes := self.routes.filterMap fun sessionId => keep now maxAge (closed sessionId)
  let removed := self.routes.size - routes.size
  let self := { self with routes := routes }
  (if removed > 0 then self.setActiveSessions else self, removed)

def peerCount (self : Router) (sessionId : UInt32) : Nat :=
  match self.routes[sessionId]? with
  | some entry => entry.peers.length
  | none => 0

def floorRequest (self : Router) (sessionId : UInt32) (sender : SocketAddr) (clock : FloorClock) :
    Router × FloorDecision :=
  match self.routes[sessionId]? with
  | none => (self, .unknown)
  | some entry =>
    if !entry.known (.udp sender) then (self, .unknown)
    else
      let entry := entry.autoRelease clock.free clock.expiry
      if !entry.floorIsFree clock.recheck then (self.store sessionId entry, .denied)
      else
        let entry := { entry with
          floorHolder := some sender
          floorGrantedAt := some clock.grant }
        (self.store sessionId entry, .granted (entry.others (.udp sender)))

def floorRelease (self : Router) (sessionId : UInt32) (sender : SocketAddr) (now : Nat) :
    Router × FloorDecision :=
  match self.routes[sessionId]? with
  | none => (self, .unknown)
  | some entry =>
    let isHolder := entry.floorHolder == some sender || entry.floorIsFree now
    if !isHolder then (self, .denied)
    else
      let entry := { entry with floorHolder := none, floorGrantedAt := none }
      (self.store sessionId entry, .released (entry.others (.udp sender)))

def floorHolder (self : Router) (sessionId : UInt32) : Option SocketAddr := do
  let entry ← self.routes[sessionId]?
  entry.floorHolder

def registerRoom (self : Router) (code : String) (sessionId : UInt32) : Router × Bool :=
  if self.rooms.contains code then (self, false)
  else ({ self with rooms := self.rooms.insert code sessionId }, true)

def resolveRoom (self : Router) (code : String) : Option UInt32 := self.rooms[code]?

def removeRoom (self : Router) (code : String) : Router × Bool :=
  ({ self with rooms := self.rooms.erase code }, self.rooms.contains code)

/-- In the order of the codes; the source's order is that of its hash map. -/
def listRooms (self : Router) : List (String × UInt32 × Nat) :=
  self.rooms.toList.map fun (code, sessionId) => (code, sessionId, self.peerCount sessionId)

theorem lookup_eq_none_iff {routes : Routes} {k : UInt32} : routes[k]? = none ↔ k ∉ routes := by
  rw [Std.ExtTreeMap.mem_iff_isSome_getElem?, Option.not_isSome_iff_eq_none]

theorem lookup_store (self : Router) (sessionId k : UInt32) (entry : RouteEntry) :
    (self.store sessionId entry).routes[k]? =
      if sessionId = k then some entry else self.routes[k]? := by
  simp [store, Std.ExtTreeMap.getElem?_insert]

theorem lookup_store_self (self : Router) (sessionId : UInt32) (entry : RouteEntry) :
    (self.store sessionId entry).routes[sessionId]? = some entry := by
  rw [lookup_store, if_pos rfl]

theorem lookup_store_of_ne (self : Router) {sessionId k : UInt32} (h : sessionId ≠ k)
    (entry : RouteEntry) : (self.store sessionId entry).routes[k]? = self.routes[k]? := by
  rw [lookup_store, if_neg h]

theorem size_store {self : Router} {sessionId : UInt32} {entry : RouteEntry}
    (hentry : self.routes[sessionId]? = some entry) (changed : RouteEntry) :
    (self.store sessionId changed).routes.size = self.routes.size := by
  have hmem : sessionId ∈ self.routes := by
    rw [Std.ExtTreeMap.mem_iff_isSome_getElem?, hentry]
    rfl
  rw [store, Std.ExtTreeMap.size_insert, if_pos (Std.ExtTreeMap.contains_iff_mem.mpr hmem)]

theorem size_store_le (self : Router) (sessionId : UInt32) (entry : RouteEntry) :
    (self.store sessionId entry).routes.size ≤ self.routes.size + 1 := by
  simp only [store, Std.ExtTreeMap.size_insert]
  split_ifs <;> omega

theorem store_eq_self {self : Router} {sessionId : UInt32} {entry : RouteEntry}
    (h : self.routes[sessionId]? = some entry) : self.store sessionId entry = self := by
  have hroutes : (self.store sessionId entry).routes = self.routes := by
    apply Std.ExtTreeMap.ext_getElem?
    intro k
    rw [lookup_store]
    split_ifs with hk
    · rw [← hk, h]
    · rfl
  exact congrArg (fun routes => { self with routes := routes }) hroutes

inductive Routed (self : Router) (sessionId : UInt32) (sender : SessionEndpoint) (now : Nat) :
    Router → RouteDecision → Prop
  | zero (hzero : sessionId = 0) :
    Routed self sessionId sender now (self.drop .zeroSession) .dropped
  | known {entry : RouteEntry} (hzero : sessionId ≠ 0)
    (hentry : self.routes[sessionId]? = some entry) (hknown : sender ∈ entry.peers) :
    Routed self sessionId sender now (self.store sessionId { entry with lastActivity := now })
      (.toAll (entry.others sender))
  | full {entry : RouteEntry} (hzero : sessionId ≠ 0)
    (hentry : self.routes[sessionId]? = some entry) (hknown : sender ∉ entry.peers)
    (hfull : self.maxPeersPerSession ≤ entry.peers.length) :
    Routed self sessionId sender now
      ((self.store sessionId { entry with lastActivity := now }).drop .sessionFull) .dropped
  | joined {entry : RouteEntry} (hzero : sessionId ≠ 0)
    (hentry : self.routes[sessionId]? = some entry) (hknown : sender ∉ entry.peers)
    (hroom : entry.peers.length < self.maxPeersPerSession) :
    Routed self sessionId sender now
      (self.store sessionId { entry with lastActivity := now, peers := entry.peers ++ [sender] })
      (.toAll entry.peers)
  | limit (hzero : sessionId ≠ 0) (hnew : self.routes[sessionId]? = none)
    (hfull : self.maxSessions ≤ self.routes.size) :
    Routed self sessionId sender now (self.drop .maxSessions) .dropped
  | created (hzero : sessionId ≠ 0) (hnew : self.routes[sessionId]? = none)
    (hroom : self.routes.size < self.maxSessions) :
    Routed self sessionId sender now
      (self.store sessionId ⟨[sender], now, none, none⟩).setActiveSessions .registered

theorem route_routed (self : Router) (sessionId : UInt32) (sender : SessionEndpoint)
    (now : Nat) : self.Routed sessionId sender now (self.route sessionId sender now).1
      (self.route sessionId sender now).2 := by
  unfold route
  by_cases hzero : sessionId = 0
  · rw [if_pos hzero]
    exact .zero hzero
  rw [if_neg hzero]
  cases hentry : self.routes[sessionId]? with
  | some entry =>
    dsimp only
    split_ifs with hknown hfull
    · exact .known hzero hentry ((RouteEntry.known_iff _ _).mp hknown)
    · exact .full hzero hentry (fun h => hknown ((RouteEntry.known_iff _ _).mpr h)) hfull
    · exact .joined hzero hentry (fun h => hknown ((RouteEntry.known_iff _ _).mpr h))
        (Nat.lt_of_not_le hfull)
  | none =>
    dsimp only
    split_ifs with hfull
    · exact .limit hzero hentry hfull
    · exact .created hzero hentry (Nat.lt_of_not_le hfull)

theorem route_known {self : Router} {sessionId : UInt32} {entry : RouteEntry}
    {sender : SessionEndpoint} (now : Nat) (hzero : sessionId ≠ 0)
    (hentry : self.routes[sessionId]? = some entry) (hknown : sender ∈ entry.peers) :
    self.route sessionId sender now =
      (self.store sessionId { entry with lastActivity := now }, .toAll (entry.others sender)) := by
  have hpeer : RouteEntry.known { entry with lastActivity := now } sender :=
    (RouteEntry.known_iff _ _).mpr hknown
  simp only [route, if_neg hzero, hentry, if_pos hpeer]
  rfl

theorem route_limit {self : Router} {sessionId : UInt32} (sender : SessionEndpoint) (now : Nat)
    (hzero : sessionId ≠ 0) (hnew : self.routes[sessionId]? = none)
    (hfull : self.maxSessions ≤ self.routes.size) :
    self.route sessionId sender now = (self.drop .maxSessions, .dropped) := by
  simp only [route, if_neg hzero, hnew, if_pos hfull]

theorem route_created {self : Router} {sessionId : UInt32} (sender : SessionEndpoint) (now : Nat)
    (hzero : sessionId ≠ 0) (hnew : self.routes[sessionId]? = none)
    (hroom : self.routes.size < self.maxSessions) :
    self.route sessionId sender now =
      ((self.store sessionId ⟨[sender], now, none, none⟩).setActiveSessions, .registered) := by
  simp only [route, if_neg hzero, hnew, if_neg (Nat.not_le.mpr hroom)]
  rfl

/-- The grant an entry holds had run out at one of the readings. -/
def Expired (entry : RouteEntry) (readings : List Nat) : Prop :=
  ∃ granted, entry.floorGrantedAt = some granted ∧
    ∃ now ∈ readings, Duration.fromSecs floorMaxHoldSecs < Instant.elapsed granted now

theorem Expired.mono {entry : RouteEntry} {readings more : List Nat} (h : Expired entry readings)
    (hsub : readings ⊆ more) : Expired entry more := by
  obtain ⟨granted, hgranted, now, hnow, hover⟩ := h
  exact ⟨granted, hgranted, now, hsub hnow, hover⟩

theorem floorIsFree_iff (entry : RouteEntry) (now : Nat) :
    entry.floorIsFree now ↔ entry.floorHolder = none ∨ Expired entry [now] := by
  unfold RouteEntry.floorIsFree Expired
  cases entry.floorHolder <;> cases entry.floorGrantedAt <;> simp

theorem autoRelease_cases (entry : RouteEntry) (free expiry : Nat) :
    entry.autoRelease free expiry = entry ∨ Expired entry [expiry] ∧
      entry.autoRelease free expiry = { entry with floorHolder := none, floorGrantedAt := none } := by
  unfold RouteEntry.autoRelease
  split_ifs with hfree
  · cases hholder : entry.floorHolder <;> cases hgranted : entry.floorGrantedAt
    case some.some holder granted =>
      dsimp only
      split_ifs with hover
      · exact .inr ⟨⟨granted, hgranted, expiry, List.mem_singleton_self _, hover⟩, rfl⟩
      · exact .inl rfl
    all_goals exact .inl rfl
  · exact .inl rfl

inductive FloorRequested (self : Router) (sessionId : UInt32) (sender : SocketAddr)
    (clock : FloorClock) : Router → FloorDecision → Prop
  | unknown (hunknown : ∀ entry, self.routes[sessionId]? = some entry → .udp sender ∉ entry.peers) :
    FloorRequested self sessionId sender clock self .unknown
  | denied {entry : RouteEntry} (hentry : self.routes[sessionId]? = some entry)
    (hknown : .udp sender ∈ entry.peers) (hheld : entry.floorHolder ≠ none)
    (hvalid : ¬Expired entry [clock.recheck]) :
    FloorRequested self sessionId sender clock self .denied
  | granted {entry : RouteEntry} (hentry : self.routes[sessionId]? = some entry)
    (hknown : .udp sender ∈ entry.peers)
    (hfree : entry.floorHolder = none ∨ Expired entry clock.readings) :
    FloorRequested self sessionId sender clock
      (self.store sessionId { entry with
        floorHolder := some sender
        floorGrantedAt := some clock.grant })
      (.granted (entry.others (.udp sender)))

theorem floorRequest_requested (self : Router) (sessionId : UInt32) (sender : SocketAddr)
    (clock : FloorClock) : self.FloorRequested sessionId sender clock
      (self.floorRequest sessionId sender clock).1 (self.floorRequest sessionId sender clock).2 := by
  unfold floorRequest
  cases hentry : self.routes[sessionId]? with
  | none => exact .unknown (by simp [hentry])
  | some entry =>
    dsimp only
    by_cases hknown : .udp sender ∈ entry.peers
    · rw [(RouteEntry.known_iff _ _).mpr hknown]
      obtain hkept | ⟨hexpired, hreleased⟩ := autoRelease_cases entry clock.free clock.expiry
      · rw [hkept]
        by_cases hfree : entry.floorIsFree clock.recheck
        · simp only [hfree]
          refine .granted hentry hknown (((floorIsFree_iff _ _).mp hfree).imp_right fun h => ?_)
          exact h.mono (by simp [FloorClock.readings])
        · have hbusy := mt (floorIsFree_iff _ _).mpr hfree
          simp only [hfree, store_eq_self hentry]
          exact .denied hentry hknown (fun h => hbusy (.inl h)) (fun h => hbusy (.inr h))
      · -- once released, the floor is free at whatever the third reading is
        have hover : Expired entry clock.readings := hexpired.mono (by simp [FloorClock.readings])
        have hgrant := FloorRequested.granted hentry hknown (.inr hover)
        rw [hreleased]
        exact hgrant
    · have hunknown := mt (RouteEntry.known_iff _ _).mp hknown
      simp only [hunknown]
      exact .unknown (by simpa [hentry] using hknown)

inductive FloorReleased (self : Router) (sessionId : UInt32) (sender : SocketAddr)
    (now : Nat) : Router → FloorDecision → Prop
  | unknown (hentry : self.routes[sessionId]? = none) :
    FloorReleased self sessionId sender now self .unknown
  | denied {entry : RouteEntry} (hentry : self.routes[sessionId]? = some entry)
    (hheld : entry.floorHolder ≠ some sender) (hbusy : ¬entry.floorIsFree now) :
    FloorReleased self sessionId sender now self .denied
  | released {entry : RouteEntry} (hentry : self.routes[sessionId]? = some entry)
    (hfree : entry.floorHolder = some sender ∨ entry.floorIsFree now) :
    FloorReleased self sessionId sender now
      (self.store sessionId { entry with floorHolder := none, floorGrantedAt := none })
      (.released (entry.others (.udp sender)))

theorem floorRelease_released (self : Router) (sessionId : UInt32) (sender : SocketAddr)
    (now : Nat) : self.FloorReleased sessionId sender now
      (self.floorRelease sessionId sender now).1 (self.floorRelease sessionId sender now).2 := by
  unfold floorRelease
  cases hentry : self.routes[sessionId]? with
  | none => exact .unknown hentry
  | some entry =>
    dsimp only
    split_ifs with hholder
    · simp only [Bool.not_eq_true', Bool.or_eq_false_iff, beq_eq_false_iff_ne] at hholder
      exact .denied hentry hholder.1 (by simp [hholder.2])
    · simp only [Bool.not_eq_true', Bool.not_eq_false, Bool.or_eq_true, beq_iff_eq] at hholder
      exact .released hentry hholder

theorem keep_eq_some {now : Nat} {maxAge : Nat} {closed : Channel → Bool}
    {entry kept : RouteEntry} (h : keep now maxAge closed entry = some kept) :
    kept.peers ≠ [] ∧ kept.peers.Sublist entry.peers ∧
      (∀ e, e ∈ kept.peers ↔ e ∈ entry.peers ∧ ∀ tx, e = .webSocket tx → ¬closed tx) ∧
      kept.lastActivity = entry.lastActivity ∧ kept.floorHolder = entry.floorHolder ∧
        kept.floorGrantedAt = entry.floorGrantedAt := by
  unfold keep at h
  dsimp only at h
  split_ifs at h with hkeep
  injection h with h
  subst h
  refine ⟨?_, List.filter_sublist, ?_, rfl, rfl, rfl⟩
  · simpa using hkeep.1
  · intro e
    cases e <;> simp

theorem lookup_evictIdle (self : Router) (maxAgeSecs : UInt64) (now : Nat)
    (closed : UInt32 → Channel → Bool) (k : UInt32) :
    (self.evictIdle maxAgeSecs now closed).1.routes[k]? =
      self.routes[k]?.bind (keep now (Duration.fromSecs maxAgeSecs.toNat) (closed k)) := by
  unfold evictIdle setActiveSessions
  dsimp only
  split_ifs <;> exact Std.ExtTreeMap.getElem?_filterMap'

end Router

/-- A call on the router, with the clock readings and channel states it meets. -/
inductive Op where
  | route (sessionId : UInt32) (sender : SessionEndpoint) (now : Nat)
  | evictIdle (maxAgeSecs : UInt64) (now : Nat) (closed : UInt32 → Channel → Bool)
  | floorRequest (sessionId : UInt32) (sender : SocketAddr) (clock : FloorClock)
  | floorRelease (sessionId : UInt32) (sender : SocketAddr) (now : Nat)
  | registerRoom (code : String) (sessionId : UInt32)
  | resolveRoom (code : String)
  | removeRoom (code : String)
  | listRooms

inductive Answer where
  | route (decision : RouteDecision)
  | evicted (removed : Nat)
  | floor (decision : FloorDecision)
  | registered (fresh : Bool)
  | resolved (sessionId : Option UInt32)
  | removed (found : Bool)
  | rooms (list : List (String × UInt32 × Nat))
  deriving DecidableEq

def Op.readings : Op → List Nat
  | route _ _ now => [now]
  | evictIdle _ now _ => [now]
  | floorRequest _ _ clock => clock.readings
  | floorRelease _ _ now => [now]
  | registerRoom _ _ => []
  | resolveRoom _ => []
  | removeRoom _ => []
  | listRooms => []

namespace Router

def exec (self : Router) : Op → Router × Answer
  | .route sessionId sender now => (self.route sessionId sender now).map id .route
  | .evictIdle maxAgeSecs now closed => (self.evictIdle maxAgeSecs now closed).map id .evicted
  | .floorRequest sessionId sender clock =>
    (self.floorRequest sessionId sender clock).map id .floor
  | .floorRelease sessionId sender now => (self.floorRelease sessionId sender now).map id .floor
  | .registerRoom code sessionId => (self.registerRoom code sessionId).map id .registered
  | .resolveRoom code => (self, .resolved (self.resolveRoom code))
  | .removeRoom code => (self.removeRoom code).map id .removed
  | .listRooms => (self, .rooms self.listRooms)

end Router

end GravitalTalk.Relay
