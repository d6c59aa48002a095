import GravitalTalk.Relay.Router

/-! One session of the table: what a call can do to its entry, and to nothing else. -/
namespace GravitalTalk.Relay
open Lib GravitalTalk.Core Transport Trace

abbrev Call := Event Router Op Answer

def Call.Evicts (call : Call) (sessionId : UInt32) : Prop :=
  (∃ maxAgeSecs now closed, call.input = .evictIdle maxAgeSecs now closed) ∧
    sessionId ∈ call.before.routes ∧ sessionId ∉ call.after.routes

def Op.concerns (k : UInt32) : Op → Prop
  | route sessionId _ _ => sessionId = k
  | floorRequest sessionId _ _ => sessionId = k
  | floorRelease sessionId _ _ => sessionId = k
  | _ => False

def FloorDecision.isGranted : FloorDecision → Bool
  | granted _ => true
  | _ => false

/-- What a call, with its answer, makes of the entry of session `k`; `none` is no entry. -/
inductive EntryStep (k : UInt32) : Op → Answer → Option RouteEntry → Option RouteEntry → Prop
  | created {sender : SessionEndpoint} {now : Nat} :
    EntryStep k (.route k sender now) (.route .registered) none (some ⟨[sender], now, none, none⟩)
  | known {entry : RouteEntry} {sender : SessionEndpoint} {now : Nat}
    (hknown : sender ∈ entry.peers) :
    EntryStep k (.route k sender now) (.route (.toAll (entry.others sender))) (some entry)
      (some { entry with lastActivity := now })
  | joined {entry : RouteEntry} {sender : SessionEndpoint} {now : Nat}
    (hknown : sender ∉ entry.peers) :
    EntryStep k (.route k sender now) (.route (.toAll entry.peers)) (some entry)
      (some { entry with lastActivity := now, peers := entry.peers ++ [sender] })
  | full {entry : RouteEntry} {sender : SessionEndpoint} {now : Nat} :
    EntryStep k (.route k sender now) (.route .dropped) (some entry)
      (some { entry with lastActivity := now })
  | refused {entry : Option RouteEntry} {sender : SessionEndpoint} {now : Nat} :
    EntryStep k (.route k sender now) (.route .dropped) entry entry
  | granted {entry : RouteEntry} {sender : SocketAddr} {clock : FloorClock}
    (hknown : .udp sender ∈ entry.peers)
    (hfree : entry.floorHolder = none ∨ Router.Expired entry clock.readings) :
    EntryStep k (.floorRequest k sender clock) (.floor (.granted (entry.others (.udp sender))))
      (some entry)
      (some { entry with floorHolder := some sender, floorGrantedAt := some clock.grant })
  | notGranted {entry : Option RouteEntry} {sender : SocketAddr} {clock : FloorClock}
    {decision : FloorDecision} (hdecision : ¬decision.isGranted) :
    EntryStep k (.floorRequest k sender clock) (.floor decision) entry entry
  | released {entry : RouteEntry} {sender : SocketAddr} {now : Nat}
    (hfree : entry.floorHolder = some sender ∨ entry.floorIsFree now) :
    EntryStep k (.floorRelease k sender now) (.floor (.released (entry.others (.udp sender))))
      (some entry) (some { entry with floorHolder := none, floorGrantedAt := none })
  | notReleased {entry : Option RouteEntry} {sender : SocketAddr} {now : Nat}
    {decision : FloorDecision} :
    EntryStep k (.floorRelease k sender now) (.floor decision) entry entry
  | kept {entry kept : RouteEntry} {maxAgeSecs : UInt64} {now : Nat}
    {closed : UInt32 → Channel → Bool} {removed : Nat}
    (hkept : Router.keep now (Duration.fromSecs maxAgeSecs.toNat) (closed k) entry = some kept) :
    EntryStep k (.evictIdle maxAgeSecs now closed) (.evicted removed) (some entry) (some kept)
  | evicted {entry : RouteEntry} {maxAgeSecs : UInt64} {now : Nat}
    {closed : UInt32 → Channel → Bool} {removed : Nat} :
    EntryStep k (.evictIdle maxAgeSecs now closed) (.evicted removed) (some entry) none
  | absent {maxAgeSecs : UInt64} {now : Nat} {closed : UInt32 → Channel → Bool}
    {removed : Nat} :
    EntryStep k (.evictIdle maxAgeSecs now closed) (.evicted removed) none none
  | other {entry : Option RouteEntry} {op : Op} {answer : Answer} (hother : ¬op.concerns k)
    (hstays : ∀ maxAgeSecs now closed, op ≠ .evictIdle maxAgeSecs now closed) :
    EntryStep k op answer entry entry

namespace Router

variable {self after : Router} {sessionId k : UInt32}

theorem Routed.frame {sender : SessionEndpoint} {now : Nat} {decision : RouteDecision}
    (h : self.Routed sessionId sender now after decision) (hk : sessionId ≠ k) :
    after.routes[k]? = self.routes[k]? := by
  cases h with
  | zero => rfl
  | known => apply self.lookup_store_of_ne hk
  | full => apply self.lookup_store_of_ne hk
  | joined => apply self.lookup_store_of_ne hk
  | limit => rfl
  | created => apply self.lookup_store_of_ne hk

theorem FloorRequested.frame {sender : SocketAddr} {clock : FloorClock} {decision : FloorDecision}
    (h : self.FloorRequested sessionId sender clock after decision) (hk : sessionId ≠ k) :
    after.routes[k]? = self.routes[k]? := by
  cases h with
  | unknown => rfl
  | denied => rfl
  | granted => apply self.lookup_store_of_ne hk

theorem FloorReleased.frame {sender : SocketAddr} {now : Nat} {decision : FloorDecision}
    (h : self.FloorReleased sessionId sender now after decision) (hk : sessionId ≠ k) :
    after.routes[k]? = self.routes[k]? := by
  cases h with
  | unknown => rfl
  | denied => rfl
  | released => apply self.lookup_store_of_ne hk

theorem Routed.entry {sender : SessionEndpoint} {now : Nat} {decision : RouteDecision}
    (h : self.Routed sessionId sender now after decision) :
    EntryStep k (.route sessionId sender now) (.route decision) self.routes[k]?
      after.routes[k]? := by
  by_cases hk : sessionId = k
  · subst hk
    cases h with
    | zero => exact .refused
    | known _ hentry hknown =>
      rw [lookup_store_self, hentry]
      exact .known hknown
    | @full entry _ hentry =>
      have hlookup := self.lookup_store_self sessionId { entry with lastActivity := now }
      rw [hentry]
      exact hlookup ▸ .full
    | joined _ hentry hknown =>
      rw [lookup_store_self, hentry]
      exact .joined hknown
    | limit => exact .refused
    | created _ hnew =>
      have hlookup := self.lookup_store_self sessionId ⟨[sender], now, none, none⟩
      rw [hnew]
      exact hlookup ▸ .created
  · rw [h.frame hk]
    exact .other hk (by simp)

theorem FloorRequested.entry {sender : SocketAddr} {clock : FloorClock} {decision : FloorDecision}
    (h : self.FloorRequested sessionId sender clock after decision) :
    EntryStep k (.floorRequest sessionId sender clock) (.floor decision) self.routes[k]?
      after.routes[k]? := by
  by_cases hk : sessionId = k
  · subst hk
    cases h with
    | unknown => exact .notGranted (by simp [FloorDecision.isGranted])
    | denied => exact .notGranted (by simp [FloorDecision.isGranted])
    | granted hentry hknown hfree =>
      rw [lookup_store_self, hentry]
      exact .granted hknown hfree
  · rw [h.frame hk]
    exact .other hk (by simp)

theorem FloorReleased.entry {sender : SocketAddr} {now : Nat} {decision : FloorDecision}
    (h : self.FloorReleased sessionId sender now after decision) :
    EntryStep k (.floorRelease sessionId sender now) (.floor decision) self.routes[k]?
      after.routes[k]? := by
  by_cases hk : sessionId = k
  · subst hk
    cases h with
    | unknown => exact .notReleased
    | denied => exact .notReleased
    | released hentry hfree =>
      rw [lookup_store_self, hentry]
      exact .released hfree
  · rw [h.frame hk]
    exact .other hk (by simp)

theorem evictIdle_entry (self : Router) (maxAgeSecs : UInt64) (now : Nat)
    (closed : UInt32 → Channel → Bool) :
    EntryStep k (.evictIdle maxAgeSecs now closed)
      (.evicted (self.evictIdle maxAgeSecs now closed).2) self.routes[k]?
      (self.evictIdle maxAgeSecs now closed).1.routes[k]? := by
  rw [lookup_evictIdle]
  cases self.routes[k]? with
  | none => exact .absent
  | some entry =>
    rw [Option.bind_some]
    cases hkeep : keep now (Duration.fromSecs maxAgeSecs.toNat) (closed k) entry with
    | none => exact .evicted
    | some kept => exact .kept hkeep

theorem exec_entry (self : Router) (op : Op) (k : UInt32) :
    EntryStep k op (self.exec op).2 self.routes[k]? (self.exec op).1.routes[k]? := by
  cases op with
  | route sessionId sender now => exact (self.route_routed sessionId sender now).entry
  | evictIdle maxAgeSecs now closed => exact self.evictIdle_entry maxAgeSecs now closed
  | floorRequest sessionId sender clock =>
    exact (self.floorRequest_requested sessionId sender clock).entry
  | floorRelease sessionId sender now =>
    exact (self.floorRelease_released sessionId sender now).entry
  | registerRoom code sessionId =>
    have hsame : (self.registerRoom code sessionId).1.routes = self.routes := by
      unfold registerRoom
      split_ifs <;> rfl
    simp only [exec, Prod.map, id, hsame]
    exact .other (by simp [Op.concerns]) (by simp)
  | resolveRoom code => exact .other (by simp [Op.concerns]) (by simp)
  | removeRoom code => exact .other (by simp [Op.concerns]) (by simp)
  | listRooms => exact .other (by simp [Op.concerns]) (by simp)

end Router

end GravitalTalk.Relay
