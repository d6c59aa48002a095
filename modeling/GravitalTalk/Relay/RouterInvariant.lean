import GravitalTalk.Relay.Router

/-! What holds of the routing table after every run of calls. -/
namespace GravitalTalk.Relay
open Lib GravitalTalk.Core Transport Trace

structure PeersInv (maxPeers : Nat) (peers : List SessionEndpoint) : Prop where
  nonempty : 1 ≤ peers.length
  limit : peers.length ≤ max 1 maxPeers
  distinct : peers.Pairwise fun a b => ¬a.matchesEndpoint b

structure TableInv (maxSessions maxPeers : Nat) (router : Router) : Prop where
  sessionLimit : router.maxSessions = maxSessions
  peerLimit : router.maxPeersPerSession = maxPeers
  zero : (0 : UInt32) ∉ router.routes
  sessions : router.routes.size ≤ maxSessions
  peers : ∀ (sessionId : UInt32) (entry : RouteEntry), router.routes[sessionId]? = some entry →
    PeersInv maxPeers entry.peers
  gauge : router.metrics.activeSessions.toInt = router.routes.size

theorem PeersInv.single (maxPeers : Nat) (e : SessionEndpoint) : PeersInv maxPeers [e] where
  nonempty := le_refl 1
  limit := le_max_left 1 maxPeers
  distinct := List.pairwise_singleton _ e

theorem PeersInv.push {maxPeers : Nat} {peers : List SessionEndpoint} {e : SessionEndpoint}
    (h : PeersInv maxPeers peers) (hknown : e ∉ peers) (hroom : peers.length < maxPeers) :
    PeersInv maxPeers (peers ++ [e]) where
  nonempty := by simp
  limit := by
    rw [List.length_append, List.length_singleton]
    omega
  distinct := by
    rw [List.pairwise_append]
    refine ⟨h.distinct, List.pairwise_singleton _ e, ?_⟩
    intro a ha b hb
    rw [List.mem_singleton.mp hb, SessionEndpoint.matchesEndpoint_iff]
    rintro rfl
    exact hknown ha

theorem PeersInv.sublist {maxPeers : Nat} {peers kept : List SessionEndpoint}
    (h : PeersInv maxPeers peers) (hsub : kept.Sublist peers) (hne : kept ≠ []) :
    PeersInv maxPeers kept where
  nonempty := List.length_pos_of_ne_nil hne
  limit := hsub.length_le.trans h.limit
  distinct := h.distinct.sublist hsub

theorem size_lt (routes : Routes) : routes.size < 2 ^ 63 := by
  have hinj : Function.Injective UInt32.toFin := fun a b h => UInt32.toFin_inj.mp h
  have hnodup : (routes.keys.map UInt32.toFin).Nodup := Std.ExtTreeMap.nodup_keys.map hinj
  have hcard := hnodup.length_le_card
  rw [List.length_map, Std.ExtTreeMap.length_keys, Fintype.card_fin, UInt32.size] at hcard
  omega

namespace TableInv

variable {maxSessions maxPeers : Nat} {self : Router} {sessionId : UInt32} {entry : RouteEntry}

theorem dropped (h : TableInv maxSessions maxPeers self) (reason : DropReason) :
    TableInv maxSessions maxPeers (self.drop reason) where
  __ := h

theorem ne_zero (h : TableInv maxSessions maxPeers self)
    (hentry : self.routes[sessionId]? = some entry) : sessionId ≠ 0 := by
  rintro rfl
  rw [Router.lookup_eq_none_iff.mpr h.zero] at hentry
  cases hentry

theorem stored (h : TableInv maxSessions maxPeers self) {changed : RouteEntry}
    (hentry : self.routes[sessionId]? = some entry) (hpeers : PeersInv maxPeers changed.peers) :
    TableInv maxSessions maxPeers (self.store sessionId changed) := by
  have hsize := Router.size_store hentry changed
  refine ⟨h.sessionLimit, h.peerLimit, ?_, ?_, ?_, ?_⟩
  · rw [Router.store, Std.ExtTreeMap.mem_insert, Std.LawfulEqCmp.compare_eq_iff_eq]
    exact not_or.mpr ⟨h.ne_zero hentry, h.zero⟩
  · rw [hsize]
    exact h.sessions
  · intro k found hfound
    rw [Router.lookup_store] at hfound
    split_ifs at hfound
    · injection hfound with hfound
      rw [← hfound]
      exact hpeers
    · exact h.peers k found hfound
  · rw [hsize]
    exact h.gauge

theorem touched (h : TableInv maxSessions maxPeers self) {changed : RouteEntry}
    (hentry : self.routes[sessionId]? = some entry) (hsame : changed.peers = entry.peers) :
    TableInv maxSessions maxPeers (self.store sessionId changed) := by
  apply h.stored hentry
  rw [hsame]
  exact h.peers sessionId entry hentry

theorem created (h : TableInv maxSessions maxPeers self) (hzero : sessionId ≠ 0)
    (hroom : self.routes.size < self.maxSessions)
    (hpeers : PeersInv maxPeers entry.peers) :
    TableInv maxSessions maxPeers (self.store sessionId entry).setActiveSessions := by
  refine ⟨h.sessionLimit, h.peerLimit, ?_, ?_, ?_, Int64.toInt_ofNat_of_lt (size_lt _)⟩
  · simp only [Router.setActiveSessions, Router.store, Std.ExtTreeMap.mem_insert,
      Std.LawfulEqCmp.compare_eq_iff_eq]
    exact not_or.mpr ⟨hzero, h.zero⟩
  · rw [h.sessionLimit] at hroom
    exact (self.size_store_le sessionId entry).trans hroom
  · intro k found hfound
    have hlookup := self.lookup_store sessionId k entry
    rw [show (self.store sessionId entry).setActiveSessions.routes[k]? = _ from hlookup] at hfound
    split_ifs at hfound
    · injection hfound with hfound
      rw [← hfound]
      exact hpeers
    · exact h.peers k found hfound

theorem routed (h : TableInv maxSessions maxPeers self) {sender : SessionEndpoint} {now : Nat}
    {after : Router} {decision : RouteDecision}
    (hcall : self.Routed sessionId sender now after decision) :
    TableInv maxSessions maxPeers after := by
  cases hcall with
  | zero => exact h.dropped _
  | known _ hentry => exact h.touched hentry rfl
  | full _ hentry =>
    apply dropped
    exact h.touched hentry rfl
  | joined _ hentry hknown hroom =>
    rw [h.peerLimit] at hroom
    exact h.stored hentry ((h.peers _ _ hentry).push hknown hroom)
  | limit => exact h.dropped _
  | created hzero _ hroom => exact h.created hzero hroom (.single maxPeers sender)

theorem requested (h : TableInv maxSessions maxPeers self) {sender : SocketAddr}
    {clock : FloorClock} {after : Router} {decision : FloorDecision}
    (hcall : self.FloorRequested sessionId sender clock after decision) :
    TableInv maxSessions maxPeers after := by
  cases hcall with
  | unknown => exact h
  | denied => exact h
  | granted hentry => exact h.touched hentry rfl

theorem released (h : TableInv maxSessions maxPeers self) {sender : SocketAddr} {now : Nat}
    {after : Router} {decision : FloorDecision}
    (hcall : self.FloorReleased sessionId sender now after decision) :
    TableInv maxSessions maxPeers after := by
  cases hcall with
  | unknown => exact h
  | denied => exact h
  | released hentry => exact h.touched hentry rfl

theorem evicted (h : TableInv maxSessions maxPeers self) (maxAgeSecs : UInt64) (now : Nat)
    (closed : UInt32 → Channel → Bool) :
    TableInv maxSessions maxPeers (self.evictIdle maxAgeSecs now closed).1 := by
  have hpeers : ∀ (k : UInt32) (found : RouteEntry),
      (self.evictIdle maxAgeSecs now closed).1.routes[k]? = some found → PeersInv maxPeers
        found.peers := by
    intro k found hfound
    rw [Router.lookup_evictIdle, Option.bind_eq_some_iff] at hfound
    obtain ⟨entry, hentry, hkeep⟩ := hfound
    obtain ⟨hne, hsub, -⟩ := Router.keep_eq_some hkeep
    exact (h.peers k entry hentry).sublist hsub hne
  have hzero : (0 : UInt32) ∉ (self.evictIdle maxAgeSecs now closed).1.routes := by
    rw [← Router.lookup_eq_none_iff, Router.lookup_evictIdle,
      Router.lookup_eq_none_iff.mpr h.zero, Option.bind_none]
  unfold Router.evictIdle at hpeers hzero ⊢
  dsimp only at hpeers hzero ⊢
  generalize hkept : self.routes.filterMap _ = kept at hpeers hzero ⊢
  have hle : kept.size ≤ self.routes.size := hkept ▸ Std.ExtTreeMap.size_filterMap_le_size
  split_ifs at hpeers hzero ⊢ with hremoved
  · exact ⟨h.sessionLimit, h.peerLimit, hzero, hle.trans h.sessions, hpeers,
      Int64.toInt_ofNat_of_lt (size_lt kept)⟩
  · -- nothing was removed, so the gauge that was not written is still right
    have hsize : kept.size = self.routes.size := by omega
    have hgauge : self.metrics.activeSessions.toInt = kept.size := by
      rw [hsize]
      exact h.gauge
    exact ⟨h.sessionLimit, h.peerLimit, hzero, hle.trans h.sessions, hpeers, hgauge⟩

theorem called (h : TableInv maxSessions maxPeers self) (op : Op) :
    TableInv maxSessions maxPeers (self.exec op).1 := by
  cases op with
  | route sessionId sender now => exact h.routed (self.route_routed sessionId sender now)
  | evictIdle maxAgeSecs now closed => exact h.evicted maxAgeSecs now closed
  | floorRequest sessionId sender clock =>
    exact h.requested (self.floorRequest_requested sessionId sender clock)
  | floorRelease sessionId sender now =>
    exact h.released (self.floorRelease_released sessionId sender now)
  | registerRoom code sessionId =>
    simp only [Router.exec, Router.registerRoom]
    split_ifs
    · exact h
    · exact { h with }
  | resolveRoom code => exact h
  | removeRoom code => exact { h with }
  | listRooms => exact h

end TableInv

theorem TableInv.new (maxSessions maxPeers : Nat) :
    TableInv maxSessions maxPeers (.new maxSessions maxPeers .new) where
  sessionLimit := rfl
  peerLimit := rfl
  zero := Std.ExtTreeMap.not_mem_empty
  sessions := Nat.zero_le maxSessions
  peers := by
    intro sessionId entry hentry
    simp [Router.new] at hentry
  gauge := rfl

theorem tableInv_final (maxSessions maxPeers : Nat) (ops : List Op) :
    TableInv maxSessions maxPeers (final Router.exec (.new maxSessions maxPeers .new) ops) :=
  final_induction (TableInv.new maxSessions maxPeers) (fun _ op h => h.called op) ops

/-- The table of a relay is in order after any calls. -/
theorem router_table_invariants (maxSessions maxPeers : Nat) (ops : List Op) :
    let router := final Router.exec (.new maxSessions maxPeers .new) ops
    (0 : UInt32) ∉ router.routes ∧ router.routes.size ≤ maxSessions ∧
      (∀ (sessionId : UInt32) (entry : RouteEntry), router.routes[sessionId]? = some entry →
        1 ≤ entry.peers.length ∧ entry.peers.length ≤ max 1 maxPeers ∧
          entry.peers.Pairwise fun a b => ¬a.matchesEndpoint b) ∧
      router.metrics.activeSessions.toInt = router.routes.size := by
  intro router
  have h : TableInv maxSessions maxPeers router := tableInv_final maxSessions maxPeers ops
  refine ⟨h.zero, h.sessions, fun sessionId entry hentry => ?_, h.gauge⟩
  have hpeers := h.peers sessionId entry hentry
  exact ⟨hpeers.nonempty, hpeers.limit, hpeers.distinct⟩

end GravitalTalk.Relay
