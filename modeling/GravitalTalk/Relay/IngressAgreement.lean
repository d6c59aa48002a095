import GravitalTalk.Relay.Ingress

/-! The two loops compared: a WebSocket endpoint in the place of a UDP endpoint. -/
namespace GravitalTalk.Relay
open Lib GravitalTalk.Core Transport

def SessionEndpoint.rename (a : SocketAddr) (tx : Channel) (e : SessionEndpoint) : SessionEndpoint :=
  if e = .udp a then .webSocket tx else e

def RouteEntry.rename (a : SocketAddr) (tx : Channel) (entry : RouteEntry) : RouteEntry :=
  { entry with peers := entry.peers.map (·.rename a tx) }

def Router.rename (a : SocketAddr) (tx : Channel) (sessionId : UInt32) (self : Router) : Router :=
  match self.routes[sessionId]? with
  | some entry => self.store sessionId (entry.rename a tx)
  | none => self

def Forwarded.rename (a : SocketAddr) (tx : Channel) (out : Forwarded) : Forwarded :=
  { out with target := out.target.rename a tx }

/-- Up to the sender's name, both loops send the same and leave the same table. -/
def IngressAgrees (router : Router) (env : RelayEnv) (data : Bytes) (sessionId : UInt32)
    (a : SocketAddr) (tx : Channel) : Prop :=
  let udp := Udp.handle router env data a
  let ws := Ws.handle (router.rename a tx sessionId) env data tx
  ws.2 = udp.2.map (·.rename a tx) ∧ ws.1.SameTable (udp.1.rename a tx sessionId)

/-- A FloorRelease that says nothing: there is nothing to release, to note or to tell. -/
def Idle (entry : RouteEntry) (env : RelayEnv) (data : Bytes) (sessionId : UInt32)
    (a : SocketAddr) : Prop :=
  entry.lastActivity = env.routedAt ∧
    if entry.floorHolder = some a ∨ entry.floorIsFree env.releasedAt then
      entry.floorHolder = none ∧ entry.floorGrantedAt = none ∧
        (entry.others (.udp a) = [] ∨ data = Udp.floorBytes .floorRelease sessionId)
    else entry.others (.udp a) = []

section Renaming
variable {a : SocketAddr} {tx : Channel} {entry : RouteEntry} {self : Router} {k : UInt32}

theorem rename_others (entry : RouteEntry) (a : SocketAddr) (tx : Channel) :
    (entry.others (.udp a)).map (·.rename a tx) = entry.others (.udp a) := by
  have hsame : ∀ e ∈ entry.others (.udp a), e.rename a tx = id e := by
    intro e he
    exact if_neg ((RouteEntry.mem_others _ _ _).mp he).2
  rw [List.map_congr_left hsame, List.map_id]

theorem others_rename (hfresh : .webSocket tx ∉ entry.peers) :
    (entry.rename a tx).others (.webSocket tx) = entry.others (.udp a) := by
  have hkept : ∀ e ∈ entry.peers, (!(e.rename a tx).matchesEndpoint (.webSocket tx)) =
      !e.matchesEndpoint (.udp a) := by
    intro e he
    have hne : e ≠ .webSocket tx := fun heq => hfresh (heq ▸ he)
    by_cases hsender : e = .udp a <;> simp [SessionEndpoint.rename, hsender, hne]
  calc (entry.rename a tx).others (.webSocket tx)
      = (entry.others (.udp a)).map (·.rename a tx) := by
        simp only [RouteEntry.others, RouteEntry.rename, List.filter_map]
        exact congrArg (List.map _) (List.filter_congr hkept)
    _ = entry.others (.udp a) := rename_others entry a tx

theorem mem_rename (hknown : .udp a ∈ entry.peers) :
    .webSocket tx ∈ (entry.rename a tx).peers :=
  List.mem_map.mpr ⟨.udp a, hknown, if_pos rfl⟩

theorem store_store (self : Router) (k : UInt32) (entry changed : RouteEntry) :
    (self.store k entry).store k changed = self.store k changed := by
  have hroutes : ((self.store k entry).store k changed).routes = (self.store k changed).routes := by
    apply Std.ExtTreeMap.ext_getElem?
    intro i
    simp only [Router.lookup_store]
    split_ifs <;> rfl
  exact congrArg (fun routes => { self with routes := routes }) hroutes

theorem rename_eq (hentry : self.routes[k]? = some entry) :
    self.rename a tx k = self.store k (entry.rename a tx) := by
  rw [Router.rename, hentry]

theorem sameTable_iff {left right : Router} {changed : RouteEntry}
    (hleft : left.SameTable (self.store k entry)) (hright : right.SameTable (self.store k changed)) :
    left.SameTable right ↔ entry = changed := by
  constructor
  · rintro ⟨hroutes, -⟩
    rw [hleft.1, hright.1] at hroutes
    have hlookup := congrArg (fun routes : Routes => routes[k]?) hroutes
    simpa only [Router.lookup_store, if_true, Option.some.injEq] using hlookup
  · rintro rfl
    exact hleft.trans hright.symm

theorem sameTable_rename {other : Router} {changed : RouteEntry}
    (h : other.SameTable (self.store k changed)) :
    (other.rename a tx k).SameTable (self.store k (changed.rename a tx)) := by
  have hlookup : other.routes[k]? = some changed := by
    rw [h.1, Router.lookup_store, if_pos rfl]
  have hstore := congrArg Router.routes (store_store self k changed (changed.rename a tx))
  rw [rename_eq hlookup]
  refine ⟨Eq.trans ?_ hstore, h.2⟩
  simp only [Router.store, h.1]

theorem map_sent_iff (entry : RouteEntry) (a : SocketAddr) (tx : Channel) (data bytes : Bytes) :
    (entry.others (.udp a)).map (Forwarded.mk · data) =
        ((entry.others (.udp a)).map (Forwarded.mk · bytes)).map (·.rename a tx) ↔
      entry.others (.udp a) = [] ∨ data = bytes := by
  have hrenamed : ((entry.others (.udp a)).map (Forwarded.mk · bytes)).map (·.rename a tx) =
      (entry.others (.udp a)).map (Forwarded.mk · bytes) := by
    nth_rewrite 2 [← rename_others entry a tx]
    simp only [List.map_map]
    rfl
  rw [hrenamed]
  cases entry.others (.udp a) with
  | nil => simp
  | cons e rest =>
    constructor
    · intro h
      injection h with hfirst
      injection hfirst with _ hdata
      exact .inr hdata
    · rintro (hnil | rfl)
      · cases hnil
      · rfl

end Renaming

section Turn
variable {router : Router} {env : RelayEnv} {data : Bytes} {view : PacketView} {a : SocketAddr}
  {tx : Channel} {entry : RouteEntry} (hdecode : PacketView.decode data = .ok view)
  (hzero : (0 : UInt32) ∉ router.routes)
  (hentry : router.routes[view.header.sessionId]? = some entry) (hknown : .udp a ∈ entry.peers)
  (hfresh : .webSocket tx ∉ entry.peers)
include hdecode hzero hentry hknown

omit hdecode hknown in
theorem sessionId_ne_zero : view.header.sessionId ≠ 0 := by
  intro hsession
  rw [hsession, Router.lookup_eq_none_iff.mpr hzero] at hentry
  cases hentry

include hfresh in
theorem ws_handle_known :
    (Ws.handle (router.rename a tx view.header.sessionId) env data tx).1.SameTable
        (router.store view.header.sessionId
          { entry.rename a tx with lastActivity := env.routedAt }) ∧
      (Ws.handle (router.rename a tx view.header.sessionId) env data tx).2 =
        (entry.others (.udp a)).map (⟨·, data⟩) := by
  have hlookup : ((router.rename a tx view.header.sessionId).received data.length).routes[
      view.header.sessionId]? = some (entry.rename a tx) := by
    rw [rename_eq hentry]
    exact (Router.lookup_store _ _ _ _).trans (if_pos rfl)
  obtain ⟨htable, hout⟩ := (Ws.sends_forward env data).forwardAll
    (((router.rename a tx view.header.sessionId).received data.length).route view.header.sessionId
      (.webSocket tx) env.routedAt)
  rw [← Ws.handle_eq hdecode] at htable hout
  rw [Router.route_known _ (sessionId_ne_zero hzero hentry) hlookup (mem_rename hknown)] at htable hout
  rw [RouteDecision.targets_toAll, others_rename hfresh] at hout
  refine ⟨htable.trans ?_, hout⟩
  rw [rename_eq hentry]
  have hstore := congrArg Router.routes (store_store router view.header.sessionId
    (entry.rename a tx) { entry.rename a tx with lastActivity := env.routedAt })
  exact ⟨hstore, rfl⟩

theorem udp_handle_other
    (hrequest : MessageType.fromCode view.header.msgType ≠ .ok .floorRequest)
    (hrelease : MessageType.fromCode view.header.msgType ≠ .ok .floorRelease) :
    (Udp.handle router env data a).1.SameTable
        (router.store view.header.sessionId { entry with lastActivity := env.routedAt }) ∧
      (Udp.handle router env data a).2 = (entry.others (.udp a)).map (⟨·, data⟩) := by
  obtain ⟨htable, hout⟩ := (Udp.sends_forwardTo env data).forwardAll
    ((router.received data.length).route view.header.sessionId (.udp a) env.routedAt)
  rw [← Udp.handle_other hdecode a hrequest hrelease] at htable hout
  have hlookup : (router.received data.length).routes[view.header.sessionId]? = some entry := hentry
  rw [Router.route_known _ (sessionId_ne_zero hzero hentry) hlookup hknown] at htable hout
  rw [RouteDecision.targets_toAll] at hout
  exact ⟨htable, hout⟩

theorem udp_handle_request
    (hrequest : MessageType.fromCode view.header.msgType = .ok .floorRequest) :
    ∃ out ∈ (Udp.handle router env data a).2, out.target = .udp a := by
  have hlookup : (router.received data.length).routes[view.header.sessionId]? = some entry := hentry
  have hroute := Router.route_known env.routedAt (sessionId_ne_zero hzero hentry) hlookup hknown
  rw [Udp.handle_request hdecode a hrequest, hroute]
  generalize hrouted : (router.received data.length).store view.header.sessionId _ = routed
  have hcall := routed.floorRequest_requested view.header.sessionId a env.clock
  rw [(Udp.answerRequest_eq env hcall).2]
  generalize routed.floorRequest view.header.sessionId a env.clock = result at hcall
  obtain ⟨after, decision⟩ := result
  cases hcall with
  | unknown hunknown =>
    refine absurd hknown (hunknown { entry with lastActivity := env.routedAt } ?_)
    rw [← hrouted, Router.lookup_store, if_pos rfl]
  | denied => exact ⟨_, List.mem_singleton_self _, rfl⟩
  | granted => exact ⟨_, List.mem_cons_self, rfl⟩

omit hzero hknown in
theorem udp_handle_release
    (hrelease : MessageType.fromCode view.header.msgType = .ok .floorRelease) :
    if entry.floorHolder = some a ∨ entry.floorIsFree env.releasedAt then
      (Udp.handle router env data a).1.SameTable (router.store view.header.sessionId
          { entry with floorHolder := none, floorGrantedAt := none }) ∧
        (Udp.handle router env data a).2 = (entry.others (.udp a)).map
          (⟨·, Udp.floorBytes .floorRelease view.header.sessionId⟩)
    else
      (Udp.handle router env data a).1.SameTable (router.store view.header.sessionId entry) ∧
        (Udp.handle router env data a).2 = [] := by
  have hlookup : (router.received data.length).routes[view.header.sessionId]? = some entry := hentry
  have hcall := (router.received data.length).floorRelease_released view.header.sessionId a
    env.releasedAt
  obtain ⟨htable, hout⟩ := Udp.answerRelease_eq env hcall
  rw [Udp.handle_release hdecode a hrelease]
  generalize (router.received data.length).floorRelease view.header.sessionId a env.releasedAt =
    result at hcall htable hout ⊢
  obtain ⟨after, decision⟩ := result
  cases hcall with
  | unknown hnone => exact absurd (hlookup.symm.trans hnone) (by simp)
  | denied hfound hheld hbusy =>
    obtain rfl : _ = entry := Option.some.inj (hfound.symm.trans hlookup)
    rw [if_neg (not_or.mpr ⟨hheld, hbusy⟩), Router.store_eq_self hentry]
    exact ⟨htable, hout⟩
  | released hfound hfree =>
    obtain rfl : _ = entry := Option.some.inj (hfound.symm.trans hlookup)
    rw [if_pos hfree]
    exact ⟨htable, hout⟩

include hfresh in
/-- The WebSocket loop passes the request on and never answers it. -/
theorem not_agrees_of_request
    (hrequest : MessageType.fromCode view.header.msgType = .ok .floorRequest) :
    ¬IngressAgrees router env data view.header.sessionId a tx := by
  rintro ⟨hout, -⟩
  obtain ⟨-, hwsOut⟩ := @ws_handle_known router env data view a tx entry hdecode hzero hentry hknown
    hfresh
  obtain ⟨out, hmem, htarget⟩ := @udp_handle_request router env data view a entry hdecode hzero
    hentry hknown hrequest
  have hanswer : out.rename a tx ∈ (entry.others (.udp a)).map (Forwarded.mk · data) := by
    rw [← hwsOut, hout]
    exact List.mem_map_of_mem hmem
  obtain ⟨e, he, hsame⟩ := List.mem_map.mp hanswer
  have hself : e = .webSocket tx := by
    have h := congrArg Forwarded.target hsame
    simpa [Forwarded.rename, htarget, SessionEndpoint.rename] using h
  rw [hself, RouteEntry.mem_others] at he
  exact hfresh he.1

end Turn

private def talker : SocketAddr := .v4 1 4000
private def listener : SocketAddr := .v4 2 4000

private def twoPeers : Router :=
  Trace.final Router.exec (.new 10 5 .new) [.route 7 (.udp talker) 0, .route 7 (.udp listener) 0]

private def twoPeersEntry : RouteEntry := ⟨[.udp talker, .udp listener], 0, none, none⟩

private theorem twoPeers_entry : twoPeers.routes[(7 : UInt32)]? = some twoPeersEntry := by
  decide +kernel

private def calmEnv : RelayEnv := ⟨1, ⟨1, 1, 1, 1⟩, 1, fun data _ => some data.length, fun _ => true⟩

private def bare (msg : MessageType) : Bytes := Packet.bytes (PacketHeader.new msg.code 7 0 0) []

private def bareView (msg : MessageType) : PacketView := ⟨PacketHeader.new msg.code 7 0 0, []⟩

private theorem decode_bare (msg : MessageType) : PacketView.decode (bare msg) = .ok (bareView msg) :=
  PacketView.decode_bytes _ _ rfl (Nat.zero_le _)

/-- A FloorRequest over WebSocket is not arbitrated. -/
theorem request_over_ws_differs :
    twoPeers.routes[(7 : UInt32)]? = some twoPeersEntry ∧
      ¬IngressAgrees twoPeers calmEnv (bare .floorRequest) 7 talker 8 := by
  refine ⟨twoPeers_entry, ?_⟩
  have hzero : (0 : UInt32) ∉ twoPeers.routes := by decide +kernel
  exact @not_agrees_of_request twoPeers calmEnv (bare .floorRequest) (bareView .floorRequest)
    talker 8 twoPeersEntry (decode_bare .floorRequest) hzero twoPeers_entry (by decide) (by decide)
    rfl

/-- The two loops agree on a datagram unless it is a FloorRequest, which only the UDP loop answers,
or a FloorRelease that has something to say. -/
theorem ingress_agrees_iff (router : Router) (env : RelayEnv) (data : Bytes) (view : PacketView)
    (entry : RouteEntry) (a : SocketAddr) (tx : Channel)
    (hdecode : PacketView.decode data = .ok view) (hzero : (0 : UInt32) ∉ router.routes)
    (hentry : router.routes[view.header.sessionId]? = some entry) (hknown : .udp a ∈ entry.peers)
    (hfresh : .webSocket tx ∉ entry.peers) :
    IngressAgrees router env data view.header.sessionId a tx ↔
      MessageType.fromCode view.header.msgType ≠ .ok .floorRequest ∧
        (MessageType.fromCode view.header.msgType = .ok .floorRelease →
          Idle entry env data view.header.sessionId a) := by
  obtain ⟨hwsTable, hwsOut⟩ := @ws_handle_known router env data view a tx entry hdecode hzero
    hentry hknown hfresh
  by_cases hrequest : MessageType.fromCode view.header.msgType = .ok .floorRequest
  · refine iff_of_false ?_ fun h => h.1 hrequest
    exact @not_agrees_of_request router env data view a tx entry hdecode hzero hentry hknown hfresh
      hrequest
  simp only [ne_eq, hrequest, not_false_eq_true, true_and]
  by_cases hrelease : MessageType.fromCode view.header.msgType = .ok .floorRelease
  · have hudp := @udp_handle_release router env data view a entry hdecode hentry hrelease
    simp only [hrelease, forall_const, IngressAgrees, hwsOut, Idle]
    split_ifs at hudp ⊢ with hfree
    · rw [hudp.2, map_sent_iff, sameTable_iff hwsTable (sameTable_rename hudp.1)]
      simp only [RouteEntry.rename, RouteEntry.mk.injEq, true_and]
      tauto
    · rw [hudp.2, List.map_nil, List.map_eq_nil_iff,
        sameTable_iff hwsTable (sameTable_rename hudp.1)]
      simp only [RouteEntry.rename, RouteEntry.mk.injEq, true_and, and_true]
      tauto
  · refine iff_of_true ?_ fun h => absurd h hrelease
    obtain ⟨hudpTable, hudpOut⟩ := @udp_handle_other router env data view a entry hdecode hzero
      hentry hknown hrequest hrelease
    simp only [IngressAgrees, hwsOut, hudpOut]
    exact ⟨(map_sent_iff entry a tx data data).mpr (.inr rfl),
      (sameTable_iff hwsTable (sameTable_rename hudpTable)).mpr rfl⟩

theorem ingress_agrees_audio : IngressAgrees twoPeers calmEnv (bare .audioFrame) 7 talker 8 := by
  have hzero : (0 : UInt32) ∉ twoPeers.routes := by decide +kernel
  have h := ingress_agrees_iff twoPeers calmEnv (bare .audioFrame)
    (bareView .audioFrame) twoPeersEntry talker 8
    (decode_bare .audioFrame) hzero twoPeers_entry (by decide) (by decide)
  refine h.mpr ?_
  have hmsg : MessageType.fromCode MessageType.audioFrame.code = .ok .audioFrame := rfl
  refine ⟨fun h => ?_, fun h => ?_⟩
  · cases hmsg.symm.trans h
  · cases hmsg.symm.trans h

end GravitalTalk.Relay
