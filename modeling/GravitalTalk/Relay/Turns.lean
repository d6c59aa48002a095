import GravitalTalk.Relay.FanOut
import GravitalTalk.Relay.Ingress

/-! A turn of the two loops up to its sends, which are then in flight while other tasks go on. -/
namespace GravitalTalk.Relay
open Lib GravitalTalk.Core Transport

/-- A send still to be made; `counted` says that its loop counts an error of the socket. -/
structure InFlight where
  target : SessionEndpoint
  data : Bytes
  counted : Bool

namespace InFlight

def toAll (counted : Bool) (data : Bytes) (targets : List SessionEndpoint) :
    List InFlight :=
  targets.map (⟨·, data, counted⟩)

/-- What a failed send is counted as. -/
def failure (self : InFlight) : Option DropReason :=
  match self.target with
  | .udp _ => if self.counted then some .sendError else none
  | .webSocket _ => some .wsDisconnected

def answer (env : RelayEnv) (self : InFlight) : Option Nat :=
  match self.target with
  | .udp addr => env.sendTo self.data addr
  | .webSocket tx => if env.connected tx then some self.data.length else none

end InFlight

def Router.settle (self : Router) (item : InFlight) : Option Nat → Router
  | some n => self.sent n
  | none =>
    match item.failure with
    | some reason => self.drop reason
    | none => self

def Router.settleAll (env : RelayEnv) (self : Router) (items : List InFlight) : Router :=
  items.foldl (fun self item => self.settle item (item.answer env)) self

namespace Udp

def requestReplies (sessionId : UInt32) (sender : SocketAddr) : FloorDecision → List InFlight
  | .granted others =>
    ⟨.udp sender, floorBytes .floorGrant sessionId, false⟩ ::
      InFlight.toAll true (floorBytes .floorTaken sessionId) others
  | .denied => [⟨.udp sender, floorBytes .floorDeny sessionId, false⟩]
  | _ => []

def releaseReplies (sessionId : UInt32) : FloorDecision → List InFlight
  | .released others =>
    InFlight.toAll true (floorBytes .floorRelease sessionId) others
  | _ => []

/-- A turn of the loop of `udp::run` up to its sends. -/
def turn (self : Router) (env : RelayEnv) (datagram : Bytes) (sender : SocketAddr) :
    Router × List InFlight :=
  let data := datagram.take bufferSize
  let self := self.received data.length
  match PacketView.decode data with
  | .error _ => (self.drop .malformed, [])
  | .ok view =>
    let sessionId := view.header.sessionId
    match MessageType.fromCode view.header.msgType with
    | .ok .floorRequest =>
      let (self, _) := self.route sessionId (.udp sender) env.routedAt
      let (self, decision) := self.floorRequest sessionId sender env.clock
      (self, requestReplies sessionId sender decision)
    | .ok .floorRelease =>
      let (self, decision) := self.floorRelease sessionId sender env.releasedAt
      (self, releaseReplies sessionId decision)
    | _ =>
      let (self, decision) := self.route sessionId (.udp sender) env.routedAt
      (self, InFlight.toAll true data decision.targets)

end Udp

/-- A binary message in `handle_connection` up to its sends. -/
def Ws.turn (self : Router) (env : RelayEnv) (data : Bytes) (tx : Channel) :
    Router × List InFlight :=
  let self := self.received data.length
  match PacketView.decode data with
  | .error _ => (self.drop .malformed, [])
  | .ok view =>
    let (self, decision) := self.route view.header.sessionId (.webSocket tx) env.routedAt
    (self, InFlight.toAll false data decision.targets)

def Settles (env : RelayEnv) (counted : Bool) (data : Bytes)
    (send : Router → SessionEndpoint → Router × List Forwarded) : Prop :=
  ∀ self target, send self target =
    (self.settle ⟨target, data, counted⟩ (InFlight.answer env ⟨target, data, counted⟩),
      [⟨target, data⟩])

def InFlight.forwarded (self : InFlight) : Forwarded := ⟨self.target, self.data⟩

theorem Settles.forEach {env : RelayEnv} {counted : Bool} {data : Bytes}
    {send : Router → SessionEndpoint → Router × List Forwarded}
    (h : Settles env counted data send) (self : Router) (targets : List SessionEndpoint) :
    self.forEach send targets =
      (self.settleAll env (InFlight.toAll counted data targets),
        (InFlight.toAll counted data targets).map InFlight.forwarded) := by
  induction targets generalizing self with
  | nil => rfl
  | cons target rest ih =>
    rw [Router.forEach, h]
    dsimp only
    rw [ih]
    rfl

theorem Settles.forwardAll {env : RelayEnv} {counted : Bool} {data : Bytes}
    {send : Router → SessionEndpoint → Router × List Forwarded}
    (h : Settles env counted data send) (result : Router × RouteDecision) :
    Relay.forwardAll send result =
      (result.1.settleAll env (InFlight.toAll counted data result.2.targets),
        (InFlight.toAll counted data result.2.targets).map InFlight.forwarded) := by
  obtain ⟨self, decision⟩ := result
  cases decision with
  | broadcast targets => exact h.forEach self targets
  | registered => rfl
  | dropped => rfl

namespace Udp

theorem settles_forwardTo (env : RelayEnv) (data : Bytes) :
    Settles env true data (forwardTo env data) := by
  intro self target
  cases target with
  | udp addr =>
    dsimp only [forwardTo, InFlight.answer]
    cases env.sendTo data addr <;> rfl
  | webSocket tx =>
    dsimp only [forwardTo, InFlight.answer]
    split_ifs <;> rfl

theorem settles_sendFloorMsgTo (env : RelayEnv) (msg : MessageType) (sessionId : UInt32) :
    Settles env true (floorBytes msg sessionId) (sendFloorMsgTo env msg sessionId) := by
  intro self target
  rw [sendFloorMsgTo, floorPacket_eq]
  exact settles_forwardTo env _ self target

theorem sendFloorMsg_settle (env : RelayEnv) (msg : MessageType) (sessionId : UInt32) (self : Router)
    (dest : SocketAddr) :
    sendFloorMsg env msg sessionId self dest =
      (self.settleAll env [⟨.udp dest, floorBytes msg sessionId, false⟩],
        [⟨.udp dest, floorBytes msg sessionId⟩]) := by
  rw [sendFloorMsg, floorPacket_eq]
  dsimp only [Router.settleAll, List.foldl, InFlight.answer]
  cases env.sendTo (floorBytes msg sessionId) dest <;> rfl

theorem answerRequest_settle (env : RelayEnv) (sessionId : UInt32) (sender : SocketAddr)
    (result : Router × FloorDecision) :
    answerRequest env sessionId sender result =
      (result.1.settleAll env (requestReplies sessionId sender result.2),
        (requestReplies sessionId sender result.2).map InFlight.forwarded) := by
  obtain ⟨self, decision⟩ := result
  cases decision with
  | granted others =>
    dsimp only [answerRequest]
    rw [sendFloorMsg_settle, (settles_sendFloorMsgTo env .floorTaken sessionId).forEach]
    rfl
  | denied => exact sendFloorMsg_settle env .floorDeny sessionId self sender
  | released => rfl
  | unknown => rfl

theorem answerRelease_settle (env : RelayEnv) (sessionId : UInt32)
    (result : Router × FloorDecision) :
    answerRelease env sessionId result =
      (result.1.settleAll env (releaseReplies sessionId result.2),
        (releaseReplies sessionId result.2).map InFlight.forwarded) := by
  obtain ⟨self, decision⟩ := result
  cases decision with
  | released others => exact (settles_sendFloorMsgTo env .floorRelease sessionId).forEach self others
  | granted => rfl
  | denied => rfl
  | unknown => rfl

/-- Nothing between them, a turn and its sends are `handle`. -/
theorem handle_eq_turn (self : Router) (env : RelayEnv) (datagram : Bytes) (sender : SocketAddr) :
    handle self env datagram sender =
      ((turn self env datagram sender).1.settleAll env (turn self env datagram sender).2,
        (turn self env datagram sender).2.map InFlight.forwarded) := by
  unfold handle turn
  dsimp only
  cases PacketView.decode (datagram.take bufferSize) with
  | error => rfl
  | ok view =>
    dsimp only
    cases MessageType.fromCode view.header.msgType with
    | error => exact (settles_forwardTo env _).forwardAll _
    | ok msg =>
      cases msg with
      | floorRequest => exact answerRequest_settle env _ sender _
      | floorRelease => exact answerRelease_settle env _ _
      | _ => exact (settles_forwardTo env _).forwardAll _

end Udp

theorem Ws.settles_forward (env : RelayEnv) (data : Bytes) :
    Settles env false data (forward env data) := by
  intro self target
  cases target with
  | udp addr =>
    dsimp only [forward, InFlight.answer]
    cases env.sendTo data addr <;> rfl
  | webSocket tx =>
    dsimp only [forward, InFlight.answer]
    split_ifs <;> rfl

theorem Ws.handle_eq_turn (self : Router) (env : RelayEnv) (data : Bytes) (tx : Channel) :
    handle self env data tx =
      ((turn self env data tx).1.settleAll env (turn self env data tx).2,
        (turn self env data tx).2.map InFlight.forwarded) := by
  unfold handle turn
  dsimp only
  cases PacketView.decode data with
  | error => rfl
  | ok view => exact (settles_forward env data).forwardAll _

theorem registered_store (self : Router) (sessionId k : UInt32) (entry : RouteEntry)
    (e : SessionEndpoint) : Registered (self.store sessionId entry) k e ↔
      if sessionId = k then e ∈ entry.peers else Registered self k e := by
  unfold Registered
  rw [Router.lookup_store]
  split_ifs <;> simp

/-- Everybody stays; only `sender` may come in, and only peers and `sender` are sent to. -/
structure TurnOf (before : Router) (sender : SessionEndpoint) (after : Router)
    (items : List InFlight) : Prop where
  stays : ∀ k e, Registered before k e → Registered after k e
  joins : ∀ k e, Registered after k e → Registered before k e ∨ e = sender
  targets : ∀ item ∈ items, (∃ k, Registered before k item.target) ∨ item.target = sender

namespace TurnOf

variable {self after : Router} {sender : SessionEndpoint} {sessionId : UInt32} {now : Nat}
  {items : List InFlight}

theorem same (hroutes : after.routes = self.routes) (htargets : ∀ item ∈ items, item.target = sender) :
    TurnOf self sender after items where
  stays k e := by
    unfold Registered
    rw [hroutes]
    exact id
  joins k e := by
    unfold Registered
    rw [hroutes]
    exact .inl
  targets item hitem := .inr (htargets item hitem)

theorem congr {self' after' : Router} (h : TurnOf self sender after items)
    (hself : self'.routes = self.routes) (hafter : after'.routes = after.routes) :
    TurnOf self' sender after' items := by
  have hbefore : Registered self' = Registered self := by
    unfold Registered
    rw [hself]
  have hthen : Registered after' = Registered after := by
    unfold Registered
    rw [hafter]
  constructor
  · rw [hbefore, hthen]
    exact h.stays
  · rw [hbefore, hthen]
    exact h.joins
  · rw [hbefore]
    exact h.targets

theorem registered_iff_of_peers {entry changed : RouteEntry}
    (hentry : self.routes[sessionId]? = some entry) (hpeers : changed.peers = entry.peers)
    (k : UInt32) (e : SessionEndpoint) :
    Registered (self.store sessionId changed) k e ↔ Registered self k e := by
  rw [registered_store]
  split_ifs with hk
  · subst hk
    rw [hpeers, registered_of_some hentry]
  · rfl

theorem touched {entry changed : RouteEntry} (hentry : self.routes[sessionId]? = some entry)
    (hpeers : changed.peers = entry.peers)
    (htargets : ∀ item ∈ items, item.target ∈ entry.peers ∨ item.target = sender) :
    TurnOf self sender (self.store sessionId changed) items where
  stays k e := (registered_iff_of_peers hentry hpeers k e).mpr
  joins k e h := .inl ((registered_iff_of_peers hentry hpeers k e).mp h)
  targets item hitem :=
    (htargets item hitem).imp_left fun h => ⟨sessionId, (registered_of_some hentry).mpr h⟩

theorem target_mem {counted : Bool} {data : Bytes} {targets : List SessionEndpoint}
    {item : InFlight} (h : item ∈ InFlight.toAll counted data targets) : item.target ∈ targets := by
  obtain ⟨target, htarget, rfl⟩ := List.mem_map.mp h
  exact htarget

theorem others_subset {entry : RouteEntry} {counted : Bool} {data : Bytes}
    {other : SessionEndpoint} {item : InFlight}
    (h : item ∈ InFlight.toAll counted data (entry.others other)) : item.target ∈ entry.peers :=
  ((RouteEntry.mem_others _ _ _).mp (target_mem h)).1

theorem routed {decision : RouteDecision} (counted : Bool) (data : Bytes)
    (hcall : self.Routed sessionId sender now after decision) :
    TurnOf self sender after (InFlight.toAll counted data decision.targets) := by
  cases hcall with
  | zero => exact same rfl (by simp [RouteDecision.targets, InFlight.toAll])
  | limit => exact same rfl (by simp [RouteDecision.targets, InFlight.toAll])
  | known _ hentry =>
    rw [RouteDecision.targets_toAll]
    exact touched hentry rfl fun item hitem => .inl (others_subset hitem)
  | @full entry _ hentry _ _ =>
    have hstored : TurnOf self sender (self.store sessionId { entry with lastActivity := now })
        (InFlight.toAll counted data RouteDecision.dropped.targets) :=
      touched hentry rfl (by simp [RouteDecision.targets, InFlight.toAll])
    exact hstored.congr rfl rfl
  | @joined entry _ hentry _ _ =>
    rw [RouteDecision.targets_toAll]
    refine ⟨fun k e h => ?_, fun k e h => ?_, fun item hitem => ?_⟩
    · rw [registered_store]
      split_ifs with hk
      · subst hk
        exact List.mem_append_left _ ((registered_of_some hentry).mp h)
      · exact h
    · rw [registered_store] at h
      split_ifs at h with hk
      · subst hk
        rw [registered_of_some hentry]
        simpa using h
      · exact .inl h
    · exact .inl ⟨sessionId, (registered_of_some hentry).mpr (target_mem hitem)⟩
  | created _ hnew =>
    refine ⟨fun k e h => ?_, fun k e h => ?_, by simp [RouteDecision.targets, InFlight.toAll]⟩
    · refine (registered_store _ _ _ _ _).mpr ?_
      rw [if_neg]
      · exact h
      · rintro rfl
        exact not_registered_of_none hnew h
    · replace h := (registered_store _ _ _ _ _).mp h
      split_ifs at h with hk
      · exact .inr (List.mem_singleton.mp h)
      · exact .inl h

theorem trans {middle : Router} (h : TurnOf self sender middle [])
    (h' : TurnOf middle sender after items) : TurnOf self sender after items where
  stays k e hself := h'.stays k e (h.stays k e hself)
  joins k e hafter := (h'.joins k e hafter).elim (h.joins k e) .inr
  targets item hitem := by
    obtain ⟨k, hmiddle⟩ | hsender := h'.targets item hitem
    · exact (h.joins k _ hmiddle).imp_left fun hself => ⟨k, hself⟩
    · exact .inr hsender

theorem requested {sender : SocketAddr} {clock : FloorClock} {decision : FloorDecision}
    (hcall : self.FloorRequested sessionId sender clock after decision) :
    TurnOf self (.udp sender) after (Udp.requestReplies sessionId sender decision) := by
  cases hcall with
  | unknown => exact same rfl (by simp [Udp.requestReplies])
  | denied => exact same rfl (by simp [Udp.requestReplies])
  | granted hentry =>
    refine touched hentry rfl fun item hitem => ?_
    obtain rfl | hitem := List.mem_cons.mp hitem
    · exact .inr rfl
    · exact .inl (others_subset hitem)

theorem released {sender : SocketAddr} {decision : FloorDecision}
    (hcall : self.FloorReleased sessionId sender now after decision) :
    TurnOf self (.udp sender) after (Udp.releaseReplies sessionId decision) := by
  cases hcall with
  | unknown => exact same rfl (by simp [Udp.releaseReplies])
  | denied => exact same rfl (by simp [Udp.releaseReplies])
  | released hentry => exact touched hentry rfl fun item hitem => .inl (others_subset hitem)

end TurnOf

theorem Udp.turnOf_turn (self : Router) (env : RelayEnv) (datagram : Bytes) (sender : SocketAddr) :
    TurnOf self (.udp sender) (turn self env datagram sender).1 (turn self env datagram sender).2 := by
  unfold turn
  dsimp only
  cases PacketView.decode (datagram.take bufferSize) with
  | error => exact .same rfl (by simp)
  | ok view =>
    dsimp only
    generalize datagram.take bufferSize = data
    obtain ⟨routed, hrouted⟩ : ∃ routed, routed =
        (self.received data.length).route view.header.sessionId (.udp sender) env.routedAt :=
      ⟨_, rfl⟩
    have hroute : TurnOf self (.udp sender) routed.1
        (InFlight.toAll true data routed.2.targets) := by
      rw [hrouted]
      exact (TurnOf.routed _ _ (Router.route_routed _ _ _ _)).congr rfl rfl
    rw [← hrouted]
    cases MessageType.fromCode view.header.msgType with
    | error => exact hroute
    | ok msg =>
      cases msg with
      | floorRequest =>
        exact .trans { hroute with targets := by simp }
          (.requested (Router.floorRequest_requested _ _ _ _))
      | floorRelease => exact (TurnOf.released (Router.floorRelease_released _ _ _ _)).congr rfl rfl
      | _ => exact hroute

theorem Ws.turnOf_turn (self : Router) (env : RelayEnv) (data : Bytes) (tx : Channel) :
    TurnOf self (.webSocket tx) (turn self env data tx).1 (turn self env data tx).2 := by
  unfold turn
  cases PacketView.decode data with
  | error => exact .same rfl (by simp)
  | ok view => exact (TurnOf.routed false data (Router.route_routed _ _ _ _)).congr rfl rfl

end GravitalTalk.Relay
