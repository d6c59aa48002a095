import GravitalTalk.Relay.Router

/-! The two loops datagrams come in through: the UDP socket and a WebSocket connection. -/
namespace GravitalTalk.Relay
open Lib GravitalTalk.Core Transport

/-- What the outside answers while one datagram is handled: the clock readings of the calls on the
router, the bytes a `send_to` reports (`none` is an error), and whether a channel still has its
receiver.  No target is sent to twice. -/
structure RelayEnv where
  routedAt : Nat
  clock : FloorClock
  releasedAt : Nat
  sendTo : Bytes → SocketAddr → Option Nat
  connected : Channel → Bool

structure Forwarded where
  target : SessionEndpoint
  data : Bytes
  deriving DecidableEq

namespace Router

def received (self : Router) (n : Nat) : Router :=
  { self with
    metrics := { self.metrics with
      packetsIn := self.metrics.packetsIn + 1
      bytesIn := self.metrics.bytesIn + UInt64.ofNat n } }

def sent (self : Router) (n : Nat) : Router :=
  { self with
    metrics := { self.metrics with
      packetsOut := self.metrics.packetsOut + 1
      bytesOut := self.metrics.bytesOut + UInt64.ofNat n } }

def forEach (self : Router) (send : Router → SessionEndpoint → Router × List Forwarded) :
    List SessionEndpoint → Router × List Forwarded
  | [] => (self, [])
  | target :: rest =>
    let (self, sent) := send self target
    let (self, more) := self.forEach send rest
    (self, sent ++ more)

end Router

/-- The arms on the decision of `route`. -/
def forwardAll (send : Router → SessionEndpoint → Router × List Forwarded) :
    Router × RouteDecision → Router × List Forwarded
  | (self, .broadcast targets) => self.forEach send targets
  | (self, _) => (self, [])

namespace Udp

def bufferSize : Nat := 1500

/-- A floor message of the relay's own; its payload is the session id. -/
def floorPacket (msg : MessageType) (sessionId : UInt32) : Except Error Bytes :=
  Session.encodePacket 64 (PacketHeader.new msg.code sessionId 0 0) (be32 sessionId)

def forwardTo (env : RelayEnv) (data : Bytes) (self : Router) (target : SessionEndpoint) :
    Router × List Forwarded :=
  match target with
  | .udp addr =>
    match env.sendTo data addr with
    | some n => (self.sent n, [⟨target, data⟩])
    | none => (self.drop .sendError, [⟨target, data⟩])
  | .webSocket tx =>
    if env.connected tx then (self.sent data.length, [⟨target, data⟩])
    else (self.drop .wsDisconnected, [⟨target, data⟩])

def sendFloorMsg (env : RelayEnv) (msg : MessageType) (sessionId : UInt32) (self : Router)
    (dest : SocketAddr) : Router × List Forwarded :=
  match floorPacket msg sessionId with
  | .error _ => (self, [])
  | .ok data =>
    match env.sendTo data dest with
    | some n => (self.sent n, [⟨.udp dest, data⟩])
    | none => (self, [⟨.udp dest, data⟩])

def sendFloorMsgTo (env : RelayEnv) (msg : MessageType) (sessionId : UInt32) (self : Router)
    (target : SessionEndpoint) : Router × List Forwarded :=
  match floorPacket msg sessionId with
  | .error _ => (self, [])
  | .ok data => forwardTo env data self target

/-- The arms on the decision about a FloorRequest. -/
def answerRequest (env : RelayEnv) (sessionId : UInt32) (sender : SocketAddr) :
    Router × FloorDecision → Router × List Forwarded
  | (self, .granted others) =>
    let (self, grant) := sendFloorMsg env .floorGrant sessionId self sender
    let (self, taken) := self.forEach (sendFloorMsgTo env .floorTaken sessionId) others
    (self, grant ++ taken)
  | (self, .denied) => sendFloorMsg env .floorDeny sessionId self sender
  | (self, _) => (self, [])

/-- The arms on the decision about a FloorRelease. -/
def answerRelease (env : RelayEnv) (sessionId : UInt32) :
    Router × FloorDecision → Router × List Forwarded
  | (self, .released others) => self.forEach (sendFloorMsgTo env .floorRelease sessionId) others
  | (self, _) => (self, [])

/-- One turn of the loop of `udp::run`. -/
def handle (self : Router) (env : RelayEnv) (datagram : Bytes) (sender : SocketAddr) :
    Router × List Forwarded :=
  let data := datagram.take bufferSize
  let self := self.received data.length
  match PacketView.decode data with
  | .error _ => (self.drop .malformed, [])
  | .ok view =>
    let sessionId := view.header.sessionId
    match MessageType.fromCode view.header.msgType with
    | .ok .floorRequest =>
      let (self, _) := self.route sessionId (.udp sender) env.routedAt
      answerRequest env sessionId sender (self.floorRequest sessionId sender env.clock)
    | .ok .floorRelease =>
      answerRelease env sessionId (self.floorRelease sessionId sender env.releasedAt)
    | _ =>
      forwardAll (forwardTo env data) (self.route sessionId (.udp sender) env.routedAt)

end Udp

namespace Ws

def forward (env : RelayEnv) (data : Bytes) (self : Router) (target : SessionEndpoint) :
    Router × List Forwarded :=
  match target with
  | .udp addr =>
    match env.sendTo data addr with
    | some n => (self.sent n, [⟨target, data⟩])
    | none => (self, [⟨target, data⟩])
  | .webSocket tx =>
    if env.connected tx then (self.sent data.length, [⟨target, data⟩])
    else (self.drop .wsDisconnected, [⟨target, data⟩])

/-- A binary message in the loop of `handle_connection`; `tx` is the connection's own channel. -/
def handle (self : Router) (env : RelayEnv) (data : Bytes) (tx : Channel) :
    Router × List Forwarded :=
  let self := self.received data.length
  match PacketView.decode data with
  | .error _ => (self.drop .malformed, [])
  | .ok view =>
    forwardAll (forward env data)
      (self.route view.header.sessionId (.webSocket tx) env.routedAt)

end Ws

/-- The same sessions and rooms. -/
def Router.SameTable (a b : Router) : Prop := a.routes = b.routes ∧ a.rooms = b.rooms

@[simp] theorem Router.sameTable_sent (self : Router) (n : Nat) : (self.sent n).SameTable self :=
  ⟨rfl, rfl⟩

@[simp] theorem Router.sameTable_drop (self : Router) (reason : DropReason) :
    (self.drop reason).SameTable self :=
  ⟨rfl, rfl⟩

@[simp] theorem Router.SameTable.refl (self : Router) : self.SameTable self := ⟨rfl, rfl⟩

theorem Router.SameTable.symm {a b : Router} (h : a.SameTable b) : b.SameTable a :=
  ⟨h.1.symm, h.2.symm⟩

theorem Router.SameTable.trans {a b c : Router} (h : a.SameTable b) (h' : b.SameTable c) :
    a.SameTable c :=
  ⟨h.1.trans h'.1, h.2.trans h'.2⟩

def Sends (send : Router → SessionEndpoint → Router × List Forwarded) (data : Bytes) : Prop :=
  ∀ self target, (send self target).1.SameTable self ∧ (send self target).2 = [⟨target, data⟩]

theorem Sends.forEach {send : Router → SessionEndpoint → Router × List Forwarded} {data : Bytes}
    (h : Sends send data) (self : Router) (targets : List SessionEndpoint) :
    (self.forEach send targets).1.SameTable self ∧
      (self.forEach send targets).2 = targets.map (⟨·, data⟩) := by
  induction targets generalizing self with
  | nil => exact ⟨.refl self, rfl⟩
  | cons target rest ih =>
    obtain ⟨htable, hsent⟩ := h self target
    obtain ⟨htable', hmore⟩ := ih (send self target).1
    refine ⟨htable'.trans htable, ?_⟩
    simp only [Router.forEach, hsent, hmore, List.map_cons, List.singleton_append]

theorem Udp.sends_forwardTo (env : RelayEnv) (data : Bytes) : Sends (forwardTo env data) data := by
  intro self target
  cases target with
  | udp addr => cases hsend : env.sendTo data addr <;> simp [forwardTo, hsend]
  | webSocket tx => cases hopen : env.connected tx <;> simp [forwardTo, hopen]

theorem Ws.sends_forward (env : RelayEnv) (data : Bytes) : Sends (forward env data) data := by
  intro self target
  cases target with
  | udp addr => cases hsend : env.sendTo data addr <;> simp [forward, hsend]
  | webSocket tx => cases hopen : env.connected tx <;> simp [forward, hopen]

namespace Udp

def floorBytes (msg : MessageType) (sessionId : UInt32) : Bytes :=
  Packet.bytes (PacketHeader.new msg.code sessionId 0 0) (be32 sessionId)

theorem floorPacket_eq (msg : MessageType) (sessionId : UInt32) :
    floorPacket msg sessionId = .ok (floorBytes msg sessionId) := by
  apply Session.encodePacket_eq
  · simp [maxPayloadSize, defaultMtu, headerSize]
  · simp [headerSize]

theorem sends_sendFloorMsgTo (env : RelayEnv) (msg : MessageType) (sessionId : UInt32) :
    Sends (sendFloorMsgTo env msg sessionId) (floorBytes msg sessionId) := by
  intro self target
  simp only [sendFloorMsgTo, floorPacket_eq]
  exact sends_forwardTo env _ self target

theorem sendFloorMsg_eq (env : RelayEnv) (msg : MessageType) (sessionId : UInt32) (self : Router)
    (dest : SocketAddr) :
    (sendFloorMsg env msg sessionId self dest).1.SameTable self ∧
      (sendFloorMsg env msg sessionId self dest).2 = [⟨.udp dest, floorBytes msg sessionId⟩] := by
  simp only [sendFloorMsg, floorPacket_eq]
  cases env.sendTo (floorBytes msg sessionId) dest <;> simp

def replies (sessionId : UInt32) (sender : SocketAddr) : FloorDecision → List Forwarded
  | .granted others =>
    ⟨.udp sender, floorBytes .floorGrant sessionId⟩ ::
      others.map (⟨·, floorBytes .floorTaken sessionId⟩)
  | .denied => [⟨.udp sender, floorBytes .floorDeny sessionId⟩]
  | _ => []

end Udp

theorem Sends.forwardAll {send : Router → SessionEndpoint → Router × List Forwarded} {data : Bytes}
    (h : Sends send data) (result : Router × RouteDecision) :
    (Relay.forwardAll send result).1.SameTable result.1 ∧
      (Relay.forwardAll send result).2 = result.2.targets.map (⟨·, data⟩) := by
  obtain ⟨self, decision⟩ := result
  cases decision with
  | broadcast targets => exact h.forEach self targets
  | registered => exact ⟨.refl self, rfl⟩
  | dropped => exact ⟨.refl self, rfl⟩

namespace Udp

theorem answerRequest_eq (env : RelayEnv) {sessionId : UInt32} {sender : SocketAddr}
    {self after : Router} {clock : FloorClock} {decision : FloorDecision}
    (h : self.FloorRequested sessionId sender clock after decision) :
    (answerRequest env sessionId sender (after, decision)).1.SameTable after ∧
      (answerRequest env sessionId sender (after, decision)).2 =
        replies sessionId sender decision := by
  cases h with
  | unknown => exact ⟨.refl _, rfl⟩
  | denied => exact sendFloorMsg_eq env .floorDeny sessionId _ sender
  | granted =>
    simp only [answerRequest]
    generalize Router.store self sessionId _ = after
    generalize RouteEntry.others _ _ = others
    obtain ⟨htable, hgrant⟩ := sendFloorMsg_eq env .floorGrant sessionId after sender
    obtain ⟨htable', htaken⟩ := (sends_sendFloorMsgTo env .floorTaken sessionId).forEach
      (sendFloorMsg env .floorGrant sessionId after sender).1 others
    refine ⟨htable'.trans htable, ?_⟩
    rw [hgrant, htaken, replies, List.singleton_append]

theorem answerRelease_eq (env : RelayEnv) {sessionId : UInt32} {sender : SocketAddr}
    {self after : Router} {now : Nat} {decision : FloorDecision}
    (h : self.FloorReleased sessionId sender now after decision) :
    (answerRelease env sessionId (after, decision)).1.SameTable after ∧
      (answerRelease env sessionId (after, decision)).2 =
        match decision with
        | .released others => others.map (⟨·, floorBytes .floorRelease sessionId⟩)
        | _ => [] := by
  cases h with
  | unknown => exact ⟨.refl _, rfl⟩
  | denied => exact ⟨.refl _, rfl⟩
  | released => exact (sends_sendFloorMsgTo env .floorRelease sessionId).forEach _ _

end Udp

theorem length_le_bufferSize {data : Bytes} {view : PacketView}
    (hdecode : PacketView.decode data = .ok view) : data.length ≤ Udp.bufferSize := by
  obtain ⟨-, hsize, hdata⟩ := PacketView.eq_bytes_of_decode hdecode
  rw [hdata, Packet.length_bytes]
  simp only [maxPayloadSize, defaultMtu, headerSize, Udp.bufferSize] at hsize ⊢
  omega

section Turns
variable {self : Router} {env : RelayEnv} {data : Bytes} {view : PacketView}
  (hdecode : PacketView.decode data = .ok view)
include hdecode

theorem Ws.handle_eq (tx : Channel) :
    handle self env data tx = forwardAll (forward env data)
      ((self.received data.length).route view.header.sessionId (.webSocket tx) env.routedAt) := by
  simp only [handle, hdecode]

theorem Udp.handle_request (sender : SocketAddr)
    (hmsg : MessageType.fromCode view.header.msgType = .ok .floorRequest) :
    handle self env data sender =
      answerRequest env view.header.sessionId sender
        (((self.received data.length).route view.header.sessionId (.udp sender)
          env.routedAt).1.floorRequest view.header.sessionId sender env.clock) := by
  simp only [handle, List.take_of_length_le (length_le_bufferSize hdecode), hdecode, hmsg]

theorem Udp.handle_release (sender : SocketAddr)
    (hmsg : MessageType.fromCode view.header.msgType = .ok .floorRelease) :
    handle self env data sender =
      answerRelease env view.header.sessionId
        ((self.received data.length).floorRelease view.header.sessionId sender env.releasedAt) := by
  simp only [handle, List.take_of_length_le (length_le_bufferSize hdecode), hdecode, hmsg]

theorem Udp.handle_other (sender : SocketAddr)
    (hrequest : MessageType.fromCode view.header.msgType ≠ .ok .floorRequest)
    (hrelease : MessageType.fromCode view.header.msgType ≠ .ok .floorRelease) :
    handle self env data sender = forwardAll (forwardTo env data)
      ((self.received data.length).route view.header.sessionId (.udp sender) env.routedAt) := by
  simp only [handle, List.take_of_length_le (length_le_bufferSize hdecode), hdecode]

end Turns

end GravitalTalk.Relay
