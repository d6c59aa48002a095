import GravitalTalk.Relay.FanOut
import GravitalTalk.Relay.Ingress
import GravitalTalk.Transport.HandshakeRun

/-! A handshake between two parties that only reach each other through the relay.  The router goes
by the session id in the header, and the parties' headers carry the id they are negotiating. -/
namespace GravitalTalk.Relay
open Lib GravitalTalk.Core Transport Trace Handshake

def handshakeTypes : List MessageType :=
  [.handshakeClientHello, .handshakeServerHello, .handshakeKeyExchange, .handshakeSessionConfirm]

structure Carries (data : Bytes) (sessionId : UInt32) (header : PacketHeader) (payload : Bytes) :
    Prop where
  bytes : data = Packet.bytes header payload
  version : header.version = protocolVersion
  size : payload.length ≤ maxPayloadSize
  sessionId : header.sessionId = sessionId
  type : ∃ msg ∈ handshakeTypes, header.msgType = msg.code

def clientCarries : ClientPc → UInt32
  | .sendHello _ => 0
  | .sendKeyExchange serverHello => serverHello.sessionId
  | _ => 0

def serverCarries : ServerPc → UInt32
  | .sendHello offer | .resendHello offer | .sendConfirm offer => offer.serverHello.sessionId
  | _ => 0

theorem sendControl_carries {session : Session} {env : Env} {msg : MessageType} {sessionId : UInt32}
    {payload : Bytes} {peer : SocketAddr} {sent : Sent} (hmsg : msg ∈ handshakeTypes)
    (h : sent ∈ (session.sendControl env msg sessionId payload peer).2.2) :
    ∃ header, Carries sent.data sessionId header payload := by
  obtain ⟨hsize, hdata, -⟩ := Session.sendPacket_sent h
  exact ⟨_, hdata, rfl, hsize, rfl, msg, hmsg, rfl⟩

theorem client_sends_carries {c : Client} {env : Env} {msg : MessageType} {sessionId : UInt32}
    {payload : Except TransportError Bytes} {next : ClientPc} {sent : Sent}
    (hmsg : msg ∈ handshakeTypes) (h : sent ∈ (c.sends env msg sessionId payload next).2) :
    ∃ header payload, Carries sent.data sessionId header payload := by
  cases payload with
  | error e => simp [Client.sends] at h
  | ok payload =>
    rw [Client.sends_sent] at h
    obtain ⟨header, hcarries⟩ := sendControl_carries hmsg h
    exact ⟨header, payload, hcarries⟩

theorem server_sends_carries {s : Server} {env : Env} {msg : MessageType} {sessionId : UInt32}
    {payload : Except TransportError Bytes} {peer : SocketAddr} {next : ServerPc} {sent : Sent}
    (hmsg : msg ∈ handshakeTypes) (h : sent ∈ (s.sends env msg sessionId payload peer next).2) :
    ∃ header payload, Carries sent.data sessionId header payload := by
  cases payload with
  | error e => simp [Server.sends] at h
  | ok payload =>
    rw [Server.sends_sent] at h
    obtain ⟨header, hcarries⟩ := sendControl_carries hmsg h
    exact ⟨header, payload, hcarries⟩

theorem client_carries {c : Client} {suite : Suite} {env : Env} {event : RecvEvent} {sent : Sent}
    (h : sent ∈ (c.step suite env event).2) :
    ∃ header payload, Carries sent.data (clientCarries c.pc) header payload := by
  unfold Client.step at h
  cases hpc : c.pc <;> simp only [hpc] at h
  case sendHello => exact client_sends_carries (by simp [handshakeTypes]) h
  case sendKeyExchange => exact client_sends_carries (by simp [handshakeTypes]) h
  all_goals simp at h

theorem server_carries {s : Server} {suite : Suite} {rand : Rand} {env : Env} {event : RecvEvent}
    {sent : Sent} (h : sent ∈ (s.step suite rand env event).2) :
    ∃ header payload, Carries sent.data (serverCarries s.pc) header payload := by
  unfold Server.step at h
  cases hpc : s.pc <;> simp only [hpc] at h
  case sendHello => exact server_sends_carries (by simp [handshakeTypes]) h
  case resendHello => exact server_sends_carries (by simp [handshakeTypes]) h
  case sendConfirm => exact server_sends_carries (by simp [handshakeTypes]) h
  case awaitHello => cases hmode : s.mode <;> simp [hmode] at h
  case attempt => split_ifs at h <;> simp at h
  case helloTop => split_ifs at h <;> simp at h
  case keyTop => split_ifs at h <;> simp at h
  all_goals simp at h

/-- The relay hands the datagram that came from `source` to `dest`. -/
def Forwards (router : Router) (env : RelayEnv) (data : Bytes) (source dest : SocketAddr) : Prop :=
  ⟨.udp dest, data⟩ ∈ (Udp.handle router env data source).2

/-- The header's session is one that has `dest` in it and lets `source` in. -/
def Carriable (router : Router) (sessionId : UInt32) (source dest : SocketAddr) : Prop :=
  sessionId ≠ 0 ∧ source ≠ dest ∧ ∃ entry, router.routes[sessionId]? = some entry ∧
    .udp dest ∈ entry.peers ∧
      (.udp source ∈ entry.peers ∨ entry.peers.length < router.maxPeersPerSession)

theorem mem_targets_iff {router after : Router} {sessionId : UInt32} {source dest : SocketAddr}
    {now : Nat} {decision : RouteDecision}
    (h : router.Routed sessionId (.udp source) now after decision) :
    .udp dest ∈ decision.targets ↔ Carriable router sessionId source dest := by
  unfold Carriable
  cases h with
  | zero hzero => simp [RouteDecision.targets, hzero]
  | known hzero hentry hknown =>
    simp [hentry, hzero, hknown]
    tauto
  | full hzero hentry hknown hfull =>
    simp [RouteDecision.targets, hentry, hknown, Nat.not_lt.mpr hfull]
  | @joined entry hzero hentry hknown hroom =>
    have hne : .udp dest ∈ entry.peers → source ≠ dest := fun hdest heq => hknown (heq ▸ hdest)
    simp only [RouteDecision.targets_toAll, hentry, Option.some.injEq, exists_eq_left', hroom,
      or_true, and_true]
    exact ⟨fun hdest => ⟨hzero, hne hdest, hdest⟩, fun hcarriable => hcarriable.2.2⟩
  | limit _ hnew => simp [RouteDecision.targets, hnew]
  | created _ hnew => simp [RouteDecision.targets, hnew]

theorem forwards_iff {router : Router} {env : RelayEnv} {data : Bytes} {sessionId : UInt32}
    {header : PacketHeader} {payload : Bytes} (h : Carries data sessionId header payload)
    (source dest : SocketAddr) :
    Forwards router env data source dest ↔ Carriable router sessionId source dest := by
  have hdecode : PacketView.decode data = .ok ⟨header, payload⟩ := by
    rw [h.bytes]
    exact PacketView.decode_bytes header payload h.version h.size
  obtain ⟨msg, hmsg, htype⟩ := h.type
  have hnormal : MessageType.fromCode header.msgType ≠ .ok .floorRequest ∧
      MessageType.fromCode header.msgType ≠ .ok .floorRelease := by
    rw [htype]
    simp only [handshakeTypes, List.mem_cons, List.not_mem_nil, or_false] at hmsg
    obtain rfl | rfl | rfl | rfl := hmsg <;> exact ⟨by decide, by decide⟩
  have hcall := (router.received data.length).route_routed header.sessionId (.udp source)
    env.routedAt
  have hout := ((Udp.sends_forwardTo env data).forwardAll
    ((router.received data.length).route header.sessionId (.udp source) env.routedAt)).2
  rw [← Udp.handle_other hdecode source hnormal.1 hnormal.2] at hout
  rw [Forwards, hout, List.mem_map]
  rw [h.sessionId] at hcall ⊢
  have hmem := @mem_targets_iff _ _ _ _ dest _ _ hcall
  change _ ↔ Carriable router sessionId source dest at hmem
  refine Iff.trans ?_ hmem
  constructor
  · rintro ⟨target, htarget, heq⟩
    injection heq with heq
    exact heq ▸ htarget
  · intro htarget
    exact ⟨_, htarget, rfl⟩

/-- With both parties in one session, a handshake datagram reaches the other party just when its
header names a session that has the other party in it and lets the sender in.  The shared session
is one; session 0, which every ClientHello names, never is. -/
theorem handshake_forwarded_iff (maxSessions maxPeers : Nat) (ops : List Op) (router : Router)
    (hrouter : router = final Router.exec (.new maxSessions maxPeers .new) ops) (shared : UInt32)
    (clientAddr serverAddr : SocketAddr) (hclient : Registered router shared (.udp clientAddr))
    (hserver : Registered router shared (.udp serverAddr)) (suite : Suite) (relayEnv : RelayEnv) :
    (∀ (c : Client) (env : Env) (event : RecvEvent), ∀ sent ∈ (c.step suite env event).2,
      (Forwards router relayEnv sent.data clientAddr serverAddr ↔
        Carriable router (clientCarries c.pc) clientAddr serverAddr)) ∧
    (∀ (s : Server) (rand : Rand) (env : Env) (event : RecvEvent),
      ∀ sent ∈ (s.step suite rand env event).2,
        (Forwards router relayEnv sent.data serverAddr clientAddr ↔
          Carriable router (serverCarries s.pc) serverAddr clientAddr)) ∧
    (clientAddr ≠ serverAddr → Carriable router shared clientAddr serverAddr ∧
      Carriable router shared serverAddr clientAddr) := by
  refine ⟨fun c env event sent hsent => ?_, fun s rand env event sent hsent => ?_, fun hne => ?_⟩
  · obtain ⟨header, payload, hcarries⟩ := client_carries hsent
    exact forwards_iff hcarries clientAddr serverAddr
  · obtain ⟨header, payload, hcarries⟩ := server_carries hsent
    exact forwards_iff hcarries serverAddr clientAddr
  · obtain ⟨entry, hentry, hc⟩ := hclient
    have hs : .udp serverAddr ∈ entry.peers := (registered_of_some hentry).mp hserver
    have hzero : shared ≠ 0 := (hrouter ▸ tableInv_final maxSessions maxPeers ops).ne_zero hentry
    exact ⟨⟨hzero, hne, entry, hentry, hs, .inl hc⟩, hzero, hne.symm, entry, hentry, hc, .inl hs⟩

private def callerAddr : SocketAddr := .v4 1 9000
private def calleeAddr : SocketAddr := .v4 2 9000
private def relayAddr : SocketAddr := .v4 3 9000

private def joinOps : List Op := [.route 7 (.udp callerAddr) 0, .route 7 (.udp calleeAddr) 0]

private def joinedRouter : Router := final Router.exec (.new 10 5 .new) joinOps

private theorem joined_entry : joinedRouter.routes[(7 : UInt32)]? =
    some ⟨[.udp callerAddr, .udp calleeAddr], 0, none, none⟩ := by
  decide +kernel

private theorem caller_registered : Registered joinedRouter 7 (.udp callerAddr) :=
  ⟨_, joined_entry, by decide⟩

private theorem callee_registered : Registered joinedRouter 7 (.udp calleeAddr) :=
  ⟨_, joined_entry, by decide⟩

private def acceptAll : RelayEnv :=
  ⟨1, ⟨1, 1, 1, 1⟩, 1, fun data _ => some data.length, fun _ => true⟩

/-- Primitives of a kind: the relay looks at none of their output. -/
private def zeroSuite : Suite where
  publicKey _ := Vector.replicate 32 0
  diffieHellman _ _ := Vector.replicate 32 0
  hkdf n _ _ _ := Vector.replicate n 0

private def caller : Client :=
  ⟨Session.ofDefault, relayAddr, Vector.replicate 32 1, Vector.replicate 32 3, .sendHello 0, none⟩

private def calleeOffer (sessionId : UInt32) : Offer :=
  ⟨relayAddr, caller.hello zeroSuite, Vector.replicate 32 2,
    Server.serverHello zeroSuite Config.default (caller.hello zeroSuite)
      ⟨Vector.replicate 32 2, Vector.replicate 32 4, sessionId⟩ 1⟩

private def callee (sessionId : UInt32) : Server :=
  ⟨Session.ofDefault, .fixed relayAddr, .sendHello (calleeOffer sessionId), [], []⟩

private theorem caller_sends :
    ∃ sent ∈ (caller.step zeroSuite quietEnv .timeout).2, sent.dest = relayAddr := by
  have hstep : caller.step zeroSuite quietEnv .timeout =
      caller.sends quietEnv .handshakeClientHello 0 (.ok (caller.hello zeroSuite).bytes)
        (.awaitHello 0) := by
    rw [← encoded_clientHello]
    rfl
  have hsize : (caller.hello zeroSuite).bytes.length ≤ maxPayloadSize := by
    rw [ClientHello.length_bytes]
    decide
  have hmtu : headerSize + (caller.hello zeroSuite).bytes.length + 4 ≤ caller.session.config.mtu := by
    rw [ClientHello.length_bytes]
    decide
  obtain ⟨after, header, hsends, -⟩ :=
    caller.sends_ok quietEnv_accepts .handshakeClientHello 0 (.awaitHello 0) hsize hmtu
  rw [hstep, hsends]
  exact ⟨_, List.mem_singleton_self _, rfl⟩

/-- Caller and callee share session 7, and the caller's ClientHello does not get through. -/
theorem clientHello_not_forwarded :
    Registered joinedRouter 7 (.udp callerAddr) ∧ Registered joinedRouter 7 (.udp calleeAddr) ∧
      ∃ sent ∈ (caller.step zeroSuite quietEnv .timeout).2, sent.dest = relayAddr ∧
        ¬Forwards joinedRouter acceptAll sent.data callerAddr calleeAddr := by
  obtain ⟨sent, hsent, hdest⟩ := caller_sends
  obtain ⟨header, payload, hcarries⟩ := client_carries hsent
  refine ⟨caller_registered, callee_registered, sent, hsent, hdest, ?_⟩
  rw [forwards_iff hcarries]
  exact fun hcarriable => hcarriable.1 rfl

private def calleeRand : Rand := ⟨Vector.replicate 32 2, Vector.replicate 32 4, 7⟩

private theorem callee_sends :
    ∃ sent ∈ ((callee 7).step zeroSuite calleeRand quietEnv .timeout).2, sent.dest = relayAddr := by
  have hstep : (callee 7).step zeroSuite calleeRand quietEnv .timeout =
      (callee 7).sends quietEnv .handshakeServerHello 7 (.ok (calleeOffer 7).serverHello.bytes)
        relayAddr (.keyTop (calleeOffer 7)) := by
    rw [← encoded_serverHello]
    rfl
  have hsize : (calleeOffer 7).serverHello.bytes.length ≤ maxPayloadSize := by
    rw [ServerHello.length_bytes]
    decide
  have hmtu : headerSize + (calleeOffer 7).serverHello.bytes.length + 4 ≤
      (callee 7).session.config.mtu := by
    rw [ServerHello.length_bytes]
    decide
  obtain ⟨after, header, hsends, -⟩ := (callee 7).sends_ok quietEnv_accepts .handshakeServerHello 7
    relayAddr (.keyTop (calleeOffer 7)) hsize hmtu
  rw [hstep, hsends]
  exact ⟨_, List.mem_singleton_self _, rfl⟩

/-- A ServerHello that happens to name the session both are in does get through. -/
theorem serverHello_forwarded :
    ∃ sent ∈ ((callee 7).step zeroSuite calleeRand quietEnv .timeout).2, sent.dest = relayAddr ∧
      Forwards joinedRouter acceptAll sent.data calleeAddr callerAddr := by
  obtain ⟨-, hserver, hshared⟩ := handshake_forwarded_iff 10 5 joinOps joinedRouter rfl 7 callerAddr
    calleeAddr caller_registered callee_registered zeroSuite acceptAll
  obtain ⟨sent, hsent, hdest⟩ := callee_sends
  refine ⟨sent, hsent, hdest, ?_⟩
  exact (hserver (callee 7) calleeRand quietEnv .timeout sent hsent).mpr (hshared (by decide)).2

end GravitalTalk.Relay
