import GravitalTalk.Transport.Closing

/-! What a server sends to an address before that address has proven to be the client's, against
what it has received from there.  The first ServerHello is paid for by a whole ClientHello; a
repetition is sent for any packet whose type says ClientHello, however short. -/
namespace GravitalTalk.Transport.Handshake.Amplification
open Lib GravitalTalk.Core Transition

inductive Handler where
  | server (peer : SocketAddr)
  | serverAny

namespace Handler

def start (session : Session) : Handler → Server
  | server peer => ⟨session, .fixed peer, .awaitHello, [], []⟩
  | serverAny => Closing.anyServer session

def step : Handler → Server → Suite → Rand → Env → RecvEvent → Server × List Sent
  | server _ => Server.step
  | serverAny => Closing.anyStep

end Handler

structure Account where
  server : Server
  received : List Datagram
  sent : List Sent

inductive Act where
  | step (rand : Rand) (env : Env) (event : RecvEvent)
  | timesOut
  /-- Other tasks leave the session as they like; its configuration is never written. -/
  | shared (session : Session)

/-- What `recv` hands over fits the buffer. -/
def heard (server : Server) : RecvEvent → List Datagram
  | .datagram datagram =>
    if server.receives then
      [{ datagram with data := datagram.data.take server.session.config.mtu }]
    else []
  | .failed _ | .timeout => []

def Account.acts (self : Account) (handler : Handler) (suite : Suite) : Act → Account
  | .step rand env event =>
    let (server, sent) := handler.step self.server suite rand env event
    ⟨server, self.received ++ heard self.server event, self.sent ++ sent⟩
  | .timesOut => { self with server := self.server.timesOut }
  | .shared session =>
    { self with
      server := { self.server with
        session := { session with config := self.server.session.config } } }

def Account.start (handler : Handler) (session : Session) : Account :=
  ⟨handler.start session, [], []⟩

def Step (handler : Handler) (suite : Suite) (account : Account) (act : Act) (after : Account) :
    Prop :=
  after = account.acts handler suite act

def bytesFrom (addr : SocketAddr) (received : List Datagram) : Nat :=
  (received.map fun datagram => if datagram.source = addr then datagram.data.length else 0).sum

def bytesTo (addr : SocketAddr) (sent : List Sent) : Nat :=
  (sent.map fun datagram => if datagram.dest = addr then datagram.data.length else 0).sum

def Account.Bounded (self : Account) (addr : SocketAddr) : Prop :=
  10 * bytesTo addr self.sent ≤ 11 * bytesFrom addr self.received

/-- A packet of type ClientHello that reaches the wait for the KeyExchange has at least 102
bytes. -/
def LongHellos (account : Account) : Act → Prop
  | .step _ _ (.datagram datagram) =>
    ∀ offer view, account.server.pc = .awaitKeyExchange offer → datagram.source = offer.peer →
      received account.server.session datagram = .ok view →
        view.header.msgType = MessageType.handshakeClientHello.code →
          102 ≤ (datagram.data.take account.server.session.config.mtu).length
  | _ => True

@[simp] theorem bytesFrom_append (addr : SocketAddr) (past more : List Datagram) :
    bytesFrom addr (past ++ more) = bytesFrom addr past + bytesFrom addr more := by
  simp [bytesFrom]

@[simp] theorem bytesTo_append (addr : SocketAddr) (past more : List Sent) :
    bytesTo addr (past ++ more) = bytesTo addr past + bytesTo addr more := by
  simp [bytesTo]

def due (addr : SocketAddr) : ServerPc → Nat
  | .sendHello offer | .resendHello offer => if offer.peer = addr then 112 else 0
  | _ => 0

def Quiet : ServerPc → Prop
  | .sendHello _ | .resendHello _ | .sendConfirm _ => False
  | _ => True

theorem Quiet.due {pc : ServerPc} (h : Quiet pc) (addr : SocketAddr) : due addr pc = 0 := by
  cases pc <;> first | rfl | exact h.elim

/-- A step that stays within `budget` unless it accepts a KeyExchange. -/
structure Pays (budget : SocketAddr → Nat) (s s' : Server) (sent : List Sent) : Prop where
  accepted : s'.accepted = [] → s.accepted = []
  balance : s'.accepted = [] → ∀ addr, 10 * (bytesTo addr sent + due addr s'.pc) ≤ budget addr
  confirm : ∀ offer, s'.pc = .sendConfirm offer → s'.accepted ≠ []

section Steps
variable {budget : SocketAddr → Nat} {s s' : Server}

theorem Pays.quiet (haccepted : s'.accepted = s.accepted) (hquiet : Quiet s'.pc) :
    Pays budget s s' [] where
  accepted h := haccepted ▸ h
  balance _ addr := by
    rw [hquiet.due addr]
    exact Nat.zero_le _
  confirm offer h := by
    rw [h] at hquiet
    exact hquiet.elim

theorem finishes_quiet (s : Server) (result : Except TransportError Offer) :
    (s.finishes result).accepted = s.accepted ∧ Quiet (s.finishes result).pc := by
  unfold Server.finishes
  split
  · exact ⟨rfl, trivial⟩
  · split
    · split <;> exact ⟨rfl, trivial⟩
    · exact ⟨rfl, trivial⟩
    · exact ⟨rfl, trivial⟩

theorem pays_finishes (haccepted : s'.accepted = s.accepted)
    (result : Except TransportError Offer) : Pays budget s (s'.finishes result) [] :=
  .quiet ((finishes_quiet s' result).1.trans haccepted) (finishes_quiet s' result).2

theorem length_received {session : Session} {datagram : Datagram} {view : PacketView}
    (h : received session datagram = .ok view) :
    (datagram.data.take session.config.mtu).length = 28 + view.payload.length := by
  obtain ⟨-, -, hbytes⟩ := PacketView.eq_bytes_of_decode h
  rw [hbytes, Packet.length_bytes, headerSize]
  omega

theorem length_of_hello {payload : Bytes} {hello : ClientHello}
    (h : ClientHello.decode payload = .ok hello) : 80 ≤ payload.length := by
  unfold ClientHello.decode at h
  split at h
  · cases h
  · exact Nat.le_of_not_lt ‹_›

theorem bytesFrom_heard (hreceives : s.receives = true) (datagram : Datagram) :
    bytesFrom datagram.source (heard s (.datagram datagram)) =
      (datagram.data.take s.session.config.mtu).length := by
  simp [heard, hreceives, bytesFrom]

theorem Pays.owed {event : RecvEvent} (haccepted : s'.accepted = s.accepted) {offer : Offer}
    (hpc : s'.pc = .sendHello offer ∨ s'.pc = .resendHello offer)
    (hheard : 1120 ≤ 11 * bytesFrom offer.peer (heard s event)) :
    Pays (fun addr => 11 * bytesFrom addr (heard s event)) s s' [] where
  accepted h := haccepted ▸ h
  balance _ addr := by
    have hdue : due addr s'.pc = if offer.peer = addr then 112 else 0 := by
      rcases hpc with hpc | hpc <;> rw [hpc, due]
    rw [hdue]
    split_ifs with haddr
    · simpa [bytesTo, ← haddr] using hheard
    · exact Nat.zero_le _
  confirm offer' h := by rcases hpc with hpc | hpc <;> rw [hpc] at h <;> cases h

theorem negotiates_pays (suite : Suite) (rand : Rand) {hello : ClientHello} {event : RecvEvent}
    {datagram : Datagram} {view : PacketView} (hreceives : s.receives = true)
    (hbrings : Brings s.session event .handshakeClientHello datagram view)
    (hdecode : ClientHello.decode view.payload = .ok hello) (session : Session) :
    Pays (fun addr => 11 * bytesFrom addr (heard s event)) s
      ({ s with session := session }.negotiates suite rand hello datagram.source) [] := by
  have hlong := length_of_hello hdecode
  refine Server.negotiates_rule { s with session := session } (Pays _ s · []) suite rand hello
    datagram.source (fun _ _ => pays_finishes (by rfl) _) fun codec _ _ => .owed rfl (.inl rfl) ?_
  rw [hbrings.arrived, bytesFrom_heard hreceives, length_received hbrings.decoded]
  omega

theorem onHelloFrom_pays (suite : Suite) (rand : Rand) (peer : SocketAddr) (event : RecvEvent)
    (hpc : s.pc = .awaitHello) :
    Pays (fun addr => 11 * bytesFrom addr (heard s event)) s
      (s.onHelloFrom suite rand peer event) [] := by
  have hreceives : s.receives = true := by rw [Server.receives, hpc]
  have hstay : Quiet s.pc := by rw [hpc]; trivial
  refine s.onHelloFrom_rule (Pays _ s · []) suite rand peer event (.quiet rfl hstay)
    (fun _ => pays_finishes rfl _) ?_
  rintro datagram view hello hbrings rfl hdecode
  exact negotiates_pays suite rand hreceives hbrings hdecode s.session

theorem onHelloAny_pays (suite : Suite) (rand : Rand) (event : RecvEvent)
    (hpc : s.pc = .awaitHello) :
    Pays (fun addr => 11 * bytesFrom addr (heard s event)) s (s.onHelloAny suite rand event) [] := by
  have hreceives : s.receives = true := by rw [Server.receives, hpc]
  exact s.onHelloAny_rule (Pays _ s · []) suite rand event (.quiet rfl trivial)
    (fun _ => pays_finishes rfl _)
    fun _ _ _ hbrings hdecode => negotiates_pays suite rand hreceives hbrings hdecode _

theorem onKeyExchange_pays (suite : Suite) {offer : Offer} (event : RecvEvent)
    (hpc : s.pc = .awaitKeyExchange offer)
    (hlong : ∀ datagram view, Brings s.session event .handshakeClientHello datagram view →
      datagram.source = offer.peer → 102 ≤ (datagram.data.take s.session.config.mtu).length) :
    Pays (fun addr => 11 * bytesFrom addr (heard s event)) s (s.onKeyExchange suite offer event)
      [] := by
  have hreceives : s.receives = true := by rw [Server.receives, hpc]
  refine s.onKeyExchange_rule (Pays _ s · []) suite offer event (.quiet rfl trivial)
    (fun _ => pays_finishes rfl _) (fun datagram view hbrings hsource => ?_)
    fun _ _ _ _ _ _ _ => ⟨by simp, by simp, by simp⟩
  refine .owed rfl (.inr rfl) ?_
  have := hlong datagram view hbrings hsource
  rw [← hsource, hbrings.arrived, bytesFrom_heard hreceives]
  omega

theorem sendControl_bytes (session : Session) (env : Env) (msg : MessageType) (sessionId : UInt32)
    (payload : Bytes) (peer addr : SocketAddr) :
    bytesTo addr (session.sendControl env msg sessionId payload peer).2.2 ≤
      if peer = addr then 28 + payload.length else 0 := by
  unfold Session.sendControl Session.sendPacket
  simp only
  split
  · exact Nat.zero_le _
  · rename_i hencode
    obtain ⟨-, -, rfl⟩ := Session.encodePacket_ok hencode
    have hone : ∀ header : PacketHeader, bytesTo addr [⟨Packet.bytes header payload, peer⟩] =
        if peer = addr then 28 + payload.length else 0 := by
      intro header
      simp only [bytesTo, List.map_cons, List.map_nil, List.sum_singleton, Packet.length_bytes,
        headerSize]
      split_ifs <;> omega
    split <;> exact (hone _).le

theorem sends_quiet (env : Env) (msg : MessageType) (sessionId : UInt32)
    (payload : Except TransportError Bytes) (peer : SocketAddr) {next : ServerPc}
    (hnext : Quiet next) :
    (s.sends env msg sessionId payload peer next).1.accepted = s.accepted ∧
      Quiet (s.sends env msg sessionId payload peer next).1.pc := by
  exact s.sends_rule (fun out => out.1.accepted = s.accepted ∧ Quiet out.1.pc) env msg sessionId
    payload peer next (fun _ => finishes_quiet _ _) (fun _ _ _ _ _ _ => finishes_quiet _ _)
    fun _ _ _ _ _ => ⟨rfl, hnext⟩

theorem sendsHello_pays (env : Env) (offer : Offer)
    (hpc : s.pc = .sendHello offer ∨ s.pc = .resendHello offer) :
    Pays (fun addr => 10 * due addr s.pc) s (s.sendsHello env offer).1 (s.sendsHello env offer).2 := by
  have hsent (addr : SocketAddr) : bytesTo addr (s.sendsHello env offer).2 ≤ due addr s.pc := by
    have hdue : due addr s.pc = if offer.peer = addr then 112 else 0 := by
      rcases hpc with hpc | hpc <;> rw [hpc, due]
    rw [Server.sendsHello, encoded_serverHello, Server.sends_sent, hdue]
    simpa [ServerHello.size] using sendControl_bytes s.session env .handshakeServerHello
      offer.serverHello.sessionId offer.serverHello.bytes offer.peer addr
  have hafter : (s.sendsHello env offer).1.accepted = s.accepted ∧
      Quiet (s.sendsHello env offer).1.pc := by
    rw [Server.sendsHello]
    exact sends_quiet env .handshakeServerHello _ _ offer.peer trivial
  generalize s.sendsHello env offer = next at hsent hafter ⊢
  obtain ⟨haccepted, hquiet⟩ := hafter
  refine ⟨fun h => haccepted ▸ h, fun _ addr => ?_, fun offer' h => ?_⟩
  · rw [hquiet.due addr, Nat.add_zero]
    exact Nat.mul_le_mul_left 10 (hsent addr)
  · rw [h] at hquiet
    exact hquiet.elim

theorem Pays.mono {wider : SocketAddr → Nat} {sent : List Sent} (h : Pays budget s s' sent)
    (hle : ∀ addr, budget addr ≤ wider addr) : Pays wider s s' sent :=
  ⟨h.accepted, fun hnone addr => (h.balance hnone addr).trans (hle addr), h.confirm⟩

/-- A step pays for what it sends out of what was due and what it hears. -/
theorem step_pays (suite : Suite) (rand : Rand) (env : Env) (event : RecvEvent)
    (hconfirm : ∀ offer, s.pc = .sendConfirm offer → s.accepted ≠ [])
    (hlong : ∀ offer datagram view, s.pc = .awaitKeyExchange offer →
      event = .datagram datagram → datagram.source = offer.peer →
        received s.session datagram = .ok view →
          view.header.msgType = MessageType.handshakeClientHello.code →
            102 ≤ (datagram.data.take s.session.config.mtu).length) :
    Pays (fun addr => 10 * due addr s.pc + 11 * bytesFrom addr (heard s event)) s
      (s.step suite rand env event).1 (s.step suite rand env event).2 := by
  have hheard (addr : SocketAddr) : 11 * bytesFrom addr (heard s event) ≤
      10 * due addr s.pc + 11 * bytesFrom addr (heard s event) := Nat.le_add_left _ _
  have hdue (addr : SocketAddr) : 10 * due addr s.pc ≤
      10 * due addr s.pc + 11 * bytesFrom addr (heard s event) := Nat.le_add_right _ _
  unfold Server.step
  split
  case h_1 => split <;> exact .quiet rfl trivial
  case h_2 =>
    split
    · exact pays_finishes rfl _
    · exact .quiet rfl trivial
  case h_3 hpc =>
    split
    · exact (onHelloFrom_pays suite rand _ event hpc).mono hheard
    · exact (onHelloAny_pays suite rand event hpc).mono hheard
  case h_4 hpc => exact (sendsHello_pays env _ (.inl hpc)).mono hdue
  case h_5 hpc => exact (sendsHello_pays env _ (.inr hpc)).mono hdue
  case h_6 =>
    split
    · exact pays_finishes rfl _
    · exact .quiet rfl trivial
  case h_7 offer hpc =>
    exact (onKeyExchange_pays suite event hpc fun datagram view hbrings hsource =>
      hlong offer datagram view hpc hbrings.arrived hsource hbrings.decoded hbrings.msgType).mono
        hheard
  case h_8 offer hpc =>
    obtain ⟨haccepted, hquiet⟩ := @sends_quiet s env .handshakeSessionConfirm
      offer.serverHello.sessionId _ offer.peer (.storeEncrypt offer) trivial
    refine ⟨fun h => ?_, fun h => ?_, fun _ _ h => ?_⟩ <;>
      exact absurd (haccepted.symm.trans h) (hconfirm offer hpc)
  case h_9 => exact .quiet rfl trivial
  case h_10 => exact pays_finishes (by rfl) _
  case h_11 hpc => exact .quiet rfl (by rw [hpc]; trivial)

end Steps

/-- What has been sent and what is due next is covered until a KeyExchange is accepted. -/
structure Account.Covered (account : Account) : Prop where
  balance : account.server.accepted = [] → ∀ addr,
    10 * (bytesTo addr account.sent + due addr account.server.pc) ≤
      11 * bytesFrom addr account.received
  confirm : ∀ offer, account.server.pc = .sendConfirm offer → account.server.accepted ≠ []

section Runs
variable {handler : Handler} {suite : Suite} {account : Account}

theorem covered_start (handler : Handler) (session : Session) :
    (Account.start handler session).Covered := by
  cases handler <;> exact ⟨fun _ _ => Nat.zero_le _, nofun⟩

/-- Only the wait of `handshake_server_any` for the ClientHello is not a wait of
`handshake_server`. -/
theorem handler_step (handler : Handler) {s : Server} (hpc : s.pc ≠ .awaitHello) (rand : Rand)
    (env : Env) (event : RecvEvent) :
    handler.step s suite rand env event = s.step suite rand env event := by
  cases handler with
  | server => rfl
  | serverAny =>
    simp only [Handler.step, Closing.anyStep]

theorem handler_pays (handler : Handler) {s : Server} (rand : Rand) (env : Env)
    (event : RecvEvent) (hconfirm : ∀ offer, s.pc = .sendConfirm offer → s.accepted ≠ [])
    (hlong : ∀ offer datagram view, s.pc = .awaitKeyExchange offer →
      event = .datagram datagram → datagram.source = offer.peer →
        received s.session datagram = .ok view →
          view.header.msgType = MessageType.handshakeClientHello.code →
            102 ≤ (datagram.data.take s.session.config.mtu).length) :
    Pays (fun addr => 10 * due addr s.pc + 11 * bytesFrom addr (heard s event)) s
      (handler.step s suite rand env event).1 (handler.step s suite rand env event).2 := by
  cases handler with
  | server => exact step_pays suite rand env event hconfirm hlong
  | serverAny =>
    simp only [Handler.step, Closing.anyStep]
    split
    · rename_i hpc
      exact (onHelloAny_pays suite rand event hpc).mono fun _ => Nat.le_add_left _ _
    · exact step_pays suite rand env event hconfirm hlong

theorem timesOut_quiet (s : Server) :
    s.timesOut.accepted = s.accepted ∧ (s.timesOut.pc = s.pc ∨ Quiet s.timesOut.pc) := by
  unfold Server.timesOut
  split
  · exact ⟨rfl, .inl rfl⟩
  · exact ⟨rfl, .inl rfl⟩
  · split <;> exact ⟨rfl, .inr trivial⟩

theorem Account.Covered.acts (h : account.Covered) (act : Act) (hlong : LongHellos account act) :
    (account.acts handler suite act).Covered := by
  cases act with
  | step rand env event =>
    have hpays := @handler_pays suite handler account.server rand env event h.confirm
      fun offer datagram view hpc hevent => by
        subst hevent
        exact hlong offer view hpc
    refine ⟨fun hnone addr => ?_, hpays.confirm⟩
    have hbefore := h.balance (hpays.accepted hnone) addr
    have hstep := hpays.balance hnone addr
    simp only [Account.acts, bytesTo_append, bytesFrom_append] at hstep ⊢
    omega
  | timesOut =>
    obtain ⟨haccepted, hpc | hquiet⟩ := timesOut_quiet account.server
    · refine ⟨fun hnone addr => ?_, fun offer hat => ?_⟩
      · have := h.balance (haccepted.symm.trans hnone) addr
        rwa [← hpc] at this
      · exact haccepted ▸ h.confirm offer (hpc.symm.trans hat)
    · refine ⟨fun hnone addr => ?_, fun offer hat => ?_⟩
      · have := h.balance (haccepted.symm.trans hnone) addr
        simp only [Account.acts, hquiet.due addr]
        omega
      · simp only [Account.acts] at hat
        rw [hat] at hquiet
        exact hquiet.elim
  | shared session => exact ⟨h.balance, h.confirm⟩

end Runs

/-- In every run in which the repeated hellos are long, no address is sent more than 1.1 times what
it has sent, as long as no KeyExchange has been accepted. -/
theorem amplification_bounded (handler : Handler) (suite : Suite) (session : Session)
    (account : Account)
    (hrun : Reaches (Step handler suite) LongHellos (.start handler session) account)
    (hunproven : account.server.accepted = []) (addr : SocketAddr) : account.Bounded addr := by
  have hcovered : account.Covered :=
    hrun.invariant (covered_start handler session) fun _ act _ hinv hstep hlong =>
      hstep ▸ hinv.acts act hlong
  have := hcovered.balance hunproven addr
  simp only [Account.Bounded]
  omega

section Repeated
variable {handler : Handler} {suite : Suite} {account : Account} {offer : Offer}

private def typedHello (source : SocketAddr) (payload : Bytes) : Datagram :=
  ⟨Packet.bytes (PacketHeader.new MessageType.handshakeClientHello.code 0 0 0) payload, source⟩

theorem Account.answers (rand : Rand)
    (hpc : account.server.pc = .sendHello offer ∨ account.server.pc = .resendHello offer)
    (hopen : account.server.session.closed = false)
    (hmtu : 112 ≤ account.server.session.config.mtu) :
    ∃ after, Reaches (Step handler suite) LongHellos account after ∧
      after.server.pc = .awaitKeyExchange offer ∧ after.server.accepted = account.server.accepted ∧
      Like account.server.session after.server.session ∧
      bytesTo offer.peer after.sent = bytesTo offer.peer account.sent + 112 ∧
      after.received = account.received := by
  have hlen : offer.serverHello.bytes.length = 84 := offer.serverHello.length_bytes
  obtain ⟨session, header, hsends, hlike, -⟩ := @Server.sends_ok account.server quietEnv
    quietEnv_accepts .handshakeServerHello offer.serverHello.sessionId offer.serverHello.bytes
    offer.peer (.keyTop offer) (by rw [hlen]; decide) (by rw [hlen]; exact hmtu)
  set waiting : Server := { account.server with session := session, pc := .keyTop offer }
  have hsend : account.server.step suite rand quietEnv .timeout =
      (waiting, [⟨Packet.bytes header offer.serverHello.bytes, offer.peer⟩]) := by
    rw [← hsends, ← encoded_serverHello]
    rcases hpc with hpc | hpc <;> simp only [Server.step, hpc, Server.sendsHello]
  have htop : waiting.step suite rand quietEnv .timeout =
      ({ waiting with pc := .awaitKeyExchange offer }, []) := by
    have hclosed : session.closed = false := hlike.closed.trans hopen
    simp [Server.step, waiting, hclosed]
  have hpc' : account.server.pc ≠ .awaitHello := by rcases hpc with h | h <;> simp [h]
  refine ⟨⟨{ waiting with pc := .awaitKeyExchange offer }, account.received,
    account.sent ++ [⟨Packet.bytes header offer.serverHello.bytes, offer.peer⟩]⟩, ?_, rfl, rfl,
    hlike, ?_, rfl⟩
  · have hfirst : Step handler suite account (.step rand quietEnv .timeout)
        ⟨waiting, account.received,
          account.sent ++ [⟨Packet.bytes header offer.serverHello.bytes, offer.peer⟩]⟩ := by
      simp only [Step, Account.acts, handler_step handler hpc', hsend, heard, List.append_nil]
    have hsecond : Step handler suite ⟨waiting, account.received,
          account.sent ++ [⟨Packet.bytes header offer.serverHello.bytes, offer.peer⟩]⟩
        (.step rand quietEnv .timeout) ⟨{ waiting with pc := .awaitKeyExchange offer },
          account.received,
          account.sent ++ [⟨Packet.bytes header offer.serverHello.bytes, offer.peer⟩]⟩ := by
      have hpc'' : waiting.pc ≠ .awaitHello := by simp [waiting]
      simp only [Step, Account.acts, handler_step handler hpc'', htop, heard, List.append_nil]
    exact ((Reaches.refl account).tail hfirst trivial).tail hsecond trivial
  · simp [bytesTo, Packet.length_bytes, headerSize, ServerHello.size]

theorem Account.repeats {allowed : Account → Act → Prop} (rand : Rand) {payload : Bytes}
    (hsize : payload.length ≤ 84) (hpc : account.server.pc = .awaitKeyExchange offer)
    (hmtu : 112 ≤ account.server.session.config.mtu)
    (hallowed : allowed account
      (.step rand quietEnv (.datagram (typedHello offer.peer payload)))) :
    ∃ after, Reaches (Step handler suite) allowed account after ∧
      after.server = { account.server with pc := .resendHello offer } ∧
      after.sent = account.sent ∧ bytesFrom offer.peer after.received =
        bytesFrom offer.peer account.received + (28 + payload.length) := by
  have hlength : (typedHello offer.peer payload).data.length = 28 + payload.length := by
    rw [typedHello, Packet.length_bytes, headerSize]
    omega
  have htake : (typedHello offer.peer payload).data.take account.server.session.config.mtu =
      (typedHello offer.peer payload).data := List.take_of_length_le (by omega)
  have hreceived : Handshake.received account.server.session (typedHello offer.peer payload) =
      .ok ⟨PacketHeader.new MessageType.handshakeClientHello.code 0 0 0, payload⟩ := by
    rw [Handshake.received, htake]
    exact PacketView.decode_bytes _ _ rfl (hsize.trans (by decide))
  have hstep := @Server.step_repeats suite rand quietEnv account.server
    (typedHello offer.peer payload) _ offer hpc rfl hreceived rfl
  have hpc' : account.server.pc ≠ .awaitHello := by simp [hpc]
  have hreceives : account.server.receives = true := by rw [Server.receives, hpc]
  have hact : Step handler suite account
      (.step rand quietEnv (.datagram (typedHello offer.peer payload))) _ := rfl
  refine ⟨_, (Reaches.refl account).tail hact hallowed, ?_, ?_, ?_⟩
  · simp only [Account.acts, handler_step handler hpc', hstep]
  · simp only [Account.acts, handler_step handler hpc', hstep, List.append_nil]
  · have hheard := bytesFrom_heard hreceives (typedHello offer.peer payload)
    rw [htake, hlength] at hheard
    simp only [Account.acts, bytesFrom_append]
    exact congrArg (bytesFrom offer.peer account.received + ·) hheard

theorem Account.opens {hello : ClientHello} {codec : UInt8} {session : Session}
    {peer : SocketAddr} (rand : Rand) (hmtu : 112 ≤ session.config.mtu)
    (hopen : session.closed = false) (hversion : ¬hello.protocolVersion < protocolVersionMin)
    (hcodec : Server.chooseCodec session.config hello.codecPreferred = .ok codec) :
    ∃ account offer, Reaches (Step (.server peer) suite) LongHellos
        (.start (.server peer) session) account ∧
      account.server.pc = .awaitKeyExchange offer ∧ offer.peer = peer ∧
      account.server.accepted = [] ∧ account.server.session.closed = false ∧
      112 ≤ account.server.session.config.mtu ∧
      bytesFrom peer account.received = 108 ∧ bytesTo peer account.sent = 112 := by
  set header := PacketHeader.new MessageType.handshakeClientHello.code 0 0 0
  have hlen : hello.bytes.length = 80 := hello.length_bytes
  have hwhole : (Packet.bytes header hello.bytes).length = 108 := by
    rw [Packet.length_bytes, hlen]
    rfl
  have htake : (Packet.bytes header hello.bytes).take session.config.mtu =
      Packet.bytes header hello.bytes := List.take_of_length_le (by omega)
  have hreceived : Handshake.received session ⟨Packet.bytes header hello.bytes, peer⟩ =
      .ok ⟨header, hello.bytes⟩ := by
    rw [Handshake.received, htake]
    exact PacketView.decode_bytes _ _ rfl (by rw [hlen]; decide)
  have hstep := @Server.step_offers suite rand quietEnv ⟨session, .fixed peer, .awaitHello, [], []⟩
    ⟨Packet.bytes header hello.bytes, peer⟩ _ hello codec rfl rfl hreceived rfl hello.decode_bytes
    hversion hcodec
  set offer : Offer := ⟨peer, hello, rand.secret,
    Server.serverHello suite session.config hello rand codec⟩
  set offering : Account := ⟨{
      session := { session with sessionId := rand.sessionId, negotiatedCodec := codec }
      mode := .fixed peer
      pc := .sendHello offer
      offers := [offer]
      accepted := [] }, [⟨Packet.bytes header hello.bytes, peer⟩], []⟩ with hoffering
  have hfirst : Step (.server peer) suite (.start (.server peer) session)
      (.step rand quietEnv (.datagram ⟨Packet.bytes header hello.bytes, peer⟩)) offering := by
    simp only [Step, Account.acts, Account.start, Handler.start, Handler.step]
    rw [hstep]
    simp only [heard, Server.receives, if_true, htake, hoffering, List.nil_append]
  have hlong : LongHellos (.start (.server peer) session)
      (.step rand quietEnv (.datagram ⟨Packet.bytes header hello.bytes, peer⟩)) := by
    intro _ _ hpc
    cases hpc
  obtain ⟨waiting, hwaits, hpc, hnone, hlike, hsent, hheard⟩ :=
    @Account.answers (.server peer) suite offering offer rand (.inl rfl) hopen hmtu
  refine ⟨waiting, offer, ((Reaches.refl _).tail hfirst hlong).trans hwaits, hpc, rfl, hnone,
    hlike.closed.trans hopen, by rwa [hlike.config], ?_, hsent⟩
  rw [hheard]
  simp [hoffering, bytesFrom, hwhole]

theorem Account.answersAgain {allowed : Account → Act → Prop} {hello : ClientHello} {codec : UInt8}
    {session : Session} {peer : SocketAddr} (rand : Rand) (hmtu : 112 ≤ session.config.mtu)
    (hopen : session.closed = false) (hversion : ¬hello.protocolVersion < protocolVersionMin)
    (hcodec : Server.chooseCodec session.config hello.codecPreferred = .ok codec)
    {payload : Bytes} (hsize : payload.length ≤ 84)
    (hlong : ∀ account act, LongHellos account act → allowed account act)
    (hrepeat : ∀ account, 112 ≤ account.server.session.config.mtu →
      allowed account (.step rand quietEnv (.datagram (typedHello peer payload)))) :
    ∃ account, Reaches (Step (.server peer) suite) allowed (.start (.server peer) session) account ∧
      account.server.accepted = [] ∧ bytesFrom peer account.received = 136 + payload.length ∧
        bytesTo peer account.sent = 224 := by
  obtain ⟨waiting, offer, hopens, hpc, rfl, hnone, hstill, hroom, hpaid, hsent⟩ :=
    @Account.opens suite hello codec session peer rand hmtu hopen hversion hcodec
  obtain ⟨asked, hasks, hserver, hsame, hpaid'⟩ :=
    @Account.repeats (.server offer.peer) suite waiting offer allowed rand payload hsize hpc hroom
      (hrepeat waiting hroom)
  obtain ⟨again, hagain, -, hnone', -, hsent', hheard⟩ :=
    @Account.answers (.server offer.peer) suite asked offer rand (.inr (by rw [hserver]))
      (by rwa [hserver]) (by rwa [hserver])
  refine ⟨again, ((hopens.mono hlong).trans hasks).trans (hagain.mono hlong), ?_, ?_, ?_⟩
  · rw [hnone', hserver]
    exact hnone
  · rw [hheard, hpaid', hpaid]
    omega
  · rw [hsent', hsame, hsent]

end Repeated

private def muteSuite : Suite where
  publicKey _ := Vector.replicate 32 0
  diffieHellman _ _ := Vector.replicate 32 0
  hkdf n _ _ _ := Vector.replicate n 0

private def muteRand : Rand := ⟨Vector.replicate 32 2, Vector.replicate 32 4, 7⟩

private def askedBy : SocketAddr := .v4 0x7F000001 20001

private def asking : ClientHello where
  ephemeralPublicKey := Vector.replicate 32 0
  clientNonce := Vector.replicate 32 3
  protocolVersion := 1
  codecPreferred := 1
  sampleRate := 48000
  channels := 1
  frameDurationMs := 20
  maxBitrate := 64000
  capabilityFlags := 0

/-- A whole hello and its repetition, each answered. -/
theorem amplification_bounded_first : ∃ account,
    Reaches (Step (.server askedBy) muteSuite) LongHellos
      (.start (.server askedBy) Session.ofDefault) account ∧
    bytesFrom askedBy account.received = 216 ∧ bytesTo askedBy account.sent = 224 ∧
      account.Bounded askedBy := by
  have hlength : asking.bytes.length = 80 := asking.length_bytes
  obtain ⟨account, hrun, hunproven, hreceived, hsent⟩ :=
    @Account.answersAgain muteSuite LongHellos asking 1 Session.ofDefault askedBy muteRand
      (by decide) rfl (by decide) (show Server.chooseCodec Config.default 1 = .ok 1 from rfl)
      asking.bytes (by omega) (fun _ _ h => h) fun account hroom offer view _ _ _ _ => by
        simp only [typedHello, List.length_take, Packet.length_bytes, headerSize]
        omega
  rw [hlength] at hreceived
  exact ⟨account, hrun, hreceived, hsent, amplification_bounded (.server askedBy) muteSuite
    Session.ofDefault account hrun hunproven askedBy⟩

/-- 28 bytes are enough for another ServerHello. -/
theorem short_hello_amplifies : ∃ account,
    Reaches (Step (.server askedBy) muteSuite) (fun _ _ => True)
      (.start (.server askedBy) Session.ofDefault) account ∧
    account.server.accepted = [] ∧ ¬account.Bounded askedBy := by
  obtain ⟨account, hrun, hunproven, hreceived, hsent⟩ :=
    @Account.answersAgain muteSuite (fun _ _ => True) asking 1 Session.ofDefault askedBy muteRand
      (by decide) rfl (by decide) (show Server.chooseCodec Config.default 1 = .ok 1 from rfl) []
      (by decide) (fun _ _ _ => trivial) fun _ _ => trivial
  refine ⟨account, hrun, hunproven, ?_⟩
  rw [Account.Bounded, hreceived, hsent]
  decide

end GravitalTalk.Transport.Handshake.Amplification
