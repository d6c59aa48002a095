import GravitalTalk.Transport.NoiseImmunity

/-! The handshake over a network that loses datagrams, with the client's timers.  Here a step of a
party runs from one of its receives to the next, and a datagram is in flight until it is delivered
or dropped. -/
namespace GravitalTalk.Transport.Handshake.Loss
open Lib GravitalTalk.Core Transition

def handshakeTimeoutMs : Nat := 10000

def handshakeRetryBaseMs : Nat := 200

def backoff (attempt : UInt32) : Nat := handshakeRetryBaseMs <<< min attempt.toNat 4

def recording {σ : Type*} (step : σ → Env → RecvEvent → σ × List Sent) (s : σ × List Sent)
    (env : Env) (event : RecvEvent) : σ × List Sent :=
  ((step s.1 env event).1, s.2 ++ (step s.1 env event).2)

def clientHears (suite : Suite) (c : Client) (receive : Receive) : Client × List Sent :=
  hears (fun s => s.1.receives) (recording fun c env event => c.step suite env event) (c, []) receive

def clientBegins (suite : Suite) (c : Client) (env : Env) : Client × List Sent :=
  settles (fun s => s.1.receives) (recording fun c env event => c.step suite env event) (c, []) env

def serverHears (suite : Suite) (rand : Rand) (s : Server) (receive : Receive) :
    Server × List Sent :=
  hears (fun s => s.1.receives) (recording fun s env event => s.step suite rand env event) (s, [])
    receive

structure State where
  client : Client
  server : Server
  net : List NetPacket
  /-- Milliseconds since the client's call began. -/
  now : Nat
  /-- When the client's bounded wait ends; its wait for the SessionConfirm has no bound. -/
  wakes : Option Nat

def wakesAt (now : Nat) (c : Client) : Option Nat :=
  match c.pc with
  | .awaitHello attempt => some (now + backoff attempt)
  | _ => none

/-- The client has sent its first ClientHello. -/
def initial (setup : Setup) (c : Client) (s : Server) (env : Env) : State where
  client := (clientBegins setup.suite c env).1
  server := s
  net := posts setup.clientAddr (clientBegins setup.suite c env).2
  now := 0
  wakes := wakesAt 0 (clientBegins setup.suite c env).1

inductive Label where
  | other
  | drop (packet : NetPacket)
  | server (packet : NetPacket)

def State.clientMoves (st : State) (setup : Setup) (receive : Receive) (net : List NetPacket) :
    State :=
  { st with
    client := (clientHears setup.suite st.client receive).1
    net := net ++ posts setup.clientAddr (clientHears setup.suite st.client receive).2
    wakes := wakesAt st.now (clientHears setup.suite st.client receive).1 }

def State.serverMoves (st : State) (setup : Setup) (rand : Rand) (receive : Receive)
    (net : List NetPacket) : State :=
  { st with
    server := (serverHears setup.suite rand st.server receive).1
    net := net ++ posts setup.serverAddr (serverHears setup.suite rand st.server receive).2 }

inductive Step (setup : Setup) : State → Label → State → Prop where
  | elapse {st} (t : Nat) (hlater : st.now ≤ t) (htimer : ∀ w ∈ st.wakes, t ≤ w) :
      Step setup st .other { st with now := t }
  | clientReceives {st packet before after} (receive : Receive)
      (hnet : st.net = before ++ packet :: after) (hdest : packet.dest = setup.clientAddr)
      (hevent : receive.event = .datagram ⟨packet.data, packet.source⟩)
      (hreceives : st.client.receives = true) :
      Step setup st .other (st.clientMoves setup receive (before ++ after))
  | clientWakes {st} (receive : Receive) (hevent : receive.event = .timeout)
      (htimer : st.wakes = some st.now) :
      Step setup st .other (st.clientMoves setup receive st.net)
  | clientTimesOut {st} (hdeadline : handshakeTimeoutMs ≤ st.now) :
      Step setup st .other { st with client := st.client.timesOut, wakes := none }
  | serverReceives {st packet before after} (rand : Rand) (receive : Receive)
      (hnet : st.net = before ++ packet :: after) (hdest : packet.dest = setup.serverAddr)
      (hevent : receive.event = .datagram ⟨packet.data, packet.source⟩) :
      Step setup st (.server packet) (st.serverMoves setup rand receive (before ++ after))
  | serverWakes {st} (rand : Rand) (receive : Receive) (hevent : receive.event = .timeout) :
      Step setup st .other (st.serverMoves setup rand receive st.net)
  | serverTimesOut {st} : Step setup st .other { st with server := st.server.timesOut }
  | drop {st packet before after} (hnet : st.net = before ++ packet :: after) :
      Step setup st (.drop packet) { st with net := before ++ after }

/-- When the client's wait ends it sends again, before the deadline of the call. -/
def Resends (setup : Setup) (st : State) : Prop :=
  ∃ w ∈ st.wakes, w < handshakeTimeoutMs ∧ ∀ receive : Receive, receive.event = .timeout →
    (clientHears setup.suite st.client receive).2 ≠ []

def IsType (data : Bytes) (msg : MessageType) : Prop :=
  ∃ view, PacketView.decode data = .ok view ∧ view.header.msgType = msg.code

/-- The server is waiting for the datagram and has an answer to it. -/
def Awaited (suite : Suite) (s : Server) (packet : NetPacket) : Prop :=
  84 + headerSize + 4 ≤ s.session.config.mtu ∧ ∃ view,
    PacketView.decode packet.data = .ok view ∧
      match s.pc with
      | .awaitHello => view.header.msgType = MessageType.handshakeClientHello.code ∧
          ∃ hello codec, ClientHello.decode view.payload = .ok hello ∧
            ¬hello.protocolVersion < protocolVersionMin ∧
              Server.chooseCodec s.session.config hello.codecPreferred = .ok codec
      | .awaitKeyExchange offer =>
          view.header.msgType = MessageType.handshakeClientHello.code ∨
            view.header.msgType = MessageType.handshakeKeyExchange.code ∧
              ∃ msg, KeyExchangeMsg.decode view.payload = .ok msg ∧
                msg.sessionId = offer.serverHello.sessionId ∧
                  constantTimeEq msg.authTag ((offer.secrets suite).clientTag suite) = true
      | _ => False

/-- What may be lost without harm: anything during the client's first six waits; a datagram that is
not the only one in flight during a later wait for the ServerHello; a hello afterwards. -/
def Expendable (st : State) (packet : NetPacket) : Prop :=
  match st.client.pc with
  | .awaitHello attempt => attempt < 6 ∨ 2 ≤ st.net.length
  | .awaitConfirm _ =>
    ¬IsType packet.data .handshakeKeyExchange ∧ ¬IsType packet.data .handshakeSessionConfirm
  | _ => True

/-- Nothing else is dropped, or reaches a server that does not wait for it. -/
def Spared (setup : Setup) (st : State) : Label → Prop
  | .drop packet => Expendable st packet
  | .server packet => Awaited setup.suite st.server packet ∨ Expendable st packet
  | .other => True

structure Start (setup : Setup) (c : Client) (s : Server) : Prop where
  client : c.pc = .sendHello 0
  peer : c.peer = setup.serverAddr
  server : s.pc = .awaitHello
  mode : s.mode = .fixed setup.clientAddr
  distinct : setup.clientAddr ≠ setup.serverAddr

theorem isType_bytes {header : PacketHeader} {msg : MessageType} {payload : Bytes}
    (hversion : header.version = protocolVersion) (htype : header.msgType = msg.code)
    (hsize : payload.length ≤ maxPayloadSize) : IsType (Packet.bytes header payload) msg :=
  ⟨_, PacketView.decode_bytes header payload hversion hsize, htype⟩

theorem IsType.unique {data : Bytes} {msg : MessageType} {view : PacketView} (h : IsType data msg)
    (hview : PacketView.decode data = .ok view) : view.header.msgType = msg.code := by
  obtain ⟨view', hview', htype⟩ := h
  obtain rfl : view' = view := by
    rw [hview] at hview'
    exact (Except.ok.inj hview').symm
  exact htype

theorem received_short {session : Session} {datagram : Datagram}
    (h : datagram.data.length ≤ session.config.mtu) :
    received session datagram = PacketView.decode datagram.data := by
  rw [received, List.take_of_length_le h]

section ClientSteps
variable {suite : Suite} {c : Client} {env : Env} {attempt : UInt32} {receive : Receive}

structure Sends (c : Client) (pc : ClientPc) (msg : MessageType) (payload : Bytes)
    (after : Client × List Sent) : Prop where
  client : Client.Like { c with pc := pc } after.1
  sent : ∃ header : PacketHeader, header.version = protocolVersion ∧ header.msgType = msg.code ∧
    after.2 = [⟨Packet.bytes header payload, c.peer⟩]

theorem sends_once {msg : MessageType} {sessionId : UInt32} {payload : Bytes} {next : ClientPc}
    (haccepts : env.Accepts) (hsize : payload.length ≤ maxPayloadSize)
    (hmtu : headerSize + payload.length + 4 ≤ c.session.config.mtu) :
    Sends c next msg payload (c.sends env msg sessionId (.ok payload) next) := by
  obtain ⟨after, header, hsends, ⟨txSequence, metrics, rfl⟩, hversion, htype⟩ :=
    c.sends_ok haccepts msg sessionId next hsize hmtu
  rw [hsends]
  exact ⟨⟨txSequence, metrics, rfl⟩, header, hversion, htype, rfl⟩

theorem settles_sends {msg : MessageType} {payload : Bytes} {pc : ClientPc}
    (hidle : c.receives = false) (hwaits : Client.receives { c with pc := pc } = true)
    (hstep : Sends c pc msg payload (c.step suite env .timeout)) :
    Sends c pc msg payload (settles (fun s => s.1.receives)
      (recording fun c env event => c.step suite env event) (c, []) env) := by
  rw [settles_next]
  · simpa only [recording, List.nil_append] using hstep
  · exact hidle
  · rw [recording, ← hstep.client.receives_eq]
    exact hwaits

theorem settles_hello (hpc : c.pc = .sendHello attempt) (hfits : c.Fits)
    (haccepts : env.Accepts) :
    Sends c (.awaitHello attempt) .handshakeClientHello (c.hello suite).bytes
      (clientBegins suite c env) := by
  refine settles_sends (by rw [Client.receives, hpc]) rfl ?_
  simp only [Client.step, hpc, encoded_clientHello]
  exact sends_once haccepts (by rw [ClientHello.length_bytes]; decide)
    (by rw [ClientHello.length_bytes]; exact hfits)

theorem clientHears_eq (h : c.receives = true) {after : Client}
    (hstep : c.step suite receive.env receive.event = (after, [])) :
    clientHears suite c receive = clientBegins suite after receive.env := by
  simp only [clientHears, hears, h, if_true, recording, hstep, List.append_nil, clientBegins]

theorem clientHears_again (hpc : c.pc = .awaitHello attempt) (hfits : c.Fits)
    (hnext : c.onHello attempt receive.event =
      { c with pc := .sendHello (saturatingSucc attempt) }) :
    Sends c (.awaitHello (saturatingSucc attempt)) .handshakeClientHello (c.hello suite).bytes
      (clientHears suite c receive) := by
  have hreceives : c.receives = true := by rw [Client.receives, hpc]
  have hstep : c.step suite receive.env receive.event =
      ({ c with pc := .sendHello (saturatingSucc attempt) }, []) := by
    simp only [Client.step, hpc, hnext]
  rw [clientHears_eq hreceives hstep]
  obtain ⟨hlike, hsent⟩ := @settles_hello suite { c with pc := .sendHello (saturatingSucc attempt) }
    receive.env (saturatingSucc attempt) rfl hfits receive.accepts
  exact ⟨hlike, hsent⟩

theorem clientHears_commits {shown : ServerHello} (hpc : c.pc = .awaitHello attempt)
    (hfits : c.Fits) (hnext : c.onHello attempt receive.event =
      { c with pc := .sendKeyExchange shown, committed := some shown }) :
    Sends { c with committed := some shown } (.awaitConfirm shown) .handshakeKeyExchange
      (KeyExchangeMsg.bytes ⟨shown.sessionId, (c.secretsFor suite shown).clientTag suite⟩)
      (clientHears suite c receive) := by
  have hreceives : c.receives = true := by rw [Client.receives, hpc]
  have hstep : c.step suite receive.env receive.event =
      ({ c with pc := .sendKeyExchange shown, committed := some shown }, []) := by
    simp only [Client.step, hpc, hnext]
  rw [clientHears_eq hreceives hstep]
  set next : Client := { c with pc := .sendKeyExchange shown, committed := some shown } with hdef
  have hsends : Sends next (.awaitConfirm shown) .handshakeKeyExchange
      (KeyExchangeMsg.bytes ⟨shown.sessionId, (c.secretsFor suite shown).clientTag suite⟩)
      (next.step suite receive.env .timeout) := by
    simp only [Client.step, hdef, KeyExchangeMsg.encode, KeyExchangeMsg.size, encoded_tagged]
    have hsize : 20 ≤ ClientHello.size := by decide
    have hmtu : headerSize + ClientHello.size + 4 ≤ c.session.config.mtu := hfits
    refine sends_once receive.accepts ?_ ?_
    · rw [KeyExchangeMsg.bytes, length_taggedBytes]
      decide
    · rw [KeyExchangeMsg.bytes, length_taggedBytes]
      show headerSize + 20 + 4 ≤ c.session.config.mtu
      omega
  obtain ⟨hlike, hsent⟩ := settles_sends rfl rfl hsends
  exact ⟨hlike, hsent⟩

def Ending : ClientPc → Prop
  | .storeEncrypt _ | .storeDecrypt _ | .returned _ => True
  | _ => False

theorem begins_ends (h : Ending c.pc) :
    (∃ result, (clientBegins suite c env).1.pc = .returned result) ∧
      (clientBegins suite c env).2 = [] := by
  cases hpc : c.pc <;> simp only [hpc, Ending] at h
  case storeEncrypt shown =>
    simp only [clientBegins, settles, advances, Client.receives, recording, Client.step, hpc,
      Bool.false_eq_true, if_false, List.append_nil, and_true]
    exact ⟨.ok shown, rfl⟩
  case storeDecrypt shown =>
    simp only [clientBegins, settles, advances, Client.receives, recording, Client.step, hpc,
      Bool.false_eq_true, if_false, List.append_nil, and_true]
    exact ⟨.ok shown, rfl⟩
  case returned result =>
    simp only [clientBegins, settles, advances, Client.receives, recording, Client.step, hpc,
      Bool.false_eq_true, if_false, List.append_nil, and_true]
    exact ⟨result, rfl⟩

theorem clientHears_peer (suite : Suite) (c : Client) (receive : Receive) :
    (clientHears suite c receive).1.peer = c.peer :=
  @hears_keeps (Client × List Sent) _ _ (fun t => t.1.peer = c.peer) (c, []) receive rfl
    fun t event h => (t.1.next_peer suite receive.env event).trans h

theorem onHello_cases (c : Client) (attempt : UInt32) (event : RecvEvent) :
    c.onHello attempt event = { c with pc := .sendHello (saturatingSucc attempt) } ∨
      (Ending (c.onHello attempt event).pc ∧ (event = .timeout → saturatingSucc attempt > 6)) ∨
      ∃ shown, c.onHello attempt event =
        { c with pc := .sendKeyExchange shown, committed := some shown } ∧ event ≠ .timeout := by
  refine c.onHello_rule (fun c' => c' = _ ∨ (Ending c'.pc ∧ (event = .timeout → _)) ∨
      ∃ shown, c' = { c with pc := .sendKeyExchange shown, committed := some shown } ∧
        event ≠ .timeout) attempt event (.inl rfl) (fun hover => .inr (.inl ⟨trivial, fun _ => hover⟩))
    (fun datagram e harrived => .inr (.inl ⟨trivial, by simp [harrived]⟩))
    fun datagram view shown hbrings _ _ => .inr (.inr ⟨shown, rfl, by simp [hbrings.arrived]⟩)

theorem onConfirm_cases (c : Client) (suite : Suite) (shown : ServerHello) (event : RecvEvent) :
    c.onConfirm suite shown event = c ∨ Ending (c.onConfirm suite shown event).pc :=
  c.onConfirm_rule (fun c' => c' = c ∨ Ending c'.pc) suite shown event (.inl rfl)
    (fun _ => .inr trivial) fun _ _ _ _ _ _ _ => .inr trivial

/-- Whatever a SessionConfirm of the server says, the client returns. -/
theorem onConfirm_ends {shown : ServerHello} {datagram : Datagram} {view : PacketView}
    (hsource : datagram.source = c.peer) (hview : received c.session datagram = .ok view)
    (htype : view.header.msgType = MessageType.handshakeSessionConfirm.code) :
    Ending (c.onConfirm suite shown (.datagram datagram)).pc := by
  simp only [Client.onConfirm, hsource, hview, htype, ne_eq, not_true_eq_false, if_false]
  cases SessionConfirm.decode view.payload with
  | error e => trivial
  | ok confirm =>
    simp only
    split_ifs
    · trivial
    · trivial
    · trivial

theorem clientHears_hello (hpc : c.pc = .awaitHello attempt) (hfits : c.Fits)
    (receive : Receive) :
    Sends c (.awaitHello (saturatingSucc attempt)) .handshakeClientHello (c.hello suite).bytes
        (clientHears suite c receive) ∨
      ((∃ result, (clientHears suite c receive).1.pc = .returned result) ∧
        (clientHears suite c receive).2 = [] ∧
          (receive.event = .timeout → saturatingSucc attempt > 6)) ∨
      ∃ shown, Sends { c with committed := some shown } (.awaitConfirm shown)
        .handshakeKeyExchange
        (KeyExchangeMsg.bytes ⟨shown.sessionId, (c.secretsFor suite shown).clientTag suite⟩)
        (clientHears suite c receive) := by
  obtain hagain | ⟨hending, hover⟩ | ⟨shown, hcommits, -⟩ :=
    onHello_cases c attempt receive.event
  · exact .inl (clientHears_again hpc hfits hagain)
  · have hreceives : c.receives = true := by rw [Client.receives, hpc]
    have hstep : c.step suite receive.env receive.event =
        (c.onHello attempt receive.event, []) := by
      simp only [Client.step, hpc]
    rw [clientHears_eq hreceives hstep]
    obtain ⟨hreturns, hsilent⟩ := @begins_ends suite _ receive.env hending
    exact .inr (.inl ⟨hreturns, hsilent, hover⟩)
  · exact .inr (.inr ⟨shown, clientHears_commits hpc hfits hcommits⟩)

theorem clientHears_confirm {shown : ServerHello} (hpc : c.pc = .awaitConfirm shown)
    (receive : Receive) :
    clientHears suite c receive = (c, []) ∨
      (∃ result, (clientHears suite c receive).1.pc = .returned result) ∧
        (clientHears suite c receive).2 = [] := by
  have hreceives : c.receives = true := by rw [Client.receives, hpc]
  have hstep : c.step suite receive.env receive.event =
      (c.onConfirm suite shown receive.event, []) := by
    simp only [Client.step, hpc]
  rw [clientHears_eq hreceives hstep]
  obtain hstays | hending := onConfirm_cases c suite shown receive.event
  · rw [hstays, clientBegins]
    refine .inl (settles_receiving ?_)
    exact hreceives
  · exact .inr (begins_ends hending)

theorem clientHears_confirmed {shown : ServerHello} {datagram : Datagram}
    (hpc : c.pc = .awaitConfirm shown) (hevent : receive.event = .datagram datagram)
    (hsource : datagram.source = c.peer) (hmtu : datagram.data.length ≤ c.session.config.mtu)
    (htype : IsType datagram.data .handshakeSessionConfirm) :
    ∃ result, (clientHears suite c receive).1.pc = .returned result := by
  have hreceives : c.receives = true := by rw [Client.receives, hpc]
  have hstep : c.step suite receive.env receive.event =
      (c.onConfirm suite shown (.datagram datagram), []) := by
    simp only [Client.step, hpc, hevent]
  obtain ⟨view, hview, htype⟩ := htype
  rw [clientHears_eq hreceives hstep]
  exact (begins_ends (onConfirm_ends hsource ((received_short hmtu).trans hview) htype)).1

end ClientSteps

section ServerSteps
variable {suite : Suite} {rand : Rand} {s : Server} {peer : SocketAddr} {env : Env}

def serverBegins (suite : Suite) (rand : Rand) (s : Server) (env : Env) : Server × List Sent :=
  settles (fun s => s.1.receives) (recording fun s env event => s.step suite rand env event) (s, [])
    env

theorem serverHears_eq {receive : Receive} (h : s.receives = true) {after : Server}
    (hstep : s.step suite rand receive.env receive.event = (after, [])) :
    serverHears suite rand s receive = serverBegins suite rand after receive.env := by
  simp only [serverHears, hears, h, if_true, recording, hstep, List.append_nil, serverBegins]

theorem serverBegins_posts (hidle : s.receives = false) {sent : Sent}
    (h : sent ∈ (s.step suite rand env .timeout).2) :
    sent ∈ (serverBegins suite rand s env).2 := by
  refine @settles_from (Server × List Sent) (fun s => s.1.receives) _ (fun t => sent ∈ t.2) _ _ ?_
    ?_ ?_
  · exact hidle
  · exact List.mem_append_right _ h
  · exact fun _ hmem => List.mem_append_left _ hmem

structure Addressed (peer : SocketAddr) (sent : Sent) : Prop where
  dest : sent.dest = peer
  size : sent.data.length ≤ headerSize + 84 + 4

theorem sends_addressed {msg : MessageType} {sessionId : UInt32} {payload : Bytes}
    {next : ServerPc} (hsize : payload.length ≤ 84) :
    ∀ sent ∈ (s.sends env msg sessionId (.ok payload) peer next).2, Addressed peer sent := by
  intro sent hsent
  rw [Server.sends_sent] at hsent
  obtain ⟨-, hdata, hdest⟩ := Session.sendPacket_sent hsent
  refine ⟨hdest, ?_⟩
  rw [hdata, Packet.length_bytes]
  omega

theorem step_addressed (h : s.Bound peer) (event : RecvEvent) :
    ∀ sent ∈ (s.step suite rand env event).2, Addressed peer sent := by
  have hpc := h.pc
  unfold Server.step
  cases hat : s.pc <;> simp only [hat, ServerPc.Bound] at hpc ⊢
  case attempt => split_ifs <;> simp
  case helloTop => split_ifs <;> simp
  case awaitHello =>
    simp only [h.mode]
    simp
  case sendHello offer =>
    rw [Server.sendsHello, encoded_serverHello, hpc]
    exact sends_addressed (by rw [ServerHello.length_bytes, ServerHello.size])
  case keyTop offer => split_ifs <;> simp
  case awaitKeyExchange offer => simp
  case resendHello offer =>
    rw [Server.sendsHello, encoded_serverHello, hpc]
    exact sends_addressed (by rw [ServerHello.length_bytes, ServerHello.size])
  case sendConfirm offer =>
    rw [SessionConfirm.encode, SessionConfirm.size, encoded_tagged, hpc]
    exact sends_addressed (by rw [length_taggedBytes]; decide)
  case storeEncrypt offer => simp
  case storeDecrypt offer => simp
  case returned result => simp

/-- The server keeps to its peer and answers nobody else. -/
theorem serverHears_addressed (h : s.Bound peer) (receive : Receive) :
    (serverHears suite rand s receive).1.Bound peer ∧
      ∀ sent ∈ (serverHears suite rand s receive).2, Addressed peer sent := by
  refine @hears_keeps _ _ _ (fun t => t.1.Bound peer ∧ ∀ sent ∈ t.2, Addressed peer sent) (s, [])
    receive ⟨h, by simp⟩ ?_
  rintro t event ⟨hbound, hsent⟩
  refine ⟨hbound.step suite rand receive.env event, fun sent hmem => ?_⟩
  obtain hmem | hmem := List.mem_append.mp hmem
  · exact hsent sent hmem
  · exact step_addressed hbound event sent hmem

theorem timesOut_bound (h : s.Bound peer) : s.timesOut.Bound peer := by
  unfold Server.timesOut
  split
  · exact h
  · exact h
  · simp only [h.mode]
    exact ⟨rfl, trivial⟩

theorem step_sendsHello {offer : Offer} (hpc : s.pc = .sendHello offer ∨ s.pc = .resendHello offer)
    (haccepts : env.Accepts) (hmtu : 84 + headerSize + 4 ≤ s.session.config.mtu) :
    ∃ after header, s.step suite rand env .timeout =
        ({ s with session := after, pc := .keyTop offer },
          [⟨Packet.bytes header offer.serverHello.bytes, offer.peer⟩]) ∧
      Like s.session after ∧ header.version = protocolVersion ∧
        header.msgType = MessageType.handshakeServerHello.code := by
  have hstep : s.step suite rand env .timeout = s.sendsHello env offer := by
    obtain h | h := hpc <;> simp only [Server.step, h]
  have hsize : offer.serverHello.bytes.length = 84 := ServerHello.length_bytes _
  rw [hstep, Server.sendsHello, encoded_serverHello]
  exact s.sends_ok haccepts .handshakeServerHello offer.serverHello.sessionId offer.peer
    (.keyTop offer) (by rw [hsize]; decide) (by rw [hsize]; omega)

theorem begins_hello {offer : Offer} (hpc : s.pc = .sendHello offer ∨ s.pc = .resendHello offer)
    (haccepts : env.Accepts) (hmtu : 84 + headerSize + 4 ≤ s.session.config.mtu) :
    ∃ header : PacketHeader, ⟨Packet.bytes header offer.serverHello.bytes, offer.peer⟩ ∈
      (serverBegins suite rand s env).2 := by
  have hidle : s.receives = false := by obtain h | h := hpc <;> rw [Server.receives, h]
  obtain ⟨after, header, hstep, -⟩ := @step_sendsHello suite rand s env offer hpc haccepts hmtu
  refine ⟨header, serverBegins_posts hidle ?_⟩
  rw [hstep]
  exact List.mem_singleton_self _

theorem begins_offer {offer : Offer} (hpc : s.pc = .sendHello offer) (haccepts : env.Accepts)
    (hmtu : 84 + headerSize + 4 ≤ s.session.config.mtu) (hopen : s.session.closed = false) :
    ∃ header : PacketHeader, header.version = protocolVersion ∧
      header.msgType = MessageType.handshakeServerHello.code ∧
        (serverBegins suite rand s env).2 =
          [⟨Packet.bytes header offer.serverHello.bytes, offer.peer⟩] := by
  have hidle : s.receives = false := by rw [Server.receives, hpc]
  obtain ⟨after, header, hstep, hlike, hversion, htype⟩ :=
    @step_sendsHello suite rand s env offer (.inl hpc) haccepts hmtu
  have htop : Server.step { s with session := after, pc := .keyTop offer } suite rand env .timeout =
      ({ s with session := after, pc := .awaitKeyExchange offer }, []) := by
    simp only [Server.step, hlike.closed, hopen, Bool.false_eq_true, if_false]
  have hidle' : Server.receives { s with session := after, pc := .keyTop offer } = false := rfl
  have hwaits : Server.receives { s with session := after, pc := .awaitKeyExchange offer } = true :=
    rfl
  refine ⟨header, hversion, htype, ?_⟩
  simp only [serverBegins, settles, advances, recording, hidle, hstep, hidle', htop, hwaits,
    Bool.false_eq_true, if_false, if_true, List.nil_append, List.append_nil]

theorem begins_confirm {offer : Offer} (hpc : s.pc = .sendConfirm offer) (haccepts : env.Accepts)
    (hmtu : 84 + headerSize + 4 ≤ s.session.config.mtu) :
    ∃ sent ∈ (serverBegins suite rand s env).2, sent.data.length = headerSize + 20 + 4 ∧
      IsType sent.data .handshakeSessionConfirm := by
  have hidle : s.receives = false := by rw [Server.receives, hpc]
  set payload := taggedBytes offer.serverHello.sessionId
    ((offer.secrets suite).serverTag suite) with hpayload
  have hsize : payload.length = 20 := length_taggedBytes _ _
  obtain ⟨after, header, hsends, -, hversion, htype⟩ :=
    s.sends_ok haccepts .handshakeSessionConfirm offer.serverHello.sessionId offer.peer
      (.storeEncrypt offer) (by rw [hsize]; decide) (by rw [hsize]; omega)
  refine ⟨⟨Packet.bytes header payload, offer.peer⟩, serverBegins_posts hidle ?_, ?_, ?_⟩
  · simp only [Server.step, hpc, SessionConfirm.encode, SessionConfirm.size, encoded_tagged]
    rw [← hpayload, hsends]
    exact List.mem_singleton_self _
  · rw [Packet.length_bytes, hsize]
  · exact isType_bytes hversion htype (by rw [hsize]; decide)

theorem serverHears_awaited {packet : NetPacket} {receive : Receive} (hbound : s.Bound peer)
    (hawaited : Awaited suite s packet) (hsource : packet.source = peer)
    (hsize : packet.data.length ≤ headerSize + 84 + 4)
    (hevent : receive.event = .datagram ⟨packet.data, packet.source⟩) :
    ∃ sent ∈ (serverHears suite rand s receive).2, IsType packet.data .handshakeKeyExchange →
      sent.data.length = headerSize + 20 + 4 ∧ IsType sent.data .handshakeSessionConfirm := by
  obtain ⟨hmtu, view, hview, hawaited⟩ := hawaited
  have hreceived : received s.session ⟨packet.data, packet.source⟩ = .ok view :=
    (received_short (hsize.trans (by omega))).trans hview
  have hpeer := hbound.pc
  cases hpc : s.pc <;> simp only [hpc, ServerPc.Bound] at hawaited hpeer
  case awaitHello =>
    obtain ⟨htype, hello, codec, hdecode, hversion, hcodec⟩ := hawaited
    have hreceives : s.receives = true := by rw [Server.receives, hpc]
    have hmode : s.mode = .fixed packet.source := hsource ▸ hbound.mode
    have hstep := @Server.step_offers suite rand receive.env s ⟨packet.data, packet.source⟩ view
      hello codec hpc hmode hreceived htype hdecode hversion hcodec
    rw [← hevent] at hstep
    rw [serverHears_eq hreceives hstep]
    set offer : Offer := ⟨packet.source, hello, rand.secret,
      Server.serverHello suite s.session.config hello rand codec⟩
    obtain ⟨header, hmem⟩ := @begins_hello suite rand
      { s with
        session := { s.session with sessionId := rand.sessionId, negotiatedCodec := codec }
        pc := .sendHello offer
        offers := s.offers ++ [offer] } receive.env offer (.inl rfl) receive.accepts hmtu
    exact ⟨_, hmem, fun hkey => absurd ((hkey.unique hview).symm.trans htype) (by decide)⟩
  case awaitKeyExchange offer =>
    have hreceives : s.receives = true := by rw [Server.receives, hpc]
    have hpeer : packet.source = offer.peer := hsource.trans hpeer.1.symm
    obtain htype | ⟨htype, msg, hdecode, hid, htag⟩ := hawaited
    · have hstep := @Server.step_repeats suite rand receive.env s ⟨packet.data, packet.source⟩ view
        offer hpc hpeer hreceived htype
      rw [← hevent] at hstep
      rw [serverHears_eq hreceives hstep]
      obtain ⟨header, hmem⟩ := @begins_hello suite rand { s with pc := .resendHello offer }
        receive.env _ (.inr rfl) receive.accepts hmtu
      exact ⟨_, hmem, fun hkey => absurd ((hkey.unique hview).symm.trans htype) (by decide)⟩
    · have hstep := @Server.step_accepts suite rand receive.env s ⟨packet.data, packet.source⟩ view
        offer msg hpc hpeer hreceived htype hdecode hid htag
      rw [← hevent] at hstep
      rw [serverHears_eq hreceives hstep]
      obtain ⟨sent, hmem, hconfirms⟩ := @begins_confirm suite rand
        { s with pc := .sendConfirm offer, accepted := s.accepted ++ [offer] } receive.env _ rfl
        receive.accepts hmtu
      exact ⟨sent, hmem, fun _ => hconfirms⟩

end ServerSteps

def due : Nat → Nat
  | 0 => 0
  | n + 1 => due n + handshakeRetryBaseMs <<< min n 4

/-- The first six waits leave time for one more ClientHello. -/
theorem due_lt : ∀ n < 6, due (n + 1) < handshakeTimeoutMs := by decide

def Vital (setup : Setup) (packet : NetPacket) : Prop :=
  packet.data.length = headerSize + 20 + 4 ∧
    (packet.source = setup.clientAddr ∧ packet.dest = setup.serverAddr ∧
        IsType packet.data .handshakeKeyExchange ∨
      packet.source = setup.serverAddr ∧ packet.dest = setup.clientAddr ∧
        IsType packet.data .handshakeSessionConfirm)

/-- A bounded wait that ends in time and is followed by another ClientHello; then one with a
datagram in flight; then the wait for the SessionConfirm. -/
def Pending (setup : Setup) (st : State) : Prop :=
  match st.client.pc with
  | .awaitHello attempt => st.client.Fits ∧
      (∃ w, st.wakes = some w ∧ st.now ≤ w ∧ (attempt < 6 → w ≤ due (attempt.toNat + 1))) ∧
        (¬attempt < 6 → st.net ≠ [])
  | .awaitConfirm _ => st.client.Fits ∧ ∃ packet ∈ st.net, Vital setup packet
  | .returned _ => True
  | _ => False

structure Proper (setup : Setup) (packet : NetPacket) : Prop where
  size : packet.data.length ≤ headerSize + 84 + 4
  source : packet.dest = setup.serverAddr → packet.source = setup.clientAddr

structure Inv (setup : Setup) (st : State) : Prop where
  peer : st.client.peer = setup.serverAddr
  server : st.server.Bound setup.clientAddr
  proper : ∀ packet ∈ st.net, Proper setup packet
  pending : Pending setup st

theorem toNat_saturatingSucc {attempt : UInt32} (h : saturatingSucc attempt < 6) :
    (saturatingSucc attempt).toNat = attempt.toNat + 1 ∧ attempt < 6 := by
  have hsucc := Client.counts_succ (Client.counts_toNat attempt)
  have hlt := UInt32.lt_iff_toNat_lt.mp h
  unfold Client.Counts at hsucc
  change _ = min _ 4294967295 at hsucc
  change _ < 6 at hlt
  refine ⟨by omega, UInt32.lt_iff_toNat_lt.mpr ?_⟩
  change _ < 6
  omega

section Keeps
variable {setup : Setup} {st : State} {before after : List NetPacket} {packet : NetPacket}

theorem mem_without (h : packet ∈ before ++ after) (between : NetPacket) :
    packet ∈ before ++ between :: after := by
  obtain h | h := List.mem_append.mp h
  · exact List.mem_append_left _ h
  · exact List.mem_append_right _ (List.mem_cons_of_mem _ h)

theorem vital_without (h : ∃ vital ∈ before ++ packet :: after, Vital setup vital)
    (hnot : ¬Vital setup packet) : ∃ vital ∈ before ++ after, Vital setup vital := by
  obtain ⟨vital, hmem, hvital⟩ := h
  obtain hmem | hmem := List.mem_append.mp hmem
  · exact ⟨vital, List.mem_append_left _ hmem, hvital⟩
  · obtain rfl | hmem := List.mem_cons.mp hmem
    · exact absurd hvital hnot
    · exact ⟨vital, List.mem_append_right _ hmem, hvital⟩

theorem Sends.proper {c : Client} {pc : ClientPc} {msg : MessageType} {payload : Bytes}
    {moved : Client × List Sent} (h : Sends c pc msg payload moved) (hsize : payload.length ≤ 84) :
    ∀ packet ∈ posts setup.clientAddr moved.2, Proper setup packet := by
  obtain ⟨header, -, -, hsent⟩ := h.sent
  rw [hsent]
  rintro packet hmem
  obtain rfl := List.mem_singleton.mp hmem
  refine ⟨?_, fun _ => rfl⟩
  rw [Packet.length_bytes]
  omega

theorem Sends.posts_ne_nil {c : Client} {pc : ClientPc} {msg : MessageType} {payload : Bytes}
    {moved : Client × List Sent} (h : Sends c pc msg payload moved) (source : SocketAddr) :
    posts source moved.2 ≠ [] := by
  obtain ⟨header, -, -, hsent⟩ := h.sent
  rw [hsent]
  nofun

theorem fits_like {c c' : Client} (h : c.Like c') (hfits : c.Fits) : c'.Fits := by
  obtain ⟨txSequence, metrics, rfl⟩ := h
  exact hfits

theorem wakesAt_like {c c' : Client} (h : c.Like c') (now : Nat) : wakesAt now c' = wakesAt now c := by
  rw [wakesAt, wakesAt, h.pc_eq]

theorem Inv.clientReturns (h : Inv setup st) {receive : Receive} {net : List NetPacket}
    (hnet : ∀ packet ∈ net, packet ∈ st.net)
    (hreturns : ∃ result, (clientHears setup.suite st.client receive).1.pc = .returned result)
    (hsilent : (clientHears setup.suite st.client receive).2 = []) :
    Inv setup (st.clientMoves setup receive net) := by
  obtain ⟨result, hpc⟩ := hreturns
  refine ⟨(clientHears_peer ..).trans h.peer, h.server, ?_, ?_⟩
  · rintro packet hmem
    simp only [State.clientMoves, hsilent, posts, List.map_nil, List.append_nil] at hmem
    exact h.proper packet (hnet packet hmem)
  · have hat : (st.clientMoves setup receive net).client.pc = .returned result := hpc
    simp only [Pending, hat]

theorem Inv.clientHello (h : Inv setup st) {attempt : UInt32}
    (hpc : st.client.pc = .awaitHello attempt) (receive : Receive) {net : List NetPacket}
    (hnet : ∀ packet ∈ net, packet ∈ st.net) : Inv setup (st.clientMoves setup receive net) := by
  have hpending := h.pending
  simp only [Pending, hpc] at hpending
  obtain ⟨hfits, ⟨w, -, hnow, hdue⟩, -⟩ := hpending
  obtain hagain | ⟨hreturns, hsilent, -⟩ | ⟨shown, hcommits⟩ :=
    @clientHears_hello setup.suite st.client attempt hpc hfits receive
  · have hwakes : (st.clientMoves setup receive net).wakes =
        some (st.now + backoff (saturatingSucc attempt)) := wakesAt_like hagain.client st.now
    refine ⟨hagain.client.peer_eq.trans h.peer, h.server, ?_, ?_⟩
    · rintro packet hmem
      obtain hmem | hmem := List.mem_append.mp hmem
      · exact h.proper packet (hnet packet hmem)
      · exact hagain.proper (by rw [ClientHello.length_bytes]; decide) packet hmem
    · have hat : (st.clientMoves setup receive net).client.pc =
          .awaitHello (saturatingSucc attempt) := hagain.client.pc_eq
      simp only [Pending, hat]
      refine ⟨fits_like hagain.client hfits, ⟨_, hwakes, Nat.le_add_right .., fun hfew => ?_⟩,
        fun _ hempty => ?_⟩
      · obtain ⟨hcount, hearlier⟩ := toNat_saturatingSucc hfew
        have hbefore := hdue hearlier
        rw [hcount, due, backoff, hcount]
        exact Nat.add_le_add_right (hnow.trans hbefore) _
      · exact hagain.posts_ne_nil setup.clientAddr (List.append_eq_nil_iff.mp hempty).2
  · exact h.clientReturns hnet hreturns hsilent
  · obtain ⟨header, hversion, htype, hsent⟩ := hcommits.sent
    set payload := KeyExchangeMsg.bytes
      ⟨shown.sessionId, (st.client.secretsFor setup.suite shown).clientTag setup.suite⟩
    have hsize : payload.length = 20 := length_taggedBytes _ _
    have hposted : ⟨setup.clientAddr, st.client.peer, Packet.bytes header payload⟩ ∈
        posts setup.clientAddr (clientHears setup.suite st.client receive).2 := by
      rw [hsent]
      exact List.mem_singleton_self _
    refine ⟨(clientHears_peer ..).trans h.peer, h.server, ?_, ?_⟩
    · rintro packet hmem
      obtain hmem | hmem := List.mem_append.mp hmem
      · exact h.proper packet (hnet packet hmem)
      · exact hcommits.proper (by rw [hsize]; decide) packet hmem
    · have hat : (st.clientMoves setup receive net).client.pc = .awaitConfirm shown :=
        hcommits.client.pc_eq
      simp only [Pending, hat]
      refine ⟨fits_like hcommits.client hfits, _, List.mem_append_right _ hposted, ?_,
        .inl ⟨rfl, h.peer, isType_bytes hversion htype (by rw [hsize]; decide)⟩⟩
      rw [Packet.length_bytes, hsize]

theorem Inv.clientConfirm (h : Inv setup st) {shown : ServerHello}
    (hpc : st.client.pc = .awaitConfirm shown) (receive : Receive) {net : List NetPacket}
    (hnet : ∀ packet ∈ net, packet ∈ st.net)
    (hvital : (∃ vital ∈ net, Vital setup vital) ∨
      ∃ result, (clientHears setup.suite st.client receive).1.pc = .returned result) :
    Inv setup (st.clientMoves setup receive net) := by
  have hpending := h.pending
  simp only [Pending, hpc] at hpending
  obtain hstays | ⟨hreturns, hsilent⟩ := @clientHears_confirm setup.suite st.client shown hpc receive
  · have hvital : ∃ vital ∈ net, Vital setup vital := by
      obtain hvital | ⟨result, hreturns⟩ := hvital
      · exact hvital
      · rw [hstays, hpc] at hreturns
        cases hreturns
    obtain ⟨vital, hmem, hvital⟩ := hvital
    have hmoves : st.clientMoves setup receive net =
        { st with net := net, wakes := wakesAt st.now st.client } := by
      simp only [State.clientMoves, hstays, posts, List.map_nil, List.append_nil]
    rw [hmoves]
    refine ⟨h.peer, h.server, fun packet hmem => h.proper packet (hnet packet hmem), ?_⟩
    simp only [Pending, hpc]
    exact ⟨hpending.1, vital, hmem, hvital⟩
  · exact h.clientReturns hnet hreturns hsilent

theorem Inv.clientReceives (h : Inv setup st) (hdistinct : setup.clientAddr ≠ setup.serverAddr)
    (receive : Receive) (hnet : st.net = before ++ packet :: after)
    (hdest : packet.dest = setup.clientAddr)
    (hevent : receive.event = .datagram ⟨packet.data, packet.source⟩)
    (hreceives : st.client.receives = true) :
    Inv setup (st.clientMoves setup receive (before ++ after)) := by
  have hsub : ∀ other ∈ before ++ after, other ∈ st.net := fun other hmem => by
    rw [hnet]
    exact mem_without hmem packet
  have hpending := h.pending
  unfold Pending at hpending
  cases hpc : st.client.pc <;> simp only [hpc, Client.receives, Bool.false_eq_true] at hpending hreceives
  case awaitHello attempt => exact h.clientHello hpc receive hsub
  case awaitConfirm shown =>
    refine h.clientConfirm hpc receive hsub ?_
    by_cases hvital : Vital setup packet
    · -- of the two only a SessionConfirm comes to the client
      obtain ⟨hsize, ⟨-, hother, -⟩ | ⟨hsource, -, htype⟩⟩ := hvital
      · exact absurd (hdest.symm.trans hother) hdistinct
      · have hfits : headerSize + ClientHello.size + 4 ≤ st.client.session.config.mtu := hpending.1
        have hroom : 20 ≤ ClientHello.size := by decide
        exact .inr (clientHears_confirmed hpc hevent (hsource.trans h.peer.symm)
          (by simp only [hsize]; omega) htype)
    · exact .inl (vital_without (hnet ▸ hpending.2) hvital)

theorem Inv.clientWakes (h : Inv setup st) (receive : Receive) :
    Inv setup (st.clientMoves setup receive st.net) := by
  have hpending := h.pending
  unfold Pending at hpending
  cases hpc : st.client.pc <;> simp only [hpc] at hpending
  case awaitHello attempt => exact h.clientHello hpc receive fun _ hmem => hmem
  case awaitConfirm shown =>
    exact h.clientConfirm hpc receive (fun _ hmem => hmem) (.inl hpending.2)
  case returned result =>
    have hidle : clientHears setup.suite st.client receive = (st.client, []) := by
      refine hears_idle receive ?_
      show st.client.receives = false
      rw [Client.receives, hpc]
    refine h.clientReturns (fun _ hmem => hmem) ⟨result, ?_⟩ ?_
    · rw [hidle, hpc]
    · rw [hidle]

theorem proper_posts (hdistinct : setup.clientAddr ≠ setup.serverAddr) {sent : List Sent}
    (h : ∀ s ∈ sent, Addressed setup.clientAddr s) :
    ∀ packet ∈ posts setup.serverAddr sent, Proper setup packet := by
  intro packet hmem
  obtain ⟨s, hs, rfl⟩ := List.mem_map.mp hmem
  exact ⟨(h s hs).size, fun hdest => absurd ((h s hs).dest.symm.trans hdest) hdistinct⟩

def Leaves (setup : Setup) (st : State) (net : List NetPacket) : Prop :=
  match st.client.pc with
  | .awaitHello attempt => ¬attempt < 6 → net ≠ []
  | .awaitConfirm _ => ∃ packet ∈ net, Vital setup packet
  | _ => True

theorem Pending.leaves (h : Pending setup st) : Leaves setup st st.net := by
  unfold Pending at h
  unfold Leaves
  cases hpc : st.client.pc <;> simp only [hpc] at h ⊢
  case awaitHello attempt => exact h.2.2
  case awaitConfirm shown => exact h.2

theorem Pending.keeps (h : Pending setup st) {server : Server} {net : List NetPacket}
    (hleaves : Leaves setup st net) : Pending setup { st with server := server, net := net } := by
  unfold Pending at h ⊢
  unfold Leaves at hleaves
  cases hpc : st.client.pc <;> simp only [hpc] at h hleaves ⊢
  case awaitHello attempt => exact ⟨h.1, h.2.1, hleaves⟩
  case awaitConfirm shown => exact ⟨h.1, hleaves⟩

theorem Leaves.append {net : List NetPacket} (h : Leaves setup st net) (more : List NetPacket) :
    Leaves setup st (net ++ more) := by
  unfold Leaves at h ⊢
  cases hpc : st.client.pc <;> simp only [hpc] at h ⊢
  case awaitHello attempt => exact fun hlate hempty => h hlate (List.append_eq_nil_iff.mp hempty).1
  case awaitConfirm shown =>
    obtain ⟨vital, hmem, hvital⟩ := h
    exact ⟨vital, List.mem_append_left _ hmem, hvital⟩

theorem Inv.spares (h : Inv setup st) (hnet : st.net = before ++ packet :: after)
    (hexpendable : Expendable st packet) : Leaves setup st (before ++ after) := by
  have hleaves := h.pending.leaves
  unfold Leaves at hleaves ⊢
  unfold Expendable at hexpendable
  cases hpc : st.client.pc <;> simp only [hpc] at hleaves hexpendable ⊢
  case awaitHello attempt =>
    intro hlate hempty
    obtain hearly | hothers := hexpendable
    · exact hlate hearly
    · have hlength := congrArg List.length hempty
      simp only [hnet, List.length_append, List.length_cons, List.length_nil] at hothers hlength
      omega
  case awaitConfirm shown =>
    refine vital_without (hnet ▸ hleaves) ?_
    rintro ⟨-, ⟨-, -, htype⟩ | ⟨-, -, htype⟩⟩
    · exact hexpendable.1 htype
    · exact hexpendable.2 htype

theorem Inv.answered (h : Inv setup st) (hdistinct : setup.clientAddr ≠ setup.serverAddr)
    (rand : Rand) {receive : Receive} (hnet : st.net = before ++ packet :: after)
    (hdest : packet.dest = setup.serverAddr)
    (hevent : receive.event = .datagram ⟨packet.data, packet.source⟩)
    (hawaited : Awaited setup.suite st.server packet) :
    Leaves setup st (before ++ after ++
      posts setup.serverAddr (serverHears setup.suite rand st.server receive).2) := by
  have hmem : packet ∈ st.net := by
    rw [hnet]
    exact List.mem_append_right _ (List.mem_cons_self ..)
  have hproper := h.proper packet hmem
  obtain ⟨sent, hsent, hconfirms⟩ := @serverHears_awaited setup.suite rand st.server
    setup.clientAddr packet receive h.server hawaited (hproper.source hdest) hproper.size hevent
  have hposted : ⟨setup.serverAddr, sent.dest, sent.data⟩ ∈
      posts setup.serverAddr (serverHears setup.suite rand st.server receive).2 :=
    List.mem_map_of_mem hsent
  have hleaves := h.pending.leaves
  unfold Leaves at hleaves ⊢
  cases hpc : st.client.pc <;> simp only [hpc] at hleaves ⊢
  case awaitHello attempt =>
    intro _ hempty
    rw [(List.append_eq_nil_iff.mp hempty).2] at hposted
    cases hposted
  case awaitConfirm shown =>
    by_cases hvital : Vital setup packet
    · -- of the two only a KeyExchange goes to the server
      obtain ⟨-, ⟨-, -, htype⟩ | ⟨-, hother, -⟩⟩ := hvital
      · obtain ⟨hsize, htype⟩ := hconfirms htype
        have haddressed := (serverHears_addressed h.server receive).2 sent hsent
        exact ⟨_, List.mem_append_right _ hposted, hsize, .inr ⟨rfl, haddressed.dest, htype⟩⟩
      · exact absurd (hother.symm.trans hdest) hdistinct
    · obtain ⟨vital, hmem, hvital⟩ := vital_without (hnet ▸ hleaves) hvital
      exact ⟨vital, List.mem_append_left _ hmem, hvital⟩

theorem Inv.serverMoves (h : Inv setup st) (hdistinct : setup.clientAddr ≠ setup.serverAddr)
    (rand : Rand) (receive : Receive) {net : List NetPacket}
    (hnet : ∀ packet ∈ net, packet ∈ st.net) (hleaves : Leaves setup st (net ++
      posts setup.serverAddr (serverHears setup.suite rand st.server receive).2)) :
    Inv setup (st.serverMoves setup rand receive net) := by
  obtain ⟨hbound, haddressed⟩ :=
    @serverHears_addressed setup.suite rand st.server setup.clientAddr h.server receive
  refine ⟨h.peer, hbound, ?_, h.pending.keeps hleaves⟩
  rintro packet hmem
  obtain hmem | hmem := List.mem_append.mp hmem
  · exact h.proper packet (hnet packet hmem)
  · exact proper_posts hdistinct haddressed packet hmem

theorem Inv.step (h : Inv setup st) (hdistinct : setup.clientAddr ≠ setup.serverAddr)
    {label : Label} {st' : State} (hstep : Step setup st label st')
    (hspared : Spared setup st label) : Inv setup st' := by
  cases hstep with
  | elapse t hlater htimer =>
    refine ⟨h.peer, h.server, h.proper, ?_⟩
    have hpending := h.pending
    unfold Pending at hpending ⊢
    cases hpc : st.client.pc <;> simp only [hpc] at hpending ⊢
    case awaitHello attempt =>
      obtain ⟨hfits, ⟨w, hwakes, -, hdue⟩, hlate⟩ := hpending
      exact ⟨hfits, ⟨w, hwakes, htimer w hwakes, hdue⟩, hlate⟩
    case awaitConfirm shown => exact hpending
  | clientReceives receive hnet hdest hevent hreceives =>
    exact h.clientReceives hdistinct receive hnet hdest hevent hreceives
  | clientWakes receive hevent htimer => exact h.clientWakes receive
  | clientTimesOut hdeadline =>
    refine ⟨?_, h.server, h.proper, ?_⟩
    · have hpeer : st.client.timesOut.peer = st.client.peer := by
        unfold Client.timesOut
        split <;> rfl
      exact hpeer.trans h.peer
    · have hreturned : ∃ result, st.client.timesOut.pc = .returned result := by
        unfold Client.timesOut
        split
        · exact ⟨_, ‹_›⟩
        · exact ⟨_, rfl⟩
      obtain ⟨result, hpc⟩ := hreturned
      simp only [Pending, hpc]
  | serverReceives rand receive hnet hdest hevent =>
    have hsub : ∀ other ∈ _ ++ _, other ∈ st.net := fun other hmem => by
      rw [hnet]
      exact mem_without hmem _
    refine h.serverMoves hdistinct rand receive hsub ?_
    obtain hawaited | hexpendable := hspared
    · exact h.answered hdistinct rand hnet hdest hevent hawaited
    · exact (h.spares hnet hexpendable).append _
  | serverWakes rand receive hevent =>
    exact h.serverMoves hdistinct rand receive (fun _ hmem => hmem) (h.pending.leaves.append _)
  | serverTimesOut =>
    exact ⟨h.peer, timesOut_bound h.server, h.proper, h.pending.keeps h.pending.leaves⟩
  | drop hnet =>
    refine ⟨h.peer, h.server, fun other hmem => h.proper other ?_,
      h.pending.keeps (h.spares hnet hspared)⟩
    rw [hnet]
    exact mem_without hmem _

end Keeps

theorem begins_unfit {suite : Suite} {c : Client} {env : Env} {attempt : UInt32}
    (hpc : c.pc = .sendHello attempt) (hfits : ¬c.Fits) :
    ∃ session e, clientBegins suite c env =
      ({ c with session := session, pc := .returned (.error e) }, []) := by
  have hidle : c.receives = false := by rw [Client.receives, hpc]
  obtain ⟨session, e, hstep⟩ := Client.step_unfit suite env hpc hfits
  have hadvances : advances (fun s => s.1.receives)
      (recording fun c env event => c.step suite env event) (c, []) env =
        ({ c with session := session, pc := .returned (.error e) }, []) := by
    simp only [advances, hidle, recording, hstep, Bool.false_eq_true, if_false, List.append_nil]
  refine ⟨session, e, ?_⟩
  rw [clientBegins, settles, hadvances]
  rfl

theorem Start.awaits {setup : Setup} {c : Client} {s : Server} {env : Env} (h : Start setup c s)
    (hfits : c.Fits) (haccepts : env.Accepts) :
    Client.Like { c with pc := .awaitHello 0 } (initial setup c s env).client ∧ ∃ header : PacketHeader,
      header.version = protocolVersion ∧
        header.msgType = MessageType.handshakeClientHello.code ∧
          (initial setup c s env).net = [⟨setup.clientAddr, setup.serverAddr,
            Packet.bytes header (c.hello setup.suite).bytes⟩] := by
  have hsends := @settles_hello setup.suite c env 0 h.client hfits haccepts
  obtain ⟨header, hversion, htype, hsent⟩ := hsends.sent
  refine ⟨hsends.client, header, hversion, htype, ?_⟩
  simp only [initial, hsent, posts, List.map_cons, List.map_nil, h.peer]

theorem Start.inv {setup : Setup} {c : Client} {s : Server} {env : Env} (h : Start setup c s)
    (haccepts : env.Accepts) : Inv setup (initial setup c s env) := by
  have hserver : s.Bound setup.clientAddr := ⟨h.mode, by rw [h.server]; trivial⟩
  by_cases hfits : c.Fits
  · have hsends := @settles_hello setup.suite c env 0 h.client hfits haccepts
    have hat : (initial setup c s env).client.pc = .awaitHello 0 := hsends.client.pc_eq
    have hwakes : (initial setup c s env).wakes = some (0 + backoff 0) :=
      wakesAt_like hsends.client 0
    refine ⟨hsends.client.peer_eq.trans h.peer, hserver,
      hsends.proper (by rw [ClientHello.length_bytes]; decide), ?_⟩
    simp only [Pending, hat]
    exact ⟨fits_like hsends.client hfits, ⟨_, hwakes, Nat.zero_le _, fun _ => by decide⟩,
      fun hlate => absurd (by decide) hlate⟩
  · obtain ⟨session, e, hbegins⟩ := @begins_unfit setup.suite c env 0 h.client hfits
    have hinitial : initial setup c s env =
        ⟨{ c with session := session, pc := .returned (.error e) }, s, [], 0, none⟩ := by
      simp only [initial, hbegins]
      rfl
    rw [hinitial]
    exact ⟨h.peer, hserver, by simp, trivial⟩

/-- In every run in which nothing more is lost, a client with nothing in flight will send again
before its deadline. -/
theorem client_resends (setup : Setup) (c : Client) (s : Server) (env : Env)
    (haccepts : env.Accepts) (hstart : Start setup c s) (st : State)
    (hrun : Reaches (Step setup) (Spared setup) (initial setup c s env) st)
    (hwaits : ∀ result, st.client.pc ≠ .returned result) (hidle : st.net = []) :
    Resends setup st := by
  have hinv := hrun.invariant (hstart.inv haccepts) fun _ _ _ h hstep hspared =>
    h.step hstart.distinct hstep hspared
  have hpending := hinv.pending
  unfold Pending at hpending
  cases hpc : st.client.pc <;> simp only [hpc] at hpending
  case awaitHello attempt =>
    obtain ⟨hfits, ⟨w, hwakes, -, hdue⟩, hlate⟩ := hpending
    have hfew : attempt < 6 := by
      by_contra hmany
      exact hlate hmany hidle
    have hcount : attempt.toNat < 6 := UInt32.lt_iff_toNat_lt.mp hfew
    have hnever : ¬saturatingSucc attempt > 6 := fun hover =>
      absurd ((Client.counts_over (Client.counts_toNat attempt)).mp hover) (Nat.not_le_of_lt hcount)
    refine ⟨w, hwakes, (hdue hfew).trans_lt (due_lt _ hcount), fun receive hevent => ?_⟩
    · obtain hagain | ⟨-, -, hover⟩ | ⟨shown, hcommits⟩ :=
        @clientHears_hello setup.suite st.client attempt hpc hfits receive
      · obtain ⟨header, -, -, hsent⟩ := hagain.sent
        rw [hsent]
        nofun
      · exact absurd (hover hevent) hnever
      · obtain ⟨header, -, -, hsent⟩ := hcommits.sent
        rw [hsent]
        nofun
  case awaitConfirm shown =>
    obtain ⟨-, vital, hmem, -⟩ := hpending
    rw [hidle] at hmem
    cases hmem
  case returned result => exact absurd hpc (hwaits result)

def LosesKeyExchange (_ : State) : Label → Prop
  | .drop packet => IsType packet.data .handshakeKeyExchange
  | _ => True

def quietly (packet : NetPacket) : Receive :=
  ⟨.datagram ⟨packet.data, packet.source⟩, quietEnv, quietEnv_accepts, nofun⟩

section Wedge
variable {setup : Setup} {c : Client} {s : Server} {env : Env} {codec : UInt8} {st : State}

theorem serverMoves_offers {hello : ClientHello} {header : PacketHeader} (rand : Rand)
    (hserver : st.server.pc = .awaitHello) (hmode : st.server.mode = .fixed setup.clientAddr)
    (hopen : st.server.session.closed = false)
    (hmtu : 84 + headerSize + 4 ≤ st.server.session.config.mtu)
    (hversion : header.version = protocolVersion)
    (htype : header.msgType = MessageType.handshakeClientHello.code)
    (hagreed : ¬hello.protocolVersion < protocolVersionMin)
    (hcodec : Server.chooseCodec st.server.session.config hello.codecPreferred = .ok codec) :
    ∃ answer : PacketHeader, answer.version = protocolVersion ∧
      answer.msgType = MessageType.handshakeServerHello.code ∧
        (st.serverMoves setup rand
          (quietly ⟨setup.clientAddr, setup.serverAddr, Packet.bytes header hello.bytes⟩) []).net =
            [⟨setup.serverAddr, setup.clientAddr, Packet.bytes answer (Server.serverHello setup.suite
              st.server.session.config hello rand codec).bytes⟩] := by
  have hsize : hello.bytes.length = 80 := ClientHello.length_bytes _
  have hreceived : received st.server.session ⟨Packet.bytes header hello.bytes, setup.clientAddr⟩ =
      .ok ⟨header, hello.bytes⟩ := by
    rw [received_short (by rw [Packet.length_bytes, hsize]; omega)]
    exact PacketView.decode_bytes header hello.bytes hversion (by rw [hsize]; decide)
  have hreceives : st.server.receives = true := by rw [Server.receives, hserver]
  have hstep := @Server.step_offers setup.suite rand quietEnv st.server _ _ hello codec hserver hmode
    hreceived htype (ClientHello.decode_bytes hello) hagreed hcodec
  set offer : Offer := ⟨setup.clientAddr, hello, rand.secret,
    Server.serverHello setup.suite st.server.session.config hello rand codec⟩
  obtain ⟨answer, hanswer, hkind, hsent⟩ := @begins_offer setup.suite rand
    { st.server with
      session := { st.server.session with sessionId := rand.sessionId, negotiatedCodec := codec }
      pc := .sendHello offer
      offers := st.server.offers ++ [offer] } quietEnv offer rfl quietEnv_accepts hmtu hopen
  refine ⟨answer, hanswer, hkind, ?_⟩
  simp only [State.serverMoves, List.nil_append]
  rw [serverHears_eq hreceives hstep, show (quietly _).env = quietEnv from rfl, hsent]
  rfl

theorem clientMoves_commits {shown : ServerHello} {header : PacketHeader} {attempt : UInt32}
    (hpc : st.client.pc = .awaitHello attempt) (hpeer : st.client.peer = setup.serverAddr)
    (hmtu : 84 + headerSize + 4 ≤ st.client.session.config.mtu)
    (hversion : header.version = protocolVersion)
    (htype : header.msgType = MessageType.handshakeServerHello.code)
    (hagreed : shown.protocolVersion = protocolVersion)
    (hcodec : shown.codecAccepted ∈ st.client.session.config.supportedCodecs) {after : State}
    (hafter : after = st.clientMoves setup
      (quietly ⟨setup.serverAddr, setup.clientAddr, Packet.bytes header shown.bytes⟩) []) :
    after.client.pc = .awaitConfirm shown ∧ after.wakes = none ∧
      ∃ packet : NetPacket, after.net = [packet] ∧ IsType packet.data .handshakeKeyExchange := by
  have hsize : shown.bytes.length = 84 := ServerHello.length_bytes _
  have hreceived : received st.client.session ⟨Packet.bytes header shown.bytes, setup.serverAddr⟩ =
      .ok ⟨header, shown.bytes⟩ := by
    rw [received_short (by rw [Packet.length_bytes, hsize]; omega)]
    exact PacketView.decode_bytes header shown.bytes hversion (by rw [hsize]; decide)
  have hfits : st.client.Fits := by
    simp only [Client.Fits, ClientHello.size]
    omega
  have hnext := @Client.onHello_commits st.client attempt _ _ shown hpeer.symm hreceived htype
    (Client.checkServerHello_bytes hagreed hcodec)
  have hcommits := @clientHears_commits setup.suite st.client attempt
    (quietly ⟨setup.serverAddr, setup.clientAddr, Packet.bytes header shown.bytes⟩) shown hpc hfits
    hnext
  obtain ⟨answer, hanswer, hkind, hsent⟩ := hcommits.sent
  set payload := KeyExchangeMsg.bytes
    ⟨shown.sessionId, (st.client.secretsFor setup.suite shown).clientTag setup.suite⟩
  have hpayload : payload.length = 20 := length_taggedBytes _ _
  rw [hafter]
  refine ⟨hcommits.client.pc_eq, wakesAt_like hcommits.client st.now,
    ⟨setup.clientAddr, st.client.peer, Packet.bytes answer payload⟩, ?_,
    isType_bytes hanswer hkind (by rw [hpayload]; decide)⟩
  simp only [State.clientMoves, List.nil_append]
  rw [hsent]
  rfl

/-- Where the two sides agree on a codec, the loss of the KeyExchange alone leaves the client with
nothing to send. -/
theorem Start.wedges (h : Start setup c s) (haccepts : env.Accepts) (rand : Rand)
    (hroom : 84 + headerSize + 4 ≤ c.session.config.mtu)
    (hmtu : 84 + headerSize + 4 ≤ s.session.config.mtu) (hopen : s.session.closed = false)
    (hcodec : Server.chooseCodec s.session.config c.session.config.codecPreferred = .ok codec)
    (hsupported : codec ∈ c.session.config.supportedCodecs) :
    ∃ st, Reaches (Step setup) LosesKeyExchange (initial setup c s env) st ∧ st.net = [] ∧
      (∃ shown, st.client.pc = .awaitConfirm shown) ∧ ¬Resends setup st := by
  have hfits : c.Fits := by
    simp only [Client.Fits, ClientHello.size]
    omega
  obtain ⟨hlike, header, hversion, htype, hnet⟩ := h.awaits hfits haccepts
  set start := initial setup c s env with hstart
  have hserver : start.server = s := rfl
  have hconfig : start.client.session.config = c.session.config := by
    obtain ⟨txSequence, metrics, heq⟩ := hlike
    rw [heq]
  have hagreed : ¬protocolVersionMax < protocolVersionMin := by decide
  obtain ⟨answer, hanswer, hkind, hoffered⟩ := @serverMoves_offers setup codec start
    (c.hello setup.suite) header rand h.server h.mode hopen hmtu hversion htype hagreed hcodec
  set offered := start.serverMoves setup rand (quietly ⟨setup.clientAddr, setup.serverAddr,
    Packet.bytes header (c.hello setup.suite).bytes⟩) []
  set shown := Server.serverHello setup.suite start.server.session.config (c.hello setup.suite) rand
    codec
  obtain ⟨hconfirms, hwakes, packet, hkey, hlost⟩ := @clientMoves_commits setup offered shown answer
    0 hlike.pc_eq (hlike.peer_eq.trans h.peer) (hconfig ▸ hroom) hanswer hkind (by rfl)
    (hconfig ▸ hsupported) _ rfl
  set committed := offered.clientMoves setup
    (quietly ⟨setup.serverAddr, setup.clientAddr, Packet.bytes answer shown.bytes⟩) []
  have hreceives : offered.client.receives = true := by
    rw [Client.receives, show offered.client.pc = .awaitHello 0 from hlike.pc_eq]
  refine ⟨{ committed with net := [] }, ?_, rfl, ⟨shown, hconfirms⟩, ?_⟩
  · have hfirst : Reaches (Step setup) LosesKeyExchange start offered :=
      (Reaches.refl start).tail
        (@Step.serverReceives setup start _ [] [] rand (quietly _) hnet rfl rfl) trivial
    have hsecond : Reaches (Step setup) LosesKeyExchange start committed :=
      hfirst.tail (@Step.clientReceives setup offered _ [] [] (quietly _) hoffered rfl rfl hreceives)
        trivial
    exact hsecond.tail (@Step.drop setup committed packet [] [] hkey) hlost
  · rintro ⟨w, hmem, -⟩
    rw [show ({ committed with net := [] } : State).wakes = none from hwakes] at hmem
    cases hmem

end Wedge

private def wireSuite : Suite where
  publicKey _ := Vector.replicate 32 0
  diffieHellman _ _ := Vector.replicate 32 0
  hkdf n _ _ _ := Vector.replicate n 0

private def wireSetup : Setup := ⟨wireSuite, .v4 0x7F000001 20001, .v4 0x7F000001 20002⟩

private def dialling : Client :=
  ⟨Session.ofDefault, wireSetup.serverAddr, Vector.replicate 32 1, Vector.replicate 32 3,
    .sendHello 0, none⟩

private def serving : Server :=
  ⟨Session.ofDefault, .fixed wireSetup.clientAddr, .awaitHello, [], []⟩

private def wireRand : Rand := ⟨Vector.replicate 32 2, Vector.replicate 32 4, 7⟩

private theorem wire_starts : Start wireSetup dialling serving := ⟨rfl, rfl, rfl, rfl, by decide⟩

private theorem dialling_fits : dialling.Fits :=
  (by decide : headerSize + ClientHello.size + 4 ≤ Session.ofDefault.config.mtu)

/-- The first ClientHello is lost, and the client will send another. -/
theorem lost_hello_resent :
    Resends wireSetup { initial wireSetup dialling serving quietEnv with net := [] } := by
  obtain ⟨hlike, header, -, -, hnet⟩ := wire_starts.awaits dialling_fits quietEnv_accepts
  have hat : (initial wireSetup dialling serving quietEnv).client.pc = .awaitHello 0 := hlike.pc_eq
  have hrun : Reaches (Step wireSetup) (Spared wireSetup)
      (initial wireSetup dialling serving quietEnv)
      { initial wireSetup dialling serving quietEnv with net := [] } := by
    refine (Reaches.refl _).tail (@Step.drop wireSetup _ _ [] [] hnet) ?_
    simp only [Spared, Expendable, hat]
    exact .inl (by decide)
  refine client_resends wireSetup dialling serving quietEnv quietEnv_accepts wire_starts _ hrun
    (fun result h => ?_) rfl
  simp only [hat] at h
  cases h

/-- The KeyExchange is the only datagram lost, and the client waits for good. -/
theorem lost_keyExchange_wedges :
    Start wireSetup dialling serving ∧ ∃ st,
      Reaches (Step wireSetup) LosesKeyExchange (initial wireSetup dialling serving quietEnv) st ∧
        st.net = [] ∧ (∃ shown, st.client.pc = .awaitConfirm shown) ∧ ¬Resends wireSetup st :=
  ⟨wire_starts, wire_starts.wedges quietEnv_accepts wireRand (by decide) (by decide) rfl
    (show Server.chooseCodec Config.default Config.default.codecPreferred = .ok 1 from rfl)
    (show (1 : UInt8) ∈ Config.default.supportedCodecs by decide)⟩

end GravitalTalk.Transport.Handshake.Loss
