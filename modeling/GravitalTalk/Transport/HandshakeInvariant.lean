import GravitalTalk.Transport.HandshakeStep

/-! The invariant of the handshake.  What a party has stored, and what every KeyExchange and
SessionConfirm in the network says, goes back to the one ServerHello the client went on with and to
the offers the server made.  In an honest network the same holds of the two hellos. -/
namespace GravitalTalk.Transport.Handshake
open Lib GravitalTalk.Core Transition

/-- What stays the same over a run: the parties as they were at the start, and whether the network
leaves the hellos alone. -/
structure World where
  suite : Suite
  honest : Prop
  client : Client
  server : Server

/-- What only grows over a run. -/
structure Log where
  committed : Option ServerHello
  offers : List Offer
  accepted : List Offer

namespace World
variable (w : World)

def hello : ClientHello := w.client.hello w.suite

def clientSecrets (serverHello : ServerHello) : Secrets := w.client.secretsFor w.suite serverHello

end World

namespace Log

structure Le (log log' : Log) : Prop where
  committed : ∀ serverHello, log.committed = some serverHello → log'.committed = some serverHello
  offers : ∀ offer ∈ log.offers, offer ∈ log'.offers
  accepted : ∀ offer ∈ log.accepted, offer ∈ log'.accepted

theorem Le.refl (log : Log) : log.Le log := ⟨fun _ h => h, fun _ h => h, fun _ h => h⟩

end Log

structure PayloadOk (w : World) (log : Log) (msgType : UInt8) (payload : Bytes) : Prop where
  clientHello : w.honest → msgType = MessageType.handshakeClientHello.code →
    payload = w.hello.bytes
  serverHello : w.honest → msgType = MessageType.handshakeServerHello.code →
    ∃ offer ∈ log.offers, payload = offer.serverHello.bytes
  keyExchange : msgType = MessageType.handshakeKeyExchange.code →
    ∃ serverHello, log.committed = some serverHello ∧ payload = KeyExchangeMsg.bytes
      ⟨serverHello.sessionId, (w.clientSecrets serverHello).clientTag w.suite⟩
  confirm : msgType = MessageType.handshakeSessionConfirm.code →
    ∃ offer ∈ log.accepted, payload = SessionConfirm.bytes
      ⟨offer.serverHello.sessionId, (offer.secrets w.suite).serverTag w.suite⟩

def DataOk (w : World) (log : Log) (data : Bytes) : Prop :=
  ∃ header payload, data = Packet.bytes header payload ∧ header.version = protocolVersion ∧
    payload.length ≤ maxPayloadSize ∧ PayloadOk w log header.msgType payload

theorem PayloadOk.mono {w : World} {log log' : Log} (hle : log.Le log') {msgType : UInt8}
    {payload : Bytes} (h : PayloadOk w log msgType payload) : PayloadOk w log' msgType payload where
  clientHello := h.clientHello
  serverHello hhonest htype := by
    obtain ⟨offer, hoffer, hpayload⟩ := h.serverHello hhonest htype
    exact ⟨offer, hle.offers offer hoffer, hpayload⟩
  keyExchange htype := by
    obtain ⟨serverHello, hcommitted, hpayload⟩ := h.keyExchange htype
    exact ⟨serverHello, hle.committed serverHello hcommitted, hpayload⟩
  confirm htype := by
    obtain ⟨offer, hoffer, hpayload⟩ := h.confirm htype
    exact ⟨offer, hle.accepted offer hoffer, hpayload⟩

theorem DataOk.mono {w : World} {log log' : Log} (hle : log.Le log') {data : Bytes}
    (h : DataOk w log data) : DataOk w log' data := by
  obtain ⟨header, payload, hdata, hversion, hsize, hpayload⟩ := h
  exact ⟨header, payload, hdata, hversion, hsize, hpayload.mono hle⟩

/-- What a party sees of a packet of the network: its type, and its payload, whole or too short. -/
theorem received_view {w : World} {log : Log} {session : Session} {datagram : Datagram}
    {view : PacketView} (h : DataOk w log datagram.data)
    (hview : received session datagram = .ok view) :
    ∃ payload, PayloadOk w log view.header.msgType payload ∧
      (view.payload = payload ∨ view.payload.length < payload.length) := by
  obtain ⟨header, payload, hdata, hversion, hsize, hpayload⟩ := h
  rw [received, hdata] at hview
  obtain ⟨rfl, hwhole⟩ := PacketView.decode_take hversion hsize hview
  exact ⟨payload, hpayload, hwhole⟩

theorem decode_received {α : Type} {decode : Bytes → Except Error α} {payload arrived : Bytes}
    {own msg : α} (hround : decode payload = .ok own)
    (hcut : arrived.length < payload.length → ∃ e, decode arrived = .error e)
    (hwhole : arrived = payload ∨ arrived.length < payload.length)
    (hmsg : decode arrived = .ok msg) : msg = own := by
  rcases hwhole with rfl | hshort
  · rw [hround] at hmsg
    exact (Except.ok.inj hmsg).symm
  · obtain ⟨e, herror⟩ := hcut hshort
    rw [herror] at hmsg
    cases hmsg

theorem decodeTagged_received {payload : Bytes} {sessionId : UInt32} {tag : Tag}
    {fields : UInt32 × Tag}
    (hwhole : payload = taggedBytes sessionId tag ∨
      payload.length < (taggedBytes sessionId tag).length)
    (h : decodeTagged payload = .ok fields) : fields = (sessionId, tag) := by
  apply decode_received (decodeTagged_bytes sessionId tag) _ hwhole h
  intro hshort
  rw [length_taggedBytes] at hshort
  exact ⟨_, if_pos hshort⟩

theorem map_ok {α β : Type} {result : Except Error α} {f : α → β} {b : β}
    (h : result.map f = .ok b) : ∃ a, result = .ok a ∧ f a = b := by
  cases result with
  | error e => cases h
  | ok a => exact ⟨a, rfl, Except.ok.inj h⟩

theorem received_keyExchange {w : World} {log : Log} {session : Session} {datagram : Datagram}
    {view : PacketView} {msg : KeyExchangeMsg} (h : DataOk w log datagram.data)
    (hview : received session datagram = .ok view)
    (htype : view.header.msgType = MessageType.handshakeKeyExchange.code)
    (hmsg : KeyExchangeMsg.decode view.payload = .ok msg) :
    ∃ serverHello, log.committed = some serverHello ∧
      msg = ⟨serverHello.sessionId, (w.clientSecrets serverHello).clientTag w.suite⟩ := by
  obtain ⟨payload, hpayload, hwhole⟩ := received_view h hview
  obtain ⟨serverHello, hcommitted, rfl⟩ := hpayload.keyExchange htype
  obtain ⟨fields, hfields, rfl⟩ := map_ok hmsg
  refine ⟨serverHello, hcommitted, ?_⟩
  rw [decodeTagged_received hwhole hfields]

theorem received_confirm {w : World} {log : Log} {session : Session} {datagram : Datagram}
    {view : PacketView} {msg : SessionConfirm} (h : DataOk w log datagram.data)
    (hview : received session datagram = .ok view)
    (htype : view.header.msgType = MessageType.handshakeSessionConfirm.code)
    (hmsg : SessionConfirm.decode view.payload = .ok msg) :
    ∃ offer ∈ log.accepted,
      msg = ⟨offer.serverHello.sessionId, (offer.secrets w.suite).serverTag w.suite⟩ := by
  obtain ⟨payload, hpayload, hwhole⟩ := received_view h hview
  obtain ⟨offer, hoffer, rfl⟩ := hpayload.confirm htype
  obtain ⟨fields, hfields, rfl⟩ := map_ok hmsg
  refine ⟨offer, hoffer, ?_⟩
  rw [decodeTagged_received hwhole hfields]

theorem received_clientHello {w : World} {log : Log} {session : Session} {datagram : Datagram}
    {view : PacketView} {msg : ClientHello} (h : DataOk w log datagram.data)
    (hview : received session datagram = .ok view)
    (htype : view.header.msgType = MessageType.handshakeClientHello.code)
    (hmsg : ClientHello.decode view.payload = .ok msg) (hhonest : w.honest) : msg = w.hello := by
  obtain ⟨payload, hpayload, hwhole⟩ := received_view h hview
  obtain rfl := hpayload.clientHello hhonest htype
  apply decode_received (ClientHello.decode_bytes _) _ hwhole hmsg
  intro hshort
  rw [ClientHello.length_bytes] at hshort
  exact ⟨_, if_pos hshort⟩

theorem received_serverHello {w : World} {log : Log} {session : Session} {datagram : Datagram}
    {view : PacketView} {msg : ServerHello} (h : DataOk w log datagram.data)
    (hview : received session datagram = .ok view)
    (htype : view.header.msgType = MessageType.handshakeServerHello.code)
    (hmsg : ServerHello.decode view.payload = .ok msg) (hhonest : w.honest) :
    ∃ offer ∈ log.offers, offer.serverHello = msg := by
  obtain ⟨payload, hpayload, hwhole⟩ := received_view h hview
  obtain ⟨offer, hoffer, rfl⟩ := hpayload.serverHello hhonest htype
  refine ⟨offer, hoffer, ?_⟩
  symm
  apply decode_received (ServerHello.decode_bytes _) _ hwhole hmsg
  intro hshort
  rw [ServerHello.length_bytes] at hshort
  exact ⟨_, if_pos hshort⟩

/-- What the client checked of the ServerHello it went on with. -/
structure CommitOk (w : World) (log : Log) (serverHello : ServerHello) : Prop where
  codec : serverHello.codecAccepted ∈ w.client.session.config.supportedCodecs
  version : serverHello.protocolVersion = protocolVersion
  offered : w.honest → ∃ offer ∈ log.offers, offer.serverHello = serverHello

structure Settled (w : World) (log : Log) (c : Client) (serverHello : ServerHello) : Prop where
  committed : log.committed = some serverHello
  sessionId : c.session.sessionId = serverHello.sessionId
  codec : c.session.negotiatedCodec = serverHello.codecAccepted
  confirmed : ∃ offer ∈ log.accepted, (offer.secrets w.suite).serverTag w.suite =
    (w.clientSecrets serverHello).serverTag w.suite

def ClientAt (w : World) (log : Log) (c : Client) : ClientPc → Prop
  | .sendHello _ | .awaitHello _ => log.committed = none
  | .sendKeyExchange serverHello | .awaitConfirm serverHello => log.committed = some serverHello
  | .storeEncrypt serverHello => Settled w log c serverHello
  | .storeDecrypt serverHello => Settled w log c serverHello ∧
      c.session.encryptKey = some ((w.clientSecrets serverHello).keys w.suite).1
  | .returned (.ok serverHello) => Settled w log c serverHello ∧
      c.session.encryptKey = some ((w.clientSecrets serverHello).keys w.suite).1 ∧
      c.session.decryptKey = some ((w.clientSecrets serverHello).keys w.suite).2
  | .returned (.error _) => True

structure ClientInv (w : World) (log : Log) (c : Client) : Prop where
  secret : c.secret = w.client.secret
  nonce : c.nonce = w.client.nonce
  config : c.session.config = w.client.session.config
  committed : log.committed = c.committed
  commit : ∀ serverHello, log.committed = some serverHello → CommitOk w log serverHello
  place : ClientAt w log c c.pc

section Client
variable {w : World} {log : Log} {c : Client}

theorem ClientInv.hello (h : ClientInv w log c) : c.hello w.suite = w.hello := by
  simp only [World.hello, Client.hello, h.secret, h.nonce, h.config]

theorem ClientInv.secretsFor (h : ClientInv w log c) (serverHello : ServerHello) :
    c.secretsFor w.suite serverHello = w.clientSecrets serverHello := by
  simp only [World.clientSecrets, Client.secretsFor, h.secret, h.nonce]

structure SameSession (s s' : Session) : Prop where
  config : s'.config = s.config
  sessionId : s'.sessionId = s.sessionId
  negotiatedCodec : s'.negotiatedCodec = s.negotiatedCodec
  encryptKey : s'.encryptKey = s.encryptKey
  decryptKey : s'.decryptKey = s.decryptKey

theorem sameSession_sendControl (session : Session) (env : Env) (msg : MessageType)
    (sessionId : UInt32) (payload : Bytes) (peer : SocketAddr) :
    SameSession session (session.sendControl env msg sessionId payload peer).2.1 := by
  obtain ⟨metrics, hsession⟩ := session.sendControl_session env msg sessionId payload peer
  rw [hsession]
  exact ⟨rfl, rfl, rfl, rfl, rfl⟩

theorem sendControl_dataOk {session : Session} {env : Env} {msg : MessageType} {sessionId : UInt32}
    {payload : Bytes} {peer : SocketAddr} {sent : Sent} (hok : PayloadOk w log msg.code payload)
    (h : sent ∈ (session.sendControl env msg sessionId payload peer).2.2) :
    DataOk w log sent.data := by
  obtain ⟨hsize, hdata, -⟩ := Session.sendPacket_sent h
  exact ⟨_, payload, hdata, rfl, hsize, hok⟩

theorem ClientInv.sends (h : ClientInv w log c) (env : Env) (msg : MessageType) (sessionId : UInt32)
    {payload : Bytes} (next : ClientPc) (hok : PayloadOk w log msg.code payload)
    (hnext : ∀ session, SameSession c.session session →
      ClientAt w log { c with session := session, pc := next } next) :
    ClientInv w log (c.sends env msg sessionId (.ok payload) next).1 ∧
      (c.sends env msg sessionId (.ok payload) next).1.committed = c.committed ∧
      ∀ sent ∈ (c.sends env msg sessionId (.ok payload) next).2, DataOk w log sent.data := by
  have hsame := sameSession_sendControl c.session env msg sessionId payload c.peer
  have hdata : ∀ sent ∈ (c.session.sendControl env msg sessionId payload c.peer).2.2,
      DataOk w log sent.data := fun sent hmem => sendControl_dataOk hok hmem
  refine c.sends_rule (fun out => ClientInv w log out.1 ∧ out.1.committed = c.committed ∧
      ∀ sent ∈ out.2, DataOk w log sent.data) env msg sessionId (.ok payload) next
    (fun e => ⟨⟨h.secret, h.nonce, h.config, h.committed, h.commit, trivial⟩, rfl, by simp⟩)
    (fun bytes e session sent hbytes hsend => ?_) fun bytes session sent hbytes hsend => ?_
  · cases hbytes
    rw [hsend] at hsame hdata
    have hconfig := hsame.config.trans h.config
    exact ⟨⟨h.secret, h.nonce, hconfig, h.committed, h.commit, trivial⟩, rfl, hdata⟩
  · cases hbytes
    rw [hsend] at hsame hdata
    have hconfig := hsame.config.trans h.config
    exact ⟨⟨h.secret, h.nonce, hconfig, h.committed, h.commit, hnext session hsame⟩, rfl, hdata⟩

theorem checkServerHello_ok {config : Config} {payload : Bytes} {serverHello : ServerHello}
    (h : Client.checkServerHello config payload = .ok serverHello) :
    ServerHello.decode payload = .ok serverHello ∧
      serverHello.codecAccepted ∈ config.supportedCodecs ∧
        serverHello.protocolVersion = protocolVersion := by
  unfold Client.checkServerHello at h
  cases hdecode : ServerHello.decode payload with
  | error e => simp [hdecode] at h
  | ok found =>
    simp only [hdecode] at h
    split_ifs at h with hversion hcodec
    cases h
    simp only [not_or, UInt8.not_lt] at hversion
    simp only [Bool.not_eq_true', Bool.not_eq_false, List.contains_iff_mem] at hcodec
    exact ⟨rfl, hcodec, UInt8.le_antisymm hversion.2 hversion.1⟩

def EventOk (w : World) (log : Log) : RecvEvent → Prop
  | .datagram datagram => DataOk w log datagram.data
  | .failed _ | .timeout => True

theorem EventOk.data {event : RecvEvent} {session : Session} {msg : MessageType}
    {datagram : Datagram} {view : PacketView} (h : EventOk w log event)
    (hbrings : Brings session event msg datagram view) : DataOk w log datagram.data := by
  rw [hbrings.arrived] at h
  exact h

/-- A step of the client leaves it where the invariant allows, with `committed` set at most once. -/
structure ClientStepOk (w : World) (log : Log) (c : Client) (c' : Client) (sent : List Sent) :
    Prop where
  inv : ClientInv w { log with committed := c'.committed } c'
  le : log.Le { log with committed := c'.committed }
  data : ∀ s ∈ sent, DataOk w { log with committed := c'.committed } s.data

theorem ClientInv.stepOk (h : ClientInv w log c) {c' : Client} {sent : List Sent}
    (hcommitted : c'.committed = c.committed) (hinv : ClientInv w log c')
    (hdata : ∀ s ∈ sent, DataOk w log s.data) : ClientStepOk w log c c' sent := by
  have hlog : { log with committed := c'.committed } = log := by
    rw [hcommitted, ← h.committed]
  constructor
  · rw [hlog]
    exact hinv
  · rw [hlog]
    exact Log.Le.refl log
  · rw [hlog]
    exact hdata

theorem ClientInv.fails (h : ClientInv w log c) (e : TransportError) :
    ClientStepOk w log c { c with pc := .returned (.error e) } [] :=
  h.stepOk rfl ⟨h.secret, h.nonce, h.config, h.committed, h.commit, trivial⟩ (fun _ hs => by cases hs)

theorem ClientInv.stays (h : ClientInv w log c) : ClientStepOk w log c c [] :=
  h.stepOk rfl h (fun _ hs => by cases hs)

theorem ClientInv.onHello (h : ClientInv w log c) {attempt : UInt32}
    (hnone : log.committed = none) {event : RecvEvent} (hevent : EventOk w log event) :
    ClientStepOk w log c (c.onHello attempt event) [] := by
  have hagain : ∀ n, ClientStepOk w log c { c with pc := .sendHello n } [] := fun n =>
    h.stepOk rfl ⟨h.secret, h.nonce, h.config, h.committed, h.commit, hnone⟩
      (fun _ hs => by cases hs)
  refine c.onHello_rule (ClientStepOk w log c · []) attempt event (hagain _)
    (fun _ => h.fails _) (fun _ e _ => h.fails e)
    fun datagram view serverHello hbrings _ hcheck => ?_
  obtain ⟨hdecode, hcodec, hversion⟩ := checkServerHello_ok hcheck
  rw [h.config] at hcodec
  have hoffered : w.honest → ∃ offer ∈ log.offers, offer.serverHello = serverHello :=
    received_serverHello (hevent.data hbrings) hbrings.decoded hbrings.msgType hdecode
  have hle : log.Le { log with committed := some serverHello } := by
    refine ⟨fun found hfound => ?_, fun _ ho => ho, fun _ ho => ho⟩
    rw [hnone] at hfound
    cases hfound
  refine ⟨⟨h.secret, h.nonce, h.config, rfl, fun found hfound => ?_, rfl⟩, hle,
    fun _ hs => by cases hs⟩
  cases hfound
  exact ⟨hcodec, hversion, hoffered⟩

theorem ClientInv.onConfirm (h : ClientInv w log c) {serverHello : ServerHello}
    (hcommitted : log.committed = some serverHello) {event : RecvEvent}
    (hevent : EventOk w log event) :
    ClientStepOk w log c (c.onConfirm w.suite serverHello event) [] := by
  refine c.onConfirm_rule (ClientStepOk w log c · []) w.suite serverHello event h.stays h.fails
    fun datagram view confirm hbrings _ hdecode htag => ?_
  obtain ⟨offer, hoffer, rfl⟩ :=
    received_confirm (hevent.data hbrings) hbrings.decoded hbrings.msgType hdecode
  rw [h.secretsFor] at htag
  exact h.stepOk rfl ⟨h.secret, h.nonce, h.config, h.committed, h.commit,
    ⟨hcommitted, rfl, rfl, offer, hoffer, htag⟩⟩ (fun _ hs => by cases hs)

theorem Settled.sameSession {c' : Client} {serverHello : ServerHello}
    (h : Settled w log c serverHello) (hsid : c'.session.sessionId = c.session.sessionId)
    (hcodec : c'.session.negotiatedCodec = c.session.negotiatedCodec) :
    Settled w log c' serverHello :=
  ⟨h.committed, hsid.trans h.sessionId, hcodec.trans h.codec, h.confirmed⟩

theorem encoded_clientHello (hello : ClientHello) :
    encoded (hello.encode (List.replicate ClientHello.size 0)) = .ok hello.bytes := by
  rw [ClientHello.encode_eq _ _ (by simp), overwrite_zero]
  simp [encoded]

theorem encoded_serverHello (hello : ServerHello) :
    encoded (hello.encode (List.replicate ServerHello.size 0)) = .ok hello.bytes := by
  rw [ServerHello.encode_eq _ _ (by simp), overwrite_zero]
  simp [encoded]

theorem encoded_tagged (sessionId : UInt32) (tag : Tag) :
    encoded (encodeTagged sessionId tag (List.replicate 20 0)) = .ok (taggedBytes sessionId tag) := by
  rw [encodeTagged_eq _ _ _ (by simp), overwrite_zero]
  simp [encoded]

theorem payloadOk_clientHello : PayloadOk w log MessageType.handshakeClientHello.code w.hello.bytes where
  clientHello _ _ := rfl
  serverHello _ htype := absurd htype (by decide)
  keyExchange htype := absurd htype (by decide)
  confirm htype := absurd htype (by decide)

theorem payloadOk_keyExchange {serverHello : ServerHello} (h : log.committed = some serverHello) :
    PayloadOk w log MessageType.handshakeKeyExchange.code
      (taggedBytes serverHello.sessionId ((w.clientSecrets serverHello).clientTag w.suite)) where
  clientHello _ htype := absurd htype (by decide)
  serverHello _ htype := absurd htype (by decide)
  keyExchange _ := ⟨serverHello, h, rfl⟩
  confirm htype := absurd htype (by decide)

theorem ClientInv.step (h : ClientInv w log c) (env : Env) {event : RecvEvent}
    (hevent : EventOk w log event) :
    ClientStepOk w log c (c.step w.suite env event).1 (c.step w.suite env event).2 := by
  have hplace := h.place
  unfold Client.step
  cases hpc : c.pc with
  | sendHello attempt =>
    rw [hpc] at hplace
    simp only [encoded_clientHello, h.hello]
    obtain ⟨hinv, hcommitted, hdata⟩ := h.sends env .handshakeClientHello 0 (.awaitHello attempt)
      payloadOk_clientHello (fun _ _ => hplace)
    exact h.stepOk hcommitted hinv hdata
  | awaitHello attempt =>
    rw [hpc] at hplace
    exact h.onHello hplace hevent
  | sendKeyExchange serverHello =>
    rw [hpc] at hplace
    simp only [KeyExchangeMsg.encode, KeyExchangeMsg.size, encoded_tagged, h.secretsFor]
    obtain ⟨hinv, hcommitted, hdata⟩ := h.sends env .handshakeKeyExchange serverHello.sessionId
      (.awaitConfirm serverHello) (payloadOk_keyExchange hplace) (fun _ _ => hplace)
    exact h.stepOk hcommitted hinv hdata
  | awaitConfirm serverHello =>
    rw [hpc] at hplace
    exact h.onConfirm hplace hevent
  | storeEncrypt serverHello =>
    rw [hpc] at hplace
    refine h.stepOk rfl ⟨h.secret, h.nonce, h.config, h.committed, h.commit, ?_⟩
      (fun _ hs => by cases hs)
    have hkey : some ((c.secretsFor w.suite serverHello).keys w.suite).1 =
        some ((w.clientSecrets serverHello).keys w.suite).1 := by rw [h.secretsFor]
    exact ⟨Settled.sameSession hplace rfl rfl, hkey⟩
  | storeDecrypt serverHello =>
    rw [hpc] at hplace
    refine h.stepOk rfl ⟨h.secret, h.nonce, h.config, h.committed, h.commit, ?_⟩
      (fun _ hs => by cases hs)
    have hkey : some ((c.secretsFor w.suite serverHello).keys w.suite).2 =
        some ((w.clientSecrets serverHello).keys w.suite).2 := by rw [h.secretsFor]
    exact ⟨hplace.1.sameSession rfl rfl, hplace.2, hkey⟩
  | returned result => exact h.stays

theorem ClientInv.timesOut (h : ClientInv w log c) : ClientStepOk w log c c.timesOut [] := by
  unfold Client.timesOut
  split
  · exact h.stays
  · exact h.fails _

end Client

structure OfferOk (w : World) (offer : Offer) : Prop where
  codec : Server.chooseCodec w.server.session.config offer.clientHello.codecPreferred =
    .ok offer.serverHello.codecAccepted
  version : offer.serverHello.protocolVersion = protocolVersion
  hello : w.honest → offer.clientHello = w.hello

structure AcceptOk (w : World) (log : Log) (offer : Offer) : Prop where
  offered : offer ∈ log.offers
  tag : ∃ serverHello, log.committed = some serverHello ∧
    (w.clientSecrets serverHello).clientTag w.suite = (offer.secrets w.suite).clientTag w.suite

/-- The server since it made an offer. -/
structure Holding (log : Log) (s : Server) (offer : Offer) : Prop where
  offered : offer ∈ log.offers
  sessionId : s.session.sessionId = offer.serverHello.sessionId
  codec : s.session.negotiatedCodec = offer.serverHello.codecAccepted

def ServerAt (w : World) (log : Log) (s : Server) : ServerPc → Prop
  | .attempt | .helloTop | .awaitHello | .returned (.error _) => True
  | .sendHello offer | .keyTop offer | .awaitKeyExchange offer | .resendHello offer =>
    Holding log s offer
  | .sendConfirm offer | .storeEncrypt offer => Holding log s offer ∧ offer ∈ log.accepted
  | .storeDecrypt offer => (Holding log s offer ∧ offer ∈ log.accepted) ∧
      s.session.encryptKey = some ((offer.secrets w.suite).keys w.suite).2
  | .returned (.ok offer) => (Holding log s offer ∧ offer ∈ log.accepted) ∧
      s.session.encryptKey = some ((offer.secrets w.suite).keys w.suite).2 ∧
      s.session.decryptKey = some ((offer.secrets w.suite).keys w.suite).1

structure ServerInv (w : World) (log : Log) (s : Server) : Prop where
  config : s.session.config = w.server.session.config
  offers : log.offers = s.offers
  accepted : log.accepted = s.accepted
  offersOk : ∀ offer ∈ log.offers, OfferOk w offer
  acceptedOk : ∀ offer ∈ log.accepted, AcceptOk w log offer
  place : ServerAt w log s s.pc

structure ServerStepOk (w : World) (log : Log) (s : Server) (sent : List Sent) : Prop where
  inv : ServerInv w { log with offers := s.offers, accepted := s.accepted } s
  le : log.Le { log with offers := s.offers, accepted := s.accepted }
  data : ∀ d ∈ sent, DataOk w { log with offers := s.offers, accepted := s.accepted } d.data

section Server
variable {w : World} {log : Log} {s s' : Server} {offer : Offer}

theorem ServerInv.stepOk (h : ServerInv w log s) {sent : List Sent}
    (hconfig : s'.session.config = s.session.config) (hoffers : s'.offers = s.offers)
    (haccepted : s'.accepted = s.accepted) (hplace : ServerAt w log s' s'.pc)
    (hdata : ∀ d ∈ sent, DataOk w log d.data) : ServerStepOk w log s' sent := by
  have hlog : { log with offers := s'.offers, accepted := s'.accepted } = log := by
    rw [hoffers, haccepted, ← h.offers, ← h.accepted]
  constructor
  · rw [hlog]
    exact ⟨hconfig.trans h.config, h.offers.trans hoffers.symm, h.accepted.trans haccepted.symm,
      h.offersOk, h.acceptedOk, hplace⟩
  · rw [hlog]
    exact Log.Le.refl log
  · rw [hlog]
    exact hdata

/-- A failed attempt ends in an error, or at the top of the loop of `handshake_open`. -/
theorem finishes_error (s : Server) (e : TransportError) :
    (s.finishes (.error e)).session.config = s.session.config ∧
      (s.finishes (.error e)).offers = s.offers ∧ (s.finishes (.error e)).accepted = s.accepted ∧
        ∀ w log, ServerAt w log (s.finishes (.error e)) (s.finishes (.error e)).pc := by
  unfold Server.finishes
  cases s.mode with
  | fixed peer => exact ⟨rfl, rfl, rfl, fun _ _ => trivial⟩
  | anyPeer => cases e <;> exact ⟨rfl, rfl, rfl, fun _ _ => trivial⟩

theorem ServerInv.fails (h : ServerInv w log s) (e : TransportError) {sent : List Sent}
    (hconfig : s'.session.config = s.session.config) (hoffers : s'.offers = s.offers)
    (haccepted : s'.accepted = s.accepted) (hdata : ∀ d ∈ sent, DataOk w log d.data) :
    ServerStepOk w log (s'.finishes (.error e)) sent := by
  obtain ⟨hconfig', hoffers', haccepted', hplace⟩ := finishes_error s' e
  exact h.stepOk (hconfig'.trans hconfig) (hoffers'.trans hoffers) (haccepted'.trans haccepted)
    (hplace w log) hdata

theorem ServerInv.fails_here (h : ServerInv w log s) (e : TransportError) :
    ServerStepOk w log (s.finishes (.error e)) [] :=
  h.fails e rfl rfl rfl (fun _ hd => by cases hd)

theorem ServerInv.moves (h : ServerInv w log s) (pc : ServerPc)
    (hplace : ServerAt w log { s with pc := pc } pc) : ServerStepOk w log { s with pc := pc } [] :=
  h.stepOk rfl rfl rfl hplace (fun _ hd => by cases hd)

theorem ServerInv.stays (h : ServerInv w log s) : ServerStepOk w log s [] :=
  h.stepOk rfl rfl rfl h.place (fun _ hd => by cases hd)

/-- `handshake_open` may still turn a completed attempt into an error. -/
theorem finishes_ok (s : Server) (offer : Offer) :
    (s.finishes (.ok offer)).session.config = s.session.config ∧
      (s.finishes (.ok offer)).offers = s.offers ∧ (s.finishes (.ok offer)).accepted = s.accepted ∧
      SameSession s.session (s.finishes (.ok offer)).session ∧
        ((s.finishes (.ok offer)).pc = .returned (.ok offer) ∨
          ∃ e, (s.finishes (.ok offer)).pc = .returned (.error e)) := by
  have hsame : ∀ state, SameSession s.session { s.session with state := state } :=
    fun _ => ⟨rfl, rfl, rfl, rfl, rfl⟩
  unfold Server.finishes
  cases s.mode with
  | fixed peer => exact ⟨rfl, rfl, rfl, ⟨rfl, rfl, rfl, rfl, rfl⟩, .inl rfl⟩
  | anyPeer =>
    simp only
    cases hmoved : s.session.state.transition .handshakeOk with
    | mk moved state =>
      cases moved with
      | error e => exact ⟨rfl, rfl, rfl, ⟨rfl, rfl, rfl, rfl, rfl⟩, .inr ⟨_, rfl⟩⟩
      | ok _ => exact ⟨rfl, rfl, rfl, hsame state, .inl rfl⟩

theorem negotiated_version {clientVer : UInt8} (h : ¬clientVer < protocolVersionMin) :
    min clientVer protocolVersionMax = protocolVersion := by
  show (if clientVer ≤ protocolVersionMax then clientVer else protocolVersionMax) = protocolVersion
  split_ifs with hle
  · exact UInt8.le_antisymm hle (UInt8.not_lt.mp h)
  · rfl

theorem ServerInv.negotiates (h : ServerInv w log s)
    (hconfig : s'.session.config = s.session.config) (hoffers : s'.offers = s.offers)
    (haccepted : s'.accepted = s.accepted) (rand : Rand) {clientHello : ClientHello}
    (peer : SocketAddr) (hhello : w.honest → clientHello = w.hello) :
    ServerStepOk w log (s'.negotiates w.suite rand clientHello peer) [] := by
  refine s'.negotiates_rule (ServerStepOk w log · []) w.suite rand clientHello peer
    (fun e sessionId => @ServerInv.fails w log s { s' with session := { s'.session with
      sessionId := sessionId } } h e [] hconfig hoffers haccepted (fun _ hd => by cases hd))
    fun codec hversion hcodec => ?_
  set offer : Offer := ⟨peer, clientHello, rand.secret,
    Server.serverHello w.suite s'.session.config clientHello rand codec⟩ with hoffer
  have hok : OfferOk w offer := by
    refine ⟨?_, negotiated_version hversion, hhello⟩
    rw [← h.config, ← hconfig]
    exact hcodec
  have hle : log.Le { log with offers := s'.offers ++ [offer], accepted := s'.accepted } := by
    refine ⟨fun _ hc => hc, fun found hfound => ?_, fun found hfound => ?_⟩
    · exact List.mem_append_left _ (hoffers ▸ h.offers ▸ hfound)
    · exact haccepted ▸ h.accepted ▸ hfound
  refine ⟨⟨hconfig.trans h.config, rfl, rfl, fun found hfound => ?_, fun found hfound => ?_, ?_⟩,
    hle, fun _ hd => by cases hd⟩
  · rcases List.mem_append.mp hfound with hold | hnew
    · exact h.offersOk found (h.offers ▸ hoffers ▸ hold)
    · rw [List.mem_singleton.mp hnew]
      exact hok
  · have hold := h.acceptedOk found (h.accepted ▸ haccepted ▸ hfound)
    exact ⟨hle.offers found hold.offered, hold.tag⟩
  · exact ⟨List.mem_append_right _ (List.mem_singleton_self _), rfl, rfl⟩

theorem ServerInv.onHelloFrom (h : ServerInv w log s) (rand : Rand) (peer : SocketAddr)
    {event : RecvEvent} (hevent : EventOk w log event) :
    ServerStepOk w log (s.onHelloFrom w.suite rand peer event) [] := by
  refine s.onHelloFrom_rule (ServerStepOk w log · []) w.suite rand peer event h.stays h.fails_here
    fun datagram view clientHello hbrings _ hdecode => h.negotiates rfl rfl rfl rand peer ?_
  exact received_clientHello (hevent.data hbrings) hbrings.decoded hbrings.msgType hdecode

theorem ServerInv.onHelloAny (h : ServerInv w log s) (rand : Rand) {event : RecvEvent}
    (hevent : EventOk w log event) : ServerStepOk w log (s.onHelloAny w.suite rand event) [] := by
  refine s.onHelloAny_rule (ServerStepOk w log · []) w.suite rand event (h.moves .helloTop trivial)
    h.fails_here fun datagram view clientHello hbrings hdecode => ?_
  have hhello : w.honest → clientHello = w.hello :=
    received_clientHello (hevent.data hbrings) hbrings.decoded hbrings.msgType hdecode
  exact @ServerInv.negotiates w log s
    { s with session := { s.session with peer := some datagram.source } } h rfl rfl rfl rand
    clientHello datagram.source hhello

theorem ServerInv.accepts (h : ServerInv w log s) (hholding : Holding log s offer)
    (haccept : AcceptOk w log offer) :
    ServerStepOk w log
      { s with pc := .sendConfirm offer, accepted := s.accepted ++ [offer] } [] := by
  have hle : log.Le { log with offers := s.offers, accepted := s.accepted ++ [offer] } := by
    refine ⟨fun _ hc => hc, fun found hfound => ?_, fun found hfound => ?_⟩
    · exact h.offers ▸ hfound
    · exact List.mem_append_left _ (h.accepted ▸ hfound)
  have hold : ∀ found, AcceptOk w log found →
      AcceptOk w { log with offers := s.offers, accepted := s.accepted ++ [offer] } found :=
    fun found hfound => ⟨hle.offers found hfound.offered, hfound.tag⟩
  refine ⟨⟨h.config, rfl, rfl, fun found hfound => ?_, fun found hfound => ?_, ?_⟩, hle,
    fun _ hd => by cases hd⟩
  · exact h.offersOk found (h.offers ▸ hfound)
  · rcases List.mem_append.mp hfound with hbefore | hnew
    · exact hold found (h.acceptedOk found (h.accepted ▸ hbefore))
    · rw [List.mem_singleton.mp hnew]
      exact hold offer haccept
  · exact ⟨⟨hle.offers offer hholding.offered, hholding.sessionId, hholding.codec⟩,
      List.mem_append_right _ (List.mem_singleton_self _)⟩

theorem ServerInv.onKeyExchange (h : ServerInv w log s) (hholding : Holding log s offer)
    {event : RecvEvent} (hevent : EventOk w log event) :
    ServerStepOk w log (s.onKeyExchange w.suite offer event) [] := by
  have hmoved : ∀ pc, Holding log { s with pc := pc } offer := fun _ =>
    ⟨hholding.offered, hholding.sessionId, hholding.codec⟩
  refine s.onKeyExchange_rule (ServerStepOk w log · []) w.suite offer event
    (h.moves (.keyTop offer) (hmoved _)) h.fails_here
    (fun _ _ _ _ => h.moves (.resendHello offer) (hmoved _))
    fun datagram view msg hbrings _ hdecode htag => ?_
  obtain ⟨serverHello, hcommitted, rfl⟩ :=
    received_keyExchange (hevent.data hbrings) hbrings.decoded hbrings.msgType hdecode
  exact h.accepts hholding ⟨hholding.offered, serverHello, hcommitted, htag⟩

theorem payloadOk_serverHello (h : offer ∈ log.offers) :
    PayloadOk w log MessageType.handshakeServerHello.code offer.serverHello.bytes where
  clientHello _ htype := absurd htype (by decide)
  serverHello _ _ := ⟨offer, h, rfl⟩
  keyExchange htype := absurd htype (by decide)
  confirm htype := absurd htype (by decide)

theorem payloadOk_confirm (h : offer ∈ log.accepted) :
    PayloadOk w log MessageType.handshakeSessionConfirm.code
      (taggedBytes offer.serverHello.sessionId ((offer.secrets w.suite).serverTag w.suite)) where
  clientHello _ htype := absurd htype (by decide)
  serverHello _ htype := absurd htype (by decide)
  keyExchange htype := absurd htype (by decide)
  confirm _ := ⟨offer, h, rfl⟩

theorem Holding.sameSession (h : Holding log s offer)
    (hsid : s'.session.sessionId = s.session.sessionId)
    (hcodec : s'.session.negotiatedCodec = s.session.negotiatedCodec) : Holding log s' offer :=
  ⟨h.offered, hsid.trans h.sessionId, hcodec.trans h.codec⟩

theorem ServerInv.sends (h : ServerInv w log s) (env : Env) (msg : MessageType)
    (sessionId : UInt32) {payload : Bytes} (peer : SocketAddr) (next : ServerPc)
    (hok : PayloadOk w log msg.code payload)
    (hnext : ∀ session, SameSession s.session session →
      ServerAt w log { s with session := session, pc := next } next) :
    ServerStepOk w log (s.sends env msg sessionId (.ok payload) peer next).1
      (s.sends env msg sessionId (.ok payload) peer next).2 := by
  have hsame := sameSession_sendControl s.session env msg sessionId payload peer
  have hdata : ∀ sent ∈ (s.session.sendControl env msg sessionId payload peer).2.2,
      DataOk w log sent.data := fun sent hmem => sendControl_dataOk hok hmem
  refine s.sends_rule (fun out => ServerStepOk w log out.1 out.2) env msg sessionId (.ok payload)
    peer next h.fails_here (fun bytes e session sent hbytes hsend => ?_)
    fun bytes session sent hbytes hsend => ?_
  · cases hbytes
    rw [hsend] at hsame hdata
    exact @ServerInv.fails w log s { s with session := session } h e sent hsame.config rfl rfl hdata
  · cases hbytes
    rw [hsend] at hsame hdata
    exact h.stepOk hsame.config rfl rfl (hnext session hsame) hdata

theorem ServerInv.sendsHello (h : ServerInv w log s) (env : Env) (hholding : Holding log s offer) :
    ServerStepOk w log (s.sendsHello env offer).1 (s.sendsHello env offer).2 := by
  simp only [Server.sendsHello, encoded_serverHello]
  exact h.sends env .handshakeServerHello offer.serverHello.sessionId offer.peer (.keyTop offer)
    (payloadOk_serverHello hholding.offered)
    (fun _ hsame => hholding.sameSession hsame.sessionId hsame.negotiatedCodec)

theorem ServerInv.finishesOk (h : ServerInv w log s) (hholding : Holding log s offer)
    (haccepted : offer ∈ log.accepted)
    (hencrypt : s.session.encryptKey = some ((offer.secrets w.suite).keys w.suite).2) :
    ServerStepOk w log
      ({ s with session := { s.session with
          decryptKey := some ((offer.secrets w.suite).keys w.suite).1 } }.finishes (.ok offer)) [] := by
  set s' : Server := { s with session := { s.session with
    decryptKey := some ((offer.secrets w.suite).keys w.suite).1 } } with hs'
  obtain ⟨hconfig, hoffers, haccepts, hsame, hpc⟩ := finishes_ok s' offer
  refine h.stepOk hconfig hoffers haccepts ?_ (fun _ hd => by cases hd)
  rcases hpc with hok | ⟨e, herror⟩
  · rw [hok]
    exact ⟨⟨hholding.sameSession hsame.sessionId hsame.negotiatedCodec, haccepted⟩,
      hsame.encryptKey.trans hencrypt, hsame.decryptKey⟩
  · rw [herror]
    trivial

theorem ServerInv.step (h : ServerInv w log s) (rand : Rand) (env : Env) {event : RecvEvent}
    (hevent : EventOk w log event) :
    ServerStepOk w log (s.step w.suite rand env event).1 (s.step w.suite rand env event).2 := by
  have hplace := h.place
  have hnothing : ∀ d ∈ ([] : List Sent), DataOk w log d.data := fun _ hd => by cases hd
  unfold Server.step
  cases hpc : s.pc with
  | attempt =>
    simp only
    split_ifs
    · exact h.stepOk rfl rfl rfl trivial hnothing
    · exact h.moves .helloTop trivial
  | helloTop =>
    simp only
    split_ifs
    · exact h.fails_here _
    · exact h.moves .awaitHello trivial
  | awaitHello =>
    simp only
    cases s.mode with
    | fixed peer => exact h.onHelloFrom rand peer hevent
    | anyPeer => exact h.onHelloAny rand hevent
  | sendHello offer | resendHello offer =>
    rw [hpc] at hplace
    exact h.sendsHello env hplace
  | keyTop offer =>
    rw [hpc] at hplace
    simp only
    split_ifs
    · exact h.fails_here _
    · exact h.moves (.awaitKeyExchange offer) (hplace.sameSession rfl rfl)
  | awaitKeyExchange offer =>
    rw [hpc] at hplace
    exact h.onKeyExchange hplace hevent
  | sendConfirm offer =>
    rw [hpc] at hplace
    simp only [SessionConfirm.encode, SessionConfirm.size, encoded_tagged]
    exact h.sends env .handshakeSessionConfirm offer.serverHello.sessionId offer.peer
      (.storeEncrypt offer) (payloadOk_confirm hplace.2)
      (fun _ hsame => ⟨hplace.1.sameSession hsame.sessionId hsame.negotiatedCodec, hplace.2⟩)
  | storeEncrypt offer =>
    rw [hpc] at hplace
    exact h.stepOk rfl rfl rfl ⟨⟨hplace.1.sameSession rfl rfl, hplace.2⟩, rfl⟩ hnothing
  | storeDecrypt offer =>
    rw [hpc] at hplace
    exact h.finishesOk hplace.1.1 hplace.1.2 hplace.2
  | returned result => exact h.stays

theorem ServerInv.timesOut (h : ServerInv w log s) : ServerStepOk w log s.timesOut [] := by
  have hnothing : ∀ d ∈ ([] : List Sent), DataOk w log d.data := fun _ hd => by cases hd
  unfold Server.timesOut
  split
  · exact h.stays
  · exact h.stays
  · cases s.mode with
    | fixed peer => exact h.stepOk rfl rfl rfl trivial hnothing
    | anyPeer => exact h.stepOk rfl rfl rfl trivial hnothing

end Server

def State.log (st : State) : Log := ⟨st.client.committed, st.server.offers, st.server.accepted⟩

structure Inv (w : World) (st : State) : Prop where
  client : ClientInv w st.log st.client
  server : ServerInv w st.log st.server
  net : ∀ packet ∈ st.net, DataOk w st.log packet.data

section Whole
variable {w : World} {log log' : Log} {c : Client} {s : Server} {st st' : State} {setup : Setup}

theorem Settled.mono {serverHello : ServerHello} (hle : log.Le log')
    (h : Settled w log c serverHello) : Settled w log' c serverHello := by
  obtain ⟨offer, hoffer, htag⟩ := h.confirmed
  exact ⟨hle.committed _ h.committed, h.sessionId, h.codec, offer, hle.accepted _ hoffer, htag⟩

theorem ClientInv.mono (hle : log.Le log') (hsame : log'.committed = log.committed)
    (h : ClientInv w log c) : ClientInv w log' c := by
  have hplace := h.place
  refine ⟨h.secret, h.nonce, h.config, hsame.trans h.committed, fun serverHello hcommitted => ?_, ?_⟩
  · have hcommit := h.commit serverHello (hsame.symm.trans hcommitted)
    refine ⟨hcommit.codec, hcommit.version, fun hhonest => ?_⟩
    obtain ⟨offer, hoffer, hhello⟩ := hcommit.offered hhonest
    exact ⟨offer, hle.offers offer hoffer, hhello⟩
  · cases hpc : c.pc with
    | sendHello _ | awaitHello _ | sendKeyExchange _ | awaitConfirm _ =>
      rw [hpc] at hplace
      exact hsame.trans hplace
    | storeEncrypt serverHello =>
      rw [hpc] at hplace
      exact Settled.mono hle hplace
    | storeDecrypt serverHello =>
      rw [hpc] at hplace
      exact ⟨hplace.1.mono hle, hplace.2⟩
    | returned result =>
      rw [hpc] at hplace
      cases result with
      | error e => trivial
      | ok serverHello => exact ⟨hplace.1.mono hle, hplace.2⟩

theorem Holding.mono {offer : Offer} (hle : log.Le log') (h : Holding log s offer) :
    Holding log' s offer :=
  ⟨hle.offers offer h.offered, h.sessionId, h.codec⟩

theorem ServerInv.mono (hle : log.Le log') (hoffers : log'.offers = log.offers)
    (haccepted : log'.accepted = log.accepted) (h : ServerInv w log s) : ServerInv w log' s := by
  have hplace := h.place
  refine ⟨h.config, hoffers.trans h.offers, haccepted.trans h.accepted, hoffers ▸ h.offersOk,
    fun offer hoffer => ?_, ?_⟩
  · obtain ⟨hoffered, serverHello, hcommitted, htag⟩ := h.acceptedOk offer (haccepted ▸ hoffer)
    exact ⟨hle.offers offer hoffered, serverHello, hle.committed _ hcommitted, htag⟩
  · cases hpc : s.pc with
    | attempt | helloTop | awaitHello => trivial
    | sendHello offer | keyTop offer | awaitKeyExchange offer | resendHello offer =>
      rw [hpc] at hplace
      exact Holding.mono hle hplace
    | sendConfirm offer | storeEncrypt offer =>
      rw [hpc] at hplace
      exact ⟨hplace.1.mono hle, hle.accepted offer hplace.2⟩
    | storeDecrypt offer =>
      rw [hpc] at hplace
      exact ⟨⟨hplace.1.1.mono hle, hle.accepted offer hplace.1.2⟩, hplace.2⟩
    | returned result =>
      rw [hpc] at hplace
      cases result with
      | error e => trivial
      | ok offer => exact ⟨⟨hplace.1.1.mono hle, hle.accepted offer hplace.1.2⟩, hplace.2⟩

theorem Inv.eventOk (h : Inv w st) {addr : SocketAddr} {event : RecvEvent}
    (harrives : Arrives st.net addr event) : EventOk w st.log event := by
  cases event with
  | timeout | failed e => trivial
  | datagram datagram => exact h.net _ harrives

theorem net_append {net : List NetPacket} {source : SocketAddr} {sent : List Sent}
    (hle : log.Le log') (hnet : ∀ packet ∈ net, DataOk w log packet.data)
    (hsent : ∀ d ∈ sent, DataOk w log' d.data) :
    ∀ packet ∈ net ++ posts source sent, DataOk w log' packet.data := by
  intro packet hpacket
  rcases List.mem_append.mp hpacket with hold | hnew
  · exact (hnet packet hold).mono hle
  · obtain ⟨d, hd, rfl⟩ := List.mem_map.mp hnew
    exact hsent d hd

theorem Inv.clientStep (h : Inv w st) {c' : Client} {sent : List Sent} (source : SocketAddr)
    (hstep : ClientStepOk w st.log st.client c' sent) :
    Inv w { st with client := c', net := st.net ++ posts source sent } :=
  ⟨hstep.inv, h.server.mono hstep.le rfl rfl, net_append hstep.le h.net hstep.data⟩

theorem Inv.serverStep (h : Inv w st) {s' : Server} {sent : List Sent} (source : SocketAddr)
    (hstep : ServerStepOk w st.log s' sent) :
    Inv w { st with server := s', net := st.net ++ posts source sent } :=
  ⟨h.client.mono hstep.le rfl, hstep.inv, net_append hstep.le h.net hstep.data⟩

/-- The network rewrites a hello: nothing is claimed of hellos then. -/
theorem Inv.rewrite (h : Inv w st) (hdishonest : ¬w.honest) {packet : NetPacket} {view : PacketView}
    (hpacket : packet ∈ st.net) (hdecode : PacketView.decode packet.data = .ok view) {payload : Bytes}
    (hsize : payload.length ≤ maxPayloadSize)
    (hkey : view.header.msgType ≠ MessageType.handshakeKeyExchange.code)
    (hconfirm : view.header.msgType ≠ MessageType.handshakeSessionConfirm.code) :
    Inv w { st with
      net := st.net ++ [{ packet with data := Packet.bytes view.header payload }] } := by
  refine ⟨h.client, h.server, fun found hfound => ?_⟩
  rcases List.mem_append.mp hfound with hold | hnew
  · exact h.net found hold
  · rw [List.mem_singleton.mp hnew]
    obtain ⟨header, sent, hdata, hversion, hsent, -⟩ := h.net packet hpacket
    rw [hdata, PacketView.decode_bytes header sent hversion hsent] at hdecode
    cases hdecode
    exact ⟨header, payload, rfl, hversion, hsize, fun hhonest => absurd hhonest hdishonest,
      fun hhonest => absurd hhonest hdishonest, fun htype => absurd htype hkey,
      fun htype => absurd htype hconfirm⟩

theorem Inv.step (h : Inv w st) {label : Label} (hstep : Step setup st label st')
    (hsuite : setup.suite = w.suite) (hhonest : w.honest → label = .party) : Inv w st' := by
  cases hstep with
  | client env event harrives =>
    rw [hsuite]
    exact h.clientStep _ (h.client.step env (h.eventOk harrives))
  | server rand env event harrives =>
    rw [hsuite]
    exact h.serverStep _ (h.server.step rand env (h.eventOk harrives))
  | clientTimesOut => simpa [posts] using h.clientStep setup.clientAddr h.client.timesOut
  | serverTimesOut => simpa [posts] using h.serverStep setup.serverAddr h.server.timesOut
  | rewriteClientHello hello hpacket hdecode htype =>
    have hdishonest : ¬w.honest := fun hyes => by cases hhonest hyes
    refine h.rewrite hdishonest hpacket hdecode ?_ ?_ ?_
    · rw [ClientHello.length_bytes]
      decide
    · rw [htype]
      decide
    · rw [htype]
      decide
  | rewriteServerHello hello hpacket hdecode htype =>
    have hdishonest : ¬w.honest := fun hyes => by cases hhonest hyes
    refine h.rewrite hdishonest hpacket hdecode ?_ ?_ ?_
    · rw [ServerHello.length_bytes]
      decide
    · rw [htype]
      decide
    · rw [htype]
      decide

def State.world (st : State) (setup : Setup) (honest : Prop) : World :=
  ⟨setup.suite, honest, st.client, st.server⟩

theorem inv_start (hstart : Start st) (honest : Prop) : Inv (st.world setup honest) st := by
  have hlog : st.log = ⟨none, [], []⟩ := by
    simp only [State.log, hstart.committed, hstart.offers, hstart.accepted]
  refine ⟨⟨rfl, rfl, rfl, rfl, fun _ hcommitted => ?_, ?_⟩,
    ⟨rfl, rfl, rfl, fun _ hoffer => ?_, fun _ hoffer => ?_, ?_⟩, fun packet hpacket => ?_⟩
  · rw [hlog] at hcommitted
    cases hcommitted
  · rw [hstart.client, hlog]
    rfl
  · rw [hlog] at hoffer
    cases hoffer
  · rw [hlog] at hoffer
    cases hoffer
  · rw [hstart.server]
    cases st.server.mode <;> trivial
  · rw [hstart.net] at hpacket
    cases hpacket

/-- Every state of a run, over a network that leaves the hellos alone or one that does not. -/
theorem inv_reaches {honest : Prop} {allowed : State → Label → Prop} (hstart : Start st)
    (hallowed : ∀ u label, allowed u label → honest → label = .party)
    (hrun : Reaches (Step setup) allowed st st') : Inv (st.world setup honest) st' :=
  hrun.invariant (inv_start hstart honest)
    (fun u label _ hinv hstep hok => hinv.step hstep rfl (hallowed u label hok))

end Whole

end GravitalTalk.Transport.Handshake
