import GravitalTalk.Transport.HandshakeInvariant

/-! A run of the handshake that completes: each datagram arrives once, at once, and no send fails.
The hello each side reads may be another than the one sent, as long as both derive the same secrets
from what they read. -/
namespace GravitalTalk.Transport.Handshake
open Lib GravitalTalk.Core Transition

def quietEnv : Env := ⟨0, 0, fun data _ => .ok data.length⟩

theorem quietEnv_accepts : quietEnv.Accepts := fun data _ => ⟨data.length, rfl⟩

def Posted (st : State) (source dest : SocketAddr) (msg : MessageType) (payload : Bytes) : Prop :=
  ∃ header : PacketHeader, header.version = protocolVersion ∧ header.msgType = msg.code ∧
    ⟨source, dest, Packet.bytes header payload⟩ ∈ st.net

theorem Posted.decodes {st : State} {source dest : SocketAddr} {msg : MessageType} {payload : Bytes}
    (h : Posted st source dest msg payload) (hsize : payload.length ≤ maxPayloadSize) :
    ∃ header : PacketHeader, header.version = protocolVersion ∧ header.msgType = msg.code ∧
      ⟨source, dest, Packet.bytes header payload⟩ ∈ st.net ∧
      PacketView.decode (Packet.bytes header payload) = .ok ⟨header, payload⟩ := by
  obtain ⟨header, hversion, htype, hmem⟩ := h
  exact ⟨header, hversion, htype, hmem, PacketView.decode_bytes header payload hversion hsize⟩

theorem Posted.arrives {st : State} {source dest : SocketAddr} {msg : MessageType} {payload : Bytes}
    (h : Posted st source dest msg payload) (session : Session)
    (hsize : payload.length ≤ maxPayloadSize)
    (hmtu : headerSize + payload.length + 4 ≤ session.config.mtu) :
    ∃ datagram header, Arrives st.net dest (.datagram datagram) ∧ datagram.source = source ∧
      header.msgType = msg.code ∧ received session datagram = .ok ⟨header, payload⟩ := by
  obtain ⟨header, -, htype, hmem, hdecode⟩ := h.decodes hsize
  refine ⟨⟨Packet.bytes header payload, source⟩, header, hmem, rfl, htype, ?_⟩
  rw [received, List.take_of_length_le (by rw [Packet.length_bytes]; omega)]
  exact hdecode

/-- Only the sequence counter and the metrics may differ. -/
def Like (s s' : Session) : Prop :=
  ∃ txSequence metrics, s' = { s with txSequence := txSequence, metrics := metrics }

theorem Like.config {s s' : Session} (h : Like s s') : s'.config = s.config := by
  obtain ⟨txSequence, metrics, rfl⟩ := h
  rfl

theorem Like.closed {s s' : Session} (h : Like s s') : s'.closed = s.closed := by
  obtain ⟨txSequence, metrics, rfl⟩ := h
  rfl

theorem Client.sends_sent (c : Client) (env : Env) (msg : MessageType) (sessionId : UInt32)
    (payload : Bytes) (next : ClientPc) : (c.sends env msg sessionId (.ok payload) next).2 =
      (c.session.sendControl env msg sessionId payload c.peer).2.2 := by
  simp only [Client.sends]
  split
  next hsend => rw [hsend]
  next hsend => rw [hsend]

theorem Server.sends_sent (s : Server) (env : Env) (msg : MessageType) (sessionId : UInt32)
    (payload : Bytes) (peer : SocketAddr) (next : ServerPc) :
    (s.sends env msg sessionId (.ok payload) peer next).2 =
      (s.session.sendControl env msg sessionId payload peer).2.2 := by
  simp only [Server.sends]
  split
  next hsend => rw [hsend]
  next hsend => rw [hsend]

theorem sendControl_like (session : Session) {env : Env} (haccepts : env.Accepts) (msg : MessageType)
    (sessionId : UInt32) {payload : Bytes} (peer : SocketAddr)
    (hsize : payload.length ≤ maxPayloadSize)
    (hmtu : headerSize + payload.length + 4 ≤ session.config.mtu) :
    ∃ after header, session.sendControl env msg sessionId payload peer =
        (.ok (), after, [⟨Packet.bytes header payload, peer⟩]) ∧
      Like session after ∧ header.version = protocolVersion ∧ header.msgType = msg.code := by
  obtain ⟨metrics, hsend⟩ := session.sendControl_accepted haccepts msg sessionId peer hsize hmtu
  exact ⟨_, _, hsend, ⟨session.txSequence + 1, metrics, rfl⟩, rfl, rfl⟩

theorem Client.sends_ok (c : Client) {env : Env} (haccepts : env.Accepts) (msg : MessageType)
    (sessionId : UInt32) {payload : Bytes} (next : ClientPc)
    (hsize : payload.length ≤ maxPayloadSize)
    (hmtu : headerSize + payload.length + 4 ≤ c.session.config.mtu) :
    ∃ after header, c.sends env msg sessionId (.ok payload) next =
        ({ c with session := after, pc := next }, [⟨Packet.bytes header payload, c.peer⟩]) ∧
      Like c.session after ∧ header.version = protocolVersion ∧ header.msgType = msg.code := by
  obtain ⟨after, header, hsend, hlike⟩ :=
    sendControl_like c.session haccepts msg sessionId c.peer hsize hmtu
  refine ⟨after, header, ?_, hlike⟩
  simp only [Client.sends, hsend]

theorem Server.sends_ok (s : Server) {env : Env} (haccepts : env.Accepts) (msg : MessageType)
    (sessionId : UInt32) {payload : Bytes} (peer : SocketAddr) (next : ServerPc)
    (hsize : payload.length ≤ maxPayloadSize)
    (hmtu : headerSize + payload.length + 4 ≤ s.session.config.mtu) :
    ∃ after header, s.sends env msg sessionId (.ok payload) peer next =
        ({ s with session := after, pc := next }, [⟨Packet.bytes header payload, peer⟩]) ∧
      Like s.session after ∧ header.version = protocolVersion ∧ header.msgType = msg.code := by
  obtain ⟨after, header, hsend, hlike⟩ :=
    sendControl_like s.session haccepts msg sessionId peer hsize hmtu
  refine ⟨after, header, ?_, hlike⟩
  simp only [Server.sends, hsend]

theorem Client.checkServerHello_bytes {config : Config} {shown : ServerHello}
    (hversion : shown.protocolVersion = protocolVersion)
    (hcodec : shown.codecAccepted ∈ config.supportedCodecs) :
    Client.checkServerHello config shown.bytes = .ok shown := by
  have hinside : ¬(shown.protocolVersion < protocolVersionMin ∨
      shown.protocolVersion > protocolVersionMax) := by
    rw [hversion]
    decide
  simp [Client.checkServerHello, ServerHello.decode_bytes, hinside, hcodec]

theorem Client.onHello_commits {c : Client} {attempt : UInt32} {datagram : Datagram}
    {view : PacketView} {shown : ServerHello} (hsource : datagram.source = c.peer)
    (hreceived : received c.session datagram = .ok view)
    (htype : view.header.msgType = MessageType.handshakeServerHello.code)
    (hcheck : Client.checkServerHello c.session.config view.payload = .ok shown) :
    c.onHello attempt (.datagram datagram) =
      { c with pc := .sendKeyExchange shown, committed := some shown } := by
  simp only [Client.onHello, hsource, hreceived, htype, hcheck, ne_eq, not_true_eq_false, if_false]

section ServerReads
variable {suite : Suite} {rand : Rand} {env : Env} {s : Server} {datagram : Datagram}
  {view : PacketView}

theorem Server.step_offers {hello : ClientHello} {codec : UInt8} (hpc : s.pc = .awaitHello)
    (hmode : s.mode = .fixed datagram.source) (hreceived : received s.session datagram = .ok view)
    (htype : view.header.msgType = MessageType.handshakeClientHello.code)
    (hdecode : ClientHello.decode view.payload = .ok hello)
    (hversion : ¬hello.protocolVersion < protocolVersionMin)
    (hcodec : Server.chooseCodec s.session.config hello.codecPreferred = .ok codec) :
    let offer : Offer := ⟨datagram.source, hello, rand.secret,
      Server.serverHello suite s.session.config hello rand codec⟩
    s.step suite rand env (.datagram datagram) =
      ({ s with
        session := { s.session with sessionId := rand.sessionId, negotiatedCodec := codec }
        pc := .sendHello offer
        offers := s.offers ++ [offer] }, []) := by
  simp only [Server.step, hpc, hmode, Server.onHelloFrom, hreceived, htype, hdecode,
    Server.negotiates, hversion, hcodec, ne_eq, not_true_eq_false, if_false]

variable {offer : Offer}

theorem Server.step_repeats (hpc : s.pc = .awaitKeyExchange offer)
    (hsource : datagram.source = offer.peer) (hreceived : received s.session datagram = .ok view)
    (htype : view.header.msgType = MessageType.handshakeClientHello.code) :
    s.step suite rand env (.datagram datagram) = ({ s with pc := .resendHello offer }, []) := by
  simp only [Server.step, hpc, Server.onKeyExchange, hsource, hreceived, htype, ne_eq,
    not_true_eq_false, if_false, if_true]

theorem Server.step_accepts {msg : KeyExchangeMsg} (hpc : s.pc = .awaitKeyExchange offer)
    (hsource : datagram.source = offer.peer) (hreceived : received s.session datagram = .ok view)
    (htype : view.header.msgType = MessageType.handshakeKeyExchange.code)
    (hdecode : KeyExchangeMsg.decode view.payload = .ok msg)
    (hid : msg.sessionId = offer.serverHello.sessionId)
    (htag : constantTimeEq msg.authTag ((offer.secrets suite).clientTag suite) = true) :
    s.step suite rand env (.datagram datagram) =
      ({ s with pc := .sendConfirm offer, accepted := s.accepted ++ [offer] }, []) := by
  have hother : MessageType.handshakeKeyExchange.code ≠ MessageType.handshakeClientHello.code := by
    decide
  simp only [Server.step, hpc, Server.onKeyExchange, hsource, hreceived, htype, hother, hdecode, hid,
    htag, ne_eq, not_true_eq_false, if_false, Bool.not_true, Bool.false_eq_true]

end ServerReads

/-- What a client, and what a server, keeps all along. -/
structure SameClient (c c' : Client) : Prop where
  secret : c'.secret = c.secret
  nonce : c'.nonce = c.nonce
  peer : c'.peer = c.peer
  config : c'.session.config = c.session.config

structure SameServer (s s' : Server) : Prop where
  mode : s'.mode = s.mode
  config : s'.session.config = s.session.config
  closed : s'.session.closed = s.session.closed

structure Stage (setup : Setup) (allowed : State → Label → Prop) (start st : State)
    (clientPc : ClientPc) (serverPc : ServerPc) (committed : Option ServerHello)
    (offers : List Offer) : Prop where
  run : Reaches (Step setup) allowed start st
  clientPc : st.client.pc = clientPc
  serverPc : st.server.pc = serverPc
  committed : st.client.committed = committed
  offers : st.server.offers = offers
  client : SameClient start.client st.client
  server : SameServer start.server st.server

section Stages
variable {setup : Setup} {allowed : State → Label → Prop} {start st : State} {clientPc : ClientPc}
  {serverPc : ServerPc} {committed : Option ServerHello} {offers : List Offer}
  (hparty : ∀ u, allowed u .party)
include hparty

theorem Stage.clientMoves (h : Stage setup allowed start st clientPc serverPc committed offers)
    (event : RecvEvent) (harrives : Arrives st.net setup.clientAddr event) {c : Client}
    {sent : List Sent} (hstep : st.client.step setup.suite quietEnv event = (c, sent))
    (hsame : SameClient st.client c) {next : ClientPc} (hpc : c.pc = next)
    {committed' : Option ServerHello} (hcommitted : c.committed = committed') :
    Stage setup allowed start { st with client := c, net := st.net ++ posts setup.clientAddr sent }
      next serverPc committed' offers := by
  have hmove : Step setup st .party
      { st with client := c, net := st.net ++ posts setup.clientAddr sent } := by
    have hany := @Step.client setup st quietEnv event harrives
    rwa [hstep] at hany
  exact ⟨h.run.tail hmove (hparty st), hpc, h.serverPc, hcommitted, h.offers,
    ⟨hsame.secret.trans h.client.secret, hsame.nonce.trans h.client.nonce,
      hsame.peer.trans h.client.peer, hsame.config.trans h.client.config⟩, h.server⟩

theorem Stage.serverMoves (h : Stage setup allowed start st clientPc serverPc committed offers)
    (rand : Rand) (event : RecvEvent) (harrives : Arrives st.net setup.serverAddr event) {s : Server}
    {sent : List Sent} (hstep : st.server.step setup.suite rand quietEnv event = (s, sent))
    (hsame : SameServer st.server s) {next : ServerPc} (hpc : s.pc = next) {offers' : List Offer}
    (hoffers : s.offers = offers') :
    Stage setup allowed start { st with server := s, net := st.net ++ posts setup.serverAddr sent }
      clientPc next committed offers' := by
  have hmove : Step setup st .party
      { st with server := s, net := st.net ++ posts setup.serverAddr sent } := by
    have hany := @Step.server setup st rand quietEnv event harrives
    rwa [hstep] at hany
  exact ⟨h.run.tail hmove (hparty st), h.clientPc, hpc, h.committed, hoffers, h.client,
    ⟨hsame.mode.trans h.server.mode, hsame.config.trans h.server.config,
      hsame.closed.trans h.server.closed⟩⟩

omit hparty in
theorem posted_append {c : Client} {s : Server} {source dest : SocketAddr} {header : PacketHeader}
    {msg : MessageType} {payload : Bytes} (hversion : header.version = protocolVersion)
    (htype : header.msgType = msg.code) :
    Posted ⟨c, s, st.net ++ posts source [⟨Packet.bytes header payload, dest⟩]⟩ source dest msg
      payload :=
  ⟨header, hversion, htype, List.mem_append_right _ (List.mem_singleton_self _)⟩

omit hparty in
theorem Stage.hello (h : Stage setup allowed start st clientPc serverPc committed offers) :
    st.client.hello setup.suite = start.client.hello setup.suite := by
  simp only [Client.hello, h.client.secret, h.client.nonce, h.client.config]

omit hparty in
theorem Stage.secretsFor (h : Stage setup allowed start st clientPc serverPc committed offers)
    (serverHello : ServerHello) : st.client.secretsFor setup.suite serverHello =
      start.client.secretsFor setup.suite serverHello := by
  simp only [Client.secretsFor, h.client.secret, h.client.nonce]

theorem Stage.clientSends (h : Stage setup allowed start st clientPc serverPc committed offers)
    (hmtu : 112 ≤ start.client.session.config.mtu) (msg : MessageType) (sessionId : UInt32)
    (payload : Bytes) (hsize : payload.length ≤ 84) (next : ClientPc)
    (hstep : st.client.step setup.suite quietEnv .timeout =
      st.client.sends quietEnv msg sessionId (.ok payload) next) :
    ∃ st', Stage setup allowed start st' next serverPc committed offers ∧
      Posted st' setup.clientAddr start.client.peer msg payload := by
  have hfits : headerSize + payload.length + 4 ≤ st.client.session.config.mtu := by
    rw [h.client.config]
    exact le_trans (by simp only [headerSize]; omega) hmtu
  obtain ⟨after, header, hsends, hlike, hversion, htype⟩ :=
    st.client.sends_ok quietEnv_accepts msg sessionId next (le_trans hsize (by decide)) hfits
  rw [hsends, h.client.peer] at hstep
  exact ⟨_, h.clientMoves hparty .timeout trivial hstep
      ⟨rfl, rfl, h.client.peer.symm, hlike.config⟩ rfl h.committed,
    posted_append hversion htype⟩

theorem Stage.serverSends (h : Stage setup allowed start st clientPc serverPc committed offers)
    (hmtu : 112 ≤ start.server.session.config.mtu) (rand : Rand) (msg : MessageType)
    (sessionId : UInt32) (payload : Bytes) (hsize : payload.length ≤ 84) (peer : SocketAddr)
    (next : ServerPc) (hstep : st.server.step setup.suite rand quietEnv .timeout =
      st.server.sends quietEnv msg sessionId (.ok payload) peer next) :
    ∃ st', Stage setup allowed start st' clientPc next committed offers ∧
      Posted st' setup.serverAddr peer msg payload := by
  have hfits : headerSize + payload.length + 4 ≤ st.server.session.config.mtu := by
    rw [h.server.config]
    exact le_trans (by simp only [headerSize]; omega) hmtu
  obtain ⟨after, header, hsends, hlike, hversion, htype⟩ :=
    st.server.sends_ok quietEnv_accepts msg sessionId peer next (le_trans hsize (by decide)) hfits
  rw [hsends] at hstep
  exact ⟨_, h.serverMoves hparty rand .timeout trivial hstep
      ⟨rfl, hlike.config, hlike.closed⟩ rfl h.offers,
    posted_append hversion htype⟩

theorem Stage.serverOffers {peer : SocketAddr} {hello : ClientHello} {codec : UInt8}
    (h : Stage setup allowed start st clientPc .awaitHello committed offers)
    (hmode : start.server.mode = .fixed peer) (hmtu : 112 ≤ start.server.session.config.mtu)
    (hposted : Posted st peer setup.serverAddr .handshakeClientHello hello.bytes)
    (hversion : ¬hello.protocolVersion < protocolVersionMin)
    (hcodec : Server.chooseCodec start.server.session.config hello.codecPreferred = .ok codec)
    (rand : Rand) :
    let offer : Offer := ⟨peer, hello, rand.secret,
      Server.serverHello setup.suite start.server.session.config hello rand codec⟩
    ∃ st', Stage setup allowed start st' clientPc (.sendHello offer) committed
      (offers ++ [offer]) := by
  intro offer
  have hsize : hello.bytes.length = 80 := ClientHello.length_bytes _
  obtain ⟨datagram, header, harrives, hsource, htype, hreceived⟩ :=
    hposted.arrives st.server.session (by rw [hsize]; decide)
      (by rw [hsize, h.server.config]; exact le_trans (by decide) hmtu)
  have hstep := @Server.step_offers setup.suite rand quietEnv st.server datagram _ hello codec
    h.serverPc (by rw [h.server.mode, hmode, hsource]) hreceived htype
    (ClientHello.decode_bytes hello) hversion (by rw [h.server.config, hcodec])
  rw [hsource, h.server.config] at hstep
  exact ⟨_, h.serverMoves hparty rand _ harrives hstep ⟨rfl, rfl, rfl⟩ rfl (by rw [h.offers])⟩

theorem Stage.clientCommits {attempt : UInt32} {shown : ServerHello}
    (h : Stage setup allowed start st (.awaitHello attempt) serverPc committed offers)
    (hmtu : 112 ≤ start.client.session.config.mtu)
    (hposted : Posted st start.client.peer setup.clientAddr .handshakeServerHello shown.bytes)
    (hversion : shown.protocolVersion = protocolVersion)
    (hcodec : shown.codecAccepted ∈ start.client.session.config.supportedCodecs) :
    ∃ st', Stage setup allowed start st' (.sendKeyExchange shown) serverPc (some shown) offers := by
  have hsize : shown.bytes.length = 84 := ServerHello.length_bytes _
  obtain ⟨datagram, header, harrives, hsource, htype, hreceived⟩ :=
    hposted.arrives st.client.session (by rw [hsize]; decide)
      (by rw [hsize, h.client.config]; exact le_trans (by decide) hmtu)
  have hcheck := Client.checkServerHello_bytes hversion hcodec
  have hstep : st.client.step setup.suite quietEnv (.datagram datagram) =
      ({ st.client with pc := .sendKeyExchange shown, committed := some shown }, []) := by
    simp only [Client.step, h.clientPc, Client.onHello_commits (hsource.trans h.client.peer.symm)
      hreceived htype (h.client.config ▸ hcheck)]
  exact ⟨_, h.clientMoves hparty _ harrives hstep ⟨rfl, rfl, rfl, rfl⟩ rfl rfl⟩

theorem Stage.serverAccepts {offer : Offer}
    (h : Stage setup allowed start st clientPc (.keyTop offer) committed offers)
    (hmtu : 112 ≤ start.server.session.config.mtu) (hopen : start.server.session.closed = false)
    (hposted : Posted st offer.peer setup.serverAddr .handshakeKeyExchange
      (KeyExchangeMsg.bytes ⟨offer.serverHello.sessionId,
        (offer.secrets setup.suite).clientTag setup.suite⟩)) (rand : Rand) :
    ∃ st', Stage setup allowed start st' clientPc (.sendConfirm offer) committed offers := by
  set msg : KeyExchangeMsg :=
    ⟨offer.serverHello.sessionId, (offer.secrets setup.suite).clientTag setup.suite⟩ with hmsg
  have hsize : msg.bytes.length = 20 := length_taggedBytes _ _
  obtain ⟨datagram, header, harrives, hsource, htype, hreceived⟩ :=
    hposted.arrives st.server.session (by rw [hsize]; decide)
      (by rw [hsize, h.server.config]; exact le_trans (by decide) hmtu)
  have htop : st.server.step setup.suite rand quietEnv .timeout =
      ({ st.server with pc := .awaitKeyExchange offer }, []) := by
    simp [Server.step, h.serverPc, h.server.closed, hopen]
  have hwaits := h.serverMoves hparty rand .timeout trivial htop ⟨rfl, rfl, rfl⟩ rfl h.offers
  have hstep := @Server.step_accepts setup.suite rand quietEnv
    { st.server with pc := .awaitKeyExchange offer } datagram _ offer msg rfl hsource hreceived htype
    (KeyExchangeMsg.decode_bytes msg) rfl ((constantTimeEq_iff msg.authTag _).mpr rfl)
  exact ⟨_, hwaits.serverMoves hparty rand _ (by simpa [posts] using harrives) hstep
    ⟨rfl, rfl, rfl⟩ rfl h.offers⟩

theorem Stage.clientConfirms {shown : ServerHello}
    (h : Stage setup allowed start st (.awaitConfirm shown) serverPc committed offers)
    (hmtu : 112 ≤ start.client.session.config.mtu)
    (hposted : Posted st start.client.peer setup.clientAddr .handshakeSessionConfirm
      (SessionConfirm.bytes ⟨shown.sessionId,
        (start.client.secretsFor setup.suite shown).serverTag setup.suite⟩)) :
    ∃ st', Stage setup allowed start st' (.storeEncrypt shown) serverPc committed offers := by
  set msg : SessionConfirm :=
    ⟨shown.sessionId, (start.client.secretsFor setup.suite shown).serverTag setup.suite⟩ with hmsg
  have hsize : msg.bytes.length = 20 := length_taggedBytes _ _
  obtain ⟨datagram, header, harrives, hsource, htype, hreceived⟩ :=
    hposted.arrives st.client.session (by rw [hsize]; decide)
      (by rw [hsize, h.client.config]; exact le_trans (by decide) hmtu)
  have hequal := (constantTimeEq_iff msg.serverAuthTag _).mpr rfl
  have hstep : ∃ session, st.client.step setup.suite quietEnv (.datagram datagram) =
      ({ st.client with session := session, pc := .storeEncrypt shown }, []) ∧
        session.config = st.client.session.config := by
    simp only [Client.step, h.clientPc, Client.onConfirm, hsource, h.client.peer, hreceived, htype,
      SessionConfirm.decode_bytes, h.secretsFor, ne_eq, not_true_eq_false, if_false]
    rw [hmsg] at hequal ⊢
    simp only [not_true_eq_false, if_false, hequal, Bool.not_true, Bool.false_eq_true]
    exact ⟨_, rfl, rfl⟩
  obtain ⟨session, hstep, hconfig⟩ := hstep
  exact ⟨_, h.clientMoves hparty _ harrives hstep ⟨rfl, rfl, rfl, hconfig⟩ rfl h.committed⟩

theorem Stage.clientStores {shown : ServerHello}
    (h : Stage setup allowed start st (.storeEncrypt shown) serverPc committed offers) :
    ∃ st', Stage setup allowed start st' (.returned (.ok shown)) serverPc committed offers := by
  obtain ⟨c, hc⟩ : ∃ c, st.client.step setup.suite quietEnv .timeout = (c, []) ∧
      SameClient st.client c ∧ c.pc = .storeDecrypt shown ∧ c.committed = st.client.committed := by
    simp only [Client.step, h.clientPc]
    exact ⟨_, rfl, ⟨rfl, rfl, rfl, rfl⟩, rfl, rfl⟩
  obtain ⟨hfirst, hsame, hpc, hcommitted⟩ := hc
  have hstored := h.clientMoves hparty .timeout trivial hfirst hsame hpc (hcommitted.trans h.committed)
  obtain ⟨c', hc'⟩ : ∃ c', c.step setup.suite quietEnv .timeout = (c', []) ∧
      SameClient c c' ∧ c'.pc = .returned (.ok shown) ∧ c'.committed = c.committed := by
    simp only [Client.step, hpc]
    exact ⟨_, rfl, ⟨rfl, rfl, rfl, rfl⟩, rfl, rfl⟩
  obtain ⟨hsecond, hsame', hpc', hcommitted'⟩ := hc'
  exact ⟨_, hstored.clientMoves hparty .timeout trivial hsecond hsame' hpc'
    (hcommitted'.trans hstored.committed)⟩

theorem Stage.serverStores {offer : Offer} {peer : SocketAddr}
    (h : Stage setup allowed start st clientPc (.storeEncrypt offer) committed offers)
    (hmode : start.server.mode = .fixed peer) (rand : Rand) :
    ∃ st', Stage setup allowed start st' clientPc (.returned (.ok offer)) committed offers := by
  obtain ⟨s, hs⟩ : ∃ s, st.server.step setup.suite rand quietEnv .timeout = (s, []) ∧
      SameServer st.server s ∧ s.pc = .storeDecrypt offer ∧ s.offers = st.server.offers := by
    simp only [Server.step, h.serverPc]
    exact ⟨_, rfl, ⟨rfl, rfl, rfl⟩, rfl, rfl⟩
  obtain ⟨hfirst, hsame, hpc, hoffers⟩ := hs
  have hstored :=
    h.serverMoves hparty rand .timeout trivial hfirst hsame hpc (hoffers.trans h.offers)
  have hmode' : s.mode = .fixed peer := hstored.server.mode.trans hmode
  obtain ⟨s', hs'⟩ : ∃ s', s.step setup.suite rand quietEnv .timeout = (s', []) ∧
      SameServer s s' ∧ s'.pc = .returned (.ok offer) ∧ s'.offers = s.offers := by
    simp only [Server.step, hpc, Server.finishes, hmode']
    exact ⟨_, rfl, ⟨hmode'.symm, rfl, rfl⟩, rfl, rfl⟩
  obtain ⟨hsecond, hsame', hpc', hoffers'⟩ := hs'
  exact ⟨_, hstored.serverMoves hparty rand .timeout trivial hsecond hsame' hpc'
    (hoffers'.trans hstored.offers)⟩

end Stages

/-- A client and a server meant for each other.  The server draws `rand`, reads `heard` and takes
`codec`; the client reads `shown`. -/
structure Paired (setup : Setup) (rand : Rand) (codec : UInt8) (heard : ClientHello)
    (shown : ServerHello) (st : State) : Prop where
  start : Start st
  mode : st.server.mode = .fixed setup.clientAddr
  peer : st.client.peer = setup.serverAddr
  clientMtu : 112 ≤ st.client.session.config.mtu
  serverMtu : 112 ≤ st.server.session.config.mtu
  isOpen : st.server.session.closed = false
  heardNonce : heard.clientNonce = st.client.nonce
  heardVersion : ¬heard.protocolVersion < protocolVersionMin
  codec : Server.chooseCodec st.server.session.config heard.codecPreferred = .ok codec
  shownNonce : shown.serverNonce = rand.nonce
  shownId : shown.sessionId = rand.sessionId
  shownVersion : shown.protocolVersion = protocolVersion
  shownCodec : shown.codecAccepted ∈ st.client.session.config.supportedCodecs
  commutes : setup.suite.diffieHellman st.client.secret shown.ephemeralPublicKey =
    setup.suite.diffieHellman rand.secret heard.ephemeralPublicKey

def State.offer (st : State) (setup : Setup) (rand : Rand) (codec : UInt8) (heard : ClientHello) :
    Offer where
  peer := setup.clientAddr
  clientHello := heard
  secret := rand.secret
  serverHello := Server.serverHello setup.suite st.server.session.config heard rand codec

section Completes
variable {setup : Setup} {allowed : State → Label → Prop} {start st : State} {rand : Rand}
  {codec : UInt8} {heard : ClientHello} {shown : ServerHello} {clientPc : ClientPc}
  {serverPc : ServerPc} {committed : Option ServerHello} {offers : List Offer}

theorem Paired.secrets_eq (h : Paired setup rand codec heard shown start) :
    start.client.secretsFor setup.suite shown =
      (start.offer setup rand codec heard).secrets setup.suite := by
  simp only [Client.secretsFor, Offer.secrets, State.offer, Server.serverHello, h.commutes,
    h.shownNonce, h.shownId, h.heardNonce]

theorem Stage.rewritten {packet : NetPacket} {header : PacketHeader} {msg : MessageType}
    {payload : Bytes} (h : Stage setup allowed start st clientPc serverPc committed offers)
    (hversion : header.version = protocolVersion) (htype : header.msgType = msg.code)
    (hstep : Step setup st .rewrite
      { st with net := st.net ++ [{ packet with data := Packet.bytes header payload }] })
    (hrewrite : ∀ u, allowed u .rewrite) :
    ∃ st', Stage setup allowed start st' clientPc serverPc committed offers ∧
      Posted st' packet.source packet.dest msg payload :=
  ⟨_, ⟨h.run.tail hstep (hrewrite st), h.clientPc, h.serverPc, h.committed, h.offers, h.client,
    h.server⟩, header, hversion, htype, List.mem_append_right _ (List.mem_singleton_self _)⟩

theorem Stage.showsClientHello {sent : ClientHello} {source dest : SocketAddr}
    (h : Stage setup allowed start st clientPc serverPc committed offers)
    (hposted : Posted st source dest .handshakeClientHello sent.bytes)
    (hallowed : heard = sent ∨ ∀ u, allowed u .rewrite) :
    ∃ st', Stage setup allowed start st' clientPc serverPc committed offers ∧
      Posted st' source dest .handshakeClientHello heard.bytes := by
  rcases hallowed with rfl | hrewrite
  · exact ⟨st, h, hposted⟩
  · have hsize : sent.bytes.length ≤ maxPayloadSize := by
      rw [ClientHello.length_bytes]
      decide
    obtain ⟨header, hversion, htype, hmem, hdecode⟩ := hposted.decodes hsize
    exact h.rewritten hversion htype (Step.rewriteClientHello heard hmem hdecode htype) hrewrite

theorem Stage.showsServerHello {sent : ServerHello} {source dest : SocketAddr}
    (h : Stage setup allowed start st clientPc serverPc committed offers)
    (hposted : Posted st source dest .handshakeServerHello sent.bytes)
    (hallowed : shown = sent ∨ ∀ u, allowed u .rewrite) :
    ∃ st', Stage setup allowed start st' clientPc serverPc committed offers ∧
      Posted st' source dest .handshakeServerHello shown.bytes := by
  rcases hallowed with rfl | hrewrite
  · exact ⟨st, h, hposted⟩
  · have hsize : sent.bytes.length ≤ maxPayloadSize := by
      rw [ServerHello.length_bytes]
      decide
    obtain ⟨header, hversion, htype, hmem, hdecode⟩ := hposted.decodes hsize
    exact h.rewritten hversion htype (Step.rewriteServerHello shown hmem hdecode htype) hrewrite

theorem Paired.opens (h : Paired setup rand codec heard shown start) (hparty : ∀ u, allowed u .party)
    (hallowed : heard = start.client.hello setup.suite ∨ ∀ u, allowed u .rewrite) :
    ∃ st, Stage setup allowed start st (.awaitHello 0)
        (.keyTop (start.offer setup rand codec heard)) none [start.offer setup rand codec heard] ∧
      Posted st setup.serverAddr setup.clientAddr .handshakeServerHello
        (start.offer setup rand codec heard).serverHello.bytes := by
  have hserverPc : start.server.pc = .awaitHello := by
    rw [h.start.server, h.mode]
  have hbegin : Stage setup allowed start start (.sendHello 0) .awaitHello none [] :=
    ⟨.refl start, h.start.client, hserverPc, h.start.committed, h.start.offers, ⟨rfl, rfl, rfl, rfl⟩,
      ⟨rfl, rfl, rfl⟩⟩
  obtain ⟨st₁, h₁, hposted₁⟩ := hbegin.clientSends hparty h.clientMtu .handshakeClientHello 0
    (start.client.hello setup.suite).bytes (by rw [ClientHello.length_bytes]; decide)
    (.awaitHello 0) (by simp only [Client.step, hbegin.clientPc, encoded_clientHello])
  rw [h.peer] at hposted₁
  obtain ⟨st₂, h₂, hposted₂⟩ := h₁.showsClientHello hposted₁ hallowed
  obtain ⟨st₃, h₃⟩ := h₂.serverOffers hparty h.mode h.serverMtu hposted₂ h.heardVersion h.codec rand
  exact h₃.serverSends hparty h.serverMtu rand .handshakeServerHello rand.sessionId
    (start.offer setup rand codec heard).serverHello.bytes (by rw [ServerHello.length_bytes]; decide)
    setup.clientAddr (.keyTop (start.offer setup rand codec heard))
    (by simp only [Server.step, h₃.serverPc, Server.sendsHello, encoded_serverHello]; rfl)

/-- Both calls return `Ok`. -/
theorem Paired.completes (h : Paired setup rand codec heard shown start)
    (hparty : ∀ u, allowed u .party)
    (hallowed : (heard = start.client.hello setup.suite ∧
      shown = (start.offer setup rand codec heard).serverHello) ∨ ∀ u, allowed u .rewrite) :
    ∃ st, Stage setup allowed start st (.returned (.ok shown))
      (.returned (.ok (start.offer setup rand codec heard))) (some shown)
      [start.offer setup rand codec heard] := by
  have hsecrets := h.secrets_eq
  obtain ⟨st₁, h₁, hposted₁⟩ := h.opens hparty (hallowed.imp_left And.left)
  obtain ⟨st₂, h₂, hposted₂⟩ := h₁.showsServerHello hposted₁ (hallowed.imp_left And.right)
  rw [← h.peer] at hposted₂
  obtain ⟨st₃, h₃⟩ := h₂.clientCommits hparty h.clientMtu hposted₂ h.shownVersion h.shownCodec
  obtain ⟨st₄, h₄, hposted₄⟩ := h₃.clientSends hparty h.clientMtu .handshakeKeyExchange shown.sessionId
    (taggedBytes shown.sessionId ((start.client.secretsFor setup.suite shown).clientTag setup.suite))
    (by rw [length_taggedBytes]; decide) (.awaitConfirm shown)
    (by simp only [Client.step, h₃.clientPc, KeyExchangeMsg.encode, KeyExchangeMsg.size,
      encoded_tagged, h₃.secretsFor])
  rw [h.peer, hsecrets, h.shownId] at hposted₄
  obtain ⟨st₅, h₅⟩ := h₄.serverAccepts hparty h.serverMtu h.isOpen hposted₄ rand
  obtain ⟨st₆, h₆, hposted₆⟩ := h₅.serverSends hparty h.serverMtu rand .handshakeSessionConfirm
    rand.sessionId
    (taggedBytes rand.sessionId
      (((start.offer setup rand codec heard).secrets setup.suite).serverTag setup.suite))
    (by rw [length_taggedBytes]; decide) setup.clientAddr
    (.storeEncrypt (start.offer setup rand codec heard))
    (by simp only [Server.step, h₅.serverPc, SessionConfirm.encode, SessionConfirm.size,
      encoded_tagged]; rfl)
  rw [← h.peer, ← hsecrets, ← h.shownId] at hposted₆
  obtain ⟨st₇, h₇⟩ := h₆.clientConfirms hparty h.clientMtu hposted₆
  obtain ⟨st₈, h₈⟩ := h₇.clientStores hparty
  exact h₈.serverStores hparty h.mode rand

end Completes

end GravitalTalk.Transport.Handshake
