import GravitalTalk.Lib.Transition
import GravitalTalk.Transport.KeySchedule
import GravitalTalk.Transport.Receive

/-! The four-way handshake as two machines over a network.

    client                          server
      ClientHello        ----->
                         <-----      ServerHello
      KeyExchange        ----->
                         <-----      SessionConfirm

A place of a machine is an await of the code, and a step runs to the next one.  The network keeps
every datagram ever sent and may deliver each any number of times, in any order, or never. -/
namespace GravitalTalk.Transport.Handshake
open Lib GravitalTalk.Core Transition

/-- The bytes a message leaves in its zeroed array. -/
def encoded : Except Error Unit × Bytes → Except TransportError Bytes
  | (.error e, _) => .error (.protocol e)
  | (.ok (), buf) => .ok buf

def received (session : Session) (datagram : Datagram) : Except Error PacketView :=
  PacketView.decode (datagram.data.take session.config.mtu)

def saturatingSucc (n : UInt32) : UInt32 := if n = 0xFFFFFFFF then n else n + 1

inductive ClientPc where
  | sendHello (attempt : UInt32)
  | awaitHello (attempt : UInt32)
  | sendKeyExchange (serverHello : ServerHello)
  | awaitConfirm (serverHello : ServerHello)
  | storeEncrypt (serverHello : ServerHello)
  | storeDecrypt (serverHello : ServerHello)
  /-- An `Ok` has the ServerHello it rests on beside it. -/
  | returned (result : Except TransportError ServerHello)

structure Client where
  session : Session
  peer : SocketAddr
  secret : Key32
  nonce : Key32
  pc : ClientPc
  /-- The ServerHello the client went on with, for good. -/
  committed : Option ServerHello

namespace Client

def hello (self : Client) (suite : Suite) : ClientHello where
  ephemeralPublicKey := suite.publicKey self.secret
  clientNonce := self.nonce
  protocolVersion := protocolVersionMax
  codecPreferred := self.session.config.codecPreferred
  sampleRate := self.session.config.sampleRate
  channels := self.session.config.channels
  frameDurationMs := self.session.config.frameDurationMs
  maxBitrate := self.session.config.maxBitrate
  capabilityFlags := self.session.config.capabilityFlags

def secretsFor (self : Client) (suite : Suite) (serverHello : ServerHello) : Secrets where
  shared := suite.diffieHellman self.secret serverHello.ephemeralPublicKey
  transcript := buildTranscript self.nonce serverHello.serverNonce serverHello.sessionId

/-- A `send_control` that ends the call if it fails. -/
def sends (self : Client) (env : Env) (msg : MessageType) (sessionId : UInt32)
    (payload : Except TransportError Bytes) (next : ClientPc) : Client × List Sent :=
  match payload with
  | .error e => ({ self with pc := .returned (.error e) }, [])
  | .ok payload =>
    match self.session.sendControl env msg sessionId payload self.peer with
    | (.error e, session, sent) => ({ self with session := session, pc := .returned (.error e) }, sent)
    | (.ok (), session, sent) => ({ self with session := session, pc := next }, sent)

def checkServerHello (config : Config) (payload : Bytes) : Except TransportError ServerHello :=
  match ServerHello.decode payload with
  | .error e => .error (.protocol e)
  | .ok serverHello =>
    let negVer := serverHello.protocolVersion
    if negVer < protocolVersionMin ∨ negVer > protocolVersionMax then
      .error (.handshake "version negotiation failed: out of range")
    else if !config.supportedCodecs.contains serverHello.codecAccepted then
      .error (.handshake "server selected unsupported codec")
    else .ok serverHello

/-- A wait for the ServerHello.  A datagram that is not one goes on to the next attempt without a
look at the limit. -/
def onHello (self : Client) (attempt : UInt32) : RecvEvent → Client
  | .datagram datagram =>
    let again := { self with pc := .sendHello (saturatingSucc attempt) }
    if datagram.source ≠ self.peer then again
    else
      match received self.session datagram with
      | .error _ => again
      | .ok view =>
        if view.header.msgType ≠ MessageType.handshakeServerHello.code then again
        else
          match checkServerHello self.session.config view.payload with
          | .error e => { self with pc := .returned (.error e) }
          | .ok serverHello =>
            { self with pc := .sendKeyExchange serverHello, committed := some serverHello }
  | .failed _ | .timeout =>
    let attempt := saturatingSucc attempt
    if attempt > 6 then { self with pc := .returned (.error (.handshake "client retries exhausted")) }
    else { self with pc := .sendHello attempt }

/-- `recv_session_confirm` with the check of the tag after it. -/
def onConfirm (self : Client) (suite : Suite) (serverHello : ServerHello) : RecvEvent → Client
  | .timeout => self
  | .failed e => { self with pc := .returned (.error e) }
  | .datagram datagram =>
    if datagram.source ≠ self.peer then self
    else
      match received self.session datagram with
      | .error _ => self
      | .ok view =>
        if view.header.msgType ≠ MessageType.handshakeSessionConfirm.code then self
        else
          match SessionConfirm.decode view.payload with
          | .error e => { self with pc := .returned (.error (.protocol e)) }
          | .ok confirm =>
            let secrets := self.secretsFor suite serverHello
            if confirm.sessionId ≠ serverHello.sessionId then
              { self with pc := .returned (.error (.handshake "session_id mismatch in confirm")) }
            else if !constantTimeEq confirm.serverAuthTag (secrets.serverTag suite) then
              { self with
                pc := .returned (.error (.authenticationFailed "server auth tag mismatch")) }
            else
              { self with
                session :=
                  { self.session with
                    sessionId := serverHello.sessionId
                    localSsrc := serverHello.sessionId ^^^
                      fromBe32 ((secrets.keys suite).1.toList.take 4)
                    negotiatedCodec := serverHello.codecAccepted }
                pc := .storeEncrypt serverHello }

def step (self : Client) (suite : Suite) (env : Env) (event : RecvEvent) : Client × List Sent :=
  match self.pc with
  | .sendHello attempt =>
    self.sends env .handshakeClientHello 0
      (encoded ((self.hello suite).encode (List.replicate ClientHello.size 0))) (.awaitHello attempt)
  | .awaitHello attempt => (self.onHello attempt event, [])
  | .sendKeyExchange serverHello =>
    let ke : KeyExchangeMsg :=
      ⟨serverHello.sessionId, (self.secretsFor suite serverHello).clientTag suite⟩
    self.sends env .handshakeKeyExchange serverHello.sessionId
      (encoded (ke.encode (List.replicate KeyExchangeMsg.size 0))) (.awaitConfirm serverHello)
  | .awaitConfirm serverHello => (self.onConfirm suite serverHello event, [])
  | .storeEncrypt serverHello =>
    let key := ((self.secretsFor suite serverHello).keys suite).1
    ({ self with
      session := { self.session with encryptKey := some key }
      pc := .storeDecrypt serverHello }, [])
  | .storeDecrypt serverHello =>
    let key := ((self.secretsFor suite serverHello).keys suite).2
    ({ self with
      session := { self.session with decryptKey := some key }
      pc := .returned (.ok serverHello) }, [])
  | .returned _ => (self, [])

/-- The deadline of `handshake` drops the call at an await. -/
def timesOut (self : Client) : Client :=
  match self.pc with
  | .returned _ => self
  | _ => { self with pc := .returned (.error .timeout) }

end Client

inductive Mode where
  /-- `handshake_server` with the peer it was given. -/
  | fixed (peer : SocketAddr)
  /-- `handshake_open`: `handshake_server_any`, again and again. -/
  | anyPeer

/-- What one attempt of the server has settled once it answers a ClientHello. -/
structure Offer where
  peer : SocketAddr
  clientHello : ClientHello
  secret : Key32
  serverHello : ServerHello
  deriving DecidableEq

namespace Offer

def secrets (self : Offer) (suite : Suite) : Secrets where
  shared := suite.diffieHellman self.secret self.clientHello.ephemeralPublicKey
  transcript := buildTranscript self.clientHello.clientNonce self.serverHello.serverNonce
    self.serverHello.sessionId

end Offer

structure Rand where
  secret : Key32
  nonce : Key32
  sessionId : UInt32

inductive ServerPc where
  | attempt
  /-- The top of the first loop of `handshake_server_any`, where it looks at `closed`. -/
  | helloTop
  | awaitHello
  | sendHello (offer : Offer)
  /-- The top of the second loop, where both servers look at `closed`. -/
  | keyTop (offer : Offer)
  | awaitKeyExchange (offer : Offer)
  | resendHello (offer : Offer)
  | sendConfirm (offer : Offer)
  | storeEncrypt (offer : Offer)
  | storeDecrypt (offer : Offer)
  | returned (result : Except TransportError Offer)

structure Server where
  session : Session
  mode : Mode
  pc : ServerPc
  offers : List Offer
  /-- The offers whose KeyExchange was accepted. -/
  accepted : List Offer

namespace Server

/-- An attempt of `handshake_open` failed: the state machine goes once round and the peer is
forgotten. -/
def retries (self : Server) : Server :=
  let state := (self.session.state.transition .handshakeTimeout).2
  let state := (state.transition .reconnect).2
  let state := (state.transition .startAccept).2
  { self with session := { self.session with state := state, peer := none }, pc := .attempt }

def closes (self : Server) : Server :=
  { self with
    session := { self.session with state := (self.session.state.transition .close).2 }
    pc := .returned (.error (.peerClosed "session closed")) }

/-- The server function returns: `handshake_open` looks at its result. -/
def finishes (self : Server) (result : Except TransportError Offer) : Server :=
  match self.mode with
  | .fixed _ => { self with pc := .returned result }
  | .anyPeer =>
    match result with
    | .ok offer =>
      match self.session.state.transition .handshakeOk with
      | (.error _, _) => { self with pc := .returned (.error (.invalidState "handshake_ok")) }
      | (.ok _, state) =>
        { self with session := { self.session with state := state }, pc := .returned (.ok offer) }
    | .error (.peerClosed _) => self.closes
    | .error _ => self.retries

def chooseCodec (config : Config) (preferred : UInt8) : Except TransportError UInt8 :=
  if config.supportedCodecs.contains preferred then .ok preferred
  else
    match config.supportedCodecs.head? with
    | some codec => .ok codec
    | none => .error (.handshake "no supported codecs configured")

def serverHello (suite : Suite) (config : Config) (clientHello : ClientHello) (rand : Rand)
    (codec : UInt8) : ServerHello where
  ephemeralPublicKey := suite.publicKey rand.secret
  serverNonce := rand.nonce
  sessionId := rand.sessionId
  protocolVersion := min clientHello.protocolVersion protocolVersionMax
  codecAccepted := codec
  sampleRate := clientHello.sampleRate
  channels := clientHello.channels
  frameDurationMs := clientHello.frameDurationMs
  maxBitrate := min clientHello.maxBitrate config.maxBitrate
  capabilityFlags := clientHello.capabilityFlags &&& config.capabilityFlags

/-- From the ClientHello to the ServerHello: the session id is stored before the codec is chosen,
and the codec before anything is sent. -/
def negotiates (self : Server) (suite : Suite) (rand : Rand) (clientHello : ClientHello)
    (peer : SocketAddr) : Server :=
  if clientHello.protocolVersion < protocolVersionMin then
    self.finishes (.error (.handshake "version negotiation failed: client version too old"))
  else
    let self := { self with session := { self.session with sessionId := rand.sessionId } }
    match chooseCodec self.session.config clientHello.codecPreferred with
    | .error e => self.finishes (.error e)
    | .ok codec =>
      let offer : Offer :=
        ⟨peer, clientHello, rand.secret,
          serverHello suite self.session.config clientHello rand codec⟩
      { self with
        session := { self.session with negotiatedCodec := codec }
        pc := .sendHello offer
        offers := self.offers ++ [offer] }

def onHelloFrom (self : Server) (suite : Suite) (rand : Rand) (peer : SocketAddr) :
    RecvEvent → Server
  | .timeout => self
  | .failed e => self.finishes (.error e)
  | .datagram datagram =>
    if datagram.source ≠ peer then self
    else
      match received self.session datagram with
      | .error _ => self
      | .ok view =>
        if view.header.msgType ≠ MessageType.handshakeClientHello.code then self
        else
          match ClientHello.decode view.payload with
          | .error e => self.finishes (.error (.protocol e))
          | .ok clientHello => self.negotiates suite rand clientHello peer

/-- A wait of `handshake_server_any` for the ClientHello: the source becomes the peer. -/
def onHelloAny (self : Server) (suite : Suite) (rand : Rand) : RecvEvent → Server
  | .timeout => { self with pc := .helloTop }
  | .failed e => self.finishes (.error e)
  | .datagram datagram =>
    let again := { self with pc := .helloTop }
    match received self.session datagram with
    | .error _ => again
    | .ok view =>
      if view.header.msgType ≠ MessageType.handshakeClientHello.code then again
      else
        match ClientHello.decode view.payload with
        | .error _ => again
        | .ok clientHello =>
          { self with
            session := { self.session with peer := some datagram.source } }.negotiates suite rand
              clientHello datagram.source

/-- A wait for the KeyExchange; a repeated ClientHello gets the same ServerHello again. -/
def onKeyExchange (self : Server) (suite : Suite) (offer : Offer) : RecvEvent → Server
  | .timeout => { self with pc := .keyTop offer }
  | .failed e => self.finishes (.error e)
  | .datagram datagram =>
    let again := { self with pc := .keyTop offer }
    if datagram.source ≠ offer.peer then again
    else
      match received self.session datagram with
      | .error _ => again
      | .ok view =>
        if view.header.msgType = MessageType.handshakeClientHello.code then
          { self with pc := .resendHello offer }
        else if view.header.msgType ≠ MessageType.handshakeKeyExchange.code then again
        else
          match KeyExchangeMsg.decode view.payload with
          | .error e => self.finishes (.error (.protocol e))
          | .ok msg =>
            if msg.sessionId ≠ offer.serverHello.sessionId then
              self.finishes (.error (.handshake "session_id mismatch in KeyExchange"))
            else if !constantTimeEq msg.authTag ((offer.secrets suite).clientTag suite) then
              self.finishes (.error (.authenticationFailed "client auth tag mismatch"))
            else { self with pc := .sendConfirm offer, accepted := self.accepted ++ [offer] }

def sends (self : Server) (env : Env) (msg : MessageType) (sessionId : UInt32)
    (payload : Except TransportError Bytes) (peer : SocketAddr) (next : ServerPc) :
    Server × List Sent :=
  match payload with
  | .error e => (self.finishes (.error e), [])
  | .ok payload =>
    match self.session.sendControl env msg sessionId payload peer with
    | (.error e, session, sent) => ({ self with session := session }.finishes (.error e), sent)
    | (.ok (), session, sent) => ({ self with session := session, pc := next }, sent)

def sendsHello (self : Server) (env : Env) (offer : Offer) : Server × List Sent :=
  self.sends env .handshakeServerHello offer.serverHello.sessionId
    (encoded (offer.serverHello.encode (List.replicate ServerHello.size 0))) offer.peer
    (.keyTop offer)

def step (self : Server) (suite : Suite) (rand : Rand) (env : Env) (event : RecvEvent) :
    Server × List Sent :=
  match self.pc with
  | .attempt =>
    if self.session.closed then (self.closes, []) else ({ self with pc := .helloTop }, [])
  | .helloTop =>
    if self.session.closed then (self.finishes (.error (.peerClosed "session closed")), [])
    else ({ self with pc := .awaitHello }, [])
  | .awaitHello =>
    match self.mode with
    | .fixed peer => (self.onHelloFrom suite rand peer event, [])
    | .anyPeer => (self.onHelloAny suite rand event, [])
  | .sendHello offer | .resendHello offer => self.sendsHello env offer
  | .keyTop offer =>
    if self.session.closed then (self.finishes (.error (.peerClosed "session closed")), [])
    else ({ self with pc := .awaitKeyExchange offer }, [])
  | .awaitKeyExchange offer => (self.onKeyExchange suite offer event, [])
  | .sendConfirm offer =>
    let confirm : SessionConfirm :=
      ⟨offer.serverHello.sessionId, (offer.secrets suite).serverTag suite⟩
    self.sends env .handshakeSessionConfirm offer.serverHello.sessionId
      (encoded (confirm.encode (List.replicate SessionConfirm.size 0))) offer.peer
      (.storeEncrypt offer)
  | .storeEncrypt offer =>
    -- the server encrypts with the client's decryption key
    let key := ((offer.secrets suite).keys suite).2
    ({ self with
      session := { self.session with encryptKey := some key }
      pc := .storeDecrypt offer }, [])
  | .storeDecrypt offer =>
    let key := ((offer.secrets suite).keys suite).1
    ({ self with session := { self.session with decryptKey := some key } }.finishes (.ok offer), [])
  | .returned _ => (self, [])

/-- The deadline of `handshake`, or of an attempt of `handshake_open`, drops the call. -/
def timesOut (self : Server) : Server :=
  match self.pc with
  | .returned _ | .attempt => self
  | _ =>
    match self.mode with
    | .fixed _ => { self with pc := .returned (.error .timeout) }
    | .anyPeer => self.retries

end Server

structure Setup where
  suite : Suite
  clientAddr : SocketAddr
  serverAddr : SocketAddr

structure NetPacket where
  source : SocketAddr
  dest : SocketAddr
  data : Bytes

structure State where
  client : Client
  server : Server
  net : List NetPacket

def posts (source : SocketAddr) (sent : List Sent) : List NetPacket :=
  sent.map fun s => ⟨source, s.dest, s.data⟩

def Arrives (net : List NetPacket) (addr : SocketAddr) : RecvEvent → Prop
  | .datagram datagram => ⟨datagram.source, addr, datagram.data⟩ ∈ net
  | .failed _ | .timeout => True

inductive Label where
  | party
  | rewrite
  deriving DecidableEq

inductive Step (setup : Setup) : State → Label → State → Prop where
  | client {st} (env : Env) (event : RecvEvent) (harrives : Arrives st.net setup.clientAddr event) :
      Step setup st .party
        { st with
          client := (st.client.step setup.suite env event).1
          net := st.net ++ posts setup.clientAddr (st.client.step setup.suite env event).2 }
  | server {st} (rand : Rand) (env : Env) (event : RecvEvent)
      (harrives : Arrives st.net setup.serverAddr event) :
      Step setup st .party
        { st with
          server := (st.server.step setup.suite rand env event).1
          net := st.net ++ posts setup.serverAddr (st.server.step setup.suite rand env event).2 }
  | clientTimesOut {st} : Step setup st .party { st with client := st.client.timesOut }
  | serverTimesOut {st} : Step setup st .party { st with server := st.server.timesOut }
  -- the network puts another hello of the same kind in the place of one
  | rewriteClientHello {st packet view} (hello : ClientHello) (hpacket : packet ∈ st.net)
      (hdecode : PacketView.decode packet.data = .ok view)
      (htype : view.header.msgType = MessageType.handshakeClientHello.code) :
      Step setup st .rewrite
        { st with net := st.net ++ [{ packet with data := Packet.bytes view.header hello.bytes }] }
  | rewriteServerHello {st packet view} (hello : ServerHello) (hpacket : packet ∈ st.net)
      (hdecode : PacketView.decode packet.data = .ok view)
      (htype : view.header.msgType = MessageType.handshakeServerHello.code) :
      Step setup st .rewrite
        { st with net := st.net ++ [{ packet with data := Packet.bytes view.header hello.bytes }] }

structure Start (st : State) : Prop where
  client : st.client.pc = .sendHello 0
  committed : st.client.committed = none
  server : st.server.pc = match st.server.mode with
    | .fixed _ => .awaitHello
    | .anyPeer => .attempt
  offers : st.server.offers = []
  accepted : st.server.accepted = []
  net : st.net = []

end GravitalTalk.Transport.Handshake
