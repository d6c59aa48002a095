import GravitalTalk.Transport.Handshake

/-! The ways through the handshake's receives and sends, one rule for each function: what holds of
every outcome holds of the result. -/
namespace GravitalTalk.Transport.Handshake
open Lib GravitalTalk.Core

structure Brings (session : Session) (event : RecvEvent) (msg : MessageType) (datagram : Datagram)
    (view : PacketView) : Prop where
  arrived : event = .datagram datagram
  decoded : received session datagram = .ok view
  msgType : view.header.msgType = msg.code

namespace Client
variable (self : Client) (P : Client → Prop)

theorem onHello_rule (attempt : UInt32) (event : RecvEvent)
    (hagain : P { self with pc := .sendHello (saturatingSucc attempt) })
    (hover : saturatingSucc attempt > 6 →
      P { self with pc := .returned (.error (.handshake "client retries exhausted")) })
    (hfails : ∀ datagram e, event = .datagram datagram →
      P { self with pc := .returned (.error e) })
    (hhello : ∀ datagram view serverHello,
      Brings self.session event .handshakeServerHello datagram view → datagram.source = self.peer →
        checkServerHello self.session.config view.payload = .ok serverHello →
          P { self with pc := .sendKeyExchange serverHello, committed := some serverHello }) :
    P (self.onHello attempt event) := by
  cases event with
  | timeout | failed e =>
    simp only [onHello]
    split_ifs with hmany
    · exact hover hmany
    · exact hagain
  | datagram datagram =>
    simp only [onHello]
    split_ifs with hsource
    · exact hagain
    · cases hview : received self.session datagram with
      | error e => exact hagain
      | ok view =>
        simp only
        split_ifs with htype
        · exact hagain
        · cases hcheck : checkServerHello self.session.config view.payload with
          | error e => exact hfails datagram e rfl
          | ok serverHello =>
            exact hhello datagram view serverHello ⟨rfl, hview, not_not.mp htype⟩
              (not_not.mp hsource) hcheck

theorem onConfirm_rule (suite : Suite) (serverHello : ServerHello) (event : RecvEvent)
    (hstays : P self) (hfails : ∀ e, P { self with pc := .returned (.error e) })
    (hconfirm : ∀ datagram view (confirm : SessionConfirm),
      Brings self.session event .handshakeSessionConfirm datagram view →
        datagram.source = self.peer → SessionConfirm.decode view.payload = .ok confirm →
          confirm.serverAuthTag = (self.secretsFor suite serverHello).serverTag suite →
            P { self with
              session :=
                { self.session with
                  sessionId := serverHello.sessionId
                  localSsrc := serverHello.sessionId ^^^ fromBe32
                    (((self.secretsFor suite serverHello).keys suite).1.toList.take 4)
                  negotiatedCodec := serverHello.codecAccepted }
              pc := .storeEncrypt serverHello }) :
    P (self.onConfirm suite serverHello event) := by
  cases event with
  | timeout => exact hstays
  | failed e => exact hfails e
  | datagram datagram =>
    simp only [onConfirm]
    split_ifs with hsource
    · exact hstays
    · cases hview : received self.session datagram with
      | error e => exact hstays
      | ok view =>
        simp only
        split_ifs with htype
        · exact hstays
        · cases hdecode : SessionConfirm.decode view.payload with
          | error e => exact hfails _
          | ok confirm =>
            simp only
            split_ifs with hsid htag
            · exact hfails _
            · exact hfails _
            · rw [Bool.not_eq_true', Bool.not_eq_false, constantTimeEq_iff] at htag
              exact hconfirm datagram view confirm ⟨rfl, hview, not_not.mp htype⟩
                (not_not.mp hsource) hdecode htag

theorem sends_rule (P : Client × List Sent → Prop) (env : Env) (msg : MessageType)
    (sessionId : UInt32) (payload : Except TransportError Bytes) (next : ClientPc)
    (hunbuilt : ∀ e, P ({ self with pc := .returned (.error e) }, []))
    (hfails : ∀ bytes e session sent, payload = .ok bytes →
      self.session.sendControl env msg sessionId bytes self.peer = (.error e, session, sent) →
        P ({ self with session := session, pc := .returned (.error e) }, sent))
    (hsends : ∀ bytes session sent, payload = .ok bytes →
      self.session.sendControl env msg sessionId bytes self.peer = (.ok (), session, sent) →
        P ({ self with session := session, pc := next }, sent)) :
    P (self.sends env msg sessionId payload next) := by
  cases payload with
  | error e => exact hunbuilt e
  | ok bytes =>
    simp only [sends]
    obtain ⟨⟨result, session, sent⟩, hsend⟩ :
        ∃ out, self.session.sendControl env msg sessionId bytes self.peer = out := ⟨_, rfl⟩
    rw [hsend]
    cases result with
    | error e => exact hfails bytes e session sent rfl hsend
    | ok _ => exact hsends bytes session sent rfl hsend

end Client

namespace Server
variable (self : Server) (P : Server → Prop)

/-- The session id is stored, or not yet, when a negotiation fails. -/
theorem negotiates_rule (suite : Suite) (rand : Rand) (clientHello : ClientHello)
    (peer : SocketAddr)
    (hfails : ∀ e sessionId,
      P ({ self with session := { self.session with sessionId := sessionId } }.finishes (.error e)))
    (hoffers : ∀ codec, ¬clientHello.protocolVersion < protocolVersionMin →
      chooseCodec self.session.config clientHello.codecPreferred = .ok codec →
        let offer : Offer := ⟨peer, clientHello, rand.secret,
          serverHello suite self.session.config clientHello rand codec⟩
        P { self with
          session :=
            { self.session with sessionId := rand.sessionId, negotiatedCodec := codec }
          pc := .sendHello offer
          offers := self.offers ++ [offer] }) :
    P (self.negotiates suite rand clientHello peer) := by
  unfold negotiates
  split_ifs with hversion
  · exact hfails _ self.session.sessionId
  · simp only
    cases hcodec : chooseCodec self.session.config clientHello.codecPreferred with
    | error e => exact hfails e rand.sessionId
    | ok codec => exact hoffers codec hversion hcodec

theorem onHelloFrom_rule (suite : Suite) (rand : Rand) (peer : SocketAddr) (event : RecvEvent)
    (hstays : P self) (hfails : ∀ e, P (self.finishes (.error e)))
    (hhello : ∀ datagram view clientHello,
      Brings self.session event .handshakeClientHello datagram view → datagram.source = peer →
        ClientHello.decode view.payload = .ok clientHello →
          P (self.negotiates suite rand clientHello peer)) :
    P (self.onHelloFrom suite rand peer event) := by
  cases event with
  | timeout => exact hstays
  | failed e => exact hfails e
  | datagram datagram =>
    simp only [onHelloFrom]
    split_ifs with hsource
    · exact hstays
    · cases hview : received self.session datagram with
      | error e => exact hstays
      | ok view =>
        simp only
        split_ifs with htype
        · exact hstays
        · cases hdecode : ClientHello.decode view.payload with
          | error e => exact hfails _
          | ok clientHello =>
            exact hhello datagram view clientHello ⟨rfl, hview, not_not.mp htype⟩
              (not_not.mp hsource) hdecode

theorem onHelloAny_rule (suite : Suite) (rand : Rand) (event : RecvEvent)
    (hagain : P { self with pc := .helloTop }) (hfails : ∀ e, P (self.finishes (.error e)))
    (hhello : ∀ datagram view clientHello,
      Brings self.session event .handshakeClientHello datagram view →
        ClientHello.decode view.payload = .ok clientHello →
          P ({ self with
            session := { self.session with peer := some datagram.source } }.negotiates suite rand
              clientHello datagram.source)) :
    P (self.onHelloAny suite rand event) := by
  cases event with
  | timeout => exact hagain
  | failed e => exact hfails e
  | datagram datagram =>
    simp only [onHelloAny]
    cases hview : received self.session datagram with
    | error e => exact hagain
    | ok view =>
      simp only
      split_ifs with htype
      · exact hagain
      · cases hdecode : ClientHello.decode view.payload with
        | error e => exact hagain
        | ok clientHello =>
          exact hhello datagram view clientHello ⟨rfl, hview, not_not.mp htype⟩ hdecode

theorem onKeyExchange_rule (suite : Suite) (offer : Offer) (event : RecvEvent)
    (hagain : P { self with pc := .keyTop offer }) (hfails : ∀ e, P (self.finishes (.error e)))
    (hrepeat : ∀ datagram view, Brings self.session event .handshakeClientHello datagram view →
      datagram.source = offer.peer → P { self with pc := .resendHello offer })
    (haccepts : ∀ datagram view (msg : KeyExchangeMsg),
      Brings self.session event .handshakeKeyExchange datagram view →
        datagram.source = offer.peer → KeyExchangeMsg.decode view.payload = .ok msg →
          msg.authTag = (offer.secrets suite).clientTag suite →
            P { self with pc := .sendConfirm offer, accepted := self.accepted ++ [offer] }) :
    P (self.onKeyExchange suite offer event) := by
  cases event with
  | timeout => exact hagain
  | failed e => exact hfails e
  | datagram datagram =>
    simp only [onKeyExchange]
    split_ifs with hsource
    · exact hagain
    · rw [not_not] at hsource
      cases hview : received self.session datagram with
      | error e => exact hagain
      | ok view =>
        simp only
        split_ifs with hhello htype
        · exact hrepeat datagram view ⟨rfl, hview, hhello⟩ hsource
        · exact hagain
        · cases hdecode : KeyExchangeMsg.decode view.payload with
          | error e => exact hfails _
          | ok msg =>
            simp only
            split_ifs with hsid htag
            · exact hfails _
            · exact hfails _
            · rw [Bool.not_eq_true', Bool.not_eq_false, constantTimeEq_iff] at htag
              exact haccepts datagram view msg ⟨rfl, hview, not_not.mp htype⟩ hsource hdecode htag

theorem sends_rule (P : Server × List Sent → Prop) (env : Env) (msg : MessageType)
    (sessionId : UInt32) (payload : Except TransportError Bytes) (peer : SocketAddr)
    (next : ServerPc) (hunbuilt : ∀ e, P (self.finishes (.error e), []))
    (hfails : ∀ bytes e session sent, payload = .ok bytes →
      self.session.sendControl env msg sessionId bytes peer = (.error e, session, sent) →
        P ({ self with session := session }.finishes (.error e), sent))
    (hsends : ∀ bytes session sent, payload = .ok bytes →
      self.session.sendControl env msg sessionId bytes peer = (.ok (), session, sent) →
        P ({ self with session := session, pc := next }, sent)) :
    P (self.sends env msg sessionId payload peer next) := by
  cases payload with
  | error e => exact hunbuilt e
  | ok bytes =>
    simp only [sends]
    obtain ⟨⟨result, session, sent⟩, hsend⟩ :
        ∃ out, self.session.sendControl env msg sessionId bytes peer = out := ⟨_, rfl⟩
    rw [hsend]
    cases result with
    | error e => exact hfails bytes e session sent rfl hsend
    | ok _ => exact hsends bytes session sent rfl hsend

end Server

end GravitalTalk.Transport.Handshake
