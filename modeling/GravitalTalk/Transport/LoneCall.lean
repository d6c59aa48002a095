import GravitalTalk.Lib.Trace
import GravitalTalk.Transport.ClosingMoves

/-! One call of `handshake` or `handshake_open` with no other call at work on the session.  The
deadline may drop the handshake inside at any await, and the flag of `close` may be set at any
time. -/
namespace GravitalTalk.Transport.LoneCall
open Lib GravitalTalk.Core Transition Handshake Closing Trace

structure Lone where
  place : Place
  session : Session

inductive Input where
  | moment (moment : Moment)
  | deadline
  | flagged

def exec (suite : Suite) (aead : Aead) (call : Call) (st : Lone) : Input → Lone × List Sent
  | .moment moment =>
    let move := moves suite aead moment st.session call st.place
    (⟨move.place, move.session⟩, move.sent)
  | .deadline => (⟨st.place.expires.getD st.place, st.session⟩, [])
  | .flagged => (⟨st.place, { st.session with closed := true }⟩, [])

def readPayload (session : Session) (msg : MessageType) (datagram : Datagram) : Option Bytes :=
  match received session datagram with
  | .error _ => none
  | .ok view => if view.header.msgType = msg.code then some view.payload else none

structure Greeting where
  source : SocketAddr
  hello : ClientHello
  rand : Rand

def Greeting.Current (greeting : Greeting) : Prop :=
  ¬greeting.hello.protocolVersion < protocolVersionMin

instance (greeting : Greeting) : Decidable greeting.Current :=
  inferInstanceAs (Decidable (¬_))

def admits : Mode → SocketAddr → Bool
  | .fixed peer, source => source = peer
  | .anyPeer, _ => true

/-- A ClientHello that decodes, from an address the wait admits. -/
def hears (session : Session) (mode : Mode) (rand : Rand) : RecvEvent → Option Greeting
  | .datagram datagram =>
    match readPayload session .handshakeClientHello datagram with
    | none => none
    | some payload =>
      match ClientHello.decode payload with
      | .error _ => none
      | .ok hello =>
        if admits mode datagram.source then some ⟨datagram.source, hello, rand⟩ else none
  | .failed _ | .timeout => none

def listens : Place → Option Mode
  | .server server => match server.pc with
    | .awaitHello => some server.mode
    | _ => none
  | .attempt server => match server.pc with
    | .awaitHello => some .anyPeer
    | _ => none
  | _ => none

def greeting (st : Lone) : Input → Option Greeting
  | .moment moment => (listens st.place).bind fun mode =>
    hears st.session mode moment.rand moment.event
  | .deadline | .flagged => none

def current (st : Lone) (input : Input) : Option Greeting :=
  (greeting st input).bind fun greeting => if greeting.Current then some greeting else none

def confirms (suite : Suite) (session : Session) (client : Client) (shown : ServerHello) :
    RecvEvent → Bool
  | .datagram datagram =>
    match readPayload session .handshakeSessionConfirm datagram with
    | none => false
    | some payload =>
      match SessionConfirm.decode payload with
      | .error _ => false
      | .ok confirm =>
        datagram.source = client.peer && confirm.sessionId = shown.sessionId &&
          constantTimeEq confirm.serverAuthTag ((client.secretsFor suite shown).serverTag suite)
  | .failed _ | .timeout => false

/-- The client whose SessionConfirm arrives, with the ServerHello it rests on. -/
def confirmed (suite : Suite) (st : Lone) : Input → Option (Client × ServerHello)
  | .moment moment => match st.place with
    | .client client => match client.pc with
      | .awaitConfirm shown =>
        if confirms suite st.session client shown moment.event then some (client, shown) else none
      | _ => none
    | _ => none
  | .deadline | .flagged => none

def clientKeys (suite : Suite) (client : Client) (shown : ServerHello) : SessionKey × SessionKey :=
  (client.secretsFor suite shown).keys suite

/-- The client's half of the keys, the other way round. -/
def serverKeys (suite : Suite) (offer : Offer) : SessionKey × SessionKey :=
  ((offer.secrets suite).keys suite).swap

def keyHead (key : SessionKey) : UInt32 := fromBe32 (key.toList.take 4)

def peerStored (call : Call) (st : Lone) (input : Input) : Option (Option SocketAddr) :=
  match st.place, input with
  | .start, .moment _ => match call with
    | .handshake _ peer => some (some peer)
    | .handshakeOpen | .recvAudio => none
  | .forgetPeer, .moment _ => some none
  | .attempt _, _ => (greeting st input).map fun greeting => some greeting.source
  | _, _ => none

def idStored (suite : Suite) (st : Lone) (input : Input) : Option UInt32 :=
  ((current st input).map fun greeting => greeting.rand.sessionId).or
    ((confirmed suite st input).map fun (_, shown) => shown.sessionId)

def codecStored (suite : Suite) (st : Lone) (input : Input) : Option UInt8 :=
  ((current st input).bind fun greeting =>
      (Server.chooseCodec st.session.config greeting.hello.codecPreferred).toOption).or
    ((confirmed suite st input).map fun (_, shown) => shown.codecAccepted)

def ssrcStored (suite : Suite) (st : Lone) (input : Input) : Option UInt32 :=
  (confirmed suite st input).map fun (client, shown) =>
    shown.sessionId ^^^ keyHead (clientKeys suite client shown).1

def storesEncrypt (suite : Suite) : Place → Option SessionKey
  | .client client => match client.pc with
    | .storeEncrypt shown => some (clientKeys suite client shown).1
    | _ => none
  | .server server | .attempt server => match server.pc with
    | .storeEncrypt offer => some (serverKeys suite offer).1
    | _ => none
  | _ => none

def storesDecrypt (suite : Suite) : Place → Option SessionKey
  | .client client => match client.pc with
    | .storeDecrypt shown => some (clientKeys suite client shown).2
    | _ => none
  | .server server | .attempt server => match server.pc with
    | .storeDecrypt offer => some (serverKeys suite offer).2
    | _ => none
  | _ => none

def keyStored (stores : Place → Option SessionKey) (st : Lone) :
    Input → Option (Option SessionKey)
  | .moment _ => (stores st.place).map some
  | .deadline | .flagged => none

section Handlers
variable {suite : Suite} {rand : Rand} {event : RecvEvent}

theorem readPayload_brings {session : Session} {msg : MessageType} {datagram : Datagram}
    {payload : Bytes} (h : readPayload session msg datagram = some payload) :
    ∃ view, Brings session (.datagram datagram) msg datagram view ∧ view.payload = payload := by
  unfold readPayload at h
  cases hview : received session datagram with
  | error e => simp [hview] at h
  | ok view =>
    simp only [hview] at h
    split_ifs at h with htype
    exact ⟨view, ⟨rfl, hview, htype⟩, Option.some.inj h⟩

theorem hears_brings {session : Session} {mode : Mode} {greeting : Greeting}
    (h : hears session mode rand event = some greeting) :
    ∃ datagram view, Brings session event .handshakeClientHello datagram view ∧
      ClientHello.decode view.payload = .ok greeting.hello ∧
        greeting = ⟨datagram.source, greeting.hello, rand⟩ ∧ admits mode datagram.source = true := by
  cases event with
  | timeout | failed e => cases h
  | datagram datagram =>
    simp only [hears] at h
    cases hread : readPayload session .handshakeClientHello datagram with
    | none => simp [hread] at h
    | some payload =>
      obtain ⟨view, hbrings, rfl⟩ := readPayload_brings hread
      simp only [hread] at h
      cases hdecode : ClientHello.decode view.payload with
      | error e => simp [hdecode] at h
      | ok hello =>
        simp only [hdecode, Option.ite_none_right_eq_some, Option.some.injEq] at h
        obtain ⟨hadmits, rfl⟩ := h
        exact ⟨datagram, view, hbrings, hdecode, rfl, hadmits⟩

theorem onHelloFrom_hears {s : Server} {peer : SocketAddr} {greeting : Greeting}
    (h : hears s.session (.fixed peer) rand event = some greeting) :
    s.onHelloFrom suite rand peer event = s.negotiates suite rand greeting.hello peer := by
  obtain ⟨datagram, view, ⟨rfl, hview, htype⟩, hdecode, -, hadmits⟩ := hears_brings h
  have hsource : datagram.source = peer := of_decide_eq_true hadmits
  simp only [Server.onHelloFrom, hsource, hview, htype, hdecode, ne_eq, not_true_eq_false, if_false]

theorem onHelloFrom_deaf {s : Server} {peer : SocketAddr}
    (h : hears s.session (.fixed peer) rand event = none) :
    s.onHelloFrom suite rand peer event = s ∨
      ∃ e, s.onHelloFrom suite rand peer event = s.finishes (.error e) := by
  cases event with
  | timeout => exact .inl rfl
  | failed e => exact .inr ⟨e, rfl⟩
  | datagram datagram =>
    simp only [hears, readPayload] at h
    simp only [Server.onHelloFrom]
    split_ifs with hsource
    · exact .inl rfl
    · cases hview : received s.session datagram with
      | error e => exact .inl rfl
      | ok view =>
        simp only
        split_ifs with htype
        · exact .inl rfl
        · cases hdecode : ClientHello.decode view.payload with
          | error e => exact .inr ⟨_, rfl⟩
          | ok hello => simp [hview, not_not.mp htype, hdecode, admits, not_not.mp hsource] at h

theorem onHelloAny_hears {s : Server} {greeting : Greeting}
    (h : hears s.session .anyPeer rand event = some greeting) :
    s.onHelloAny suite rand event =
      { s with session := { s.session with peer := some greeting.source } }.negotiates suite rand
        greeting.hello greeting.source := by
  obtain ⟨datagram, view, ⟨rfl, hview, htype⟩, hdecode, heq, -⟩ := hears_brings h
  have hsource : greeting.source = datagram.source := by rw [heq]
  simp only [Server.onHelloAny, hsource, hview, htype, hdecode, ne_eq, not_true_eq_false, if_false]

theorem onHelloAny_deaf {s : Server} (h : hears s.session .anyPeer rand event = none) :
    s.onHelloAny suite rand event = { s with pc := .helloTop } ∨
      ∃ e, s.onHelloAny suite rand event = s.finishes (.error e) := by
  cases event with
  | timeout => exact .inl rfl
  | failed e => exact .inr ⟨e, rfl⟩
  | datagram datagram =>
    simp only [hears, readPayload] at h
    simp only [Server.onHelloAny]
    cases hview : received s.session datagram with
    | error e => exact .inl rfl
    | ok view =>
      simp only
      split_ifs with htype
      · exact .inl rfl
      · cases hdecode : ClientHello.decode view.payload with
        | error e => exact .inl rfl
        | ok hello => simp [hview, not_not.mp htype, hdecode, admits] at h

variable {c : Client} {shown : ServerHello}

theorem onConfirm_confirms (h : confirms suite c.session c shown event = true) :
    c.onConfirm suite shown event =
      { c with
        session :=
          { c.session with
            sessionId := shown.sessionId
            localSsrc := shown.sessionId ^^^ keyHead (clientKeys suite c shown).1
            negotiatedCodec := shown.codecAccepted }
        pc := .storeEncrypt shown } := by
  cases event with
  | timeout | failed e => cases h
  | datagram datagram =>
    simp only [confirms] at h
    cases hread : readPayload c.session .handshakeSessionConfirm datagram with
    | none => simp [hread] at h
    | some payload =>
      obtain ⟨view, ⟨-, hview, htype⟩, rfl⟩ := readPayload_brings hread
      simp only [hread] at h
      cases hdecode : SessionConfirm.decode view.payload with
      | error e => simp [hdecode] at h
      | ok confirm =>
        simp only [hdecode, Bool.and_eq_true, decide_eq_true_eq] at h
        obtain ⟨⟨hsource, hid⟩, htag⟩ := h
        simp only [Client.onConfirm, hsource, hview, htype, hdecode, hid, htag, ne_eq,
          not_true_eq_false, if_false, Bool.not_true, Bool.false_eq_true]
        rfl

theorem onConfirm_ignores (h : confirms suite c.session c shown event = false) :
    c.onConfirm suite shown event = c ∨
      ∃ e, c.onConfirm suite shown event = { c with pc := .returned (.error e) } := by
  cases event with
  | timeout => exact .inl rfl
  | failed e => exact .inr ⟨e, rfl⟩
  | datagram datagram =>
    simp only [confirms, readPayload] at h
    simp only [Client.onConfirm]
    split_ifs with hsource
    · exact .inl rfl
    · cases hview : received c.session datagram with
      | error e => exact .inl rfl
      | ok view =>
        simp only
        split_ifs with htype
        · exact .inl rfl
        · cases hdecode : SessionConfirm.decode view.payload with
          | error e => exact .inr ⟨_, rfl⟩
          | ok confirm =>
            simp only
            split_ifs with hid htag
            · exact .inr ⟨_, rfl⟩
            · exact .inr ⟨_, rfl⟩
            · simp [hview, not_not.mp htype, hdecode, not_not.mp hsource, not_not.mp hid] at h
              simp [h] at htag

end Handlers

structure SameFields (session after : Session) : Prop where
  peer : after.peer = session.peer
  sessionId : after.sessionId = session.sessionId
  negotiatedCodec : after.negotiatedCodec = session.negotiatedCodec
  localSsrc : after.localSsrc = session.localSsrc
  encryptKey : after.encryptKey = session.encryptKey
  decryptKey : after.decryptKey = session.decryptKey

structure Stores (suite : Suite) (call : Call) (st : Lone) (input : Input) (after : Session) :
    Prop where
  config : after.config = st.session.config
  peer : after.peer = (peerStored call st input).getD st.session.peer
  sessionId : after.sessionId = (idStored suite st input).getD st.session.sessionId
  negotiatedCodec :
    after.negotiatedCodec = (codecStored suite st input).getD st.session.negotiatedCodec
  localSsrc : after.localSsrc = (ssrcStored suite st input).getD st.session.localSsrc
  encryptKey :
    after.encryptKey = (keyStored (storesEncrypt suite) st input).getD st.session.encryptKey
  decryptKey :
    after.decryptKey = (keyStored (storesDecrypt suite) st input).getD st.session.decryptKey

/-- The session keeps what the call may store, and its configuration. -/
structure Untouched (session after : Session) : Prop extends SameFields session after where
  config : after.config = session.config

theorem Untouched.refl (session : Session) : Untouched session session :=
  ⟨⟨rfl, rfl, rfl, rfl, rfl, rfl⟩, rfl⟩

theorem untouched_sent {session after : Session} {env : Env} {msg : MessageType}
    {sessionId : UInt32} {payload : Bytes} {peer : SocketAddr} {result : Except TransportError Unit}
    {sent : List Sent}
    (h : session.sendControl env msg sessionId payload peer = (result, after, sent)) :
    Untouched session after := by
  obtain ⟨metrics, hsession⟩ := session.sendControl_session env msg sessionId payload peer
  rw [h] at hsession
  rw [show after = _ from hsession]
  exact ⟨⟨rfl, rfl, rfl, rfl, rfl, rfl⟩, rfl⟩

section Steps
variable {suite : Suite} {aead : Aead} {call : Call} {session after : Session} {moment : Moment}
  {place : Place}

theorem keyStored_none {stores : Place → Option SessionKey} {st : Lone} {input : Input}
    (h : stores st.place = none) : keyStored stores st input = none := by
  cases input with
  | moment moment => simp only [keyStored, h, Option.map_none]
  | deadline | flagged => rfl

theorem Stores.nothing {st : Lone} {input : Input} (hafter : Untouched st.session after)
    (hpeer : peerStored call st input = none) (hgreeting : greeting st input = none)
    (hconfirmed : confirmed suite st input = none)
    (hencrypt : keyStored (storesEncrypt suite) st input = none)
    (hdecrypt : keyStored (storesDecrypt suite) st input = none) :
    Stores suite call st input after where
  config := hafter.config
  peer := by rw [hpeer]; exact hafter.peer
  sessionId := by simp [idStored, current, hgreeting, hconfirmed, hafter.sessionId]
  negotiatedCodec := by simp [codecStored, current, hgreeting, hconfirmed, hafter.negotiatedCodec]
  localSsrc := by simp [ssrcStored, hconfirmed, hafter.localSsrc]
  encryptKey := by rw [hencrypt]; exact hafter.encryptKey
  decryptKey := by rw [hdecrypt]; exact hafter.decryptKey

theorem clientMoves_session (c : Client) : (clientMoves suite moment session c).session =
    ({ c with session := session }.step suite moment.env moment.event).1.session := by
  unfold clientMoves
  simp only
  split <;> rfl

theorem serverMoves_session (s : Server) : (serverMoves suite moment session s).session =
    ({ s with session := session }.step suite moment.rand moment.env moment.event).1.session := by
  unfold serverMoves
  simp only
  split <;> rfl

theorem attemptMoves_session (s : Server) : (attemptMoves suite moment session s).session =
    (anyStep { s with session := session } suite moment.rand moment.env
      moment.event).1.session := by
  unfold attemptMoves
  simp only
  split <;> rfl

theorem untouched_clientSends (c : Client) (env : Env) (msg : MessageType) (sessionId : UInt32)
    (payload : Except TransportError Bytes) (next : ClientPc) :
    Untouched c.session (c.sends env msg sessionId payload next).1.session :=
  c.sends_rule (fun out => Untouched c.session out.1.session) env msg sessionId payload next
    (fun _ => .refl _) (fun _ _ _ _ _ hsend => untouched_sent hsend)
    fun _ _ _ _ hsend => untouched_sent hsend

theorem client_stores (c : Client) : Stores suite call ⟨.client c, session⟩ (.moment moment)
    (clientMoves suite moment session c).session := by
  set c' := { c with session := session } with hc'
  rw [clientMoves_session, ← hc']
  unfold Client.step
  cases hpc : c.pc <;> simp only
  case sendHello attempt =>
    refine .nothing (untouched_clientSends c' _ _ _ _ _) rfl rfl ?_ ?_ ?_ <;>
      simp [confirmed, keyStored, storesEncrypt, storesDecrypt, hpc]
  case awaitHello attempt =>
    rw [same_onHello]
    refine .nothing (.refl _) rfl rfl ?_ ?_ ?_ <;>
      simp [confirmed, keyStored, storesEncrypt, storesDecrypt, hpc]
  case sendKeyExchange shown =>
    refine .nothing (untouched_clientSends c' _ _ _ _ _) rfl rfl ?_ ?_ ?_ <;>
      simp [confirmed, keyStored, storesEncrypt, storesDecrypt, hpc]
  case awaitConfirm shown =>
    cases hconfirms : confirms suite session c shown moment.event with
    | true =>
      have hafter : c'.onConfirm suite shown moment.event = _ := onConfirm_confirms hconfirms
      rw [hafter]
      constructor <;>
        simp [idStored, codecStored, ssrcStored, current, greeting, listens, peerStored, confirmed,
          keyStored, storesEncrypt, storesDecrypt, hpc, hconfirms, hc']
      rfl
    | false =>
      have hafter := @onConfirm_ignores suite moment.event c' shown hconfirms
      refine .nothing ?_ rfl rfl ?_ ?_ ?_
      · obtain hafter | ⟨e, hafter⟩ := hafter <;> rw [hafter] <;> exact .refl _
      all_goals simp [confirmed, keyStored, storesEncrypt, storesDecrypt, hpc, hconfirms]
  case storeEncrypt shown =>
    constructor <;>
      simp [idStored, codecStored, ssrcStored, current, greeting, listens, peerStored, confirmed,
        keyStored, storesEncrypt, storesDecrypt, hpc, hc']
    rfl
  case storeDecrypt shown =>
    constructor <;>
      simp [idStored, codecStored, ssrcStored, current, greeting, listens, peerStored, confirmed,
        keyStored, storesEncrypt, storesDecrypt, hpc, hc']
    rfl
  case returned result =>
    refine .nothing (.refl _) rfl rfl ?_ ?_ ?_ <;>
      simp [confirmed, keyStored, storesEncrypt, storesDecrypt, hpc]

theorem finishes_session {s : Server} (h : Fixed s) (result : Except TransportError Offer) :
    (s.finishes result).session = s.session := by
  obtain ⟨peer, hmode⟩ := h.mode
  rw [Server.finishes_fixed hmode]

theorem untouched_serverSends {s : Server} (h : Fixed s) (env : Env) (msg : MessageType)
    (sessionId : UInt32) (payload : Except TransportError Bytes) (peer : SocketAddr)
    (next : ServerPc) :
    Untouched s.session (s.sends env msg sessionId payload peer next).1.session := by
  refine s.sends_rule (fun out => Untouched s.session out.1.session) env msg sessionId payload peer
    next (fun e => ?_) (fun _ e after _ _ hsend => ?_) fun _ _ _ _ hsend => untouched_sent hsend
  · rw [finishes_session h]
    exact .refl _
  · have hfixed : Fixed { s with session := after } := ⟨h.mode, h.pc⟩
    rw [finishes_session hfixed]
    exact untouched_sent hsend

theorem untouched_onKeyExchange {s : Server} (h : Fixed s) (offer : Offer) (event : RecvEvent) :
    Untouched s.session (s.onKeyExchange suite offer event).session := by
  have hrefl := Untouched.refl s.session
  refine s.onKeyExchange_rule (fun after => Untouched s.session after.session) suite offer event
    hrefl (fun e => ?_) (fun _ _ _ _ => hrefl) fun _ _ _ _ _ _ _ => hrefl
  rwa [finishes_session h]

def answered (session : Session) (greeting : Greeting) : Session :=
  if greeting.Current then
    { session with
      sessionId := greeting.rand.sessionId
      negotiatedCodec :=
        (Server.chooseCodec session.config greeting.hello.codecPreferred).toOption.getD
          session.negotiatedCodec }
  else session

theorem negotiates_session {s : Server} (h : Fixed s) (greeting : Greeting) (peer : SocketAddr) :
    (s.negotiates suite greeting.rand greeting.hello peer).session =
      answered s.session greeting := by
  unfold Server.negotiates answered
  by_cases hversion : greeting.hello.protocolVersion < protocolVersionMin
  · have hold : ¬greeting.Current := not_not.mpr hversion
    rw [if_pos hversion, if_neg hold]
    exact finishes_session h _
  · have hcurrent : greeting.Current := hversion
    rw [if_neg hversion, if_pos hcurrent]
    cases hcodec : Server.chooseCodec s.session.config greeting.hello.codecPreferred with
    | error e =>
      have hfixed : Fixed
          { s with session := { s.session with sessionId := greeting.rand.sessionId } } :=
        ⟨h.mode, h.pc⟩
      simp only [hcodec]
      exact finishes_session hfixed _
    | ok codec => simp only [hcodec]; rfl

theorem onHelloFrom_session {s : Server} (h : Fixed s) (rand : Rand) (peer : SocketAddr)
    (event : RecvEvent) : (s.onHelloFrom suite rand peer event).session =
      match hears s.session (.fixed peer) rand event with
      | none => s.session
      | some greeting => answered s.session greeting := by
  cases hhears : hears s.session (.fixed peer) rand event with
  | none =>
    obtain hafter | ⟨e, hafter⟩ := @onHelloFrom_deaf suite _ _ _ _ hhears
    · rw [hafter]
    · rw [hafter, finishes_session h]
  | some greeting =>
    obtain ⟨_, _, -, -, heq, -⟩ := hears_brings hhears
    have hrand : rand = greeting.rand := by rw [heq]
    rw [onHelloFrom_hears hhears, hrand, negotiates_session h]

/-- The source is stored as the peer, whatever comes of the ClientHello. -/
theorem onHelloAny_session {s : Server} (h : Fixed s) (rand : Rand) (event : RecvEvent) :
    (s.onHelloAny suite rand event).session =
      match hears s.session .anyPeer rand event with
      | none => s.session
      | some greeting => answered { s.session with peer := some greeting.source } greeting := by
  cases hhears : hears s.session .anyPeer rand event with
  | none =>
    obtain hafter | ⟨e, hafter⟩ := @onHelloAny_deaf suite _ _ _ hhears
    · rw [hafter]
    · rw [hafter, finishes_session h]
  | some greeting =>
    obtain ⟨_, _, -, -, heq, -⟩ := hears_brings hhears
    have hrand : rand = greeting.rand := by rw [heq]
    have hknown : Fixed { s with session := { s.session with peer := some greeting.source } } :=
      ⟨h.mode, h.pc⟩
    rw [onHelloAny_hears hhears, hrand, negotiates_session hknown]

theorem Stores.hears {st : Lone}
    (hconfirmed : confirmed suite st (.moment moment) = none)
    (hencrypt : storesEncrypt suite st.place = none)
    (hdecrypt : storesDecrypt suite st.place = none)
    (hafter : after =
      let known := { st.session with
        peer := (peerStored call st (.moment moment)).getD st.session.peer }
      match greeting st (.moment moment) with
      | none => known
      | some greeting => answered known greeting) :
    Stores suite call st (.moment moment) after := by
  subst hafter
  cases hgreeting : greeting st (.moment moment) with
  | none =>
    constructor <;>
      simp [idStored, codecStored, ssrcStored, current, hgreeting, hconfirmed,
        keyStored_none hencrypt, keyStored_none hdecrypt]
  | some g =>
    by_cases hcurrent : g.Current <;> constructor <;>
      simp [idStored, codecStored, ssrcStored, current, hgreeting, hconfirmed, answered, hcurrent,
        keyStored_none hencrypt, keyStored_none hdecrypt]

theorem Stores.serves {s s' : Server} (h : Fixed s') (hs' : s' = { s with session := session })
    (hplace : place = .server s ∨ place = .attempt s) (hpc : s.pc ≠ .awaitHello) :
    Stores suite call ⟨place, session⟩ (.moment moment)
      (s'.step suite moment.rand moment.env moment.event).1.session := by
  have hsession : s'.session = session := by rw [hs']
  have hpc' : s'.pc = s.pc := by rw [hs']
  have hpeer : ∀ input, greeting ⟨place, session⟩ input = none →
      peerStored call ⟨place, session⟩ input = none := by
    intro input hnone
    obtain rfl | rfl := hplace <;> simp [peerStored, hnone]
  have hlistens : listens place = none := by
    obtain rfl | rfl := hplace <;> simp only [listens]
  have hgreeting : greeting ⟨place, session⟩ (.moment moment) = none := by
    simp only [greeting, hlistens, Option.bind_none]
  have hconfirmed : confirmed suite ⟨place, session⟩ (.moment moment) = none := by
    obtain rfl | rfl := hplace <;> rfl
  have hquiet : ∀ {after}, Untouched s'.session after → storesEncrypt suite place = none →
      storesDecrypt suite place = none →
        Stores suite call ⟨place, session⟩ (.moment moment) after :=
    fun hafter hencrypt hdecrypt =>
      .nothing (hsession ▸ hafter) (hpeer _ hgreeting) hgreeting hconfirmed
        (keyStored_none hencrypt) (keyStored_none hdecrypt)
  have hcase : storesEncrypt suite place = (match s.pc with
        | .storeEncrypt offer => some (serverKeys suite offer).1
        | _ => none) ∧
      storesDecrypt suite place = (match s.pc with
        | .storeDecrypt offer => some (serverKeys suite offer).2
        | _ => none) := by
    obtain rfl | rfl := hplace <;> exact ⟨rfl, rfl⟩
  obtain ⟨hencrypt, hdecrypt⟩ := hcase
  unfold Server.step
  rw [hpc']
  cases hcurrent : s.pc <;> simp only [hcurrent] at hencrypt hdecrypt ⊢
  case attempt => exact absurd (hpc'.trans hcurrent) h.pc
  case awaitHello => exact absurd hcurrent hpc
  case helloTop | keyTop offer =>
    refine hquiet ?_ hencrypt hdecrypt
    split_ifs
    · rw [finishes_session h]
      exact .refl _
    · exact .refl _
  case sendHello offer | resendHello offer =>
    unfold Server.sendsHello
    exact hquiet (untouched_serverSends h _ _ _ _ _ _) hencrypt hdecrypt
  case sendConfirm offer =>
    exact hquiet (untouched_serverSends h _ _ _ _ _ _) hencrypt hdecrypt
  case awaitKeyExchange offer =>
    exact hquiet (untouched_onKeyExchange h offer moment.event) hencrypt hdecrypt
  case storeEncrypt offer =>
    subst hs'
    constructor <;>
      simp [idStored, codecStored, ssrcStored, current, hgreeting, hconfirmed, hpeer _ hgreeting,
        keyStored, hencrypt, hdecrypt]
    rfl
  case storeDecrypt offer =>
    have hfinishes : ∀ t : Server, t.mode = s'.mode → t.pc ≠ .attempt →
        (t.finishes (.ok offer)).session = t.session :=
      fun t hmode hpc => finishes_session ⟨hmode ▸ h.mode, hpc⟩ _
    rw [hfinishes]
    · subst hs'
      constructor <;>
        simp [idStored, codecStored, ssrcStored, current, hgreeting, hconfirmed, hpeer _ hgreeting,
          keyStored, hencrypt, hdecrypt]
      rfl
    · rfl
    · simp
  case returned result => exact hquiet (.refl _) hencrypt hdecrypt

theorem server_stores {s : Server} (h : Fixed s) :
    Stores suite call ⟨.server s, session⟩ (.moment moment)
      (serverMoves suite moment session s).session := by
  have hfixed : Fixed { s with session := session } := ⟨h.mode, h.pc⟩
  rw [serverMoves_session]
  by_cases hpc : s.pc = .awaitHello
  · obtain ⟨peer, hmode⟩ := h.mode
    have hgreeting : greeting ⟨.server s, session⟩ (.moment moment) =
        hears session (.fixed peer) moment.rand moment.event := by
      simp only [greeting, listens, hpc, hmode, Option.bind_some]
    have hstep : ({ s with session := session }.step suite moment.rand moment.env
        moment.event).1 =
          { s with session := session }.onHelloFrom suite moment.rand peer moment.event := by
      simp only [Server.step, hpc, hmode]
    refine .hears rfl ?_ ?_ ?_
    · simp only [storesEncrypt, hpc]
    · simp only [storesDecrypt, hpc]
    · rw [hstep, onHelloFrom_session hfixed, hgreeting]
      rfl
  · exact .serves hfixed rfl (.inl rfl) hpc

theorem attempt_stores {s : Server} (h : Fixed s) :
    Stores suite call ⟨.attempt s, session⟩ (.moment moment)
      (attemptMoves suite moment session s).session := by
  have hfixed : Fixed { s with session := session } := ⟨h.mode, h.pc⟩
  rw [attemptMoves_session]
  by_cases hpc : s.pc = .awaitHello
  · have hgreeting : greeting ⟨.attempt s, session⟩ (.moment moment) =
        hears session .anyPeer moment.rand moment.event := by
      simp only [greeting, listens, hpc, Option.bind_some]
    refine .hears rfl ?_ ?_ ?_
    · simp only [storesEncrypt, hpc]
    · simp only [storesDecrypt, hpc]
    · rw [@anyStep_greets { s with session := session } hpc, onHelloAny_session hfixed]
      simp only [peerStored, hgreeting]
      cases LoneCall.hears session .anyPeer moment.rand moment.event <;> rfl
  · rw [@anyStep_serves { s with session := session } hpc]
    exact .serves hfixed rfl (.inr rfl) hpc

def Suits (call : Call) : Place → Prop
  | .start => True
  | .lockState role peer => call = .handshake role peer
  | .client _ => ∃ peer, call = .handshake .client peer
  | .server server => Fixed server ∧ ∃ peer, call = .handshake .server peer
  | .settle _ => ∃ role peer, call = .handshake role peer
  | .attempt server => Fixed server ∧ call = .handshakeOpen
  | .loopTop | .lockClose | .settleOpen _ | .forgetPeer => call = .handshakeOpen
  | .recvTop _ | .recvWait _ | .returned (.audio _) => call = .recvAudio
  | .returned (.handshake _) => call ≠ .recvAudio

theorem untouched_state {state : SessionStateMachine} :
    Untouched session { session with state := state } :=
  ⟨⟨rfl, rfl, rfl, rfl, rfl, rfl⟩, rfl⟩

theorem untouched_succeeds : Untouched session (succeeds session).session := by
  unfold Closing.succeeds
  split
  · exact .refl _
  · exact untouched_state

theorem untouched_settles (result : Except TransportError Unit) :
    Untouched session (settles session result).session := by
  unfold Closing.settles
  split
  · exact untouched_succeeds
  · exact untouched_state

theorem untouched_settlesOpen (result : Except TransportError Unit) :
    Untouched session (settlesOpen session result).session := by
  unfold settlesOpen
  split
  · exact untouched_succeeds
  · exact untouched_state
  · exact untouched_state

theorem untouched_locksState (role : SessionRole) (peer : SocketAddr) :
    Untouched session (locksState moment session role peer).session := by
  unfold locksState
  simp only
  split
  · exact .refl _
  · cases role <;> exact untouched_state

theorem begins_stores (hcall : call ≠ .recvAudio) :
    Stores suite call ⟨.start, session⟩ (.moment moment) (begins moment session call).session := by
  cases call with
  | handshake role peer => exact ⟨rfl, rfl, rfl, rfl, rfl, rfl, rfl⟩
  | recvAudio => exact absurd rfl hcall
  | handshakeOpen =>
    unfold begins
    simp only
    split
    · exact .nothing (.refl _) rfl rfl rfl rfl rfl
    · exact .nothing untouched_state rfl rfl rfl rfl rfl

theorem exec_stores {st : Lone} {input : Input} (hcall : call ≠ .recvAudio)
    (hsuits : Suits call st.place) :
    Stores suite call st input (exec suite aead call st input).1.session := by
  obtain ⟨place, session⟩ := st
  cases input with
  | deadline | flagged =>
    cases place <;> exact .nothing ⟨⟨rfl, rfl, rfl, rfl, rfl, rfl⟩, rfl⟩ rfl rfl rfl rfl rfl
  | moment moment =>
    simp only [exec, moves]
    cases place <;> simp only
    case start => exact begins_stores hcall
    case lockState role peer =>
      exact .nothing (untouched_locksState role peer) rfl rfl rfl rfl rfl
    case client client => exact client_stores client
    case server server => exact server_stores hsuits.1
    case settle result => exact .nothing (untouched_settles result) rfl rfl rfl rfl rfl
    case loopTop => exact .nothing (.refl _) rfl rfl rfl rfl rfl
    case lockClose => exact .nothing untouched_state rfl rfl rfl rfl rfl
    case attempt server => exact attempt_stores hsuits.1
    case settleOpen result => exact .nothing (untouched_settlesOpen result) rfl rfl rfl rfl rfl
    case forgetPeer => exact ⟨rfl, rfl, rfl, rfl, rfl, rfl, rfl⟩
    case recvTop deadlineUs => exact absurd hsuits hcall
    case recvWait deadlineUs => exact absurd hsuits hcall
    case returned answer => exact .nothing (.refl _) rfl rfl rfl rfl rfl

theorem suits_begins (call : Call) : Suits call (begins moment session call).place := by
  cases call with
  | handshake role peer => exact rfl
  | recvAudio => exact rfl
  | handshakeOpen =>
    unfold begins
    simp only
    split
    · exact nofun
    · exact rfl

theorem suits_locksState {role : SessionRole} {peer : SocketAddr}
    (h : call = .handshake role peer) : Suits call (locksState moment session role peer).place := by
  unfold locksState
  simp only
  split
  · simp [handshakeAnswer, Suits, h]
  · cases role with
    | client => exact ⟨peer, h⟩
    | server => exact ⟨⟨⟨peer, rfl⟩, nofun⟩, peer, h⟩

theorem suits_succeeds (h : call ≠ .recvAudio) : Suits call (succeeds session).place := by
  unfold Closing.succeeds
  split
  · exact h
  · exact h

theorem suits_exec {st : Lone} {input : Input} (h : Suits call st.place) :
    Suits call (exec suite aead call st input).1.place := by
  obtain ⟨place, session⟩ := st
  cases input with
  | flagged => exact h
  | deadline =>
    cases place <;> try exact h
    case client client => exact ⟨.client, h⟩
    case server server => exact ⟨.server, h.2⟩
    case attempt server => exact h.2
  | moment moment =>
    simp only [exec, moves]
    cases place <;> simp only
    case start => exact suits_begins call
    case lockState role peer => exact suits_locksState h
    case client client =>
      unfold clientMoves
      simp only
      split
      · exact ⟨.client, h⟩
      · exact h
    case server server =>
      have hfixed : Fixed { server with session := session } := ⟨h.1.mode, h.1.pc⟩
      unfold serverMoves
      simp only
      split
      · exact ⟨.server, h.2⟩
      · exact ⟨(server_keeps hfixed suite moment.rand moment.env moment.event).fixed, h.2⟩
    case settle result =>
      obtain ⟨role, peer, rfl⟩ := h
      unfold Closing.settles
      split
      · exact suits_succeeds nofun
      · exact nofun
    case loopTop =>
      split_ifs
      · exact h
      · exact ⟨⟨⟨_, rfl⟩, nofun⟩, h⟩
    case lockClose =>
      have hcall : call = .handshakeOpen := h
      simp [handshakeAnswer, Suits, hcall]
    case attempt server =>
      have hfixed : Fixed { server with session := session } := ⟨h.1.mode, h.1.pc⟩
      unfold attemptMoves
      simp only
      split
      · exact h.2
      · exact ⟨(any_keeps hfixed suite moment.rand moment.env moment.event).fixed, h.2⟩
    case settleOpen result =>
      have hcall : call = .handshakeOpen := h
      unfold settlesOpen
      split
      · exact suits_succeeds (by simp [hcall])
      · simp [handshakeAnswer, Suits, hcall]
      · exact hcall
    case forgetPeer => exact h
    case recvTop deadlineUs =>
      unfold iterates
      split
      · exact h
      · simp only
        split_ifs
        · exact h
        · exact h
    case recvWait deadlineUs =>
      unfold receives
      split
      · exact h
      · exact h
      · simp only
        split
        · exact h
        · exact h
    case returned answer => exact h

end Steps

end GravitalTalk.Transport.LoneCall
