import GravitalTalk.Transport.LoneCall

/-! What holds of a lone call wherever it is, and what the fields it may store hold at the end. -/
namespace GravitalTalk.Transport.LoneCall
open Lib GravitalTalk.Core Transition Handshake Closing Trace

def Room (session : Session) : Prop := headerSize + 4 ≤ session.config.mtu

def Greeting.secrets (greeting : Greeting) (suite : Suite) : Secrets where
  shared := suite.diffieHellman greeting.rand.secret greeting.hello.ephemeralPublicKey
  transcript := buildTranscript greeting.hello.clientNonce greeting.rand.nonce
    greeting.rand.sessionId

def Greeting.key (greeting : Greeting) (suite : Suite) : SessionKey :=
  ((greeting.secrets suite).keys suite).2

/-- The id stored last and the ClientHello gone on with last. -/
structure Past where
  id : Option UInt32
  answered : Option Greeting

def Past.next (past : Past) (suite : Suite) (st : Lone) (input : Input) : Past where
  id := (idStored suite st input).or past.id
  answered := (current st input).or past.answered

/-- A codec has been agreed on, under an id that was stored, with the peer that was heard. -/
structure Agreed (call : Call) (past : Past) (session : Session) : Prop where
  codec : session.negotiatedCodec ∈ session.config.supportedCodecs
  id : past.id ≠ none
  peer : call = .handshakeOpen →
    ∃ greeting, past.answered = some greeting ∧ session.peer = some greeting.source

structure Completed (suite : Suite) (call : Call) (past : Past) (session : Session) : Prop where
  room : Room session
  agreed : Agreed call past session
  keys : ∃ enc dec, session.encryptKey = some enc ∧ session.decryptKey = some dec ∧
    (∀ peer, call = .handshake .client peer →
      session.localSsrc = session.sessionId ^^^ keyHead enc) ∧
    ((∀ peer, call ≠ .handshake .client peer) →
      ∃ greeting, past.answered = some greeting ∧ enc = greeting.key suite)

def Answers (suite : Suite) (past : Past) (offer : Offer) : Prop :=
  ∃ greeting, past.answered = some greeting ∧ offer.secrets suite = greeting.secrets suite

def ClientFits (suite : Suite) (call : Call) (past : Past) (session : Session)
    (client : Client) : Prop :=
  match client.pc with
  | .sendHello _ | .returned (.error _) => True
  | .awaitHello _ => Room session
  | .sendKeyExchange shown | .awaitConfirm shown =>
    Room session ∧ shown.codecAccepted ∈ session.config.supportedCodecs
  | .storeEncrypt shown =>
    Room session ∧ Agreed call past session ∧
      session.localSsrc = session.sessionId ^^^ keyHead (clientKeys suite client shown).1
  | .storeDecrypt shown =>
    Room session ∧ Agreed call past session ∧
      session.localSsrc = session.sessionId ^^^ keyHead (clientKeys suite client shown).1 ∧
        session.encryptKey = some (clientKeys suite client shown).1
  | .returned (.ok _) => Completed suite call past session

def ServerFits (suite : Suite) (call : Call) (past : Past) (session : Session) :
    ServerPc → Prop
  | .attempt => False
  | .helloTop | .awaitHello | .returned (.error _) => True
  | .sendHello offer => Agreed call past session ∧ Answers suite past offer
  | .keyTop offer | .awaitKeyExchange offer | .resendHello offer | .sendConfirm offer
  | .storeEncrypt offer => Room session ∧ Agreed call past session ∧ Answers suite past offer
  | .storeDecrypt offer =>
    Room session ∧ Agreed call past session ∧ Answers suite past offer ∧
      session.encryptKey = some (serverKeys suite offer).1
  | .returned (.ok _) => Completed suite call past session

section Fits
variable {suite : Suite} {call : Call} {past : Past} {session after : Session}

theorem room_sent {env : Env} {msg : MessageType} {sessionId : UInt32} {payload : Bytes}
    {peer : SocketAddr} {sent : List Sent}
    (h : session.sendControl env msg sessionId payload peer = (.ok (), after, sent)) :
    Room after := by
  have hconfig : after.config = session.config := (untouched_sent h).config
  have hresult : (session.sendControl env msg sessionId payload peer).1 = .ok () := by rw [h]
  obtain ⟨-, hmtu, -⟩ := (Session.sendPacket_ok_iff _ _ _ _ _).mp hresult
  have hroom : headerSize + payload.length + 4 ≤ session.config.mtu := hmtu
  unfold Room
  rw [hconfig]
  omega

theorem Agreed.untouched (h : Agreed call past session) (hafter : Untouched session after) :
    Agreed call past after := by
  refine ⟨?_, h.id, ?_⟩
  · rw [hafter.negotiatedCodec, hafter.config]
    exact h.codec
  · rw [hafter.peer]
    exact h.peer

theorem Room.untouched (h : Room session) (hafter : Untouched session after) : Room after := by
  rw [Room, hafter.config]
  exact h

theorem Completed.untouched (h : Completed suite call past session) (hafter : Untouched session after) :
    Completed suite call past after := by
  refine ⟨h.room.untouched hafter, h.agreed.untouched hafter, ?_⟩
  rw [hafter.encryptKey, hafter.decryptKey, hafter.localSsrc, hafter.sessionId]
  exact h.keys

theorem ClientFits.untouched {client : Client} (h : ClientFits suite call past session client)
    (hafter : Untouched session after) : ClientFits suite call past after client := by
  unfold ClientFits at h ⊢
  cases hpc : client.pc <;> simp only [hpc] at h ⊢
  case awaitHello attempt => exact h.untouched hafter
  case sendKeyExchange shown | awaitConfirm shown =>
    rw [hafter.config]
    exact ⟨h.1.untouched hafter, h.2⟩
  case storeEncrypt shown =>
    rw [hafter.localSsrc, hafter.sessionId]
    exact ⟨h.1.untouched hafter, h.2.1.untouched hafter, h.2.2⟩
  case storeDecrypt shown =>
    rw [hafter.localSsrc, hafter.sessionId, hafter.encryptKey]
    exact ⟨h.1.untouched hafter, h.2.1.untouched hafter, h.2.2⟩
  case returned result =>
    cases result with
    | error e => trivial
    | ok shown => exact h.untouched hafter

theorem ServerFits.untouched {pc : ServerPc} (h : ServerFits suite call past session pc)
    (hafter : Untouched session after) : ServerFits suite call past after pc := by
  cases pc <;> simp only [ServerFits] at h ⊢
  case sendHello offer => exact ⟨h.1.untouched hafter, h.2⟩
  case keyTop offer | awaitKeyExchange offer | resendHello offer | sendConfirm offer
      | storeEncrypt offer => exact ⟨h.1.untouched hafter, h.2.1.untouched hafter, h.2.2⟩
  case storeDecrypt offer =>
    rw [hafter.encryptKey]
    exact ⟨h.1.untouched hafter, h.2.1.untouched hafter, h.2.2⟩
  case returned result =>
    cases result with
    | error e => trivial
    | ok offer => exact h.untouched hafter

theorem checkServerHello_codec {config : Config} {payload : Bytes} {shown : ServerHello}
    (h : Client.checkServerHello config payload = .ok shown) :
    shown.codecAccepted ∈ config.supportedCodecs := by
  unfold Client.checkServerHello at h
  split at h
  · cases h
  · simp only at h
    split_ifs at h with hversion hcodec
    cases h
    simpa using hcodec

theorem chooseCodec_supported {config : Config} {preferred codec : UInt8}
    (h : Server.chooseCodec config preferred = .ok codec) : codec ∈ config.supportedCodecs := by
  unfold Server.chooseCodec at h
  split_ifs at h with hpreferred
  · cases h
    simpa using hpreferred
  · split at h
    next first hfirst =>
      cases h
      exact List.mem_of_head? hfirst
    next => cases h

variable {aead : Aead} {moment : Moment} {peer : SocketAddr}

theorem clientSends_fits (c : Client) {env : Env} {msg : MessageType} {sessionId : UInt32}
    {payload : Except TransportError Bytes} {next : ClientPc}
    (h : ∀ after, Room after → after.config = c.session.config →
      ClientFits suite call past after { c with session := after, pc := next }) :
    ClientFits suite call past (c.sends env msg sessionId payload next).1.session
      (c.sends env msg sessionId payload next).1 :=
  c.sends_rule (fun out => ClientFits suite call past out.1.session out.1) env msg sessionId payload
    next (fun _ => trivial) (fun _ _ _ _ _ _ => trivial) fun _ after _ _ hsend =>
      h after (room_sent hsend) (untouched_sent hsend).config

theorem client_fits {c c' : Client} (hcall : call = .handshake .client peer)
    (hc' : c' = { c with session := session }) (h : ClientFits suite call past session c) :
    ClientFits suite call (past.next suite ⟨.client c, session⟩ (.moment moment))
      (c'.step suite moment.env moment.event).1.session
      (c'.step suite moment.env moment.event).1 := by
  have hgreeting : greeting ⟨.client c, session⟩ (.moment moment) = none := rfl
  have hpc' : c'.pc = c.pc := by rw [hc']
  have hsession : c'.session = session := by rw [hc']
  have hkeys : ∀ shown, clientKeys suite c' shown = clientKeys suite c shown := by
    intro shown
    rw [hc']
    rfl
  have hnext : confirmed suite ⟨.client c, session⟩ (.moment moment) = none →
      past.next suite ⟨.client c, session⟩ (.moment moment) = past := by
    intro hnone
    simp [Past.next, idStored, current, hgreeting, hnone]
  unfold ClientFits at h
  unfold Client.step
  rw [hpc']
  cases hpc : c.pc <;> simp only [hpc] at h ⊢
  case sendHello attempt =>
    rw [hnext (by simp only [confirmed, hpc])]
    generalize encoded ((c'.hello suite).encode (List.replicate ClientHello.size 0)) = payload
    exact clientSends_fits c' fun after hroom _ => hroom
  case awaitHello attempt =>
    rw [hnext (by simp only [confirmed, hpc])]
    refine c'.onHello_rule (fun out => ClientFits suite call past out.session out) attempt
      moment.event trivial (fun _ => trivial) (fun _ _ _ => trivial)
      fun _ _ shown _ _ hcheck => ⟨hsession ▸ h, checkServerHello_codec hcheck⟩
  case sendKeyExchange shown =>
    rw [hnext (by simp only [confirmed, hpc])]
    generalize encoded _ = payload
    refine clientSends_fits c' fun after hroom hconfig => ⟨hroom, ?_⟩
    rw [hconfig, hsession]
    exact h.2
  case awaitConfirm shown =>
    cases hconfirms : confirms suite session c shown moment.event with
    | true =>
      have hconfirmed : confirmed suite ⟨.client c, session⟩ (.moment moment) = some (c, shown) := by
        simp only [confirmed, hpc, hconfirms, if_true]
      have hid : (past.next suite ⟨.client c, session⟩ (.moment moment)).id =
          some shown.sessionId := by simp [Past.next, idStored, current, hgreeting, hconfirmed]
      have hafter : c'.onConfirm suite shown moment.event = _ :=
        onConfirm_confirms (by rw [hsession, hc']; exact hconfirms)
      rw [hafter, hc']
      exact ⟨h.1, ⟨h.2, by rw [hid]; exact Option.some_ne_none _, by simp [hcall]⟩, rfl⟩
    | false =>
      rw [hnext (by simp only [confirmed, hpc, hconfirms, Bool.false_eq_true, if_false])]
      have hignores : confirms suite c'.session c' shown moment.event = false := by
        rw [hsession, hc']
        exact hconfirms
      obtain hafter | ⟨e, hafter⟩ := onConfirm_ignores hignores <;> rw [hafter]
      · simp only [ClientFits, hpc', hpc, hsession]
        exact h
      · trivial
  case storeEncrypt shown =>
    rw [hnext (by simp only [confirmed, hpc])]
    obtain ⟨hroom, hagreed, hssrc⟩ := h
    subst hc'
    exact ⟨hroom, ⟨hagreed.codec, hagreed.id, hagreed.peer⟩, hssrc, rfl⟩
  case storeDecrypt shown =>
    rw [hnext (by simp only [confirmed, hpc])]
    obtain ⟨hroom, hagreed, hssrc, hencrypt⟩ := h
    subst hc'
    exact ⟨hroom, ⟨hagreed.codec, hagreed.id, hagreed.peer⟩, _, _, hencrypt, rfl,
      fun _ _ => hssrc, fun hserver => absurd hcall (hserver peer)⟩
  case returned result =>
    rw [hnext (by simp only [confirmed, hpc])]
    simp only [ClientFits, hpc', hpc, hsession, hkeys]
    exact h

theorem serverSends_fits {s : Server} (h : Fixed s) {env : Env} {msg : MessageType}
    {sessionId : UInt32} {payload : Except TransportError Bytes} {next : ServerPc}
    (hnext : ∀ after, Room after → Untouched s.session after → ServerFits suite call past after next) :
    ServerFits suite call past (s.sends env msg sessionId payload peer next).1.session
      (s.sends env msg sessionId payload peer next).1.pc := by
  obtain ⟨dest, hmode⟩ := h.mode
  refine s.sends_rule (fun out => ServerFits suite call past out.1.session out.1.pc) env msg sessionId
    payload peer next (fun e => ?_) (fun _ e after _ _ hsend => ?_) fun _ after _ _ hsend =>
      hnext after (room_sent hsend) (untouched_sent hsend)
  · rw [Server.finishes_fixed hmode]
    trivial
  · rw [Server.finishes_fixed (by exact hmode)]
    trivial

theorem finishes_fits {s : Server} (h : Fixed s) (e : TransportError) :
    ServerFits suite call past (s.finishes (.error e)).session (s.finishes (.error e)).pc := by
  obtain ⟨peer, hmode⟩ := h.mode
  rw [Server.finishes_fixed hmode]
  trivial

theorem negotiates_fits {s : Server} (h : Fixed s) (g : Greeting) (peer : SocketAddr)
    (hpast : g.Current → past.id ≠ none ∧ past.answered = some g)
    (hpeer : call = .handshakeOpen → s.session.peer = some g.source) :
    ServerFits suite call past (s.negotiates suite g.rand g.hello peer).session
      (s.negotiates suite g.rand g.hello peer).pc := by
  unfold Server.negotiates
  split_ifs with hversion
  · exact finishes_fits h _
  · obtain ⟨hid, hanswered⟩ := hpast hversion
    simp only
    cases hcodec : Server.chooseCodec s.session.config g.hello.codecPreferred with
    | error e =>
      have hfixed : Fixed { s with session := { s.session with sessionId := g.rand.sessionId } } :=
        ⟨h.mode, h.pc⟩
      exact finishes_fits hfixed _
    | ok codec =>
      exact ⟨⟨chooseCodec_supported hcodec, hid, fun hopen => ⟨g, hanswered, hpeer hopen⟩⟩,
        g, hanswered, rfl⟩

theorem serves_fits {s : Server} (hcall : ∀ peer, call ≠ .handshake .client peer) (h : Fixed s)
    (hpc : s.pc ≠ .awaitHello)
    (hfits : ServerFits suite call past s.session s.pc) :
    ServerFits suite call past (s.step suite moment.rand moment.env moment.event).1.session
      (s.step suite moment.rand moment.env moment.event).1.pc := by
  obtain ⟨peer, hmode⟩ := h.mode
  unfold Server.step
  cases hcurrent : s.pc <;> simp only [hcurrent, ServerFits] at hfits ⊢
  case awaitHello => exact absurd hcurrent hpc
  case helloTop =>
    split_ifs
    · exact finishes_fits h _
    · trivial
  case sendHello offer =>
    unfold Server.sendsHello
    generalize encoded _ = payload
    exact serverSends_fits h fun after hroom hafter =>
      ⟨hroom, hfits.1.untouched hafter, hfits.2⟩
  case resendHello offer =>
    unfold Server.sendsHello
    generalize encoded _ = payload
    exact serverSends_fits h fun after hroom hafter =>
      ⟨hroom, hfits.2.1.untouched hafter, hfits.2.2⟩
  case keyTop offer =>
    split_ifs
    · exact finishes_fits h _
    · exact hfits
  case awaitKeyExchange offer =>
    exact s.onKeyExchange_rule (fun out => ServerFits suite call past out.session out.pc) suite offer
      moment.event hfits (fun e => finishes_fits h e) (fun _ _ _ _ => hfits)
      fun _ _ _ _ _ _ _ => hfits
  case sendConfirm offer =>
    generalize encoded _ = payload
    exact serverSends_fits h fun after hroom hafter =>
      ⟨hroom, hfits.2.1.untouched hafter, hfits.2.2⟩
  case storeEncrypt offer =>
    obtain ⟨hroom, hagreed, hanswers⟩ := hfits
    exact ⟨hroom, ⟨hagreed.codec, hagreed.id, hagreed.peer⟩, hanswers, rfl⟩
  case storeDecrypt offer =>
    obtain ⟨hroom, hagreed, ⟨g, hanswered, hsecrets⟩, hencrypt⟩ := hfits
    have hkey : (serverKeys suite offer).1 = g.key suite := by
      rw [serverKeys, hsecrets]
      rfl
    rw [Server.finishes_fixed (by exact hmode)]
    exact ⟨hroom, ⟨hagreed.codec, hagreed.id, hagreed.peer⟩, _, _, hencrypt, rfl,
      fun peer h => absurd h (hcall peer), fun _ => ⟨g, hanswered, hkey⟩⟩
  case returned result => exact hfits

theorem next_deaf {st : Lone} {input : Input} (hgreeting : greeting st input = none)
    (hconfirmed : confirmed suite st input = none) : past.next suite st input = past := by
  simp [Past.next, idStored, current, hgreeting, hconfirmed]

theorem waiting_fits {st : Lone} {input : Input} {waiting after : Server} {mode : Mode} {rand : Rand}
    {event : RecvEvent} (hconfirmed : confirmed suite st input = none)
    (hgreeting : greeting st input = hears waiting.session mode rand event)
    (hdeaf : hears waiting.session mode rand event = none →
      ServerFits suite call past after.session after.pc)
    (hheard : ∀ g, hears waiting.session mode rand event = some g →
      ∃ (s : Server) (peer : SocketAddr), Fixed s ∧
        (call = .handshakeOpen → s.session.peer = some g.source) ∧
          after = s.negotiates suite rand g.hello peer) :
    ServerFits suite call (past.next suite st input) after.session after.pc := by
  cases hhears : hears waiting.session mode rand event with
  | none =>
    rw [next_deaf (hgreeting.trans hhears) hconfirmed]
    exact hdeaf hhears
  | some g =>
    obtain ⟨s, peer, hfixed, hpeer, rfl⟩ := hheard g hhears
    obtain ⟨_, _, -, -, heq, -⟩ := hears_brings hhears
    have hrand : rand = g.rand := by rw [heq]
    rw [hrand]
    refine negotiates_fits hfixed g peer (fun hcurrent => ?_) hpeer
    simp [Past.next, idStored, current, hgreeting, hhears, hcurrent]

theorem server_fits {s s' : Server} (hcall : call = .handshake .server peer) (h : Fixed s)
    (hs' : s' = { s with session := session })
    (hfits : ServerFits suite call past session s.pc) :
    ServerFits suite call (past.next suite ⟨.server s, session⟩ (.moment moment))
      (s'.step suite moment.rand moment.env moment.event).1.session
      (s'.step suite moment.rand moment.env moment.event).1.pc := by
  obtain ⟨peer, hmode⟩ := h.mode
  have hfixed : Fixed s' := by rw [hs']; exact ⟨h.mode, h.pc⟩
  have hsession : s'.session = session := by rw [hs']
  have hpc' : s'.pc = s.pc := by rw [hs']
  by_cases hpc : s.pc = .awaitHello
  · have hmode' : s'.mode = .fixed peer := by rw [hs']; exact hmode
    have hstep : (s'.step suite moment.rand moment.env moment.event).1 =
        s'.onHelloFrom suite moment.rand peer moment.event := by
      simp only [Server.step, hpc', hpc, hmode']
    rw [hstep]
    refine @waiting_fits suite call past _ _ s' _ (.fixed peer) moment.rand moment.event rfl ?_
      (fun hhears => ?_) fun g hhears => ?_
    · simp only [greeting, listens, hpc, hmode, hsession, Option.bind_some]
    · obtain hafter | ⟨e, hafter⟩ := @onHelloFrom_deaf suite _ _ _ _ hhears
      · rw [hafter, hsession, hpc']
        exact hfits
      · rw [hafter]
        exact finishes_fits hfixed e
    · exact ⟨s', peer, hfixed, by simp [hcall], onHelloFrom_hears hhears⟩
  · have hgreeting : greeting ⟨.server s, session⟩ (.moment moment) = none := by
      simp only [greeting, listens]
      rfl
    rw [next_deaf hgreeting rfl]
    exact serves_fits (by simp [hcall]) hfixed (hpc' ▸ hpc) (by rw [hsession, hpc']; exact hfits)

theorem attempt_fits {s s' : Server} (hcall : call = .handshakeOpen) (h : Fixed s)
    (hs' : s' = { s with session := session }) (hfits : ServerFits suite call past session s.pc) :
    ServerFits suite call (past.next suite ⟨.attempt s, session⟩ (.moment moment))
      (anyStep s' suite moment.rand moment.env moment.event).1.session
      (anyStep s' suite moment.rand moment.env moment.event).1.pc := by
  have hfixed : Fixed s' := by rw [hs']; exact ⟨h.mode, h.pc⟩
  have hsession : s'.session = session := by rw [hs']
  have hpc' : s'.pc = s.pc := by rw [hs']
  by_cases hpc : s.pc = .awaitHello
  · rw [anyStep_greets (hpc'.trans hpc)]
    refine @waiting_fits suite call past _ _ s' _ .anyPeer moment.rand moment.event rfl ?_
      (fun hhears => ?_) fun g hhears => ?_
    · simp only [greeting, listens, hpc, hsession, Option.bind_some]
    · obtain hafter | ⟨e, hafter⟩ := @onHelloAny_deaf suite _ _ _ hhears
      · rw [hafter]
        trivial
      · rw [hafter]
        exact finishes_fits hfixed e
    · have hknown : Fixed { s' with session := { s'.session with peer := some g.source } } :=
        ⟨hfixed.mode, hfixed.pc⟩
      exact ⟨_, g.source, hknown, fun _ => rfl, onHelloAny_hears hhears⟩
  · have hgreeting : greeting ⟨.attempt s, session⟩ (.moment moment) = none := by
      simp only [greeting, listens]
      rfl
    rw [next_deaf hgreeting rfl, anyStep_serves (hpc' ▸ hpc)]
    exact serves_fits (by simp [hcall]) hfixed (hpc' ▸ hpc) (by rw [hsession, hpc']; exact hfits)

def Succeeded : Place → Prop
  | .settle (.ok ()) | .settleOpen (.ok ()) | .returned (.handshake (.ok ())) => True
  | _ => False

def PlaceFits (suite : Suite) (call : Call) (past : Past) (session : Session) : Place → Prop
  | .client client => ClientFits suite call past session client
  | .server server | .attempt server => ServerFits suite call past session server.pc
  | .settle (.ok ()) | .settleOpen (.ok ()) | .returned (.handshake (.ok ())) =>
    Completed suite call past session
  | _ => True

/-- What holds of a call that began with `start`, at any point of it. -/
structure Fits (suite : Suite) (call : Call) (start : Session) (past : Past) (st : Lone) :
    Prop where
  suits : Suits call st.place
  config : st.session.config = start.config
  driving : st.place.Driving → st.session.state.state = .handshaking
  peer : ∀ role peer, call = .handshake role peer → st.place = .start ∨
    st.session.peer = some peer
  localSsrc : (∀ peer, call ≠ .handshake .client peer) → st.session.localSsrc = start.localSsrc
  decryptKey : ¬Succeeded st.place → st.session.decryptKey = start.decryptKey
  place : PlaceFits suite call past st.session st.place

theorem transition_starts {machine state : SessionStateMachine} {event : SessionEvent}
    {result : SessionState} (hevent : event = .startConnect ∨ event = .startAccept)
    (h : machine.transition event = (.ok result, state)) : state.state = .handshaking := by
  unfold SessionStateMachine.transition at h
  cases hstate : machine.state <;> obtain rfl | rfl := hevent <;>
    simp only [hstate, SessionStateMachine.next, Prod.mk.injEq, reduceCtorEq, false_and] at h
  all_goals rw [← h.2]

/-- Inside the handshake the state machine stays where the call has put it. -/
theorem driving_moves {place : Place} (hsuits : Suits call place)
    (h : place.Driving → session.state.state = .handshaking) :
    (moves suite aead moment session call place).place.Driving →
      (moves suite aead moment session call place).session.state.state = .handshaking := by
  cases place <;> simp only [moves]
  case start =>
    cases call with
    | handshake role peer => exact False.elim
    | recvAudio => exact False.elim
    | handshakeOpen =>
      unfold begins
      simp only
      split
      next => exact False.elim
      next htransition => exact fun _ => transition_starts (.inr rfl) htransition
  case lockState role peer =>
    unfold locksState
    cases role with
    | client =>
      simp only
      split
      next => exact False.elim
      next htransition => exact fun _ => transition_starts (.inl rfl) htransition
    | server =>
      simp only
      split
      next => exact False.elim
      next htransition => exact fun _ => transition_starts (.inr rfl) htransition
  case client client =>
    intro _
    rw [clientMoves_session]
    exact (congrArg _ (client_keeps _ suite moment.env moment.event).state).trans (h trivial)
  case server server =>
    intro _
    have hfixed : Fixed { server with session := session } := ⟨hsuits.1.mode, hsuits.1.pc⟩
    rw [serverMoves_session]
    exact (congrArg _ (server_keeps hfixed suite moment.rand moment.env
      moment.event).session.state).trans (h trivial)
  case attempt server =>
    intro _
    have hfixed : Fixed { server with session := session } := ⟨hsuits.1.mode, hsuits.1.pc⟩
    rw [attemptMoves_session]
    exact (congrArg _ (any_keeps hfixed suite moment.rand moment.env
      moment.event).session.state).trans (h trivial)
  case settle result =>
    unfold Closing.settles Closing.succeeds
    split
    · split <;> exact False.elim
    · exact False.elim
  case loopTop => exact fun _ => h trivial
  case lockClose => exact False.elim
  case settleOpen result =>
    have hstate := h trivial
    unfold settlesOpen Closing.succeeds
    split
    · split <;> exact False.elim
    · exact False.elim
    · intro _
      simp [applies, SessionStateMachine.transition, SessionStateMachine.next, hstate]
  case forgetPeer => exact fun _ => h trivial
  case recvTop deadlineUs =>
    unfold iterates
    split
    · exact False.elim
    · simp only
      split_ifs <;> exact False.elim
  case recvWait deadlineUs =>
    unfold receives
    split
    · exact False.elim
    · exact False.elim
    · simp only
      split <;> exact False.elim
  case returned answer => exact False.elim

theorem driving_exec {st : Lone} {input : Input} (hsuits : Suits call st.place)
    (h : st.place.Driving → st.session.state.state = .handshaking) :
    (exec suite aead call st input).1.place.Driving →
      (exec suite aead call st input).1.session.state.state = .handshaking := by
  obtain ⟨place, session⟩ := st
  cases input with
  | flagged => exact h
  | moment moment => exact driving_moves hsuits h
  | deadline => cases place <;> exact h

theorem succeeds_fits (h : Completed suite call past session) :
    PlaceFits suite call past (succeeds session).session (succeeds session).place := by
  unfold Closing.succeeds
  split
  · trivial
  · exact h.untouched untouched_state

theorem place_moves {place : Place} (hsuits : Suits call place)
    (h : PlaceFits suite call past session place) :
    PlaceFits suite call (past.next suite ⟨place, session⟩ (.moment moment))
      (moves suite aead moment session call place).session
      (moves suite aead moment session call place).place := by
  cases place <;> simp only [moves]
  case start =>
    cases call with
    | handshake role peer => trivial
    | recvAudio => trivial
    | handshakeOpen =>
      unfold begins
      simp only
      split <;> trivial
  case lockState role peer =>
    unfold locksState
    simp only
    split
    · trivial
    · cases role <;> trivial
  case client client =>
    obtain ⟨peer, hcall⟩ := hsuits
    have hfits := @client_fits suite call past session moment peer client _ hcall rfl h
    unfold clientMoves
    simp only
    split
    next result hpc =>
      rw [ClientFits, hpc] at hfits
      cases result with
      | error e => trivial
      | ok shown => exact hfits
    next => exact hfits
  case server server =>
    obtain ⟨hfixed, peer, hcall⟩ := hsuits
    have hfits := @server_fits suite call past session moment peer server _ hcall hfixed rfl h
    unfold serverMoves
    simp only
    split
    next result hpc =>
      rw [hpc] at hfits
      cases result with
      | error e => trivial
      | ok offer => exact hfits
    next => exact hfits
  case attempt server =>
    obtain ⟨hfixed, hcall⟩ := hsuits
    have hfits := @attempt_fits suite call past session moment server _ hcall hfixed rfl h
    unfold attemptMoves
    simp only
    split
    next result hpc =>
      rw [hpc] at hfits
      cases result with
      | error e => trivial
      | ok offer => exact hfits
    next => exact hfits
  case settle result =>
    rw [next_deaf rfl rfl]
    unfold Closing.settles
    split
    · exact succeeds_fits h
    · trivial
  case loopTop => split_ifs <;> trivial
  case lockClose => trivial
  case settleOpen result =>
    rw [next_deaf rfl rfl]
    unfold settlesOpen
    split
    · exact succeeds_fits h
    · trivial
    · trivial
  case forgetPeer => trivial
  case recvTop deadlineUs =>
    unfold iterates
    split
    · trivial
    · simp only
      split_ifs <;> trivial
  case recvWait deadlineUs =>
    unfold receives
    split
    · trivial
    · trivial
    · simp only
      split <;> trivial
  case returned answer =>
    rw [next_deaf rfl rfl]
    exact h

theorem storesDecrypt_succeeds {place : Place} (hsuits : Suits call place)
    (h : storesDecrypt suite place ≠ none) :
    Succeeded (moves suite aead moment session call place).place := by
  cases place <;> simp only [moves, storesDecrypt, ne_eq, not_true_eq_false] at h ⊢
  case client client =>
    cases hpc : client.pc <;> simp only [hpc, not_true_eq_false] at h
    simp only [clientMoves, Client.step, hpc]
    trivial
  case server server =>
    obtain ⟨⟨⟨peer, hmode⟩, -⟩, -⟩ := hsuits
    cases hpc : server.pc <;> simp only [hpc, not_true_eq_false] at h
    simp only [serverMoves, Server.step, hpc, Server.finishes, hmode]
    trivial
  case attempt server =>
    obtain ⟨⟨⟨peer, hmode⟩, -⟩, -⟩ := hsuits
    cases hpc : server.pc <;> simp only [hpc, not_true_eq_false] at h
    simp only [attemptMoves, anyStep, Server.step, hpc, Server.finishes, hmode]
    trivial

theorem succeeded_moves {place : Place} (hdriving : place.Driving →
      session.state.state = .handshaking) (h : Succeeded place) :
    Succeeded (moves suite aead moment session call place).place := by
  have hsucceeds : session.state.state = .handshaking → Succeeded (succeeds session).place := by
    intro hstate
    simp [Closing.succeeds, SessionStateMachine.transition, SessionStateMachine.next, hstate,
      handshakeAnswer, Succeeded]
  cases place <;> try exact h.elim
  case settle result =>
    cases result with
    | error e => exact h.elim
    | ok _ => exact hsucceeds (hdriving trivial)
  case settleOpen result =>
    cases result with
    | error e => exact h.elim
    | ok _ => exact hsucceeds (hdriving trivial)
  case returned answer => exact h

theorem succeeded_exec {st : Lone} {input : Input}
    (hdriving : st.place.Driving → st.session.state.state = .handshaking)
    (h : Succeeded st.place) : Succeeded (exec suite aead call st input).1.place := by
  obtain ⟨place, session⟩ := st
  cases input with
  | flagged => exact h
  | moment moment => exact succeeded_moves hdriving h
  | deadline => cases place <;> exact h

theorem confirmed_client {st : Lone} {input : Input} (hsuits : Suits call st.place)
    (h : ∀ peer, call ≠ .handshake .client peer) : confirmed suite st input = none := by
  obtain ⟨place, session⟩ := st
  cases input with
  | deadline | flagged => rfl
  | moment moment =>
    cases place <;> try rfl
    obtain ⟨peer, hcall⟩ := hsuits
    exact absurd hcall (h peer)

theorem greeting_client {st : Lone} {input : Input} (hsuits : Suits call st.place)
    (h : call = .handshake .client peer) : greeting st input = none := by
  obtain ⟨place, session⟩ := st
  cases input with
  | deadline | flagged => rfl
  | moment moment =>
    cases place <;> try rfl
    case server server =>
      obtain ⟨-, dest, hcall⟩ := hsuits
      simp [h] at hcall
    case attempt server =>
      obtain ⟨-, hcall⟩ := hsuits
      simp [h] at hcall

theorem peerStored_handshake {st : Lone} {input : Input} {role : SessionRole}
    (hsuits : Suits call st.place) (h : call = .handshake role peer) (hplace : st.place ≠ .start) :
    peerStored call st input = none := by
  obtain ⟨place, session⟩ := st
  cases place <;> try rfl
  case start => exact absurd rfl hplace
  case attempt server =>
    obtain ⟨-, hcall⟩ := hsuits
    simp [h] at hcall
  case forgetPeer =>
    have hcall : call = .handshakeOpen := hsuits
    simp [h] at hcall

theorem PlaceFits.untouched {place : Place} (h : PlaceFits suite call past session place)
    (hafter : Untouched session after) : PlaceFits suite call past after place := by
  unfold PlaceFits at h ⊢
  split at h
  · exact h.untouched hafter
  · exact h.untouched hafter
  · exact h.untouched hafter
  · exact h.untouched hafter
  · exact h.untouched hafter
  · exact h.untouched hafter
  · trivial

theorem Fits.exec {st : Lone} {input : Input} {start : Session} (hcall : call ≠ .recvAudio)
    (h : Fits suite call start past st) :
    Fits suite call start (past.next suite st input) (exec suite aead call st input).1 := by
  have hstores := @exec_stores suite aead call st input hcall h.suits
  refine ⟨suits_exec h.suits, hstores.config.trans h.config, driving_exec h.suits h.driving,
    fun role peer hrole => ?_, fun hclient => ?_, fun hfailed => ?_, ?_⟩
  · by_cases hplace : st.place = .start
    · obtain ⟨place, session⟩ := st
      cases hplace
      cases input with
      | deadline | flagged => exact .inl rfl
      | moment moment =>
        rw [hstores.peer, hrole]
        exact .inr rfl
    · rw [hstores.peer, peerStored_handshake h.suits hrole hplace]
      exact .inr ((h.peer role peer hrole).resolve_left hplace)
  · rw [hstores.localSsrc, ssrcStored, confirmed_client h.suits hclient]
    exact h.localSsrc hclient
  · have hbefore : ¬Succeeded st.place := fun hsucceeded =>
      hfailed (succeeded_exec h.driving hsucceeded)
    have hstored : keyStored (storesDecrypt suite) st input = none := by
      cases input with
      | deadline | flagged => rfl
      | moment moment =>
        refine keyStored_none ?_
        by_contra hstores
        exact hfailed (storesDecrypt_succeeds h.suits hstores)
    rw [hstores.decryptKey, hstored]
    exact h.decryptKey hbefore
  · obtain ⟨place, session⟩ := st
    cases input with
    | moment moment => exact place_moves h.suits h.place
    | flagged =>
      rw [next_deaf rfl rfl]
      exact h.place.untouched ⟨⟨rfl, rfl, rfl, rfl, rfl, rfl⟩, rfl⟩
    | deadline =>
      rw [next_deaf rfl rfl]
      cases place <;> first | trivial | exact h.place

theorem Fits.init (suite : Suite) (call : Call) (start : Session) :
    Fits suite call start ⟨none, none⟩ ⟨.start, start⟩ where
  suits := trivial
  config := rfl
  driving := nofun
  peer _ _ _ := .inl rfl
  localSsrc _ := rfl
  decryptKey _ := rfl
  place := trivial

end Fits

section Run
variable {suite : Suite} {aead : Aead} {call : Call} {start : Session}

abbrev run (suite : Suite) (aead : Aead) (call : Call) (start : Session) (inputs : List Input) :
    List (Event Lone Input (List Sent)) := history (exec suite aead call) ⟨.start, start⟩ inputs

abbrev done (suite : Suite) (aead : Aead) (call : Call) (start : Session) (inputs : List Input) :
    Lone := final (exec suite aead call) ⟨.start, start⟩ inputs

theorem fits_run (hcall : call ≠ .recvAudio) (inputs : List Input) :
    Fits suite call start
      ⟨lastOf (idStored suite) (run suite aead call start inputs),
        lastOf current (run suite aead call start inputs)⟩
      (done suite aead call start inputs) := by
  let inv (past : List (Event Lone Input (List Sent))) (st : Lone) : Prop :=
    Fits suite call start ⟨lastOf (idStored suite) past, lastOf current past⟩ st
  have hstep : ∀ past st input, inv past st →
      inv (past ++ [event (exec suite aead call) st input]) (exec suite aead call st input).1 := by
    intro past st input h
    simp only [inv, lastOf_concat]
    exact h.exec hcall
  exact @history_induction _ _ _ _ inv _ (.init suite call start) hstep inputs

theorem run_suits {inputs : List Input} {step : Event Lone Input (List Sent)}
    (hcall : call ≠ .recvAudio) (h : step ∈ run suite aead call start inputs) :
    Suits call step.before.place ∧ step.before.session.config = start.config := by
  let inv (st : Lone) : Prop := Suits call st.place ∧ st.session.config = start.config
  have hstep : ∀ st input, inv st → inv (exec suite aead call st input).1 := fun st input h =>
    ⟨suits_exec h.1, (exec_stores hcall h.1).config.trans h.2⟩
  have hinit : inv ⟨.start, start⟩ := ⟨trivial, rfl⟩
  exact history_forall hinit hstep h

/-- Each field holds what the run stored in it last. -/
theorem run_field {α : Type} {field : Session → α} {stored : Lone → Input → Option α}
    {inputs : List Input} (hcall : call ≠ .recvAudio)
    (h : ∀ {st : Lone} {input : Input} {after : Session}, Stores suite call st input after →
      field after = (stored st input).getD (field st.session)) :
    field (done suite aead call start inputs).session =
      (lastOf stored (run suite aead call start inputs)).getD (field start) := by
  let held (st : Lone) : α := field st.session
  have hstep : ∀ step ∈ run suite aead call start inputs,
      held step.after = (stored step.before step.input).getD (held step.before) := by
    intro step hmem
    rw [after_of_mem_history hmem]
    exact h (exec_stores hcall (run_suits hcall hmem).1)
  exact final_field hstep

theorem chooseCodec_config (config : Config) :
    (∀ preferred, (Server.chooseCodec config preferred).toOption = none) ∨
      ∀ preferred, (Server.chooseCodec config preferred).toOption ≠ none := by
  cases hcodecs : config.supportedCodecs with
  | nil => exact .inl fun preferred => by simp [Server.chooseCodec, hcodecs, Except.toOption]
  | cons first rest =>
    refine .inr fun preferred => ?_
    unfold Server.chooseCodec
    split_ifs
    · simp [Except.toOption]
    · simp [hcodecs, Except.toOption]

section Roles
variable {peer : SocketAddr} {inputs : List Input}

theorem handshake_call {result : Except TransportError Unit}
    (h : (done suite aead call start inputs).place = .returned (.handshake result)) :
    call ≠ .recvAudio := by
  let inv (st : Lone) : Prop := Suits call st.place
  have hinit : inv ⟨.start, start⟩ := trivial
  have hsuits : inv (done suite aead call start inputs) :=
    final_induction hinit (fun _ _ h => suits_exec h) inputs
  simp only [inv, h] at hsuits
  exact hsuits

/-- A client hears no ClientHello, and what it stores it has from the ServerHello. -/
theorem client_run (hcall : call = .handshake .client peer) :
    lastOf current (run suite aead call start inputs) = none ∧
      lastOf (idStored suite) (run suite aead call start inputs) =
        (lastOf (confirmed suite) (run suite aead call start inputs)).map
          (fun (_, shown) => shown.sessionId) ∧
      lastOf (codecStored suite) (run suite aead call start inputs) =
        (lastOf (confirmed suite) (run suite aead call start inputs)).map
          fun (_, shown) => shown.codecAccepted := by
  have hgreeting : ∀ step ∈ run suite aead call start inputs,
      current step.before step.input = none := by
    intro step hmem
    have hsuits := (run_suits (by simp [hcall]) hmem).1
    simp only [current, greeting_client hsuits hcall, Option.bind_none]
  refine ⟨lastOf_none hgreeting, ?_, ?_⟩
  · rw [← lastOf_map]
    exact lastOf_congr fun step hmem => by simp [idStored, hgreeting step hmem]
  · rw [← lastOf_map]
    exact lastOf_congr fun step hmem => by simp [codecStored, hgreeting step hmem]

/-- A server sees no SessionConfirm, and stores what it draws and chooses for a ClientHello. -/
theorem server_run (hcall : call ≠ .recvAudio) (hclient : ∀ peer, call ≠ .handshake .client peer) :
    lastOf (confirmed suite) (run suite aead call start inputs) = none ∧
      lastOf (idStored suite) (run suite aead call start inputs) =
        (lastOf current (run suite aead call start inputs)).map
          (fun greeting => greeting.rand.sessionId) ∧
      lastOf (codecStored suite) (run suite aead call start inputs) =
        (lastOf current (run suite aead call start inputs)).bind fun greeting =>
          (Server.chooseCodec start.config greeting.hello.codecPreferred).toOption := by
  have hconfirmed : ∀ step ∈ run suite aead call start inputs,
      confirmed suite step.before step.input = none :=
    fun step hmem => confirmed_client (run_suits hcall hmem).1 hclient
  refine ⟨lastOf_none hconfirmed, ?_, ?_⟩
  · rw [← lastOf_map]
    exact lastOf_congr fun step hmem => by simp [idStored, hconfirmed step hmem]
  · have hcodecs : (∀ greeting : Greeting,
          (Server.chooseCodec start.config greeting.hello.codecPreferred).toOption = none) ∨
        ∀ greeting : Greeting,
          (Server.chooseCodec start.config greeting.hello.codecPreferred).toOption ≠ none := by
      obtain hnone | hsome := chooseCodec_config start.config
      · exact .inl fun _ => hnone _
      · exact .inr fun _ => hsome _
    rw [← lastOf_bind hcodecs]
    refine lastOf_congr fun step hmem => ?_
    simp [codecStored, hconfirmed step hmem, (run_suits hcall hmem).2]

end Roles

end Run

end GravitalTalk.Transport.LoneCall
