import GravitalTalk.Transport.CutShort

/-! What a lone handshake leaves behind: on failure what it should not have touched, on success what
every role has to have set up. -/
namespace GravitalTalk.Transport.LoneCall
open Lib GravitalTalk.Core Transition Handshake Closing Trace

inductive Turn where
  | heard (source : SocketAddr)
  | failed

def turn (st : Lone) (input : Input) : Option Turn :=
  match st.place, input with
  | .attempt _, _ => (greeting st input).map fun greeting => .heard greeting.source
  | .forgetPeer, .moment _ => some .failed
  | _, _ => none

/-- Where a turn leaves a session that had this peer as it was. -/
def Turn.Suits (peer : Option SocketAddr) : Turn → Prop
  | .heard source => peer = some source
  | .failed => peer = none

/-- The session had the peer of the call: the address `handshake` was given; in `handshake_open` the
source of the ClientHello heard last, or none if an attempt failed after it. -/
def OwnPeer (call : Call) (start : Session) (run : List (Event Lone Input (List Sent))) : Prop :=
  match call with
  | .handshake _ peer => start.peer = some peer
  | .handshakeOpen => ∀ last, lastOf turn run = some last → last.Suits start.peer
  | .recvAudio => True

/-- The peer is the session's own.  The last ClientHello of a version that is still spoken, if a
server heard one, drew the id and got the codec the session had.  The deadline did not come between
the last stores, or else the messages heard and the values drawn give what the session had. -/
structure Harmless (suite : Suite) (call : Call) (start : Session)
    (run : List (Event Lone Input (List Sent))) : Prop where
  peer : OwnPeer call start run
  greeting : ∀ greeting, lastOf current run = some greeting →
    greeting.rand.sessionId = start.sessionId ∧ ∀ codec,
      Server.chooseCodec start.config greeting.hello.codecPreferred = .ok codec →
        codec = start.negotiatedCodec
  confirmed : ∀ confirmation, lastOf (cut halfConfirmed) run = some confirmation →
    confirmation.shown.sessionId = start.sessionId ∧
      confirmation.shown.codecAccepted = start.negotiatedCodec ∧
        confirmation.shown.sessionId ^^^ keyHead (confirmation.key suite) = start.localSsrc
  keyed : ∀ keying, lastOf (cut halfKeyed) run = some keying →
    some (keying.key suite) = start.encryptKey

theorem getD_eq_self {α : Type} {stored : Option α} {a : α} :
    stored.getD a = a ↔ ∀ b, stored = some b → b = a := by
  cases stored <;> simp

section Failure
variable {suite : Suite} {aead : Aead} {call : Call} {start : Session} {inputs : List Input}
  {e : TransportError}

theorem peerStored_open : peerStored .handshakeOpen = fun st input => (turn st input).map fun
    | .heard source => some source
    | .failed => none := by
  funext ⟨place, session⟩ input
  cases place <;> cases input <;> try rfl
  all_goals
    simp only [peerStored, turn, Option.map_map]
    rfl

theorem failed_peer_iff
    (hfailed : (done suite aead call start inputs).place = .returned (.handshake (.error e))) :
    (done suite aead call start inputs).session.peer = start.peer ↔
      OwnPeer call start (run suite aead call start inputs) := by
  cases call with
  | recvAudio => exact absurd rfl (handshake_call hfailed)
  | handshake role peer =>
    have hpeer := (@fits_run suite aead (.handshake role peer) start nofun inputs).peer role peer rfl
    rw [hpeer.resolve_left (by rw [hfailed]; nofun)]
    exact eq_comm
  | handshakeOpen =>
    have hpeer := @run_field suite aead .handshakeOpen start _ (·.peer) _ inputs nofun
      fun h => h.peer
    rw [hpeer, peerStored_open, lastOf_map, getD_eq_self]
    constructor
    · intro h last hlast
      have hsame := h _ (by rw [hlast]; rfl)
      cases last <;> exact hsame.symm
    · intro h peer hpeer
      obtain ⟨last, hlast, rfl⟩ := Option.map_eq_some_iff.mp hpeer
      have hsuits := h last hlast
      cases last <;> exact hsuits.symm

theorem failed_key_iff
    (hfailed : (done suite aead call start inputs).place = .returned (.handshake (.error e))) :
    (done suite aead call start inputs).session.encryptKey = start.encryptKey ↔
      ∀ keying, lastOf (cut halfKeyed) (run suite aead call start inputs) = some keying →
        some (keying.key suite) = start.encryptKey := by
  have hkey := @run_field suite aead call start _ (·.encryptKey) _ inputs (handshake_call hfailed)
    fun h => h.encryptKey
  rw [hkey, keyStored_keys, lastOf_map, (failed_cut hfailed).2, getD_eq_self]
  simp only [Option.map_eq_some_iff, forall_exists_index, and_imp, forall_apply_eq_imp_iff₂]

/-- The id, the codec and the SSRC, which a client stores in one step and a server, but for the
SSRC, in another. -/
theorem failed_stores_iff
    (hfailed : (done suite aead call start inputs).place = .returned (.handshake (.error e))) :
    (done suite aead call start inputs).session.sessionId = start.sessionId ∧
        (done suite aead call start inputs).session.negotiatedCodec = start.negotiatedCodec ∧
        (done suite aead call start inputs).session.localSsrc = start.localSsrc ↔
      (∀ greeting, lastOf current (run suite aead call start inputs) = some greeting →
        greeting.rand.sessionId = start.sessionId ∧ ∀ codec,
          Server.chooseCodec start.config greeting.hello.codecPreferred = .ok codec →
            codec = start.negotiatedCodec) ∧
      ∀ confirmation,
        lastOf (cut halfConfirmed) (run suite aead call start inputs) = some confirmation →
          confirmation.shown.sessionId = start.sessionId ∧
            confirmation.shown.codecAccepted = start.negotiatedCodec ∧
              confirmation.shown.sessionId ^^^ keyHead (confirmation.key suite) =
                start.localSsrc := by
  have hcall := handshake_call hfailed
  have hid := @run_field suite aead call start _ (·.sessionId) _ inputs hcall fun h => h.sessionId
  have hcodec := @run_field suite aead call start _ (·.negotiatedCodec) _ inputs hcall
    fun h => h.negotiatedCodec
  have hssrc := @run_field suite aead call start _ (·.localSsrc) _ inputs hcall fun h => h.localSsrc
  have haccepts : lastOf (accepts suite) (run suite aead call start inputs) =
      (lastOf (confirmed suite) (run suite aead call start inputs)).map confirmationOf :=
    lastOf_map _ _
  rw [hid, hcodec, hssrc, ssrcStored_accepts, lastOf_map, getD_eq_self, getD_eq_self, getD_eq_self,
    ← (failed_cut hfailed).1, haccepts]
  by_cases hclient : ∃ peer, call = .handshake .client peer
  · obtain ⟨peer, hclient⟩ := hclient
    obtain ⟨hnone, hid, hcodec⟩ := @client_run suite aead call start _ inputs hclient
    rw [hid, hcodec, hnone]
    cases lastOf (confirmed suite) (run suite aead call start inputs) with
    | none => simp
    | some pair =>
      obtain ⟨client, shown⟩ := pair
      simp [confirmationOf]
  · obtain ⟨hnone, hid, hcodec⟩ :=
      @server_run suite aead call start inputs hcall (not_exists.mp hclient)
    rw [hid, hcodec, hnone]
    constructor
    · rintro ⟨hid, hcodec, -⟩
      refine ⟨fun g hg => ⟨?_, fun codec hchoice => ?_⟩, by simp⟩
      · exact hid _ (by rw [hg]; rfl)
      · exact hcodec _ (by simp [hg, hchoice, Except.toOption])
    · rintro ⟨h, -⟩
      refine ⟨fun id hid => ?_, fun codec hcodec => ?_, by simp⟩
      · obtain ⟨g, hg, rfl⟩ := Option.map_eq_some_iff.mp hid
        exact (h g hg).1
      · obtain ⟨g, hg, hchoice⟩ := Option.bind_eq_some_iff.mp hcodec
        refine (h g hg).2 codec ?_
        cases hchosen : Server.chooseCodec start.config g.hello.codecPreferred with
        | error e => simp [hchosen, Except.toOption] at hchoice
        | ok chosen => simpa [hchosen, Except.toOption] using hchoice

end Failure

/-- Which of the calls that fail leave the session as it was: what matters is whom they were made for,
what was heard and drawn, and when the deadline came. -/
theorem failed_call_leaves_iff (suite : Suite) (aead : Aead) (call : Call) (start : Session)
    (inputs : List Input) (e : TransportError)
    (hfailed : (done suite aead call start inputs).place = .returned (.handshake (.error e))) :
    SameFields start (done suite aead call start inputs).session ↔
      Harmless suite call start (run suite aead call start inputs) := by
  have hcall := handshake_call hfailed
  have hdecrypt := (@fits_run suite aead call start hcall inputs).decryptKey
    (by rw [hfailed]; exact not_false)
  have hstored := failed_stores_iff hfailed
  constructor
  · intro h
    obtain ⟨hgreeting, hconfirmed⟩ := hstored.mp ⟨h.sessionId, h.negotiatedCodec, h.localSsrc⟩
    exact ⟨(failed_peer_iff hfailed).mp h.peer, hgreeting, hconfirmed,
      (failed_key_iff hfailed).mp h.encryptKey⟩
  · intro h
    obtain ⟨hid, hcodec, hssrc⟩ := hstored.mpr ⟨h.greeting, h.confirmed⟩
    exact ⟨(failed_peer_iff hfailed).mpr h.peer, hid, hcodec, hssrc,
      (failed_key_iff hfailed).mpr h.keyed, hdecrypt⟩

theorem active_rejects {suite : Suite} {aead : Aead} {start : Session} (role : SessionRole)
    (peer : SocketAddr) (first second : Moment) (hactive : start.state.state = .active) :
    done suite aead (.handshake role peer) start [.moment first, .moment second] =
      ⟨.returned (.handshake (.error (.invalidState "cannot start handshake"))),
        { start with peer := some peer }⟩ := by
  cases role <;>
    simp [done, final, exec, moves, begins, locksState, SessionStateMachine.transition,
      SessionStateMachine.next, hactive, handshakeAnswer]

def stubSuite : Suite where
  publicKey secret := secret
  diffieHellman secret _ := secret
  hkdf n _ _ _ := Vector.replicate n 0

def caller : SocketAddr := .v4 0x7F000001 20001

def stubRand : Rand := ⟨Vector.replicate 32 2, Vector.replicate 32 4, 7⟩

private def talking : Session :=
  Session.ofDefault.establish caller 7 1 (Vector.replicate 32 0) (Vector.replicate 32 0)

private def stubMoment : Moment := ⟨0, .timeout, quietEnv, stubRand⟩

private def rejected (peer : SocketAddr) : Lone :=
  done stubSuite .transparent (.handshake .client peer) talking
    [.moment stubMoment, .moment stubMoment]

private theorem rejected_eq (peer : SocketAddr) : rejected peer =
    ⟨.returned (.handshake (.error (.invalidState "cannot start handshake"))),
      { talking with peer := some peer }⟩ := active_rejects .client peer _ _ rfl

/-- A handshake with the peer the session has. -/
theorem rejected_same_peer : SameFields talking (rejected caller).session ∧
    Harmless stubSuite (.handshake .client caller) talking
      (run stubSuite .transparent (.handshake .client caller) talking
        [.moment stubMoment, .moment stubMoment]) := by
  have hfailed := congrArg Lone.place (rejected_eq caller)
  have hsame : SameFields talking (rejected caller).session := by
    rw [rejected_eq]
    exact ⟨rfl, rfl, rfl, rfl, rfl, rfl⟩
  exact ⟨hsame, (failed_call_leaves_iff stubSuite .transparent (.handshake .client caller) talking
    [.moment stubMoment, .moment stubMoment] _ hfailed).mp hsame⟩

/-- The session is Active, and its audio goes to the new address from here on. -/
theorem rejected_handshake_redirects :
    talking.state.state = .active ∧ talking.peer = some caller ∧
      (rejected (.v4 0x7F000001 20002)).place =
        .returned (.handshake (.error (.invalidState "cannot start handshake"))) ∧
      (rejected (.v4 0x7F000001 20002)).session.state.state = .active ∧
      (rejected (.v4 0x7F000001 20002)).session.peer = some (.v4 0x7F000001 20002) ∧
      ¬SameFields talking (rejected (.v4 0x7F000001 20002)).session := by
  rw [rejected_eq]
  exact ⟨rfl, rfl, rfl, rfl, rfl, fun h => absurd h.peer (by decide)⟩

/-- The other end of the call: the address it was made for, or the one `handshake_open` answered. -/
def remote (call : Call) (run : List (Event Lone Input (List Sent))) : Option SocketAddr :=
  match call with
  | .handshake _ peer => some peer
  | .handshakeOpen => (lastOf current run).map fun greeting => greeting.source
  | .recvAudio => none

structure Established (remote : Option SocketAddr) (session : Session) : Prop where
  peer : remote ≠ none ∧ session.peer = remote
  sessionId : session.sessionId ≠ 0
  codec : session.negotiatedCodec ∈ session.config.supportedCodecs
  keys : ∃ enc dec, session.encryptKey = some enc ∧ session.decryptKey = some dec ∧
    session.localSsrc = session.sessionId ^^^ keyHead enc

/-- The client was given an id other than 0.  A server has drawn one, and the SSRC of the session,
which it leaves alone, happens to be the one that belongs to its draws. -/
def Sound (suite : Suite) (call : Call) (start : Session)
    (run : List (Event Lone Input (List Sent))) : Prop :=
  match call with
  | .handshake .client _ => ∀ client shown,
    lastOf (confirmed suite) run = some (client, shown) → shown.sessionId ≠ 0
  | _ => ∀ greeting, lastOf current run = some greeting → greeting.rand.sessionId ≠ 0 ∧
    start.localSsrc = greeting.rand.sessionId ^^^ keyHead (greeting.key suite)

section Success
variable {suite : Suite} {aead : Aead} {call : Call} {start : Session} {inputs : List Input}

theorem succeeded_completed
    (h : (done suite aead call start inputs).place = .returned (.handshake (.ok ()))) :
    Completed suite call ⟨lastOf (idStored suite) (run suite aead call start inputs),
        lastOf current (run suite aead call start inputs)⟩
      (done suite aead call start inputs).session := by
  have hfits := (@fits_run suite aead call start (handshake_call h) inputs).place
  rwa [h] at hfits

theorem succeeded_peer
    (h : (done suite aead call start inputs).place = .returned (.handshake (.ok ()))) :
    remote call (run suite aead call start inputs) ≠ none ∧
      (done suite aead call start inputs).session.peer =
        remote call (run suite aead call start inputs) := by
  have hcompleted := succeeded_completed h
  cases call with
  | handshake role peer =>
    have hpeer := (@fits_run suite aead (.handshake role peer) start nofun inputs).peer role peer rfl
    exact ⟨nofun, hpeer.resolve_left (by rw [h]; nofun)⟩
  | handshakeOpen =>
    obtain ⟨greeting, hanswered, hpeer⟩ := hcompleted.agreed.peer rfl
    simp only at hanswered
    simp only [remote, hanswered, hpeer]
    exact ⟨nofun, rfl⟩
  | recvAudio => exact absurd rfl (handshake_call h)

end Success

theorem completed_call_established_iff (suite : Suite) (aead : Aead) (call : Call)
    (start : Session) (inputs : List Input)
    (hdone : (done suite aead call start inputs).place = .returned (.handshake (.ok ()))) :
    Established (remote call (run suite aead call start inputs))
        (done suite aead call start inputs).session ↔
      Sound suite call start (run suite aead call start inputs) := by
  have hcall := handshake_call hdone
  have hpeer := succeeded_peer hdone
  obtain ⟨-, ⟨hcodec, hid, -⟩, enc, dec, henc, hdec, hssrc, hkey⟩ := succeeded_completed hdone
  have hstored := @run_field suite aead call start _ (·.sessionId) _ inputs hcall
    fun h => h.sessionId
  by_cases hclient : ∃ peer, call = .handshake .client peer
  · obtain ⟨peer, rfl⟩ := hclient
    obtain ⟨-, hids, -⟩ := @client_run suite aead _ start peer inputs rfl
    simp only [hids] at hid
    cases hconfirmed : lastOf (confirmed suite)
        (run suite aead (.handshake .client peer) start inputs) with
    | none => exact absurd (by rw [hconfirmed]; rfl) hid
    | some pair =>
      obtain ⟨client, shown⟩ := pair
      simp only [hids, hconfirmed, Option.map_some, Option.getD_some] at hstored
      constructor
      · intro h client' shown' heq
        obtain ⟨rfl, rfl⟩ : client = client' ∧ shown = shown' := by
          simpa [hconfirmed] using heq
        exact hstored ▸ h.sessionId
      · intro h
        exact ⟨hpeer, hstored ▸ h client shown hconfirmed, hcodec, enc, dec, henc, hdec,
          hssrc peer rfl⟩
  · have hserver := not_exists.mp hclient
    obtain ⟨-, hids, -⟩ := @server_run suite aead call start inputs hcall hserver
    obtain ⟨g, hanswered, rfl⟩ := hkey hserver
    simp only at hanswered
    rw [hids, hanswered, Option.map_some, Option.getD_some] at hstored
    have hleft := (@fits_run suite aead call start hcall inputs).localSsrc hserver
    have hsound : Sound suite call start (run suite aead call start inputs) ↔
        g.rand.sessionId ≠ 0 ∧ start.localSsrc = g.rand.sessionId ^^^ keyHead (g.key suite) := by
      unfold Sound
      split
      next peer => exact absurd rfl (hserver peer)
      next => simp [hanswered]
    rw [hsound]
    constructor
    · intro h
      obtain ⟨enc', dec', henc', -, hssrc'⟩ := h.keys
      obtain rfl : g.key suite = enc' := by simpa [henc] using henc'
      rw [hleft, hstored] at hssrc'
      exact ⟨hstored ▸ h.sessionId, hssrc'⟩
    · rintro ⟨hnonzero, hssrc'⟩
      refine ⟨hpeer, hstored ▸ hnonzero, hcodec, _, dec, henc, hdec, ?_⟩
      rw [hleft, hstored]
      exact hssrc'

def packetFrom (source : SocketAddr) (msg : MessageType) (payload : Bytes) : Datagram :=
  ⟨Packet.bytes (PacketHeader.new msg.code 0 0 0) payload, source⟩

theorem received_packetFrom {session : Session} (source : SocketAddr) (msg : MessageType)
    {payload : Bytes} (hsize : payload.length ≤ 84) (hmtu : 112 ≤ session.config.mtu) :
    received session (packetFrom source msg payload) =
      .ok ⟨PacketHeader.new msg.code 0 0 0, payload⟩ := by
  have hlength : (Packet.bytes (PacketHeader.new msg.code 0 0 0) payload).length ≤
      session.config.mtu := by
    rw [Packet.length_bytes]
    simp only [headerSize]
    omega
  rw [received, packetFrom, List.take_of_length_le hlength]
  exact PacketView.decode_bytes _ _ rfl (hsize.trans (by decide))

section Serves
variable {suite : Suite} {aead : Aead} {call : Call} {session : Session} {rand : Rand}

def quietly (rand : Rand) (event : RecvEvent) : Input := .moment ⟨0, event, quietEnv, rand⟩

def offerTo (suite : Suite) (config : Config) (peer : SocketAddr) (hello : ClientHello)
    (rand : Rand) (codec : UInt8) : Offer :=
  ⟨peer, hello, rand.secret, Server.serverHello suite config hello rand codec⟩

def serverInputs (suite : Suite) (peer : SocketAddr) (rand : Rand) (offer : Offer) : List Input :=
  let keyExchange : KeyExchangeMsg := ⟨rand.sessionId, (offer.secrets suite).clientTag suite⟩
  [quietly rand .timeout, quietly rand .timeout,
    quietly rand (.datagram (packetFrom peer .handshakeClientHello offer.clientHello.bytes)),
    quietly rand .timeout, quietly rand .timeout,
    quietly rand (.datagram (packetFrom peer .handshakeKeyExchange keyExchange.bytes)),
    quietly rand .timeout, quietly rand .timeout, quietly rand .timeout, quietly rand .timeout]

theorem exec_serves {s s' : Server} {event : RecvEvent} {sent : List Sent}
    (h : { s with session := session }.step suite rand quietEnv event = (s', sent))
    (hpc : ∀ result, s'.pc ≠ .returned result) :
    (exec suite aead call ⟨.server s, session⟩ (quietly rand event)).1 =
      ⟨.server s', s'.session⟩ := by
  simp only [exec, quietly, moves, serverMoves, h]

theorem server_completes {start : Session} {peer : SocketAddr} {hello : ClientHello} {codec : UInt8}
    (hidle : start.state.state = .idle) (hopen : start.closed = false)
    (hmtu : 112 ≤ start.config.mtu) (hcurrent : ¬hello.protocolVersion < protocolVersionMin)
    (hcodec : Server.chooseCodec start.config hello.codecPreferred = .ok codec) :
    let offer := offerTo suite start.config peer hello rand codec
    let keys := serverKeys suite offer
    ∃ txSequence metrics,
      done suite aead (.handshake .server peer) start (serverInputs suite peer rand offer) =
        ⟨.returned (.handshake (.ok ())),
          { start.establish peer rand.sessionId codec keys.1 keys.2 with
            txSequence := txSequence, metrics := metrics }⟩ := by
  intro offer keys
  -- the peer is stored and the state machine told
  set begun : Session := { start with peer := some peer, state := ⟨.handshaking⟩ } with hbegun
  have hbegins : (exec suite aead (.handshake .server peer)
      ⟨.lockState .server peer, { start with peer := some peer }⟩ (quietly rand .timeout)).1 =
      ⟨.server ⟨begun, .fixed peer, .awaitHello, [], []⟩, begun⟩ := by
    simp [exec, quietly, moves, locksState, SessionStateMachine.transition, SessionStateMachine.next,
      hidle, hbegun]
  -- the ClientHello
  set answered : Session := { begun with sessionId := rand.sessionId, negotiatedCodec := codec }
    with hanswered
  have hhello : (exec suite aead (.handshake .server peer)
      ⟨.server ⟨begun, .fixed peer, .awaitHello, [], []⟩, begun⟩
      (quietly rand (.datagram
        (packetFrom peer .handshakeClientHello offer.clientHello.bytes)))).1 =
      ⟨.server ⟨answered, .fixed peer, .sendHello offer, [offer], []⟩, answered⟩ := by
    have hstep := @Server.step_offers suite rand quietEnv
      ⟨begun, .fixed peer, .awaitHello, [], []⟩ (packetFrom peer .handshakeClientHello hello.bytes)
      _ hello codec rfl rfl
      (received_packetFrom _ _ (by rw [ClientHello.length_bytes]; decide) hmtu) rfl
      (ClientHello.decode_bytes hello) hcurrent hcodec
    exact exec_serves hstep (by simp)
  -- the ServerHello
  obtain ⟨greeted, _, hsends, ⟨greetedSeq, greetedMetrics, hgreeted⟩, -, -⟩ :=
    @Server.sends_ok ⟨answered, .fixed peer, .sendHello offer, [offer], []⟩ quietEnv
      quietEnv_accepts .handshakeServerHello offer.serverHello.sessionId offer.serverHello.bytes
      offer.peer (.keyTop offer) (by rw [ServerHello.length_bytes]; decide)
      (by rw [ServerHello.length_bytes]; exact hmtu)
  have hserverHello : (exec suite aead (.handshake .server peer)
      ⟨.server ⟨answered, .fixed peer, .sendHello offer, [offer], []⟩, answered⟩
      (quietly rand .timeout)).1 =
      ⟨.server ⟨greeted, .fixed peer, .keyTop offer, [offer], []⟩, greeted⟩ := by
    refine exec_serves (Eq.trans ?_ hsends) (by simp)
    simp only [Server.step, Server.sendsHello, encoded_serverHello]
  have htop : (exec suite aead (.handshake .server peer)
      ⟨.server ⟨greeted, .fixed peer, .keyTop offer, [offer], []⟩, greeted⟩
      (quietly rand .timeout)).1 =
      ⟨.server ⟨greeted, .fixed peer, .awaitKeyExchange offer, [offer], []⟩, greeted⟩ := by
    have hclosed : greeted.closed = false := by rw [hgreeted]; exact hopen
    simp [exec, quietly, moves, serverMoves, Server.step, hclosed]
  -- the KeyExchange
  set keyExchange : KeyExchangeMsg := ⟨rand.sessionId, (offer.secrets suite).clientTag suite⟩
    with hkeyExchange
  have hkeyExchanged : (exec suite aead (.handshake .server peer)
      ⟨.server ⟨greeted, .fixed peer, .awaitKeyExchange offer, [offer], []⟩, greeted⟩
      (quietly rand (.datagram (packetFrom peer .handshakeKeyExchange keyExchange.bytes)))).1 =
      ⟨.server ⟨greeted, .fixed peer, .sendConfirm offer, [offer], [offer]⟩, greeted⟩ := by
    have hroom : 112 ≤ greeted.config.mtu := by rw [hgreeted]; exact hmtu
    have hstep := @Server.step_accepts suite rand quietEnv
      ⟨greeted, .fixed peer, .awaitKeyExchange offer, [offer], []⟩
      (packetFrom peer .handshakeKeyExchange keyExchange.bytes) _ offer keyExchange rfl rfl
      (received_packetFrom _ _ (by simp [KeyExchangeMsg.bytes]) hroom) rfl
      (KeyExchangeMsg.decode_bytes keyExchange) rfl ((constantTimeEq_iff _ _).mpr rfl)
    exact exec_serves hstep (by simp)
  -- the SessionConfirm
  set confirm : SessionConfirm := ⟨rand.sessionId, (offer.secrets suite).serverTag suite⟩
    with hconfirm
  have hlength : confirm.bytes.length = 20 := length_taggedBytes _ _
  obtain ⟨sent, _, hsends', ⟨txSequence, metrics, hsent⟩, -, -⟩ :=
    @Server.sends_ok ⟨greeted, .fixed peer, .sendConfirm offer, [offer], [offer]⟩ quietEnv
      quietEnv_accepts .handshakeSessionConfirm offer.serverHello.sessionId confirm.bytes
      offer.peer (.storeEncrypt offer) (by rw [hlength]; decide)
      (by rw [hlength, hgreeted]; exact le_trans (by decide) hmtu)
  have hconfirms : (exec suite aead (.handshake .server peer)
      ⟨.server ⟨greeted, .fixed peer, .sendConfirm offer, [offer], [offer]⟩, greeted⟩
      (quietly rand .timeout)).1 =
      ⟨.server ⟨sent, .fixed peer, .storeEncrypt offer, [offer], [offer]⟩, sent⟩ := by
    refine exec_serves (Eq.trans ?_ hsends') (by simp)
    simp only [Server.step, SessionConfirm.encode, SessionConfirm.size, encoded_tagged]
    rfl
  refine ⟨txSequence, metrics, ?_⟩
  have hstart : (exec suite aead (.handshake .server peer) ⟨.start, start⟩
      (quietly rand .timeout)).1 = ⟨.lockState .server peer, { start with peer := some peer }⟩ := rfl
  have hstores : (exec suite aead (.handshake .server peer)
      (exec suite aead (.handshake .server peer)
        ⟨.server ⟨sent, .fixed peer, .storeEncrypt offer, [offer], [offer]⟩, sent⟩
        (quietly rand .timeout)).1 (quietly rand .timeout)).1 =
      ⟨.settle (.ok ()),
        { sent with encryptKey := some keys.1, decryptKey := some keys.2 }⟩ := rfl
  have hsettles : (exec suite aead (.handshake .server peer)
      ⟨.settle (.ok ()), { sent with encryptKey := some keys.1, decryptKey := some keys.2 }⟩
      (quietly rand .timeout)).1 =
      ⟨.returned (.handshake (.ok ())), { sent with
        encryptKey := some keys.1, decryptKey := some keys.2, state := ⟨.active⟩ }⟩ := by
    rw [hsent, hgreeted]
    rfl
  simp only [done, serverInputs, final]
  rw [hstart, hbegins]
  rw [hhello, hserverHello, htop, hkeyExchanged, hconfirms, hstores, hsettles, hsent, hgreeted]
  rfl

end Serves

def calling : ClientHello where
  ephemeralPublicKey := Vector.replicate 32 0
  clientNonce := Vector.replicate 32 3
  protocolVersion := 1
  codecPreferred := 1
  sampleRate := 48000
  channels := 1
  frameDurationMs := 20
  maxBitrate := 64000
  capabilityFlags := 0

def servedOffer : Offer :=
  offerTo stubSuite Session.ofDefault.config caller calling stubRand 1

def served : Lone :=
  done stubSuite .transparent (.handshake .server caller) Session.ofDefault
    (serverInputs stubSuite caller stubRand servedOffer)

theorem served_completes : ∃ txSequence metrics,
    served = ⟨.returned (.handshake (.ok ())),
      { Session.ofDefault.establish caller 7 1 (serverKeys stubSuite servedOffer).1
          (serverKeys stubSuite servedOffer).2 with
        txSequence := txSequence, metrics := metrics }⟩ := by
  have hcurrent : ¬calling.protocolVersion < protocolVersionMin := by decide
  have hmtu : 112 ≤ Session.ofDefault.config.mtu := by decide
  have hcodec : Server.chooseCodec Session.ofDefault.config calling.codecPreferred = .ok 1 := rfl
  exact @server_completes stubSuite .transparent stubRand Session.ofDefault caller calling 1 rfl rfl
    hmtu hcurrent hcodec

theorem served_place : served.place = .returned (.handshake (.ok ())) := by
  obtain ⟨txSequence, metrics, h⟩ := served_completes
  rw [h]

theorem served_established_iff : Established (some caller) served.session ↔
    Sound stubSuite (.handshake .server caller) Session.ofDefault
      (run stubSuite .transparent (.handshake .server caller) Session.ofDefault
        (serverInputs stubSuite caller stubRand servedOffer)) :=
  completed_call_established_iff stubSuite .transparent (.handshake .server caller)
    Session.ofDefault _ served_place

/-- The server of a new session has no SSRC of its own afterwards. -/
theorem served_without_ssrc : served.place = .returned (.handshake (.ok ())) ∧
    served.session.sessionId = 7 ∧ served.session.localSsrc = 0 ∧
      ¬Established (some caller) served.session := by
  obtain ⟨txSequence, metrics, h⟩ := served_completes
  rw [h]
  refine ⟨rfl, rfl, rfl, fun hestablished => ?_⟩
  obtain ⟨enc, dec, henc, -, hssrc⟩ := hestablished.keys
  cases henc
  have hzero : (0 : UInt32) = 7 ^^^ keyHead (Vector.replicate 32 0) := hssrc
  exact absurd hzero (by decide)

end GravitalTalk.Transport.LoneCall
