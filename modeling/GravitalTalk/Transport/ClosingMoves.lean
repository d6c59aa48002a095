import GravitalTalk.Transport.Closing

/-! What one move of a call may do to the session and its state machine, whatever the other calls do. -/
namespace GravitalTalk.Transport.Closing
open Lib GravitalTalk.Core Transition Handshake

def Place.StoresEncrypt : Place → Prop
  | .client c => match c.pc with
    | .storeEncrypt _ => True
    | _ => False
  | .server s | .attempt s => match s.pc with
    | .storeEncrypt _ => True
    | _ => False
  | _ => False

def Place.StoresDecrypt : Place → Prop
  | .client c => match c.pc with
    | .storeDecrypt _ => True
    | _ => False
  | .server s | .attempt s => match s.pc with
    | .storeDecrypt _ => True
    | _ => False
  | _ => False

/-- What the handshakes touch only where they store a key. -/
structure Same (session after : Session) : Prop where
  state : after.state = session.state
  closed : after.closed = session.closed
  encryptKey : after.encryptKey = session.encryptKey
  decryptKey : after.decryptKey = session.decryptKey

theorem Same.refl (session : Session) : Same session session := ⟨rfl, rfl, rfl, rfl⟩

theorem Same.trans {first second third : Session} (h : Same first second)
    (h' : Same second third) : Same first third :=
  ⟨h'.state.trans h.state, h'.closed.trans h.closed, h'.encryptKey.trans h.encryptKey,
    h'.decryptKey.trans h.decryptKey⟩

theorem same_sendControl (session : Session) (env : Env) (msg : MessageType) (sessionId : UInt32)
    (payload : Bytes) (peer : SocketAddr) :
    Same session (session.sendControl env msg sessionId payload peer).2.1 := by
  obtain ⟨metrics, hsession⟩ := session.sendControl_session env msg sessionId payload peer
  rw [hsession]
  exact ⟨rfl, rfl, rfl, rfl⟩

theorem same_sent {session after : Session} {env : Env} {msg : MessageType} {sessionId : UInt32}
    {payload : Bytes} {peer : SocketAddr} {result : Except TransportError Unit} {sent : List Sent}
    (h : session.sendControl env msg sessionId payload peer = (result, after, sent)) :
    Same session after := by
  have hsame := same_sendControl session env msg sessionId payload peer
  rwa [h] at hsame

section HandshakeSteps
variable {suite : Suite} {rand : Rand} {env : Env} {event : RecvEvent} {c : Client} {s : Server}
  {peer : SocketAddr}

theorem same_clientSends (c : Client) (env : Env) (msg : MessageType) (sessionId : UInt32)
    (payload : Except TransportError Bytes) (next : ClientPc) :
    Same c.session (c.sends env msg sessionId payload next).1.session :=
  c.sends_rule (fun out => Same c.session out.1.session) env msg sessionId payload next
    (fun _ => .refl _) (fun _ _ _ _ _ hsend => same_sent hsend) fun _ _ _ _ hsend => same_sent hsend

theorem same_onHello (c : Client) (attempt : UInt32) (event : RecvEvent) :
    (c.onHello attempt event).session = c.session :=
  c.onHello_rule (fun c' => c'.session = c.session) attempt event rfl (fun _ => rfl)
    (fun _ _ _ => rfl) fun _ _ _ _ _ _ => rfl

theorem same_onConfirm (c : Client) (suite : Suite) (serverHello : ServerHello)
    (event : RecvEvent) : Same c.session (c.onConfirm suite serverHello event).session :=
  c.onConfirm_rule (fun c' => Same c.session c'.session) suite serverHello event (.refl _)
    (fun _ => .refl _) fun _ _ _ _ _ _ _ => ⟨rfl, rfl, rfl, rfl⟩

structure Keeps (storesEncrypt storesDecrypt : Prop) (session after : Session) : Prop where
  state : after.state = session.state
  closed : after.closed = session.closed
  encryptKey : ¬storesEncrypt → after.encryptKey = session.encryptKey
  decryptKey : ¬storesDecrypt → after.decryptKey = session.decryptKey

theorem Same.keeps {session after : Session} (h : Same session after) (p q : Prop) :
    Keeps p q session after := ⟨h.state, h.closed, fun _ => h.encryptKey, fun _ => h.decryptKey⟩

theorem client_keeps (c : Client) (suite : Suite) (env : Env) (event : RecvEvent) :
    Keeps (Place.client c).StoresEncrypt (Place.client c).StoresDecrypt c.session
      (c.step suite env event).1.session := by
  simp only [Place.StoresEncrypt, Place.StoresDecrypt]
  unfold Client.step
  cases hpc : c.pc <;> simp only
  case sendHello attempt => exact (same_clientSends c env _ _ _ _).keeps _ _
  case awaitHello attempt =>
    rw [same_onHello]
    exact (Same.refl _).keeps _ _
  case sendKeyExchange shown => exact (same_clientSends c env _ _ _ _).keeps _ _
  case awaitConfirm shown => exact (same_onConfirm c suite shown event).keeps _ _
  case storeEncrypt shown => exact ⟨rfl, rfl, fun h => absurd trivial h, fun _ => rfl⟩
  case storeDecrypt shown => exact ⟨rfl, rfl, fun _ => rfl, fun h => absurd trivial h⟩
  case returned result => exact (Same.refl _).keeps _ _

structure Fixed (s : Server) : Prop where
  mode : ∃ peer, s.mode = .fixed peer
  pc : s.pc ≠ .attempt

structure ServerSame (s after : Server) : Prop where
  session : Same s.session after.session
  fixed : Fixed after

theorem ServerSame.moves (h : Fixed s) {pc : ServerPc} (hpc : pc ≠ .attempt) :
    ServerSame s { s with pc := pc } := ⟨.refl _, h.mode, hpc⟩

theorem serverSame_finishes (h : Fixed s) (result : Except TransportError Offer) :
    ServerSame s (s.finishes result) := by
  obtain ⟨peer, hmode⟩ := h.mode
  rw [Server.finishes_fixed hmode]
  exact .moves h nofun

theorem ServerSame.finishes {after : Server} (h : ServerSame s after)
    (result : Except TransportError Offer) : ServerSame s (after.finishes result) := by
  obtain ⟨hsession, hfixed⟩ := serverSame_finishes h.fixed result
  exact ⟨h.session.trans hsession, hfixed⟩

theorem serverSame_negotiates (h : Fixed s) (suite : Suite) (rand : Rand)
    (clientHello : ClientHello) (peer : SocketAddr) :
    ServerSame s (s.negotiates suite rand clientHello peer) := by
  refine s.negotiates_rule (ServerSame s) suite rand clientHello peer (fun e sessionId => ?_)
    fun codec _ _ => ⟨⟨rfl, rfl, rfl, rfl⟩, h.mode, by simp⟩
  apply ServerSame.finishes
  exact ⟨⟨rfl, rfl, rfl, rfl⟩, h.mode, h.pc⟩

theorem serverSame_onHelloFrom (h : Fixed s) (suite : Suite) (rand : Rand) (peer : SocketAddr)
    (event : RecvEvent) : ServerSame s (s.onHelloFrom suite rand peer event) :=
  s.onHelloFrom_rule (ServerSame s) suite rand peer event ⟨.refl _, h⟩
    (fun _ => serverSame_finishes h _)
    fun _ _ clientHello _ _ _ => serverSame_negotiates h suite rand clientHello peer

theorem serverSame_onHelloAny (h : Fixed s) (suite : Suite) (rand : Rand) (event : RecvEvent) :
    ServerSame s (s.onHelloAny suite rand event) := by
  refine s.onHelloAny_rule (ServerSame s) suite rand event (.moves h (by simp))
    (fun _ => serverSame_finishes h _) fun datagram _ clientHello _ _ => ?_
  have hknown : Fixed { s with session := { s.session with peer := some datagram.source } } :=
    ⟨h.mode, h.pc⟩
  obtain ⟨⟨hstate, hclosed, hencrypt, hdecrypt⟩, hfixed⟩ :=
    serverSame_negotiates hknown suite rand clientHello datagram.source
  exact ⟨⟨hstate, hclosed, hencrypt, hdecrypt⟩, hfixed⟩

theorem serverSame_onKeyExchange (h : Fixed s) (suite : Suite) (offer : Offer)
    (event : RecvEvent) : ServerSame s (s.onKeyExchange suite offer event) :=
  s.onKeyExchange_rule (ServerSame s) suite offer event (.moves h (by simp))
    (fun _ => serverSame_finishes h _) (fun _ _ _ _ => .moves h (by simp))
    fun _ _ _ _ _ _ _ => ⟨.refl _, h.mode, by simp⟩

theorem serverSame_sends (h : Fixed s) (env : Env) (msg : MessageType) (sessionId : UInt32)
    (payload : Except TransportError Bytes) (dest : SocketAddr) {next : ServerPc}
    (hnext : next ≠ .attempt) :
    ServerSame s (s.sends env msg sessionId payload dest next).1 := by
  refine s.sends_rule (fun out => ServerSame s out.1) env msg sessionId payload dest next
    (fun _ => serverSame_finishes h _) (fun _ e session _ _ hsend => ?_)
    fun _ _ _ _ hsend => ⟨same_sent hsend, h.mode, hnext⟩
  apply ServerSame.finishes
  exact ⟨same_sent hsend, h.mode, h.pc⟩

structure ServerKeeps (storesEncrypt storesDecrypt : Prop) (s after : Server) : Prop where
  session : Keeps storesEncrypt storesDecrypt s.session after.session
  fixed : Fixed after

theorem ServerSame.keeps {after : Server} (h : ServerSame s after) (p q : Prop) :
    ServerKeeps p q s after := ⟨h.session.keeps p q, h.fixed⟩

theorem server_keeps (h : Fixed s) (suite : Suite) (rand : Rand) (env : Env) (event : RecvEvent) :
    ServerKeeps (Place.server s).StoresEncrypt (Place.server s).StoresDecrypt s
      (s.step suite rand env event).1 := by
  obtain ⟨peer, hmode⟩ := h.mode
  simp only [Place.StoresEncrypt, Place.StoresDecrypt]
  unfold Server.step
  cases hpc : s.pc <;> simp only
  case attempt => exact absurd hpc h.pc
  case helloTop =>
    split_ifs
    · exact (serverSame_finishes h _).keeps _ _
    · exact (ServerSame.moves h (by nofun)).keeps _ _
  case awaitHello =>
    simp only [hmode]
    exact (serverSame_onHelloFrom h suite rand peer event).keeps _ _
  case sendHello offer => exact (serverSame_sends h env _ _ _ _ (by nofun)).keeps _ _
  case keyTop offer =>
    split_ifs
    · exact (serverSame_finishes h _).keeps _ _
    · exact (ServerSame.moves h (by nofun)).keeps _ _
  case awaitKeyExchange offer => exact (serverSame_onKeyExchange h suite offer event).keeps _ _
  case resendHello offer => exact (serverSame_sends h env _ _ _ _ (by nofun)).keeps _ _
  case sendConfirm offer => exact (serverSame_sends h env _ _ _ _ (by nofun)).keeps _ _
  case storeEncrypt offer =>
    exact ⟨⟨rfl, rfl, fun h => absurd trivial h, fun _ => rfl⟩, h.mode, nofun⟩
  case storeDecrypt offer =>
    have hkeyed : Fixed { s with
        session := { s.session with decryptKey := some ((offer.secrets suite).keys suite).1 } } :=
      ⟨h.mode, h.pc⟩
    obtain ⟨⟨hstate, hclosed, hencrypt, -⟩, hfixed⟩ := serverSame_finishes hkeyed (.ok offer)
    simp only [hpc] at hstate hclosed hencrypt hfixed
    exact ⟨⟨hstate, hclosed, fun _ => hencrypt, fun h => absurd trivial h⟩, hfixed⟩
  case returned result => exact ServerSame.keeps ⟨.refl _, h⟩ _ _

theorem any_keeps (h : Fixed s) (suite : Suite) (rand : Rand) (env : Env) (event : RecvEvent) :
    ServerKeeps (Place.server s).StoresEncrypt (Place.server s).StoresDecrypt s
      (anyStep s suite rand env event).1 := by
  by_cases hpc : s.pc = .awaitHello
  · rw [anyStep_greets hpc]
    exact (serverSame_onHelloAny h suite rand event).keeps _ _
  · rw [anyStep_serves hpc]
    exact server_keeps h suite rand env event

end HandshakeSteps

structure Heard (session after : Session) : Prop where
  state : after.state = session.state ∨ after.state = (session.state.transition .peerClosed).2
  closed : after.closed = session.closed
  encryptKey : after.encryptKey = session.encryptKey
  decryptKey : after.decryptKey = session.decryptKey

theorem heard_dispatched {session after : Session} (h : session.Dispatched after) :
    Heard session after := by
  cases h with
  | fields hstate => exact ⟨hstate, rfl, rfl, rfl⟩

theorem heard_processDatagram (session : Session) (aead : Aead) (env : Env) (datagram : Datagram) :
    Heard session (session.processDatagram aead env datagram).session := by
  unfold Session.processDatagram
  simp only
  split
  · obtain ⟨hstate, hclosed, hencrypt, hdecrypt⟩ := heard_dispatched
      (@Session.dispatched_packet (session.arrived env.rxClock _) aead env _ _)
    exact ⟨hstate, hclosed, hencrypt, hdecrypt⟩
  · exact ⟨.inl rfl, rfl, rfl, rfl⟩

/-- A call is past the start of its handshake. -/
def Place.Driving : Place → Prop
  | .client _ | .server _ | .settle _ | .loopTop | .lockClose | .attempt _ | .settleOpen _
  | .forgetPeer => True
  | _ => False

/-- A call of `handshake_open` that will see the flag and leave. -/
def Place.Leaving : Place → Prop
  | .loopTop | .lockClose | .forgetPeer => True
  | _ => False

theorem Place.Leaving.driving {place : Place} (h : place.Leaving) : place.Driving := by
  cases place <;> simp_all [Place.Leaving, Place.Driving]

def Begun (state : SessionState) : Prop := state ≠ .idle ∧ state ≠ .reconnecting

/-- What a move may do to the state machine. -/
structure Effect (closed : Bool) (place : Place) (state : SessionState) (place' : Place)
    (state' : SessionState) : Prop where
  begun : Begun state → Begun state'
  drives : place'.Driving → place.Driving ∨ ¬Begun state ∧ Begun state'
  stays : state = .closed → state' = .closed ∨ state' = .handshaking ∧ place'.Leaving
  bystander : ¬place.Driving → state = .handshaking → state' = .handshaking
  leaving : place.Leaving → closed = true → state = .handshaking →
    state' = .closed ∨ state' = .handshaking ∧ place'.Leaving

theorem Effect.quiet {closed : Bool} {place place' : Place} (state : SessionState)
    (hdrives : place'.Driving → place.Driving)
    (hleaving : place.Leaving → closed = true → place'.Leaving) :
    Effect closed place state place' state where
  begun h := h
  drives h := .inl (hdrives h)
  stays h := .inl h
  bystander _ h := h
  leaving hplace hclosed h := .inr ⟨h, hleaving hplace hclosed⟩

theorem Effect.starts {closed : Bool} {place place' : Place} {state : SessionState}
    (hplace : ¬place.Driving) (hstate : ¬Begun state) :
    Effect closed place state place' .handshaking where
  begun _ := ⟨nofun, nofun⟩
  drives _ := .inr ⟨hstate, nofun, nofun⟩
  stays h := absurd ⟨by rw [h]; nofun, by rw [h]; nofun⟩ hstate
  bystander _ _ := rfl
  leaving h := absurd h.driving hplace

theorem Effect.tells {closed : Bool} {place place' : Place} {state state' : SessionState}
    (hbegun : Begun state → Begun state') (hdrives : place'.Driving → place.Driving)
    (hstays : state = .closed → state' = .closed ∨ state' = .handshaking ∧ place'.Leaving)
    (hbystander : ¬place.Driving → state = .handshaking → state' = .handshaking)
    (hplace : ¬place.Leaving) : Effect closed place state place' state' where
  begun := hbegun
  drives h := .inl (hdrives h)
  stays := hstays
  bystander := hbystander
  leaving h := absurd h hplace

theorem transition_state (machine : SessionStateMachine) (event : SessionEvent) :
    (machine.transition event).2.state =
      (SessionStateMachine.next machine.state event).getD machine.state := by
  unfold SessionStateMachine.transition
  split
  next h => rw [h]; rfl
  next h => rw [h]; rfl

section Fair
variable {suite : Suite} {aead : Aead} {moment : Moment} {session : Session}

/-- What a move does, whatever its place. -/
structure Fair (session : Session) (place : Place) (move : Move) : Prop where
  closed : move.session.closed = session.closed
  encryptKey : ¬place.StoresEncrypt → move.session.encryptKey = session.encryptKey
  decryptKey : ¬place.StoresDecrypt → move.session.decryptKey = session.decryptKey
  effect : Effect session.closed place session.state.state move.place move.session.state.state
  fixed : ∀ s, move.place = .server s ∨ move.place = .attempt s → Fixed s

def Place.Plain : Place → Prop
  | .server _ | .attempt _ => False
  | _ => True

theorem Fair.plain {place : Place} {move : Move} (hsame : Keeps place.StoresEncrypt
      place.StoresDecrypt { session with state := move.session.state } move.session)
    (heffect : Effect session.closed place session.state.state move.place move.session.state.state)
    (hplain : move.place.Plain) : Fair session place move where
  closed := hsame.closed
  encryptKey := hsame.encryptKey
  decryptKey := hsame.decryptKey
  effect := heffect
  fixed s h := by
    obtain h | h := h <;> rw [h] at hplain <;> exact hplain.elim

theorem Fair.rests {place place' : Place} {after : Session} {sent : List Sent}
    (hsame : Same session after) (hplain : place'.Plain) (hdrives : ¬place'.Driving)
    (hleaving : ¬place.Leaving) : Fair session place ⟨place', after, sent⟩ := by
  refine .plain ⟨rfl, hsame.closed, fun _ => hsame.encryptKey, fun _ => hsame.decryptKey⟩ ?_ hplain
  rw [hsame.state]
  exact .quiet _ (fun h => absurd h hdrives) fun h => absurd h hleaving

theorem begins_fair (call : Call) : Fair session .start (begins moment session call) := by
  cases call with
  | handshake role peer => exact .rests ⟨rfl, rfl, rfl, rfl⟩ trivial nofun nofun
  | recvAudio => exact .rests (.refl _) trivial nofun nofun
  | handshakeOpen =>
    simp only [begins, SessionStateMachine.transition]
    cases hstate : session.state.state <;> simp only [SessionStateMachine.next] <;>
      refine .plain ⟨rfl, rfl, fun _ => rfl, fun _ => rfl⟩ ?_ trivial
    case idle => exact hstate ▸ .starts nofun fun h => h.1 rfl
    case reconnecting => exact hstate ▸ .starts nofun fun h => h.2 rfl
    all_goals exact .quiet _ nofun nofun

theorem locksState_fair (role : SessionRole) (peer : SocketAddr) :
    Fair session (.lockState role peer) (locksState moment session role peer) := by
  have hrefused : Fair session (.lockState role peer)
      ⟨handshakeAnswer (.error (.invalidState "cannot start handshake")), session, []⟩ :=
    .rests (.refl _) trivial nofun nofun
  have hstarts : ¬Begun session.state.state → ∀ place',
      Effect session.closed (.lockState role peer) session.state.state place' .handshaking :=
    fun h _ => .starts nofun h
  unfold locksState
  cases role with
  | client =>
    simp only [SessionStateMachine.transition]
    cases hstate : session.state.state <;> simp only [SessionStateMachine.next]
    case idle =>
      have hbegins := hstarts (hstate ▸ fun h => h.1 rfl)
      exact .plain ⟨rfl, rfl, fun _ => rfl, fun _ => rfl⟩ (hbegins _) trivial
    case reconnecting =>
      have hbegins := hstarts (hstate ▸ fun h => h.2 rfl)
      exact .plain ⟨rfl, rfl, fun _ => rfl, fun _ => rfl⟩ (hbegins _) trivial
    all_goals exact hrefused
  | server =>
    have hserver : ∀ session', Fixed ⟨session', .fixed peer, .awaitHello, [], []⟩ :=
      fun _ => ⟨⟨peer, rfl⟩, nofun⟩
    simp only [SessionStateMachine.transition]
    cases hstate : session.state.state <;> simp only [SessionStateMachine.next]
    case idle =>
      have hbegins := hstarts (hstate ▸ fun h => h.1 rfl)
      refine ⟨rfl, fun _ => rfl, fun _ => rfl, hbegins _, ?_⟩
      rintro s (h | h) <;> cases h
      exact hserver _
    case reconnecting =>
      have hbegins := hstarts (hstate ▸ fun h => h.2 rfl)
      refine ⟨rfl, fun _ => rfl, fun _ => rfl, hbegins _, ?_⟩
      rintro s (h | h) <;> cases h
      exact hserver _
    all_goals exact hrefused

def Place.Settling : Place → Prop
  | .settle _ | .settleOpen _ => True
  | _ => False

theorem told_fair {place place' : Place} {event : SessionEvent} (hplace : place.Settling)
    (hevent : event = .handshakeOk ∨ event = .handshakeTimeout ∨ event = .close)
    (hplain : place'.Plain) (hdrives : ¬place'.Driving) :
    Fair session place ⟨place', applies session event, []⟩ := by
  have hdriving : place.Driving := by cases place <;> simp_all [Place.Settling, Place.Driving]
  have hleaving : ¬place.Leaving := by cases place <;> simp_all [Place.Settling, Place.Leaving]
  refine .plain ⟨rfl, rfl, fun _ => rfl, fun _ => rfl⟩ ?_ hplain
  simp only [applies, transition_state]
  refine .tells ?_ (fun h => absurd h hdrives) ?_ (fun h => absurd hdriving h) hleaving
  · cases session.state.state <;> obtain rfl | rfl | rfl := hevent <;>
      simp [Begun, SessionStateMachine.next]
  · rintro h
    rw [h]
    obtain rfl | rfl | rfl := hevent <;> exact .inl rfl

theorem succeeds_fair {place : Place} (hplace : place.Settling) :
    Fair session place (succeeds session) := by
  have htold : ∀ answer, Fair session place
      ⟨handshakeAnswer answer, applies session .handshakeOk, []⟩ := fun answer =>
    told_fair hplace (.inl rfl) trivial nofun
  unfold succeeds
  simp only [applies, SessionStateMachine.transition] at htold ⊢
  split at htold
  next hnext => simpa only [hnext] using htold _
  next hnext => simpa only [hnext] using htold _

theorem settles_fair (result : Except TransportError Unit) :
    Fair session (.settle result) (settles session result) := by
  cases result with
  | ok _ => exact succeeds_fair trivial
  | error e => exact told_fair trivial (.inr (.inl rfl)) trivial nofun

/-- An attempt that failed: whatever the state, the call goes on to its loop. -/
theorem retries_fair (result : Except TransportError Unit) :
    Fair session (.settleOpen result) ⟨.forgetPeer,
      applies (applies (applies session .handshakeTimeout) .reconnect) .startAccept, []⟩ := by
  refine .plain ⟨rfl, rfl, fun _ => rfl, fun _ => rfl⟩ ?_ trivial
  simp only [applies, transition_state]
  refine .tells ?_ (fun _ => trivial) ?_ (fun h => absurd trivial h) nofun
  · cases session.state.state <;> simp [Begun, SessionStateMachine.next]
  · rintro h
    rw [h]
    exact .inr ⟨rfl, trivial⟩

theorem settlesOpen_fair (result : Except TransportError Unit) :
    Fair session (.settleOpen result) (settlesOpen session result) := by
  cases result with
  | ok _ => exact succeeds_fair trivial
  | error e =>
    cases e with
    | peerClosed reason => exact told_fair trivial (.inr (.inr rfl)) trivial nofun
    | _ => exact retries_fair _

theorem Fair.running {place : Place} {move : Move} (hplace : place.Driving)
    (hleaving : ¬place.Leaving)
    (hkeeps : Keeps place.StoresEncrypt place.StoresDecrypt session move.session)
    (hfixed : ∀ s, move.place = .server s ∨ move.place = .attempt s → Fixed s) :
    Fair session place move where
  closed := hkeeps.closed
  encryptKey := hkeeps.encryptKey
  decryptKey := hkeeps.decryptKey
  effect := by
    rw [hkeeps.state]
    exact .quiet _ (fun _ => hplace) fun h => absurd h hleaving
  fixed := hfixed

theorem clientMoves_fair (c : Client) :
    Fair session (.client c) (clientMoves suite moment session c) := by
  have hkeeps := client_keeps { c with session := session } suite moment.env moment.event
  unfold clientMoves
  generalize Client.step { c with session := session } suite moment.env moment.event = next
    at hkeeps ⊢
  obtain ⟨after, sent⟩ := next
  simp only
  split
  · exact .running trivial nofun hkeeps fun s h => by obtain h | h := h <;> cases h
  · exact .running trivial nofun hkeeps fun s h => by obtain h | h := h <;> cases h

/-- A step of a server; `settled` and `going` are the places the call goes on to. -/
theorem Fair.serving {place : Place} {settled : Except TransportError Unit → Place}
    {going : Server → Place} {after : Server} (sent : List Sent) (hplace : place.Driving)
    (hleaving : ¬place.Leaving)
    (hkeeps : Keeps place.StoresEncrypt place.StoresDecrypt session after.session)
    (hafter : Fixed after) (hsettled : ∀ result, (settled result).Plain)
    (hgoing : ∀ s, going after = .server s ∨ going after = .attempt s → s = after) :
    Fair session place (match after.pc with
      | .returned result => ⟨settled (result.map fun _ => ()), after.session, sent⟩
      | _ => ⟨going after, after.session, sent⟩) := by
  split
  next result _ =>
    have hplain := hsettled (result.map fun _ => ())
    refine .running hplace hleaving hkeeps fun s h => ?_
    obtain h | h := h <;> rw [show settled _ = _ from h] at hplain <;> exact hplain.elim
  next =>
    refine .running hplace hleaving hkeeps fun s h => ?_
    rw [hgoing s h]
    exact hafter

theorem serverMoves_fair {s : Server} (hfixed : Fixed s) :
    Fair session (.server s) (serverMoves suite moment session s) := by
  have hshared : Fixed { s with session := session } := ⟨hfixed.mode, hfixed.pc⟩
  obtain ⟨hkeeps, hafter⟩ := server_keeps hshared suite moment.rand moment.env moment.event
  refine .serving _ trivial nofun hkeeps hafter (fun _ => trivial) ?_
  rintro s' (h | h) <;> cases h
  rfl

theorem attemptMoves_fair {s : Server} (hfixed : Fixed s) :
    Fair session (.attempt s) (attemptMoves suite moment session s) := by
  have hshared : Fixed { s with session := session } := ⟨hfixed.mode, hfixed.pc⟩
  obtain ⟨hkeeps, hafter⟩ := any_keeps hshared suite moment.rand moment.env moment.event
  refine .serving _ trivial nofun hkeeps hafter (fun _ => trivial) ?_
  rintro s' (h | h) <;> cases h
  rfl

theorem iterates_fair (deadlineUs : UInt64) :
    Fair session (.recvTop deadlineUs) (iterates moment session deadlineUs) := by
  unfold iterates
  split
  · exact .rests ⟨rfl, rfl, rfl, rfl⟩ trivial nofun nofun
  · simp only
    split_ifs
    · exact .rests ⟨rfl, rfl, rfl, rfl⟩ trivial nofun nofun
    · exact .rests ⟨rfl, rfl, rfl, rfl⟩ trivial nofun nofun

theorem receives_fair (deadlineUs : UInt64) :
    Fair session (.recvWait deadlineUs) (receives aead moment session deadlineUs) := by
  unfold receives
  cases moment.event with
  | timeout => exact .rests (.refl _) trivial nofun nofun
  | failed e => exact .rests (.refl _) trivial nofun nofun
  | datagram datagram =>
    obtain ⟨hstate, hclosed, hencrypt, hdecrypt⟩ :=
      heard_processDatagram session aead moment.env datagram
    have heffect : ∀ place' : Place, ¬place'.Driving →
        Effect session.closed (.recvWait deadlineUs) session.state.state place'
          (session.processDatagram aead moment.env datagram).session.state.state := by
      intro place' hdrives
      obtain hstate | hstate := hstate
      · rw [hstate]
        exact .quiet _ (fun h => absurd h hdrives) nofun
      · rw [hstate, transition_state]
        refine .tells ?_ (fun h => absurd h hdrives) ?_ ?_ nofun
        · cases session.state.state <;> simp [Begun, SessionStateMachine.next]
        · rintro h
          rw [h]
          exact .inl rfl
        · rintro - h
          rw [h]
          rfl
    simp only
    split
    · exact .plain ⟨rfl, hclosed, fun _ => hencrypt, fun _ => hdecrypt⟩ (heffect _ nofun) trivial
    · exact .plain ⟨rfl, hclosed, fun _ => hencrypt, fun _ => hdecrypt⟩ (heffect _ nofun) trivial

theorem lockClose_fair : Fair session .lockClose
    ⟨handshakeAnswer (.error (.peerClosed "session closed")), applies session .close, []⟩ := by
  refine .plain ⟨rfl, rfl, fun _ => rfl, fun _ => rfl⟩ ?_ trivial
  simp only [applies, transition_state]
  refine ⟨?_, nofun, ?_, fun h => absurd trivial h, ?_⟩
  · cases session.state.state <;> simp [Begun, SessionStateMachine.next]
  · rintro h
    rw [h]
    exact .inl rfl
  · rintro - - h
    rw [h]
    exact .inl rfl

theorem loopTop_fair : Fair session .loopTop
    ⟨if session.closed then .lockClose else .attempt (anyServer session), session, []⟩ := by
  by_cases hclosed : session.closed = true
  · simp only [hclosed, if_true]
    exact .plain ⟨rfl, rfl, fun _ => rfl, fun _ => rfl⟩
      (.quiet _ (fun _ => trivial) fun _ _ => trivial) trivial
  · simp only [hclosed]
    refine ⟨rfl, fun _ => rfl, fun _ => rfl,
      .quiet _ (fun _ => trivial) fun _ h => absurd h hclosed, ?_⟩
    rintro s (h | h) <;> cases h
    exact ⟨⟨_, rfl⟩, nofun⟩

theorem moves_fair (call : Call) {place : Place}
    (hfixed : ∀ s, place = .server s ∨ place = .attempt s → Fixed s) :
    Fair session place (moves suite aead moment session call place) := by
  cases place with
  | start => exact begins_fair call
  | lockState role peer => exact locksState_fair role peer
  | client c => exact clientMoves_fair c
  | server s => exact serverMoves_fair (hfixed s (.inl rfl))
  | settle result => exact settles_fair result
  | loopTop => exact loopTop_fair
  | lockClose => exact lockClose_fair
  | attempt s => exact attemptMoves_fair (hfixed s (.inr rfl))
  | settleOpen result => exact settlesOpen_fair result
  | forgetPeer =>
    exact .plain ⟨rfl, rfl, fun _ => rfl, fun _ => rfl⟩
      (.quiet _ (fun _ => trivial) fun _ _ => trivial) trivial
  | recvTop deadlineUs => exact iterates_fair deadlineUs
  | recvWait deadlineUs => exact receives_fair deadlineUs
  | returned answer => exact .rests (.refl _) trivial nofun nofun

end Fair

end GravitalTalk.Transport.Closing
