import GravitalTalk.Transport.HandshakeNoise

/-! `close` beside any number of calls of `handshake`, `handshake_open` and `recv_audio` on the same
session.  A place is an await of the code, a lock among them, and a step runs to the next one; a
step of a handshake is a step of its machine on the session all calls share. -/
namespace GravitalTalk.Transport.Closing
open Lib GravitalTalk.Core Transition Handshake

inductive SessionRole where
  | client
  | server

inductive Call where
  | handshake (role : SessionRole) (peer : SocketAddr)
  | handshakeOpen
  | recvAudio

inductive Answer where
  | handshake (result : Except TransportError Unit)
  | audio (result : Except TransportError Frame)

inductive ClosePlace where
  | start
  | lockEncrypt
  | lockDecrypt
  | lockPeer
  | sendClose (peer : SocketAddr)
  | lockState
  | returned

inductive Place where
  | start
  /-- `handshake` has stored the peer. -/
  | lockState (role : SessionRole) (peer : SocketAddr)
  | client (client : Client)
  | server (server : Server)
  /-- `handshake` has its result and is about to tell the state machine. -/
  | settle (result : Except TransportError Unit)
  | loopTop
  /-- `handshake_open` has seen the flag. -/
  | lockClose
  | attempt (server : Server)
  | settleOpen (result : Except TransportError Unit)
  | forgetPeer
  | recvTop (deadlineUs : UInt64)
  | recvWait (deadlineUs : UInt64)
  | returned (answer : Answer)

structure Moment where
  nowUs : UInt64
  event : RecvEvent
  env : Env
  rand : Rand

structure Move where
  place : Place
  session : Session
  sent : List Sent

/-- A call in the mode that hands the result of `handshake_server_any` to its caller; the address is
not looked at. -/
def anyServer (session : Session) : Server :=
  ⟨session, .fixed (.v4 0 0), .helloTop, [], []⟩

def anyStep (self : Server) (suite : Suite) (rand : Rand) (env : Env) (event : RecvEvent) :
    Server × List Sent :=
  match self.pc with
  | .awaitHello => (self.onHelloAny suite rand event, [])
  | _ => self.step suite rand env event

theorem anyStep_greets {self : Server} (hpc : self.pc = .awaitHello) (suite : Suite) (rand : Rand)
    (env : Env) (event : RecvEvent) :
    anyStep self suite rand env event = (self.onHelloAny suite rand event, []) := by
  simp only [anyStep, hpc]

theorem anyStep_serves {self : Server} (hpc : self.pc ≠ .awaitHello) (suite : Suite) (rand : Rand)
    (env : Env) (event : RecvEvent) :
    anyStep self suite rand env event = self.step suite rand env event := by
  unfold anyStep
  split
  next h => exact absurd h hpc
  next => rfl

section Moves
variable (suite : Suite) (aead : Aead) (moment : Moment) (session : Session)

def clientMoves (client : Client) : Move :=
  let (client, sent) := { client with session := session }.step suite moment.env moment.event
  match client.pc with
  | .returned result => ⟨.settle (result.map fun _ => ()), client.session, sent⟩
  | _ => ⟨.client client, client.session, sent⟩

def serverMoves (server : Server) : Move :=
  let (server, sent) :=
    { server with session := session }.step suite moment.rand moment.env moment.event
  match server.pc with
  | .returned result => ⟨.settle (result.map fun _ => ()), server.session, sent⟩
  | _ => ⟨.server server, server.session, sent⟩

def attemptMoves (server : Server) : Move :=
  let (server, sent) :=
    anyStep { server with session := session } suite moment.rand moment.env moment.event
  match server.pc with
  | .returned result => ⟨.settleOpen (result.map fun _ => ()), server.session, sent⟩
  | _ => ⟨.attempt server, server.session, sent⟩

/-- The event is applied and its outcome dropped. -/
def applies (event : SessionEvent) : Session :=
  { session with state := (session.state.transition event).2 }

def handshakeAnswer (result : Except TransportError Unit) : Place := .returned (.handshake result)

def begins : Call → Move
  | .handshake role peer => ⟨.lockState role peer, { session with peer := some peer }, []⟩
  | .handshakeOpen =>
    match session.state.transition .startAccept with
    | (.error _, _) =>
      ⟨handshakeAnswer (.error (.invalidState "cannot start open handshake")), session, []⟩
    | (.ok _, state) => ⟨.loopTop, { session with state := state }, []⟩
  | .recvAudio => ⟨.recvTop (moment.nowUs + session.skipUs), session, []⟩

def locksState (role : SessionRole) (peer : SocketAddr) : Move :=
  let event := match role with
    | .client => SessionEvent.startConnect
    | .server => SessionEvent.startAccept
  match session.state.transition event with
  | (.error _, _) =>
    ⟨handshakeAnswer (.error (.invalidState "cannot start handshake")), session, []⟩
  | (.ok _, state) =>
    let session := { session with state := state }
    match role with
    | .client =>
      ⟨.client ⟨session, peer, moment.rand.secret, moment.rand.nonce, .sendHello 0, none⟩, session, []⟩
    | .server => ⟨.server ⟨session, .fixed peer, .awaitHello, [], []⟩, session, []⟩

def succeeds : Move :=
  match session.state.transition .handshakeOk with
  | (.error _, _) => ⟨handshakeAnswer (.error (.invalidState "handshake_ok")), session, []⟩
  | (.ok _, state) => ⟨handshakeAnswer (.ok ()), { session with state := state }, []⟩

def settles : Except TransportError Unit → Move
  | .ok () => succeeds session
  | .error e => ⟨handshakeAnswer (.error e), applies session .handshakeTimeout, []⟩

def settlesOpen : Except TransportError Unit → Move
  | .ok () => succeeds session
  | .error (.peerClosed _) =>
    ⟨handshakeAnswer (.error (.peerClosed "session closed")), applies session .close, []⟩
  | .error _ =>
    ⟨.forgetPeer,
      applies (applies (applies session .handshakeTimeout) .reconnect) .startAccept, []⟩

def iterates (deadlineUs : UInt64) : Move :=
  match session.jitter.popWithDeadline moment.nowUs deadlineUs with
  | (some frame, jitter) => ⟨.returned (.audio (.ok frame)), { session with jitter := jitter }, []⟩
  | (none, jitter) =>
    let session := { session with jitter := jitter }
    if moment.nowUs ≥ deadlineUs then ⟨.recvTop (moment.nowUs + session.skipUs), session, []⟩
    else ⟨.recvWait deadlineUs, session, []⟩

def receives (deadlineUs : UInt64) : Move :=
  match moment.event with
  | .timeout => ⟨.recvTop deadlineUs, session, []⟩
  | .failed e => ⟨.returned (.audio (.error e)), session, []⟩
  | .datagram datagram =>
    let step := session.processDatagram aead moment.env datagram
    match step.result with
    | .error e => ⟨.returned (.audio (.error e)), step.session, step.sent⟩
    | .ok () => ⟨.recvTop deadlineUs, step.session, step.sent⟩

def moves (call : Call) : Place → Move
  | .start => begins moment session call
  | .lockState role peer => locksState moment session role peer
  | .client client => clientMoves suite moment session client
  | .server server => serverMoves suite moment session server
  | .settle result => settles session result
  | .loopTop => ⟨if session.closed then .lockClose else .attempt (anyServer session), session, []⟩
  | .lockClose =>
    ⟨handshakeAnswer (.error (.peerClosed "session closed")), applies session .close, []⟩
  | .attempt server => attemptMoves suite moment session server
  | .settleOpen result => settlesOpen session result
  | .forgetPeer => ⟨.loopTop, { session with peer := none }, []⟩
  | .recvTop deadlineUs => iterates moment session deadlineUs
  | .recvWait deadlineUs => receives aead moment session deadlineUs
  | .returned answer => ⟨.returned answer, session, []⟩

end Moves

/-- The deadline of a handshake drops it where it is. -/
def Place.expires : Place → Option Place
  | .client _ | .server _ => some (.settle (.error .timeout))
  | .attempt _ => some (.settleOpen (.error .timeout))
  | _ => none

def closes (env : Env) (session : Session) : ClosePlace → ClosePlace × Session × List Sent
  | .start => (.lockEncrypt, { session with closed := true }, [])
  | .lockEncrypt => (.lockDecrypt, { session with encryptKey := none }, [])
  | .lockDecrypt => (.lockPeer, { session with decryptKey := none }, [])
  | .lockPeer =>
    match session.peer with
    | some peer => (.sendClose peer, session, [])
    | none => (.lockState, session, [])
  | .sendClose peer =>
    let (_, session, sent) := session.sendControl env .close session.sessionId [] peer
    (.lockState, session, sent)
  | .lockState => (.returned, applies (applies session .close) .close, [])
  | .returned => (.returned, session, [])

variable {Task : Type} [DecidableEq Task]

structure State (Task : Type) where
  session : Session
  close : ClosePlace
  place : Task → Place
  wire : List Sent

def State.init (session : Session) : State Task := ⟨session, .start, fun _ => .start, []⟩

def State.goto (st : State Task) (task : Task) (move : Move) : State Task where
  session := move.session
  close := st.close
  place := Function.update st.place task move.place
  wire := st.wire ++ move.sent

@[simp] theorem State.goto_self (st : State Task) (task : Task) (move : Move) :
    (st.goto task move).place task = move.place := Function.update_self ..

theorem State.goto_other (st : State Task) {i task : Task} (h : i ≠ task) (move : Move) :
    (st.goto task move).place i = st.place i := Function.update_of_ne h ..

inductive Label (Task : Type) where
  | close
  | moves (task : Task) (moment : Moment)
  | expires (task : Task)

inductive Step (suite : Suite) (aead : Aead) (calls : Task → Call) :
    State Task → Label Task → State Task → Prop where
  | close {st} (env : Env) :
      Step suite aead calls st .close
        { st with
          close := (closes env st.session st.close).1
          session := (closes env st.session st.close).2.1
          wire := st.wire ++ (closes env st.session st.close).2.2 }
  | moves {st} (task : Task) (moment : Moment) :
      Step suite aead calls st (.moves task moment)
        (st.goto task (moves suite aead moment st.session (calls task) (st.place task)))
  | expires {st task place} (hexpires : (st.place task).expires = some place) :
      Step suite aead calls st (.expires task) (st.goto task ⟨place, st.session, []⟩)

end GravitalTalk.Transport.Closing
