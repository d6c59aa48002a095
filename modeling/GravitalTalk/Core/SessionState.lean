import GravitalTalk.Core.Constants

/-! The session state machine. -/
namespace GravitalTalk.Core

inductive SessionState where
  | idle
  | handshaking
  | active
  | paused
  | closing
  | closed
  | error
  | reconnecting
  deriving DecidableEq, Repr

inductive SessionEvent where
  | startConnect
  | startAccept
  | handshakeOk
  | handshakeTimeout
  | pause
  | resume
  | close
  | peerClosed
  | peerTimeout
  | fatalError
  | reconnect
  | reconnectOk
  deriving DecidableEq, Repr

structure StateTransitionError where
  origin : SessionState
  event : SessionEvent
  deriving DecidableEq, Repr

structure SessionStateMachine where
  state : SessionState
  deriving DecidableEq, Repr

namespace SessionStateMachine

def new : SessionStateMachine := ⟨.idle⟩

def next : SessionState → SessionEvent → Option SessionState
  | .idle, .startConnect | .idle, .startAccept => some .handshaking
  | .handshaking, .handshakeOk => some .active
  | .handshaking, .handshakeTimeout | .handshaking, .close => some .closed
  | .handshaking, .fatalError => some .error
  | .active, .pause => some .paused
  | .active, .close => some .closing
  | .active, .peerClosed => some .closing
  | .active, .peerTimeout => some .closing
  | .active, .fatalError => some .error
  | .paused, .resume => some .active
  | .paused, .close => some .closing
  | .paused, .peerClosed => some .closing
  | .paused, .peerTimeout => some .closing
  | .paused, .fatalError => some .error
  | .closing, .peerClosed => some .closed
  | .closing, .close => some .closed
  | .error, .reconnect | .closed, .reconnect => some .reconnecting
  | .reconnecting, .startConnect | .reconnecting, .startAccept
  | .reconnecting, .reconnectOk => some .handshaking
  | .reconnecting, .handshakeTimeout | .reconnecting, .fatalError => some .error
  | _, _ => none

/-- An invalid transition leaves the state as it was. -/
def transition (self : SessionStateMachine) (event : SessionEvent) :
    Except StateTransitionError SessionState × SessionStateMachine :=
  match next self.state event with
  | some state => (.ok state, ⟨state⟩)
  | none => (.error ⟨self.state, event⟩, self)

end SessionStateMachine
end GravitalTalk.Core
