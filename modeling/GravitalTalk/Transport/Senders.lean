import GravitalTalk.Lib.Transition
import GravitalTalk.Transport.Send

/-! Any number of tasks on one session, each inside a call of `send_audio`, `send_control` or
`close`.  A step is one access to shared state: an atomic operation, a lock acquisition with the
code up to the next await, or a send.

`send_fec_parity` runs with the `fec_enc` guard held (the guard of the `if let` in `send_audio`
lives to the end of its block) and keeps the `encrypt_key` guard over its send; every other guard
is dropped before the next await, so only these two locks need an owner. -/
namespace GravitalTalk.Transport.Senders
open Lib GravitalTalk.Core Transition

/-- A number taken from `tx_sequence`, with its place among all numbers taken (which the code does
not have). -/
structure Alloc where
  seq : UInt32
  nth : Nat

/-- Where a task stands in its call, with the values it has computed. -/
inductive Pc where
  | idle
  | audioState (payload : Bytes)
  | audioPeer (payload : Bytes)
  | audioSeq (payload : Bytes) (peer : SocketAddr)
  | audioTx (payload : Bytes) (peer : SocketAddr) (audioSeq : UInt32)
  | audioStamp (payload : Bytes) (peer : SocketAddr) (audioSeq : UInt32) (alloc : Alloc)
  | audioKey (payload : Bytes) (peer : SocketAddr) (audioSeq : UInt32) (alloc : Alloc)
      (ts : UInt64) (sid : UInt32)
  | audioSend (payload : Bytes) (peer : SocketAddr) (audioSeq sid : UInt32) (data : Bytes)
  | fecPush (payload : Bytes) (peer : SocketAddr) (audioSeq sid : UInt32)
  | parityTx (parity : FecParity) (peer : SocketAddr) (sid : UInt32)
  | parityKey (parity : FecParity) (peer : SocketAddr) (sid : UInt32) (alloc : Alloc)
  | paritySend (peer : SocketAddr) (data : Bytes)
  | paritySent
  | controlTx (msg : MessageType) (sid : UInt32) (payload : Bytes) (peer : SocketAddr)
      (closing : Bool)
  | controlSend (data : Bytes) (peer : SocketAddr) (closing : Bool)
  | closeFlag
  | closeEncKey
  | closeDecKey
  | closePeer
  | closeState

structure Encryption where
  key : SessionKey
  nonce : Nonce
  nth : Nat

variable {Task : Type} [DecidableEq Task]

structure State (Task : Type) where
  session : Session
  pc : Task → Pc
  encLock : Option Task
  fecLock : Option Task
  wire : List Sent
  /-- The calls of `encrypt_in_place` since the key was installed. -/
  encryptions : List Encryption
  allocated : Nat
  /-- How often `send_audio` took its clear-text branch. -/
  fallbacks : Nat

inductive Label (Task : Type) where
  | checkState (task : Task)
  | clearKey (task : Task)
  | task (task : Task)
  | environment

namespace State

def goto (st : State Task) (t : Task) (pc : Pc) : State Task :=
  { st with pc := Function.update st.pc t pc }

def sends (st : State Task) (data : Bytes) (peer : SocketAddr) : State Task :=
  { st with wire := st.wire ++ [⟨data, peer⟩] }

/-- `tx_sequence.fetch_add(1)`. -/
def takesNumber (st : State Task) : State Task :=
  { st with
    session := { st.session with txSequence := st.session.txSequence + 1 }
    allocated := st.allocated + 1 }

def nextAlloc (st : State Task) : Alloc := ⟨st.session.txSequence, st.allocated⟩

def encrypts (st : State Task) (key : SessionKey) (alloc : Alloc) (sid : UInt32) : State Task :=
  { st with encryptions := st.encryptions ++ [⟨key, makeNonce alloc.seq sid, alloc.nth⟩] }

def recordsSent (st : State Task) (n : Nat) : State Task :=
  { st with session := { st.session with metrics := st.session.metrics.recordSent n } }

end State

/-- After a control message: `close` goes on to the state machine, any other call returns. -/
def afterControl (closing : Bool) : Pc := if closing then .closeState else .idle

def audioData (aead : Aead) (mtu : Nat) (key : Option SessionKey) (audioSeq seq sid : UInt32)
    (ts : UInt64) (payload : Bytes) : Except TransportError Bytes :=
  match Session.audioPacket aead key audioSeq seq sid ts payload with
  | .error e => .error e
  | .ok (header, wire) => (Session.encodePacket mtu header wire).mapError .protocol

def parityData (aead : Aead) (mtu : Nat) (key : SessionKey) (parity : FecParity) (seq sid : UInt32)
    (ts : UInt64) : Except TransportError Bytes :=
  let header := Session.encryptedHeader .audioFec seq sid ts
  match Session.sealPayload aead key header (Session.fecPayload parity) with
  | .error e => .error e
  | .ok wire => (Session.encodePacket mtu header wire).mapError .protocol

open State in
/-- One step of one task, or of the rest of the program. -/
inductive Step (aead : Aead) : State Task → Label Task → State Task → Prop where
  | beginAudio {st t} (payload : Bytes) (hpc : st.pc t = .idle) :
      Step aead st (.task t) (st.goto t (.audioState payload))
  | beginControl {st t} (msg : MessageType) (sid : UInt32) (payload : Bytes) (peer : SocketAddr)
      (hpc : st.pc t = .idle) (hmsg : msg.code ≠ MessageType.audioFrame.code) :
      Step aead st (.task t) (st.goto t (.controlTx msg sid payload peer false))
  | beginClose {st t} (hpc : st.pc t = .idle) : Step aead st (.task t) (st.goto t .closeFlag)
  -- send_audio
  | stateActive {st t payload} (hpc : st.pc t = .audioState payload)
      (hstate : st.session.state.state = .active) :
      Step aead st (.checkState t) (st.goto t (.audioPeer payload))
  | stateOther {st t payload} (hpc : st.pc t = .audioState payload)
      (hstate : st.session.state.state ≠ .active) : Step aead st (.checkState t) (st.goto t .idle)
  | peerSome {st t payload peer} (hpc : st.pc t = .audioPeer payload)
      (hpeer : st.session.peer = some peer) :
      Step aead st (.task t) (st.goto t (.audioSeq payload peer))
  | peerNone {st t payload} (hpc : st.pc t = .audioPeer payload)
      (hpeer : st.session.peer = none) : Step aead st (.task t) (st.goto t .idle)
  | audioSeq {st t payload peer} (hpc : st.pc t = .audioSeq payload peer) :
      Step aead st (.task t)
        ({ st with session := { st.session with audioTxSeq := st.session.audioTxSeq + 1 } }.goto t
          (.audioTx payload peer st.session.audioTxSeq))
  | audioTx {st t payload peer audioSeq} (hpc : st.pc t = .audioTx payload peer audioSeq) :
      Step aead st (.task t)
        (st.takesNumber.goto t (.audioStamp payload peer audioSeq st.nextAlloc))
  | audioStamp {st t payload peer audioSeq alloc} (ts : UInt64)
      (hpc : st.pc t = .audioStamp payload peer audioSeq alloc) :
      Step aead st (.task t)
        (st.goto t (.audioKey payload peer audioSeq alloc ts st.session.sessionId))
  | audioEncrypt {st t payload peer audioSeq alloc ts sid key data}
      (hpc : st.pc t = .audioKey payload peer audioSeq alloc ts sid) (hlock : st.encLock = none)
      (hkey : st.session.encryptKey = some key)
      (hdata : audioData aead st.session.config.mtu (some key) audioSeq alloc.seq sid ts payload =
        .ok data) :
      Step aead st (.task t)
        ((st.encrypts key alloc sid).goto t (.audioSend payload peer audioSeq sid data))
  | audioEncryptFails {st t payload peer audioSeq alloc ts sid key e}
      (hpc : st.pc t = .audioKey payload peer audioSeq alloc ts sid) (hlock : st.encLock = none)
      (hkey : st.session.encryptKey = some key)
      (hdata : audioData aead st.session.config.mtu (some key) audioSeq alloc.seq sid ts payload =
        .error e) :
      Step aead st (.task t) ((st.encrypts key alloc sid).goto t .idle)
  | audioClear {st t payload peer audioSeq alloc ts sid data}
      (hpc : st.pc t = .audioKey payload peer audioSeq alloc ts sid) (hlock : st.encLock = none)
      (hkey : st.session.encryptKey = none)
      (hdata : audioData aead st.session.config.mtu none audioSeq alloc.seq sid ts payload =
        .ok data) :
      Step aead st (.task t)
        ({ st with fallbacks := st.fallbacks + 1 }.goto t
          (.audioSend payload peer audioSeq sid data))
  | audioClearFails {st t payload peer audioSeq alloc ts sid e}
      (hpc : st.pc t = .audioKey payload peer audioSeq alloc ts sid) (hlock : st.encLock = none)
      (hkey : st.session.encryptKey = none)
      (hdata : audioData aead st.session.config.mtu none audioSeq alloc.seq sid ts payload =
        .error e) :
      Step aead st (.task t) ({ st with fallbacks := st.fallbacks + 1 }.goto t .idle)
  | audioSent {st t payload peer audioSeq sid data} (n : Nat)
      (hpc : st.pc t = .audioSend payload peer audioSeq sid data) :
      Step aead st (.task t)
        (((st.sends data peer).recordsSent n).goto t (.fecPush payload peer audioSeq sid))
  | audioSendFails {st t payload peer audioSeq sid data}
      (hpc : st.pc t = .audioSend payload peer audioSeq sid data) :
      Step aead st (.task t) ((st.sends data peer).goto t .idle)
  | fecCollects {st t payload peer audioSeq sid enc}
      (hpc : st.pc t = .fecPush payload peer audioSeq sid) (hlock : st.fecLock = none)
      (hpush : st.session.fecEnc.push audioSeq payload = (none, enc)) :
      Step aead st (.task t)
        ({ st with session := { st.session with fecEnc := enc } }.goto t .idle)
  | fecCompletes {st t payload peer audioSeq sid parity enc}
      (hpc : st.pc t = .fecPush payload peer audioSeq sid) (hlock : st.fecLock = none)
      (hpush : st.session.fecEnc.push audioSeq payload = (some parity, enc)) :
      Step aead st (.task t)
        ({ st with session := { st.session with fecEnc := enc }, fecLock := some t }.goto t
          (.parityTx parity peer sid))
  -- send_fec_parity
  | parityTx {st t parity peer sid} (hpc : st.pc t = .parityTx parity peer sid) :
      Step aead st (.task t) (st.takesNumber.goto t (.parityKey parity peer sid st.nextAlloc))
  | parityEncrypt {st t parity peer sid alloc key data} (ts : UInt64)
      (hpc : st.pc t = .parityKey parity peer sid alloc) (hlock : st.encLock = none)
      (hkey : st.session.encryptKey = some key)
      (hdata : parityData aead st.session.config.mtu key parity alloc.seq sid ts = .ok data) :
      Step aead st (.task t)
        ({ st.encrypts key alloc sid with encLock := some t }.goto t (.paritySend peer data))
  | parityEncryptFails {st t parity peer sid alloc key e} (ts : UInt64)
      (hpc : st.pc t = .parityKey parity peer sid alloc) (hlock : st.encLock = none)
      (hkey : st.session.encryptKey = some key)
      (hdata : parityData aead st.session.config.mtu key parity alloc.seq sid ts = .error e) :
      Step aead st (.task t) ({ st.encrypts key alloc sid with fecLock := none }.goto t .idle)
  | parityNoKey {st t parity peer sid alloc} (hpc : st.pc t = .parityKey parity peer sid alloc)
      (hlock : st.encLock = none) (hkey : st.session.encryptKey = none) :
      Step aead st (.task t) ({ st with fecLock := none }.goto t .idle)
  | paritySend {st t peer data} (hpc : st.pc t = .paritySend peer data) :
      Step aead st (.task t) ((st.sends data peer).goto t .paritySent)
  | paritySent {st t} (n : Nat) (hpc : st.pc t = .paritySent) :
      Step aead st (.task t)
        ({ st.recordsSent n with encLock := none, fecLock := none }.goto t .idle)
  | paritySendFails {st t} (hpc : st.pc t = .paritySent) :
      Step aead st (.task t) ({ st with encLock := none, fecLock := none }.goto t .idle)
  -- send_control
  | controlTx {st t msg sid payload peer closing data} (ts : UInt64)
      (hpc : st.pc t = .controlTx msg sid payload peer closing)
      (hdata : Session.encodePacket st.session.config.mtu
        (PacketHeader.new msg.code sid st.session.txSequence ts) payload = .ok data) :
      Step aead st (.task t) (st.takesNumber.goto t (.controlSend data peer closing))
  | controlFails {st t msg sid payload peer closing e} (ts : UInt64)
      (hpc : st.pc t = .controlTx msg sid payload peer closing)
      (hdata : Session.encodePacket st.session.config.mtu
        (PacketHeader.new msg.code sid st.session.txSequence ts) payload = .error e) :
      Step aead st (.task t) (st.takesNumber.goto t (afterControl closing))
  | controlSent {st t data peer closing} (n : Nat)
      (hpc : st.pc t = .controlSend data peer closing) :
      Step aead st (.task t) (((st.sends data peer).recordsSent n).goto t (afterControl closing))
  | controlSendFails {st t data peer closing} (hpc : st.pc t = .controlSend data peer closing) :
      Step aead st (.task t) ((st.sends data peer).goto t (afterControl closing))
  -- close
  | closeFlag {st t} (hpc : st.pc t = .closeFlag) :
      Step aead st (.task t)
        ({ st with session := { st.session with closed := true } }.goto t .closeEncKey)
  | closeEncKey {st t} (hpc : st.pc t = .closeEncKey) (hlock : st.encLock = none) :
      Step aead st (.clearKey t)
        ({ st with session := { st.session with encryptKey := none } }.goto t .closeDecKey)
  | closeDecKey {st t} (hpc : st.pc t = .closeDecKey) :
      Step aead st (.task t)
        ({ st with session := { st.session with decryptKey := none } }.goto t .closePeer)
  | closePeerSome {st t peer} (hpc : st.pc t = .closePeer) (hpeer : st.session.peer = some peer) :
      Step aead st (.task t) (st.goto t (.controlTx .close st.session.sessionId [] peer true))
  | closePeerNone {st t} (hpc : st.pc t = .closePeer) (hpeer : st.session.peer = none) :
      Step aead st (.task t) (st.goto t .closeState)
  | closeState {st t} (hpc : st.pc t = .closeState) :
      Step aead st (.task t)
        ({ st with
          session :=
            { st.session with
              state := ((st.session.state.transition .close).2.transition .close).2 } }.goto t .idle)
  -- the handshakes and the receive path of the same session
  | installKey {st} (key : SessionKey) (hlock : st.encLock = none) :
      Step aead st .environment
        { st with session := { st.session with encryptKey := some key }, encryptions := [] }
  | storeSessionId {st} (sid : UInt32) :
      Step aead st .environment { st with session := { st.session with sessionId := sid } }
  | storePeer {st} (peer : Option SocketAddr) :
      Step aead st .environment { st with session := { st.session with peer := peer } }
  | fireEvent {st} (event : SessionEvent) :
      Step aead st .environment
        { st with session := { st.session with state := (st.session.state.transition event).2 } }

structure Start (st : State Task) : Prop where
  idle : ∀ t, st.pc t = .idle
  encLock : st.encLock = none
  fecLock : st.fecLock = none
  wire : st.wire = []
  encryptions : st.encryptions = []
  counter : st.session.txSequence = UInt32.ofNat st.allocated
  fallbacks : st.fallbacks = 0

/-- A session whose handshake has completed, with no call begun. -/
structure Ready (key : SessionKey) (st : State Task) : Prop extends Start st where
  active : st.session.state.state = .active
  encryptKey : st.session.encryptKey = some key

def CallsOnly (_ : State Task) : Label Task → Prop
  | .environment => False
  | _ => True

def State.quiet (session : Session) : State Task where
  session := session
  pc _ := .idle
  encLock := none
  fecLock := none
  wire := []
  encryptions := []
  allocated := session.txSequence.toNat
  fallbacks := 0

omit [DecidableEq Task] in
theorem ready_quiet {session : Session} {key : SessionKey} (hactive : session.state.state = .active)
    (hkey : session.encryptKey = some key) : Ready key (State.quiet session : State Task) where
  idle _ := rfl
  encLock := rfl
  fecLock := rfl
  wire := rfl
  encryptions := rfl
  counter := UInt32.ofNat_toNat.symm
  fallbacks := rfl
  active := hactive
  encryptKey := hkey

section Alone
variable {aead : Aead} {allowed : State Task → Label Task → Prop} {t : Task}

@[simp] theorem State.goto_pc (st : State Task) (t : Task) (pc : Pc) : (st.goto t pc).pc t = pc := by
  simp [State.goto]

theorem State.goto_goto (st : State Task) (t : Task) (pc pc' : Pc) :
    (st.goto t pc).goto t pc' = st.goto t pc' := by
  simp [State.goto]

def State.takesBoth (st : State Task) : State Task :=
  { st with session := { st.session with audioTxSeq := st.session.audioTxSeq + 1 } }.takesNumber

theorem reaches_audioKey (htask : ∀ st, allowed st (.task t)) {st : State Task} {payload : Bytes}
    {peer : SocketAddr} (hpc : st.pc t = .audioPeer payload) (hpeer : st.session.peer = some peer)
    (ts : UInt64) :
    Reaches (Step aead) allowed st
      (st.takesBoth.goto t (.audioKey payload peer st.session.audioTxSeq st.nextAlloc ts
        st.session.sessionId)) := by
  have hpeerStep : Reaches (Step aead) allowed st (st.goto t (.audioSeq payload peer)) :=
    (Reaches.refl st).tail (.peerSome hpc hpeer) (htask _)
  have hseqStep := hpeerStep.tail (.audioSeq (State.goto_pc _ _ _)) (htask _)
  have htxStep := hseqStep.tail (.audioTx (State.goto_pc _ _ _)) (htask _)
  have hstampStep := htxStep.tail (.audioStamp ts (State.goto_pc _ _ _)) (htask _)
  rw [State.goto_goto] at hstampStep
  have hfinal : (State.goto { st.goto t (.audioSeq payload peer) with
      session := { st.session with audioTxSeq := st.session.audioTxSeq + 1 } } t
        (.audioTx payload peer st.session.audioTxSeq)).takesNumber.goto t
          (.audioKey payload peer st.session.audioTxSeq st.nextAlloc ts st.session.sessionId) =
      st.takesBoth.goto t (.audioKey payload peer st.session.audioTxSeq st.nextAlloc ts
        st.session.sessionId) := by
    simp [State.goto, State.takesBoth, State.takesNumber]
  rw [← hfinal]
  exact hstampStep

end Alone

end GravitalTalk.Transport.Senders
