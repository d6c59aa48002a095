import GravitalTalk.Lib.Insertion
import GravitalTalk.Transport.HandshakeRun

/-! A handshake among datagrams of strangers: the outcome of one call as a function of what its
receives bring. -/
namespace GravitalTalk.Transport.Handshake
open Lib GravitalTalk.Core Insertion

/-- What a receive brings, and the outside during the sends up to the next one, which go through.
An error is one of the transport, never the handshake's own. -/
structure Receive where
  event : RecvEvent
  env : Env
  accepts : env.Accepts
  fails : ∀ reason, event ≠ .failed (.handshake reason)

/-- What a call leaves behind; `result` is `none` while it waits. -/
structure HandshakeOutcome where
  result : Option (Except TransportError Unit)
  sessionId : UInt32
  negotiatedCodec : UInt8
  encryptKey : Option SessionKey
  decryptKey : Option SessionKey
  deriving DecidableEq

section Machine
variable {σ : Type*} (receives : σ → Bool) (step : σ → Env → RecvEvent → σ)

def advances (s : σ) (env : Env) : σ := if receives s then s else step s env .timeout

/-- On to the next receive: at most three steps lie in between, and a call that has returned stays
where it is. -/
def settles (s : σ) (env : Env) : σ :=
  advances receives step (advances receives step (advances receives step s env) env) env

def hears (s : σ) (receive : Receive) : σ :=
  if receives s then settles receives step (step s receive.env receive.event) receive.env else s

def runs (s : σ) (env : Env) (receives' : List Receive) : σ :=
  receives'.foldl (hears receives step) (settles receives step s env)

variable {receives step}

theorem settles_receiving {s : σ} {env : Env} (h : receives s = true) :
    settles receives step s env = s := by
  simp only [settles, advances, h, if_true]

theorem settles_next {s : σ} {env : Env} (h : receives s = false)
    (hnext : receives (step s env .timeout) = true) :
    settles receives step s env = step s env .timeout := by
  simp only [settles, advances, h, hnext, if_true, Bool.false_eq_true, if_false]

theorem hears_receiving {s : σ} (receive : Receive) (h : receives s = true) :
    hears receives step s receive =
      settles receives step (step s receive.env receive.event) receive.env := by
  simp only [hears, h, if_true]

theorem hears_idle {s : σ} (receive : Receive) (h : receives s = false) :
    hears receives step s receive = s := by
  simp only [hears, h, Bool.false_eq_true, if_false]

/-- What each of its steps keeps, a call keeps. -/
theorem settles_from {inv : σ → Prop} {s : σ} {env : Env} (h : receives s = false)
    (hnext : inv (step s env .timeout)) (htimeout : ∀ s, inv s → inv (step s env .timeout)) :
    inv (settles receives step s env) := by
  have hadvances : ∀ s, inv s → inv (advances receives step s env) := by
    intro s hs
    unfold advances
    split_ifs
    · exact hs
    · exact htimeout s hs
  refine hadvances _ (hadvances _ ?_)
  simpa only [advances, h, Bool.false_eq_true, if_false] using hnext

theorem hears_keeps {inv : σ → Prop} {s : σ} {receive : Receive} (hs : inv s)
    (hstep : ∀ s event, inv s → inv (step s receive.env event)) :
    inv (hears receives step s receive) := by
  by_cases h : receives s = true
  · rw [hears_receiving receive h]
    have hnext := hstep s receive.event hs
    by_cases hagain : receives (step s receive.env receive.event) = true
    · rwa [settles_receiving hagain]
    · exact settles_from (Bool.not_eq_true _ ▸ hagain) (hstep _ .timeout hnext)
        fun s hs => hstep s .timeout hs
  · rwa [hears_idle receive (by simpa using h)]

variable {related : σ → σ → Prop}
  (hreceives : ∀ s t, related s t → receives s = receives t)
  (htimeout : ∀ s t env env', related s t → env.Accepts → env'.Accepts →
    related (step s env .timeout) (step t env' .timeout))
include hreceives htimeout

theorem related_settles {s t : σ} {env env' : Env} (h : related s t) (haccepts : env.Accepts)
    (haccepts' : env'.Accepts) :
    related (settles receives step s env) (settles receives step t env') := by
  have hadvances : ∀ s t, related s t →
      related (advances receives step s env) (advances receives step t env') := by
    intro s t h
    unfold advances
    rw [← hreceives s t h]
    split_ifs
    · exact h
    · exact htimeout s t env env' h haccepts haccepts'
  exact hadvances _ _ (hadvances _ _ (hadvances _ _ h))

theorem related_hears {s t : σ} {receive receive' : Receive} (h : related s t)
    (hstep : related (step s receive.env receive.event) (step t receive'.env receive'.event)) :
    related (hears receives step s receive) (hears receives step t receive') := by
  unfold hears
  rw [← hreceives s t h]
  split_ifs
  · exact related_settles hreceives htimeout hstep receive.accepts receive'.accepts
  · exact h

end Machine

namespace Client

def receives (self : Client) : Bool :=
  match self.pc with
  | .awaitHello _ | .awaitConfirm _ => true
  | _ => false

def next (suite : Suite) (self : Client) (env : Env) (event : RecvEvent) : Client :=
  (self.step suite env event).1

def run (self : Client) (suite : Suite) (env : Env) (receives : List Receive) : Client :=
  runs Client.receives (Client.next suite) self env receives

def outcome (self : Client) : HandshakeOutcome where
  result := match self.pc with
    | .returned result => some (result.map fun _ => ())
    | _ => none
  sessionId := self.session.sessionId
  negotiatedCodec := self.session.negotiatedCodec
  encryptKey := self.session.encryptKey
  decryptKey := self.session.decryptKey

end Client

namespace Server

def receives (self : Server) : Bool :=
  match self.pc with
  | .awaitHello | .awaitKeyExchange _ => true
  | _ => false

def next (suite : Suite) (rand : Rand) (self : Server) (env : Env) (event : RecvEvent) : Server :=
  (self.step suite rand env event).1

/-- The random values are drawn once. -/
def run (self : Server) (suite : Suite) (rand : Rand) (env : Env) (receives : List Receive) :
    Server :=
  runs Server.receives (Server.next suite rand) self env receives

def outcome (self : Server) : HandshakeOutcome where
  result := match self.pc with
    | .returned result => some (result.map fun _ => ())
    | _ => none
  sessionId := self.session.sessionId
  negotiatedCodec := self.session.negotiatedCodec
  encryptKey := self.session.encryptKey
  decryptKey := self.session.decryptKey

end Server

theorem encodePacket_short {mtu : Nat} {payload : Bytes} (hsize : ¬payload.length > maxPayloadSize)
    (hmtu : mtu < headerSize + payload.length + 4) (header : PacketHeader) :
    Session.encodePacket mtu header payload = .error .bufferTooSmall := by
  simp [Session.encodePacket, PacketBuilder.encode, hsize, hmtu]

theorem encodePacket_result (mtu : Nat) (header header' : PacketHeader) (payload : Bytes) :
    (∃ data data', Session.encodePacket mtu header payload = .ok data ∧
      Session.encodePacket mtu header' payload = .ok data') ∨
    ∃ e, Session.encodePacket mtu header payload = .error e ∧
      Session.encodePacket mtu header' payload = .error e := by
  by_cases hsize : payload.length > maxPayloadSize
  · exact .inr ⟨.payloadTooLarge, by simp [Session.encodePacket, PacketBuilder.encode, hsize],
      by simp [Session.encodePacket, PacketBuilder.encode, hsize]⟩
  by_cases hmtu : mtu < headerSize + payload.length + 4
  · exact .inr ⟨_, encodePacket_short hsize hmtu header, encodePacket_short hsize hmtu header'⟩
  · have hpayload := Nat.le_of_not_lt hsize
    have hroom := Nat.le_of_not_lt hmtu
    exact .inl ⟨_, _, Session.encodePacket_eq hpayload hroom, Session.encodePacket_eq hpayload hroom⟩

theorem Like.sendControl {s s' : Session} (h : Like s s') {env env' : Env} (haccepts : env.Accepts)
    (haccepts' : env'.Accepts) (msg : MessageType) (sessionId : UInt32) (payload : Bytes)
    (peer : SocketAddr) :
    (s.sendControl env msg sessionId payload peer).1 =
        (s'.sendControl env' msg sessionId payload peer).1 ∧
      Like (s.sendControl env msg sessionId payload peer).2.1
        (s'.sendControl env' msg sessionId payload peer).2.1 := by
  obtain ⟨txSequence, metrics, rfl⟩ := h
  simp only [Session.sendControl, Session.sendPacket]
  obtain ⟨data, data', hdata, hdata'⟩ | ⟨e, herror, herror'⟩ := encodePacket_result s.config.mtu
    (PacketHeader.new msg.code sessionId s.txSequence env.clock)
    (PacketHeader.new msg.code sessionId txSequence env'.clock) payload
  · obtain ⟨n, hsend⟩ := haccepts data peer
    obtain ⟨n', hsend'⟩ := haccepts' data' peer
    simp only [hdata, hdata', hsend, hsend', true_and]
    exact ⟨_, _, rfl⟩
  · simp only [herror, herror', true_and]
    exact ⟨_, _, rfl⟩

/-- Only what the sessions have counted may differ. -/
def Client.Like (c c' : Client) : Prop :=
  ∃ txSequence metrics, c' = { c with
    session := { c.session with txSequence := txSequence, metrics := metrics } }

theorem Client.Like.onHello {c c' : Client} (h : c.Like c') (attempt : UInt32) (event : RecvEvent) :
    (c.onHello attempt event).Like (c'.onHello attempt event) := by
  obtain ⟨txSequence, metrics, rfl⟩ := h
  cases event with
  | timeout =>
    simp only [Client.onHello]
    split_ifs <;> exact ⟨txSequence, metrics, rfl⟩
  | failed e =>
    simp only [Client.onHello]
    split_ifs <;> exact ⟨txSequence, metrics, rfl⟩
  | datagram datagram =>
    simp only [Client.onHello, received]
    split_ifs
    · exact ⟨txSequence, metrics, rfl⟩
    · split
      · exact ⟨txSequence, metrics, rfl⟩
      · split_ifs
        · exact ⟨txSequence, metrics, rfl⟩
        · split <;> exact ⟨txSequence, metrics, rfl⟩

theorem Client.Like.onConfirm {c c' : Client} (h : c.Like c') (suite : Suite)
    (serverHello : ServerHello) (event : RecvEvent) :
    (c.onConfirm suite serverHello event).Like (c'.onConfirm suite serverHello event) := by
  obtain ⟨txSequence, metrics, rfl⟩ := h
  have hsecrets : Client.secretsFor { c with session := { c.session with
      txSequence := txSequence, metrics := metrics } } suite serverHello =
      c.secretsFor suite serverHello := rfl
  cases event with
  | timeout => exact ⟨txSequence, metrics, rfl⟩
  | failed e => exact ⟨txSequence, metrics, rfl⟩
  | datagram datagram =>
    simp only [Client.onConfirm, received]
    split_ifs
    · exact ⟨txSequence, metrics, rfl⟩
    · split
      · exact ⟨txSequence, metrics, rfl⟩
      · split_ifs
        · exact ⟨txSequence, metrics, rfl⟩
        · split
          · exact ⟨txSequence, metrics, rfl⟩
          · simp only [hsecrets]
            split_ifs <;> exact ⟨txSequence, metrics, rfl⟩

theorem Client.Like.sends {c c' : Client} (h : c.Like c') {env env' : Env} (haccepts : env.Accepts)
    (haccepts' : env'.Accepts) (msg : MessageType) (sessionId : UInt32)
    (payload : Except TransportError Bytes) (next : ClientPc) :
    (c.sends env msg sessionId payload next).1.Like
      (c'.sends env' msg sessionId payload next).1 := by
  obtain ⟨txSequence, metrics, rfl⟩ := h
  cases payload with
  | error e => exact ⟨txSequence, metrics, rfl⟩
  | ok payload =>
    have hlike : Handshake.Like c.session
        { c.session with txSequence := txSequence, metrics := metrics } := ⟨_, _, rfl⟩
    obtain ⟨hresult, hafter⟩ := hlike.sendControl haccepts haccepts' msg sessionId payload c.peer
    simp only [Client.sends]
    generalize c.session.sendControl env msg sessionId payload c.peer = sent at hresult hafter ⊢
    generalize Session.sendControl { c.session with txSequence := txSequence, metrics := metrics }
      env' msg sessionId payload c.peer = sent' at hresult hafter ⊢
    obtain ⟨result, session, out⟩ := sent
    obtain ⟨result', session', out'⟩ := sent'
    obtain rfl : result = result' := hresult
    obtain ⟨txSequence', metrics', rfl⟩ := hafter
    cases result <;> exact ⟨txSequence', metrics', rfl⟩

theorem Client.Like.step {c c' : Client} (h : c.Like c') (suite : Suite) {env env' : Env}
    (haccepts : env.Accepts) (haccepts' : env'.Accepts) (event : RecvEvent) :
    (c.step suite env event).1.Like (c'.step suite env' event).1 := by
  have hpc : c'.pc = c.pc := by
    obtain ⟨txSequence, metrics, rfl⟩ := h
    rfl
  have hhello : c'.hello suite = c.hello suite := by
    obtain ⟨txSequence, metrics, rfl⟩ := h
    rfl
  have hsecrets : c'.secretsFor suite = c.secretsFor suite := by
    obtain ⟨txSequence, metrics, rfl⟩ := h
    rfl
  unfold Client.step
  rw [hpc]
  cases hat : c.pc with
  | sendHello attempt =>
    simp only [hhello]
    exact h.sends haccepts haccepts' _ _ _ _
  | awaitHello attempt => exact h.onHello attempt event
  | sendKeyExchange serverHello =>
    simp only [hsecrets]
    exact h.sends haccepts haccepts' _ _ _ _
  | awaitConfirm serverHello => exact h.onConfirm suite serverHello event
  | storeEncrypt serverHello =>
    obtain ⟨txSequence, metrics, rfl⟩ := h
    exact ⟨txSequence, metrics, rfl⟩
  | storeDecrypt serverHello =>
    obtain ⟨txSequence, metrics, rfl⟩ := h
    exact ⟨txSequence, metrics, rfl⟩
  | returned result => exact h

def Server.Like (s s' : Server) : Prop :=
  ∃ txSequence metrics, s' = { s with
    session := { s.session with txSequence := txSequence, metrics := metrics } }

section FixedServer
variable {s s' : Server} {peer : SocketAddr}

theorem Server.finishes_fixed (hmode : s.mode = .fixed peer)
    (result : Except TransportError Offer) :
    s.finishes result = { s with pc := .returned result } := by
  simp only [Server.finishes, hmode]

theorem Server.Like.mode_eq (h : s.Like s') : s'.mode = s.mode := by
  obtain ⟨txSequence, metrics, rfl⟩ := h
  rfl

theorem Server.Like.finishes (h : s.Like s') (hmode : s.mode = .fixed peer)
    (result : Except TransportError Offer) : (s.finishes result).Like (s'.finishes result) := by
  rw [Server.finishes_fixed hmode, Server.finishes_fixed (h.mode_eq.trans hmode)]
  obtain ⟨txSequence, metrics, rfl⟩ := h
  exact ⟨txSequence, metrics, rfl⟩

theorem Server.Like.negotiates (h : s.Like s') (hmode : s.mode = .fixed peer) (suite : Suite)
    (rand : Rand) (clientHello : ClientHello) (source : SocketAddr) :
    (s.negotiates suite rand clientHello source).Like
      (s'.negotiates suite rand clientHello source) := by
  unfold Server.negotiates
  split_ifs
  · exact h.finishes hmode _
  · obtain ⟨txSequence, metrics, rfl⟩ := h
    cases hcodec : Server.chooseCodec s.session.config clientHello.codecPreferred with
    | error e =>
      simp only [hcodec]
      apply Server.Like.finishes
      · exact ⟨txSequence, metrics, rfl⟩
      · exact hmode
    | ok codec =>
      simp only [hcodec]
      exact ⟨txSequence, metrics, rfl⟩

theorem Server.Like.onHelloFrom (h : s.Like s') (hmode : s.mode = .fixed peer) (suite : Suite)
    (rand : Rand) (event : RecvEvent) :
    (s.onHelloFrom suite rand peer event).Like (s'.onHelloFrom suite rand peer event) := by
  cases event with
  | timeout => exact h
  | failed e => exact h.finishes hmode _
  | datagram datagram =>
    have hreceived : received s'.session datagram = received s.session datagram := by
      obtain ⟨txSequence, metrics, rfl⟩ := h
      rfl
    simp only [Server.onHelloFrom, hreceived]
    split_ifs
    · exact h
    · cases received s.session datagram with
      | error e => exact h
      | ok view =>
        simp only
        split_ifs
        · exact h
        · cases ClientHello.decode view.payload with
          | error e => exact h.finishes hmode _
          | ok clientHello => exact h.negotiates hmode suite rand clientHello peer

theorem Server.Like.moves (h : s.Like s') (pc : ServerPc) :
    Server.Like { s with pc := pc } { s' with pc := pc } := by
  obtain ⟨txSequence, metrics, rfl⟩ := h
  exact ⟨txSequence, metrics, rfl⟩

theorem Server.Like.onKeyExchange (h : s.Like s') (hmode : s.mode = .fixed peer) (suite : Suite)
    (offer : Offer) (event : RecvEvent) :
    (s.onKeyExchange suite offer event).Like (s'.onKeyExchange suite offer event) := by
  cases event with
  | timeout => exact h.moves _
  | failed e => exact h.finishes hmode _
  | datagram datagram =>
    have hreceived : received s'.session datagram = received s.session datagram := by
      obtain ⟨txSequence, metrics, rfl⟩ := h
      rfl
    simp only [Server.onKeyExchange, hreceived]
    split_ifs
    · exact h.moves _
    · cases received s.session datagram with
      | error e => exact h.moves _
      | ok view =>
        simp only
        split_ifs
        · exact h.moves _
        · exact h.moves _
        · cases KeyExchangeMsg.decode view.payload with
          | error e => exact h.finishes hmode _
          | ok msg =>
            simp only
            split_ifs
            · exact h.finishes hmode _
            · exact h.finishes hmode _
            · obtain ⟨txSequence, metrics, rfl⟩ := h
              exact ⟨txSequence, metrics, rfl⟩

theorem Server.Like.sends (h : s.Like s') (hmode : s.mode = .fixed peer) {env env' : Env}
    (haccepts : env.Accepts) (haccepts' : env'.Accepts) (msg : MessageType) (sessionId : UInt32)
    (payload : Except TransportError Bytes) (dest : SocketAddr) (next : ServerPc) :
    (s.sends env msg sessionId payload dest next).1.Like
      (s'.sends env' msg sessionId payload dest next).1 := by
  cases payload with
  | error e => exact h.finishes hmode _
  | ok payload =>
    obtain ⟨txSequence, metrics, rfl⟩ := h
    have hlike : Handshake.Like s.session
        { s.session with txSequence := txSequence, metrics := metrics } := ⟨_, _, rfl⟩
    obtain ⟨hresult, hafter⟩ := hlike.sendControl haccepts haccepts' msg sessionId payload dest
    simp only [Server.sends]
    generalize s.session.sendControl env msg sessionId payload dest = sent at hresult hafter ⊢
    generalize Session.sendControl { s.session with txSequence := txSequence, metrics := metrics }
      env' msg sessionId payload dest = sent' at hresult hafter ⊢
    obtain ⟨result, session, out⟩ := sent
    obtain ⟨result', session', out'⟩ := sent'
    obtain rfl : result = result' := hresult
    obtain ⟨txSequence', metrics', rfl⟩ := hafter
    cases result with
    | error e =>
      apply Server.Like.finishes
      · exact ⟨txSequence', metrics', rfl⟩
      · exact hmode
    | ok _ => exact ⟨txSequence', metrics', rfl⟩

theorem Server.Like.step (h : s.Like s') (hmode : s.mode = .fixed peer) (suite : Suite)
    (rand : Rand) {env env' : Env} (haccepts : env.Accepts) (haccepts' : env'.Accepts)
    (event : RecvEvent) :
    (s.step suite rand env event).1.Like (s'.step suite rand env' event).1 := by
  have hpc : s'.pc = s.pc := by
    obtain ⟨txSequence, metrics, rfl⟩ := h
    rfl
  have hclosed : s'.session.closed = s.session.closed := by
    obtain ⟨txSequence, metrics, rfl⟩ := h
    rfl
  have hmode' := h.mode_eq.trans hmode
  unfold Server.step
  rw [hpc, hclosed]
  cases s.pc with
  | attempt =>
    simp only
    split_ifs
    · obtain ⟨txSequence, metrics, rfl⟩ := h
      exact ⟨txSequence, metrics, rfl⟩
    · exact h.moves _
  | helloTop =>
    simp only
    split_ifs
    · exact h.finishes hmode _
    · exact h.moves _
  | awaitHello =>
    simp only [hmode, hmode']
    exact h.onHelloFrom hmode suite rand event
  | sendHello offer => exact h.sends hmode haccepts haccepts' _ _ _ _ _
  | keyTop offer =>
    simp only
    split_ifs
    · exact h.finishes hmode _
    · exact h.moves _
  | awaitKeyExchange offer => exact h.onKeyExchange hmode suite offer event
  | resendHello offer => exact h.sends hmode haccepts haccepts' _ _ _ _ _
  | sendConfirm offer => exact h.sends hmode haccepts haccepts' _ _ _ _ _
  | storeEncrypt offer =>
    obtain ⟨txSequence, metrics, rfl⟩ := h
    exact ⟨txSequence, metrics, rfl⟩
  | storeDecrypt offer =>
    obtain ⟨txSequence, metrics, rfl⟩ := h
    apply Server.Like.finishes
    · exact ⟨txSequence, metrics, rfl⟩
    · exact hmode
  | returned result => exact h

/-- A server that only ever deals with `peer`, and looks at `closed` before it waits again. -/
def ServerPc.Bound (peer : SocketAddr) (closed : Bool) : ServerPc → Prop
  | .sendHello offer | .keyTop offer | .resendHello offer | .sendConfirm offer
  | .storeEncrypt offer | .storeDecrypt offer => offer.peer = peer
  | .awaitKeyExchange offer => offer.peer = peer ∧ closed = false
  | .attempt | .helloTop | .awaitHello | .returned _ => True

structure Server.Bound (peer : SocketAddr) (s : Server) : Prop where
  mode : s.mode = .fixed peer
  pc : s.pc.Bound peer s.session.closed

theorem Server.Bound.finishes (h : s.mode = .fixed peer) (result : Except TransportError Offer) :
    (s.finishes result).Bound peer := by
  rw [Server.finishes_fixed h]
  exact ⟨h, trivial⟩

theorem Server.Bound.negotiates (h : s.mode = .fixed peer) (suite : Suite) (rand : Rand)
    (clientHello : ClientHello) : (s.negotiates suite rand clientHello peer).Bound peer := by
  refine s.negotiates_rule (Bound peer) suite rand clientHello peer (fun e sessionId => ?_)
    fun codec _ _ => ⟨h, rfl⟩
  apply Server.Bound.finishes
  exact h

theorem Server.Bound.onHelloFrom (h : s.Bound peer) (suite : Suite) (rand : Rand)
    (event : RecvEvent) : (s.onHelloFrom suite rand peer event).Bound peer :=
  s.onHelloFrom_rule (Bound peer) suite rand peer event h (fun _ => .finishes h.mode _)
    fun _ _ clientHello _ _ _ => .negotiates h.mode suite rand clientHello

theorem Server.Bound.onKeyExchange (h : s.Bound peer) (suite : Suite) {offer : Offer}
    (hoffer : offer.peer = peer) (event : RecvEvent) :
    (s.onKeyExchange suite offer event).Bound peer :=
  s.onKeyExchange_rule (Bound peer) suite offer event ⟨h.mode, hoffer⟩
    (fun _ => .finishes h.mode _) (fun _ _ _ _ => ⟨h.mode, hoffer⟩)
    fun _ _ _ _ _ _ _ => ⟨h.mode, hoffer⟩

theorem Server.Bound.sends (h : s.mode = .fixed peer) (env : Env) (msg : MessageType)
    (sessionId : UInt32) (payload : Except TransportError Bytes) (dest : SocketAddr)
    {next : ServerPc} (hnext : ∀ closed, next.Bound peer closed) :
    (s.sends env msg sessionId payload dest next).1.Bound peer := by
  refine s.sends_rule (fun out => Bound peer out.1) env msg sessionId payload dest next
    (fun _ => .finishes h _) (fun _ e session _ _ _ => ?_) fun _ _ _ _ _ => ⟨h, hnext _⟩
  apply Server.Bound.finishes
  exact h

theorem Server.Bound.step (h : s.Bound peer) (suite : Suite) (rand : Rand) (env : Env)
    (event : RecvEvent) : (s.step suite rand env event).1.Bound peer := by
  have hpc := h.pc
  unfold Server.step
  cases hat : s.pc <;> simp only [hat, ServerPc.Bound] at hpc ⊢
  case attempt =>
    split_ifs
    · exact ⟨h.mode, trivial⟩
    · exact ⟨h.mode, trivial⟩
  case helloTop =>
    split_ifs
    · exact .finishes h.mode _
    · exact ⟨h.mode, trivial⟩
  case awaitHello =>
    simp only [h.mode]
    exact h.onHelloFrom suite rand event
  case sendHello offer => exact .sends h.mode env _ _ _ _ fun _ => hpc
  case keyTop offer =>
    split_ifs with hclosed
    · exact .finishes h.mode _
    · exact ⟨h.mode, hpc, by simpa using hclosed⟩
  case awaitKeyExchange offer => exact h.onKeyExchange suite hpc.1 event
  case resendHello offer => exact .sends h.mode env _ _ _ _ fun _ => hpc
  case sendConfirm offer => exact .sends h.mode env _ _ _ _ fun _ => hpc
  case storeEncrypt offer => exact ⟨h.mode, hpc⟩
  case storeDecrypt offer =>
    apply Server.Bound.finishes
    exact h.mode
  case returned result => exact h

end FixedServer

def Stranger (peer : SocketAddr) (receive : Receive) : Prop :=
  ∃ datagram, receive.event = .datagram datagram ∧ datagram.source ≠ peer

def SameEvent (receive receive' : Receive) : Prop := receive.event = receive'.event

theorem SameEvent.refl (receive : Receive) : SameEvent receive receive := Eq.refl receive.event

section ServerNoise
variable {s t : Server} {peer : SocketAddr} {suite : Suite} {rand : Rand}

theorem Server.Bound.like (h : s.Bound peer) (hlike : s.Like t) : t.Bound peer := by
  obtain ⟨txSequence, metrics, rfl⟩ := hlike
  exact ⟨h.mode, h.pc⟩

theorem Server.Bound.ignores (h : t.Bound peer) {receive : Receive}
    (hstranger : Stranger peer receive) :
    hears Server.receives (Server.next suite rand) t receive = t := by
  obtain ⟨datagram, hevent, hsource⟩ := hstranger
  have hpc := h.pc
  cases hat : t.pc <;> simp only [hat, ServerPc.Bound] at hpc
  case awaitHello =>
    have hwaits : t.receives = true := by rw [Server.receives, hat]
    have hnext : t.next suite rand receive.env receive.event = t := by
      simp only [Server.next, Server.step, hat, h.mode, hevent, Server.onHelloFrom, ne_eq, hsource,
        not_false_eq_true, if_true]
    rw [hears_receiving receive hwaits, hnext, settles_receiving hwaits]
  case awaitKeyExchange offer =>
    have hwaits : t.receives = true := by rw [Server.receives, hat]
    have hnext : t.next suite rand receive.env receive.event = { t with pc := .keyTop offer } := by
      simp only [Server.next, Server.step, hat, hevent, Server.onKeyExchange, hpc.1, ne_eq, hsource,
        not_false_eq_true, if_true]
    have hback : Server.next suite rand { t with pc := .keyTop offer } receive.env .timeout = t := by
      simp only [Server.next, Server.step, hpc.2, Bool.false_eq_true, if_false, ← hat]
    rw [hears_receiving receive hwaits, hnext, settles_next rfl (by rw [hback, hwaits]), hback]
  all_goals
    apply hears_idle
    rw [Server.receives, hat]

theorem Server.Like.receives_eq (h : s.Like t) : s.receives = t.receives := by
  obtain ⟨txSequence, metrics, rfl⟩ := h
  rfl

theorem Server.Like.outcome_eq (h : s.Like t) : s.outcome = t.outcome := by
  obtain ⟨txSequence, metrics, rfl⟩ := h
  rfl

theorem server_noise (s : Server) (hbound : s.Bound peer) {env env' : Env} (haccepts : env.Accepts)
    (haccepts' : env'.Accepts) {base noisy : List Receive}
    (hinserted : Inserted SameEvent (Stranger peer) base noisy) :
    (s.run suite rand env base).outcome = (s.run suite rand env' noisy).outcome := by
  set related : Server → Server → Prop := fun a b => a.Bound peer ∧ a.Like b
  have hreceives : ∀ a b, related a b → a.receives = b.receives := fun a b h => h.2.receives_eq
  have hstep : ∀ a b env env' event, related a b → env.Accepts → env'.Accepts →
      related (a.next suite rand env event) (b.next suite rand env' event) :=
    fun a b env env' event h hok hok' =>
      ⟨h.1.step suite rand env event, h.2.step h.1.mode suite rand hok hok' event⟩
  have htimeout := fun a b env env' => hstep a b env env' .timeout
  have hstart : related s s := ⟨hbound, s.session.txSequence, s.session.metrics, rfl⟩
  have hend : related (s.run suite rand env base) (s.run suite rand env' noisy) := by
    refine hinserted.foldl (fun a b receive receive' h hsame => ?_) (fun a b receive h hextra => ?_)
      (related_settles hreceives htimeout hstart haccepts haccepts')
    · have hnext := hstep a b receive.env receive'.env receive.event h receive.accepts
        receive'.accepts
      rw [show receive.event = receive'.event from hsame] at hnext
      refine related_hears hreceives htimeout h ?_
      rw [show receive.event = receive'.event from hsame]
      exact hnext
    · rw [(h.1.like h.2).ignores hextra]
      exact h
  exact hend.2.outcome_eq

end ServerNoise

end GravitalTalk.Transport.Handshake
