import GravitalTalk.Transport.HandshakeOutcome

/-! `poll_once` calls one after another: when the clock stored for the last packet received is the
one the silence of the peer is measured from. -/
namespace GravitalTalk.Transport.PeerLiveness
open Lib GravitalTalk.Core Trace

structure Poll where
  env : Env
  event : RecvEvent

def exec (aead : Aead) (session : Session) (poll : Poll) : Session × Outcome :=
  ((session.pollOnce aead poll.env poll.event).session, session.pollOnce aead poll.env poll.event)

def heard (session : Session) (poll : Poll) : Option UInt64 :=
  match poll.event with
  | .datagram datagram =>
    match PacketView.decode (datagram.data.take session.config.mtu) with
    | .ok _ => some poll.env.rxClock
    | .error _ => none
  | .failed _ | .timeout => none

def Running (session : Session) : Prop :=
  session.state.state = .active ∨ session.state.state = .paused

instance (session : Session) : Decidable (Running session) := inferInstanceAs (Decidable (_ ∨ _))

/-- More than the heartbeat timeout has passed since both times. -/
def Overdue (handshakeDone heard now : UInt64) : Prop :=
  heartbeatTimeoutMs.toNat * 1000 < now.toNat - max handshakeDone.toNat heard.toNat

structure Settled (session after : Session) : Prop where
  config : after.config = session.config
  lastRx : after.lastRx = session.lastRx

section Calls
variable {session after : Session} {aead : Aead} {env : Env}

theorem settled_dispatched (h : session.Dispatched after) : Settled session after := by
  cases h with
  | fields => exact ⟨rfl, rfl⟩

theorem settled_checkLiveness (session : Session) (now : UInt64) :
    Settled session (session.checkLiveness now).2 := by
  unfold Session.checkLiveness
  simp only
  split_ifs <;> exact ⟨rfl, rfl⟩

theorem settled_sendHeartbeat (session : Session) (env : Env) :
    Settled session (session.sendHeartbeat env).session := by
  unfold Session.sendHeartbeat
  split
  · exact ⟨rfl, rfl⟩
  · exact settled_dispatched (Session.dispatched_sendControl _ _ _ _)

/-- A call sets the clock for a packet that decodes, and for nothing else. -/
theorem pollOnce_lastRx (session : Session) (aead : Aead) (poll : Poll) :
    (exec aead session poll).1.config = session.config ∧
      (exec aead session poll).1.lastRx = (heard session poll).getD session.lastRx := by
  obtain ⟨env, event⟩ := poll
  cases event with
  | failed e => exact ⟨rfl, rfl⟩
  | datagram datagram =>
    simp only [exec, Session.pollOnce, heard]
    cases hdecode : PacketView.decode (datagram.data.take session.config.mtu) with
    | error e =>
      rw [Session.processDatagram_error hdecode]
      exact ⟨rfl, rfl⟩
    | ok view =>
      rw [Session.processDatagram_ok hdecode]
      obtain ⟨hconfig, hlastRx⟩ := settled_dispatched (@Session.dispatched_packet
        (session.arrived env.rxClock (datagram.data.take session.config.mtu).length) aead env view
          (datagram.data.take session.config.mtu))
      exact ⟨hconfig, hlastRx⟩
  | timeout =>
    simp only [exec, Session.pollOnce, heard]
    split_ifs
    · have hbeat := settled_sendHeartbeat session env
      cases (session.sendHeartbeat env).result with
      | error e => exact ⟨hbeat.config, hbeat.lastRx⟩
      | ok _ =>
        have hcheck := settled_checkLiveness (session.sendHeartbeat env).session env.rxClock
        exact ⟨hcheck.config.trans hbeat.config, hcheck.lastRx.trans hbeat.lastRx⟩
    · exact ⟨rfl, rfl⟩

theorem sendHeartbeat_accepted (haccepts : env.Accepts) (hroom : LoneCall.Room session) :
    (session.sendHeartbeat env).result = .ok () ∧
      (session.sendHeartbeat env).session.state = session.state := by
  unfold Session.sendHeartbeat
  cases session.peer with
  | none => exact ⟨rfl, rfl⟩
  | some peer =>
    have hempty : ([] : Bytes).length ≤ maxPayloadSize := by simp
    obtain ⟨metrics, hsend⟩ := session.sendControl_accepted haccepts .heartbeat session.sessionId
      peer hempty hroom
    simp only [hsend, and_self]

/-- The clock of the last packet decides, unless it is 0. -/
theorem timeout_poll (aead : Aead) (hrunning : Running session) (haccepts : env.Accepts)
    (hroom : LoneCall.Room session) :
    if session.lastRx ≠ 0 ∧
        env.rxClock.toNat - session.lastRx.toNat > heartbeatTimeoutMs.toNat * 1000 then
      (session.pollOnce aead env .timeout).result = .error (.peerClosed "heartbeat timeout") ∧
        ¬Running (session.pollOnce aead env .timeout).session
    else
      (session.pollOnce aead env .timeout).result = .ok () ∧
        Running (session.pollOnce aead env .timeout).session := by
  obtain ⟨hresult, hstate⟩ := sendHeartbeat_accepted haccepts hroom
  have hlastRx := (settled_sendHeartbeat session env).lastRx
  have hpoll : session.pollOnce aead env .timeout =
      ⟨((session.sendHeartbeat env).session.checkLiveness env.rxClock).1,
        ((session.sendHeartbeat env).session.checkLiveness env.rxClock).2,
          (session.sendHeartbeat env).sent, []⟩ := by
    have hstates : session.state.state = .active ∨ session.state.state = .paused := hrunning
    simp only [Session.pollOnce, if_pos hstates, hresult]
  rw [hpoll]
  simp only [Session.checkLiveness, hlastRx]
  split_ifs with hsilent
  · refine ⟨rfl, ?_⟩
    simp only [Running, hstate, Closing.transition_state]
    obtain hactive | hpaused := hrunning
    · rw [hactive]
      decide
    · rw [hpaused]
      decide
  · refine ⟨rfl, ?_⟩
    simpa only [Running, hstate] using hrunning

theorem timeout_poll_idle (aead : Aead) (env : Env) (hrunning : ¬Running session) :
    session.pollOnce aead env .timeout = session.quiet := by
  have hstates : ¬(session.state.state = .active ∨ session.state.state = .paused) := hrunning
  simp only [Session.pollOnce, if_neg hstates]

end Calls

abbrev run (aead : Aead) (session : Session) (polls : List Poll) :
    List (Event Session Poll Outcome) := history (exec aead) session polls

/-- The clock of the last packet received, in a run or before it; 0 if there was none. -/
def lastHeard (aead : Aead) (session : Session) (polls : List Poll) : UInt64 :=
  (lastOf heard (run aead session polls)).getD session.lastRx

theorem lastHeard_nil (aead : Aead) (session : Session) :
    lastHeard aead session [] = session.lastRx := rfl

theorem run_lastRx (aead : Aead) (session : Session) (polls : List Poll) :
    (final (exec aead) session polls).config = session.config ∧
      (final (exec aead) session polls).lastRx = lastHeard aead session polls := by
  constructor
  · let inv (after : Session) : Prop := after.config = session.config
    have hinit : inv session := rfl
    have hstep : ∀ after poll, inv after → inv (exec aead after poll).1 :=
      fun after poll h => (pollOnce_lastRx after aead poll).1.trans h
    exact final_induction hinit hstep polls
  · have hstep : ∀ call ∈ run aead session polls,
        call.after.lastRx = (heard call.before call.input).getD call.before.lastRx := by
      intro call hmem
      rw [after_of_mem_history hmem]
      exact (pollOnce_lastRx call.before aead call.input).2
    exact final_field hstep

def Connected (suite : Suite) (aead : Aead) (session : Session) : Prop :=
  ∃ call start inputs,
    (LoneCall.done suite aead call start inputs).place = .returned (.handshake (.ok ())) ∧
      session.config = (LoneCall.done suite aead call start inputs).session.config

theorem Connected.room {suite : Suite} {aead : Aead} {session : Session}
    (h : Connected suite aead session) : LoneCall.Room session := by
  obtain ⟨call, start, inputs, hdone, hconfig⟩ := h
  rw [LoneCall.Room, hconfig]
  exact (LoneCall.succeeded_completed hdone).room

/-- A timeout long after the handshake and the last packet ends the session if it is still running
and a packet was ever received, at a clock other than 0. -/
theorem overdue_poll_closes_iff (suite : Suite) (aead : Aead) (session : Session)
    (hconnected : Connected suite aead session) (handshakeDone : UInt64) (polls : List Poll)
    (env : Env) (haccepts : env.Accepts)
    (hoverdue : Overdue handshakeDone (lastHeard aead session polls) env.rxClock) :
    let before := final (exec aead) session polls
    let out := before.pollOnce aead env .timeout
    ((∃ reason, out.result = .error (.peerClosed reason)) ∧ ¬Running out.session ↔
        Running before ∧ lastHeard aead session polls ≠ 0) ∧
      (¬Running out.session ↔ Running before → lastHeard aead session polls ≠ 0) := by
  intro before out
  obtain ⟨hconfig, hlastRx⟩ := run_lastRx aead session polls
  have hroom : LoneCall.Room before := by
    rw [LoneCall.Room, hconfig]
    exact hconnected.room
  by_cases hrunning : Running before
  · have hpoll := timeout_poll aead hrunning haccepts hroom
    rw [hlastRx] at hpoll
    by_cases hheard : lastHeard aead session polls = 0
    · have hquiet : ¬(lastHeard aead session polls ≠ 0 ∧ env.rxClock.toNat -
          (lastHeard aead session polls).toNat > heartbeatTimeoutMs.toNat * 1000) :=
        fun h => h.1 hheard
      rw [if_neg hquiet] at hpoll
      exact ⟨⟨fun h => absurd hpoll.2 h.2, fun h => absurd hheard h.2⟩,
        fun h => absurd hpoll.2 h, fun h => absurd hheard (h hrunning)⟩
    · have hsilent : lastHeard aead session polls ≠ 0 ∧ env.rxClock.toNat -
          (lastHeard aead session polls).toNat > heartbeatTimeoutMs.toNat * 1000 := by
        refine ⟨hheard, ?_⟩
        unfold Overdue at hoverdue
        omega
      rw [if_pos hsilent] at hpoll
      exact ⟨⟨fun _ => ⟨hrunning, hheard⟩, fun _ => ⟨⟨_, hpoll.1⟩, hpoll.2⟩⟩,
        fun _ _ => hheard, fun _ => hpoll.2⟩
  · have hpoll : out = before.quiet := timeout_poll_idle aead env hrunning
    have hafter : ¬Running out.session := by rwa [hpoll]
    refine ⟨⟨fun h => ?_, fun h => absurd h.1 hrunning⟩, fun _ h => absurd h hrunning,
      fun _ => hafter⟩
    obtain ⟨⟨reason, hresult⟩, -⟩ := h
    rw [hpoll] at hresult
    cases hresult

private def aMinuteIn : Env := { Handshake.quietEnv with rxClock := 60000000 }

private theorem aMinuteIn_accepts : aMinuteIn.Accepts := fun data _ => ⟨data.length, rfl⟩

private theorem served_connected :
    Connected LoneCall.stubSuite .transparent LoneCall.served.session :=
  ⟨_, _, _, LoneCall.served_place, rfl⟩

private theorem served_silent : Running LoneCall.served.session ∧
    LoneCall.served.session.lastRx = 0 := by
  obtain ⟨txSequence, metrics, h⟩ := LoneCall.served_completes
  rw [h]
  exact ⟨.inl rfl, rfl⟩

/-- The peer of a handshake is gone without a word, and the session waits for it. -/
theorem silent_peer_kept :
    Overdue 0 (lastHeard .transparent LoneCall.served.session []) aMinuteIn.rxClock ∧
      (LoneCall.served.session.pollOnce .transparent aMinuteIn .timeout).result = .ok () ∧
        Running (LoneCall.served.session.pollOnce .transparent aMinuteIn .timeout).session := by
  obtain ⟨hrunning, hlastRx⟩ := served_silent
  have hroom := served_connected.room
  generalize LoneCall.served.session = session at *
  have hpoll := timeout_poll .transparent hrunning aMinuteIn_accepts hroom
  rw [if_neg (fun h => h.1 hlastRx)] at hpoll
  refine ⟨?_, hpoll⟩
  rw [lastHeard_nil, hlastRx, Overdue]
  decide

private def acknowledged : Poll :=
  ⟨{ Handshake.quietEnv with rxClock := 1 },
    .datagram (LoneCall.packetFrom LoneCall.caller .heartbeatAck [])⟩

private theorem acknowledged_arrives {session : Session} (hmtu : 112 ≤ session.config.mtu) :
    heard session acknowledged = some 1 ∧
      (exec .transparent session acknowledged).1.state = session.state := by
  have hdecode := LoneCall.received_packetFrom LoneCall.caller .heartbeatAck
    (show ([] : Bytes).length ≤ 84 by decide) hmtu
  unfold Handshake.received at hdecode
  refine ⟨?_, ?_⟩
  · simp only [heard, acknowledged, hdecode]
  · simp only [exec, Session.pollOnce, acknowledged, Session.processDatagram_ok hdecode]
    rfl

/-- One packet is enough, and silence for a minute after it. -/
theorem heard_peer_closed :
    let before := final (exec .transparent) LoneCall.served.session [acknowledged]
    lastHeard .transparent LoneCall.served.session [acknowledged] = 1 ∧
      (∃ reason, (before.pollOnce .transparent aMinuteIn .timeout).result =
        .error (.peerClosed reason)) ∧
      ¬Running (before.pollOnce .transparent aMinuteIn .timeout).session := by
  have hmtu : 112 ≤ LoneCall.served.session.config.mtu := by
    obtain ⟨txSequence, metrics, h⟩ := LoneCall.served_completes
    rw [h]
    exact show 112 ≤ Session.ofDefault.config.mtu by decide
  have hrunning := served_silent.1
  have hconnected := served_connected
  generalize LoneCall.served.session = session at *
  obtain ⟨harrives, hstate⟩ := acknowledged_arrives hmtu
  have hheard : lastHeard .transparent session [acknowledged] = 1 := by
    simp [lastHeard, run, history, lastOf, event, harrives]
  have hbefore : Running (final (exec .transparent) session [acknowledged]) := by
    simpa only [Running, final, hstate] using hrunning
  refine ⟨hheard, (overdue_poll_closes_iff LoneCall.stubSuite .transparent session hconnected 0
    [acknowledged] aMinuteIn aMinuteIn_accepts ?_).1.mpr ⟨hbefore, ?_⟩⟩
  · rw [hheard, Overdue]
    decide
  · rw [hheard]
    decide

end GravitalTalk.Transport.PeerLiveness
