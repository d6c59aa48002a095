import GravitalTalk.Transport.HandshakeLoss
import GravitalTalk.Transport.HandshakeOutcome

/-! The two servers beside each other: `handshake_server` and `handshake_server_any` given the same
arrivals, all from one address. -/
namespace GravitalTalk.Transport.ServerTwins
open Lib GravitalTalk.Core Handshake Handshake.Loss

structure Arrival where
  event : RecvEvent
  env : Env

def Arrival.From (peer : SocketAddr) (arrival : Arrival) : Prop :=
  match arrival.event with
  | .datagram datagram => datagram.source = peer
  | .timeout | .failed _ => True

abbrev Recorded := Server × List Sent

def waits (s : Recorded) : Bool := s.1.receives

def takes (step : Recorded → Env → RecvEvent → Recorded) (s : Recorded) (arrival : Arrival) :
    Recorded :=
  if waits s then settles waits step (step s arrival.env arrival.event) arrival.env else s

section Runs
variable (suite : Suite) (rand : Rand)

def fixedStep : Recorded → Env → RecvEvent → Recorded :=
  recording fun s env event => s.step suite rand env event

def openStep : Recorded → Env → RecvEvent → Recorded :=
  recording fun s env event => Closing.anyStep s suite rand env event

/-- `handshake_server`, called by `handshake`, which has stored the peer. -/
def handshakeServer (start : Session) (peer : SocketAddr) (arrivals : List Arrival) : Recorded :=
  arrivals.foldl (takes (fixedStep suite rand))
    (⟨{ start with peer := some peer }, .fixed peer, .awaitHello, [], []⟩, [])

/-- `handshake_server_any`, which looks at `closed` before it waits. -/
def handshakeServerAny (start : Session) (before : Env) (arrivals : List Arrival) : Recorded :=
  arrivals.foldl (takes (openStep suite rand))
    (settles waits (openStep suite rand) (Closing.anyServer start, []) before)

end Runs

/-- The same packets and the same result, and, once both have returned, the same peer, session id,
codec and keys. -/
structure Agree (s t : Recorded) : Prop where
  sent : s.2 = t.2
  result : s.1.outcome.result = t.1.outcome.result
  outcome : s.1.outcome.result ≠ none →
    s.1.outcome = t.1.outcome ∧ s.1.session.peer = t.1.session.peer

/-- What a wait for the ClientHello does not pass over. -/
inductive Verdict where
  | fails (e : TransportError)
  | garbled
  | greets (hello : ClientHello)

def verdict (session : Session) : RecvEvent → Option Verdict
  | .timeout => none
  | .failed e => some (.fails e)
  | .datagram datagram =>
    match received session datagram with
    | .error _ => none
    | .ok view =>
      if view.header.msgType ≠ MessageType.handshakeClientHello.code then none
      else
        match ClientHello.decode view.payload with
        | .error _ => some .garbled
        | .ok hello => some (.greets hello)

/-- After garbled ClientHellos the transport fails, with the error they fail with. -/
def FailsAlike : List Verdict → Prop
  | [] | .greets _ :: _ => False
  | .fails e :: _ => e = .protocol .malformedPayload
  | .garbled :: rest => FailsAlike rest

/-- A ClientHello that decodes comes first, or no verdict at all; a receive fails first, and the
peer was there already; or a garbled ClientHello is first and the transport fails the same way. -/
def Alike (peer : SocketAddr) (start : Session) : List Verdict → Prop
  | [] | .greets _ :: _ => True
  | .fails _ :: _ => start.peer = some peer
  | .garbled :: rest => start.peer = some peer ∧ FailsAlike rest

def verdicts (start : Session) (arrivals : List Arrival) : List Verdict :=
  arrivals.filterMap fun arrival => verdict start arrival.event

theorem verdicts_none {start : Session} {arrival : Arrival} (h : verdict start arrival.event = none)
    (rest : List Arrival) : verdicts start (arrival :: rest) = verdicts start rest :=
  List.filterMap_cons_none h

theorem verdicts_some {start : Session} {arrival : Arrival} {v : Verdict}
    (h : verdict start arrival.event = some v) (rest : List Arrival) :
    verdicts start (arrival :: rest) = v :: verdicts start rest :=
  List.filterMap_cons_some h

section Waits
variable {suite : Suite} {rand : Rand} {s : Server} {peer : SocketAddr} {arrival : Arrival}

theorem clientHello_error {buf : Bytes} {e : Error} (h : ClientHello.decode buf = .error e) :
    e = .malformedPayload := by
  unfold ClientHello.decode at h
  split_ifs at h
  injection h with h
  exact h.symm

theorem onHelloFrom_verdict (s : Server) (hfrom : arrival.From peer) :
    s.onHelloFrom suite rand peer arrival.event =
      match verdict s.session arrival.event with
      | none => s
      | some (.fails e) => s.finishes (.error e)
      | some .garbled => s.finishes (.error (.protocol .malformedPayload))
      | some (.greets hello) => s.negotiates suite rand hello peer := by
  obtain ⟨event, env⟩ := arrival
  cases event with
  | timeout => rfl
  | failed e => rfl
  | datagram datagram =>
    have hsource : datagram.source = peer := hfrom
    simp only [Server.onHelloFrom, verdict, hsource, ne_eq, not_true_eq_false, if_false]
    cases received s.session datagram with
    | error e => rfl
    | ok view =>
      simp only
      split_ifs with htype
      · cases hdecode : ClientHello.decode view.payload with
        | error e => rw [clientHello_error hdecode]
        | ok hello => rfl
      · rfl

theorem onHelloAny_verdict (s : Server) (hfrom : arrival.From peer) :
    s.onHelloAny suite rand arrival.event =
      match verdict s.session arrival.event with
      | none | some .garbled => { s with pc := .helloTop }
      | some (.fails e) => s.finishes (.error e)
      | some (.greets hello) =>
        { s with session := { s.session with peer := some peer } }.negotiates suite rand hello
          peer := by
  obtain ⟨event, env⟩ := arrival
  cases event with
  | timeout => rfl
  | failed e => rfl
  | datagram datagram =>
    have hsource : datagram.source = peer := hfrom
    simp only [Server.onHelloAny, verdict, hsource]
    cases received s.session datagram with
    | error e => rfl
    | ok view =>
      simp only
      split_ifs with htype
      · rfl
      · cases ClientHello.decode view.payload with
        | error e => rfl
        | ok hello => rfl

end Waits

def Server.remode (s : Server) (peer : SocketAddr) : Server := { s with mode := .fixed peer }

def Late : ServerPc → Prop
  | .attempt | .helloTop | .awaitHello => False
  | _ => True

structure Begun (peer : SocketAddr) (s : Server) : Prop where
  mode : s.mode = .fixed peer
  pc : Late s.pc

section Remode
variable {suite : Suite} {rand : Rand} {s : Server} {peer : SocketAddr}

theorem finishes_begun (h : s.mode = .fixed peer) (result : Except TransportError Offer) :
    Begun peer (s.finishes result) := by
  rw [Server.finishes_fixed h]
  exact ⟨h, trivial⟩

theorem finishes_remode (h : s.mode = .fixed peer) (q : SocketAddr) (session : Session)
    (result : Except TransportError Offer) :
    { Server.remode s q with session := session }.finishes result =
      Server.remode ({ s with session := session }.finishes result) q := by
  simp only [Server.finishes, Server.remode, h]

theorem negotiates_begun (h : s.mode = .fixed peer) (hello : ClientHello) (source : SocketAddr) :
    Begun peer (s.negotiates suite rand hello source) :=
  s.negotiates_rule (Begun peer) suite rand hello source
    (fun _ _ => finishes_begun (by exact h) _) fun _ _ _ => ⟨h, trivial⟩

theorem negotiates_remode (h : s.mode = .fixed peer) (q : SocketAddr) (hello : ClientHello)
    (source : SocketAddr) :
    (Server.remode s q).negotiates suite rand hello source =
      Server.remode (s.negotiates suite rand hello source) q := by
  unfold Server.negotiates
  split_ifs with hversion
  · exact finishes_remode h q s.session _
  · simp only [Server.remode]
    cases Server.chooseCodec s.session.config hello.codecPreferred with
    | error e => exact finishes_remode h q { s.session with sessionId := rand.sessionId } _
    | ok codec => rfl

theorem onKeyExchange_begun (h : s.mode = .fixed peer) (offer : Offer) (event : RecvEvent) :
    Begun peer (s.onKeyExchange suite offer event) :=
  s.onKeyExchange_rule (Begun peer) suite offer event ⟨h, trivial⟩
    (fun _ => finishes_begun h _) (fun _ _ _ _ => ⟨h, trivial⟩) fun _ _ _ _ _ _ _ => ⟨h, trivial⟩

theorem onKeyExchange_remode (h : s.mode = .fixed peer) (q : SocketAddr) (offer : Offer)
    (event : RecvEvent) :
    (Server.remode s q).onKeyExchange suite offer event =
      Server.remode (s.onKeyExchange suite offer event) q := by
  cases event with
  | timeout => rfl
  | failed e => exact finishes_remode h q s.session _
  | datagram datagram =>
    have hfinishes := finishes_remode h q s.session
    simp only [Server.remode] at hfinishes
    simp only [Server.onKeyExchange, Server.remode, hfinishes]
    split_ifs with hsource
    · rfl
    · cases received s.session datagram with
      | error e => rfl
      | ok view =>
        simp only
        split_ifs
        · rfl
        · rfl
        · cases KeyExchangeMsg.decode view.payload with
          | error e => rfl
          | ok msg =>
            simp only
            split_ifs <;> rfl

theorem sends_begun (h : s.mode = .fixed peer) (env : Env) (msg : MessageType) (sessionId : UInt32)
    (payload : Except TransportError Bytes) (dest : SocketAddr) {next : ServerPc}
    (hnext : Late next) : Begun peer (s.sends env msg sessionId payload dest next).1 :=
  s.sends_rule (fun out => Begun peer out.1) env msg sessionId payload dest next
    (fun _ => finishes_begun h _) (fun _ _ _ _ _ _ => finishes_begun (by exact h) _)
    fun _ _ _ _ _ => ⟨h, hnext⟩

theorem sends_remode (h : s.mode = .fixed peer) (q : SocketAddr) (env : Env) (msg : MessageType)
    (sessionId : UInt32) (payload : Except TransportError Bytes) (dest : SocketAddr)
    (next : ServerPc) :
    (Server.remode s q).sends env msg sessionId payload dest next =
      (Server.remode (s.sends env msg sessionId payload dest next).1 q,
        (s.sends env msg sessionId payload dest next).2) := by
  cases payload with
  | error e => exact congrArg (·, []) (finishes_remode h q s.session _)
  | ok payload =>
    simp only [Server.sends, Server.remode]
    obtain ⟨result, session, sent⟩ := s.session.sendControl env msg sessionId payload dest
    cases result with
    | error e => exact congrArg (·, sent) (finishes_remode h q session _)
    | ok _ => rfl

theorem Begun.step (h : Begun peer s) (env : Env) (event : RecvEvent) :
    Begun peer (s.step suite rand env event).1 := by
  obtain ⟨hmode, hpc⟩ := h
  unfold Server.step
  cases hat : s.pc <;> simp only [hat, Late] at hpc ⊢
  case sendHello offer => exact sends_begun hmode env _ _ _ _ trivial
  case keyTop offer =>
    split_ifs
    · exact finishes_begun hmode _
    · exact ⟨hmode, trivial⟩
  case awaitKeyExchange offer => exact onKeyExchange_begun hmode offer event
  case resendHello offer => exact sends_begun hmode env _ _ _ _ trivial
  case sendConfirm offer => exact sends_begun hmode env _ _ _ _ trivial
  case storeEncrypt offer => exact ⟨hmode, trivial⟩
  case storeDecrypt offer => exact finishes_begun (by exact hmode) _
  case returned result => exact ⟨hmode, by rw [hat]; trivial⟩

/-- From the ClientHello on neither server looks at what it was called with. -/
theorem Begun.step_remode (h : Begun peer s) (q : SocketAddr) (env : Env) (event : RecvEvent) :
    Closing.anyStep (Server.remode s q) suite rand env event =
      (Server.remode (s.step suite rand env event).1 q, (s.step suite rand env event).2) := by
  obtain ⟨hmode, hpc⟩ := h
  have hpc' : (Server.remode s q).pc = s.pc := rfl
  have hclosed : (Server.remode s q).session.closed = s.session.closed := rfl
  unfold Closing.anyStep Server.step
  rw [hpc']
  cases hat : s.pc <;> simp only [hat, Late] at hpc ⊢
  case sendHello offer => exact sends_remode hmode q env _ _ _ _ _
  case keyTop offer =>
    rw [hclosed]
    split_ifs
    · exact congrArg (·, []) (finishes_remode hmode q s.session _)
    · rfl
  case awaitKeyExchange offer => exact congrArg (·, []) (onKeyExchange_remode hmode q offer event)
  case resendHello offer => exact sends_remode hmode q env _ _ _ _ _
  case sendConfirm offer => exact sends_remode hmode q env _ _ _ _ _
  case storeEncrypt offer => rfl
  case storeDecrypt offer => exact congrArg (·, []) (finishes_remode hmode q _ _)

end Remode

section Step
variable {suite : Suite} {rand : Rand} {peer q : SocketAddr} {s t : Recorded}

structure Twins (peer q : SocketAddr) (s t : Recorded) : Prop where
  begun : Begun peer s.1
  remode : t = (Server.remode s.1 q, s.2)

theorem Twins.waits_eq (h : Twins peer q s t) : waits t = waits s := by
  rw [h.remode]
  rfl

theorem Twins.step (h : Twins peer q s t) (env : Env) (event : RecvEvent) :
    Twins peer q (fixedStep suite rand s env event) (openStep suite rand t env event) := by
  obtain ⟨hbegun, rfl⟩ := h
  refine ⟨hbegun.step env event, ?_⟩
  simp only [openStep, fixedStep, recording, hbegun.step_remode q env event]

theorem Twins.advances (h : Twins peer q s t) (env : Env) :
    Twins peer q (advances waits (fixedStep suite rand) s env)
      (advances waits (openStep suite rand) t env) := by
  unfold Handshake.advances
  rw [h.waits_eq]
  split_ifs
  · exact h
  · exact h.step env .timeout

theorem Twins.settles (h : Twins peer q s t) (env : Env) :
    Twins peer q (settles waits (fixedStep suite rand) s env)
      (settles waits (openStep suite rand) t env) :=
  ((h.advances env).advances env).advances env

theorem Twins.takes (h : Twins peer q s t) (arrival : Arrival) :
    Twins peer q (takes (fixedStep suite rand) s arrival)
      (takes (openStep suite rand) t arrival) := by
  unfold ServerTwins.takes
  rw [h.waits_eq]
  split_ifs
  · exact (h.step arrival.env arrival.event).settles arrival.env
  · exact h

theorem Twins.run (h : Twins peer q s t) (arrivals : List Arrival) :
    Twins peer q (arrivals.foldl (ServerTwins.takes (fixedStep suite rand)) s)
      (arrivals.foldl (ServerTwins.takes (openStep suite rand)) t) := by
  induction arrivals generalizing s t with
  | nil => exact h
  | cons arrival rest ih => exact ih (h.takes arrival)

theorem Twins.agree (h : Twins peer q s t) : Agree s t := by
  obtain ⟨-, rfl⟩ := h
  exact ⟨rfl, rfl, fun _ => ⟨rfl, rfl⟩⟩

end Step

section Begins
variable {suite : Suite} {rand : Rand} {start : Session} {peer : SocketAddr} {arrival : Arrival}

def fixedWaits (start : Session) (peer : SocketAddr) : Recorded :=
  (⟨{ start with peer := some peer }, .fixed peer, .awaitHello, [], []⟩, [])

def anyWaits (start : Session) : Recorded :=
  ({ Closing.anyServer start with pc := .awaitHello }, [])

def ended (s : Recorded) (e : TransportError) : Recorded :=
  ({ s.1 with pc := .returned (.error e) }, s.2)

def fixedAnswers (suite : Suite) (rand : Rand) (start : Session) (peer : SocketAddr)
    (hello : ClientHello) : Recorded :=
  ((fixedWaits start peer).1.negotiates suite rand hello peer, [])

theorem any_begins (hopen : start.closed = false) (env : Env) :
    settles waits (openStep suite rand) (Closing.anyServer start, []) env = anyWaits start := by
  have hnext : openStep suite rand (Closing.anyServer start, []) env .timeout = anyWaits start := by
    simp only [openStep, recording, Closing.anyStep, Server.step, Closing.anyServer, hopen, anyWaits,
      Bool.false_eq_true, if_false, List.append_nil]
  rw [settles_next rfl (by rw [hnext]; rfl), hnext]

theorem settles_ended {step : Recorded → Env → RecvEvent → Recorded} {s : Recorded}
    {e : TransportError} {env : Env}
    (hstep : step (ended s e) env .timeout = ended s e) :
    settles waits step (ended s e) env = ended s e := by
  have hdone : waits (ended s e) = false := rfl
  simp only [settles, advances, hdone, hstep, Bool.false_eq_true, if_false]

theorem takes_ended (step : Recorded → Env → RecvEvent → Recorded) (s : Recorded)
    (e : TransportError) (arrivals : List Arrival) :
    arrivals.foldl (takes step) (ended s e) = ended s e := by
  induction arrivals with
  | nil => rfl
  | cons arrival rest ih => exact ih

theorem handshakeServer_eq (arrivals : List Arrival) :
    handshakeServer suite rand start peer arrivals =
      arrivals.foldl (takes (fixedStep suite rand)) (fixedWaits start peer) := rfl

theorem handshakeServerAny_eq (hopen : start.closed = false) (before : Env)
    (arrivals : List Arrival) :
    handshakeServerAny suite rand start before arrivals =
      arrivals.foldl (takes (openStep suite rand)) (anyWaits start) := by
  rw [handshakeServerAny, any_begins hopen]

theorem fixed_takes (hfrom : arrival.From peer) :
    takes (fixedStep suite rand) (fixedWaits start peer) arrival =
      match verdict start arrival.event with
      | none => fixedWaits start peer
      | some (.fails e) => ended (fixedWaits start peer) e
      | some .garbled => ended (fixedWaits start peer) (.protocol .malformedPayload)
      | some (.greets hello) =>
        settles waits (fixedStep suite rand) (fixedAnswers suite rand start peer hello)
          arrival.env := by
  have hstep : fixedStep suite rand (fixedWaits start peer) arrival.env arrival.event =
      ((fixedWaits start peer).1.onHelloFrom suite rand peer arrival.event, []) := rfl
  have hverdict : verdict (fixedWaits start peer).1.session arrival.event =
      verdict start arrival.event := rfl
  rw [takes, if_pos (by rfl), hstep, onHelloFrom_verdict _ hfrom, hverdict]
  cases verdict start arrival.event with
  | none => exact settles_receiving rfl
  | some verdict =>
    cases verdict with
    | fails e => exact settles_ended rfl
    | garbled => exact settles_ended rfl
    | greets hello => rfl

theorem any_takes (hopen : start.closed = false) (hfrom : arrival.From peer) :
    takes (openStep suite rand) (anyWaits start) arrival =
      match verdict start arrival.event with
      | none | some .garbled => anyWaits start
      | some (.fails e) => ended (anyWaits start) e
      | some (.greets hello) =>
        settles waits (openStep suite rand)
          (Server.remode (fixedAnswers suite rand start peer hello).1 (.v4 0 0), [])
            arrival.env := by
  have hstep : openStep suite rand (anyWaits start) arrival.env arrival.event =
      ((anyWaits start).1.onHelloAny suite rand arrival.event, []) := rfl
  have hverdict : verdict (anyWaits start).1.session arrival.event =
      verdict start arrival.event := rfl
  rw [takes, if_pos (by rfl), hstep, onHelloAny_verdict _ hfrom, hverdict]
  cases verdict start arrival.event with
  | none => exact any_begins hopen arrival.env
  | some verdict =>
    cases verdict with
    | fails e => exact settles_ended rfl
    | garbled => exact any_begins hopen arrival.env
    | greets hello =>
      have hremode := @negotiates_remode suite rand (fixedWaits start peer).1 peer rfl (.v4 0 0)
        hello peer
      exact congrArg (fun s => settles waits (openStep suite rand) (s, []) arrival.env) hremode

/-- `handshake_server` fails and `handshake_server_any` waits on. -/
theorem garbled_alone (hopen : start.closed = false) (hfrom : arrival.From peer)
    (hgarbled : verdict start arrival.event = some .garbled) (before : Env) :
    handshakeServer suite rand start peer [arrival] =
        ended (fixedWaits start peer) (.protocol .malformedPayload) ∧
      handshakeServerAny suite rand start before [arrival] = anyWaits start := by
  rw [handshakeServer_eq, handshakeServerAny_eq hopen, List.foldl_cons, List.foldl_cons,
    fixed_takes hfrom, any_takes hopen hfrom, hgarbled]
  exact ⟨rfl, rfl⟩

end Begins

section Apart
variable {suite : Suite} {rand : Rand} {start : Session} {peer : SocketAddr} {s : Recorded}

/-- It has sent something, or returned another error than a garbled ClientHello gives. -/
def Apart (s : Recorded) : Prop :=
  s.2 ≠ [] ∨ ∃ e, e ≠ .protocol .malformedPayload ∧ s.1.pc = .returned (.error e)

theorem Apart.step (h : Apart s) (env : Env) (event : RecvEvent) :
    Apart (openStep suite rand s env event) := by
  obtain hsent | ⟨e, he, hpc⟩ := h
  · exact .inl (by simp [openStep, recording, hsent])
  · refine .inr ⟨e, he, ?_⟩
    simp only [openStep, recording, Closing.anyStep, Server.step, hpc]

theorem Apart.settles (h : Apart s) (env : Env) :
    Apart (settles waits (openStep suite rand) s env) := by
  by_cases hwaits : waits s = true
  · rwa [settles_receiving hwaits]
  · exact settles_from (by simpa using hwaits) (h.step env .timeout) fun _ hs => hs.step env .timeout

theorem Apart.run (h : Apart s) (arrivals : List Arrival) :
    Apart (arrivals.foldl (takes (openStep suite rand)) s) := by
  induction arrivals generalizing s with
  | nil => exact h
  | cons arrival rest ih =>
    refine ih ?_
    unfold takes
    split_ifs
    · exact (h.step arrival.env arrival.event).settles arrival.env
    · exact h

theorem chooseCodec_error {config : Config} {preferred : UInt8} {e : TransportError}
    (h : Server.chooseCodec config preferred = .error e) :
    e = .handshake "no supported codecs configured" := by
  unfold Server.chooseCodec at h
  split_ifs at h
  split at h
  · cases h
  · injection h with h
    exact h.symm

theorem sendsHello_apart {s : Server} {offer : Offer} (hmode : s.mode = .fixed peer) (env : Env) :
    Apart (s.sendsHello env offer) := by
  rw [Server.sendsHello, encoded_serverHello]
  simp only [Server.sends, Session.sendControl, Session.sendPacket]
  cases hencode : Session.encodePacket s.session.config.mtu
      (PacketHeader.new MessageType.handshakeServerHello.code offer.serverHello.sessionId
        s.session.txSequence env.clock) offer.serverHello.bytes with
  | error e =>
    refine .inr ⟨.protocol e, ?_, ?_⟩
    · rintro ⟨⟩
      obtain h | h := Session.encodePacket_error hencode <;> cases h
    · simp only [Server.finishes, hmode]
  | ok data =>
    simp only
    cases env.sendTo data offer.peer with
    | error e => exact .inl (List.cons_ne_nil _ _)
    | ok n => exact .inl (List.cons_ne_nil _ _)

theorem pending_apart {s : Server} {offer : Offer} (hmode : s.mode = .fixed peer)
    (hpc : s.pc = .sendHello offer) (env : Env) :
    Apart (settles waits (openStep suite rand) (s, []) env) := by
  have hnext : openStep suite rand (s, []) env .timeout = s.sendsHello env offer := by
    simp only [openStep, recording, Closing.anyStep, Server.step, hpc, List.nil_append]
  have hwaits : waits (s, []) = false := by simp only [waits, Server.receives, hpc]
  refine settles_from hwaits ?_ fun _ hs => hs.step env .timeout
  rw [hnext]
  exact sendsHello_apart hmode env

theorem greeted_apart {s : Server} (hmode : s.mode = .fixed peer) (hello : ClientHello)
    (source : SocketAddr) (env : Env) :
    Apart (settles waits (openStep suite rand) (s.negotiates suite rand hello source, []) env) := by
  unfold Server.negotiates
  split_ifs with hversion
  · refine Apart.settles (.inr ⟨_, ?_, by rw [Server.finishes_fixed hmode]⟩) env
    exact fun h => by injection h
  · simp only
    cases hcodec : Server.chooseCodec s.session.config hello.codecPreferred with
    | error e =>
      refine Apart.settles (.inr ⟨e, ?_, by simp only [Server.finishes, hmode]⟩) env
      rw [chooseCodec_error hcodec]
      exact fun h => by injection h
    | ok codec =>
      exact pending_apart (by exact hmode) rfl env

theorem ended_agree_iff {e e' : TransportError} :
    Agree (ended (fixedWaits start peer) e) (ended (anyWaits start) e') ↔
      e' = e ∧ start.peer = some peer := by
  constructor
  · rintro ⟨-, hresult, hleft⟩
    refine ⟨?_, (hleft nofun).2.symm⟩
    injection hresult with hresult
    injection hresult with hresult
    exact hresult.symm
  · rintro ⟨rfl, hpeer⟩
    exact ⟨rfl, rfl, fun _ => ⟨rfl, hpeer.symm⟩⟩

theorem Apart.disagree (h : Apart s) :
    ¬Agree (ended (fixedWaits start peer) (.protocol .malformedPayload)) s := by
  rintro ⟨hsent, hresult, -⟩
  obtain hne | ⟨e, he, hpc⟩ := h
  · exact hne hsent.symm
  · simp only [Server.outcome, ended, hpc] at hresult
    injection hresult with hresult
    injection hresult with hresult
    exact he hresult.symm

theorem garbled_agree_iff (hopen : start.closed = false) (arrivals : List Arrival)
    (hfrom : ∀ arrival ∈ arrivals, arrival.From peer) :
    Agree (ended (fixedWaits start peer) (.protocol .malformedPayload))
        (arrivals.foldl (takes (openStep suite rand)) (anyWaits start)) ↔
      start.peer = some peer ∧ FailsAlike (verdicts start arrivals) := by
  induction arrivals with
  | nil =>
    refine iff_of_false (fun hagree => ?_) fun h => h.2
    exact absurd hagree.result nofun
  | cons arrival rest ih =>
    have hrest := ih fun a ha => hfrom a (List.mem_cons_of_mem _ ha)
    rw [List.foldl_cons, any_takes hopen (hfrom arrival (List.mem_cons_self ..))]
    cases hverdict : verdict start arrival.event with
    | none =>
      rw [verdicts_none hverdict]
      exact hrest
    | some v =>
      rw [verdicts_some hverdict]
      cases v with
      | fails e =>
        rw [takes_ended, ended_agree_iff]
        exact and_comm
      | garbled => exact hrest
      | greets hello =>
        refine iff_of_false (Apart.disagree (Apart.run ?_ rest)) fun h => h.2
        have hremode := @negotiates_remode suite rand (fixedWaits start peer).1 peer rfl (.v4 0 0)
          hello peer
        simp only [fixedAnswers, ← hremode]
        exact greeted_apart rfl hello peer arrival.env

end Apart

/-- The two servers agree exactly if no ClientHello that does not decode comes before the first that
does, and the peer was known if a receive fails before that. -/
theorem twins_agree_iff (suite : Suite) (rand : Rand) (start : Session) (peer : SocketAddr)
    (before : Env) (arrivals : List Arrival) (hopen : start.closed = false)
    (hfrom : ∀ arrival ∈ arrivals, arrival.From peer) :
    Agree (handshakeServer suite rand start peer arrivals)
        (handshakeServerAny suite rand start before arrivals) ↔
      Alike peer start (verdicts start arrivals) := by
  rw [handshakeServer_eq, handshakeServerAny_eq hopen]
  induction arrivals with
  | nil => exact iff_of_true ⟨rfl, rfl, fun h => absurd rfl h⟩ trivial
  | cons arrival rest ih =>
    have hrest := fun a ha => hfrom a (List.mem_cons_of_mem _ ha)
    have hfirst := hfrom arrival (List.mem_cons_self ..)
    rw [List.foldl_cons, List.foldl_cons, fixed_takes hfirst, any_takes hopen hfirst]
    cases hverdict : verdict start arrival.event with
    | none =>
      rw [verdicts_none hverdict]
      exact ih hrest
    | some v =>
      rw [verdicts_some hverdict]
      cases v with
      | fails e =>
        rw [takes_ended, takes_ended, ended_agree_iff]
        exact and_iff_right rfl
      | garbled =>
        rw [takes_ended]
        exact garbled_agree_iff hopen rest hrest
      | greets hello =>
        have hbegun : Twins peer (.v4 0 0) (fixedAnswers suite rand start peer hello)
            (Server.remode (fixedAnswers suite rand start peer hello).1 (.v4 0 0), []) :=
          ⟨negotiates_begun rfl hello peer, rfl⟩
        exact iff_of_true ((hbegun.settles arrival.env).run rest).agree trivial

private def known : Session := { Session.ofDefault with peer := some LoneCall.caller }

private def hearing (payload : Bytes) : Arrival :=
  ⟨.datagram (LoneCall.packetFrom LoneCall.caller .handshakeClientHello payload), quietEnv⟩

private theorem hearing_verdict {payload : Bytes} (hsize : payload.length ≤ 84) :
    verdict known (hearing payload).event =
      match ClientHello.decode payload with
      | .error _ => some .garbled
      | .ok hello => some (.greets hello) := by
  have hmtu : 112 ≤ known.config.mtu := by decide
  simp only [verdict, hearing, LoneCall.received_packetFrom _ _ hsize hmtu, PacketHeader.new, ne_eq,
    not_true_eq_false, if_false]

/-- A ClientHello that decodes, and what comes after it. -/
theorem twins_agree_calling : Agree
    (handshakeServer LoneCall.stubSuite LoneCall.stubRand known LoneCall.caller
      [hearing LoneCall.calling.bytes, hearing []])
    (handshakeServerAny LoneCall.stubSuite LoneCall.stubRand known quietEnv
      [hearing LoneCall.calling.bytes, hearing []]) := by
  have hverdict : verdict known (hearing LoneCall.calling.bytes).event =
      some (.greets LoneCall.calling) := by
    rw [hearing_verdict (by rw [ClientHello.length_bytes]; decide), ClientHello.decode_bytes]
  refine (twins_agree_iff LoneCall.stubSuite LoneCall.stubRand known LoneCall.caller quietEnv _ rfl
    fun arrival h => ?_).mpr ?_
  · obtain rfl | h := List.mem_cons.mp h
    · rfl
    · obtain rfl := List.mem_singleton.mp h
      rfl
  · rw [verdicts_some hverdict]
    trivial

/-- One ClientHello with an empty payload: `handshake_server` fails, `handshake_server_any` waits. -/
theorem garbled_hello_divides :
    (handshakeServer LoneCall.stubSuite LoneCall.stubRand known LoneCall.caller
        [hearing []]).1.outcome.result = some (.error (.protocol .malformedPayload)) ∧
      (handshakeServerAny LoneCall.stubSuite LoneCall.stubRand known quietEnv
        [hearing []]).1.outcome.result = none ∧
      ¬Agree
        (handshakeServer LoneCall.stubSuite LoneCall.stubRand known LoneCall.caller [hearing []])
        (handshakeServerAny LoneCall.stubSuite LoneCall.stubRand known quietEnv [hearing []]) := by
  have hverdict : verdict known (hearing []).event = some .garbled := hearing_verdict (by decide)
  obtain ⟨hfixed, hany⟩ := @garbled_alone LoneCall.stubSuite LoneCall.stubRand known LoneCall.caller
    (hearing []) rfl rfl hverdict quietEnv
  rw [hfixed, hany]
  exact ⟨rfl, rfl, fun h => absurd h.result nofun⟩

end GravitalTalk.Transport.ServerTwins
