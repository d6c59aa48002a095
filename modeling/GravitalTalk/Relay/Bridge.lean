import GravitalTalk.Lib.Transition
import GravitalTalk.Relay.Turns

/-! The relay with its WebSocket connections.  Each has a reader, a writer and the channel between
them; the UDP loop reads for itself.  Sends are in flight while the other tasks go on, and a call on
the router is one step.  `accept_async` and what a client sends besides binary messages change
nothing here. -/
namespace GravitalTalk.Relay.Bridge
open Lib GravitalTalk.Core Transport Transition

inductive Reader where
  /-- In its loop, with the sends still to make for the last message. -/
  | running (pending : List InFlight)
  /-- `tx` is dropped, and the writer waited for. -/
  | joining
  | returned

inductive Writer where
  | running (queue : List Bytes)
  /-- Out of its loop, closing the sink. -/
  | closing (queue : List Bytes)
  /-- The gauge is taken back, the receiver not yet dropped. -/
  | dropping (queue : List Bytes)
  | ended

namespace Writer

def queue : Writer → List Bytes
  | running queue => queue
  | closing queue => queue
  | dropping queue => queue
  | ended => []

def connected : Writer → Bool
  | ended => false
  | _ => true

def counted : Writer → Bool
  | running _ => true
  | closing _ => true
  | _ => false

def push (data : Bytes) : Writer → Writer
  | running queue => running (queue ++ [data])
  | closing queue => closing (queue ++ [data])
  | dropping queue => dropping (queue ++ [data])
  | ended => ended

end Writer

/-- Channels are numbered as they are made. -/
structure State where
  router : Router
  wsConnections : Int64
  channels : Nat
  reader : Channel → Reader
  writer : Channel → Writer
  udp : List InFlight

namespace State

def init (maxSessions maxPeers : Nat) : State :=
  ⟨.new maxSessions maxPeers .new, 0, 0, fun _ => .returned, fun _ => .ended, []⟩

def setReader (st : State) (tx : Channel) (reader : Reader) : State :=
  { st with reader := Function.update st.reader tx reader }

def setWriter (st : State) (tx : Channel) (writer : Writer) : State :=
  { st with writer := Function.update st.writer tx writer }

def settle (st : State) (item : InFlight) (result : Option Nat) : State :=
  let st := { st with router := st.router.settle item result }
  match item.target with
  | .udp _ => st
  | .webSocket tx => st.setWriter tx ((st.writer tx).push item.data)

def CanAnswer (st : State) (item : InFlight) (result : Option Nat) : Prop :=
  match item.target with
  | .udp _ => True
  | .webSocket tx => result = if (st.writer tx).connected then some item.data.length else none

/-- There is a sender of the channel: its reader's, a peer's in the table, or one in flight. -/
inductive Held (st : State) (tx : Channel) : Prop where
  | reader {pending : List InFlight} (h : st.reader tx = .running pending)
  | peer {sessionId : UInt32} (h : Registered st.router sessionId (.webSocket tx))
  | udp {item : InFlight} (h : item ∈ st.udp) (htarget : item.target = .webSocket tx)
  | pending {other : Channel} {pending : List InFlight} {item : InFlight}
    (hreader : st.reader other = .running pending) (h : item ∈ pending)
    (htarget : item.target = .webSocket tx)

end State

inductive Act where
  | accepts
  | reads (tx : Channel) (env : RelayEnv) (data : Bytes)
  | forwards (tx : Channel) (result : Option Nat)
  /-- A Close message, or the end of the stream. -/
  | leaves (tx : Channel)
  | fails (tx : Channel)
  | joins (tx : Channel)
  | writes (tx : Channel) (accepted : Bool)
  /-- `rx.recv()` gives `None`. -/
  | drains (tx : Channel)
  | uncounts (tx : Channel)
  | drops (tx : Channel)
  | receives (env : RelayEnv) (datagram : Bytes) (sender : SocketAddr)
  | replies (result : Option Nat)
  | collects (maxAgeSecs : UInt64) (now : Nat)
  | rooms (op : Op)

def IsRooms : Op → Prop
  | .registerRoom _ _ => True
  | .resolveRoom _ => True
  | .removeRoom _ => True
  | .listRooms => True
  | _ => False

inductive Step : State → Act → State → Prop where
  | accepts {st : State} :
    Step st .accepts
      { (st.setReader st.channels (.running [])).setWriter st.channels (.running []) with
        wsConnections := st.wsConnections + 1
        channels := st.channels + 1 }
  | reads {st : State} {tx env data} (hreader : st.reader tx = .running []) :
    Step st (.reads tx env data)
      { st.setReader tx (.running (Ws.turn st.router env data tx).2) with
        router := (Ws.turn st.router env data tx).1 }
  | forwards {st : State} {tx item pending result} (hreader : st.reader tx = .running (item :: pending))
    (hresult : st.CanAnswer item result) :
    Step st (.forwards tx result) ((st.settle item result).setReader tx (.running pending))
  | leaves {st : State} {tx} (hreader : st.reader tx = .running []) :
    Step st (.leaves tx) (st.setReader tx .joining)
  | fails {st : State} {tx} (hreader : st.reader tx = .running []) :
    Step st (.fails tx) (st.setReader tx .returned)
  | joins {st : State} {tx} (hreader : st.reader tx = .joining) (hwriter : st.writer tx = .ended) :
    Step st (.joins tx) (st.setReader tx .returned)
  | writes {st : State} {tx data queue accepted}
    (hwriter : st.writer tx = .running (data :: queue)) :
    Step st (.writes tx accepted)
      (st.setWriter tx (if accepted then .running queue else .closing queue))
  | drains {st : State} {tx} (hwriter : st.writer tx = .running []) (hlast : ¬st.Held tx) :
    Step st (.drains tx) (st.setWriter tx (.closing []))
  | uncounts {st : State} {tx queue} (hwriter : st.writer tx = .closing queue) :
    Step st (.uncounts tx)
      { st.setWriter tx (.dropping queue) with wsConnections := st.wsConnections - 1 }
  | drops {st : State} {tx queue} (hwriter : st.writer tx = .dropping queue) :
    Step st (.drops tx) (st.setWriter tx .ended)
  | receives {st : State} {env datagram sender} (hudp : st.udp = []) :
    Step st (.receives env datagram sender)
      { st with
        router := (Udp.turn st.router env datagram sender).1
        udp := (Udp.turn st.router env datagram sender).2 }
  | replies {st : State} {item pending result} (hudp : st.udp = item :: pending)
    (hresult : st.CanAnswer item result) :
    Step st (.replies result) { st.settle item result with udp := pending }
  | collects {st : State} {maxAgeSecs now} :
    Step st (.collects maxAgeSecs now)
      { st with
        router := (st.router.evictIdle maxAgeSecs now fun _ tx => !(st.writer tx).connected).1 }
  | rooms {st : State} {op} (hop : IsRooms op) :
    Step st (.rooms op) { st with router := (st.router.exec op).1 }

theorem routes_rooms {router : Router} {op : Op} (hop : IsRooms op) :
    (router.exec op).1.routes = router.routes := by
  cases op with
  | registerRoom code sessionId =>
    simp only [Router.exec, Router.registerRoom]
    split_ifs <;> rfl
  | resolveRoom => rfl
  | removeRoom => rfl
  | listRooms => rfl
  | _ => exact hop.elim

theorem routes_settle (router : Router) (item : InFlight) (result : Option Nat) :
    (router.settle item result).routes = router.routes := by
  cases result with
  | some => rfl
  | none =>
    rw [Router.settle]
    cases item.failure <;> rfl

theorem registered_of_routes {router after : Router} (h : after.routes = router.routes) (k : UInt32)
    (e : SessionEndpoint) : Registered after k e ↔ Registered router k e := by
  rw [Registered, Registered, h]

theorem registered_evictIdle (self : Router) (maxAgeSecs : UInt64) (now : Nat)
    (closed : UInt32 → Channel → Bool) (k : UInt32) (e : SessionEndpoint) :
    Registered (self.evictIdle maxAgeSecs now closed).1 k e ↔
      ∃ entry, self.routes[k]? = some entry ∧ e ∈ entry.peers ∧
        (∀ tx, e = .webSocket tx → ¬closed k tx) ∧
        Instant.elapsed entry.lastActivity now < Duration.fromSecs maxAgeSecs.toNat := by
  unfold Registered
  rw [Router.lookup_evictIdle]
  constructor
  · rintro ⟨kept, hkept, hmem⟩
    obtain ⟨entry, hentry, hkeep⟩ := Option.bind_eq_some_iff.mp hkept
    obtain ⟨hpeer, hopen⟩ := ((Router.keep_eq_some hkeep).2.2.1 e).mp hmem
    refine ⟨entry, hentry, hpeer, hopen, ?_⟩
    unfold Router.keep at hkeep
    dsimp only at hkeep
    split_ifs at hkeep with hstays
    exact hstays.2
  · rintro ⟨entry, hentry, hmem, hopen, hage⟩
    rw [hentry, Option.bind_some, Router.keep]
    generalize hkept : List.filter _ entry.peers = peers
    have hpeer : e ∈ peers := by
      rw [← hkept]
      refine List.mem_filter.mpr ⟨hmem, ?_⟩
      cases e with
      | udp => rfl
      | webSocket tx => simpa using hopen tx rfl
    rw [if_pos ⟨by simpa using List.ne_nil_of_mem hpeer, hage⟩]
    exact ⟨_, rfl, hpeer⟩

namespace State

variable {st st' : State} {tx other : Channel} {item : InFlight} {result : Option Nat}

theorem settle_eq (st : State) (item : InFlight) (result : Option Nat) :
    (st.settle item result).reader = st.reader ∧ (st.settle item result).udp = st.udp ∧
      (st.settle item result).router.routes = st.router.routes ∧
      (st.settle item result).channels = st.channels ∧
      (st.settle item result).wsConnections = st.wsConnections := by
  rw [settle]
  cases item.target <;> exact ⟨rfl, rfl, routes_settle _ _ _, rfl, rfl⟩

theorem reader_setReader {reader : Reader} {pending : List InFlight}
    (h : (st.setReader other reader).reader tx = .running pending) :
    tx = other ∧ reader = .running pending ∨ tx ≠ other ∧ st.reader tx = .running pending := by
  by_cases heq : tx = other
  · subst heq
    exact .inl ⟨rfl, by simpa [setReader] using h⟩
  · exact .inr ⟨heq, by simpa [setReader, heq] using h⟩

theorem Held.lift (h : st'.Held tx)
    (hreader : ∀ other pending, st'.reader other = .running pending →
      (other = tx → st.Held tx) ∧ ∀ item ∈ pending, item.target = .webSocket tx → st.Held tx)
    (hpeer : ∀ k, Registered st'.router k (.webSocket tx) → st.Held tx)
    (hudp : ∀ item ∈ st'.udp, item.target = .webSocket tx → st.Held tx) : st.Held tx := by
  cases h with
  | reader h => exact (hreader _ _ h).1 rfl
  | peer h => exact hpeer _ h
  | udp h htarget => exact hudp _ h htarget
  | pending h hitem htarget => exact (hreader _ _ h).2 _ hitem htarget

theorem Held.readers (hreader : st'.reader = st.reader) (other : Channel) (pending : List InFlight)
    (h : st'.reader other = .running pending) :
    (other = tx → st.Held tx) ∧ ∀ item ∈ pending, item.target = .webSocket tx → st.Held tx := by
  rw [hreader] at h
  exact ⟨fun heq => .reader (heq ▸ h), fun item hitem htarget => .pending h hitem htarget⟩

theorem Held.read {reader : Reader} {before : List InFlight} (hbefore : st.reader other = .running before)
    (hsub : ∀ pending, reader = .running pending → ∀ item ∈ pending, item.target = .webSocket tx →
      st.Held tx)
    (hreader : st'.reader = (st.setReader other reader).reader) (another : Channel)
    (pending : List InFlight) (h : st'.reader another = .running pending) :
    (another = tx → st.Held tx) ∧ ∀ item ∈ pending, item.target = .webSocket tx → st.Held tx := by
  rw [hreader] at h
  obtain ⟨rfl, hnew⟩ | ⟨-, hold⟩ := reader_setReader h
  · exact ⟨fun heq => .reader (heq ▸ hbefore), hsub pending hnew⟩
  · exact Held.readers rfl another pending hold

end State

/-- Only a new connection makes a sender where there was none. -/
theorem held_step {st st' : State} {act : Act} (hstep : Step st act st') {tx : Channel}
    (h : st'.Held tx) : st.Held tx ∨ act = .accepts ∧ tx = st.channels := by
  cases hstep with
  | accepts =>
    by_cases hnew : tx = st.channels
    · exact .inr ⟨rfl, hnew⟩
    · refine .inl (h.lift ?_ (fun k h => .peer h) fun item hitem htarget => .udp hitem htarget)
      intro other pending hother
      obtain ⟨rfl, hrunning⟩ | ⟨-, hold⟩ := State.reader_setReader hother
      · cases hrunning
        exact ⟨fun heq => absurd heq.symm hnew, by simp⟩
      · exact State.Held.readers rfl other pending hold
  | @reads sender env data hreader =>
    have hturn := Ws.turnOf_turn st.router env data sender
    refine .inl (h.lift (State.Held.read hreader ?_ rfl) ?_ fun item hitem htarget => .udp hitem htarget)
    · rintro _ ⟨⟩ item hitem htarget
      obtain ⟨k, hpeer⟩ | hsender := hturn.targets item hitem
      · exact .peer (htarget ▸ hpeer)
      · injection htarget.symm.trans hsender with hsame
        exact .reader (hsame ▸ hreader)
    · intro k hpeer
      obtain hpeer | hsender := hturn.joins k _ hpeer
      · exact .peer hpeer
      · injection hsender with hsame
        exact .reader (hsame ▸ hreader)
  | @forwards sender item pending result hreader =>
    obtain ⟨hreaders, hudp, hroutes, -⟩ := st.settle_eq item result
    have hkept : ((st.settle item result).setReader sender (.running pending)).reader =
        (st.setReader sender (.running pending)).reader := by
      rw [State.setReader, State.setReader, hreaders]
    refine .inl (h.lift (State.Held.read hreader ?_ hkept) ?_ ?_)
    · rintro _ ⟨⟩ item hitem htarget
      exact .pending hreader (List.mem_cons_of_mem _ hitem) htarget
    · intro k hpeer
      exact .peer ((registered_of_routes hroutes k _).mp hpeer)
    · intro item hitem htarget
      exact .udp (hudp ▸ hitem) htarget
  | leaves hreader =>
    exact .inl (h.lift (State.Held.read hreader (by rintro _ ⟨⟩) rfl) (fun k h => .peer h)
      fun item hitem htarget => .udp hitem htarget)
  | fails hreader =>
    exact .inl (h.lift (State.Held.read hreader (by rintro _ ⟨⟩) rfl) (fun k h => .peer h)
      fun item hitem htarget => .udp hitem htarget)
  | joins hreader =>
    refine .inl (h.lift (fun other pending hother => ?_) (fun k h => .peer h)
      fun item hitem htarget => .udp hitem htarget)
    obtain ⟨rfl, ⟨⟩⟩ | ⟨-, hold⟩ := State.reader_setReader hother
    exact State.Held.readers rfl other pending hold
  | writes =>
    exact .inl (h.lift (State.Held.readers rfl) (fun k h => .peer h)
      fun item hitem htarget => .udp hitem htarget)
  | drains =>
    exact .inl (h.lift (State.Held.readers rfl) (fun k h => .peer h)
      fun item hitem htarget => .udp hitem htarget)
  | uncounts =>
    exact .inl (h.lift (State.Held.readers rfl) (fun k h => .peer h)
      fun item hitem htarget => .udp hitem htarget)
  | drops =>
    exact .inl (h.lift (State.Held.readers rfl) (fun k h => .peer h)
      fun item hitem htarget => .udp hitem htarget)
  | @receives env datagram sender hudp =>
    have hturn := Udp.turnOf_turn st.router env datagram sender
    refine .inl (h.lift (State.Held.readers rfl) (fun k hpeer => ?_) fun item hitem htarget => ?_)
    · obtain hpeer | hsender := hturn.joins k _ hpeer
      · exact .peer hpeer
      · cases hsender
    · obtain ⟨k, hpeer⟩ | hsender := hturn.targets item hitem
      · exact .peer (htarget ▸ hpeer)
      · cases htarget.symm.trans hsender
  | @replies item pending result hudp =>
    obtain ⟨hreaders, -, hroutes, -⟩ := st.settle_eq item result
    refine .inl (h.lift (State.Held.readers hreaders) (fun k hpeer => ?_) fun item hitem htarget => ?_)
    · exact .peer ((registered_of_routes hroutes k _).mp hpeer)
    · exact .udp (hudp ▸ List.mem_cons_of_mem _ hitem) htarget
  | @collects maxAgeSecs now =>
    refine .inl (h.lift (State.Held.readers rfl) (fun k hpeer => ?_)
      fun item hitem htarget => .udp hitem htarget)
    obtain ⟨entry, hentry, hmem, -⟩ := (registered_evictIdle _ _ _ _ _ _).mp hpeer
    exact .peer ⟨entry, hentry, hmem⟩
  | rooms hop =>
    refine .inl (h.lift (State.Held.readers rfl) (fun k hpeer => ?_)
      fun item hitem htarget => .udp hitem htarget)
    exact .peer ((registered_of_routes (routes_rooms hop) k _).mp hpeer)

end GravitalTalk.Relay.Bridge
