import Mathlib.Algebra.BigOperators.Group.Finset.Basic
import Mathlib.Algebra.Order.BigOperators.Group.List
import Mathlib.Tactic.Ring
import GravitalTalk.Relay.Bridge

/-! The counters of the relay against what came in and went out, and how much can go out for what
came in, however the tasks take turns. -/
namespace GravitalTalk.Relay.Bridge
open Lib GravitalTalk.Core Transport Transition

/-- A datagram or message in, with the sends that it leads to, and a send made. -/
inductive Tally where
  | arrived (size : Nat) (decodes : Bool) (items : List InFlight)
  | made (item : InFlight) (result : Option Nat)

def arrival (data : Bytes) (items : List InFlight) : Tally :=
  .arrived data.length (PacketView.decode data).isOk items

def firstMade (pending : List InFlight) (result : Option Nat) : List Tally :=
  match pending with
  | item :: _ => [.made item result]
  | [] => []

def Reader.pending : Reader → List InFlight
  | running pending => pending
  | _ => []

def tally (st : State) (act : Act) (_ : State) : List Tally :=
  match act with
  | .reads tx env data => [arrival data (Ws.turn st.router env data tx).2]
  | .receives env datagram sender =>
    [arrival (datagram.take Udp.bufferSize) (Udp.turn st.router env datagram sender).2]
  | .forwards tx result => firstMade (st.reader tx).pending result
  | .replies result => firstMade st.udp result
  | _ => []

def arrivals (log : List Tally) : List (Nat × Bool) :=
  log.filterMap fun
    | .arrived size decodes _ => some (size, decodes)
    | .made _ _ => none

def handed (log : List Tally) : List InFlight :=
  log.flatMap fun
    | .arrived _ _ items => items
    | .made _ _ => []

def made (log : List Tally) : List (InFlight × Option Nat) :=
  log.filterMap fun
    | .made item result => some (item, result)
    | .arrived _ _ _ => none

@[ext] structure Traffic where
  packetsIn : UInt64
  bytesIn : UInt64
  malformed : UInt64
  packetsOut : UInt64
  bytesOut : UInt64
  sendError : UInt64
  wsDisconnected : UInt64

namespace Traffic

def add (a b : Traffic) : Traffic :=
  ⟨a.packetsIn + b.packetsIn, a.bytesIn + b.bytesIn, a.malformed + b.malformed,
    a.packetsOut + b.packetsOut, a.bytesOut + b.bytesOut, a.sendError + b.sendError,
    a.wsDisconnected + b.wsDisconnected⟩

def ofMetrics (metrics : RelayMetrics) : Traffic :=
  ⟨metrics.packetsIn, metrics.bytesIn, metrics.dropped .malformed, metrics.packetsOut,
    metrics.bytesOut, metrics.dropped .sendError, metrics.dropped .wsDisconnected⟩

def failures (reason : DropReason) (sends : List (InFlight × Option Nat)) : Nat :=
  sends.countP fun send => send.2.isNone && send.1.failure = some reason

def ofLog (log : List Tally) : Traffic :=
  ⟨UInt64.ofNat (arrivals log).length, UInt64.ofNat ((arrivals log).map Prod.fst).sum,
    UInt64.ofNat ((arrivals log).countP (!·.2)), UInt64.ofNat ((made log).filterMap Prod.snd).length,
    UInt64.ofNat ((made log).filterMap Prod.snd).sum, UInt64.ofNat (failures .sendError (made log)),
    UInt64.ofNat (failures .wsDisconnected (made log))⟩

theorem ofLog_append (log more : List Tally) : ofLog (log ++ more) = (ofLog log).add (ofLog more) := by
  simp only [ofLog, add, failures, arrivals, made, List.filterMap_append, List.length_append,
    List.map_append, List.sum_append, List.countP_append, UInt64.ofNat_add]

end Traffic

section Counters
variable {self after : Router} {sessionId : UInt32} {now : Nat}

theorem traffic_routed {sender : SessionEndpoint} {decision : RouteDecision}
    (h : self.Routed sessionId sender now after decision) :
    Traffic.ofMetrics after.metrics = .ofMetrics self.metrics := by
  cases h <;> rfl

theorem traffic_requested {sender : SocketAddr} {clock : FloorClock} {decision : FloorDecision}
    (h : self.FloorRequested sessionId sender clock after decision) :
    Traffic.ofMetrics after.metrics = .ofMetrics self.metrics := by
  cases h <;> rfl

theorem traffic_released {sender : SocketAddr} {decision : FloorDecision}
    (h : self.FloorReleased sessionId sender now after decision) :
    Traffic.ofMetrics after.metrics = .ofMetrics self.metrics := by
  cases h <;> rfl

theorem traffic_settle (self : Router) (item : InFlight) (result : Option Nat) :
    Traffic.ofMetrics (self.settle item result).metrics =
      (Traffic.ofMetrics self.metrics).add (.ofLog [.made item result]) := by
  cases result with
  | some n =>
    ext <;> simp [Router.settle, Router.sent, Traffic.add, Traffic.ofLog, Traffic.ofMetrics,
      Traffic.failures, arrivals, made]
  | none =>
    rw [Router.settle]
    obtain ⟨target, data, counted⟩ := item
    cases target <;> cases counted <;> ext <;>
      simp [InFlight.failure, Router.drop, RelayMetrics.drop, Traffic.add, Traffic.ofLog,
        Traffic.ofMetrics, Traffic.failures, arrivals, made]

theorem traffic_received {data : Bytes} {view : PacketView} (hdecode : PacketView.decode data = .ok view)
    (self : Router) (items : List InFlight) :
    Traffic.ofMetrics (self.received data.length).metrics =
      (Traffic.ofMetrics self.metrics).add (.ofLog [arrival data items]) := by
  ext <;> simp [Router.received, arrival, hdecode, Except.isOk, Except.toBool, Traffic.add,
    Traffic.ofLog, Traffic.ofMetrics, Traffic.failures, arrivals, made]

theorem traffic_malformed {data : Bytes} {error : Error} (hdecode : PacketView.decode data = .error error)
    (self : Router) :
    Traffic.ofMetrics ((self.received data.length).drop .malformed).metrics =
      (Traffic.ofMetrics self.metrics).add (.ofLog [arrival data []]) := by
  ext <;> simp [Router.received, Router.drop, RelayMetrics.drop, arrival, hdecode, Except.isOk,
    Except.toBool, Traffic.add, Traffic.ofLog, Traffic.ofMetrics, Traffic.failures, arrivals, made]

end Counters

theorem length_others_lt {entry : RouteEntry} {sender : SessionEndpoint} (h : sender ∈ entry.peers) :
    (entry.others sender).length < entry.peers.length :=
  List.length_filter_lt_length_iff_exists.mpr ⟨sender, h, by simp⟩

/-- At most `limit` sends, of at most four bytes more than came in. -/
structure Bounded (limit size : Nat) (items : List InFlight) : Prop where
  length : items.length ≤ limit
  sizes : ∀ item ∈ items, item.data.length ≤ size + 4

section Bounds
variable {self after : Router} {maxSessions maxPeers size : Nat} {sessionId : UInt32} {now : Nat}

theorem Bounded.nil (limit size : Nat) : Bounded limit size [] := ⟨Nat.zero_le _, by simp⟩

theorem Bounded.toAll {limit : Nat} (counted : Bool) {data : Bytes} {targets : List SessionEndpoint}
    (hlength : targets.length ≤ limit) (hsize : data.length ≤ size + 4) :
    Bounded limit size (InFlight.toAll counted data targets) where
  length := by rwa [InFlight.toAll, List.length_map]
  sizes item hitem := by
    obtain ⟨target, -, rfl⟩ := List.mem_map.mp hitem
    exact hsize

theorem length_floorBytes (msg : MessageType) (sessionId : UInt32) :
    (Udp.floorBytes msg sessionId).length = 32 := by
  simp [Udp.floorBytes, headerSize]

theorem Bounded.routed {sender : SessionEndpoint} {decision : RouteDecision}
    (htable : TableInv maxSessions maxPeers self) (counted : Bool) {data : Bytes}
    (h : self.Routed sessionId sender now after decision) :
    Bounded (max 1 maxPeers) data.length (InFlight.toAll counted data decision.targets) := by
  refine .toAll counted ?_ (Nat.le_add_right _ _)
  cases h with
  | known _ hentry hknown =>
    rw [RouteDecision.targets_toAll]
    exact (length_others_lt hknown).le.trans (htable.peers _ _ hentry).limit
  | joined _ hentry =>
    rw [RouteDecision.targets_toAll]
    exact (htable.peers _ _ hentry).limit
  | _ => exact Nat.zero_le _

theorem Bounded.requested {sender : SocketAddr} {clock : FloorClock} {decision : FloorDecision}
    (htable : TableInv maxSessions maxPeers self) (hsize : 28 ≤ size)
    (h : self.FloorRequested sessionId sender clock after decision) :
    Bounded (max 1 maxPeers) size (Udp.requestReplies sessionId sender decision) := by
  have hfloor : ∀ msg, (Udp.floorBytes msg sessionId).length ≤ size + 4 := by
    intro msg
    rw [length_floorBytes]
    omega
  cases h with
  | unknown => exact .nil _ _
  | denied => exact ⟨le_max_left _ _, by simp [Udp.requestReplies, hfloor]⟩
  | granted hentry hknown =>
    have hothers := (length_others_lt hknown).trans_le (htable.peers _ _ hentry).limit
    refine ⟨?_, ?_⟩
    · simpa [Udp.requestReplies, InFlight.toAll] using hothers
    · intro item hitem
      obtain rfl | hitem := List.mem_cons.mp hitem
      · exact hfloor .floorGrant
      · obtain ⟨target, -, rfl⟩ := List.mem_map.mp hitem
        exact hfloor .floorTaken

theorem Bounded.released {sender : SocketAddr} {decision : FloorDecision}
    (htable : TableInv maxSessions maxPeers self) (hsize : 28 ≤ size)
    (h : self.FloorReleased sessionId sender now after decision) :
    Bounded (max 1 maxPeers) size (Udp.releaseReplies sessionId decision) := by
  cases h with
  | unknown => exact .nil _ _
  | denied => exact .nil _ _
  | released hentry =>
    refine .toAll true ?_ ?_
    · exact (List.length_filter_le _ _).trans (htable.peers _ _ hentry).limit
    · rw [length_floorBytes]
      omega

end Bounds

structure TurnBooks (maxSessions maxPeers : Nat) (before : Router) (data : Bytes) (after : Router)
    (items : List InFlight) : Prop where
  table : TableInv maxSessions maxPeers after
  bounded : Bounded (max 1 maxPeers) data.length items
  traffic : Traffic.ofMetrics after.metrics =
    (Traffic.ofMetrics before.metrics).add (.ofLog [arrival data items])

theorem packet_length {data : Bytes} {view : PacketView} (h : PacketView.decode data = .ok view) :
    28 ≤ data.length := by
  obtain ⟨-, -, hdata⟩ := PacketView.eq_bytes_of_decode h
  rw [hdata, Packet.length_bytes]
  simp only [headerSize]
  omega

section Turns
variable {maxSessions maxPeers : Nat} {self : Router}

theorem Ws.turnBooks (h : TableInv maxSessions maxPeers self) (env : RelayEnv) (data : Bytes)
    (tx : Channel) :
    TurnBooks maxSessions maxPeers self data (Ws.turn self env data tx).1 (Ws.turn self env data tx).2 := by
  have hreceived : TableInv maxSessions maxPeers (self.received data.length) := { h with }
  cases hdecode : PacketView.decode data with
  | error error =>
    simp only [Ws.turn, hdecode]
    exact ⟨hreceived.dropped _, .nil _ _, traffic_malformed hdecode self⟩
  | ok view =>
    have hrouted := (self.received data.length).route_routed view.header.sessionId (.webSocket tx)
      env.routedAt
    simp only [Ws.turn, hdecode]
    exact ⟨hreceived.routed hrouted, .routed hreceived false hrouted,
      (traffic_routed hrouted).trans (traffic_received hdecode self _)⟩

theorem Udp.turnBooks (h : TableInv maxSessions maxPeers self) (env : RelayEnv) (datagram : Bytes)
    (sender : SocketAddr) :
    TurnBooks maxSessions maxPeers self (datagram.take Udp.bufferSize)
      (Udp.turn self env datagram sender).1 (Udp.turn self env datagram sender).2 := by
  unfold Udp.turn
  dsimp only
  generalize datagram.take Udp.bufferSize = data
  have hreceived : TableInv maxSessions maxPeers (self.received data.length) := { h with }
  cases hdecode : PacketView.decode data with
  | error error => exact ⟨hreceived.dropped _, .nil _ _, traffic_malformed hdecode self⟩
  | ok view =>
    dsimp only
    have hlength := packet_length hdecode
    have hrouted := (self.received data.length).route_routed view.header.sessionId (.udp sender)
      env.routedAt
    have hforwarded := TurnBooks.mk (hreceived.routed hrouted) (.routed hreceived true hrouted)
      ((traffic_routed hrouted).trans (traffic_received hdecode self _))
    cases MessageType.fromCode view.header.msgType with
    | error => exact hforwarded
    | ok msg =>
      cases msg with
      | floorRequest =>
        have hrequested := Router.floorRequest_requested
          ((self.received data.length).route view.header.sessionId (.udp sender) env.routedAt).1
          view.header.sessionId sender env.clock
        exact ⟨(hreceived.routed hrouted).requested hrequested,
          .requested (hreceived.routed hrouted) hlength hrequested,
          ((traffic_requested hrequested).trans (traffic_routed hrouted)).trans
            (traffic_received hdecode self _)⟩
      | floorRelease =>
        have hreleased := (self.received data.length).floorRelease_released view.header.sessionId
          sender env.releasedAt
        exact ⟨hreceived.released hreleased, .released hreceived hlength hreleased,
          (traffic_released hreleased).trans (traffic_received hdecode self _)⟩
      | _ => exact hforwarded

end Turns

def State.inFlight (st : State) : Multiset InFlight :=
  st.udp + ∑ tx ∈ Finset.range st.channels, ((st.reader tx).pending : Multiset InFlight)

theorem sum_update {M : Type*} [AddCommMonoid M] {s : Finset Channel} {f : Channel → Reader}
    (g : Reader → M) {x : Channel} (hx : x ∈ s) (reader : Reader) :
    ∑ tx ∈ s, g (Function.update f x reader tx) + g (f x) = ∑ tx ∈ s, g (f tx) + g reader := by
  rw [← Finset.add_sum_erase s _ hx, ← Finset.add_sum_erase s (fun tx => g (f tx)) hx]
  have hsame : ∑ tx ∈ s.erase x, g (Function.update f x reader tx) = ∑ tx ∈ s.erase x, g (f tx) := by
    refine Finset.sum_congr rfl fun tx htx => ?_
    rw [Function.update_of_ne (Finset.ne_of_mem_erase htx)]
  rw [hsame, Function.update_self]
  ac_rfl

theorem inFlight_setReader {st st' : State} {tx : Channel} {reader : Reader} (htx : tx < st.channels)
    (hudp : st'.udp = st.udp) (hchannels : st'.channels = st.channels)
    (hreader : st'.reader = (st.setReader tx reader).reader) :
    st'.inFlight + ((st.reader tx).pending : Multiset InFlight) = st.inFlight + reader.pending := by
  rw [State.inFlight, State.inFlight, hudp, hchannels, hreader, add_assoc, add_assoc]
  exact congrArg _ (sum_update (fun reader => (reader.pending : Multiset InFlight))
    (Finset.mem_range.mpr htx) reader)

structure Books (maxSessions maxPeers : Nat) (st : State) (log : List Tally) : Prop where
  table : TableInv maxSessions maxPeers st.router
  fresh : ∀ tx, st.channels ≤ tx → st.reader tx = .returned
  balance : (handed log : Multiset InFlight) = (made log).map Prod.fst + st.inFlight
  each : ∀ size decodes items, .arrived size decodes items ∈ log →
    Bounded (max 1 maxPeers) size items
  traffic : Traffic.ofMetrics st.router.metrics = .ofLog log

section Books
variable {maxSessions maxPeers : Nat} {st st' : State} {log : List Tally}

theorem lists_append (log more : List Tally) :
    arrivals (log ++ more) = arrivals log ++ arrivals more ∧
      handed (log ++ more) = handed log ++ handed more ∧ made (log ++ more) = made log ++ made more :=
  ⟨List.filterMap_append, List.flatMap_append, List.filterMap_append⟩

theorem lists_arrival (log : List Tally) (data : Bytes) (items : List InFlight) :
    handed (log ++ [arrival data items]) = handed log ++ items ∧
      made (log ++ [arrival data items]) = made log := by
  obtain ⟨-, hhanded, hmade⟩ := lists_append log [arrival data items]
  rw [hhanded, hmade]
  exact ⟨congrArg _ (List.append_nil _), List.append_nil _⟩

theorem Books.init (maxSessions maxPeers : Nat) :
    Books maxSessions maxPeers (.init maxSessions maxPeers) [] where
  table := .new maxSessions maxPeers
  fresh _ _ := rfl
  balance := rfl
  each := by simp
  traffic := rfl

theorem Books.quiet (h : Books maxSessions maxPeers st log)
    (htable : TableInv maxSessions maxPeers st'.router)
    (htraffic : Traffic.ofMetrics st'.router.metrics = .ofMetrics st.router.metrics)
    (hfresh : ∀ tx, st'.channels ≤ tx → st'.reader tx = .returned)
    (hinFlight : st'.inFlight = st.inFlight) : Books maxSessions maxPeers st' (log ++ []) := by
  rw [List.append_nil]
  exact ⟨htable, hfresh, hinFlight ▸ h.balance, h.each, htraffic.trans h.traffic⟩

theorem Books.turned (h : Books maxSessions maxPeers st log) {data : Bytes} {items : List InFlight}
    (hturn : TurnBooks maxSessions maxPeers st.router data st'.router items)
    (hfresh : ∀ tx, st'.channels ≤ tx → st'.reader tx = .returned)
    (hinFlight : st'.inFlight = st.inFlight + items) :
    Books maxSessions maxPeers st' (log ++ [arrival data items]) := by
  obtain ⟨hhanded, hmade⟩ := lists_arrival log data items
  refine ⟨hturn.table, hfresh, ?_, ?_, ?_⟩
  · rw [hhanded, hmade, hinFlight, ← Multiset.coe_add, h.balance, add_assoc]
  · intro size decodes sends hmem
    obtain hold | hnew := List.mem_append.mp hmem
    · exact h.each size decodes sends hold
    · obtain ⟨rfl, -, rfl⟩ := Tally.arrived.inj (List.mem_singleton.mp hnew)
      exact hturn.bounded
  · rw [hturn.traffic, h.traffic, Traffic.ofLog_append]

theorem Books.sent (h : Books maxSessions maxPeers st log) {item : InFlight} {result : Option Nat}
    (hrouter : st'.router = st.router.settle item result)
    (hfresh : ∀ tx, st'.channels ≤ tx → st'.reader tx = .returned)
    (hinFlight : st.inFlight = st'.inFlight + {item}) :
    Books maxSessions maxPeers st' (log ++ [.made item result]) := by
  obtain ⟨-, hhanded, hmade⟩ := lists_append log [.made item result]
  rw [show handed [.made item result] = [] from rfl, List.append_nil] at hhanded
  refine ⟨?_, hfresh, ?_, ?_, ?_⟩
  · rw [hrouter]
    cases result with
    | some => exact { h.table with }
    | none =>
      rw [Router.settle]
      cases item.failure with
      | some reason => exact h.table.dropped reason
      | none => exact h.table
  · rw [hhanded, hmade, h.balance, hinFlight]
    rw [List.map_append, ← Multiset.coe_add]
    change _ = _ + ({item} : Multiset InFlight) + _
    ac_rfl
  · intro size decodes sends hmem
    obtain hold | hnew := List.mem_append.mp hmem
    · exact h.each size decodes sends hold
    · cases List.mem_singleton.mp hnew
  · rw [hrouter, traffic_settle, h.traffic, Traffic.ofLog_append]

theorem Books.reader_lt (h : Books maxSessions maxPeers st log) {tx : Channel}
    (hreader : st.reader tx ≠ .returned) : tx < st.channels := by
  by_contra hge
  exact hreader (h.fresh tx (Nat.not_lt.mp hge))

theorem Books.fresh_setReader (h : Books maxSessions maxPeers st log) {tx : Channel}
    (htx : tx < st.channels) {reader : Reader} (hchannels : st'.channels = st.channels)
    (hreader : st'.reader = (st.setReader tx reader).reader) (other : Channel)
    (hother : st'.channels ≤ other) : st'.reader other = .returned := by
  rw [hchannels] at hother
  rw [hreader, State.setReader]
  exact (Function.update_of_ne (Nat.ne_of_gt (htx.trans_le hother)) _ _).trans (h.fresh other hother)

theorem Books.stopped (h : Books maxSessions maxPeers st log) {tx : Channel}
    (hreturned : st.reader tx ≠ .returned) (hbefore : (st.reader tx).pending = []) {reader : Reader}
    (hnone : reader.pending = []) :
    Books maxSessions maxPeers (st.setReader tx reader) (log ++ []) := by
  have htx := h.reader_lt hreturned
  refine h.quiet h.table rfl (h.fresh_setReader htx rfl rfl) ?_
  have hsum : (st.setReader tx reader).inFlight + ((st.reader tx).pending : Multiset InFlight) =
      st.inFlight + reader.pending := inFlight_setReader htx rfl rfl rfl
  rw [hbefore, hnone] at hsum
  simpa using hsum

theorem router_settle (st : State) (item : InFlight) (result : Option Nat) :
    (st.settle item result).router = st.router.settle item result := by
  rw [State.settle]
  cases item.target <;> rfl

theorem traffic_evicted (self : Router) (maxAgeSecs : UInt64) (now : Nat)
    (closed : UInt32 → Channel → Bool) :
    Traffic.ofMetrics (self.evictIdle maxAgeSecs now closed).1.metrics = .ofMetrics self.metrics := by
  unfold Router.evictIdle
  dsimp only
  split_ifs <;> rfl

theorem traffic_rooms {router : Router} {op : Op} (hop : IsRooms op) :
    Traffic.ofMetrics (router.exec op).1.metrics = .ofMetrics router.metrics := by
  cases op with
  | registerRoom code sessionId =>
    simp only [Router.exec, Router.registerRoom]
    split_ifs <;> rfl
  | resolveRoom => rfl
  | removeRoom => rfl
  | listRooms => rfl
  | _ => exact hop.elim

theorem inFlight_accepts (hchannels : st'.channels = st.channels + 1) (hudp : st'.udp = st.udp)
    (hreader : st'.reader = (st.setReader st.channels (.running [])).reader) :
    st'.inFlight = st.inFlight := by
  have hsame : ∀ tx ∈ Finset.range st.channels, ((st'.reader tx).pending : Multiset InFlight) =
      (st.reader tx).pending := by
    intro tx htx
    have hne : tx ≠ st.channels := Nat.ne_of_lt (Finset.mem_range.mp htx)
    have hold : st'.reader tx = st.reader tx := by
      rw [hreader, State.setReader]
      exact Function.update_of_ne hne _ _
    rw [hold]
  have hnew : ((st'.reader st.channels).pending : Multiset InFlight) = 0 := by
    have hrunning : st'.reader st.channels = .running [] := by
      rw [hreader, State.setReader]
      exact Function.update_self _ _ _
    rw [hrunning]
    rfl
  rw [State.inFlight, State.inFlight, hudp, hchannels, Finset.sum_range_succ, hnew, add_zero,
    Finset.sum_congr rfl hsame]

theorem Books.step {act : Act} (h : Books maxSessions maxPeers st log) (hstep : Step st act st') :
    Books maxSessions maxPeers st' (log ++ tally st act st') := by
  cases hstep with
  | accepts =>
    refine h.quiet h.table rfl (fun tx htx => ?_) ?_
    · exact (Function.update_of_ne (Nat.ne_of_gt htx) _ _).trans (h.fresh tx (Nat.le_of_lt htx))
    · exact inFlight_accepts rfl rfl rfl
  | @reads tx env data hreader =>
    have htx := h.reader_lt (show st.reader tx ≠ .returned by simp [hreader])
    refine h.turned (Ws.turnBooks h.table env data tx) (h.fresh_setReader htx rfl rfl) ?_
    generalize Ws.turn st.router env data tx = turned
    have hsum : State.inFlight { st.setReader tx (.running turned.2) with router := turned.1 } +
        ((st.reader tx).pending : Multiset InFlight) =
          st.inFlight + (Reader.running turned.2).pending :=
      inFlight_setReader htx rfl rfl rfl
    rwa [hreader, show ((Reader.running []).pending : Multiset InFlight) = 0 from rfl, add_zero]
      at hsum
  | @forwards tx item pending result hreader =>
    have htx := h.reader_lt (show st.reader tx ≠ .returned by simp [hreader])
    have htally : ∀ after, tally st (.forwards tx result) after = [.made item result] := by
      intro after
      simp only [tally, hreader]
      rfl
    rw [htally]
    obtain ⟨hreaders, hudp, -, hchannels, -⟩ := st.settle_eq item result
    have hkept : ((st.settle item result).setReader tx (.running pending)).reader =
        (st.setReader tx (.running pending)).reader := by
      rw [State.setReader, State.setReader, hreaders]
    refine h.sent (router_settle st item result) (h.fresh_setReader htx hchannels hkept) ?_
    have hsum : ((st.settle item result).setReader tx (.running pending)).inFlight +
        ((st.reader tx).pending : Multiset InFlight) = st.inFlight + (Reader.running pending).pending :=
      inFlight_setReader htx hudp hchannels hkept
    rw [hreader] at hsum
    change _ + (item ::ₘ (pending : Multiset InFlight)) = _ + (pending : Multiset InFlight) at hsum
    rw [← Multiset.singleton_add, ← add_assoc] at hsum
    exact (add_right_cancel hsum).symm
  | leaves hreader => exact h.stopped (by simp [hreader]) (by rw [hreader]; rfl) rfl
  | fails hreader => exact h.stopped (by simp [hreader]) (by rw [hreader]; rfl) rfl
  | joins hreader => exact h.stopped (by simp [hreader]) (by rw [hreader]; rfl) rfl
  | writes => exact h.quiet h.table rfl h.fresh rfl
  | drains => exact h.quiet h.table rfl h.fresh rfl
  | uncounts => exact h.quiet h.table rfl h.fresh rfl
  | drops => exact h.quiet h.table rfl h.fresh rfl
  | @receives env datagram sender hudp =>
    refine h.turned (Udp.turnBooks h.table env datagram sender) h.fresh ?_
    rw [State.inFlight, State.inFlight, hudp, Multiset.coe_nil, zero_add]
    exact add_comm _ _
  | @replies item pending result hudp =>
    have htally : ∀ after, tally st (.replies result) after = [.made item result] := by
      intro after
      simp only [tally, hudp]
      rfl
    rw [htally]
    obtain ⟨hreaders, -, -, hchannels, -⟩ := st.settle_eq item result
    refine h.sent (router_settle st item result) (fun tx htx => ?_) ?_
    · exact (congrFun hreaders tx).trans (h.fresh tx (hchannels ▸ htx))
    · rw [State.inFlight, State.inFlight, hudp]
      dsimp only
      rw [hreaders, hchannels]
      change (item ::ₘ (pending : Multiset InFlight)) + _ = _ + _ + _
      rw [← Multiset.singleton_add]
      ac_rfl
  | @collects maxAgeSecs now =>
    exact h.quiet (h.table.evicted maxAgeSecs now _) (traffic_evicted _ _ _ _) h.fresh rfl
  | @rooms op hop =>
    exact h.quiet (h.table.called op) (traffic_rooms hop) h.fresh rfl

end Books

def Trades (maxSessions maxPeers : Nat) (run : Logged State Tally) : Prop :=
  Reaches (LogStep Step tally) (fun _ _ => True) ⟨.init maxSessions maxPeers, []⟩ run

theorem Books.of_trades {maxSessions maxPeers : Nat} {run : Logged State Tally}
    (h : Trades maxSessions maxPeers run) : Books maxSessions maxPeers run.state run.log := by
  refine @Reaches.invariant _ _ _ _
    (fun run : Logged State Tally => Books maxSessions maxPeers run.state run.log) _ _ h
    (Books.init maxSessions maxPeers) ?_
  rintro u label v hu ⟨hstep⟩ -
  exact hu.step hstep

theorem handed_le {limit : Nat} (log : List Tally)
    (heach : ∀ size decodes items, .arrived size decodes items ∈ log → Bounded limit size items) :
    (handed log).length ≤ limit * (arrivals log).length ∧
      ((handed log).map (·.data.length)).sum ≤
        limit * (((arrivals log).map Prod.fst).sum + 4 * (arrivals log).length) := by
  induction log with
  | nil => exact ⟨Nat.zero_le _, Nat.zero_le _⟩
  | cons event log ih =>
    obtain ⟨hlength, hbytes⟩ := ih fun size decodes items hmem =>
      heach size decodes items (List.mem_cons_of_mem _ hmem)
    cases event with
    | made item result => exact ⟨hlength, hbytes⟩
    | arrived size decodes items =>
      have hbounded := heach size decodes items List.mem_cons_self
      have hitems : (items.map (·.data.length)).sum ≤ limit * (size + 4) := by
        refine (List.sum_le_card_nsmul _ (size + 4) ?_).trans ?_
        · rintro _ hsize
          obtain ⟨item, hitem, rfl⟩ := List.mem_map.mp hsize
          exact hbounded.sizes item hitem
        · rw [List.length_map, smul_eq_mul]
          exact Nat.mul_le_mul_right _ hbounded.length
      have hhanded : handed (.arrived size decodes items :: log) = items ++ handed log := rfl
      have harrivals : arrivals (.arrived size decodes items :: log) =
          (size, decodes) :: arrivals log := rfl
      rw [hhanded, harrivals]
      constructor
      · rw [List.length_append, List.length_cons]
        calc items.length + (handed log).length
            ≤ limit + limit * (arrivals log).length := Nat.add_le_add hbounded.length hlength
          _ = limit * ((arrivals log).length + 1) := by ring
      · rw [List.map_append, List.sum_append, List.map_cons, List.sum_cons, List.length_cons]
        calc (items.map (·.data.length)).sum + ((handed log).map (·.data.length)).sum
            ≤ limit * (size + 4) +
              limit * (((arrivals log).map Prod.fst).sum + 4 * (arrivals log).length) :=
              Nat.add_le_add hitems hbytes
          _ = limit * (size + ((arrivals log).map Prod.fst).sum +
              4 * ((arrivals log).length + 1)) := by ring

/-- However the tasks take turns, every send that a datagram leads to is made once or still to be
made, the counters say what came in and went out, and each datagram leads to at most as many sends as
a session has peers, each of at most four bytes more; so what goes out is bounded by what came in. -/
theorem relay_accounts (maxSessions maxPeers : Nat) {run : Logged State Tally}
    (h : Trades maxSessions maxPeers run) :
    (handed run.log : Multiset InFlight) = (made run.log).map Prod.fst + run.state.inFlight ∧
      Traffic.ofMetrics run.state.router.metrics = .ofLog run.log ∧
      (∀ size decodes items, .arrived size decodes items ∈ run.log →
        items.length ≤ max 1 maxPeers ∧ ∀ item ∈ items, item.data.length ≤ size + 4) ∧
      (made run.log).length ≤ max 1 maxPeers * (arrivals run.log).length ∧
      ((made run.log).map (·.1.data.length)).sum ≤ max 1 maxPeers *
        (((arrivals run.log).map Prod.fst).sum + 4 * (arrivals run.log).length) := by
  have hbooks := Books.of_trades h
  obtain ⟨hfanOut, hbytes⟩ := handed_le run.log hbooks.each
  refine ⟨hbooks.balance, hbooks.traffic, ?_, ?_, ?_⟩
  · intro size decodes items hmem
    have hbounded := hbooks.each size decodes items hmem
    exact ⟨hbounded.length, hbounded.sizes⟩
  · have hcard := congrArg Multiset.card hbooks.balance
    rw [Multiset.card_add, Multiset.coe_card, Multiset.coe_card, List.length_map] at hcard
    omega
  · have hsizes := congrArg (fun items => (items.map (·.data.length)).sum) hbooks.balance
    rw [Multiset.map_add, Multiset.sum_add, Multiset.map_coe, Multiset.map_coe, Multiset.sum_coe,
      Multiset.sum_coe, List.map_map] at hsizes
    exact (Nat.le.intro hsizes.symm).trans hbytes

private def calm : RelayEnv := ⟨1, ⟨1, 1, 1, 1⟩, 1, fun data _ => some data.length, fun _ => true⟩

private def beat : Bytes := Packet.bytes (PacketHeader.new MessageType.heartbeat.code 7 0 0) []

private def joined (router : Router) (sender : SocketAddr) : Router × RouteDecision :=
  (router.received 28).route 7 (.udp sender) 1

private def firstJoined : Router := (joined (State.init 1 2).router (.v4 1 4000)).1

theorem receives_beat {log : List Tally} {st : State} {sender : SocketAddr}
    {targets : List SessionEndpoint} (hrun : Trades 1 2 ⟨st, log⟩) (hudp : st.udp = [])
    (htargets : (joined st.router sender).2.targets = targets) :
    Trades 1 2 ⟨⟨(joined st.router sender).1, st.wsConnections, st.channels, st.reader, st.writer,
      InFlight.toAll true beat targets⟩,
      log ++ [.arrived 28 true (InFlight.toAll true beat targets)]⟩ := by
  have hdecode : PacketView.decode beat =
      .ok ⟨PacketHeader.new MessageType.heartbeat.code 7 0 0, []⟩ :=
    PacketView.decode_bytes _ _ rfl (by simp)
  have htake : beat.take Udp.bufferSize = beat := List.take_of_length_le (by decide)
  have hlength : beat.length = 28 := by decide
  have hturn : Udp.turn st.router calm beat sender =
      ((joined st.router sender).1, InFlight.toAll true beat targets) := by
    simp only [Udp.turn, htake, hdecode, hlength]
    rw [← htargets]
    rfl
  have harrival : ∀ items, arrival beat items = .arrived 28 true items := by
    intro items
    rw [arrival, hdecode, hlength]
    rfl
  have hstep := @Step.receives st calm beat sender hudp
  rw [hturn] at hstep
  refine hrun.tail (.logs hstep ?_) trivial
  rw [tally, htake, hturn, harrival]

/-- Two peers join a session, and the heartbeat of the second is forwarded to the first. -/
theorem relay_accounts_forwarded : ∃ run : Logged State Tally, Trades 1 2 run ∧
    run.log = [.arrived 28 true [], .arrived 28 true [⟨.udp (.v4 1 4000), beat, true⟩],
      .made ⟨.udp (.v4 1 4000), beat, true⟩ (some 28)] ∧
    (handed run.log : Multiset InFlight) = (made run.log).map Prod.fst + run.state.inFlight ∧
    Traffic.ofMetrics run.state.router.metrics = ⟨2, 56, 0, 1, 28, 0, 0⟩ := by
  have hstart : Trades 1 2 ⟨.init 1 2, []⟩ := .refl _
  have hfirst := receives_beat hstart rfl (show (joined _ (.v4 1 4000)).2.targets = [] by decide +kernel)
  have hpeers : (joined firstJoined (.v4 2 4000)).2.targets = [.udp (.v4 1 4000)] := by decide +kernel
  have hsecond := receives_beat hfirst rfl hpeers
  have hreply := hsecond.tail
    (.logs (@Step.replies _ ⟨.udp (.v4 1 4000), beat, true⟩ [] (some 28) rfl trivial) rfl) trivial
  obtain ⟨hbalance, htraffic, -⟩ := relay_accounts 1 2 hreply
  exact ⟨_, hreply, rfl, hbalance, htraffic⟩

end GravitalTalk.Relay.Bridge
