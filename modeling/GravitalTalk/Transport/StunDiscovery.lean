import GravitalTalk.Transport.StunResponse

/-! The discovery of the public address: servers are asked one after the other, on one socket, until
one of them has told it.  What the names resolve to and what the socket reads is the outside's. -/
namespace GravitalTalk.Transport.Stun
open Lib GravitalTalk.Core

def bindingRequest : UInt16 := 0x0001

def stunServers : List String :=
  ["stun.l.google.com:19302", "stun1.l.google.com:19302", "stun2.l.google.com:19302"]

inductive StunError where
  | io
  | timeout
  | malformed
  | resolve (text : String)
  deriving DecidableEq, Repr

inductive Reading where
  | datagram (data : Bytes) (sender : SocketAddr)
  | failed
  deriving DecidableEq

/-- What the outside does while one server is asked. -/
structure Turn where
  /-- `none` is an error of the lookup. -/
  resolved : Option (List SocketAddr)
  txId : Vector UInt8 12
  accepts : Bool
  /-- What is read until the five seconds are over. -/
  readings : List Reading

def buildBindingRequest (txId : Vector UInt8 12) : Bytes :=
  be16 bindingRequest ++ (be16 0 ++ (be32 magicCookie ++ txId.toList))

/-- The loop of `do_stun_exchange`: `none` is a panic, and `some none` that it still reads when the
time is over. -/
def receives (txId : Vector UInt8 12) :
    List Reading → Option (Option (Except StunError SocketAddr))
  | [] => some none
  | .failed :: _ => some (some (.error .io))
  | .datagram data _ :: readings => do
    match ← parseBindingResponse (data.take 512) txId with
    | some addr => return some (.ok addr)
    | none => receives txId readings

def doStunExchange (turn : Turn) : Option (Option (Except StunError SocketAddr)) :=
  if turn.accepts then receives turn.txId turn.readings else some (some (.error .io))

/-- The loop over the servers: its answer, and the requests it gave to the socket. -/
def asks (turn : String → Turn) :
    List String → Option (Except StunError SocketAddr × List (Bytes × SocketAddr))
  | [] => some (.error .timeout, [])
  | server :: servers =>
    match (turn server).resolved with
    | some (serverAddr :: _) => do
      let request := buildBindingRequest (turn server).txId
      match ← doStunExchange (turn server) with
      | some (.ok addr) => return (.ok addr, [(request, serverAddr)])
      | _ =>
        let (answer, sent) ← asks turn servers
        return (answer, (request, serverAddr) :: sent)
    | _ => asks turn servers

/-- `bound` says that the socket could be bound to its port. -/
def discoverPublicAddr (bound : Bool) (turn : String → Turn) :
    Option (Except StunError SocketAddr × List (Bytes × SocketAddr)) :=
  if bound then asks turn stunServers else some (.error .io, [])

/-- The address that a datagram tells to a transaction; only its first 512 bytes are read. -/
def heard (txId : Vector UInt8 12) (data : Bytes) : Option SocketAddr :=
  (parseBindingResponse (data.take 512) txId).join

theorem parse_heard (txId : Vector UInt8 12) (data : Bytes) :
    parseBindingResponse (data.take 512) txId = some (heard txId data) := by
  obtain ⟨result, hresult, _⟩ := binding_response_parsed.2 (data.take 512) txId
  rw [heard, hresult]
  rfl

theorem heard_of_not_matches {txId : Vector UInt8 12} {data : Bytes}
    (h : ¬Matches (data.take 512) txId) : heard txId data = none := by
  rw [heard, parseBindingResponse_of_not_matches h]
  rfl

def arrived : List Reading → List Bytes
  | .datagram data _ :: readings => data :: arrived readings
  | _ => []

theorem receives_heard (txId : Vector UInt8 12) (readings : List Reading) :
    ∃ result, receives txId readings = some result ∧
      ∀ addr, result = some (.ok addr) ↔ (arrived readings).findSome? (heard txId) = some addr := by
  induction readings with
  | nil => exact ⟨none, rfl, by simp [arrived]⟩
  | cons reading readings ih =>
    cases reading with
    | failed => exact ⟨some (.error .io), rfl, by simp [arrived]⟩
    | datagram data sender =>
      rw [receives, parse_heard, arrived, List.findSome?_cons]
      cases heard txId data with
      | some addr => exact ⟨some (.ok addr), rfl, by simp⟩
      | none => exact ih

namespace Turn

def request (turn : Turn) : Option (Bytes × SocketAddr) :=
  match turn.resolved with
  | some (serverAddr :: _) => some (buildBindingRequest turn.txId, serverAddr)
  | _ => none

/-- The first address that is told to the server's transaction, of whoever tells it. -/
def told (turn : Turn) : Option SocketAddr :=
  if turn.request.isSome ∧ turn.accepts then (arrived turn.readings).findSome? (heard turn.txId)
  else none

theorem exchange_told {turn : Turn} (hrequest : turn.request.isSome) :
    ∃ result, doStunExchange turn = some result ∧
      ∀ addr, result = some (.ok addr) ↔ turn.told = some addr := by
  unfold doStunExchange told
  by_cases haccepts : turn.accepts = true
  · rw [if_pos haccepts, if_pos ⟨hrequest, haccepts⟩]
    exact receives_heard turn.txId turn.readings
  · rw [if_neg haccepts, if_neg fun h => haccepts h.2]
    exact ⟨some (.error .io), rfl, by simp⟩

end Turn

section Asks
variable {turn : String → Turn} {server : String} (servers : List String)

theorem asks_skip (h : (turn server).request = none) :
    asks turn (server :: servers) = asks turn servers ∧ (turn server).told = none := by
  constructor
  · unfold Turn.request at h
    rw [asks]
    cases hresolved : (turn server).resolved with
    | none => rfl
    | some addrs =>
      cases addrs with
      | nil => rfl
      | cons addr addrs => simp [hresolved] at h
  · rw [Turn.told, h]
    exact if_neg (by simp)

theorem asks_request {request : Bytes × SocketAddr} (h : (turn server).request = some request) :
    asks turn (server :: servers) = (doStunExchange (turn server)).bind fun
      | some (.ok addr) => some (.ok addr, [request])
      | _ => (asks turn servers).map fun rest => (rest.1, request :: rest.2) := by
  unfold Turn.request at h
  rw [asks]
  cases hresolved : (turn server).resolved with
  | none => simp [hresolved] at h
  | some addrs =>
    cases addrs with
    | nil => simp [hresolved] at h
    | cons addr addrs =>
      rw [hresolved] at h
      obtain rfl := Option.some.inj h
      cases doStunExchange (turn server) with
      | none => rfl
      | some result =>
        rcases result with _ | _ | addr
        · cases asks turn servers <;> rfl
        · cases asks turn servers <;> rfl
        · rfl

end Asks

def answerOf (told : Option SocketAddr) : Except StunError SocketAddr :=
  told.elim (.error .timeout) .ok

/-- The servers that get their turn: up to the first that tells an address. -/
def asked (turn : String → Turn) : List String → List String
  | [] => []
  | server :: servers => server :: if (turn server).told.isSome then [] else asked turn servers

theorem asked_initial (turn : String → Turn) (servers : List String) :
    asked turn servers <+: servers := by
  induction servers with
  | nil => exact List.nil_prefix
  | cons server servers ih =>
    rw [asked]
    apply (List.prefix_cons_inj server).mpr
    split
    · exact List.nil_prefix
    · exact ih

theorem asks_told (turn : String → Turn) (servers : List String) :
    asks turn servers = some (answerOf (servers.findSome? fun s => (turn s).told),
      (asked turn servers).filterMap fun s => (turn s).request) := by
  induction servers with
  | nil => rfl
  | cons server servers ih =>
    rw [List.findSome?_cons, asked, List.filterMap_cons]
    cases hrequest : (turn server).request with
    | none =>
      obtain ⟨hskip, htold⟩ := asks_skip servers hrequest
      rw [hskip, ih, htold]
      rfl
    | some request =>
      obtain ⟨result, hexchange, htold⟩ := Turn.exchange_told (by rw [hrequest]; rfl)
      rw [asks_request servers hrequest, hexchange, Option.bind_some]
      cases hserver : (turn server).told with
      | some addr =>
        obtain rfl := (htold addr).mpr hserver
        rfl
      | none =>
        rw [ih]
        rcases result with _ | _ | addr
        · rfl
        · rfl
        · exact absurd ((htold addr).mp rfl) (by simp [hserver])

instance (buf : Bytes) (txId : Vector UInt8 12) : Decidable (Matches buf txId) :=
  decidable_of_iff (20 ≤ buf.length ∧ fromBe16 (slice buf 0 2) = bindingResponse ∧
      20 + (fromBe16 (slice buf 2 2)).toNat ≤ buf.length ∧
      fromBe32 (slice buf 4 4) = magicCookie ∧ slice buf 8 12 = txId.toList)
    ⟨fun ⟨length, msgType, declared, magic, txId⟩ => ⟨length, msgType, declared, magic, txId⟩,
      fun h => ⟨h.length, h.msgType, h.declared, h.magic, h.txId⟩⟩

def Turn.matched (turn : Turn) : List Bytes :=
  (arrived turn.readings).filter fun data => Matches (data.take 512) turn.txId

/-- The same turn, but for datagrams that are not for its transaction and for who has sent them. -/
structure Turn.Like (turn turn' : Turn) : Prop where
  resolved : turn'.resolved = turn.resolved
  txId : turn'.txId = turn.txId
  accepts : turn'.accepts = turn.accepts
  matched : turn'.matched = turn.matched

theorem findSome?_matched (turn : Turn) :
    turn.matched.findSome? (heard turn.txId) =
      (arrived turn.readings).findSome? (heard turn.txId) := by
  unfold Turn.matched
  induction arrived turn.readings with
  | nil => rfl
  | cons data datagrams ih =>
    by_cases hmatches : Matches (data.take 512) turn.txId
    · rw [List.filter_cons_of_pos (by simpa using hmatches), List.findSome?_cons, List.findSome?_cons,
        ih]
    · rw [List.filter_cons_of_neg (by simpa using hmatches), List.findSome?_cons,
        heard_of_not_matches hmatches, ih]

namespace Turn.Like
variable {turn turn' : Turn}

theorem request (h : Like turn turn') : turn'.request = turn.request := by
  rw [Turn.request, Turn.request, h.resolved, h.txId]

theorem told (h : Like turn turn') : turn'.told = turn.told := by
  rw [Turn.told, Turn.told, h.request, h.accepts, ← findSome?_matched, ← findSome?_matched,
    h.matched, h.txId]

end Turn.Like

theorem asked_congr {turn turn' : String → Turn} {servers : List String}
    (h : ∀ s ∈ servers, (turn s).Like (turn' s)) : asked turn' servers = asked turn servers := by
  induction servers with
  | nil => rfl
  | cons server servers ih =>
    rw [asked, asked, (h server (by simp)).told, ih fun s hs => h s (by simp [hs])]

/-- A datagram for no transaction of the call, such as the late answer to another request, changes
neither the answer nor the requests, wherever it comes in; nor does it matter who sends what. -/
theorem discovery_unmoved {turn turn' : String → Turn} (bound : Bool)
    (h : ∀ s ∈ stunServers, (turn s).Like (turn' s)) :
    discoverPublicAddr bound turn' = discoverPublicAddr bound turn := by
  have htold : stunServers.findSome? (fun s => (turn' s).told) =
      stunServers.findSome? fun s => (turn s).told := by
    rw [← List.head?_filterMap, ← List.head?_filterMap]
    exact congrArg List.head? (List.filterMap_congr fun s hs => (h s hs).told)
  have hrequests : (asked turn stunServers).filterMap (fun s => (turn' s).request) =
      (asked turn stunServers).filterMap fun s => (turn s).request := by
    apply List.filterMap_congr
    intro s hs
    exact (h s ((asked_initial turn stunServers).subset hs)).request
  unfold discoverPublicAddr
  rw [asks_told, asks_told, htold, asked_congr h, hrequests]

def plainResponse (id : UInt8) : Bytes :=
  response (Vector.replicate 12 id) [⟨0x0001, [0, 1, 0, 80, 10, 0, 0, 1], [], rfl⟩]

def turnTwo (readings : List Reading) : Turn :=
  ⟨some [.v4 1 19302], Vector.replicate 12 2, true, readings⟩

/-- The answer to transaction 1 comes first. -/
theorem discovery_unmoved_late :
    discoverPublicAddr true (fun _ => turnTwo
        [.datagram (plainResponse 1) (.v4 1 19302), .datagram (plainResponse 2) (.v4 9 5)]) =
      discoverPublicAddr true fun _ => turnTwo [.datagram (plainResponse 2) (.v4 1 19302)] :=
  discovery_unmoved true fun _ _ => ⟨rfl, rfl, rfl, by decide⟩

end GravitalTalk.Transport.Stun
