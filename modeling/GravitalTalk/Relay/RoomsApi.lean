import GravitalTalk.Lib.Text
import GravitalTalk.Lib.Trace
import GravitalTalk.Relay.RoomCode
import GravitalTalk.Relay.Router

/-! The HTTP requests of the relay: its health, its metrics and the rooms. -/
namespace GravitalTalk.Relay.RoomsApi
open Lib Text Trace RoomCode GravitalTalk.Transport.Discovery

inductive Method where
  | get
  | post
  | delete
  | other
  deriving DecidableEq

/-- `body` is `none` when it could not be read to its end. -/
structure Request where
  method : Method
  path : String
  body : Option Bytes

structure Response where
  status : UInt16
  contentType : String
  body : Bytes
  deriving DecidableEq

structure Server where
  router : Router
  counter : UInt64

/-- The text encoder of the metrics library. -/
structure Exporter where
  formatType : String
  encode : RelayMetrics → Bytes

def jsonResponse (status : UInt16) (body : String) : Response :=
  let s := if body.toList.getLast? = some '\n' then body else body.push '\n'
  ⟨status, "application/json", asBytes s⟩

def methodNotAllowed : Response := jsonResponse 405 "\x7b\"error\":\"method not allowed\"\x7d"

/-- The number that follows the first `session_id` and a colon. -/
def extractSessionId (body : Bytes) : Option UInt32 := do
  let s ← fromUtf8 body
  let afterKey ← after "session_id".toList s.toList
  let afterColon ← after [':'] afterKey
  let num := (trimStart afterColon).takeWhile Char.isDigit
  if num = [] then none
  else
    let id ← parseUnsigned UInt32.size num
    return UInt32.ofNat id

def createdText (code : String) (sessionId : UInt32) : String :=
  "\x7b\"code\":\"" ++ code ++ "\",\"session_id\":" ++ sessionId.toNat.repr ++ "\x7d"

def roomText (code : String) (sessionId : UInt32) (peers : Nat) : String :=
  "\x7b\"code\":\"" ++ code ++ "\",\"session_id\":" ++ sessionId.toNat.repr ++ ",\"peer_count\":" ++
    peers.repr ++ "\x7d"

def roomNotFound : Response := jsonResponse 404 "\x7b\"error\":\"room not found\"\x7d"

def handleCreateRoom (self : Server) (body : Bytes) (time : UInt64) : Server × Response :=
  match (extractSessionId body).filter (· != 0) with
  | some sessionId =>
    let code := generateCode time self.counter
    let counter := self.counter + 1
    match self.router.registerRoom code sessionId with
    | (router, true) => (⟨router, counter⟩, jsonResponse 201 (createdText code sessionId))
    | (router, false) =>
      (⟨router, counter⟩, jsonResponse 409 "\x7b\"error\":\"room code collision, retry\"\x7d")
  | none =>
    (self, jsonResponse 400
      "\x7b\"error\":\"body must be \x7b\\\"session_id\\\":N\x7d with N > 0\"\x7d")

def handleGetRoom (router : Router) (code : String) : Response :=
  if !isValidCode code then jsonResponse 400 "\x7b\"error\":\"invalid room code format\"\x7d"
  else
    match router.resolveRoom code with
    | some sessionId => jsonResponse 200 (roomText code sessionId (router.peerCount sessionId))
    | none => roomNotFound

def handleDeleteRoom (router : Router) (code : String) : Router × Response :=
  match router.removeRoom code with
  | (router, true) => (router, jsonResponse 200 "\x7b\"deleted\":true\x7d")
  | (router, false) => (router, roomNotFound)

def handleListRooms (router : Router) : Response :=
  let entries := router.listRooms.map fun (code, sessionId, peers) => roomText code sessionId peers
  jsonResponse 200 ("[" ++ String.intercalate "," entries ++ "]\n")

def stripPrefix (pattern s : String) : Option String :=
  if pattern.toList.isPrefixOf s.toList then some (.ofList (s.toList.drop pattern.toList.length))
  else none

/-- One request; `time` is the wall clock, in nanoseconds since the epoch. -/
def handle (exporter : Exporter) (self : Server) (req : Request) (time : UInt64) :
    Server × Response :=
  let body := req.body.getD []
  if req.path = "/healthz" then (self, jsonResponse 200 "\"ok\"")
  else if req.path = "/metrics" then
    (self, ⟨200, exporter.formatType, exporter.encode self.router.metrics⟩)
  else if req.path = "/api/rooms" then
    match req.method with
    | .get => (self, handleListRooms self.router)
    | .post => handleCreateRoom self body time
    | _ => (self, methodNotAllowed)
  else
    match stripPrefix "/api/rooms/" req.path with
    | some code =>
      match req.method with
      | .get => (self, handleGetRoom self.router code)
      | .delete => (handleDeleteRoom self.router code).map (⟨·, self.counter⟩) id
      | _ => (self, methodNotAllowed)
    | none => (self, jsonResponse 404 "\x7b\"error\":\"not found\"\x7d\n")

/-- The calls the rest of the relay makes: it has no business with rooms. -/
def Traffic : Op → Prop
  | .route _ _ _ => True
  | .evictIdle _ _ _ => True
  | .floorRequest _ _ _ => True
  | .floorRelease _ _ _ => True
  | _ => False

inductive Input where
  | request (req : Request) (time : UInt64)
  | traffic (op : { op : Op // Traffic op })

inductive Output where
  | response (response : Response)
  | answer (answer : Answer)

def exec (exporter : Exporter) (self : Server) : Input → Server × Output
  | .request req time => (handle exporter self req time).map id .response
  | .traffic op => (self.router.exec op.val).map (⟨·, self.counter⟩) .answer

def start (maxSessions maxPeers : Nat) : Server := ⟨.new maxSessions maxPeers .new, 0⟩

def Response.created (response : Response) : Option (String × UInt32) :=
  if response.status = 201 then do
    let text ← fromUtf8 response.body
    let sessionId ← extractSessionId response.body
    return (.ofList ((text.toList.drop 9).take 9), sessionId)
  else none

section Runs
variable {exporter : Exporter} {maxSessions maxPeers : Nat}

end Runs

end GravitalTalk.Relay.RoomsApi
