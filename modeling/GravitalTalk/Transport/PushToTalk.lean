import GravitalTalk.Transport.Receive

/-! Push-to-talk: the local flag and the messages that go with it, and what the floor messages do
to the flags of the session they arrive at. -/
namespace GravitalTalk.Transport
open Lib GravitalTalk.Core

namespace Session

/-- The flag is stored first, then the two messages go out; an error of the first is returned at
once.  Each message has its own reading of the clock. -/
def pttSwitch (self : Session) (active : Bool) (floor control : MessageType) (env next : Env) :
    Except TransportError Unit × Session × List Sent :=
  let self := { self with pttActive := active }
  match self.peer with
  | none => (.ok (), self, [])
  | some p =>
    let sid := self.sessionId
    match self.sendControl env floor sid (be32 sid) p with
    | (.error e, self, sent) => (.error e, self, sent)
    | (.ok (), self, sent) =>
      let (result, self, more) := self.sendControl next control sid [] p
      (result, self, sent ++ more)

def pttPress (self : Session) (env next : Env) :
    Except TransportError Unit × Session × List Sent :=
  self.pttSwitch true .floorRequest .controlResume env next

def pttRelease (self : Session) (env next : Env) :
    Except TransportError Unit × Session × List Sent :=
  self.pttSwitch false .floorRelease .controlPause env next

structure SameParty (s s' : Session) : Prop where
  peer : s'.peer = s.peer
  sessionId : s'.sessionId = s.sessionId
  config : s'.config = s.config

end Session

/-- The room the largest of the messages takes: a header, a session id and the tail. -/
def pttMtu : Nat := 32

structure IsPacket (data : Bytes) (msg : MessageType) (sessionId : UInt32) : Prop where
  decodes : ∃ view, PacketView.decode data = .ok view ∧ view.header.msgType = msg.code ∧
    view.header.sessionId = sessionId
  fits : data.length ≤ pttMtu

theorem isPacket_bytes (msg : MessageType) (sessionId seq : UInt32) (ts : UInt64) {payload : Bytes}
    (hsize : payload.length ≤ 4) :
    IsPacket (Packet.bytes (PacketHeader.new msg.code sessionId seq ts) payload) msg sessionId where
  decodes := by
    have hpayload : payload.length ≤ maxPayloadSize := hsize.trans (by decide)
    exact ⟨_, PacketView.decode_bytes _ _ rfl hpayload, rfl, rfl⟩
  fits := by
    simp only [Packet.length_bytes, headerSize, pttMtu]
    omega

namespace Session

theorem sendControl_packet (self : Session) {env : Env} (msg : MessageType) (sessionId : UInt32)
    {payload : Bytes} (p : SocketAddr) (haccepts : env.Accepts) (hsize : payload.length ≤ 4)
    (hmtu : pttMtu ≤ self.config.mtu) :
    ∃ after data, self.sendControl env msg sessionId payload p = (.ok (), after, [⟨data, p⟩]) ∧
      SameParty self after ∧ after.pttActive = self.pttActive ∧ IsPacket data msg sessionId := by
  have hroom : headerSize + payload.length + 4 ≤ self.config.mtu := by
    simp only [headerSize, pttMtu] at hmtu ⊢
    omega
  obtain ⟨metrics, hsend⟩ :=
    self.sendControl_accepted haccepts msg sessionId p (hsize.trans (by decide)) hroom
  exact ⟨_, _, hsend, ⟨rfl, rfl, rfl⟩, rfl, isPacket_bytes msg sessionId _ _ hsize⟩

theorem pttSwitch_accepted (self : Session) (active : Bool) (floor control : MessageType)
    {env next : Env} {p : SocketAddr} (hpeer : self.peer = some p) (hmtu : pttMtu ≤ self.config.mtu)
    (haccepts : env.Accepts) (hnext : next.Accepts) :
    ∃ after first second, self.pttSwitch active floor control env next =
        (.ok (), after, [⟨first, p⟩, ⟨second, p⟩]) ∧
      SameParty self after ∧ after.pttActive = active ∧
        IsPacket first floor self.sessionId ∧ IsPacket second control self.sessionId := by
  have hlength : (be32 self.sessionId).length ≤ 4 := by simp
  have hempty : ([] : Bytes).length ≤ 4 := by simp
  obtain ⟨middle, first, hfirst, hsame, hactive, hpacket⟩ :=
    sendControl_packet { self with pttActive := active } floor self.sessionId p haccepts hlength
      hmtu
  obtain ⟨after, second, hsecond, hsame', hactive', hpacket'⟩ :=
    sendControl_packet middle control self.sessionId p hnext hempty
      (by rw [hsame.config]; exact hmtu)
  refine ⟨after, first, second, ?_, ?_, hactive'.trans hactive, hpacket, hpacket'⟩
  · unfold pttSwitch
    dsimp only
    split
    case h_1 hnone => exact absurd (hpeer.symm.trans hnone) (by simp)
    case h_2 p' hsome =>
      obtain rfl : p = p' := Option.some.inj (hpeer.symm.trans hsome)
      simp only [hfirst, hsecond, List.singleton_append]
  · exact ⟨hsame'.peer.trans hsame.peer, hsame'.sessionId.trans hsame.sessionId,
      hsame'.config.trans hsame.config⟩

/-- The messages a relay passes on to the members of a session. -/
def floorNews : List MessageType :=
  [.floorGrant, .floorDeny, .floorTaken, .floorRelease, .controlResume, .controlPause]

/-- Of these only a refusal touches the flag, and none is answered. -/
theorem processDatagram_news (self : Session) (aead : Aead) (env : Env) {data : Bytes}
    {msg : MessageType} {sessionId : UInt32} (source : SocketAddr) (hmsg : msg ∈ floorNews)
    (hpacket : IsPacket data msg sessionId) (hmtu : pttMtu ≤ self.config.mtu) :
    ∃ after, self.processDatagram aead env ⟨data, source⟩ = after.quiet ∧ SameParty self after ∧
      after.pttActive = (self.pttActive && decide (msg ≠ .floorDeny)) := by
  obtain ⟨view, hdecode, htype, -⟩ := hpacket.decodes
  have hwhole : data.take self.config.mtu = data :=
    List.take_of_length_le (hpacket.fits.trans hmtu)
  have hview : PacketView.decode (data.take self.config.mtu) = .ok view := by rw [hwhole, hdecode]
  rw [processDatagram_ok hview]
  simp only [dispatchPacket, htype]
  simp only [floorNews, List.mem_cons, List.not_mem_nil, or_false] at hmsg
  obtain rfl | rfl | rfl | rfl | rfl | rfl := hmsg
  all_goals exact ⟨_, rfl, ⟨rfl, rfl, rfl⟩, by simp [arrived]⟩

end Session
end GravitalTalk.Transport
