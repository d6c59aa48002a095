import GravitalTalk.Lib.Transition
import GravitalTalk.Relay.Ingress
import GravitalTalk.Transport.Handshake
import GravitalTalk.Transport.PushToTalk

/-! Push-to-talk through the relay: the members of one session, the relay's UDP loop, and a network
that delivers every datagram once, in any order. -/
namespace GravitalTalk.Relay.Talkers
open Lib GravitalTalk.Core Transport Transition
open Handshake (NetPacket posts)

structure Setup where
  relay : SocketAddr
  members : List SocketAddr
  sessionId : UInt32
  aead : Aead

structure State where
  router : Router
  client : SocketAddr → Session
  net : List NetPacket
  now : Nat

namespace State

def setClient (st : State) (addr : SocketAddr) (session : Session) : State :=
  { st with client := Function.update st.client addr session }

@[simp] theorem setClient_same (st : State) (addr : SocketAddr) (session : Session) :
    (st.setClient addr session).client addr = session := Function.update_self ..

theorem setClient_ne {st : State} {addr other : SocketAddr} {session : Session}
    (h : other ≠ addr) : (st.setClient addr session).client other = st.client other :=
  Function.update_of_ne h ..

end State

def readings (env : RelayEnv) : List Nat :=
  env.routedAt :: env.clock.readings ++ [env.releasedAt]

def relayPosts (relay : SocketAddr) (sent : List Forwarded) : List NetPacket :=
  sent.filterMap fun forwarded =>
    match forwarded.target with
    | .udp addr => some ⟨relay, addr, forwarded.data⟩
    | .webSocket _ => none

inductive Label where
  | call
  | relay (packet : NetPacket) (env : RelayEnv)
  | client

inductive Step (setup : Setup) : State → Label → State → Prop where
  | press {st addr} (env next : Env) (hmember : addr ∈ setup.members) (haccepts : env.Accepts)
      (hnext : next.Accepts) :
      Step setup st .call
        { st.setClient addr ((st.client addr).pttPress env next).2.1 with
          net := st.net ++ posts addr ((st.client addr).pttPress env next).2.2 }
  | release {st addr} (env next : Env) (hmember : addr ∈ setup.members) (haccepts : env.Accepts)
      (hnext : next.Accepts) :
      Step setup st .call
        { st.setClient addr ((st.client addr).pttRelease env next).2.1 with
          net := st.net ++ posts addr ((st.client addr).pttRelease env next).2.2 }
  | relay {st packet before after} (env : RelayEnv) (hnet : st.net = before ++ packet :: after)
      (hdest : packet.dest = setup.relay) (hclock : (st.now :: readings env).Pairwise (· ≤ ·)) :
      Step setup st (.relay packet env)
        { st with
          router := (Udp.handle st.router env packet.data packet.source).1
          net := before ++ after ++
            relayPosts setup.relay (Udp.handle st.router env packet.data packet.source).2
          now := env.releasedAt }
  | client {st packet before after} (env : Env) (hnet : st.net = before ++ packet :: after)
      (hmember : packet.dest ∈ setup.members) (haccepts : env.Accepts) :
      Step setup st .client
        { st.setClient packet.dest
            ((st.client packet.dest).processDatagram setup.aead env
              ⟨packet.data, packet.source⟩).session with
          net := before ++ after ++ posts packet.dest
            ((st.client packet.dest).processDatagram setup.aead env
              ⟨packet.data, packet.source⟩).sent }

/-- The members, and nobody else, are the peers of the session in the relay's table. -/
def Seats (setup : Setup) (entry : RouteEntry) : Prop :=
  ∀ endpoint, endpoint ∈ entry.peers ↔ ∃ addr ∈ setup.members, endpoint = .udp addr

structure Joined (setup : Setup) (session : Session) : Prop where
  sessionId : session.sessionId = setup.sessionId
  peer : session.peer = some setup.relay
  mtu : pttMtu ≤ session.config.mtu

structure Start (setup : Setup) (st : State) : Prop where
  sessionId : setup.sessionId ≠ 0
  relay : setup.relay ∉ setup.members
  seats : ∃ entry, st.router.routes[setup.sessionId]? = some entry ∧ Seats setup entry
  joined : ∀ addr ∈ setup.members, Joined setup (st.client addr)
  silent : ∀ addr ∈ setup.members, (st.client addr).pttActive = false
  net : st.net = []

def IsType (packet : NetPacket) (msg : MessageType) : Prop :=
  ∃ view, PacketView.decode packet.data = .ok view ∧
    MessageType.fromCode view.header.msgType = .ok msg

/-- A request of `addr`, or a refusal for it, is still on its way. -/
def Pending (setup : Setup) (st : State) (addr : SocketAddr) : Prop :=
  ∃ packet ∈ st.net, (packet.source = addr ∧ packet.dest = setup.relay ∧
    IsType packet .floorRequest) ∨ (packet.dest = addr ∧ IsType packet .floorDeny)

/-- The datagram takes the floor away from the one who holds it: its own release, or any request
or release once its time is over. -/
def Frees (packet : NetPacket) (env : RelayEnv) (entry : RouteEntry) (holder : SocketAddr) : Prop :=
  (IsType packet .floorRequest ∧ Router.Expired entry env.clock.readings) ∨
    (IsType packet .floorRelease ∧ (packet.source = holder ∨ entry.floorIsFree env.releasedAt))

/-- Nobody loses the floor while talking, unless that client is about to hear of it or has a new
request on its way. -/
def Heard (setup : Setup) (st : State) : Label → Prop
  | .relay packet env => ∀ entry holder, st.router.routes[setup.sessionId]? = some entry →
      entry.floorHolder = some holder → Frees packet env entry holder →
        (st.client holder).pttActive = true → Pending setup st holder
  | _ => True

def memberCalls : List MessageType := [.floorRequest, .floorRelease, .controlResume, .controlPause]

inductive Turn (k : UInt32) (sender : SocketAddr) (env : RelayEnv) (data : Bytes)
    (entry : RouteEntry) : MessageType → RouteEntry → List Forwarded → Prop where
  | granted (hfree : entry.floorHolder = none ∨ Router.Expired entry env.clock.readings) :
      Turn k sender env data entry .floorRequest
        { entry with
          lastActivity := env.routedAt
          floorHolder := some sender
          floorGrantedAt := some env.clock.grant }
        (Udp.replies k sender (.granted (entry.others (.udp sender))))
  | denied (hheld : entry.floorHolder ≠ none)
      (hvalid : ¬Router.Expired entry [env.clock.recheck]) :
      Turn k sender env data entry .floorRequest { entry with lastActivity := env.routedAt }
        (Udp.replies k sender .denied)
  | released (hfree : entry.floorHolder = some sender ∨ entry.floorIsFree env.releasedAt) :
      Turn k sender env data entry .floorRelease
        { entry with floorHolder := none, floorGrantedAt := none }
        ((entry.others (.udp sender)).map (⟨·, Udp.floorBytes .floorRelease k⟩))
  | refused : Turn k sender env data entry .floorRelease entry []
  | passed {msg} (hrequest : msg ≠ .floorRequest) (hrelease : msg ≠ .floorRelease) :
      Turn k sender env data entry msg { entry with lastActivity := env.routedAt }
        ((entry.others (.udp sender)).map (⟨·, data⟩))

section Turns
variable {router : Router} (env : RelayEnv) {data : Bytes} {sender : SocketAddr} {k : UInt32}
  {entry : RouteEntry} (hzero : k ≠ 0) (hentry : router.routes[k]? = some entry)
  (hknown : .udp sender ∈ entry.peers)
include hzero hentry hknown

theorem turn_request (hpacket : IsPacket data .floorRequest k) :
    ∃ after, (Udp.handle router env data sender).1.routes[k]? = some after ∧
      Turn k sender env data entry .floorRequest after (Udp.handle router env data sender).2 := by
  obtain ⟨view, hdecode, htype, hid⟩ := hpacket.decodes
  have hroute : (router.received data.length).route k (.udp sender) env.routedAt = _ :=
    Router.route_known env.routedAt hzero hentry hknown
  have hmsg : MessageType.fromCode view.header.msgType = .ok .floorRequest := by rw [htype]; rfl
  rw [Udp.handle_request hdecode sender hmsg, hid, hroute]
  set stored := (router.received data.length).store k { entry with lastActivity := env.routedAt }
  have hstored : stored.routes[k]? = some { entry with lastActivity := env.routedAt } := by
    rw [Router.lookup_store_self]
  have hdecided := stored.floorRequest_requested k sender env.clock
  generalize stored.floorRequest k sender env.clock = result at hdecided
  obtain ⟨after, decision⟩ := result
  dsimp only at hdecided
  obtain ⟨htable, hsent⟩ := Udp.answerRequest_eq env hdecided
  rw [htable.1, hsent]
  cases hdecided with
  | unknown hunknown => exact absurd (hunknown _ hstored) (not_not.mpr hknown)
  | denied hfound _ hheld hvalid =>
    obtain rfl := Option.some.inj (hstored.symm.trans hfound)
    exact ⟨_, hstored, .denied hheld hvalid⟩
  | granted hfound _ hfree =>
    obtain rfl := Option.some.inj (hstored.symm.trans hfound)
    exact ⟨_, Router.lookup_store_self .., .granted hfree⟩

omit hzero hknown in
theorem turn_release (hpacket : IsPacket data .floorRelease k) :
    ∃ after, (Udp.handle router env data sender).1.routes[k]? = some after ∧
      Turn k sender env data entry .floorRelease after (Udp.handle router env data sender).2 := by
  obtain ⟨view, hdecode, htype, hid⟩ := hpacket.decodes
  have hmsg : MessageType.fromCode view.header.msgType = .ok .floorRelease := by rw [htype]; rfl
  rw [Udp.handle_release hdecode sender hmsg, hid]
  have hdecided := (router.received data.length).floorRelease_released k sender env.releasedAt
  generalize (router.received data.length).floorRelease k sender env.releasedAt = result
    at hdecided
  obtain ⟨after, decision⟩ := result
  dsimp only at hdecided
  obtain ⟨htable, hsent⟩ := Udp.answerRelease_eq env hdecided
  rw [htable.1, hsent]
  cases hdecided with
  | unknown hnone => exact absurd (hentry.symm.trans hnone) (by simp)
  | denied => exact ⟨entry, hentry, .refused⟩
  | released hfound hfree =>
    obtain rfl := Option.some.inj (hentry.symm.trans hfound)
    exact ⟨_, Router.lookup_store_self .., .released hfree⟩

theorem turn_passed {msg : MessageType} (hpacket : IsPacket data msg k)
    (hmsg : msg = .controlResume ∨ msg = .controlPause) :
    ∃ after, (Udp.handle router env data sender).1.routes[k]? = some after ∧
      Turn k sender env data entry msg after (Udp.handle router env data sender).2 := by
  obtain ⟨view, hdecode, htype, hid⟩ := hpacket.decodes
  have hcode : MessageType.fromCode view.header.msgType = .ok msg := by
    rw [htype]
    obtain rfl | rfl := hmsg <;> rfl
  have hrequest : msg ≠ .floorRequest := by obtain rfl | rfl := hmsg <;> simp
  have hrelease : msg ≠ .floorRelease := by obtain rfl | rfl := hmsg <;> simp
  have hroute : (router.received data.length).route k (.udp sender) env.routedAt = _ :=
    Router.route_known env.routedAt hzero hentry hknown
  rw [Udp.handle_other hdecode sender (by simp [hcode, hrequest]) (by simp [hcode, hrelease]), hid,
    hroute]
  obtain ⟨htable, hsent⟩ := (Udp.sends_forwardTo env data).forwardAll
    ((router.received data.length).store k { entry with lastActivity := env.routedAt },
      .toAll (entry.others (.udp sender)))
  rw [htable.1, hsent, RouteDecision.targets_toAll]
  exact ⟨_, Router.lookup_store_self .., .passed hrequest hrelease⟩

theorem handle_turn {msg : MessageType} (hpacket : IsPacket data msg k)
    (hmsg : msg ∈ memberCalls) :
    ∃ after, (Udp.handle router env data sender).1.routes[k]? = some after ∧
      Turn k sender env data entry msg after (Udp.handle router env data sender).2 := by
  simp only [memberCalls, List.mem_cons, List.not_mem_nil, or_false] at hmsg
  obtain rfl | rfl | hmsg := hmsg
  · exact turn_request env hzero hentry hknown hpacket
  · exact turn_release env hentry hpacket
  · exact turn_passed env hzero hentry hknown hpacket hmsg

end Turns

theorem isPacket_floorBytes (msg : MessageType) (k : UInt32) :
    IsPacket (Udp.floorBytes msg k) msg k :=
  isPacket_bytes msg k 0 0 (by simp)

theorem Turn.sent {k : UInt32} {sender : SocketAddr} {env : RelayEnv} {data : Bytes}
    {entry after : RouteEntry} {msg : MessageType} {out : List Forwarded}
    (h : Turn k sender env data entry msg after out) (hknown : .udp sender ∈ entry.peers)
    (hpacket : IsPacket data msg k) (hmsg : msg ∈ memberCalls) {forwarded : Forwarded}
    (hmem : forwarded ∈ out) :
    forwarded.target ∈ entry.peers ∧ ∃ news ∈ Session.floorNews, IsPacket forwarded.data news k ∧
      (news = .floorDeny → msg = .floorRequest ∧ entry.floorHolder ≠ none ∧
        ¬Router.Expired entry [env.clock.recheck]) := by
  have hothers : ∀ {bytes news}, news ∈ Session.floorNews → news ≠ .floorDeny →
      IsPacket bytes news k → forwarded ∈ (entry.others (.udp sender)).map (⟨·, bytes⟩) →
      forwarded.target ∈ entry.peers ∧ ∃ news ∈ Session.floorNews, IsPacket forwarded.data news k ∧
        (news = .floorDeny → msg = .floorRequest ∧ entry.floorHolder ≠ none ∧
          ¬Router.Expired entry [env.clock.recheck]) := by
    intro bytes news hnews hne hbytes hforwarded
    obtain ⟨target, htarget, rfl⟩ := List.mem_map.mp hforwarded
    exact ⟨((RouteEntry.mem_others _ _ _).mp htarget).1, news, hnews, hbytes,
      fun hdeny => absurd hdeny hne⟩
  cases h with
  | granted =>
    obtain rfl | hforwarded := List.mem_cons.mp hmem
    · exact ⟨hknown, .floorGrant, by simp [Session.floorNews], isPacket_floorBytes _ _, by simp⟩
    · exact hothers (by simp [Session.floorNews]) (by simp) (isPacket_floorBytes .floorTaken k)
        hforwarded
  | denied hheld hvalid =>
    obtain rfl := List.mem_singleton.mp hmem
    exact ⟨hknown, .floorDeny, by simp [Session.floorNews], isPacket_floorBytes _ _,
      fun _ => ⟨rfl, hheld, hvalid⟩⟩
  | released =>
    exact hothers (by simp [Session.floorNews]) (by simp) (isPacket_floorBytes .floorRelease k) hmem
  | refused => cases hmem
  | passed hrequest hrelease =>
    have hcontrol : msg = .controlResume ∨ msg = .controlPause := by
      simpa [memberCalls, hrequest, hrelease] using hmsg
    refine hothers ?_ ?_ hpacket hmem
    · obtain rfl | rfl := hcontrol <;> simp [Session.floorNews]
    · obtain rfl | rfl := hcontrol <;> simp

theorem isType_iff {packet : NetPacket} {msg : MessageType} {k : UInt32}
    (hpacket : IsPacket packet.data msg k) (hmsg : msg ∈ memberCalls ++ Session.floorNews)
    (other : MessageType) : IsType packet other ↔ other = msg := by
  obtain ⟨view, hdecode, htype, -⟩ := hpacket.decodes
  have hcode : MessageType.fromCode view.header.msgType = .ok msg := by
    rw [htype]
    simp only [memberCalls, Session.floorNews, List.cons_append, List.nil_append, List.mem_cons,
      List.not_mem_nil, or_false] at hmsg
    rcases hmsg with rfl | rfl | rfl | rfl | rfl | rfl | rfl | rfl | rfl | rfl <;> rfl
  constructor
  · rintro ⟨found, hfound, hother⟩
    obtain rfl := Except.ok.inj (hdecode.symm.trans hfound)
    exact Except.ok.inj (hother.symm.trans hcode)
  · rintro rfl
    exact ⟨view, hdecode, hcode⟩

structure FromMember (setup : Setup) (packet : NetPacket) (msg : MessageType) : Prop where
  type : msg ∈ memberCalls
  form : IsPacket packet.data msg setup.sessionId
  source : packet.source ∈ setup.members
  dest : packet.dest = setup.relay

structure FromRelay (setup : Setup) (packet : NetPacket) (msg : MessageType) : Prop where
  type : msg ∈ Session.floorNews
  form : IsPacket packet.data msg setup.sessionId
  dest : packet.dest ∈ setup.members

def Holds (setup : Setup) (st : State) (addr : SocketAddr) : Prop :=
  ∃ entry, st.router.routes[setup.sessionId]? = some entry ∧ entry.floorHolder = some addr

structure Inv (setup : Setup) (st : State) : Prop where
  seats : ∃ entry, st.router.routes[setup.sessionId]? = some entry ∧ Seats setup entry
  joined : ∀ addr ∈ setup.members, Joined setup (st.client addr)
  net : ∀ packet ∈ st.net, ∃ msg, FromMember setup packet msg ∨ FromRelay setup packet msg
  talking : ∀ addr ∈ setup.members, (st.client addr).pttActive = true →
    Holds setup st addr ∨ Pending setup st addr

theorem Start.inv {setup : Setup} {st : State} (h : Start setup st) : Inv setup st where
  seats := h.seats
  joined := h.joined
  net := by simp [h.net]
  talking addr hmember hactive := by simp [h.silent addr hmember] at hactive

theorem Joined.same {setup : Setup} {s s' : Session} (h : Joined setup s)
    (hsame : Session.SameParty s s') : Joined setup s' :=
  ⟨hsame.sessionId.trans h.sessionId, hsame.peer.trans h.peer, by rw [hsame.config]; exact h.mtu⟩

theorem Pending.mono {setup : Setup} {st st' : State} {addr : SocketAddr}
    (h : Pending setup st addr) (hsub : st.net ⊆ st'.net) : Pending setup st' addr := by
  obtain ⟨packet, hmem, h⟩ := h
  exact ⟨packet, hsub hmem, h⟩

section Steps
variable {setup : Setup} {st : State}

theorem Inv.switches (h : Inv setup st) {addr : SocketAddr} (hmember : addr ∈ setup.members)
    {active : Bool} {floor control : MessageType} {env next : Env} (haccepts : env.Accepts)
    (hnext : next.Accepts) (hfloor : floor ∈ memberCalls) (hcontrol : control ∈ memberCalls)
    (hasks : active = true → floor = .floorRequest) :
    Inv setup { st.setClient addr
        ((st.client addr).pttSwitch active floor control env next).2.1 with
      net := st.net ++ posts addr
        ((st.client addr).pttSwitch active floor control env next).2.2 } := by
  have hjoined := h.joined addr hmember
  obtain ⟨after, first, second, hswitch, hsame, hactive, hfirst, hsecond⟩ :=
    (st.client addr).pttSwitch_accepted active floor control hjoined.peer hjoined.mtu haccepts hnext
  rw [hjoined.sessionId] at hfirst hsecond
  rw [hswitch]
  have hkept : st.net ⊆ st.net ++ posts addr [⟨first, setup.relay⟩, ⟨second, setup.relay⟩] :=
    List.subset_append_left _ _
  refine ⟨h.seats, fun other hother => ?_, fun packet hpacket => ?_, fun other hother htalks => ?_⟩
  · by_cases heq : other = addr
    · subst heq
      simpa using hjoined.same hsame
    · rw [State.setClient_ne heq]
      exact h.joined other hother
  · obtain hold | hnew := List.mem_append.mp hpacket
    · exact h.net packet hold
    · simp only [posts, List.map_cons, List.map_nil, List.mem_cons, List.not_mem_nil,
        or_false] at hnew
      obtain rfl | rfl := hnew
      · exact ⟨floor, .inl ⟨hfloor, hfirst, hmember, rfl⟩⟩
      · exact ⟨control, .inl ⟨hcontrol, hsecond, hmember, rfl⟩⟩
  · by_cases heq : other = addr
    · subst heq
      rw [State.setClient_same, hactive] at htalks
      obtain rfl := hasks htalks
      refine .inr ⟨⟨other, setup.relay, first⟩, by simp [posts], .inl ⟨rfl, rfl, ?_⟩⟩
      exact (isType_iff hfirst (by simp [memberCalls]) _).mpr rfl
    · rw [State.setClient_ne heq] at htalks
      exact (h.talking other hother htalks).imp_right (·.mono hkept)

theorem mem_relayPosts {relay : SocketAddr} {out : List Forwarded} {packet : NetPacket}
    (h : packet ∈ relayPosts relay out) : ⟨.udp packet.dest, packet.data⟩ ∈ out := by
  obtain ⟨⟨target, data⟩, hmem, hpost⟩ := List.mem_filterMap.mp h
  cases target with
  | udp addr =>
    obtain rfl := Option.some.inj hpost
    exact hmem
  | webSocket tx => cases hpost

theorem relayPosts_of_mem (relay : SocketAddr) {out : List Forwarded} {addr : SocketAddr}
    {data : Bytes} (h : ⟨.udp addr, data⟩ ∈ out) : ⟨relay, addr, data⟩ ∈ relayPosts relay out :=
  List.mem_filterMap.mpr ⟨_, h, rfl⟩

/-- A turn that leaves somebody who held the floor without it has freed it. -/
theorem Turn.frees {k : UInt32} {env : RelayEnv} {packet : NetPacket} {entry after : RouteEntry}
    {msg : MessageType} {out : List Forwarded}
    (h : Turn k packet.source env packet.data entry msg after out)
    (hpacket : IsPacket packet.data msg k) (hmsg : msg ∈ memberCalls) {holder : SocketAddr}
    (hholder : entry.floorHolder = some holder) :
    after.floorHolder = some holder ∨ Frees packet env entry holder := by
  have htype := (isType_iff hpacket (List.mem_append_left _ hmsg) msg).mpr rfl
  cases h with
  | granted hfree =>
    obtain hnone | hexpired := hfree
    · simp [hholder] at hnone
    · exact .inr (.inl ⟨htype, hexpired⟩)
  | denied => exact .inl hholder
  | released hfree =>
    refine .inr (.inr ⟨htype, hfree.imp_left fun hown => ?_⟩)
    simpa [hholder] using hown.symm
  | refused => exact .inl hholder
  | passed => exact .inl hholder

/-- After a request its sender holds the floor or is being refused. -/
theorem Turn.answers {k : UInt32} {sender : SocketAddr} {env : RelayEnv} {data : Bytes}
    {entry after : RouteEntry} {out : List Forwarded}
    (h : Turn k sender env data entry .floorRequest after out) :
    after.floorHolder = some sender ∨ ⟨.udp sender, Udp.floorBytes .floorDeny k⟩ ∈ out := by
  cases h with
  | granted => exact .inl rfl
  | denied => exact .inr (by simp [Udp.replies])
  | passed hrequest => exact absurd rfl hrequest

theorem Turn.peers {k : UInt32} {sender : SocketAddr} {env : RelayEnv} {data : Bytes}
    {entry after : RouteEntry} {msg : MessageType} {out : List Forwarded}
    (h : Turn k sender env data entry msg after out) : after.peers = entry.peers := by
  cases h <;> rfl

theorem mem_split {packet other : NetPacket} {before after : List NetPacket}
    (h : other ∈ before ++ packet :: after) : other = packet ∨ other ∈ before ++ after := by
  simp only [List.mem_append, List.mem_cons] at h ⊢
  tauto

theorem Inv.relays (h : Inv setup st) (hzero : setup.sessionId ≠ 0)
    (hrelay : setup.relay ∉ setup.members) {packet : NetPacket} {before rest : List NetPacket}
    (env : RelayEnv) (hnet : st.net = before ++ packet :: rest) (hdest : packet.dest = setup.relay)
    (hheard : Heard setup st (.relay packet env)) :
    Inv setup { st with
      router := (Udp.handle st.router env packet.data packet.source).1
      net := before ++ rest ++
        relayPosts setup.relay (Udp.handle st.router env packet.data packet.source).2
      now := env.releasedAt } := by
  obtain ⟨entry, hentry, hseats⟩ := h.seats
  obtain ⟨msg, hmember | hback⟩ := h.net packet (by simp [hnet])
  swap
  · exact absurd (hdest ▸ hback.dest) hrelay
  have hknown : .udp packet.source ∈ entry.peers := (hseats _).mpr ⟨_, hmember.source, rfl⟩
  obtain ⟨after, hafter, hturn⟩ := handle_turn env hzero hentry hknown hmember.form hmember.type
  generalize Udp.handle st.router env packet.data packet.source = result at hafter hturn ⊢
  obtain ⟨router, out⟩ := result
  -- what was pending stays so, but for the request that is being answered
  have hpending : ∀ addr, Pending setup st addr →
      after.floorHolder = some addr ∨ ∃ other ∈ before ++ rest ++ relayPosts setup.relay out,
        (other.source = addr ∧ other.dest = setup.relay ∧ IsType other .floorRequest) ∨
          (other.dest = addr ∧ IsType other .floorDeny) := by
    rintro addr ⟨other, hother, hkind⟩
    obtain rfl | hstays := mem_split (hnet ▸ hother)
    · have htype := isType_iff hmember.form (List.mem_append_left _ hmember.type)
      obtain ⟨rfl, -, hrequest⟩ | ⟨-, hdeny⟩ := hkind
      · obtain rfl := (htype _).mp hrequest
        obtain hholds | hdenied := hturn.answers
        · exact .inl hholds
        · refine .inr ⟨⟨setup.relay, other.source, _⟩,
            List.mem_append_right _ (relayPosts_of_mem _ hdenied), .inr ⟨rfl, ?_⟩⟩
          exact (isType_iff (isPacket_floorBytes .floorDeny setup.sessionId)
            (by simp [Session.floorNews]) _).mpr rfl
      · have hcall := hmember.type
        rw [← (htype _).mp hdeny] at hcall
        simp [memberCalls] at hcall
    · exact .inr ⟨other, List.mem_append_left _ hstays, hkind⟩
  refine ⟨⟨after, hafter, ?_⟩, h.joined, fun other hother => ?_, fun addr haddr hactive => ?_⟩
  · intro endpoint
    rw [hturn.peers]
    exact hseats endpoint
  · obtain hold | hnew := List.mem_append.mp hother
    · refine h.net other ?_
      rw [hnet]
      simp only [List.mem_append, List.mem_cons] at hold ⊢
      tauto
    · obtain ⟨htarget, news, hnews, hform, -⟩ :=
        hturn.sent hknown hmember.form hmember.type (mem_relayPosts hnew)
      obtain ⟨addr, haddr, heq⟩ := (hseats _).mp htarget
      injection heq with heq
      exact ⟨news, .inr ⟨hnews, hform, heq ▸ haddr⟩⟩
  · have hsettles : after.floorHolder = some addr ∨ Pending setup st addr := by
      obtain ⟨found, hfound, hholder⟩ | hpend := h.talking addr haddr hactive
      · obtain rfl := Option.some.inj (hentry.symm.trans hfound)
        refine (hturn.frees hmember.form hmember.type hholder).imp_right fun hfrees => ?_
        exact hheard entry addr hentry hholder hfrees hactive
      · exact .inr hpend
    obtain hholds | hpend := hsettles
    · exact .inl ⟨after, hafter, hholds⟩
    · exact (hpending addr hpend).imp_left fun hholds => ⟨after, hafter, hholds⟩

theorem Inv.hears (h : Inv setup st) (hrelay : setup.relay ∉ setup.members) {packet : NetPacket}
    {before rest : List NetPacket} (env : Env) (hnet : st.net = before ++ packet :: rest)
    (hmember : packet.dest ∈ setup.members) :
    Inv setup { st.setClient packet.dest
        ((st.client packet.dest).processDatagram setup.aead env
          ⟨packet.data, packet.source⟩).session with
      net := before ++ rest ++ posts packet.dest
        ((st.client packet.dest).processDatagram setup.aead env
          ⟨packet.data, packet.source⟩).sent } := by
  have hjoined := h.joined packet.dest hmember
  obtain ⟨msg, hcall | hnews⟩ := h.net packet (by simp [hnet])
  · exact absurd (hcall.dest ▸ hmember) hrelay
  obtain ⟨after, hprocess, hsame, hactive⟩ :=
    (st.client packet.dest).processDatagram_news setup.aead env packet.source hnews.type hnews.form
      hjoined.mtu
  have hsub : before ++ rest ⊆ st.net := by
    intro other hother
    rw [hnet]
    simp only [List.mem_append, List.mem_cons] at hother ⊢
    tauto
  rw [hprocess]
  simp only [Session.quiet, posts, List.map_nil, List.append_nil]
  refine ⟨h.seats, fun addr haddr => ?_, fun other hother => h.net other (hsub hother),
    fun addr haddr htalks => ?_⟩
  · by_cases heq : addr = packet.dest
    · subst heq
      simpa using hjoined.same hsame
    · rw [State.setClient_ne heq]
      exact h.joined addr haddr
  · -- the datagram that was taken is not what the client is waiting for
    have hactive' : (st.client addr).pttActive = true ∧
        (addr = packet.dest → msg ≠ .floorDeny) := by
      by_cases heq : addr = packet.dest
      · subst heq
        rw [State.setClient_same, hactive] at htalks
        simpa using htalks
      · rw [State.setClient_ne heq] at htalks
        exact ⟨htalks, fun hdest => absurd hdest heq⟩
    refine (h.talking addr haddr hactive'.1).imp_right ?_
    rintro ⟨other, hother, hkind⟩
    obtain rfl | hstays := mem_split (hnet ▸ hother)
    · obtain ⟨-, hdest, -⟩ | ⟨rfl, hdeny⟩ := hkind
      · exact absurd (hdest ▸ hmember) hrelay
      · have hmsg := (isType_iff hnews.form (List.mem_append_right _ hnews.type) _).mp hdeny
        exact absurd hmsg.symm (hactive'.2 rfl)
    · exact ⟨other, hstays, hkind⟩

theorem Inv.step (h : Inv setup st) (hzero : setup.sessionId ≠ 0)
    (hrelay : setup.relay ∉ setup.members) {label : Label} {st' : State}
    (hstep : Step setup st label st') (hheard : Heard setup st label) : Inv setup st' := by
  cases hstep with
  | press env next hmember haccepts hnext =>
    exact h.switches hmember haccepts hnext (by simp [memberCalls]) (by simp [memberCalls])
      fun _ => rfl
  | release env next hmember haccepts hnext =>
    exact h.switches hmember haccepts hnext (by simp [memberCalls]) (by simp [memberCalls])
      (by simp)
  | relay env hnet hdest hclock => exact h.relays hzero hrelay env hnet hdest hheard
  | client env hnet hmember haccepts => exact h.hears hrelay env hnet hmember

end Steps

end GravitalTalk.Relay.Talkers
