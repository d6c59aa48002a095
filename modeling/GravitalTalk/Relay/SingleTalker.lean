import GravitalTalk.Relay.Talkers
import GravitalTalk.Transport.HandshakeRun

/-! How many members talk at once when nothing is on its way. -/
namespace GravitalTalk.Relay.Talkers
open Lib GravitalTalk.Core Transport Transition
open Handshake (NetPacket posts quietEnv quietEnv_accepts)

section Granted
variable {setup : Setup} {allowed : State → Label → Prop}

structure SameTalkers (setup : Setup) (st st' : State) : Prop where
  joined : ∀ addr ∈ setup.members, Joined setup (st'.client addr)
  flags : ∀ addr, (st'.client addr).pttActive = (st.client addr).pttActive
  router : st'.router = st.router
  now : st'.now = st.now

theorem drains (hclient : ∀ u, allowed u .client) (net : List NetPacket) (st : State)
    (hnet : st.net = net) (hjoined : ∀ addr ∈ setup.members, Joined setup (st.client addr))
    (hnews : ∀ packet ∈ net, ∃ msg, FromRelay setup packet msg ∧ msg ≠ .floorDeny) :
    ∃ st', Reaches (Step setup) allowed st st' ∧ st'.net = [] ∧ SameTalkers setup st st' := by
  induction net generalizing st with
  | nil => exact ⟨st, .refl st, hnet, hjoined, fun _ => rfl, rfl, rfl⟩
  | cons packet rest ih =>
    obtain ⟨msg, hpacket, hmsg⟩ := hnews packet (List.mem_cons_self ..)
    obtain ⟨after, hprocess, hsame, hactive⟩ :=
      (st.client packet.dest).processDatagram_news setup.aead quietEnv packet.source hpacket.type
        hpacket.form (hjoined _ hpacket.dest).mtu
    have hstep : Step setup st .client { st.setClient packet.dest after with net := rest } := by
      have hfront : st.net = [] ++ packet :: rest := hnet
      have htakes : Step setup st .client _ := .client quietEnv hfront hpacket.dest quietEnv_accepts
      rw [hprocess] at htakes
      simpa [Session.quiet, posts] using htakes
    have hflags : ∀ addr, ((st.setClient packet.dest after).client addr).pttActive =
        (st.client addr).pttActive := by
      intro addr
      by_cases heq : addr = packet.dest
      · subst heq
        simpa [hmsg] using hactive
      · rw [State.setClient_ne heq]
    have hjoined' : ∀ addr ∈ setup.members,
        Joined setup ((st.setClient packet.dest after).client addr) := by
      intro addr haddr
      by_cases heq : addr = packet.dest
      · subst heq
        simpa using (hjoined _ haddr).same hsame
      · rw [State.setClient_ne heq]
        exact hjoined addr haddr
    obtain ⟨st', hrun, hempty, hafter⟩ := ih { st.setClient packet.dest after with net := rest } rfl
      hjoined' fun other hother => hnews other (List.mem_cons_of_mem _ hother)
    have hfirst : Reaches (Step setup) allowed st _ := (Reaches.refl st).tail hstep (hclient st)
    exact ⟨st', hfirst.trans hrun, hempty, hafter.joined,
      fun addr => (hafter.flags addr).trans (hflags addr), hafter.router, hafter.now⟩

def turnAt (t : Nat) : RelayEnv :=
  ⟨t, ⟨t, t, t, t⟩, t, fun data _ => some data.length, fun _ => true⟩

theorem turnAt_ordered {now t : Nat} (h : now ≤ t) :
    (now :: readings (turnAt t)).Pairwise (· ≤ ·) := by
  simp [readings, turnAt, FloorClock.readings, h]

structure AtRest (setup : Setup) (st : State) (entry : RouteEntry) : Prop where
  net : st.net = []
  listed : st.router.routes[setup.sessionId]? = some entry
  seats : Seats setup entry
  joined : ∀ addr ∈ setup.members, Joined setup (st.client addr)

theorem Turn.grants {k : UInt32} {sender : SocketAddr} {env : RelayEnv} {data : Bytes}
    {entry after : RouteEntry} {out : List Forwarded}
    (h : Turn k sender env data entry .floorRequest after out)
    (hfree : entry.floorHolder = none ∨ Router.Expired entry [env.clock.recheck]) :
    after.floorHolder = some sender ∧ after.floorGrantedAt = some env.clock.grant := by
  cases h with
  | granted => exact ⟨rfl, rfl⟩
  | denied hheld hvalid => exact absurd hfree (not_or.mpr ⟨hheld, hvalid⟩)
  | passed hrequest => exact absurd rfl hrequest

theorem Turn.resumes {k : UInt32} {sender : SocketAddr} {env : RelayEnv} {data : Bytes}
    {entry after : RouteEntry} {out : List Forwarded}
    (h : Turn k sender env data entry .controlResume after out) :
    after.floorHolder = entry.floorHolder ∧ after.floorGrantedAt = entry.floorGrantedAt := by
  cases h
  exact ⟨rfl, rfl⟩

theorem Turn.news {sender : SocketAddr} {env : RelayEnv} {data : Bytes}
    {entry after : RouteEntry} {msg : MessageType} {out : List Forwarded}
    (h : Turn setup.sessionId sender env data entry msg after out) (hseats : Seats setup entry)
    (hmember : sender ∈ setup.members) (hpacket : IsPacket data msg setup.sessionId)
    (hmsg : msg ∈ memberCalls)
    (hfree : msg = .floorRequest →
      entry.floorHolder = none ∨ Router.Expired entry [env.clock.recheck]) :
    ∀ packet ∈ relayPosts setup.relay out, ∃ news, FromRelay setup packet news ∧
      news ≠ .floorDeny := by
  intro packet hmem
  have hknown : .udp sender ∈ entry.peers := (hseats _).mpr ⟨_, hmember, rfl⟩
  obtain ⟨htarget, news, hnews, hform, hdeny⟩ := h.sent hknown hpacket hmsg (mem_relayPosts hmem)
  obtain ⟨addr, haddr, heq⟩ := (hseats _).mp htarget
  injection heq with heq
  refine ⟨news, ⟨hnews, hform, heq ▸ haddr⟩, fun hrefuses => ?_⟩
  obtain ⟨hrequest, hheld, hvalid⟩ := hdeny hrefuses
  exact (hfree hrequest).elim hheld hvalid

/-- A press while the floor is free at `t` is granted, everybody hears of it, and the flags of the
others stay as they are. -/
theorem press_granted {st : State} {entry : RouteEntry} {addr : SocketAddr} {t : Nat}
    (hrest : AtRest setup st entry) (hzero : setup.sessionId ≠ 0) (hmember : addr ∈ setup.members)
    (hfree : entry.floorHolder = none ∨ Router.Expired entry [t]) (hnow : st.now ≤ t)
    (hcall : ∀ u, allowed u .call) (hclient : ∀ u, allowed u .client)
    (hrequest : ∀ u packet env, u.router = st.router → allowed u (.relay packet env))
    (hresume : ∀ u packet env, IsType packet .controlResume → allowed u (.relay packet env)) :
    ∃ st' entry', Reaches (Step setup) allowed st st' ∧ AtRest setup st' entry' ∧ st'.now = t ∧
      entry'.floorHolder = some addr ∧ entry'.floorGrantedAt = some t ∧
        (st'.client addr).pttActive = true ∧
          ∀ other, other ≠ addr → (st'.client other).pttActive = (st.client other).pttActive := by
  have hjoined := hrest.joined addr hmember
  obtain ⟨pressed, first, second, hswitch, hsame, hactive, hfirst, hsecond⟩ :=
    (st.client addr).pttSwitch_accepted true .floorRequest .controlResume hjoined.peer hjoined.mtu
      quietEnv_accepts quietEnv_accepts
  rw [hjoined.sessionId] at hfirst hsecond
  have hpress : Step setup st .call { st.setClient addr pressed with
      net := [⟨addr, setup.relay, first⟩, ⟨addr, setup.relay, second⟩] } := by
    have hpress : Step setup st .call _ := .press quietEnv quietEnv hmember quietEnv_accepts
      quietEnv_accepts
    rw [Session.pttPress, hswitch, hrest.net] at hpress
    exact hpress
  have hknown : .udp addr ∈ entry.peers := (hrest.seats _).mpr ⟨_, hmember, rfl⟩
  obtain ⟨held, hheld, hturn⟩ := handle_turn (turnAt t) hzero hrest.listed hknown hfirst
    (by simp [memberCalls])
  have hseats : Seats setup held := fun endpoint => by rw [hturn.peers]; exact hrest.seats endpoint
  obtain ⟨kept, hkept, hturn'⟩ := handle_turn (turnAt t) hzero hheld
    ((hseats _).mpr ⟨_, hmember, rfl⟩) hsecond (by simp [memberCalls])
  obtain ⟨hholder, hstamp⟩ := hturn.grants hfree
  obtain ⟨hholder', hstamp'⟩ := hturn'.resumes
  -- the relay takes the request and then the resume
  have hresumes : IsType ⟨addr, setup.relay, second⟩ .controlResume :=
    (isType_iff hsecond (by simp [memberCalls]) _).mpr rfl
  set asked := Udp.handle st.router (turnAt t) first addr
  set told := Udp.handle asked.1 (turnAt t) second addr
  have hpressed : Reaches (Step setup) allowed st _ := (Reaches.refl st).tail hpress (hcall st)
  have hasked := hpressed.tail
    (@Step.relay setup _ _ [] _ (turnAt t) rfl rfl (turnAt_ordered hnow)) (hrequest _ _ _ rfl)
  have htold : Reaches (Step setup) allowed st { st.setClient addr pressed with
      router := told.1
      net := relayPosts setup.relay asked.2 ++ relayPosts setup.relay told.2
      now := t } :=
    hasked.tail (@Step.relay setup _ _ [] _ (turnAt t) rfl rfl (turnAt_ordered le_rfl))
      (hresume _ _ _ hresumes)
  have hnews : ∀ packet ∈ relayPosts setup.relay asked.2 ++ relayPosts setup.relay told.2,
      ∃ msg, FromRelay setup packet msg ∧ msg ≠ .floorDeny := by
    intro packet hpacket
    obtain hone | htwo := List.mem_append.mp hpacket
    · exact hturn.news hrest.seats hmember hfirst (by simp [memberCalls]) (fun _ => hfree) packet
        hone
    · exact hturn'.news hseats hmember hsecond (by simp [memberCalls]) (by simp) packet htwo
  have hjoined' : ∀ other ∈ setup.members,
      Joined setup ((st.setClient addr pressed).client other) := by
    intro other hother
    by_cases heq : other = addr
    · subst heq
      simpa using hjoined.same hsame
    · rw [State.setClient_ne heq]
      exact hrest.joined other hother
  obtain ⟨st', hdrains, hempty, htalkers⟩ := drains hclient _ { st.setClient addr pressed with
    router := told.1
    net := relayPosts setup.relay asked.2 ++ relayPosts setup.relay told.2
    now := t } rfl hjoined' hnews
  have hseats' : Seats setup kept := fun endpoint => by rw [hturn'.peers]; exact hseats endpoint
  refine ⟨st', kept, htold.trans hdrains, ⟨hempty, ?_, hseats', htalkers.joined⟩, htalkers.now,
    hholder'.trans hholder, hstamp'.trans hstamp, ?_, fun other hother => ?_⟩
  · rw [htalkers.router]
    exact hkept
  · rw [htalkers.flags]
    simpa using hactive
  · rw [htalkers.flags]
    exact congrArg Session.pttActive (State.setClient_ne hother)

end Granted

/-- In every run in which nobody loses the floor unheard, there is at most one talker whenever the
network is empty. -/
theorem single_talker (setup : Setup) (start st : State) (hstart : Start setup start)
    (hrun : Reaches (Step setup) (Heard setup) start st) (hnet : st.net = [])
    (a b : SocketAddr) (ha : a ∈ setup.members) (hb : b ∈ setup.members)
    (hactive : (st.client a).pttActive = true) (hactive' : (st.client b).pttActive = true) :
    a = b := by
  have h : Inv setup st := hrun.invariant hstart.inv fun _ _ _ hinv hstep hheard =>
    hinv.step hstart.sessionId hstart.relay hstep hheard
  have hholds : ∀ addr ∈ setup.members, (st.client addr).pttActive = true →
      Holds setup st addr := by
    intro addr haddr htalks
    obtain hholds | ⟨packet, hpacket, -⟩ := h.talking addr haddr htalks
    · exact hholds
    · simp [hnet] at hpacket
  obtain ⟨entry, hentry, hholder⟩ := hholds a ha hactive
  obtain ⟨entry', hentry', hholder'⟩ := hholds b hb hactive'
  obtain rfl := Option.some.inj (hentry.symm.trans hentry')
  exact Option.some.inj (hholder.symm.trans hholder')

private def hubAddr : SocketAddr := .v4 9 9000
private def annAddr : SocketAddr := .v4 1 4000
private def benAddr : SocketAddr := .v4 2 4000

private def duo : Setup := ⟨hubAddr, [annAddr, benAddr], 7, .transparent⟩

private def duoEntry : RouteEntry := ⟨[.udp annAddr, .udp benAddr], 0, none, none⟩

private def duoStart : State where
  router := (Router.new 10 5 .new).store 7 duoEntry
  client _ := { Session.ofDefault with sessionId := 7, peer := some hubAddr }
  net := []
  now := 0

private theorem duo_rests : AtRest duo duoStart duoEntry where
  net := rfl
  listed := Router.lookup_store_self ..
  seats endpoint := by simp [duo, duoEntry]
  joined _ _ := ⟨rfl, rfl, show pttMtu ≤ Session.ofDefault.config.mtu by decide⟩

private theorem duo_starts : Start duo duoStart where
  sessionId := by decide
  relay := by decide
  seats := ⟨duoEntry, duo_rests.listed, duo_rests.seats⟩
  joined := duo_rests.joined
  silent _ _ := rfl
  net := rfl

private theorem ann_presses : ∃ st entry, Reaches (Step duo) (Heard duo) duoStart st ∧
    AtRest duo st entry ∧ st.now = 0 ∧ entry.floorHolder = some annAddr ∧
      entry.floorGrantedAt = some 0 ∧ (st.client annAddr).pttActive = true := by
  obtain ⟨st, entry, hrun, hrest, hnow, hholder, hgranted, hactive, -⟩ :=
    @press_granted duo (Heard duo) duoStart duoEntry annAddr 0 duo_rests (by decide) (by decide)
      (.inl rfl) le_rfl (fun _ => trivial) (fun _ => trivial)
      (fun u packet env hrouter entry holder hentry hholder => by
        rw [hrouter, duo_rests.listed] at hentry
        obtain rfl := Option.some.inj hentry
        cases hholder)
      (fun u packet env hresume entry holder hentry hholder hfrees => by
        obtain ⟨view, hdecode, htype⟩ := hresume
        obtain ⟨⟨found, hfound, hother⟩, -⟩ | ⟨⟨found, hfound, hother⟩, -⟩ := hfrees
        all_goals
          obtain rfl := Except.ok.inj (hdecode.symm.trans hfound)
          cases htype.symm.trans hother)
  exact ⟨st, entry, hrun, hrest, hnow, hholder, hgranted, hactive⟩

theorem single_talker_ann : ∃ st, Reaches (Step duo) (Heard duo) duoStart st ∧ st.net = [] ∧
    (st.client annAddr).pttActive = true ∧ (st.client benAddr).pttActive = false := by
  obtain ⟨st, entry, hrun, hrest, -, -, -, hactive⟩ := ann_presses
  refine ⟨st, hrun, hrest.net, hactive, ?_⟩
  have honly := single_talker duo duoStart st duo_starts hrun hrest.net annAddr benAddr (by decide)
    (by decide) hactive
  cases hben : (st.client benAddr).pttActive with
  | false => rfl
  | true => exact absurd (honly hben) (by decide)

/-- Ann is granted the floor and keeps talking; after thirty-one seconds the relay grants it to Ben,
and the notice Ann gets changes nothing. -/
theorem two_talkers_after_timeout : Start duo duoStart ∧
    ∃ st, Reaches (Step duo) (fun _ _ => True) duoStart st ∧ st.net = [] ∧
      (st.client annAddr).pttActive = true ∧ (st.client benAddr).pttActive = true := by
  refine ⟨duo_starts, ?_⟩
  obtain ⟨middle, entry, hrun, hrest, hnow, -, hgranted, hactive⟩ := ann_presses
  have hover : Router.Expired entry [31000000000] :=
    ⟨0, hgranted, 31000000000, List.mem_singleton_self _, by decide⟩
  obtain ⟨st, entry', hrun', hrest', -, -, -, hactive', hothers⟩ :=
    @press_granted duo (fun _ _ => True) middle entry benAddr 31000000000 hrest (by decide)
      (by decide) (.inr hover) (by rw [hnow]; decide) (fun _ => trivial) (fun _ => trivial)
      (fun _ _ _ _ => trivial) (fun _ _ _ _ => trivial)
  refine ⟨st, (hrun.mono fun _ _ _ => trivial).trans hrun', hrest'.net, ?_, hactive'⟩
  rw [hothers annAddr (by decide), hactive]

end GravitalTalk.Relay.Talkers
