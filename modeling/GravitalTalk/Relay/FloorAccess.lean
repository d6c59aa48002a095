import GravitalTalk.Relay.Floor
import GravitalTalk.Relay.FanOut
import GravitalTalk.Relay.IngressAgreement
import GravitalTalk.Transport.PushToTalk

/-! What the floor answers to somebody outside the session, and to the holder who asks again. -/
namespace GravitalTalk.Relay
open Lib GravitalTalk.Core Transport Trace

/-- A datagram that the UDP loop takes for a message of the given type and session. -/
def ReadsAs (data : Bytes) (msg : MessageType) (k : UInt32) : Prop :=
  ∃ view, PacketView.decode (data.take Udp.bufferSize) = .ok view ∧
    MessageType.fromCode view.header.msgType = .ok msg ∧ view.header.sessionId = k

theorem Udp.handle_take (router : Router) (env : RelayEnv) (data : Bytes) (sender : SocketAddr) :
    handle router env (data.take bufferSize) sender = handle router env data sender := by
  simp only [handle, List.take_take, Nat.min_self]

theorem readsAs_floorBytes (msg other : MessageType) (k : UInt32) :
    ReadsAs (Udp.floorBytes msg k) other k ↔ MessageType.fromCode msg.code = .ok other := by
  have hpacket : IsPacket (Udp.floorBytes msg k) msg k := isPacket_bytes msg k 0 0 (by simp)
  obtain ⟨view, hdecode, htype, hid⟩ := hpacket.decodes
  have hwhole : (Udp.floorBytes msg k).take Udp.bufferSize = Udp.floorBytes msg k :=
    List.take_of_length_le (hpacket.fits.trans (by decide))
  rw [ReadsAs, hwhole, ← htype]
  constructor
  · rintro ⟨found, hfound, hmsg, -⟩
    obtain rfl := Except.ok.inj (hdecode.symm.trans hfound)
    exact hmsg
  · exact fun hmsg => ⟨view, hdecode, hmsg, hid⟩

theorem FloorInv.granted {entry : RouteEntry} (h : FloorInv entry) {holder : SocketAddr}
    (hholder : entry.floorHolder = some holder) : ∃ granted, entry.floorGrantedAt = some granted :=
  Option.isSome_iff_exists.mp (h.stamped.mp (by simp [hholder]))

theorem floorIsFree_of_held {entry : RouteEntry} {holder : SocketAddr} {granted : Nat}
    (hholder : entry.floorHolder = some holder) (hgranted : entry.floorGrantedAt = some granted)
    (now : Nat) : entry.floorIsFree now ↔
      Duration.fromSecs floorMaxHoldSecs < Instant.elapsed granted now := by
  simp [RouteEntry.floorIsFree, hholder, hgranted]

/-- Neither call does anything, and a release on the wire is heard by no member. -/
structure NoEffect (router : Router) (k : UInt32) (a : SocketAddr) (env : RelayEnv) : Prop where
  request : router.floorRequest k a env.clock = (router, .unknown)
  release : router.floorRelease k a env.releasedAt = (router, .unknown)
  datagram : ∀ data, ReadsAs data .floorRelease k →
    ∀ out ∈ (Udp.handle router env data a).2, ¬Registered router k out.target

section Outsider
variable {router : Router} {k : UInt32} {a : SocketAddr} {entry : RouteEntry}

theorem floorRequest_outsider (houtside : ¬Registered router k (.udp a)) (clock : FloorClock) :
    router.floorRequest k a clock = (router, .unknown) := by
  have hcall := router.floorRequest_requested k a clock
  generalize router.floorRequest k a clock = result at hcall
  obtain ⟨after, decision⟩ := result
  cases hcall with
  | unknown => rfl
  | denied hentry hknown => exact absurd ⟨_, hentry, hknown⟩ houtside
  | granted hentry hknown => exact absurd ⟨_, hentry, hknown⟩ houtside

theorem floorRelease_unknown_iff (now : Nat) :
    (router.floorRelease k a now).2 = .unknown ↔ k ∉ router.routes := by
  have hcall := router.floorRelease_released k a now
  generalize router.floorRelease k a now = result at hcall
  obtain ⟨after, decision⟩ := result
  rw [← Router.lookup_eq_none_iff]
  cases hcall with
  | unknown hentry => simp [hentry]
  | denied hentry => simp [hentry]
  | released hentry => simp [hentry]

theorem floorRelease_absent (hentry : router.routes[k]? = none) (now : Nat) :
    router.floorRelease k a now = (router, .unknown) := by
  simp only [Router.floorRelease, hentry]

/-- A release by somebody who does not hold the floor empties it when its time is over. -/
theorem floorRelease_unchanged_iff (hinv : FloorInv entry) (hentry : router.routes[k]? = some entry)
    (hholds : entry.floorHolder ≠ some a) (now : Nat) :
    (router.floorRelease k a now).1 = router ↔ ¬Router.Expired entry [now] := by
  have hcall := router.floorRelease_released k a now
  generalize router.floorRelease k a now = result at hcall
  obtain ⟨after, decision⟩ := result
  cases hcall with
  | unknown hnone => exact absurd (hentry.symm.trans hnone) (by simp)
  | denied hfound _ hbusy =>
    obtain rfl := Option.some.inj (hentry.symm.trans hfound)
    exact iff_of_true rfl fun hover => hbusy ((Router.floorIsFree_iff _ _).mpr (.inr hover))
  | released hfound hfree =>
    obtain rfl := Option.some.inj (hentry.symm.trans hfound)
    constructor
    · rintro hsame ⟨granted, hgranted, -⟩
      have hlookup := router.lookup_store_self k { entry with
        floorHolder := none, floorGrantedAt := none }
      rw [show router.store k _ = router from hsame, hentry] at hlookup
      have hnone := congrArg RouteEntry.floorGrantedAt (Option.some.inj hlookup)
      exact absurd (hgranted.symm.trans hnone) (by simp)
    · intro hvalid
      have hnone : entry.floorHolder = none := by
        obtain hheld | hfree := hfree
        · exact absurd hheld hholds
        · exact ((Router.floorIsFree_iff _ _).mp hfree).resolve_right hvalid
      have hstamp : entry.floorGrantedAt = none := by
        simpa [hnone] using hinv.stamped
      have hsame : { entry with floorHolder := none, floorGrantedAt := none } = entry := by
        obtain ⟨peers, lastActivity, holder, stamp⟩ := entry
        obtain rfl : holder = none := hnone
        obtain rfl : stamp = none := hstamp
        rfl
      exact Router.store_eq_self (by rw [hsame]; exact hentry)

theorem release_heard_iff (hpeers : entry.peers ≠ []) (hentry : router.routes[k]? = some entry)
    (houtside : ¬Registered router k (.udp a)) (hholds : entry.floorHolder ≠ some a)
    (env : RelayEnv) {data : Bytes} (hdata : ReadsAs data .floorRelease k) :
    (∀ out ∈ (Udp.handle router env data a).2, ¬Registered router k out.target) ↔
      ¬entry.floorIsFree env.releasedAt := by
  obtain ⟨view, hdecode, hmsg, rfl⟩ := hdata
  have hturn := @udp_handle_release router env _ view a entry hdecode hentry hmsg
  rw [Udp.handle_take] at hturn
  rw [registered_of_some hentry] at houtside
  have hothers : entry.others (.udp a) = entry.peers := by
    refine List.filter_eq_self.mpr fun e he => ?_
    have hother : e ≠ .udp a := by
      rintro rfl
      exact houtside he
    simpa using hother
  simp only [hholds, false_or, hothers] at hturn
  split_ifs at hturn with hfree
  · refine iff_of_false (fun hsilent => ?_) (not_not.mpr hfree)
    obtain ⟨e, he⟩ := List.exists_mem_of_ne_nil _ hpeers
    refine hsilent ⟨e, Udp.floorBytes .floorRelease view.header.sessionId⟩ ?_ ⟨_, hentry, he⟩
    rw [hturn.2]
    exact List.mem_map_of_mem he
  · refine iff_of_true (fun out hout => ?_) hfree
    rw [hturn.2] at hout
    cases hout

end Outsider

/-- Somebody outside a session never gets to ask for its floor.  A release from outside is turned
away as it should be just when there is no such session: otherwise it is never unknown, it empties a
floor whose time is over, and the members hear of it unless somebody holds a floor that is good. -/
theorem outsider_without_effect_iff (maxSessions maxPeers : Nat) (ops : List Op) (k : UInt32)
    (a : SocketAddr) (env : RelayEnv)
    (houtside : ¬Registered (final Router.exec (.new maxSessions maxPeers .new) ops) k (.udp a)) :
    let router := final Router.exec (.new maxSessions maxPeers .new) ops
    (NoEffect router k a env ↔ k ∉ router.routes) ∧
      router.floorRequest k a env.clock = (router, .unknown) ∧
      ((router.floorRelease k a env.releasedAt).1 = router ↔
        ∀ entry, router.routes[k]? = some entry → ¬Router.Expired entry [env.releasedAt]) ∧
      ∀ data, ReadsAs data .floorRelease k →
        ((∀ out ∈ (Udp.handle router env data a).2, ¬Registered router k out.target) ↔
          ∀ entry, router.routes[k]? = some entry → ¬entry.floorIsFree env.releasedAt) := by
  intro router
  have hrequest := floorRequest_outsider houtside env.clock
  cases hentry : router.routes[k]? with
  | none =>
    have hrelease := floorRelease_absent (a := a) hentry env.releasedAt
    have hnobody : ∀ e, ¬Registered router k e := fun e => not_registered_of_none hentry
    have hsilent : ∀ data, ∀ out ∈ (Udp.handle router env data a).2,
        ¬Registered router k out.target := fun _ out _ => hnobody out.target
    refine ⟨iff_of_true ⟨hrequest, hrelease, fun data _ => hsilent data⟩
      (Router.lookup_eq_none_iff.mp hentry), hrequest, ?_, fun data _ => ?_⟩
    · simp [hrelease]
    · simpa using hsilent data
  | some entry =>
    have hinv : FloorInv entry := floorsInv_final maxSessions maxPeers ops k entry hentry
    have htable : TableInv maxSessions maxPeers router := tableInv_final maxSessions maxPeers ops
    have hpeers : entry.peers ≠ [] := List.ne_nil_of_length_pos (htable.peers k entry hentry).nonempty
    have hholds : entry.floorHolder ≠ some a := fun hheld =>
      houtside ⟨entry, hentry, hinv.member a hheld⟩
    have hlisted : ¬k ∉ router.routes := by
      rw [← Router.lookup_eq_none_iff, hentry]
      simp
    refine ⟨iff_of_false (fun h => ?_) hlisted, hrequest, ?_, fun data hdata => ?_⟩
    · exact hlisted ((floorRelease_unknown_iff env.releasedAt).mp (by rw [h.release]))
    · simpa using floorRelease_unchanged_iff hinv hentry hholds env.releasedAt
    · simpa using release_heard_iff hpeers hentry houtside hholds env hdata

private def insider : SocketAddr := .v4 1 4000
private def stranger : SocketAddr := .v4 2 4000

/-- A turn at second five in which everything is sent and no channel is closed. -/
private def atFive : RelayEnv :=
  ⟨5000000000, ⟨5000000000, 5000000000, 5000000000, 5000000000⟩, 5000000000,
    fun data _ => some data.length, fun _ => true⟩

private def quietRoom : List Op := [.route 7 (.udp insider) 0]

private def quietRouter : Router := final Router.exec (.new 10 5 .new) quietRoom

private theorem quietRouter_entry :
    quietRouter.routes[(7 : UInt32)]? = some ⟨[.udp insider], 0, none, none⟩ := by
  decide +kernel

private theorem stranger_outside : ¬Registered quietRouter 7 (.udp stranger) := by
  rw [registered_of_some quietRouter_entry]
  decide

private def heldRoom : List Op :=
  [.route 7 (.udp insider) 0, .floorRequest 7 insider ⟨0, 0, 0, 0⟩]

private def heldRouter : Router := final Router.exec (.new 10 5 .new) heldRoom

private theorem held_entry : heldRouter.routes[(7 : UInt32)]? =
    some ⟨[.udp insider], 0, some insider, some 0⟩ := by
  decide +kernel

/-- The stranger's release comes to nothing in a session that is not there.  In one whose floor is
held it is not unknown, but it changes nothing and nobody hears of it. -/
theorem stranger_absent : NoEffect heldRouter 8 stranger atFive ∧
    ¬NoEffect heldRouter 7 stranger atFive ∧
      (heldRouter.floorRelease 7 stranger atFive.releasedAt).1 = heldRouter ∧
        ∀ out ∈ (Udp.handle heldRouter atFive (Udp.floorBytes .floorRelease 7) stranger).2,
          ¬Registered heldRouter 7 out.target := by
  have hpresent : ¬(7 : UInt32) ∉ heldRouter.routes := by
    rw [← Router.lookup_eq_none_iff, held_entry]
    simp
  have habsent : ¬Registered heldRouter 8 (.udp stranger) :=
    not_registered_of_none (by decide +kernel)
  have houtside : ¬Registered heldRouter 7 (.udp stranger) := by
    rw [registered_of_some held_entry]
    decide
  have hnowhere := (outsider_without_effect_iff 10 5 heldRoom 8 stranger atFive habsent).1
  obtain ⟨hunknown, -, hunchanged, hunheard⟩ :=
    outsider_without_effect_iff 10 5 heldRoom 7 stranger atFive houtside
  have hreads : ReadsAs (Udp.floorBytes .floorRelease 7) .floorRelease 7 :=
    (readsAs_floorBytes .floorRelease .floorRelease 7).mpr rfl
  refine ⟨hnowhere.mpr (by decide +kernel), fun h => hpresent (hunknown.mp h),
    hunchanged.mpr fun entry hentry => ?_, (hunheard _ hreads).mpr fun entry hentry => ?_⟩
  · obtain rfl := Option.some.inj (held_entry.symm.trans hentry)
    rintro ⟨granted, hgranted, now, hnow, hover⟩
    obtain rfl := Option.some.inj hgranted
    obtain rfl := List.mem_singleton.mp hnow
    exact absurd hover (by decide)
  · obtain rfl := Option.some.inj (held_entry.symm.trans hentry)
    decide

/-- A stranger releases the free floor of session 7, and the member hears of it. -/
theorem stranger_releases :
    ¬Registered quietRouter 7 (.udp stranger) ∧
      (quietRouter.floorRelease 7 stranger atFive.releasedAt).2 = .released [.udp insider] ∧
      (Udp.handle quietRouter atFive (Udp.floorBytes .floorRelease 7) stranger).2 =
        [⟨.udp insider, Udp.floorBytes .floorRelease 7⟩] ∧
      ¬NoEffect quietRouter 7 stranger atFive := by
  have hreleased : (quietRouter.floorRelease 7 stranger atFive.releasedAt).2 =
      .released [.udp insider] := by decide +kernel
  obtain ⟨view, hdecode, hmsg, hid⟩ := (readsAs_floorBytes .floorRelease .floorRelease 7).mpr rfl
  have hentry : quietRouter.routes[view.header.sessionId]? =
      some ⟨[.udp insider], 0, none, none⟩ := hid ▸ quietRouter_entry
  have hturn := @udp_handle_release quietRouter atFive _ view stranger _ hdecode hentry hmsg
  rw [Udp.handle_take, if_pos (.inr rfl), hid] at hturn
  refine ⟨stranger_outside, hreleased, hturn.2, fun h => ?_⟩
  have hunknown := congrArg Prod.snd h.release
  rw [hreleased] at hunknown
  cases hunknown

/-- A request is refused only when somebody else has the floor, and one more request of the holder
is never answered by a refusal. -/
structure Repeatable (router : Router) (k : UInt32) (a : SocketAddr) (env : RelayEnv) : Prop where
  refused : (router.floorRequest k a env.clock).2 = .denied → ∃ holder granted, holder ≠ a ∧
    Held router k holder granted ∧
      Instant.elapsed granted env.clock.recheck ≤ Duration.fromSecs floorMaxHoldSecs
  again : router.floorHolder k = some a → ∀ data, ReadsAs data .floorRequest k →
    (Udp.handle router env data a).1.floorHolder k = some a ∧
      ∀ out ∈ (Udp.handle router env data a).2, out.target = .udp a →
        ¬ReadsAs out.data .floorDeny k

section Member
variable {router : Router} {k : UInt32} {a : SocketAddr} {entry : RouteEntry}

theorem floorIsFree_mono {entry : RouteEntry} {now later : Nat} (h : entry.floorIsFree now)
    (hle : now ≤ later) : entry.floorIsFree later := by
  rw [Router.floorIsFree_iff] at h ⊢
  refine h.imp_right ?_
  rintro ⟨granted, hgranted, reading, hreading, hover⟩
  obtain rfl := List.mem_singleton.mp hreading
  refine ⟨granted, hgranted, later, List.mem_singleton_self _, hover.trans_le ?_⟩
  exact Nat.sub_le_sub_right hle granted

theorem floorRequest_member (hentry : router.routes[k]? = some entry)
    (hknown : .udp a ∈ entry.peers) {clock : FloorClock}
    (hordered : clock.readings.Pairwise (· ≤ ·)) :
    router.floorRequest k a clock =
      if entry.floorIsFree clock.recheck then
        (router.store k { entry with floorHolder := some a, floorGrantedAt := some clock.grant },
          .granted (entry.others (.udp a)))
      else (router, .denied) := by
  have hexpiry : clock.expiry ≤ clock.recheck := by
    simp only [FloorClock.readings, List.pairwise_cons, List.mem_cons] at hordered
    exact hordered.2.1 _ (by simp)
  have hpeer : entry.known (.udp a) := (RouteEntry.known_iff _ _).mpr hknown
  simp only [Router.floorRequest, hentry, hpeer]
  obtain hkept | ⟨hover, hreleased⟩ := Router.autoRelease_cases entry clock.free clock.expiry
  · rw [hkept]
    by_cases hfree : entry.floorIsFree clock.recheck
    · simp only [hfree]
      rfl
    · simp [hfree, Router.store_eq_self hentry]
  · have hfree : entry.floorIsFree clock.recheck :=
      floorIsFree_mono ((Router.floorIsFree_iff _ _).mpr (.inr hover)) hexpiry
    rw [hreleased, if_pos hfree]
    rfl

theorem held_iff_holder (hinv : FloorInv entry) (hentry : router.routes[k]? = some entry) {now : Nat} :
    (∃ granted, Held router k a granted ∧
      Instant.elapsed granted now ≤ Duration.fromSecs floorMaxHoldSecs) ↔
      entry.floorHolder = some a ∧ ¬entry.floorIsFree now := by
  constructor
  · rintro ⟨granted, ⟨found, hfound, hholder, hgranted⟩, hvalid⟩
    obtain rfl := Option.some.inj (hentry.symm.trans hfound)
    rw [floorIsFree_of_held hholder hgranted, not_lt]
    exact ⟨hholder, hvalid⟩
  · rintro ⟨hholder, hbusy⟩
    obtain ⟨granted, hgranted⟩ := hinv.granted hholder
    rw [floorIsFree_of_held hholder hgranted, not_lt] at hbusy
    exact ⟨granted, ⟨entry, hentry, hholder, hgranted⟩, hbusy⟩

theorem handle_request_member (hzero : k ≠ 0) (hentry : router.routes[k]? = some entry)
    (hknown : .udp a ∈ entry.peers) {env : RelayEnv} (hordered : env.clock.readings.Pairwise (· ≤ ·))
    {data : Bytes} (hdata : ReadsAs data .floorRequest k) :
    if entry.floorIsFree env.clock.recheck then
      (Udp.handle router env data a).1.floorHolder k = some a ∧
        (Udp.handle router env data a).2 =
          Udp.replies k a (.granted (entry.others (.udp a)))
    else
      (Udp.handle router env data a).1.floorHolder k = entry.floorHolder ∧
        (Udp.handle router env data a).2 = Udp.replies k a .denied := by
  obtain ⟨view, hdecode, hmsg, rfl⟩ := hdata
  rw [← Udp.handle_take, Udp.handle_request hdecode a hmsg]
  set received := router.received (data.take Udp.bufferSize).length
  rw [@Router.route_known received _ _ _ env.routedAt hzero hentry hknown]
  set touched := { entry with lastActivity := env.routedAt }
  set stored := received.store view.header.sessionId touched
  have hstored : stored.routes[view.header.sessionId]? = some touched :=
    Router.lookup_store_self ..
  have hcall := stored.floorRequest_requested view.header.sessionId a env.clock
  have hmember : stored.floorRequest view.header.sessionId a env.clock =
      if entry.floorIsFree env.clock.recheck then _ else _ :=
    floorRequest_member hstored hknown hordered
  split_ifs at hmember ⊢ with hfree
  · rw [hmember] at hcall ⊢
    obtain ⟨htable, hsent⟩ := Udp.answerRequest_eq env hcall
    refine ⟨?_, hsent⟩
    simp only [Router.floorHolder, htable.1, Router.lookup_store_self]
    rfl
  · rw [hmember] at hcall ⊢
    obtain ⟨htable, hsent⟩ := Udp.answerRequest_eq env hcall
    refine ⟨?_, hsent⟩
    simp only [Router.floorHolder, htable.1, hstored]
    rfl

end Member

/-- A member may ask again without harm unless it holds the floor and its time is not over: then it
is refused in favour of itself. -/
theorem request_repeatable_iff (maxSessions maxPeers : Nat) (ops : List Op) (k : UInt32)
    (a : SocketAddr) (env : RelayEnv) (hordered : env.clock.readings.Pairwise (· ≤ ·))
    (hmember : Registered (final Router.exec (.new maxSessions maxPeers .new) ops) k (.udp a)) :
    let router := final Router.exec (.new maxSessions maxPeers .new) ops
    (Repeatable router k a env ↔ ¬∃ granted, Held router k a granted ∧
        Instant.elapsed granted env.clock.recheck ≤ Duration.fromSecs floorMaxHoldSecs) ∧
      ((∃ granted, Held router k a granted ∧
          Instant.elapsed granted env.clock.recheck ≤ Duration.fromSecs floorMaxHoldSecs) →
        ∀ data, ReadsAs data .floorRequest k →
          (Udp.handle router env data a).1.floorHolder k = some a ∧
            (Udp.handle router env data a).2 = [⟨.udp a, Udp.floorBytes .floorDeny k⟩]) := by
  intro router
  obtain ⟨entry, hentry, hknown⟩ := hmember
  have hentry : router.routes[k]? = some entry := hentry
  have hinv : FloorInv entry := floorsInv_final maxSessions maxPeers ops k entry hentry
  have hzero : k ≠ 0 := (tableInv_final maxSessions maxPeers ops).ne_zero hentry
  have hheld : ∀ b, (∃ granted, Held router k b granted ∧ Instant.elapsed granted env.clock.recheck ≤
      Duration.fromSecs floorMaxHoldSecs) ↔ entry.floorHolder = some b ∧
        ¬entry.floorIsFree env.clock.recheck := fun b => held_iff_holder hinv hentry
  have hcall := floorRequest_member hentry hknown hordered
  refine ⟨?_, fun hself data hdata => ?_⟩
  · rw [hheld a]
    constructor
    · rintro h ⟨hself, hbusy⟩
      rw [if_neg hbusy] at hcall
      obtain ⟨holder, granted, hother, hholds⟩ := h.refused (by rw [hcall])
      have hholder := ((hheld holder).mp ⟨granted, hholds⟩).1
      exact hother (Option.some.inj (hholder.symm.trans hself))
    · intro hfine
      refine ⟨fun hdenied => ?_, fun hself data hdata => ?_⟩
      · split_ifs at hcall with hfree
        · rw [hcall] at hdenied
          cases hdenied
        · -- somebody holds the floor, and it is not the one who asks
          have hsome : entry.floorHolder ≠ none := fun hnone =>
            hfree ((Router.floorIsFree_iff _ _).mpr (.inl hnone))
          obtain ⟨holder, hholder⟩ := Option.ne_none_iff_exists'.mp hsome
          have hother : holder ≠ a := fun heq => hfine ⟨heq ▸ hholder, hfree⟩
          obtain ⟨granted, hholds⟩ := (hheld holder).mpr ⟨hholder, hfree⟩
          exact ⟨holder, granted, hother, hholds⟩
      · have hholder : entry.floorHolder = some a := by
          simpa [Router.floorHolder, hentry] using hself
        have hfree : entry.floorIsFree env.clock.recheck := not_not.mp fun hbusy =>
          hfine ⟨hholder, hbusy⟩
        have hturn := handle_request_member hzero hentry hknown hordered hdata
        rw [if_pos hfree] at hturn
        refine ⟨hturn.1, fun out hout htarget => ?_⟩
        rw [hturn.2] at hout
        obtain rfl | hout := List.mem_cons.mp hout
        · rw [readsAs_floorBytes]
          simp [MessageType.code, MessageType.fromCode]
        · -- the others are told, and the holder is none of them
          obtain ⟨e, he, rfl⟩ := List.mem_map.mp hout
          exact absurd htarget ((RouteEntry.mem_others _ _ _).mp he).2
  · obtain ⟨hholder, hbusy⟩ := (hheld a).mp hself
    have hturn := handle_request_member hzero hentry hknown hordered hdata
    rw [if_neg hbusy, hholder] at hturn
    exact hturn

theorem newcomer_repeatable : Repeatable quietRouter 7 insider atFive := by
  have hordered : atFive.clock.readings.Pairwise (· ≤ ·) := by decide
  have hmember : Registered quietRouter 7 (.udp insider) := ⟨_, quietRouter_entry, by decide⟩
  refine (request_repeatable_iff 10 5 quietRoom 7 insider atFive hordered hmember).1.mpr ?_
  rintro ⟨granted, ⟨entry, hentry, hholder, -⟩, -⟩
  obtain rfl := Option.some.inj (quietRouter_entry.symm.trans hentry)
  cases hholder

/-- The holder's session while its user keeps the button down. -/
private def talkingSession : Session := { Session.ofDefault with pttActive := true }

/-- The holder's request arrives twice: the relay keeps it as the holder and sends it a refusal,
upon which it stops talking. -/
theorem holder_refused :
    heldRouter.floorHolder 7 = some insider ∧
      (heldRouter.floorRequest 7 insider atFive.clock).2 = .denied ∧
      (Udp.handle heldRouter atFive (Udp.floorBytes .floorRequest 7) insider).1.floorHolder 7 =
        some insider ∧
      (Udp.handle heldRouter atFive (Udp.floorBytes .floorRequest 7) insider).2 =
        [⟨.udp insider, Udp.floorBytes .floorDeny 7⟩] ∧
      (talkingSession.processDatagram .transparent ⟨0, 0, fun data _ => .ok data.length⟩
        ⟨Udp.floorBytes .floorDeny 7, stranger⟩).session.pttActive = false ∧
      ¬Repeatable heldRouter 7 insider atFive := by
  have hdenied : (heldRouter.floorRequest 7 insider atFive.clock).2 = .denied := by decide +kernel
  have hknown : .udp insider ∈ [SessionEndpoint.udp insider] := List.mem_singleton_self _
  have hordered : atFive.clock.readings.Pairwise (· ≤ ·) := by decide
  obtain ⟨hholder, hsent⟩ := handle_request_member (by decide) held_entry hknown hordered
    ((readsAs_floorBytes .floorRequest .floorRequest 7).mpr rfl)
  obtain ⟨after, hprocess, -, hactive⟩ := talkingSession.processDatagram_news .transparent
    ⟨0, 0, fun data _ => .ok data.length⟩ stranger (by simp [Session.floorNews])
    (isPacket_bytes .floorDeny 7 0 0 (length_be32 7).le) (by decide)
  refine ⟨by decide +kernel, hdenied, hholder, hsent, ?_, fun h => ?_⟩
  · rw [Udp.floorBytes, hprocess]
    exact hactive.trans (by decide)
  · obtain ⟨holder, granted, hother, ⟨entry, hentry, hholds, -⟩, -⟩ := h.refused hdenied
    obtain rfl := Option.some.inj (held_entry.symm.trans hentry)
    exact hother (Option.some.inj hholds).symm

end GravitalTalk.Relay
