import GravitalTalk.Lib.Insertion
import GravitalTalk.Relay.RouterInvariant

/-! What refused datagrams leave behind: the answers to all other calls, with and without them. -/
namespace GravitalTalk.Relay
open Lib GravitalTalk.Core Transport Trace Insertion

structure Alike (s t : Router) : Prop where
  routes : t.routes = s.routes
  rooms : t.rooms = s.rooms
  maxSessions : t.maxSessions = s.maxSessions
  maxPeers : t.maxPeersPerSession = s.maxPeersPerSession

def Refused (router : Router) (op : Op) : Prop :=
  ∃ sessionId sender now, op = .route sessionId sender now ∧
    (router.route sessionId sender now).2 = .dropped

/-- Where the datagram's session is in the table, the reading of the clock is the one that is there
already. -/
def Unmoved (router : Router) (op : Op) : Prop :=
  ∀ sessionId sender now entry, op = .route sessionId sender now →
    router.routes[sessionId]? = some entry → entry.lastActivity = now

theorem Alike.refl (router : Router) : Alike router router := ⟨rfl, rfl, rfl, rfl⟩

section Calls
variable {s t : Router} (h : Alike s t)
include h

theorem Alike.eq : t = { s with metrics := t.metrics } := by
  obtain ⟨routes, rooms, maxSessions, maxPeers, metrics⟩ := t
  obtain ⟨rfl, rfl, rfl, rfl⟩ := h
  rfl

theorem Alike.route (sessionId : UInt32) (sender : SessionEndpoint) (now : Nat) :
    (t.route sessionId sender now).2 = (s.route sessionId sender now).2 ∧
      Alike (s.route sessionId sender now).1 (t.route sessionId sender now).1 := by
  rw [h.eq]
  unfold Router.route
  dsimp only
  cases s.routes[sessionId]? <;> dsimp only <;> split_ifs <;> exact ⟨rfl, rfl, rfl, rfl, rfl⟩

theorem Alike.evictIdle (maxAgeSecs : UInt64) (now : Nat) (closed : UInt32 → Channel → Bool) :
    (t.evictIdle maxAgeSecs now closed).2 = (s.evictIdle maxAgeSecs now closed).2 ∧
      Alike (s.evictIdle maxAgeSecs now closed).1 (t.evictIdle maxAgeSecs now closed).1 := by
  rw [h.eq]
  unfold Router.evictIdle
  dsimp only
  split_ifs <;> exact ⟨rfl, rfl, rfl, rfl, rfl⟩

theorem Alike.floorRequest (sessionId : UInt32) (sender : SocketAddr) (clock : FloorClock) :
    (t.floorRequest sessionId sender clock).2 = (s.floorRequest sessionId sender clock).2 ∧
      Alike (s.floorRequest sessionId sender clock).1 (t.floorRequest sessionId sender clock).1 := by
  rw [h.eq]
  unfold Router.floorRequest
  dsimp only
  cases s.routes[sessionId]? <;> dsimp only
  · exact ⟨rfl, rfl, rfl, rfl, rfl⟩
  · split_ifs <;> exact ⟨rfl, rfl, rfl, rfl, rfl⟩

theorem Alike.floorRelease (sessionId : UInt32) (sender : SocketAddr) (now : Nat) :
    (t.floorRelease sessionId sender now).2 = (s.floorRelease sessionId sender now).2 ∧
      Alike (s.floorRelease sessionId sender now).1 (t.floorRelease sessionId sender now).1 := by
  rw [h.eq]
  unfold Router.floorRelease
  dsimp only
  cases s.routes[sessionId]? <;> dsimp only
  · exact ⟨rfl, rfl, rfl, rfl, rfl⟩
  · split_ifs <;> exact ⟨rfl, rfl, rfl, rfl, rfl⟩

theorem Alike.exec (op : Op) :
    (s.exec op).2 = (t.exec op).2 ∧ Alike (s.exec op).1 (t.exec op).1 := by
  cases op with
  | route sessionId sender now =>
    obtain ⟨hanswer, hafter⟩ := h.route sessionId sender now
    exact ⟨congrArg Answer.route hanswer.symm, hafter⟩
  | evictIdle maxAgeSecs now closed =>
    obtain ⟨hanswer, hafter⟩ := h.evictIdle maxAgeSecs now closed
    exact ⟨congrArg Answer.evicted hanswer.symm, hafter⟩
  | floorRequest sessionId sender clock =>
    obtain ⟨hanswer, hafter⟩ := h.floorRequest sessionId sender clock
    exact ⟨congrArg Answer.floor hanswer.symm, hafter⟩
  | floorRelease sessionId sender now =>
    obtain ⟨hanswer, hafter⟩ := h.floorRelease sessionId sender now
    exact ⟨congrArg Answer.floor hanswer.symm, hafter⟩
  | registerRoom code sessionId =>
    rw [h.eq]
    simp only [Router.exec, Router.registerRoom]
    split_ifs <;> exact ⟨rfl, rfl, rfl, rfl, rfl⟩
  | resolveRoom code =>
    rw [h.eq]
    exact ⟨rfl, rfl, rfl, rfl, rfl⟩
  | removeRoom code =>
    rw [h.eq]
    exact ⟨rfl, rfl, rfl, rfl, rfl⟩
  | listRooms =>
    rw [h.eq]
    exact ⟨rfl, rfl, rfl, rfl, rfl⟩

theorem Alike.absorbs {op : Op} (hrefused : Refused t op) (hunmoved : Unmoved t op) :
    Alike s (t.exec op).1 := by
  obtain ⟨sessionId, sender, now, rfl, hdropped⟩ := hrefused
  have hcall := t.route_routed sessionId sender now
  rw [hdropped] at hcall
  change Alike s (t.route sessionId sender now).1
  generalize (t.route sessionId sender now).1 = after at hcall
  generalize hdecision : RouteDecision.dropped = decision at hcall
  cases hcall with
  | zero => exact { h with }
  | limit => exact { h with }
  | @full entry _ hentry =>
    have hsame : { entry with lastActivity := now } = entry := by
      obtain rfl := hunmoved sessionId sender now entry rfl hentry
      rfl
    rw [hsame, Router.store_eq_self hentry]
    exact { h with }
  | known => exact absurd hdecision.symm (RouteDecision.toAll_ne_dropped _)
  | joined => exact absurd hdecision.symm (RouteDecision.toAll_ne_dropped _)
  | created => cases hdecision

end Calls

theorem evictIdle_removed (self : Router) (maxAgeSecs : UInt64) (now : Nat)
    (closed : UInt32 → Channel → Bool) :
    (self.evictIdle maxAgeSecs now closed).2 =
        self.routes.size - (self.evictIdle maxAgeSecs now closed).1.routes.size ∧
      (self.evictIdle maxAgeSecs now closed).1.routes.size ≤ self.routes.size := by
  unfold Router.evictIdle
  dsimp only
  have hle : (self.routes.filterMap fun sessionId =>
      Router.keep now (Duration.fromSecs maxAgeSecs.toNat) (closed sessionId)).size ≤
        self.routes.size := Std.ExtTreeMap.size_filterMap_le_size
  split_ifs <;> exact ⟨rfl, hle⟩

theorem evictIdle_differs {s t : Router} {k : UInt32} {entry changed kept : RouteEntry}
    {maxAgeSecs : UInt64} {now : Nat} {closed : UInt32 → Channel → Bool}
    (hentry : s.routes[k]? = some entry) (htable : t.routes = (s.store k changed).routes)
    (hevicted : Router.keep now (Duration.fromSecs maxAgeSecs.toNat) (closed k) entry = none)
    (hkept : Router.keep now (Duration.fromSecs maxAgeSecs.toNat) (closed k) changed = some kept) :
    (s.evictIdle maxAgeSecs now closed).2 ≠ (t.evictIdle maxAgeSecs now closed).2 := by
  obtain ⟨hremoved, hle⟩ := evictIdle_removed s maxAgeSecs now closed
  obtain ⟨hremoved', hle'⟩ := evictIdle_removed t maxAgeSecs now closed
  have hgone : k ∉ (s.evictIdle maxAgeSecs now closed).1.routes := by
    rw [← Router.lookup_eq_none_iff, Router.lookup_evictIdle, hentry, Option.bind_some, hevicted]
  have hsame : (t.evictIdle maxAgeSecs now closed).1.routes =
      ((s.evictIdle maxAgeSecs now closed).1.store k kept).routes := by
    apply Std.ExtTreeMap.ext_getElem?
    intro k'
    rw [Router.lookup_evictIdle, htable, Router.lookup_store, Router.lookup_store,
      Router.lookup_evictIdle]
    split_ifs with heq
    · rw [← heq, Option.bind_some, hkept]
    · rfl
  have hsize : (t.evictIdle maxAgeSecs now closed).1.routes.size =
      (s.evictIdle maxAgeSecs now closed).1.routes.size + 1 := by
    rw [hsame, Router.store, Std.ExtTreeMap.size_insert,
      if_neg (mt Std.ExtTreeMap.contains_iff_mem.mp hgone)]
  have htotal : t.routes.size = s.routes.size := by rw [htable, Router.size_store hentry]
  omega

theorem keep_open {entry : RouteEntry} (hpeers : entry.peers ≠ []) (now maxAge : Nat) :
    Router.keep now maxAge (fun _ => false) entry =
      if Instant.elapsed entry.lastActivity now < maxAge then some entry else none := by
  have hall : ∀ stays : SessionEndpoint → Bool, (∀ e, stays e) →
      entry.peers.filter stays = entry.peers :=
    fun stays hstays => List.filter_eq_self.mpr fun e _ => hstays e
  unfold Router.keep
  dsimp only
  rw [hall _ fun e => by cases e <;> rfl]
  simp [hpeers]

def afterSecond (now : Nat) : Op := .evictIdle 1 now fun _ _ => false

theorem afterSecond_differs {s t : Router} {k : UInt32} {entry changed : RouteEntry} {now : Nat}
    (hentry : s.routes[k]? = some entry) (htable : t.routes = (s.store k changed).routes)
    (hpeers : entry.peers ≠ []) (hpeers' : changed.peers ≠ [])
    (hold : ¬Instant.elapsed entry.lastActivity now < Duration.fromSecs 1)
    (hyoung : Instant.elapsed changed.lastActivity now < Duration.fromSecs 1) :
    (s.exec (afterSecond now)).2 ≠ (t.exec (afterSecond now)).2 := by
  have hone : (1 : UInt64).toNat = 1 := rfl
  have hevicted : Router.keep now (Duration.fromSecs (1 : UInt64).toNat) (fun _ => false) entry =
      none := by
    rw [hone, keep_open hpeers, if_neg hold]
  have hkept : Router.keep now (Duration.fromSecs (1 : UInt64).toNat) (fun _ => false) changed =
      some changed := by
    rw [hone, keep_open hpeers', if_pos hyoung]
  exact fun heq => evictIdle_differs hentry htable hevicted hkept (Answer.evicted.inj heq)

theorem keep_parts {early late : Nat} (h : early < late) :
    ∃ now, early ≤ now ∧ late ≤ now ∧
      ¬Instant.elapsed early now < Duration.fromSecs 1 ∧
        Instant.elapsed late now < Duration.fromSecs 1 := by
  refine ⟨max late (early + Duration.fromSecs 1), ?_, ?_, ?_, ?_⟩ <;>
    simp only [Instant.elapsed, Duration.fromSecs] <;> omega

theorem moved_seen {maxSessions maxPeers : Nat} {router : Router} {op : Op}
    (hinv : TableInv maxSessions maxPeers router) (hrefused : Refused router op)
    (hmoved : ¬Unmoved router op) :
    ∃ later, (∃ maxAgeSecs now closed, later = .evictIdle maxAgeSecs now closed ∧
        ∀ reading ∈ op.readings, reading ≤ now) ∧
      (router.exec later).2 ≠ ((router.exec op).1.exec later).2 := by
  obtain ⟨sessionId, sender, now, rfl, hdropped⟩ := hrefused
  simp only [Unmoved, not_forall] at hmoved
  obtain ⟨_, _, _, entry, hop, hentry, hdiffers⟩ := hmoved
  injection hop with hid hsender hnow
  subst hid hsender hnow
  have hpeers : entry.peers ≠ [] :=
    List.ne_nil_of_length_pos (hinv.peers sessionId entry hentry).nonempty
  set changed := { entry with lastActivity := now }
  -- the datagram of a session in the table is dropped because the session is full
  have hroutes : (router.route sessionId sender now).1.routes =
      (router.store sessionId changed).routes := by
    have hcall := router.route_routed sessionId sender now
    rw [hdropped] at hcall
    generalize (router.route sessionId sender now).1 = after at hcall ⊢
    generalize hdecision : RouteDecision.dropped = decision at hcall
    cases hcall with
    | zero hzero => exact absurd hzero (hinv.ne_zero hentry)
    | limit _ hnew => exact absurd (hentry.symm.trans hnew) (by simp)
    | full _ hfound =>
      obtain rfl := Option.some.inj (hentry.symm.trans hfound)
      rfl
    | known => exact absurd hdecision.symm (RouteDecision.toAll_ne_dropped _)
    | joined => exact absurd hdecision.symm (RouteDecision.toAll_ne_dropped _)
    | created => cases hdecision
  have hchanged : (router.route sessionId sender now).1.routes[sessionId]? = some changed := by
    rw [hroutes, Router.lookup_store_self]
  obtain hlater | hearlier := Nat.lt_or_gt_of_ne hdiffers
  · obtain ⟨reading, -, hle, hold, hyoung⟩ := keep_parts hlater
    refine ⟨afterSecond reading, ⟨_, reading, _, rfl, by simpa [Op.readings]⟩, ?_⟩
    exact afterSecond_differs hentry hroutes hpeers hpeers hold hyoung
  · obtain ⟨reading, hle, -, hold, hyoung⟩ := keep_parts hearlier
    refine ⟨afterSecond reading, ⟨_, reading, _, rfl, by simpa [Op.readings]⟩, Ne.symm ?_⟩
    have hback : router.routes =
        ((router.route sessionId sender now).1.store sessionId entry).routes := by
      apply Std.ExtTreeMap.ext_getElem?
      intro k
      rw [Router.lookup_store, hroutes, Router.lookup_store]
      split_ifs with heq
      · rw [← heq, hentry]
      · rfl
    exact afterSecond_differs hchanged hback hpeers hpeers hold hyoung

/-- Refused datagrams cannot be seen in the answers to the other calls as long as none of them moves
the time of its session's last activity, as the datagrams refused by a full session do; and each that
does can be seen in an eviction after it. -/
theorem refused_without_effect (maxSessions maxPeers : Nat) :
    (∀ items : List (Item Op),
      ExtrasMeet Router.exec Refused (.new maxSessions maxPeers .new) items →
      ExtrasMeet Router.exec Unmoved (.new maxSessions maxPeers .new) items →
        givenAnswers Router.exec (.new maxSessions maxPeers .new) items =
          (history Router.exec (.new maxSessions maxPeers .new) (givens items)).map (·.answer)) ∧
      ∀ (ops : List Op) (op : Op),
        Refused (final Router.exec (.new maxSessions maxPeers .new) ops) op →
        ¬Unmoved (final Router.exec (.new maxSessions maxPeers .new) ops) op →
          ∃ later, (∃ maxAgeSecs now closed, later = .evictIdle maxAgeSecs now closed ∧
              ∀ reading ∈ op.readings, reading ≤ now) ∧
            givenAnswers Router.exec (.new maxSessions maxPeers .new)
                (ops.map .given ++ [.extra op, .given later]) ≠
              (history Router.exec (.new maxSessions maxPeers .new) (ops ++ [later])).map
                (·.answer) := by
  refine ⟨fun items hrefused hunmoved => ?_, fun ops op hrefused hmoved => ?_⟩
  · have hboth := hrefused.and hunmoved
    refine givenAnswers_eq (fun s t op h => h.exec op) ?_ (Alike.refl _) hboth
    exact fun s t op h hop => h.absorbs hop.1 hop.2
  · obtain ⟨later, hlater, hdiffers⟩ := moved_seen (tableInv_final maxSessions maxPeers ops) hrefused
      hmoved
    refine ⟨later, hlater, ?_⟩
    rw [givenAnswers_given_append, history_append, List.map_append]
    simp only [givenAnswers, history, List.map_cons, List.map_nil, event]
    intro heq
    exact hdiffers (List.cons.inj (List.append_cancel_left heq)).1.symm

private def seated : SessionEndpoint := .udp (.v4 1 4000)
private def turnedAway : SessionEndpoint := .udp (.v4 2 4000)

/-- After a minute without traffic of its member session 7 goes; before that something arrives for
another or the same session. -/
private def minute (between : UInt32) : List (Item Op) :=
  [.given (.route 7 seated 0), .extra (.route between turnedAway 50000000000),
    .given (.evictIdle 60 60000000000 fun _ _ => false)]

private theorem minute_refused : ExtrasMeet Router.exec Refused (.new 10 1 .new) (minute 7) :=
  ⟨⟨7, turnedAway, 50000000000, rfl, by decide +kernel⟩, trivial⟩

theorem refused_zero_session :
    givenAnswers Router.exec (.new 10 1 .new) (minute 0) =
        (history Router.exec (.new 10 1 .new) (givens (minute 0))).map (·.answer) ∧
      ∃ later, givenAnswers Router.exec (.new 10 1 .new)
          [.given (.route 7 seated 0), .extra (.route 7 turnedAway 50000000000), .given later] ≠
        (history Router.exec (.new 10 1 .new) [.route 7 seated 0, later]).map (·.answer) := by
  obtain ⟨hunseen, hseen⟩ := refused_without_effect 10 1
  refine ⟨hunseen (minute 0) ⟨⟨0, turnedAway, 50000000000, rfl, by decide +kernel⟩, trivial⟩
    ⟨?_, trivial⟩, ?_⟩
  · intro sessionId sender now entry hop hentry
    injection hop with hid
    subst hid
    have hnone : ((Router.new 10 1 .new).exec (.route 7 seated 0)).1.routes[(0 : UInt32)]? = none := by
      decide +kernel
    exact absurd (hentry.symm.trans hnone) (by simp)
  · have hmoved : ¬Unmoved (final Router.exec (.new 10 1 .new) [.route 7 seated 0])
        (.route 7 turnedAway 50000000000) := by
      intro hunmoved
      have hentry : (final Router.exec (.new 10 1 .new) [.route 7 seated 0]).routes[(7 : UInt32)]? =
          some ⟨[seated], 0, none, none⟩ := by decide +kernel
      have hsame := hunmoved 7 turnedAway 50000000000 _ rfl hentry
      cases hsame
    obtain ⟨later, -, hdiffers⟩ := hseen [.route 7 seated 0] _
      ⟨7, turnedAway, 50000000000, rfl, by decide +kernel⟩ hmoved
    exact ⟨later, hdiffers⟩

/-- A datagram that session 7 has no room for keeps it from being evicted. -/
theorem refused_postpones_eviction :
    ExtrasMeet Router.exec Refused (.new 10 1 .new) (minute 7) ∧
      givenAnswers Router.exec (.new 10 1 .new) (minute 7) =
        [.route .registered, .evicted 0] ∧
      (history Router.exec (.new 10 1 .new) (givens (minute 7))).map (·.answer) =
        [.route .registered, .evicted 1] :=
  ⟨minute_refused, by decide +kernel, by decide +kernel⟩

end GravitalTalk.Relay
