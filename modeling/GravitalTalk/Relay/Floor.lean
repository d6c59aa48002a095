import GravitalTalk.Relay.Entry

/-! Floor arbitration over whole runs of calls: who may be granted the floor, and when. -/
namespace GravitalTalk.Relay
open Lib GravitalTalk.Core Transport Trace

namespace Call

def Grants (call : Call) (sessionId : UInt32) : Prop :=
  ∃ sender clock others, call.input = .floorRequest sessionId sender clock ∧
    call.answer = .floor (.granted others)

def Releases (call : Call) (sessionId : UInt32) (sender : SocketAddr) : Prop :=
  ∃ now others, call.input = .floorRelease sessionId sender now ∧
    call.answer = .floor (.released others)

end Call

/-- The calls take their clock readings in order. -/
def NonDecreasing (ops : List Op) : Prop := (ops.flatMap Op.readings).Pairwise (· ≤ ·)

/-- A holder is a registered UDP peer, and has a time of grant just when there is a holder. -/
structure FloorInv (entry : RouteEntry) : Prop where
  member : ∀ holder, entry.floorHolder = some holder → .udp holder ∈ entry.peers
  stamped : entry.floorHolder.isSome ↔ entry.floorGrantedAt.isSome

theorem FloorInv.step {k : UInt32} {op : Op} {answer : Answer} {before : Option RouteEntry}
    {after : RouteEntry} (hstep : EntryStep k op answer before (some after))
    (h : ∀ entry, before = some entry → FloorInv entry) : FloorInv after := by
  cases hstep with
  | created => exact ⟨by simp, by simp⟩
  | known => exact { h _ rfl with }
  | joined =>
    refine ⟨fun holder hholder => ?_, (h _ rfl).stamped⟩
    exact List.mem_append_left _ ((h _ rfl).member holder hholder)
  | full => exact { h _ rfl with }
  | refused => exact h _ rfl
  | granted hknown =>
    refine ⟨fun holder hholder => ?_, by simp⟩
    injection hholder with hholder
    exact hholder ▸ hknown
  | notGranted => exact h _ rfl
  | released => exact ⟨by simp, by simp⟩
  | notReleased => exact h _ rfl
  | kept hkept =>
    obtain ⟨-, -, hpeers, -, hholder, hgranted⟩ := Router.keep_eq_some hkept
    refine ⟨fun holder hheld => ?_, ?_⟩
    · -- only channels are ever removed from a session that stays
      rw [hpeers]
      exact ⟨(h _ rfl).member holder (hholder ▸ hheld), by simp⟩
    · rw [hholder, hgranted]
      exact (h _ rfl).stamped
  | other => exact h _ rfl

def FloorsInv (router : Router) : Prop :=
  ∀ (k : UInt32) (entry : RouteEntry), router.routes[k]? = some entry → FloorInv entry

theorem floorsInv_final (maxSessions maxPeers : Nat) (ops : List Op) :
    FloorsInv (final Router.exec (.new maxSessions maxPeers .new) ops) := by
  apply final_induction
  · intro k entry hentry
    simp [Router.new] at hentry
  · intro router op h k after hafter
    have hstep := router.exec_entry op k
    rw [hafter] at hstep
    exact FloorInv.step hstep (h k)

def Held (router : Router) (k : UInt32) (holder : SocketAddr) (granted : Nat) : Prop :=
  ∃ entry, router.routes[k]? = some entry ∧ entry.floorHolder = some holder ∧
    entry.floorGrantedAt = some granted

/-- Why a floor granted at `granted` may be free again. -/
def Freed (past : List Call) (k : UInt32) (holder : SocketAddr) (granted : Nat) : Prop :=
  (∃ call ∈ past, Call.Releases call k holder) ∨ (∃ call ∈ past, Call.Evicts call k) ∨
    ∃ call ∈ past, ∃ now ∈ call.input.readings,
      Duration.fromSecs floorMaxHoldSecs < Instant.elapsed granted now

theorem Freed.mono {past more : List Call} {k : UInt32} {holder : SocketAddr} {granted : Nat}
    (h : Freed past k holder granted) (hsub : past ⊆ more) : Freed more k holder granted := by
  obtain ⟨call, hcall, h⟩ | ⟨call, hcall, h⟩ | ⟨call, hcall, h⟩ := h
  · exact .inl ⟨call, hsub hcall, h⟩
  · exact .inr (.inl ⟨call, hsub hcall, h⟩)
  · exact .inr (.inr ⟨call, hsub hcall, h⟩)

/-- One call that grants nothing leaves the floor held, or is a reason for it to be free. -/
theorem Held.step {router : Router} {k : UInt32} {holder : SocketAddr} {granted : Nat}
    (h : Held router k holder granted) (op : Op)
    (hgrants : ¬Call.Grants (event Router.exec router op) k) :
    Held (router.exec op).1 k holder granted ∨
      Freed [event Router.exec router op] k holder granted := by
  obtain ⟨entry, hentry, hholder, hgranted⟩ := h
  have hstep := router.exec_entry op k
  rw [hentry] at hstep
  generalize hafter : (router.exec op).1.routes[k]? = after at hstep
  generalize hanswer : (router.exec op).2 = answer at hstep
  cases hstep with
  | known => exact .inl ⟨_, hafter, hholder, hgranted⟩
  | joined => exact .inl ⟨_, hafter, hholder, hgranted⟩
  | full => exact .inl ⟨_, hafter, hholder, hgranted⟩
  | refused => exact .inl ⟨_, hafter, hholder, hgranted⟩
  | granted => exact absurd ⟨_, _, _, rfl, hanswer⟩ hgrants
  | notGranted => exact .inl ⟨_, hafter, hholder, hgranted⟩
  | @released _ sender now hfree =>
    refine .inr ?_
    obtain hheld | hfree := hfree
    · have hsender : sender = holder := by simpa [hholder] using hheld.symm
      subst hsender
      exact .inl ⟨_, List.mem_singleton_self _, now, _, rfl, hanswer⟩
    · -- somebody else's release goes through only when the time is over
      obtain hnone | ⟨granted', hgranted', reading, hreading, hover⟩ :=
        (Router.floorIsFree_iff _ _).mp hfree
      · simp [hholder] at hnone
      · rw [hgranted] at hgranted'
        injection hgranted' with hgranted'
        subst hgranted'
        exact .inr (.inr ⟨_, List.mem_singleton_self _, reading, hreading, hover⟩)
  | notReleased => exact .inl ⟨_, hafter, hholder, hgranted⟩
  | kept hkept =>
    obtain ⟨-, -, -, -, hsameHolder, hsameGranted⟩ := Router.keep_eq_some hkept
    exact .inl ⟨_, hafter, hsameHolder.trans hholder, hsameGranted.trans hgranted⟩
  | evicted =>
    refine .inr (.inr (.inl ⟨_, List.mem_singleton_self _, ⟨_, _, _, rfl⟩, ?_, ?_⟩))
    · rw [event, Std.ExtTreeMap.mem_iff_isSome_getElem?, hentry]
      rfl
    · exact Router.lookup_eq_none_iff.mp hafter
  | other => exact .inl ⟨_, hafter, hholder, hgranted⟩

theorem Held.run {router : Router} {k : UInt32} {holder : SocketAddr} {granted : Nat}
    (h : Held router k holder granted) (ops : List Op)
    (hgrants : ∀ call ∈ history Router.exec router ops, ¬Call.Grants call k) :
    Held (final Router.exec router ops) k holder granted ∨
      Freed (history Router.exec router ops) k holder granted := by
  revert hgrants
  refine @history_induction _ _ _ Router.exec (fun past s =>
    (∀ call ∈ past, ¬Call.Grants call k) → Held s k holder granted ∨ Freed past k holder granted)
    router (fun _ => .inl h) ?_ ops
  intro past s op ih hgrants
  obtain hheld | hfreed := ih fun call hcall => hgrants call (List.mem_append_left _ hcall)
  · refine (hheld.step op (hgrants _ (by simp))).imp_right fun hfreed => ?_
    exact hfreed.mono (List.subset_append_right _ _)
  · exact .inr (hfreed.mono (List.subset_append_left _ _))

theorem held_of_granted {router : Router} {k : UInt32} {sender : SocketAddr} {clock : FloorClock}
    {others : List SessionEndpoint}
    (h : (router.exec (.floorRequest k sender clock)).2 = .floor (.granted others)) :
    Held (router.exec (.floorRequest k sender clock)).1 k sender clock.grant := by
  have hstep := router.exec_entry (.floorRequest k sender clock) k
  rw [h] at hstep
  generalize hafter : (router.exec (.floorRequest k sender clock)).1.routes[k]? = after at hstep
  generalize router.routes[k]? = before at hstep
  cases hstep with
  | granted => exact ⟨_, hafter, rfl, rfl⟩
  | notGranted hdecision => exact absurd rfl hdecision
  | other hother => exact absurd rfl hother

theorem Held.over {router : Router} {k : UInt32} {holder sender : SocketAddr} {granted : Nat}
    {clock : FloorClock} {others : List SessionEndpoint} (hheld : Held router k holder granted)
    (h : (router.exec (.floorRequest k sender clock)).2 = .floor (.granted others)) :
    ∃ now ∈ clock.readings, Duration.fromSecs floorMaxHoldSecs < Instant.elapsed granted now := by
  obtain ⟨entry, hentry, hholder, hgranted⟩ := hheld
  have hstep := router.exec_entry (.floorRequest k sender clock) k
  rw [h, hentry] at hstep
  generalize (router.exec (.floorRequest k sender clock)).1.routes[k]? = after at hstep
  cases hstep with
  | granted _ hfree =>
    obtain hnone | ⟨granted', hgranted', hover⟩ := hfree
    · simp [hholder] at hnone
    · rw [hgranted] at hgranted'
      injection hgranted' with hgranted'
      exact hgranted' ▸ hover
  | notGranted hdecision => exact absurd rfl hdecision
  | other hother => exact absurd rfl hother

theorem NonDecreasing.le_grant {ops rest : List Op} {k : UInt32} {sender : SocketAddr}
    {clock : FloorClock} (h : NonDecreasing (ops ++ .floorRequest k sender clock :: rest))
    {op : Op} (hop : op ∈ ops ++ [.floorRequest k sender clock]) {now : Nat}
    (hnow : now ∈ op.readings) : now ≤ clock.grant := by
  rw [NonDecreasing, List.flatMap_append, List.pairwise_append] at h
  obtain ⟨-, hrest, hcross⟩ := h
  rw [List.flatMap_cons, List.pairwise_append] at hrest
  obtain hop | hop := List.mem_append.mp hop
  · apply hcross now (List.mem_flatMap.mpr ⟨op, hop, hnow⟩) clock.grant
    simp [Op.readings, FloorClock.readings]
  · rw [List.mem_singleton.mp hop] at hnow
    have hown : clock.readings.Pairwise (· ≤ ·) := hrest.1
    have hends : clock.free ≤ clock.grant ∧ clock.expiry ≤ clock.grant ∧
        clock.recheck ≤ clock.grant := by
      simp only [FloorClock.readings, List.pairwise_cons, List.mem_cons] at hown
      exact ⟨hown.1 _ (by simp), hown.2.1 _ (by simp), hown.2.2.1 _ (by simp)⟩
    simp only [Op.readings, FloorClock.readings, List.mem_cons, List.not_mem_nil, or_false] at hnow
    omega

/-- Two grants of a session's floor in a row: in between the first holder released it, or the
session was evicted, or more than 30 s went by. -/
theorem floor_mutual_exclusion (maxSessions maxPeers : Nat) (ops : List Op)
    (htimes : NonDecreasing ops) :
    (∀ (earlier between later : List Call) (first second : Call) (k : UInt32) (a b : SocketAddr)
      (clock clock' : FloorClock) (others others' : List SessionEndpoint),
      history Router.exec (.new maxSessions maxPeers .new) ops =
          earlier ++ first :: (between ++ second :: later) →
        first.input = .floorRequest k a clock → first.answer = .floor (.granted others) →
        second.input = .floorRequest k b clock' → second.answer = .floor (.granted others') →
        (∀ call ∈ between, ¬Call.Grants call k) →
          (∃ call ∈ between, Call.Releases call k a) ∨ (∃ call ∈ between, Call.Evicts call k) ∨
            Duration.fromSecs 30 < clock'.grant - clock.grant) ∧
      FloorsInv (final Router.exec (.new maxSessions maxPeers .new) ops) := by
  refine ⟨?_, floorsInv_final maxSessions maxPeers ops⟩
  intro earlier between later first second k a b clock clock' others others' hhistory hfirst hgranted
    hsecond hgranted' hnone
  obtain ⟨before, op, after, hops, -, hcall, hrest⟩ := history_split hhistory
  obtain ⟨middle, op', last, hafter, hbetween, hcall', -⟩ := history_split hrest.symm
  subst hcall
  subst hcall'
  change op = _ at hfirst
  change op' = _ at hsecond
  subst hfirst
  subst hsecond
  have hheld := held_of_granted hgranted
  subst hbetween
  rw [hops, hafter, List.append_cons, ← List.append_assoc] at htimes
  have hbound : ∀ now, (∃ o ∈ middle ++ [.floorRequest k b clock'], now ∈ o.readings) →
      now ≤ clock'.grant := by
    rintro now ⟨o, ho, hnow⟩
    refine htimes.le_grant ?_ hnow
    rw [List.append_assoc]
    exact List.mem_append_right _ ho
  have hover : ∀ now, now ≤ clock'.grant →
      Duration.fromSecs floorMaxHoldSecs < Instant.elapsed clock.grant now →
        Duration.fromSecs 30 < clock'.grant - clock.grant := by
    intro now hnow hlong
    simp only [floorMaxHoldSecs, Instant.elapsed] at hlong
    omega
  obtain hstill | hreleased | hevicted | ⟨call, hcall, now, hnow, hlong⟩ := hheld.run middle hnone
  · obtain ⟨now, hnow, hlong⟩ := hstill.over hgranted'
    have hlast : .floorRequest k b clock' ∈ middle ++ [.floorRequest k b clock'] := by simp
    exact .inr (.inr (hover now (hbound now ⟨_, hlast, hnow⟩) hlong))
  · exact .inl hreleased
  · exact .inr (.inl hevicted)
  · have hop := mem_of_mem_history hcall
    exact .inr (.inr (hover now (hbound now ⟨_, List.mem_append_left _ hop, hnow⟩) hlong))

private def alice : SocketAddr := .v4 1 4000
private def bob : SocketAddr := .v4 2 4000

private def readAt (now : Nat) : FloorClock := ⟨now, now, now, now⟩

/-- Bob takes the floor over from alice, who never releases it. -/
private def takeover : List Op :=
  [.route 7 (.udp alice) 0, .route 7 (.udp bob) 0, .floorRequest 7 alice (readAt 0),
    .floorRequest 7 bob (readAt 31000000000)]

private def takeoverHistory : List Call := history Router.exec (.new 10 5 .new) takeover

theorem floor_taken_over :
    NonDecreasing takeover ∧
      (takeoverHistory.map (·.answer)).drop 2 =
        [.floor (.granted [.udp bob]), .floor (.granted [.udp alice])] ∧
      ((∃ call ∈ ([] : List Call), Call.Releases call 7 alice) ∨
        (∃ call ∈ ([] : List Call), Call.Evicts call 7) ∨
          Duration.fromSecs 30 < 31000000000 - 0) ∧
      FloorsInv (final Router.exec (.new 10 5 .new) takeover) := by
  have htimes : NonDecreasing takeover := by unfold NonDecreasing; decide
  obtain ⟨hgrants, hfloors⟩ := floor_mutual_exclusion 10 5 takeover htimes
  refine ⟨htimes, by decide +kernel, ?_, hfloors⟩
  exact hgrants (takeoverHistory.take 2) [] [] _ _ 7 alice bob (readAt 0) (readAt 31000000000)
    [.udp bob] [.udp alice] rfl rfl (by decide +kernel) rfl (by decide +kernel) (by simp)

end GravitalTalk.Relay
