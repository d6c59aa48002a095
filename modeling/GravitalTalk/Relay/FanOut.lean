import GravitalTalk.Relay.Entry
import GravitalTalk.Relay.RouterInvariant

/-! Who a datagram is forwarded to, in terms of the calls made before. -/
namespace GravitalTalk.Relay
open Lib GravitalTalk.Core Transport Trace

namespace Call

def Accepts (call : Call) (sessionId : UInt32) (sender : SessionEndpoint) : Prop :=
  ∃ now decision, call.input = .route sessionId sender now ∧ call.answer = .route decision ∧
    decision ≠ .dropped

def Closes (call : Call) (sessionId : UInt32) (e : SessionEndpoint) : Prop :=
  ∃ maxAgeSecs now closed tx, call.input = .evictIdle maxAgeSecs now closed ∧
    e = .webSocket tx ∧ closed sessionId tx

end Call

/-- The endpoint was accepted into the session since the session was last created, and not
removed as a closed channel after that. -/
def Member (past : List Call) (sessionId : UInt32) (e : SessionEndpoint) : Prop :=
  Since (Call.Accepts · sessionId e) (fun call => call.Evicts sessionId ∨ call.Closes sessionId e)
    past

def Registered (router : Router) (sessionId : UInt32) (e : SessionEndpoint) : Prop :=
  ∃ entry, router.routes[sessionId]? = some entry ∧ e ∈ entry.peers

section Calls
variable {router : Router} {op : Op} {k : UInt32} {e sender : SessionEndpoint} {now : Nat}
  {entry : RouteEntry} {decision : RouteDecision}

theorem registered_of_some (h : router.routes[k]? = some entry) :
    Registered router k e ↔ e ∈ entry.peers := by
  simp [Registered, h]

theorem not_registered_of_none (h : router.routes[k]? = none) : ¬Registered router k e := by
  simp [Registered, h]

theorem accepts_iff (h : (router.exec (.route k sender now)).2 = .route decision) :
    Call.Accepts (event Router.exec router (.route k sender now)) k e ↔
      e = sender ∧ decision ≠ .dropped := by
  constructor
  · rintro ⟨_, decision', hop, hanswer, hdecision⟩
    injection hop with _ hsender
    injection h.symm.trans hanswer with hsame
    exact ⟨hsender.symm, hsame ▸ hdecision⟩
  · rintro ⟨rfl, hdecision⟩
    exact ⟨now, decision, rfl, h, hdecision⟩

theorem not_undone (hstays : ∀ maxAgeSecs now closed, op ≠ .evictIdle maxAgeSecs now closed) :
    ¬(Call.Evicts (event Router.exec router op) k ∨
      Call.Closes (event Router.exec router op) k e) := by
  rintro (⟨⟨maxAgeSecs, now, closed, hop⟩, -⟩ | ⟨maxAgeSecs, now, closed, tx, hop, -⟩) <;>
    exact hstays _ _ _ hop

theorem registered_quiet {after : Option RouteEntry}
    (hafter : (router.exec op).1.routes[k]? = after)
    (hsame : after.map (·.peers) = router.routes[k]?.map (·.peers))
    (haccepts : ¬Call.Accepts (event Router.exec router op) k e)
    (hstays : ∀ maxAgeSecs now closed, op ≠ .evictIdle maxAgeSecs now closed) :
    Registered (router.exec op).1 k e ↔
      Call.Accepts (event Router.exec router op) k e ∨ Registered router k e ∧
        ¬(Call.Evicts (event Router.exec router op) k ∨
          Call.Closes (event Router.exec router op) k e) := by
  have hregistered : Registered (router.exec op).1 k e ↔ Registered router k e := by
    subst hafter
    unfold Registered
    cases h : (router.exec op).1.routes[k]? <;> cases h' : router.routes[k]? <;>
      simp_all
  simp only [hregistered, haccepts, not_undone hstays, not_false_eq_true, and_true, false_or]

theorem registered_route {decision : RouteDecision} {changed : RouteEntry}
    (hanswer : (router.exec (.route k sender now)).2 = .route decision)
    (hafter : (router.exec (.route k sender now)).1.routes[k]? = some changed)
    (hdecision : decision ≠ .dropped)
    (hpeers : e ∈ changed.peers ↔ e = sender ∨ Registered router k e) :
    Registered (router.exec (.route k sender now)).1 k e ↔
      Call.Accepts (event Router.exec router (.route k sender now)) k e ∨ Registered router k e ∧
        ¬(Call.Evicts (event Router.exec router (.route k sender now)) k ∨
          Call.Closes (event Router.exec router (.route k sender now)) k e) := by
  have hstays : ∀ maxAgeSecs now' closed,
      Op.route k sender now ≠ .evictIdle maxAgeSecs now' closed := by simp
  simp only [registered_of_some hafter, hpeers, accepts_iff hanswer, hdecision, ne_eq,
    not_false_eq_true, and_true, not_undone hstays]

theorem evicts_iff {maxAgeSecs : UInt64} {closed : UInt32 → Channel → Bool} :
    Call.Evicts (event Router.exec router (.evictIdle maxAgeSecs now closed)) k ↔
      router.routes[k]? ≠ none ∧
        (router.exec (.evictIdle maxAgeSecs now closed)).1.routes[k]? = none := by
  rw [ne_eq, Router.lookup_eq_none_iff, not_not, Router.lookup_eq_none_iff]
  exact ⟨fun h => h.2, fun h => ⟨⟨maxAgeSecs, now, closed, rfl⟩, h⟩⟩

theorem closes_iff {maxAgeSecs : UInt64} {closed : UInt32 → Channel → Bool} :
    Call.Closes (event Router.exec router (.evictIdle maxAgeSecs now closed)) k e ↔
      ∃ tx, e = .webSocket tx ∧ closed k tx := by
  constructor
  · rintro ⟨_, _, _, tx, hop, htx, hclosed⟩
    injection hop with _ _ hsame
    exact ⟨tx, htx, hsame ▸ hclosed⟩
  · rintro ⟨tx, htx, hclosed⟩
    exact ⟨maxAgeSecs, now, closed, tx, rfl, htx, hclosed⟩

theorem registered_exec (router : Router) (op : Op) (k : UInt32) (e : SessionEndpoint) :
    Registered (router.exec op).1 k e ↔
      Call.Accepts (event Router.exec router op) k e ∨ Registered router k e ∧
        ¬(Call.Evicts (event Router.exec router op) k ∨
          Call.Closes (event Router.exec router op) k e) := by
  have hstep := router.exec_entry op k
  generalize hafter : (router.exec op).1.routes[k]? = after at hstep
  generalize hbefore : router.routes[k]? = before at hstep
  generalize hanswer : (router.exec op).2 = answer at hstep
  cases hstep with
  | created =>
    apply registered_route hanswer hafter (by simp)
    simp [not_registered_of_none hbefore]
  | known hknown =>
    apply registered_route hanswer hafter (RouteDecision.toAll_ne_dropped _)
    rw [registered_of_some hbefore]
    exact ⟨.inr, fun h => h.elim (fun heq => heq ▸ hknown) id⟩
  | joined =>
    apply registered_route hanswer hafter (RouteDecision.toAll_ne_dropped _)
    rw [registered_of_some hbefore, List.mem_append, List.mem_singleton, or_comm]
  | full =>
    apply registered_quiet hafter (by simp [hbefore]) _ (by simp)
    simp [accepts_iff hanswer]
  | refused =>
    apply registered_quiet hafter (by simp [hbefore]) _ (by simp)
    simp [accepts_iff hanswer]
  | granted =>
    apply registered_quiet hafter (by simp [hbefore]) _ (by simp)
    simp [Call.Accepts, event]
  | notGranted =>
    apply registered_quiet hafter (by simp [hbefore]) _ (by simp)
    simp [Call.Accepts, event]
  | released =>
    apply registered_quiet hafter (by simp [hbefore]) _ (by simp)
    simp [Call.Accepts, event]
  | notReleased =>
    apply registered_quiet hafter (by simp [hbefore]) _ (by simp)
    simp [Call.Accepts, event]
  | kept hkept =>
    obtain ⟨-, -, hpeers, -⟩ := Router.keep_eq_some hkept
    rw [registered_of_some hafter, registered_of_some hbefore, hpeers, evicts_iff, closes_iff,
      hafter]
    simp [Call.Accepts, event]
  | evicted =>
    refine iff_of_false (not_registered_of_none hafter) ?_
    rw [evicts_iff, hbefore, hafter]
    simp [Call.Accepts, event]
  | absent =>
    refine iff_of_false (not_registered_of_none hafter) ?_
    simp [Call.Accepts, event, not_registered_of_none hbefore]
  | other hother hstays =>
    refine registered_quiet hafter (by rw [hbefore]) ?_ hstays
    rintro ⟨now, decision, hop, -⟩
    change op = _ at hop
    subst hop
    exact hother rfl

end Calls

theorem registered_iff_member (maxSessions maxPeers : Nat) (ops : List Op) (k : UInt32)
    (e : SessionEndpoint) :
    Registered (final Router.exec (.new maxSessions maxPeers .new) ops) k e ↔
      Member (history Router.exec (.new maxSessions maxPeers .new) ops) k e := by
  refine @history_induction _ _ _ Router.exec (fun past s => Registered s k e ↔ Member past k e)
    _ ?_ ?_ ops
  · refine iff_of_false ?_ not_since_nil
    rintro ⟨entry, hentry, -⟩
    simp [Router.new] at hentry
  · intro past router op ih
    rw [registered_exec, ih]
    unfold Member
    rw [since_concat]

theorem mem_targets {router after : Router} {k : UInt32} {sender : SessionEndpoint} {now : Nat}
    {decision : RouteDecision} (h : router.Routed k sender now after decision)
    (hdecision : decision ≠ .dropped) (e : SessionEndpoint) :
    e ∈ decision.targets ↔ e ≠ sender ∧ Registered router k e := by
  cases h with
  | zero => exact absurd rfl hdecision
  | known _ hentry => simp [Registered, hentry, and_comm]
  | full => exact absurd rfl hdecision
  | joined _ hentry hknown =>
    have hne : e ∈ _ → e ≠ sender := fun he heq => hknown (heq ▸ he)
    simpa [Registered, hentry] using hne
  | limit => exact absurd rfl hdecision
  | created _ hnew => simp [Registered, hnew, RouteDecision.targets]

theorem targets_nodup {maxSessions maxPeers : Nat} {router after : Router} {k : UInt32}
    {sender : SessionEndpoint} {now : Nat} {decision : RouteDecision}
    (hinv : TableInv maxSessions maxPeers router)
    (h : router.Routed k sender now after decision) : decision.targets.Nodup := by
  have hpeers : ∀ entry : RouteEntry, router.routes[k]? = some entry → entry.peers.Nodup := by
    intro entry hentry
    refine (hinv.peers k entry hentry).distinct.imp fun hne heq => hne ?_
    rw [SessionEndpoint.matchesEndpoint_iff]
    exact heq
  cases h with
  | zero => exact List.nodup_nil
  | known _ hentry =>
    rw [RouteDecision.targets_toAll]
    exact (hpeers _ hentry).filter _
  | full => exact List.nodup_nil
  | joined _ hentry =>
    rw [RouteDecision.targets_toAll]
    exact hpeers _ hentry
  | limit => exact List.nodup_nil
  | created => exact List.nodup_nil

/-- A datagram that is not dropped goes to every other member of its session, to each once, and
to nobody else. -/
theorem route_reaches_members (maxSessions maxPeers : Nat) (ops : List Op) (sessionId : UInt32)
    (sender : SessionEndpoint) (now : Nat) (decision : RouteDecision)
    (hroute : ((final Router.exec (.new maxSessions maxPeers .new) ops).route sessionId sender
      now).2 = decision)
    (hdecision : decision ≠ .dropped) :
    decision.targets.Nodup ∧
      (∀ e, e ∈ decision.targets ↔ ¬e.matchesEndpoint sender ∧
        Member (history Router.exec (.new maxSessions maxPeers .new) ops) sessionId e) ∧
      (∀ e ∈ decision.targets, ∃ call ∈ history Router.exec (.new maxSessions maxPeers .new) ops,
        Call.Accepts call sessionId e) ∧
      ∀ e ∈ decision.targets, ¬e.matchesEndpoint sender := by
  have hinv := tableInv_final maxSessions maxPeers ops
  have hcall := Router.route_routed (final Router.exec (.new maxSessions maxPeers .new) ops)
    sessionId sender now
  rw [hroute] at hcall
  have hmem : ∀ e, e ∈ decision.targets ↔ ¬e.matchesEndpoint sender ∧
      Member (history Router.exec (.new maxSessions maxPeers .new) ops) sessionId e := by
    intro e
    rw [mem_targets hcall hdecision, registered_iff_member, SessionEndpoint.matchesEndpoint_iff]
  refine ⟨targets_nodup hinv hcall, hmem, fun e he => ?_, fun e he => ((hmem e).mp he).1⟩
  obtain ⟨before, call, after, hpast, haccepts, -⟩ := ((hmem e).mp he).2
  rw [hpast]
  exact ⟨call, by simp, haccepts⟩

private def first : SessionEndpoint := .udp (.v4 1 4000)
private def second : SessionEndpoint := .webSocket 8

/-- The second endpoint's channel is closed for a while and it comes back. -/
private def rejoined : List Op :=
  [.route 7 first 0, .route 7 second 1, .route 9 (.webSocket 5) 2,
    .evictIdle 60 3 fun _ tx => tx == 8, .route 7 second 4]

theorem route_reaches_rejoined :
    Member (history Router.exec (.new 10 5 .new) rejoined) 7 second ∧
      ¬Member (history Router.exec (.new 10 5 .new) rejoined) 7 (.webSocket 5) := by
  have h := route_reaches_members 10 5 rejoined 7 first 5 (.broadcast [second])
    (by decide +kernel) (by simp)
  constructor
  · exact ((h.2.1 second).mp (by decide)).2
  · intro hmember
    have hnot : SessionEndpoint.webSocket 5 ∉ (RouteDecision.broadcast [second]).targets := by decide
    exact hnot ((h.2.1 _).mpr ⟨by decide, hmember⟩)

end GravitalTalk.Relay
