import GravitalTalk.Transport.CallInvariant

/-! The deadline may drop a handshake between its last stores.  A client that has accepted the
SessionConfirm still has both keys to store, and either side stores one key after the other.  A call
that fails with anything of this stored was dropped there. -/
namespace GravitalTalk.Transport.LoneCall
open Lib GravitalTalk.Core Transition Handshake Closing Trace

/-- The ServerHello that a SessionConfirm completes, and what the client drew. -/
structure Confirmation where
  secret : Key32
  nonce : Key32
  shown : ServerHello

def Confirmation.secrets (confirmation : Confirmation) (suite : Suite) : Secrets where
  shared := suite.diffieHellman confirmation.secret confirmation.shown.ephemeralPublicKey
  transcript := buildTranscript confirmation.nonce confirmation.shown.serverNonce
    confirmation.shown.sessionId

def Confirmation.key (confirmation : Confirmation) (suite : Suite) : SessionKey :=
  ((confirmation.secrets suite).keys suite).1

/-- What one side makes its keys from: its draws and the message it heard. -/
inductive Keying where
  | client (confirmation : Confirmation)
  | server (offer : Offer)

def Keying.key (suite : Suite) : Keying → SessionKey
  | .client confirmation => confirmation.key suite
  | .server offer => (serverKeys suite offer).1

def confirmationOf (pair : Client × ServerHello) : Confirmation :=
  ⟨pair.1.secret, pair.1.nonce, pair.2⟩

def clientHalf : ClientPc → Option ServerHello
  | .storeEncrypt shown | .storeDecrypt shown => some shown
  | _ => none

def clientHalfKeyed : ClientPc → Option ServerHello
  | .storeDecrypt shown => some shown
  | _ => none

def serverHalfKeyed : ServerPc → Option Offer
  | .storeDecrypt offer => some offer
  | _ => none

def storesKey : ServerPc → Option Offer
  | .storeEncrypt offer => some offer
  | _ => none

def halfConfirmed : Place → Option Confirmation
  | .client client => (clientHalf client.pc).map fun shown => confirmationOf (client, shown)
  | _ => none

def halfKeyed : Place → Option Keying
  | .client client =>
    (clientHalfKeyed client.pc).map fun shown => .client (confirmationOf (client, shown))
  | .server server | .attempt server => (serverHalfKeyed server.pc).map .server
  | _ => none

/-- The deadline comes, and the place is in between. -/
def cut {α : Type} (half : Place → Option α) (st : Lone) : Input → Option α
  | .deadline => half st.place
  | .moment _ | .flagged => none

def accepts (suite : Suite) (st : Lone) (input : Input) : Option Confirmation :=
  (confirmed suite st input).map confirmationOf

def keys (st : Lone) : Input → Option Keying
  | .moment _ => match st.place with
    | .client client => match client.pc with
      | .storeEncrypt shown => some (.client (confirmationOf (client, shown)))
      | _ => none
    | .server server | .attempt server => (storesKey server.pc).map .server
    | _ => none
  | .deadline | .flagged => none

theorem keyStored_keys (suite : Suite) : keyStored (storesEncrypt suite) =
    fun st input => (keys st input).map fun keying => some (keying.key suite) := by
  funext ⟨place, session⟩ input
  cases input with
  | deadline | flagged => rfl
  | moment moment =>
    cases place <;> try rfl
    case client client =>
      simp only [keyStored, storesEncrypt, keys]
      cases client.pc <;> rfl
    case server server | attempt server =>
      simp only [keyStored, storesEncrypt, keys]
      cases server.pc <;> rfl

theorem ssrcStored_accepts (suite : Suite) : ssrcStored suite = fun st input =>
    (accepts suite st input).map fun confirmation =>
      confirmation.shown.sessionId ^^^ keyHead (confirmation.key suite) := by
  funext st input
  simp only [ssrcStored, accepts, Option.map_map]
  rfl

section Steps
variable {suite : Suite} {aead : Aead} {call : Call} {session : Session} {moment : Moment}

structure Whole (place : Place) : Prop where
  confirmed : halfConfirmed place = none
  keyed : halfKeyed place = none

structure Carries (suite : Suite) (st : Lone) (input : Input) (place : Place) : Prop where
  confirmed : (accepts suite st input).or (halfConfirmed st.place) = halfConfirmed place
  keyed : (keys st input).or (halfKeyed st.place) = halfKeyed place

theorem Carries.whole {st : Lone} {input : Input} {place : Place} (hbefore : Whole st.place)
    (haccepts : accepts suite st input = none) (hkeys : keys st input = none)
    (hafter : Whole place) : Carries suite st input place := by
  refine ⟨?_, ?_⟩
  · rw [haccepts, hbefore.confirmed, hafter.confirmed]
    rfl
  · rw [hkeys, hbefore.keyed, hafter.keyed]
    rfl

theorem whole_client {client : Client} (h : clientHalf client.pc = none) : Whole (.client client) := by
  have hkeyed : clientHalfKeyed client.pc = none := by
    cases hpc : client.pc <;> simp_all [clientHalf, clientHalfKeyed]
  exact ⟨by rw [halfConfirmed, h]; rfl, by rw [halfKeyed, hkeyed]; rfl⟩

theorem clientSends_whole (c : Client) (env : Env) (msg : MessageType) (sessionId : UInt32)
    (payload : Except TransportError Bytes) {next : ClientPc} (hnext : clientHalf next = none) :
    Whole (.client (c.sends env msg sessionId payload next).1) :=
  c.sends_rule (fun out => Whole (.client out.1)) env msg sessionId payload next
    (fun _ => whole_client rfl) (fun _ _ _ _ _ _ => whole_client rfl)
    fun _ _ _ _ _ => whole_client hnext

theorem client_carries {c c' : Client} (hc' : c' = { c with session := session })
    (hfailed : ∀ shown, (c'.step suite moment.env moment.event).1.pc ≠ .returned (.ok shown)) :
    Carries suite ⟨.client c, session⟩ (.moment moment)
      (.client (c'.step suite moment.env moment.event).1) := by
  have hpc' : c'.pc = c.pc := by rw [hc']
  have hsession : c'.session = session := by rw [hc']
  have hdraws : c'.secret = c.secret ∧ c'.nonce = c.nonce := by rw [hc']; exact ⟨rfl, rfl⟩
  unfold Client.step at hfailed ⊢
  rw [hpc'] at hfailed ⊢
  cases hpc : c.pc <;> simp only [hpc] at hfailed ⊢
  case sendHello attempt =>
    generalize encoded _ = payload
    exact .whole (whole_client (by rw [hpc]; rfl)) (by simp only [accepts, confirmed, hpc]; rfl)
      (by simp only [keys, hpc]) (clientSends_whole c' _ _ _ _ rfl)
  case awaitHello attempt =>
    refine .whole (whole_client (by rw [hpc]; rfl)) (by simp only [accepts, confirmed, hpc]; rfl)
      (by simp only [keys, hpc]) ?_
    exact c'.onHello_rule (fun after => Whole (.client after)) attempt moment.event
      (whole_client rfl) (fun _ => whole_client rfl) (fun _ _ _ => whole_client rfl)
      fun _ _ _ _ _ _ => whole_client rfl
  case sendKeyExchange shown =>
    generalize encoded _ = payload
    exact .whole (whole_client (by rw [hpc]; rfl)) (by simp only [accepts, confirmed, hpc]; rfl)
      (by simp only [keys, hpc]) (clientSends_whole c' _ _ _ _ rfl)
  case awaitConfirm shown =>
    have hkeys : keys ⟨.client c, session⟩ (.moment moment) = none := by simp only [keys, hpc]
    have hwhole : Whole (.client c) := whole_client (by rw [hpc]; rfl)
    cases hconfirms : confirms suite session c shown moment.event with
    | true =>
      have haccepts : accepts suite ⟨.client c, session⟩ (.moment moment) =
          some (confirmationOf (c, shown)) := by
        simp only [accepts, confirmed, hpc, hconfirms, if_true, Option.map_some]
      have hafter : c'.onConfirm suite shown moment.event = _ :=
        onConfirm_confirms (by rw [hsession, hc']; exact hconfirms)
      rw [hafter]
      refine ⟨?_, ?_⟩
      · rw [haccepts, hwhole.confirmed]
        simp only [halfConfirmed, clientHalf, confirmationOf, hdraws, Option.map_some,
          Option.or_none]
      · rw [hkeys, hwhole.keyed]
        rfl
    | false =>
      have haccepts : accepts suite ⟨.client c, session⟩ (.moment moment) = none := by
        simp only [accepts, confirmed, hpc, hconfirms, Bool.false_eq_true, if_false,
          Option.map_none]
      have hignores : confirms suite c'.session c' shown moment.event = false := by
        rw [hsession, hc']
        exact hconfirms
      refine .whole hwhole haccepts hkeys ?_
      obtain hafter | ⟨e, hafter⟩ := onConfirm_ignores hignores <;> rw [hafter]
      · exact whole_client (by rw [hpc', hpc]; rfl)
      · exact whole_client rfl
  case storeEncrypt shown =>
    constructor <;>
      simp [accepts, confirmed, keys, halfConfirmed, halfKeyed, clientHalf, clientHalfKeyed,
        confirmationOf, hpc, hdraws]
  case storeDecrypt shown => exact absurd rfl (hfailed shown)
  case returned result =>
    exact .whole (whole_client (by rw [hpc]; rfl)) (by simp only [accepts, confirmed, hpc]; rfl)
      (by simp only [keys, hpc]) (whole_client (by rw [hpc', hpc]; rfl))

theorem finishes_whole {s : Server} (h : Fixed s) (result : Except TransportError Offer) :
    serverHalfKeyed (s.finishes result).pc = none := by
  obtain ⟨peer, hmode⟩ := h.mode
  rw [Server.finishes_fixed hmode]
  rfl

theorem serverSends_whole {s : Server} (h : Fixed s) (env : Env) (msg : MessageType)
    (sessionId : UInt32) (payload : Except TransportError Bytes) (peer : SocketAddr)
    {next : ServerPc} (hnext : serverHalfKeyed next = none) :
    serverHalfKeyed (s.sends env msg sessionId payload peer next).1.pc = none :=
  s.sends_rule (fun out => serverHalfKeyed out.1.pc = none) env msg sessionId payload peer next
    (fun _ => finishes_whole h _)
    (fun _ _ _ _ _ _ => finishes_whole (by exact ⟨h.mode, h.pc⟩) _) fun _ _ _ _ _ => hnext

theorem negotiates_whole {s : Server} (h : Fixed s) (rand : Rand) (hello : ClientHello)
    (peer : SocketAddr) : serverHalfKeyed (s.negotiates suite rand hello peer).pc = none :=
  s.negotiates_rule (fun after => serverHalfKeyed after.pc = none) suite rand hello peer
    (fun _ _ => finishes_whole (by exact ⟨h.mode, h.pc⟩) _) fun _ _ _ => rfl

theorem server_half {s : Server} (h : Fixed s)
    (hfailed : ∀ offer, (s.step suite moment.rand moment.env moment.event).1.pc ≠
      .returned (.ok offer)) :
    (storesKey s.pc).or (serverHalfKeyed s.pc) =
      serverHalfKeyed (s.step suite moment.rand moment.env moment.event).1.pc := by
  obtain ⟨peer, hmode⟩ := h.mode
  unfold Server.step at hfailed ⊢
  cases hpc : s.pc <;> simp only [hpc] at hfailed ⊢
  case attempt => exact absurd hpc h.pc
  case helloTop | keyTop offer =>
    split_ifs
    · exact (finishes_whole h _).symm
    · rfl
  case awaitHello =>
    simp only [hmode]
    exact (s.onHelloFrom_rule (fun after => serverHalfKeyed after.pc = none) suite moment.rand peer
      moment.event (by rw [hpc]; rfl) (fun _ => finishes_whole h _)
      fun _ _ hello _ _ _ => negotiates_whole h _ hello peer).symm
  case sendHello offer | resendHello offer =>
    unfold Server.sendsHello
    generalize encoded _ = payload
    exact (serverSends_whole h _ _ _ _ _ rfl).symm
  case awaitKeyExchange offer =>
    exact (s.onKeyExchange_rule (fun after => serverHalfKeyed after.pc = none) suite offer
      moment.event rfl (fun _ => finishes_whole h _) (fun _ _ _ _ => rfl)
      fun _ _ _ _ _ _ _ => rfl).symm
  case sendConfirm offer =>
    generalize encoded _ = payload
    exact (serverSends_whole h _ _ _ _ _ rfl).symm
  case storeEncrypt offer => rfl
  case storeDecrypt offer =>
    refine absurd ?_ (hfailed offer)
    rw [Server.finishes_fixed (by exact hmode)]
  case returned result => rfl

theorem any_half {s : Server} (h : Fixed s)
    (hfailed : ∀ offer, (anyStep s suite moment.rand moment.env moment.event).1.pc ≠
      .returned (.ok offer)) :
    (storesKey s.pc).or (serverHalfKeyed s.pc) =
      serverHalfKeyed (anyStep s suite moment.rand moment.env moment.event).1.pc := by
  by_cases hpc : s.pc = .awaitHello
  · rw [anyStep_greets hpc, hpc]
    refine Eq.symm (s.onHelloAny_rule (fun after => serverHalfKeyed after.pc = none) suite moment.rand
      moment.event rfl (fun _ => finishes_whole h _) fun _ _ hello _ _ => ?_)
    exact negotiates_whole (by exact ⟨h.mode, h.pc⟩) _ hello _
  · rw [anyStep_serves hpc] at hfailed ⊢
    exact server_half h hfailed

theorem clientMoves_carries (client : Client)
    (hfailed : ¬Succeeded (clientMoves suite moment session client).place) :
    Carries suite ⟨.client client, session⟩ (.moment moment)
      (clientMoves suite moment session client).place := by
  have hcarries := @client_carries suite session moment client _ rfl
  unfold clientMoves at hfailed ⊢
  simp only at hfailed ⊢
  split at hfailed
  next result hpc =>
    cases result with
    | ok shown => exact absurd trivial hfailed
    | error e =>
      obtain ⟨hconfirmed, hkeyed⟩ := hcarries fun shown => by rw [hpc]; nofun
      simp only [halfConfirmed, halfKeyed, hpc] at hconfirmed hkeyed
      exact ⟨hconfirmed, hkeyed⟩
  next hpc => exact hcarries fun shown => hpc (.ok shown)

theorem Carries.serves {s : Server} {place after : Place} {pc : ServerPc}
    (hplace : place = .server s ∨ place = .attempt s)
    (hhalf : (storesKey s.pc).or (serverHalfKeyed s.pc) = serverHalfKeyed pc)
    (hconfirmed : halfConfirmed after = none)
    (hkeyed : halfKeyed after = (serverHalfKeyed pc).map .server) :
    Carries suite ⟨place, session⟩ (.moment moment) after := by
  have hbefore : keys ⟨place, session⟩ (.moment moment) = (storesKey s.pc).map .server ∧
      halfKeyed place = (serverHalfKeyed s.pc).map .server := by
    obtain rfl | rfl := hplace <;> exact ⟨rfl, rfl⟩
  refine ⟨?_, ?_⟩
  · rw [hconfirmed]
    obtain rfl | rfl := hplace <;> rfl
  · rw [hbefore.1, hbefore.2, hkeyed, ← hhalf, Option.map_or]

theorem serverMoves_carries {server : Server} (h : Fixed server)
    (hfailed : ¬Succeeded (serverMoves suite moment session server).place) :
    Carries suite ⟨.server server, session⟩ (.moment moment)
      (serverMoves suite moment session server).place := by
  have hfixed : Fixed { server with session := session } := ⟨h.mode, h.pc⟩
  have hhalf := @server_half suite moment _ hfixed
  unfold serverMoves at hfailed ⊢
  simp only at hfailed ⊢
  split at hfailed
  next result hpc =>
    cases result with
    | ok offer => exact absurd trivial hfailed
    | error e =>
      have hhalf := hhalf fun offer => by rw [hpc]; nofun
      exact .serves (.inl rfl) hhalf rfl (by rw [hpc]; rfl)
  next hpc => exact .serves (.inl rfl) (hhalf fun offer => hpc (.ok offer)) rfl rfl

theorem attemptMoves_carries {server : Server} (h : Fixed server)
    (hfailed : ¬Succeeded (attemptMoves suite moment session server).place) :
    Carries suite ⟨.attempt server, session⟩ (.moment moment)
      (attemptMoves suite moment session server).place := by
  have hfixed : Fixed { server with session := session } := ⟨h.mode, h.pc⟩
  have hhalf := @any_half suite moment _ hfixed
  unfold attemptMoves at hfailed ⊢
  simp only at hfailed ⊢
  split at hfailed
  next result hpc =>
    cases result with
    | ok offer => exact absurd trivial hfailed
    | error e =>
      have hhalf := hhalf fun offer => by rw [hpc]; nofun
      exact .serves (.inr rfl) hhalf rfl (by rw [hpc]; rfl)
  next hpc => exact .serves (.inr rfl) (hhalf fun offer => hpc (.ok offer)) rfl rfl

theorem whole_succeeds : Whole (succeeds session).place := by
  unfold Closing.succeeds
  split <;> exact ⟨rfl, rfl⟩

theorem moves_carries {place : Place} (hcall : call ≠ .recvAudio) (hsuits : Suits call place)
    (hfailed : ¬Succeeded (moves suite aead moment session call place).place) :
    Carries suite ⟨place, session⟩ (.moment moment)
      (moves suite aead moment session call place).place := by
  cases place <;> simp only [moves] at hfailed ⊢
  case start =>
    refine .whole ⟨rfl, rfl⟩ rfl rfl ?_
    unfold begins
    cases call <;> simp only
    case handshake role peer => exact ⟨rfl, rfl⟩
    case recvAudio => exact ⟨rfl, rfl⟩
    case handshakeOpen => split <;> exact ⟨rfl, rfl⟩
  case lockState role peer =>
    refine .whole ⟨rfl, rfl⟩ rfl rfl ?_
    unfold locksState
    simp only
    split
    · exact ⟨rfl, rfl⟩
    · cases role <;> exact ⟨rfl, rfl⟩
  case client client => exact clientMoves_carries client hfailed
  case server server => exact serverMoves_carries hsuits.1 hfailed
  case settle result =>
    refine .whole ⟨rfl, rfl⟩ rfl rfl ?_
    unfold Closing.settles
    split
    · exact whole_succeeds
    · exact ⟨rfl, rfl⟩
  case loopTop =>
    refine .whole ⟨rfl, rfl⟩ rfl rfl ?_
    split_ifs <;> exact ⟨rfl, rfl⟩
  case lockClose => exact .whole ⟨rfl, rfl⟩ rfl rfl ⟨rfl, rfl⟩
  case attempt server => exact attemptMoves_carries hsuits.1 hfailed
  case settleOpen result =>
    refine .whole ⟨rfl, rfl⟩ rfl rfl ?_
    unfold settlesOpen
    split
    · exact whole_succeeds
    · exact ⟨rfl, rfl⟩
    · exact ⟨rfl, rfl⟩
  case forgetPeer => exact .whole ⟨rfl, rfl⟩ rfl rfl ⟨rfl, rfl⟩
  case recvTop deadlineUs | recvWait deadlineUs => exact absurd hsuits hcall
  case returned answer => exact .whole ⟨rfl, rfl⟩ rfl rfl ⟨rfl, rfl⟩

theorem exec_carries {st : Lone} {input : Input} (hcall : call ≠ .recvAudio)
    (hsuits : Suits call st.place) (hfailed : ¬Succeeded (exec suite aead call st input).1.place) :
    (accepts suite st input).or (halfConfirmed st.place) =
        (halfConfirmed (exec suite aead call st input).1.place).or (cut halfConfirmed st input) ∧
      (keys st input).or (halfKeyed st.place) =
        (halfKeyed (exec suite aead call st input).1.place).or (cut halfKeyed st input) := by
  obtain ⟨place, session⟩ := st
  cases input with
  | moment moment =>
    obtain ⟨hconfirmed, hkeyed⟩ :=
      @moves_carries suite aead call session moment place hcall hsuits hfailed
    exact ⟨hconfirmed.trans (Option.or_none).symm, hkeyed.trans (Option.or_none).symm⟩
  | flagged => exact ⟨(Option.or_none).symm, (Option.or_none).symm⟩
  | deadline => cases place <;> exact ⟨rfl, rfl⟩

/-- What a call that failed had accepted, and the key it had stored, the deadline cut short. -/
theorem failed_cut {start : Session} {inputs : List Input} {e : TransportError}
    (hfailed : (done suite aead call start inputs).place = .returned (.handshake (.error e))) :
    lastOf (accepts suite) (run suite aead call start inputs) =
        lastOf (cut halfConfirmed) (run suite aead call start inputs) ∧
      lastOf keys (run suite aead call start inputs) =
        lastOf (cut halfKeyed) (run suite aead call start inputs) := by
  have hcall := handshake_call hfailed
  let inv (past : List (Event Lone Input (List Sent))) (st : Lone) : Prop :=
    (Suits call st.place ∧ (st.place.Driving → st.session.state.state = .handshaking)) ∧
      (¬Succeeded st.place →
        lastOf (accepts suite) past =
            (halfConfirmed st.place).or (lastOf (cut halfConfirmed) past) ∧
          lastOf keys past = (halfKeyed st.place).or (lastOf (cut halfKeyed) past))
  have hstep : ∀ past st input, inv past st →
      inv (past ++ [event (exec suite aead call) st input]) (exec suite aead call st input).1 := by
    rintro past st input ⟨⟨hsuits, hdriving⟩, h⟩
    refine ⟨⟨suits_exec hsuits, driving_exec hsuits hdriving⟩, fun hfailed => ?_⟩
    obtain ⟨hconfirmed, hkeyed⟩ := exec_carries hcall hsuits hfailed
    obtain ⟨haccepts, hkeys⟩ := h fun hsucceeded => hfailed (succeeded_exec hdriving hsucceeded)
    exact ⟨lastOf_carried haccepts hconfirmed, lastOf_carried hkeys hkeyed⟩
  have hinit : inv [] ⟨.start, start⟩ := ⟨⟨trivial, nofun⟩, fun _ => ⟨rfl, rfl⟩⟩
  have hrun := (@history_induction _ _ _ _ inv _ hinit hstep inputs).2
  simp only [hfailed] at hrun
  exact hrun not_false

end Steps

end GravitalTalk.Transport.LoneCall
