import GravitalTalk.Transport.HandshakeNoise

/-! Whether datagrams of strangers can change the outcome of a handshake.  A client counts every one
of them as an attempt. -/
namespace GravitalTalk.Transport.Handshake
open Lib GravitalTalk.Core Insertion

def exhausted : TransportError := .handshake "client retries exhausted"

def Silent : RecvEvent → Prop
  | .failed _ | .timeout => True
  | .datagram _ => False

namespace Client

def Answers (self : Client) : RecvEvent → Prop
  | .datagram datagram => datagram.source = self.peer ∧ ∃ view,
      received self.session datagram = .ok view ∧
        view.header.msgType = MessageType.handshakeServerHello.code
  | .failed _ | .timeout => False

/-- With `n` receives behind it, the client meets a silent one, the seventh or a later one, before
any ServerHello of its peer. -/
def GivesUp (self : Client) (n : Nat) (receives : List Receive) : Prop :=
  ∃ before receive after, receives = before ++ receive :: after ∧ 6 ≤ n + before.length ∧
    Silent receive.event ∧ ∀ earlier ∈ before, ¬self.Answers earlier.event

def Fits (self : Client) : Prop := headerSize + ClientHello.size + 4 ≤ self.session.config.mtu

theorem not_givesUp_nil (c : Client) (n : Nat) : ¬c.GivesUp n [] := by
  rintro ⟨before, receive, after, h, -⟩
  simp at h

theorem givesUp_cons (c : Client) (n : Nat) (receive : Receive) (rest : List Receive) :
    c.GivesUp n (receive :: rest) ↔ (6 ≤ n ∧ Silent receive.event) ∨
      (¬c.Answers receive.event ∧ c.GivesUp (n + 1) rest) := by
  constructor
  · rintro ⟨before, last, after, heq, hcount, hsilent, hbefore⟩
    cases before with
    | nil =>
      obtain ⟨rfl, rfl⟩ := List.cons.inj heq
      exact .inl ⟨hcount, hsilent⟩
    | cons first before =>
      obtain ⟨rfl, rfl⟩ := List.cons.inj heq
      refine .inr ⟨hbefore _ (List.mem_cons_self ..), before, last, after, rfl, ?_, hsilent,
        fun earlier h => hbefore earlier (List.mem_cons_of_mem _ h)⟩
      simp only [List.length_cons] at hcount
      omega
  · rintro (⟨hcount, hsilent⟩ | ⟨hanswers, before, last, after, rfl, hcount, hsilent, hbefore⟩)
    · exact ⟨[], receive, rest, rfl, hcount, hsilent, by simp⟩
    · refine ⟨receive :: before, last, after, rfl, ?_, hsilent, fun earlier h => ?_⟩
      · simp only [List.length_cons]
        omega
      · obtain rfl | h := List.mem_cons.mp h
        · exact hanswers
        · exact hbefore earlier h

def Counts (attempt : UInt32) (n : Nat) : Prop := attempt.toNat = min n 0xFFFFFFFF

theorem counts_toNat (attempt : UInt32) : Counts attempt attempt.toNat := by
  have hlt := attempt.toNat_lt
  show attempt.toNat = min attempt.toNat 4294967295
  omega

theorem counts_succ {attempt : UInt32} {n : Nat} (h : Counts attempt n) :
    Counts (saturatingSucc attempt) (n + 1) := by
  unfold Counts saturatingSucc at *
  split_ifs with hmax
  · subst hmax
    change 4294967295 = min n 4294967295 at h
    change 4294967295 = min (n + 1) 4294967295
    omega
  · have hne : attempt.toNat ≠ 4294967295 := fun heq => hmax (UInt32.toNat_inj.mp heq)
    rw [UInt32.toNat_add]
    change (attempt.toNat + 1) % 4294967296 = _
    omega

theorem counts_over {attempt : UInt32} {n : Nat} (h : Counts attempt n) :
    saturatingSucc attempt > 6 ↔ 6 ≤ n := by
  have hsucc := counts_succ h
  unfold Counts at hsucc
  rw [gt_iff_lt, UInt32.lt_iff_toNat_lt, hsucc]
  change 6 < _ ↔ _
  omega

section Hello
variable {c t : Client} {suite : Suite} {env : Env} {attempt : UInt32}

theorem sends_accepted (c : Client) (haccepts : env.Accepts) (msg : MessageType)
    (sessionId : UInt32) {payload : Bytes} (next : ClientPc)
    (hsize : payload.length ≤ maxPayloadSize)
    (hmtu : headerSize + payload.length + 4 ≤ c.session.config.mtu) :
    Client.Like { c with pc := next } (c.sends env msg sessionId (.ok payload) next).1 := by
  obtain ⟨after, header, hsends, ⟨txSequence, metrics, rfl⟩, -⟩ :=
    c.sends_ok haccepts msg sessionId next hsize hmtu
  rw [hsends]
  exact ⟨txSequence, metrics, rfl⟩

theorem settles_sendHello (hpc : c.pc = .sendHello attempt) (hfits : c.Fits)
    (haccepts : env.Accepts) :
    Client.Like { c with pc := .awaitHello attempt }
      (settles Client.receives (Client.next suite) c env) := by
  have hidle : c.receives = false := by rw [receives, hpc]
  have hnext : Client.Like { c with pc := .awaitHello attempt } (c.next suite env .timeout) := by
    simp only [next, step, hpc, encoded_clientHello]
    refine sends_accepted c haccepts _ _ _ ?_ ?_
    · simp [maxPayloadSize, defaultMtu, headerSize, ClientHello.size]
    · simpa [Fits] using hfits
  have hreceives : (c.next suite env .timeout).receives = true := by
    obtain ⟨txSequence, metrics, heq⟩ := hnext
    rw [heq]
    rfl
  rw [settles_next hidle hreceives]
  exact hnext

theorem Like.trans {a b d : Client} (h : a.Like b) (h' : b.Like d) : a.Like d := by
  obtain ⟨txSequence, metrics, rfl⟩ := h
  obtain ⟨txSequence', metrics', rfl⟩ := h'
  exact ⟨txSequence', metrics', rfl⟩

theorem Like.moves {a b : Client} (h : a.Like b) (pc : ClientPc) :
    Client.Like { a with pc := pc } { b with pc := pc } := by
  obtain ⟨txSequence, metrics, rfl⟩ := h
  exact ⟨txSequence, metrics, rfl⟩

def Awaits (c : Client) (attempt : UInt32) (t : Client) : Prop :=
  Client.Like { c with pc := .awaitHello attempt } t

theorem Awaits.pc (h : Awaits c attempt t) : t.pc = .awaitHello attempt := by
  obtain ⟨txSequence, metrics, rfl⟩ := h
  rfl

theorem Awaits.receives (h : Awaits c attempt t) : t.receives = true := by
  rw [Client.receives, h.pc]

theorem Awaits.answers_iff (h : Awaits c attempt t) (event : RecvEvent) :
    t.Answers event ↔ c.Answers event := by
  obtain ⟨txSequence, metrics, rfl⟩ := h
  cases event <;> exact Iff.rfl

theorem Awaits.fits_iff (h : Awaits c attempt t) : t.Fits ↔ c.Fits := by
  obtain ⟨txSequence, metrics, rfl⟩ := h
  exact Iff.rfl

theorem onHello_again (t : Client) {event : RecvEvent} (hanswers : ¬t.Answers event)
    (hover : Silent event → ¬saturatingSucc attempt > 6) :
    t.onHello attempt event = { t with pc := .sendHello (saturatingSucc attempt) } := by
  cases event with
  | timeout => simp only [onHello, if_neg (hover trivial)]
  | failed e => simp only [onHello, if_neg (hover trivial)]
  | datagram datagram =>
    simp only [onHello]
    split_ifs with hsource
    · rfl
    · cases hview : received t.session datagram with
      | error e => rfl
      | ok view =>
        simp only
        split_ifs with htype
        · rfl
        · exact absurd ⟨not_not.mp hsource, view, hview, not_not.mp htype⟩ hanswers

theorem onHello_exhausted (t : Client) {event : RecvEvent} (hsilent : Silent event)
    (hover : saturatingSucc attempt > 6) :
    t.onHello attempt event = { t with pc := .returned (.error exhausted) } := by
  cases event with
  | timeout => simp only [onHello, if_pos hover, exhausted]
  | failed e => simp only [onHello, if_pos hover, exhausted]
  | datagram datagram => cases hsilent

theorem Awaits.hears_again (h : Awaits c attempt t) (hfits : c.Fits) {receive : Receive}
    (hanswers : ¬c.Answers receive.event)
    (hover : Silent receive.event → ¬saturatingSucc attempt > 6) :
    Awaits c (saturatingSucc attempt) (hears Client.receives (Client.next suite) t receive) := by
  have hnext : t.next suite receive.env receive.event =
      { t with pc := .sendHello (saturatingSucc attempt) } := by
    simp only [next, step, h.pc]
    exact onHello_again t (mt (h.answers_iff _).mp hanswers) hover
  rw [hears_receiving receive h.receives, hnext]
  have hwaits : Client.Like { t with pc := .awaitHello (saturatingSucc attempt) } _ :=
    @settles_sendHello { t with pc := .sendHello (saturatingSucc attempt) } suite receive.env _ rfl
      (h.fits_iff.mpr hfits) receive.accepts
  exact (h.moves _).trans hwaits

theorem settles_returned {result : Except TransportError ServerHello}
    (hpc : c.pc = .returned result) : settles Client.receives (Client.next suite) c env = c := by
  have hidle : c.receives = false := by rw [receives, hpc]
  have hstays : c.next suite env .timeout = c := by simp only [next, step, hpc]
  simp only [settles, advances, hidle, hstays, Bool.false_eq_true, if_false]

theorem Awaits.hears_exhausted (h : Awaits c attempt t) {receive : Receive}
    (hsilent : Silent receive.event) (hover : saturatingSucc attempt > 6) :
    Client.Like { c with pc := .returned (.error exhausted) }
      (hears Client.receives (Client.next suite) t receive) := by
  have hnext : t.next suite receive.env receive.event =
      { t with pc := .returned (.error exhausted) } := by
    simp only [next, step, h.pc]
    exact onHello_exhausted t hsilent hover
  rw [hears_receiving receive h.receives, hnext, settles_returned rfl]
  exact h.moves _

end Hello

end Client

/-- Places a client gets to only with a ServerHello. -/
def ClientPc.Past : ClientPc → Prop
  | .sendHello _ | .awaitHello _ => False
  | .returned (.error e) => e ≠ exhausted
  | _ => True

namespace Client

section Past
variable {c t : Client} {suite : Suite} {env : Env}

/-- The receive did not fail with an error of the handshake's own. -/
def FromTransport (event : RecvEvent) : Prop := ∀ reason, event ≠ .failed (.handshake reason)

theorem past_protocol (e : Error) : (ClientPc.returned (.error (.protocol e))).Past := by
  simp [ClientPc.Past, exhausted]

theorem past_checkServerHello {config : Config} {payload : Bytes} {e : TransportError}
    (h : checkServerHello config payload = .error e) : e ≠ exhausted := by
  unfold checkServerHello at h
  cases hdecode : ServerHello.decode payload with
  | error found =>
    rw [hdecode] at h
    cases h
    simp [exhausted]
  | ok serverHello =>
    simp only [hdecode] at h
    split_ifs at h <;> cases h <;> simp [exhausted]

theorem past_onHello {attempt : UInt32} {event : RecvEvent} (hanswers : c.Answers event) :
    (c.onHello attempt event).pc.Past := by
  cases event with
  | timeout => cases hanswers
  | failed e => cases hanswers
  | datagram datagram =>
    obtain ⟨hsource, view, hview, htype⟩ := hanswers
    simp only [onHello, hsource, hview, htype, ne_eq, not_true_eq_false, if_false]
    cases hcheck : checkServerHello c.session.config view.payload with
    | error e => exact past_checkServerHello hcheck
    | ok serverHello => trivial

theorem past_onConfirm {serverHello : ServerHello} (hpast : c.pc.Past) {event : RecvEvent}
    (htransport : FromTransport event) : (c.onConfirm suite serverHello event).pc.Past := by
  cases event with
  | timeout => exact hpast
  | failed e =>
    rintro rfl
    exact htransport _ rfl
  | datagram datagram =>
    simp only [onConfirm]
    split_ifs with hsource
    · exact hpast
    · cases received c.session datagram with
      | error e => exact hpast
      | ok view =>
        simp only
        split_ifs with htype
        · exact hpast
        · cases SessionConfirm.decode view.payload with
          | error e => exact past_protocol e
          | ok confirm =>
            simp only
            split_ifs <;> simp [ClientPc.Past, exhausted]

theorem past_sends (c : Client) (haccepts : env.Accepts) (msg : MessageType) (sessionId : UInt32)
    (payload : Bytes) {next : ClientPc} (hnext : next.Past) :
    (c.sends env msg sessionId (.ok payload) next).1.pc.Past := by
  simp only [sends, Session.sendControl, Session.sendPacket]
  generalize PacketHeader.new _ _ _ _ = header
  cases Session.encodePacket c.session.config.mtu header payload with
  | error e => exact past_protocol e
  | ok data =>
    obtain ⟨n, hsend⟩ := haccepts data c.peer
    simp only [hsend]
    exact hnext

theorem past_next (hpast : c.pc.Past) (haccepts : env.Accepts) {event : RecvEvent}
    (htransport : FromTransport event) : (c.next suite env event).pc.Past := by
  unfold next step
  cases hat : c.pc <;> simp only [hat] at hpast ⊢
  case sendHello => cases hpast
  case awaitHello => cases hpast
  case sendKeyExchange serverHello =>
    simp only [KeyExchangeMsg.encode, KeyExchangeMsg.size, encoded_tagged]
    exact past_sends c haccepts _ _ _ trivial
  case awaitConfirm serverHello =>
    refine past_onConfirm ?_ htransport
    rw [hat]
    trivial
  case storeEncrypt => trivial
  case storeDecrypt => trivial
  case returned => exact hpast

theorem sends_peer (c : Client) (env : Env) (msg : MessageType) (sessionId : UInt32)
    (payload : Except TransportError Bytes) (next : ClientPc) :
    (c.sends env msg sessionId payload next).1.peer = c.peer :=
  c.sends_rule (fun out => out.1.peer = c.peer) env msg sessionId payload next (fun _ => rfl)
    (fun _ _ _ _ _ _ => rfl) fun _ _ _ _ _ => rfl

theorem onHello_peer (c : Client) (attempt : UInt32) (event : RecvEvent) :
    (c.onHello attempt event).peer = c.peer :=
  c.onHello_rule (fun c' => c'.peer = c.peer) attempt event rfl (fun _ => rfl) (fun _ _ _ => rfl)
    fun _ _ _ _ _ _ => rfl

theorem onConfirm_peer (c : Client) (suite : Suite) (serverHello : ServerHello)
    (event : RecvEvent) : (c.onConfirm suite serverHello event).peer = c.peer :=
  c.onConfirm_rule (fun c' => c'.peer = c.peer) suite serverHello event rfl (fun _ => rfl)
    fun _ _ _ _ _ _ _ => rfl

theorem next_peer (c : Client) (suite : Suite) (env : Env) (event : RecvEvent) :
    (c.next suite env event).peer = c.peer := by
  unfold next step
  cases hat : c.pc <;> simp only
  case sendHello => exact sends_peer c env _ _ _ _
  case awaitHello => exact onHello_peer c _ event
  case sendKeyExchange => exact sends_peer c env _ _ _ _
  case awaitConfirm => exact onConfirm_peer c suite _ event

theorem past_ignores (hpast : c.pc.Past) {receive : Receive}
    (hstranger : Stranger c.peer receive) :
    hears Client.receives (Client.next suite) c receive = c := by
  obtain ⟨datagram, hevent, hsource⟩ := hstranger
  cases hat : c.pc <;> simp only [hat] at hpast
  case sendHello => cases hpast
  case awaitHello => cases hpast
  case awaitConfirm serverHello =>
    have hwaits : c.receives = true := by rw [receives, hat]
    have hnext : c.next suite receive.env receive.event = c := by
      simp only [next, step, hat, hevent, onConfirm, ne_eq, hsource, not_false_eq_true, if_true]
    rw [hears_receiving receive hwaits, hnext, settles_receiving hwaits]
  all_goals
    apply hears_idle
    rw [receives, hat]

theorem Like.receives_eq (h : c.Like t) : c.receives = t.receives := by
  obtain ⟨txSequence, metrics, rfl⟩ := h
  rfl

theorem Like.outcome_eq (h : c.Like t) : c.outcome = t.outcome := by
  obtain ⟨txSequence, metrics, rfl⟩ := h
  rfl

theorem past_result (hpast : c.pc.Past) : c.outcome.result ≠ some (.error exhausted) := by
  unfold outcome
  cases hat : c.pc <;> simp only [hat] at hpast ⊢ <;> try simp
  case returned result =>
    cases result with
    | ok _ => simp [Except.map]
    | error e => simpa [Except.map, ClientPc.Past] using hpast

theorem Like.pc_eq (h : c.Like t) : t.pc = c.pc := by
  obtain ⟨txSequence, metrics, rfl⟩ := h
  rfl

theorem Like.peer_eq (h : c.Like t) : t.peer = c.peer := by
  obtain ⟨txSequence, metrics, rfl⟩ := h
  rfl

/-- Two clients past the ServerHello that differ only in what they have counted. -/
structure PastLike (peer : SocketAddr) (a b : Client) : Prop where
  past : a.pc.Past
  peer : a.peer = peer
  like : a.Like b

theorem PastLike.next {peer : SocketAddr} {a b : Client} (h : PastLike peer a b) {env env' : Env}
    (haccepts : env.Accepts) (haccepts' : env'.Accepts) {event : RecvEvent}
    (htransport : FromTransport event) :
    PastLike peer (a.next suite env event) (b.next suite env' event) where
  past := past_next h.past haccepts htransport
  peer := (a.next_peer suite env event).trans h.peer
  like := h.like.step suite haccepts haccepts' event

theorem PastLike.run {peer : SocketAddr} {a b : Client} (h : PastLike peer a b) (suite : Suite)
    {base noisy : List Receive} (hinserted : Inserted SameEvent (Stranger peer) base noisy) :
    PastLike peer (base.foldl (hears Client.receives (Client.next suite)) a)
      (noisy.foldl (hears Client.receives (Client.next suite)) b) := by
  refine hinserted.foldl (fun a b receive receive' h hsame => ?_) (fun a b receive h hextra => ?_) h
  · refine related_hears (fun _ _ h => h.like.receives_eq)
      (fun _ _ _ _ h hok hok' => h.next hok hok' (by simp [FromTransport])) h ?_
    have hevent : receive.event = receive'.event := hsame
    rw [← hevent]
    exact h.next receive.accepts receive'.accepts receive.fails
  · have hpast : b.pc.Past := by rw [h.like.pc_eq]; exact h.past
    rw [past_ignores hpast (by rw [h.like.peer_eq, h.peer]; exact hextra)]
    exact h

end Past

section Runs
variable {c t : Client} {suite : Suite}

theorem answered_like {event : RecvEvent} {t' : Client} {attempt attempt' : UInt32}
    (h : Awaits c attempt t) (h' : Awaits c attempt' t') (hanswers : c.Answers event) :
    Client.Like (t.onHello attempt event) (t'.onHello attempt' event) := by
  obtain ⟨txSequence, metrics, rfl⟩ := h
  obtain ⟨txSequence', metrics', rfl⟩ := h'
  cases event with
  | timeout => cases hanswers
  | failed e => cases hanswers
  | datagram datagram =>
    obtain ⟨hsource, view, hview, htype⟩ := hanswers
    rw [received] at hview
    simp only [onHello, received, hsource, hview, htype, ne_eq, not_true_eq_false, if_false]
    cases checkServerHello c.session.config view.payload <;> exact ⟨txSequence', metrics', rfl⟩

theorem hears_answer {t' : Client} {receive receive' : Receive} {attempt attempt' : UInt32}
    (h : Awaits c attempt t) (h' : Awaits c attempt' t') (hsame : SameEvent receive receive')
    (hanswers : c.Answers receive.event) :
    PastLike c.peer (hears Client.receives (Client.next suite) t receive)
      (hears Client.receives (Client.next suite) t' receive') := by
  have hnext : t.next suite receive.env receive.event = t.onHello attempt receive.event := by
    simp only [next, step, h.pc]
  have hnext' : t'.next suite receive'.env receive'.event =
      t'.onHello attempt' receive.event := by
    simp only [next, step, h'.pc, show receive.event = receive'.event from hsame]
  rw [hears_receiving receive h.receives, hears_receiving receive' h'.receives, hnext, hnext']
  refine related_settles (fun _ _ h => h.like.receives_eq)
    (fun _ _ _ _ h hok hok' => h.next hok hok' (by simp [FromTransport]))
    ⟨past_onHello ((h.answers_iff _).mpr hanswers), ?_, answered_like h h' hanswers⟩
    receive.accepts receive'.accepts
  exact (onHello_peer t attempt receive.event).trans h.peer_eq

theorem Awaits.outcome_eq {attempt : UInt32} (h : Awaits c attempt t) :
    t.outcome = Client.outcome { c with pc := .awaitHello 0 } := by
  rw [← Like.outcome_eq h]
  rfl

theorem hello_same (suite : Suite) (hfits : c.Fits) {base noisy : List Receive}
    (hinserted : Inserted SameEvent (Stranger c.peer) base noisy) :
    ∀ {t t' : Client} {attempt attempt' : UInt32} {n n' : Nat}, Awaits c attempt t →
      Awaits c attempt' t' → Counts attempt n → Counts attempt' n' → n ≤ n' →
      ¬c.GivesUp n' noisy →
      (base.foldl (hears Client.receives (Client.next suite)) t).outcome =
        (noisy.foldl (hears Client.receives (Client.next suite)) t').outcome := by
  induction hinserted with
  | nil =>
    intro t t' attempt attempt' n n' h h' _ _ _ _
    exact h.outcome_eq.trans h'.outcome_eq.symm
  | @keep receive receive' base noisy hsame hrest ih =>
    intro t t' attempt attempt' n n' h h' hcount hcount' hle hgives
    have hevent : receive.event = receive'.event := hsame
    rw [givesUp_cons, not_or, not_and, not_and] at hgives
    by_cases hanswers : c.Answers receive.event
    · exact ((hears_answer h h' hsame hanswers).run suite hrest).like.outcome_eq
    · have hsmall : Silent receive'.event → ¬6 ≤ n' := fun hsilent hover => hgives.1 hover hsilent
      refine ih (h.hears_again hfits hanswers fun hsilent => ?_)
        (h'.hears_again hfits (hevent ▸ hanswers) fun hsilent => ?_) (counts_succ hcount)
        (counts_succ hcount') (Nat.succ_le_succ hle) (hgives.2 (hevent ▸ hanswers))
      · rw [counts_over hcount]
        exact fun hover => hsmall (hevent ▸ hsilent) (hover.trans hle)
      · rw [counts_over hcount']
        exact hsmall hsilent
  | @insert receive base noisy hstranger hrest ih =>
    intro t t' attempt attempt' n n' h h' hcount hcount' hle hgives
    obtain ⟨datagram, hevent, hsource⟩ := hstranger
    have hanswers : ¬c.Answers receive.event := by
      rw [hevent]
      exact fun hanswers => hsource hanswers.1
    rw [givesUp_cons, not_or, not_and, not_and] at hgives
    refine ih h (h'.hears_again hfits hanswers fun hsilent => ?_) hcount (counts_succ hcount')
      (hle.trans (Nat.le_succ _)) (hgives.2 hanswers)
    rw [hevent] at hsilent
    cases hsilent

theorem foldl_returned {result : Except TransportError ServerHello}
    (hpc : c.pc = .returned result) (receives : List Receive) :
    receives.foldl (hears Client.receives (Client.next suite)) c = c := by
  induction receives with
  | nil => rfl
  | cons receive rest ih =>
    have hidle : c.receives = false := by rw [Client.receives, hpc]
    rw [List.foldl_cons, hears_idle receive hidle, ih]

theorem hello_exhausts (suite : Suite) (hfits : c.Fits) (receives : List Receive) :
    ∀ {t : Client} {attempt : UInt32} {n : Nat}, Awaits c attempt t → Counts attempt n →
      c.GivesUp n receives →
      Client.Like { c with pc := .returned (.error exhausted) }
        (receives.foldl (hears Client.receives (Client.next suite)) t) := by
  induction receives with
  | nil => exact fun _ _ hgives => absurd hgives (not_givesUp_nil c _)
  | cons receive rest ih =>
    intro t attempt n h hcount hgives
    rw [List.foldl_cons]
    by_cases hnow : Silent receive.event ∧ saturatingSucc attempt > 6
    · have hexhausted : Client.Like _ (hears Client.receives (Client.next suite) t receive) :=
        h.hears_exhausted hnow.1 hnow.2
      rw [foldl_returned hexhausted.pc_eq]
      exact hexhausted
    · rw [givesUp_cons, ← counts_over hcount] at hgives
      obtain ⟨hover, hsilent⟩ | ⟨hanswers, hgives⟩ := hgives
      · exact absurd ⟨hsilent, hover⟩ hnow
      · exact ih (h.hears_again hfits hanswers fun hsilent hover => hnow ⟨hsilent, hover⟩)
          (counts_succ hcount) hgives

theorem hello_lasts (suite : Suite) (hfits : c.Fits) (receives : List Receive) :
    ∀ {t : Client} {attempt : UInt32} {n : Nat}, Awaits c attempt t → Counts attempt n →
      ¬c.GivesUp n receives →
      (receives.foldl (hears Client.receives (Client.next suite)) t).outcome.result ≠
        some (.error exhausted) := by
  induction receives with
  | nil =>
    intro t attempt n h _ _
    rw [List.foldl_nil, h.outcome_eq]
    simp [outcome]
  | cons receive rest ih =>
    intro t attempt n h hcount hgives
    rw [List.foldl_cons]
    rw [givesUp_cons, not_or, not_and, not_and] at hgives
    by_cases hanswers : c.Answers receive.event
    · have hsame : Inserted SameEvent (Stranger c.peer) rest rest := .refl _ SameEvent.refl rest
      have hanswered : PastLike c.peer (hears Client.receives (Client.next suite) t receive) _ :=
        hears_answer h h rfl hanswers
      exact past_result (hanswered.run suite hsame).past
    · refine ih (h.hears_again hfits hanswers fun hsilent => ?_) (counts_succ hcount)
        (hgives.2 hanswers)
      rw [counts_over hcount]
      exact fun hover => hgives.1 hover hsilent

end Runs

theorem run_awaits {c : Client} (suite : Suite) {env : Env} (hstart : c.pc = .sendHello 0)
    (hfits : c.Fits) (haccepts : env.Accepts) :
    Awaits c 0 (settles Client.receives (Client.next suite) c env) :=
  settles_sendHello hstart hfits haccepts

theorem step_unfit {c : Client} (suite : Suite) (env : Env) {attempt : UInt32}
    (hpc : c.pc = .sendHello attempt) (hfits : ¬c.Fits) :
    ∃ session e, c.step suite env .timeout =
      ({ c with session := session, pc := .returned (.error e) }, []) := by
  have hsize : ¬(c.hello suite).bytes.length > maxPayloadSize := by
    rw [ClientHello.length_bytes]
    decide
  have hmtu : c.session.config.mtu < headerSize + (c.hello suite).bytes.length + 4 := by
    rw [ClientHello.length_bytes]
    exact Nat.lt_of_not_le hfits
  refine ⟨{ c.session with txSequence := c.session.txSequence + 1 }, .protocol .bufferTooSmall, ?_⟩
  simp only [step, hpc, encoded_clientHello, sends, Session.sendControl, Session.sendPacket,
    encodePacket_short hsize hmtu]

theorem run_unfit {c : Client} (suite : Suite) {env : Env} (hstart : c.pc = .sendHello 0)
    (hfits : ¬c.Fits) (receives : List Receive) :
    c.run suite env receives = settles Client.receives (Client.next suite) c env := by
  have hidle : c.receives = false := by rw [Client.receives, hstart]
  obtain ⟨session, e, hstep⟩ := step_unfit suite env hstart hfits
  have hnext : c.next suite env .timeout =
      { c with session := session, pc := .returned (.error e) } := by
    rw [next, hstep]
  have hsettled : settles Client.receives (Client.next suite) c env =
      { c with session := session, pc := .returned (.error e) } := by
    have hadvances : advances Client.receives (Client.next suite) c env =
        { c with session := session, pc := .returned (.error e) } := by
      simp only [advances, hidle, hnext, Bool.false_eq_true, if_false]
    rw [settles, hadvances]
    rfl
  have hreturned : (settles Client.receives (Client.next suite) c env).pc = .returned (.error e) := by
    rw [hsettled]
  exact foldl_returned hreturned receives

theorem client_noise_iff (c : Client) (suite : Suite) {env env' : Env}
    (hstart : c.pc = .sendHello 0) (haccepts : env.Accepts) (haccepts' : env'.Accepts) {base noisy : List Receive}
    (hinserted : Inserted SameEvent (Stranger c.peer) base noisy) :
    (c.run suite env base).outcome = (c.run suite env' noisy).outcome ↔
      (c.Fits → c.GivesUp 0 noisy → c.GivesUp 0 base) := by
  by_cases hfits : c.Fits
  · have hbase := run_awaits suite hstart hfits haccepts
    have hnoisy := run_awaits suite hstart hfits haccepts'
    have hcount : Counts 0 0 := rfl
    constructor
    · intro hsame _ hgives
      by_contra hlasts
      have hexhausts := (hello_exhausts suite hfits noisy hnoisy hcount hgives).outcome_eq
      refine hello_lasts suite hfits base hbase hcount hlasts ?_
      rw [run, runs, run, runs] at hsame
      rw [hsame, ← hexhausts]
      rfl
    · intro himp
      by_cases hgives : c.GivesUp 0 noisy
      · exact (hello_exhausts suite hfits base hbase hcount (himp hfits hgives)).outcome_eq.symm.trans
          (hello_exhausts suite hfits noisy hnoisy hcount hgives).outcome_eq
      · exact hello_same suite hfits hinserted hbase hnoisy hcount hcount le_rfl hgives
  · rw [run_unfit suite hstart hfits, run_unfit suite hstart hfits]
    refine iff_of_true ?_ fun h => absurd h hfits
    have hself : c.Like c := ⟨c.session.txSequence, c.session.metrics, rfl⟩
    exact (related_settles (fun _ _ h => h.receives_eq)
      (fun _ _ _ _ h hok hok' => h.step suite hok hok' .timeout) hself haccepts haccepts').outcome_eq

end Client

/-- For either role: the server's outcome never depends on what strangers send.  The client's does
just when they make it give up. -/
theorem handshake_noise_immune_iff (suite : Suite) (env env' : Env) (haccepts : env.Accepts)
    (haccepts' : env'.Accepts) (peer : SocketAddr) (base noisy : List Receive)
    (hinserted : Inserted SameEvent (Stranger peer) base noisy) :
    (∀ c : Client, c.peer = peer → c.pc = .sendHello 0 →
      ((c.run suite env base).outcome = (c.run suite env' noisy).outcome ↔
        (c.Fits → c.GivesUp 0 noisy → c.GivesUp 0 base))) ∧
      ∀ (s : Server) (rand : Rand), s.mode = .fixed peer → s.pc = .awaitHello →
        (s.run suite rand env base).outcome = (s.run suite rand env' noisy).outcome := by
  refine ⟨fun c hpeer hstart => ?_, fun s rand hmode hstart => ?_⟩
  · subst hpeer
    exact c.client_noise_iff suite hstart haccepts haccepts' hinserted
  · have hbound : s.Bound peer := ⟨hmode, by rw [hstart]; trivial⟩
    exact server_noise s hbound haccepts haccepts' hinserted

private def calledAddr : SocketAddr := .v4 0x0A000002 9000
private def noisyAddr : SocketAddr := .v4 0x0A000009 9000

private def flatSuite : Suite where
  publicKey _ := Vector.replicate 32 0
  diffieHellman _ _ := Vector.replicate 32 0
  hkdf n _ _ _ := Vector.replicate n 0

private def patient : Client :=
  ⟨Session.ofDefault, calledAddr, Vector.replicate 32 1, Vector.replicate 32 3, .sendHello 0, none⟩

private def answering : ServerHello :=
  Server.serverHello flatSuite Config.default (patient.hello flatSuite)
    ⟨Vector.replicate 32 2, Vector.replicate 32 4, 7⟩ 1

private def confirming : SessionConfirm :=
  ⟨7, (patient.secretsFor flatSuite answering).serverTag flatSuite⟩

private def calmly (datagram : Datagram) : Receive :=
  ⟨.datagram datagram, quietEnv, quietEnv_accepts, by simp⟩

private def packet (msg : MessageType) (payload : Bytes) : Receive :=
  calmly ⟨Packet.bytes (PacketHeader.new msg.code 7 0 0) payload, patient.peer⟩

private def nothing : Receive := ⟨.timeout, quietEnv, quietEnv_accepts, by simp⟩

private def babble : Receive := calmly ⟨[], noisyAddr⟩

private def lossy : List Receive :=
  [nothing, packet .handshakeServerHello answering.bytes,
    packet .handshakeSessionConfirm confirming.bytes]

private theorem received_packet (msg : MessageType) {payload : Bytes} (hsize : payload.length ≤ 100) :
    received patient.session
      ⟨Packet.bytes (PacketHeader.new msg.code 7 0 0) payload, patient.peer⟩ =
        .ok ⟨PacketHeader.new msg.code 7 0 0, payload⟩ := by
  have hmtu : patient.session.config.mtu = 1200 := rfl
  rw [received, List.take_of_length_le]
  · exact PacketView.decode_bytes _ _ rfl (hsize.trans (by decide))
  · rw [Packet.length_bytes, hmtu]
    simp only [headerSize]
    omega

private theorem newHeader_type (msg : MessageType) :
    (PacketHeader.new msg.code 7 0 0).msgType = msg.code := rfl

private theorem answer_heard : Client.Like
    { patient with pc := .awaitConfirm answering, committed := some answering }
    (hears Client.receives (Client.next flatSuite) { patient with pc := .awaitHello 1 }
      (packet .handshakeServerHello answering.bytes)) := by
  have hcheck : Client.checkServerHello patient.session.config answering.bytes = .ok answering := by
    simp only [Client.checkServerHello, ServerHello.decode_bytes]
    rfl
  have hview := @received_packet .handshakeServerHello answering.bytes (by simp [ServerHello.size])
  have hnext : Client.next flatSuite { patient with pc := .awaitHello 1 } quietEnv
      (packet .handshakeServerHello answering.bytes).event =
      { patient with pc := .sendKeyExchange answering, committed := some answering } := by
    simp only [Client.next, Client.step, packet, calmly, Client.onHello, hview, newHeader_type, hcheck,
      ne_eq, not_true_eq_false, if_false]
  have hsent : Client.Like
      { patient with pc := .awaitConfirm answering, committed := some answering }
      (Client.next flatSuite
        { patient with pc := .sendKeyExchange answering, committed := some answering } quietEnv
        .timeout) := by
    simp only [Client.next, Client.step, KeyExchangeMsg.encode, KeyExchangeMsg.size, encoded_tagged]
    refine Client.sends_accepted _ quietEnv_accepts _ _ _ ?_ ?_
    · rw [length_taggedBytes]
      decide
    · rw [length_taggedBytes]
      exact (by decide : headerSize + 20 + 4 ≤ Session.ofDefault.config.mtu)
  rw [hears_receiving _ rfl,
    show (packet .handshakeServerHello answering.bytes).env = quietEnv from rfl, hnext,
    settles_next rfl (by rw [← hsent.receives_eq]; rfl)]
  exact hsent

private theorem settles_stored {c : Client} {env : Env} {shown : ServerHello}
    (hpc : c.pc = .storeEncrypt shown) :
    (settles Client.receives (Client.next flatSuite) c env).outcome.result = some (.ok ()) := by
  simp only [settles, advances, Client.receives, Client.next, Client.step, hpc, Client.outcome,
    Except.map, Bool.false_eq_true, if_false]

private theorem confirm_heard :
    (hears Client.receives (Client.next flatSuite)
      { patient with pc := .awaitConfirm answering, committed := some answering }
      (packet .handshakeSessionConfirm confirming.bytes)).outcome.result = some (.ok ()) := by
  have hview := @received_packet .handshakeSessionConfirm confirming.bytes
    (by rw [SessionConfirm.bytes, length_taggedBytes]; decide)
  have hsid : confirming.sessionId = answering.sessionId := rfl
  have hsecrets : Client.secretsFor
      { patient with pc := .awaitConfirm answering, committed := some answering } flatSuite
      answering = patient.secretsFor flatSuite answering := rfl
  have htag : constantTimeEq confirming.serverAuthTag
      ((patient.secretsFor flatSuite answering).serverTag flatSuite) = true := by
    rw [constantTimeEq_iff, confirming]
  have hnext : ∃ session, Client.next flatSuite
      { patient with pc := .awaitConfirm answering, committed := some answering } quietEnv
      (packet .handshakeSessionConfirm confirming.bytes).event =
      { patient with
        session := session, pc := .storeEncrypt answering, committed := some answering } := by
    simp only [Client.next, Client.step, packet, calmly, Client.onConfirm, hview, newHeader_type,
      SessionConfirm.decode_bytes, hsid, hsecrets, htag, ne_eq, not_true_eq_false, if_false,
      Bool.not_true, Bool.false_eq_true]
    exact ⟨_, rfl⟩
  obtain ⟨session, hnext⟩ := hnext
  rw [hears_receiving _ rfl,
    show (packet .handshakeSessionConfirm confirming.bytes).env = quietEnv from rfl, hnext]
  exact settles_stored rfl

private def noisy : List Receive := List.replicate 6 babble ++ lossy

private theorem patient_fits : patient.Fits :=
  (by decide : headerSize + ClientHello.size + 4 ≤ Session.ofDefault.config.mtu)

private theorem babble_strange : Stranger patient.peer babble := ⟨⟨[], noisyAddr⟩, rfl, by decide⟩

private theorem babble_answers_not : ¬patient.Answers babble.event := fun h =>
  absurd h.1 (by decide)

private theorem lossy_inserted (receives : List Receive) (n : Nat) :
    Inserted SameEvent (Stranger patient.peer) receives (List.replicate n babble ++ receives) := by
  induction n with
  | zero => exact .refl _ SameEvent.refl receives
  | succ n ih => exact .insert babble_strange ih

private def attended : Server :=
  ⟨Session.ofDefault, .fixed calledAddr, .awaitHello, [], []⟩

/-- One stranger's datagram and a lost ClientHello change nothing, for either role. -/
theorem handshake_immune_to_one :
    (patient.run flatSuite quietEnv [nothing]).outcome =
        (patient.run flatSuite quietEnv [babble, nothing]).outcome ∧
      (attended.run flatSuite ⟨Vector.replicate 32 2, Vector.replicate 32 4, 7⟩ quietEnv
          [nothing]).outcome =
        (attended.run flatSuite ⟨Vector.replicate 32 2, Vector.replicate 32 4, 7⟩ quietEnv
          [babble, nothing]).outcome := by
  obtain ⟨hclient, hserver⟩ := handshake_noise_immune_iff flatSuite quietEnv quietEnv
    quietEnv_accepts quietEnv_accepts calledAddr [nothing] [babble, nothing]
    (lossy_inserted [nothing] 1)
  refine ⟨(hclient patient rfl rfl).mpr fun _ hgives => absurd hgives ?_,
    hserver attended _ rfl rfl⟩
  rintro ⟨before, receive, after, heq, hcount, -⟩
  have hlength := congrArg List.length heq
  simp only [List.length_cons, List.length_nil, List.length_append] at hlength
  omega

private theorem lossy_completes :
    (patient.run flatSuite quietEnv lossy).outcome.result = some (.ok ()) := by
  have hawaits := Client.run_awaits flatSuite rfl patient_fits quietEnv_accepts
  have hagain : Client.Awaits patient 1 (hears Client.receives (Client.next flatSuite) _ nothing) :=
    hawaits.hears_again patient_fits (fun h => h) fun _ => by decide
  have hself : Client.Awaits patient 1 { patient with pc := .awaitHello 1 } :=
    ⟨patient.session.txSequence, patient.session.metrics, rfl⟩
  have hanswers : patient.Answers (packet .handshakeServerHello answering.bytes).event :=
    ⟨rfl, _, received_packet _ (by simp [ServerHello.size]), rfl⟩
  have hanswered : Client.PastLike patient.peer
      (hears Client.receives (Client.next flatSuite) { patient with pc := .awaitHello 1 }
        (packet .handshakeServerHello answering.bytes))
      (hears Client.receives (Client.next flatSuite)
        (hears Client.receives (Client.next flatSuite) _ nothing)
        (packet .handshakeServerHello answering.bytes)) :=
    Client.hears_answer hself hagain (SameEvent.refl _) hanswers
  have hpast : Client.PastLike patient.peer
      { patient with pc := .awaitConfirm answering, committed := some answering } _ :=
    ⟨trivial, rfl, answer_heard.trans hanswered.like⟩
  have hsame := (hpast.run flatSuite (.refl _ SameEvent.refl
    [packet .handshakeSessionConfirm confirming.bytes])).like.outcome_eq
  rw [List.foldl_cons, List.foldl_nil, List.foldl_cons, List.foldl_nil] at hsame
  rw [Client.run, runs, lossy, List.foldl_cons, List.foldl_cons, List.foldl_cons, List.foldl_nil,
    ← hsame]
  exact confirm_heard

/-- Six datagrams of a stranger and one lost ClientHello: what completes the handshake without the
six comes too late with them. -/
theorem noisy_client_gives_up :
    Inserted SameEvent (Stranger patient.peer) lossy noisy ∧
      (patient.run flatSuite quietEnv lossy).outcome.result = some (.ok ()) ∧
      (patient.run flatSuite quietEnv noisy).outcome.result = some (.error exhausted) := by
  refine ⟨lossy_inserted lossy 6, lossy_completes, ?_⟩
  have hawaits := Client.run_awaits flatSuite rfl patient_fits quietEnv_accepts
  have hgives : patient.GivesUp 0 noisy := by
    refine ⟨List.replicate 6 babble, nothing, lossy.tail, rfl, by decide, trivial, ?_⟩
    intro earlier hearlier
    rw [List.eq_of_mem_replicate hearlier]
    exact babble_answers_not
  have hcount : Client.Counts 0 0 := rfl
  have hexhausts := Client.hello_exhausts flatSuite patient_fits noisy hawaits hcount hgives
  rw [Client.run, runs, ← hexhausts.outcome_eq]
  rfl

end GravitalTalk.Transport.Handshake
