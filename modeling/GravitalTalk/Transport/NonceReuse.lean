import GravitalTalk.Transport.Senders

/-! The nonces of one key.  Every sender takes its number from `tx_sequence`, a counter that wraps,
and the nonce is made of that number and the session id; so a nonce comes back only when the counter
has gone all the way round. -/
namespace GravitalTalk.Transport.Senders
open Lib GravitalTalk.Core Transition

variable {Task : Type} [DecidableEq Task] {aead : Aead}

def Pc.alloc : Pc → Option Alloc
  | .audioStamp _ _ _ alloc => some alloc
  | .audioKey _ _ _ alloc _ _ => some alloc
  | .parityKey _ _ _ alloc => some alloc
  | _ => none

/-- Numbers are taken once: the pending ones and the ones used in the log are all different. -/
structure Numbered (st : State Task) : Prop where
  counter : st.session.txSequence = UInt32.ofNat st.allocated
  pending : ∀ t a, (st.pc t).alloc = some a → a.seq = UInt32.ofNat a.nth ∧ a.nth < st.allocated
  apart : ∀ t t' a a', t ≠ t' → (st.pc t).alloc = some a → (st.pc t').alloc = some a' →
    a.nth ≠ a'.nth
  logged : ∀ e ∈ st.encryptions, e.nth < st.allocated ∧
    ∃ sid, e.nonce = makeNonce (UInt32.ofNat e.nth) sid
  unused : ∀ t a, (st.pc t).alloc = some a → ∀ e ∈ st.encryptions, e.nth ≠ a.nth
  once : st.encryptions.Pairwise fun e e' => e.nth ≠ e'.nth

theorem alloc_goto {st st' : State Task} {t t' : Task} {pc : Pc} {a : Alloc}
    (hpcs : st'.pc = st.pc) (h : ((st'.goto t pc).pc t').alloc = some a) :
    (t' = t ∧ pc.alloc = some a) ∨ (t' ≠ t ∧ (st.pc t').alloc = some a) := by
  by_cases heq : t' = t
  · subst heq
    rw [State.goto_pc] at h
    exact .inl ⟨rfl, h⟩
  · simp only [State.goto, Function.update_of_ne heq, hpcs] at h
    exact .inr ⟨heq, h⟩

theorem Numbered.goto {st st' : State Task} (inv : Numbered st) (t : Task) (pc : Pc)
    (hpcs : st'.pc = st.pc) (hseq : st'.session.txSequence = st.session.txSequence)
    (hallocated : st'.allocated = st.allocated) (hlog : st'.encryptions = st.encryptions)
    (halloc : ∀ a, pc.alloc = some a → (st.pc t).alloc = some a) : Numbered (st'.goto t pc) := by
  have hold : ∀ t' a, ((st'.goto t pc).pc t').alloc = some a → (st.pc t').alloc = some a := by
    intro t' a h
    rcases alloc_goto hpcs h with ⟨rfl, hnew⟩ | ⟨-, hsame⟩
    · exact halloc a hnew
    · exact hsame
  constructor
  case counter =>
    show st'.session.txSequence = UInt32.ofNat st'.allocated
    rw [hseq, hallocated]
    exact inv.counter
  case pending =>
    intro t' a h
    show _ ∧ a.nth < st'.allocated
    rw [hallocated]
    exact inv.pending t' a (hold t' a h)
  case apart =>
    intro t₁ t₂ a₁ a₂ hne h₁ h₂
    exact inv.apart t₁ t₂ a₁ a₂ hne (hold t₁ a₁ h₁) (hold t₂ a₂ h₂)
  case logged =>
    show ∀ e ∈ st'.encryptions, e.nth < st'.allocated ∧ _
    rw [hlog, hallocated]
    exact inv.logged
  case unused =>
    intro t' a h
    show ∀ e ∈ st'.encryptions, _
    rw [hlog]
    exact inv.unused t' a (hold t' a h)
  case once =>
    show st'.encryptions.Pairwise _
    rw [hlog]
    exact inv.once

theorem Numbered.takes {st : State Task} (inv : Numbered st) (t : Task) (pc : Pc)
    (halloc : ∀ a, pc.alloc = some a → a = st.nextAlloc) : Numbered (st.takesNumber.goto t pc) := by
  have hnth : ∀ {a}, pc.alloc = some a → a.nth = st.allocated := fun h => by rw [halloc _ h]; rfl
  constructor
  case counter =>
    show st.session.txSequence + 1 = UInt32.ofNat (st.allocated + 1)
    rw [inv.counter, UInt32.ofNat_add]
    rfl
  case pending =>
    intro t' a h
    show _ ∧ a.nth < st.allocated + 1
    rcases alloc_goto rfl h with ⟨-, hnew⟩ | ⟨-, hsame⟩
    · rw [halloc a hnew]
      exact ⟨inv.counter, Nat.lt_succ_self _⟩
    · have hpending := inv.pending t' a hsame
      exact ⟨hpending.1, Nat.lt_succ_of_lt hpending.2⟩
  case apart =>
    intro t₁ t₂ a₁ a₂ hne h₁ h₂
    rcases alloc_goto rfl h₁ with ⟨rfl, hnew₁⟩ | ⟨hne₁, hsame₁⟩
    · rcases alloc_goto rfl h₂ with ⟨rfl, -⟩ | ⟨-, hsame₂⟩
      · exact absurd rfl hne
      · rw [hnth hnew₁]
        exact (inv.pending t₂ a₂ hsame₂).2.ne'
    · rcases alloc_goto rfl h₂ with ⟨-, hnew₂⟩ | ⟨-, hsame₂⟩
      · rw [hnth hnew₂]
        exact (inv.pending t₁ a₁ hsame₁).2.ne
      · exact inv.apart t₁ t₂ a₁ a₂ hne hsame₁ hsame₂
  case logged =>
    intro e he
    have hlogged := inv.logged e he
    exact ⟨Nat.lt_succ_of_lt hlogged.1, hlogged.2⟩
  case unused =>
    intro t' a h e he
    rcases alloc_goto rfl h with ⟨-, hnew⟩ | ⟨-, hsame⟩
    · rw [hnth hnew]
      exact (inv.logged e he).1.ne
    · exact inv.unused t' a hsame e he
  case once => exact inv.once

theorem Numbered.encrypts {st st' : State Task} (inv : Numbered st) (t : Task) (pc : Pc)
    {key : SessionKey} {alloc : Alloc} {sid : UInt32} (hpcs : st'.pc = st.pc)
    (hseq : st'.session.txSequence = st.session.txSequence)
    (hallocated : st'.allocated = st.allocated)
    (hlog : st'.encryptions = (st.encrypts key alloc sid).encryptions)
    (hpending : (st.pc t).alloc = some alloc) (halloc : pc.alloc = none) :
    Numbered (st'.goto t pc) := by
  have hother : ∀ t' a, ((st'.goto t pc).pc t').alloc = some a →
      t' ≠ t ∧ (st.pc t').alloc = some a := by
    intro t' a h
    rcases alloc_goto hpcs h with ⟨-, hnew⟩ | hsame
    · rw [halloc] at hnew
      cases hnew
    · exact hsame
  have hmem : ∀ e ∈ st'.encryptions,
      e ∈ st.encryptions ∨ e = ⟨key, makeNonce alloc.seq sid, alloc.nth⟩ := by
    intro e he
    rw [hlog] at he
    simpa [State.encrypts] using he
  have htaken := inv.pending t alloc hpending
  constructor
  case counter =>
    show st'.session.txSequence = UInt32.ofNat st'.allocated
    rw [hseq, hallocated]
    exact inv.counter
  case pending =>
    intro t' a h
    show _ ∧ a.nth < st'.allocated
    rw [hallocated]
    exact inv.pending t' a (hother t' a h).2
  case apart =>
    intro t₁ t₂ a₁ a₂ hne h₁ h₂
    exact inv.apart t₁ t₂ a₁ a₂ hne (hother t₁ a₁ h₁).2 (hother t₂ a₂ h₂).2
  case logged =>
    intro e he
    show e.nth < st'.allocated ∧ _
    rw [hallocated]
    rcases hmem e he with hold | rfl
    · exact inv.logged e hold
    · exact ⟨htaken.2, sid, by rw [htaken.1]⟩
  case unused =>
    intro t' a h e he
    obtain ⟨hne, hsame⟩ := hother t' a h
    rcases hmem e he with hold | rfl
    · exact inv.unused t' a hsame e hold
    · exact inv.apart t t' alloc a hne.symm hpending hsame
  case once =>
    show st'.encryptions.Pairwise _
    rw [hlog, State.encrypts, List.pairwise_append]
    refine ⟨inv.once, List.pairwise_singleton _ _, fun e he e' he' => ?_⟩
    rw [List.mem_singleton.mp he']
    exact inv.unused t alloc hpending e he

omit [DecidableEq Task] in
theorem Numbered.other {st st' : State Task} (inv : Numbered st) (hpcs : st'.pc = st.pc)
    (hseq : st'.session.txSequence = st.session.txSequence)
    (hallocated : st'.allocated = st.allocated)
    (hlog : st'.encryptions = st.encryptions ∨ st'.encryptions = []) : Numbered st' := by
  have hkept : ∀ e ∈ st'.encryptions, e ∈ st.encryptions := by
    intro e he
    rcases hlog with hsame | hnone
    · rwa [hsame] at he
    · rw [hnone] at he
      cases he
  constructor
  case counter =>
    rw [hseq, hallocated]
    exact inv.counter
  case pending =>
    rw [hpcs, hallocated]
    exact inv.pending
  case apart =>
    rw [hpcs]
    exact inv.apart
  case logged =>
    rw [hallocated]
    exact fun e he => inv.logged e (hkept e he)
  case unused =>
    rw [hpcs]
    exact fun t a h e he => inv.unused t a h e (hkept e he)
  case once =>
    rcases hlog with hsame | hnone
    · rw [hsame]
      exact inv.once
    · rw [hnone]
      exact List.Pairwise.nil

theorem afterControl_alloc (closing : Bool) : (afterControl closing).alloc = none := by
  cases closing <;> rfl

theorem Numbered.drops {st st' : State Task} (inv : Numbered st) (t : Task) (pc : Pc)
    (hpcs : st'.pc = st.pc) (hseq : st'.session.txSequence = st.session.txSequence)
    (hallocated : st'.allocated = st.allocated) (hlog : st'.encryptions = st.encryptions)
    (halloc : pc.alloc = none) : Numbered (st'.goto t pc) := by
  refine inv.goto t pc hpcs hseq hallocated hlog fun a h => ?_
  rw [halloc] at h
  cases h

theorem numbered_step {st st' : State Task} {label : Label Task} (inv : Numbered st)
    (hstep : Step aead st label st') : Numbered st' := by
  cases hstep with
  | audioTx hpc | parityTx hpc =>
    exact inv.takes _ _ fun a h => (Option.some.inj h).symm
  | controlTx ts hpc hdata => exact inv.takes _ _ fun a h => by cases h
  | controlFails ts hpc hdata =>
    refine inv.takes _ _ fun a h => ?_
    rw [afterControl_alloc] at h
    cases h
  | audioStamp ts hpc => exact inv.goto _ _ rfl rfl rfl rfl fun a h => by rw [hpc]; exact h
  | audioEncrypt hpc hlock hkey hdata | audioEncryptFails hpc hlock hkey hdata =>
    exact inv.encrypts _ _ rfl rfl rfl rfl (by rw [hpc]; rfl) rfl
  | parityEncrypt ts hpc hlock hkey hdata | parityEncryptFails ts hpc hlock hkey hdata =>
    exact inv.encrypts _ _ rfl rfl rfl rfl (by rw [hpc]; rfl) rfl
  | controlSent n hpc => exact inv.drops _ _ rfl rfl rfl rfl (afterControl_alloc _)
  | controlSendFails hpc => exact inv.drops _ _ rfl rfl rfl rfl (afterControl_alloc _)
  | installKey _ _ => exact inv.other rfl rfl rfl (.inr rfl)
  | storeSessionId _ | storePeer _ | fireEvent _ => exact inv.other rfl rfl rfl (.inl rfl)
  | _ => exact inv.drops _ _ rfl rfl rfl rfl rfl

omit [DecidableEq Task] in
theorem numbered_start {st : State Task} (start : Start st) : Numbered st := by
  have hnone : ∀ t a, (st.pc t).alloc ≠ some a := by
    intro t a h
    rw [start.idle t] at h
    cases h
  constructor
  case counter => exact start.counter
  case pending => exact fun t a h => absurd h (hnone t a)
  case apart => exact fun t t' a a' _ h => absurd h (hnone t a)
  case logged => simp [start.encryptions]
  case unused => exact fun t a h => absurd h (hnone t a)
  case once => simp [start.encryptions]

/-- Two numbers with the same 32 low bits are a whole turn apart. -/
theorem turn_apart {m n : Nat} (h : UInt32.ofNat m = UInt32.ofNat n) (hne : m ≠ n) :
    m + 2 ^ 32 ≤ n ∨ n + 2 ^ 32 ≤ m := by
  have hmod : m % 2 ^ 32 = n % 2 ^ 32 := by
    have hval := congrArg UInt32.toNat h
    simpa using hval
  omega

/-- In every run, whatever its calls and however they interleave, two calls of `encrypt_in_place`
under the key last installed get the same nonce only if `tx_sequence` went all the way round between
the numbers they use. -/
theorem nonces_repeat_after_a_turn (aead : Aead) (st₀ st : State Task) (hstart : Start st₀)
    (hrun : Reaches (Step aead) (fun _ _ => True) st₀ st) :
    st.encryptions.Pairwise fun e e' =>
      e.nonce = e'.nonce → e.nth + 2 ^ 32 ≤ e'.nth ∨ e'.nth + 2 ^ 32 ≤ e.nth := by
  have inv : Numbered st :=
    hrun.invariant (numbered_start hstart) fun _ _ _ hinv hstep _ => numbered_step hinv hstep
  refine inv.once.imp_of_mem fun {e e'} he he' hne hnonce => ?_
  obtain ⟨sid, hsid⟩ := (inv.logged e he).2
  obtain ⟨sid', hsid'⟩ := (inv.logged e' he').2
  rw [hsid, hsid'] at hnonce
  exact turn_apart (makeNonce_inj hnonce).1 hne

/-- Between two calls of one task: the session can send, `seq` is the next number and `nonces` are
the nonces used. -/
structure Between (t : Task) (key : SessionKey) (sid seq : UInt32) (nonces : List Nonce)
    (st : State Task) : Prop where
  idle : st.pc t = .idle
  encLock : st.encLock = none
  active : st.session.state.state = .active
  peer : ∃ peer, st.session.peer = some peer
  encryptKey : st.session.encryptKey = some key
  sessionId : st.session.sessionId = sid
  txSequence : st.session.txSequence = seq
  nonces : st.encryptions.map Encryption.nonce = nonces

section Calls
variable {t : Task} {key : SessionKey} {sid seq : UInt32} {nonces : List Nonce} {st : State Task}

/-- At the key lock a sender uses its number in a nonce, whether or not the frame can be made. -/
theorem reaches_encrypted (aead : Aead) {payload : Bytes} {dest : SocketAddr} {audioSeq : UInt32}
    {alloc : Alloc} {ts : UInt64} (hpc : st.pc t = .audioKey payload dest audioSeq alloc ts sid)
    (hlock : st.encLock = none) (hkey : st.session.encryptKey = some key) :
    ∃ pc, Reaches (Step aead) CallsOnly st ((st.encrypts key alloc sid).goto t pc) := by
  cases hdata : audioData aead st.session.config.mtu (some key) audioSeq alloc.seq sid ts
      payload with
  | error e => exact ⟨_, (Reaches.refl st).tail (.audioEncryptFails hpc hlock hkey hdata) trivial⟩
  | ok data => exact ⟨_, (Reaches.refl st).tail (.audioEncrypt hpc hlock hkey hdata) trivial⟩

/-- A call of `send_audio` uses the next number in a nonce, also when it then fails. -/
theorem Between.audio (h : Between t key sid seq nonces st) (aead : Aead) (payload : Bytes) :
    ∃ st', Reaches (Step aead) CallsOnly st st' ∧
      Between t key sid (seq + 1) (nonces ++ [makeNonce seq sid]) st' := by
  obtain ⟨peer, hpeer⟩ := h.peer
  have hbegin : Reaches (Step aead) CallsOnly st (st.goto t (.audioState payload)) :=
    (Reaches.refl st).tail (.beginAudio payload h.idle) trivial
  have hcheck := hbegin.tail (.stateActive (State.goto_pc _ _ _) h.active) trivial
  rw [State.goto_goto] at hcheck
  have hlocal := @reaches_audioKey Task _ aead CallsOnly t (fun _ => trivial) _ _ _
    (State.goto_pc st t (.audioPeer payload)) hpeer 0
  have hkeyLock := hcheck.trans hlocal
  have hlog : (st.encrypts key st.nextAlloc st.session.sessionId).encryptions.map Encryption.nonce =
      nonces ++ [makeNonce seq sid] := by
    rw [State.encrypts, List.map_append, h.nonces, ← h.txSequence, ← h.sessionId]
    rfl
  have hnext : st.session.txSequence + 1 = seq + 1 := congrArg (· + 1) h.txSequence
  cases hdata : audioData aead st.session.config.mtu (some key) st.session.audioTxSeq
      st.session.txSequence st.session.sessionId 0 payload with
  | error e =>
    exact ⟨_, hkeyLock.tail (.audioEncryptFails (State.goto_pc _ _ _) h.encLock h.encryptKey hdata)
      trivial, State.goto_pc _ _ _, h.encLock, h.active, h.peer, h.encryptKey, h.sessionId, hnext,
      hlog⟩
  | ok data =>
    have hencrypted := hkeyLock.tail
      (.audioEncrypt (State.goto_pc _ _ _) h.encLock h.encryptKey hdata) trivial
    exact ⟨_, hencrypted.tail (.audioSendFails (State.goto_pc _ _ _)) trivial,
      State.goto_pc _ _ _, h.encLock, h.active, h.peer, h.encryptKey, h.sessionId, hnext, hlog⟩

theorem Between.control (h : Between t key sid seq nonces st) (aead : Aead) :
    ∃ st', Reaches (Step aead) CallsOnly st st' ∧ Between t key sid (seq + 1) nonces st' := by
  obtain ⟨peer, hpeer⟩ := h.peer
  have hmsg : MessageType.heartbeat.code ≠ MessageType.audioFrame.code := by decide
  have hbegin : Reaches (Step aead) CallsOnly st
      (st.goto t (.controlTx .heartbeat sid [] peer false)) :=
    (Reaches.refl st).tail (.beginControl .heartbeat sid [] peer h.idle hmsg) trivial
  have hnext : st.session.txSequence + 1 = seq + 1 := congrArg (· + 1) h.txSequence
  cases hdata : Session.encodePacket st.session.config.mtu
      (PacketHeader.new MessageType.heartbeat.code sid st.session.txSequence 0) [] with
  | error e =>
    exact ⟨_, hbegin.tail (.controlFails 0 (State.goto_pc _ _ _) hdata) trivial,
      State.goto_pc _ _ _, h.encLock, h.active, h.peer, h.encryptKey, h.sessionId, hnext, h.nonces⟩
  | ok data =>
    have hencoded := hbegin.tail (.controlTx 0 (State.goto_pc _ _ _) hdata) trivial
    exact ⟨_, hencoded.tail (.controlSendFails (State.goto_pc _ _ _)) trivial,
      State.goto_pc _ _ _, h.encLock, h.active, h.peer, h.encryptKey, h.sessionId, hnext, h.nonces⟩

theorem Between.controls (h : Between t key sid seq nonces st) (aead : Aead) (n : Nat) :
    ∃ st', Reaches (Step aead) CallsOnly st st' ∧
      Between t key sid (seq + UInt32.ofNat n) nonces st' := by
  induction n with
  | zero => exact ⟨st, Reaches.refl st, by simpa using h⟩
  | succ n ih =>
    obtain ⟨st₁, hrun₁, h₁⟩ := ih
    obtain ⟨st₂, hrun₂, h₂⟩ := h₁.control aead
    refine ⟨st₂, hrun₁.trans hrun₂, ?_⟩
    rwa [UInt32.ofNat_add, ← UInt32.add_assoc]

/-- One frame, a turn of control messages, and a second frame under the same nonce. -/
theorem Between.turn (h : Between t key sid seq [] st) (aead : Aead) :
    ∃ st', Reaches (Step aead) CallsOnly st st' ∧
      st'.encryptions.map Encryption.nonce = [makeNonce seq sid, makeNonce seq sid] := by
  obtain ⟨st₁, hrun₁, h₁⟩ := h.audio aead []
  obtain ⟨st₂, hrun₂, h₂⟩ := h₁.controls aead (2 ^ 32 - 1)
  obtain ⟨st₃, hrun₃, h₃⟩ := h₂.audio aead []
  have hround : seq + 1 + UInt32.ofNat (2 ^ 32 - 1) = seq := by
    rw [UInt32.add_assoc]
    exact UInt32.add_zero seq
  refine ⟨st₃, (hrun₁.trans hrun₂).trans hrun₃, ?_⟩
  rw [h₃.nonces, hround]
  rfl

end Calls

private def someKey : SessionKey := Vector.replicate 32 0

private def single : State Unit :=
  .quiet (Session.ofDefault.establish (.v4 0x0A000001 9000) 7 1 someKey someKey)

theorem nonces_repeat : ¬∀ (aead : Aead) (key : SessionKey) (st₀ st : State Unit),
    Ready key st₀ → Reaches (Step aead) CallsOnly st₀ st →
      (st.encryptions.map Encryption.nonce).Nodup := by
  intro hall
  have hready : Ready someKey single := ready_quiet rfl rfl
  have hbetween : Between () someKey 7 0 [] single := by
    constructor <;> first | rfl | exact ⟨_, rfl⟩
  obtain ⟨st, hrun, hnonces⟩ := hbetween.turn Aead.transparent
  have hnodup := hall _ _ _ _ hready hrun
  rw [hnonces] at hnodup
  simp at hnodup

private def double : State Bool :=
  .quiet (Session.ofDefault.establish (.v4 0x0A000001 9000) 7 1 someKey someKey)

/-- Two senders take their numbers in one order and encrypt in the other. -/
theorem nonces_repeat_after_a_turn_twice : ∃ st : State Bool,
    st.encryptions.map Encryption.nonce = [makeNonce 1 7, makeNonce 0 7] ∧
      st.encryptions.Pairwise fun e e' =>
        e.nonce = e'.nonce → e.nth + 2 ^ 32 ≤ e'.nth ∨ e'.nth + 2 ^ 32 ≤ e.nth := by
  have hready : Ready someKey double := ready_quiet rfl rfl
  have hchecks : Reaches (Step Aead.transparent) CallsOnly double
      ((double.goto false (.audioPeer [])).goto true (.audioPeer [])) := by
    have hfirst : Reaches (Step Aead.transparent) CallsOnly double
        (double.goto false (.audioState [])) := (Reaches.refl _).tail (.beginAudio [] rfl) trivial
    have hchecked := hfirst.tail (.stateActive (State.goto_pc _ _ _) hready.active) trivial
    have hsecond := hchecked.tail (.beginAudio (t := true) [] rfl) trivial
    have hboth := hsecond.tail (.stateActive (State.goto_pc _ _ _) hready.active) trivial
    rwa [State.goto_goto, State.goto_goto] at hboth
  have hnumber := @reaches_audioKey Bool _ Aead.transparent CallsOnly false (fun _ => trivial)
    ((double.goto false (.audioPeer [])).goto true (.audioPeer [])) [] _ rfl rfl 0
  obtain ⟨st, hnumbers, hsecond, hfirst, hlock, hkey, hlog⟩ : ∃ st,
      Reaches (Step Aead.transparent) CallsOnly double st ∧
        st.pc true = .audioKey [] (.v4 0x0A000001 9000) 1 ⟨1, 1⟩ 0 7 ∧
          st.pc false = .audioKey [] (.v4 0x0A000001 9000) 0 ⟨0, 0⟩ 0 7 ∧ st.encLock = none ∧
            st.session.encryptKey = some someKey ∧ st.encryptions = [] :=
    ⟨_, (hchecks.trans hnumber).trans
      (@reaches_audioKey Bool _ Aead.transparent CallsOnly true (fun _ => trivial) _ [] _ rfl rfl 0),
      rfl, rfl, rfl, rfl, rfl⟩
  obtain ⟨pc, hencrypts⟩ := reaches_encrypted Aead.transparent hsecond hlock hkey
  have hwaits : (State.goto (st.encrypts someKey ⟨1, 1⟩ 7) true pc).pc false =
      .audioKey [] (.v4 0x0A000001 9000) 0 ⟨0, 0⟩ 0 7 := hfirst
  obtain ⟨pc', hencrypts'⟩ := reaches_encrypted Aead.transparent hwaits hlock hkey
  have hrun : Reaches (Step Aead.transparent) (fun _ _ => True) double _ :=
    ((hnumbers.trans hencrypts).trans hencrypts').mono fun _ _ _ => trivial
  refine ⟨_, ?_, nonces_repeat_after_a_turn _ _ _ hready.toStart hrun⟩
  simp [State.goto, State.encrypts, hlog]

end GravitalTalk.Transport.Senders
