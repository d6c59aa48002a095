import GravitalTalk.Transport.Senders

/-! Clear text on the wire.  `send_audio` looks at the state first and at the key later, and `close`
clears the key before it moves the state, so a sender that has passed the state check may find no
key and fall back to clear text.  The runs without such a crossing send no clear audio. -/
namespace GravitalTalk.Transport.Senders
open Lib GravitalTalk.Core Transition

variable {Task : Type} [DecidableEq Task] {aead : Aead} {key : SessionKey}

/-- The flag is set and the payload is what `encrypt_in_place` left under `key`. -/
def EncryptedUnder (aead : Aead) (key : SessionKey) (view : PacketView) : Prop :=
  view.header.flags.contains Flags.encrypted = true ∧
    ∃ plain n buffer, encryptInPlace aead key
        (makeNonce view.header.sequence view.header.sessionId) view.header.bytes
        (plain ++ List.replicate tagSize 0) plain.length = (.ok n, buffer) ∧
      view.payload = buffer.take n

def NotClear (aead : Aead) (key : SessionKey) (data : Bytes) : Prop :=
  ∀ view, PacketView.decode data = .ok view →
    view.header.msgType = MessageType.audioFrame.code → EncryptedUnder aead key view

def Pc.AwaitsKey : Pc → Prop
  | .audioPeer _ | .audioSeq _ _ | .audioTx _ _ _ | .audioStamp _ _ _ _ | .audioKey _ _ _ _ _ _ =>
    True
  | _ => False

/-- `close` clears the key only while no sender awaits it, and no sender makes its state check
while the key is gone and the state is still Active. -/
def Orderly (st : State Task) : Label Task → Prop
  | .clearKey _ => ∀ t, ¬(st.pc t).AwaitsKey
  | .checkState _ => ¬(st.session.state.state = .active ∧ st.session.encryptKey = none)
  | .task _ => True
  | .environment => False

theorem encryptedUnder_of_seal {header : PacketHeader} {plain wire : Bytes}
    (hflag : header.flags.contains Flags.encrypted = true)
    (h : Session.sealPayload aead key header plain = .ok wire) :
    EncryptedUnder aead key ⟨header, wire⟩ := by
  refine ⟨hflag, plain, ?_⟩
  rw [Session.sealPayload_eq] at h
  rw [encryptInPlace_eq aead key _ _ plain _ (by simp)]
  cases hseal : aead.encryptDetached key (makeNonce header.sequence header.sessionId) header.bytes
      plain with
  | none =>
    rw [hseal] at h
    cases h
  | some found =>
    obtain ⟨cipher, tag⟩ := found
    rw [hseal] at h
    cases h
    have hlen := aead.length_encrypt _ _ _ _ _ _ hseal
    refine ⟨_, _, rfl, ?_⟩
    rw [List.take_of_length_le]
    simp [hlen, tagSize]

theorem notClear_bytes {mtu : Nat} {header : PacketHeader} {wire data : Bytes}
    (hversion : header.version = protocolVersion)
    (hencode : Session.encodePacket mtu header wire = .ok data)
    (h : header.msgType = MessageType.audioFrame.code → EncryptedUnder aead key ⟨header, wire⟩) :
    NotClear aead key data := by
  obtain ⟨hpayload, -, rfl⟩ := Session.encodePacket_ok hencode
  intro view hdecode htype
  rw [PacketView.decode_bytes header wire hversion hpayload] at hdecode
  cases hdecode
  exact h htype

theorem mapError_ok {α : Type} {e : Except Error α} {a : α}
    (h : e.mapError TransportError.protocol = .ok a) : e = .ok a := by
  cases e with
  | error _ => cases h
  | ok _ =>
    cases h
    rfl

theorem notClear_audioData {mtu : Nat} {audioSeq seq sid : UInt32} {ts : UInt64}
    {payload data : Bytes}
    (h : audioData aead mtu (some key) audioSeq seq sid ts payload = .ok data) :
    NotClear aead key data := by
  unfold audioData at h
  cases hpacket : Session.audioPacket aead (some key) audioSeq seq sid ts payload with
  | error e =>
    rw [hpacket] at h
    cases h
  | ok found =>
    obtain ⟨header, wire⟩ := found
    rw [hpacket] at h
    obtain ⟨rfl, hseal⟩ := Session.audioPacket_some hpacket
    exact notClear_bytes rfl (mapError_ok h) fun _ =>
      encryptedUnder_of_seal (Session.encryptedHeader_flag _ _ _ _) hseal

theorem notClear_parityData {mtu : Nat} {parity : FecParity} {seq sid : UInt32} {ts : UInt64}
    {data : Bytes} {key' : SessionKey} (h : parityData aead mtu key' parity seq sid ts = .ok data) :
    NotClear aead key data := by
  unfold parityData at h
  simp only at h
  cases hseal : Session.sealPayload aead key' (Session.encryptedHeader .audioFec seq sid ts)
      (Session.fecPayload parity) with
  | error e =>
    rw [hseal] at h
    cases h
  | ok wire =>
    rw [hseal] at h
    refine notClear_bytes rfl (mapError_ok h) fun htype => ?_
    exact absurd htype (show MessageType.audioFec.code ≠ MessageType.audioFrame.code by decide)

def Pc.DataOk (aead : Aead) (key : SessionKey) : Pc → Prop
  | .audioSend _ _ _ _ data => NotClear aead key data
  | .paritySend _ data => NotClear aead key data
  | .controlTx msg _ _ _ _ => msg.code ≠ MessageType.audioFrame.code
  | .controlSend data _ _ => NotClear aead key data
  | _ => True

structure KeyKept (aead : Aead) (key : SessionKey) (st : State Task) : Prop where
  keyed : st.session.encryptKey = some key ∨
    (st.session.encryptKey = none ∧ ∀ t, ¬(st.pc t).AwaitsKey)
  pcs : ∀ t, (st.pc t).DataOk aead key
  wire : ∀ sent ∈ st.wire, NotClear aead key sent.data
  fallbacks : st.fallbacks = 0

theorem KeyKept.goto {st st' : State Task} (inv : KeyKept aead key st) (t : Task) (pc : Pc)
    (hpcs : st'.pc = st.pc) (hkey : st'.session.encryptKey = st.session.encryptKey)
    (hwire : ∀ sent ∈ st'.wire, sent ∈ st.wire ∨ NotClear aead key sent.data)
    (hfallbacks : st'.fallbacks = st.fallbacks) (hdata : pc.DataOk aead key)
    (hawaits : pc.AwaitsKey → (st.pc t).AwaitsKey ∨ st.session.encryptKey = some key) :
    KeyKept aead key (st'.goto t pc) := by
  constructor
  case keyed =>
    rcases inv.keyed with hsome | ⟨hnone, hno⟩
    · exact .inl (hkey.trans hsome)
    · refine .inr ⟨hkey.trans hnone, fun t' => ?_⟩
      by_cases heq : t' = t
      · subst heq
        simp only [State.goto, Function.update_self]
        intro hpc
        rcases hawaits hpc with hold | hsome
        · exact hno t' hold
        · rw [hnone] at hsome
          cases hsome
      · simp only [State.goto, Function.update_of_ne heq, hpcs]
        exact hno t'
  case pcs =>
    intro t'
    by_cases heq : t' = t
    · subst heq
      simpa only [State.goto, Function.update_self] using hdata
    · simpa only [State.goto, Function.update_of_ne heq, hpcs] using inv.pcs t'
  case wire =>
    intro sent hsent
    rcases hwire sent hsent with hold | hnew
    · exact inv.wire sent hold
    · exact hnew
  case fallbacks => exact hfallbacks.trans inv.fallbacks

theorem KeyKept.silent {st st' : State Task} (inv : KeyKept aead key st) (t : Task) (pc : Pc)
    (hpcs : st'.pc = st.pc) (hkey : st'.session.encryptKey = st.session.encryptKey)
    (hwire : st'.wire = st.wire) (hfallbacks : st'.fallbacks = st.fallbacks)
    (hdata : pc.DataOk aead key)
    (hawaits : pc.AwaitsKey → (st.pc t).AwaitsKey ∨ st.session.encryptKey = some key) :
    KeyKept aead key (st'.goto t pc) :=
  inv.goto t pc hpcs hkey (fun _ hsent => .inl (hwire ▸ hsent)) hfallbacks hdata hawaits

theorem KeyKept.sends {st st' : State Task} (inv : KeyKept aead key st) (t : Task) (pc : Pc)
    {data : Bytes} {peer : SocketAddr} (hpcs : st'.pc = st.pc)
    (hkey : st'.session.encryptKey = st.session.encryptKey)
    (hwire : st'.wire = st.wire ++ [⟨data, peer⟩]) (hfallbacks : st'.fallbacks = st.fallbacks)
    (hsent : NotClear aead key data) (hdata : pc.DataOk aead key) (hawaits : ¬pc.AwaitsKey) :
    KeyKept aead key (st'.goto t pc) := by
  refine inv.goto t pc hpcs hkey (fun sent hmem => ?_) hfallbacks hdata (fun h => absurd h hawaits)
  rw [hwire, List.mem_append, List.mem_singleton] at hmem
  rcases hmem with hold | rfl
  · exact .inl hold
  · exact .inr hsent

theorem afterControl_dataOk (closing : Bool) : (afterControl closing).DataOk aead key := by
  cases closing <;> trivial

theorem afterControl_awaits (closing : Bool) : ¬(afterControl closing).AwaitsKey := by
  cases closing <;> exact id

omit [DecidableEq Task] in
theorem KeyKept.dataOk {st : State Task} (inv : KeyKept aead key st) {t : Task} {pc : Pc}
    (hpc : st.pc t = pc) : pc.DataOk aead key := hpc ▸ inv.pcs t

omit [DecidableEq Task] in
theorem KeyKept.key_of_awaits {st : State Task} (inv : KeyKept aead key st) {t : Task} {pc : Pc}
    (hpc : st.pc t = pc) (hawaits : pc.AwaitsKey) : st.session.encryptKey = some key := by
  rcases inv.keyed with hsome | ⟨-, hno⟩
  · exact hsome
  · exact absurd (hpc ▸ hawaits) (hno t)

theorem keyKept_step {st st' : State Task} {label : Label Task} (inv : KeyKept aead key st)
    (hstep : Step aead st label st') (horder : Orderly st label) : KeyKept aead key st' := by
  cases hstep with
  | beginAudio payload hpc => exact inv.silent _ _ rfl rfl rfl rfl trivial False.elim
  | beginControl msg sid payload peer hpc hmsg =>
    exact inv.silent _ _ rfl rfl rfl rfl hmsg False.elim
  | beginClose hpc => exact inv.silent _ _ rfl rfl rfl rfl trivial False.elim
  | stateActive hpc hstate =>
    -- in an orderly run an Active session still has its key here
    refine inv.silent _ _ rfl rfl rfl rfl trivial fun _ => .inr ?_
    rcases inv.keyed with hsome | ⟨hnone, -⟩
    · exact hsome
    · exact absurd ⟨hstate, hnone⟩ horder
  | stateOther hpc hstate => exact inv.silent _ _ rfl rfl rfl rfl trivial False.elim
  | peerSome hpc hpeer =>
    exact inv.silent _ _ rfl rfl rfl rfl trivial fun _ => .inl (by rw [hpc]; trivial)
  | peerNone hpc hpeer => exact inv.silent _ _ rfl rfl rfl rfl trivial False.elim
  | audioSeq hpc =>
    exact inv.silent _ _ rfl rfl rfl rfl trivial fun _ => .inl (by rw [hpc]; trivial)
  | audioTx hpc =>
    exact inv.silent _ _ rfl rfl rfl rfl trivial fun _ => .inl (by rw [hpc]; trivial)
  | audioStamp ts hpc =>
    exact inv.silent _ _ rfl rfl rfl rfl trivial fun _ => .inl (by rw [hpc]; trivial)
  | audioEncrypt hpc hlock hkey hdata =>
    have hsome := inv.key_of_awaits hpc trivial
    rw [hkey] at hsome
    cases hsome
    exact inv.silent _ _ rfl rfl rfl rfl (notClear_audioData hdata) False.elim
  | audioEncryptFails hpc hlock hkey hdata =>
    exact inv.silent _ _ rfl rfl rfl rfl trivial False.elim
  | audioClear hpc hlock hkey hdata | audioClearFails hpc hlock hkey hdata =>
    -- the fallback: a sender at the key lock with no key, which the invariant rules out
    have hsome := inv.key_of_awaits hpc trivial
    rw [hkey] at hsome
    cases hsome
  | audioSent n hpc =>
    exact inv.sends _ _ rfl rfl rfl rfl (inv.dataOk hpc) trivial id
  | audioSendFails hpc =>
    exact inv.sends _ _ rfl rfl rfl rfl (inv.dataOk hpc) trivial id
  | fecCollects hpc hlock hpush => exact inv.silent _ _ rfl rfl rfl rfl trivial False.elim
  | fecCompletes hpc hlock hpush => exact inv.silent _ _ rfl rfl rfl rfl trivial False.elim
  | parityTx hpc => exact inv.silent _ _ rfl rfl rfl rfl trivial False.elim
  | parityEncrypt ts hpc hlock hkey hdata =>
    exact inv.silent _ _ rfl rfl rfl rfl (notClear_parityData hdata) False.elim
  | parityEncryptFails ts hpc hlock hkey hdata =>
    exact inv.silent _ _ rfl rfl rfl rfl trivial False.elim
  | parityNoKey hpc hlock hkey => exact inv.silent _ _ rfl rfl rfl rfl trivial False.elim
  | paritySend hpc =>
    exact inv.sends _ _ rfl rfl rfl rfl (inv.dataOk hpc) trivial id
  | paritySent n hpc => exact inv.silent _ _ rfl rfl rfl rfl trivial False.elim
  | paritySendFails hpc => exact inv.silent _ _ rfl rfl rfl rfl trivial False.elim
  | controlTx ts hpc hdata =>
    exact inv.silent _ _ rfl rfl rfl rfl
      (notClear_bytes rfl hdata fun htype => absurd htype (inv.dataOk hpc)) False.elim
  | controlFails ts hpc hdata =>
    exact inv.silent _ _ rfl rfl rfl rfl (afterControl_dataOk _)
      fun h => absurd h (afterControl_awaits _)
  | controlSent n hpc =>
    exact inv.sends _ _ rfl rfl rfl rfl (inv.dataOk hpc) (afterControl_dataOk _)
      (afterControl_awaits _)
  | controlSendFails hpc =>
    exact inv.sends _ _ rfl rfl rfl rfl (inv.dataOk hpc) (afterControl_dataOk _)
      (afterControl_awaits _)
  | closeFlag hpc => exact inv.silent _ _ rfl rfl rfl rfl trivial False.elim
  | closeEncKey hpc hlock =>
    -- the key goes, and in an orderly run nobody is waiting for it
    have hno : ∀ t, ¬(st.pc t).AwaitsKey := horder
    have hcleared : KeyKept aead key
        { st with session := { st.session with encryptKey := none } } :=
      ⟨.inr ⟨rfl, hno⟩, inv.pcs, inv.wire, inv.fallbacks⟩
    exact hcleared.silent _ _ rfl rfl rfl rfl trivial False.elim
  | closeDecKey hpc => exact inv.silent _ _ rfl rfl rfl rfl trivial False.elim
  | closePeerSome hpc hpeer =>
    exact inv.silent _ _ rfl rfl rfl rfl
      (show MessageType.close.code ≠ MessageType.audioFrame.code by decide) False.elim
  | closePeerNone hpc hpeer => exact inv.silent _ _ rfl rfl rfl rfl trivial False.elim
  | closeState hpc => exact inv.silent _ _ rfl rfl rfl rfl trivial False.elim
  | installKey _ _ | storeSessionId _ | storePeer _ | fireEvent _ => exact horder.elim

omit [DecidableEq Task] in
theorem keyKept_ready {st : State Task} (ready : Ready key st) : KeyKept aead key st where
  keyed := .inl ready.encryptKey
  pcs t := by
    rw [ready.idle t]
    trivial
  wire sent hsent := by
    rw [ready.wire] at hsent
    cases hsent
  fallbacks := ready.fallbacks

/-- In every orderly run of senders and closers on a session with its key installed, no AudioFrame
goes out in clear and the fallback is never taken. -/
theorem orderly_runs_send_no_clear_audio (aead : Aead) (key : SessionKey) (st₀ st : State Task)
    (hready : Ready key st₀) (hrun : Reaches (Step aead) Orderly st₀ st) :
    (∀ sent ∈ st.wire, NotClear aead key sent.data) ∧ st.fallbacks = 0 := by
  have inv : KeyKept aead key st :=
    hrun.invariant (keyKept_ready hready) fun _ _ _ hinv hstep horder =>
      keyKept_step hinv hstep horder
  exact ⟨inv.wire, inv.fallbacks⟩

def clearHeader (seq sid : UInt32) (ts : UInt64) : PacketHeader :=
  ⟨1, Flags.empty, MessageType.audioFrame.code, sid, seq, ts⟩

theorem audioData_none {mtu : Nat} {audioSeq seq sid : UInt32} {ts : UInt64}
    (hmtu : headerSize + 8 ≤ mtu) :
    audioData aead mtu none audioSeq seq sid ts [] =
      .ok (Packet.bytes (clearHeader seq sid ts) (be32 audioSeq)) := by
  have hencode : Session.encodePacket mtu (clearHeader seq sid ts) (be32 audioSeq) =
      .ok (Packet.bytes (clearHeader seq sid ts) (be32 audioSeq)) := by
    refine Session.encodePacket_eq ?_ ?_
    · rw [length_be32]
      decide
    · rwa [length_be32]
  have hprefixed : Session.prefixed audioSeq [] = be32 audioSeq := List.append_nil _
  simp only [audioData, Session.audioPacket, hprefixed]
  exact congrArg (Except.mapError TransportError.protocol) hencode

theorem clear_not_notClear (seq sid audioSeq : UInt32) (ts : UInt64) :
    ¬NotClear aead key (Packet.bytes (clearHeader seq sid ts) (be32 audioSeq)) := by
  intro h
  have hdecode := PacketView.decode_bytes (clearHeader seq sid ts) (be32 audioSeq) rfl
    (by rw [length_be32]; decide)
  have hflag : Flags.empty.contains Flags.encrypted = true := (h _ hdecode rfl).1
  revert hflag
  decide

/-- A sender passes the state check, another task begins to close and clears the key, and the
sender goes on to send in clear. -/
theorem crossing_sends_clear_audio (aead : Aead) {st : State Task} {t closer : Task}
    (hne : t ≠ closer) (hready : Ready key st) {peer : SocketAddr}
    (hpeer : st.session.peer = some peer) (hmtu : headerSize + 8 ≤ st.session.config.mtu) :
    ∃ st', Reaches (Step aead) CallsOnly st st' ∧
      ∃ sent ∈ st'.wire, ¬NotClear aead key sent.data := by
  have hbegin : Reaches (Step aead) CallsOnly st (st.goto t (.audioState [])) :=
    (Reaches.refl st).tail (.beginAudio [] (hready.idle t)) trivial
  have hcheck := hbegin.tail (.stateActive (State.goto_pc _ _ _) hready.active) trivial
  rw [State.goto_goto] at hcheck
  set checked := st.goto t (.audioPeer []) with hchecked
  have hcloserIdle : checked.pc closer = .idle := by
    simp only [hchecked, State.goto, Function.update_of_ne (Ne.symm hne)]
    exact hready.idle closer
  have hclose := ((hcheck.tail (.beginClose hcloserIdle) trivial).tail
    (.closeFlag (State.goto_pc _ _ _)) trivial).tail
      (.closeEncKey (State.goto_pc _ _ _) hready.encLock) trivial
  set cleared := State.goto { (State.goto { checked.goto closer .closeFlag with
      session := { checked.session with closed := true } } closer .closeEncKey) with
      session := { checked.session with closed := true, encryptKey := none } } closer .closeDecKey
    with hcleared
  have hpc : cleared.pc t = .audioPeer [] := by
    simp only [hcleared, hchecked, State.goto, Function.update_of_ne hne, Function.update_self]
  have hlocal : Reaches (Step aead) CallsOnly cleared _ :=
    reaches_audioKey (fun _ => trivial) hpc hpeer 0
  have hkeyLock := hclose.trans hlocal
  have hsend := (hkeyLock.tail (.audioClear (State.goto_pc _ _ _) hready.encLock rfl
    (audioData_none hmtu)) trivial).tail (.audioSent 0 (State.goto_pc _ _ _)) trivial
  refine ⟨_, hsend, ⟨Packet.bytes (clearHeader cleared.nextAlloc.seq cleared.session.sessionId 0)
    (be32 cleared.session.audioTxSeq), peer⟩, ?_, clear_not_notClear _ _ _ _⟩
  exact List.mem_append_right _ (List.mem_singleton_self _)

private def noKey : SessionKey := Vector.replicate 32 0

private def ready : State Bool :=
  .quiet (Session.ofDefault.establish (.v4 0x0A000001 9000) 7 1 noKey noKey)

private theorem ready_ready : Ready noKey ready := ready_quiet rfl rfl

private theorem ready_peer : ready.session.peer = some (.v4 0x0A000001 9000) := rfl

private theorem ready_mtu : headerSize + 8 ≤ ready.session.config.mtu := by
  decide

/-- One sender and one closer are enough. -/
theorem close_race_sends_clear_audio : ¬∀ (aead : Aead) (key : SessionKey) (st₀ st : State Bool),
    Ready key st₀ → Reaches (Step aead) CallsOnly st₀ st →
      (∀ sent ∈ st.wire, NotClear aead key sent.data) ∧ st.fallbacks = 0 := by
  intro hall
  obtain ⟨st, hrun, sent, hsent, hclear⟩ := crossing_sends_clear_audio Aead.transparent
    Bool.false_ne_true ready_ready ready_peer ready_mtu
  exact hclear ((hall _ _ _ _ ready_ready hrun).1 sent hsent)

private theorem transparent_data (audioSeq seq sid : UInt32) :
    audioData Aead.transparent ready.session.config.mtu (some noKey) audioSeq seq sid 0 [] =
      .ok (Packet.bytes (Session.encryptedHeader .audioFrame seq sid 0)
        (be32 audioSeq ++ List.replicate 16 0)) := by
  have hencode : Session.encodePacket ready.session.config.mtu
      (Session.encryptedHeader .audioFrame seq sid 0) (be32 audioSeq ++ List.replicate 16 0) =
        .ok (Packet.bytes (Session.encryptedHeader .audioFrame seq sid 0)
          (be32 audioSeq ++ List.replicate 16 0)) := by
    refine Session.encodePacket_eq ?_ ?_
    · rw [List.length_append, length_be32]
      decide
    · rw [List.length_append, length_be32]
      decide
  have hprefixed : Session.prefixed audioSeq [] = be32 audioSeq := List.append_nil _
  simp only [audioData, Session.audioPacket, hprefixed, Session.sealPayload_eq]
  exact congrArg (Except.mapError TransportError.protocol) hencode

/-- A closer clears the key while the sender has its frame ready: it goes out encrypted. -/
theorem orderly_runs_send_no_clear_audio_once : ∃ st : State Bool,
    Reaches (Step Aead.transparent) Orderly ready st ∧ st.session.encryptKey = none ∧
      st.wire ≠ [] ∧ (∀ sent ∈ st.wire, NotClear Aead.transparent noKey sent.data) ∧
        st.fallbacks = 0 := by
  have hbegin : Reaches (Step Aead.transparent) Orderly ready (ready.goto false (.audioState [])) :=
    (Reaches.refl ready).tail (.beginAudio [] rfl) trivial
  have hcheck := hbegin.tail (.stateActive (State.goto_pc _ _ _) ready_ready.active)
    (fun h => by cases h.2)
  rw [State.goto_goto] at hcheck
  -- the closer comes up to the key beside the sender
  have hclose := (hcheck.tail (.beginClose (t := true) rfl) trivial).tail
    (.closeFlag (State.goto_pc _ _ _)) trivial
  set closing := State.goto { (ready.goto false (.audioPeer [])).goto true .closeFlag with
    session := { ready.session with closed := true } } true .closeEncKey with hclosing
  have hpc : closing.pc false = .audioPeer [] := rfl
  have hlocal := @reaches_audioKey Bool _ Aead.transparent Orderly false (fun _ => trivial) _ _ _
    hpc ready_peer 0
  have hkeyed := (hclose.trans hlocal).tail (.audioEncrypt (State.goto_pc _ _ _) rfl
    ready_ready.encryptKey (transparent_data _ _ _)) trivial
  have hcleared := hkeyed.tail (.closeEncKey (t := true) rfl rfl) fun t => by
    cases t
    · rw [State.goto_pc]
      exact id
    · exact id
  have hsend := hcleared.tail (.audioSent (t := false) 48 rfl) trivial
  refine ⟨_, hsend, rfl, ?_,
    orderly_runs_send_no_clear_audio Aead.transparent noKey ready _ ready_ready hsend⟩
  exact List.append_ne_nil_of_right_ne_nil _ (List.cons_ne_nil _ _)

end GravitalTalk.Transport.Senders
