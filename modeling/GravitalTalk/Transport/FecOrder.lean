import GravitalTalk.Transport.FecNumbering

/-! The groups of the FEC encoder under concurrent callers.  `audio_seq` is taken by an atomic add,
and the encoder counts its pushes under a lock of its own after the send, so the groups are blocks
of numbers while no call fails in between and no frame overtakes too many others.  A call that fails
leaves a hole, and from then on every group straddles two blocks. -/
namespace GravitalTalk.Transport.Senders
open Lib GravitalTalk.Core Transition Blocks

variable {Task : Type} [DecidableEq Task]

/-- What happens to the stream: a number taken from `audio_tx_seq`, a frame that `send_to` took, an
error between the two, a parity given to `send_fec_parity`. -/
inductive StreamEvent where
  | numbered
  | sent (audioSeq : UInt32) (payload : Bytes)
  | failed
  | handed (parity : FecParity)

def pcEvents : Pc → Pc → List StreamEvent
  | .audioSeq _ _, .audioTx _ _ _ => [.numbered]
  | .audioSend payload _ audioSeq _ _, .fecPush _ _ _ _ => [.sent audioSeq payload]
  | .audioKey _ _ _ _ _ _, .idle => [.failed]
  | .audioSend _ _ _ _ _, .idle => [.failed]
  | .fecPush _ _ _ _, .parityTx parity _ _ => [.handed parity]
  | _, _ => []

def streamEvents (st : State Task) (label : Label Task) (st' : State Task) : List StreamEvent :=
  match label with
  | .task t => pcEvents (st.pc t) (st'.pc t)
  | _ => []

abbrev Run (Task : Type) := Logged (State Task) StreamEvent

def numbersTaken (log : List StreamEvent) : Nat :=
  log.countP fun event => match event with
    | .numbered => true
    | _ => false

def framesSent (log : List StreamEvent) : List (UInt32 × Bytes) :=
  log.filterMap fun event => match event with
    | .sent audioSeq payload => some (audioSeq, payload)
    | _ => none

def paritiesHanded (log : List StreamEvent) : List FecParity :=
  log.filterMap fun event => match event with
    | .handed parity => some parity
    | _ => none

def sentFrom (log : List StreamEvent) (base : UInt32) : List Bytes :=
  ((framesSent log).filter fun frame =>
    base.toNat ≤ frame.1.toNat ∧ frame.1.toNat < base.toNat + fecWindow.toNat).map Prod.snd

/-- Every parity is that of a whole block of numbers. -/
def Aligned (log : List StreamEvent) : Prop :=
  ∀ parity ∈ paritiesHanded log, parity.seqBase.toNat % fecWindow.toNat = 0 ∧
    (sentFrom log parity.seqBase).length = fecWindow.toNat ∧
      parity.payload = XorParity.parity (sentFrom log parity.seqBase)

structure Fresh (run : Run Task) : Prop extends Start run.state where
  active : run.state.session.state.state = .active
  audioTxSeq : run.state.session.audioTxSeq = 0
  fecEnc : run.state.session.fecEnc = FecEncoder.withDefaultWindow
  log : run.log = []

/-- On its way to the encoder a frame overtakes none of an earlier block, and not the first of its
own. -/
def InTurn (st : State Task) : Label Task → Prop
  | .task t => ∀ payload peer audioSeq sid, st.pc t = .fecPush payload peer audioSeq sid →
      ∀ t' n, (st.pc t').Holds n → n < audioSeq →
        n.toNat / fecWindow.toNat = audioSeq.toNat / fecWindow.toNat ∧
          n.toNat % fecWindow.toNat ≠ 0
  | _ => True

theorem log_numbered (log : List StreamEvent) :
    numbersTaken (log ++ [.numbered]) = numbersTaken log + 1 ∧
      framesSent (log ++ [.numbered]) = framesSent log ∧
      paritiesHanded (log ++ [.numbered]) = paritiesHanded log := by
  simp [numbersTaken, framesSent, paritiesHanded]

theorem log_sent (log : List StreamEvent) (n : UInt32) (payload : Bytes) :
    numbersTaken (log ++ [.sent n payload]) = numbersTaken log ∧
      framesSent (log ++ [.sent n payload]) = framesSent log ++ [(n, payload)] ∧
      paritiesHanded (log ++ [.sent n payload]) = paritiesHanded log := by
  simp [numbersTaken, framesSent, paritiesHanded]

theorem log_failed (log : List StreamEvent) : .failed ∈ log ++ [StreamEvent.failed] :=
  List.mem_append_right _ (List.mem_singleton_self _)

theorem log_handed (log : List StreamEvent) (parity : FecParity) :
    numbersTaken (log ++ [.handed parity]) = numbersTaken log ∧
      framesSent (log ++ [.handed parity]) = framesSent log ∧
      paritiesHanded (log ++ [.handed parity]) = paritiesHanded log ++ [parity] := by
  simp [numbersTaken, framesSent, paritiesHanded]

theorem BlockParity.concat {sent : List (UInt32 × Bytes)} {frame : UInt32 × Bytes}
    {parity : FecParity} (h : BlockParity sent parity)
    (hnodup : ((sent ++ [frame]).map number).Nodup) : BlockParity (sent ++ [frame]) parity := by
  obtain ⟨hbase, hlen, hparity⟩ := h
  have hsame := block_concat (by decide) hnodup hlen
  unfold BlockParity
  rw [hsame]
  exact ⟨hbase, hlen, hparity⟩

structure InBlocks (run : Run Task) : Prop where
  numbering : Numbering run.state.pc run.state.session.audioTxSeq (numbersTaken run.log)
    (framesSent run.log)
  grouping : ∃ b base group, Grouping run.state.pc run.state.session.fecEnc (numbersTaken run.log)
    (framesSent run.log) b base group
  parities : ∀ parity ∈ paritiesHanded run.log, BlockParity (framesSent run.log) parity

section Runs
variable {aead : Aead} {run : Run Task} {st' : State Task} {t : Task} {pc : Pc}

omit [DecidableEq Task] in
theorem InBlocks.silent (inv : InBlocks run) (hpcs : SameHands st'.pc run.state.pc)
    (hseq : st'.session.audioTxSeq = run.state.session.audioTxSeq)
    (henc : st'.session.fecEnc = run.state.session.fecEnc) {events : List StreamEvent}
    (hevents : events = []) : InBlocks ⟨st', run.log ++ events⟩ := by
  rw [hevents, List.append_nil]
  obtain ⟨b, base, group, hgroup⟩ := inv.grouping
  refine ⟨?_, ⟨b, base, group, ?_⟩, inv.parities⟩
  · rw [hseq]
    exact inv.numbering.within hpcs.within
  · rw [henc]
    exact hgroup.same hpcs

omit [DecidableEq Task] in
theorem InBlocks.environment (inv : InBlocks run) (hpcs : st'.pc = run.state.pc)
    (hseq : st'.session.audioTxSeq = run.state.session.audioTxSeq)
    (henc : st'.session.fecEnc = run.state.session.fecEnc) :
    InBlocks ⟨st', run.log ++ streamEvents run.state .environment st'⟩ :=
  inv.silent (hpcs ▸ SameHands.refl _) hseq henc rfl

theorem streamEvents_goto {st : State Task} {pc₀ : Pc} (hpc : st.pc t = pc₀) :
    streamEvents st (.task t) (st'.goto t pc) = pcEvents pc₀ pc := by
  rw [streamEvents, State.goto_pc, hpc]

theorem InBlocks.moves (inv : InBlocks run) {pc₀ : Pc} {label : Label Task}
    (hlabel : label = .task t ∨ label = .checkState t ∨ label = .clearKey t)
    (hpc : run.state.pc t = pc₀) (hpcs : st'.pc = run.state.pc)
    (hseq : st'.session.audioTxSeq = run.state.session.audioTxSeq)
    (henc : st'.session.fecEnc = run.state.session.fecEnc) (hevents : pcEvents pc₀ pc = [])
    (hunsent : pc.unsent = pc₀.unsent) (hwaiting : pc.waiting = pc₀.waiting) :
    InBlocks ⟨st'.goto t pc, run.log ++ streamEvents run.state label (st'.goto t pc)⟩ := by
  have hnone : streamEvents run.state label (st'.goto t pc) = [] := by
    rcases hlabel with rfl | rfl | rfl
    · rw [streamEvents_goto hpc, hevents]
    · rfl
    · rfl
  have hsame : SameHands (st'.goto t pc).pc run.state.pc := by
    rw [State.goto, hpcs]
    exact sameHands_update (hpc ▸ hunsent) (hpc ▸ hwaiting)
  exact inv.silent hsame hseq henc hnone

theorem afterControl_empty (closing : Bool) :
    (afterControl closing).unsent = none ∧ (afterControl closing).waiting = none := by
  cases closing <;> exact ⟨rfl, rfl⟩

theorem not_holds {pc : Pc} (hunsent : pc.unsent = none) (hwaiting : pc.waiting = none) (n : UInt32) :
    ¬pc.Holds n := by
  rintro (h | ⟨payload, h⟩)
  · rw [hunsent] at h
    cases h
  · rw [hwaiting] at h
    cases h

theorem InBlocks.takes (inv : InBlocks run) {payload : Bytes} {peer : SocketAddr}
    (hpc : run.state.pc t = .audioSeq payload peer) (hpcs : st'.pc = run.state.pc)
    (hseq : st'.session.audioTxSeq = run.state.session.audioTxSeq + 1)
    (henc : st'.session.fecEnc = run.state.session.fecEnc)
    (hcount : numbersTaken (run.log ++ streamEvents run.state (.task t)
      (st'.goto t (.audioTx payload peer run.state.session.audioTxSeq))) < 2 ^ 32) :
    InBlocks ⟨st'.goto t (.audioTx payload peer run.state.session.audioTxSeq),
      run.log ++ streamEvents run.state (.task t)
        (st'.goto t (.audioTx payload peer run.state.session.audioTxSeq))⟩ := by
  rw [streamEvents_goto hpc, pcEvents] at hcount ⊢
  obtain ⟨htaken, hframes, hparities⟩ := log_numbered run.log
  obtain ⟨b, base, group, hgroup⟩ := inv.grouping
  rw [htaken] at hcount
  have hnothing : ∀ n, ¬(run.state.pc t).Holds n := by
    rw [hpc]
    exact not_holds rfl rfl
  constructor <;> simp only [htaken, hframes, hparities, State.goto, hpcs, hseq, henc]
  · exact inv.numbering.takes hcount rfl rfl
  · exact ⟨b, base, group, hgroup.takes inv.numbering hcount hnothing rfl rfl⟩
  · exact inv.parities

theorem InBlocks.sends (inv : InBlocks run) {payload data : Bytes} {peer : SocketAddr}
    {n sid : UInt32} (hpc : run.state.pc t = .audioSend payload peer n sid data)
    (hpcs : st'.pc = run.state.pc)
    (hseq : st'.session.audioTxSeq = run.state.session.audioTxSeq)
    (henc : st'.session.fecEnc = run.state.session.fecEnc) :
    InBlocks ⟨st'.goto t (.fecPush payload peer n sid),
      run.log ++ streamEvents run.state (.task t) (st'.goto t (.fecPush payload peer n sid))⟩ := by
  rw [streamEvents_goto hpc, pcEvents]
  obtain ⟨htaken, hframes, hparities⟩ := log_sent run.log n payload
  obtain ⟨b, base, group, hgroup⟩ := inv.grouping
  have hunsent : (run.state.pc t).unsent = some n := congrArg Pc.unsent hpc
  have hnone : (run.state.pc t).waiting = none := congrArg Pc.waiting hpc
  have hsent := @Numbering.sends _ _ _ _ _ _ t n payload inv.numbering hunsent
    (.fecPush payload peer n sid) rfl rfl
  constructor <;> simp only [htaken, hframes, hparities, State.goto, hpcs, hseq, henc]
  · exact hsent
  · exact ⟨b, base, group, hgroup.sends hunsent hnone rfl rfl⟩
  · exact fun parity hmem => (inv.parities parity hmem).concat hsent.sentOnce

theorem InBlocks.pushes (inv : InBlocks run) {payload : Bytes} {peer : SocketAddr}
    {n sid : UInt32} (hpc : run.state.pc t = .fecPush payload peer n sid)
    (hturn : InTurn run.state (.task t)) (hpcs : st'.pc = run.state.pc)
    (hseq : st'.session.audioTxSeq = run.state.session.audioTxSeq)
    (henc : st'.session.fecEnc = (run.state.session.fecEnc.push n payload).2)
    (hunsent : pc.unsent = none) (hwaiting : pc.waiting = none)
    (hevents : pcEvents (.fecPush payload peer n sid) pc =
      ((run.state.session.fecEnc.push n payload).1.map .handed).toList) :
    InBlocks ⟨st'.goto t pc, run.log ++ streamEvents run.state (.task t) (st'.goto t pc)⟩ := by
  rw [streamEvents_goto hpc, hevents]
  obtain ⟨b, base, group, hgroup⟩ := inv.grouping
  obtain ⟨hnext, hparity⟩ := hgroup.pushes inv.numbering (congrArg Pc.waiting hpc)
    (congrArg Pc.unsent hpc) (hturn payload peer n sid hpc) (not_holds hunsent hwaiting)
  have hnumbering : Numbering (Function.update run.state.pc t pc) run.state.session.audioTxSeq
      (numbersTaken run.log) (framesSent run.log) :=
    inv.numbering.within (within_update (fun n h => by rw [hunsent] at h; cases h) hwaiting)
  cases hpushed : (run.state.session.fecEnc.push n payload).1 with
  | none =>
    simp only [Option.map_none, Option.toList_none, List.append_nil]
    constructor <;> simp only [State.goto, hpcs, hseq, henc]
    · exact hnumbering
    · exact hnext
    · exact inv.parities
  | some parity =>
    obtain ⟨htaken, hframes, hparities⟩ := log_handed run.log parity
    simp only [Option.map_some, Option.toList_some]
    constructor <;> simp only [htaken, hframes, hparities, State.goto, hpcs, hseq, henc]
    · exact hnumbering
    · exact hnext
    · intro other hmem
      rcases List.mem_append.mp hmem with hold | hlast
      · exact inv.parities other hold
      · cases List.mem_singleton.mp hlast
        exact hparity parity hpushed

theorem inBlocks_step {label : Label Task} (inv : InBlocks run)
    (hstep : Step aead run.state label st') (hturn : InTurn run.state label)
    (hcount : numbersTaken (run.log ++ streamEvents run.state label st') < 2 ^ 32)
    (hfailed : .failed ∉ run.log ++ streamEvents run.state label st') :
    InBlocks ⟨st', run.log ++ streamEvents run.state label st'⟩ := by
  cases hstep with
  | beginAudio payload hpc => exact inv.moves (.inl rfl) hpc rfl rfl rfl rfl rfl rfl
  | beginControl msg sid payload peer hpc hmsg =>
    exact inv.moves (.inl rfl) hpc rfl rfl rfl rfl rfl rfl
  | beginClose hpc => exact inv.moves (.inl rfl) hpc rfl rfl rfl rfl rfl rfl
  | stateActive hpc hstate | stateOther hpc hstate =>
    exact inv.moves (.inr (.inl rfl)) hpc rfl rfl rfl rfl rfl rfl
  | peerSome hpc hpeer | peerNone hpc hpeer =>
    exact inv.moves (.inl rfl) hpc rfl rfl rfl rfl rfl rfl
  | audioSeq hpc =>
    exact inv.takes hpc rfl rfl rfl hcount
  | audioTx hpc => exact inv.moves (.inl rfl) hpc rfl rfl rfl rfl rfl rfl
  | audioStamp ts hpc => exact inv.moves (.inl rfl) hpc rfl rfl rfl rfl rfl rfl
  | audioEncrypt hpc hlock hkey hdata | audioClear hpc hlock hkey hdata =>
    exact inv.moves (.inl rfl) hpc rfl rfl rfl rfl rfl rfl
  | audioEncryptFails hpc hlock hkey hdata | audioClearFails hpc hlock hkey hdata =>
    rw [streamEvents_goto hpc] at hfailed
    exact absurd (log_failed run.log) hfailed
  | audioSent n hpc => exact inv.sends hpc rfl rfl rfl
  | audioSendFails hpc =>
    rw [streamEvents_goto hpc] at hfailed
    exact absurd (log_failed run.log) hfailed
  | fecCollects hpc hlock hpush | fecCompletes hpc hlock hpush =>
    exact inv.pushes hpc hturn rfl rfl (by rw [hpush]) rfl rfl (by rw [hpush]; rfl)
  | parityTx hpc => exact inv.moves (.inl rfl) hpc rfl rfl rfl rfl rfl rfl
  | parityEncrypt ts hpc hlock hkey hdata | parityEncryptFails ts hpc hlock hkey hdata =>
    exact inv.moves (.inl rfl) hpc rfl rfl rfl rfl rfl rfl
  | parityNoKey hpc hlock hkey => exact inv.moves (.inl rfl) hpc rfl rfl rfl rfl rfl rfl
  | paritySend hpc => exact inv.moves (.inl rfl) hpc rfl rfl rfl rfl rfl rfl
  | paritySent n hpc => exact inv.moves (.inl rfl) hpc rfl rfl rfl rfl rfl rfl
  | paritySendFails hpc => exact inv.moves (.inl rfl) hpc rfl rfl rfl rfl rfl rfl
  | controlTx ts hpc hdata => exact inv.moves (.inl rfl) hpc rfl rfl rfl rfl rfl rfl
  | controlFails ts hpc hdata | controlSent n hpc | controlSendFails hpc =>
    exact inv.moves (.inl rfl) hpc rfl rfl rfl rfl (afterControl_empty _).1
      (afterControl_empty _).2
  | closeFlag hpc => exact inv.moves (.inl rfl) hpc rfl rfl rfl rfl rfl rfl
  | closeEncKey hpc hlock => exact inv.moves (.inr (.inr rfl)) hpc rfl rfl rfl rfl rfl rfl
  | closeDecKey hpc => exact inv.moves (.inl rfl) hpc rfl rfl rfl rfl rfl rfl
  | closePeerSome hpc hpeer | closePeerNone hpc hpeer =>
    exact inv.moves (.inl rfl) hpc rfl rfl rfl rfl rfl rfl
  | closeState hpc => exact inv.moves (.inl rfl) hpc rfl rfl rfl rfl rfl rfl
  | installKey _ _ | storeSessionId _ | storePeer _ | fireEvent _ =>
    exact inv.environment rfl rfl rfl

omit [DecidableEq Task] in
theorem inBlocks_fresh (h : Fresh run) : InBlocks run := by
  have hholds : ∀ t n, ¬(run.state.pc t).Holds n := by
    intro t
    rw [h.idle t]
    exact not_holds rfl rfl
  obtain ⟨hstart, -, hseq, hfec, hlog⟩ := h
  constructor <;> simp only [hseq, hfec, hlog]
  case numbering =>
    constructor
    case counter => rfl
    case held => exact fun t n hn => (hholds t n hn).elim
    case apart => exact fun t _ n hn => (hholds t n hn).elim
    case unsent => exact fun _ _ _ hmem => by cases hmem
    case waiting => exact fun t frame hn => (hholds t _ (.inr ⟨_, hn⟩)).elim
    case sentOnce => exact List.nodup_nil
    case sentTaken => exact fun _ hmem => by cases hmem
  case grouping =>
    refine ⟨0, 0, [], ?_⟩
    exact ⟨fun _ _ _ => List.not_mem_nil, List.nil_subset _, List.nodup_nil,
      fun _ hmem => absurd hmem List.not_mem_nil, fun h => absurd rfl h, rfl,
      FecEncoder.group_new _ _, le_rfl,
      fun t n hn => (hholds t n hn).elim, fun _ hm => absurd hm (Nat.not_lt_zero _)⟩
  case parities => exact fun _ hmem => by cases hmem

theorem inBlocks_run {start : Run Task} (hstart : Fresh start)
    (hrun : Reaches (LogStep (Step aead) streamEvents) (fun run => InTurn run.state) start run) :
    numbersTaken run.log < 2 ^ 32 → .failed ∉ run.log → InBlocks run := by
  refine @Reaches.invariant _ _ _ _
    (fun run => numbersTaken run.log < 2 ^ 32 → .failed ∉ run.log → InBlocks run) _ _
    hrun (fun _ _ => inBlocks_fresh hstart) ?_
  rintro run label _ inv ⟨hstep⟩ hturn hcount hfailed
  have hbefore : numbersTaken run.log < 2 ^ 32 := by
    rw [numbersTaken, List.countP_append] at hcount
    exact Nat.lt_of_le_of_lt (Nat.le_add_right _ _) hcount
  have hnone : .failed ∉ run.log := fun hmem => hfailed (List.mem_append_left _ hmem)
  exact inBlocks_step (inv hbefore hnone) hstep hturn hcount hfailed

theorem sentFrom_eq {log : List StreamEvent} {base : UInt32} (h : base.toNat % 4 = 0) :
    sentFrom log base = (block number 4 (base.toNat / 4) (framesSent log)).map Prod.snd := by
  unfold sentFrom block
  congr 2
  funext frame
  rw [decide_eq_decide, show fecWindow.toNat = 4 from rfl, number]
  omega

/-- While no call fails after it has taken its number, and the frames come to the encoder in turn,
every parity is that of a block. -/
theorem calls_in_turn_aligned (aead : Aead) (start run : Run Task) (hstart : Fresh start)
    (hcount : numbersTaken run.log < 2 ^ 32) (hfailed : .failed ∉ run.log)
    (hrun : Reaches (LogStep (Step aead) streamEvents) (fun run => InTurn run.state) start run) :
    Aligned run.log := by
  intro parity hmem
  obtain ⟨hbase, hlen, hpayload⟩ := (inBlocks_run hstart hrun hcount hfailed).parities parity hmem
  rw [sentFrom_eq hbase, List.length_map]
  exact ⟨hbase, hlen, hpayload⟩

end Runs

section Calls
variable {aead : Aead} {allowed : Run Task → Label Task → Prop} {t : Task} {start : Run Task}
  {st st' : State Task} {log : List StreamEvent} {pcs : Task → Pc} {pc₀ pc : Pc} {n k : UInt32}
  {enc : FecEncoder}

theorem logged_silent {label : Label Task}
    (h : Reaches (LogStep (Step aead) streamEvents) allowed start ⟨st, log⟩)
    (hstep : Step aead st label st') (hallowed : allowed ⟨st, log⟩ label)
    (hevents : streamEvents st label st' = []) :
    Reaches (LogStep (Step aead) streamEvents) allowed start ⟨st', log⟩ := by
  have hnext := h.tail (.log hstep) hallowed
  rwa [hevents, List.append_nil] at hnext

theorem logged_event {label : Label Task} {event : StreamEvent}
    (h : Reaches (LogStep (Step aead) streamEvents) allowed start ⟨st, log⟩)
    (hstep : Step aead st label st') (hallowed : allowed ⟨st, log⟩ label)
    (hevents : streamEvents st label st' = [event]) :
    Reaches (LogStep (Step aead) streamEvents) allowed start ⟨st', log ++ [event]⟩ := by
  have hnext := h.tail (.log hstep) hallowed
  rwa [hevents] at hnext

def Unhindered (allowed : Run Task → Label Task → Prop) (t : Task) : Prop :=
  ∀ run : Run Task, (run.state.pc t).waiting = none →
    allowed run (.task t) ∧ allowed run (.checkState t)

/-- The task is at `pc`, the others as in `pcs`, in an Active session with a key; the next number is
`n`. -/
structure OnAir (pcs : Task → Pc) (t : Task) (pc : Pc) (n : UInt32) (enc : FecEncoder)
    (st : State Task) : Prop where
  pcs : st.pc = Function.update pcs t pc
  encLock : st.encLock = none
  fecLock : st.fecLock = none
  active : st.session.state.state = .active
  peer : ∃ peer, st.session.peer = some peer
  key : ∃ key, st.session.encryptKey = some key
  mtu : st.session.config.mtu = 1200
  audioTxSeq : st.session.audioTxSeq = n
  fecEnc : st.session.fecEnc = enc

theorem OnAir.place (h : OnAir pcs t pc n enc st) : st.pc t = pc := by
  rw [h.pcs, Function.update_self]

theorem goto_pcs (h : st.pc = Function.update pcs t pc₀) (pc : Pc) :
    (st.goto t pc).pc = Function.update pcs t pc := by
  rw [State.goto, h, Function.update_idem]

theorem OnAir.turnTo (h : OnAir pcs t pc n enc st) {t' : Task} {pc' : Pc} (hne : t' ≠ t)
    (hplace : pcs t' = pc') : OnAir (Function.update pcs t pc) t' pc' n enc st :=
  { h with
    pcs := by
      rw [h.pcs, ← hplace, ← Function.update_of_ne hne pc pcs, Function.update_eq_self] }

theorem audioData_transparent (key : SessionKey) {payload : Bytes} (hlen : payload.length ≤ 100)
    (audioSeq seq sid : UInt32) (ts : UInt64) :
    ∃ data, audioData Aead.transparent 1200 (some key) audioSeq seq sid ts payload = .ok data := by
  have hwire : (Session.prefixed audioSeq payload ++ (Vector.replicate 16 (0 : UInt8)).toList).length ≤
      120 := by
    simp [Session.prefixed]
    omega
  have hencode := @Session.encodePacket_eq 1200 (Session.encryptedHeader .audioFrame seq sid ts)
    (Session.prefixed audioSeq payload ++ (Vector.replicate 16 (0 : UInt8)).toList)
    (Nat.le_trans hwire (by decide))
    (Nat.le_trans (Nat.add_le_add_right (Nat.add_le_add_left hwire _) 4) (by decide))
  refine ⟨Packet.bytes (Session.encryptedHeader .audioFrame seq sid ts)
    (Session.prefixed audioSeq payload ++ (Vector.replicate 16 (0 : UInt8)).toList), ?_⟩
  simp only [audioData, Session.audioPacket, Session.sealPayload_eq]
  exact congrArg (Except.mapError TransportError.protocol) hencode

theorem OnAir.numbers (h : OnAir pcs t .idle n enc st)
    (hquiet : Unhindered allowed t) {payload : Bytes} (hlen : payload.length ≤ 100)
    (hrun : Reaches (LogStep (Step Aead.transparent) streamEvents) allowed start ⟨st, log⟩) :
    ∃ st' peer sid data, OnAir pcs t (.audioSend payload peer n sid data) (n + 1) enc st' ∧
      Reaches (LogStep (Step Aead.transparent) streamEvents) allowed start
        ⟨st', log ++ [.numbered]⟩ := by
  obtain ⟨peer, hpeer⟩ := h.peer
  obtain ⟨key, hkey⟩ := h.key
  obtain ⟨data, hdata⟩ := audioData_transparent key hlen st.session.audioTxSeq st.session.txSequence
    st.session.sessionId 0
  rw [← h.mtu] at hdata
  have hat : ∀ (st : State Task) (pc : Pc) (log : List StreamEvent), pc.waiting = none →
      allowed ⟨st.goto t pc, log⟩ (.task t) ∧ allowed ⟨st.goto t pc, log⟩ (.checkState t) :=
    fun st pc log hnone => hquiet _ ((congrArg Pc.waiting (State.goto_pc st t pc)).trans hnone)
  have hbegin := logged_silent hrun (.beginAudio payload h.place)
    (hquiet _ (congrArg Pc.waiting h.place)).1 (streamEvents_goto h.place)
  have hcheck := logged_silent hbegin (.stateActive (State.goto_pc _ _ _) h.active)
    (hat _ _ _ rfl).2 rfl
  have hfound := logged_silent hcheck (.peerSome (State.goto_pc _ _ _) hpeer) (hat _ _ _ rfl).1
    (streamEvents_goto (State.goto_pc _ _ _))
  have hnumber := logged_event hfound (.audioSeq (State.goto_pc _ _ _)) (hat _ _ _ rfl).1
    (streamEvents_goto (State.goto_pc _ _ _))
  have htx := logged_silent hnumber (.audioTx (State.goto_pc _ _ _)) (hat _ _ _ rfl).1
    (streamEvents_goto (State.goto_pc _ _ _))
  have hstamp := logged_silent htx (.audioStamp 0 (State.goto_pc _ _ _)) (hat _ _ _ rfl).1
    (streamEvents_goto (State.goto_pc _ _ _))
  have hencrypt := logged_silent hstamp
    (.audioEncrypt (State.goto_pc _ _ _) h.encLock hkey hdata) (hat _ _ _ rfl).1
    (streamEvents_goto (State.goto_pc _ _ _))
  have hn := h.audioTxSeq
  subst hn
  have hcalled := goto_pcs (goto_pcs (goto_pcs h.pcs (.audioState payload)) (.audioPeer payload))
    (.audioSeq payload peer)
  refine ⟨_, peer, st.session.sessionId, data, ?_, hencrypt⟩
  exact ⟨goto_pcs (goto_pcs (goto_pcs (goto_pcs hcalled _) _) _) _, h.encLock, h.fecLock, h.active,
    h.peer, h.key, h.mtu, rfl, h.fecEnc⟩

/-- A call whose send fails leaves its number unused. -/
theorem OnAir.fails (h : OnAir pcs t .idle n enc st)
    (hquiet : Unhindered allowed t) {payload : Bytes} (hlen : payload.length ≤ 100)
    (hrun : Reaches (LogStep (Step Aead.transparent) streamEvents) allowed start ⟨st, log⟩) :
    ∃ st', OnAir pcs t .idle (n + 1) enc st' ∧
      Reaches (LogStep (Step Aead.transparent) streamEvents) allowed start
        ⟨st', log ++ [.numbered] ++ [.failed]⟩ := by
  obtain ⟨st₁, peer, sid, data, h₁, hsend⟩ := h.numbers hquiet hlen hrun
  have hfailed := logged_event hsend (.audioSendFails h₁.place)
    (hquiet _ (congrArg Pc.waiting h₁.place)).1 (streamEvents_goto h₁.place)
  refine ⟨_, ?_, hfailed⟩
  exact ⟨goto_pcs h₁.pcs _, h₁.encLock, h₁.fecLock, h₁.active, h₁.peer, h₁.key, h₁.mtu,
    h₁.audioTxSeq, h₁.fecEnc⟩

theorem OnAir.sends (h : OnAir pcs t .idle n enc st)
    (hquiet : Unhindered allowed t) {payload : Bytes} (hlen : payload.length ≤ 100)
    (hrun : Reaches (LogStep (Step Aead.transparent) streamEvents) allowed start ⟨st, log⟩) :
    ∃ st' peer sid, OnAir pcs t (.fecPush payload peer n sid) (n + 1) enc st' ∧
      Reaches (LogStep (Step Aead.transparent) streamEvents) allowed start
        ⟨st', log ++ [.numbered] ++ [.sent n payload]⟩ := by
  obtain ⟨st₁, peer, sid, data, h₁, hsend⟩ := h.numbers hquiet hlen hrun
  have hsent := logged_event hsend (.audioSent 0 h₁.place) (hquiet _ (congrArg Pc.waiting h₁.place)).1
    (streamEvents_goto h₁.place)
  refine ⟨_, peer, sid, ?_, hsent⟩
  exact ⟨goto_pcs h₁.pcs _, h₁.encLock, h₁.fecLock, h₁.active, h₁.peer, h₁.key, h₁.mtu,
    h₁.audioTxSeq, h₁.fecEnc⟩

theorem OnAir.collects {payload : Bytes} {peer : SocketAddr} {sid : UInt32}
    (h : OnAir pcs t (.fecPush payload peer n sid) k enc st) {enc' : FecEncoder}
    (hpush : enc.push n payload = (none, enc')) (hallowed : allowed ⟨st, log⟩ (.task t))
    (hrun : Reaches (LogStep (Step Aead.transparent) streamEvents) allowed start ⟨st, log⟩) :
    ∃ st', OnAir pcs t .idle k enc' st' ∧
      Reaches (LogStep (Step Aead.transparent) streamEvents) allowed start ⟨st', log⟩ := by
  rw [← h.fecEnc] at hpush
  have hcollected := logged_silent hrun (.fecCollects h.place h.fecLock hpush) hallowed
    (streamEvents_goto h.place)
  refine ⟨_, ?_, hcollected⟩
  exact ⟨goto_pcs h.pcs _, h.encLock, h.fecLock, h.active, h.peer, h.key, h.mtu, h.audioTxSeq, rfl⟩

theorem OnAir.completes {payload : Bytes} {peer : SocketAddr} {sid : UInt32}
    (h : OnAir pcs t (.fecPush payload peer n sid) k enc st) {parity : FecParity}
    (hpush : (enc.push n payload).1 = some parity) (hallowed : allowed ⟨st, log⟩ (.task t))
    (hrun : Reaches (LogStep (Step Aead.transparent) streamEvents) allowed start ⟨st, log⟩) :
    ∃ st', Reaches (LogStep (Step Aead.transparent) streamEvents) allowed start
      ⟨st', log ++ [.handed parity]⟩ := by
  have hfull : st.session.fecEnc.push n payload = (some parity, (enc.push n payload).2) := by
    rw [h.fecEnc, ← hpush]
  exact ⟨_, logged_event hrun (.fecCompletes h.place h.fecLock hfull) hallowed (streamEvents_goto h.place)⟩

end Calls

private def onAirKey : SessionKey := Vector.replicate 32 0

private def freshRun : Run Bool :=
  ⟨.quiet (Session.ofDefault.establish (.v4 0x0A000001 9000) 7 1 onAirKey onAirKey), []⟩

private theorem freshRun_fresh : Fresh freshRun where
  toStart := (@ready_quiet Bool _ onAirKey rfl rfl).toStart
  active := rfl
  audioTxSeq := rfl
  fecEnc := rfl
  log := rfl

private theorem freshRun_onAir :
    OnAir (fun _ => .idle) true .idle 0 FecEncoder.withDefaultWindow freshRun.state where
  pcs := (Function.update_eq_self true _).symm
  encLock := rfl
  fecLock := rfl
  active := rfl
  peer := ⟨_, rfl⟩
  key := ⟨_, rfl⟩
  mtu := rfl
  audioTxSeq := rfl
  fecEnc := rfl

private theorem short (byte : UInt8) : [byte].length ≤ 100 := show 1 ≤ 100 by decide

private def oneIn (a : UInt32) : FecEncoder := (FecEncoder.withDefaultWindow.push a [1]).2

private def twoIn (a b : UInt32) : FecEncoder := ((oneIn a).push b [2]).2

private def threeIn (a b c : UInt32) : FecEncoder := ((twoIn a b).push c [3]).2

private def parityOfFour (a : UInt32) : FecParity := ⟨a, 4, [1 ^^^ 2 ^^^ 3 ^^^ 4]⟩

/-- One failed send, and the groups start at the number after it. -/
theorem failed_call_misaligns : ¬∀ (aead : Aead) (start run : Run Bool), Fresh start →
    numbersTaken run.log < 2 ^ 32 →
      Reaches (LogStep (Step aead) streamEvents) (fun run => CallsOnly run.state) start run →
        Aligned run.log := by
  intro hall
  have hquiet : Unhindered (fun run => CallsOnly run.state) true := fun _ _ => ⟨trivial, trivial⟩
  have hstart : Reaches (LogStep (Step Aead.transparent) streamEvents)
      (fun run => CallsOnly run.state) freshRun freshRun := Reaches.refl _
  obtain ⟨st, h, hrun⟩ := freshRun_onAir.fails hquiet (short 0) hstart
  obtain ⟨st, peer, sid, h, hrun⟩ := h.sends hquiet (short 1) hrun
  obtain ⟨st, h, hrun⟩ := h.collects (show _ = (none, oneIn 1) from rfl) trivial hrun
  obtain ⟨st, peer, sid, h, hrun⟩ := h.sends hquiet (short 2) hrun
  obtain ⟨st, h, hrun⟩ := h.collects (show _ = (none, twoIn 1 2) from rfl) trivial hrun
  obtain ⟨st, peer, sid, h, hrun⟩ := h.sends hquiet (short 3) hrun
  obtain ⟨st, h, hrun⟩ := h.collects (show _ = (none, threeIn 1 2 3) from rfl) trivial hrun
  obtain ⟨st, peer, sid, h, hrun⟩ := h.sends hquiet (short 4) hrun
  obtain ⟨st, hrun⟩ := h.completes (show _ = some (parityOfFour 1) from rfl) trivial hrun
  have haligned := hall Aead.transparent freshRun _ freshRun_fresh
    (List.countP_le_length.trans_lt (by simp)) hrun
  exact absurd (haligned (parityOfFour 1) (List.mem_singleton_self _)).1 (by decide)

private theorem inTurn_at {pcs : Bool → Pc} {t : Bool} {payload : Bytes} {peer : SocketAddr}
    {n sid k : UInt32} {enc : FecEncoder} {st : State Bool}
    (h : OnAir pcs t (.fecPush payload peer n sid) k enc st)
    (hother : ∀ m, (pcs !t).Holds m → m.toNat / 4 = n.toNat / 4 ∧ m.toNat % 4 ≠ 0) :
    InTurn st (.task t) := by
  intro payload' peer' n' sid' hpc t' m hholds hlt
  rw [h.place] at hpc
  cases hpc
  rw [h.pcs] at hholds
  obtain ⟨-, hholds⟩ | ⟨hne, hholds⟩ := holds_update hholds
  · obtain hunsent | ⟨_, hwaiting⟩ := hholds
    · cases hunsent
    · cases hwaiting
      exact absurd hlt (UInt32.lt_irrefl _)
  · rw [Bool.eq_not_of_ne hne] at hholds
    exact hother m hholds

private theorem inTurn_alone {pcs : Bool → Pc} {t : Bool} {payload : Bytes} {peer : SocketAddr}
    {n sid k : UInt32} {enc : FecEncoder} {st : State Bool}
    (h : OnAir pcs t (.fecPush payload peer n sid) k enc st) (hidle : pcs (!t) = .idle) :
    InTurn st (.task t) :=
  inTurn_at h fun m hholds => absurd (hidle ▸ hholds) (not_holds rfl rfl m)

/-- Two tasks; the frame of number 2 overtakes that of number 1 on its way to the encoder. -/
theorem calls_in_turn_aligned_pair : ∃ run : Run Bool,
    framesSent run.log = [(0, [1]), (1, [3]), (2, [2]), (3, [4])] ∧
      paritiesHanded run.log = [parityOfFour 0] ∧ Aligned run.log := by
  have hquiet : ∀ t, Unhindered (fun run : Run Bool => InTurn run.state) t := by
    refine fun t run hnone => ⟨fun payload peer n sid hpc => ?_, trivial⟩
    rw [hpc] at hnone
    cases hnone
  have hstart : Reaches (LogStep (Step Aead.transparent) streamEvents)
      (fun run => InTurn run.state) freshRun freshRun := Reaches.refl _
  obtain ⟨st, peer, sid, h, hrun⟩ := freshRun_onAir.sends (hquiet true) (short 1) hstart
  obtain ⟨st, h, hrun⟩ := h.collects (show _ = (none, oneIn 0) from rfl) (inTurn_alone h rfl) hrun
  obtain ⟨st, peer, sid, h, hrun⟩ := h.sends (hquiet true) (short 3) hrun
  have h := h.turnTo (show false ≠ true by decide) rfl
  obtain ⟨st, peer', sid', h, hrun⟩ := h.sends (hquiet false) (short 2) hrun
  have hover : InTurn st (.task false) := by
    refine inTurn_at h ?_
    rintro m (hunsent | ⟨_, hwaiting⟩)
    · cases hunsent
    · cases hwaiting
      decide
  obtain ⟨st, h, hrun⟩ := h.collects (show _ = (none, twoIn 0 2) from rfl) hover hrun
  have h := h.turnTo (show true ≠ false by decide) (Function.update_self _ _ _)
  obtain ⟨st, h, hrun⟩ := h.collects (show _ = (none, threeIn 0 2 1) from rfl)
    (inTurn_alone h (Function.update_self _ _ _)) hrun
  obtain ⟨st, peer, sid, h, hrun⟩ := h.sends (hquiet true) (short 4) hrun
  obtain ⟨st, hrun⟩ := h.completes (show _ = some (parityOfFour 0) from rfl)
    (inTurn_alone h (Function.update_self _ _ _)) hrun
  exact ⟨_, rfl, rfl, calls_in_turn_aligned Aead.transparent freshRun _ freshRun_fresh
    (List.countP_le_length.trans_lt (by simp)) (by simp) hrun⟩

end GravitalTalk.Transport.Senders
