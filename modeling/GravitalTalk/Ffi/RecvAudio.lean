import GravitalTalk.Transport.JitterTrace
import GravitalTalk.Transport.Receive

/-! The C entry point that receives audio.  It looks at the caller's capacity after the session has
handed the frame out, so a frame that does not fit is gone. -/
namespace GravitalTalk.Ffi
open Lib GravitalTalk.Core Transport

inductive GsStatus where
  | ok
  | nullPointer
  | invalidArgument
  | io
  | timeout
  | handshake
  | protocol
  | invalidState
  | closed
  | bufferTooSmall
  | internal
  deriving DecidableEq, Repr

/-- What a call leaves: `status` is `none` while it has not returned, and `lastError` is the error whose
text `set_last_error` keeps. -/
structure Returned where
  status : Option GsStatus
  handle : Option Session
  buf : Option Bytes
  lenInout : Option Nat
  lastError : Option TransportError

def Returned.delivered (self : Returned) : Option Bytes :=
  if self.status = some .ok then self.buf.map fun buf => buf.take (self.lenInout.getD 0) else none

/-- `none` for a pointer is null. -/
def gsSessionRecvAudio (aead : Aead) (lastError : Option TransportError) (startUs : UInt64)
    (ticks : List Session.Tick) (handle : Option Session) (buf : Option Bytes)
    (lenInout : Option Nat) : Returned :=
  match handle, buf, lenInout with
  | some session, some dst, some cap =>
    let out := session.recvAudio aead startUs ticks
    match out.result with
    | none => ⟨none, some out.session, buf, lenInout, lastError⟩
    | some (.error e) => ⟨some .io, some out.session, buf, lenInout, some e⟩
    | some (.ok frame) =>
      let n := frame.payload.length
      if n > cap then ⟨some .bufferTooSmall, some out.session, buf, some n, lastError⟩
      else ⟨some .ok, some out.session, some (overwrite dst 0 frame.payload), some n, lastError⟩
  | _, _, _ => ⟨some .nullPointer, handle, buf, lenInout, lastError⟩

/-- A call with a buffer of at least the capacity it names, and what the session meets meanwhile. -/
structure Call where
  buf : Bytes
  cap : Nat
  cap_le : cap ≤ buf.length
  startUs : UInt64
  ticks : List Session.Tick

namespace Call
variable (aead : Aead) (call : Call) (session : Session)

def run : Returned :=
  gsSessionRecvAudio aead none call.startUs call.ticks (some session) (some call.buf) (some call.cap)

def audio : Session.AudioOutcome := session.recvAudio aead call.startUs call.ticks

def frame : Option Frame := (call.audio aead session).result.bind Except.toOption

def delivered : Option Bytes := (call.run aead session).delivered

def Fits : Prop := ∀ frame, call.frame aead session = some frame → frame.payload.length ≤ call.cap

variable {aead call session}

theorem run_of_result_none (h : (call.audio aead session).result = none) :
    call.run aead session =
      ⟨none, some (call.audio aead session).session, some call.buf, some call.cap, none⟩ := by
  rw [audio] at h
  simp only [run, gsSessionRecvAudio, h, audio]

theorem run_of_error {e : TransportError}
    (h : (call.audio aead session).result = some (.error e)) :
    call.run aead session =
      ⟨some .io, some (call.audio aead session).session, some call.buf, some call.cap, some e⟩ := by
  rw [audio] at h
  simp only [run, gsSessionRecvAudio, h, audio]

theorem run_of_frame {frame : Frame} (h : call.frame aead session = some frame) :
    call.run aead session =
      if frame.payload.length > call.cap then
        ⟨some .bufferTooSmall, some (call.audio aead session).session, some call.buf,
          some frame.payload.length, none⟩
      else
        ⟨some .ok, some (call.audio aead session).session,
          some (overwrite call.buf 0 frame.payload), some frame.payload.length, none⟩ := by
  obtain ⟨result, hresult, hok⟩ := Option.bind_eq_some_iff.mp h
  cases result with
  | error e => cases hok
  | ok handed =>
    obtain rfl := Option.some.inj hok
    rw [audio] at hresult
    simp only [run, gsSessionRecvAudio, hresult, audio]

theorem run_handle : (call.run aead session).handle = some (call.audio aead session).session := by
  cases hresult : (call.audio aead session).result with
  | none => rw [run_of_result_none hresult]
  | some result =>
    cases result with
    | error e => rw [run_of_error hresult]
    | ok frame =>
      have hframe : call.frame aead session = some frame := by
        rw [Call.frame, hresult]
        rfl
      rw [run_of_frame hframe]
      split_ifs <;> rfl

theorem delivered_of_frame_none (h : call.frame aead session = none) :
    call.delivered aead session = none := by
  cases hresult : (call.audio aead session).result with
  | none => rw [delivered, run_of_result_none hresult]; rfl
  | some result =>
    cases result with
    | error e => rw [delivered, run_of_error hresult]; rfl
    | ok frame =>
      rw [Call.frame, hresult] at h
      cases h

theorem delivered_of_frame {frame : Frame} (h : call.frame aead session = some frame) :
    call.delivered aead session =
      if frame.payload.length > call.cap then none else some frame.payload := by
  rw [delivered, run_of_frame h]
  by_cases hcap : frame.payload.length > call.cap
  · rw [if_pos hcap, if_pos hcap]
    rfl
  · rw [if_neg hcap, if_neg hcap, Returned.delivered, if_pos rfl]
    exact congrArg some (take_overwrite_zero _ _ _ rfl)

theorem status_tooSmall_iff : (call.run aead session).status = some .bufferTooSmall ↔
    ∃ frame, call.frame aead session = some frame ∧ call.cap < frame.payload.length := by
  cases hframe : call.frame aead session with
  | none =>
    refine iff_of_false ?_ (by rintro ⟨frame, h, -⟩; cases h)
    cases hresult : (call.audio aead session).result with
    | none => rw [run_of_result_none hresult]; exact fun h => by cases h
    | some result =>
      cases result with
      | error e => rw [run_of_error hresult]; exact fun h => by cases h
      | ok frame =>
        rw [Call.frame, hresult] at hframe
        cases hframe
  | some frame =>
    rw [run_of_frame hframe]
    by_cases hcap : frame.payload.length > call.cap
    · rw [if_pos hcap]
      exact iff_of_true rfl ⟨frame, rfl, hcap⟩
    · rw [if_neg hcap]
      refine iff_of_false (fun h => by cases h) ?_
      rintro ⟨handed, hhanded, hlt⟩
      obtain rfl := Option.some.inj hhanded
      exact hcap hlt

theorem popWithDeadline_fst (jitter : JitterBuffer) (nowUs deadlineUs : UInt64) :
    (jitter.popWithDeadline nowUs deadlineUs).1 = jitter.pop.1 := by
  unfold JitterBuffer.popWithDeadline
  obtain ⟨popped, after⟩ := jitter.pop
  cases popped with
  | some frame => rfl
  | none =>
    simp only
    split_ifs <;> rfl

theorem frame_of_pop {frame : Frame} (hpop : session.jitter.pop.1 = some frame)
    (hticks : call.ticks ≠ []) : call.frame aead session = some frame := by
  obtain ⟨tick, ticks, hcons⟩ := List.exists_cons_of_ne_nil hticks
  have hfst := fun deadlineUs => (popWithDeadline_fst session.jitter tick.nowUs deadlineUs).trans hpop
  rw [Call.frame, audio, hcons, Session.recvAudio, Session.recvLoop]
  rw [← Prod.mk.eta (p := session.jitter.popWithDeadline _ _), hfst]
  rfl

theorem session_of_pop {frame : Frame} {jitter : JitterBuffer}
    (hpop : session.jitter.pop = (some frame, jitter)) (hticks : call.ticks ≠ []) :
    (call.audio aead session).session = { session with jitter := jitter } := by
  obtain ⟨tick, ticks, hcons⟩ := List.exists_cons_of_ne_nil hticks
  have hdeadline : ∀ deadlineUs,
      session.jitter.popWithDeadline tick.nowUs deadlineUs = (some frame, jitter) := by
    intro deadlineUs
    simp only [JitterBuffer.popWithDeadline, hpop]
  rw [audio, hcons, Session.recvAudio, Session.recvLoop, hdeadline]

def idle (n : Nat) : Call where
  buf := List.replicate n 0
  cap := n
  cap_le := List.length_replicate.ge
  startUs := 0
  ticks := [⟨0, .timeout, ⟨0, 0, fun _ _ => .error .io⟩⟩]

theorem frame_idle (n : Nat) : (idle n).frame aead session = session.jitter.pop.1 := by
  cases hpop : session.jitter.pop.1 with
  | some frame => exact frame_of_pop hpop (List.cons_ne_nil _ _)
  | none =>
    have hfst := fun deadlineUs => (popWithDeadline_fst session.jitter 0 deadlineUs).trans hpop
    rw [Call.frame, audio, idle, Session.recvAudio, Session.recvLoop]
    rw [← Prod.mk.eta (p := session.jitter.popWithDeadline _ _), hfst]
    simp only
    split_ifs <;> rfl

variable (aead call session) in
/-- If the call is too small, every next one with the room it reports is given that very frame, however
little it meets itself. -/
def Kept : Prop :=
  ∀ n frame, (call.run aead session).status = some .bufferTooSmall →
    (call.run aead session).lenInout = some n → call.frame aead session = some frame →
      ∀ after, (call.run aead session).handle = some after → ∀ next : Call, n ≤ next.cap →
        next.ticks ≠ [] →
          (next.run aead after).status = some .ok ∧ (next.run aead after).lenInout = some n ∧
            next.delivered aead after = some frame.payload

/-- The frame behind the cursor carries these bytes too. -/
def Repeated (session : Session) (payload : Bytes) : Prop :=
  session.jitter.pop.1.map Frame.payload = some payload

theorem kept_iff : call.Kept aead session ↔ ∀ frame, call.frame aead session = some frame →
    frame.payload.length ≤ call.cap ∨
      Repeated (call.audio aead session).session frame.payload := by
  constructor
  · intro hkept frame hframe
    by_cases hfits : frame.payload.length ≤ call.cap
    · exact .inl hfits
    · right
      have hrun := run_of_frame hframe
      rw [if_pos (not_le.mp hfits)] at hrun
      obtain ⟨-, -, hdelivered⟩ := hkept frame.payload.length frame (by rw [hrun])
        (by rw [hrun]) hframe _ run_handle (idle frame.payload.length) le_rfl (List.cons_ne_nil _ _)
      cases hpop : (call.audio aead session).session.jitter.pop.1 with
      | none =>
        rw [delivered_of_frame_none ((frame_idle _).trans hpop)] at hdelivered
        cases hdelivered
      | some next =>
        rw [delivered_of_frame ((frame_idle _).trans hpop)] at hdelivered
        split_ifs at hdelivered
        rw [Repeated, hpop, Option.map_some, hdelivered]
  · intro h n frame hstatus hlen hframe after hafter next hcap hticks
    obtain ⟨handed, hhanded, hlong⟩ := status_tooSmall_iff.mp hstatus
    obtain rfl := Option.some.inj (hhanded.symm.trans hframe)
    obtain rfl := Option.some.inj (run_handle.symm.trans hafter)
    rw [run_of_frame hframe, if_pos hlong] at hlen
    obtain rfl := Option.some.inj hlen
    rcases h handed hframe with hfits | hrepeated
    · exact absurd hfits (not_le.mpr hlong)
    · obtain ⟨second, hsecond, hpayload⟩ := Option.map_eq_some_iff.mp hrepeated
      have hnext := @frame_of_pop aead next _ second hsecond hticks
      have hroom : ¬second.payload.length > next.cap := by
        rw [hpayload]
        exact not_lt.mpr hcap
      rw [delivered_of_frame hnext, run_of_frame hnext, if_neg hroom, if_neg hroom, hpayload]
      exact ⟨rfl, rfl, rfl⟩

end Call

private def pushed : JitterBuffer := (JitterBuffer.newOfFour.push ⟨0, 0, [1, 2]⟩).2

private def waiting : Session := { Session.ofDefault with jitter := pushed }

/-- With room for one byte the frame of two is reported and dropped. -/
theorem small_buffer_loses_frame : ¬∀ (aead : Aead) (session : Session) (call : Call),
    (∃ capacity, JitterBuffer.Reachable capacity session.jitter) → call.Kept aead session := by
  intro h
  have hpop : waiting.jitter.pop = (some ⟨0, 0, [1, 2]⟩, pushed.pop.2) := rfl
  have hticks : (Call.idle 1).ticks ≠ [] := List.cons_ne_nil _ _
  have hreach : JitterBuffer.Reachable 4 waiting.jitter :=
    ⟨JitterBuffer.newOfFour, [.push ⟨0, 0, [1, 2]⟩], rfl, rfl⟩
  have hkept := h Aead.transparent waiting (Call.idle 1) ⟨4, hreach⟩
  rcases Call.kept_iff.mp hkept ⟨0, 0, [1, 2]⟩ (Call.frame_of_pop (congrArg Prod.fst hpop) hticks)
    with hfits | hrepeated
  · exact absurd hfits (by decide)
  · rw [Call.Repeated, Call.session_of_pop hpop hticks] at hrepeated
    cases hrepeated

end GravitalTalk.Ffi
