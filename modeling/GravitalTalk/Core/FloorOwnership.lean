import GravitalTalk.Lib.Trace
import GravitalTalk.Core.Floor

/-! Who has the floor, over runs of a controller: what the documentation of the holder promises, and
which calls break it. -/
namespace GravitalTalk.Core.FloorController
open Lib

def call (self : FloorController) (input : FloorEvent × UInt32) :
    FloorController × Except FloorTransitionError FloorState :=
  ((self.transition input.1 input.2).2, (self.transition input.1 input.2).1)

abbrev Call := Trace.Event FloorController (FloorEvent × UInt32)
  (Except FloorTransitionError FloorState)

def Owned (self : FloorController) : Prop := self.holder ≠ 0 ↔ self.isGranted = true

/-- What is promised of a call: an error changes nothing, the holder is the one the floor is granted
to, and nobody loses the floor through a call made for another, unless the floor is taken.  `timeout`
and `reset` are made for nobody. -/
structure Upheld (call : Call) : Prop where
  error : ∀ e, call.answer = .error e → call.after = call.before
  owned : call.after.Owned
  kept : ∀ ssrc, call.before.isHolder ssrc = true → call.input.2 ≠ ssrc →
    call.input.1 ≠ .taken → call.input.1 ≠ .timeout → call.input.1 ≠ .reset →
    call.after.isHolder ssrc = true

/-- No request that is accepted, and no release for anyone but the holder. -/
structure Orderly (call : Call) : Prop where
  request : call.input.1 = .request → call.before.isAvailable = false
  release : call.input.1 = .release → call.before.isGranted = true →
    call.input.2 = call.before.holder

def Named (input : FloorEvent × UInt32) : Prop :=
  input.1 = .request ∨ input.1 = .grant ∨ input.1 = .taken → input.2 ≠ 0

theorem call_of_next {self : FloorController} {input : FloorEvent × UInt32}
    {state : FloorState} {holder : UInt32} (h : self.next input.1 input.2 = some (state, holder)) :
    self.call input = ({ self with state := state, holderSsrc := holder }, .ok state) := by
  simp [call, transition, h]

theorem call_of_next_none {self : FloorController} {input : FloorEvent × UInt32}
    (h : self.next input.1 input.2 = none) :
    self.call input = (self, .error ⟨self.state, input.1⟩) := by
  simp [call, transition, h]

theorem error_unchanged (self : FloorController) (input : FloorEvent × UInt32) :
    ∀ e, (self.call input).2 = .error e → (self.call input).1 = self := by
  intro e he
  cases hnext : self.next input.1 input.2 with
  | none => rw [call_of_next_none hnext]
  | some accepted =>
    rw [@call_of_next self input accepted.1 accepted.2 hnext] at he
    cases he

theorem next_cases {self : FloorController} {event : FloorEvent} {ssrc : UInt32}
    {state : FloorState} {holder : UInt32} (h : self.next event ssrc = some (state, holder)) :
    ((event = .grant ∨ event = .taken) ∧ state = .granted ∧ holder = ssrc) ∨
    (event = .request ∧ self.isAvailable = true ∧ state = .requested ∧ holder = ssrc) ∨
    ((state = .idle ∨ state = .released) ∧
      (holder = 0 ∨ self.state = .idle ∧ holder = self.holderSsrc)) := by
  obtain ⟨current, held, maxTransmitMs⟩ := self
  cases current <;> cases event <;> simp_all [next, isAvailable]

theorem next_request {self : FloorController} (h : self.isAvailable = true) (ssrc : UInt32) :
    self.next .request ssrc = some (.requested, ssrc) := by
  obtain ⟨current, held, maxTransmitMs⟩ := self
  cases current <;> simp_all [next, isAvailable]

theorem next_granted {self : FloorController} {event : FloorEvent} {ssrc : UInt32}
    {state : FloorState} {holder : UInt32} (hgranted : self.isGranted = true)
    (h : self.next event ssrc = some (state, holder)) :
    event = .release ∨ event = .taken ∨ event = .timeout ∨ event = .reset := by
  obtain ⟨current, held, maxTransmitMs⟩ := self
  cases current <;> cases event <;> simp_all [next, isGranted]

theorem next_release {self : FloorController} (h : self.isGranted = true) (ssrc : UInt32) :
    self.next .release ssrc = some (.released, 0) := by
  obtain ⟨current, held, maxTransmitMs⟩ := self
  cases current <;> simp_all [next, isGranted]

theorem isHolder_iff {self : FloorController} {ssrc : UInt32} :
    self.isHolder ssrc = true ↔ self.isGranted = true ∧ self.holder = ssrc := by
  rw [isHolder, isGranted, holder, Bool.and_eq_true, beq_iff_eq, beq_iff_eq]

theorem owned_new (maxTransmitMs : UInt64) : (new maxTransmitMs).Owned :=
  iff_of_false (fun h => h rfl) Bool.false_ne_true

theorem Owned.holder_idle {self : FloorController} (h : self.Owned) (hidle : self.state = .idle) :
    self.holderSsrc = 0 := by
  by_contra hholder
  have hgranted := Iff.mp h hholder
  rw [isGranted, hidle] at hgranted
  cases hgranted

theorem Orderly.not_lost {self : FloorController} {input : FloorEvent × UInt32}
    (h : Orderly (Trace.event call self input)) {ssrc : UInt32} (hholder : self.isHolder ssrc = true)
    (hother : input.2 ≠ ssrc) (htaken : input.1 ≠ .taken) (htimeout : input.1 ≠ .timeout)
    (hreset : input.1 ≠ .reset) : self.next input.1 input.2 = none := by
  obtain ⟨hgranted, hself⟩ := isHolder_iff.mp hholder
  cases hnext : self.next input.1 input.2 with
  | none => rfl
  | some accepted =>
    rcases @next_granted self _ _ accepted.1 accepted.2 hgranted hnext with h' | h' | h' | h'
    · exact absurd ((h.release h' hgranted).trans hself) hother
    · exact absurd h' htaken
    · exact absurd h' htimeout
    · exact absurd h' hreset

theorem Owned.step {self : FloorController} (howned : self.Owned)
    {input : FloorEvent × UInt32} (hnamed : Named input)
    (horderly : Orderly (Trace.event call self input)) : (self.call input).1.Owned := by
  cases hnext : self.next input.1 input.2 with
  | none =>
    rw [call_of_next_none hnext]
    exact howned
  | some accepted =>
    obtain ⟨state, holder⟩ := accepted
    rw [call_of_next hnext]
    rcases next_cases hnext with ⟨hevent, rfl, rfl⟩ | ⟨hevent, havailable, -, -⟩ | ⟨hstate, hholder⟩
    · have hne : input.2 ≠ 0 := hnamed (.inr hevent)
      exact iff_of_true hne rfl
    · have hrefused : self.isAvailable = false := horderly.request hevent
      rw [hrefused] at havailable
      cases havailable
    · have hzero : holder = 0 := by
        rcases hholder with hzero | ⟨hidle, hsame⟩
        · exact hzero
        · rw [hsame, howned.holder_idle hidle]
      rcases hstate with rfl | rfl
      · exact iff_of_false (fun h => h hzero) Bool.false_ne_true
      · exact iff_of_false (fun h => h hzero) Bool.false_ne_true

theorem Owned.upheld {self : FloorController} (howned : self.Owned)
    {input : FloorEvent × UInt32} (hnamed : Named input)
    (horderly : Orderly (Trace.event call self input)) : Upheld (Trace.event call self input) where
  error := error_unchanged self input
  owned := howned.step hnamed horderly
  kept := by
    intro ssrc hholder hother htaken htimeout hreset
    have hnext := horderly.not_lost hholder hother htaken htimeout hreset
    change (self.call input).1.isHolder ssrc = true
    rw [call_of_next_none hnext]
    exact hholder

theorem Upheld.orderly {self : FloorController} {input : FloorEvent × UInt32} (hnamed : Named input)
    (h : Upheld (Trace.event call self input)) : Orderly (Trace.event call self input) where
  request := by
    obtain ⟨event, ssrc⟩ := input
    rintro (rfl : event = .request)
    rw [← Bool.not_eq_true]
    intro havailable
    have hgranted := h.owned
    rw [Trace.event, call_of_next (next_request havailable ssrc)] at hgranted
    exact absurd (Iff.mp hgranted (hnamed (.inl rfl))) Bool.false_ne_true
  release := by
    obtain ⟨event, ssrc⟩ := input
    rintro (rfl : event = .release) (hgranted : self.isGranted = true)
    by_contra hother
    have hlost := h.kept self.holder (isHolder_iff.mpr ⟨hgranted, rfl⟩) hother (by intro h; cases h)
      (by intro h; cases h) (by intro h; cases h)
    rw [Trace.event, call_of_next (next_release hgranted ssrc)] at hlost
    cases hlost

/-- In every run from a new controller whose requests, grants and takeovers name a participant, the
documentation is upheld at every call exactly if no request is accepted and nobody releases the floor
of another. -/
theorem floor_ownership_iff (maxTransmitMs : UInt64) (inputs : List (FloorEvent × UInt32))
    (hnamed : ∀ input ∈ inputs, Named input) :
    (∀ c ∈ Trace.history call (new maxTransmitMs) inputs, Upheld c) ↔
      ∀ c ∈ Trace.history call (new maxTransmitMs) inputs, Orderly c := by
  constructor
  · intro hupheld c hc
    have heq := Trace.eq_event_of_mem_history hc
    have hinput := hnamed c.input (Trace.mem_of_mem_history hc)
    rw [heq]
    exact Upheld.orderly hinput (heq ▸ hupheld c hc)
  · have hrun : ∀ self : FloorController, self.Owned →
        (∀ c ∈ Trace.history call self inputs, Orderly c) →
        ∀ c ∈ Trace.history call self inputs, Upheld c := by
      induction inputs with
      | nil =>
        intro self _ _ c hc
        cases hc
      | cons input inputs ih =>
        intro self howned horderly c hc
        have hfirst := horderly _ List.mem_cons_self
        have hinput := hnamed input List.mem_cons_self
        rcases List.mem_cons.mp hc with rfl | hc
        · exact howned.upheld hinput hfirst
        · exact ih (fun later hlater => hnamed later (List.mem_cons_of_mem _ hlater)) _
            (howned.step hinput hfirst)
            (fun later hlater => horderly later (List.mem_cons_of_mem _ hlater)) c hc
    exact hrun _ (owned_new maxTransmitMs)

/-- A participant that has only asked is already the holder. -/
example : ((new floorTimeoutMs).transition .request 7).2.holder = 7 := rfl

/-- A stranger's release takes the floor. -/
theorem stranger_releases_floor : ¬∀ (maxTransmitMs : UInt64)
    (inputs : List (FloorEvent × UInt32)), (∀ input ∈ inputs, Named input) →
      ∀ c ∈ Trace.history call (new maxTransmitMs) inputs, Upheld c := by
  intro h
  have hnamed : ∀ input ∈ [(FloorEvent.grant, (7 : UInt32)), (.release, 9)], Named input := by
    intro input hinput
    simp only [List.mem_cons, List.not_mem_nil, or_false] at hinput
    rcases hinput with rfl | rfl
    · exact fun _ => by decide
    · rintro (h | h | h) <;> cases h
  have hrelease := h floorTimeoutMs _ hnamed _ (List.mem_cons_of_mem _ List.mem_cons_self)
  have hlost := hrelease.kept 7 rfl (by decide) (by decide) (by decide) (by decide)
  cases hlost

/-- The holder releases the floor itself, and another is granted it. -/
theorem floor_ownership_iff_released :
    let run := Trace.history call (new floorTimeoutMs) [(.grant, 7), (.release, 7), (.grant, 9)]
    (run.map fun c => c.after.holder) = [7, 0, 9] ∧ ∀ c ∈ run, Upheld c := by
  refine ⟨rfl, (floor_ownership_iff floorTimeoutMs _ ?_).mpr ?_⟩
  · intro input hinput
    simp only [List.mem_cons, List.not_mem_nil, or_false] at hinput
    rcases hinput with rfl | rfl | rfl
    · exact fun _ => by decide
    · rintro (h | h | h) <;> cases h
    · exact fun _ => by decide
  · intro c hc
    simp only [Trace.history, List.mem_cons, List.not_mem_nil, or_false] at hc
    rcases hc with rfl | rfl | rfl
    · exact ⟨fun h => (by cases h), fun h => (by cases h)⟩
    · exact ⟨fun h => (by cases h), fun _ _ => rfl⟩
    · exact ⟨fun h => (by cases h), fun h => (by cases h)⟩

end GravitalTalk.Core.FloorController
