import Mathlib.Data.List.Induction

/-! Runs of a machine that answers one input at a time, with the history they leave. -/
namespace GravitalTalk.Lib.Trace

variable {σ ι ο : Type*}

/-- One call: the state it found, what was asked and answered, and the state it left. -/
structure Event (σ ι ο : Type*) where
  before : σ
  input : ι
  answer : ο
  after : σ

def event (exec : σ → ι → σ × ο) (s : σ) (input : ι) : Event σ ι ο :=
  ⟨s, input, (exec s input).2, (exec s input).1⟩

def final (exec : σ → ι → σ × ο) : σ → List ι → σ
  | s, [] => s
  | s, input :: rest => final exec (exec s input).1 rest

def history (exec : σ → ι → σ × ο) : σ → List ι → List (Event σ ι ο)
  | _, [] => []
  | s, input :: rest => event exec s input :: history exec (exec s input).1 rest

variable {exec : σ → ι → σ × ο}

@[simp] theorem final_append (s : σ) (inputs more : List ι) :
    final exec s (inputs ++ more) = final exec (final exec s inputs) more := by
  induction inputs generalizing s with
  | nil => rfl
  | cons input rest ih => exact ih (exec s input).1

@[simp] theorem history_append (s : σ) (inputs more : List ι) :
    history exec s (inputs ++ more) =
      history exec s inputs ++ history exec (final exec s inputs) more := by
  induction inputs generalizing s with
  | nil => rfl
  | cons input rest ih =>
    simp only [List.cons_append, history, final, ih]

theorem map_input_history (s : σ) (inputs : List ι) :
    (history exec s inputs).map Event.input = inputs := by
  induction inputs generalizing s with
  | nil => rfl
  | cons input rest ih =>
    rw [history, List.map_cons, ih]
    rfl

theorem filterMap_history_map {τ : Type*} {f : ι → ι} {g : Event σ ι ο → Option τ}
    (hafter : ∀ s input, (exec s (f input)).1 = (exec s input).1)
    (hsame : ∀ s input, g (event exec s (f input)) = g (event exec s input)) (s : σ)
    (inputs : List ι) :
    (history exec s (inputs.map f)).filterMap g = (history exec s inputs).filterMap g := by
  induction inputs generalizing s with
  | nil => rfl
  | cons input rest ih =>
    rw [List.map_cons, history, history, List.filterMap_cons, List.filterMap_cons, hsame, hafter, ih]

theorem history_split {s : σ} {inputs : List ι} {past rest : List (Event σ ι ο)}
    {call : Event σ ι ο} (h : history exec s inputs = past ++ call :: rest) :
    ∃ before input after, inputs = before ++ input :: after ∧ past = history exec s before ∧
      call = event exec (final exec s before) input ∧ rest = history exec call.after after := by
  induction past generalizing s inputs with
  | nil =>
    cases inputs with
    | nil => cases h
    | cons input inputs =>
      injection h with hcall hrest
      exact ⟨[], input, inputs, rfl, rfl, hcall.symm, hcall ▸ hrest.symm⟩
  | cons first past ih =>
    cases inputs with
    | nil => cases h
    | cons input inputs =>
      injection h with hfirst hrest
      obtain ⟨before, at', after, hinputs, hpast, hcall, hafter⟩ := ih hrest
      refine ⟨input :: before, at', after, ?_, ?_, hcall, hafter⟩
      · rw [hinputs, List.cons_append]
      · rw [history, ← hfirst, hpast]

theorem mem_of_mem_history {s : σ} {inputs : List ι} {call : Event σ ι ο}
    (h : call ∈ history exec s inputs) : call.input ∈ inputs := by
  obtain ⟨past, rest, hsplit⟩ := List.append_of_mem h
  obtain ⟨before, input, after, hinputs, -, hcall, -⟩ := history_split hsplit
  rw [hinputs, hcall]
  simp [event]

theorem history_induction {inv : List (Event σ ι ο) → σ → Prop} {start : σ} (hstart : inv [] start)
    (hstep : ∀ past s input, inv past s → inv (past ++ [event exec s input]) (exec s input).1)
    (inputs : List ι) : inv (history exec start inputs) (final exec start inputs) := by
  induction inputs using List.reverseRecOn with
  | nil => exact hstart
  | append_singleton inputs input ih =>
    rw [history_append, final_append]
    exact hstep _ _ input ih

/-- What holds at the start and is kept by every call holds after every run. -/
theorem final_induction {inv : σ → Prop} {start : σ} (hstart : inv start)
    (hstep : ∀ s input, inv s → inv (exec s input).1) (inputs : List ι) :
    inv (final exec start inputs) := by
  induction inputs generalizing start with
  | nil => exact hstart
  | cons input rest ih => exact ih (hstep start input hstart)

theorem history_forall {inv : σ → Prop} {start : σ} (hstart : inv start)
    (hstep : ∀ s input, inv s → inv (exec s input).1) {inputs : List ι} {call : Event σ ι ο}
    (h : call ∈ history exec start inputs) : inv call.before := by
  obtain ⟨past, rest, hsplit⟩ := List.append_of_mem h
  obtain ⟨before, input, after, -, -, hcall, -⟩ := history_split hsplit
  rw [hcall]
  exact final_induction hstart hstep before

theorem eq_event_of_mem_history {s : σ} {inputs : List ι} {call : Event σ ι ο}
    (h : call ∈ history exec s inputs) : call = event exec call.before call.input := by
  obtain ⟨past, rest, hsplit⟩ := List.append_of_mem h
  obtain ⟨before, input, after, -, -, hcall, -⟩ := history_split hsplit
  rw [hcall]
  rfl

theorem after_of_mem_history {s : σ} {inputs : List ι} {call : Event σ ι ο}
    (h : call ∈ history exec s inputs) : call.after = (exec call.before call.input).1 :=
  congrArg Event.after (eq_event_of_mem_history h)

section Stored
variable {α β : Type*} {stored : σ → ι → Option α}

def lastOf (stored : σ → ι → Option α) (calls : List (Event σ ι ο)) : Option α :=
  (calls.filterMap fun call => stored call.before call.input).getLast?

theorem lastOf_concat (past : List (Event σ ι ο)) (call : Event σ ι ο) :
    lastOf stored (past ++ [call]) = (stored call.before call.input).or (lastOf stored past) := by
  unfold lastOf
  rw [List.filterMap_append]
  cases h : stored call.before call.input with
  | none => simp [h]
  | some a => simp [h]

theorem lastOf_congr {stored' : σ → ι → Option α} {calls : List (Event σ ι ο)}
    (h : ∀ call ∈ calls, stored call.before call.input = stored' call.before call.input) :
    lastOf stored calls = lastOf stored' calls := by
  induction calls using List.reverseRecOn with
  | nil => rfl
  | append_singleton calls call ih =>
    rw [lastOf_concat, lastOf_concat, h call (by simp),
      ih fun earlier hmem => h earlier (List.mem_append_left _ hmem)]

theorem lastOf_map (f : α → β) (calls : List (Event σ ι ο)) :
    lastOf (fun s input => (stored s input).map f) calls = (lastOf stored calls).map f := by
  induction calls using List.reverseRecOn with
  | nil => rfl
  | append_singleton calls call ih =>
    rw [lastOf_concat, lastOf_concat, ih]
    cases stored call.before call.input <;> rfl

theorem lastOf_none {calls : List (Event σ ι ο)}
    (h : ∀ call ∈ calls, stored call.before call.input = none) : lastOf stored calls = none := by
  unfold lastOf
  rw [List.filterMap_eq_nil_iff.mpr h]
  rfl

theorem lastOf_bind {f : α → Option β} (h : (∀ a, f a = none) ∨ ∀ a, f a ≠ none)
    (calls : List (Event σ ι ο)) :
    lastOf (fun s input => (stored s input).bind f) calls = (lastOf stored calls).bind f := by
  induction calls using List.reverseRecOn with
  | nil => rfl
  | append_singleton calls call ih =>
    rw [lastOf_concat, lastOf_concat, ih]
    cases stored call.before call.input with
    | none => rfl
    | some a =>
      obtain hnone | hsome := h
      · cases lastOf stored calls <;> simp [hnone]
      · obtain ⟨b, hb⟩ := Option.ne_none_iff_exists'.mp (hsome a)
        simp [hb]

/-- What a run stored last it still carries, or has cut off last. -/
theorem lastOf_carried {cut : σ → ι → Option α} {past : List (Event σ ι ο)} {call : Event σ ι ο}
    {before after : Option α} (h : lastOf stored past = before.or (lastOf cut past))
    (hstep : (stored call.before call.input).or before =
      after.or (cut call.before call.input)) :
    lastOf stored (past ++ [call]) = after.or (lastOf cut (past ++ [call])) := by
  rw [lastOf_concat, lastOf_concat, h, ← Option.or_assoc, hstep, Option.or_assoc]

/-- A field that each call sets to what it stores, if anything, holds what was stored last. -/
theorem final_field {field : σ → α} {start : σ} {inputs : List ι}
    (h : ∀ call ∈ history exec start inputs,
      field call.after = (stored call.before call.input).getD (field call.before)) :
    field (final exec start inputs) =
      (lastOf stored (history exec start inputs)).getD (field start) := by
  induction inputs using List.reverseRecOn with
  | nil => rfl
  | append_singleton inputs input ih =>
    rw [history_append] at h ⊢
    have hlast := h (event exec (final exec start inputs) input) (by simp [history])
    have hpast := ih fun call hmem => h call (List.mem_append_left _ hmem)
    rw [final_append, history, history, lastOf_concat]
    simp only [final, event] at hlast ⊢
    rw [hlast, hpast]
    cases stored (final exec start inputs) input <;> rfl

end Stored

/-- Something happened that nothing later has undone. -/
def Since {ε : Type*} (happens undoes : ε → Prop) (past : List ε) : Prop :=
  ∃ before e after, past = before ++ e :: after ∧ happens e ∧ ∀ e' ∈ after, ¬undoes e'

theorem not_since_nil {ε : Type*} {happens undoes : ε → Prop} : ¬Since happens undoes [] := by
  rintro ⟨before, e, after, hpast, -⟩
  simp at hpast

theorem since_concat {ε : Type*} {happens undoes : ε → Prop} {past : List ε} {e : ε} :
    Since happens undoes (past ++ [e]) ↔ happens e ∨ Since happens undoes past ∧ ¬undoes e := by
  constructor
  · rintro ⟨before, e', after, hpast, hhappens, hlater⟩
    induction after using List.reverseRecOn with
    | nil =>
      obtain ⟨-, he⟩ := List.append_inj' hpast rfl
      injection he with he
      exact .inl (he ▸ hhappens)
    | append_singleton after last _ =>
      have hsplit : past ++ [e] = (before ++ e' :: after) ++ [last] := by simpa using hpast
      obtain ⟨hfront, he⟩ := List.append_inj' hsplit rfl
      injection he with he
      subst he
      refine .inr ⟨⟨before, e', after, hfront, hhappens, fun later hmem => ?_⟩, ?_⟩
      · exact hlater later (List.mem_append_left _ hmem)
      · exact hlater e (by simp)
  · rintro (hhappens | ⟨⟨before, e', after, hpast, hhappens, hlater⟩, hkept⟩)
    · exact ⟨past, e, [], rfl, hhappens, by simp⟩
    · refine ⟨before, e', after ++ [e], by simp [hpast], hhappens, fun later hmem => ?_⟩
      obtain hmem | hmem := List.mem_append.mp hmem
      · exact hlater later hmem
      · exact List.mem_singleton.mp hmem ▸ hkept

end GravitalTalk.Lib.Trace
