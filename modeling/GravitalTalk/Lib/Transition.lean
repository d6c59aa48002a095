import Mathlib.Data.List.Induction
import Mathlib.Logic.Relation

/-! Labelled transition systems.  A run takes steps whose labels are allowed in the state they
start from; an invariant is proved one step at a time. -/
namespace GravitalTalk.Lib.Transition

variable {σ ι : Type*} {step : σ → ι → σ → Prop} {allowed : σ → ι → Prop}

def Reaches (step : σ → ι → σ → Prop) (allowed : σ → ι → Prop) : σ → σ → Prop :=
  Relation.ReflTransGen fun s t => ∃ label, step s label t ∧ allowed s label

theorem Reaches.refl (s : σ) : Reaches step allowed s s := Relation.ReflTransGen.refl

theorem Reaches.tail {s t u : σ} {label : ι} (h : Reaches step allowed s t)
    (hstep : step t label u) (hallowed : allowed t label) : Reaches step allowed s u :=
  Relation.ReflTransGen.tail h ⟨label, hstep, hallowed⟩

theorem Reaches.trans {s t u : σ} (h : Reaches step allowed s t) (h' : Reaches step allowed t u) :
    Reaches step allowed s u := Relation.ReflTransGen.trans h h'

theorem Reaches.mono {wider : σ → ι → Prop} {s t : σ} (h : Reaches step allowed s t)
    (himp : ∀ u label, allowed u label → wider u label) : Reaches step wider s t :=
  Relation.ReflTransGen.mono
    (by rintro u v ⟨label, hstep, hallowed⟩; exact ⟨label, hstep, himp u label hallowed⟩) _ _ h

theorem Reaches.invariant {inv : σ → Prop} {s t : σ} (h : Reaches step allowed s t) (hs : inv s)
    (hkeep : ∀ u label v, inv u → step u label v → allowed u label → inv v) : inv t := by
  induction h with
  | refl => exact hs
  | tail _ hlast ih =>
    obtain ⟨label, hstep, hallowed⟩ := hlast
    exact hkeep _ label _ ih hstep hallowed

structure Logged (σ ε : Type*) where
  state : σ
  log : List ε

/-- A step of the system; `events` says what it adds to the log. -/
inductive LogStep {ε : Type*} (step : σ → ι → σ → Prop) (events : σ → ι → σ → List ε) :
    Logged σ ε → ι → Logged σ ε → Prop where
  | log {run : Logged σ ε} {label : ι} {state : σ} (hstep : step run.state label state) :
      LogStep step events run label ⟨state, run.log ++ events run.state label state⟩

section Logs
variable {ε : Type*} {events : σ → ι → σ → List ε} {s t : σ} {label : ι} {log more : List ε}

theorem LogStep.logs (hstep : step s label t) (hevents : events s label t = more) :
    LogStep step events ⟨s, log⟩ label ⟨t, log ++ more⟩ := by
  subst hevents
  exact .log hstep

theorem LogStep.silent (hstep : step s label t) (hevents : events s label t = []) :
    LogStep step events ⟨s, log⟩ label ⟨t, log⟩ := by
  have hlogs : LogStep step events ⟨s, log⟩ label ⟨t, log ++ []⟩ := .logs hstep hevents
  rwa [List.append_nil] at hlogs

end Logs

section Successive
variable {ε : Type*} {events : σ → ι → σ → List ε} {kind : ε → Prop}
  {since : σ → ε → List ε → Prop} {related : ε → List ε → ε → Prop}

/-- What holds of the last event of a kind and of the log after it. -/
def Latest (kind : ε → Prop) (since : ε → List ε → Prop) (log : List ε) : Prop :=
  ∀ earlier first between, log = earlier ++ first :: between → kind first →
    (∀ e ∈ between, ¬kind e) → since first between

/-- What holds of two events of a kind that have none between them, and of the log there. -/
def Successive (kind : ε → Prop) (related : ε → List ε → ε → Prop) (log : List ε) : Prop :=
  ∀ earlier first between second later, log = earlier ++ first :: (between ++ second :: later) →
    kind first → kind second → (∀ e ∈ between, ¬kind e) → related first between second

theorem Latest.quiet {holds holds' : ε → List ε → Prop} {log more : List ε}
    (h : Latest kind holds log) (hmore : ∀ e ∈ more, ¬kind e)
    (hkeep : ∀ first between, holds first between → holds' first (between ++ more)) :
    Latest kind holds' (log ++ more) := by
  intro earlier first between hlog hfirst hbetween
  obtain ⟨rest, -, hrest⟩ | ⟨rest, hpast, hrest⟩ := List.append_eq_append_iff.mp hlog
  · exact absurd hfirst (hmore first (by simp [hrest]))
  · cases rest with
    | nil =>
      rw [List.nil_append] at hrest
      exact absurd hfirst (hmore first (by simp [← hrest]))
    | cons e rest =>
      injection hrest with hhead htail
      subst hhead
      subst htail
      have hrest : ∀ e ∈ rest, ¬kind e := fun e he => hbetween e (List.mem_append_left _ he)
      exact hkeep first rest (h earlier first rest hpast hfirst hrest)

theorem Latest.concat {holds : ε → List ε → Prop} {log : List ε} {e : ε} (he : kind e)
    (hholds : holds e []) : Latest kind holds (log ++ [e]) := by
  intro earlier first between hlog hfirst hbetween
  induction between using List.reverseRecOn with
  | nil =>
    obtain ⟨-, hsingle⟩ := List.append_inj' hlog rfl
    injection hsingle with hsame
    exact hsame ▸ hholds
  | append_singleton between last _ =>
    have hsplit : log ++ [e] = (earlier ++ first :: between) ++ [last] := by simpa using hlog
    obtain ⟨-, hsingle⟩ := List.append_inj' hsplit rfl
    injection hsingle with hsame
    exact absurd (hsame ▸ he) (hbetween last (by simp))

theorem Successive.concat {log : List ε} {e : ε} (h : Successive kind related log)
    (hlast : kind e → Latest kind (fun first between => related first between e) log) :
    Successive kind related (log ++ [e]) := by
  intro earlier first between second later hlog hfirst hsecond hbetween
  induction later using List.reverseRecOn with
  | nil =>
    have hsplit : log ++ [e] = (earlier ++ first :: between) ++ [second] := by simpa using hlog
    obtain ⟨hfront, hsingle⟩ := List.append_inj' hsplit rfl
    injection hsingle with hsame
    subst hsame
    exact hlast hsecond earlier first between hfront hfirst hbetween
  | append_singleton later last _ =>
    have hsplit : log ++ [e] = (earlier ++ first :: (between ++ second :: later)) ++ [last] := by
      simpa using hlog
    obtain ⟨hfront, -⟩ := List.append_inj' hsplit rfl
    exact h earlier first between second later hfront hfirst hsecond hbetween

theorem Successive.quiet {log more : List ε} (h : Successive kind related log)
    (hmore : ∀ e ∈ more, ¬kind e) : Successive kind related (log ++ more) := by
  induction more generalizing log with
  | nil => rwa [List.append_nil]
  | cons e more ih =>
    rw [List.append_cons]
    exact ih (h.concat fun he => absurd he (hmore e (by simp)))
      fun e' he' => hmore e' (List.mem_cons_of_mem e he')

/-- A step either logs nothing of the kind and keeps what holds since the last such event, or logs
one of the kind alone. -/
theorem LogStep.successive {run run' : Logged σ ε} {label : ι}
    (hstep : LogStep step events run label run')
    (h : Successive kind related run.log ∧ Latest kind (since run.state) run.log)
    (hcases : (∀ e ∈ events run.state label run'.state, ¬kind e) ∧
        (∀ first between, since run.state first between →
          since run'.state first (between ++ events run.state label run'.state)) ∨
      ∃ e, events run.state label run'.state = [e] ∧ kind e ∧ since run'.state e [] ∧
        ∀ first between, since run.state first between → related first between e) :
    Successive kind related run'.log ∧ Latest kind (since run'.state) run'.log := by
  obtain ⟨hsuccessive, hlatest⟩ := h
  cases hstep with
  | log hstep =>
    obtain ⟨hquiet, hkeep⟩ | ⟨e, hevents, he, hsince, hrelated⟩ := hcases
    · exact ⟨hsuccessive.quiet hquiet, hlatest.quiet hquiet hkeep⟩
    · dsimp only at hevents hsince ⊢
      rw [hevents]
      refine ⟨hsuccessive.concat fun _ => ?_, .concat he hsince⟩
      intro earlier first between hlog hfirst hbetween
      exact hrelated first between (hlatest earlier first between hlog hfirst hbetween)

end Successive

end GravitalTalk.Lib.Transition
