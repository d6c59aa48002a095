import Mathlib.Data.List.Basic

/-! A machine that says how many items it needs next, and takes them off a queue for as long as there are
so many.  What it makes of a stream does not depend on the slices the stream arrives in. -/
namespace GravitalTalk.Lib.Greedy

variable {σ α β : Type*}

/-- `turn` is one turn with the items asked for: what it puts out and the next state, `none` if it
fails. -/
structure Machine (σ α β : Type*) where
  need : σ → Nat
  turn : σ → List α → Option (List β × σ)

variable (machine : Machine σ α β)

/-- From a state and a queue: what is put out, and the state and the queue at the end. -/
inductive Drains : σ → List α → List β → σ → List α → Prop where
  | stop {s : σ} {queue : List α} (hshort : queue.length < machine.need s) :
      Drains s queue [] s queue
  | turn {s next last : σ} {queue left : List α} {block out : List β}
      (hfull : machine.need s ≤ queue.length)
      (hturn : machine.turn s (queue.take (machine.need s)) = some (block, next))
      (hrest : Drains next (queue.drop (machine.need s)) out last left) :
      Drains s queue (block ++ out) last left

/-- Slices that arrive one after the other, each put behind what the last has left. -/
inductive Feeds : σ → List α → List (List α) → List β → σ → List α → Prop where
  | nil {s : σ} {queue : List α} : Feeds s queue [] [] s queue
  | cons {s next last : σ} {queue between left slice : List α} {slices : List (List α)}
      {out more : List β} (hdrains : Drains machine s (queue ++ slice) out next between)
      (hrest : Feeds next between slices more last left) :
      Feeds s queue (slice :: slices) (out ++ more) last left

variable {machine} {s last last' : σ} {queue left left' : List α} {out out' : List β}

theorem Drains.short (h : Drains machine s queue out last left) :
    left.length < machine.need last := by
  induction h with
  | stop hshort => exact hshort
  | turn _ _ _ ih => exact ih

theorem Drains.deterministic (h : Drains machine s queue out last left)
    (h' : Drains machine s queue out' last' left') : out = out' ∧ last = last' ∧ left = left' := by
  induction h generalizing out' with
  | stop hshort =>
    cases h' with
    | stop => exact ⟨rfl, rfl, rfl⟩
    | turn hfull => omega
  | turn hfull hturn _ ih =>
    cases h' with
    | stop hshort => omega
    | turn _ hturn' hrest =>
      obtain ⟨rfl, rfl⟩ := Prod.mk.inj (Option.some.inj (hturn.symm.trans hturn'))
      obtain ⟨rfl, hlast, hleft⟩ := ih hrest
      exact ⟨rfl, hlast, hleft⟩

theorem Drains.append (h : Drains machine s queue out last left) {more : List α}
    (hmore : Drains machine last (left ++ more) out' last' left') :
    Drains machine s (queue ++ more) (out ++ out') last' left' := by
  induction h with
  | stop => exact hmore
  | @turn s next _ queue _ block out hfull hturn _ ih =>
    have hturn' : machine.turn s ((queue ++ more).take (machine.need s)) = some (block, next) := by
      rwa [List.take_append_of_le_length hfull]
    rw [List.append_assoc]
    refine .turn (by rw [List.length_append]; omega) hturn' ?_
    rw [List.drop_append_of_le_length hfull]
    exact ih hmore

theorem Drains.split {more : List α} (h : Drains machine s (queue ++ more) out last left) :
    ∃ first next between, Drains machine s queue first next between ∧
      ∃ second, Drains machine next (between ++ more) second last left ∧ out = first ++ second := by
  generalize hall : queue ++ more = all at h
  induction h generalizing queue with
  | @stop s _ hshort =>
    subst hall
    rw [List.length_append] at hshort
    exact ⟨[], s, queue, .stop (by omega), [], .stop (by rwa [List.length_append]), rfl⟩
  | @turn s next last _ left block out hfull hturn hrest ih =>
    subst hall
    by_cases hqueue : machine.need s ≤ queue.length
    · rw [List.take_append_of_le_length hqueue] at hturn
      rw [List.drop_append_of_le_length hqueue] at ih
      obtain ⟨first, stopped, between, hfirst, second, hsecond, rfl⟩ := ih rfl
      exact ⟨block ++ first, stopped, between, .turn hqueue hturn hfirst, second, hsecond,
        (List.append_assoc _ _ _).symm⟩
    · exact ⟨[], s, queue, .stop (by omega), block ++ out, .turn hfull hturn hrest, rfl⟩

theorem drains_append_iff {more : List α} :
    Drains machine s (queue ++ more) out last left ↔
      ∃ first next between, Drains machine s queue first next between ∧
        ∃ second, Drains machine next (between ++ more) second last left ∧
          out = first ++ second := by
  constructor
  · exact Drains.split
  · rintro ⟨first, next, between, hfirst, second, hsecond, rfl⟩
    exact hfirst.append hsecond

/-- A machine that has stopped makes the same of slices as of the stream they are cut from. -/
theorem feeds_iff_of_short (hshort : queue.length < machine.need s) (slices : List (List α)) :
    Feeds machine s queue slices out last left ↔
      Drains machine s (queue ++ slices.flatten) out last left := by
  induction slices generalizing s queue out with
  | nil =>
    rw [List.flatten_nil, List.append_nil]
    constructor
    · rintro ⟨⟩
      exact .stop hshort
    · intro h
      obtain ⟨rfl, rfl, rfl⟩ := h.deterministic (.stop hshort)
      exact .nil
  | cons slice slices ih =>
    rw [List.flatten_cons, ← List.append_assoc, drains_append_iff]
    constructor
    · rintro ⟨⟩
      rename_i next between first more hdrains hrest
      exact ⟨first, next, between, hdrains, more, (ih hdrains.short).mp hrest, rfl⟩
    · rintro ⟨first, next, between, hfirst, second, hsecond, rfl⟩
      exact .cons hfirst ((ih hfirst.short).mpr hsecond)

theorem feeds_iff_drains {slices : List (List α)} (hne : slices ≠ []) :
    Feeds machine s queue slices out last left ↔
      Drains machine s (queue ++ slices.flatten) out last left := by
  obtain ⟨slice, slices, rfl⟩ := List.exists_cons_of_ne_nil hne
  rw [List.flatten_cons, ← List.append_assoc, drains_append_iff]
  constructor
  · rintro ⟨⟩
    rename_i next between first more hdrains hrest
    exact ⟨first, next, between, hdrains, more, (feeds_iff_of_short hdrains.short _).mp hrest, rfl⟩
  · rintro ⟨first, next, between, hfirst, second, hsecond, rfl⟩
    exact .cons hfirst ((feeds_iff_of_short hfirst.short _).mpr hsecond)

end GravitalTalk.Lib.Greedy
