import GravitalTalk.Lib.Trace
import Mathlib.Data.List.Nodup

/-! Concurrent calls against a sequential specification.  `exec` is the specification, `view` the
part of its state that counts, and `answer i` what call `i` has returned so far. -/
namespace GravitalTalk.Lib.Linearization
open Trace

variable {σ τ ι κ ο : Type*} {exec : σ → κ → σ × ο} {view : σ → τ} {op : ι → κ} {start : σ}

/-- The answered calls, made one after the other in this order, give the same answers and leave
the same view. -/
structure InOrder (exec : σ → κ → σ × ο) (view : σ → τ) (op : ι → κ) (start : σ)
    (answer : ι → Option ο) (memory : σ) (order : List ι) : Prop where
  nodup : order.Nodup
  answered : ∀ i, i ∈ order ↔ (answer i).isSome
  answers : (history exec start (order.map op)).map (fun call => some call.answer) =
    order.map answer
  memory : view memory = view (final exec start (order.map op))

def Linearizable (exec : σ → κ → σ × ο) (view : σ → τ) (op : ι → κ) (start : σ)
    (answer : ι → Option ο) (memory : σ) : Prop :=
  ∃ order, InOrder exec view op start answer memory order

/-- The calls read and write only what `view` shows. -/
def Respects (exec : σ → κ → σ × ο) (view : σ → τ) (op : ι → κ) : Prop :=
  ∀ a b i, view a = view b →
    view (exec a (op i)).1 = view (exec b (op i)).1 ∧ (exec a (op i)).2 = (exec b (op i)).2

theorem Linearizable.init (exec : σ → κ → σ × ο) (view : σ → τ) (op : ι → κ) (start : σ) :
    Linearizable exec view op start (fun _ => none) start :=
  ⟨[], ⟨List.nodup_nil, by simp, rfl, rfl⟩⟩

theorem Linearizable.silent {answer : ι → Option ο} {memory memory' : σ}
    (h : Linearizable exec view op start answer memory) (hview : view memory' = view memory) :
    Linearizable exec view op start answer memory' := by
  obtain ⟨order, horder⟩ := h
  exact ⟨order, { horder with memory := hview.trans horder.memory }⟩

theorem Linearizable.effect [DecidableEq ι] {answer : ι → Option ο} {memory memory' : σ} {i : ι}
    (hrespects : Respects exec view op) (h : Linearizable exec view op start answer memory)
    (hpending : answer i = none) (hview : view memory' = view (exec memory (op i)).1) :
    Linearizable exec view op start
      (Function.update answer i (some (exec memory (op i)).2)) memory' := by
  obtain ⟨order, horder⟩ := h
  obtain ⟨hafter, hanswer⟩ := hrespects _ _ i horder.memory
  have hnew : i ∉ order := by
    rw [horder.answered, hpending]
    exact Bool.false_ne_true
  have hkept : order.map (Function.update answer i (some (exec memory (op i)).2)) =
      order.map answer := by
    apply List.map_congr_left
    intro j hj
    have hne : j ≠ i := by
      rintro rfl
      exact hnew hj
    exact Function.update_of_ne hne _ _
  refine ⟨order ++ [i], ⟨?_, fun j => ?_, ?_, ?_⟩⟩
  · rw [← List.concat_eq_append]
    exact List.Nodup.concat hnew horder.nodup
  · rw [List.mem_append, List.mem_singleton, horder.answered]
    by_cases hj : j = i
    · simp [hj]
    · simp [hj]
  · rw [List.map_append, history_append, List.map_append, List.map_append, horder.answers, hkept]
    simp [history, event, hanswer]
  · rw [List.map_append, final_append, hview, hafter]
    rfl

end GravitalTalk.Lib.Linearization
