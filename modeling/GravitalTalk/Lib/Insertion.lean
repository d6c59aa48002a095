import GravitalTalk.Lib.Trace

/-! Runs over two lists of events of which the second has more of them. -/
namespace GravitalTalk.Lib.Insertion
open Trace

variable {α β σ τ : Type*}

/-- The second list is the first with `extra` elements put in; elements that correspond are
`same`. -/
inductive Inserted (same : α → β → Prop) (extra : β → Prop) : List α → List β → Prop where
  | nil : Inserted same extra [] []
  | keep {a b as bs} (hsame : same a b) (hrest : Inserted same extra as bs) :
      Inserted same extra (a :: as) (b :: bs)
  | insert {b as bs} (hextra : extra b) (hrest : Inserted same extra as bs) :
      Inserted same extra as (b :: bs)

theorem Inserted.refl {same : α → α → Prop} (extra : α → Prop) (h : ∀ a, same a a) :
    (as : List α) → Inserted same extra as as
  | [] => .nil
  | a :: as => .keep (h a) (.refl extra h as)

/-- Two folds stay related when corresponding elements keep them so and the second one absorbs
what was put in. -/
theorem Inserted.foldl {same : α → β → Prop} {extra : β → Prop} {related : σ → τ → Prop}
    {f : σ → α → σ} {g : τ → β → τ} {as : List α} {bs : List β} (h : Inserted same extra as bs)
    (hkeep : ∀ s t a b, related s t → same a b → related (f s a) (g t b))
    (habsorb : ∀ s t b, related s t → extra b → related s (g t b)) {s : σ} {t : τ}
    (hst : related s t) : related (as.foldl f s) (bs.foldl g t) := by
  induction h generalizing s t with
  | nil => exact hst
  | keep hsame _ ih => exact ih (hkeep s t _ _ hst hsame)
  | insert hextra _ ih => exact ih (habsorb s t _ hst hextra)

inductive Item (ι : Type*) where
  | given (input : ι)
  | extra (input : ι)

variable {ι ο : Type*}

def givens : List (Item ι) → List ι
  | [] => []
  | .given input :: rest => input :: givens rest
  | .extra _ :: rest => givens rest

/-- The answers to the calls of the run itself, when all of the calls are made. -/
def givenAnswers (exec : σ → ι → σ × ο) : σ → List (Item ι) → List ο
  | _, [] => []
  | s, .given input :: rest => (exec s input).2 :: givenAnswers exec (exec s input).1 rest
  | s, .extra input :: rest => givenAnswers exec (exec s input).1 rest

def ExtrasMeet (exec : σ → ι → σ × ο) (p : σ → ι → Prop) : σ → List (Item ι) → Prop
  | _, [] => True
  | s, .given input :: rest => ExtrasMeet exec p (exec s input).1 rest
  | s, .extra input :: rest => p s input ∧ ExtrasMeet exec p (exec s input).1 rest

theorem ExtrasMeet.and {exec : σ → ι → σ × ο} {p q : σ → ι → Prop} {s : σ} {items : List (Item ι)}
    (hp : ExtrasMeet exec p s items) (hq : ExtrasMeet exec q s items) :
    ExtrasMeet exec (fun s input => p s input ∧ q s input) s items := by
  induction items generalizing s with
  | nil => trivial
  | cons item rest ih =>
    cases item with
    | given input => exact ih hp hq
    | extra input => exact ⟨⟨hp.1, hq.1⟩, ih hp.2 hq.2⟩

theorem givenAnswers_given_append (exec : σ → ι → σ × ο) (s : σ) (inputs : List ι)
    (items : List (Item ι)) :
    givenAnswers exec s (inputs.map .given ++ items) =
      (history exec s inputs).map (·.answer) ++ givenAnswers exec (final exec s inputs) items := by
  induction inputs generalizing s with
  | nil => rfl
  | cons input rest ih =>
    simp only [List.map_cons, List.cons_append, givenAnswers, history, final, ih]
    rfl

/-- Calls that are absorbed by a relation under which answers agree cannot be seen in the answers
to the others. -/
theorem givenAnswers_eq {exec : σ → ι → σ × ο} {p : σ → ι → Prop} {related : σ → σ → Prop}
    (hkeep : ∀ s t input, related s t →
      (exec s input).2 = (exec t input).2 ∧ related (exec s input).1 (exec t input).1)
    (habsorb : ∀ s t input, related s t → p t input → related s (exec t input).1)
    {s t : σ} (hst : related s t) {items : List (Item ι)} (hextras : ExtrasMeet exec p t items) :
    givenAnswers exec t items = (history exec s (givens items)).map (·.answer) := by
  induction items generalizing s t with
  | nil => rfl
  | cons item rest ih =>
    cases item with
    | given input =>
      obtain ⟨hanswer, hafter⟩ := hkeep s t input hst
      simp only [givenAnswers, givens, history, List.map_cons, event, hanswer]
      rw [ih hafter hextras]
    | extra input => exact ih (habsorb s t input hst hextras.1) hextras.2

end GravitalTalk.Lib.Insertion
