import Mathlib.Data.List.Infix

/-! A reader in front of a producer that answers each input with one output or more: the first is
handed on at once and the others wait in a queue.  However the reads fall, they return the producer's
outputs in order. -/
namespace GravitalTalk.Lib.Batching

section Reads
variable {σ α β : Type*}

/-- The outputs that wait, the producer's state and the inputs to come. -/
structure Reader (σ α β : Type*) where
  queue : List β
  state : σ
  inputs : List α

variable (produces : σ → α → (β × List β) × σ)

/-- `none` if there is nothing to read and nothing to make it from. -/
def Reader.read (reader : Reader σ α β) : Option (β × Reader σ α β) :=
  match reader.queue, reader.inputs with
  | b :: queue, _ => some (b, { reader with queue := queue })
  | [], [] => none
  | [], a :: inputs =>
    let ((b, queue), state) := produces reader.state a
    some (b, ⟨queue, state, inputs⟩)

def Reader.reads : Nat → Reader σ α β → List β
  | 0, _ => []
  | n + 1, reader =>
    match reader.read produces with
    | none => []
    | some (b, reader) => b :: reader.reads n

def stream : σ → List α → List β
  | _, [] => []
  | s, a :: inputs =>
    (produces s a).1.1 :: (produces s a).1.2 ++ stream (produces s a).2 inputs

theorem reads_eq (n : Nat) (reader : Reader σ α β) :
    reader.reads produces n = (reader.queue ++ stream produces reader.state reader.inputs).take n := by
  induction n generalizing reader with
  | zero => simp [Reader.reads]
  | succ n ih =>
    obtain ⟨queue, state, inputs⟩ := reader
    cases queue with
    | cons b queue => simp [Reader.reads, Reader.read, ih]
    | nil =>
      cases inputs with
      | nil => simp [Reader.reads, Reader.read, stream]
      | cons a inputs => simp [Reader.reads, Reader.read, stream, ih]

/-- Every number of reads returns a beginning of `expected` exactly if the whole stream is one. -/
theorem reads_prefix_iff (reader : Reader σ α β) (expected : List β) :
    (∀ n, reader.reads produces n <+: expected) ↔
      reader.queue ++ stream produces reader.state reader.inputs <+: expected := by
  constructor
  · intro h
    have hall := h (reader.queue ++ stream produces reader.state reader.inputs).length
    rwa [reads_eq, List.take_length] at hall
  · intro h n
    rw [reads_eq]
    exact (List.take_prefix n _).trans h

end Reads

section Padding
variable {α : Type*} {a : α}

/-- The second list is the first with any number of `a`s put in front of each item. -/
inductive Padded (a : α) : List α → List α → Prop where
  | nil : Padded a [] []
  | cons (n : Nat) (b : α) {items padded : List α} (h : Padded a items padded) :
      Padded a (b :: items) (List.replicate n a ++ b :: padded)

theorem Padded.replicate {items padded : List α} (h : Padded a items padded) (b : α) {k n : Nat}
    (hle : k ≤ n) :
    Padded a (List.replicate k a ++ b :: items) (List.replicate n a ++ b :: padded) := by
  induction k generalizing n with
  | zero => exact .cons n b h
  | succ k ih =>
    obtain ⟨n, rfl⟩ := Nat.exists_eq_add_of_lt hle
    rw [List.replicate_succ, show k + n + 1 = (k + n) + 1 from rfl, List.replicate_succ]
    exact .cons 0 a (ih (Nat.le_add_right k n))

theorem Padded.length_le {items padded : List α} (h : Padded a items padded) :
    items.length ≤ padded.length := by
  induction h with
  | nil => exact Nat.le_refl _
  | cons n b _ ih =>
    simp only [List.length_cons, List.length_append, List.length_replicate]
    omega

theorem Padded.forall_eq {items padded : List α} (h : Padded a items padded) {n : Nat} (hn : 0 < n)
    (hbegins : items <+: List.replicate n a ++ padded) : ∀ b ∈ items, b = a := by
  induction h generalizing n with
  | nil => nofun
  | @cons k b items padded h ih =>
    obtain ⟨n, rfl⟩ := Nat.exists_eq_succ_of_ne_zero hn.ne'
    rw [List.replicate_succ, List.cons_append, List.cons_prefix_cons] at hbegins
    obtain ⟨rfl, hbegins⟩ := hbegins
    -- the item found its own `a`, so all before the rest of the padding are `a`s
    have hshift : List.replicate n b ++ (List.replicate k b ++ b :: padded) =
        List.replicate (n + k + 1) b ++ padded := by
      rw [← List.append_assoc, ← List.replicate_add, List.replicate_succ', List.append_assoc,
        List.singleton_append]
    rw [hshift] at hbegins
    exact List.forall_mem_cons.mpr ⟨rfl, ih (Nat.succ_pos _) hbegins⟩

theorem Padded.mem {items padded : List α} (h : Padded a items padded) {b : α} (hb : b ∈ padded) :
    b = a ∨ b ∈ items := by
  induction h with
  | nil => exact .inr hb
  | cons n c _ ih =>
    obtain hb | hb := List.mem_append.mp hb
    · exact .inl (List.eq_of_mem_replicate hb)
    · obtain rfl | hb := List.mem_cons.mp hb
      · exact .inr (List.mem_cons_self ..)
      · obtain hb | hb := ih hb
        · exact .inl hb
        · exact .inr (List.mem_cons_of_mem _ hb)

theorem Padded.prefix_iff {items padded : List α} (h : Padded a items padded) {n : Nat}
    (hn : 0 < n) : items <+: List.replicate n a ++ padded ↔ ∀ b ∈ items, b = a := by
  refine ⟨h.forall_eq hn, fun hall => ?_⟩
  have hpadded : padded = List.replicate padded.length a :=
    List.eq_replicate_iff.mpr ⟨rfl, fun b hb => (h.mem hb).elim id (hall b)⟩
  rw [List.eq_replicate_iff.mpr ⟨rfl, hall⟩, hpadded, ← List.replicate_add,
    List.prefix_replicate_iff]
  have hle := h.length_le
  simp only [List.length_replicate, and_true]
  omega

end Padding

end GravitalTalk.Lib.Batching
