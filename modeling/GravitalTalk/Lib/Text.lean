import Mathlib.Data.List.DropRight

/-! Text as lists of characters: white space, splitting at a separator and unsigned decimals, with the
conventions of Rust's standard library. -/
namespace GravitalTalk.Lib.Text

/-- The characters of Unicode's `White_Space`. -/
def isWhiteSpace (c : Char) : Bool :=
  let n := c.toNat
  (9 ≤ n && n ≤ 13) || n == 0x20 || n == 0x85 || n == 0xA0 || n == 0x1680 ||
    (0x2000 ≤ n && n ≤ 0x200A) || n == 0x2028 || n == 0x2029 || n == 0x202F || n == 0x205F ||
    n == 0x3000

def trimStart (s : List Char) : List Char := s.dropWhile isWhiteSpace

def trimEnd (s : List Char) : List Char := s.rdropWhile isWhiteSpace

def trim (s : List Char) : List Char := trimEnd (trimStart s)

/-- At most `n` parts; the last one keeps the separators in it. -/
def splitn (sep : Char) : Nat → List Char → List (List Char)
  | 0, _ => []
  | 1, s => [s]
  | n + 2, s =>
    match s.dropWhile (· != sep) with
    | [] => [s]
    | _ :: rest => s.takeWhile (· != sep) :: splitn sep (n + 1) rest

/-- An optional plus sign and at least one digit; `none` also for a value that is not below `bound`. -/
def parseUnsigned (bound : Nat) (s : List Char) : Option Nat :=
  let digits := if s.head? = some '+' then s.tail else s
  if digits ≠ [] ∧ digits.all Char.isDigit = true ∧ Nat.ofDigitChars 10 digits 0 < bound then
    some (Nat.ofDigitChars 10 digits 0)
  else none

def after (pattern : List Char) : List Char → Option (List Char)
  | [] => if pattern = [] then some [] else none
  | c :: rest =>
    if pattern.isPrefixOf (c :: rest) then some ((c :: rest).drop pattern.length)
    else after pattern rest

variable {s t : List Char}

theorem trimEnd_append_of_ne_nil (h : trimEnd t ≠ []) : trimEnd (s ++ t) = s ++ trimEnd t := by
  have hreverse : (t.reverse.dropWhile isWhiteSpace).isEmpty = false := by
    rw [List.isEmpty_eq_false_iff]
    intro hnil
    exact h (by rw [trimEnd, List.rdropWhile, hnil, List.reverse_nil])
  rw [trimEnd, List.rdropWhile, List.reverse_append, List.dropWhile_append, hreverse]
  simp [trimEnd, List.rdropWhile]

theorem trimEnd_append_of_nil (h : trimEnd t = []) : trimEnd (s ++ t) = trimEnd s := by
  have hall : ∀ c ∈ t.reverse, isWhiteSpace c = true := by
    intro c hc
    exact List.rdropWhile_eq_nil_iff.mp h c (List.mem_reverse.mp hc)
  rw [trimEnd, List.rdropWhile, List.reverse_append, List.dropWhile_append_of_pos hall]
  rfl

theorem trimEnd_eq_self (hne : s ≠ []) (h : isWhiteSpace (s.getLast hne) = false) :
    trimEnd s = s := by
  rw [trimEnd, List.rdropWhile_eq_self_iff]
  intro _
  rw [h]
  exact Bool.false_ne_true

theorem trimStart_cons {c : Char} (h : isWhiteSpace c = false) : trimStart (c :: s) = c :: s := by
  simp [trimStart, h]

theorem trimStart_trimEnd (s : List Char) : trimStart (trimEnd s) = trimEnd (trimStart s) := by
  have hsplit : s.takeWhile isWhiteSpace ++ trimStart s = s := List.takeWhile_append_dropWhile
  have hlead : ∀ c ∈ s.takeWhile isWhiteSpace, isWhiteSpace c = true :=
    fun c hc => List.mem_takeWhile_imp hc
  cases hrest : trimStart s with
  | nil =>
    rw [hrest, List.append_nil] at hsplit
    have hnil : trimEnd s = [] := List.rdropWhile_eq_nil_iff.mpr (hsplit ▸ hlead)
    rw [hnil]
    rfl
  | cons c rest =>
    have hc : isWhiteSpace c = false := by
      have hsome : s.dropWhile isWhiteSpace ≠ [] := by
        rw [← trimStart, hrest]
        exact List.cons_ne_nil c rest
      have hhead := List.head_dropWhile_not isWhiteSpace hsome
      rw [trimStart] at hrest
      simpa only [hrest, List.head_cons] using hhead
    have hne : trimEnd (c :: rest) ≠ [] := by
      intro hnil
      have hspace := List.rdropWhile_eq_nil_iff.mp hnil c List.mem_cons_self
      rw [hc] at hspace
      cases hspace
    obtain ⟨back, hback⟩ := List.rdropWhile_prefix isWhiteSpace (l := c :: rest)
    have hend : ∃ more, trimEnd (c :: rest) = c :: more := by
      obtain ⟨first, more, hmore⟩ := List.exists_cons_of_ne_nil hne
      rw [trimEnd] at hmore ⊢
      rw [hmore, List.cons_append] at hback
      exact ⟨more, by rw [hmore, (List.cons.inj hback).1]⟩
    obtain ⟨more, hmore⟩ := hend
    rw [← hsplit, hrest, trimEnd_append_of_ne_nil hne, hmore, trimStart,
      List.dropWhile_append_of_pos hlead]
    exact trimStart_cons hc

theorem trim_trimEnd (s : List Char) : trim (trimEnd s) = trim s := by
  rw [trim, trimStart_trimEnd, trimEnd, trimEnd, List.rdropWhile_idempotent]
  rfl

theorem trim_eq_nil_iff : trim s = [] ↔ trimEnd s = [] := by
  rw [trim, ← trimStart_trimEnd]
  constructor
  · intro h
    have hall : ∀ c ∈ trimEnd s, isWhiteSpace c = true := List.dropWhile_eq_nil_iff.mp h
    rw [← List.rdropWhile_eq_nil_iff, trimEnd, List.rdropWhile_idempotent] at hall
    exact hall
  · intro h
    rw [h]
    rfl

theorem splitn_of_not_mem {sep : Char} (n : Nat) (h : sep ∉ s) : splitn sep (n + 1) s = [s] := by
  cases n with
  | zero => rfl
  | succ n =>
    have hnil : s.dropWhile (· != sep) = [] := by
      rw [List.dropWhile_eq_nil_iff]
      intro c hc
      rw [bne_iff_ne]
      rintro rfl
      exact h hc
    rw [splitn, hnil]

theorem splitn_append {sep : Char} (n : Nat) (h : sep ∉ s) :
    splitn sep (n + 2) (s ++ sep :: t) = s :: splitn sep (n + 1) t := by
  have hpass : ∀ c ∈ s, (c != sep) = true := by
    intro c hc
    rw [bne_iff_ne]
    rintro rfl
    exact h hc
  have hdrop : (s ++ sep :: t).dropWhile (· != sep) = sep :: t := by
    rw [List.dropWhile_append_of_pos hpass]
    simp
  have htake : (s ++ sep :: t).takeWhile (· != sep) = s := by
    rw [List.takeWhile_append_of_pos hpass]
    simp
  rw [splitn, hdrop, htake]

theorem mem_toDigits_isDigit {n : Nat} {c : Char} (h : c ∈ Nat.toDigits 10 n) : c.isDigit = true :=
  Nat.isDigit_of_mem_toDigits (by decide) (by decide) h

theorem not_isWhiteSpace_of_isDigit {c : Char} (h : c.isDigit = true) : isWhiteSpace c = false := by
  have hrange : 48 ≤ c.toNat ∧ c.toNat ≤ 57 := by
    simpa [Char.isDigit, UInt32.le_iff_toNat_le] using h
  simp only [isWhiteSpace]
  grind

theorem parseUnsigned_toDigits {bound n : Nat} (h : n < bound) :
    parseUnsigned bound (Nat.toDigits 10 n) = some n := by
  have hsign : (Nat.toDigits 10 n).head? ≠ some '+' := by
    intro hplus
    have hdigit := mem_toDigits_isDigit (List.mem_of_mem_head? hplus)
    exact absurd hdigit (by decide)
  have hdigits : (Nat.toDigits 10 n).all Char.isDigit = true :=
    List.all_eq_true.mpr fun c hc => mem_toDigits_isDigit hc
  rw [parseUnsigned, if_neg hsign, Nat.ofDigitChars_ten_toDigits]
  exact if_pos ⟨Nat.toDigits_ne_nil, hdigits, h⟩

end GravitalTalk.Lib.Text
