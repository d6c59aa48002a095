import GravitalTalk.Lib.Bytes

/-! Xor parity over byte strings of different lengths.  A string stands for its bytes followed by
zeros, so the parity of a group is as long as its longest member, and taking every member but one
out of it leaves that member padded with zeros to the length of the parity. -/
namespace GravitalTalk.Lib.XorParity

/-- The byte at `i` of a string read as continued by zeros. -/
def byteAt (bytes : Bytes) (i : Nat) : UInt8 := bytes.getD i 0

/-- Xor of `data` into `acc`, as far as both reach. -/
def xorInto : Bytes → Bytes → Bytes
  | [], _ => []
  | acc, [] => acc
  | a :: acc, d :: data => (a ^^^ d) :: xorInto acc data

def extend (acc : Bytes) (len : Nat) : Bytes := acc ++ List.replicate (len - acc.length) 0

def addFrame (acc frame : Bytes) : Bytes := xorInto (extend acc frame.length) frame

def parity (frames : List Bytes) : Bytes := frames.foldl addFrame []

def xorAll (frames : List Bytes) (i : Nat) : UInt8 :=
  frames.foldr (fun frame acc => byteAt frame i ^^^ acc) 0

@[simp] theorem byteAt_nil (i : Nat) : byteAt [] i = 0 := by
  simp [byteAt]

@[simp] theorem xorAll_nil (i : Nat) : xorAll [] i = 0 := rfl

@[simp] theorem xorAll_cons (frame : Bytes) (frames : List Bytes) (i : Nat) :
    xorAll (frame :: frames) i = byteAt frame i ^^^ xorAll frames i := rfl

@[simp] theorem xorInto_nil (acc : Bytes) : xorInto acc [] = acc := by
  cases acc <;> rfl

@[simp] theorem length_xorInto (acc data : Bytes) : (xorInto acc data).length = acc.length := by
  induction acc generalizing data with
  | nil => rfl
  | cons a acc ih =>
    cases data with
    | nil => rfl
    | cons d data => simp [xorInto, ih]

theorem byteAt_xorInto (acc data : Bytes) {i : Nat} (h : i < acc.length) :
    byteAt (xorInto acc data) i = byteAt acc i ^^^ byteAt data i := by
  induction acc generalizing data i with
  | nil => cases h
  | cons a acc ih =>
    cases data with
    | nil => simp
    | cons d data =>
      cases i with
      | zero => rfl
      | succ i => exact ih data (Nat.lt_of_succ_lt_succ h)

theorem length_extend (acc : Bytes) (len : Nat) : (extend acc len).length = max acc.length len := by
  rw [extend, List.length_append, List.length_replicate]
  omega

theorem byteAt_of_length_le {bytes : Bytes} {i : Nat} (h : bytes.length ≤ i) :
    byteAt bytes i = 0 := by
  simp [byteAt, List.getElem?_eq_none h]

theorem byteAt_append_zeros (bytes : Bytes) (n i : Nat) :
    byteAt (bytes ++ List.replicate n 0) i = byteAt bytes i := by
  rcases Nat.lt_or_ge i bytes.length with h | h
  · simp [byteAt, List.getElem?_append_left h]
  · rw [byteAt_of_length_le h]
    simp only [byteAt, List.getD_eq_getElem?_getD, List.getElem?_append_right h,
      List.getElem?_replicate]
    split_ifs <;> rfl

theorem length_addFrame (acc frame : Bytes) :
    (addFrame acc frame).length = max acc.length frame.length := by
  rw [addFrame, length_xorInto, length_extend]

theorem byteAt_addFrame (acc frame : Bytes) (i : Nat) :
    byteAt (addFrame acc frame) i = byteAt acc i ^^^ byteAt frame i := by
  rcases Nat.lt_or_ge i (max acc.length frame.length) with h | h
  · rw [addFrame, byteAt_xorInto _ _ (by rwa [length_extend]), extend, byteAt_append_zeros]
  · rw [byteAt_of_length_le (by rwa [length_addFrame]), byteAt_of_length_le (by omega),
      byteAt_of_length_le (by omega)]
    rfl

theorem byteAt_foldl_addFrame (acc : Bytes) (frames : List Bytes) (i : Nat) :
    byteAt (frames.foldl addFrame acc) i = byteAt acc i ^^^ xorAll frames i := by
  induction frames generalizing acc with
  | nil => simp
  | cons frame frames ih => rw [List.foldl_cons, ih, byteAt_addFrame, UInt8.xor_assoc, xorAll_cons]

theorem byteAt_parity (frames : List Bytes) (i : Nat) :
    byteAt (parity frames) i = xorAll frames i := by
  rw [parity, byteAt_foldl_addFrame, byteAt_nil, UInt8.zero_xor]

theorem parity_concat (frames : List Bytes) (frame : Bytes) :
    parity (frames ++ [frame]) = addFrame (parity frames) frame := by
  simp [parity]

theorem length_le_parity {frames : List Bytes} {frame : Bytes} (h : frame ∈ frames) :
    frame.length ≤ (parity frames).length := by
  induction frames using List.reverseRecOn with
  | nil => cases h
  | append_singleton frames last ih =>
    rw [parity_concat, length_addFrame]
    rcases List.mem_append.mp h with h | h
    · exact Nat.le_trans (ih h) (Nat.le_max_left _ _)
    · rw [List.mem_singleton.mp h]
      exact Nat.le_max_right _ _

theorem length_parity_le {frames : List Bytes} {n : Nat} (h : ∀ frame ∈ frames, frame.length ≤ n) :
    (parity frames).length ≤ n := by
  induction frames using List.reverseRecOn with
  | nil => exact Nat.zero_le n
  | append_singleton frames last ih =>
    rw [parity_concat, length_addFrame]
    exact Nat.max_le.mpr ⟨ih fun frame hmem => h frame (List.mem_append_left _ hmem),
      h last (List.mem_append_right _ (List.mem_singleton_self _))⟩

def longest (frames : List Bytes) : Nat := (frames.map List.length).foldr max 0

theorem length_le_longest {frames : List Bytes} {frame : Bytes} (h : frame ∈ frames) :
    frame.length ≤ longest frames := by
  induction frames with
  | nil => cases h
  | cons head tail ih =>
    rcases List.mem_cons.mp h with rfl | h
    · exact Nat.le_max_left _ _
    · exact Nat.le_trans (ih h) (Nat.le_max_right _ _)

theorem longest_le {frames : List Bytes} {n : Nat} (h : ∀ frame ∈ frames, frame.length ≤ n) :
    longest frames ≤ n := by
  induction frames with
  | nil => exact Nat.zero_le n
  | cons head tail ih =>
    exact Nat.max_le.mpr ⟨h head (List.mem_cons_self ..),
      ih fun frame hmem => h frame (List.mem_cons_of_mem _ hmem)⟩

theorem length_parity (frames : List Bytes) : (parity frames).length = longest frames :=
  Nat.le_antisymm (length_parity_le fun _ hmem => length_le_longest hmem)
    (longest_le fun _ hmem => length_le_parity hmem)

theorem xorAll_perm {frames frames' : List Bytes} (h : frames.Perm frames') (i : Nat) :
    xorAll frames i = xorAll frames' i := by
  induction h with
  | nil => rfl
  | cons frame _ ih => rw [xorAll_cons, xorAll_cons, ih]
  | swap first second frames =>
    simp only [xorAll_cons]
    rw [← UInt8.xor_assoc, UInt8.xor_comm (byteAt second i), UInt8.xor_assoc]
  | trans _ _ ih ih' => exact ih.trans ih'

/-- Blanking one member takes it out of the xor. -/
theorem xorAll_set {frames : List Bytes} {k : Nat} {frame : Bytes} (h : frames[k]? = some frame)
    (i : Nat) : byteAt frame i ^^^ xorAll (frames.set k []) i = xorAll frames i := by
  induction frames generalizing k with
  | nil => cases h
  | cons head tail ih =>
    cases k with
    | zero =>
      cases h
      simp
    | succ k =>
      rw [List.set_cons_succ, xorAll_cons, xorAll_cons, ← ih h, ← UInt8.xor_assoc,
        ← UInt8.xor_assoc, UInt8.xor_comm (byteAt frame i)]

theorem length_foldl_xorInto (acc : Bytes) (frames : List Bytes) :
    (frames.foldl xorInto acc).length = acc.length := by
  induction frames generalizing acc with
  | nil => rfl
  | cons frame frames ih => rw [List.foldl_cons, ih, length_xorInto]

theorem byteAt_foldl_xorInto (acc : Bytes) (frames : List Bytes) {i : Nat} (h : i < acc.length) :
    byteAt (frames.foldl xorInto acc) i = byteAt acc i ^^^ xorAll frames i := by
  induction frames generalizing acc with
  | nil => simp
  | cons frame frames ih =>
    rw [List.foldl_cons, ih _ (by rwa [length_xorInto]), byteAt_xorInto _ _ h, UInt8.xor_assoc,
      xorAll_cons]

theorem eq_of_byteAt {left right : Bytes} (hlen : left.length = right.length)
    (h : ∀ i < left.length, byteAt left i = byteAt right i) : left = right := by
  refine List.ext_getElem hlen fun i hl hr => ?_
  have := h i hl
  simpa [byteAt, List.getElem?_eq_getElem hl, List.getElem?_eq_getElem hr] using this

theorem parity_perm {frames frames' : List Bytes} (h : frames.Perm frames') :
    parity frames = parity frames' := by
  have hle : ∀ {left right : List Bytes}, left.Perm right → longest left ≤ longest right :=
    fun hperm => longest_le fun _ hmem => length_le_longest (hperm.mem_iff.mp hmem)
  refine eq_of_byteAt ?_ fun i _ => ?_
  · rw [length_parity, length_parity]
    exact Nat.le_antisymm (hle h) (hle h.symm)
  · rw [byteAt_parity, byteAt_parity, xorAll_perm h]

/-- Taking all members but `frame` out of the parity leaves `frame`, padded to the parity's
length. -/
theorem recover {frames : List Bytes} {k : Nat} {frame : Bytes} (h : frames[k]? = some frame) :
    (frames.set k []).foldl xorInto (parity frames) =
      frame ++ List.replicate ((parity frames).length - frame.length) 0 := by
  have hle := length_le_parity (List.mem_of_getElem? h)
  apply eq_of_byteAt
  · rw [length_foldl_xorInto, List.length_append, List.length_replicate]
    omega
  · intro i hi
    rw [length_foldl_xorInto] at hi
    rw [byteAt_foldl_xorInto _ _ hi, byteAt_parity, ← xorAll_set h i, UInt8.xor_assoc,
      UInt8.xor_self, UInt8.xor_zero, byteAt_append_zeros]

end GravitalTalk.Lib.XorParity
