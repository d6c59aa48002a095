import GravitalTalk.Lib.Bytes
import GravitalTalk.Lib.ShiftRegister

/-! Byte-at-a-time 16-bit CRC over a lookup table of 256 words, most significant
bit first.  The register is threaded through any number of segments, so a
checksum over several slices is the checksum of their concatenation. -/
namespace GravitalTalk.Lib.TableCrc

def bitStep (poly crc : UInt16) : UInt16 :=
  if crc &&& 0x8000 ≠ 0 then (crc <<< 1) ^^^ poly else crc <<< 1

def bitSteps (poly : UInt16) : Nat → UInt16 → UInt16
  | 0, crc => crc
  | n + 1, crc => bitSteps poly n (bitStep poly crc)

abbrev Table := Vector UInt16 256

def buildTable (poly : UInt16) : Table :=
  Vector.ofFn fun i => bitSteps poly 8 (UInt16.ofNat i.val <<< 8)

def step (table : Table) (crc : UInt16) (byte : UInt8) : UInt16 :=
  let idx := (crc >>> 8).toUInt8 ^^^ byte
  (crc <<< 8) ^^^ table.get ⟨idx.toNat, idx.toNat_lt⟩

def update (table : Table) (crc : UInt16) (data : Bytes) : UInt16 :=
  data.foldl (step table) crc

@[simp] theorem update_append (table : Table) (crc : UInt16) (left right : Bytes) :
    update table crc (left ++ right) = update table (update table crc left) right := by
  simp [update]

/-- The bits of a byte in wire order, most significant first. -/
def byteBits (byte : UInt8) : List Bool := (List.range 8).map byte.toBitVec.getMsbD

def bits (data : Bytes) : List Bool := data.flatMap byteBits

@[simp] theorem length_byteBits (byte : UInt8) : (byteBits byte).length = 8 := by
  simp [byteBits]

@[simp] theorem length_bits (data : Bytes) : (bits data).length = 8 * data.length := by
  simp [bits, Nat.mul_comm]

theorem toBitVec_bitStep (poly crc : UInt16) :
    (bitStep poly crc).toBitVec = ShiftRegister.shift poly.toBitVec crc.toBitVec := by
  have hmask : crc &&& 0x8000 ≠ 0 ↔ crc.toBitVec.msb = true := by
    have hand : (crc &&& 0x8000).toBitVec =
        if crc.toBitVec.getLsbD 15 then BitVec.twoPow 16 15 else 0#16 := by
      rw [UInt16.toBitVec_and, ← BitVec.and_twoPow]
      rfl
    rw [Ne, ← UInt16.toBitVec_inj, hand, BitVec.msb_eq_getLsbD_last]
    cases crc.toBitVec.getLsbD 15 <;> decide
  unfold bitStep ShiftRegister.shift
  simp only [hmask]
  split <;> rfl

theorem toBitVec_bitSteps (poly crc : UInt16) (n : Nat) :
    (bitSteps poly n crc).toBitVec = (ShiftRegister.shift poly.toBitVec)^[n] crc.toBitVec := by
  induction n generalizing crc with
  | zero => rfl
  | succ n ih => rw [bitSteps, ih, toBitVec_bitStep, Function.iterate_succ_apply]

theorem getLsbD_index (crc : UInt16) (byte : UInt8) (i : Nat) (hi : i < 8) :
    (UInt16.ofNat ((crc >>> 8).toUInt8 ^^^ byte).toNat).toBitVec.getLsbD i =
      (crc.toBitVec.getLsbD (8 + i) ^^ byte.toBitVec.getLsbD i) := by
  have hindex : (UInt16.ofNat ((crc >>> 8).toUInt8 ^^^ byte).toNat).toBitVec =
      ((crc >>> 8).toUInt8 ^^^ byte).toBitVec.setWidth 16 := by
    apply BitVec.eq_of_toNat_eq
    simp
  rw [hindex, BitVec.getLsbD_setWidth, UInt8.toBitVec_xor, BitVec.getLsbD_xor]
  have hhigh : (crc >>> 8).toUInt8.toBitVec = (crc.toBitVec >>> 8).setWidth 8 := rfl
  rw [hhigh, BitVec.getLsbD_setWidth, BitVec.getLsbD_ushiftRight]
  simp [hi]
  omega

theorem getD_byteBits (byte : UInt8) (i : Nat) :
    (byteBits byte).getD i false = byte.toBitVec.getMsbD i := by
  rcases Nat.lt_or_ge i 8 with hi | hi
  · rw [List.getD_eq_getElem?_getD, List.getElem?_eq_getElem (by simpa using hi)]
    simp [byteBits]
  · rw [List.getD_eq_getElem?_getD, List.getElem?_eq_none (by simpa using hi),
      BitVec.getMsbD_of_ge _ _ hi]
    rfl

theorem getLsbD_lowByte (i : Nat) : (0xFF#16).getLsbD i = decide (i < 8) := by
  rw [BitVec.getLsbD_ofNat, show (0xFF : Nat) = 2 ^ 8 - 1 from rfl, Nat.testBit_two_pow_sub_one]
  rcases Nat.lt_or_ge i 8 with hi | hi
  · simp [hi, show i < 16 by omega]
  · simp [hi]

theorem placed_byte (crc : UInt16) (byte : UInt8) :
    crc.toBitVec ^^^ ShiftRegister.place 16 (byteBits byte) =
      (UInt16.ofNat ((crc >>> 8).toUInt8 ^^^ byte).toNat <<< 8).toBitVec ^^^
        (crc.toBitVec &&& 0xFF#16) := by
  have hshift (x : UInt16) : (x <<< 8).toBitVec = x.toBitVec <<< 8 := rfl
  apply BitVec.eq_of_getLsbD_eq
  intro i hi
  rw [BitVec.getLsbD_xor, BitVec.getLsbD_xor, BitVec.getLsbD_and, getLsbD_lowByte, hshift,
    BitVec.getLsbD_shiftLeft, ShiftRegister.getLsbD_place _ _ hi, getD_byteBits]
  rcases Nat.lt_or_ge i 8 with hlow | hhigh
  · rw [BitVec.getMsbD_of_ge _ _ (by omega)]
    simp [hlow]
  · rw [getLsbD_index _ _ _ (by omega), BitVec.getMsbD_eq_getLsbD, Nat.add_sub_cancel' hhigh,
      show 8 - 1 - (16 - 1 - i) = i - 8 by omega]
    simp [hi, Nat.not_lt.mpr hhigh]
    omega

private theorem vector_get_ofFn {n : Nat} {A : Type} (f : Fin n → A) (i : Fin n) :
    (Vector.ofFn f).get i = f i := by
  simp only [Vector.get, Vector.toArray_ofFn, Array.getElem_ofFn]
  congr 1

theorem toBitVec_step (poly crc : UInt16) (byte : UInt8) :
    (step (buildTable poly) crc byte).toBitVec =
      ShiftRegister.feeds poly.toBitVec crc.toBitVec (byteBits byte) := by
  have hlow : (ShiftRegister.shift poly.toBitVec)^[8] (crc.toBitVec &&& 0xFF#16) =
      crc.toBitVec <<< 8 := by
    rw [ShiftRegister.iterate_shift_low]
    · apply BitVec.eq_of_getLsbD_eq
      intro i hi
      rw [BitVec.getLsbD_shiftLeft, BitVec.getLsbD_and, getLsbD_lowByte, BitVec.getLsbD_shiftLeft]
      rcases Nat.lt_or_ge i 8 with hlow | hhigh
      · simp [hlow]
      · simp [show i - 8 < 8 by omega]
    · intro i hi
      rw [BitVec.getLsbD_and, getLsbD_lowByte, decide_eq_false (by omega), Bool.and_false]
  rw [ShiftRegister.feeds_place _ _ _ (by simp), length_byteBits, placed_byte,
    ShiftRegister.iterate_shift_xor, hlow, ← toBitVec_bitSteps, BitVec.xor_comm]
  rw [step, UInt16.toBitVec_xor, buildTable, vector_get_ofFn]
  rfl

/-- A byte is put in at the top and shifted through bit by bit. -/
def bitwiseStep (poly crc : UInt16) (byte : UInt8) : UInt16 :=
  bitSteps poly 8 (crc ^^^ byte.toUInt16 <<< 8)

theorem place_byteBits (byte : UInt8) :
    ShiftRegister.place 16 (byteBits byte) = (byte.toUInt16 <<< 8).toBitVec := by
  have hshift : (byte.toUInt16 <<< 8).toBitVec = byte.toBitVec.setWidth 16 <<< 8 := rfl
  rw [hshift]
  apply BitVec.eq_of_getLsbD_eq
  intro i hi
  rw [ShiftRegister.getLsbD_place _ _ hi, getD_byteBits, BitVec.getMsbD_eq_getLsbD,
    BitVec.getLsbD_shiftLeft, BitVec.getLsbD_setWidth]
  rcases Nat.lt_or_ge i 8 with hlow | hhigh
  · simp [hlow]
    omega
  · rw [show 8 - 1 - (16 - 1 - i) = i - 8 by omega]
    simp [hi, Nat.not_lt.mpr hhigh, show 15 - i < 8 by omega, show i - 8 < 16 by omega]

theorem step_eq_bitwiseStep (poly crc : UInt16) (byte : UInt8) :
    step (buildTable poly) crc byte = bitwiseStep poly crc byte := by
  apply UInt16.toBitVec_inj.mp
  rw [toBitVec_step, ShiftRegister.feeds_place _ _ _ (by simp), length_byteBits, place_byteBits,
    bitwiseStep, toBitVec_bitSteps, UInt16.toBitVec_xor]

theorem update_eq_bitwise (poly crc : UInt16) (data : Bytes) :
    update (buildTable poly) crc data = data.foldl (bitwiseStep poly) crc := by
  induction data generalizing crc with
  | nil => rfl
  | cons byte data ih =>
    rw [List.foldl_cons, ← step_eq_bitwiseStep, ← ih]
    rfl

theorem toBitVec_update (poly crc : UInt16) (data : Bytes) :
    (update (buildTable poly) crc data).toBitVec =
      ShiftRegister.feeds poly.toBitVec crc.toBitVec (bits data) := by
  induction data generalizing crc with
  | nil => rfl
  | cons byte data ih =>
    rw [bits, List.flatMap_cons, ShiftRegister.feeds_append, ← toBitVec_step, ← bits, ← ih]
    rfl

theorem byteBits_xor (left right : UInt8) :
    byteBits (left ^^^ right) = List.zipWith (· ^^ ·) (byteBits left) (byteBits right) := by
  simp [byteBits, List.zipWith_map]

theorem bits_xor (left right : Bytes) (hlen : left.length = right.length) :
    bits (List.zipWith (· ^^^ ·) left right) = List.zipWith (· ^^ ·) (bits left) (bits right) := by
  induction left generalizing right with
  | nil => simp [bits]
  | cons byte left ih =>
    cases right with
    | nil => cases hlen
    | cons other right =>
      have htail := ih right (Nat.succ.inj hlen)
      simp only [bits] at htail
      simp only [bits, List.zipWith_cons_cons, List.flatMap_cons, htail, byteBits_xor]
      rw [List.zipWith_append (by simp)]

theorem step_top (poly crc : UInt16) :
    step (buildTable poly) crc (crc >>> 8).toUInt8 = crc <<< 8 := by
  have hzero : ∀ n, bitSteps poly n 0 = 0 := by
    intro n
    induction n with
    | zero => rfl
    | succ n ih => rw [bitSteps, bitStep, if_neg (by decide)]; exact ih
  simp only [step, UInt8.xor_self, buildTable, vector_get_ofFn]
  exact (congrArg (crc <<< 8 ^^^ ·) (hzero 8)).trans UInt16.xor_zero

theorem update_self (poly crc : UInt16) : update (buildTable poly) crc (be16 crc) = 0 := by
  have hbytes : be16 crc = [(crc >>> 8).toUInt8, ((crc <<< 8) >>> 8).toUInt8] := by
    have hhigh : UInt8.ofNat (crc.toNat / 256) = (crc >>> 8).toUInt8 := by
      apply UInt8.toNat_inj.mp
      simp [Nat.shiftRight_eq_div_pow]
    have hlow : UInt8.ofNat crc.toNat = ((crc <<< 8) >>> 8).toUInt8 := by
      apply UInt8.toNat_inj.mp
      simp [Nat.shiftRight_eq_div_pow, Nat.shiftLeft_eq]
      omega
    simp [be16, beEncode, hhigh, hlow]
  have hgone : crc <<< 8 <<< 8 = 0 := by
    apply UInt16.toNat_inj.mp
    simp [Nat.shiftLeft_eq]
    omega
  rw [hbytes, update, List.foldl_cons, step_top, List.foldl_cons, step_top, List.foldl_nil, hgone]

end GravitalTalk.Lib.TableCrc
