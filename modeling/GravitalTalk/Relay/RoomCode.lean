import GravitalTalk.Transport.Discovery

/-! The room codes of the relay, such as "GRVT-2847": four letters and four digits that are not taken for
one another. -/
namespace GravitalTalk.Relay.RoomCode
open Lib GravitalTalk.Transport.Discovery

def asciiBytes (text : String) : Bytes := text.toList.map fun c => UInt8.ofNat c.toNat

def letters : Bytes := asciiBytes "ABCDEFGHJKLMNPRSTUVWXYZ"

def digits : Bytes := asciiBytes "23456789"

/-- One call of the closure `next`: the state it leaves and the byte it draws. -/
def next (rng : UInt64) : UInt64 × UInt8 :=
  let rng := rng * 6364136223846793005 + 1442695040888963407
  (rng, (rng >>> 33).toUInt8)

def draws : Nat → UInt64 → List UInt8
  | 0, _ => []
  | n + 1, rng => (next rng).2 :: draws n (next rng).1

/-- `alphabet[(draw % alphabet.len() as u8) as usize] as char` -/
def pick (alphabet : Bytes) (draw : UInt8) : Char :=
  Char.ofNat (alphabet.getD (draw % UInt8.ofNat alphabet.length).toNat 0).toNat

/-- The time is in nanoseconds since the epoch; `count` is what `COUNTER` held. -/
def generateCode (time count : UInt64) : String :=
  let drawn := draws 8 (time + count * 6364136223846793005)
  .ofList ((drawn.take 4).map (pick letters) ++ '-' :: (drawn.drop 4).map (pick digits))

def isValidCode (code : String) : Bool :=
  let bytes := asBytes code
  if bytes.length != 9 || bytes.getD 4 0 != 45 then false
  else (bytes.take 4).all letters.contains && (bytes.drop 5).all digits.contains

theorem utf8EncodeChar_ascii {c : Char} (h : c.toNat < 128) :
    String.utf8EncodeChar c = [UInt8.ofNat c.toNat] := by
  have hle : c.val.toNat ≤ 0x7f := by
    change c.toNat ≤ _
    omega
  rw [String.utf8EncodeChar, if_pos hle]
  rfl

theorem asBytes_ofList {chars : List Char} (h : ∀ c ∈ chars, c.toNat < 128) :
    asBytes (.ofList chars) = chars.map fun c => UInt8.ofNat c.toNat := by
  have hencode : asBytes (.ofList chars) = chars.flatMap String.utf8EncodeChar := by
    simp [asBytes, List.utf8Encode]
  rw [hencode]
  clear hencode
  induction chars with
  | nil => rfl
  | cons c rest ih =>
    rw [List.flatMap_cons, List.map_cons, utf8EncodeChar_ascii (h c (by simp)),
      ih fun c hc => h c (by simp [hc])]
    rfl

structure Alphabet (alphabet : Bytes) : Prop where
  nonempty : 0 < alphabet.length
  short : alphabet.length < 256
  ascii : ∀ b ∈ alphabet, b.toNat < 128

theorem alphabet_letters : Alphabet letters := ⟨by decide, by decide, by decide +kernel⟩

theorem alphabet_digits : Alphabet digits := ⟨by decide, by decide, by decide +kernel⟩

section Pick
variable {alphabet : Bytes}

theorem Alphabet.pick (h : Alphabet alphabet) (draw : UInt8) :
    ∃ b ∈ alphabet, RoomCode.pick alphabet draw = Char.ofNat b.toNat := by
  have hlength : (UInt8.ofNat alphabet.length).toNat = alphabet.length :=
    UInt8.toNat_ofNat_of_lt' h.short
  have hlt : (draw % UInt8.ofNat alphabet.length).toNat < alphabet.length := by
    rw [UInt8.toNat_mod, hlength]
    exact Nat.mod_lt _ h.nonempty
  refine ⟨alphabet[(draw % UInt8.ofNat alphabet.length).toNat], List.getElem_mem hlt, ?_⟩
  rw [RoomCode.pick, List.getD_eq_getElem?_getD, List.getElem?_eq_getElem hlt, Option.getD_some]

theorem toNat_ofNat_ascii {n : Nat} (h : n < 128) : (Char.ofNat n).toNat = n := by
  have hvalid : n.isValidChar := .inl (by omega)
  rw [Char.ofNat, dif_pos hvalid]
  exact UInt32.toNat_ofNatLT

end Pick

def IsCode (chars : List Char) : Prop :=
  ∃ front back : Bytes, front.length = 4 ∧ back.length = 4 ∧
    (∀ b ∈ front, b ∈ letters) ∧ (∀ b ∈ back, b ∈ digits) ∧
      chars = (front ++ 45 :: back).map fun b => Char.ofNat b.toNat

section Codes
variable {code : String}

theorem IsCode.asBytes (h : IsCode code.toList) :
    ∃ front back : Bytes, front.length = 4 ∧ back.length = 4 ∧ (∀ b ∈ front, b ∈ letters) ∧
      (∀ b ∈ back, b ∈ digits) ∧ Transport.Discovery.asBytes code = front ++ 45 :: back := by
  obtain ⟨front, back, hfront, hback, hletters, hdigits, hchars⟩ := h
  refine ⟨front, back, hfront, hback, hletters, hdigits, ?_⟩
  have hascii : ∀ b ∈ front ++ 45 :: back, b.toNat < 128 := by
    intro b hb
    simp only [List.mem_append, List.mem_cons] at hb
    obtain hb | rfl | hb := hb
    · exact alphabet_letters.ascii b (hletters b hb)
    · decide
    · exact alphabet_digits.ascii b (hdigits b hb)
  rw [← String.ofList_toList (s := code), hchars, asBytes_ofList]
  · rw [List.map_map]
    refine (List.map_congr_left fun b hb => ?_).trans (List.map_id _)
    rw [Function.comp_apply, toNat_ofNat_ascii (hascii b hb), UInt8.ofNat_toNat, id]
  · intro c hc
    obtain ⟨b, hb, rfl⟩ := List.mem_map.mp hc
    rw [toNat_ofNat_ascii (hascii b hb)]
    exact hascii b hb

theorem IsCode.length (h : IsCode code.toList) : code.toList.length = 9 := by
  obtain ⟨front, back, hfront, hback, -, -, hchars⟩ := h
  simp [hchars, hfront, hback]

end Codes

end GravitalTalk.Relay.RoomCode
