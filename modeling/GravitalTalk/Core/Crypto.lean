import GravitalTalk.Core.Header

/-! Authenticated encryption of payloads.  The cipher itself is a parameter: `Aead` has the
two detached operations the code calls, and the in-place layout

    ciphertext (N) ++ tag (16)

is what this module adds. -/
namespace GravitalTalk.Core
open Lib

def tagSize : Nat := 16
def nonceSize : Nat := 12

abbrev SessionKey := Vector UInt8 32
abbrev Nonce := Vector UInt8 12
abbrev Tag := Vector UInt8 16

/-- The cipher works in place, so it keeps the length. -/
structure Aead where
  encryptDetached : SessionKey → Nonce → Bytes → Bytes → Option (Bytes × Tag)
  decryptDetached : SessionKey → Nonce → Bytes → Bytes → Tag → Option Bytes
  length_encrypt : ∀ key nonce aad plain cipher tag,
    encryptDetached key nonce aad plain = some (cipher, tag) → cipher.length = plain.length
  length_decrypt : ∀ key nonce aad cipher tag plain,
    decryptDetached key nonce aad cipher tag = some plain → plain.length = cipher.length

/-- A stand-in to evaluate the model with: the text stays as it is, under the tag of zeros. -/
def Aead.transparent : Aead where
  encryptDetached _ _ _ plain := some (plain, Vector.replicate 16 0)
  decryptDetached _ _ _ cipher tag := if tag = Vector.replicate 16 0 then some cipher else none
  length_encrypt _ _ _ _ _ _ h := by
    obtain ⟨rfl, -⟩ := Prod.mk.inj (Option.some.inj h)
    rfl
  length_decrypt _ _ _ _ _ _ h := by
    split_ifs at h
    rw [Option.some.inj h]

def makeNonce (sequence sessionId : UInt32) : Nonce :=
  let n : Bytes := List.replicate nonceSize 0
  let n := overwrite n 0 (be32 sequence)
  let n := overwrite n 4 (be32 sessionId)
  readVector 12 n 0

def encryptInPlace (aead : Aead) (key : SessionKey) (nonce : Nonce) (aad buffer : Bytes)
    (plaintextLen : Nat) : Except Error Nat × Bytes :=
  if buffer.length < plaintextLen + tagSize then (.error .bufferTooSmall, buffer)
  else
    match aead.encryptDetached key nonce aad (buffer.take plaintextLen) with
    | none => (.error .decryptionFailed, buffer)
    | some (cipher, tag) =>
      let buffer := overwrite buffer 0 cipher
      let buffer := overwrite buffer plaintextLen tag.toList
      (.ok (plaintextLen + tagSize), buffer)

def decryptInPlace (aead : Aead) (key : SessionKey) (nonce : Nonce) (aad buffer : Bytes)
    (ciphertextLen : Nat) : Except Error Nat × Bytes :=
  if ciphertextLen < tagSize then (.error .tooShort, buffer)
  else if buffer.length < ciphertextLen then (.error .bufferTooSmall, buffer)
  else
    let plaintextLen := ciphertextLen - tagSize
    let tag := readVector 16 buffer plaintextLen
    match aead.decryptDetached key nonce aad (buffer.take plaintextLen) tag with
    | none => (.error .decryptionFailed, buffer)
    | some plain => (.ok plaintextLen, overwrite buffer 0 plain)

theorem toList_makeNonce (sequence sessionId : UInt32) :
    (makeNonce sequence sessionId).toList = be32 sequence ++ (be32 sessionId ++ [0, 0, 0, 0]) := by
  have hwrite : overwrite (overwrite (List.replicate nonceSize 0) 0 (be32 sequence)) 4
      (be32 sessionId) = be32 sequence ++ (be32 sessionId ++ [0, 0, 0, 0]) := by
    rw [overwrite_overwrite (by simp) (by simp [nonceSize])]
    simp [overwrite, nonceSize]
  simp only [makeNonce, hwrite]
  rw [toList_readVector _ _ _ (by simp)]
  simp

theorem makeNonce_inj {seq seq' sid sid' : UInt32} (h : makeNonce seq sid = makeNonce seq' sid') :
    seq = seq' ∧ sid = sid' := by
  have hlist := congrArg Vector.toList h
  rw [toList_makeNonce, toList_makeNonce] at hlist
  obtain ⟨hseq, hrest⟩ := List.append_inj hlist (by simp)
  obtain ⟨hsid, -⟩ := List.append_inj hrest (by simp)
  exact ⟨be32_injective hseq, be32_injective hsid⟩

theorem encryptInPlace_eq (aead : Aead) (key : SessionKey) (nonce : Nonce) (aad plain room : Bytes)
    (hroom : room.length = tagSize) :
    encryptInPlace aead key nonce aad (plain ++ room) plain.length =
      match aead.encryptDetached key nonce aad plain with
      | none => (.error .decryptionFailed, plain ++ room)
      | some (cipher, tag) => (.ok (plain.length + tagSize), cipher ++ tag.toList) := by
  have hlen : ¬(plain ++ room).length < plain.length + tagSize := by
    rw [List.length_append]
    omega
  rw [encryptInPlace, if_neg hlen, List.take_left]
  cases hseal : aead.encryptDetached key nonce aad plain with
  | none => rfl
  | some sealed =>
    obtain ⟨cipher, tag⟩ := sealed
    have hcipher := aead.length_encrypt _ _ _ _ _ _ hseal
    simp only [tagSize] at hroom ⊢
    rw [overwrite_overwrite (by omega) (by simp), overwrite_zero]
    simp [hcipher, hroom]

theorem decryptInPlace_eq {aead : Aead} {key : SessionKey} {nonce : Nonce} {aad cipher plain : Bytes}
    {tag : Tag} (h : aead.decryptDetached key nonce aad cipher tag = some plain) :
    decryptInPlace aead key nonce aad (cipher ++ tag.toList) (cipher ++ tag.toList).length =
      (.ok plain.length, plain ++ tag.toList) := by
  have hplain := aead.length_decrypt _ _ _ _ _ _ h
  have hlen : (cipher ++ tag.toList).length = cipher.length + tagSize := by simp [tagSize]
  have htag : readVector 16 (cipher ++ tag.toList) cipher.length = tag := by
    apply Vector.toList_inj.mp
    rw [toList_readVector _ _ _ (by simp)]
    simp [slice]
  rw [decryptInPlace, if_neg (by omega), if_neg (Nat.lt_irrefl _)]
  simp only [hlen, Nat.add_sub_cancel, List.take_left, htag, h]
  rw [overwrite_zero, hplain]
  simp

end GravitalTalk.Core
