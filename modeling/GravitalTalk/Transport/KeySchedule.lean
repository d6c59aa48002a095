import GravitalTalk.Core.Crypto

/-! The key schedule of the handshake.  X25519 and HKDF are parameters; what the code adds is the
transcript, the labels, and which key each tag is made with. -/
namespace GravitalTalk.Transport
open Lib GravitalTalk.Core

abbrev Key32 := Vector UInt8 32

structure Suite where
  publicKey : Key32 → Key32
  diffieHellman : Key32 → Key32 → Key32
  /-- `Hkdf::<Sha256>::new(salt, ikm).expand(info, out)` for an output of `n` bytes. -/
  hkdf : (n : Nat) → (salt : Option Bytes) → (ikm info : Bytes) → Vector UInt8 n

/-- `client_nonce` (32), `server_nonce` (32), `session_id` (4). -/
def buildTranscript (clientNonce serverNonce : Key32) (sessionId : UInt32) : Bytes :=
  let t : Bytes := List.replicate 68 0
  let t := overwrite t 0 clientNonce.toList
  let t := overwrite t 32 serverNonce.toList
  overwrite t 64 (be32 sessionId)

def ascii (text : String) : Bytes := text.toList.map fun c => UInt8.ofNat c.toNat

/-- The encryption and the decryption key of the client. -/
def deriveSessionKeys (suite : Suite) (sharedSecret : Key32) (transcript : Bytes) :
    SessionKey × SessionKey :=
  (suite.hkdf 32 (some transcript) sharedSecret.toList (ascii "GS-encrypt-v1"),
    suite.hkdf 32 (some transcript) sharedSecret.toList (ascii "GS-decrypt-v1"))

def deriveAuthTag (suite : Suite) (key : SessionKey) (label transcript : Bytes) : Tag :=
  suite.hkdf 16 none key.toList (label ++ transcript)

def clientFin : Bytes := ascii "GS-client-fin-v1"
def serverFin : Bytes := ascii "GS-server-fin-v1"

def constantTimeEq (a b : Tag) : Bool :=
  ((List.range 16).foldl (fun diff i => diff ||| (a.toList.getD i 0 ^^^ b.toList.getD i 0))
    (0 : UInt8)) == 0

/-- The shared secret and the transcript one side derives everything from. -/
structure Secrets where
  shared : Key32
  transcript : Bytes
  deriving DecidableEq

namespace Secrets

def keys (secrets : Secrets) (suite : Suite) : SessionKey × SessionKey :=
  deriveSessionKeys suite secrets.shared secrets.transcript

/-- The tag of the KeyExchange, under the client's encryption key. -/
def clientTag (secrets : Secrets) (suite : Suite) : Tag :=
  deriveAuthTag suite (secrets.keys suite).1 clientFin secrets.transcript

/-- The tag of the SessionConfirm, under the client's decryption key. -/
def serverTag (secrets : Secrets) (suite : Suite) : Tag :=
  deriveAuthTag suite (secrets.keys suite).2 serverFin secrets.transcript

end Secrets

theorem buildTranscript_eq (clientNonce serverNonce : Key32) (sessionId : UInt32) :
    buildTranscript clientNonce serverNonce sessionId =
      clientNonce.toList ++ (serverNonce.toList ++ be32 sessionId) := by
  have hwrites : ∀ t : Bytes, t.length = 68 →
      overwrite (overwrite (overwrite t 0 clientNonce.toList) 32 serverNonce.toList) 64
        (be32 sessionId) = clientNonce.toList ++ (serverNonce.toList ++ be32 sessionId) := by
    intro t ht
    simp (disch := first | (simp; done) | (simp; omega) | omega) only [overwrite_overwrite]
    rw [overwrite_zero, List.drop_of_length_le (by simp [ht])]
    simp
  exact hwrites _ List.length_replicate

theorem buildTranscript_inj {cn cn' sn sn' : Key32} {sid sid' : UInt32}
    (h : buildTranscript cn sn sid = buildTranscript cn' sn' sid') :
    cn = cn' ∧ sn = sn' ∧ sid = sid' := by
  rw [buildTranscript_eq, buildTranscript_eq] at h
  obtain ⟨hclient, hrest⟩ := List.append_inj h (by simp)
  obtain ⟨hserver, hsid⟩ := List.append_inj hrest (by simp)
  exact ⟨Vector.toList_inj.mp hclient, Vector.toList_inj.mp hserver, be32_injective hsid⟩

theorem foldl_or_eq_zero (diffs : List UInt8) (acc : UInt8) :
    diffs.foldl (· ||| ·) acc = 0 ↔ acc = 0 ∧ ∀ d ∈ diffs, d = 0 := by
  induction diffs generalizing acc with
  | nil => simp
  | cons d diffs ih =>
    rw [List.foldl_cons, ih, UInt8.or_eq_zero_iff, List.forall_mem_cons, and_assoc]

theorem constantTimeEq_iff (a b : Tag) : constantTimeEq a b = true ↔ a = b := by
  have hfold : (List.range 16).foldl
      (fun diff i => diff ||| (a.toList.getD i 0 ^^^ b.toList.getD i 0)) (0 : UInt8) =
        ((List.range 16).map fun i => a.toList.getD i 0 ^^^ b.toList.getD i 0).foldl (· ||| ·) 0 := by
    rw [List.foldl_map]
  rw [constantTimeEq, beq_iff_eq, hfold, foldl_or_eq_zero]
  simp only [true_and, List.mem_map, List.mem_range, forall_exists_index, and_imp,
    forall_apply_eq_imp_iff₂, UInt8.xor_eq_zero_iff]
  constructor
  · intro h
    apply Vector.ext
    intro i hi
    have hbyte := h i hi
    simpa [List.getD_eq_getElem?_getD, hi] using hbyte
  · rintro rfl i _
    rfl

end GravitalTalk.Transport
