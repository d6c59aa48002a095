import GravitalTalk.Lib.Codec
import GravitalTalk.Core.Floor
import GravitalTalk.Core.Fragment
import GravitalTalk.Core.Message

/-! Every structured payload follows a layout of bytes, so that its encoder and its decoder undo each
other. -/
namespace GravitalTalk.Core
open Lib

namespace ClientHello

def codec : BufCodec ClientHello Error := ⟨size, encode, decode⟩

theorem decode_take (buf : Bytes) : decode (buf.take size) = decode buf := by
  simp (disch := decide) only [decode, length_take_lt_iff, slice_take, getD_take, readVector_take]

theorem bytes_decode {buf : Bytes} {self : ClientHello} (hlen : buf.length = 80)
    (h : decode buf = .ok self) : self.bytes = buf := by
  rw [decode, if_neg (by rw [hlen]; decide)] at h
  obtain rfl := Except.ok.inj h
  simp (disch := omega) only [bytes, be32_slice, toList_readVector]
  rw [@pair_getD buf 64 65 rfl (by omega), @pair_getD buf 70 71 rfl (by omega)]
  simp (disch := omega) only [slice_join]
  exact slice_whole hlen

theorem follows : codec.Follows (fun _ => True) bytes where
  length := length_bytes
  encode_eq := encode_eq
  encode_short _ _ h := ⟨_, if_pos h⟩
  decode_short _ h := ⟨_, if_pos h⟩
  decode_take := decode_take
  decode_bytes self _ := self.decode_bytes
  bytes_decode _ _ hlen h := ⟨trivial, bytes_decode hlen h⟩

end ClientHello

namespace ServerHello

def codec : BufCodec ServerHello Error := ⟨size, encode, decode⟩

theorem decode_take (buf : Bytes) : decode (buf.take size) = decode buf := by
  simp (disch := decide) only [decode, length_take_lt_iff, slice_take, getD_take, readVector_take]

theorem bytes_decode {buf : Bytes} {self : ServerHello} (hlen : buf.length = 84)
    (h : decode buf = .ok self) : self.bytes = buf := by
  rw [decode, if_neg (by rw [hlen]; decide)] at h
  obtain rfl := Except.ok.inj h
  simp (disch := omega) only [bytes, be32_slice, toList_readVector]
  rw [@pair_getD buf 68 69 rfl (by omega), @pair_getD buf 74 75 rfl (by omega)]
  simp (disch := omega) only [slice_join]
  exact slice_whole hlen

theorem follows : codec.Follows (fun _ => True) bytes where
  length := length_bytes
  encode_eq := encode_eq
  encode_short _ _ h := ⟨_, if_pos h⟩
  decode_short _ h := ⟨_, if_pos h⟩
  decode_take := decode_take
  decode_bytes self _ := self.decode_bytes
  bytes_decode _ _ hlen h := ⟨trivial, bytes_decode hlen h⟩

end ServerHello

theorem decodeTagged_take (buf : Bytes) : decodeTagged (buf.take 20) = decodeTagged buf := by
  simp (disch := decide) only [decodeTagged, length_take_lt_iff, slice_take, readVector_take]

theorem taggedBytes_decodeTagged {buf : Bytes} {sessionId : UInt32} {tag : Vector UInt8 16}
    (hlen : buf.length = 20) (h : decodeTagged buf = .ok (sessionId, tag)) :
    taggedBytes sessionId tag = buf := by
  rw [decodeTagged, if_neg (by rw [hlen]; decide)] at h
  obtain ⟨rfl, rfl⟩ := Prod.mk.inj (Except.ok.inj h)
  simp (disch := omega) only [taggedBytes, be32_slice, toList_readVector, slice_join]
  exact slice_whole hlen

theorem tagged_follows {α : Type} {fields : α → UInt32 × Vector UInt8 16}
    {make : UInt32 × Vector UInt8 16 → α} (hmake : ∀ pair, fields (make pair) = pair)
    (hfields : ∀ value, make (fields value) = value) :
    BufCodec.Follows ⟨20, fun value => encodeTagged (fields value).1 (fields value).2,
      fun buf => (decodeTagged buf).map make⟩ (fun _ => True)
        fun value => taggedBytes (fields value).1 (fields value).2 where
  length _ := length_taggedBytes _ _
  encode_eq _ _ h := encodeTagged_eq _ _ _ h
  encode_short _ _ h := ⟨_, if_pos h⟩
  decode_short buf h := by
    have hshort : decodeTagged buf = .error .malformedPayload := if_pos h
    exact ⟨_, congrArg (Except.map make) hshort⟩
  decode_take buf := congrArg (Except.map make) (decodeTagged_take buf)
  decode_bytes value _ := by
    change (decodeTagged _).map make = _
    rw [decodeTagged_bytes]
    exact congrArg Except.ok (hfields value)
  bytes_decode buf value hlen h := by
    change (decodeTagged buf).map make = _ at h
    cases hdecode : decodeTagged buf with
    | error e =>
      rw [hdecode] at h
      cases h
    | ok pair =>
      rw [hdecode] at h
      obtain rfl := Except.ok.inj h
      rw [hmake]
      exact ⟨trivial, taggedBytes_decodeTagged hlen hdecode⟩

namespace KeyExchangeMsg

def codec : BufCodec KeyExchangeMsg Error := ⟨size, encode, decode⟩

theorem follows : codec.Follows (fun _ => True) bytes :=
  @tagged_follows KeyExchangeMsg (fun self => (self.sessionId, self.authTag))
    (fun fields => ⟨fields.1, fields.2⟩) (fun _ => rfl) fun _ => rfl

end KeyExchangeMsg

namespace SessionConfirm

def codec : BufCodec SessionConfirm Error := ⟨size, encode, decode⟩

theorem follows : codec.Follows (fun _ => True) bytes :=
  @tagged_follows SessionConfirm (fun self => (self.sessionId, self.serverAuthTag))
    (fun fields => ⟨fields.1, fields.2⟩) (fun _ => rfl) fun _ => rfl

end SessionConfirm

namespace FecHeader

def codec : BufCodec FecHeader Error := ⟨size, encode, decode⟩

def bytes (self : FecHeader) : Bytes := be32 self.seqBase ++ ([self.window] ++ be32 self.dataLen)

theorem encode_eq (self : FecHeader) (buf : Bytes) (h : size ≤ buf.length) :
    self.encode buf = (.ok (), overwrite buf 0 self.bytes) := by
  have hlen : 9 ≤ buf.length := h
  rw [encode, if_neg (not_lt.mpr h)]
  simp (disch := first | (simp; done) | (simp; omega) | omega) only [overwrite_overwrite]
  simp [bytes]

theorem decode_bytes {self : FecHeader} (h : self.window ≠ 0) : decode self.bytes = .ok self := by
  have hlen : ¬self.bytes.length < size := by simp [bytes, size]
  have hseqBase : slice self.bytes 0 4 = be32 self.seqBase := by simp [bytes]
  have hwindow : self.bytes.getD 4 0 = self.window := by simp [bytes]
  have hdataLen : slice self.bytes 5 4 = be32 self.dataLen := by
    have hmid := slice_append_mid (be32 self.seqBase ++ [self.window]) (be32 self.dataLen) [] 5 4
      (by simp) (by simp)
    rwa [List.append_nil, List.append_assoc] at hmid
  rw [decode, if_neg hlen, hseqBase, hwindow, hdataLen, fromBe32_be32, fromBe32_be32]
  exact if_neg h

theorem bytes_decode {buf : Bytes} {self : FecHeader} (hlen : buf.length = 9)
    (h : decode buf = .ok self) : self.window ≠ 0 ∧ self.bytes = buf := by
  rw [decode, if_neg (by rw [hlen]; decide)] at h
  simp only at h
  split_ifs at h with hwindow
  obtain rfl := Except.ok.inj h
  refine ⟨hwindow, ?_⟩
  simp (disch := omega) only [bytes, be32_slice, singleton_getD, slice_join]
  exact slice_whole hlen

theorem follows : codec.Follows (fun self => self.window ≠ 0) bytes where
  length self := by simp [bytes, codec, size]
  encode_eq := encode_eq
  encode_short _ _ h := ⟨_, if_pos h⟩
  decode_short _ h := ⟨_, if_pos h⟩
  decode_take buf := by
    simp (disch := decide) only [codec, decode, length_take_lt_iff, slice_take, getD_take]
  decode_bytes _ := decode_bytes
  bytes_decode _ _ := bytes_decode

end FecHeader

theorem field_follows {α : Type} {size : Nat} {bytes : α → Bytes} {read : Bytes → α}
    (hlength : ∀ value, (bytes value).length = size)
    (hread : ∀ value, read (bytes value) = value)
    (htake : ∀ buf, read (buf.take size) = read buf)
    (hbytes : ∀ buf : Bytes, buf.length = size → bytes (read buf) = buf) :
    BufCodec.Follows ⟨size,
      fun value buf =>
        if buf.length < size then (.error Error.bufferTooSmall, buf)
        else (.ok (), overwrite buf 0 (bytes value)),
      fun buf => if buf.length < size then .error .malformedPayload else .ok (read buf)⟩
        (fun _ => True) bytes where
  length := hlength
  encode_eq _ _ h := if_neg (not_lt.mpr h)
  encode_short _ _ h := ⟨_, if_pos h⟩
  decode_short _ h := ⟨_, if_pos h⟩
  decode_take buf := by simp only [length_take_lt_iff, htake]
  decode_bytes value _ := by simp only [hlength, lt_self_iff_false, if_false, hread]
  bytes_decode buf value hlen h := by
    simp only [hlen, lt_self_iff_false, if_false] at h
    obtain rfl := Except.ok.inj h
    exact ⟨trivial, hbytes buf hlen⟩

theorem read_be32 (value : UInt32) : fromBe32 (slice (be32 value) 0 4) = value := by
  rw [slice_whole (length_be32 value), fromBe32_be32]

theorem be32_read {buf : Bytes} (h : buf.length = 4) : be32 (fromBe32 (slice buf 0 4)) = buf := by
  rw [be32_slice h.ge, slice_whole h]

namespace ControlBitrateMsg

def codec : BufCodec ControlBitrateMsg Error := ⟨size, encode, decode⟩

def bytes (self : ControlBitrateMsg) : Bytes := be32 self.requestedBitrate

theorem follows : codec.Follows (fun _ => True) bytes :=
  @field_follows _ 4 bytes (fun buf => ⟨fromBe32 (slice buf 0 4)⟩) (fun _ => length_be32 _)
    (fun self => congrArg mk (read_be32 _))
    (fun buf => by simp (disch := decide) only [slice_take]) fun _ => be32_read

end ControlBitrateMsg

namespace AuthChallengeMsg

def codec : BufCodec AuthChallengeMsg Error := ⟨size, encode, decode⟩

def bytes (self : AuthChallengeMsg) : Bytes := self.nonce.toList

theorem follows : codec.Follows (fun _ => True) bytes := by
  refine @field_follows _ 32 bytes (fun buf => ⟨readVector 32 buf 0⟩) (fun _ => by simp [bytes])
    (fun self => ?_) (fun buf => by simp (disch := decide) only [readVector_take]) fun buf hlen => ?_
  · exact congrArg mk (readVector_eq _ _ _ _ (by simp [bytes]) (by simp [bytes]))
  · rw [bytes, toList_readVector _ _ _ hlen.ge, slice_whole hlen]

end AuthChallengeMsg

namespace FloorPayload

def codec : BufCodec FloorPayload Error := ⟨size, encode, decode⟩

def bytes (self : FloorPayload) : Bytes := be32 self.ssrc

theorem follows : codec.Follows (fun _ => True) bytes :=
  @field_follows _ 4 bytes (fun buf => ⟨fromBe32 (slice buf 0 4)⟩) (fun _ => length_be32 _)
    (fun self => congrArg mk (read_be32 _))
    (fun buf => by simp (disch := decide) only [slice_take]) fun _ => be32_read

end FloorPayload

namespace AuthResponseMsg

def codec : BufCodec AuthResponseMsg Error := ⟨size, encode, decode⟩

def bytes (self : AuthResponseMsg) : Bytes := self.publicKey.toList ++ self.signature.toList

theorem encode_eq (self : AuthResponseMsg) (buf : Bytes) (h : size ≤ buf.length) :
    self.encode buf = (.ok (), overwrite buf 0 self.bytes) := by
  have hlen : 96 ≤ buf.length := h
  rw [encode, if_neg (not_lt.mpr h)]
  simp (disch := first | (simp; done) | (simp; omega) | omega) only [overwrite_overwrite]
  rfl

theorem decode_bytes (self : AuthResponseMsg) : decode self.bytes = .ok self := by
  have hlen : ¬self.bytes.length < size := by simp [bytes, size]
  have hkey : readVector 32 self.bytes 0 = self.publicKey :=
    readVector_eq _ _ _ _ (by simp [bytes]) (by simp [bytes])
  have hsignature : readVector 64 self.bytes 32 = self.signature :=
    readVector_eq _ _ _ _ (by simp [bytes]) (by simp [slice, bytes])
  rw [decode, if_neg hlen, hkey, hsignature]

theorem bytes_decode {buf : Bytes} {self : AuthResponseMsg} (hlen : buf.length = 96)
    (h : decode buf = .ok self) : self.bytes = buf := by
  rw [decode, if_neg (by rw [hlen]; decide)] at h
  obtain rfl := Except.ok.inj h
  simp (disch := omega) only [bytes, toList_readVector, slice_join]
  exact slice_whole hlen

theorem follows : codec.Follows (fun _ => True) bytes where
  length self := by simp [bytes, codec, size]
  encode_eq := encode_eq
  encode_short _ _ h := ⟨_, if_pos h⟩
  decode_short _ h := ⟨_, if_pos h⟩
  decode_take buf := by
    simp (disch := decide) only [codec, decode, length_take_lt_iff, readVector_take]
  decode_bytes self _ := self.decode_bytes
  bytes_decode _ _ hlen h := ⟨trivial, bytes_decode hlen h⟩

end AuthResponseMsg

namespace FragmentHeader

def codec : BufCodec FragmentHeader Error := ⟨size, encode, decode⟩

def Valid (self : FragmentHeader) : Prop :=
  1 ≤ self.total ∧ self.total ≤ maxFragments ∧ self.index < self.total

def bytes (self : FragmentHeader) : Bytes := be16 self.index ++ be16 self.total

theorem valid_iff (self : FragmentHeader) :
    self.Valid ↔ ¬(self.total = 0 ∨ self.total > maxFragments) ∧ ¬self.index ≥ self.total := by
  have hone : 1 ≤ self.total ↔ self.total ≠ 0 := by
    rw [UInt16.le_iff_toNat_le, ne_eq, ← UInt16.toNat_inj]
    change 1 ≤ _ ↔ _ ≠ 0
    omega
  rw [Valid, hone, not_or, gt_iff_lt, UInt16.not_lt, ge_iff_le, UInt16.not_le, and_assoc]

theorem encode_eq (self : FragmentHeader) (buf : Bytes) (h : size ≤ buf.length) :
    self.encode buf = (.ok (), overwrite buf 0 self.bytes) := by
  have hlen : 4 ≤ buf.length := h
  rw [encode, if_neg (not_lt.mpr h)]
  simp (disch := first | (simp; done) | (simp; omega) | omega) only [overwrite_overwrite]
  rfl

theorem decode_bytes {self : FragmentHeader} (h : self.Valid) : decode self.bytes = .ok self := by
  obtain ⟨htotal, hindex⟩ := self.valid_iff.mp h
  have hlen : ¬self.bytes.length < size := by simp [bytes, size, fragmentSubheaderSize]
  have hindex' : slice self.bytes 0 2 = be16 self.index := by simp [bytes]
  have htotal' : slice self.bytes 2 2 = be16 self.total := by simp [slice, bytes]
  rw [decode, if_neg hlen, hindex', htotal', fromBe16_be16, fromBe16_be16]
  exact (if_neg htotal).trans (if_neg hindex)

theorem bytes_decode {buf : Bytes} {self : FragmentHeader} (hlen : buf.length = 4)
    (h : decode buf = .ok self) : self.Valid ∧ self.bytes = buf := by
  rw [decode, if_neg (by rw [hlen]; decide)] at h
  simp only at h
  split_ifs at h with htotal hindex
  obtain rfl := Except.ok.inj h
  refine ⟨(valid_iff _).mpr ⟨htotal, hindex⟩, ?_⟩
  simp (disch := omega) only [bytes, be16_slice, slice_join]
  exact slice_whole hlen

theorem follows : codec.Follows Valid bytes where
  length self := by simp [bytes, codec, size, fragmentSubheaderSize]
  encode_eq := encode_eq
  encode_short _ _ h := ⟨_, if_pos h⟩
  decode_short _ h := ⟨_, if_pos h⟩
  decode_take buf := by
    simp (disch := decide) only [codec, decode, length_take_lt_iff, slice_take]
  decode_bytes _ := decode_bytes
  bytes_decode _ _ := bytes_decode

end FragmentHeader

/-- The ten payload codecs are their own inverses: on every value, a FEC header with an empty window
and a sub-header out of range excepted. -/
theorem payload_codecs_exact :
    ClientHello.codec.Exact (fun _ => True) ∧ ServerHello.codec.Exact (fun _ => True) ∧
    KeyExchangeMsg.codec.Exact (fun _ => True) ∧ SessionConfirm.codec.Exact (fun _ => True) ∧
    FecHeader.codec.Exact (fun self => self.window ≠ 0) ∧
    ControlBitrateMsg.codec.Exact (fun _ => True) ∧ AuthChallengeMsg.codec.Exact (fun _ => True) ∧
    AuthResponseMsg.codec.Exact (fun _ => True) ∧ FloorPayload.codec.Exact (fun _ => True) ∧
    FragmentHeader.codec.Exact FragmentHeader.Valid :=
  ⟨ClientHello.follows.exact, ServerHello.follows.exact, KeyExchangeMsg.follows.exact,
    SessionConfirm.follows.exact, FecHeader.follows.exact, ControlBitrateMsg.follows.exact,
    AuthChallengeMsg.follows.exact, AuthResponseMsg.follows.exact, FloorPayload.follows.exact,
    FragmentHeader.follows.exact⟩

end GravitalTalk.Core
