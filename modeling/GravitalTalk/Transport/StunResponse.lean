import GravitalTalk.Transport.Stun

/-! What the parser of STUN responses returns: for a response made of attributes, the address they
announce, and for any other bytes at all, an answer. -/
namespace GravitalTalk.Transport.Stun
open Lib GravitalTalk.Core

def valueAddress (val : Bytes) : Option (UInt32 × UInt16) :=
  if 8 ≤ val.length ∧ val.getD 1 0 = familyIpv4 then
    some (fromBe32 (slice val 4 4), fromBe16 (slice val 2 2))
  else none

def unmasked (address : UInt32 × UInt16) : SocketAddr :=
  .v4 (address.1 ^^^ 0x2112A442) (address.2 ^^^ 0x2112)

def plain (address : UInt32 × UInt16) : SocketAddr := .v4 address.1 address.2

def xorMapped (attrType : UInt16) (val : Bytes) : Option SocketAddr :=
  if attrType = attrXorMappedAddress then (valueAddress val).map unmasked else none

def mapped (attrType : UInt16) (val : Bytes) : Option SocketAddr :=
  if attrType = attrMappedAddress then (valueAddress val).map plain else none

theorem parseAddress_eq (make : UInt32 → UInt16 → SocketAddr) (val : Bytes) :
    parseAddress make val = some ((valueAddress val).map fun address => make address.1 address.2) := by
  unfold parseAddress valueAddress
  by_cases hlen : val.length < 8
  · rw [if_pos hlen, if_neg fun h => absurd h.1 (not_le.mpr hlen)]
    rfl
  · have hfamily : val[1]? = some (val.getD 1 0) := by
      rw [List.getD_eq_getElem?_getD, List.getElem?_eq_getElem (by omega)]
      rfl
    rw [if_neg hlen, hfamily, checkedBe16_eq (by omega), checkedBe32_eq (by omega)]
    by_cases hipv4 : val.getD 1 0 = familyIpv4
    · rw [if_pos ⟨not_lt.mp hlen, hipv4⟩]
      exact if_neg (not_not.mpr hipv4)
    · rw [if_neg fun h => hipv4 h.2]
      exact if_pos hipv4

theorem parseXorMappedAddress_eq (val : Bytes) :
    parseXorMappedAddress val = some ((valueAddress val).map unmasked) := parseAddress_eq _ val

theorem parseMappedAddress_eq (val : Bytes) :
    parseMappedAddress val = some ((valueAddress val).map plain) := parseAddress_eq _ val

section Loop
variable {buf : Bytes} {stop pos : Nat} {fallback : Option SocketAddr}

theorem attributes_end (h : ¬pos + 4 ≤ stop) : attributes buf stop pos fallback = some fallback := by
  rw [attributes, if_neg h]

theorem attributes_step (hstop : stop ≤ buf.length) (hpos : pos + 4 ≤ stop) :
    attributes buf stop pos fallback =
      let attrType := fromBe16 (slice buf pos 2)
      let attrLen := (fromBe16 (slice buf (pos + 2) 2)).toNat
      let attrVal := slice buf (pos + 4) attrLen
      if pos + 4 + attrLen > stop then some fallback
      else (xorMapped attrType attrVal).elim
        (attributes buf stop (pos + 4 + padded attrLen) ((mapped attrType attrVal).or fallback))
        fun addr => some (some addr) := by
  rw [attributes, if_pos hpos, checkedBe16_eq (by omega), checkedBe16_eq (by omega)]
  simp only [Option.bind_eq_bind, Option.bind_some]
  by_cases hfits : pos + 4 + (fromBe16 (slice buf (pos + 2) 2)).toNat > stop
  · rw [if_pos hfits, if_pos hfits]
    rfl
  · rw [if_neg hfits, if_neg hfits, checkedSlice_eq (by omega)]
    simp only [Option.bind_some, xorMapped, mapped, parseXorMappedAddress_eq, parseMappedAddress_eq]
    by_cases hxor : fromBe16 (slice buf pos 2) = attrXorMappedAddress
    · have hmapped : attrXorMappedAddress ≠ attrMappedAddress := by decide
      rw [if_pos hxor, if_pos hxor, hxor, if_neg hmapped]
      cases valueAddress (slice buf (pos + 4) (fromBe16 (slice buf (pos + 2) 2)).toNat) <;> rfl
    · rw [if_neg hxor, if_neg hxor]
      by_cases hmapped : fromBe16 (slice buf pos 2) = attrMappedAddress
      · rw [if_pos hmapped, if_pos hmapped]
        cases valueAddress (slice buf (pos + 4) (fromBe16 (slice buf (pos + 2) 2)).toNat) <;> rfl
      · rw [if_neg hmapped, if_neg hmapped]
        rfl

/-- The loop comes to an end inside the buffer. -/
theorem attributes_total (hstop : stop ≤ buf.length) :
    ∃ result, attributes buf stop pos fallback = some result := by
  induction hleft : stop - pos using Nat.strong_induction_on generalizing pos fallback with
  | _ left ih =>
    by_cases hpos : pos + 4 ≤ stop
    · rw [attributes_step hstop hpos]
      simp only
      split_ifs
      · exact ⟨_, rfl⟩
      · cases xorMapped (fromBe16 (slice buf pos 2))
          (slice buf (pos + 4) (fromBe16 (slice buf (pos + 2) 2)).toNat) with
        | some addr => exact ⟨_, rfl⟩
        | none => exact ih _ (by omega) rfl
    · exact ⟨_, attributes_end hpos⟩

end Loop

/-- An attribute with the bytes that fill it up to a multiple of 4. -/
structure Attribute where
  attrType : UInt16
  value : Bytes
  padding : Bytes
  length_padding : value.length + padding.length = padded value.length

def Attribute.bytes (self : Attribute) : Bytes :=
  be16 self.attrType ++ (be16 (UInt16.ofNat self.value.length) ++ (self.value ++ self.padding))

def response (txId : Vector UInt8 12) (attrs : List Attribute) : Bytes :=
  let body := attrs.flatMap Attribute.bytes
  be16 bindingResponse ++ (be16 (UInt16.ofNat body.length) ++
    (be32 magicCookie ++ (txId.toList ++ body)))

/-- What a response announces: its first masked address, else its last plain one. -/
def announced (attrs : List Attribute) : Option SocketAddr :=
  (attrs.findSome? fun attr => xorMapped attr.attrType attr.value).or
    (attrs.reverse.findSome? fun attr => mapped attr.attrType attr.value)

theorem Attribute.length_bytes (self : Attribute) :
    self.bytes.length = 4 + padded self.value.length := by
  have hpadding := self.length_padding
  simp only [bytes, List.length_append, length_be16]
  omega

theorem Attribute.slices (self : Attribute) (front back : Bytes) (h : self.value.length < 2 ^ 16) :
    fromBe16 (slice (front ++ self.bytes ++ back) front.length 2) = self.attrType ∧
      (fromBe16 (slice (front ++ self.bytes ++ back) (front.length + 2) 2)).toNat =
        self.value.length ∧
      slice (front ++ self.bytes ++ back) (front.length + 4) self.value.length = self.value := by
  have hlength : (UInt16.ofNat self.value.length).toNat = self.value.length :=
    UInt16.toNat_ofNat_of_lt' h
  refine ⟨?_, ?_, ?_⟩
  · rw [bytes, List.append_assoc, List.append_assoc,
      slice_append_mid front _ _ _ 2 rfl (length_be16 _).symm, fromBe16_be16]
  · have hbuf : front ++ self.bytes ++ back = (front ++ be16 self.attrType) ++
        (be16 (UInt16.ofNat self.value.length) ++ (self.value ++ self.padding ++ back)) := by
      simp only [bytes, List.append_assoc]
    rw [hbuf, slice_append_mid _ _ _ _ 2 (by simp) (length_be16 _).symm, fromBe16_be16, hlength]
  · have hbuf : front ++ self.bytes ++ back =
        (front ++ be16 self.attrType ++ be16 (UInt16.ofNat self.value.length)) ++
          (self.value ++ (self.padding ++ back)) := by
      simp only [bytes, List.append_assoc]
    rw [hbuf, slice_append_mid _ _ _ _ _ (by simp) rfl]

theorem attributes_serialised (attrs : List Attribute) (front trailing : Bytes)
    (fallback : Option SocketAddr) (hlen : (attrs.flatMap Attribute.bytes).length < 2 ^ 16) :
    attributes (front ++ (attrs.flatMap Attribute.bytes ++ trailing))
        (front.length + (attrs.flatMap Attribute.bytes).length) front.length fallback =
      some ((attrs.findSome? fun attr => xorMapped attr.attrType attr.value).or
        ((attrs.reverse.findSome? fun attr => mapped attr.attrType attr.value).or fallback)) := by
  induction attrs generalizing front fallback with
  | nil =>
    rw [attributes_end (by simp)]
    rfl
  | cons attr attrs ih =>
    have hflat : (attr :: attrs).flatMap Attribute.bytes =
        attr.bytes ++ attrs.flatMap Attribute.bytes := List.flatMap_cons
    have hbytes := attr.length_bytes
    have hpadded : attr.value.length ≤ padded attr.value.length := by
      unfold padded
      omega
    rw [hflat, List.length_append] at hlen
    have hvalue : attr.value.length < 2 ^ 16 := by omega
    set rest := attrs.flatMap Attribute.bytes with hrest
    have hbuf : front ++ (attr.bytes ++ rest ++ trailing) =
        front ++ attr.bytes ++ (rest ++ trailing) := by simp only [List.append_assoc]
    rw [hflat, hbuf]
    obtain ⟨htype, hlength, hval⟩ := attr.slices front (rest ++ trailing) hvalue
    rw [attributes_step (by simp only [List.length_append]; omega)
      (by rw [List.length_append]; omega)]
    simp only [htype, hlength, hval]
    have hfits : ¬front.length + 4 + attr.value.length >
        front.length + (attr.bytes ++ rest).length := by
      rw [List.length_append]
      omega
    rw [if_neg hfits, List.findSome?_cons, List.reverse_cons, List.findSome?_append]
    cases xorMapped attr.attrType attr.value with
    | some addr => rfl
    | none =>
      have hnext : front.length + 4 + padded attr.value.length = (front ++ attr.bytes).length := by
        rw [List.length_append]
        omega
      have hend : front.length + (attr.bytes ++ rest).length =
          (front ++ attr.bytes).length + rest.length := by
        simp only [List.length_append]
        omega
      rw [Option.elim_none, hnext, hend, ih (front ++ attr.bytes) _ (by omega)]
      simp only [List.findSome?_cons, List.findSome?_nil]
      rw [Option.or_assoc]
      cases mapped attr.attrType attr.value <;> rfl

structure Matches (buf : Bytes) (txId : Vector UInt8 12) : Prop where
  length : 20 ≤ buf.length
  msgType : fromBe16 (slice buf 0 2) = bindingResponse
  declared : 20 + (fromBe16 (slice buf 2 2)).toNat ≤ buf.length
  magic : fromBe32 (slice buf 4 4) = magicCookie
  txId : slice buf 8 12 = txId.toList

theorem parseBindingResponse_of_matches {buf : Bytes} {txId : Vector UInt8 12}
    (h : Matches buf txId) : parseBindingResponse buf txId =
      attributes buf (20 + (fromBe16 (slice buf 2 2)).toNat) 20 none := by
  have hlen := h.length
  unfold parseBindingResponse
  rw [if_neg (not_lt.mpr hlen), checkedBe16_eq (by omega), checkedBe16_eq (by omega),
    checkedBe32_eq (by omega), checkedSlice_eq (by omega)]
  simp only [Option.bind_eq_bind, Option.bind_some]
  rw [if_neg (not_not.mpr h.msgType), if_neg (not_lt.mpr h.declared), if_neg (not_not.mpr h.magic),
    if_neg (not_not.mpr h.txId)]

theorem parseBindingResponse_of_not_matches {buf : Bytes} {txId : Vector UInt8 12}
    (h : ¬Matches buf txId) : parseBindingResponse buf txId = some none := by
  unfold parseBindingResponse
  by_cases hlen : buf.length < 20
  · exact if_pos hlen
  rw [if_neg hlen, checkedBe16_eq (by omega), checkedBe16_eq (by omega),
    checkedBe32_eq (by omega), checkedSlice_eq (by omega)]
  simp only [Option.bind_eq_bind, Option.bind_some]
  by_cases hmsgType : fromBe16 (slice buf 0 2) = bindingResponse
  · rw [if_neg (not_not.mpr hmsgType)]
    by_cases hdeclared : buf.length < 20 + (fromBe16 (slice buf 2 2)).toNat
    · exact if_pos hdeclared
    rw [if_neg hdeclared]
    by_cases hmagic : fromBe32 (slice buf 4 4) = magicCookie
    · rw [if_neg (not_not.mpr hmagic)]
      apply if_pos
      intro htxId
      exact h ⟨not_lt.mp hlen, hmsgType, not_lt.mp hdeclared, hmagic, htxId⟩
    · exact if_pos hmagic
  · exact if_pos hmsgType

theorem response_matches (txId : Vector UInt8 12) (attrs : List Attribute) (trailing : Bytes)
    (hlen : (attrs.flatMap Attribute.bytes).length < 2 ^ 16) :
    Matches (response txId attrs ++ trailing) txId ∧
      (fromBe16 (slice (response txId attrs ++ trailing) 2 2)).toNat =
        (attrs.flatMap Attribute.bytes).length := by
  set body := attrs.flatMap Attribute.bytes with hbody
  have hlength : (UInt16.ofNat body.length).toNat = body.length := UInt16.toNat_ofNat_of_lt' hlen
  have hdeclared : slice (response txId attrs ++ trailing) 2 2 = be16 (UInt16.ofNat body.length) := by
    have hbuf : response txId attrs ++ trailing = be16 bindingResponse ++
        (be16 (UInt16.ofNat body.length) ++ (be32 magicCookie ++ (txId.toList ++ body) ++ trailing)) := by
      simp only [response, List.append_assoc, hbody]
    rw [hbuf, slice_append_mid _ _ _ _ _ (length_be16 _).symm (length_be16 _).symm]
  have htotal : (response txId attrs ++ trailing).length = 20 + body.length + trailing.length := by
    simp only [response, List.length_append, length_be16, length_be32, Vector.length_toList, ← hbody]
    omega
  refine ⟨⟨by omega, ?_, ?_, ?_, ?_⟩, ?_⟩
  · rw [slice_zero, response, List.append_assoc, List.take_left' (length_be16 _), fromBe16_be16]
  · rw [hdeclared, fromBe16_be16, hlength]
    omega
  · have hbuf : response txId attrs ++ trailing =
        (be16 bindingResponse ++ be16 (UInt16.ofNat body.length)) ++
          (be32 magicCookie ++ (txId.toList ++ body ++ trailing)) := by
      simp only [response, List.append_assoc, hbody]
    rw [hbuf, slice_append_mid _ _ _ _ _ (by simp) (length_be32 _).symm, fromBe32_be32]
  · have hbuf : response txId attrs ++ trailing =
        (be16 bindingResponse ++ be16 (UInt16.ofNat body.length) ++ be32 magicCookie) ++
          (txId.toList ++ (body ++ trailing)) := by
      simp only [response, List.append_assoc, hbody]
    rw [hbuf, slice_append_mid _ _ _ _ _ (by simp) (by simp)]
  · rw [hdeclared, fromBe16_be16, hlength]

/-- A response parses to what it announces, whatever follows it; and of any bytes the parser makes
something without reading outside them, and no address unless the header matches. -/
theorem binding_response_parsed :
    (∀ (txId : Vector UInt8 12) (attrs : List Attribute) (trailing : Bytes),
      (attrs.flatMap Attribute.bytes).length < 2 ^ 16 →
        parseBindingResponse (response txId attrs ++ trailing) txId = some (announced attrs)) ∧
    ∀ (buf : Bytes) (txId : Vector UInt8 12), ∃ result,
      parseBindingResponse buf txId = some result ∧ (¬Matches buf txId → result = none) := by
  constructor
  · intro txId attrs trailing hlen
    obtain ⟨hmatches, hdeclared⟩ := response_matches txId attrs trailing hlen
    rw [parseBindingResponse_of_matches hmatches, hdeclared]
    set front := be16 bindingResponse ++ (be16 (UInt16.ofNat (attrs.flatMap Attribute.bytes).length) ++
      (be32 magicCookie ++ txId.toList)) with hfront
    have hbuf : response txId attrs ++ trailing =
        front ++ (attrs.flatMap Attribute.bytes ++ trailing) := by
      simp only [response, List.append_assoc, hfront]
    have hpos : front.length = 20 := by simp [hfront]
    have hloop := attributes_serialised attrs front trailing none hlen
    rw [hpos, Option.or_none] at hloop
    rw [hbuf]
    exact hloop
  · intro buf txId
    by_cases hmatches : Matches buf txId
    · obtain ⟨result, hresult⟩ := @attributes_total buf _ 20 none hmatches.declared
      exact ⟨result, (parseBindingResponse_of_matches hmatches).trans hresult, absurd hmatches⟩
    · exact ⟨none, parseBindingResponse_of_not_matches hmatches, fun _ => rfl⟩

/-- A plain address after an attribute of odd length, with three bytes behind the response. -/
theorem binding_response_parsed_plain :
    parseBindingResponse (response (Vector.replicate 12 7)
        [⟨0x8022, [1], [0, 0, 0], rfl⟩, ⟨0x0001, [0, 1, 0, 80, 10, 0, 0, 1], [], rfl⟩] ++ [1, 2, 3])
      (Vector.replicate 12 7) = some (some (.v4 0x0A000001 80)) :=
  binding_response_parsed.1 _ _ _ (by decide)

end GravitalTalk.Transport.Stun
