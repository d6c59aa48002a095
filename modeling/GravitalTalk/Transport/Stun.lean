import GravitalTalk.Lib.Codec
import GravitalTalk.Transport.Session

/-! The parser of STUN binding responses.  Every read of the buffer is checked: `none` is a panic, and
`some none` is the answer that there is no address. -/
namespace GravitalTalk.Transport.Stun
open Lib GravitalTalk.Core

def magicCookie : UInt32 := 0x2112A442

def bindingResponse : UInt16 := 0x0101

def attrXorMappedAddress : UInt16 := 0x0020

def attrMappedAddress : UInt16 := 0x0001

def familyIpv4 : UInt8 := 0x01

/-- The checks and reads that the two address attributes share. -/
def parseAddress (make : UInt32 → UInt16 → SocketAddr) (val : Bytes) : Option (Option SocketAddr) :=
  if val.length < 8 then some none
  else do
    let family ← val[1]?
    if family ≠ familyIpv4 then return none
    else
      let port ← checkedBe16 val 2
      let addr ← checkedBe32 val 4
      return some (make addr port)

/-- The port is masked with the high half of the cookie, the address with all of it. -/
def parseXorMappedAddress : Bytes → Option (Option SocketAddr) :=
  parseAddress fun xAddr xPort =>
    .v4 (xAddr ^^^ magicCookie) (xPort ^^^ (magicCookie >>> 16).toUInt16)

def parseMappedAddress : Bytes → Option (Option SocketAddr) := parseAddress .v4

/-- Attributes are aligned to 4 bytes. -/
def padded (attrLen : Nat) : Nat := (attrLen + 3) / 4 * 4

/-- The loop over the attributes, from `pos` on. -/
def attributes (buf : Bytes) (stop pos : Nat) (fallback : Option SocketAddr) :
    Option (Option SocketAddr) :=
  if pos + 4 ≤ stop then do
    let attrType ← checkedBe16 buf pos
    let attrLen ← checkedBe16 buf (pos + 2)
    if pos + 4 + attrLen.toNat > stop then return fallback
    else
      let attrVal ← checkedSlice buf (pos + 4) attrLen.toNat
      let next := pos + 4 + padded attrLen.toNat
      if attrType = attrXorMappedAddress then
        match ← parseXorMappedAddress attrVal with
        | some addr => return some addr
        | none => attributes buf stop next fallback
      else if attrType = attrMappedAddress then
        match ← parseMappedAddress attrVal with
        | some addr => attributes buf stop next (some addr)
        | none => attributes buf stop next fallback
      else attributes buf stop next fallback
  else some fallback
termination_by stop - pos

def parseBindingResponse (buf : Bytes) (expectedTxId : Vector UInt8 12) :
    Option (Option SocketAddr) :=
  if buf.length < 20 then some none
  else do
    let msgType ← checkedBe16 buf 0
    if msgType ≠ bindingResponse then return none
    else
      let msgLen ← checkedBe16 buf 2
      if buf.length < 20 + msgLen.toNat then return none
      else
        let magic ← checkedBe32 buf 4
        if magic ≠ magicCookie then return none
        else
          let txId ← checkedSlice buf 8 12
          if txId ≠ expectedTxId.toList then return none
          else attributes buf (20 + msgLen.toNat) 20 none

end GravitalTalk.Transport.Stun
