import GravitalTalk.Core.Constants

/-! Fragments of a frame larger than the payload limit: the sub-header of each fragment, and the
reassembler that holds them until the frame is whole. -/
namespace GravitalTalk.Core
open Lib

structure FragmentHeader where
  index : UInt16
  total : UInt16
  deriving DecidableEq, Repr

namespace FragmentHeader

def size : Nat := fragmentSubheaderSize

def encode (self : FragmentHeader) (buf : Bytes) : Except Error Unit × Bytes :=
  if buf.length < size then (.error .bufferTooSmall, buf)
  else
    let buf := overwrite buf 0 (be16 self.index)
    let buf := overwrite buf 2 (be16 self.total)
    (.ok (), buf)

def decode (buf : Bytes) : Except Error FragmentHeader :=
  if buf.length < size then .error .malformedPayload
  else
    let index := fromBe16 (slice buf 0 2)
    let total := fromBe16 (slice buf 2 2)
    if total = 0 ∨ total > maxFragments then .error .tooManyFragments
    else if index ≥ total then .error .fragmentOutOfRange
    else .ok ⟨index, total⟩

end FragmentHeader

structure FragmentReassembler where
  expectedTotal : UInt16
  buffers : List (Option Bytes)
  received : UInt16
  deriving DecidableEq, Repr

namespace FragmentReassembler

def new (total : UInt16) : Except Error FragmentReassembler :=
  if total = 0 ∨ total > maxFragments then .error .tooManyFragments
  else .ok ⟨total, List.replicate total.toNat none, 0⟩

def insert (self : FragmentReassembler) (index : UInt16) (payload : Bytes) :
    Except Error Unit × FragmentReassembler :=
  if index ≥ self.expectedTotal then (.error .fragmentOutOfRange, self)
  else if (self.buffers.getD index.toNat none).isSome then (.error .duplicateFragment, self)
  else
    (.ok (),
      { self with
        buffers := self.buffers.set index.toNat (some payload)
        received := self.received + 1 })

def isComplete (self : FragmentReassembler) : Bool := self.received == self.expectedTotal

/-- Empty slots are passed over. -/
def finish (self : FragmentReassembler) : Except Error Bytes :=
  if !self.isComplete then .error .incompleteReassembly
  else .ok (self.buffers.reduceOption.flatten)

end FragmentReassembler
end GravitalTalk.Core
