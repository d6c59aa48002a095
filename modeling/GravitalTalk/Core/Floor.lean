import GravitalTalk.Core.Constants

/-! The floor: the permission to talk of a push-to-talk call, its state machine and the payload of
its messages. -/
namespace GravitalTalk.Core
open Lib

def floorTimeoutMs : UInt64 := 30000

inductive FloorState where
  | idle
  | requested
  | granted
  | released
  deriving DecidableEq, Repr

inductive FloorEvent where
  | request
  | grant
  | deny
  | release
  | taken
  | timeout
  | reset
  deriving DecidableEq, Repr

structure FloorTransitionError where
  source : FloorState
  event : FloorEvent
  deriving DecidableEq, Repr

structure FloorController where
  state : FloorState
  /-- 0 is nobody. -/
  holderSsrc : UInt32
  maxTransmitMs : UInt64
  deriving DecidableEq, Repr

namespace FloorController

def new (maxTransmitMs : UInt64) : FloorController := ⟨.idle, 0, maxTransmitMs⟩

def holder (self : FloorController) : UInt32 := self.holderSsrc

def isAvailable (self : FloorController) : Bool := self.state == .idle || self.state == .released

def isGranted (self : FloorController) : Bool := self.state == .granted

def isHolder (self : FloorController) (ssrc : UInt32) : Bool :=
  self.state == .granted && self.holderSsrc == ssrc

def next (self : FloorController) (event : FloorEvent) (ssrc : UInt32) :
    Option (FloorState × UInt32) :=
  match self.state, event with
  | .idle, .request => some (.requested, ssrc)
  | .idle, .reset => some (.idle, self.holderSsrc)
  | .idle, .grant => some (.granted, ssrc)
  | .requested, .grant => some (.granted, ssrc)
  | .requested, .deny => some (.idle, 0)
  | .requested, .taken => some (.granted, ssrc)
  | .requested, .reset | .requested, .timeout => some (.idle, 0)
  | .granted, .release => some (.released, 0)
  | .granted, .timeout => some (.released, 0)
  | .granted, .taken => some (.granted, ssrc)
  | .granted, .reset => some (.idle, 0)
  | .released, .reset | .released, .release => some (.idle, 0)
  | .released, .request => some (.requested, ssrc)
  | .released, .grant => some (.granted, ssrc)
  | _, _ => none

def transition (self : FloorController) (event : FloorEvent) (ssrc : UInt32) :
    Except FloorTransitionError FloorState × FloorController :=
  match self.next event ssrc with
  | some (state, holderSsrc) => (.ok state, { self with state := state, holderSsrc := holderSsrc })
  | none => (.error ⟨self.state, event⟩, self)

end FloorController

structure FloorPayload where
  ssrc : UInt32
  deriving DecidableEq, Repr

namespace FloorPayload

def size : Nat := 4

def encode (self : FloorPayload) (buf : Bytes) : Except Error Unit × Bytes :=
  if buf.length < size then (.error .bufferTooSmall, buf)
  else (.ok (), overwrite buf 0 (be32 self.ssrc))

def decode (buf : Bytes) : Except Error FloorPayload :=
  if buf.length < size then .error .malformedPayload else .ok ⟨fromBe32 (slice buf 0 4)⟩

end FloorPayload
end GravitalTalk.Core
