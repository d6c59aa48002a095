import GravitalTalk.Lib.Framing

/-! Capture of audio: the callbacks of the device collect samples and send them on in frames.  `usize`
is at least 64 bits wide, so the size of a frame does not overflow. -/
namespace GravitalTalk.Io

/-- `AudioCapture::start` computes it from the configuration of the device and the duration asked for,
checking neither. -/
def frameSamples (sampleRate : UInt32) (channels : UInt16) (frameDurationMs : UInt8) : Nat :=
  sampleRate.toNat * frameDurationMs.toNat / 1000 * channels.toNat

/-- The sending half of the channel: what has been sent, and how many frames the receiver is still there
for, `none` if it stays. -/
structure Sender where
  sent : List (List Int16)
  remaining : Option Nat
  deriving DecidableEq, Repr

def Sender.send (self : Sender) (frame : List Int16) : Bool × Sender :=
  match self.remaining with
  | some 0 => (false, self)
  | some (n + 1) => (true, ⟨self.sent ++ [frame], some n⟩)
  | none => (true, ⟨self.sent ++ [frame], none⟩)

structure Capture where
  accum : List Int16
  tx : Sender
  deriving DecidableEq, Repr

namespace Capture

def start : Capture := ⟨[], ⟨[], none⟩⟩

section Push
variable (frameSamples : Nat)

def pushEach {α : Type} (convert : α → Int16) : List α → Capture → Capture
  | [], self => self
  | s :: data, self =>
    let accum := self.accum ++ [convert s]
    if accum.length ≥ frameSamples then
      let (sent, tx) := self.tx.send accum
      if sent then pushEach convert data ⟨[], tx⟩ else ⟨[], tx⟩
    else pushEach convert data { self with accum := accum }

/-- `u.wrapping_sub(0x8000) as i16` -/
def u16ToI16 (u : UInt16) : Int16 := (u - 0x8000).toInt16

def pushU16 (data : List UInt16) (self : Capture) : Capture :=
  pushEach frameSamples u16ToI16 data self

/-- The loop over full frames; `none` if it is still running after so many turns. -/
def whileFull : Nat → Capture → Option Capture
  | 0, _ => none
  | turns + 1, self =>
    if self.accum.length ≥ frameSamples then
      let rest := self.accum.drop frameSamples
      let frame := self.accum.take frameSamples
      let (sent, tx) := self.tx.send frame
      if sent then whileFull turns ⟨rest, tx⟩ else some ⟨rest, tx⟩
    else some self

def pushI16 (turns : Nat) (data : List Int16) (self : Capture) : Option Capture :=
  whileFull frameSamples turns { self with accum := self.accum ++ data }

def runU16 (slices : List (List UInt16)) : Capture :=
  slices.foldl (fun self data => self.pushU16 frameSamples data) start

def runI16 (turns : Nat) (slices : List (List Int16)) : Option Capture :=
  slices.foldlM (fun self data => self.pushI16 frameSamples turns data) start

end Push
end Capture
end GravitalTalk.Io
