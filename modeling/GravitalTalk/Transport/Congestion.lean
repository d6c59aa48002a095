import GravitalTalk.Core.Constants

/-! Additive increase, multiplicative decrease of the bitrate. -/
namespace GravitalTalk.Transport
open GravitalTalk.Core

structure CongestionController where
  currentBitrate : UInt32
  minBitrate : UInt32
  maxBitrate : UInt32
  min_le_max : minBitrate ≤ maxBitrate

/-- `value.clamp(low, high)`; the caller has `low ≤ high`. -/
def clamp (value low high : UInt32) : UInt32 :=
  if value < low then low else if value > high then high else value

namespace CongestionController

def rttThresholdUs : UInt64 := 150000

/-- `none` is the panic of `clamp` on an empty range. -/
def new (initialBitrate minBitrate maxBitrate : UInt32) : Option CongestionController :=
  let minBitrate := if minBitrate < congestionMinBitrate then congestionMinBitrate else minBitrate
  if h : minBitrate ≤ maxBitrate then
    some {
      currentBitrate := clamp initialBitrate minBitrate maxBitrate
      minBitrate := minBitrate
      maxBitrate := maxBitrate
      min_le_max := h }
  else none

/-- The loss rate is `lost / window` with the window of the loss tracker, 64 packets, at every call;
above 5 % means `lost * 20 > window`.  The factors `0.85` and
`0.95` are applied in double precision and truncated, which for 32-bit bitrates is the integer
quotient. -/
def update (self : CongestionController) (lost window : Nat) (rttUs : UInt64) :
    CongestionController :=
  let current := self.currentBitrate
  let newBitrate :=
    if lost * 20 > window then UInt32.ofNat (current.toNat * 17 / 20)
    else if rttUs > rttThresholdUs then UInt32.ofNat (current.toNat * 19 / 20)
    else UInt32.ofNat (min (current.toNat + congestionAimdIncrement.toNat) 0xFFFFFFFF)
  { self with currentBitrate := clamp newBitrate self.minBitrate self.maxBitrate }

def setBitrate (self : CongestionController) (bitrate : UInt32) : CongestionController :=
  { self with currentBitrate := clamp bitrate self.minBitrate self.maxBitrate }

end CongestionController
end GravitalTalk.Transport
