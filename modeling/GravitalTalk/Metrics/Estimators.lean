import GravitalTalk.Core.Constants

/-! Session metrics: counters, the loss bitmap, the jitter filter and the RTT cell.  The release
profile turns overflow checks off, so integer arithmetic wraps and a shift amount is reduced
modulo the width. -/
namespace GravitalTalk.Estimators
open GravitalTalk.Core

structure Counters where
  packetsSent : UInt64
  packetsReceived : UInt64
  bytesSent : UInt64
  bytesReceived : UInt64
  integrityErrors : UInt64
  deriving DecidableEq, Repr

namespace Counters

def new : Counters := ⟨0, 0, 0, 0, 0⟩

def recordSent (self : Counters) (bytes : UInt64) : Counters :=
  { self with packetsSent := self.packetsSent + 1, bytesSent := self.bytesSent + bytes }

def recordReceived (self : Counters) (bytes : UInt64) : Counters :=
  { self with packetsReceived := self.packetsReceived + 1
              bytesReceived := self.bytesReceived + bytes }

def recordIntegrityError (self : Counters) : Counters :=
  { self with integrityErrors := self.integrityErrors + 1 }

end Counters

structure LossTracker where
  bitmap : UInt64
  highSeq : UInt32
  totalPackets : UInt32
  reorderCount : UInt32
  initialised : UInt32
  deriving DecidableEq, Repr

namespace LossTracker

def new : LossTracker := ⟨0, 0, 0, 0, 0⟩

def record (self : LossTracker) (sequence : UInt32) : LossTracker :=
  if self.initialised = 0 then
    { self with highSeq := sequence, bitmap := 1, totalPackets := 1, initialised := 1 }
  else
    let diff := (sequence - self.highSeq).toInt32
    let self :=
      if diff > 0 then
        let shift := min diff.toUInt32 lossWindowSize
        { self with bitmap := self.bitmap <<< shift.toUInt64 ||| 1, highSeq := sequence }
      else if diff < 0 then
        let gap := (-diff).toUInt32
        let bitmap := if gap < lossWindowSize then self.bitmap ||| 1 <<< gap.toUInt64 else self.bitmap
        { self with bitmap := bitmap, reorderCount := self.reorderCount + 1 }
      else self
    { self with totalPackets := self.totalPackets + 1 }

/-- Packets missing from the window: the numerator of `loss_percent`, whose denominator is
`LOSS_WINDOW_SIZE`. -/
def lost (self : LossTracker) : Nat :=
  if self.initialised = 0 then 0
  else lossWindowSize.toNat - (List.range 64).countP fun i => self.bitmap.toNat.testBit i

end LossTracker

structure JitterEstimator where
  jitterUsQ4 : UInt32
  prevDiffUs : Int64
  deriving DecidableEq

namespace JitterEstimator

/-- `i64::MIN` stands for no sample. -/
def new : JitterEstimator := ⟨0, Int64.minValue⟩

def unsignedAbs (value : Int64) : UInt64 := if value < 0 then (-value).toUInt64 else value.toUInt64

def record (self : JitterEstimator) (sendTsUs recvTsUs : UInt64) : JitterEstimator :=
  let currentDiff := recvTsUs.toInt64 - sendTsUs.toInt64
  let prev := self.prevDiffUs
  if prev = Int64.minValue then { self with prevDiffUs := currentDiff }
  else
    let d := unsignedAbs (currentDiff - prev)
    let j := self.jitterUsQ4.toUInt64
    let newJ := if d > j then j + (d - j) / 16 else j - (j - d) / 16
    { jitterUsQ4 := (min newJ 0xFFFFFFFF).toUInt32, prevDiffUs := currentDiff }

end JitterEstimator

structure RttEstimator where
  rttUs : UInt32
  deriving DecidableEq, Repr

namespace RttEstimator

/-- `u32::MAX` stands for no sample. -/
def new : RttEstimator := ⟨0xFFFFFFFF⟩

def alphaNum : UInt64 := 1

def alphaDen : UInt64 := 8

def record (self : RttEstimator) (sampleUs : UInt32) : RttEstimator :=
  let prev := self.rttUs
  if prev = 0xFFFFFFFF then ⟨sampleUs⟩
  else
    let prev64 := prev.toUInt64
    let sample64 := sampleUs.toUInt64
    let diff :=
      if sample64 > prev64 then prev64 + (sample64 - prev64) * alphaNum / alphaDen
      else
        let part := (prev64 - sample64) * alphaNum / alphaDen
        if part ≤ prev64 then prev64 - part else 0
    ⟨(min diff 0xFFFFFFFF).toUInt32⟩

def currentUs (self : RttEstimator) : Option UInt32 :=
  if self.rttUs = 0xFFFFFFFF then none else some self.rttUs

end RttEstimator

structure Metrics where
  rtt : RttEstimator
  jitter : JitterEstimator
  loss : LossTracker
  counters : Counters
  deriving DecidableEq

namespace Metrics

def new : Metrics := ⟨.new, .new, .new, .new⟩

def recordSent (self : Metrics) (bytes : Nat) : Metrics :=
  { self with counters := self.counters.recordSent (UInt64.ofNat bytes) }

def recordReceived (self : Metrics) (bytes : Nat) : Metrics :=
  { self with counters := self.counters.recordReceived (UInt64.ofNat bytes) }

def recordIntegrityError (self : Metrics) : Metrics :=
  { self with counters := self.counters.recordIntegrityError }

end Metrics
end GravitalTalk.Estimators
