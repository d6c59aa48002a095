import GravitalTalk.Lib.Bytes

/-! Protocol constants and the error type of the core crate. -/
namespace GravitalTalk.Core

def magicBytes : UInt8 × UInt8 := (0x47, 0x53)

def protocolVersion : UInt8 := 0x01
def protocolVersionMin : UInt8 := 0x01
def protocolVersionMax : UInt8 := 0x01

def headerSize : Nat := 24
def defaultMtu : Nat := 1200
def maxPayloadSize : Nat := defaultMtu - headerSize
def maxFragments : UInt16 := 16
def fragmentSubheaderSize : Nat := 4

def defaultSampleRate : UInt32 := 48000
def defaultFrameDurationMs : UInt8 := 20
def defaultJitterBufferMs : UInt16 := 40
def defaultMaxBitrate : UInt32 := 64000

def heartbeatTimeoutMs : UInt64 := 10000

def lossWindowSize : UInt32 := 64
def fecWindow : UInt8 := 4
def congestionMinBitrate : UInt32 := 8000
def congestionAimdIncrement : UInt32 := 2000

namespace Offsets
def magic : Nat := 0
def version : Nat := 2
def flags : Nat := 3
def msgType : Nat := 4
def reserved : Nat := 5
def sessionId : Nat := 8
def sequence : Nat := 12
def timestamp : Nat := 16
end Offsets

/-- Distances from the end of the packet, not from its start. -/
def payloadLenTailOffset : Nat := 4
def checksumTailOffset : Nat := 2

inductive Error where
  | tooShort
  | badMagic
  | protocolMismatch
  | lengthMismatch
  | badChecksum
  | unknownMessageType (code : UInt8)
  | bufferTooSmall
  | payloadTooLarge
  | tooManyFragments
  | fragmentOutOfRange
  | duplicateFragment
  | incompleteReassembly
  | invalidStateTransition
  | malformedPayload
  | decryptionFailed
  | reservedFieldNonZero
  | versionNegotiationFailed
  deriving DecidableEq, Repr

end GravitalTalk.Core
