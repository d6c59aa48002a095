import GravitalTalk.Lib.TableCrc

/-! CRC-16/CCITT-FALSE: polynomial `0x1021`, initial register `0xFFFF`, no final
exclusive or. -/
namespace GravitalTalk.Core.Checksum
open Lib Lib.TableCrc

def poly : UInt16 := 0x1021
def init : UInt16 := 0xFFFF

def table : Table := buildTable poly

def crc16Table (data : Bytes) : UInt16 := update table init data

/-- With `simd-crc` the accelerated branch also calls the table version. -/
def crc16CcittFalse (data : Bytes) : UInt16 := crc16Table data

def crc16TwoSegments (segmentA segmentB : Bytes) : UInt16 :=
  update table (update table init segmentA) segmentB

example : crc16CcittFalse [0x31, 0x32, 0x33] = crc16TwoSegments [0x31] [0x32, 0x33] := by
  simp [crc16CcittFalse, crc16Table, crc16TwoSegments, update]

end GravitalTalk.Core.Checksum
