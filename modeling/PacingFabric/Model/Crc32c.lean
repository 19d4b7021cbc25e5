import PacingFabric.Model.Status
import Mathlib.Logic.Function.Iterate

/-!
# CRC-32C

The reflected Castagnoli checksum of the durable formats, one table lookup for each byte.
-/

namespace Pacing

namespace Crc32c

/-- `kPoly`. -/
def poly : UInt32 := 0x82F63B78

/-- One turn of the inner loop of `make_table`. -/
def bit (c : UInt32) : UInt32 :=
  if c &&& 1 ≠ 0 then poly ^^^ (c >>> 1) else c >>> 1

/-- `kTable`: the entry of each index. -/
def table (index : UInt8) : UInt32 := bit^[8] index.toUInt32

/-- One turn of the loop of `crc32c_extend`. -/
def byte (c : UInt32) (b : UInt8) : UInt32 :=
  table (c ^^^ b.toUInt32).toUInt8 ^^^ (c >>> 8)

end Crc32c

/-- `crc32c_extend`. -/
def crc32cExtend (seed : UInt32) (data : Bytes) : UInt32 :=
  ~~~(data.foldl Crc32c.byte (~~~seed))

def crc32c (data : Bytes) : UInt32 := crc32cExtend 0 data

-- the check value of the polynomial, of the digits "123456789"
example : crc32c [49, 50, 51, 52, 53, 54, 55, 56, 57] = 0xE3069283 := by decide +kernel

end Pacing
