import Mathlib.Logic.Function.Iterate

/-!
# The CRC-8 of packets and configuration blocks

`_crc8_ccitt_update` after the reference code in `test/util/crc16.c`: polynomial
0x07, most significant bit first. Packets and configuration blocks start the
register at zero.
-/

namespace BmsNode

/-- One turn of the bit loop: shift left and subtract the polynomial on carry. -/
def crc8Shift (data : UInt8) : UInt8 :=
  if data &&& 0x80 ≠ 0 then (data <<< 1) ^^^ 0x07 else data <<< 1

/-- `_crc8_ccitt_update`: fold one byte into the register. -/
def crc8CcittUpdate (inCrc inData : UInt8) : UInt8 :=
  crc8Shift^[8] (inCrc ^^^ inData)

/-- The register after a sequence of bytes, from an initial value of zero. -/
def crc8 (bytes : List UInt8) : UInt8 :=
  bytes.foldl crc8CcittUpdate 0

/-- One more byte is one more update. -/
@[simp] theorem crc8_concat (bytes : List UInt8) (byte : UInt8) :
    crc8 (bytes ++ [byte]) = crc8CcittUpdate (crc8 bytes) byte := by
  simp [crc8]

-- The PING frame for address 2 carries this check byte.
example : crc8 [0x00, 0x02, 0x01, 0x00] = 0xC3 := by decide +kernel

end BmsNode
