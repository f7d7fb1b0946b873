import Mathlib.Logic.Function.Iterate

/-!
# The frame check of the serial link

`calc_crc` of `new_serial.c`, with plain `char` unsigned as on the ARM target.
-/

namespace BBCodeBase.SerialComm

abbrev Byte := BitVec 8

def crcBit (crc : BitVec 32) : BitVec 32 :=
  if crc &&& 0x0001#32 ≠ 0#32 then (crc >>> 1) ^^^ 0x8408#32 else crc >>> 1

def crcByte (crc : BitVec 32) (byte : Byte) : BitVec 32 :=
  crcBit^[8] (crc ^^^ byte.setWidth 32)

/-- `calc_crc(length, UPLOAD_PACKET)` on the `length` characters it reads. -/
def calcCrc (uploadPacket : List Byte) : BitVec 32 :=
  uploadPacket.foldl crcByte 0xFFFF#32 ^^^ 0xFFFF#32

/-- `low = (char)(comp_crc & 0x00FF)` -/
def crcLow (frame : List Byte) : Byte := (calcCrc frame &&& 0x00FF#32).setWidth 8

/-- `high = (char)(comp_crc >> 8)` -/
def crcHigh (frame : List Byte) : Byte := (calcCrc frame >>> 8).setWidth 8

/-- The END packet of the serial logs, whose checksum bytes are 46 and 236. -/
example :
    (crcLow [36, 8, 9, 48, 9, 69, 10, 13], crcHigh [36, 8, 9, 48, 9, 69, 10, 13]) =
      (46, 236) := by
  decide +kernel

end BBCodeBase.SerialComm
