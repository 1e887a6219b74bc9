/-
Baselib.Core.Checksum — `cs::crc_32_type`, the CRC-32 of Boost.CRC:
polynomial 04C11DB7, input and remainder reflected, initial remainder
and final exclusive-or all ones.

`process_bytes` goes on from the remainder of the octets before, so the
checksum of parts processed one after the other is that of the whole.
-/
import Baselib.Lib.Octets

namespace Baselib.Core

open Lib

/-- `crc_32_type`: the remainder so far. -/
structure Crc32 where
  remainder : UInt32
  deriving DecidableEq

namespace Crc32

def init : Crc32 := ⟨0xffffffff⟩

/-- One bit of an octet, the low one first. -/
def processBit (remainder : UInt32) : UInt32 :=
  if remainder &&& 1 = 1 then (remainder >>> 1) ^^^ 0xedb88320 else remainder >>> 1

def processByte (remainder : UInt32) (octet : UInt8) : UInt32 :=
  processBit (processBit (processBit (processBit (processBit (processBit (processBit (processBit
    (remainder ^^^ octet.toUInt32))))))))

/-- `process_bytes`. -/
def processBytes (crc : Crc32) (bytes : Octets) : Crc32 :=
  ⟨bytes.foldl processByte crc.remainder⟩

/-- `checksum`. -/
def checksum (crc : Crc32) : UInt32 := crc.remainder ^^^ 0xffffffff

/-- The checksum of one text. -/
def ofBytes (bytes : Octets) : UInt32 := (init.processBytes bytes).checksum

example : ofBytes (octets "123456789") = 0xcbf43926 := by decide +kernel

end Crc32

/-- The octets of a 32 bit integer in memory, the low one first. -/
def uint32Bytes (value : UInt32) : Octets :=
  [value.toUInt8, (value >>> 8).toUInt8, (value >>> 16).toUInt8, (value >>> 24).toUInt8]

end Baselib.Core
