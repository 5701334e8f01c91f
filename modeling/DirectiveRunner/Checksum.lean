/-!
# CRC-32

The cyclic redundancy check of ISO 3309 with the reflected polynomial `0xEDB88320`: a register of 32
bits starts with all bits set, takes up the bytes one after the other, least significant bit first,
and is inverted at the end.
-/

namespace DirectiveRunner

namespace Crc32

/-- The polynomial, least significant bit first. -/
def polynomial : UInt32 := 0xEDB88320

/-- Moves the register on by one bit. -/
def shift (r : UInt32) : UInt32 :=
  if r &&& 1 = 1 then (r >>> 1) ^^^ polynomial else r >>> 1

/-- Takes up one byte. -/
def feed (r : UInt32) (b : UInt8) : UInt32 :=
  Nat.repeat shift 8 (r ^^^ b.toUInt32)

/-- The register after the bytes. -/
def register (bytes : List UInt8) : UInt32 := bytes.foldl feed 0xFFFFFFFF

end Crc32

/-- The CRC-32 of some bytes. -/
def checksum (bytes : ByteArray) : UInt32 := ~~~ Crc32.register bytes.data.toList

end DirectiveRunner
