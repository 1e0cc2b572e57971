/-!
# Checksum

The cyclic redundancy check of 32 bits with the reflected polynomial `0xEDB88320`, computed one bit
at a time. The register starts with all bits set and is complemented at the end.
-/

namespace Scanout.Checksum

/-- The reflected polynomial. -/
def polynomial : UInt32 := 0xEDB88320

/-- One bit of the division. -/
def shift (r : UInt32) : UInt32 :=
  if r &&& 1 = 0 then r >>> 1 else (r >>> 1) ^^^ polynomial

/-- The register after one more byte. -/
def step (r : UInt32) (byte : UInt8) : UInt32 :=
  let r := r ^^^ byte.toUInt32
  shift (shift (shift (shift (shift (shift (shift (shift r)))))))

/-- The checksum of a run of bytes. -/
def crc32 (bytes : ByteArray) : UInt32 :=
  bytes.foldl step 0xFFFFFFFF ^^^ 0xFFFFFFFF

end Scanout.Checksum
