/-!
Byte strings and the numbers they stand for. Replay files write numbers with the leading byte
first; only the packed state flags go the other way.
-/

namespace Replay

abbrev Bytes := List UInt8

namespace Bytes

/-- The number whose digits in base 256 are the bytes, the leading digit first. -/
def unsigned (bytes : Bytes) : Nat :=
  bytes.foldl (fun n b => 256 * n + b.toNat) 0

/-- The number that the bytes write in two's complement. -/
def signed (bytes : Bytes) : Int :=
  let bound := Nat.pow 256 bytes.length
  if 2 * unsigned bytes < bound then unsigned bytes else unsigned bytes - bound

/-- What stands before the first zero byte. -/
def beforeZero (bytes : Bytes) : Bytes :=
  bytes.takeWhile (· != 0)

end Bytes

end Replay
