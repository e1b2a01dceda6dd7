/-!
Floating-point numbers in the 64-bit interchange format. Replay files hold 32-bit words; each is
widened here without rounding, since every 32-bit value is also a 64-bit one.
-/

namespace Replay

/-- A number by the three fields of its 64-bit word. -/
structure Binary64 where
  negative : Bool
  exponent : Nat
  fraction : Nat
deriving DecidableEq

namespace Binary64

def isNaN (x : Binary64) : Bool :=
  x.exponent == 2047 && x.fraction != 0

def isZero (x : Binary64) : Bool :=
  x.exponent == 0 && x.fraction == 0

/-- Below zero; a NaN and a zero of either sign are not. -/
def isBelowZero (x : Binary64) : Bool :=
  x.negative && !x.isNaN && !x.isZero

/-- Above zero; a NaN and a zero of either sign are not. -/
def isAboveZero (x : Binary64) : Bool :=
  !x.negative && !x.isNaN && !x.isZero

def ofBits (word : Nat) : Binary64 where
  negative := word / 0x8000000000000000 % 2 == 1
  exponent := word / 0x10000000000000 % 0x800
  fraction := word % 0x10000000000000

def toBits (x : Binary64) : Nat :=
  (if x.negative then 0x8000000000000000 else 0) + x.exponent * 0x10000000000000 + x.fraction

/-- The number that a 32-bit word holds. The exponent moves from bias 127 to bias 1023, and the
fraction gets 29 more bits. A subnormal number is normal here: its leading bit moves out of the
fraction and into the exponent. -/
def ofSingle (word : Nat) : Binary64 :=
  let negative := word / 0x80000000 % 2 == 1
  let e := word / 0x800000 % 0x100
  let f := word % 0x800000
  if e = 255 then ⟨negative, 2047, f * 0x20000000⟩
  else if e ≠ 0 then ⟨negative, e + 896, f * 0x20000000⟩
  else if f = 0 then ⟨negative, 0, 0⟩
  else ⟨negative, f.log2 + 874, f <<< (52 - f.log2) % 0x10000000000000⟩

end Binary64

end Replay
