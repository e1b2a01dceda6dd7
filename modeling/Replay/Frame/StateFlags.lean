import Replay.Bytes

/-!
The state flags of a fighter: one number, with names for some of its bits.
-/

namespace Replay

structure StateFlags where
  value : Nat

namespace StateFlags

/-- The named bits, from low to high. -/
def bitNames : List (Nat × String) := [
  (4, "REFLECT"),
  (10, "UNTOUCHABLE"),
  (11, "FAST_FALL"),
  (13, "HIT_LAG"),
  (23, "SHIELD"),
  (25, "HIT_STUN"),
  (26, "SHIELD_TOUCH"),
  (29, "POWER_SHIELD"),
  (35, "FOLLOWER"),
  (36, "SLEEP"),
  (38, "DEAD"),
  (39, "OFF_SCREEN")
]

/-- Adds the bits of a byte to a value, shifted to the place of the byte. -/
def join (value : Nat) (placed : UInt8 × Nat) : Nat :=
  value ||| placed.1.toNat <<< (8 * placed.2)

/-- The first byte holds the low bits. -/
def ofBytes (raw : Bytes) : StateFlags :=
  ⟨raw.zipIdx.foldl join 0⟩

def has (flags : StateFlags) (bit : Nat) : Bool :=
  flags.value.testBit bit

def names (flags : StateFlags) : List String :=
  (bitNames.filter fun (bit, _) => flags.has bit).map (·.2)

end StateFlags

end Replay
