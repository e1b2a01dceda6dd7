import Replay.Enumeration
import Replay.Failure

/-!
The direction a fighter faces, which a payload gives by the sign of a number.
-/

namespace Replay

inductive Direction where
  | left
  | right
deriving DecidableEq

namespace Direction

def value : Direction → Int
  | .left => 0
  | .right => 1

def name : Direction → String
  | .left => "LEFT"
  | .right => "RIGHT"

instance : Enumeration Direction where
  title := "Direction"
  ofValue? := memberOf? [.left, .right] value
  value := value
  name := name

/-- A number without a sign of its own, zero or NaN, is refused. -/
def ofSign (x : Binary64) : Except Cause Direction :=
  if x.isBelowZero then .ok .left
  else if x.isAboveZero then .ok .right
  else .error (.direction x)

end Direction

end Replay
