/-!
The version of the producer of a replay.
-/

namespace Replay

/-- Versions are ordered by the major number, then the minor one, then the revision. -/
structure Version where
  major : Int
  minor : Int
  revision : Int
deriving DecidableEq, Ord

namespace Version

def text (v : Version) : String :=
  s!"{v.major}.{v.minor}.{v.revision}"

instance : LT Version := ltOfOrd

instance : LE Version := leOfOrd

end Version

end Replay
