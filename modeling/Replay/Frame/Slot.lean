import Replay.Layout

/-!
Whom a frame event is about. Each of the four ports has a leader and a follower, which makes eight
slots.
-/

namespace Replay

structure FrameId where
  index : Int
  port : Int
  isFollower : Bool

namespace FrameId

open Layout

def layout : Layout FrameId :=
  (fun index (port : Nat) isFollower => ⟨index, port, isFollower⟩)
    <$> named "index" i32 <*> named "port" u8 <*> named "is_follower" flag

/-- The slot, where leader and follower of one port are neighbours. There are four ports. -/
def slot (id : FrameId) : Except Cause (Fin 8) :=
  if h : 0 ≤ id.port ∧ id.port < 4 then
    .ok ⟨2 * id.port.toNat + id.isFollower.toNat, by
      have := id.isFollower.toNat_le
      omega⟩
  else .error (.port id.port)

end FrameId

/-- The first frame of a game has this index. -/
def firstFrame : Int := -123

/-- An event of one frame and whom it is about. -/
structure FrameEvent (α : Type) where
  id : FrameId
  event : α

end Replay
