import Replay.Frame.Direction
import Replay.Frame.Prediction

/-!
The event before a frame: what the game is about to work with.
-/

namespace Replay

structure Position where
  x : Binary64
  y : Binary64

structure TriggersPhysical where
  left : Binary64
  right : Binary64

structure Triggers where
  logical : Binary64
  physical : TriggersPhysical

structure Buttons where
  logical : Nat
  physical : Nat

namespace Pre

open Layout

/-- The part that every producer writes, behind the frame id. -/
structure Base where
  randomSeed : Nat
  state : Nat
  position : Position
  direction : Binary64
  joystick : Position
  cstick : Position
  triggerLogical : Binary64
  buttons : Buttons
  triggers : TriggersPhysical

def Base.layout : Layout Base :=
  Base.mk <$> named "random_seed" u32
    <*> named "state" u16
    <*> (Position.mk <$> named "position_x" f32 <*> named "position_y" f32)
    <*> named "direction" f32
    <*> (Position.mk <$> named "joystick_x" f32 <*> named "joystick_y" f32)
    <*> (Position.mk <$> named "cstick_x" f32 <*> named "cstick_y" f32)
    <*> named "trigger_logical" f32
    <*> (Buttons.mk <$> named "buttons_logical" u32 <*> named "buttons_physical" u16)
    <*> (TriggersPhysical.mk <$> named "trigger_l" f32 <*> named "trigger_r" f32)

def rawAnalogLayout : Layout Nat := named "raw_analog_x" u8

def damageLayout : Layout Binary64 := named "damage" f32

/-- What newer producers append: the raw analog value, and then the damage. -/
abbrev Additions := Extended Nat Binary64

def Additions.reader : Reader Additions :=
  rawAnalogLayout.extended damageLayout.read

end Pre

structure Pre where
  index : Int
  randomSeed : Nat
  state : ActionState
  position : Position
  direction : Direction
  joystick : Position
  cstick : Position
  triggers : Triggers
  buttons : Buttons
  additions : Option Pre.Additions

namespace Pre

/-- The place of the frame, where the first one has place zero. -/
def place (pre : Pre) : Int :=
  pre.index - firstFrame

def reader (slots : Slots) : Reader (FrameEvent Pre) := do
  let id ← FrameId.layout.read
  let character ← .ofChecked (slots.predict id)
  let base ← Base.layout.read
  let direction ← .ofChecked (Direction.ofSign base.direction)
  let additions ← Additions.reader.ifAny
  pure {
    id
    event := {
      index := id.index
      randomSeed := base.randomSeed
      state := .ofRaw base.state character
      position := base.position
      direction
      joystick := base.joystick
      cstick := base.cstick
      triggers := ⟨base.triggerLogical, base.triggers⟩
      buttons := base.buttons
      additions } }

def ofPayload (slots : Slots) (payload : Bytes) : Except Failure (FrameEvent Pre) :=
  (reader slots).onBytes payload

end Pre

end Replay
