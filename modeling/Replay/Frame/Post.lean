import Replay.Frame.Pre
import Replay.Frame.StateFlags

/-!
The event after a frame: what the game made of it.
-/

namespace Replay

abbrev LCancel := Code ⟨"LCancel", [(1, "SUCCESSFUL"), (2, "UNSUCCESSFUL")]⟩

abbrev HurtboxState := Code ⟨"HurtboxState",
  [(0, "VULNERABLE"), (1, "INVULNERABLE"), (2, "INTANGIBLE")]⟩

structure Velocities where
  selfInducedAirX : Binary64
  selfInducedY : Binary64
  knockbackX : Binary64
  knockbackY : Binary64
  selfInducedGroundX : Binary64

/-- The condition of a fighter, which the second addition holds. -/
structure Condition where
  flags : StateFlags
  miscAction : Binary64
  ground : Nat
  jumps : Nat
  lCancel : Option LCancel
  airborne : Bool

namespace Post

open Layout

/-- The part that every producer writes, behind the frame id. -/
structure Base where
  character : Nat
  state : Nat
  position : Position
  direction : Binary64
  damage : Binary64
  shield : Binary64
  lastAttackLanded : Nat
  comboCount : Nat
  lastHitBy : Nat
  stocks : Nat

def Base.layout : Layout Base :=
  Base.mk <$> named "character" u8
    <*> named "state" u16
    <*> (Position.mk <$> named "position_x" f32 <*> named "position_y" f32)
    <*> named "direction" f32
    <*> named "damage" f32
    <*> named "shield" f32
    <*> named "last_attack_landed" u8
    <*> named "combo_count" u8
    <*> named "last_hit_by" u8
    <*> named "stocks" u8

def stateAgeLayout : Layout Binary64 := named "state_age" f32

def conditionLayout : Layout Condition :=
  Condition.mk <$> named "flags" (StateFlags.ofBytes <$> block 5)
    <*> named "misc_as" f32
    <*> named "ground" u16
    <*> named "jumps" u8
    <*> named "l_cancel" ((fun n : Nat => Code.optional n) <$> u8)
    <*> named "airborne" flag

def hurtboxLayout : Layout HurtboxState :=
  (fun n : Nat => ⟨n⟩) <$> named "hurtbox_state" u8

def velocitiesLayout : Layout Velocities :=
  Velocities.mk <$> named "self_induced_air_x" f32
    <*> named "self_induced_y" f32
    <*> named "knockback_x" f32
    <*> named "knockback_y" f32
    <*> named "self_induced_ground_x" f32

def hitlagLayout : Layout Binary64 := named "hitlag" f32

def animationLayout : Layout Nat := named "animation_index" u32

/-- What newer producers append: the age of the action state, the condition, the state of the
hurtbox, the velocities, the frames of hitlag left, and the index of the animation. -/
abbrev Additions :=
  Extended Binary64 (Extended Condition (Extended HurtboxState (Extended Velocities
    (Extended Binary64 Nat))))

def Additions.reader : Reader Additions :=
  stateAgeLayout.extended (conditionLayout.extended (hurtboxLayout.extended
    (velocitiesLayout.extended (hitlagLayout.extended animationLayout.read))))

end Post

structure Post where
  index : Int
  character : Nat
  state : ActionState
  position : Position
  direction : Direction
  damage : Binary64
  shield : Binary64
  /-- Zero on the wire means that no attack has landed. -/
  lastAttackLanded : Option Nat
  comboCount : Nat
  lastHitBy : Nat
  stocks : Nat
  additions : Option Post.Additions

namespace Post

/-- The place of the frame, where the first one has place zero. -/
def place (post : Post) : Int :=
  post.index - firstFrame

def reader : Reader (FrameEvent Post) := do
  let id ← FrameId.layout.read
  let base ← Base.layout.read
  let direction ← .ofChecked (Direction.ofSign base.direction)
  let additions ← Additions.reader.ifAny
  pure {
    id
    event := {
      index := id.index
      character := base.character
      state := .ofRaw base.state base.character
      position := base.position
      direction
      damage := base.damage
      shield := base.shield
      lastAttackLanded := if base.lastAttackLanded = 0 then none else some base.lastAttackLanded
      comboCount := base.comboCount
      lastHitBy := base.lastHitBy
      stocks := base.stocks
      additions } }

/-- The event of a payload and the slots that it confirms. The slots change only if the whole
payload is sound. -/
def ofPayload (slots : Slots) (payload : Bytes) :
    Except Failure (FrameEvent Post × Slots) := do
  let post ← reader.onBytes payload
  match slots.update post.id post.event.character post.event.state with
  | .ok slots => pure (post, slots)
  | .error cause => throw (.ofCause cause)

end Post

end Replay
