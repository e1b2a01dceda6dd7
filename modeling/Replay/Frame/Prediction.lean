import Replay.Frame.Action
import Replay.Frame.Slot

/-!
The characters in the slots. An event before a frame gives an action state without the character,
and two characters turn into each other. So the character is predicted from what was last confirmed
after a frame: if the transformation had reached its last frame there, it is over now.
-/

namespace Replay

/-- How one character turns into another: the action states for it on the ground and in the air,
the number of frames it lasts, and the character it ends in. -/
structure Transformation where
  ground : ActionState
  air : ActionState
  duration : Int
  result : Int

namespace Transformation

def sheik : Int := 7

def zelda : Int := 19

def of? (character : Int) : Option Transformation :=
  if character = zelda then
    some ⟨⟨353, some zelda⟩, ⟨355, some zelda⟩, 43, sheik⟩
  else if character = sheik then
    some ⟨⟨359, some sheik⟩, ⟨361, some sheik⟩, 36, zelda⟩
  else none

end Transformation

/-- The transformation that an action state may be part of. -/
def ActionState.transformation? (action : ActionState) : Option Transformation :=
  action.character.bind Transformation.of?

/-- What was last confirmed in a slot: the character, the action state, and for how many frames it
has lasted. -/
structure SlotState where
  character : Int
  action : ActionState
  age : Int

namespace SlotState

/-- No character turns into another on the first frame, so any character will do. -/
def initial : SlotState where
  character := 255
  action := .wait
  age := 0

def predict (last : SlotState) : Int :=
  match last.action.transformation? with
  | some t =>
    if (last.action = t.ground ∨ last.action = t.air) ∧ t.duration ≤ last.age then t.result
    else last.character
  | none => last.character

/-- The state after a frame that confirms a character and an action state. Between ground and air
a transformation goes on, but landing on its very last frame delays the end by one frame, so its
age stays below the duration. -/
def next (last : SlotState) (character : Int) (action : ActionState) : SlotState :=
  if character = last.character ∧ action = last.action then
    ⟨character, action, last.age + 1⟩
  else
    match action.transformation? with
    | some t =>
      if action = t.ground ∧ last.action = t.air ∨
          action = t.air ∧ last.action = t.ground then
        ⟨character, action, min (t.duration - 1) (last.age + 1)⟩
      else ⟨character, action, 0⟩
    | none => ⟨character, action, 0⟩

end SlotState

abbrev Slots := Vector SlotState 8

namespace Slots

def initial : Slots := .replicate 8 .initial

def find (slots : Slots) (id : FrameId) : Except Cause SlotState :=
  id.slot.map fun slot => slots[slot]

def predict (slots : Slots) (id : FrameId) : Except Cause Int :=
  (slots.find id).map (·.predict)

def update (slots : Slots) (id : FrameId) (character : Int) (action : ActionState) :
    Except Cause Slots :=
  id.slot.map fun (slot : Fin 8) => slots.set slot (slots[slot].next character action)

end Slots

end Replay
