import Replay.Stream.Events

/-!
The uses of one set of slots: the decoding of frame payloads, predictions, confirmations, and the
events of a stream. What a use has changed in the slots stays changed even if the use fails.
-/

namespace Replay

namespace Run

/-- Confirms a character and an action state, which gives the new state of their slot. -/
def confirm (id : FrameId) (character : Int) (action : ActionState) : Run SlotState := do
  let after ← .ofChecked ((← slots).update id character action)
  setSlots after
  .ofChecked (after.find id)

def predict (id : FrameId) : Run Int := do
  .ofChecked ((← slots).predict id)

/-- The event before a frame whose payload the source holds. -/
def readPre : Run (FrameEvent Pre) := do
  ofReader (Pre.reader (← slots))

/-- The event after a frame whose payload the source holds. It is confirmed at the very end. -/
def readPost : Run (FrameEvent Post) := do
  let post ← ofReader Post.reader
  let _ ← confirm post.id post.event.character post.event.state
  pure post

end Run

inductive Operation where
  | framePre (payload : Bytes)
  | framePost (payload : Bytes)
  | predict (id : FrameId)
  | update (id : FrameId) (character : Int) (action : ActionState)
  | readEvent (sink : Sink) (options : Options) (table : SizeTable) (index : Option Int)
    (source : Source)

/-- What an operation gives back. -/
inductive Answer where
  | pre (event : FrameEvent Pre)
  | post (event : FrameEvent Post)
  | character (character : Int)
  | state (state : SlotState)
  | event (record : EventRecord)

namespace Operation

def steps : Operation → Run Answer
  | .framePre _ => .pre <$> Run.readPre
  | .framePost _ => .post <$> Run.readPost
  | .predict id => .character <$> Run.predict id
  | .update id character action => .state <$> Run.confirm id character action
  | .readEvent sink options table index _ => .event <$> Run.readEvent sink options table index

/-- What the operation reads. -/
def source : Operation → Source
  | .framePre payload | .framePost payload => .ofBytes payload
  | .predict _ | .update .. => .ofBytes []
  | .readEvent _ _ _ _ source => source

def run (operation : Operation) (slots : Slots) : Except Failure Answer × Session :=
  operation.steps.run { source := operation.source, slots }

end Operation

end Replay
