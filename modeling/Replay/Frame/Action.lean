/-!
What a fighter is doing.
-/

namespace Replay

/-- An action state by its number. The numbers below 341 mean the same for every character; the
others mean something only with the character they belong to. -/
structure ActionState where
  value : Int
  character : Option Int := none
deriving DecidableEq

namespace ActionState

def isCommon (action : ActionState) : Bool :=
  action.character.isNone

def ofRaw (value character : Int) : ActionState :=
  if value < 341 then { value } else { value, character := some character }

theorem ofRaw_natCast (n : Nat) (character : Int) :
    ofRaw n character = { value := n, character := if n < 341 then none else some character } := by
  have hcommon : (n : Int) < 341 ↔ n < 341 := Int.ofNat_lt
  simp only [ofRaw, hcommon]
  split <;> rfl

/-- Standing still. -/
def wait : ActionState where
  value := 14

end ActionState

end Replay
