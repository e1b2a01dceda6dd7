import Replay.Enumeration
import Replay.Layout

/-!
The payload of a game end: how the game ended, and behind it who quit, and the placements.
-/

namespace Replay

abbrev EndMethod := Code ⟨"EndMethod",
  [(0, "UNRESOLVED"), (1, "TIME"), (2, "GAME"), (3, "RESOLVED"), (7, "NO_CONTEST")]⟩

/-- How the game ended; then the port of the player who quit it; then the place of each port. -/
abbrev End := Extended EndMethod (Extended Int (Vector Int 4))

namespace End

open Layout

def methodLayout : Layout EndMethod :=
  (fun n : Nat => ⟨n⟩) <$> named "method" u8

def quitterLayout : Layout Int := named "lras_initiator" i8

def placementsLayout : Layout (Vector Int 4) :=
  named "player_placements" (perPort i8)

def reader : Reader End :=
  methodLayout.extended (quitterLayout.extended placementsLayout.read)

def ofPayload (payload : Bytes) : Except Failure End :=
  reader.onBytes payload

end End

end Replay
