import Replay.Failure

/-!
The well-known entries of the metadata. Unknown keys are skipped, since producers may add some; a
well-known entry must be of its kind, and the first one that is not is reported.
-/

namespace Replay

namespace Metadata

def text (place : Place) : Tree → Except Cause String
  | .text s => .ok s
  | tree => .error (.shape place tree.kind)

def number (place : Place) : Tree → Except Cause Int
  | .number n => .ok n
  | tree => .error (.shape place tree.kind)

def map (place : Place) : Tree → Except Cause (List (String × Tree))
  | .map entries => .ok entries
  | tree => .error (.shape place tree.kind)

end Metadata

structure PlayerNames where
  netplay : Option String := none
  code : Option String := none

namespace PlayerNames

open Metadata

def add (names : PlayerNames) : String × Tree → Except Cause PlayerNames
  | ("netplay", tree) => return { names with netplay := some (← text .netplay tree) }
  | ("code", tree) => return { names with code := some (← text .code tree) }
  | _ => return names

def ofEntries (entries : List (String × Tree)) : Except Cause PlayerNames :=
  entries.foldlM add {}

end PlayerNames

structure PlayerMetadata where
  names : Option PlayerNames := none
  /-- The number of frames for each character, by the character's decimal number. -/
  characters : List (String × Int) := []

namespace PlayerMetadata

open Metadata

def frameCounts (entries : List (String × Tree)) : Except Cause (List (String × Int)) :=
  entries.mapM fun (key, tree) => return (key, ← number .frameCount tree)

def add (player : PlayerMetadata) : String × Tree → Except Cause PlayerMetadata
  | ("names", tree) =>
    return { player with names := some (← PlayerNames.ofEntries (← map .names tree)) }
  | ("characters", tree) =>
    return { player with characters := ← frameCounts (← map .characters tree) }
  | _ => return player

def ofEntries (entries : List (String × Tree)) : Except Cause PlayerMetadata :=
  entries.foldlM add {}

end PlayerMetadata

structure Metadata where
  startAt : Option String := none
  lastFrame : Option Int := none
  playedOn : Option String := none
  consoleNick : Option String := none
  /-- The players by the decimal number of their port. -/
  players : List (String × PlayerMetadata) := []

namespace Metadata

def playersOf (entries : List (String × Tree)) :
    Except Cause (List (String × PlayerMetadata)) :=
  entries.mapM fun (key, tree) => return (key, ← PlayerMetadata.ofEntries (← map .player tree))

def add (metadata : Metadata) : String × Tree → Except Cause Metadata
  | ("startAt", tree) => return { metadata with startAt := some (← text .startAt tree) }
  | ("lastFrame", tree) => return { metadata with lastFrame := some (← number .lastFrame tree) }
  | ("playedOn", tree) => return { metadata with playedOn := some (← text .playedOn tree) }
  | ("consoleNick", tree) =>
    return { metadata with consoleNick := some (← text .consoleNick tree) }
  | ("players", tree) => return { metadata with players := ← playersOf (← map .players tree) }
  | _ => return metadata

def ofEntries (entries : List (String × Tree)) : Except Cause Metadata :=
  entries.foldlM add {}

def player? (metadata : Metadata) (port : Int) : Option PlayerMetadata :=
  metadata.players.lookup (toString port)

end Metadata

end Replay
