/-!
The places of the metadata that have a prescribed kind of value.
-/

namespace Replay.Metadata

inductive Place where
  | startAt
  | lastFrame
  | playedOn
  | consoleNick
  | players
  | player
  | names
  | netplay
  | code
  | characters
  | frameCount

namespace Place

/-- The way from the outermost map, where `[...]` stands for any key. -/
def path : Place → String
  | .startAt => "$.startAt"
  | .lastFrame => "$.lastFrame"
  | .playedOn => "$.playedOn"
  | .consoleNick => "$.consoleNick"
  | .players => "$.players"
  | .player => "$.players[...]"
  | .names => "$.players[...].names"
  | .netplay => "$.players[...].names.netplay"
  | .code => "$.players[...].names.code"
  | .characters => "$.players[...].characters"
  | .frameCount => "$.players[...].characters[...]"

def expected : Place → String
  | .startAt | .playedOn | .consoleNick | .netplay | .code => "str | null"
  | .lastFrame => "int | null"
  | .players | .player | .characters => "object"
  | .names => "object | null"
  | .frameCount => "int"

end Place

end Replay.Metadata
