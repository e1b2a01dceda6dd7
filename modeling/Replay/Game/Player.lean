import Replay.Enumeration
import Replay.Layout
import Replay.Text.Field

/-!
The four seats of a game and the players who sit there.
-/

namespace Replay

inductive PlayerType where
  | human
  | cpu
  | demo
  | none
deriving DecidableEq

namespace PlayerType

def value : PlayerType → Int
  | .human => 0
  | .cpu => 1
  | .demo => 2
  | .none => 3

def name : PlayerType → String
  | .human => "HUMAN"
  | .cpu => "CPU"
  | .demo => "DEMO"
  | .none => "NONE"

instance : Enumeration PlayerType where
  title := "PlayerType"
  ofValue? := memberOf? [.human, .cpu, .demo, .none] value
  value := value
  name := name

end PlayerType

abbrev TeamColor := Code ⟨"TeamColor", [(0, "RED"), (1, "BLUE"), (2, "GREEN")]⟩

abbrev TeamShade := Code ⟨"TeamShade", [(0, "NORMAL"), (1, "LIGHT"), (2, "DARK")]⟩

abbrev DashBack := Code ⟨"DashBack", [(1, "UCF"), (2, "ARDUINO")]⟩

abbrev ShieldDrop := Code ⟨"ShieldDrop", [(1, "UCF"), (2, "ARDUINO")]⟩

structure Team where
  color : TeamColor
  shade : TeamShade

/-- The controller fixes of a player. -/
structure ControllerFixes where
  dashBack : Option DashBack
  shieldDrop : Option ShieldDrop

namespace ControllerFixes

open Layout

def layout : Layout ControllerFixes :=
  (fun (dashBack shieldDrop : Nat) => ⟨Code.optional dashBack, Code.optional shieldDrop⟩)
    <$> named "dash_back" u32 <*> named "shield_drop" u32

end ControllerFixes

/-- The block that the payload holds for a seat, taken or not. -/
structure Seat where
  character : Nat
  type : Nat
  stocks : Nat
  costume : Nat
  teamShade : Nat
  handicap : Nat
  teamColor : Nat
  bitfield : Nat
  cpuLevel : Nat
  offenseRatio : Binary64
  defenseRatio : Binary64
  modelScale : Binary64

namespace Seat

open Layout

def layout : Layout Seat :=
  mk <$> named "character" u8
    <*> named "type" u8
    <*> named "stocks" u8
    <*> named "costume" u8
    <* padding 3
    <*> named "team_shade" u8
    <*> named "handicap" u8
    <*> named "team_color" u8
    <* padding 2
    <*> named "bitfield" u8
    <* padding 2
    <*> named "cpu_level" u8
    <* padding 4
    <*> named "offense_ratio" f32
    <*> named "defense_ratio" f32
    <*> named "model_scale" f32
    <* padding 4

/-- Who may sit here; an empty seat and an unknown type of player have no record. -/
def occupant? (seat : Seat) : Option PlayerType :=
  match seat.type with
  | 0 => some .human
  | 1 => some .cpu
  | 2 => some .demo
  | _ => none

end Seat

structure Player where
  character : Nat
  type : PlayerType
  stocks : Nat
  costume : Nat
  team : Option Team
  handicap : Nat
  bitfield : Nat
  /-- Only computer players have a level. -/
  cpuLevel : Option Nat
  offenseRatio : Binary64
  defenseRatio : Binary64
  modelScale : Binary64
  /-- What later producers add: the controller fixes, and then the name tag. -/
  additions : Option (Extended ControllerFixes String)

def Seat.player? (seat : Seat) (isTeams : Bool)
    (additions : Option (Extended ControllerFixes String)) : Option Player :=
  seat.occupant?.map fun type =>
    { character := seat.character
      type
      stocks := seat.stocks
      costume := seat.costume
      team := if isTeams then some ⟨⟨seat.teamColor⟩, ⟨seat.teamShade⟩⟩ else none
      handicap := seat.handicap
      bitfield := seat.bitfield
      cpuLevel := if type = .cpu then some seat.cpuLevel else none
      offenseRatio := seat.offenseRatio
      defenseRatio := seat.defenseRatio
      modelScale := seat.modelScale
      additions }

end Replay
