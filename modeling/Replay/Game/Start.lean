import Replay.Game.Player
import Replay.Game.Version

/-!
The payload of a game start: 320 bytes that every producer writes, and behind them the blocks that
newer producers append, each there only if the payload goes on.
-/

namespace Replay

structure Scene where
  minor : Nat
  major : Nat

/-- What a player is called on the network. -/
structure Netplay where
  name : String
  code : String

structure Match where
  id : String
  game : Nat
  tiebreaker : Nat

namespace Start

open Layout

/-- The part that every producer writes. -/
structure Base where
  version : Version
  bitfield : Bytes
  isTeams : Bool
  itemSpawnFrequency : Int
  selfDestructScore : Int
  stage : Nat
  timer : Nat
  itemSpawnBitfield : Bytes
  damageRatio : Binary64
  seats : Vector Seat 4
  randomSeed : Nat

def versionLayout : Layout Version :=
  (fun (major minor revision : Nat) => ⟨major, minor, revision⟩)
    <$> named "major" u8 <*> named "minor" u8 <*> named "revision" u8

def bitfieldLayout : Layout Bytes :=
  (fun a b c => a ++ b ++ c)
    <$> named "bitfield_1" (block 1)
    <*> named "bitfield_2" (block 1)
    <* padding 1
    <*> named "bitfield_3" (block 1)

def Base.layout : Layout Base :=
  Base.mk <$> versionLayout
    <* padding 1
    <*> bitfieldLayout
    <* padding 4
    <*> named "is_teams" flag
    <* padding 2
    <*> named "item_spawn_frequency" i8
    <*> named "self_destruct_score" i8
    <* padding 1
    <*> named "stage" u16
    <*> named "timer" u32
    <* padding 15
    <*> named "item_spawn_bitfield" (block 5)
    <* padding 8
    <*> named "damage_ratio" f32
    <* padding 44
    <*> named "players" (perPort Seat.layout)
    <* padding 72
    <*> named "random_seed" u32

def fixesLayout : Layout (Vector ControllerFixes 4) :=
  perPort ControllerFixes.layout

def tagsLayout : Layout (Vector String 4) :=
  perPort (Text.ofField .codePage932 <$> block 16)

def palLayout : Layout Bool := named "is_pal" flag

def frozenLayout : Layout Bool := named "is_frozen_ps" flag

def sceneLayout : Layout Scene :=
  Scene.mk <$> named "minor" u8 <*> named "major" u8

def netplayLayout : Layout (Vector Netplay 4) :=
  Vector.zipWith Netplay.mk
    <$> named "names" (perPort (Text.ofField .codePage932 <$> block 31))
    <*> named "codes" (perPort (Text.ofField .codePage932 <$> block 10))

def uidsLayout : Layout (Vector String 4) :=
  named "suids" (perPort (Text.ofField .utf8 <$> block 29))

def languageLayout : Layout Nat := named "language" u8

def matchLayout : Layout Match :=
  Match.mk <$> named "id" (Text.ofField .utf8 <$> block 51)
    <*> named "game" u32
    <*> named "tiebreaker" u32

/-- The blocks behind the name tags: whether the game is a PAL one, whether its stadium is frozen,
the scene, the names on the network, the user ids, the language, and the match. -/
abbrev Additions :=
  Extended Bool (Extended Bool (Extended Scene (Extended (Vector Netplay 4)
    (Extended (Vector String 4) (Extended Nat Match)))))

def Additions.reader : Reader Additions :=
  palLayout.extended (frozenLayout.extended (sceneLayout.extended (netplayLayout.extended
    (uidsLayout.extended (languageLayout.extended matchLayout.read)))))

end Start

structure Start where
  version : Version
  bitfield : Bytes
  isTeams : Bool
  itemSpawnFrequency : Int
  selfDestructScore : Int
  stage : Nat
  timer : Nat
  itemSpawnBitfield : Bytes
  damageRatio : Binary64
  players : Vector (Option Player) 4
  randomSeed : Nat
  additions : Option Start.Additions

namespace Start

/-- What the seats get from the controller fixes and the name tags, as far as they are there. -/
def seatAdditions (fixes : Option (Vector ControllerFixes 4)) (tags : Option (Vector String 4)) :
    Vector (Option (Extended ControllerFixes String)) 4 :=
  .ofFn fun port => fixes.map fun all => ⟨all[port], tags.map fun all => all[port]⟩

def ofParts (base : Base) (fixes : Option (Vector ControllerFixes 4))
    (tags : Option (Vector String 4)) (additions : Option Additions) : Start where
  version := base.version
  bitfield := base.bitfield
  isTeams := base.isTeams
  itemSpawnFrequency := base.itemSpawnFrequency
  selfDestructScore := base.selfDestructScore
  stage := base.stage
  timer := base.timer
  itemSpawnBitfield := base.itemSpawnBitfield
  damageRatio := base.damageRatio
  players := Vector.zipWith (·.player? base.isTeams) base.seats (seatAdditions fixes tags)
  randomSeed := base.randomSeed
  additions

def reader : Reader Start := do
  let base ← Base.layout.read
  let fixes ← fixesLayout.read.ifAny
  let tags ← if fixes.isSome then tagsLayout.read.ifAny else pure none
  let additions ← if tags.isSome then Additions.reader.ifAny else pure none
  pure (ofParts base fixes tags additions)

def ofPayload (payload : Bytes) : Except Failure Start :=
  reader.onBytes payload

end Start

end Replay
