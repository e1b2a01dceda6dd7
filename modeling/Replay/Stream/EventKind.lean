import Replay.Enumeration

/-!
The kinds of events that are decoded. The codes of other events are only skipped over.
-/

namespace Replay

inductive EventKind where
  | gameStart
  | framePre
  | framePost
  | gameEnd
deriving DecidableEq

namespace EventKind

def code : EventKind → Nat
  | .gameStart => 0x36
  | .framePre => 0x37
  | .framePost => 0x38
  | .gameEnd => 0x39

def name : EventKind → String
  | .gameStart => "GAME_START"
  | .framePre => "FRAME_PRE"
  | .framePost => "FRAME_POST"
  | .gameEnd => "GAME_END"

def all : List EventKind := [.gameStart, .framePre, .framePost, .gameEnd]

def ofCode? (code : Nat) : Option EventKind :=
  all.find? fun kind => kind.code == code

instance : Enumeration EventKind where
  title := "EventKind"
  ofValue? := memberOf? all fun kind => kind.code
  value kind := kind.code
  name := name

end EventKind

end Replay
