/-!
What the metadata of a replay is made of.
-/

namespace Replay

inductive Tree where
  | number (n : Int)
  | text (s : String)
  | map (entries : List (String × Tree))

namespace Tree

inductive Kind where
  | number
  | text
  | map

def kind : Tree → Kind
  | .number _ => .number
  | .text _ => .text
  | .map _ => .map

def Kind.name : Kind → String
  | .number => "int"
  | .text => "str"
  | .map => "object"

end Tree

end Replay
