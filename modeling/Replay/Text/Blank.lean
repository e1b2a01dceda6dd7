/-!
White space at the ends of a text.
-/

namespace Replay.Text

/-- The code points that count as white space, the separators of records and units among them. -/
def blanks : List Nat :=
  List.range' 0x09 5 ++ List.range' 0x1C 5 ++ [0x85, 0xA0, 0x1680] ++ List.range' 0x2000 11 ++
    [0x2028, 0x2029, 0x202F, 0x205F, 0x3000]

def isBlank (c : Char) : Bool :=
  blanks.contains c.toNat

def trim (text : String) : String :=
  let front := text.toList.dropWhile isBlank
  .ofList (front.reverse.dropWhile isBlank).reverse

end Replay.Text
