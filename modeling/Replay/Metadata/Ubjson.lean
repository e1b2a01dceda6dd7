import Replay.Entries
import Replay.Layout
import Replay.Text.Utf8

/-!
The part of UBJSON that metadata is written in: maps, texts of at most 255 bytes, and 32-bit
numbers. Maps may nest, but only to a limit, so the recursion is on the levels left below a value
and does not look at the input.
-/

namespace Replay.Ubjson

/-- How many levels maps may nest below the outermost one. -/
def maxDepth : Nat := 64

/-- A length byte and that many bytes of UTF-8. -/
def readText : Reader String := do
  let length ← Layout.u8.read
  let raw ← Reader.block length
  match Text.Utf8.decode? raw with
  | some text => pure text
  | none => .reject (.text raw)

/-- The key of an entry, or the end of the map. -/
def readKey : Reader (Option String) := do
  let marker ← Layout.u8.read
  if marker = 0x55 then some <$> readText
  else if marker = 0x7D then pure none
  else .reject (.keyMarker marker)

/-- One more entry, or the map that is complete now. -/
def readEntry (value : Reader Tree) (entries : List (String × Tree)) :
    Reader (List (String × Tree) ⊕ List (String × Tree)) := do
  match ← readKey with
  | some key => do
    let tree ← value
    pure (.inl (Entries.put key tree entries))
  | none => pure (.inr entries)

theorem consumes_readEntry (value : Reader Tree) (entries : List (String × Tree)) :
    (readEntry value entries).Consumes :=
  (Layout.consumes_read_u8.bind _).bind _

/-- The entries of a map up to its closing brace. -/
def readEntries (value : Reader Tree) : Reader (List (String × Tree)) :=
  .rounds (readEntry value) (Decoder.advances_of_consumes (consumes_readEntry value)) []

/-- A value, where `nested` reads what follows an opening brace. -/
def readValueWith (nested : Reader Tree) : Reader Tree := do
  let marker ← Layout.u8.read
  if marker = 0x53 then
    let lengthMarker ← Layout.u8.read
    if lengthMarker = 0x55 then .text <$> readText
    else .reject (.stringLengthMarker lengthMarker)
  else if marker = 0x6C then .number <$> Layout.i32.read
  else if marker = 0x7B then nested
  else .reject (.valueMarker marker)

/-- A value below which maps may nest for the given number of levels. The reader of a nested map is
built when its brace is met, so levels that no brace reaches cost nothing. -/
def readTree : Nat → Reader Tree
  | 0 => readValueWith (.reject (.nesting maxDepth))
  | levels + 1 => readValueWith (.later fun _ => .map <$> readEntries (readTree levels))

def levelsBelow (depth : Int) : Nat := (maxDepth - depth).toNat

/-- A value that stands in a map at the given depth. -/
def readValue (depth : Int) : Reader Tree :=
  readTree (levelsBelow depth)

/-- The rest of a map at the given depth, whose opening brace has been read. -/
def readMap (depth : Int) : Reader (List (String × Tree)) :=
  if maxDepth < depth then .reject (.nesting maxDepth)
  else readEntries (readTree (levelsBelow depth))

end Replay.Ubjson
