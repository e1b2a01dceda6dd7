import Replay.Entries
import Replay.Layout

/-!
The record that opens an event stream: for each event code the size of its payload.
-/

namespace Replay

/-- A record gives sizes of two bytes. A table from elsewhere may hold any integers, and an event
with a negative size fails when it is read. -/
abbrev SizeTable := List (Nat × Int)

/-- A size table and the length of the record that holds it. -/
structure SizeRecord where
  length : Nat
  table : SizeTable

namespace SizeRecord

def code : Nat := 0x35

/-- Adds entries to a table. A repeated code keeps its place and takes the last size. -/
def readEntries : Nat → SizeTable → Reader SizeTable
  | 0, table => pure table
  | n + 1, table => do
    let code ← Layout.u8.read
    let size ← Layout.u16.read
    readEntries n (Entries.put code size table)

/-- The second byte counts itself and three bytes for each entry. -/
def reader : Reader SizeRecord := do
  let got ← Layout.u8.read
  if got ≠ code then .reject (.noSizeTable got)
  else
    let length ← Layout.u8.read
    if length % 3 ≠ 1 then .reject (.sizeTableLength length)
    else
      let table ← readEntries ((length - 1) / 3) []
      pure { length := 1 + length, table }

end SizeRecord

end Replay
