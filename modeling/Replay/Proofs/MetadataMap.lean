import Replay.Metadata.Ubjson
import Replay.Proofs.Reading

/-!
The map of the metadata takes only blocks and decides by what is in them, on every level.
-/

namespace Replay.Ubjson

open Reader

theorem composed_afterRaw (raw : Bytes) : Composed (
    match Text.Utf8.decode? raw with
    | some text => pure text
    | none => Decoder.reject (.text raw) : Reader String) := by
  split
  · exact .pure _
  · exact .reject _ ⟨nofun, nofun⟩

theorem composed_readText : Composed readText :=
  .bind (.read _) fun length => .bind (.block length) composed_afterRaw

theorem composed_afterKeyMarker (marker : Nat) : Composed (
    if marker = 0x55 then some <$> readText
    else if marker = 0x7D then pure none
    else Decoder.reject (.keyMarker marker) : Reader (Option String)) := by
  split
  · exact composed_readText.map some
  · split
    · exact .pure none
    · exact .reject _ ⟨nofun, nofun⟩

theorem composed_readKey : Composed readKey :=
  .bind (.read _) composed_afterKeyMarker

theorem composed_afterKey {value : Reader Tree} (h : Composed value)
    (entries : List (String × Tree)) (key : Option String) : Composed (
    match key with
    | some key => do
      let tree ← value
      pure (.inl (Entries.put key tree entries))
    | none => pure (.inr entries) :
      Reader (List (String × Tree) ⊕ List (String × Tree))) := by
  cases key with
  | none => exact .pure _
  | some key => exact .bind h fun tree => .pure _

theorem composed_readEntry {value : Reader Tree} (h : Composed value)
    (entries : List (String × Tree)) : Composed (readEntry value entries) :=
  .bind composed_readKey (composed_afterKey h entries)

theorem composed_readEntries {value : Reader Tree} (h : Composed value) :
    Composed (readEntries value) :=
  .rounds _ (composed_readEntry h) []

theorem composed_afterLengthMarker (lengthMarker : Nat) : Composed (
    if lengthMarker = 0x55 then Tree.text <$> readText
    else Decoder.reject (.stringLengthMarker lengthMarker) : Reader Tree) := by
  split
  · exact composed_readText.map Tree.text
  · exact .reject _ ⟨nofun, nofun⟩

theorem composed_afterValueMarker {nested : Reader Tree} (h : Composed nested) (marker : Nat) :
    Composed (
      if marker = 0x53 then do
        let lengthMarker ← Layout.u8.read
        if lengthMarker = 0x55 then Tree.text <$> readText
        else Decoder.reject (.stringLengthMarker lengthMarker)
      else if marker = 0x6C then Tree.number <$> Layout.i32.read
      else if marker = 0x7B then nested
      else Decoder.reject (.valueMarker marker) : Reader Tree) := by
  split
  · exact .bind (.read _) composed_afterLengthMarker
  · split
    · exact (Composed.read _).map Tree.number
    · split
      · exact h
      · exact .reject _ ⟨nofun, nofun⟩

theorem composed_readValueWith {nested : Reader Tree} (h : Composed nested) :
    Composed (readValueWith nested) :=
  .bind (.read _) (composed_afterValueMarker h)

theorem composed_readTree (levels : Nat) : Composed (readTree levels) := by
  induction levels with
  | zero => exact composed_readValueWith (.reject _ ⟨nofun, nofun⟩)
  | succ levels ih => exact composed_readValueWith ((composed_readEntries ih).map Tree.map)

theorem composed_readMap (depth : Int) : Composed (readMap depth) := by
  unfold readMap
  split
  · exact .reject _ ⟨nofun, nofun⟩
  · exact composed_readEntries (composed_readTree _)

end Replay.Ubjson
