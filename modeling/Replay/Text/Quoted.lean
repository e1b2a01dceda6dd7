import Replay.Bytes
import Replay.Text.Hex
import Replay.Text.Printable

/-!
Quoted bytes and quoted text, as messages show them. The quotation mark is a single one unless the
contents have a single one and no double one; the mark itself, the backslash, and whatever has no
visible form are escaped.
-/

namespace Replay.Text.Quoted

def singleMark : Char := Char.ofNat 0x27

def doubleMark : Char := Char.ofNat 0x22

/-- The mark to put around contents with these code points. -/
def mark (contents : List Nat) : Char :=
  if contents.contains singleMark.toNat && !contents.contains doubleMark.toNat then doubleMark
  else singleMark

/-- The escape of an ASCII code point, or the character itself. -/
def escapeAscii (mark : Char) (n : Nat) : String :=
  if n = 0x5C then "\\\\"
  else if n = mark.toNat then .ofList ['\\', mark]
  else if n = 0x09 then "\\t"
  else if n = 0x0A then "\\n"
  else if n = 0x0D then "\\r"
  else if n < 0x20 || 0x7E < n then "\\x" ++ paddedHex 2 n
  else .singleton (Char.ofNat n)

def escapeChar (mark c : Char) : String :=
  let n := c.toNat
  if n < 0x7F then escapeAscii mark n
  else if isPrintable c then .singleton c
  else if n < 0x100 then "\\x" ++ paddedHex 2 n
  else if n < 0x10000 then "\\u" ++ paddedHex 4 n
  else "\\U" ++ paddedHex 8 n

/-- Quoted bytes, behind the letter `b`. -/
def ofBytes (bytes : Bytes) : String :=
  let contents := bytes.map (·.toNat)
  let m := mark contents
  "b".push m ++ String.join (contents.map (escapeAscii m)) |>.push m

def ofText (text : String) : String :=
  let m := mark (text.toList.map (·.toNat))
  "".push m ++ String.join (text.toList.map (escapeChar m)) |>.push m

end Replay.Text.Quoted
