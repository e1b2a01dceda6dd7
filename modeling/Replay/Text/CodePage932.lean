import Replay.Bytes
import Replay.Text.CodePage932.Rows

/-!
Code page 932, read leniently: a byte that starts no character becomes U+FFFD, and reading goes on
with the byte after it.
-/

namespace Replay.Text.CodePage932

/-- The characters that are one byte long. -/
def single? (b : UInt8) : Option Char :=
  if b ≤ 0x80 then some (Char.ofNat b.toNat)
  else if b = 0xA0 then some '\uF8F0'
  else if 0xA1 ≤ b ∧ b ≤ 0xDF then some (Char.ofNat (0xFF61 + (b.toNat - 0xA1)))
  else if 0xFD ≤ b then some (Char.ofNat (0xF8F1 + (b.toNat - 0xFD)))
  else none

/-- The place of a trailing byte within a row of 188; 7F is skipped. -/
def trailPlace? (b : UInt8) : Option Nat :=
  if 0x40 ≤ b ∧ b ≤ 0x7E then some (b.toNat - 0x40)
  else if 0x80 ≤ b ∧ b ≤ 0xFC then some (b.toNat - 0x41)
  else none

/-- The characters that are two bytes long. Rows F0 to F9 are for private use; the other rows are
listed. -/
def pair? (lead trail : UInt8) : Option Char := do
  let place ← trailPlace? trail
  if 0xF0 ≤ lead ∧ lead ≤ 0xF9 then
    return Char.ofNat (0xE000 + 188 * (lead.toNat - 0xF0) + place)
  else
    let row ← rows.lookup lead
    let c ← row.toList[place]?
    if c = '.' then none else return c

def decode : Bytes → List Char
  | [] => []
  | b :: rest =>
    match single? b with
    | some c => c :: decode rest
    | none =>
      match rest with
      | [] => ['\uFFFD']
      | t :: rest' =>
        match pair? b t with
        | some c => c :: decode rest'
        | none => '\uFFFD' :: decode (t :: rest')

end Replay.Text.CodePage932
