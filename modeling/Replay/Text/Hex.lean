/-!
Hexadecimal numbers in lower case.
-/

namespace Replay.Text

/-- The digits without leading zeros. -/
def hexDigits (n : Nat) : String :=
  .ofList (Nat.toDigits 16 n)

/-- The digits with leading zeros up to the given width. -/
def paddedHex (width n : Nat) : String :=
  let digits := Nat.toDigits 16 n
  .ofList (List.replicate (width - digits.length) '0' ++ digits)

/-- The digits marked as hexadecimal, behind the sign. -/
def markedHex : Int → String
  | .ofNat n => "0x" ++ hexDigits n
  | .negSucc n => "-0x" ++ hexDigits (n + 1)

end Replay.Text
