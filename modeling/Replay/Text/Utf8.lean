import Replay.Bytes

/-!
The two readings of UTF-8: the strict one, which refuses ill-formed bytes, and the lenient one,
which puts a replacement character for each maximal ill-formed part.
-/

namespace Replay.Text.Utf8

/-- The text that the bytes encode, if they are well-formed. -/
def decode? (bytes : Bytes) : Option String :=
  String.fromUTF8? ⟨bytes.toArray⟩

/-- What a leading byte announces: how many bytes follow it, between which bounds the first of
them lies, and the bits that the leading byte itself holds. -/
structure Lead where
  following : Nat
  low : UInt8
  high : UInt8
  bits : Nat

def lead? (b : UInt8) : Option Lead :=
  if b < 0x80 then some ⟨0, 0x80, 0xBF, b.toNat⟩
  else if b < 0xC2 then none
  else if b < 0xE0 then some ⟨1, 0x80, 0xBF, b.toNat % 32⟩
  else if b = 0xE0 then some ⟨2, 0xA0, 0xBF, b.toNat % 16⟩
  else if b = 0xED then some ⟨2, 0x80, 0x9F, b.toNat % 16⟩
  else if b < 0xF0 then some ⟨2, 0x80, 0xBF, b.toNat % 16⟩
  else if b = 0xF0 then some ⟨3, 0x90, 0xBF, b.toNat % 8⟩
  else if b < 0xF4 then some ⟨3, 0x80, 0xBF, b.toNat % 8⟩
  else if b = 0xF4 then some ⟨3, 0x80, 0x8F, b.toNat % 8⟩
  else none

/-- Takes the bytes that follow a leading byte as long as they fit. The number is there if none
was missing; the byte that did not fit is still in the rest. -/
def follow : Nat → UInt8 → UInt8 → Nat → Bytes → Option Nat × Bytes
  | 0, _, _, bits, rest => (some bits, rest)
  | _ + 1, _, _, _, [] => (none, [])
  | n + 1, low, high, bits, b :: rest =>
    if low ≤ b ∧ b ≤ high then follow n 0x80 0xBF (64 * bits + b.toNat % 64) rest
    else (none, b :: rest)

theorem follow_length_le (n : Nat) (low high : UInt8) (bits : Nat) (bytes : Bytes) :
    (follow n low high bits bytes).2.length ≤ bytes.length := by
  induction n generalizing low high bits bytes with
  | zero => simp [follow]
  | succ n ih =>
    cases bytes with
    | nil => simp [follow]
    | cons b rest =>
      simp only [follow]
      split
      · exact Nat.le_succ_of_le (ih ..)
      · simp

/-- The first character, with no value if the part is ill-formed, and the bytes after it. -/
def first (b : UInt8) (rest : Bytes) : Option Char × Bytes :=
  match lead? b with
  | none => (none, rest)
  | some lead =>
    let (number, rest) := follow lead.following lead.low lead.high lead.bits rest
    (number.map Char.ofNat, rest)

theorem first_length_le (b : UInt8) (rest : Bytes) : (first b rest).2.length ≤ rest.length := by
  unfold first
  split
  · simp
  · exact follow_length_le ..

/-- Each well-formed part becomes its character and each maximal ill-formed part becomes U+FFFD. -/
def repair : Bytes → List Char
  | [] => []
  | b :: rest =>
    have := first_length_le b rest
    (first b rest).1.getD '\uFFFD' :: repair (first b rest).2
termination_by bytes => bytes.length

end Replay.Text.Utf8
