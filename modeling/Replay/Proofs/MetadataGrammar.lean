import Replay.Metadata.Tree
import Replay.Proofs.Fields
import Replay.Proofs.RepeatedKeys
import Replay.Text.Utf8

/-!
The written form of metadata. `IsMapBody` is the grammar: which bytes write the entries of a map,
in the order in which they stand there. `Tree.encode` writes a tree, and a tree that can be written
has no other written form.
-/

namespace Replay

namespace Text.Utf8

def encode (text : String) : Bytes :=
  text.toByteArray.data.toList

/-- The strict reading undoes the writing and accepts nothing else. -/
theorem decode?_eq_some_iff {bytes : Bytes} {text : String} :
    decode? bytes = some text ↔ bytes = encode text := by
  have hbytes : (ByteArray.mk bytes.toArray).data.toList = bytes := rfl
  unfold decode? String.fromUTF8?
  constructor
  · intro h
    split at h
    · cases h
      rfl
    · cases h
  · rintro rfl
    have harray : ByteArray.mk (encode text).toArray = text.toByteArray := by
      rw [encode, Array.toArray_toList]
    rw [dif_pos (by rw [harray]; exact text.isValidUTF8)]
    exact congrArg some (String.toByteArray_inj.mp harray)

end Text.Utf8

/-- A length byte, and that many bytes that encode the text. -/
def IsText (bytes : Bytes) (text : String) : Prop :=
  ∃ length : UInt8, ∃ raw : Bytes,
    bytes = length :: raw ∧ raw.length = length.toNat ∧ raw = Text.Utf8.encode text

mutual

/-- The bytes write the value. -/
inductive IsValue : Bytes → Tree → Prop where
  | text {bytes : Bytes} {text : String} (written : IsText bytes text) :
    IsValue (0x53 :: 0x55 :: bytes) (.text text)
  | number {digits : Bytes} (width : digits.length = 4) :
    IsValue (0x6C :: digits) (.number digits.signed)
  | map {body : Bytes} {entries : List (String × Tree)} (written : IsMapBody body entries) :
    IsValue (0x7B :: body) (.map entries)

/-- The bytes write the entries, a repeated key included, and the end of the map. -/
inductive IsMapBody : Bytes → List (String × Tree) → Prop where
  | close : IsMapBody [0x7D] []
  | entry {name bytes rest : Bytes} {key : String} {value : Tree} {entries : List (String × Tree)}
    (named : IsText name key) (written : IsValue bytes value) (more : IsMapBody rest entries) :
    IsMapBody (0x55 :: (name ++ (bytes ++ rest))) ((key, value) :: entries)

end

namespace Tree

mutual

/-- How many maps lie within one another at most. -/
def levels : Tree → Nat
  | .number _ => 0
  | .text _ => 0
  | .map entries => levelsIn entries + 1

def levelsIn : List (String × Tree) → Nat
  | [] => 0
  | (_, value) :: entries => max value.levels (levelsIn entries)

end

mutual

/-- On every level a repeated key keeps its first place and takes its last value. -/
def collapse : Tree → Tree
  | .number n => .number n
  | .text s => .text s
  | .map entries => .map (Entries.collapse (collapseIn entries))

def collapseIn : List (String × Tree) → List (String × Tree)
  | [] => []
  | (key, value) :: entries => (key, value.collapse) :: collapseIn entries

end

mutual

/-- No map repeats a key. -/
def Distinct : Tree → Prop
  | .number _ => True
  | .text _ => True
  | .map entries => (entries.map (·.1)).Nodup ∧ DistinctIn entries

def DistinctIn : List (String × Tree) → Prop
  | [] => True
  | (_, value) :: entries => value.Distinct ∧ DistinctIn entries

end

mutual

def decideDistinct : (tree : Tree) → Decidable tree.Distinct
  | .number _ => .isTrue trivial
  | .text _ => .isTrue trivial
  | .map entries =>
    have := decideDistinctIn entries
    inferInstanceAs (Decidable ((entries.map (·.1)).Nodup ∧ DistinctIn entries))

def decideDistinctIn : (entries : List (String × Tree)) → Decidable (DistinctIn entries)
  | [] => .isTrue trivial
  | (_, value) :: entries =>
    have := decideDistinct value
    have := decideDistinctIn entries
    inferInstanceAs (Decidable (value.Distinct ∧ DistinctIn entries))

end

instance (tree : Tree) : Decidable tree.Distinct :=
  tree.decideDistinct

/-- A length byte has room for the text. -/
def TextFits (text : String) : Prop :=
  (Text.Utf8.encode text).length ≤ 255

instance (text : String) : Decidable (TextFits text) :=
  inferInstanceAs (Decidable (_ ≤ 255))

mutual

/-- Every text has room behind its length byte, and every number in four bytes. -/
def Fits : Tree → Prop
  | .number n => Bytes.InRange 4 n
  | .text s => TextFits s
  | .map entries => FitsIn entries

def FitsIn : List (String × Tree) → Prop
  | [] => True
  | (key, value) :: entries => TextFits key ∧ value.Fits ∧ FitsIn entries

end

mutual

def decideFits : (tree : Tree) → Decidable tree.Fits
  | .number n => inferInstanceAs (Decidable (Bytes.InRange 4 n))
  | .text s => inferInstanceAs (Decidable (TextFits s))
  | .map entries => decideFitsIn entries

def decideFitsIn : (entries : List (String × Tree)) → Decidable (FitsIn entries)
  | [] => .isTrue trivial
  | (key, value) :: entries =>
    have := decideFits value
    have := decideFitsIn entries
    inferInstanceAs (Decidable (TextFits key ∧ value.Fits ∧ FitsIn entries))

end

instance (tree : Tree) : Decidable tree.Fits :=
  tree.decideFits

def encodeText (text : String) : Bytes :=
  UInt8.ofNat (Text.Utf8.encode text).length :: Text.Utf8.encode text

mutual

/-- A value as it is written. -/
def encode : Tree → Bytes
  | .number n => 0x6C :: Bytes.twosComplement 4 n
  | .text s => 0x53 :: 0x55 :: encodeText s
  | .map entries => 0x7B :: encodeBody entries

/-- The entries of a map as they are written, with the brace that closes it. -/
def encodeBody : List (String × Tree) → Bytes
  | [] => [0x7D]
  | (key, value) :: entries => 0x55 :: (encodeText key ++ (value.encode ++ encodeBody entries))

end

mutual

theorem collapse_of_distinct {tree : Tree} (h : tree.Distinct) : tree.collapse = tree := by
  cases tree with
  | number n => rfl
  | text s => rfl
  | map entries =>
    obtain ⟨hkeys, hvalues⟩ := h
    rw [collapse, collapseIn_of_distinct hvalues, Entries.collapse_of_nodup hkeys]

theorem collapseIn_of_distinct {entries : List (String × Tree)} (h : DistinctIn entries) :
    collapseIn entries = entries := by
  cases entries with
  | nil => rfl
  | cons entry entries =>
    obtain ⟨hvalue, hrest⟩ := h
    rw [collapseIn, collapse_of_distinct hvalue, collapseIn_of_distinct hrest]

end

end Tree

theorem isText_encodeText {text : String} (h : Tree.TextFits text) :
    IsText (Tree.encodeText text) text := by
  have hlength : (Text.Utf8.encode text).length < 2 ^ 8 := by
    rw [Tree.TextFits] at h
    omega
  exact ⟨_, _, rfl, (UInt8.toNat_ofNat_of_lt' hlength).symm, rfl⟩

theorem IsText.eq_encodeText {bytes : Bytes} {text : String} (h : IsText bytes text) :
    bytes = Tree.encodeText text := by
  obtain ⟨length, raw, rfl, hlength, rfl⟩ := h
  rw [Tree.encodeText, hlength, UInt8.ofNat_toNat]

mutual

/-- A value has no other written form. -/
theorem IsValue.eq_encode {bytes : Bytes} {tree : Tree} (h : IsValue bytes tree) :
    bytes = tree.encode := by
  cases h with
  | text written => rw [Tree.encode, written.eq_encodeText]
  | number width => rw [Tree.encode, ← width, (Bytes.twosComplement_signed _).2]
  | map written => rw [Tree.encode, written.eq_encodeBody]

theorem IsMapBody.eq_encodeBody {bytes : Bytes} {entries : List (String × Tree)}
    (h : IsMapBody bytes entries) : bytes = Tree.encodeBody entries := by
  cases h with
  | close => rfl
  | entry named written more =>
    rw [Tree.encodeBody, named.eq_encodeText, written.eq_encode, more.eq_encodeBody]

end

mutual

theorem isValue_encode {tree : Tree} (h : tree.Fits) : IsValue tree.encode tree := by
  cases tree with
  | number n =>
    have hvalue := IsValue.number (Bytes.length_bigEndian 4 (n % (256 ^ 4 : Nat)).toNat)
    rwa [← Bytes.twosComplement, Bytes.signed_twosComplement h] at hvalue
  | text text => exact .text (isText_encodeText h)
  | map entries => exact .map (isMapBody_encodeBody h)

theorem isMapBody_encodeBody {entries : List (String × Tree)} (h : Tree.FitsIn entries) :
    IsMapBody (Tree.encodeBody entries) entries := by
  cases entries with
  | nil => exact .close
  | cons entry entries =>
    obtain ⟨hkey, hvalue, hrest⟩ := h
    exact .entry (isText_encodeText hkey) (isValue_encode hvalue) (isMapBody_encodeBody hrest)

end

end Replay
