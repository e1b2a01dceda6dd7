import Replay.Proofs.Utf8Forms

/-!
The lenient reading of UTF-8 against the strict one. Both agree on well-formed bytes. On others
the lenient one gives the text of the longest well-formed front, then a replacement character, and
goes on behind the part that is no character.
-/

namespace Replay.Text.Utf8

theorem encode_eq (text : String) : encode text = text.toList.flatMap String.utf8EncodeChar := by
  rw [encode, ← String.utf8Encode_toList, List.utf8Encode, List.toList_data_toByteArray]

theorem encode_ofList (chars : List Char) :
    encode (.ofList chars) = chars.flatMap String.utf8EncodeChar := by
  rw [encode_eq, String.toList_ofList]

/-- What the bytes start with is no character. -/
def Stuck (bytes : Bytes) : Prop :=
  ∀ c, ¬ String.utf8EncodeChar c <+: bytes

theorem first_eq_none_iff {b : UInt8} {rest : Bytes} :
    (first b rest).1 = none ↔ Stuck (b :: rest) := by
  constructor
  · rintro h c ⟨tail, htail⟩
    rw [first_eq_some_iff.mpr htail.symm] at h
    cases h
  · intro h
    rcases hfirst : first b rest with ⟨_ | c, tail⟩
    · rfl
    · exact absurd ⟨tail, (first_eq_some_iff.mp hfirst).symm⟩ (h c)

theorem repair_cons (b : UInt8) (rest : Bytes) :
    repair (b :: rest) = (first b rest).1.getD '\uFFFD' :: repair (first b rest).2 := by
  rw [repair]

/-- Where the encoding of a character stands, the character is read. -/
theorem repair_utf8EncodeChar_append (c : Char) (rest : Bytes) :
    repair (String.utf8EncodeChar c ++ rest) = c :: repair rest := by
  rcases hbytes : String.utf8EncodeChar c with _ | ⟨b, tail⟩
  · rw [utf8EncodeChar_eq] at hbytes
    cases hbytes
  · have hfirst : first b (tail ++ rest) = (some c, rest) :=
      first_eq_some_iff.mpr (by rw [hbytes, List.cons_append])
    rw [List.cons_append, repair_cons, hfirst, Option.getD_some]

theorem repair_flatMap_append (chars : List Char) (rest : Bytes) :
    repair (chars.flatMap String.utf8EncodeChar ++ rest) = chars ++ repair rest := by
  induction chars with
  | nil => rfl
  | cons c chars ih =>
    rw [List.flatMap_cons, List.append_assoc, repair_utf8EncodeChar_append, ih, List.cons_append]

/-- A well-formed front is read as its text, whatever follows it. -/
theorem repair_encode_append (text : String) (rest : Bytes) :
    repair (encode text ++ rest) = text.toList ++ repair rest := by
  rw [encode_eq, repair_flatMap_append]

theorem repair_encode (text : String) : repair (encode text) = text.toList := by
  rw [← List.append_nil (encode text), repair_encode_append, repair, List.append_nil]

theorem repair_of_stuck {bytes : Bytes} (h : Stuck bytes) (hne : bytes ≠ []) :
    ∃ more, repair bytes = '\uFFFD' :: more := by
  cases bytes with
  | nil => exact absurd rfl hne
  | cons b rest => exact ⟨_, by rw [repair_cons, first_eq_none_iff.mpr h, Option.getD_none]⟩

theorem length_repair_le (bytes : Bytes) : (repair bytes).length ≤ bytes.length := by
  fun_induction repair bytes with
  | case1 => exact Nat.le_refl _
  | case2 b rest hlength ih => exact Nat.succ_le_succ (ih.trans hlength)

theorem utf8EncodeChar_ne_nil (c : Char) : String.utf8EncodeChar c ≠ [] := by
  rw [utf8EncodeChar_eq]
  exact List.cons_ne_nil _ _

/-- No encoding of a character is the front of another one. -/
theorem utf8EncodeChar_append_inj {c d : Char} {xs ys : Bytes}
    (h : String.utf8EncodeChar c ++ xs = String.utf8EncodeChar d ++ ys) : c = d ∧ xs = ys := by
  obtain ⟨b, rest, hc⟩ := List.exists_cons_of_ne_nil (utf8EncodeChar_ne_nil c)
  have hfirst : first b (rest ++ xs) = (some c, xs) :=
    first_eq_some_iff.mpr (by rw [hc, List.cons_append])
  have hother : first b (rest ++ xs) = (some d, ys) :=
    first_eq_some_iff.mpr (by rw [← List.cons_append, ← hc, h])
  rw [hfirst] at hother
  cases hother
  exact ⟨rfl, rfl⟩

/-- All bytes split into well-formed ones and a rest that starts with no character. -/
theorem exists_stuck (bytes : Bytes) :
    ∃ (chars : List Char) (rest : Bytes),
      bytes = chars.flatMap String.utf8EncodeChar ++ rest ∧ Stuck rest := by
  by_cases h : Stuck bytes
  · exact ⟨[], bytes, rfl, h⟩
  · obtain ⟨c, tail, htail⟩ := not_forall_not.mp h
    have hlength : tail.length < bytes.length := by
      have := List.length_pos_iff.mpr (utf8EncodeChar_ne_nil c)
      rw [← htail, List.length_append]
      omega
    obtain ⟨chars, rest, hchars, hstuck⟩ := exists_stuck tail
    exact ⟨c :: chars, rest, by rw [← htail, hchars, List.flatMap_cons, List.append_assoc], hstuck⟩
termination_by bytes.length

/-- Well-formed bytes in front of what starts with no character cannot be prolonged. -/
theorem prefix_of_stuck {chars others : List Char} {rest more : Bytes} (hstuck : Stuck rest)
    (h : chars.flatMap String.utf8EncodeChar ++ rest =
      others.flatMap String.utf8EncodeChar ++ more) : others <+: chars := by
  induction others generalizing chars with
  | nil => exact List.nil_prefix
  | cons d others ih =>
    rw [List.flatMap_cons, List.append_assoc] at h
    cases chars with
    | nil => exact absurd ⟨_, h.symm⟩ (hstuck d)
    | cons c chars =>
      rw [List.flatMap_cons, List.append_assoc] at h
      obtain ⟨rfl, htail⟩ := utf8EncodeChar_append_inj h
      exact List.cons_prefix_cons.mpr ⟨rfl, ih htail⟩

/-- The text of the longest well-formed front of the bytes. -/
structure IsFront (bytes : Bytes) (text : String) : Prop where
  stands : encode text <+: bytes
  longest : ∀ other, encode other <+: bytes → (encode other).length ≤ (encode text).length

theorem isFront_of_stuck {text : String} {rest : Bytes} (h : Stuck rest) :
    IsFront (encode text ++ rest) text where
  stands := List.prefix_append _ _
  longest := by
    rintro other ⟨more, hmore⟩
    rw [encode_eq, encode_eq] at hmore ⊢
    obtain ⟨chars, hchars⟩ := prefix_of_stuck h hmore.symm
    rw [← hchars, List.flatMap_append, List.length_append]
    exact Nat.le_add_right _ _

/-- The bytes are well-formed, or else the lenient reading puts a replacement character behind the
text of their longest well-formed front. -/
theorem exists_isFront (bytes : Bytes) :
    ∃ front, IsFront bytes front ∧
      (bytes = encode front ∨ ∃ more, repair bytes = front.toList ++ '\uFFFD' :: more) := by
  obtain ⟨chars, rest, rfl, hstuck⟩ := exists_stuck bytes
  rw [← encode_ofList]
  refine ⟨.ofList chars, isFront_of_stuck hstuck, ?_⟩
  rw [repair_encode_append]
  by_cases hrest : rest = []
  · exact .inl (by rw [hrest, List.append_nil])
  · obtain ⟨more, hmore⟩ := repair_of_stuck hstuck hrest
    exact .inr ⟨more, by rw [hmore]⟩

end Replay.Text.Utf8
