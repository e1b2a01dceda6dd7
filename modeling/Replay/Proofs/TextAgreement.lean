import Replay.Proofs.MetadataParsing
import Replay.Proofs.Utf8Repair
import Replay.Text.Field
import Mathlib.Data.List.TakeWhile

/-!
The two readings of UTF-8 where they meet the same bytes: the strict one of the metadata and the
lenient one of the fields of a fixed width. Where the strict one gives a text, the lenient one
gives the same; where the strict one refuses, the lenient one keeps all that stands before the
first fault and shows where it is.
-/

namespace Replay

namespace Text.Utf8

/-- The bytes of the forms that do not lead. -/
def IsTrail (b : UInt8) : Prop :=
  0x80 ≤ b.toNat ∧ b.toNat ≤ 0xBF

/-- The ways in which bytes start with the form of a number that is not the encoding of a
character. -/
inductive Strays : Bytes → Prop where
  | overlong {n v : Nat} {rest : Bytes} (form : n ≤ 3) (shorter : shortest v < n) :
    Strays (spread n v ++ rest)
  | surrogate {v : Nat} {rest : Bytes} (low : 0xD800 ≤ v) (high : v ≤ 0xDFFF) :
    Strays (spread 2 v ++ rest)
  | beyond {v : Nat} {rest : Bytes} (low : 0x10FFFF < v) (high : v < 0x200000) :
    Strays (spread 3 v ++ rest)
  | cut {c : Char} {part missing rest : Bytes} (form : String.utf8EncodeChar c = part ++ missing)
    (started : part ≠ []) (unfinished : missing ≠ []) (next : ∀ b ∈ rest.head?, ¬ IsTrail b) :
    Strays (part ++ rest)

theorem isTrail_of_mem_sixes {n v : Nat} {b : UInt8} (h : b ∈ sixes n v) : IsTrail b := by
  induction n with
  | zero => cases h
  | succ n ih =>
    rcases List.mem_cons.mp h with rfl | h
    · have hdigit : v / 64 ^ n % 64 < 64 := Nat.mod_lt _ (by decide)
      rw [IsTrail, UInt8.toNat_ofNat_of_lt' (by show _ < 256; omega)]
      omega
    · exact ih h

theorem length_sixes (n v : Nat) : (sixes n v).length = n := by
  induction n with
  | zero => rfl
  | succ n ih => rw [sixes, List.length_cons, ih]

/-- What a form has room for. -/
def Room (n v : Nat) : Prop :=
  n = 0 ∧ v < 0x80 ∨ n = 1 ∧ v < 0x800 ∨ n = 2 ∧ v < 0x10000 ∨ n = 3 ∧ v < 0x200000

theorem room_shortest (c : Char) : Room (shortest c.toNat) c.toNat := by
  have hv : c.toNat < 0xD800 ∨ 0xDFFF < c.toNat ∧ c.toNat < 0x110000 := c.valid
  have := shortest_cases c.toNat
  unfold Room
  omega

theorem lead_of_room {n v : Nat} (h : Room n v) :
    mark n + v / 64 ^ n < 256 ∧ (n = 0 → mark n + v / 64 ^ n < 0x80) ∧
      (n = 1 → 0xC0 ≤ mark n + v / 64 ^ n ∧ mark n + v / 64 ^ n < 0xE0) ∧
      (n = 2 → 0xE0 ≤ mark n + v / 64 ^ n ∧ mark n + v / 64 ^ n < 0xF0) ∧
      (n = 3 → 0xF0 ≤ mark n + v / 64 ^ n) := by
  rcases h with ⟨rfl, h⟩ | ⟨rfl, h⟩ | ⟨rfl, h⟩ | ⟨rfl, h⟩ <;>
    simp only [mark, Nat.reducePow, Nat.div_one] <;> omega

/-- The leading byte tells the form. -/
theorem form_eq_of_lead_eq {n k v w : Nat} (hn : Room n v) (hk : Room k w)
    (h : UInt8.ofNat (mark n + v / 64 ^ n) = UInt8.ofNat (mark k + w / 64 ^ k)) :
    n = k ∧ v / 64 ^ n = w / 64 ^ k := by
  have hv := lead_of_room hn
  have hw := lead_of_room hk
  rw [← UInt8.toNat_inj, UInt8.toNat_ofNat_of_lt' hv.1, UInt8.toNat_ofNat_of_lt' hw.1] at h
  have hnk : n = k := by
    unfold Room at hn hk
    omega
  subst hnk
  exact ⟨rfl, by omega⟩

/-- Equal forms hold equal numbers. -/
theorem spread_append_inj {n k v w : Nat} {rest more : Bytes} (hn : Room n v) (hk : Room k w)
    (h : spread n v ++ rest = spread k w ++ more) : n = k ∧ v = w := by
  obtain ⟨hlead, htail⟩ := List.cons.inj h
  obtain ⟨rfl, hbits⟩ := form_eq_of_lead_eq hn hk hlead
  have hv := follow_sixes n v rest
  rw [hbits, show sixes n v ++ rest = sixes n w ++ more from htail, follow_sixes] at hv
  cases hv
  exact ⟨rfl, rfl⟩

theorem stuck_cut {c : Char} {part missing rest : Bytes}
    (form : String.utf8EncodeChar c = part ++ missing) (started : part ≠ [])
    (unfinished : missing ≠ []) (next : ∀ b ∈ rest.head?, ¬ IsTrail b) : Stuck (part ++ rest) := by
  rintro d ⟨more, hmore⟩
  obtain ⟨b, part, rfl⟩ := List.exists_cons_of_ne_nil started
  rw [utf8EncodeChar_eq, spread, List.cons_append] at form hmore
  rw [List.cons_append] at hmore
  obtain ⟨hb, hpart⟩ := List.cons.inj form
  obtain ⟨hb', htail⟩ := List.cons.inj hmore
  -- Both characters have the leading byte, so equally many bytes follow it.
  obtain ⟨hforms, -⟩ := form_eq_of_lead_eq (room_shortest d) (room_shortest c) (hb'.trans hb.symm)
  have hlength := congrArg List.length hpart
  rw [length_sixes, List.length_append] at hlength
  have hmissing := List.length_pos_iff.mpr unfinished
  rcases List.append_eq_append_iff.mp htail with ⟨extra, hextra, -⟩ | ⟨extra, hextra, hrest⟩
  · have hshort := congrArg List.length hextra
    rw [List.length_append, length_sixes] at hshort
    omega
  · cases extra with
    | nil =>
      have hshort := congrArg List.length hextra
      rw [List.length_append, length_sixes, List.length_nil] at hshort
      omega
    | cons trail extra =>
      have htrail : trail ∈ sixes (shortest d.toNat) d.toNat := by
        rw [hextra]
        exact List.mem_append_right _ List.mem_cons_self
      exact next trail (by rw [hrest]; rfl) (isTrail_of_mem_sixes htrail)

/-- None of these starts with a character. -/
theorem Strays.stuck {bytes : Bytes} (h : Strays bytes) : Stuck bytes := by
  intro d ⟨more, hmore⟩
  have hv : d.toNat < 0xD800 ∨ 0xDFFF < d.toNat ∧ d.toNat < 0x110000 := d.valid
  have hd := room_shortest d
  have hs := shortest_cases d.toNat
  cases h with
  | @overlong n v rest form shorter =>
    have hroom : Room n v := by
      have := shortest_cases v
      unfold Room
      omega
    rw [utf8EncodeChar_eq] at hmore
    obtain ⟨rfl, rfl⟩ := spread_append_inj hd hroom hmore
    exact absurd shorter (Nat.lt_irrefl _)
  | surrogate low high =>
    rw [utf8EncodeChar_eq] at hmore
    have := (spread_append_inj hd (.inr (.inr (.inl ⟨rfl, by omega⟩))) hmore).2
    omega
  | beyond low high =>
    rw [utf8EncodeChar_eq] at hmore
    have := (spread_append_inj hd (.inr (.inr (.inr ⟨rfl, high⟩))) hmore).2
    omega
  | cut form started unfinished next =>
    exact stuck_cut form started unfinished next d ⟨more, hmore⟩

theorem Strays.ne_nil {bytes : Bytes} (h : Strays bytes) : bytes ≠ [] := by
  cases h with
  | cut form started unfinished next => exact List.append_ne_nil_of_left_ne_nil started _
  | _ => exact List.cons_ne_nil _ _

/-- Bytes that stray anywhere encode no text. -/
theorem Strays.ne_encode {bytes : Bytes} (h : Strays bytes) (before text : String) :
    encode before ++ bytes ≠ encode text := by
  intro heq
  have hlength := (isFront_of_stuck h.stuck).longest text ⟨[], by rw [List.append_nil, heq]⟩
  have hpos := List.length_pos_iff.mpr h.ne_nil
  rw [← heq, List.length_append] at hlength
  omega

end Text.Utf8

namespace Ubjson

open Text.Utf8 (encode)

/-- A length byte and the bytes that it counts, in front of any others. -/
theorem run_readText {raw more : Bytes} (hlength : raw.length ≤ 255) {s : Source}
    (hs : s.InMemory) (hleft : s.left = UInt8.ofNat raw.length :: (raw ++ more)) :
    readText.run s =
      ((match Text.Utf8.decode? raw with
        | some text => .ok text
        | none => .error (.ofCause (.text raw))), s.skip (raw.length + 1)) := by
  have hbyte : (UInt8.ofNat raw.length).toNat = raw.length :=
    UInt8.toNat_ofNat_of_lt' (by show _ < 256; omega)
  have hrest : (s.skip 1).left = raw ++ more :=
    Source.left_skip_of_append (show s.left = [UInt8.ofNat raw.length] ++ (raw ++ more) from hleft)
  have hraw := Reader.Reads.block raw _ more (hs.skip 1) hrest
  rw [Source.skip_skip, Nat.add_comm] at hraw
  rw [readText, Decoder.run_bind_of_ok (Layout.run_u8 hs hleft), hbyte,
    Decoder.run_bind_of_ok hraw]
  cases Text.Utf8.decode? raw <;> rfl

theorem ofField_utf8 {raw : Bytes} (h : 0 ∉ raw) :
    (Text.ofField .utf8 raw).toList = Text.Utf8.repair raw := by
  have hraw : raw.beforeZero = raw := by
    rw [Bytes.beforeZero, List.takeWhile_eq_self_iff]
    exact fun b hb => bne_iff_ne.mpr fun hzero => h (hzero ▸ hb)
  rw [Text.ofField, hraw, String.toList_ofList]
  rfl

/-- The strict reading gives exactly the text that the bytes encode, and the lenient reading gives
the same. Where the strict one refuses the bytes, the lenient one gives a text of no more
characters than there are bytes, with a replacement character behind the text of the longest
well-formed front. Overlong forms, surrogates, numbers that are too large and forms that are cut
short are refused wherever they stand. -/
theorem readText_agrees (raw more : Bytes) (hlength : raw.length ≤ 255) (hzero : 0 ∉ raw)
    (s : Source) (hs : s.InMemory)
    (hleft : s.left = UInt8.ofNat raw.length :: (raw ++ more)) :
    (∀ text, (readText.run s).1 = .ok text ↔
      raw = text.toList.flatMap String.utf8EncodeChar) ∧
    (∀ text, (readText.run s).1 = .ok text → Text.ofField .utf8 raw = text) ∧
    (∀ failure, (readText.run s).1 = .error failure →
      (∃ cause, failure = .ofCause cause ∧ cause.errorClass = .invalidText) ∧
      (∃ front more, Text.Utf8.IsFront raw front ∧
        (Text.ofField .utf8 raw).toList = front.toList ++ '\uFFFD' :: more) ∧
      (Text.ofField .utf8 raw).length ≤ raw.length) ∧
    ∀ before bad, raw = encode before ++ bad → Text.Utf8.Strays bad →
      ∃ cause, (readText.run s).1 = .error (.ofCause cause) ∧ cause.errorClass = .invalidText := by
  rw [run_readText hlength hs hleft]
  have hlenient := ofField_utf8 hzero
  rcases hdecode : Text.Utf8.decode? raw with _ | text
  · have hill : ∀ text, raw ≠ encode text := fun text h => by
      rw [Text.Utf8.decode?_eq_some_iff.mpr h] at hdecode
      cases hdecode
    refine ⟨fun text => ⟨nofun, fun h => absurd (h.trans (Text.Utf8.encode_eq text).symm)
      (hill text)⟩, nofun, ?_, fun _ _ _ _ => ⟨_, rfl, rfl⟩⟩
    intro failure h
    cases h
    obtain ⟨front, hfront, hwhole | ⟨more, hmore⟩⟩ := Text.Utf8.exists_isFront raw
    · exact absurd hwhole (hill front)
    · refine ⟨⟨_, rfl, rfl⟩, ⟨front, more, hfront, hlenient.trans hmore⟩, ?_⟩
      rw [← String.length_toList, hlenient]
      exact Text.Utf8.length_repair_le raw
  · obtain rfl := Text.Utf8.decode?_eq_some_iff.mp hdecode
    rw [Text.Utf8.repair_encode] at hlenient
    refine ⟨fun other => ?_, ?_, nofun, ?_⟩
    · rw [← Text.Utf8.encode_eq, ← Text.Utf8.decode?_eq_some_iff, hdecode, Option.some.injEq]
      exact ⟨fun h => Except.ok.inj h, congrArg _⟩
    · intro other h
      cases h
      exact String.toList_inj.mp hlenient
    · intro before bad hraw hbad
      exact absurd hraw.symm (hbad.ne_encode before text)

/-- The first two bytes of a character of three, and then a letter. -/
theorem readText_agrees_cut :
    (∃ cause, readText.onBytes [4, 0x46, 0xE2, 0x82, 0x41] = .error (.ofCause cause) ∧
      cause.errorClass = .invalidText) ∧
    ∃ front more, Text.Utf8.IsFront [0x46, 0xE2, 0x82, 0x41] front ∧
      (Text.ofField .utf8 [0x46, 0xE2, 0x82, 0x41]).toList = front.toList ++ '\uFFFD' :: more := by
  obtain ⟨-, -, hrepaired, hrefused⟩ := readText_agrees [0x46, 0xE2, 0x82, 0x41] [] (by decide)
    (by decide) (.ofBytes [4, 0x46, 0xE2, 0x82, 0x41]) (Source.inMemory_ofBytes _) rfl
  have hcut : Text.Utf8.Strays ([0xE2, 0x82] ++ [0x41]) :=
    .cut (show String.utf8EncodeChar '€' = [0xE2, 0x82] ++ [0xAC] from rfl) (by decide) (by decide)
      fun b hb htrail => by
        cases hb
        exact absurd htrail.1 (by decide)
  obtain ⟨cause, hcause, hclass⟩ := hrefused "F" _ (by rw [Text.Utf8.encode_eq]; rfl) hcut
  exact ⟨⟨cause, hcause, hclass⟩, (hrepaired _ hcause).2.1⟩

end Ubjson

end Replay
