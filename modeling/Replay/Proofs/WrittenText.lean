import Mathlib.Data.List.Forall2
import Replay.Proofs.TextAgreement

/-!
Text fields and the characters that were written into them. The codes of the characters, one after
the other, are read as just these characters, whatever follows, since a reader that starts at a code
ends where the next one starts. What follows never shows if a zero byte stands in front of it. Other
bytes are read too: where no code stands a replacement character does.
-/

namespace Replay

namespace Bytes

theorem beforeZero_append {written : Bytes} (h : 0 ∉ written) (rest : Bytes) :
    beforeZero (written ++ rest) = written ++ rest.beforeZero :=
  List.takeWhile_append_of_pos fun _ hb => bne_iff_ne.mpr fun hzero => h (hzero ▸ hb)

theorem beforeZero_append_zero (raw left : Bytes) :
    beforeZero (raw ++ 0 :: left) = raw.beforeZero := by
  induction raw with
  | nil => rfl
  | cons b raw ih =>
    simp only [beforeZero, List.cons_append, List.takeWhile_cons] at ih ⊢
    rw [ih]

end Bytes

namespace Text

namespace CodePage932

/-- The bytes that a character may be written with. -/
inductive Codes : Char → Bytes → Prop where
  | single {c : Char} {b : UInt8} (h : single? b = some c) : Codes c [b]
  | pair {c : Char} {lead trail : UInt8} (h : pair? lead trail = some c) : Codes c [lead, trail]

/-- A code outside the rows for private use, from its row and its place there. -/
theorem Codes.listed {lead trail : UInt8} {place : Nat} {row : List Char} {c : Char}
    (hlead : ¬(0xF0 ≤ lead ∧ lead ≤ 0xF9)) (hplace : trailPlace? trail = some place)
    (hrow : rows.lookup lead = some (.ofList row)) (hc : row[place]? = some c) (hne : c ≠ '.') :
    Codes c [lead, trail] := by
  refine .pair ?_
  simp only [pair?, hplace, hrow, Option.bind_eq_bind, Option.bind_some, if_neg hlead,
    String.toList_ofList, hc, if_neg hne]
  rfl

theorem single?_of_private {b : UInt8} (h : 0xF0 ≤ b ∧ b ≤ 0xF9) : single? b = none := by
  simp only [UInt8.le_iff_toNat_le, UInt8.reduceToNat] at h
  simp only [single?, UInt8.le_iff_toNat_le, ← UInt8.toNat_inj, UInt8.reduceToNat]
  rw [if_neg (by omega), if_neg (by omega), if_neg (by omega), if_neg (by omega)]

theorem single?_of_mem_rows : ∀ row ∈ rows, single? row.1 = none := by
  decide

/-- No leading byte of two is a character of its own. -/
theorem single?_of_pair? {lead trail : UInt8} {c : Char} (h : pair? lead trail = some c) :
    single? lead = none := by
  obtain ⟨place, -, h⟩ := Option.bind_eq_some_iff.mp h
  split at h
  · exact single?_of_private ‹_›
  · obtain ⟨row, hrow, -⟩ := Option.bind_eq_some_iff.mp h
    obtain ⟨before, after, hrows, -⟩ := List.lookup_eq_some_iff.mp hrow
    exact single?_of_mem_rows (lead, row) (by rw [hrows]; simp)

theorem trail_ne_zero {lead trail : UInt8} {c : Char} (h : pair? lead trail = some c) :
    trail ≠ 0 := by
  rintro rfl
  cases h

theorem Codes.zero_not_mem {c : Char} {code : Bytes} (h : Codes c code) (hc : c ≠ '\x00') :
    0 ∉ code := by
  cases h with
  | single h =>
    intro hzero
    obtain rfl := List.mem_singleton.mp hzero
    cases h
    exact hc rfl
  | @pair lead trail h =>
    have hlead : lead ≠ 0 := by
      rintro rfl
      cases single?_of_pair? h
    have htrail := trail_ne_zero h
    simp [hlead.symm, htrail.symm]

/-- Where the code of a character stands, the character is read. -/
theorem Codes.decode_append {c : Char} {code : Bytes} (h : Codes c code) (rest : Bytes) :
    decode (code ++ rest) = c :: decode rest := by
  cases h with
  | single h =>
    rw [List.cons_append, List.nil_append, decode.eq_def]
    simp only [h]
  | pair h => simp only [List.cons_append, List.nil_append, decode, single?_of_pair? h, h]

end CodePage932

namespace Encoding

/-- The bytes that a character may be written with. -/
def Codes : Encoding → Char → Bytes → Prop
  | .codePage932, c, code => CodePage932.Codes c code
  | .utf8, c, code => code = String.utf8EncodeChar c

/-- The bytes start with a code. -/
def Starts (encoding : Encoding) (bytes : Bytes) : Prop :=
  ∃ c code, encoding.Codes c code ∧ code <+: bytes

/-- The bytes are read as the characters whose codes stand there, and a part with no code in it as
a replacement character. -/
inductive Shows (encoding : Encoding) : Bytes → List Char → Prop where
  | done : Shows encoding [] []
  | character {c : Char} {code rest : Bytes} {chars : List Char} (written : encoding.Codes c code)
    (more : Shows encoding rest chars) : Shows encoding (code ++ rest) (c :: chars)
  | stray {part rest : Bytes} {chars : List Char} (started : part ≠ [])
    (lost : ∀ back, back <:+ part → back ≠ [] → ¬encoding.Starts (back ++ rest))
    (more : Shows encoding rest chars) : Shows encoding (part ++ rest) ('\uFFFD' :: chars)

end Encoding

namespace Utf8

theorem zero_not_mem_utf8EncodeChar {c : Char} (hc : c ≠ '\x00') :
    0 ∉ String.utf8EncodeChar c := by
  have hv : c.toNat ≠ 0 := fun h => hc (by rw [← Char.ofNat_toNat c, h])
  have hlead : 0 < mark (shortest c.toNat) + c.toNat / 64 ^ shortest c.toNat := by
    rcases shortest_cases c.toNat with ⟨hs, -⟩ | ⟨hs, -⟩ | ⟨hs, -⟩ | ⟨hs, -⟩ <;>
      rw [hs, mark] <;> omega
  rw [utf8EncodeChar_eq]
  intro hzero
  rcases List.mem_cons.mp hzero with hfirst | htrail
  · have hlt := (lead_of_room (room_shortest c)).1
    rw [← UInt8.toNat_inj, UInt8.toNat_ofNat_of_lt' hlt] at hfirst
    exact absurd hfirst.symm (Nat.ne_of_gt hlead)
  · exact absurd (isTrail_of_mem_sixes htrail).1 (by decide)

/-- What is taken behind a leading byte are bytes that do not lead. -/
theorem exists_follow {n : Nat} {low high : UInt8} (hlow : 0x80 ≤ low.toNat)
    (hhigh : high.toNat ≤ 0xBF) (bits : Nat) (bytes : Bytes) :
    ∃ taken, bytes = taken ++ (follow n low high bits bytes).2 ∧ ∀ b ∈ taken, IsTrail b := by
  induction n generalizing low high bits bytes with
  | zero => exact ⟨[], rfl, nofun⟩
  | succ n ih =>
    cases bytes with
    | nil => exact ⟨[], rfl, nofun⟩
    | cons b rest =>
      simp only [follow]
      split
      · rename_i hb
        rw [UInt8.le_iff_toNat_le, UInt8.le_iff_toNat_le] at hb
        obtain ⟨taken, htaken, htrail⟩ := @ih 0x80 0xBF (by decide) (by decide)
          (64 * bits + b.toNat % 64) rest
        refine ⟨b :: taken, by rw [List.cons_append, ← htaken], ?_⟩
        rintro t (_ | ⟨_, ht⟩)
        · exact ⟨hlow.trans hb.1, hb.2.trans hhigh⟩
        · exact htrail t ht
      · exact ⟨[], rfl, nofun⟩

theorem exists_first (b : UInt8) (rest : Bytes) :
    ∃ taken, rest = taken ++ (first b rest).2 ∧ ∀ t ∈ taken, IsTrail t := by
  unfold first
  split
  · exact ⟨[], rfl, nofun⟩
  · rename_i lead hlead
    obtain ⟨hlow, hhigh, -⟩ := lead?_sound hlead
    exact exists_follow hlow hhigh lead.bits rest

theorem stuck_of_isTrail {b : UInt8} (h : IsTrail b) (rest : Bytes) : Stuck (b :: rest) := by
  have hlead : lead? b = none := by
    obtain ⟨hlow, hhigh⟩ := h
    rw [lead?_eq, if_neg (by omega), if_pos (by omega)]
  rw [← first_eq_none_iff, first, hlead]

theorem not_starts_of_stuck {bytes : Bytes} (h : Stuck bytes) : ¬Encoding.utf8.Starts bytes := by
  rintro ⟨c, code, rfl, hcode⟩
  exact h c hcode

theorem shows_repair (bytes : Bytes) : Encoding.utf8.Shows bytes (repair bytes) := by
  fun_induction repair bytes with
  | case1 => exact .done
  | case2 b rest _ ih =>
    obtain ⟨taken, htaken, htrail⟩ := exists_first b rest
    rcases hfirst : first b rest with ⟨_ | c, tail⟩
    · have hstuck : Stuck (b :: rest) := first_eq_none_iff.mp (by rw [hfirst])
      rw [hfirst] at ih htaken
      obtain rfl : rest = taken ++ tail := htaken
      rw [← List.cons_append]
      refine .stray (List.cons_ne_nil _ _) (fun back hback hne => ?_) ih
      -- What was taken behind the first byte starts no code either.
      rcases List.suffix_cons_iff.mp hback with rfl | hback
      · exact not_starts_of_stuck hstuck
      · obtain ⟨t, more, rfl⟩ := List.exists_cons_of_ne_nil hne
        exact not_starts_of_stuck (stuck_of_isTrail (htrail t (hback.mem List.mem_cons_self)) _)
    · rw [hfirst] at ih
      rw [first_eq_some_iff.mp hfirst]
      exact .character rfl ih

end Utf8

namespace CodePage932

theorem not_starts {b : UInt8} {rest : Bytes} (hsingle : single? b = none)
    (hpair : ∀ t ∈ rest.head?, pair? b t = none) : ¬Encoding.codePage932.Starts (b :: rest) := by
  rintro ⟨c, code, hcode, tail, htail⟩
  cases hcode with
  | single h =>
    obtain ⟨rfl, -⟩ := List.cons.inj htail
    rw [hsingle] at h
    cases h
  | pair h =>
    obtain ⟨rfl, hrest⟩ := List.cons.inj htail
    rw [hpair _ (by rw [← hrest]; rfl)] at h
    cases h

/-- A byte that starts no code is given up, and it alone. -/
theorem shows_stray {b : UInt8} {rest : Bytes} {chars : List Char}
    (h : ¬Encoding.codePage932.Starts (b :: rest)) (more : Encoding.codePage932.Shows rest chars) :
    Encoding.codePage932.Shows ([b] ++ rest) ('\uFFFD' :: chars) := by
  refine .stray (List.cons_ne_nil _ _) (fun back hback hne => ?_) more
  rcases List.suffix_cons_iff.mp hback with rfl | hback
  · exact h
  · exact absurd (List.suffix_nil.mp hback) hne

theorem shows_decode (bytes : Bytes) : Encoding.codePage932.Shows bytes (decode bytes) := by
  fun_induction decode bytes with
  | case1 => exact .done
  | case2 b rest c h ih =>
    exact .character (show Encoding.codePage932.Codes c [b] from .single h) ih
  | case3 b h => exact shows_stray (not_starts h nofun) .done
  | case4 b h t rest c hpair ih =>
    exact .character (show Encoding.codePage932.Codes c [b, t] from .pair hpair) ih
  | case5 b h t rest hpair ih =>
    refine shows_stray (not_starts h ?_) ih
    rintro _ ⟨⟩
    exact hpair

end CodePage932

namespace Encoding

variable {encoding : Encoding} {c : Char} {code : Bytes} {chars : List Char} {codes : List Bytes}

theorem Codes.zero_not_mem (h : encoding.Codes c code) (hc : c ≠ '\x00') : 0 ∉ code := by
  cases encoding with
  | codePage932 => exact CodePage932.Codes.zero_not_mem h hc
  | utf8 =>
    obtain rfl : code = String.utf8EncodeChar c := h
    exact Utf8.zero_not_mem_utf8EncodeChar hc

theorem Codes.decode_append (h : encoding.Codes c code) (rest : Bytes) :
    encoding.decode (code ++ rest) = c :: encoding.decode rest := by
  cases encoding with
  | codePage932 => exact CodePage932.Codes.decode_append h rest
  | utf8 =>
    obtain rfl : code = String.utf8EncodeChar c := h
    exact Utf8.repair_utf8EncodeChar_append c rest

theorem zero_not_mem_flatten (h : List.Forall₂ encoding.Codes chars codes)
    (hchars : '\x00' ∉ chars) : 0 ∉ codes.flatten := by
  induction h with
  | nil => exact List.not_mem_nil
  | cons hcode _ ih =>
    rw [List.mem_cons, not_or] at hchars
    rw [List.flatten_cons, List.mem_append, not_or]
    exact ⟨hcode.zero_not_mem fun hc => hchars.1 hc.symm, ih hchars.2⟩

/-- The reader is in step with the codes, whatever follows them. -/
theorem decode_flatten_append (h : List.Forall₂ encoding.Codes chars codes) (rest : Bytes) :
    encoding.decode (codes.flatten ++ rest) = chars ++ encoding.decode rest := by
  induction h with
  | nil => rfl
  | cons hcode _ ih =>
    rw [List.flatten_cons, List.append_assoc, hcode.decode_append, ih, List.cons_append]

theorem decode_nil (encoding : Encoding) : encoding.decode [] = [] := by
  cases encoding with
  | codePage932 => rfl
  | utf8 => rw [decode, Utf8.repair]

theorem shows_decode (encoding : Encoding) (bytes : Bytes) :
    encoding.Shows bytes (encoding.decode bytes) := by
  cases encoding with
  | codePage932 => exact CodePage932.shows_decode bytes
  | utf8 => exact Utf8.shows_repair bytes

end Encoding

theorem toList_ofField (encoding : Encoding) (raw : Bytes) :
    (ofField encoding raw).toList = encoding.decode raw.beforeZero :=
  String.toList_ofList

theorem toList_ofField_append {encoding : Encoding} {chars : List Char} {codes : List Bytes}
    (h : List.Forall₂ encoding.Codes chars codes) (hchars : '\x00' ∉ chars) (rest : Bytes) :
    (ofField encoding (codes.flatten ++ rest)).toList =
      chars ++ (ofField encoding rest).toList := by
  rw [toList_ofField, toList_ofField,
    Bytes.beforeZero_append (Encoding.zero_not_mem_flatten h hchars),
    Encoding.decode_flatten_append h]

theorem ofField_flatten {encoding : Encoding} {chars : List Char} {codes : List Bytes}
    (h : List.Forall₂ encoding.Codes chars codes) (hchars : '\x00' ∉ chars) :
    ofField encoding codes.flatten = .ofList chars := by
  have hchars := toList_ofField_append h hchars []
  have hempty : (ofField encoding []).toList = [] :=
    (toList_ofField encoding []).trans encoding.decode_nil
  rw [List.append_nil, hempty, List.append_nil] at hchars
  rw [← hchars, String.ofList_toList]

theorem ofField_append_zero (encoding : Encoding) (raw left : Bytes) :
    ofField encoding (raw ++ 0 :: left) = ofField encoding raw := by
  rw [ofField, Bytes.beforeZero_append_zero, ofField]

/-- A field of the width that the bytes were written into: they fill it, or a zero byte ends them
and anything may be left behind it. -/
def Holds (width : Nat) (raw written : Bytes) : Prop :=
  raw.length = width ∧ (raw = written ∨ ∃ left, raw = written ++ 0 :: left)

theorem Holds.ofField_eq {encoding : Encoding} {width : Nat} {raw written : Bytes}
    (h : Holds width raw written) : ofField encoding raw = ofField encoding written := by
  obtain ⟨-, rfl | ⟨left, rfl⟩⟩ := h
  · rfl
  · exact ofField_append_zero encoding written left

/-- A field gives back the characters that were written into it, none of which is a zero. No byte
of their codes is zero, and what follows the codes is read as it is without them. Whatever the field
holds, nothing behind its first zero byte shows, all that is in front of it is read, and a
replacement character stands only for bytes in which no code starts. -/
theorem ofField_gives_back (encoding : Encoding) :
    (∀ chars codes, List.Forall₂ encoding.Codes chars codes → '\x00' ∉ chars →
      (∀ width raw, Holds width raw codes.flatten → ofField encoding raw = .ofList chars) ∧
      0 ∉ codes.flatten ∧
      ∀ rest, (ofField encoding (codes.flatten ++ rest)).toList =
        chars ++ (ofField encoding rest).toList) ∧
    (∀ raw left, ofField encoding (raw ++ 0 :: left) = ofField encoding raw) ∧
    ∀ raw : Bytes, encoding.Shows raw.beforeZero (ofField encoding raw).toList := by
  refine ⟨fun chars codes hcodes hchars => ⟨fun width raw hraw => ?_, ?_, ?_⟩, ?_, fun raw => ?_⟩
  · rw [hraw.ofField_eq, ofField_flatten hcodes hchars]
  · exact Encoding.zero_not_mem_flatten hcodes hchars
  · exact toList_ofField_append hcodes hchars
  · exact ofField_append_zero encoding
  · rw [toList_ofField]
    exact encoding.shows_decode raw.beforeZero

-- The rows are long, and so are the lists of their characters.
set_option maxRecDepth 3000 in
/-- Listed characters and private ones, with trailing bytes that are a backslash, a leading byte and
a character of their own, in a field that held a longer text before. -/
theorem ofField_gives_back_nameTag :
    ofField .codePage932 [0x83, 0x5C, 0x94, 0x5C, 0xF0, 0x81, 0xF8, 0xB1, 0xB1, 0x41, 0x00, 0x83,
      0x4E, 0x00, 0x00, 0x00] = .ofList ['ソ', '能', '\uE040', '\uE650', 'ｱ', 'A'] := by
  have hcodes : List.Forall₂ Encoding.codePage932.Codes
      ['ソ', '能', '\uE040', '\uE650', 'ｱ', 'A']
      [[0x83, 0x5C], [0x94, 0x5C], [0xF0, 0x81], [0xF8, 0xB1], [0xB1], [0x41]] :=
    .cons (.listed (by decide) rfl rfl rfl (by decide)) (.cons
      (.listed (by decide) rfl rfl rfl (by decide)) (.cons (.pair rfl) (.cons (.pair rfl)
        (.cons (.single rfl) (.cons (.single rfl) .nil)))))
  have hholds : Holds 16 [0x83, 0x5C, 0x94, 0x5C, 0xF0, 0x81, 0xF8, 0xB1, 0xB1, 0x41, 0x00, 0x83,
      0x4E, 0x00, 0x00, 0x00]
      [[0x83, 0x5C], [0x94, 0x5C], [0xF0, 0x81], [0xF8, 0xB1], [0xB1], [0x41]].flatten :=
    ⟨rfl, .inr ⟨[0x83, 0x4E, 0x00, 0x00, 0x00], rfl⟩⟩
  exact ((ofField_gives_back .codePage932).1 _ _ hcodes (by decide)).1 16 _ hholds

end Text

end Replay
