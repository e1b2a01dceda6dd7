import Replay.Proofs.MetadataGrammar
import Mathlib.Tactic.Ring

/-!
The forms of UTF-8 in numbers. A character is its number spread over a marked leading byte and
bytes of six bits each, in the shortest form that has room for it, and the lenient reading takes
just these forms for characters.
-/

namespace Replay.Text.Utf8

/-- The lowest bits of a number, six of them in each of `n` bytes. -/
def sixes : Nat → Nat → Bytes
  | 0, _ => []
  | n + 1, v => UInt8.ofNat (0x80 + v / 64 ^ n % 64) :: sixes n v

/-- What marks a leading byte that `n` bytes follow. -/
def mark : Nat → Nat
  | 0 => 0
  | 1 => 0xC0
  | 2 => 0xE0
  | _ => 0xF0

/-- A number in the form that has `n` bytes after the leading one. -/
def spread (n v : Nat) : Bytes :=
  UInt8.ofNat (mark n + v / 64 ^ n) :: sixes n v

/-- How many bytes follow the leading one in the shortest form of a number. -/
def shortest (v : Nat) : Nat :=
  if v < 0x80 then 0 else if v < 0x800 then 1 else if v < 0x10000 then 2 else 3

/-- The first of `n` bytes of six bits is within the bounds. -/
def Within (low high : UInt8) : Nat → Nat → Prop
  | 0, _ => True
  | n + 1, v => low.toNat ≤ 0x80 + v / 64 ^ n % 64 ∧ 0x80 + v / 64 ^ n % 64 ≤ high.toNat

theorem within_any (n v : Nat) : Within 0x80 0xBF n v := by
  cases n with
  | zero => trivial
  | succ n =>
    have : v / 64 ^ n % 64 < 64 := Nat.mod_lt _ (by decide)
    simp only [Within, UInt8.reduceToNat]
    omega

/-- Only such bytes are taken that hold the number below the bits that are there already. -/
theorem follow_eq_some_iff {n : Nat} {low high : UInt8} (hlow : 0x80 ≤ low.toNat)
    (hhigh : high.toNat ≤ 0xBF) {bits m : Nat} {bytes rest : Bytes} :
    follow n low high bits bytes = (some m, rest) ↔
      bytes = sixes n m ++ rest ∧ m / 64 ^ n = bits ∧ Within low high n m := by
  induction n generalizing low high bits bytes with
  | zero =>
    simp only [follow, sixes, Within, Prod.mk.injEq, Option.some.injEq, List.nil_append, pow_zero,
      Nat.div_one, and_true]
    rw [and_comm, @eq_comm _ bits, @eq_comm _ bytes]
  | succ n ih =>
    cases bytes with
    | nil => simp [follow, sixes]
    | cons b tail =>
      have hnext : follow n 0x80 0xBF (64 * bits + b.toNat % 64) tail = (some m, rest) ↔
          tail = sixes n m ++ rest ∧ m / 64 ^ n = 64 * bits + b.toNat % 64 ∧
            Within 0x80 0xBF n m := ih (by decide) (by decide)
      have hdigit : m / 64 ^ n % 64 < 64 := Nat.mod_lt _ (by decide)
      have hpower : m / 64 ^ (n + 1) = m / 64 ^ n / 64 := by
        rw [pow_succ, Nat.div_div_eq_div_mul]
      simp only [follow, sixes, Within, List.cons_append, List.cons.injEq, hpower]
      rw [← UInt8.toNat_inj, UInt8.toNat_ofNat_of_lt' (by show _ < 256; omega)]
      split
      · rename_i hb
        rw [UInt8.le_iff_toNat_le, UInt8.le_iff_toNat_le] at hb
        rw [hnext]
        constructor
        · rintro ⟨htail, hbits, -⟩
          exact ⟨⟨by omega, htail⟩, by omega, by omega, by omega⟩
        · rintro ⟨⟨hb, htail⟩, hbits, -⟩
          exact ⟨htail, by omega, within_any n m⟩
      · rename_i hb
        rw [UInt8.le_iff_toNat_le, UInt8.le_iff_toNat_le] at hb
        constructor
        · intro h
          cases h
        · rintro ⟨⟨hb', -⟩, -, hbounds⟩
          omega

theorem follow_sixes (n v : Nat) (rest : Bytes) :
    follow n 0x80 0xBF (v / 64 ^ n) (sixes n v ++ rest) = (some v, rest) :=
  (follow_eq_some_iff (by decide) (by decide)).mpr ⟨rfl, rfl, within_any n v⟩

theorem lead?_eq (b : UInt8) :
    lead? b =
      if b.toNat < 0x80 then some ⟨0, 0x80, 0xBF, b.toNat⟩
      else if b.toNat < 0xC2 then none
      else if b.toNat < 0xE0 then some ⟨1, 0x80, 0xBF, b.toNat % 32⟩
      else if b.toNat = 0xE0 then some ⟨2, 0xA0, 0xBF, b.toNat % 16⟩
      else if b.toNat = 0xED then some ⟨2, 0x80, 0x9F, b.toNat % 16⟩
      else if b.toNat < 0xF0 then some ⟨2, 0x80, 0xBF, b.toNat % 16⟩
      else if b.toNat = 0xF0 then some ⟨3, 0x90, 0xBF, b.toNat % 8⟩
      else if b.toNat < 0xF4 then some ⟨3, 0x80, 0xBF, b.toNat % 8⟩
      else if b.toNat = 0xF4 then some ⟨3, 0x80, 0x8F, b.toNat % 8⟩
      else none := by
  simp only [lead?, UInt8.lt_iff_toNat_lt, ← UInt8.toNat_inj, UInt8.reduceToNat]

theorem shortest_cases (v : Nat) :
    shortest v = 0 ∧ v < 0x80 ∨ shortest v = 1 ∧ 0x80 ≤ v ∧ v < 0x800 ∨
      shortest v = 2 ∧ 0x800 ≤ v ∧ v < 0x10000 ∨ shortest v = 3 ∧ 0x10000 ≤ v := by
  unfold shortest
  split_ifs <;> omega

theorem shortest_eq {n v : Nat} (h : n = 0 ∧ v < 0x80 ∨ n = 1 ∧ 0x80 ≤ v ∧ v < 0x800 ∨
    n = 2 ∧ 0x800 ≤ v ∧ v < 0x10000 ∨ n = 3 ∧ 0x10000 ≤ v) : shortest v = n := by
  have := shortest_cases v
  omega

/-- The bounds that a leading byte sets leave just the characters for which its form is the
shortest one. -/
theorem lead?_sound {b : UInt8} {lead : Lead} (h : lead? b = some lead) :
    0x80 ≤ lead.low.toNat ∧ lead.high.toNat ≤ 0xBF ∧ ∀ m, m / 64 ^ lead.following = lead.bits →
      Within lead.low lead.high lead.following m →
        (m < 0xD800 ∨ 0xDFFF < m ∧ m < 0x110000) ∧ shortest m = lead.following ∧
          b.toNat = mark lead.following + lead.bits := by
  have hb : b.toNat < 256 := b.toNat_lt
  simp only [lead?_eq, ite_eq_iff, Option.some.injEq, reduceCtorEq, and_false, false_or,
    or_false] at h
  rcases h with ⟨h0, rfl⟩ | ⟨h0, h1, ⟨h2, rfl⟩ | ⟨h2, ⟨h3, rfl⟩ | ⟨h3, ⟨h4, rfl⟩ | ⟨h4, ⟨h5, rfl⟩ |
    ⟨h5, ⟨h6, rfl⟩ | ⟨h6, ⟨h7, rfl⟩ | ⟨h7, h8, rfl⟩⟩⟩⟩⟩⟩⟩
  all_goals
    simp only [mark, Within, UInt8.reduceToNat, Nat.reducePow, Nat.div_one]
    exact ⟨by omega, by omega, fun m hbits hbounds => ⟨by omega, shortest_eq (by omega), by omega⟩⟩

/-- Every character has a leading byte that leaves room for it. -/
theorem lead?_complete {m : Nat} (h : m < 0xD800 ∨ 0xDFFF < m ∧ m < 0x110000) {b : UInt8}
    (hb : b.toNat = mark (shortest m) + m / 64 ^ shortest m) :
    ∃ lead, lead? b = some lead ∧ lead.following = shortest m ∧
      m / 64 ^ lead.following = lead.bits ∧ Within lead.low lead.high lead.following m := by
  rw [lead?_eq]
  rcases shortest_cases m with ⟨hs, hm⟩ | ⟨hs, hm⟩ | ⟨hs, hm⟩ | ⟨hs, hm⟩
  all_goals
    rw [hs] at hb ⊢
    simp only [mark, Nat.reducePow, Nat.div_one] at hb
  · refine ⟨⟨0, 0x80, 0xBF, b.toNat⟩, by rw [if_pos]; omega, rfl, ?_, trivial⟩
    simp only [pow_zero, Nat.div_one]
    omega
  · refine ⟨⟨1, 0x80, 0xBF, b.toNat % 32⟩, by rw [if_neg, if_neg, if_pos] <;> omega, rfl, ?_,
      within_any 1 m⟩
    simp only [Nat.reducePow]
    omega
  · -- Only the first and the last but two of these leading bytes narrow the byte after them.
    by_cases hlow : b.toNat = 0xE0
    · refine ⟨⟨2, 0xA0, 0xBF, b.toNat % 16⟩,
        by rw [if_neg, if_neg, if_neg, if_pos] <;> omega, rfl, ?_, ?_⟩ <;>
      simp only [Within, UInt8.reduceToNat, Nat.reducePow] <;> omega
    by_cases hhigh : b.toNat = 0xED
    · refine ⟨⟨2, 0x80, 0x9F, b.toNat % 16⟩,
        by rw [if_neg, if_neg, if_neg, if_neg, if_pos] <;> omega, rfl, ?_, ?_⟩ <;>
      simp only [Within, UInt8.reduceToNat, Nat.reducePow] <;> omega
    · refine ⟨⟨2, 0x80, 0xBF, b.toNat % 16⟩,
        by rw [if_neg, if_neg, if_neg, if_neg, if_neg, if_pos] <;> omega, rfl, ?_,
        within_any 2 m⟩
      simp only [Nat.reducePow]
      omega
  · by_cases hlow : b.toNat = 0xF0
    · refine ⟨⟨3, 0x90, 0xBF, b.toNat % 8⟩,
        by rw [if_neg, if_neg, if_neg, if_neg, if_neg, if_neg, if_pos] <;> omega, rfl, ?_, ?_⟩ <;>
      simp only [Within, UInt8.reduceToNat, Nat.reducePow] <;> omega
    by_cases hhigh : b.toNat = 0xF4
    · refine ⟨⟨3, 0x80, 0x8F, b.toNat % 8⟩,
        by rw [if_neg, if_neg, if_neg, if_neg, if_neg, if_neg, if_neg, if_neg, if_pos] <;> omega,
        rfl, ?_, ?_⟩ <;>
      simp only [Within, UInt8.reduceToNat, Nat.reducePow] <;> omega
    · refine ⟨⟨3, 0x80, 0xBF, b.toNat % 8⟩,
        by rw [if_neg, if_neg, if_neg, if_neg, if_neg, if_neg, if_neg, if_pos] <;> omega,
        rfl, ?_, within_any 3 m⟩
      simp only [Nat.reducePow]
      omega

theorem lead_lt {v : Nat} (h : v < 0x110000) : mark (shortest v) + v / 64 ^ shortest v < 256 := by
  rcases shortest_cases v with ⟨hs, hm⟩ | ⟨hs, hm⟩ | ⟨hs, hm⟩ | ⟨hs, hm⟩ <;>
    simp only [hs, mark, Nat.reducePow, Nat.div_one] <;> omega

/-- The encoding of a character is the shortest form of its number. -/
theorem utf8EncodeChar_eq (c : Char) :
    String.utf8EncodeChar c = spread (shortest c.toNat) c.toNat := by
  have hv : c.toNat < 0xD800 ∨ 0xDFFF < c.toNat ∧ c.toNat < 0x110000 := c.valid
  unfold String.utf8EncodeChar
  rw [Char.toNat_val]
  generalize c.toNat = v at hv
  rcases shortest_cases v with ⟨hs, hm⟩ | ⟨hs, hm⟩ | ⟨hs, hm⟩ | ⟨hs, hm⟩
  all_goals
    rw [hs]
    simp only [spread, mark, sixes, Nat.reducePow, Nat.div_one, Nat.add_comm 0x80]
  · rw [if_pos (by omega), Nat.zero_add]
  · rw [if_neg (by omega), if_pos (by omega)]
    congr 2
    omega
  · rw [if_neg (by omega), if_neg (by omega), if_pos (by omega)]
    congr 2
    omega
  · rw [if_neg (by omega), if_neg (by omega), if_neg (by omega)]
    congr 2
    omega

theorem toNat_ofNat_of_valid {v : Nat} (h : v < 0xD800 ∨ 0xDFFF < v ∧ v < 0x110000) :
    (Char.ofNat v).toNat = v := by
  have hc : (Char.ofNatAux v h).toNat = v := rfl
  rw [← hc, Char.ofNat_toNat]

/-- The first part of the bytes is read as a character only where its encoding stands. -/
theorem first_eq_some_iff {b : UInt8} {rest tail : Bytes} {c : Char} :
    first b rest = (some c, tail) ↔ b :: rest = String.utf8EncodeChar c ++ tail := by
  have hv : c.toNat < 0xD800 ∨ 0xDFFF < c.toNat ∧ c.toNat < 0x110000 := c.valid
  rw [utf8EncodeChar_eq, spread, List.cons_append, List.cons.injEq, first]
  constructor
  · intro h
    split at h
    · cases h
    · rename_i lead hlead
      obtain ⟨hlow, hhigh, hsound⟩ := lead?_sound hlead
      rcases hfollow : follow lead.following lead.low lead.high lead.bits rest with ⟨_ | m, tail'⟩
      · simp [hfollow] at h
      · obtain ⟨rfl, rfl⟩ : Char.ofNat m = c ∧ tail' = tail := by simpa [hfollow] using h
        obtain ⟨hrest, hbits, hwithin⟩ := (follow_eq_some_iff hlow hhigh).mp hfollow
        obtain ⟨hvalid, hshortest, hb⟩ := hsound m hbits hwithin
        rw [toNat_ofNat_of_valid hvalid, hshortest, hbits, ← hb, UInt8.ofNat_toNat]
        exact ⟨rfl, hrest⟩
  · rintro ⟨hb, hrest⟩
    have hlt := lead_lt (v := c.toNat) (by omega)
    have hb' : b.toNat = mark (shortest c.toNat) + c.toNat / 64 ^ shortest c.toNat := by
      rw [hb, UInt8.toNat_ofNat_of_lt' hlt]
    obtain ⟨lead, hlead, hfollowing, hbits, hwithin⟩ := lead?_complete hv hb'
    obtain ⟨hlow, hhigh, -⟩ := lead?_sound hlead
    rw [← hfollowing] at hrest
    have hfollow := (follow_eq_some_iff hlow hhigh).mpr ⟨hrest, hbits, hwithin⟩
    simp only [hlead, hfollow, Option.map_some, Char.ofNat_toNat]

end Replay.Text.Utf8
