import Mathlib.Algebra.Order.Ring.Nat
import Replay.Proofs.Reading

/-!
Fields of fixed layouts and numbers in byte strings. A layout takes exactly the bytes of its size,
and its value is made of what lies at its offsets; a number is read from the one string of its
width that writes it with the leading byte first.
-/

namespace Replay

/-- The bytes from an offset on, as many as the size says. -/
def Bytes.slice (bytes : Bytes) (offset size : Nat) : Bytes :=
  (bytes.drop offset).take size

theorem Bytes.slice_drop (bytes : Bytes) (start offset size : Nat) :
    Bytes.slice (bytes.drop start) offset size = bytes.slice (start + offset) size := by
  simp only [slice, List.drop_drop]

theorem Bytes.slice_append {bytes rest : Bytes} {offset size : Nat}
    (h : offset + size ≤ bytes.length) :
    Bytes.slice (bytes ++ rest) offset size = bytes.slice offset size := by
  have hd : size ≤ (bytes.drop offset).length := by
    rw [List.length_drop]
    omega
  rw [slice, slice, List.drop_append_of_le_length (by omega), List.take_append_of_le_length hd]

namespace Bytes

/-- The digits of a number in base 256, as many as the width says, the leading digit first. -/
def bigEndian : Nat → Nat → Bytes
  | 0, _ => []
  | width + 1, n => bigEndian width (n / 256) ++ [UInt8.ofNat n]

@[simp] theorem length_bigEndian (width n : Nat) : (bigEndian width n).length = width := by
  induction width generalizing n with
  | zero => rfl
  | succ width ih => rw [bigEndian, List.length_append, ih, List.length_singleton]

theorem unsigned_concat (bytes : Bytes) (b : UInt8) :
    unsigned (bytes ++ [b]) = 256 * unsigned bytes + b.toNat := by
  simp only [unsigned, List.foldl_append, List.foldl_cons, List.foldl_nil]

theorem unsigned_bigEndian {width n : Nat} (h : n < 256 ^ width) :
    unsigned (bigEndian width n) = n := by
  induction width generalizing n with
  | zero =>
    have hn : n = 0 := by simpa using h
    rw [hn]
    rfl
  | succ width ih =>
    have hn : n / 256 < 256 ^ width := by
      rw [Nat.div_lt_iff_lt_mul (by omega)]
      simpa only [Nat.pow_succ] using h
    rw [bigEndian, unsigned_concat, ih hn, UInt8.toNat_ofNat']
    omega

/-- Each byte string writes a number below the bound of its width, and only it does. -/
theorem bigEndian_unsigned (bytes : Bytes) :
    unsigned bytes < 256 ^ bytes.length ∧ bigEndian bytes.length (unsigned bytes) = bytes := by
  induction hn : bytes.length generalizing bytes with
  | zero =>
    rw [List.length_eq_zero_iff.mp hn]
    exact ⟨by decide, rfl⟩
  | succ width ih =>
    obtain ⟨front, b, rfl⟩ := List.eq_nil_or_concat bytes |>.resolve_left (by rintro rfl; cases hn)
    rw [List.concat_eq_append, List.length_append, List.length_singleton] at hn
    obtain ⟨hl, hf⟩ := ih front (by omega)
    have hb := b.toNat_lt
    rw [List.concat_eq_append, unsigned_concat]
    refine ⟨by rw [Nat.pow_succ]; omega, ?_⟩
    have hd : (256 * unsigned front + b.toNat) / 256 = unsigned front := by omega
    have hm : UInt8.ofNat (256 * unsigned front + b.toNat) = b := by
      apply UInt8.toNat.inj
      rw [UInt8.toNat_ofNat']
      omega
    rw [bigEndian, hd, hf, hm]

theorem bigEndian_one (b : UInt8) : bigEndian 1 b.toNat = [b] := by
  rw [bigEndian, bigEndian, UInt8.ofNat_toNat]
  rfl

/-- The digits of a number modulo the bound of the width, the leading digit first. -/
def twosComplement (width : Nat) (n : Int) : Bytes :=
  bigEndian width (n % (256 ^ width : Nat)).toNat

/-- The number has a two's complement of the width. -/
def InRange (width : Nat) (n : Int) : Prop :=
  -(256 ^ width : Nat) ≤ 2 * n ∧ 2 * n < (256 ^ width : Nat)

instance (width : Nat) (n : Int) : Decidable (InRange width n) :=
  inferInstanceAs (Decidable (_ ∧ _))

theorem emod_of_neg {n : Int} {bound : Nat} (hn : n < 0) (hb : -bound ≤ 2 * n) :
    n % bound = n + bound := by
  rw [← Int.add_emod_right, Int.emod_eq_of_lt (by omega) (by omega)]

theorem signed_twosComplement {width : Nat} {n : Int} (h : InRange width n) :
    signed (twosComplement width n) = n := by
  obtain ⟨hlow, hhigh⟩ := h
  have hu : unsigned (twosComplement width n) = (n % (256 ^ width : Nat)).toNat := by
    refine unsigned_bigEndian ?_
    have := Int.emod_lt_of_pos n (b := (256 ^ width : Nat)) (by omega)
    have := Int.emod_nonneg n (b := (256 ^ width : Nat)) (by omega)
    omega
  have hl : (twosComplement width n).length = width := length_bigEndian ..
  simp only [signed, hl, hu, Nat.pow_eq]
  rcases Int.lt_or_le n 0 with hn | hn
  · rw [emod_of_neg hn hlow, if_neg (by omega)]
    omega
  · rw [Int.emod_eq_of_lt hn (by omega), if_pos (by omega)]
    omega

/-- Each byte string is the two's complement of a number in the range of its width. -/
theorem twosComplement_signed (bytes : Bytes) :
    InRange bytes.length (signed bytes) ∧ twosComplement bytes.length (signed bytes) = bytes := by
  obtain ⟨hl, hb⟩ := bytes.bigEndian_unsigned
  have hmod : (signed bytes % (256 ^ bytes.length : Nat)).toNat = unsigned bytes := by
    simp only [signed, Nat.pow_eq]
    split
    · rw [Int.emod_eq_of_lt (by omega) (by omega)]
      omega
    · rw [Int.sub_emod_right, Int.emod_eq_of_lt (by omega) (by omega)]
      omega
  refine ⟨?_, ?_⟩
  · simp only [signed, InRange, Nat.pow_eq]
    split <;> omega
  · rw [twosComplement, hmod, hb]

end Bytes

namespace Layout

variable {α β : Type}

/-- What the layout makes of the bytes that lie at its offsets. -/
def valueOf {α : Type} : Layout α → Bytes → α
  | .value a, _ => a
  | .block size, bytes => bytes.slice 0 size
  | .named _ layout, bytes => layout.valueOf bytes
  | .map f layout, bytes => f (layout.valueOf bytes)
  | .seq f layout, bytes => f.valueOf bytes (layout.valueOf (bytes.drop f.size))

theorem readBlock_ok {path : List String} {size : Nat} {s t : Source} {a : Bytes}
    (h : (readBlock path size).run s = (.ok a, t)) :
    size ≤ s.left.length ∧ a = s.left.slice 0 size ∧ t = s.skip size := by
  rw [run_readBlock] at h
  split at h
  · rename_i got u hr
    split at h
    · rename_i hn
      cases h
      subst hn
      obtain ⟨hl, rfl⟩ := Source.read_bytes hr
      refine ⟨?_, ?_, rfl⟩
      · rw [hl, List.length_append]
        exact Nat.le_add_right ..
      · rw [hl, Bytes.slice, List.drop_zero, List.take_left]
    · cases h
  · cases h
  · cases h

theorem readUnder_ok {layout : Layout α} {path : List String} {s t : Source} {a : α}
    (h : (layout.readUnder path).run s = (.ok a, t)) :
    layout.size ≤ s.left.length ∧ a = layout.valueOf s.left ∧ t = s.skip layout.size := by
  induction layout generalizing path s t with
  | value b =>
    cases h
    exact ⟨Nat.zero_le _, rfl, (Source.skip_zero s).symm⟩
  | block size => exact readBlock_ok h
  | named name layout ih => exact ih h
  | map f layout ih =>
    obtain ⟨b, u, hb, hu⟩ := Decoder.run_bind_eq_ok h
    obtain ⟨hs, rfl, rfl⟩ := ih hb
    cases hu
    exact ⟨hs, rfl, rfl⟩
  | seq f layout ihf ih =>
    obtain ⟨g, u, hg, hu⟩ := Decoder.run_bind_eq_ok h
    obtain ⟨b, v, hb, hv⟩ := Decoder.run_bind_eq_ok hu
    obtain ⟨hs, rfl, rfl⟩ := ihf hg
    obtain ⟨hs', rfl, rfl⟩ := ih hb
    cases hv
    refine ⟨?_, rfl, Source.skip_skip ..⟩
    rw [Source.left_skip, List.length_drop] at hs'
    simp only [size]
    omega

/-- A layout that has been read was there in full, and its value is the one at its offsets. -/
theorem read_ok {layout : Layout α} {s t : Source} {a : α}
    (h : layout.read.run s = (.ok a, t)) :
    layout.size ≤ s.left.length ∧ a = layout.valueOf s.left ∧ t = s.skip layout.size :=
  readUnder_ok h

theorem valueOf_append {layout : Layout α} {bytes rest : Bytes} (h : layout.size ≤ bytes.length) :
    layout.valueOf (bytes ++ rest) = layout.valueOf bytes := by
  induction layout generalizing bytes with
  | value a => rfl
  | block size => exact Bytes.slice_append (by rwa [Nat.zero_add])
  | named name layout ih => exact ih h
  | map f layout ih => rw [valueOf, valueOf, ih h]
  | seq f layout ihf ih =>
    simp only [size] at h
    have hd : layout.size ≤ (bytes.drop f.size).length := by
      rw [List.length_drop]
      omega
    rw [valueOf, valueOf, ihf (by omega), List.drop_append_of_le_length (by omega), ih hd]

theorem readUnder_of_size_le {layout : Layout α} {s : Source} (path : List String)
    (hs : s.InMemory) (h : layout.size ≤ s.left.length) :
    (layout.readUnder path).run s = (.ok (layout.valueOf s.left), s.skip layout.size) := by
  induction layout generalizing path s with
  | value a => rw [valueOf, size, Source.skip_zero]; rfl
  | block size =>
    have hn : size ≤ s.left.length := h
    have ht : (s.left.take size).length = size := List.length_take_of_le hn
    rw [readUnder, run_readBlock, hs.read, Nat.min_eq_left hn]
    simp only [ht, ↓reduceIte, valueOf, Bytes.slice, List.drop_zero, Layout.size]
  | named name layout ih => exact ih (path ++ [name]) hs h
  | map f layout ih =>
    rw [readUnder, Decoder.run_bind, ih path hs h]
    rfl
  | seq f layout ihf ih =>
    simp only [size] at h
    have hd : layout.size ≤ (s.skip f.size).left.length := by
      rw [Source.left_skip, List.length_drop]
      omega
    rw [readUnder, Decoder.run_bind, ihf path hs (by omega)]
    dsimp only
    rw [Decoder.run_bind, ih path (hs.skip _) hd]
    dsimp only [Decoder.run_pure]
    rw [Source.skip_skip]
    rfl

/-- A layout reads exactly the strings of its size. -/
theorem reads_iff {layout : Layout α} {bytes : Bytes} {a : α} :
    layout.read.Reads bytes a ↔ bytes.length = layout.size ∧ a = layout.valueOf bytes := by
  constructor
  · intro h
    obtain ⟨hl, ha, ht⟩ := read_ok h.run_ofBytes
    have hn : 0 + bytes.length = 0 + layout.size := congrArg Source.taken ht
    exact ⟨by omega, ha⟩
  · rintro ⟨hl, rfl⟩ s rest hs h
    have hn : layout.size ≤ s.left.length := by
      rw [h, List.length_append]
      omega
    rw [read, readUnder_of_size_le [] hs hn, h, valueOf_append (by omega), hl]

/-- A number of a width is read from the string that writes it. -/
theorem reads_unsigned_iff {width : Nat} {bytes : Bytes} {n : Nat} :
    (Bytes.unsigned <$> block width).read.Reads bytes n ↔
      n < 256 ^ width ∧ bytes = Bytes.bigEndian width n := by
  rw [reads_iff]
  change bytes.length = width ∧ n = (bytes.slice 0 width).unsigned ↔ _
  constructor
  · intro h
    obtain ⟨rfl, hn⟩ := h
    rw [Bytes.slice, List.drop_zero, List.take_length] at hn
    obtain ⟨hl, hb⟩ := bytes.bigEndian_unsigned
    rw [hn]
    exact ⟨hl, hb.symm⟩
  · intro h
    obtain ⟨hn, rfl⟩ := h
    have hl := Bytes.length_bigEndian width n
    refine ⟨hl, ?_⟩
    rw [Bytes.slice, List.drop_zero, List.take_of_length_le (Nat.le_of_eq hl),
      Bytes.unsigned_bigEndian hn]

/-- Every string of the width is read as the number that it writes in two's complement. -/
theorem reads_signed_iff {width : Nat} {bytes : Bytes} {n : Int} :
    (Bytes.signed <$> block width).read.Reads bytes n ↔
      bytes.length = width ∧ n = bytes.signed := by
  rw [reads_iff]
  refine and_congr_right fun hn => ?_
  have hl : bytes.length = width := hn
  have hs : bytes.slice 0 width = bytes := by
    rw [Bytes.slice, List.drop_zero, List.take_of_length_le (Nat.le_of_eq hl)]
  change n = (bytes.slice 0 width).signed ↔ _
  rw [hs]

theorem reads_u8_iff {bytes : Bytes} {n : Nat} :
    u8.read.Reads bytes n ↔ ∃ b : UInt8, bytes = [b] ∧ n = b.toNat := by
  refine reads_unsigned_iff.trans ⟨?_, ?_⟩
  · intro h
    obtain ⟨hn, rfl⟩ := h
    have ht : n = (UInt8.ofNat n).toNat := (UInt8.toNat_ofNat_of_lt' hn).symm
    exact ⟨UInt8.ofNat n, rfl, ht⟩
  · intro h
    obtain ⟨b, rfl, rfl⟩ := h
    exact ⟨b.toNat_lt, (Bytes.bigEndian_one b).symm⟩

theorem run_u8 {s : Source} {b : UInt8} {more : Bytes} (hs : s.InMemory) (h : s.left = b :: more) :
    u8.read.run s = (.ok b.toNat, s.skip 1) :=
  reads_u8_iff.mpr ⟨b, rfl, rfl⟩ s more hs h

/-- One byte, and what it is followed by. -/
theorem reads_u8_bind_iff {next : Nat → Reader β} (hn : ∀ n, (next n).Framed) {bytes : Bytes}
    {b : β} :
    (u8.read >>= next).Reads bytes b ↔
      ∃ byte ys, bytes = byte :: ys ∧ (next byte.toNat).Reads ys b := by
  refine (Reader.reads_bind_iff (Reader.Composed.read _).framed hn).trans ⟨?_, ?_⟩
  · intro h
    obtain ⟨xs, ys, n, rfl, hx, hy⟩ := h
    obtain ⟨byte, rfl, rfl⟩ := reads_u8_iff.mp hx
    exact ⟨byte, ys, rfl, hy⟩
  · intro h
    obtain ⟨byte, ys, rfl, hy⟩ := h
    exact ⟨[byte], ys, byte.toNat, rfl, reads_u8_iff.mpr ⟨byte, rfl, rfl⟩, hy⟩

end Layout

end Replay
