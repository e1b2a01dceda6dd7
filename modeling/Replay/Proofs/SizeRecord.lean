import Replay.Proofs.Fields
import Replay.Stream.SizeTable

/-!
The record that opens an event stream, as it is written: the list of its entries. Reading accepts
exactly the written records, and a table gives each code the size of the last entry for it.
-/

namespace Replay.SizeRecord

open Reader

/-- An entry as it is written. -/
def entryBytes (entry : UInt8 × UInt16) : Bytes :=
  entry.1 :: Bytes.bigEndian 2 entry.2.toNat

/-- The record with these entries as it is written. -/
def encode (entries : List (UInt8 × UInt16)) : Bytes :=
  UInt8.ofNat code :: UInt8.ofNat (1 + 3 * entries.length) :: entries.flatMap entryBytes

/-- A size byte has no room for more entries. -/
def maxEntries : Nat := 84

/-- The size of the last entry for a code. -/
def lastSize? (entries : List (UInt8 × UInt16)) (code : UInt8) : Option UInt16 :=
  entries.reverse.lookup code

def addEntry (table : SizeTable) (entry : UInt8 × UInt16) : SizeTable :=
  Entries.put entry.1.toNat (entry.2.toNat : Int) table

/-- What reading makes of the record with these entries. -/
def ofEntries (entries : List (UInt8 × UInt16)) : SizeRecord where
  length := (encode entries).length
  table := entries.foldl addEntry []

theorem length_entries (entries : List (UInt8 × UInt16)) :
    (entries.flatMap entryBytes).length = 3 * entries.length := by
  induction entries with
  | nil => rfl
  | cons entry entries ih =>
    rw [List.flatMap_cons, List.length_append, ih, entryBytes, List.length_cons,
      Bytes.length_bigEndian, List.length_cons]
    omega

theorem length_encode (entries : List (UInt8 × UInt16)) :
    (encode entries).length = 2 + 3 * entries.length := by
  simp only [encode, List.length_cons, length_entries]
  omega

theorem toNat_length {entries : List (UInt8 × UInt16)} (h : entries.length ≤ maxEntries) :
    (UInt8.ofNat (1 + 3 * entries.length)).toNat = 1 + 3 * entries.length := by
  rw [maxEntries] at h
  have hlt : 1 + 3 * entries.length < 2 ^ 8 := by omega
  exact UInt8.toNat_ofNat_of_lt' hlt

/-- Of several entries for one code the last one counts. -/
theorem lookup_ofEntries (entries : List (UInt8 × UInt16)) (code : UInt8) :
    (ofEntries entries).table.lookup code.toNat =
      (lastSize? entries code).map fun size => (size.toNat : Int) := by
  have h : ∀ table : SizeTable, (entries.foldl addEntry table).lookup code.toNat =
      ((lastSize? entries code).map fun size => (size.toNat : Int)).or
        (table.lookup code.toNat) := by
    induction entries with
    | nil => intro table; rfl
    | cons entry entries ih =>
      obtain ⟨b, size⟩ := entry
      intro table
      have hk : (code.toNat == b.toNat) = (code == b) := by
        rw [Bool.eq_iff_iff, beq_iff_eq, beq_iff_eq, UInt8.toNat_inj]
      rw [List.foldl_cons, ih, addEntry, Entries.lookup_put, hk]
      simp only [lastSize?, List.reverse_cons, List.lookup_append, List.lookup_cons,
        List.lookup_nil]
      cases List.lookup code entries.reverse with
      | some size => rfl
      | none => cases code == b <;> rfl
  have hn := h []
  rw [List.lookup_nil, Option.or_none] at hn
  exact hn

theorem composed_readEntries (n : Nat) (table : SizeTable) : Composed (readEntries n table) := by
  induction n generalizing table with
  | zero => exact .pure table
  | succ n ih => exact .bind (.read _) fun code => .bind (.read _) fun size => ih _

/-- What follows the length byte. -/
theorem composed_afterLength (length : Nat) : Composed (
    if length % 3 ≠ 1 then Decoder.reject (.sizeTableLength length)
    else do
      let table ← readEntries ((length - 1) / 3) []
      pure { length := 1 + length, table : SizeRecord }) := by
  split
  · exact .reject _ ⟨nofun, nofun⟩
  · exact .bind (composed_readEntries _ _) fun _ => .pure _

/-- What follows the code byte. -/
theorem composed_afterCode (got : Nat) : Composed (
    if got ≠ code then Decoder.reject (.noSizeTable got)
    else do
      let length ← Layout.u8.read
      if length % 3 ≠ 1 then Decoder.reject (.sizeTableLength length)
      else
        let table ← readEntries ((length - 1) / 3) []
        pure { length := 1 + length, table : SizeRecord }) := by
  split
  · exact .reject _ ⟨nofun, nofun⟩
  · exact .bind (.read _) composed_afterLength

theorem composed_reader : Composed reader :=
  .bind (.read _) composed_afterCode

theorem reads_entries_iff {n : Nat} {table result : SizeTable} {bytes : Bytes} :
    (readEntries n table).Reads bytes result ↔
      ∃ entries : List (UInt8 × UInt16), entries.length = n ∧
        bytes = entries.flatMap entryBytes ∧ result = entries.foldl addEntry table := by
  induction n generalizing table bytes with
  | zero =>
    refine reads_pure_iff.trans ⟨?_, ?_⟩
    · intro h
      obtain ⟨rfl, rfl⟩ := h
      exact ⟨[], rfl, rfl, rfl⟩
    · intro h
      obtain ⟨entries, hn, rfl, rfl⟩ := h
      rw [List.length_eq_zero_iff.mp hn]
      exact ⟨rfl, rfl⟩
  | succ n ih =>
    have hf : ∀ code : Nat, (Layout.u16.read >>= fun size =>
        readEntries n (Entries.put code (size : Int) table)).Framed := fun code =>
      (Composed.bind (.read _) fun size => composed_readEntries n _).framed
    refine (Layout.reads_u8_bind_iff hf).trans ⟨?_, ?_⟩
    · intro h
      obtain ⟨b, rest, rfl, hr⟩ := h
      obtain ⟨ys, zs, size, rfl, hs, hz⟩ := (reads_bind_iff (Composed.read _).framed
        fun size => (composed_readEntries n _).framed).mp hr
      obtain ⟨hb, rfl⟩ := Layout.reads_unsigned_iff.mp hs
      obtain ⟨entries, rfl, rfl, rfl⟩ := ih.mp hz
      have ht : (UInt16.ofNat size).toNat = size := UInt16.toNat_ofNat_of_lt' hb
      refine ⟨(b, UInt16.ofNat size) :: entries, rfl, ?_, ?_⟩
      · rw [List.flatMap_cons, entryBytes, ht]
        rfl
      · rw [List.foldl_cons, addEntry, ht]
    · intro h
      obtain ⟨entries, hn, rfl, rfl⟩ := h
      obtain ⟨⟨b, size⟩, entries, rfl⟩ := List.exists_cons_of_length_eq_add_one hn
      have hr : (readEntries n (addEntry table (b, size))).Reads (entries.flatMap entryBytes)
          (entries.foldl addEntry (addEntry table (b, size))) :=
        ih.mpr ⟨entries, Nat.succ.inj hn, rfl, rfl⟩
      have hs : Layout.u16.read.Reads (Bytes.bigEndian 2 size.toNat) size.toNat :=
        Layout.reads_unsigned_iff.mpr ⟨size.toNat_lt, rfl⟩
      exact ⟨b, _, rfl, hs.bind hr⟩

theorem reads_body_iff {bytes : Bytes} {record : SizeRecord} :
    Reads (do
      let length ← Layout.u8.read
      if length % 3 ≠ 1 then Decoder.reject (.sizeTableLength length)
      else
        let table ← readEntries ((length - 1) / 3) []
        pure { length := 1 + length, table }) bytes record ↔
      ∃ entries : List (UInt8 × UInt16), entries.length ≤ maxEntries ∧
        bytes = UInt8.ofNat (1 + 3 * entries.length) :: entries.flatMap entryBytes ∧
        record = ofEntries entries := by
  constructor
  · intro h
    obtain ⟨b, ys, rfl, hy⟩ := (Layout.reads_u8_bind_iff fun length =>
      (composed_afterLength length).framed).mp h
    have hb := b.toNat_lt
    split at hy
    · exact absurd hy not_reads_reject
    · obtain ⟨zs, _, table, rfl, ht, hz⟩ := (reads_bind_iff (composed_readEntries _ _).framed
        fun _ => Framed.pure _).mp hy
      obtain ⟨rfl, rfl⟩ := reads_pure_iff.mp hz
      obtain ⟨entries, hn, rfl, rfl⟩ := reads_entries_iff.mp ht
      have hs : 1 + 3 * entries.length = b.toNat := by omega
      have hr : 1 + b.toNat = (encode entries).length := by rw [length_encode]; omega
      refine ⟨entries, by rw [maxEntries]; omega, ?_, ?_⟩
      · rw [hs, UInt8.ofNat_toNat, List.append_nil]
      · rw [hr]
        rfl
  · intro h
    obtain ⟨entries, hn, rfl, rfl⟩ := h
    have hl : (UInt8.ofNat (1 + 3 * entries.length)).toNat = 1 + 3 * entries.length :=
      UInt8.toNat_ofNat_of_lt' (by rw [maxEntries] at hn; show _ < 256; omega)
    have hu : Layout.u8.read.Reads [UInt8.ofNat (1 + 3 * entries.length)]
        (1 + 3 * entries.length) := Layout.reads_u8_iff.mpr ⟨_, rfl, hl.symm⟩
    have hd : (1 + 3 * entries.length - 1) / 3 = entries.length := by omega
    have ht : (readEntries entries.length []).Reads (entries.flatMap entryBytes)
        (entries.foldl addEntry []) := reads_entries_iff.mpr ⟨entries, rfl, rfl, rfl⟩
    have hr : 1 + (1 + 3 * entries.length) = (encode entries).length := by
      rw [length_encode]
      omega
    have hp : Reads (do
        let table ← readEntries entries.length []
        pure { length := (encode entries).length, table : SizeRecord })
        (entries.flatMap entryBytes) (ofEntries entries) := by
      rw [← List.append_nil (entries.flatMap entryBytes)]
      exact Reads.bind ht (Reads.pure _)
    apply Reads.bind hu
    rw [if_neg (by omega), hd, hr]
    exact hp

/-- Reading accepts exactly the records that can be written. -/
theorem reads_iff {bytes : Bytes} {record : SizeRecord} :
    reader.Reads bytes record ↔ ∃ entries : List (UInt8 × UInt16),
      entries.length ≤ maxEntries ∧ bytes = encode entries ∧ record = ofEntries entries := by
  constructor
  · intro h
    obtain ⟨b, ys, rfl, hy⟩ := (Layout.reads_u8_bind_iff fun got =>
      (composed_afterCode got).framed).mp h
    split at hy
    · exact absurd hy not_reads_reject
    · rename_i hb
      obtain ⟨entries, hn, rfl, rfl⟩ := reads_body_iff.mp hy
      have hc : b = UInt8.ofNat code := by
        rw [← Decidable.not_not.mp hb, UInt8.ofNat_toNat]
      exact ⟨entries, hn, by rw [hc]; rfl, rfl⟩
  · intro h
    obtain ⟨entries, hn, rfl, rfl⟩ := h
    have hu : Layout.u8.read.Reads [UInt8.ofNat code] code :=
      Layout.reads_u8_iff.mpr ⟨_, rfl, rfl⟩
    apply Reads.bind hu
    rw [if_neg (by omega)]
    exact reads_body_iff.mpr ⟨entries, hn, rfl, rfl⟩

end Replay.SizeRecord
