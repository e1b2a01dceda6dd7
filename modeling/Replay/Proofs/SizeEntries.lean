import Mathlib.Data.List.Induction
import Replay.Proofs.Offsets
import Replay.Proofs.SizeRecord

/-!
The record that opens an event stream, on any data. It is read just when the data starts with a
whole record; what it then says about a code is what the last entry for the code says. A record
that is not there is refused after as many bytes as it took to see that.
-/

namespace Replay

theorem Bytes.slice_append_right (front rest : Bytes) (offset size : Nat) :
    Bytes.slice (front ++ rest) (front.length + offset) size = rest.slice offset size := by
  rw [slice, List.drop_length_add_append, slice]

theorem Bytes.u8At_zero (b : UInt8) (more : Bytes) : Bytes.u8At (b :: more) 0 = b.toNat :=
  Nat.zero_add _

namespace SizeTable

/-- The table that the entries come to: a code has the size of the last entry for it, and the codes
stand in the order in which they first appeared. -/
structure ComesOf (entries : List (Nat × Nat)) (table : SizeTable) : Prop where
  lookup : ∀ code, table.lookup code =
    ((entries.filter (·.1 == code)).getLast?).map fun entry => (entry.2 : Int)
  codes : table.map (·.1) = (entries.map (·.1)).eraseDups

theorem ComesOf.nil : ComesOf [] [] :=
  ⟨fun _ => rfl, rfl⟩

theorem ComesOf.concat {entries : List (Nat × Nat)} {table : SizeTable} (h : ComesOf entries table)
    (code size : Nat) :
    ComesOf (entries ++ [(code, size)]) (Entries.put code (size : Int) table) where
  lookup k := by
    rw [Entries.lookup_put, h.lookup, List.filter_append, List.filter_cons, List.filter_nil]
    by_cases hk : k = code
    · simp [hk]
    · have hcode : ¬code = k := fun he => hk he.symm
      simp [hk, hcode]
  codes := by
    rw [Entries.keys_put, h.codes, List.map_append, List.eraseDups_append]
    have hbehind : (entries.map (·.1)).eraseDups.contains code = (entries.map (·.1)).elem code := by
      rw [Bool.eq_iff_iff, List.contains_iff_mem, List.elem_iff, List.mem_eraseDups]
    rw [hbehind, List.map_cons, List.map_nil, List.removeAll, List.filter_cons, List.filter_nil]
    cases (entries.map (·.1)).elem code with
    | true => rw [if_pos rfl, if_neg (by decide), List.eraseDups_nil, List.append_nil]
    | false => rfl

end SizeTable

namespace SizeRecord

open Reader

/-- The entries as numbers. -/
def numbers (entries : List (UInt8 × UInt16)) : List (Nat × Nat) :=
  entries.map fun entry => (entry.1.toNat, entry.2.toNat)

/-- The entries of a record at their offsets: a code, and behind it a size. -/
def entriesAt (data : Bytes) : List (Nat × Nat) :=
  (List.range ((data.u8At 1 - 1) / 3)).map fun i => (data.u8At (2 + 3 * i), data.u16At (3 + 3 * i))

/-- The data does not start with a whole record. For which class it is refused, and after how many
bytes. -/
inductive Refused (data : Bytes) : ErrorClass → Nat → Prop where
  | code (b : UInt8) (more : Bytes) (starts : data = b :: more) (other : b ≠ 0x35) :
    Refused data .malformedEnvelope 1
  | length (length : UInt8) (more : Bytes) (starts : data = 0x35 :: length :: more)
    (uneven : length.toNat % 3 ≠ 1) : Refused data .malformedEnvelope 2
  | nothing (empty : data = []) : Refused data .truncatedInput data.length
  | noLength (ends : data = [0x35]) : Refused data .truncatedInput data.length
  | noEntry (length : UInt8) (more : Bytes) (starts : data = 0x35 :: length :: more)
    (even : length.toNat % 3 = 1) (short : more.length < length.toNat - 1) :
    Refused data .truncatedInput data.length

/-- The same entries in another order, but those for one code in the same order. -/
structure Reordered (entries others : List (UInt8 × UInt16)) : Prop where
  perm : entries.Perm others
  same : ∀ code, entries.filter (·.1 == code) = others.filter (·.1 == code)

/-- Neighbours with different codes may change places. -/
theorem Reordered.swap {entry other : UInt8 × UInt16} (h : entry.1 ≠ other.1)
    (entries : List (UInt8 × UInt16)) :
    Reordered (entry :: other :: entries) (other :: entry :: entries) where
  perm := .swap other entry entries
  same code := by
    by_cases he : entry.1 = code
    · have ho : ¬other.1 = code := fun ho => h (he.trans ho.symm)
      simp [he, ho]
    · simp [List.filter_cons, he]

theorem Reordered.filter_numbers {entries others : List (UInt8 × UInt16)}
    (h : Reordered entries others) (code : Nat) :
    (numbers entries).filter (·.1 == code) = (numbers others).filter (·.1 == code) := by
  have hsame : ∀ entries : List (UInt8 × UInt16), (numbers entries).filter (·.1 == code) =
      if code < 256 then numbers (entries.filter (·.1 == UInt8.ofNat code)) else [] := by
    intro entries
    rw [numbers, List.filter_map]
    split
    · rename_i hcode
      refine congrArg numbers (List.filter_congr fun entry _ => ?_)
      have htoNat : (UInt8.ofNat code).toNat = code := UInt8.toNat_ofNat_of_lt' hcode
      rw [Bool.eq_iff_iff, Function.comp_apply, beq_iff_eq, beq_iff_eq, ← UInt8.toNat_inj, htoNat]
    · rename_i hcode
      refine List.map_eq_nil_iff.mpr (List.filter_eq_nil_iff.mpr fun entry _ he => hcode ?_)
      exact beq_iff_eq.mp he ▸ entry.1.toNat_lt
  rw [hsame, hsame, h.same]

theorem comesOf_ofEntries (entries : List (UInt8 × UInt16)) :
    (ofEntries entries).table.ComesOf (numbers entries) := by
  induction entries using List.reverseRecOn with
  | nil => exact .nil
  | append_singleton entries entry ih =>
    have htable : (ofEntries (entries ++ [entry])).table =
        Entries.put entry.1.toNat (entry.2.toNat : Int) (ofEntries entries).table := by
      simp only [ofEntries, List.foldl_append, List.foldl_cons, List.foldl_nil, addEntry]
    rw [htable, numbers, List.map_append]
    exact ih.concat entry.1.toNat entry.2.toNat

/-- A record is read just where it stands at the front. -/
theorem run_ok_iff {data : Bytes} {record : SizeRecord} {t : Source} :
    reader.run (.ofBytes data) = (.ok record, t) ↔ ∃ entries rest, entries.length ≤ maxEntries ∧
      data = encode entries ++ rest ∧ record = ofEntries entries ∧
      t = (Source.ofBytes data).skip (encode entries).length := by
  rw [composed_reader.framed.run_ofBytes_iff]
  constructor
  · rintro ⟨_, rest, hdata, hreads, ht⟩
    obtain ⟨entries, hn, rfl, hrecord⟩ := reads_iff.mp hreads
    exact ⟨entries, rest, hn, hdata, hrecord, ht⟩
  · rintro ⟨entries, rest, hn, hdata, hrecord, ht⟩
    exact ⟨_, rest, hdata, reads_iff.mpr ⟨entries, hn, rfl, hrecord⟩, ht⟩

/-- Three bytes for each entry are the bytes of some entries. -/
theorem exists_entries (n : Nat) {bytes : Bytes} (h : 3 * n ≤ bytes.length) :
    ∃ (entries : List (UInt8 × UInt16)) (rest : Bytes), entries.length = n ∧
      bytes = entries.flatMap entryBytes ++ rest := by
  induction n generalizing bytes with
  | zero => exact ⟨[], bytes, rfl, rfl⟩
  | succ n ih =>
    match bytes, h with
    | code :: high :: low :: bytes, h =>
      obtain ⟨entries, rest, hn, rfl⟩ : ∃ (entries : List (UInt8 × UInt16)) (rest : Bytes),
          entries.length = n ∧ bytes = entries.flatMap entryBytes ++ rest := by
        refine ih ?_
        simp only [List.length_cons] at h
        omega
      obtain ⟨hlt, hsize⟩ := Bytes.bigEndian_unsigned [high, low]
      have htwo : ([high, low] : Bytes).length = 2 := rfl
      rw [htwo] at hlt hsize
      generalize Bytes.unsigned [high, low] = size at hlt hsize
      have htoNat : (UInt16.ofNat size).toNat = size := UInt16.toNat_ofNat_of_lt' hlt
      refine ⟨(code, UInt16.ofNat size) :: entries, rest, ?_, ?_⟩
      · rw [List.length_cons, hn]
      · rw [List.flatMap_cons, entryBytes, htoNat, hsize]
        rfl

/-- The records that can be written, by their first two bytes. -/
theorem exists_encode_iff {data : Bytes} :
    (∃ entries rest, entries.length ≤ maxEntries ∧ data = encode entries ++ rest) ↔
      ∃ length more, data = 0x35 :: length :: more ∧ length.toNat % 3 = 1 ∧
        length.toNat - 1 ≤ more.length := by
  constructor
  · rintro ⟨entries, rest, hn, rfl⟩
    have hlength : (UInt8.ofNat (1 + 3 * entries.length)).toNat = 1 + 3 * entries.length :=
      toNat_length hn
    refine ⟨_, entries.flatMap entryBytes ++ rest, rfl, ?_, ?_⟩
    · omega
    · rw [List.length_append, length_entries]
      omega
  · rintro ⟨length, more, rfl, heven, hmore⟩
    have hlt := length.toNat_lt
    obtain ⟨entries, rest, hn, rfl⟩ := exists_entries ((length.toNat - 1) / 3)
      (show 3 * ((length.toNat - 1) / 3) ≤ more.length by omega)
    have hlength : 1 + 3 * entries.length = length.toNat := by omega
    refine ⟨entries, rest, ?_, ?_⟩
    · rw [maxEntries]
      omega
    · rw [encode, hlength, UInt8.ofNat_toNat]
      rfl

theorem map_range_entries (entries : List (UInt8 × UInt16)) (rest : Bytes) :
    (List.range entries.length).map (fun i =>
        (Bytes.u8At (entries.flatMap entryBytes ++ rest) (3 * i),
          Bytes.u16At (entries.flatMap entryBytes ++ rest) (1 + 3 * i))) = numbers entries := by
  induction entries with
  | nil => rfl
  | cons entry entries ih =>
    obtain ⟨code, size⟩ := entry
    have hfirst : Bytes.slice (Bytes.bigEndian 2 size.toNat ++ (entries.flatMap entryBytes ++ rest))
        0 2 = Bytes.bigEndian 2 size.toNat := List.take_left' (Bytes.length_bigEndian ..)
    have hsize : Bytes.unsigned (Bytes.bigEndian 2 size.toNat) = size.toNat :=
      Bytes.unsigned_bigEndian size.toNat_lt
    have hcode : Bytes.u8At (entryBytes (code, size) ++ (entries.flatMap entryBytes ++ rest)) 0 =
        code.toNat := Bytes.u8At_zero code (Bytes.bigEndian 2 size.toNat ++ _)
    have hlength : (entryBytes (code, size)).length = 3 := rfl
    rw [List.length_cons, List.range_succ_eq_map, List.map_cons, List.map_map, numbers,
      List.map_cons, ← numbers, ← ih, List.flatMap_cons, List.append_assoc]
    refine congrArg₂ List.cons (Prod.ext hcode ?_) (List.map_congr_left fun i _ => ?_)
    · exact (congrArg Bytes.unsigned hfirst).trans hsize
    · have hcode : 3 * (i + 1) = (entryBytes (code, size)).length + 3 * i := by omega
      have hbehind : 1 + 3 * (i + 1) = (entryBytes (code, size)).length + (1 + 3 * i) := by omega
      change (Bytes.u8At _ (3 * (i + 1)), Bytes.u16At _ (1 + 3 * (i + 1))) = _
      rw [hbehind, hcode, Bytes.u8At, Bytes.u16At, Bytes.slice_append_right,
        Bytes.slice_append_right, Bytes.u8At, Bytes.u16At]

theorem u8At_encode {entries : List (UInt8 × UInt16)} (h : entries.length ≤ maxEntries)
    (rest : Bytes) : Bytes.u8At (encode entries ++ rest) 1 = 1 + 3 * entries.length :=
  (Bytes.u8At_zero _ _).trans (toNat_length h)

theorem entriesAt_encode {entries : List (UInt8 × UInt16)} (h : entries.length ≤ maxEntries)
    (rest : Bytes) : entriesAt (encode entries ++ rest) = numbers entries := by
  have hcount : (1 + 3 * entries.length - 1) / 3 = entries.length := by omega
  rw [entriesAt, u8At_encode h, hcount, ← map_range_entries entries rest]
  refine List.map_congr_left fun i _ => ?_
  have hfront : ∀ offset size, Bytes.slice (encode entries ++ rest) (2 + offset) size =
      Bytes.slice (entries.flatMap entryBytes ++ rest) offset size :=
    Bytes.slice_append_right [UInt8.ofNat code, UInt8.ofNat (1 + 3 * entries.length)] _
  have hsize : 3 + 3 * i = 2 + (1 + 3 * i) := by omega
  simp only [Bytes.u8At, Bytes.u16At, hsize, hfront]

theorem runsDry_readEntries {n : Nat} {table : SizeTable} {s : Source} (hs : s.InMemory)
    (h : s.left.length < 3 * n) : (readEntries n table).RunsDry s := by
  induction n generalizing table s with
  | zero => exact absurd h (Nat.not_lt_zero _)
  | succ n ih =>
    rcases Nat.lt_or_ge s.left.length Layout.u8.size with h1 | h1
    · exact (runsDry_readUnder [] hs h1).bind _
    · refine .of_bind (Layout.readUnder_of_size_le [] hs h1) ?_
      have hleft : (s.skip Layout.u8.size).left.length = s.left.length - 1 := List.length_drop
      rcases Nat.lt_or_ge (s.skip Layout.u8.size).left.length Layout.u16.size with h2 | h2
      · exact (runsDry_readUnder [] (hs.skip _) h2).bind _
      · refine .of_bind (Layout.readUnder_of_size_le [] (hs.skip _) h2) ?_
        refine ih ((hs.skip _).skip _) ?_
        rw [Source.skip_skip, Source.left_skip, List.length_drop]
        change 1 ≤ s.left.length at h1
        change 2 ≤ (s.skip Layout.u8.size).left.length at h2
        change s.left.length - 3 < _
        omega

theorem taken_of_left_nil {data : Bytes} {r : Except Failure SizeRecord} {t : Source}
    (h : reader.run (.ofBytes data) = (r, t)) (hleft : t.left = []) : t.taken = data.length := by
  have hreach := reader.reaches (.ofBytes data)
  rw [h] at hreach
  obtain ⟨n, hn, rfl⟩ := hreach
  have hend : data.length ≤ n := List.drop_eq_nil_iff.mp hleft
  exact (Nat.zero_add n).trans (Nat.le_antisymm hn hend)

theorem refused_of_error {data : Bytes} {e : Failure} {t : Source}
    (h : reader.run (.ofBytes data) = (.error e, t)) :
    ∃ cause, e = .ofCause cause ∧ Refused data cause.errorClass t.taken := by
  have hs := Source.inMemory_ofBytes data
  have hdry : Refused data .truncatedInput data.length → reader.RunsDry (.ofBytes data) →
      ∃ cause, e = .ofCause cause ∧ Refused data cause.errorClass t.taken := by
    rintro refused ⟨cause, u, hu, hclass, hleft⟩
    rw [h] at hu
    cases hu
    exact ⟨cause, rfl, hclass ▸ taken_of_left_nil h hleft ▸ refused⟩
  match data with
  | [] => exact hdry (.nothing rfl) ((runsDry_readUnder [] hs (by decide)).bind _)
  | b :: more =>
    have hfirst := Layout.run_u8 hs rfl
    by_cases hb : b = 0x35
    · subst hb
      match more with
      | [] =>
        refine hdry (.noLength rfl) (.of_bind hfirst ?_)
        have hlength : Layout.u8.read.RunsDry (Source.skip (.ofBytes [0x35]) 1) :=
          runsDry_readUnder [] (hs.skip 1) (by decide)
        exact hlength.bind _
      | length :: more =>
        have hsecond := Layout.run_u8 (hs.skip 1) rfl
        by_cases heven : length.toNat % 3 = 1
        · rcases Nat.lt_or_ge more.length (length.toNat - 1) with hshort | hmore
          · refine hdry (.noEntry length more rfl heven hshort) (.of_bind hfirst ?_)
            refine .of_bind hsecond ?_
            rw [if_neg (not_not_intro heven)]
            refine (runsDry_readEntries ((hs.skip 1).skip 1) ?_).bind _
            change more.length < _
            omega
          · obtain ⟨entries, rest, hn, hdata⟩ :=
              exists_encode_iff.mpr ⟨length, more, rfl, heven, hmore⟩
            rw [run_ok_iff.mpr ⟨entries, rest, hn, hdata, rfl, rfl⟩] at h
            cases h
        · rw [reader, Decoder.run_bind_of_ok hfirst, if_neg (by decide),
            Decoder.run_bind_of_ok hsecond, if_pos heven] at h
          cases h
          exact ⟨_, rfl, .length length more rfl heven⟩
    · have hcode : b.toNat ≠ code := fun hcode => hb (UInt8.toNat.inj hcode)
      rw [reader, Decoder.run_bind_of_ok hfirst, if_pos hcode] at h
      cases h
      exact ⟨_, rfl, .code b more rfl hb⟩

/-- A size record is read just when the data starts with a whole one: its code, a length that counts
itself and three bytes for each entry, and so many bytes. These are taken and no more, and the table
is the one that the entries come to, each a code and a size behind it. Any other data is refused
with the first byte or the second, or it ends too early. What is written for a list of entries is
read back, and entries with different codes may change places. -/
theorem reader_comesOf (data : Bytes) :
    ((∃ record t, reader.run (.ofBytes data) = (.ok record, t)) ↔
      ∃ length more, data = 0x35 :: length :: more ∧ length.toNat % 3 = 1 ∧
        length.toNat - 1 ≤ more.length) ∧
    (∀ record t, reader.run (.ofBytes data) = (.ok record, t) →
      record.length = 1 + data.u8At 1 ∧ t.taken = record.length ∧
        t.left = data.drop record.length ∧ record.table.ComesOf (entriesAt data)) ∧
    (∀ e t, reader.run (.ofBytes data) = (.error e, t) →
      ∃ cause, e = .ofCause cause ∧ Refused data cause.errorClass t.taken) ∧
    ∀ entries rest, entries.length ≤ 84 → data = encode entries ++ rest →
      ∃ record t, reader.run (.ofBytes data) = (.ok record, t) ∧ t.left = rest ∧
        record.table.ComesOf (numbers entries) ∧
        ∀ others more, Reordered entries others →
          ∃ record' t', reader.run (.ofBytes (encode others ++ more)) = (.ok record', t') ∧
            ∀ code, record'.table.lookup code = record.table.lookup code := by
  refine ⟨?_, ?_, fun e t => refused_of_error, ?_⟩
  · rw [← exists_encode_iff]
    constructor
    · rintro ⟨record, t, hr⟩
      obtain ⟨entries, rest, hn, hdata, -, -⟩ := run_ok_iff.mp hr
      exact ⟨entries, rest, hn, hdata⟩
    · rintro ⟨entries, rest, hn, hdata⟩
      exact ⟨_, _, run_ok_iff.mpr ⟨entries, rest, hn, hdata, rfl, rfl⟩⟩
  · intro record t hr
    obtain ⟨entries, rest, hn, rfl, rfl, rfl⟩ := run_ok_iff.mp hr
    rw [entriesAt_encode hn]
    refine ⟨?_, Nat.zero_add _, rfl, comesOf_ofEntries entries⟩
    rw [u8At_encode hn, ofEntries, length_encode]
    dsimp only
    omega
  · rintro entries rest hn rfl
    have hread : ∀ {others}, others.length ≤ maxEntries → ∀ more,
        reader.run (.ofBytes (encode others ++ more)) = (.ok (ofEntries others), _) :=
      fun hn more => run_ok_iff.mpr ⟨_, more, hn, rfl, rfl, rfl⟩
    refine ⟨_, _, hread hn rest, List.drop_left, comesOf_ofEntries entries, ?_⟩
    intro others more hothers
    refine ⟨_, _, hread (hothers.perm.length_eq ▸ hn) more, fun code => ?_⟩
    rw [(comesOf_ofEntries others).lookup, (comesOf_ofEntries entries).lookup,
      hothers.filter_numbers]

/-- Three entries of which two are for one code. -/
def listedTwice : List (UInt8 × UInt16) := [(0x36, 2), (0x37, 0), (0x36, 0x0107)]

/-- They are read back, and the last size counts; so it does if the first two change places. A byte
less is refused at the end of the data. -/
theorem reader_comesOf_listedTwice :
    listedTwice.length ≤ 84 ∧
      (∃ record t, reader.run (.ofBytes (encode listedTwice ++ [0xAA])) = (.ok record, t) ∧
        t.left = [0xAA] ∧ record.table.lookup 0x36 = some 0x0107 ∧
        record.table.map (·.1) = [0x36, 0x37] ∧
        ∃ record' t', reader.run (.ofBytes (encode [(0x37, 0), (0x36, 2), (0x36, 0x0107)])) =
          (.ok record', t') ∧ record'.table.lookup 0x36 = some 0x0107) ∧
      ¬∃ record t, reader.run (.ofBytes ((encode listedTwice).dropLast)) = (.ok record, t) := by
  obtain ⟨record, t, hr, hleft, htable, hothers⟩ :=
    (reader_comesOf (encode listedTwice ++ [0xAA])).2.2.2 listedTwice [0xAA] (by decide) rfl
  have hsize : record.table.lookup 0x36 = some 0x0107 := htable.lookup 0x36
  obtain ⟨record', t', hr', hlookup⟩ := hothers _ [] (Reordered.swap (by decide) _)
  refine ⟨by decide, ⟨record, t, hr, hleft, hsize, htable.codes, record', t', hr',
    (hlookup 0x36).trans hsize⟩, fun hread => ?_⟩
  obtain ⟨length, more, hdata, -, hmore⟩ := (reader_comesOf _).1.mp hread
  have hbytes : (encode listedTwice).dropLast = [0x35, 10, 0x36, 0, 2, 0x37, 0, 0, 0x36, 1] := rfl
  rw [hbytes] at hdata
  cases hdata
  exact absurd hmore (by decide)

end SizeRecord

end Replay
