import Replay.Proofs.MetadataGrammar
import Replay.Proofs.MetadataMap

/-!
Reading the map of the metadata. The reader accepts exactly the bodies of maps that nest no deeper
than the levels allow, takes just these bytes and gives the entries that they come to; the written
form of entries without a repeated key is read back, and it is the only form they are read from.
-/

namespace Replay.Ubjson

open Reader

theorem reads_text_iff {bytes : Bytes} {text : String} :
    readText.Reads bytes text ↔ IsText bytes text := by
  have hcheck : ∀ raw, Framed _ := fun raw => (composed_afterRaw raw).framed
  have hbody : ∀ length : Nat, Framed _ := fun length =>
    (Composed.bind (.block length) composed_afterRaw).framed
  refine (Layout.reads_u8_bind_iff hbody).trans ⟨?_, ?_⟩
  · intro h
    obtain ⟨length, ys, rfl, hy⟩ := h
    obtain ⟨raw, zs, got, rfl, hraw, hz⟩ := (reads_bind_iff (Framed.block _) hcheck).mp hy
    obtain ⟨hlength, rfl⟩ := reads_block_iff.mp hraw
    split at hz
    · rename_i text' htext
      obtain ⟨rfl, rfl⟩ := reads_pure_iff.mp hz
      exact ⟨length, got, by rw [List.append_nil], hlength,
        Text.Utf8.decode?_eq_some_iff.mp htext⟩
    · exact absurd hz not_reads_reject
  · intro h
    obtain ⟨length, raw, rfl, hlength, hraw⟩ := h
    refine ⟨length, raw, rfl, ?_⟩
    refine (reads_bind_iff (Framed.block _) hcheck).mpr
      ⟨raw, [], raw, (List.append_nil _).symm, reads_block_iff.mpr ⟨hlength, rfl⟩, ?_⟩
    rw [Text.Utf8.decode?_eq_some_iff.mpr hraw]
    exact Reads.pure text

theorem reads_key_iff {bytes : Bytes} {key : Option String} :
    readKey.Reads bytes key ↔
      bytes = [0x7D] ∧ key = none ∨
        ∃ name text, bytes = 0x55 :: name ∧ key = some text ∧ IsText name text := by
  refine (Layout.reads_u8_bind_iff fun marker =>
    (composed_afterKeyMarker marker).framed).trans ⟨?_, ?_⟩
  · intro h
    obtain ⟨marker, ys, rfl, hy⟩ := h
    split at hy
    · rename_i hm
      obtain rfl : marker = 0x55 := UInt8.toNat.inj hm
      obtain ⟨text, rfl, htext⟩ := (reads_map_iff composed_readText.framed).mp hy
      exact .inr ⟨ys, text, rfl, rfl, reads_text_iff.mp htext⟩
    · split at hy
      · rename_i hm
        obtain rfl : marker = 0x7D := UInt8.toNat.inj hm
        obtain ⟨rfl, rfl⟩ := reads_pure_iff.mp hy
        exact .inl ⟨rfl, rfl⟩
      · exact absurd hy not_reads_reject
  · intro h
    rcases h with ⟨rfl, rfl⟩ | ⟨name, text, rfl, rfl, htext⟩
    · exact ⟨0x7D, [], rfl, Reads.pure none⟩
    · exact ⟨0x55, name, rfl,
        (reads_map_iff composed_readText.framed).mpr ⟨text, rfl, reads_text_iff.mpr htext⟩⟩

theorem reads_markedText_iff {bytes : Bytes} {tree : Tree} :
    (do
      let lengthMarker ← Layout.u8.read
      if lengthMarker = 0x55 then Tree.text <$> readText
      else Decoder.reject (.stringLengthMarker lengthMarker) : Reader Tree).Reads bytes tree ↔
      ∃ ys text, bytes = 0x55 :: ys ∧ tree = .text text ∧ IsText ys text := by
  refine (Layout.reads_u8_bind_iff fun lengthMarker =>
    (composed_afterLengthMarker lengthMarker).framed).trans ⟨?_, ?_⟩
  · intro h
    obtain ⟨lengthMarker, ys, rfl, hy⟩ := h
    split at hy
    · rename_i hm
      obtain rfl : lengthMarker = 0x55 := UInt8.toNat.inj hm
      obtain ⟨text, rfl, htext⟩ := (reads_map_iff composed_readText.framed).mp hy
      exact ⟨ys, text, rfl, rfl, reads_text_iff.mp htext⟩
    · exact absurd hy not_reads_reject
  · intro h
    obtain ⟨ys, text, rfl, rfl, htext⟩ := h
    exact ⟨0x55, ys, rfl,
      (reads_map_iff composed_readText.framed).mpr ⟨text, rfl, reads_text_iff.mpr htext⟩⟩

/-- A value is a text, a number, or an opening brace and what is nested. -/
theorem reads_valueWith_iff {nested : Reader Tree} (hn : Composed nested) {bytes : Bytes}
    {tree : Tree} :
    (readValueWith nested).Reads bytes tree ↔
      (∃ ys text, bytes = 0x53 :: 0x55 :: ys ∧ tree = .text text ∧ IsText ys text) ∨
      (∃ digits : Bytes, bytes = 0x6C :: digits ∧ tree = .number digits.signed ∧
        digits.length = 4) ∨
      ∃ body, bytes = 0x7B :: body ∧ nested.Reads body tree := by
  refine (Layout.reads_u8_bind_iff fun marker =>
    (composed_afterValueMarker hn marker).framed).trans ⟨?_, ?_⟩
  · intro h
    obtain ⟨marker, ys, rfl, hy⟩ := h
    split at hy
    · rename_i hm
      obtain rfl : marker = 0x53 := UInt8.toNat.inj hm
      obtain ⟨zs, text, rfl, rfl, htext⟩ := reads_markedText_iff.mp hy
      exact .inl ⟨zs, text, rfl, rfl, htext⟩
    · split at hy
      · rename_i hm
        obtain rfl : marker = 0x6C := UInt8.toNat.inj hm
        obtain ⟨n, rfl, hdigits⟩ := (reads_map_iff (Composed.read _).framed).mp hy
        obtain ⟨hlength, rfl⟩ := Layout.reads_signed_iff.mp hdigits
        exact .inr (.inl ⟨ys, rfl, rfl, hlength⟩)
      · split at hy
        · rename_i hm
          obtain rfl : marker = 0x7B := UInt8.toNat.inj hm
          exact .inr (.inr ⟨ys, rfl, hy⟩)
        · exact absurd hy not_reads_reject
  · intro h
    rcases h with ⟨ys, text, rfl, rfl, htext⟩ | ⟨digits, rfl, rfl, hlength⟩ | ⟨body, rfl, hbody⟩
    · exact ⟨0x53, 0x55 :: ys, rfl, reads_markedText_iff.mpr ⟨ys, text, rfl, rfl, htext⟩⟩
    · exact ⟨0x6C, digits, rfl, (reads_map_iff (Composed.read _).framed).mpr
        ⟨_, rfl, Layout.reads_signed_iff.mpr ⟨hlength, rfl⟩⟩⟩
    · exact ⟨0x7B, body, rfl, hbody⟩

/-- One round reads an entry or the closing brace. -/
theorem reads_entry_iff {value : Reader Tree} (hv : Composed value) {bytes : Bytes}
    {entries : List (String × Tree)} {next : List (String × Tree) ⊕ List (String × Tree)} :
    (readEntry value entries).Reads bytes next ↔
      bytes = [0x7D] ∧ next = .inr entries ∨
        ∃ name ys key tree, bytes = 0x55 :: (name ++ ys) ∧ IsText name key ∧
          value.Reads ys tree ∧ next = .inl (Entries.put key tree entries) := by
  refine (reads_bind_iff composed_readKey.framed fun key =>
    (composed_afterKey hv entries key).framed).trans ⟨?_, ?_⟩
  · intro h
    obtain ⟨xs, ys, key, rfl, hkey, hy⟩ := h
    rcases reads_key_iff.mp hkey with ⟨rfl, rfl⟩ | ⟨name, text, rfl, rfl, htext⟩
    · obtain ⟨rfl, rfl⟩ := reads_pure_iff.mp hy
      exact .inl ⟨rfl, rfl⟩
    · obtain ⟨zs, _, tree, rfl, htree, hz⟩ :=
        (reads_bind_iff hv.framed fun tree => Framed.pure _).mp hy
      obtain ⟨rfl, rfl⟩ := reads_pure_iff.mp hz
      exact .inr ⟨name, zs, text, tree, by rw [List.append_nil]; rfl, htext, htree, rfl⟩
  · intro h
    rcases h with ⟨rfl, rfl⟩ | ⟨name, ys, key, tree, rfl, htext, htree, rfl⟩
    · exact ⟨[0x7D], [], none, rfl, reads_key_iff.mpr (.inl ⟨rfl, rfl⟩), Reads.pure _⟩
    · refine ⟨0x55 :: name, ys, some key, rfl,
        reads_key_iff.mpr (.inr ⟨name, key, rfl, rfl, htext⟩), ?_⟩
      exact (reads_bind_iff hv.framed fun tree => Framed.pure _).mpr
        ⟨ys, [], tree, (List.append_nil ys).symm, htree, Reads.pure _⟩

/-- The reader reads the values that have no more levels, as the grammar has them. -/
structure ReadsWithin (value : Reader Tree) (levels : Nat) : Prop where
  composed : Composed value
  reads_iff : ∀ {bytes : Bytes} {result : Tree}, value.Reads bytes result ↔
    ∃ tree, IsValue bytes tree ∧ tree.levels ≤ levels ∧ result = tree.collapse

namespace ReadsWithin

variable {value : Reader Tree} {levels : Nat}

theorem advances_readEntry (value : Reader Tree) : Decoder.Advances (readEntry value) :=
  Decoder.advances_of_consumes (consumes_readEntry value)

/-- The loop over the entries, started with entries that it has put already. -/
abbrev loop (value : Reader Tree) (all : List (String × Tree)) : Reader (List (String × Tree)) :=
  .rounds (readEntry value) (advances_readEntry value) all

/-- The written entries are put one after another. -/
theorem reads_of_isMapBody (h : ReadsWithin value levels) {bytes : Bytes}
    {entries : List (String × Tree)} (hbody : IsMapBody bytes entries)
    (hlevels : Tree.levelsIn entries ≤ levels) (all : List (String × Tree)) :
    (loop value all).Reads bytes (Entries.putAll (Tree.collapseIn entries) all) := by
  induction entries generalizing bytes all with
  | nil =>
    cases hbody
    exact Reads.rounds_end ((reads_entry_iff h.composed).mpr (.inl ⟨rfl, rfl⟩))
  | cons entry entries ih =>
    cases hbody with
    | entry named written more =>
      rename_i name ys rest key tree
      obtain ⟨hvalue, hrest⟩ := Nat.max_le.mp hlevels
      have htree : value.Reads ys tree.collapse := h.reads_iff.mpr ⟨tree, written, hvalue, rfl⟩
      have hround : (readEntry value all).Reads (0x55 :: (name ++ ys))
          (.inl (Entries.put key tree.collapse all)) := (reads_entry_iff h.composed).mpr
        (.inr ⟨name, ys, key, tree.collapse, rfl, named, htree, rfl⟩)
      have hloop := Reads.rounds_next hround (ih more hrest (Entries.put key tree.collapse all))
      rwa [List.cons_append, List.append_assoc] at hloop

/-- What the loop reads is the body of a map. -/
theorem isMapBody_of_reads (h : ReadsWithin value levels) {bytes : Bytes}
    {all result : List (String × Tree)} (hr : (loop value all).Reads bytes result) :
    ∃ entries, IsMapBody bytes entries ∧ Tree.levelsIn entries ≤ levels ∧
      result = Entries.putAll (Tree.collapseIn entries) all := by
  -- Every round takes a byte, so the induction is on how many there are.
  induction hn : bytes.length using Nat.strongRecOn generalizing bytes all with
  | ind n ih =>
    subst hn
    rcases (reads_rounds_iff fun all => (composed_readEntry h.composed all).framed).mp hr with
      hlast | ⟨xs, rest, next, rfl, hround, hloop⟩
    · rcases (reads_entry_iff h.composed).mp hlast with ⟨rfl, hend⟩ | ⟨_, _, _, _, _, _, _, hend⟩
      · cases hend
        exact ⟨[], .close, Nat.zero_le _, rfl⟩
      · cases hend
    · rcases (reads_entry_iff h.composed).mp hround with
        ⟨-, hend⟩ | ⟨name, ys, key, found, rfl, named, hvalue, hnext⟩
      · cases hend
      · cases hnext
        obtain ⟨tree, written, hlevels, rfl⟩ := h.reads_iff.mp hvalue
        have hshorter : rest.length < (0x55 :: (name ++ ys) ++ rest).length := by
          simp only [List.cons_append, List.length_cons, List.length_append]
          omega
        obtain ⟨entries, more, hrest, rfl⟩ := ih _ hshorter hloop rfl
        refine ⟨(key, tree) :: entries, ?_, Nat.max_le.mpr ⟨hlevels, hrest⟩, rfl⟩
        rw [List.cons_append, List.append_assoc]
        exact .entry named written more

theorem reads_entries_iff (h : ReadsWithin value levels) {bytes : Bytes}
    {result : List (String × Tree)} :
    (readEntries value).Reads bytes result ↔
      ∃ entries, IsMapBody bytes entries ∧ Tree.levelsIn entries ≤ levels ∧
        result = Entries.collapse (Tree.collapseIn entries) := by
  simp only [← Entries.putAll_nil]
  constructor
  · exact h.isMapBody_of_reads
  · rintro ⟨entries, hbody, hlevels, rfl⟩
    exact h.reads_of_isMapBody hbody hlevels []

/-- A reader of values, from what it does behind an opening brace. -/
theorem valueWith {nested : Reader Tree} (hn : Composed nested)
    (h : ∀ {body : Bytes} {result : Tree}, nested.Reads body result ↔
      ∃ entries, IsMapBody body entries ∧ Tree.levelsIn entries < levels ∧
        result = (Tree.map entries).collapse) :
    ReadsWithin (readValueWith nested) levels := by
  refine ⟨composed_readValueWith hn, fun {bytes result} => (reads_valueWith_iff hn).trans ⟨?_, ?_⟩⟩
  · intro hr
    rcases hr with ⟨ys, text, rfl, rfl, htext⟩ | ⟨digits, rfl, rfl, hlength⟩ | ⟨body, rfl, hbody⟩
    · exact ⟨.text text, .text htext, Nat.zero_le _, rfl⟩
    · exact ⟨.number digits.signed, .number hlength, Nat.zero_le _, rfl⟩
    · obtain ⟨entries, hentries, hlevels, rfl⟩ := h.mp hbody
      exact ⟨.map entries, .map hentries, hlevels, rfl⟩
  · intro hr
    obtain ⟨tree, hvalue, hlevels, rfl⟩ := hr
    cases hvalue with
    | text htext => exact .inl ⟨_, _, rfl, rfl, htext⟩
    | number hlength => exact .inr (.inl ⟨_, rfl, rfl, hlength⟩)
    | map hentries => exact .inr (.inr ⟨_, rfl, h.mpr ⟨_, hentries, hlevels, rfl⟩⟩)

end ReadsWithin

theorem readsWithin_readTree (levels : Nat) : ReadsWithin (readTree levels) levels := by
  induction levels with
  | zero =>
    refine .valueWith (.reject _ ⟨nofun, nofun⟩) ⟨fun h => absurd h not_reads_reject, ?_⟩
    rintro ⟨entries, -, hlevels, -⟩
    exact absurd hlevels (Nat.not_lt_zero _)
  | succ levels ih =>
    have hentries := composed_readEntries ih.composed
    refine .valueWith (hentries.map Tree.map) ((reads_map_iff hentries.framed).trans ⟨?_, ?_⟩)
    · rintro ⟨all, rfl, hr⟩
      obtain ⟨entries, hbody, hlevels, rfl⟩ := ih.reads_entries_iff.mp hr
      exact ⟨entries, hbody, Nat.lt_succ_of_le hlevels, rfl⟩
    · rintro ⟨entries, hbody, hlevels, rfl⟩
      exact ⟨_, rfl, ih.reads_entries_iff.mpr ⟨entries, hbody, Nat.le_of_lt_succ hlevels, rfl⟩⟩

theorem reads_map_body_iff {depth : Nat} (h : depth ≤ 64) {bytes : Bytes}
    {result : List (String × Tree)} :
    (readMap depth).Reads bytes result ↔
      ∃ entries, IsMapBody bytes entries ∧ Tree.levelsIn entries ≤ 64 - depth ∧
        result = Entries.collapse (Tree.collapseIn entries) := by
  have hdepth : ¬(maxDepth : Int) < depth := by
    rw [maxDepth]
    omega
  have hlevels : levelsBelow depth = 64 - depth := by
    rw [levelsBelow, maxDepth]
    omega
  rw [readMap, if_neg hdepth, hlevels]
  exact (readsWithin_readTree (64 - depth)).reads_entries_iff

/-- A map is read just when it stands at the front of the data and nests no deeper than allowed.
Its bytes are taken and no others, and on every level a repeated key keeps its first place and
takes its last value. Without repeated keys, reading and writing undo each other. -/
theorem readMap_parses (depth : Nat) (hdepth : depth ≤ 64) (data : Bytes) :
    ((∃ result t, (readMap depth).run (.ofBytes data) = (.ok result, t)) ↔
      ∃ body rest entries, data = body ++ rest ∧ IsMapBody body entries ∧
        Tree.levelsIn entries ≤ 64 - depth) ∧
    (∀ body rest entries, data = body ++ rest → IsMapBody body entries →
      Tree.levelsIn entries ≤ 64 - depth →
      ∃ result t, (readMap depth).run (.ofBytes data) = (.ok result, t) ∧
        t.taken = body.length ∧ t.left = rest ∧
        Tree.map result = (Tree.map entries).collapse ∧
        ((Tree.map entries).Distinct → Tree.encodeBody result = body)) ∧
    ∀ entries rest, (Tree.map entries).Fits → (Tree.map entries).Distinct →
      Tree.levelsIn entries ≤ 64 - depth → data = Tree.encodeBody entries ++ rest →
      ∃ t, (readMap depth).run (.ofBytes data) = (.ok entries, t) ∧ t.left = rest := by
  have hframed : (readMap depth).Framed := (composed_readMap depth).framed
  have hrun : ∀ {body rest entries}, data = body ++ rest → IsMapBody body entries →
      Tree.levelsIn entries ≤ 64 - depth →
      (readMap depth).run (.ofBytes data) =
        (.ok (Entries.collapse (Tree.collapseIn entries)),
          (Source.ofBytes data).skip body.length) :=
    fun {body rest entries} hdata hbody hlevels => hframed.run_ofBytes_iff.mpr
      ⟨body, rest, hdata, (reads_map_body_iff hdepth).mpr ⟨entries, hbody, hlevels, rfl⟩, rfl⟩
  have htaken : ∀ {body rest : Bytes}, data = body ++ rest →
      ((Source.ofBytes data).skip body.length).taken = body.length ∧
        ((Source.ofBytes data).skip body.length).left = rest :=
    fun hdata => ⟨Nat.zero_add _, Source.left_skip_of_append hdata⟩
  have hsame : ∀ {entries}, (Tree.map entries).Distinct →
      Entries.collapse (Tree.collapseIn entries) = entries := fun hdistinct =>
    Tree.map.inj (Tree.collapse_of_distinct hdistinct)
  refine ⟨⟨?_, ?_⟩, ?_, ?_⟩
  · rintro ⟨result, t, hr⟩
    obtain ⟨body, rest, hdata, hreads, -⟩ := hframed.run_ofBytes_iff.mp hr
    obtain ⟨entries, hbody, hlevels, -⟩ := (reads_map_body_iff hdepth).mp hreads
    exact ⟨body, rest, entries, hdata, hbody, hlevels⟩
  · rintro ⟨body, rest, entries, hdata, hbody, hlevels⟩
    exact ⟨_, _, hrun hdata hbody hlevels⟩
  · intro body rest entries hdata hbody hlevels
    obtain ⟨htake, hleft⟩ := htaken hdata
    refine ⟨_, _, hrun hdata hbody hlevels, htake, hleft, rfl, fun hdistinct => ?_⟩
    rw [hsame hdistinct, ← hbody.eq_encodeBody]
  · intro entries rest hfits hdistinct hlevels hdata
    have hr := hrun hdata (isMapBody_encodeBody hfits) hlevels
    rw [hsame hdistinct] at hr
    exact ⟨_, hr, (htaken hdata).2⟩

/-- A map in which a key stands twice on two levels. -/
def twice : List (String × Tree) :=
  [("m", .map [("n", .number (-2)), ("n", .text "ü")]), ("é", .number 1), ("é", .number 7)]

/-- What it comes to. -/
def once : List (String × Tree) :=
  [("m", .map [("n", .text "ü")]), ("é", .number 7)]

/-- Behind a map in which keys are repeated, read where one more level may follow, two bytes are
left; the map that it comes to is read back from what is written for it. -/
theorem readMap_parses_twice :
    63 ≤ 64 ∧ IsMapBody (Tree.encodeBody twice) twice ∧ Tree.levelsIn twice = 64 - 63 ∧
      (∃ result t,
        (readMap (63 : Nat)).run (.ofBytes (Tree.encodeBody twice ++ [0x7D, 0x55])) =
          (.ok result, t) ∧ t.left = [0x7D, 0x55] ∧ Tree.map result = .map once) ∧
      (Tree.map once).Fits ∧ (Tree.map once).Distinct ∧
      ∃ t, (readMap (63 : Nat)).run (.ofBytes (Tree.encodeBody once ++ [0x7D])) =
        (.ok once, t) ∧ t.left = [0x7D] := by
  have hbody : IsMapBody (Tree.encodeBody twice) twice :=
    isMapBody_encodeBody (by decide : (Tree.map twice).Fits)
  have hfits : (Tree.map once).Fits := by decide
  have hdistinct : (Tree.map once).Distinct := by decide
  refine ⟨by decide, hbody, rfl, ?_, hfits, hdistinct, ?_⟩
  · obtain ⟨result, t, hr, -, hleft, hresult, -⟩ :=
      (readMap_parses 63 (by decide) _).2.1 _ [0x7D, 0x55] twice rfl hbody (Nat.le_refl 1)
    exact ⟨result, t, hr, hleft, hresult⟩
  · exact (readMap_parses 63 (by decide) _).2.2 once [0x7D] hfits hdistinct (Nat.le_refl 1) rfl

end Replay.Ubjson
