import Replay.Container
import Replay.Proofs.MetadataMap
import Replay.Proofs.RawStream

/-!
What the container accepts. A replay is its prologue, the declared length, a raw stream, the
metadata and the closing brace one after another, and a string of bytes is decoded just when sound
parts stand at its front.
-/

namespace Replay.Container

open Reader

theorem composed_readHead : Composed readHead :=
  .bind (.expect _) fun _ => .read _

theorem composed_readMetadata : Composed readMetadata :=
  .bind (.expect _) fun _ => Ubjson.composed_readMap 0

theorem reads_readHead_iff {bytes : Bytes} {n : Nat} :
    readHead.Reads bytes n ↔ ∃ rawLength : UInt32,
      bytes = rawPrologue ++ Bytes.bigEndian 4 rawLength.toNat ∧ n = rawLength.toNat := by
  refine (reads_bind_iff (Composed.expect _).framed fun _ =>
    (Composed.read _).framed).trans ⟨?_, ?_⟩
  · intro h
    obtain ⟨xs, ys, u, rfl, hx, hy⟩ := h
    obtain rfl := reads_expect_iff.mp hx
    obtain ⟨hn, rfl⟩ := Layout.reads_unsigned_iff.mp hy
    have ht : (UInt32.ofNat n).toNat = n := UInt32.toNat_ofNat_of_lt' hn
    exact ⟨UInt32.ofNat n, by rw [ht], ht.symm⟩
  · intro h
    obtain ⟨rawLength, rfl, rfl⟩ := h
    exact ⟨_, _, (), rfl, reads_expect_iff.mpr rfl,
      Layout.reads_unsigned_iff.mpr ⟨rawLength.toNat_lt, rfl⟩⟩

theorem reads_readMetadata_iff {bytes : Bytes} {tree : List (String × Tree)} :
    readMetadata.Reads bytes tree ↔ ∃ map, bytes = metadataPrologue ++ map ∧
      ∃ t, (Ubjson.readMap 0).run (.ofBytes map) = (.ok tree, t) ∧ t.left = [] := by
  refine (reads_bind_iff (Composed.expect _).framed fun _ =>
    (Ubjson.composed_readMap 0).framed).trans ⟨?_, ?_⟩
  · intro h
    obtain ⟨xs, ys, u, rfl, hx, hy⟩ := h
    obtain rfl := reads_expect_iff.mp hx
    exact ⟨ys, rfl, (Ubjson.composed_readMap 0).framed.reads_iff_run.mp hy⟩
  · intro h
    obtain ⟨map, rfl, hm⟩ := h
    exact ⟨_, _, (), rfl, reads_expect_iff.mpr rfl,
      (Ubjson.composed_readMap 0).framed.reads_iff_run.mpr hm⟩

/-- The parts of a replay that are not fixed. -/
structure Parts where
  rawLength : UInt32
  entries : List (UInt8 × UInt16)
  events : List Event
  /-- The rest of the metadata behind its opening brace. -/
  metadata : Bytes

namespace Parts

def raw (parts : Parts) : Bytes :=
  SizeRecord.encode parts.entries ++ parts.events.flatMap Event.bytes

/-- The parts one after another, with the framing around them. -/
def bytes (parts : Parts) : Bytes :=
  rawPrologue ++ Bytes.bigEndian 4 parts.rawLength.toNat ++ parts.raw ++
    (metadataPrologue ++ parts.metadata) ++ epilogue

/-- The parts make a replay, which tells the sink the given calls and then the given metadata. -/
structure Sound (options : Options) (parts : Parts) (calls : List Call)
    (tree : List (String × Tree)) : Prop where
  few : parts.entries.length ≤ SizeRecord.maxEntries
  /-- The last entry for its code gives the size of each payload. -/
  listed : ∀ event ∈ parts.events,
    (SizeRecord.lastSize? parts.entries event.code).map UInt16.toNat = some event.payload.length
  unended : ∀ event ∈ parts.events.dropLast, event.kind ≠ some .gameEnd
  ended : parts.rawLength = 0 → Event.EndsGame parts.events
  length : parts.rawLength ≠ 0 → parts.raw.length = parts.rawLength.toNat
  /-- The events of known kinds are decoded one after another, and give the calls. -/
  decoded : ∃ slots, Event.DecodesAll options .initial parts.events calls slots
  metadata : ∃ t, (Ubjson.readMap 0).run (.ofBytes parts.metadata) = (.ok tree, t) ∧ t.left = []

theorem length_raw (parts : Parts) :
    parts.raw.length = Event.lengthAfter (.ofEntries parts.entries) parts.events := by
  rw [raw, List.length_append, Event.lengthAfter_eq]
  rfl

theorem fits_iff {entries : List (UInt8 × UInt16)} {event : Event} :
    event.Fits (SizeRecord.ofEntries entries).table ↔
      (SizeRecord.lastSize? entries event.code).map UInt16.toNat = some event.payload.length := by
  rw [Event.Fits, SizeRecord.lookup_ofEntries]
  cases SizeRecord.lastSize? entries event.code with
  | none => exact ⟨nofun, nofun⟩
  | some size => rw [Option.map_some, Option.map_some, Option.some.injEq, Option.some.injEq,
      Int.ofNat_inj]

theorem rawLength_eq_zero_iff {parts : Parts} :
    (parts.rawLength.toNat : Int) = 0 ↔ parts.rawLength = 0 := by
  rw [Int.natCast_eq_zero]
  exact ⟨fun h => UInt32.toNat_inj.mp h, fun h => by rw [h]; rfl⟩

variable {options : Options} {parts : Parts} {calls : List Call} {tree : List (String × Tree)}

theorem Sound.passed (h : parts.Sound options calls tree) :
    ∃ slots, Passed options parts.rawLength.toNat (.ofEntries parts.entries) parts.events calls
      slots := by
  obtain ⟨slots, hd⟩ := h.decoded
  refine ⟨slots, fun event hm => fits_iff.mpr (h.listed event hm), hd, h.unended, ?_⟩
  intro h0 j hj
  have hlength := h.length fun hz => h0 (rawLength_eq_zero_iff.mpr hz)
  have hlt := Event.lengthAfter_take_lt (.ofEntries parts.entries) hj
  rw [← hlength, length_raw]
  exact Int.ofNat_lt.mpr hlt

theorem Sound.stops (h : parts.Sound options calls tree) :
    ¬(Progress.after (.ofEntries parts.entries) parts.events).goesOn parts.rawLength.toNat =
      true := by
  intro hg
  obtain ⟨h0 | hlt, hend⟩ := Progress.goesOn_after_iff.mp hg
  · exact hend (h.ended (rawLength_eq_zero_iff.mp h0))
  · by_cases hz : parts.rawLength = 0
    · exact hend (h.ended hz)
    · rw [← length_raw, h.length hz] at hlt
      exact Int.lt_irrefl _ hlt

theorem Sound.lengthAfter (h : parts.Sound options calls tree)
    (h0 : (parts.rawLength.toNat : Int) ≠ 0) :
    (Event.lengthAfter (.ofEntries parts.entries) parts.events : Int) = parts.rawLength.toNat := by
  rw [← length_raw, h.length fun hz => h0 (rawLength_eq_zero_iff.mpr hz)]

theorem sound_of_passed {slots : Slots}
    (hfew : parts.entries.length ≤ SizeRecord.maxEntries)
    (hp : Passed options parts.rawLength.toNat (.ofEntries parts.entries) parts.events calls slots)
    (hg : ¬(Progress.after (.ofEntries parts.entries) parts.events).goesOn parts.rawLength.toNat =
      true)
    (hn : (parts.rawLength.toNat : Int) ≠ 0 →
      (Event.lengthAfter (.ofEntries parts.entries) parts.events : Int) = parts.rawLength.toNat)
    (hm : ∃ t, (Ubjson.readMap 0).run (.ofBytes parts.metadata) = (.ok tree, t) ∧ t.left = []) :
    parts.Sound options calls tree where
  few := hfew
  listed event hmem := fits_iff.mp (hp.fits event hmem)
  unended := hp.unended
  ended hz := Decidable.byContradiction fun hend =>
    hg (Progress.goesOn_after_iff.mpr ⟨.inl (rawLength_eq_zero_iff.mpr hz), hend⟩)
  length hz := by
    rw [length_raw]
    exact Int.ofNat_inj.mp (hn fun h0 => hz (rawLength_eq_zero_iff.mp h0))
  decoded := ⟨slots, hp.decoded⟩
  metadata := hm

end Parts

/-- What follows the raw stream. -/
def readRest (sink : Sink) : Run Unit := do
  let entries ← (Run.ofReader readMetadata).annotated none
  Run.deliver sink (.metadata entries)
  (Run.ofReader (Reader.expect epilogue)).annotated none

variable {options : Options} {s t : Session} {tree : List (String × Tree)}

/-- Behind the head a run goes on with the raw stream and the rest. -/
theorem run_of_head (sink : Sink) (options : Options) {rawLength : Nat} {source : Source}
    (h : readHead.run s.source = (.ok rawLength, source)) :
    ∃ u : Session, u.source = source ∧ u.calls = s.calls ∧ (run sink options).run s =
      (Run.readRaw sink options rawLength >>= fun _ => readRest sink).run u := by
  refine ⟨{ s with source, notes := s.notes.push (.rawLength rawLength) }, rfl, rfl, ?_⟩
  rw [run, Decoder.run_bind_of_ok (Run.run_ofReader_of_ok h none)]
  rfl

theorem readRest_ok {sink : Sink} (h : (readRest sink).run s = (.ok (), t)) :
    ∃ map tree, s.source.left = metadataPrologue ++ map ++ epilogue ++ t.source.left ∧
      t.source = s.source.skip (metadataPrologue ++ map ++ epilogue).length ∧
      t.calls = s.calls.push (.metadata tree) ∧
      ∃ u, (Ubjson.readMap 0).run (.ofBytes map) = (.ok tree, u) ∧ u.left = [] := by
  obtain ⟨tree, s₁, hmeta, h₁⟩ := Decoder.run_bind_eq_ok h
  obtain ⟨bytes, hb, hl₁, hs₁, -, hc₁⟩ :=
    Run.ofReader_ok composed_readMetadata.framed (Decoder.annotated_ok_iff.mp hmeta)
  obtain ⟨map, rfl, hmap⟩ := reads_readMetadata_iff.mp hb
  obtain ⟨_, s₂, hdeliver, h₂⟩ := Decoder.run_bind_eq_ok h₁
  have hs₂ := Run.deliver_ok hdeliver
  obtain ⟨_, he, hl₃, hs₃, -, hc₃⟩ :=
    Run.ofReader_ok (Composed.expect _).framed (Decoder.annotated_ok_iff.mp h₂)
  obtain rfl := reads_expect_iff.mp he
  subst hs₂
  change s₁.source.left = epilogue ++ t.source.left at hl₃
  change t.source = s₁.source.skip epilogue.length at hs₃
  refine ⟨map, tree, ?_, ?_, ?_, hmap⟩
  · rw [hl₁, hl₃, ← List.append_assoc]
  · rw [hs₃, hs₁, Source.skip_skip, ← List.length_append]
  · rw [hc₃, hc₁]

/-- Metadata in memory and the closing brace after it are taken, whatever follows them. -/
theorem run_readRest {map rest : Bytes} (hs : s.source.InMemory)
    (hm : ∃ u, (Ubjson.readMap 0).run (.ofBytes map) = (.ok tree, u) ∧ u.left = [])
    (hl : s.source.left = metadataPrologue ++ map ++ epilogue ++ rest) :
    (readRest .quiet).run s =
      (.ok (), { s with
        source := s.source.skip (metadataPrologue ++ map ++ epilogue).length
        calls := s.calls.push (.metadata tree) }) := by
  rw [List.append_assoc] at hl
  have hmeta := Run.run_ofReader_of_reads (reads_readMetadata_iff.mpr ⟨map, rfl, hm⟩) hs hl
  let u : Session := { s with
    source := s.source.skip (metadataPrologue ++ map).length
    calls := s.calls.push (.metadata tree) }
  have hl' : u.source.left = epilogue ++ rest := Source.left_skip_of_append hl
  have hend := Run.run_ofReader_of_reads (a := ()) (reads_expect_iff.mpr rfl) (hs.skip _) hl'
  rw [readRest, Decoder.run_bind_of_ok (Decoder.annotated_ok_iff.mpr hmeta),
    Decoder.run_bind_of_ok (Run.run_deliver_quiet _ _), Decoder.annotated_ok_iff.mpr hend,
    Source.skip_skip, ← List.length_append]

/-- What it means that a run from `s` to `t` decoded the parts. -/
structure Decoded (options : Options) (s t : Session) (parts : Parts) (calls : List Call)
    (tree : List (String × Tree)) : Prop where
  sound : parts.Sound options calls tree
  left : s.source.left = parts.bytes ++ t.source.left
  source : t.source = s.source.skip parts.bytes.length
  calls : t.calls.toList = s.calls.toList ++ calls ++ [.metadata tree]

/-- Whatever the sink and the source are, a run that succeeds has decoded sound parts. -/
theorem run_ok {sink : Sink} (h : (run sink options).run s = (.ok (), t)) :
    ∃ parts calls tree, Decoded options s t parts calls tree := by
  obtain ⟨n, s₁, hhead, -⟩ := Decoder.run_bind_eq_ok h
  obtain ⟨hr, -, -⟩ := Run.ofReader_run (Decoder.annotated_ok_iff.mp hhead)
  obtain ⟨bytes, hl₁, hs₁, hb⟩ := composed_readHead.framed _ _ _ hr
  obtain ⟨rawLength, rfl, rfl⟩ := reads_readHead_iff.mp hb
  obtain ⟨u, hu, hc, hrun⟩ := run_of_head sink options hr
  obtain ⟨length, s₂, hraw, hrest⟩ := Decoder.run_bind_eq_ok (hrun.symm.trans h)
  obtain ⟨entries, events, calls, slots, hbehind, hg, rfl, hn⟩ := Run.readRaw_ok hraw
  obtain ⟨map, tree, hl₃, hs₃, hc₃, hmap⟩ := readRest_ok hrest
  let parts : Parts := ⟨rawLength, entries, events, map⟩
  have hsound : parts.Sound options calls tree :=
    Parts.sound_of_passed hbehind.few hbehind.passed hg (fun h0 => hn h0) hmap
  refine ⟨parts, calls, tree, hsound, ?_, ?_, ?_⟩
  · rw [hl₁, ← hu, hbehind.left, hl₃]
    simp only [Parts.bytes, Parts.raw, parts, List.append_assoc]
  · rw [hs₃, hbehind.source, hu, hs₁]
    simp only [Source.skip_skip, Parts.bytes, List.length_append, Parts.length_raw, parts,
      Nat.add_assoc]
  · rw [hc₃, Array.toList_push, hbehind.calls, hc]

/-- Sound parts in memory are decoded, whatever follows them. -/
theorem run_of_sound {parts : Parts} {calls : List Call} {rest : Bytes}
    (hs : s.source.InMemory) (h : parts.Sound options calls tree)
    (hl : s.source.left = parts.bytes ++ rest) :
    ∃ t, (run .quiet options).run s = (.ok (), t) ∧ t.source.left = rest ∧
      Decoded options s t parts calls tree := by
  obtain ⟨slots, hp⟩ := h.passed
  have hl₀ : s.source.left = rawPrologue ++ Bytes.bigEndian 4 parts.rawLength.toNat ++
      (parts.raw ++ (metadataPrologue ++ parts.metadata ++ epilogue ++ rest)) := by
    rw [hl]
    simp only [Parts.bytes, List.append_assoc]
  have hhead := reads_readHead_iff.mpr ⟨parts.rawLength, rfl, rfl⟩ _ _ hs hl₀
  obtain ⟨u, hu, hc, hrun⟩ := run_of_head .quiet options hhead
  have hum : u.source.InMemory := hu ▸ hs.skip _
  have hl₁ : u.source.left =
      parts.raw ++ (metadataPrologue ++ parts.metadata ++ epilogue ++ rest) := by
    rw [hu]
    exact Source.left_skip_of_append hl₀
  have htaken := RawTaken.of_left h.few hp hl₁
  obtain ⟨v, hraw, hv, hcalls⟩ := Run.run_readRaw_of_length hum htaken h.stops h.lengthAfter
  have hl₂ : v.source.left = metadataPrologue ++ parts.metadata ++ epilogue ++ rest := by
    rw [hv]
    exact List.append_cancel_left (htaken.left.symm.trans hl₁)
  have hrest := run_readRest (hv ▸ htaken.inMemory hum) h.metadata hl₂
  have hleft : (v.source.skip (metadataPrologue ++ parts.metadata ++ epilogue).length).left =
      rest := Source.left_skip_of_append hl₂
  refine ⟨_, hrun.trans ((Decoder.run_bind_of_ok hraw _).trans hrest), hleft, h, ?_, ?_, ?_⟩
  · dsimp only
    rw [hleft, hl]
  · simp only [hv, hu, Source.skip_skip, Parts.bytes, List.length_append, Parts.length_raw,
      Nat.add_assoc]
  · change (v.calls.push (.metadata tree)).toList = _
    rw [Array.toList_push, hcalls, hc]

theorem decodeBytes_eq_run (sink : Sink) (options : Options) (data : Bytes) :
    decodeBytes sink options data = (run sink options).run { source := .ofBytes data } := rfl

/-- Sound parts at the front of some data are decoded. -/
theorem decodeBytes_of_sound {parts : Parts} {calls : List Call} {data rest : Bytes}
    (h : parts.Sound options calls tree) (hdata : data = parts.bytes ++ rest) :
    ∃ t, decodeBytes .quiet options data = (.ok (), t) ∧ t.source.left = rest ∧
      Decoded options { source := .ofBytes data } t parts calls tree :=
  run_of_sound (Source.inMemory_ofBytes data) h hdata

/-- Exact acceptance. Data is decoded just when sound parts stand at its front. Then the sink has
been told the records of the known events in the order of the stream and after them the metadata,
and just the bytes of the parts have been taken. -/
theorem decodeBytes_accepts (options : Options) (data : Bytes) :
    ((decodeBytes .quiet options data).1 = .ok () ↔
      ∃ (parts : Parts) (calls : List Call) (tree : List (String × Tree)) (rest : Bytes),
        parts.Sound options calls tree ∧ data = parts.bytes ++ rest) ∧
    ∀ (parts : Parts) (calls : List Call) (tree : List (String × Tree)) (rest : Bytes),
      parts.Sound options calls tree → data = parts.bytes ++ rest →
      (decodeBytes .quiet options data).2.calls.toList = calls ++ [.metadata tree] ∧
      (decodeBytes .quiet options data).2.source.left = rest ∧
      (decodeBytes .quiet options data).2.source.taken = parts.bytes.length := by
  have htaken : ∀ (parts : Parts) calls tree rest, parts.Sound options calls tree →
      data = parts.bytes ++ rest → ∃ t, decodeBytes .quiet options data = (.ok (), t) ∧
        t.source.left = rest ∧
        Decoded options { source := .ofBytes data } t parts calls tree := by
    intro parts calls tree rest hsound hdata
    exact run_of_sound (Source.inMemory_ofBytes data) hsound hdata
  constructor
  · constructor
    · intro h
      obtain ⟨parts, calls, tree, hd⟩ := run_ok (t := (decodeBytes .quiet options data).2)
        (Prod.ext h rfl)
      exact ⟨parts, calls, tree, _, hd.sound, hd.left⟩
    · intro h
      obtain ⟨parts, calls, tree, rest, hsound, hdata⟩ := h
      obtain ⟨t, hrun, -, -⟩ := htaken parts calls tree rest hsound hdata
      rw [hrun]
  · intro parts calls tree rest hsound hdata
    obtain ⟨t, hrun, hleft, hd⟩ := htaken parts calls tree rest hsound hdata
    rw [hrun]
    refine ⟨hd.calls, hleft, ?_⟩
    rw [hd.source]
    exact Nat.zero_add _

/-- A replay of unknown length that ends at once. -/
def endedAtOnce : Parts where
  rawLength := 0
  entries := [(0x39, 1)]
  events := [⟨0x39, [2]⟩]
  metadata := [0x7D]

theorem readMap_empty :
    (Ubjson.readMap 0).run (.ofBytes [0x7D]) = (.ok [], (Source.ofBytes [0x7D]).skip 1) := by
  rw [Ubjson.readMap, if_neg (by decide), Ubjson.readEntries, Decoder.run_rounds]
  rfl

theorem sound_endedAtOnce : endedAtOnce.Sound {} [.gameEnd ⟨⟨2⟩, none⟩] [] where
  few := by decide
  listed := by decide
  unended := by decide
  ended _ := by decide
  length h0 := absurd rfl h0
  decoded := by
    have hend : Event.Decodes {} .initial ⟨0x39, [2]⟩ (some (.gameEnd ⟨⟨2⟩, none⟩)) .initial :=
      .gameEnd rfl rfl
    exact ⟨.initial, .cons hend (.nil _)⟩
  metadata := ⟨_, readMap_empty, rfl⟩

theorem decodeBytes_accepts_endedAtOnce :
    endedAtOnce.Sound {} [.gameEnd ⟨⟨2⟩, none⟩] [] ∧
      (decodeBytes .quiet {} (endedAtOnce.bytes ++ [0x2A])).1 = .ok () ∧
      (decodeBytes .quiet {} (endedAtOnce.bytes ++ [0x2A])).2.calls.toList =
        [.gameEnd ⟨⟨2⟩, none⟩, .metadata []] ∧
      (decodeBytes .quiet {} (endedAtOnce.bytes ++ [0x2A])).2.source.left = [0x2A] := by
  obtain ⟨haccepts, htells⟩ := decodeBytes_accepts {} (endedAtOnce.bytes ++ [0x2A])
  obtain ⟨hcalls, hrest, -⟩ := htells endedAtOnce _ [] [0x2A] sound_endedAtOnce rfl
  exact ⟨sound_endedAtOnce, haccepts.mpr ⟨endedAtOnce, _, [], [0x2A], sound_endedAtOnce, rfl⟩,
    hcalls, hrest⟩

end Replay.Container
