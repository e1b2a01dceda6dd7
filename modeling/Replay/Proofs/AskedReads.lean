import Replay.Proofs.Asking

/-!
The reads that a replay in memory is decoded with, one by one. The framing, the size record and the
events ask for reads of their own lengths, each where the one before it ends. Only what the metadata
ask for depends on what they hold.
-/

namespace Replay

namespace Ask

/-- A value that is read by itself. -/
def ofValue (size : Nat) (s : Source) : Ask :=
  .ofSource (some []) size s

/-- A plain block. Nothing is asked for an empty one. -/
def ofBlock (n : Nat) (s : Source) : List Ask :=
  if n = 0 then [] else [.ofSource none n s]

/-- The entries of a size record, each of a code and a size. -/
def ofEntries : Nat → Source → List Ask
  | 0, _ => []
  | n + 1, s => .ofValue 1 s :: .ofValue 2 (s.skip 1) :: ofEntries n ((s.skip 1).skip 2)

/-- A size record with so many entries. -/
def ofSizes (entries : Nat) (s : Source) : List Ask :=
  .ofValue 1 s :: .ofValue 1 (s.skip 1) :: ofEntries entries ((s.skip 1).skip 1)

def ofEvent (index : Option Int) (event : Event) (s : Source) : List Ask :=
  (.ofValue 1 s :: ofBlock event.payload.length (s.skip 1)).map (place index)

/-- Events that are numbered on from `n`. -/
def ofEvents (n : Nat) : List Event → Source → List Ask
  | [], _ => []
  | event :: events, s =>
    ofEvent (some n) event s ++ ofEvents (n + 1) events (s.skip event.bytes.length)

theorem ofEvents_concat (n : Nat) (events : List Event) (event : Event) (s : Source) :
    ofEvents n (events ++ [event]) s = ofEvents n events s ++
      ofEvent (some (n + events.length : Nat)) event
        (s.skip (events.flatMap Event.bytes).length) := by
  induction events generalizing n s with
  | nil => exact List.append_nil _
  | cons first events ih =>
    have hn : n + 1 + events.length = n + (first :: events).length := by
      rw [List.length_cons]
      omega
    rw [List.cons_append, ofEvents, ih, ofEvents, List.append_assoc, Source.skip_skip, hn,
      List.flatMap_cons, List.length_append]

end Ask

namespace Run.Asks

variable {α β : Type} {s t : Session}

theorem bind_nil {d : Run α} {f : α → Run β} {asks : List Ask} (first : Asks d s asks)
    (h : ∀ a t, Asks (f a) t []) : Asks (d >>= f) s asks := by
  rcases hd : d.run s with ⟨_ | a, t⟩
  · exact .bind_error f first hd
  · have hasks := Asks.bind first hd (h a t)
    rwa [List.append_nil] at hasks

/-- Where what comes next does not touch the source, nothing more is asked for. -/
theorem bind_silent {d : Run α} {f : α → Run β} {asks : List Ask} (first : Asks d s asks)
    (h : ∀ a, (f a).Silent) : Asks (d >>= f) s asks :=
  first.bind_nil fun a t => .silent t (h a)

theorem silent_bind {d : Run α} {f : α → Run β} {a : α} {asks : List Ask} (h : d.Silent)
    (ok : d.run s = (.ok a, t)) (rest : Asks (f a) t asks) : Asks (d >>= f) s asks :=
  .bind (.silent s h) ok rest

theorem value (f : Bytes → α) (size : Nat) (s : Session) :
    Asks (ofReader (f <$> Layout.block size).read) s [.ofValue size s.source] := by
  change Asks (ofReader (Layout.readBlock [] size >>= fun raw => pure (f raw))) s _
  rw [ofReader_bind]
  exact (Asks.field [] size s).bind_silent fun raw => .ofReader_pure (f raw)

/-- A value in memory, and what is asked for behind it. -/
theorem value_bind {f : Bytes → α} {size : Nat} {next : α → Run β} {asks : List Ask}
    (hs : s.source.InMemory) (hsize : size ≤ s.source.left.length)
    (rest : Asks (next (f (s.source.left.slice 0 size)))
      { s with source := s.source.skip size } asks) :
    Asks (ofReader (f <$> Layout.block size).read >>= next) s (.ofValue size s.source :: asks) :=
  .bind (value f size s) (run_ofReader_eq (Layout.readUnder_of_size_le [] hs hsize)) rest

theorem ofBlock (n : Nat) (s : Session) :
    Asks (ofReader (Reader.block n)) s (Ask.ofBlock n s.source) := by
  by_cases hn : n = 0
  · subst hn
    exact .silent s (.ofReader_pure [])
  · rw [Ask.ofBlock, if_neg hn]
    exact .block n s hn

theorem expect (expected : Bytes) (s : Session) :
    Asks (ofReader (Reader.expect expected)) s (Ask.ofBlock expected.length s.source) := by
  rw [Reader.expect, ofReader_bind]
  refine (ofBlock _ s).bind_silent fun got => ?_
  split
  · exact .ofReader_pure ()
  · exact ⟨fun _ _ => rfl, tells_ofReader _⟩

/-- Expected bytes that are there, and what is asked for behind them. -/
theorem expect_bind {expected rest : Bytes} {next : Reader β} {asks : List Ask}
    (hs : s.source.InMemory) (hl : s.source.left = expected ++ rest)
    (h : Asks (ofReader next) { s with source := s.source.skip expected.length } asks) :
    Asks (ofReader (Reader.expect expected >>= fun _ => next)) s
      (Ask.ofBlock expected.length s.source ++ asks) := by
  have hexpect := run_ofReader_of_reads (a := ()) (Reader.reads_expect_iff.mpr rfl) hs hl
  rw [ofReader_bind]
  exact .bind (expect expected s) hexpect h

theorem readEntries (n : Nat) (table : SizeTable) (hs : s.source.InMemory)
    (hn : 3 * n ≤ s.source.left.length) :
    Asks (ofReader (SizeRecord.readEntries n table)) s (Ask.ofEntries n s.source) := by
  induction n generalizing table s with
  | zero => exact .silent s (.ofReader_pure table)
  | succ n ih =>
    have hsize : 2 ≤ (s.source.skip 1).left.length := by
      rw [Source.left_skip, List.length_drop]
      omega
    have hrest : 3 * n ≤ ((s.source.skip 1).skip 2).left.length := by
      rw [Source.skip_skip, Source.left_skip, List.length_drop]
      omega
    rw [SizeRecord.readEntries, ofReader_bind]
    refine .value_bind hs (by omega) ?_
    rw [ofReader_bind]
    exact .value_bind (hs.skip 1) hsize (ih _ ((hs.skip 1).skip 2) hrest)

theorem readSizes {entries : List (UInt8 × UInt16)} {rest : Bytes}
    (hfew : entries.length ≤ SizeRecord.maxEntries) (hs : s.source.InMemory)
    (hl : s.source.left = SizeRecord.encode entries ++ rest) :
    Asks readSizes s (Ask.ofSizes entries.length s.source) := by
  have hleft : s.source.left.length = 2 + 3 * entries.length + rest.length := by
    rw [hl, List.length_append, SizeRecord.length_encode]
  have hcode : Bytes.unsigned (s.source.left.slice 0 1) = SizeRecord.code := by
    rw [hl]
    rfl
  have hlength : Bytes.unsigned ((s.source.skip 1).left.slice 0 1) = 1 + 3 * entries.length := by
    rw [Source.left_skip, hl, ← SizeRecord.toNat_length hfew]
    exact Nat.zero_add _
  have hcount : (1 + 3 * entries.length - 1) / 3 = entries.length := by omega
  refine .bind_silent ?_ fun record => (Silent.note _).bind fun _ => .pure record
  rw [SizeRecord.reader, ofReader_bind]
  refine .value_bind hs (by omega) ?_
  rw [if_neg (not_not_intro hcode), ofReader_bind]
  refine .value_bind (hs.skip 1) ?_ ?_
  · rw [Source.left_skip, List.length_drop]
    omega
  · rw [hlength, if_neg (by omega), ofReader_bind, hcount]
    refine .bind_silent ?_ fun table => .ofReader_pure _
    have hmore : 3 * entries.length ≤ ((s.source.skip 1).skip 1).left.length := by
      rw [Source.skip_skip, Source.left_skip, List.length_drop]
      omega
    exact readEntries _ _ ((hs.skip 1).skip 1) hmore

section Events

variable {sink : Sink} {options : Options} {rawLength : Int} {rest : Bytes}

/-- An event in memory is asked for by its code and then its payload. -/
theorem readRecord {table : SizeTable} {event : Event} (fits : event.Fits table)
    (hs : s.source.InMemory) (hl : s.source.left = event.bytes ++ rest) :
    Asks (readRecord options table) s
      (.ofValue 1 s.source :: Ask.ofBlock event.payload.length (s.source.skip 1)) := by
  have hcode : Bytes.unsigned (s.source.left.slice 0 1) = event.code.toNat := by
    rw [hl]
    exact Nat.zero_add _
  have hsize : 1 ≤ s.source.left.length := by
    rw [hl]
    exact Nat.le_add_left ..
  refine .value_bind hs hsize ?_
  rw [hcode]
  refine .silent_bind (.note _) rfl ?_
  rw [show table.lookup event.code.toNat = some (event.payload.length : Int) from fits]
  exact (ofBlock _ _).bind_silent fun payload =>
    (silent_decodePayload options payload _).bind fun _ => .pure _

theorem readEvent {table : SizeTable} {event : Event} (index : Option Int)
    (fits : event.Fits table) (hs : s.source.InMemory)
    (hl : s.source.left = event.bytes ++ rest) :
    Asks (readEvent sink options table index) s (Ask.ofEvent index event s.source) := by
  refine ((readRecord fits hs hl).annotated index).bind_silent fun record => ?_
  split
  · exact (Silent.deliver sink _).bind fun _ => .pure record
  · exact .pure record

/-- Behind events in memory that may follow each other the loop asks for what comes next. -/
theorem readEvents_of_passed {record : SizeRecord} {events : List Event} {calls : List Call}
    {slots : Slots} {late : List Ask} (takes : sink.Takes (s.calls.size + calls.length))
    (hs : s.source.InMemory) (hi : s.slots = .initial)
    (hp : Passed options rawLength record events calls slots)
    (hl : s.source.left = events.flatMap Event.bytes ++ rest)
    (next : ∀ t : Session, t.source = s.source.skip (events.flatMap Event.bytes).length →
      t.slots = slots → t.calls.size = s.calls.size + calls.length →
      Asks (Decoder.rounds (nextEvent sink options rawLength record.table)
        (advances_nextEvent sink options rawLength record.table) (.after record events)) t late) :
    Asks (readEvents sink options rawLength record) s (Ask.ofEvents 0 events s.source ++ late) := by
  -- The last event is what comes next behind the others.
  induction events using List.reverseRecOn generalizing calls slots rest late with
  | nil =>
    have hd := hp.decoded
    cases hd
    exact next s (Source.skip_zero _).symm hi rfl
  | append_singleton events event ih =>
    obtain ⟨early, mid, call, hp', hg, hf, hd, rfl⟩ := hp.of_concat
    rw [List.flatMap_append, List.flatMap_singleton, List.append_assoc] at hl
    rw [List.length_append, ← Nat.add_assoc] at takes
    rw [Ask.ofEvents_concat, List.append_assoc, Nat.zero_add]
    refine ih (takes.mono (Nat.le_add_right ..)) hp' hl fun t ht hslots hcalls => ?_
    have htm : t.source.InMemory := ht ▸ hs.skip _
    have htl : t.source.left = event.bytes ++ rest := ht ▸ Source.left_skip_of_append hl
    obtain ⟨notes, hr⟩ :=
      run_readEvent (some events.length) (hcalls ▸ takes) hf htm htl (hslots ▸ hd)
    rw [Decoder.rounds_eq, nextEvent_goesOn hg, bind_assoc, ← ht]
    refine .bind (readEvent _ hf htm htl) hr ?_
    rw [pure_bind]
    dsimp only
    rw [add_after rfl rfl]
    refine next _ ?_ rfl ?_
    · dsimp only
      rw [ht, Source.skip_skip, List.flatMap_append, List.flatMap_singleton, List.length_append]
    · dsimp only
      rw [Array.size_append, hcalls, List.length_append, Nat.add_assoc]
      rfl

/-- A raw stream in memory is asked for by its size record and its events. -/
theorem readRaw {entries : List (UInt8 × UInt16)} {events : List Event} {calls : List Call}
    {slots : Slots} (takes : sink.Takes (s.calls.size + calls.length)) (hs : s.source.InMemory)
    (hfew : entries.length ≤ SizeRecord.maxEntries)
    (hp : Passed options rawLength (.ofEntries entries) events calls slots)
    (hl : s.source.left = SizeRecord.encode entries ++ (events.flatMap Event.bytes ++ rest))
    (hg : ¬(Progress.after (.ofEntries entries) events).goesOn rawLength = true) :
    Asks (readRaw sink options rawLength) s
      ((Ask.ofSizes entries.length s.source).map (Ask.place none) ++
        Ask.ofEvents 0 events (s.source.skip (SizeRecord.encode entries).length)) := by
  let u : Session := { s with slots := .initial }
  obtain ⟨notes, hr⟩ := run_readSizes (s := u) hfew hs hl
  have hsizes := (readSizes (s := u) hfew hs hl).annotated none
  refine .onFreshSlots (.bind hsizes (Decoder.annotated_ok_iff.mpr hr) ?_)
  refine .bind_nil ?_ fun progress t => ?_
  · rw [← List.append_nil (Ask.ofEvents ..)]
    refine readEvents_of_passed takes (hs.skip _) rfl hp (Source.left_skip_of_append hl)
      fun t _ _ _ => ?_
    rw [Decoder.rounds_eq, nextEvent_stops hg]
    exact .silent t (.pure _)
  · split
    · exact .annotated none (.silent t (.fail _))
    · exact .silent t ((Silent.note _).bind fun _ => .pure _)

end Events

end Run.Asks

namespace Container

variable {options : Options} {s : Session} {tree : List (String × Tree)}

theorem asks_readHead {rest : Bytes} (hs : s.source.InMemory)
    (hl : s.source.left = rawPrologue ++ rest) :
    Run.Asks (Run.ofReader readHead) s (Ask.ofBlock rawPrologue.length s.source ++
      [.ofValue 4 (s.source.skip rawPrologue.length)]) :=
  .expect_bind hs hl (.value Bytes.unsigned 4 _)

/-- A map that ends at once is asked for by its closing brace. -/
theorem asks_readMap_empty {rest : Bytes} (hs : s.source.InMemory)
    (hl : s.source.left = 0x7D :: rest) :
    Run.Asks (Run.ofReader (Ubjson.readMap 0)) s [.ofValue 1 s.source] := by
  have hmarker : Bytes.unsigned (s.source.left.slice 0 1) = 0x7D := by
    rw [hl]
    rfl
  have hsize : 1 ≤ s.source.left.length := by
    rw [hl]
    exact Nat.le_add_left ..
  rw [Ubjson.readMap, if_neg (by decide), Ubjson.readEntries, Run.ofReader_rounds,
    Decoder.rounds_eq, Ubjson.readEntry, Ubjson.readKey, bind_assoc, Run.ofReader_bind, bind_assoc]
  refine .value_bind hs hsize ?_
  rw [hmarker]
  exact .silent _ (.pure [])

/-- What is asked for behind the raw stream, if the map of the metadata asks for the given reads. -/
theorem asks_readRest {map rest : Bytes} {asks : List Ask} (hs : s.source.InMemory)
    (hm : ∃ u, (Ubjson.readMap 0).run (.ofBytes map) = (.ok tree, u) ∧ u.left = [])
    (hl : s.source.left = metadataPrologue ++ map ++ rest)
    (hmap : Run.Asks (Run.ofReader (Ubjson.readMap 0))
      { s with source := s.source.skip metadataPrologue.length } asks) :
    Run.Asks (readRest .quiet) s
      ((Ask.ofBlock metadataPrologue.length s.source ++ asks).map (Ask.place none) ++
        (Ask.ofBlock epilogue.length (s.source.skip (metadataPrologue ++ map).length)).map
          (Ask.place none)) := by
  have hmeta := Run.run_ofReader_of_reads (reads_readMetadata_iff.mpr ⟨map, rfl, hm⟩) hs hl
  rw [List.append_assoc] at hl
  refine .bind ((Run.Asks.expect_bind hs hl hmap).annotated none)
    (Decoder.annotated_ok_iff.mpr hmeta) ?_
  refine .silent_bind (.deliver .quiet _) (Run.run_deliver_quiet _ _) ?_
  exact (Run.Asks.expect epilogue _).annotated none

/-- The reads of a replay that starts at the source, if its metadata ask for the given ones. -/
def Parts.asks (parts : Parts) (map : List Ask) (s : Source) : List Ask :=
  let raw := s.skip (rawPrologue.length + 4)
  let rest := raw.skip parts.raw.length
  (Ask.ofBlock rawPrologue.length s ++ [Ask.ofValue 4 (s.skip rawPrologue.length)]).map
      (Ask.place none) ++
    ((Ask.ofSizes parts.entries.length raw).map (Ask.place none) ++
        Ask.ofEvents 0 parts.events (raw.skip (SizeRecord.encode parts.entries).length) ++
      ((Ask.ofBlock metadataPrologue.length rest ++ map).map (Ask.place none) ++
        (Ask.ofBlock epilogue.length (rest.skip (metadataPrologue ++ parts.metadata).length)).map
          (Ask.place none)))

/-- Sound parts in memory are asked for one after another. -/
theorem asks_of_sound {parts : Parts} {calls : List Call} {rest : Bytes} {map : List Ask}
    (hs : s.source.InMemory) (h : parts.Sound options calls tree)
    (hl : s.source.left = parts.bytes ++ rest)
    (hmap : ∀ t : Session,
      t.source = ((s.source.skip (rawPrologue.length + 4)).skip parts.raw.length).skip
        metadataPrologue.length → Run.Asks (Run.ofReader (Ubjson.readMap 0)) t map) :
    Run.Asks (run .quiet options) s (parts.asks map s.source) := by
  obtain ⟨slots, hp⟩ := h.passed
  have hlhead : s.source.left = rawPrologue ++ Bytes.bigEndian 4 parts.rawLength.toNat ++
      (parts.raw ++ (metadataPrologue ++ parts.metadata ++ (epilogue ++ rest))) := by
    rw [hl]
    simp only [Parts.bytes, List.append_assoc]
  have hhead := Run.run_ofReader_of_reads
    (reads_readHead_iff.mpr ⟨parts.rawLength, rfl, rfl⟩) hs hlhead
  have hlraw := Source.left_skip_of_append hlhead
  rw [List.length_append, Bytes.length_bigEndian] at hhead hlraw
  rw [List.append_assoc] at hlhead
  let t : Session := { s with
    source := s.source.skip (rawPrologue.length + 4)
    notes := s.notes.push (.rawLength parts.rawLength.toNat) }
  have ht : t.source.InMemory := hs.skip _
  obtain ⟨u, hraw, hu, -⟩ :=
    Run.run_readRaw_of_length (s := t) ht (.of_left h.few hp hlraw) h.stops h.lengthAfter
  rw [← parts.length_raw] at hu
  have hrest := asks_readRest (s := u) (hu ▸ ht.skip _) h.metadata
    (hu ▸ Source.left_skip_of_append hlraw) (hmap _ (by rw [hu]))
  rw [hu] at hrest
  refine .bind ((asks_readHead hs hlhead).annotated none) (Decoder.annotated_ok_iff.mpr hhead) ?_
  refine .silent_bind (.note _) rfl ?_
  exact .bind (.readRaw (s := t) (Sink.takes_quiet _) ht h.few hp
    (hlraw.trans (List.append_assoc ..)) h.stops) hraw hrest

end Container

end Replay
