import Replay.Proofs.EventLoop

/-!
Runs of a whole raw stream: its size record, its events, and the accounting of its length. What a
run has taken is told by the entries of the record and the list of events, and the length that it
counts is the number of bytes that it has taken.
-/

namespace Replay

open Reader

/-- A source has come from `s` to `t` by the size record with the given entries and then the given
events, for which the given calls are made and the given slots are left. -/
structure RawTaken (options : Options) (rawLength : Int) (s t : Source)
    (entries : List (UInt8 × UInt16)) (events : List Event) (calls : List Call) (slots : Slots) :
    Prop where
  few : entries.length ≤ SizeRecord.maxEntries
  passed : Passed options rawLength (.ofEntries entries) events calls slots
  left : s.left = SizeRecord.encode entries ++ events.flatMap Event.bytes ++ t.left
  source : t = s.skip (Event.lengthAfter (.ofEntries entries) events)

theorem RawTaken.inMemory {options : Options} {rawLength : Int} {s t : Source}
    {entries : List (UInt8 × UInt16)} {events : List Event} {calls : List Call} {slots : Slots}
    (h : RawTaken options rawLength s t entries events calls slots) (hs : s.InMemory) :
    t.InMemory := by
  rw [h.source]
  exact hs.skip _

/-- What lies behind a run of a raw stream that started at `s` and has come to `t`: what its source
has taken, and the calls made for that. -/
structure RawBehind (options : Options) (rawLength : Int) (s t : Session)
    (entries : List (UInt8 × UInt16)) (events : List Event) (calls : List Call) (slots : Slots) :
    Prop extends RawTaken options rawLength s.source t.source entries events calls slots where
  calls : t.calls.toList = s.calls.toList ++ calls

/-- A raw stream that started at `s` has failed at `t`: in the size record, in an event behind
others, or in the accounting of the length. -/
inductive RawFails (options : Options) (rawLength : Int) (s t : Session) : Failure → Prop where
  | sizes {f : Failure} (failed : SizeRecord.reader.run s.source = (.error f, t.source))
    (untold : t.calls = s.calls) :
    RawFails options rawLength s t (f.annotate none t.source.offset)
  | event {mid : Source} {entries : List (UInt8 × UInt16)} {events : List Event}
    {calls : List Call} {slots : Slots} {f : Failure}
    (taken : RawTaken options rawLength s.source mid entries events calls slots)
    (goesOn : (Progress.after (.ofEntries entries) events).goesOn rawLength = true)
    (failed : (EventRecord.reader options (SizeRecord.ofEntries entries).table slots).run mid =
      (.error f, t.source))
    (told : t.calls.toList = s.calls.toList ++ calls) :
    RawFails options rawLength s t (f.annotate (some events.length) t.source.offset)
  | length {entries : List (UInt8 × UInt16)} {events : List Event} {calls : List Call}
    {slots : Slots} (behind : RawBehind options rawLength s t entries events calls slots)
    (stops : ¬(Progress.after (.ofEntries entries) events).goesOn rawLength = true)
    (limited : rawLength ≠ 0)
    (missed : (Event.lengthAfter (.ofEntries entries) events : Int) ≠ rawLength) :
    RawFails options rawLength s t ((Failure.ofCause (.rawLength rawLength
      (Event.lengthAfter (.ofEntries entries) events))).annotate none t.source.offset)

namespace Run

variable {options : Options} {rawLength : Int} {s t : Session}

/-- Reads a size record and leaves all but the source and the notes alone. -/
theorem readSizes_ok {record : SizeRecord} (h : readSizes.run s = (.ok record, t)) :
    ∃ entries : List (UInt8 × UInt16), entries.length ≤ SizeRecord.maxEntries ∧
      record = .ofEntries entries ∧ s.source.left = SizeRecord.encode entries ++ t.source.left ∧
      t.source = s.source.skip (SizeRecord.encode entries).length ∧ t.slots = s.slots ∧
      t.calls = s.calls := by
  obtain ⟨record', s₁, hr, h₁⟩ := Decoder.run_bind_eq_ok h
  obtain ⟨bytes, hb, hl, ht, hslots₁, hcalls₁⟩ := ofReader_ok SizeRecord.composed_reader.framed hr
  obtain ⟨_, s₂, hn, h₂⟩ := Decoder.run_bind_eq_ok h₁
  obtain ⟨hsource₂, hslots₂, hcalls₂⟩ := note_run hn
  cases h₂
  obtain ⟨entries, hfew, rfl, rfl⟩ := SizeRecord.reads_iff.mp hb
  rw [← hsource₂] at hl ht
  exact ⟨entries, hfew, rfl, hl, ht, hslots₂.trans hslots₁, hcalls₂.trans hcalls₁⟩

theorem readSizes_error {e : Failure} (h : readSizes.run s = (.error e, t)) :
    SizeRecord.reader.run s.source = (.error e, t.source) ∧ t.calls = s.calls := by
  rcases Decoder.run_bind_eq_error h with hr | ⟨record, s₁, -, h₁⟩
  · obtain ⟨hrr, -, hcalls⟩ := ofReader_run hr
    exact ⟨hrr, hcalls⟩
  · rcases Decoder.run_bind_eq_error h₁ with hn | ⟨_, s₂, -, h₂⟩
    · cases hn
    · cases h₂

theorem run_readSizes {entries : List (UInt8 × UInt16)} {rest : Bytes}
    (hn : entries.length ≤ SizeRecord.maxEntries) (hs : s.source.InMemory)
    (hl : s.source.left = SizeRecord.encode entries ++ rest) :
    ∃ notes, readSizes.run s = (.ok (.ofEntries entries),
      { s with source := s.source.skip (SizeRecord.encode entries).length, notes }) := by
  have hr := run_ofReader_of_reads (SizeRecord.reads_iff.mpr ⟨entries, hn, rfl, rfl⟩) hs hl
  refine ⟨s.notes.push (.sizes (SizeRecord.ofEntries entries).table), ?_⟩
  rw [readSizes, Decoder.run_bind_of_ok hr]
  rfl

/-- What the raw stream does behind its size record. -/
def readBody (sink : Sink) (options : Options) (rawLength : Int) (record : SizeRecord) :
    Run Nat := do
  let progress ← readEvents sink options rawLength record
  if rawLength ≠ 0 ∧ progress.length ≠ rawLength then
    (Decoder.reject (.rawLength rawLength progress.length)).annotated none
  else
    note (.rawStream progress.events progress.length)
    pure progress.length

theorem run_readRaw (sink : Sink) (options : Options) (rawLength : Int) (s : Session) :
    (readRaw sink options rawLength).run s =
      match (readSizes.annotated none).run { s with slots := .initial } with
      | (.ok record, t) =>
        (((readBody sink options rawLength record).run t).1,
          { ((readBody sink options rawLength record).run t).2 with slots := s.slots })
      | (.error e, t) => (.error e, { t with slots := s.slots }) := by
  change (((readSizes.annotated none >>= readBody sink options rawLength).run
      { s with slots := .initial }).1, { ((readSizes.annotated none >>=
        readBody sink options rawLength).run { s with slots := .initial }).2 with
          slots := s.slots }) = _
  rw [Decoder.run_bind]
  rcases (readSizes.annotated none).run { s with slots := .initial } with ⟨_ | _, _⟩ <;> rfl

/-- A run that is behind a size record and then behind events has both behind it. -/
theorem rawBehind {entries : List (UInt8 × UInt16)} {events : List Event} {calls : List Call}
    {mid : Session} (hfew : entries.length ≤ SizeRecord.maxEntries)
    (hl : s.source.left = SizeRecord.encode entries ++ t.source.left)
    (ht : t.source = s.source.skip (SizeRecord.encode entries).length) (hc : t.calls = s.calls)
    (hb : Behind options rawLength (.ofEntries entries) t mid events calls) :
    RawBehind options rawLength s mid entries events calls mid.slots where
  few := hfew
  passed := hb.passed
  left := by rw [hl, hb.left, List.append_assoc]
  source := by
    rw [hb.source, ht, Source.skip_skip, Event.lengthAfter_eq]
    rfl
  calls := by rw [hb.calls, hc]

theorem readBody_ok {sink : Sink} {record : SizeRecord} {n : Nat} (hs : s.slots = .initial)
    (h : (readBody sink options rawLength record).run s = (.ok n, t)) :
    ∃ events calls, Behind options rawLength record s t events calls ∧
      ¬(Progress.after record events).goesOn rawLength = true ∧
      n = Event.lengthAfter record events ∧ (rawLength ≠ 0 → n = rawLength) := by
  obtain ⟨progress, u, hp, h₁⟩ := Decoder.run_bind_eq_ok h
  obtain ⟨events, calls, mid, hb, ⟨hg, he⟩ | ⟨-, e, v, -, he⟩⟩ := readEvents_run sink hs
  · cases hp.symm.trans he
    split at h₁
    · cases h₁
    · rename_i hn
      cases h₁
      refine ⟨events, calls, ⟨hb.passed, hb.left, hb.source, hb.calls⟩, hg, rfl, fun h0 => ?_⟩
      exact Decidable.byContradiction fun hne => hn ⟨h0, hne⟩
  · cases hp.symm.trans he

/-- Behind the size record a run fails in an event or in the accounting of the length. -/
theorem readBody_error {sink : Sink} {record : SizeRecord} {e : Failure} (hs : s.slots = .initial)
    (h : (readBody sink options rawLength record).run s = (.error e, t)) :
    ∃ events calls mid, Behind options rawLength record s mid events calls ∧
      (((Progress.after record events).goesOn rawLength = true ∧
          (readEvent sink options record.table (some events.length)).run mid = (.error e, t)) ∨
        (¬(Progress.after record events).goesOn rawLength = true ∧ rawLength ≠ 0 ∧
          (Event.lengthAfter record events : Int) ≠ rawLength ∧ t = mid ∧
          e = (Failure.ofCause (.rawLength rawLength (Event.lengthAfter record events))).annotate
            none t.source.offset)) := by
  obtain ⟨events, calls, mid, hb, ⟨hg, he⟩ | ⟨hg, f, v, hr, he⟩⟩ := readEvents_run sink hs
  · refine ⟨events, calls, mid, hb, .inr ?_⟩
    have h₁ : _ = (Except.error e, t) := (Decoder.run_bind_of_ok he _).symm.trans h
    split at h₁
    · rename_i hn
      cases h₁
      exact ⟨hg, hn.1, hn.2, rfl, rfl⟩
    · cases h₁
  · refine ⟨events, calls, mid, hb, .inl ⟨hg, ?_⟩⟩
    rw [readBody, Decoder.run_bind, he] at h
    cases h
    exact hr

/-- Whatever the sink and the source are, a raw stream that is read has its size record and its
events behind it, the loop may not go on, and the length is the declared one if there is one. -/
theorem readRaw_ok {sink : Sink} {n : Nat}
    (h : (readRaw sink options rawLength).run s = (.ok n, t)) :
    ∃ entries events calls slots, RawBehind options rawLength s t entries events calls slots ∧
      ¬(Progress.after (.ofEntries entries) events).goesOn rawLength = true ∧
      n = Event.lengthAfter (.ofEntries entries) events ∧ (rawLength ≠ 0 → n = rawLength) := by
  rw [run_readRaw] at h
  split at h
  · rename_i record u hr
    obtain ⟨entries, hfew, rfl, hl, hu, hslots, hcalls⟩ :=
      readSizes_ok (Decoder.annotated_ok_iff.mp hr)
    rcases hb : (readBody sink options rawLength (.ofEntries entries)).run u with ⟨result, v⟩
    rw [hb] at h
    cases h
    obtain ⟨events, calls, hbehind, hg, hn, hraw⟩ := readBody_ok hslots hb
    obtain ⟨htaken, hcalls'⟩ := rawBehind hfew hl hu hcalls hbehind
    exact ⟨entries, events, calls, v.slots, ⟨htaken, hcalls'⟩, hg, hn, hraw⟩
  · cases h

/-- A raw stream that is not read fails in the size record, or later with the record and some
events behind it: in the next event, or in the accounting of the length. -/
theorem readRaw_error {sink : Sink} {e : Failure}
    (h : (readRaw sink options rawLength).run s = (.error e, t)) :
    (∃ f, SizeRecord.reader.run s.source = (.error f, t.source) ∧ t.calls = s.calls ∧
        e = f.annotate none t.source.offset) ∨
      ∃ entries events calls mid,
        RawBehind options rawLength s mid entries events calls mid.slots ∧
        ((∃ u, (Progress.after (.ofEntries entries) events).goesOn rawLength = true ∧
            (readEvent sink options (SizeRecord.ofEntries entries).table (some events.length)).run
              mid = (.error e, u) ∧ t.source = u.source ∧ t.calls = u.calls) ∨
          (¬(Progress.after (.ofEntries entries) events).goesOn rawLength = true ∧
            rawLength ≠ 0 ∧ (Event.lengthAfter (.ofEntries entries) events : Int) ≠ rawLength ∧
            t.source = mid.source ∧ t.calls = mid.calls ∧
            e = (Failure.ofCause (.rawLength rawLength
              (Event.lengthAfter (.ofEntries entries) events))).annotate none
                t.source.offset)) := by
  rw [run_readRaw] at h
  split at h
  · rename_i record u hr
    obtain ⟨entries, hfew, rfl, hl, hu, hslots, hcalls⟩ :=
      readSizes_ok (Decoder.annotated_ok_iff.mp hr)
    rcases hb : (readBody sink options rawLength (.ofEntries entries)).run u with ⟨result, v⟩
    rw [hb] at h
    cases h
    obtain ⟨events, calls, mid, hbehind, hfail⟩ := readBody_error hslots hb
    refine .inr ⟨entries, events, calls, mid, rawBehind hfew hl hu hcalls hbehind, ?_⟩
    rcases hfail with ⟨hg, hev⟩ | ⟨hg, h0, hne, rfl, he⟩
    · exact .inl ⟨v, hg, hev, rfl, rfl⟩
    · exact .inr ⟨hg, h0, hne, rfl, rfl, he⟩
  · rename_i f u hr
    cases h
    obtain ⟨f', hr', he⟩ := Decoder.annotated_error hr
    obtain ⟨hreader, hcalls⟩ := readSizes_error hr'
    exact .inl ⟨f', hreader, hcalls, he⟩

/-- Where no sink raises, a raw stream fails on its own account. -/
theorem readRaw_quiet_error {e : Failure}
    (h : (readRaw .quiet options rawLength).run s = (.error e, t)) :
    RawFails options rawLength s t e := by
  rcases readRaw_error h with
    ⟨f, hf, hcalls, rfl⟩ | ⟨entries, events, calls, mid, hbehind, hfail⟩
  · exact .sizes hf hcalls
  · rcases hfail with ⟨u, hg, hevent, hsource, hcalls⟩ | ⟨hg, h0, hne, hsource, hcalls, rfl⟩
    · obtain ⟨f, hrecord, rfl⟩ := readEvent_quiet_error hevent
      obtain ⟨hreader, hcalls'⟩ := readRecord_error hrecord
      rw [← hsource] at hreader ⊢
      exact .event hbehind.toRawTaken hg hreader (by rw [hcalls, hcalls', hbehind.calls])
    · exact .length ⟨hsource ▸ hbehind.toRawTaken, hcalls ▸ hbehind.calls⟩ hg h0 hne

theorem run_readRaw_of_sizes_error (sink : Sink) {f : Failure} {u : Source}
    (h : SizeRecord.reader.run s.source = (.error f, u)) :
    ∃ t, (readRaw sink options rawLength).run s = (.error (f.annotate none u.offset), t) ∧
      t.source = u ∧ t.calls = s.calls := by
  have hr : readSizes.run { s with slots := .initial } =
      (.error f, { s with source := u, slots := .initial }) := by
    rw [readSizes, Decoder.run_bind]
    simp only [ofReader, h]
  refine ⟨{ s with source := u }, ?_, rfl, rfl⟩
  rw [run_readRaw, Decoder.run_annotated, hr]
  rfl

section Taken

variable {mid : Source} {entries : List (UInt8 × UInt16)} {events : List Event}
  {calls : List Call} {slots : Slots}

/-- A raw stream in memory comes to its events with all slots as they are at the start. -/
theorem run_readRaw_of_taken (sink : Sink) (hs : s.source.InMemory)
    (h : RawTaken options rawLength s.source mid entries events calls slots) :
    ∃ u : Session, u.source.InMemory ∧ u.slots = .initial ∧ u.calls = s.calls ∧
      u.source.left = events.flatMap Event.bytes ++ mid.left ∧
      u.source.skip (events.flatMap Event.bytes).length = mid ∧
      (readRaw sink options rawLength).run s =
        (((readBody sink options rawLength (.ofEntries entries)).run u).1,
          { ((readBody sink options rawLength (.ofEntries entries)).run u).2 with
            slots := s.slots }) := by
  have hl := h.left
  rw [List.append_assoc] at hl
  obtain ⟨notes, hr⟩ := run_readSizes (s := { s with slots := .initial }) h.few hs hl
  refine ⟨{ source := s.source.skip (SizeRecord.encode entries).length, slots := .initial,
            calls := s.calls, notes }, hs.skip _, rfl, rfl, Source.left_skip_of_append hl, ?_, ?_⟩
  · dsimp only
    rw [Source.skip_skip, h.source, Event.lengthAfter_eq]
    rfl
  · rw [run_readRaw, Decoder.annotated_ok_iff.mpr hr]

/-- A raw stream in memory ends behind its events with a length that is not wrong, if the sink takes
all the calls. -/
theorem run_readRaw_of_takes {sink : Sink} (takes : sink.Takes (s.calls.size + calls.length))
    (hs : s.source.InMemory)
    (h : RawTaken options rawLength s.source mid entries events calls slots)
    (hg : ¬(Progress.after (.ofEntries entries) events).goesOn rawLength = true)
    (hn : rawLength ≠ 0 → (Event.lengthAfter (.ofEntries entries) events : Int) = rawLength) :
    ∃ t : Session, (readRaw sink options rawLength).run s =
        (.ok (Event.lengthAfter (.ofEntries entries) events), t) ∧
      t.source = mid ∧ t.calls.toList = s.calls.toList ++ calls := by
  obtain ⟨u, hus, hi, hc, hl, hmid, hr⟩ := run_readRaw_of_taken sink hs h
  obtain ⟨notes, hb⟩ := run_readEvents (hc ▸ takes) hus hi h.passed hl hg
  rw [hmid, hc] at hb
  let t : Session := {
    source := mid
    slots := s.slots
    calls := s.calls ++ calls.toArray
    notes := notes.push (.rawStream events.length (Event.lengthAfter (.ofEntries entries) events)) }
  refine ⟨t, ?_, rfl, Array.toList_append⟩
  rw [hr, readBody, Decoder.run_bind_of_ok hb, Progress.length_after,
    if_neg fun hne => hne.2 (hn hne.1)]
  rfl

theorem run_readRaw_of_length (hs : s.source.InMemory)
    (h : RawTaken options rawLength s.source mid entries events calls slots)
    (hg : ¬(Progress.after (.ofEntries entries) events).goesOn rawLength = true)
    (hn : rawLength ≠ 0 → (Event.lengthAfter (.ofEntries entries) events : Int) = rawLength) :
    ∃ t : Session, (readRaw .quiet options rawLength).run s =
        (.ok (Event.lengthAfter (.ofEntries entries) events), t) ∧
      t.source = mid ∧ t.calls.toList = s.calls.toList ++ calls :=
  run_readRaw_of_takes (Sink.takes_quiet _) hs h hg hn

/-- A raw stream in memory fails behind its events when their length is wrong. -/
theorem run_readRaw_of_length_error (hs : s.source.InMemory)
    (h : RawTaken options rawLength s.source mid entries events calls slots)
    (hg : ¬(Progress.after (.ofEntries entries) events).goesOn rawLength = true)
    (h0 : rawLength ≠ 0)
    (hne : (Event.lengthAfter (.ofEntries entries) events : Int) ≠ rawLength) :
    ∃ t : Session, (readRaw .quiet options rawLength).run s =
        (.error ((Failure.ofCause (.rawLength rawLength
          (Event.lengthAfter (.ofEntries entries) events))).annotate none mid.offset), t) ∧
      t.source = mid ∧ t.calls.toList = s.calls.toList ++ calls := by
  obtain ⟨u, hus, hi, hc, hl, hmid, hr⟩ := run_readRaw_of_taken .quiet hs h
  obtain ⟨notes, hb⟩ := run_readEvents (Sink.takes_quiet _) hus hi h.passed hl hg
  rw [hmid, hc] at hb
  refine ⟨{ source := mid, slots := s.slots, calls := s.calls ++ calls.toArray, notes }, ?_, rfl,
    Array.toList_append⟩
  rw [hr, readBody, Decoder.run_bind_of_ok hb, Progress.length_after, if_pos ⟨h0, hne⟩]
  rfl

/-- A raw stream in memory that may go on behind its events fails as the next one does. -/
theorem run_readRaw_of_readEvent_error {sink : Sink} {e : Failure} {v : Source} {later : List Call}
    (takes : sink.Takes (s.calls.size + calls.length)) (hs : s.source.InMemory)
    (h : RawTaken options rawLength s.source mid entries events calls slots)
    (hg : (Progress.after (.ofEntries entries) events).goesOn rawLength = true)
    (fails : ∀ u : Session, u.source = mid → u.slots = slots →
      u.calls.toList = s.calls.toList ++ calls →
      ∃ t, (readEvent sink options (SizeRecord.ofEntries entries).table
          (some events.length)).run u = (.error e, t) ∧
        t.source = v ∧ t.calls.toList = later) :
    ∃ t, (readRaw sink options rawLength).run s = (.error e, t) ∧ t.source = v ∧
      t.calls.toList = later := by
  obtain ⟨u, hus, hi, hc, hl, hmid, hr⟩ := run_readRaw_of_taken sink hs h
  rw [← hmid, ← hc] at fails
  obtain ⟨t, hb, ht, hcalls⟩ := run_readEvents_of_error (hc ▸ takes) hus hi h.passed hl hg fails
  refine ⟨{ t with slots := s.slots }, ?_, ht, hcalls⟩
  rw [hr, readBody, Decoder.run_bind, hb]

/-- A raw stream in memory that may go on behind its events fails in one that is not read, and the
failure gets the number of events before it. -/
theorem run_readRaw_of_event_error {f : Failure} {u : Source} (hs : s.source.InMemory)
    (h : RawTaken options rawLength s.source mid entries events calls slots)
    (hg : (Progress.after (.ofEntries entries) events).goesOn rawLength = true)
    (hf : (EventRecord.reader options (SizeRecord.ofEntries entries).table slots).run mid =
      (.error f, u)) :
    ∃ t, (readRaw .quiet options rawLength).run s =
        (.error (f.annotate (some events.length) u.offset), t) ∧ t.source = u ∧
      t.calls.toList = s.calls.toList ++ calls := by
  refine run_readRaw_of_readEvent_error (Sink.takes_quiet _) hs h hg ?_
  rintro v rfl rfl hcalls
  obtain ⟨notes, he⟩ := run_readEvent_of_error .quiet (some events.length) hf
  exact ⟨_, he, rfl, hcalls⟩

end Taken

end Run

/-- Where the bytes of a size record and of events that may follow each other stand in front, a
source comes by them. -/
theorem RawTaken.of_left {options : Options} {rawLength : Int} {s : Source}
    {entries : List (UInt8 × UInt16)} {events : List Event} {calls : List Call} {slots : Slots}
    {rest : Bytes} (hfew : entries.length ≤ SizeRecord.maxEntries)
    (hp : Passed options rawLength (.ofEntries entries) events calls slots)
    (hl : s.left = SizeRecord.encode entries ++ events.flatMap Event.bytes ++ rest) :
    RawTaken options rawLength s (s.skip (Event.lengthAfter (.ofEntries entries) events)) entries
      events calls slots := by
  have hlength : (SizeRecord.encode entries ++ events.flatMap Event.bytes).length =
      Event.lengthAfter (.ofEntries entries) events := by
    rw [List.length_append, Event.lengthAfter_eq]
    rfl
  refine ⟨hfew, hp, ?_, rfl⟩
  rw [← hlength, Source.left_skip_of_append hl, hl]

/-- The bytes of a size record and of events that may follow each other are read as what they are,
if the loop may not go on behind them and their length is not wrong. -/
theorem Run.run_readRaw_of_passed {options : Options} {rawLength : Int}
    {entries : List (UInt8 × UInt16)} {events : List Event} {calls : List Call} {slots : Slots}
    (hfew : entries.length ≤ SizeRecord.maxEntries)
    (hp : Passed options rawLength (.ofEntries entries) events calls slots)
    (hg : ¬(Progress.after (.ofEntries entries) events).goesOn rawLength = true)
    (hn : rawLength ≠ 0 → (Event.lengthAfter (.ofEntries entries) events : Int) = rawLength) :
    ∃ t : Session, (readRaw .quiet options rawLength).run
        { source := .ofBytes (SizeRecord.encode entries ++ events.flatMap Event.bytes) } =
        (.ok (Event.lengthAfter (.ofEntries entries) events), t) ∧
      RawBehind options rawLength
        { source := .ofBytes (SizeRecord.encode entries ++ events.flatMap Event.bytes) } t entries
        events calls slots := by
  have hl : (Source.ofBytes (SizeRecord.encode entries ++ events.flatMap Event.bytes)).left =
      SizeRecord.encode entries ++ events.flatMap Event.bytes ++ [] := (List.append_nil _).symm
  have htaken := RawTaken.of_left hfew hp hl
  obtain ⟨t, hr, hsource, hcalls⟩ :=
    run_readRaw_of_length (s := { source := .ofBytes _ }) (Source.inMemory_ofBytes _) htaken hg hn
  exact ⟨t, hr, hsource ▸ htaken, hcalls⟩

end Replay
