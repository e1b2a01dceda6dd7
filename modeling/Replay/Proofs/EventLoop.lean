import Replay.Proofs.EventReading

/-!
Runs of the event loop. One event is taken, decoded and delivered at a time; from that step follows
what the whole loop has behind it when it ends or fails, for every source and every sink, and that
it takes any events in memory that may follow each other.
-/

namespace Replay

open Reader

/-- The sink raises in none of the calls up to the given number. -/
def Sink.Takes (sink : Sink) (n : Nat) : Prop :=
  ∀ calls : Array Call, calls.size ≤ n → sink calls = none

theorem Sink.takes_quiet (n : Nat) : Sink.quiet.Takes n :=
  fun _ _ => rfl

theorem Sink.Takes.mono {sink : Sink} {m n : Nat} (h : sink.Takes n) (hle : m ≤ n) :
    sink.Takes m :=
  fun calls hm => h calls (Nat.le_trans hm hle)

namespace Run

variable {α : Type} {s t : Session}

/-- A reader inside a run leaves all but the source alone. -/
theorem ofReader_run {reader : Reader α} {r : Except Failure α}
    (h : (ofReader reader).run s = (r, t)) :
    reader.run s.source = (r, t.source) ∧ t.slots = s.slots ∧ t.calls = s.calls := by
  cases h
  exact ⟨rfl, rfl, rfl⟩

/-- A reader inside a run takes the bytes that it reads its result from. -/
theorem ofReader_ok {reader : Reader α} (hf : reader.Framed) {a : α}
    (h : (ofReader reader).run s = (.ok a, t)) :
    ∃ bytes, reader.Reads bytes a ∧ s.source.left = bytes ++ t.source.left ∧
      t.source = s.source.skip bytes.length ∧ t.slots = s.slots ∧ t.calls = s.calls := by
  obtain ⟨hr, hslots, hcalls⟩ := ofReader_run h
  obtain ⟨bytes, hl, ht, hb⟩ := hf _ _ _ hr
  exact ⟨bytes, hb, hl, ht, hslots, hcalls⟩

theorem run_ofReader_of_reads {reader : Reader α} {bytes rest : Bytes} {a : α}
    (h : reader.Reads bytes a) (hs : s.source.InMemory) (hl : s.source.left = bytes ++ rest) :
    (ofReader reader).run s = (.ok a, { s with source := s.source.skip bytes.length }) := by
  change ((reader.run s.source).1, { s with source := (reader.run s.source).2 }) = _
  rw [h s.source rest hs hl]

theorem run_ofReader_of_error {reader : Reader α} {f : Failure} {u : Source}
    (h : reader.run s.source = (.error f, u)) (event : Option Int) :
    ((ofReader reader).annotated event).run s =
      (.error (f.annotate event u.offset), { s with source := u }) := by
  rw [Decoder.run_annotated]
  simp only [ofReader, h]
  rfl

theorem run_ofReader_of_ok {reader : Reader α} {a : α} {u : Source}
    (h : reader.run s.source = (.ok a, u)) (event : Option Int) :
    ((ofReader reader).annotated event).run s = (.ok a, { s with source := u }) := by
  rw [Decoder.annotated_ok_iff]
  simp only [ofReader, h]

theorem note_run {n : Note} {r : Except Failure Unit} (h : (note n).run s = (r, t)) :
    t.source = s.source ∧ t.slots = s.slots ∧ t.calls = s.calls := by
  cases h
  exact ⟨rfl, rfl, rfl⟩

/-- A run takes and decodes an event as the reader does, with the slots that it has. -/
theorem run_readRecord (options : Options) (table : SizeTable) (s : Session) :
    ∃ notes, (readRecord options table).run s =
      match (EventRecord.reader options table s.slots).run s.source with
      | (.ok (record, after), u) => (.ok record, { s with source := u, slots := after, notes })
      | (.error e, u) => (.error e, { s with source := u, notes }) := by
  unfold readRecord EventRecord.reader
  rw [Decoder.run_bind, Decoder.run_bind]
  rcases hc : Layout.u8.read.run s.source with ⟨_ | code, u⟩
  · exact ⟨s.notes, by simp only [ofReader, hc]⟩
  refine ⟨s.notes.push (.event code), ?_⟩
  simp only [ofReader, hc]
  rw [Decoder.run_bind_of_ok rfl]
  cases table.lookup code with
  | none => rfl
  | some size =>
    dsimp only
    rw [Decoder.run_bind, Decoder.run_bind]
    rcases hp : (Reader.signedBlock size).run u with ⟨_ | payload, v⟩
    · simp only [hp]
    · simp only [hp]
      cases EventKind.ofCode? code with
      | none => rfl
      | some kind =>
        rw [EventRecord.payloadReader, Decoder.run_bind, Decoder.run_bind, decodePayload,
          Decoder.run_bind]
        simp only [Run.slots]
        cases kind.decode options s.slots payload <;> rfl

theorem readRecord_ok {options : Options} {table : SizeTable} {record : EventRecord}
    (h : (readRecord options table).run s = (.ok record, t)) :
    ∃ event : Event, event.Fits table ∧
      EventRecord.Takes options s.slots t.slots s.source t.source event record ∧
      t.calls = s.calls := by
  obtain ⟨notes, hr⟩ := run_readRecord options table s
  rw [h] at hr
  split at hr
  · rename_i record' after u hreader
    cases hr
    obtain ⟨event, hfits, htakes⟩ := EventRecord.reader_ok hreader
    exact ⟨event, hfits, htakes, rfl⟩
  · cases hr

theorem readRecord_error {options : Options} {table : SizeTable} {e : Failure}
    (h : (readRecord options table).run s = (.error e, t)) :
    (EventRecord.reader options table s.slots).run s.source = (.error e, t.source) ∧
      t.calls = s.calls := by
  obtain ⟨notes, hr⟩ := run_readRecord options table s
  rw [h] at hr
  split at hr
  · cases hr
  · rename_i f u hreader
    cases hr
    exact ⟨hreader, rfl⟩

theorem run_readRecord_of_error {options : Options} {table : SizeTable} {e : Failure} {u : Source}
    (h : (EventRecord.reader options table s.slots).run s.source = (.error e, u)) :
    ∃ notes, (readRecord options table).run s = (.error e, { s with source := u, notes }) := by
  obtain ⟨notes, hr⟩ := run_readRecord options table s
  rw [h] at hr
  exact ⟨notes, hr⟩

/-- An event in memory that fits the table and is sound is taken. -/
theorem run_readRecord_of_fits {options : Options} {table : SizeTable} {event : Event}
    {rest : Bytes} {call : Option Call} {after : Slots} (fits : event.Fits table)
    (hs : s.source.InMemory) (hl : s.source.left = event.bytes ++ rest)
    (hd : event.Decodes options s.slots call after) :
    ∃ notes, (readRecord options table).run s =
      (.ok { length := event.bytes.length, kind := event.kind, call },
        { s with source := s.source.skip event.bytes.length, slots := after, notes }) := by
  obtain ⟨notes, hr⟩ := run_readRecord options table s
  rw [EventRecord.reads_reader fits hd s.source rest hs hl] at hr
  exact ⟨notes, hr⟩

theorem deliver_ok {sink : Sink} {call : Call} {a : Unit}
    (h : (deliver sink call).run s = (.ok a, t)) : t = { s with calls := s.calls.push call } :=
  (congrArg Prod.snd h).symm

theorem run_deliver_quiet (call : Call) (s : Session) :
    (deliver .quiet call).run s = (.ok (), { s with calls := s.calls.push call }) := rfl

theorem run_deliver_of_takes {sink : Sink} {call : Call} (h : sink.Takes (s.calls.size + 1)) :
    (deliver sink call).run s = (.ok (), { s with calls := s.calls.push call }) := by
  have htaken : sink (s.calls.push call) = none := h _ (Nat.le_of_eq (Array.size_push _))
  simp only [deliver, htaken]

/-- Whatever the sink and the source are, an event that is read has been taken and delivered. -/
theorem readEvent_ok {sink : Sink} {options : Options} {table : SizeTable} {index : Option Int}
    {record : EventRecord} (h : (readEvent sink options table index).run s = (.ok record, t)) :
    ∃ event : Event, event.Fits table ∧
      EventRecord.Takes options s.slots t.slots s.source t.source event record ∧
      t.calls.toList = s.calls.toList ++ record.call.toList := by
  obtain ⟨record', u, hr, hu⟩ := Decoder.run_bind_eq_ok h
  obtain ⟨event, hfits, htakes, hcalls⟩ := readRecord_ok (Decoder.annotated_ok_iff.mp hr)
  split at hu
  · rename_i call hcall
    obtain ⟨_, v, hd, hv⟩ := Decoder.run_bind_eq_ok hu
    have ht := deliver_ok hd
    cases hv
    subst ht
    refine ⟨event, hfits, ⟨htakes.left, htakes.source, htakes.decoded, htakes.length,
      htakes.kind⟩, ?_⟩
    change (u.calls.push call).toList = _
    rw [Array.toList_push, hcalls, hcall]
    rfl
  · rename_i hcall
    cases hu
    refine ⟨event, hfits, htakes, ?_⟩
    rw [hcall, hcalls]
    exact (List.append_nil _).symm

/-- An event fails where it is read, and then the failure gets its place, or in the sink. -/
theorem readEvent_error {sink : Sink} {options : Options} {table : SizeTable}
    {index : Option Int} {e : Failure}
    (h : (readEvent sink options table index).run s = (.error e, t)) :
    (∃ f, (readRecord options table).run s = (.error f, t) ∧
        e = f.annotate index t.source.offset) ∨
      ∃ record u call, (readRecord options table).run s = (.ok record, u) ∧
        record.call = some call ∧ sink (u.calls.push call) = some e ∧
        t = { u with calls := u.calls.push call } := by
  rcases Decoder.run_bind_eq_error h with hr | ⟨record, u, hr, hu⟩
  · exact .inl (Decoder.annotated_error hr)
  · split at hu
    · rename_i call hcall
      rcases Decoder.run_bind_eq_error hu with hd | ⟨_, v, -, hv⟩
      · obtain ⟨he, ht⟩ := Prod.ext_iff.mp hd
        dsimp only [deliver] at he
        split at he
        · cases he
        · rename_i hsink
          cases he
          exact .inr ⟨record, u, call, Decoder.annotated_ok_iff.mp hr, hcall, hsink, ht.symm⟩
      · cases hv
    · cases hu

/-- To a sink that never raises an event fails only where it is read. -/
theorem readEvent_quiet_error {options : Options} {table : SizeTable} {index : Option Int}
    {e : Failure} (h : (readEvent .quiet options table index).run s = (.error e, t)) :
    ∃ f, (readRecord options table).run s = (.error f, t) ∧
      e = f.annotate index t.source.offset := by
  rcases readEvent_error h with hr | ⟨record, u, call, -, -, hsink, -⟩
  · exact hr
  · cases hsink

/-- An event in memory that fits the table and is sound is taken and delivered. -/
theorem run_readEvent {sink : Sink} {options : Options} {table : SizeTable} {event : Event}
    {rest : Bytes} {call : Option Call} {after : Slots} (index : Option Int)
    (takes : sink.Takes (s.calls.size + call.toList.length)) (fits : event.Fits table)
    (hs : s.source.InMemory) (hl : s.source.left = event.bytes ++ rest)
    (hd : event.Decodes options s.slots call after) :
    ∃ notes, (readEvent sink options table index).run s =
      (.ok { length := event.bytes.length, kind := event.kind, call },
        { source := s.source.skip event.bytes.length, slots := after,
          calls := s.calls ++ call.toList.toArray, notes }) := by
  obtain ⟨notes, hr⟩ := run_readRecord_of_fits fits hs hl hd
  refine ⟨notes, ?_⟩
  rw [readEvent, Decoder.run_bind_of_ok (Decoder.annotated_ok_iff.mpr hr)]
  cases call with
  | none =>
    change (Except.ok _, _) = _
    rw [Option.toList_none, show s.calls ++ ([] : List Call).toArray = s.calls from
      Array.append_empty]
  | some call =>
    let t : Session := {
      source := s.source.skip event.bytes.length
      slots := after
      calls := s.calls
      notes }
    exact Decoder.run_bind_of_ok (run_deliver_of_takes (s := t) takes) _

/-- An event that is not read fails with the number of events before it. -/
theorem run_readEvent_of_error (sink : Sink) {options : Options} {table : SizeTable}
    (index : Option Int) {f : Failure} {u : Source}
    (h : (EventRecord.reader options table s.slots).run s.source = (.error f, u)) :
    ∃ notes, (readEvent sink options table index).run s =
      (.error (f.annotate index u.offset), { s with source := u, notes }) := by
  obtain ⟨notes, hr⟩ := run_readRecord_of_error h
  refine ⟨notes, ?_⟩
  rw [readEvent, Decoder.run_bind, Decoder.run_annotated, hr]
  rfl

theorem add_after {record : SizeRecord} {events : List Event} {event : Event}
    {taken : EventRecord} (hl : taken.length = event.bytes.length) (hk : taken.kind = event.kind) :
    (Progress.after record events).add taken = .after record (events ++ [event]) := by
  simp only [Progress.add, Progress.after, Event.lengthAfter_concat, List.length_append,
    List.length_singleton, hl, hk, Event.endsGame_concat]

theorem nextEvent_goesOn {sink : Sink} {options : Options} {rawLength : Int} {table : SizeTable}
    {progress : Progress} (h : progress.goesOn rawLength = true) :
    nextEvent sink options rawLength table progress =
      (readEvent sink options table (some progress.events) >>= fun record =>
        pure (.inl (progress.add record))) :=
  if_pos h

theorem nextEvent_stops {sink : Sink} {options : Options} {rawLength : Int} {table : SizeTable}
    {progress : Progress} (h : ¬progress.goesOn rawLength = true) :
    nextEvent sink options rawLength table progress = pure (.inr progress) :=
  if_neg h

/-- What lies behind a run of the event loop that started at `s` and has come to `t`. -/
structure Behind (options : Options) (rawLength : Int) (record : SizeRecord) (s t : Session)
    (events : List Event) (calls : List Call) : Prop where
  passed : Passed options rawLength record events calls t.slots
  left : s.source.left = events.flatMap Event.bytes ++ t.source.left
  source : t.source = s.source.skip (events.flatMap Event.bytes).length
  calls : t.calls.toList = s.calls.toList ++ calls

variable {options : Options} {rawLength : Int} {record : SizeRecord}

/-- One more event is behind a run that took it. -/
theorem Behind.next {events : List Event} {calls : List Call} {u : Session}
    (h : Behind options rawLength record s t events calls)
    (goesOn : (Progress.after record events).goesOn rawLength = true) {event : Event}
    {taken : EventRecord} (fits : event.Fits record.table)
    (takes : EventRecord.Takes options t.slots u.slots t.source u.source event taken)
    (hc : u.calls.toList = t.calls.toList ++ taken.call.toList) :
    Behind options rawLength record s u (events ++ [event]) (calls ++ taken.call.toList) where
  passed := h.passed.concat goesOn fits takes.decoded
  left := by
    rw [h.left, takes.left, List.flatMap_append, List.flatMap_singleton, List.append_assoc]
  source := by
    rw [takes.source, h.source, Source.skip_skip, List.flatMap_append, List.flatMap_singleton,
      List.length_append]
  calls := by rw [hc, h.calls, List.append_assoc]

/-- The loop ends where it may not go on, with all its events behind it, or fails in an event. -/
theorem readEvents_run (sink : Sink) (hs : s.slots = .initial) :
    ∃ events calls mid, Behind options rawLength record s mid events calls ∧
      ((¬(Progress.after record events).goesOn rawLength = true ∧
          (readEvents sink options rawLength record).run s =
            (.ok (.after record events), mid)) ∨
        (Progress.after record events).goesOn rawLength = true ∧ ∃ e t,
          (readEvent sink options record.table (some events.length)).run mid = (.error e, t) ∧
            (readEvents sink options rawLength record).run s = (.error e, t)) := by
  -- The progress never says more than the events behind it do.
  let motive : Progress → Session → Prop := fun progress t =>
    ∃ events calls, progress = .after record events ∧
      Behind options rawLength record s t events calls
  have start : motive { events := 0, length := record.length, ended := false } s :=
    ⟨[], [], rfl, hs ▸ .nil, rfl, (Source.skip_zero _).symm, (List.append_nil _).symm⟩
  have step : ∀ progress t after u, motive progress t →
      (nextEvent sink options rawLength record.table progress).run t = (.ok (.inl after), u) →
      motive after u := by
    rintro _ t after u ⟨events, calls, rfl, hb⟩ hn
    by_cases hg : (Progress.after record events).goesOn rawLength = true
    · rw [nextEvent_goesOn hg] at hn
      obtain ⟨taken, v, hr, hv⟩ := Decoder.run_bind_eq_ok hn
      obtain ⟨event, hfits, htakes, hcalls⟩ := readEvent_ok hr
      cases hv
      exact ⟨events ++ [event], calls ++ taken.call.toList, add_after htakes.length htakes.kind,
        hb.next hg hfits htakes hcalls⟩
    · rw [nextEvent_stops hg] at hn
      cases hn
  obtain ⟨_, mid, ⟨events, calls, rfl, hb⟩, hl⟩ := Decoder.rounds_last _ step start
  refine ⟨events, calls, mid, hb, ?_⟩
  by_cases hg : (Progress.after record events).goesOn rawLength = true
  · rw [nextEvent_goesOn hg] at hl
    rcases hl with ⟨c, u, hr, hl⟩ | ⟨e, u, hr, hl⟩
    · obtain ⟨taken, v, -, hv⟩ := Decoder.run_bind_eq_ok hr
      cases hv
    · rcases Decoder.run_bind_eq_error hr with hr | ⟨taken, v, -, hv⟩
      · exact .inr ⟨hg, e, u, hr, hl⟩
      · cases hv
  · rw [nextEvent_stops hg] at hl
    rcases hl with ⟨c, u, hr, hl⟩ | ⟨e, u, hr, hl⟩
    · cases hr
      exact .inl ⟨hg, hl⟩
    · cases hr

/-- Events in memory that may follow each other are all taken before anything else is. -/
theorem rounds_of_passed {sink : Sink} {events : List Event} {calls : List Call} {slots : Slots}
    {rest : Bytes} (takes : sink.Takes (s.calls.size + calls.length))
    (hs : s.source.InMemory) (hi : s.slots = .initial)
    (hp : Passed options rawLength record events calls slots)
    (hl : s.source.left = events.flatMap Event.bytes ++ rest) :
    ∃ notes, (readEvents sink options rawLength record).run s =
      (Decoder.rounds (nextEvent sink options rawLength record.table)
        (advances_nextEvent sink options rawLength record.table)
        (.after record events)).run
          { source := s.source.skip (events.flatMap Event.bytes).length, slots,
            calls := s.calls ++ calls.toArray, notes } := by
  induction events using List.reverseRecOn generalizing calls slots rest with
  | nil =>
    have hd := hp.decoded
    cases hd
    refine ⟨s.notes, ?_⟩
    rw [List.flatMap_nil, List.length_nil, Source.skip_zero, ← hi,
      show s.calls ++ ([] : List Call).toArray = s.calls from Array.append_empty]
    rfl
  | append_singleton events event ih =>
    obtain ⟨early, mid, call, hp', hg, hf, hd, rfl⟩ := hp.of_concat
    rw [List.flatMap_append, List.flatMap_singleton, List.append_assoc] at hl
    rw [List.length_append, ← Nat.add_assoc] at takes
    obtain ⟨notes, hr⟩ := ih (takes.mono (Nat.le_add_right ..)) hp' hl
    let t : Session := {
      source := s.source.skip (events.flatMap Event.bytes).length
      slots := mid
      calls := s.calls ++ early.toArray
      notes }
    have hsize : t.calls.size = s.calls.size + early.length := Array.size_append
    obtain ⟨notes', hn⟩ := run_readEvent (s := t) (some events.length) (hsize ▸ takes) hf
      (hs.skip _) (Source.left_skip_of_append hl) hd
    have hn' := Decoder.run_bind_of_ok hn fun taken =>
      (pure (.inl ((Progress.after record events).add taken)) : Run (Progress ⊕ Progress))
    rw [Decoder.run_pure, add_after rfl rfl] at hn'
    refine ⟨notes', ?_⟩
    rw [hr, Decoder.run_rounds, nextEvent_goesOn hg]
    simp only [Progress.after] at hn' ⊢
    rw [hn']
    simp only [t, Source.skip_skip, List.flatMap_append, List.flatMap_singleton, List.length_append,
      Array.append_assoc, List.append_toArray]

/-- Events in memory after which the loop may not go on are all that it takes. -/
theorem run_readEvents {sink : Sink} {events : List Event} {calls : List Call} {slots : Slots}
    {rest : Bytes} (takes : sink.Takes (s.calls.size + calls.length))
    (hs : s.source.InMemory) (hi : s.slots = .initial)
    (hp : Passed options rawLength record events calls slots)
    (hl : s.source.left = events.flatMap Event.bytes ++ rest)
    (hg : ¬(Progress.after record events).goesOn rawLength = true) :
    ∃ notes, (readEvents sink options rawLength record).run s =
      (.ok (.after record events),
        { source := s.source.skip (events.flatMap Event.bytes).length, slots,
          calls := s.calls ++ calls.toArray, notes }) := by
  obtain ⟨notes, hr⟩ := rounds_of_passed takes hs hi hp hl
  refine ⟨notes, ?_⟩
  rw [hr, Decoder.run_rounds, nextEvent_stops hg]
  rfl

/-- Behind events in memory that may follow each other the loop fails as the next one does. -/
theorem run_readEvents_of_error {sink : Sink} {events : List Event} {calls later : List Call}
    {slots : Slots} {rest : Bytes} {e : Failure} {v : Source}
    (takes : sink.Takes (s.calls.size + calls.length))
    (hs : s.source.InMemory) (hi : s.slots = .initial)
    (hp : Passed options rawLength record events calls slots)
    (hl : s.source.left = events.flatMap Event.bytes ++ rest)
    (hg : (Progress.after record events).goesOn rawLength = true)
    (fails : ∀ u : Session, u.source = s.source.skip (events.flatMap Event.bytes).length →
      u.slots = slots → u.calls.toList = s.calls.toList ++ calls →
      ∃ t, (readEvent sink options record.table (some events.length)).run u = (.error e, t) ∧
        t.source = v ∧ t.calls.toList = later) :
    ∃ t, (readEvents sink options rawLength record).run s = (.error e, t) ∧
      t.source = v ∧ t.calls.toList = later := by
  obtain ⟨notes, hr⟩ := rounds_of_passed takes hs hi hp hl
  let mid : Session := {
    source := s.source.skip (events.flatMap Event.bytes).length
    slots
    calls := s.calls ++ calls.toArray
    notes }
  obtain ⟨t, he, ht, hc⟩ := fails mid rfl rfl Array.toList_append
  refine ⟨t, ?_, ht, hc⟩
  rw [hr, Decoder.run_rounds, nextEvent_goesOn hg, Decoder.run_bind, Progress.after, he]

end Run

end Replay
