import Replay.Proofs.Truncation

/-!
How far the event loop gets. Every event that is read takes its code byte at least, so only so many
events are started: as many as there are bytes missing to a declared length, or as many as the
source has bytes, and one more that finds none. The last event goes past a declared length by no
more than the largest size that a table gives. So where the data ends does not matter to a run that
stays away from it.
-/

namespace Replay

theorem Source.taken_read_le (s : Source) (n : Nat) : (s.read n).2.taken ≤ s.taken + n := by
  have hle : (s.upTo n).length ≤ n := by
    simp only [upTo, List.length_take]
    omega
  unfold read
  split
  · exact Nat.le_add_right ..
  · split
    · exact Nat.le_add_right ..
    · exact Nat.add_le_add_left hle s.taken

namespace Reader

variable {α β : Type} {m n : Nat}

/-- Whether it succeeds or fails, the reader takes no more than so many bytes. -/
def TakesAtMost (reader : Reader α) (n : Nat) : Prop :=
  ∀ s, (reader.run s).2.taken ≤ s.taken + n

theorem TakesAtMost.mono {reader : Reader α} (h : reader.TakesAtMost m) (hle : m ≤ n) :
    reader.TakesAtMost n :=
  fun s => Nat.le_trans (h s) (Nat.add_le_add_left hle s.taken)

theorem TakesAtMost.pure (a : α) : TakesAtMost (pure a : Reader α) 0 :=
  fun _ => Nat.le_refl _

theorem TakesAtMost.reject (cause : Cause) : TakesAtMost (Decoder.reject cause : Reader α) 0 :=
  fun _ => Nat.le_refl _

theorem TakesAtMost.ofResult (r : Except Failure α) :
    TakesAtMost (Decoder.ofResult r : Reader α) 0 := by
  cases r <;> exact fun _ => Nat.le_refl _

theorem TakesAtMost.bind {reader : Reader α} {next : α → Reader β} (h : reader.TakesAtMost m)
    (hn : ∀ a, (next a).TakesAtMost n) : (reader >>= next).TakesAtMost (m + n) := by
  intro s
  have hs := h s
  rw [Decoder.run_bind]
  rcases hr : reader.run s with ⟨e | a, t⟩
  · rw [hr] at hs
    dsimp only at hs ⊢
    omega
  · rw [hr] at hs
    have ht := hn a t
    dsimp only at hs ⊢
    omega

theorem TakesAtMost.block (n : Nat) : (Reader.block n).TakesAtMost n := by
  intro s
  have hs := s.taken_read_le n
  rw [run_block]
  split
  · exact Nat.le_add_right ..
  · rcases hr : s.read n with ⟨reply, t⟩
    rw [hr] at hs
    cases reply <;> exact hs

theorem TakesAtMost.field (path : List String) (size : Nat) :
    (Layout.readBlock path size).TakesAtMost size := by
  intro s
  have hs := s.taken_read_le size
  rw [Layout.run_readBlock]
  rcases hr : s.read size with ⟨reply, t⟩
  rw [hr] at hs
  cases reply <;> exact hs

/-- A layout takes no more than its size. -/
theorem TakesAtMost.read (layout : Layout α) : layout.read.TakesAtMost layout.size := by
  have under : ∀ path, (layout.readUnder path).TakesAtMost layout.size := by
    induction layout with
    | value a => exact fun _ => .pure a
    | block size => exact fun path => .field path size
    | named name layout ih => exact fun path => ih (path ++ [name])
    | map f layout ih => exact fun path => (ih path).bind fun a => .pure (f a)
    | seq f layout ihf ih =>
      exact fun path => (ihf path).bind fun g => (ih path).bind fun a => .pure (g a)
  exact under []

end Reader

/-- All sizes in the table fit in two bytes, as those of a size record do. -/
def SizeTable.OfTwoBytes (table : SizeTable) : Prop :=
  ∀ code size, table.lookup code = some size → 0 ≤ size ∧ size ≤ 65535

theorem SizeRecord.ofTwoBytes_ofEntries (entries : List (UInt8 × UInt16)) :
    SizeTable.OfTwoBytes (ofEntries entries).table := by
  have keeps : ∀ table : SizeTable, SizeTable.OfTwoBytes table →
      SizeTable.OfTwoBytes (entries.foldl addEntry table) := by
    induction entries with
    | nil => exact fun _ => id
    | cons entry entries ih =>
      refine fun table htable => ih (addEntry table entry) ?_
      intro code size h
      rw [addEntry, Entries.lookup_put] at h
      split at h
      · cases h
        have := entry.2.toNat_lt
        omega
      · exact htable code size h
  refine keeps [] fun code size h => ?_
  cases h

theorem EventRecord.takesAtMost_reader {table : SizeTable} (h : SizeTable.OfTwoBytes table)
    (options : Options) (slots : Slots) : (reader options table slots).TakesAtMost (1 + 65535) := by
  refine Reader.TakesAtMost.bind (.read Layout.u8) fun code => ?_
  cases hsize : table.lookup code with
  | none => exact Reader.TakesAtMost.mono (.reject _) (Nat.zero_le _)
  | some size =>
    obtain ⟨hnonneg, hle⟩ := h code size hsize
    obtain ⟨size, rfl⟩ := Int.eq_ofNat_of_zero_le hnonneg
    dsimp only
    rw [Reader.signedBlock_ofNat]
    refine Reader.TakesAtMost.mono (.bind (.block size) fun payload => ?_) (by omega : size + 0 ≤ _)
    refine Reader.TakesAtMost.bind ?_ fun _ => .pure _
    cases EventKind.ofCode? code with
    | none => exact .pure _
    | some kind => exact .ofResult _

theorem Progress.goesOn_iff {progress : Progress} {rawLength : Int} :
    progress.goesOn rawLength = true ↔
      (rawLength = 0 ∨ (progress.length : Int) < rawLength) ∧ progress.ended = false := by
  rw [goesOn, Bool.and_eq_true, Bool.or_eq_true, beq_iff_eq, decide_eq_true_iff, Bool.not_eq_true']

theorem Progress.length_lt_of_goesOn {progress : Progress} {rawLength : Int} (h0 : rawLength ≠ 0)
    (h : progress.goesOn rawLength = true) : (progress.length : Int) < rawLength :=
  (goesOn_iff.mp h).1.resolve_left h0

namespace Run

variable {sink : Sink} {options : Options} {rawLength : Int} {table : SizeTable}
  {index : Option Int} {progress : Progress} {s t mid : Session} {record : EventRecord}

theorem source_readRecord (options : Options) (table : SizeTable) (s : Session) :
    ((readRecord options table).run s).2.source =
      ((EventRecord.reader options table s.slots).run s.source).2 := by
  obtain ⟨notes, hr⟩ := run_readRecord options table s
  rw [hr]
  rcases (EventRecord.reader options table s.slots).run s.source with ⟨_ | _, _⟩ <;> rfl

/-- Whatever the sink does, an event takes what its reader takes. -/
theorem source_readEvent (sink : Sink) (options : Options) (table : SizeTable)
    (index : Option Int) (s : Session) :
    ((readEvent sink options table index).run s).2.source =
      ((EventRecord.reader options table s.slots).run s.source).2 := by
  rw [← source_readRecord, ← Decoder.snd_run_annotated (readRecord options table) index, readEvent,
    Decoder.run_bind]
  rcases ((readRecord options table).annotated index).run s with ⟨_ | record, u⟩
  · rfl
  · dsimp only
    split
    · rename_i call _
      rw [Decoder.run_bind]
      dsimp only [deliver]
      cases sink (u.calls.push call) <;> rfl
    · rfl

/-- An event that is read takes as many bytes as its length says, one at least. -/
theorem readEvent_takes (h : (readEvent sink options table index).run s = (.ok record, t)) :
    0 < record.length ∧ record.length ≤ s.source.left.length ∧
      t.source = s.source.skip record.length := by
  obtain ⟨event, -, htakes, -⟩ := readEvent_ok h
  rw [htakes.length, htakes.left]
  refine ⟨?_, ?_, htakes.source⟩
  · rw [Event.length_bytes]
    omega
  · rw [List.length_append]
    omega

theorem taken_readEvent_le (htable : SizeTable.OfTwoBytes table) (sink : Sink) (options : Options)
    (index : Option Int) (s : Session) :
    ((readEvent sink options table index).run s).2.source.taken ≤ s.source.taken + 65536 := by
  rw [source_readEvent]
  exact EventRecord.takesAtMost_reader htable options s.slots s.source

/-- From its progress and a session the loop starts so many events, and this comes of it. -/
inductive Starts (sink : Sink) (options : Options) (rawLength : Int) (table : SizeTable) :
    Progress → Session → Nat → Except Failure Progress × Session → Prop where
  | stops {progress : Progress} {s : Session} (stops : ¬progress.goesOn rawLength = true) :
    Starts sink options rawLength table progress s 0 (.ok progress, s)
  | fails {progress : Progress} {s t : Session} {e : Failure}
    (goesOn : progress.goesOn rawLength = true)
    (failed : (readEvent sink options table (some progress.events)).run s = (.error e, t)) :
    Starts sink options rawLength table progress s 1 (.error e, t)
  | next {progress : Progress} {s t : Session} {record : EventRecord} {n : Nat}
    {outcome : Except Failure Progress × Session} (goesOn : progress.goesOn rawLength = true)
    (read : (readEvent sink options table (some progress.events)).run s = (.ok record, t))
    (rest : Starts sink options rawLength table (progress.add record) t n outcome) :
    Starts sink options rawLength table progress s (n + 1) outcome

/-- The loop starts some number of events, from wherever it is. -/
theorem exists_starts (sink : Sink) (options : Options) (rawLength : Int) (table : SizeTable)
    (progress : Progress) (s : Session) :
    ∃ n outcome, Starts sink options rawLength table progress s n outcome := by
  -- The recursion of the loop itself, which ends as every event takes a byte.
  induction hn : s.source.left.length using Nat.strong_induction_on generalizing progress s with
  | _ _ ih =>
    by_cases hg : progress.goesOn rawLength = true
    · rcases hr : (readEvent sink options table (some progress.events)).run s with ⟨e | record, t⟩
      · exact ⟨1, _, .fails hg hr⟩
      · have hlt := consumes_readEvent sink options table _ s record t hr
        obtain ⟨n, outcome, rest⟩ := ih _ (hn ▸ hlt) (progress.add record) t rfl
        exact ⟨n + 1, outcome, .next hg hr rest⟩
    · exact ⟨0, _, .stops hg⟩

namespace Starts

variable {n : Nat} {outcome : Except Failure Progress × Session}

/-- What comes of the events that are started is what the loop gives. -/
theorem run_eq (h : Starts sink options rawLength table progress s n outcome) :
    (Decoder.rounds (nextEvent sink options rawLength table)
      (advances_nextEvent sink options rawLength table) progress).run s = outcome := by
  induction h with
  | stops hg => rw [Decoder.run_rounds, nextEvent_stops hg, Decoder.run_pure]
  | fails hg hr => rw [Decoder.run_rounds, nextEvent_goesOn hg, Decoder.run_bind, hr]
  | next hg hr _ ih =>
    rw [Decoder.run_rounds, nextEvent_goesOn hg, Decoder.run_bind_of_ok hr, ← ih]
    rfl

theorem not_goesOn (h : Starts sink options rawLength table progress s n outcome)
    {last : Progress} (hlast : outcome.1 = .ok last) : ¬last.goesOn rawLength = true := by
  induction h with
  | stops hg =>
    cases hlast
    exact hg
  | fails => cases hlast
  | next _ _ _ ih => exact ih hlast

/-- With a declared length, the events are no more than the bytes that are missing to it. -/
theorem le_of_declared (h : Starts sink options rawLength table progress s n outcome)
    (h0 : rawLength ≠ 0) : (n : Int) ≤ max 0 (rawLength - progress.length) := by
  induction h with
  | stops => exact Int.le_max_left ..
  | fails hg =>
    have := Progress.length_lt_of_goesOn h0 hg
    omega
  | next hg hr _ ih =>
    have := Progress.length_lt_of_goesOn h0 hg
    have := (readEvent_takes hr).1
    simp only [Progress.add] at ih
    omega

/-- Without one, they are no more than the bytes that are left, and one that finds none. -/
theorem le_of_left (h : Starts sink options rawLength table progress s n outcome) :
    n ≤ s.source.left.length + 1 := by
  induction h with
  | stops => exact Nat.zero_le _
  | fails => exact Nat.le_add_left ..
  | next _ hr _ ih =>
    obtain ⟨hpos, hle, hsource⟩ := readEvent_takes hr
    rw [hsource, Source.left_skip, List.length_drop] at ih
    omega

/-- The last event starts below a declared length, so not much more than that is taken. -/
theorem taken_le (h : Starts sink options rawLength table progress s n outcome)
    (htable : SizeTable.OfTwoBytes table) (h0 : rawLength ≠ 0) :
    (outcome.2.source.taken : Int) + progress.length ≤
      s.source.taken + max (progress.length : Int) (rawLength + 65535) := by
  induction h with
  | stops =>
    dsimp only
    omega
  | @fails progress s t e hg hr =>
    have hlt := Progress.length_lt_of_goesOn h0 hg
    have htaken := taken_readEvent_le htable sink options (some progress.events) s
    rw [hr] at htaken
    dsimp only at htaken ⊢
    omega
  | @next progress s t record _ _ hg hr _ ih =>
    have hlt := Progress.length_lt_of_goesOn h0 hg
    have htaken := taken_readEvent_le htable sink options (some progress.events) s
    have hsource := congrArg Source.taken (readEvent_takes hr).2.2
    rw [hr] at htaken
    simp only [Progress.add, Source.skip] at ih hsource htaken
    omega

end Starts

theorem source_readBody (sink : Sink) (options : Options) (rawLength : Int) (record : SizeRecord)
    (s : Session) : ((readBody sink options rawLength record).run s).2.source =
      ((readEvents sink options rawLength record).run s).2.source := by
  rw [readBody, Decoder.run_bind]
  rcases (readEvents sink options rawLength record).run s with ⟨_ | progress, t⟩
  · rfl
  · dsimp only
    split <;> rfl

/-- A raw stream has its size record read, with which it comes to `mid`, and starts so many events
behind it, of which this comes. -/
structure RawStarts (sink : Sink) (options : Options) (rawLength : Int) (s mid : Session)
    (record : SizeRecord) (n : Nat) (outcome : Except Failure Progress × Session) : Prop where
  sizes : (readSizes.annotated none).run { s with slots := .initial } = (.ok record, mid)
  events : Starts sink options rawLength record.table
    { events := 0, length := record.length, ended := false } mid n outcome

namespace RawStarts

variable {n : Nat} {record : SizeRecord} {outcome : Except Failure Progress × Session}

theorem sizes_ok (h : RawStarts sink options rawLength s mid record n outcome) :
    SizeTable.OfTwoBytes record.table ∧ record.length ≤ s.source.left.length ∧
      mid.source = s.source.skip record.length := by
  obtain ⟨entries, -, rfl, hleft, hsource, -⟩ := readSizes_ok (Decoder.annotated_ok_iff.mp h.sizes)
  refine ⟨SizeRecord.ofTwoBytes_ofEntries entries, ?_, hsource⟩
  change (SizeRecord.encode entries).length ≤ _
  rw [show s.source.left = _ from hleft, List.length_append]
  exact Nat.le_add_right ..

theorem run_readRaw (h : RawStarts sink options rawLength s mid record n outcome) :
    (readRaw sink options rawLength).run s =
      (((readBody sink options rawLength record).run mid).1,
        { ((readBody sink options rawLength record).run mid).2 with slots := s.slots }) := by
  rw [Run.run_readRaw, h.sizes]

theorem source_eq (h : RawStarts sink options rawLength s mid record n outcome) :
    ((readRaw sink options rawLength).run s).2.source = outcome.2.source := by
  rw [h.run_readRaw]
  dsimp only
  rw [source_readBody, readEvents, h.events.run_eq]

theorem error_eq (h : RawStarts sink options rawLength s mid record n outcome) {e : Failure}
    (he : outcome.1 = .error e) : ((readRaw sink options rawLength).run s).1 = .error e := by
  obtain ⟨_, t⟩ := outcome
  cases he
  rw [h.run_readRaw]
  dsimp only
  rw [readBody, Decoder.run_bind, readEvents, h.events.run_eq]

/-- With a declared length, so much is taken at the most. -/
theorem taken_le (h : RawStarts sink options rawLength s mid record n outcome)
    (h0 : rawLength ≠ 0) : (((readRaw sink options rawLength).run s).2.source.taken : Int) ≤
      s.source.taken + max (record.length : Int) (rawLength + 65535) := by
  obtain ⟨htable, -, hmid⟩ := h.sizes_ok
  have htaken := h.events.taken_le htable h0
  rw [h.source_eq]
  rw [hmid] at htaken
  simp only [Source.skip] at htaken
  omega

end RawStarts

/-- A raw stream that has taken less than there is does the same with more data behind. -/
theorem readRaw_extend {sink : Sink} {options : Options} {rawLength : Int} {s : Session}
    (hs : s.source.InMemory) (htells : s.source.tells = true)
    (hlt : ((readRaw sink options rawLength).run s).2.source.taken <
      s.source.taken + s.source.left.length) (more : Bytes) :
    ((readRaw sink options rawLength).run { s with source := s.source.extend more }).1 =
        ((readRaw sink options rawLength).run s).1 ∧
      ((readRaw sink options rawLength).run { s with source := s.source.extend more }).2.calls =
        ((readRaw sink options rawLength).run s).2.calls ∧
      ((readRaw sink options rawLength).run
          { s with source := s.source.extend more }).2.source.taken =
        ((readRaw sink options rawLength).run s).2.source.taken := by
  have hstep : (Comparison.extended more).InStep Eq (readRaw sink options rawLength)
      (readRaw sink options rawLength) := Comparison.inStep_readRaw_extended rawLength
  have hagree := hstep s { s with source := s.source.extend more } ⟨hs, htells, rfl, rfl, rfl⟩
  obtain ⟨k, hk, hsource⟩ := (readRaw sink options rawLength).reaches s
  change ((readRaw sink options rawLength).run s).2.source = s.source.skip k at hsource
  rw [hsource] at hlt
  generalize (readRaw sink options rawLength).run s = x,
    (readRaw sink options rawLength).run { s with source := s.source.extend more } = y
    at hagree hsource
  cases hagree with
  | ok related beside =>
    exact ⟨congrArg Except.ok related.symm, beside.calls, by rw [beside.source]; rfl⟩
  | error beside => exact ⟨rfl, beside.calls, by rw [beside.source]; rfl⟩
  | broken broken =>
    have hend := broken.1.left
    rw [hsource, Source.left_skip, List.drop_eq_nil_iff] at hend
    simp only [Source.skip] at hlt
    omega

/-- How far a raw stream gets that starts so many events. -/
structure RawBounded (sink : Sink) (options : Options) (rawLength : Int) (s mid : Session)
    (record : SizeRecord) (n : Nat) (outcome : Except Failure Progress × Session) : Prop where
  /-- The events start behind the size record. -/
  behind : mid.source = s.source.skip record.length
  /-- Where the loop ends, the raw stream does, and a failure of the loop is one of the stream. -/
  ends : ((readRaw sink options rawLength).run s).2.source = outcome.2.source ∧
    ∀ e, outcome.1 = .error e → ((readRaw sink options rawLength).run s).1 = .error e
  declared : rawLength ≠ 0 → (n : Int) ≤ max 0 (rawLength - record.length)
  /-- Without a declared length, the last event ends the game or the loop fails. -/
  undeclared : rawLength = 0 → n + record.length ≤ s.source.left.length + 1 ∧
    ∀ last, outcome.1 = .ok last → last.ended = true
  taken : rawLength ≠ 0 → (((readRaw sink options rawLength).run s).2.source.taken : Int) ≤
    s.source.taken + max (record.length : Int) (rawLength + 65535)
  /-- Where the data ends does not matter if it is long enough. -/
  endless : rawLength ≠ 0 → s.source.InMemory → s.source.tells = true →
    max (record.length : Int) (rawLength + 65535) < s.source.left.length →
    ∀ more, ((readRaw sink options rawLength).run { s with source := s.source.extend more }).1 =
        ((readRaw sink options rawLength).run s).1 ∧
      ((readRaw sink options rawLength).run { s with source := s.source.extend more }).2.calls =
        ((readRaw sink options rawLength).run s).2.calls ∧
      ((readRaw sink options rawLength).run
          { s with source := s.source.extend more }).2.source.taken =
        ((readRaw sink options rawLength).run s).2.source.taken

theorem RawStarts.bounded {n : Nat} {outcome : Except Failure Progress × Session}
    {record : SizeRecord} (h : RawStarts sink options rawLength s mid record n outcome) :
    RawBounded sink options rawLength s mid record n outcome where
  behind := h.sizes_ok.2.2
  ends := ⟨h.source_eq, fun _ => h.error_eq⟩
  declared := h.events.le_of_declared
  undeclared h0 := by
    obtain ⟨-, hle, hmid⟩ := h.sizes_ok
    have hn := h.events.le_of_left
    rw [hmid, Source.left_skip, List.length_drop] at hn
    refine ⟨by omega, fun last hlast => ?_⟩
    have hstops := h.events.not_goesOn hlast
    rw [Progress.goesOn_iff, and_iff_right (.inl h0)] at hstops
    exact eq_true_of_ne_false hstops
  taken := h.taken_le
  endless h0 hs htells hlong more := by
    have htaken := h.taken_le h0
    exact readRaw_extend hs htells (by omega) more

/-- The event loop ends and makes progress. For every sink and every source, an event that is read
takes a byte at least. A raw stream fails in its size record, or it starts some number of events
behind it. They are no more than the bytes from there to a declared length, after which no more is
taken than the largest size lets the last event go past it. Without a declared length they are no
more than the bytes that are left and one, and the loop fails or comes to the end of a game. -/
theorem readRaw_progresses (sink : Sink) (options : Options) (rawLength : Int) (s : Session) :
    (∀ table index s record t, (readEvent sink options table index).run s = (.ok record, t) →
      0 < record.length ∧ record.length ≤ s.source.left.length ∧
        t.source = s.source.skip record.length) ∧
    ((∃ e t, (readSizes.annotated none).run { s with slots := .initial } = (.error e, t) ∧
        (readRaw sink options rawLength).run s = (.error e, { t with slots := s.slots })) ∨
      ∃ mid record n outcome, RawStarts sink options rawLength s mid record n outcome) ∧
    ∀ mid record n outcome, RawStarts sink options rawLength s mid record n outcome →
      RawBounded sink options rawLength s mid record n outcome := by
  refine ⟨fun _ _ _ _ _ => readEvent_takes, ?_, fun _ _ _ _ => RawStarts.bounded⟩
  rcases hr : (readSizes.annotated none).run { s with slots := .initial } with ⟨e | record, t⟩
  · exact .inl ⟨e, t, rfl, by rw [run_readRaw, hr]⟩
  · obtain ⟨n, outcome, hstarts⟩ := exists_starts sink options rawLength record.table
      { events := 0, length := record.length, ended := false } t
    exact .inr ⟨t, record, n, outcome, hr, hstarts⟩

/-- Two events without a payload reach the declared length, and no byte behind them is taken. -/
theorem readRaw_progresses_emptyPayloads :
    ∃ mid record outcome, RawStarts .quiet {} 7
        { source := .ofBytes [0x35, 0x04, 0x10, 0x00, 0x00, 0x10, 0x10, 0x10] } mid record 2
        outcome ∧
      record.length = 5 ∧ outcome.2.source.taken = 7 ∧ (2 : Int) ≤ max 0 (7 - record.length) := by
  let s : Session := { source := .ofBytes [0x35, 0x04, 0x10, 0x00, 0x00, 0x10, 0x10, 0x10] }
  have left : s.source.left = SizeRecord.encode [(0x10, 0)] ++ [0x10, 0x10, 0x10] := rfl
  obtain ⟨notes, sizes⟩ := run_readSizes (s := { s with slots := .initial }) (by decide)
    (Source.inMemory_ofBytes _) left
  let record : SizeRecord := .ofEntries [(0x10, 0)]
  obtain ⟨outcome, events, htaken⟩ : ∃ outcome, Starts .quiet {} 7 record.table
      { events := 0, length := record.length, ended := false }
      { s with source := s.source.skip 5, notes } 2 outcome ∧ outcome.2.source.taken = 7 :=
    ⟨_, .next rfl rfl (.next rfl rfl (.stops Bool.false_ne_true)), rfl⟩
  have starts : RawStarts .quiet {} 7 s _ _ 2 outcome :=
    ⟨Decoder.annotated_ok_iff.mpr sizes, events⟩
  have bounded := (readRaw_progresses .quiet {} 7 s).2.2 _ _ _ _ starts
  exact ⟨_, _, outcome, starts, rfl, htaken, bounded.declared (by decide)⟩

end Run

end Replay
