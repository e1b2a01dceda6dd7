import Replay.Proofs.Lockstep

/-!
Data that is cut short. A reader in memory that is given more data behind does the same as before,
unless it wanted more than there was; then it had taken everything. So a run on the front of some
data is either the run on all of it or stops at the cut, and it never tells the sink anything else.
-/

namespace Replay

/-- The same source with more data behind. -/
def Source.extend (s : Source) (more : Bytes) : Source :=
  { s with left := s.left ++ more }

namespace Source

variable {s : Source}

theorem InMemory.extend (h : s.InMemory) (more : Bytes) : (s.extend more).InMemory :=
  ⟨h.chunk, h.fault, h.silentEnd⟩

theorem extend_skip (more : Bytes) {n : Nat} (h : n ≤ s.left.length) :
    (s.extend more).skip n = (s.skip n).extend more := by
  simp only [Source.extend, Source.skip, List.drop_append_of_le_length h]

/-- A read that has enough gets the same with more data behind. -/
theorem InMemory.read_extend (h : s.InMemory) (more : Bytes) {n : Nat} (hn : n ≤ s.left.length) :
    s.read n = (.bytes (s.left.take n), s.skip n) ∧
      (s.extend more).read n = (.bytes (s.left.take n), (s.skip n).extend more) := by
  rw [h.read, (h.extend more).read, Nat.min_eq_left hn]
  refine ⟨rfl, ?_⟩
  have hl : n ≤ (s.extend more).left.length := by
    rw [Source.extend, List.length_append]
    omega
  rw [Nat.min_eq_left hl, extend_skip more hn, Source.extend, List.take_append_of_le_length hn]

/-- A read that has too little takes everything. -/
theorem InMemory.read_short (h : s.InMemory) {n : Nat} (hn : s.left.length < n) :
    s.read n = (.bytes s.left, s.skip s.left.length) := by
  rw [h.read, List.take_of_length_le (Nat.le_of_lt hn), Nat.min_eq_right (Nat.le_of_lt hn)]

theorem left_skip_length (s : Source) : (s.skip s.left.length).left = [] :=
  List.drop_length

end Source

namespace Reader

variable {α β : Type} {s : Source}

/-- The reader has wanted more than there was, and has taken everything. -/
def RunsDry (reader : Reader α) (s : Source) : Prop :=
  ∃ cause t, reader.run s = (.error (.ofCause cause), t) ∧
    cause.errorClass = .truncatedInput ∧ t.left = []

/-- With more data behind, the reader does the same unless it runs dry without. -/
def Extends (reader : Reader α) : Prop :=
  ∀ s, s.InMemory → ∀ more,
    reader.run (s.extend more) = ((reader.run s).1, (reader.run s).2.extend more) ∨
      reader.RunsDry s

theorem Extends.pure (a : α) : Extends (pure a : Reader α) :=
  fun _ _ _ => .inl rfl

theorem Extends.reject (cause : Cause) : Extends (Decoder.reject cause : Reader α) :=
  fun _ _ _ => .inl rfl

theorem Extends.ofResult (r : Except Failure α) : Extends (Decoder.ofResult r : Reader α) := by
  cases r <;> exact fun _ _ _ => .inl rfl

theorem RunsDry.bind {reader : Reader α} (h : reader.RunsDry s) (next : α → Reader β) :
    (reader >>= next).RunsDry s := by
  obtain ⟨cause, t, hr, hc, ht⟩ := h
  refine ⟨cause, t, ?_, hc, ht⟩
  rw [Decoder.run_bind, hr]

theorem Extends.bind {reader : Reader α} {next : α → Reader β} (h : reader.Extends)
    (hn : ∀ a, (next a).Extends) : (reader >>= next).Extends := by
  intro s hs more
  rcases h s hs more with he | hdry
  · rcases hr : reader.run s with ⟨e | a, t⟩
    · left
      rw [Decoder.run_bind, Decoder.run_bind, he, hr]
    · rw [hr] at he
      rcases hn a t (hs.run hr) more with he' | ⟨cause, u, hu, hc, hl⟩
      · left
        rw [Decoder.run_bind_of_ok hr, Decoder.run_bind_of_ok he, he']
      · right
        exact ⟨cause, u, (Decoder.run_bind_of_ok hr _).trans hu, hc, hl⟩
  · exact .inr (hdry.bind next)

theorem Extends.rounds {round : α → Reader (α ⊕ β)} (advances : Decoder.Advances round)
    (h : ∀ a, (round a).Extends) (a : α) : Extends (Decoder.rounds round advances a) := by
  intro s hs more
  rw [Decoder.run_rounds round advances a (s.extend more)]
  unfold RunsDry
  change _ = ((Decoder.roundsFrom round advances a s).1,
      (Decoder.roundsFrom round advances a s).2.extend more) ∨
    ∃ cause t, Decoder.roundsFrom round advances a s = (.error (.ofCause cause), t) ∧ _
  fun_induction Decoder.roundsFrom round advances a s with
  | case1 a s b t hr _ ih =>
    rcases h a s hs more with he | ⟨cause, u, hu, -⟩
    · rw [hr] at he
      rw [he]
      dsimp only
      rw [Decoder.run_rounds]
      exact ih (hs.run hr)
    · rw [hr] at hu
      cases hu
  | case2 a s c t hr =>
    rcases h a s hs more with he | ⟨cause, u, hu, -⟩
    · rw [hr] at he
      rw [he]
      exact .inl rfl
    · rw [hr] at hu
      cases hu
  | case3 a s e t hr =>
    rcases h a s hs more with he | ⟨cause, u, hu, hc, hl⟩
    · rw [hr] at he
      rw [he]
      exact .inl rfl
    · rw [hr] at hu
      cases hu
      exact .inr ⟨cause, t, rfl, hc, hl⟩

theorem Extends.block (n : Nat) : Extends (Reader.block n) := by
  intro s hs more
  by_cases h0 : n = 0
  · left
    rw [run_block, run_block, if_pos h0, if_pos h0]
  · rcases Nat.lt_or_ge s.left.length n with hn | hn
    · right
      refine ⟨.shortBlock n s.left.length, s.skip s.left.length, ?_, rfl, s.left_skip_length⟩
      rw [run_block, if_neg h0, hs.read_short hn]
      simp only [Nat.ne_of_lt hn, ↓reduceIte]
    · left
      obtain ⟨hr, he⟩ := hs.read_extend more hn
      rw [run_block, run_block, if_neg h0, if_neg h0, hr, he]

/-- A field of more bytes than there are. -/
theorem runsDry_readBlock (path : List String) {size : Nat} (hs : s.InMemory)
    (h : s.left.length < size) : (Layout.readBlock path size).RunsDry s := by
  refine ⟨.shortField path size s.left.length, s.skip s.left.length, ?_, rfl,
    s.left_skip_length⟩
  rw [Layout.run_readBlock, hs.read_short h]
  simp only [Nat.ne_of_lt h, ↓reduceIte]

theorem Extends.field (path : List String) (size : Nat) :
    Extends (Layout.readBlock path size) := by
  intro s hs more
  rcases Nat.lt_or_ge s.left.length size with hn | hn
  · exact .inr (runsDry_readBlock path hs hn)
  · left
    obtain ⟨hr, he⟩ := hs.read_extend more hn
    rw [Layout.run_readBlock, Layout.run_readBlock, hr, he]

theorem Composed.extends {reader : Reader α} (h : Composed reader) : reader.Extends := by
  induction h with
  | pure a => exact .pure a
  | reject cause _ => exact .reject cause
  | block n => exact .block n
  | field path size => exact .field path size
  | bind _ _ ih ihn => exact ih.bind ihn
  | rounds advances _ a ih => exact .rounds advances ih a

theorem Extends.onSlots {reader : Reader α} (h : reader.Extends) (slots : Slots) :
    (reader.onSlots slots).Extends :=
  h.bind fun _ => .pure _

/-- A block of negative size always runs dry. -/
theorem Extends.signedBlock (size : Int) : Extends (signedBlock size) := by
  cases size with
  | ofNat n => exact .block n
  | negSucc n =>
    intro s hs more
    have hr : askAll.run s =
        (.ok (s.read (s.left.length + 1)).1, (s.read (s.left.length + 1)).2) := rfl
    rw [hs.read_short (Nat.lt_succ_self _)] at hr
    right
    refine ⟨.shortBlock (.negSucc n) s.left.length, s.skip s.left.length, ?_, rfl,
      s.left_skip_length⟩
    rw [Reader.signedBlock, Decoder.run_bind_of_ok hr]
    rfl

end Reader

namespace EventRecord

open Reader

/-- What an event says does not depend on what follows it. -/
theorem extends_reader (options : Options) (table : SizeTable) (slots : Slots) :
    (reader options table slots).Extends := by
  refine (Composed.read _).extends.bind fun code => ?_
  split
  · exact .reject _
  · refine (Extends.signedBlock _).bind fun payload => Extends.bind ?_ fun _ => .pure _
    cases EventKind.ofCode? code with
    | none => exact .pure _
    | some kind => exact .ofResult _

end EventRecord

/-- The second session has more data behind and is the same otherwise. -/
structure Session.Extended (s : Session) (more : Bytes) (t : Session) : Prop where
  inMemory : s.source.InMemory
  tells : s.source.tells = true
  source : t.source = s.source.extend more
  slots : t.slots = s.slots
  calls : t.calls = s.calls

theorem Session.Extended.toldUpTo {more : Bytes} {s t : Session} (h : s.Extended more t) :
    s.ToldUpTo t := by
  simp only [Session.ToldUpTo, h.calls, List.prefix_rfl]

/-- A run has failed where its data ended. -/
structure Session.CutShort (e : Failure) (s : Session) : Prop where
  failure : ∃ (cause : Cause) (event : Option Int), cause.errorClass = .truncatedInput ∧
    e = .decode { cause, offset := some (s.source.taken : Int), event }
  left : s.source.left = []

namespace Comparison

open Reader

/-- The second run has more data behind, and the first one breaks off where its data ends. -/
def extended (more : Bytes) : Comparison where
  Beside s t := s.Extended more t
  Broken e s t := s.CutShort e ∧ s.ToldUpTo t
  offset_eq h := by
    rw [h.source]
    rfl
  noted _ _ h := ⟨h.inMemory, h.tells, h.source, h.slots, h.calls⟩
  fresh h := ⟨h.inMemory, h.tells, h.source, rfl, h.calls⟩
  restored h h' := ⟨h'.inMemory, h'.tells, h'.source, h.slots, h'.calls⟩
  broken_restored _ _ h := ⟨⟨h.1.failure, h.1.left⟩, h.2⟩
  broken_later h ht := ⟨h.1, h.2.trans ht⟩

variable {more : Bytes} {α : Type} {sink : Sink} {options : Options}

/-- What does as a reader does that does not mind more data behind is in step, once failures get
their place. -/
theorem inStep_extended {d : Run α} {reader : Slots → Reader (α × Slots)}
    (hd : d.Follows reader) (h : ∀ slots, (reader slots).Extends) (event : Option Int) :
    (extended more).InStep Eq (d.annotated event) (d.annotated event) := by
  rintro s ⟨source, slots, calls, notes'⟩ hb
  obtain ⟨notes, hs⟩ := hd s
  obtain ⟨notes', ht⟩ := hd ⟨source, slots, calls, notes'⟩
  obtain rfl : source = s.source.extend more := hb.source
  obtain rfl : slots = s.slots := hb.slots
  obtain rfl : calls = s.calls := hb.calls
  dsimp only at ht
  have hreach := (reader s.slots).reaches s.source
  rw [Decoder.run_annotated, Decoder.run_annotated, hs, ht]
  rcases h s.slots s.source hb.inMemory more with he | ⟨cause, u, hu, hc, hl⟩
  · rw [he]
    rcases hr : (reader s.slots).run s.source with ⟨e | ⟨a, after⟩, u⟩
    · rw [hr] at hreach
      obtain ⟨n, -, rfl⟩ := hreach
      exact .error ⟨hb.inMemory.skip n, hb.tells, rfl, rfl, rfl⟩
    · rw [hr] at hreach
      obtain ⟨n, -, rfl⟩ := hreach
      exact .ok rfl ⟨hb.inMemory.skip n, hb.tells, rfl, rfl, rfl⟩
  · rw [hu] at hreach ⊢
    obtain ⟨n, -, rfl⟩ := hreach
    have hoffset : (s.source.skip n).offset = some ((s.source.skip n).taken : Int) :=
      if_pos hb.tells
    have hcut : Session.CutShort
        ((Failure.ofCause cause).annotate event (s.source.skip n).offset)
        { s with source := s.source.skip n, notes } :=
      ⟨⟨cause, event, hc, by rw [hoffset]; rfl⟩, hl⟩
    rcases (reader s.slots).run (s.source.extend more) with ⟨e | ⟨a, after⟩, v⟩
    · exact .broken ⟨hcut, List.prefix_rfl⟩
    · exact .broken ⟨hcut, List.prefix_rfl⟩

theorem inStep_reader {reader : Reader α} (h : reader.Extends) (event : Option Int) :
    (extended more).InStep Eq ((Run.ofReader reader).annotated event)
      ((Run.ofReader reader).annotated event) :=
  inStep_extended (Run.follows_ofReader reader) h.onSlots event

theorem inStep_deliver (call : Call) :
    (extended more).InStep Eq (Run.deliver sink call) (Run.deliver sink call) := by
  intro s t hb
  have hpushed : Session.Extended { s with calls := s.calls.push call } more
      { t with calls := t.calls.push call } :=
    ⟨hb.inMemory, hb.tells, hb.source, hb.slots, by rw [hb.calls]⟩
  have hcalls : t.calls.push call = s.calls.push call := hpushed.calls
  simp only [Run.deliver, hcalls]
  rw [hcalls] at hpushed
  cases sink (s.calls.push call) with
  | none => exact .ok rfl hpushed
  | some e => exact .error hpushed

theorem inStep_readRaw_extended (rawLength : Int) :
    (extended more).InStep Eq (Run.readRaw sink options rawLength)
      (Run.readRaw sink options rawLength) := by
  have sizes : (extended more).InStep Eq (Run.readSizes.annotated none) _ :=
    inStep_extended Run.follows_readSizes SizeRecord.composed_reader.extends.onSlots none
  have record : ∀ table index, (extended more).InStep Eq
      ((Run.readRecord options table).annotated index) _ := fun table index =>
    inStep_extended (Run.follows_readRecord options table)
      (EventRecord.extends_reader options table) index
  exact inStep_readRaw rawLength sizes fun table index =>
    inStep_readEvent (record table index) inStep_deliver

/-- A run on data and the same run with more data behind are in step. -/
theorem inStep_run_extended :
    (extended more).InStep Eq (Container.run sink options) (Container.run sink options) := by
  refine inStep_run (inStep_reader Container.composed_readHead.extends none)
    (fun rawLength => inStep_readRaw_extended rawLength) ?_
  exact inStep_readRest (inStep_reader Container.composed_readMetadata.extends none)
    (inStep_reader (Composed.expect _).extends none) fun _ => inStep_deliver _

end Comparison

namespace Container

variable {sink : Sink} {options : Options} {data more : Bytes}

theorem agree_append : (Comparison.extended more).Agree Eq (decodeBytes sink options data)
    (decodeBytes sink options (data ++ more)) :=
  Comparison.inStep_run_extended { source := .ofBytes data } { source := .ofBytes (data ++ more) }
    ⟨Source.inMemory_ofBytes data, rfl, rfl, rfl, rfl⟩

/-- A run that has nothing left has taken all of the data. -/
theorem taken_decodeBytes (h : (decodeBytes sink options data).2.source.left = []) :
    (decodeBytes sink options data).2.source.taken = data.length := by
  obtain ⟨n, hn, hs⟩ := (run sink options).reaches { source := .ofBytes data }
  change (decodeBytes sink options data).2.source = (Source.ofBytes data).skip n at hs
  rw [hs] at h ⊢
  have hd : data.length ≤ n := List.drop_eq_nil_iff.mp h
  change 0 + n = data.length
  change n ≤ data.length at hn
  omega

/-- Truncation and extension. A run on the front of some data is the run on all of it, with the
same calls and the same end, or it fails for want of data at its end, having told the sink only
what the other run tells it too. In any case it tells nothing else, and a run that succeeds does
not look at what follows. -/
theorem decodeBytes_append (sink : Sink) (options : Options) (data more : Bytes) :
    (((decodeBytes sink options data).1 = (decodeBytes sink options (data ++ more)).1 ∧
        (decodeBytes sink options data).2.calls =
          (decodeBytes sink options (data ++ more)).2.calls) ∨
      ∃ (cause : Cause) (event : Option Int), cause.errorClass = .truncatedInput ∧
        (decodeBytes sink options data).1 =
          .error (.decode { cause, offset := some (data.length : Int), event }) ∧
        (decodeBytes sink options data).2.calls.toList <+:
          (decodeBytes sink options (data ++ more)).2.calls.toList) ∧
    (decodeBytes sink options data).2.calls.toList <+:
      (decodeBytes sink options (data ++ more)).2.calls.toList ∧
    ((decodeBytes sink options data).1 = .ok () →
      (decodeBytes sink options (data ++ more)).1 = .ok () ∧
        (decodeBytes sink options (data ++ more)).2.calls =
          (decodeBytes sink options data).2.calls ∧
        (decodeBytes sink options (data ++ more)).2.source.taken =
          (decodeBytes sink options data).2.source.taken) := by
  have hagree : (Comparison.extended more).Agree Eq (decodeBytes sink options data)
      (decodeBytes sink options (data ++ more)) := agree_append
  have htaken : (decodeBytes sink options data).2.source.left = [] →
      (decodeBytes sink options data).2.source.taken = data.length := taken_decodeBytes
  generalize decodeBytes sink options data = x, decodeBytes sink options (data ++ more) = y
    at hagree htaken
  cases hagree with
  | ok related beside =>
    refine ⟨.inl ⟨congrArg Except.ok related, beside.calls.symm⟩, beside.toldUpTo,
      fun _ => ⟨rfl, beside.calls, ?_⟩⟩
    dsimp only
    rw [beside.source]
    rfl
  | error beside =>
    exact ⟨.inl ⟨rfl, beside.calls.symm⟩, beside.toldUpTo, nofun⟩
  | broken broken =>
    obtain ⟨⟨⟨cause, event, hc, rfl⟩, hl⟩, htold⟩ := broken
    rw [htaken hl]
    exact ⟨.inr ⟨cause, event, hc, rfl, htold⟩, htold, nofun⟩

/-- The replay that ends at once, with more behind its closing brace. -/
theorem decodeBytes_append_endedAtOnce :
    (decodeBytes .quiet {} endedAtOnce.bytes).1 = .ok () ∧
      (decodeBytes .quiet {} (endedAtOnce.bytes ++ [0x7D])).1 = .ok () ∧
      (decodeBytes .quiet {} (endedAtOnce.bytes ++ [0x7D])).2.calls =
        (decodeBytes .quiet {} endedAtOnce.bytes).2.calls := by
  obtain ⟨_, hok⟩ := Except.exists_of_isOk
    (show (decodeBytes .quiet {} endedAtOnce.bytes).1.isOk = true by decide +kernel)
  obtain ⟨h₁, h₂, -⟩ := (decodeBytes_append .quiet {} endedAtOnce.bytes [0x7D]).2.2 hok
  exact ⟨hok, h₁, h₂⟩

end Container

end Replay
