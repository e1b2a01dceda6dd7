import Replay.Proofs.RawStream

/-!
The accounting of the bytes of a raw stream. What the loop counts is what it has taken, so the
length that is returned is that of the stream, and a declared length that it misses was either
passed in the middle of an event or not reached before the game ended.
-/

namespace Replay

namespace Event

/-- The bytes are past the declared length, and before the last event they were below it. -/
def Overruns (rawLength : Int) (record : SizeRecord) (events : List Event) : Prop :=
  (lengthAfter record events : Int) > rawLength ∧
    (events = [] ∨ (lengthAfter record events.dropLast : Int) < rawLength)

/-- The game ended when the bytes were still below the declared length. -/
def FallsShort (rawLength : Int) (record : SizeRecord) (events : List Event) : Prop :=
  (lengthAfter record events : Int) < rawLength ∧ EndsGame events

theorem not_overruns_and_fallsShort {rawLength : Int} {record : SizeRecord}
    {events : List Event} :
    ¬(Overruns rawLength record events ∧ FallsShort rawLength record events) := by
  intro h
  obtain ⟨⟨hover, -⟩, hshort, -⟩ := h
  exact Int.lt_irrefl _ (Int.lt_trans hover hshort)

end Event

namespace Passed

variable {options : Options} {rawLength : Int} {record : SizeRecord} {events : List Event}
  {calls : List Call} {slots : Slots}

/-- Before the last event the bytes were below the declared length. -/
theorem short_dropLast (h : Passed options rawLength record events calls slots)
    (h0 : rawLength ≠ 0) :
    events = [] ∨ (Event.lengthAfter record events.dropLast : Int) < rawLength := by
  by_cases he : events = []
  · exact .inl he
  · apply Or.inr
    rw [List.dropLast_eq_take]
    exact h.short h0 _ (Nat.sub_lt (List.length_pos_iff.mpr he) Nat.one_pos)

/-- Where the loop may not go on and the declared length is missed, it was passed in the middle of
an event or not reached before the game ended. -/
theorem misses (h : Passed options rawLength record events calls slots)
    (hg : ¬(Progress.after record events).goesOn rawLength = true) (h0 : rawLength ≠ 0)
    (hne : (Event.lengthAfter record events : Int) ≠ rawLength) :
    Event.Overruns rawLength record events ∨ Event.FallsShort rawLength record events := by
  rcases Int.lt_or_gt_of_ne hne with hlt | hgt
  · refine .inr ⟨hlt, Decidable.byContradiction fun he => hg ?_⟩
    exact Progress.goesOn_after_iff.mpr ⟨.inr hlt, he⟩
  · exact .inl ⟨hgt, h.short_dropLast h0⟩

end Passed

theorem RawBehind.taken {options : Options} {rawLength : Int} {bytes : Bytes} {t : Session}
    {entries : List (UInt8 × UInt16)} {events : List Event} {calls : List Call} {slots : Slots}
    (h : RawBehind options rawLength { source := .ofBytes bytes } t entries events calls slots) :
    t.source.taken = Event.lengthAfter (.ofEntries entries) events := by
  rw [h.source]
  exact Nat.zero_add _

namespace Run

/-- Byte accounting. A raw stream in memory that is read has taken just the bytes of its size
record and of its events, which are as many as declared or end with the game. One whose declared
length is missed has taken just those bytes too and has told the sink of all the events; either the
last event went past the length or the game ended below it. No earlier event ends the game, and
before each event the bytes are below a declared length. -/
theorem readRaw_accounts {options : Options} {rawLength : Int} {bytes : Bytes}
    {result : Except Failure Nat} {t : Session}
    (h : (readRaw .quiet options rawLength).run { source := .ofBytes bytes } = (result, t)) :
    (∀ n, result = .ok n → ∃ entries events calls slots,
      RawBehind options rawLength { source := .ofBytes bytes } t entries events calls slots ∧
      n = Event.lengthAfter (.ofEntries entries) events ∧ t.source.taken = n ∧
      (rawLength = n ∨ rawLength = 0 ∧ Event.EndsGame events)) ∧
    ∀ error, result = .error (.decode error) → error.cause.errorClass = .byteAccounting →
      ∃ entries events calls slots,
        RawBehind options rawLength { source := .ofBytes bytes } t entries events calls slots ∧
        rawLength ≠ 0 ∧ t.source.taken = Event.lengthAfter (.ofEntries entries) events ∧
        (Event.Overruns rawLength (.ofEntries entries) events ∨
          Event.FallsShort rawLength (.ofEntries entries) events) ∧
        ¬(Event.Overruns rawLength (.ofEntries entries) events ∧
          Event.FallsShort rawLength (.ofEntries entries) events) := by
  constructor
  · rintro n rfl
    obtain ⟨entries, events, calls, slots, hb, hg, hn, hraw⟩ := readRaw_ok h
    refine ⟨entries, events, calls, slots, hb, hn, hb.taken.trans hn.symm, ?_⟩
    by_cases h0 : rawLength = 0
    · refine .inr ⟨h0, Decidable.byContradiction fun he => hg ?_⟩
      exact Progress.goesOn_after_iff.mpr ⟨.inl h0, he⟩
    · exact .inl (hraw h0).symm
  · rintro error rfl hclass
    rcases readRaw_error h with ⟨f, hr, -, he⟩ | ⟨entries, events, calls, mid, hb, hfail⟩
    · have hnamed := SizeRecord.composed_reader.names _ (Source.inMemory_ofBytes bytes) f _ hr
      obtain ⟨cause, hc, ha⟩ := hnamed.annotate none t.source.offset
      cases he.trans ha
      exact absurd hclass hc.2
    · rcases hfail with ⟨u, -, hr, -, -⟩ | ⟨hg, h0, hne, hsource, hcalls, -⟩
      · obtain ⟨f, hf, he⟩ := readEvent_quiet_error hr
        have hmem := hb.inMemory (Source.inMemory_ofBytes bytes)
        have hnamed := EventRecord.names_reader _ _ _ _ hmem _ _ (readRecord_error hf).1
        obtain ⟨cause, hc, ha⟩ := hnamed.annotate (some events.length) u.source.offset
        cases he.trans ha
        exact absurd hclass hc.2
      · have hb' : RawBehind options rawLength { source := .ofBytes bytes } t entries events calls
            mid.slots :=
          ⟨hsource ▸ hb.toRawTaken, hcalls ▸ hb.calls⟩
        exact ⟨entries, events, calls, mid.slots, hb', h0, hb'.taken, hb.passed.misses hg h0 hne,
          Event.not_overruns_and_fallsShort⟩

/-- An unknown event and then the end of the game. -/
def shortGame : List Event :=
  [⟨0x10, [7, 9]⟩, ⟨0x39, [2]⟩]

def shortGameBytes : Bytes :=
  SizeRecord.encode [(0x10, 2), (0x39, 1)] ++ shortGame.flatMap Event.bytes

/-- Declared as long as it is, the stream is read; declared longer, it falls short. Either way its
game end has been told. -/
theorem readRaw_accounts_shortGame :
    (∃ t entries events slots,
      (readRaw .quiet {} 13).run { source := .ofBytes shortGameBytes } = (.ok 13, t) ∧
      RawBehind {} 13 { source := .ofBytes shortGameBytes } t entries events
        [.gameEnd ⟨⟨2⟩, none⟩] slots ∧
      13 = Event.lengthAfter (.ofEntries entries) events) ∧
    ∃ t error entries events slots,
      (readRaw .quiet {} 14).run { source := .ofBytes shortGameBytes } =
        (.error (.decode error), t) ∧
      error.cause.errorClass = .byteAccounting ∧
      RawBehind {} 14 { source := .ofBytes shortGameBytes } t entries events
        [.gameEnd ⟨⟨2⟩, none⟩] slots ∧
      t.source.taken = Event.lengthAfter (.ofEntries entries) events := by
  have hend : Event.Decodes {} .initial ⟨0x39, [2]⟩ (some (.gameEnd ⟨⟨2⟩, none⟩)) .initial :=
    .gameEnd rfl rfl
  have hd : Event.DecodesAll {} .initial shortGame [.gameEnd ⟨⟨2⟩, none⟩] .initial :=
    .cons (.unknown rfl) (.cons hend (.nil _))
  have hmem := Source.inMemory_ofBytes shortGameBytes
  have hl : (Source.ofBytes shortGameBytes).left =
      SizeRecord.encode [(0x10, 2), (0x39, 1)] ++ shortGame.flatMap Event.bytes ++ [] :=
    (List.append_nil _).symm
  constructor
  · have hp : Passed {} 13 (.ofEntries [(0x10, 2), (0x39, 1)]) shortGame
        [.gameEnd ⟨⟨2⟩, none⟩] .initial :=
      ⟨by decide, hd, by decide, fun _ => by decide⟩
    obtain ⟨t, hr, -, hcalls⟩ := run_readRaw_of_length (s := { source := .ofBytes shortGameBytes })
      hmem (RawTaken.of_left (by decide) hp hl) (by decide) fun _ => rfl
    obtain ⟨entries, events, calls, slots, hb, hn, -⟩ := (readRaw_accounts hr).1 13 rfl
    obtain rfl : [Call.gameEnd ⟨⟨2⟩, none⟩] = calls := hcalls.symm.trans hb.calls
    exact ⟨t, entries, events, slots, hr, hb, hn⟩
  · have hp : Passed {} 14 (.ofEntries [(0x10, 2), (0x39, 1)]) shortGame
        [.gameEnd ⟨⟨2⟩, none⟩] .initial :=
      ⟨by decide, hd, by decide, fun _ => by decide⟩
    obtain ⟨t, hr, -, hcalls⟩ :=
      run_readRaw_of_length_error (s := { source := .ofBytes shortGameBytes }) hmem
        (RawTaken.of_left (by decide) hp hl) (by decide) (by decide) (by decide)
    obtain ⟨entries, events, calls, slots, hb, -, ht, -⟩ := (readRaw_accounts hr).2 _ rfl rfl
    obtain rfl : [Call.gameEnd ⟨⟨2⟩, none⟩] = calls := hcalls.symm.trans hb.calls
    exact ⟨t, _, entries, events, slots, hr, rfl, hb, ht⟩

end Run

end Replay
