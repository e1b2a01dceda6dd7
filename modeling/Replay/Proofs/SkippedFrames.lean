import Replay.Proofs.Lockstep

/-!
Runs that skip the frames. They take the same bytes as full runs and keep no slots, so they make the
calls of the full run that are not about frames. The only failure of a full run that a skipping run
does not share is one in a frame event that has been read and cannot be decoded.
-/

namespace Replay

/-- Frames are skipped. -/
def Options.skipping : Options where
  skipFrames := true

namespace Event

variable {options : Options} {slots after : Slots} {event : Event} {calls : List Call}

/-- Without frames an event makes the call that it makes with them, unless that is about one, and
leaves any slots as they are. -/
theorem Decodes.skipping {call : Option Call} (h : event.Decodes {} slots call after)
    (slots' : Slots) : event.Decodes .skipping slots' (call.filter Call.isOther) slots' := by
  cases h with
  | unknown kind => exact .unknown kind
  | skipped skips => cases skips
  | gameStart kind decoded => exact .gameStart kind decoded
  | gameEnd kind decoded => exact .gameEnd kind decoded
  | framePre _ kind => exact .skipped rfl (.inl kind)
  | framePost _ kind => exact .skipped rfl (.inr kind)

/-- An event that cannot be decoded cannot be decoded without frames either, unless it is one. -/
theorem decode_skipping_error {f : Failure} (hframe : ¬event.IsFrame)
    (h : event.decode {} slots = .error f) (slots' : Slots) :
    event.decode .skipping slots' = .error f := by
  rw [decode_of_not_frame hframe {} .skipping slots slots', h]
  rfl

theorem DecodesAll.skipping {events : List Event} (h : DecodesAll {} slots events calls after)
    (slots' : Slots) :
    DecodesAll .skipping slots' events (calls.filter Call.isOther) slots' := by
  induction h with
  | nil slots => exact .nil slots'
  | @cons _ _ _ _ _ call _ first _ ih =>
    have hfilter : call.toList.filter Call.isOther = (call.filter Call.isOther).toList := by
      cases call with
      | none => rfl
      | some call => cases ho : call.isOther <;> simp [Option.filter, ho]
    rw [List.filter_append, hfilter]
    exact .cons (first.skipping slots') ih

end Event

variable {rawLength : Int}

/-- A loop that skips frames can have the same events behind it. -/
theorem Passed.skipping {record : SizeRecord} {events : List Event} {calls : List Call}
    {slots : Slots} (h : Passed {} rawLength record events calls slots) :
    Passed .skipping rawLength record events (calls.filter Call.isOther) .initial where
  fits := h.fits
  decoded := h.decoded.skipping .initial
  unended := h.unended
  short := h.short

theorem RawTaken.skipping {s t : Source} {entries : List (UInt8 × UInt16)} {events : List Event}
    {calls : List Call} {slots : Slots}
    (h : RawTaken {} rawLength s t entries events calls slots) :
    RawTaken .skipping rawLength s t entries events (calls.filter Call.isOther) .initial where
  few := h.few
  passed := h.passed.skipping
  left := h.left
  source := h.source

/-- A frame event has been read in full and cannot be decoded. -/
structure EventRecord.BadFrame (table : SizeTable) (slots : Slots) (s t : Source) (event : Event)
    (f : Failure) : Prop where
  fits : event.Fits table
  frame : event.IsFrame
  left : s.left = event.bytes ++ t.left
  source : t = s.skip event.bytes.length
  undecoded : event.decode {} slots = .error f

/-- An event that fails, fails without frames too, unless it is a frame that cannot be decoded. -/
theorem EventRecord.reader_skipping {table : SizeTable} {slots : Slots} {s t : Source}
    {f : Failure} (h : (EventRecord.reader {} table slots).run s = (.error f, t)) :
    (∃ event, EventRecord.BadFrame table slots s t event f) ∨
      ∀ slots', (EventRecord.reader .skipping table slots').run s = (.error f, t) := by
  rcases EventRecord.reader_run table s with
    ⟨e, u, hrun⟩ | ⟨event, u, hfits, hleft, hsource, hrun⟩
  · right
    intro slots'
    rw [hrun] at h ⊢
    exact h
  · rw [hrun] at h
    cases hdecode : event.decode {} slots with
    | ok result =>
      rw [hdecode] at h
      cases h
    | error e =>
      rw [hdecode] at h
      cases h
      by_cases hframe : event.IsFrame
      · exact .inl ⟨event, hfits, hframe, hleft, hsource, hdecode⟩
      · right
        intro slots'
        rw [hrun, Event.decode_skipping_error hframe hdecode slots']
        rfl

namespace Run

/-- A raw stream in memory tells the sink all that its events so far tell. -/
theorem readRaw_tells_of_taken {options : Options} {rawLength : Int} {s : Session} {mid : Source}
    {entries : List (UInt8 × UInt16)} {events : List Event} {calls : List Call} {slots : Slots}
    (hs : s.source.InMemory)
    (h : RawTaken options rawLength s.source mid entries events calls slots) :
    s.calls.toList ++ calls <+: ((readRaw .quiet options rawLength).run s).2.calls.toList := by
  obtain ⟨u, hus, hi, hc, hl, -, hr⟩ := run_readRaw_of_taken .quiet hs h
  obtain ⟨notes, hloop⟩ := rounds_of_passed (Sink.takes_quiet _) hus hi h.passed hl
  let v : Session := {
    source := u.source.skip (events.flatMap Event.bytes).length
    slots
    calls := u.calls ++ calls.toArray
    notes }
  have hrounds : v.ToldUpTo
      ((readEvents .quiet options rawLength (.ofEntries entries)).run u).2 := by
    rw [hloop]
    exact Decoder.Tells.rounds _ (tells_nextEvent .quiet options rawLength _) _ v
  have hbody : v.ToldUpTo ((readBody .quiet options rawLength (.ofEntries entries)).run u).2 :=
    Decoder.told_bind hrounds (tells_accounting rawLength)
  have hv : v.calls.toList = s.calls.toList ++ calls := by
    rw [← hc]
    exact Array.toList_append
  rw [Session.ToldUpTo, hv] at hbody
  rw [hr]
  exact hbody

end Run

/-- A run on the data fails in a frame event that has been read in full behind other events. -/
inductive Container.FailsInFrame (data : Bytes) : Failure → Source → Prop where
  | mk {rawLength : Nat} {s mid t : Source} {entries : List (UInt8 × UInt16)}
    {events : List Event} {calls : List Call} {slots : Slots} {event : Event} {f : Failure}
    (head : readHead.run (.ofBytes data) = (.ok rawLength, s))
    (taken : RawTaken {} rawLength s mid entries events calls slots)
    (goesOn : (Progress.after (.ofEntries entries) events).goesOn rawLength = true)
    (bad : EventRecord.BadFrame (SizeRecord.ofEntries entries).table slots mid t event f) :
    FailsInFrame data (f.annotate (some events.length) t.offset) t

/-- The second session has come as far as the first one, and its sink has not been told of
frames. -/
structure Session.WithoutFrames (s t : Session) : Prop where
  inMemory : s.source.InMemory
  source : t.source = s.source
  calls : t.calls.toList = s.calls.toList.filter Call.isOther

namespace Comparison

/-- The second run skips frames, and the first one breaks off in a frame that cannot be decoded. -/
def skipping (data : Bytes) : Comparison where
  Beside := Session.WithoutFrames
  Broken e s t := Container.FailsInFrame data e s.source ∧
    s.calls.toList.filter Call.isOther <+: t.calls.toList
  offset_eq h := by rw [h.source]
  noted _ _ h := ⟨h.inMemory, h.source, h.calls⟩
  fresh h := ⟨h.inMemory, h.source, h.calls⟩
  restored _ h := ⟨h.inMemory, h.source, h.calls⟩
  broken_restored _ _ h := h
  broken_later h htold := ⟨h.1, h.2.trans htold⟩

variable {data : Bytes} {s t : Session}

theorem inStep_skipping_reader {α : Type} (reader : Reader α) (event : Option Int) :
    (skipping data).InStep Eq ((Run.ofReader reader).annotated event)
      ((Run.ofReader reader).annotated event) := by
  intro s t hb
  rcases hr : reader.run s.source with ⟨e | a, u⟩
  · rw [Run.run_ofReader_of_error hr event, Run.run_ofReader_of_error (hb.source ▸ hr) event]
    exact .error ⟨hb.inMemory.run hr, rfl, hb.calls⟩
  · rw [Run.run_ofReader_of_ok hr event, Run.run_ofReader_of_ok (hb.source ▸ hr) event]
    exact .ok rfl ⟨hb.inMemory.run hr, rfl, hb.calls⟩

theorem inStep_skipping_deliver (entries : List (String × Tree)) :
    (skipping data).InStep Eq (Run.deliver .quiet (.metadata entries))
      (Run.deliver .quiet (.metadata entries)) := by
  intro s t hb
  rw [Run.run_deliver_quiet, Run.run_deliver_quiet]
  refine .ok rfl ⟨hb.inMemory, hb.source, ?_⟩
  rw [Array.toList_push, Array.toList_push, hb.calls, List.filter_append]
  rfl

/-- Sessions that belong together still do when each has made its calls for the same events. -/
theorem withoutFrames_later {s' t' : Session} {calls : List Call} (hb : s.WithoutFrames t)
    (hmemory : s'.source.InMemory) (hsource : t'.source = s'.source)
    (hs : s'.calls.toList = s.calls.toList ++ calls)
    (ht : t'.calls.toList = t.calls.toList ++ calls.filter Call.isOther) :
    s'.WithoutFrames t' :=
  ⟨hmemory, hsource, by rw [hs, ht, hb.calls, List.filter_append]⟩

/-- A raw stream that fails, fails in both runs, or the full run breaks off in a frame. -/
theorem agree_skipping_of_rawFails {s' : Session} {rawLength : Nat} {e : Failure}
    (head : Container.readHead.run (.ofBytes data) = (.ok rawLength, s.source))
    (hb : s.WithoutFrames t) (h : RawFails {} rawLength s s' e) :
    (skipping data).Agree Eq (.error e, s') ((Run.readRaw .quiet .skipping rawLength).run t) := by
  have hmemory : t.source.InMemory := hb.source ▸ hb.inMemory
  cases h with
  | sizes failed untold =>
    obtain ⟨t', hr, hsource, hcalls⟩ := Run.run_readRaw_of_sizes_error .quiet (hb.source ▸ failed)
    rw [hr]
    exact .error ⟨hb.inMemory.run failed, hsource, by rw [hcalls, untold, hb.calls]⟩
  | @event mid entries events calls slots f taken goesOn failed told =>
    have hskipped := hb.source ▸ taken.skipping
    rcases EventRecord.reader_skipping failed with ⟨event, hbad⟩ | hskip
    · have htold := Run.readRaw_tells_of_taken hmemory hskipped
      rw [hb.calls, ← List.filter_append, ← told] at htold
      exact .broken ⟨.mk head taken goesOn hbad, htold⟩
    · obtain ⟨t', hr, hsource, hcalls⟩ :=
        Run.run_readRaw_of_event_error hmemory hskipped goesOn (hskip _)
      rw [hr]
      exact .error (withoutFrames_later hb ((taken.inMemory hb.inMemory).run failed) hsource told
        hcalls)
  | length behind stops limited missed =>
    have hskipped := hb.source ▸ behind.toRawTaken.skipping
    obtain ⟨t', hr, hsource, hcalls⟩ :=
      Run.run_readRaw_of_length_error hmemory hskipped stops limited missed
    rw [hr]
    exact .error (withoutFrames_later hb (behind.inMemory hb.inMemory) hsource behind.calls hcalls)

/-- Raw streams are read alike, or the full run breaks off in a frame. -/
theorem agree_skipping_readRaw {rawLength : Nat}
    (head : Container.readHead.run (.ofBytes data) = (.ok rawLength, s.source))
    (hb : s.WithoutFrames t) :
    (skipping data).Agree Eq ((Run.readRaw .quiet {} rawLength).run s)
      ((Run.readRaw .quiet .skipping rawLength).run t) := by
  rcases hr : (Run.readRaw .quiet {} rawLength).run s with ⟨e | n, s'⟩
  · exact agree_skipping_of_rawFails head hb (Run.readRaw_quiet_error hr)
  · obtain ⟨entries, events, calls, slots, hbehind, hg, rfl, hn⟩ := Run.readRaw_ok hr
    have hskipped := hb.source ▸ hbehind.toRawTaken.skipping
    obtain ⟨t', hr', hsource, hcalls⟩ :=
      Run.run_readRaw_of_length (hb.source ▸ hb.inMemory) hskipped hg hn
    rw [hr']
    exact .ok rfl (withoutFrames_later hb (hbehind.inMemory hb.inMemory) hsource hbehind.calls
      hcalls)

theorem agree_skipping_decodeBytes (data : Bytes) :
    (skipping data).Agree Eq (Container.decodeBytes .quiet {} data)
      (Container.decodeBytes .quiet .skipping data) := by
  let start : Session := { source := .ofBytes data }
  rcases hr : Container.readHead.run (.ofBytes data) with ⟨e | rawLength, source⟩
  · have hrun : ∀ options, Container.decodeBytes .quiet options data =
        (.error (e.annotate none source.offset), { source }) := by
      intro options
      change (Container.run .quiet options).run start = _
      rw [Container.run, Decoder.run_bind, Run.run_ofReader_of_error (s := start) hr none]
    rw [hrun, hrun]
    exact .error ⟨(Source.inMemory_ofBytes data).run hr, rfl, rfl⟩
  · obtain ⟨s, hs, hcalls, hfull⟩ := Container.run_of_head (s := start) .quiet {} hr
    obtain ⟨t, ht, hcalls', hskip⟩ := Container.run_of_head (s := start) .quiet .skipping hr
    change (skipping data).Agree Eq ((Container.run .quiet {}).run start)
      ((Container.run .quiet .skipping).run start)
    rw [hfull, hskip]
    have hb : s.WithoutFrames t :=
      ⟨hs ▸ (Source.inMemory_ofBytes data).run hr, ht.trans hs.symm, by rw [hcalls, hcalls']; rfl⟩
    have hrest : (skipping data).InStep Eq (Container.readRest .quiet)
        (Container.readRest .quiet) :=
      inStep_readRest (inStep_skipping_reader _ none) (inStep_skipping_reader _ none)
        inStep_skipping_deliver
    exact (agree_skipping_readRaw (hs ▸ hr) hb).bind (fun _ _ _ => hrest)
      fun _ => Container.tells_readRest .quiet

end Comparison

namespace Container

/-- Skipping frames. What a full run decodes a skipping run decodes too, from the same bytes, with
the calls that are not about frames. When a full run fails, the skipping run fails alike with these
calls, unless the full run fails in a frame event that it has read in full; then the skipping run
makes at least these calls. -/
theorem decodeBytes_skipping (data : Bytes) :
    ((decodeBytes .quiet {} data).1 = .ok () →
      (decodeBytes .quiet { skipFrames := true } data).1 = .ok () ∧
        (decodeBytes .quiet { skipFrames := true } data).2.source =
          (decodeBytes .quiet {} data).2.source ∧
        (decodeBytes .quiet { skipFrames := true } data).2.calls.toList =
          (decodeBytes .quiet {} data).2.calls.toList.filter Call.isOther) ∧
    ∀ e, (decodeBytes .quiet {} data).1 = .error e →
      (FailsInFrame data e (decodeBytes .quiet {} data).2.source ∧
          (decodeBytes .quiet {} data).2.calls.toList.filter Call.isOther <+:
            (decodeBytes .quiet { skipFrames := true } data).2.calls.toList) ∨
        ((decodeBytes .quiet { skipFrames := true } data).1 = .error e ∧
          (decodeBytes .quiet { skipFrames := true } data).2.calls.toList =
            (decodeBytes .quiet {} data).2.calls.toList.filter Call.isOther) := by
  have hagree := Comparison.agree_skipping_decodeBytes data
  change (Comparison.skipping data).Agree Eq (decodeBytes .quiet {} data)
    (decodeBytes .quiet { skipFrames := true } data) at hagree
  generalize decodeBytes .quiet {} data = full,
    decodeBytes .quiet { skipFrames := true } data = skip at hagree
  cases hagree with
  | ok related beside => exact ⟨fun _ => ⟨rfl, beside.source, beside.calls⟩, nofun⟩
  | error beside =>
    refine ⟨nofun, fun e he => .inr ⟨?_, beside.calls⟩⟩
    exact he
  | broken broken =>
    refine ⟨nofun, fun e he => .inl ?_⟩
    cases he
    exact broken

/-- A replay of one frame, after which a port confirms its character. -/
def confirmedIn (port : UInt8) : Parts where
  rawLength := 0
  entries := [(0x38, 33), (0x39, 1)]
  events := [
    ⟨0x38, [0, 0, 0, 0, port, 0, 2, 0, 14] ++ List.replicate 8 0 ++ [0x3F, 0x80, 0, 0] ++
      List.replicate 12 0⟩,
    ⟨0x39, [2]⟩]
  metadata := [0x7D]

/-- There is a first port but no fifth, which a run that skips the frame does not notice. -/
theorem decodeBytes_skipping_confirmedIn :
    (decodeBytes .quiet {} (confirmedIn 0).bytes).1 = .ok () ∧
      (decodeBytes .quiet {} (confirmedIn 0).bytes).2.calls.size = 3 ∧
      (decodeBytes .quiet { skipFrames := true } (confirmedIn 0).bytes).1 = .ok () ∧
      (decodeBytes .quiet { skipFrames := true } (confirmedIn 0).bytes).2.calls.toList =
        (decodeBytes .quiet {} (confirmedIn 0).bytes).2.calls.toList.filter Call.isOther ∧
      ∃ e, (decodeBytes .quiet {} (confirmedIn 4).bytes).1 = .error e ∧
        FailsInFrame (confirmedIn 4).bytes e
          (decodeBytes .quiet {} (confirmedIn 4).bytes).2.source := by
  obtain ⟨_, hok⟩ := Except.exists_of_isOk
    (show (decodeBytes .quiet {} (confirmedIn 0).bytes).1.isOk = true by decide +kernel)
  have hsize : (decodeBytes .quiet {} (confirmedIn 0).bytes).2.calls.size = 3 := by decide +kernel
  obtain ⟨hskip, -, hcalls⟩ := (decodeBytes_skipping (confirmedIn 0).bytes).1 hok
  refine ⟨hok, hsize, hskip, hcalls, ?_⟩
  have hfails : (decodeBytes .quiet {} (confirmedIn 4).bytes).1.isOk = false := by decide +kernel
  obtain ⟨_, hnoticed⟩ := Except.exists_of_isOk
    (show (decodeBytes .quiet { skipFrames := true } (confirmedIn 4).bytes).1.isOk = true by
      decide +kernel)
  cases he : (decodeBytes .quiet {} (confirmedIn 4).bytes).1 with
  | ok a =>
    rw [he] at hfails
    cases hfails
  | error e =>
    refine ⟨e, rfl, ?_⟩
    rcases (decodeBytes_skipping (confirmedIn 4).bytes).2 e he with ⟨hframe, -⟩ | ⟨hsame, -⟩
    · exact hframe
    · rw [hnoticed] at hsame
      cases hsame

end Container

end Replay
