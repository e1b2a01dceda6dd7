import Replay.Proofs.Acceptance

/-!
The places of errors. Decoding data in memory for a sink that never raises either succeeds or fails
at one of a few stages. The failure is always a decoding error of a class of its own, its offset is
that of the source, and it has an event number just when the stage is an event.
-/

namespace Replay.Container

open Reader

/-- The stages of decoding a replay. The head is the prologue with the declared length, and the
length is checked behind the events. -/
inductive Stage where
  | head
  | sizes
  | event (index : Nat)
  | length
  | metadata
  | closing

/-- The number of the event that a failure at the stage belongs to. -/
def Stage.event? : Stage → Option Int
  | .event index => some index
  | _ => none

/-- Decoding the data comes to a stage with all of the stages before it behind it, and fails there
for a cause, where the source has come to. The number of an event is that of the events before it,
of whatever kind. -/
inductive FailsAt (options : Options) (data : Bytes) : Stage → Cause → Source → Prop where
  | head {cause : Cause} {t : Source}
    (fails : readHead.run (.ofBytes data) = (.error (.ofCause cause), t)) :
    FailsAt options data .head cause t
  | sizes {rawLength : Nat} {s t : Source} {cause : Cause}
    (head : readHead.run (.ofBytes data) = (.ok rawLength, s))
    (fails : SizeRecord.reader.run s = (.error (.ofCause cause), t)) :
    FailsAt options data .sizes cause t
  | event {rawLength : Nat} {s mid t : Source} {entries : List (UInt8 × UInt16)}
    {events : List Event} {calls : List Call} {slots : Slots} {cause : Cause}
    (head : readHead.run (.ofBytes data) = (.ok rawLength, s))
    (taken : RawTaken options rawLength s mid entries events calls slots)
    (goesOn : (Progress.after (.ofEntries entries) events).goesOn rawLength = true)
    (fails : (EventRecord.reader options (SizeRecord.ofEntries entries).table slots).run mid =
      (.error (.ofCause cause), t)) :
    FailsAt options data (.event events.length) cause t
  | length {rawLength : Nat} {s mid : Source} {entries : List (UInt8 × UInt16)}
    {events : List Event} {calls : List Call} {slots : Slots}
    (head : readHead.run (.ofBytes data) = (.ok rawLength, s))
    (taken : RawTaken options rawLength s mid entries events calls slots)
    (stops : ¬(Progress.after (.ofEntries entries) events).goesOn rawLength = true)
    (declared : (rawLength : Int) ≠ 0)
    (missed : (Event.lengthAfter (.ofEntries entries) events : Int) ≠ rawLength) :
    FailsAt options data .length
      (.rawLength rawLength (Event.lengthAfter (.ofEntries entries) events)) mid
  | metadata {rawLength : Nat} {s mid t : Source} {entries : List (UInt8 × UInt16)}
    {events : List Event} {calls : List Call} {slots : Slots} {cause : Cause}
    (head : readHead.run (.ofBytes data) = (.ok rawLength, s))
    (taken : RawTaken options rawLength s mid entries events calls slots)
    (stops : ¬(Progress.after (.ofEntries entries) events).goesOn rawLength = true)
    (met : (rawLength : Int) ≠ 0 →
      (Event.lengthAfter (.ofEntries entries) events : Int) = rawLength)
    (fails : readMetadata.run mid = (.error (.ofCause cause), t)) :
    FailsAt options data .metadata cause t
  | closing {rawLength : Nat} {s mid u t : Source} {entries : List (UInt8 × UInt16)}
    {events : List Event} {calls : List Call} {slots : Slots} {tree : List (String × Tree)}
    {cause : Cause}
    (head : readHead.run (.ofBytes data) = (.ok rawLength, s))
    (taken : RawTaken options rawLength s mid entries events calls slots)
    (stops : ¬(Progress.after (.ofEntries entries) events).goesOn rawLength = true)
    (met : (rawLength : Int) ≠ 0 →
      (Event.lengthAfter (.ofEntries entries) events : Int) = rawLength)
    (metadata : readMetadata.run mid = (.ok tree, u))
    (fails : (Reader.expect epilogue).run u = (.error (.ofCause cause), t)) :
    FailsAt options data .closing cause t

variable {options : Options} {data : Bytes} {stage : Stage} {cause : Cause} {s t : Source}

theorem inMemory_of_head {rawLength : Nat} (h : readHead.run (.ofBytes data) = (.ok rawLength, s)) :
    s.InMemory :=
  (Source.inMemory_ofBytes data).run h

/-- No cause is of the general class. -/
theorem FailsAt.class_ne_general (h : FailsAt options data stage cause t) :
    cause.errorClass ≠ .general := by
  have names : ∀ {α : Type} {reader : Reader α} {u v : Source} {c : Cause}, reader.Names →
      u.InMemory → reader.run u = (.error (.ofCause c), v) → c.errorClass ≠ .general :=
    fun hn hu hr => (Failure.named_ofCause_iff.mp (hn _ hu _ _ hr)).1
  cases h with
  | head fails => exact names composed_readHead.names (Source.inMemory_ofBytes data) fails
  | sizes head fails =>
    exact names SizeRecord.composed_reader.names (inMemory_of_head head) fails
  | event head taken _ fails =>
    exact names (EventRecord.names_reader _ _ _) (taken.inMemory (inMemory_of_head head)) fails
  | length => exact nofun
  | metadata head taken _ _ fails =>
    exact names composed_readMetadata.names (taken.inMemory (inMemory_of_head head)) fails
  | closing head taken _ _ hmeta fails =>
    exact names (Composed.expect _).names
      ((taken.inMemory (inMemory_of_head head)).run hmeta) fails

/-- A run whose raw stream fails fails with it. -/
theorem decodeBytes_of_raw_error {rawLength : Nat} {e : Failure}
    (head : readHead.run (.ofBytes data) = (.ok rawLength, s))
    (raw : ∀ session : Session, session.source = s → ∃ u,
      (Run.readRaw .quiet options rawLength).run session = (.error e, u) ∧ u.source = t) :
    ∃ u, decodeBytes .quiet options data = (.error e, u) ∧ u.source = t := by
  obtain ⟨v, hv, -, hrun⟩ := run_of_head (s := { source := .ofBytes data }) .quiet options head
  obtain ⟨u, hr, hu⟩ := raw v hv
  refine ⟨u, hrun.trans ?_, hu⟩
  rw [Decoder.run_bind, hr]

/-- A run whose raw stream is read goes on with the rest. -/
theorem decodeBytes_of_raw_ok {rawLength : Nat} {mid : Source} {entries : List (UInt8 × UInt16)}
    {events : List Event} {calls : List Call} {slots : Slots}
    (head : readHead.run (.ofBytes data) = (.ok rawLength, s))
    (taken : RawTaken options rawLength s mid entries events calls slots)
    (stops : ¬(Progress.after (.ofEntries entries) events).goesOn rawLength = true)
    (met : (rawLength : Int) ≠ 0 →
      (Event.lengthAfter (.ofEntries entries) events : Int) = rawLength) :
    ∃ u : Session, u.source = mid ∧
      decodeBytes .quiet options data = (readRest .quiet).run u := by
  obtain ⟨v, hv, -, hrun⟩ := run_of_head (s := { source := .ofBytes data }) .quiet options head
  subst hv
  obtain ⟨u, hr, hu, -⟩ := Run.run_readRaw_of_length (inMemory_of_head head) taken stops met
  exact ⟨u, hu, hrun.trans (Decoder.run_bind_of_ok hr _)⟩

/-- What fails at a stage makes the whole fail, with that cause and at that place. -/
theorem FailsAt.decodeBytes_eq (h : FailsAt options data stage cause t) :
    ∃ u, decodeBytes .quiet options data =
      (.error ((Failure.ofCause cause).annotate stage.event? t.offset), u) ∧ u.source = t := by
  cases h with
  | head fails =>
    refine ⟨{ source := t }, ?_, rfl⟩
    change (run .quiet options).run { source := .ofBytes data } = _
    rw [run, Decoder.run_bind,
      Run.run_ofReader_of_error (s := { source := .ofBytes data }) fails none]
    rfl
  | sizes head fails =>
    refine decodeBytes_of_raw_error head fun session hs => ?_
    obtain ⟨u, hr, hu, -⟩ := Run.run_readRaw_of_sizes_error .quiet (hs ▸ fails)
    exact ⟨u, hr, hu⟩
  | event head taken goesOn fails =>
    refine decodeBytes_of_raw_error head fun session hs => ?_
    obtain ⟨u, hr, hu, -⟩ :=
      Run.run_readRaw_of_event_error (hs ▸ inMemory_of_head head) (hs ▸ taken) goesOn fails
    exact ⟨u, hr, hu⟩
  | length head taken stops declared missed =>
    refine decodeBytes_of_raw_error head fun session hs => ?_
    obtain ⟨u, hr, hu, -⟩ :=
      Run.run_readRaw_of_length_error (hs ▸ inMemory_of_head head) (hs ▸ taken) stops declared
        missed
    exact ⟨u, hr, hu⟩
  | metadata head taken stops met fails =>
    obtain ⟨u, hu, hr⟩ := decodeBytes_of_raw_ok head taken stops met
    refine ⟨{ u with source := t }, ?_, rfl⟩
    rw [hr, readRest, Decoder.run_bind, Run.run_ofReader_of_error (hu ▸ fails) none]
    rfl
  | closing head taken stops met hmeta fails =>
    obtain ⟨u, hu, hr⟩ := decodeBytes_of_raw_ok head taken stops met
    rw [hr, readRest, Decoder.run_bind_of_ok (Run.run_ofReader_of_ok (hu ▸ hmeta) none),
      Decoder.run_bind_of_ok (Run.run_deliver_quiet _ _), Run.run_ofReader_of_error fails none]
    exact ⟨_, rfl, rfl⟩

/-- On data in memory a reader that names its failures fails for a cause. -/
theorem exists_cause {α : Type} {reader : Reader α} (h : reader.Names) (hs : s.InMemory)
    {e : Failure} (hr : reader.run s = (.error e, t)) :
    ∃ cause, reader.run s = (.error (.ofCause cause), t) := by
  obtain ⟨cause, rfl, -⟩ := h s hs e t hr
  exact ⟨cause, hr⟩

theorem failsAt_of_raw_error {rawLength : Nat} {e : Failure} {u v : Session}
    (head : readHead.run (.ofBytes data) = (.ok rawLength, u.source))
    (h : (Run.readRaw .quiet options rawLength).run u = (.error e, v)) :
    ∃ stage cause t, FailsAt options data stage cause t := by
  have hm := inMemory_of_head head
  cases Run.readRaw_quiet_error h with
  | sizes failed _ =>
    obtain ⟨cause, hc⟩ := exists_cause SizeRecord.composed_reader.names hm failed
    exact ⟨_, _, _, .sizes head hc⟩
  | event taken goesOn failed _ =>
    obtain ⟨cause, hc⟩ := exists_cause (EventRecord.names_reader _ _ _) (taken.inMemory hm) failed
    exact ⟨_, _, _, .event head taken goesOn hc⟩
  | length behind stops limited missed =>
    exact ⟨_, _, _, .length head behind.toRawTaken stops limited missed⟩

/-- A run that does not succeed fails at a stage. -/
theorem exists_failsAt {e : Failure} {v : Session}
    (h : decodeBytes .quiet options data = (.error e, v)) :
    ∃ stage cause t, FailsAt options data stage cause t := by
  rcases Decoder.run_bind_eq_error h with hhead | ⟨rawLength, s₁, hhead, h₁⟩
  · obtain ⟨f, hf, -⟩ := Decoder.annotated_error hhead
    obtain ⟨cause, hc⟩ := exists_cause composed_readHead.names (Source.inMemory_ofBytes data)
      (Run.ofReader_run hf).1
    exact ⟨_, _, _, .head hc⟩
  have head := (Run.ofReader_run (Decoder.annotated_ok_iff.mp hhead)).1
  rcases Decoder.run_bind_eq_error h₁ with hn | ⟨_, s₂, hn, h₂⟩
  · cases hn
  rw [← (Run.note_run hn).1] at head
  rcases Decoder.run_bind_eq_error h₂ with hraw | ⟨length, s₃, hraw, h₃⟩
  · exact failsAt_of_raw_error head hraw
  obtain ⟨entries, events, calls, slots, hb, hg, rfl, hmet⟩ := Run.readRaw_ok hraw
  have hm := hb.inMemory (inMemory_of_head head)
  rcases Decoder.run_bind_eq_error h₃ with hmeta | ⟨tree, s₄, hmeta, h₄⟩
  · obtain ⟨f, hf, -⟩ := Decoder.annotated_error hmeta
    obtain ⟨cause, hc⟩ := exists_cause composed_readMetadata.names hm (Run.ofReader_run hf).1
    exact ⟨_, _, _, .metadata head hb.toRawTaken hg hmet hc⟩
  have metadata := (Run.ofReader_run (Decoder.annotated_ok_iff.mp hmeta)).1
  rcases Decoder.run_bind_eq_error h₄ with hd | ⟨_, s₅, hd, h₅⟩
  · cases hd
  have hs₅ := Run.deliver_ok hd
  obtain ⟨f, hf, -⟩ := Decoder.annotated_error h₅
  have hclosing := (Run.ofReader_run hf).1
  rw [show s₅.source = s₄.source by rw [hs₅]] at hclosing
  obtain ⟨cause, hc⟩ := exists_cause (Composed.expect _).names (hm.run metadata) hclosing
  exact ⟨_, _, _, .closing head hb.toRawTaken hg hmet metadata hc⟩

/-- A run on data in memory can say how far it is, which is not past the end. -/
theorem offset_decodeBytes (sink : Sink) (options : Options) (data : Bytes) :
    (decodeBytes sink options data).2.source.offset =
        some ((decodeBytes sink options data).2.source.taken : Int) ∧
      (decodeBytes sink options data).2.source.taken ≤ data.length := by
  obtain ⟨n, hn, hs⟩ := (run sink options).reaches { source := .ofBytes data }
  change (decodeBytes sink options data).2.source = (Source.ofBytes data).skip n at hs
  rw [hs]
  refine ⟨rfl, ?_⟩
  change 0 + n ≤ data.length
  rw [Nat.zero_add]
  exact hn

/-- Error reporting. Decoding data for a sink that never raises succeeds or fails at a stage. At
whatever stage it fails, the failure is a decoding error of a proper class, with the number of
bytes taken as its offset, which is not past the end, and with the number of events before it just
when it arose in an event. -/
theorem decodeBytes_places (options : Options) (data : Bytes) :
    ((decodeBytes .quiet options data).1 = .ok () ∨
      ∃ stage cause t, FailsAt options data stage cause t) ∧
    ∀ stage cause t, FailsAt options data stage cause t →
      (decodeBytes .quiet options data).1 =
          .error (.decode { cause, offset := some (t.taken : Int), event := stage.event? }) ∧
        (decodeBytes .quiet options data).2.source = t ∧ t.taken ≤ data.length ∧
        cause.errorClass ≠ .general := by
  constructor
  · rcases hr : decodeBytes .quiet options data with ⟨e | ⟨⟩, u⟩
    · exact .inr (exists_failsAt hr)
    · exact .inl rfl
  · intro stage cause t h
    obtain ⟨u, hr, hu⟩ := h.decodeBytes_eq
    obtain ⟨hoffset, htaken⟩ := offset_decodeBytes .quiet options data
    rw [hr] at hoffset htaken ⊢
    rw [hu] at hoffset htaken
    refine ⟨?_, hu, htaken, h.class_ne_general⟩
    dsimp only
    rw [hoffset]
    rfl

/-- The first event of this replay has a code that its size record does not list. -/
def unlistedReplay : Bytes :=
  rawPrologue ++ [0, 0, 0, 0] ++ SizeRecord.encode [(0x39, 1)] ++ [0x40]

theorem decodeBytes_places_unlistedReplay :
    (∃ t, FailsAt {} unlistedReplay (.event 0) (.unlistedEvent 0x40) t) ∧
      (decodeBytes .quiet {} unlistedReplay).1 = .error
        (.decode { cause := .unlistedEvent 0x40, offset := some 21, event := some 0 }) := by
  let s : Source := (Source.ofBytes unlistedReplay).skip 15
  have head : readHead.run (.ofBytes unlistedReplay) = (.ok 0, s) := rfl
  have few : List.length [((0x39, 1) : UInt8 × UInt16)] ≤ SizeRecord.maxEntries := by decide
  have taken : RawTaken {} (0 : Nat) s (s.skip 5) [(0x39, 1)] [] [] .initial :=
    RawTaken.of_left few .nil (show s.left = _ ++ _ ++ [0x40] from rfl)
  have fails : (EventRecord.reader {} (SizeRecord.ofEntries [(0x39, 1)]).table .initial).run
      (s.skip 5) = (.error (.ofCause (.unlistedEvent 0x40)), s.skip 6) := rfl
  have failsAt := FailsAt.event head taken (by decide) fails
  exact ⟨⟨_, failsAt⟩, ((decodeBytes_places {} unlistedReplay).2 _ _ _ failsAt).1⟩

end Replay.Container
