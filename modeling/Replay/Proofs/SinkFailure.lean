import Replay.Proofs.ErrorPlace
import Replay.Proofs.Lockstep

/-!
Sinks that raise. A run does for any sink what it does for one that takes everything, up to the
call that the sink raises in. What was raised then comes out as it is, and behind the event or the
metadata that the call is about nothing more is taken from the source.
-/

namespace Replay

/-- The sink that raises in its `n`th call. -/
def Sink.raising (n : Nat) (x : Failure) : Sink :=
  fun calls => if calls.size = n then some x else none

theorem Sink.takes_raising {m n : Nat} (h : m < n) (x : Failure) : (raising n x).Takes m :=
  fun _ hm => if_neg (Nat.ne_of_lt (Nat.lt_of_le_of_lt hm h))

/-- The sessions differ in nothing but their notes. -/
structure Session.Alike (s t : Session) : Prop where
  source : s.source = t.source
  slots : s.slots = t.slots
  calls : s.calls = t.calls

namespace Run

variable {sink : Sink} {s : Session} {call : Call} {x : Failure}

/-- The call that a sink raises in has been made. -/
theorem run_deliver_of_raises (h : sink (s.calls.push call) = some x) :
    (deliver sink call).run s = (.error x, { s with calls := s.calls.push call }) := by
  simp only [deliver, h]

/-- An event in memory whose call the sink raises in has been taken and decoded, and what was raised
does not get its number. -/
theorem run_readEvent_of_raises {options : Options} {table : SizeTable} {event : Event}
    {rest : Bytes} {after : Slots} (index : Option Int) (fits : event.Fits table)
    (hs : s.source.InMemory) (hl : s.source.left = event.bytes ++ rest)
    (hd : event.Decodes options s.slots (some call) after)
    (raises : sink (s.calls.push call) = some x) :
    ∃ notes, (readEvent sink options table index).run s =
      (.error x, { source := s.source.skip event.bytes.length, slots := after,
                   calls := s.calls.push call, notes }) := by
  obtain ⟨notes, hr⟩ := run_readRecord_of_fits fits hs hl hd
  refine ⟨notes, ?_⟩
  let t : Session := {
    source := s.source.skip event.bytes.length
    slots := after
    calls := s.calls
    notes }
  have hdeliver := run_deliver_of_raises (s := t) raises
  rw [readEvent, Decoder.run_bind_of_ok (Decoder.annotated_ok_iff.mpr hr)]
  dsimp only
  rw [Decoder.run_bind, hdeliver]

/-- A raw stream in memory fails behind the event whose call the sink raises in. -/
theorem run_readRaw_of_raises {options : Options} {rawLength : Int} {mid : Source}
    {entries : List (UInt8 × UInt16)} {events : List Event} {calls : List Call}
    {slots after : Slots} {event : Event} {rest : Bytes}
    (takes : sink.Takes (s.calls.size + calls.length)) (hs : s.source.InMemory)
    (h : RawTaken options rawLength s.source mid entries events calls slots)
    (hg : (Progress.after (.ofEntries entries) events).goesOn rawLength = true)
    (fits : event.Fits (SizeRecord.ofEntries entries).table) (hl : mid.left = event.bytes ++ rest)
    (hd : event.Decodes options slots (some call) after)
    (raises : sink (s.calls.toList ++ calls ++ [call]).toArray = some x) :
    ∃ t, (readRaw sink options rawLength).run s = (.error x, t) ∧
      t.source = mid.skip event.bytes.length ∧
      t.calls.toList = s.calls.toList ++ calls ++ [call] := by
  refine run_readRaw_of_readEvent_error takes hs h hg ?_
  rintro u rfl rfl hcalls
  rw [← hcalls, ← List.push_toArray, Array.toArray_toList] at raises
  obtain ⟨notes, hr⟩ :=
    run_readEvent_of_raises (some events.length) fits (h.inMemory hs) hl hd raises
  exact ⟨_, hr, rfl, by rw [Array.toList_push, hcalls]⟩

end Run

namespace Comparison

/-- The first run may break off once the second one has made more calls than a number. -/
def within (n : Nat) : Comparison where
  Beside := Session.Alike
  Broken _ _ t := n < t.calls.size
  offset_eq h := by rw [h.source]
  noted _ _ h := ⟨h.source, h.slots, h.calls⟩
  fresh h := ⟨h.source, rfl, h.calls⟩
  restored h h' := ⟨h'.source, h.slots, h'.calls⟩
  broken_restored _ _ h := h
  broken_later h htold := Nat.lt_of_lt_of_le h htold.length_le

variable {n : Nat} {sink : Sink}

theorem inStep_within_follows {α : Type} {d : Run α} {reader : Slots → Reader (α × Slots)}
    (h : d.Follows reader) (event : Option Int) :
    (within n).InStep Eq (d.annotated event) (d.annotated event) := by
  intro s t hb
  obtain ⟨notes, hs⟩ := h s
  obtain ⟨notes', ht⟩ := h t
  rw [Decoder.run_annotated, Decoder.run_annotated, hs, ht, hb.source, hb.slots]
  rcases (reader t.slots).run t.source with ⟨e | ⟨a, after⟩, u⟩
  · exact .error ⟨rfl, rfl, hb.calls⟩
  · exact .ok rfl ⟨rfl, rfl, hb.calls⟩

theorem inStep_within_deliver (takes : sink.Takes n) (call : Call) :
    (within n).InStep Eq (Run.deliver sink call) (Run.deliver .quiet call) := by
  intro s t hb
  have hcalls : s.calls.push call = t.calls.push call := by rw [hb.calls]
  rw [Run.run_deliver_quiet]
  rcases hsink : sink (s.calls.push call) with _ | e
  · have hs : (Run.deliver sink call).run s = (.ok (), { s with calls := s.calls.push call }) := by
      simp only [Run.deliver, hsink]
    rw [hs]
    exact .ok rfl ⟨hb.source, hb.slots, hcalls⟩
  · rw [Run.run_deliver_of_raises hsink]
    refine .broken (Nat.lt_of_not_le fun hle => ?_)
    rw [hcalls, takes _ hle] at hsink
    cases hsink

theorem inStep_within_run (options : Options) (takes : sink.Takes n) :
    (within n).InStep Eq (Container.run sink options) (Container.run .quiet options) := by
  refine inStep_run (inStep_within_follows (Run.follows_ofReader _) none) (fun rawLength => ?_) ?_
  · refine inStep_readRaw rawLength (inStep_within_follows Run.follows_readSizes none) ?_
    intro table index
    exact inStep_readEvent (inStep_within_follows (Run.follows_readRecord options table) index)
      (inStep_within_deliver takes)
  · exact inStep_readRest (inStep_within_follows (Run.follows_ofReader _) none)
      (inStep_within_follows (Run.follows_ofReader _) none)
      fun entries => inStep_within_deliver takes (.metadata entries)

end Comparison

namespace Container

open Reader

variable {options : Options} {data : Bytes} {sink : Sink} {told : List Call} {t : Source}

/-- A run is the same for all sinks that take the calls it makes. -/
theorem decodeBytes_of_takes
    (takes : sink.Takes (decodeBytes .quiet options data).2.calls.size) :
    (decodeBytes sink options data).1 = (decodeBytes .quiet options data).1 ∧
      (decodeBytes sink options data).2.Alike (decodeBytes .quiet options data).2 := by
  have hagree := Comparison.inStep_within_run options takes { source := .ofBytes data } _
    ⟨rfl, rfl, rfl⟩
  rw [← decodeBytes_eq_run, ← decodeBytes_eq_run] at hagree
  generalize decodeBytes sink options data = x, decodeBytes .quiet options data = y at hagree ⊢
  cases hagree with
  | ok related beside => exact ⟨congrArg Except.ok related, beside⟩
  | error beside => exact ⟨rfl, beside⟩
  | broken broken => exact absurd broken (Nat.lt_irrefl _)

/-- Decoding the data comes to a place with the last of the given calls to make and the others
made. The call is about the event or about the metadata map that ends at the place. -/
inductive TellsAt (options : Options) (data : Bytes) : List Call → Source → Prop where
  | event {rawLength : Nat} {s mid t : Source} {entries : List (UInt8 × UInt16)}
    {events : List Event} {calls : List Call} {slots after : Slots} {event : Event} {call : Call}
    (head : readHead.run (.ofBytes data) = (.ok rawLength, s))
    (taken : RawTaken options rawLength s mid entries events calls slots)
    (goesOn : (Progress.after (.ofEntries entries) events).goesOn rawLength = true)
    (fits : event.Fits (SizeRecord.ofEntries entries).table)
    (left : mid.left = event.bytes ++ t.left) (source : t = mid.skip event.bytes.length)
    (decoded : event.Decodes options slots (some call) after) :
    TellsAt options data (calls ++ [call]) t
  | metadata {rawLength : Nat} {s mid t : Source} {entries : List (UInt8 × UInt16)}
    {events : List Event} {calls : List Call} {slots : Slots} {tree : List (String × Tree)}
    (head : readHead.run (.ofBytes data) = (.ok rawLength, s))
    (taken : RawTaken options rawLength s mid entries events calls slots)
    (stops : ¬(Progress.after (.ofEntries entries) events).goesOn rawLength = true)
    (met : (rawLength : Int) ≠ 0 →
      (Event.lengthAfter (.ofEntries entries) events : Int) = rawLength)
    (metadata : readMetadata.run mid = (.ok tree, t)) :
    TellsAt options data (calls ++ [.metadata tree]) t

/-- Each call that some events give rise to is made behind one of them. -/
theorem exists_tellsAt_of_taken {rawLength : Nat} {s mid : Source}
    {entries : List (UInt8 × UInt16)} {events : List Event} {calls : List Call} {slots : Slots}
    {n : Nat} (head : readHead.run (.ofBytes data) = (.ok rawLength, s))
    (taken : RawTaken options rawLength s mid entries events calls slots)
    (hn : 1 ≤ n) (hle : n ≤ calls.length) : ∃ t, TellsAt options data (calls.take n) t := by
  induction events using List.reverseRecOn generalizing mid calls slots with
  | nil =>
    have hd := taken.passed.decoded
    cases hd
    exact absurd (Nat.le_trans hn hle) (by decide)
  | append_singleton events event ih =>
    obtain ⟨early, before, call, hp, hg, hf, hd, rfl⟩ := taken.passed.of_concat
    have hl := taken.left
    rw [List.flatMap_append, List.flatMap_singleton, ← List.append_assoc, List.append_assoc] at hl
    have htaken := RawTaken.of_left taken.few hp hl
    by_cases hearly : n ≤ early.length
    · rw [List.take_append_of_le_length hearly]
      exact ih htaken hearly
    · rw [List.length_append] at hle
      cases call with
      | none => exact absurd hle hearly
      | some call =>
        rw [List.take_of_length_le]
        · have hleft := List.append_cancel_left (htaken.left.symm.trans hl)
          refine ⟨_, .event head htaken hg hf ?_ rfl hd⟩
          rw [Source.left_skip_of_append hleft, hleft]
        · rw [List.length_append]
          exact Nat.lt_of_not_le hearly

/-- Behind the raw stream the metadata is told as soon as it is read. -/
theorem calls_readRest (s : Session) :
    ((readRest .quiet).run s).2.calls =
      match (readMetadata.run s.source).1 with
      | .ok tree => s.calls.push (.metadata tree)
      | .error _ => s.calls := by
  rcases hr : readMetadata.run s.source with ⟨e | tree, u⟩
  · rw [readRest, Decoder.run_bind, Run.run_ofReader_of_error hr none]
  · rw [readRest, Decoder.run_bind_of_ok (Run.run_ofReader_of_ok hr none),
      Decoder.run_bind_of_ok (Run.run_deliver_quiet _ _), Decoder.run_annotated]
    rcases hend : (Run.ofReader (Reader.expect epilogue)).run _ with ⟨_ | _, v⟩ <;>
      exact (Run.ofReader_run hend).2.2

/-- Each call of a raw stream is made at some place, whether the stream is read or not. -/
theorem exists_tellsAt_of_readRaw {rawLength : Nat} {u v : Session} {r : Except Failure Nat}
    {n : Nat} (head : readHead.run (.ofBytes data) = (.ok rawLength, u.source))
    (untold : u.calls = #[]) (h : (Run.readRaw .quiet options rawLength).run u = (r, v))
    (hn : 1 ≤ n) (hle : n ≤ v.calls.size) :
    ∃ t, TellsAt options data (v.calls.toList.take n) t := by
  have of_taken : ∀ {mid : Source} {entries : List (UInt8 × UInt16)} {events : List Event}
      {calls : List Call} {slots : Slots},
      RawTaken options rawLength u.source mid entries events calls slots →
      v.calls.toList = u.calls.toList ++ calls →
      ∃ t, TellsAt options data (v.calls.toList.take n) t := by
    intro mid entries events calls slots taken told
    rw [← Array.length_toList, told, untold] at hle
    rw [told, untold]
    exact exists_tellsAt_of_taken head taken hn hle
  cases r with
  | ok length =>
    obtain ⟨entries, events, calls, slots, hb, -⟩ := Run.readRaw_ok h
    exact of_taken hb.toRawTaken hb.calls
  | error e =>
    cases Run.readRaw_quiet_error h with
    | sizes _ told =>
      rw [told, untold] at hle
      exact absurd (Nat.le_trans hn hle) (Nat.not_succ_le_zero 0)
    | event taken _ _ told => exact of_taken taken told
    | length behind => exact of_taken behind.toRawTaken behind.calls

/-- Each call of a run is made at some place. -/
theorem exists_tellsAt {n : Nat} (hn : 1 ≤ n)
    (hle : n ≤ (decodeBytes .quiet options data).2.calls.size) :
    ∃ t, TellsAt options data ((decodeBytes .quiet options data).2.calls.toList.take n) t := by
  let start : Session := { source := .ofBytes data }
  rcases head : readHead.run (.ofBytes data) with ⟨e | rawLength, s⟩
  · have hcalls : (decodeBytes .quiet options data).2.calls = #[] := by
      rw [decodeBytes_eq_run, run, Decoder.run_bind,
        Run.run_ofReader_of_error (s := start) head none]
    rw [hcalls] at hle
    exact absurd (Nat.le_trans hn hle) (Nat.not_succ_le_zero 0)
  obtain ⟨u, rfl, untold, hrun⟩ := run_of_head (s := start) .quiet options head
  rw [decodeBytes_eq_run, hrun, Decoder.run_bind] at hle ⊢
  rcases hraw : (Run.readRaw .quiet options rawLength).run u with ⟨e | length, v⟩ <;>
    rw [hraw] at hle
  · exact exists_tellsAt_of_readRaw head untold hraw hn hle
  dsimp only at hle ⊢
  rw [calls_readRest] at hle ⊢
  rcases hmeta : readMetadata.run v.source with ⟨e | tree, w⟩ <;> rw [hmeta] at hle
  · exact exists_tellsAt_of_readRaw head untold hraw hn hle
  dsimp only at hle ⊢
  rw [Array.size_push] at hle
  rw [Array.toList_push]
  rcases Nat.lt_or_eq_of_le hle with hearly | rfl
  · have hearly := Nat.le_of_lt_succ hearly
    rw [List.take_append_of_le_length hearly]
    exact exists_tellsAt_of_readRaw head untold hraw hn hearly
  · obtain ⟨entries, events, calls, slots, hb, hg, rfl, hmet⟩ := Run.readRaw_ok hraw
    have hsize : (v.calls.toList ++ [Call.metadata tree]).length ≤ v.calls.size + 1 := by
      rw [List.length_append, Array.length_toList, List.length_singleton]
    have hall : (v.calls.toList ++ [Call.metadata tree]).take (v.calls.size + 1) =
        calls ++ [.metadata tree] := by
      rw [List.take_of_length_le hsize, hb.calls, untold]
      rfl
    exact ⟨w, hall ▸ .metadata head hb.toRawTaken hg hmet hmeta⟩

/-- Metadata whose call the sink raises in has been read, and nothing more. -/
theorem run_readRest_of_raises {s : Session} {x : Failure} {tree : List (String × Tree)}
    (h : readMetadata.run s.source = (.ok tree, t))
    (raises : sink (s.calls.toList ++ [Call.metadata tree]).toArray = some x) :
    (readRest sink).run s =
      (.error x, { s with source := t, calls := s.calls.push (.metadata tree) }) := by
  rw [← List.push_toArray, Array.toArray_toList] at raises
  rw [readRest, Decoder.run_bind_of_ok (Run.run_ofReader_of_ok h none), Decoder.run_bind,
    Run.run_deliver_of_raises (s := { s with source := t }) raises]

/-- Where a sink that has taken the calls before raises in the last one, a run fails with what was
raised, and has come to the place of the call. -/
theorem TellsAt.decodeBytes_of_raises {x : Failure} (h : TellsAt options data told t)
    (takes : sink.Takes (told.length - 1)) (raises : sink told.toArray = some x) :
    ∃ u, decodeBytes sink options data = (.error x, u) ∧ u.source = t ∧
      u.calls.toList = told := by
  let start : Session := { source := .ofBytes data }
  cases h with
  | event head taken goesOn fits left source decoded =>
    rw [List.length_append, List.length_singleton, Nat.add_sub_cancel] at takes
    obtain ⟨u, rfl, untold, hrun⟩ := run_of_head (s := start) sink options head
    obtain ⟨v, hr, hv, hcalls⟩ := Run.run_readRaw_of_raises
      (by rw [untold]; exact takes.mono (Nat.le_of_eq (Nat.zero_add _)))
      (inMemory_of_head head) taken goesOn fits left decoded (by rw [untold]; exact raises)
    rw [untold] at hcalls
    refine ⟨v, hrun.trans ?_, hv.trans source.symm, hcalls⟩
    rw [Decoder.run_bind, hr]
  | metadata head taken stops met metadata =>
    rw [List.length_append, List.length_singleton, Nat.add_sub_cancel] at takes
    obtain ⟨u, rfl, untold, hrun⟩ := run_of_head (s := start) sink options head
    obtain ⟨v, hr, rfl, hcalls⟩ := Run.run_readRaw_of_takes
      (by rw [untold]; exact takes.mono (Nat.le_of_eq (Nat.zero_add _)))
      (inMemory_of_head head) taken stops met
    rw [untold] at hcalls
    have hrest := run_readRest_of_raises metadata (by rw [hcalls]; exact raises)
    refine ⟨_, hrun.trans ((Decoder.run_bind_of_ok hr _).trans hrest), rfl, ?_⟩
    dsimp only
    rw [Array.toList_push, hcalls]
    rfl

/-- Failures of the sink. A sink that raises in its `n`th call is never noticed if fewer calls are
made. Otherwise just the first `n` calls are made, what was raised comes out as it is, and the
source has been taken from up to the end of the event or the metadata map that the call is about. -/
theorem decodeBytes_raising (options : Options) (data : Bytes) {n : Nat} (hn : 1 ≤ n)
    (x : Failure) :
    ((decodeBytes .quiet options data).2.calls.size < n →
      (decodeBytes (.raising n x) options data).1 = (decodeBytes .quiet options data).1 ∧
        (decodeBytes (.raising n x) options data).2.calls =
          (decodeBytes .quiet options data).2.calls ∧
        (decodeBytes (.raising n x) options data).2.source =
          (decodeBytes .quiet options data).2.source) ∧
    (n ≤ (decodeBytes .quiet options data).2.calls.size →
      (∃ t, TellsAt options data ((decodeBytes .quiet options data).2.calls.toList.take n) t) ∧
      ∀ t, TellsAt options data ((decodeBytes .quiet options data).2.calls.toList.take n) t →
        (decodeBytes (.raising n x) options data).1 = .error x ∧
          (decodeBytes (.raising n x) options data).2.calls.toList =
            (decodeBytes .quiet options data).2.calls.toList.take n ∧
          (decodeBytes (.raising n x) options data).2.source = t) := by
  constructor
  · intro hlt
    obtain ⟨hresult, halike⟩ := decodeBytes_of_takes (Sink.takes_raising hlt x)
    exact ⟨hresult, halike.calls, halike.source⟩
  · intro hle
    refine ⟨exists_tellsAt hn hle, fun t ht => ?_⟩
    have hlength : ((decodeBytes .quiet options data).2.calls.toList.take n).length = n :=
      List.length_take_of_le hle
    obtain ⟨u, hr, hu, hcalls⟩ := ht.decodeBytes_of_raises
      (Sink.takes_raising (n := n) (by omega) x) (if_pos hlength)
    rw [hr]
    exact ⟨rfl, hcalls, hu⟩

/-- Of the two calls for this replay the sink raises in the first, behind the event that ends the
game, in the second, before the closing brace, or in none. The error gets no place. -/
theorem decodeBytes_raising_endedAtOnce :
    (decodeBytes .quiet {} endedAtOnce.bytes).2.calls.size = 2 ∧
      (decodeBytes (.raising 1 (.ofCause (.port 9))) {} endedAtOnce.bytes).1 =
        .error (.ofCause (.port 9)) ∧
      (decodeBytes (.raising 1 (.ofCause (.port 9))) {} endedAtOnce.bytes).2.source.taken = 22 ∧
      (decodeBytes (.raising 2 (.ofCause (.port 9))) {} endedAtOnce.bytes).1 =
        .error (.ofCause (.port 9)) ∧
      (decodeBytes (.raising 2 (.ofCause (.port 9))) {} endedAtOnce.bytes).2.source.taken = 34 ∧
      (decodeBytes (.raising 3 (.ofCause (.port 9))) {} endedAtOnce.bytes).1 =
        (decodeBytes .quiet {} endedAtOnce.bytes).1 := by
  have hsize : (decodeBytes .quiet {} endedAtOnce.bytes).2.calls.size = 2 := by decide +kernel
  have hraising := fun n hn =>
    decodeBytes_raising {} endedAtOnce.bytes (n := n) hn (.ofCause (.port 9))
  obtain ⟨⟨t, ht⟩, hfirst⟩ := (hraising 1 (by decide)).2 (by omega)
  obtain ⟨⟨u, hu⟩, hsecond⟩ := (hraising 2 (by decide)).2 (by omega)
  exact ⟨hsize, (hfirst t ht).1, by decide +kernel, (hsecond u hu).1, by decide +kernel,
    ((hraising 3 (by decide)).1 (by omega)).1⟩

end Container

end Replay
