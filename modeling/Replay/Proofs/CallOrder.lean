import Replay.Proofs.Acceptance
import Replay.Proofs.FramePayload
import Replay.Proofs.Prediction

/-!
The order in which a sink is told things. Whatever the source and the sink do, and however a run
comes to its end, the calls about the game come first, then its end, and last the metadata, which is
read only behind a raw stream whose length adds up.
-/

namespace Replay

/-- The id names one of the four ports. -/
def FrameId.HasPort (id : FrameId) : Prop :=
  0 ≤ id.port ∧ id.port < 4

theorem FrameId.hasPort_of_slot {id : FrameId} {slot : Fin 8} (h : id.slot = .ok slot) :
    id.HasPort := by
  obtain ⟨hport, hslot⟩ := slot_ok h
  exact ⟨hport, by omega⟩

namespace Call

/-- Whether the call is made while a game goes on. -/
def isPlaying : Call → Bool
  | .gameStart _ | .framePre _ | .framePost _ => true
  | .gameEnd _ | .metadata _ => false

def isGameEnd : Call → Bool
  | .gameEnd _ => true
  | .gameStart _ | .framePre _ | .framePost _ | .metadata _ => false

/-- A call about a frame names a port, and is about the frame that its id gives. -/
def Addressed : Call → Prop
  | .framePre event => event.id.HasPort ∧ event.event.index = event.id.index
  | .framePost event => event.id.HasPort ∧ event.event.index = event.id.index
  | .gameStart _ | .gameEnd _ | .metadata _ => True

@[simp] theorem isPlaying_gameEnd (finish : End) : (gameEnd finish).isPlaying = false := rfl

@[simp] theorem isPlaying_metadata (entries : List (String × Tree)) :
    (metadata entries).isPlaying = false := rfl

theorem not_isGameEnd_of_isPlaying {call : Call} (h : call.isPlaying = true) :
    call.isGameEnd = false := by
  cases call with
  | gameEnd => cases h
  | metadata => cases h
  | gameStart => rfl
  | framePre => rfl
  | framePost => rfl

end Call

/-- What a run tells its sink: the calls while the game goes on, the end of the game, and the
metadata. -/
structure Telling where
  playing : List Call
  finish : Option End
  metadata : Option (List (String × Tree))
  isPlaying : ∀ call ∈ playing, call.isPlaying = true

namespace Telling

/-- The calls for the raw stream. -/
def streamCalls (told : Telling) : List Call :=
  told.playing ++ (told.finish.map Call.gameEnd).toList

/-- All calls, in their order. -/
def calls (told : Telling) : List Call :=
  told.streamCalls ++ (told.metadata.map Call.metadata).toList

/-- Once the game has ended, nothing more is told of it. -/
theorem pairwise_calls (told : Telling) :
    told.calls.Pairwise fun earlier later =>
      earlier.isGameEnd = true → later.isPlaying = false := by
  have hplaying : ∀ call ∈ told.playing, call.isGameEnd = false :=
    fun call hmem => Call.not_isGameEnd_of_isPlaying (told.isPlaying call hmem)
  have hbefore : told.playing.Pairwise fun earlier later =>
      earlier.isGameEnd = true → later.isPlaying = false := by
    refine List.pairwise_iff_forall_sublist.mpr fun hsub hend => ?_
    rw [hplaying _ (hsub.subset List.mem_cons_self)] at hend
    cases hend
  rcases hf : told.finish with _ | finish <;> rcases hm : told.metadata with _ | tree <;>
    simp [calls, streamCalls, hf, hm, List.pairwise_append, hbefore, or_imp, forall_and]

end Telling

theorem Pre.addressed_of_ofPayload {slots : Slots} {payload : Bytes} {event : FrameEvent Pre}
    (h : Pre.ofPayload slots payload = .ok event) : (Call.framePre event).Addressed := by
  obtain ⟨character, hpredict, -, -⟩ := Pre.ofPayload_ok h
  obtain ⟨slot, hslot, -⟩ := Slots.predict_ok hpredict
  obtain ⟨-, behind, -, rfl⟩ := Pre.ofPayload_ok_iff.mp h
  exact ⟨FrameId.hasPort_of_slot hslot, rfl⟩

theorem Post.addressed_of_ofPayload {slots after : Slots} {payload : Bytes}
    {event : FrameEvent Post} (h : Post.ofPayload slots payload = .ok (event, after)) :
    (Call.framePost event).Addressed := by
  obtain ⟨-, behind, -, rfl, hupdate⟩ := Post.ofPayload_ok_iff.mp h
  obtain ⟨slot, hslot, -⟩ := Slots.update_ok hupdate
  exact ⟨FrameId.hasPort_of_slot hslot, rfl⟩

/-- An event that ends the game tells just that; what any other event tells is about the game as it
goes on. -/
theorem Event.Decodes.tells {options : Options} {slots after : Slots} {event : Event}
    {call : Option Call} (h : event.Decodes options slots call after) :
    (event.kind = some .gameEnd ∧ ∃ finish, call = some (.gameEnd finish)) ∨
      (event.kind ≠ some .gameEnd ∧
        ∀ told ∈ call.toList, told.isPlaying = true ∧ told.Addressed) := by
  cases h with
  | unknown kind => exact .inr ⟨by simp [kind], by simp⟩
  | skipped _ frame => exact .inr ⟨by rcases frame with kind | kind <;> simp [kind], by simp⟩
  | gameStart kind => exact .inr ⟨by simp [kind], by simp [Call.isPlaying, Call.Addressed]⟩
  | gameEnd kind => exact .inl ⟨kind, _, rfl⟩
  | framePre _ kind decoded =>
    exact .inr ⟨by simp [kind], by simp [Call.isPlaying, Pre.addressed_of_ofPayload decoded]⟩
  | framePost _ kind decoded =>
    exact .inr ⟨by simp [kind], by simp [Call.isPlaying, Post.addressed_of_ofPayload decoded]⟩

/-- What the events of a run tell: the game as it goes on, and then its end if the last event ends
it. -/
theorem Passed.tells {options : Options} {rawLength : Int} {record : SizeRecord}
    {events : List Event} {calls : List Call} {slots : Slots}
    (h : Passed options rawLength record events calls slots) :
    ∃ told : Telling, told.metadata = none ∧ told.streamCalls = calls ∧
      (∀ call ∈ calls, call.Addressed) ∧ (told.finish.isSome = true ↔ Event.EndsGame events) := by
  induction events using List.reverseRecOn generalizing calls slots with
  | nil =>
    have hd := h.decoded
    cases hd
    exact ⟨⟨[], none, none, by simp⟩, rfl, rfl, by simp, by simp [Event.EndsGame]⟩
  | append_singleton events event ih =>
    obtain ⟨early, mid, call, hearly, hgoes, -, hd, rfl⟩ := h.of_concat
    obtain ⟨told, hmetadata, rfl, haddressed, hfinish⟩ := ih hearly
    -- The loop went on, so the events before have not ended the game.
    have hunended : told.finish = none := by
      have hnot := (Progress.goesOn_after_iff.mp hgoes).2
      rw [← hfinish] at hnot
      simpa using hnot
    have hplaying : told.streamCalls = told.playing := by simp [Telling.streamCalls, hunended]
    rw [hplaying] at haddressed ⊢
    rw [Event.endsGame_concat]
    rcases hd.tells with ⟨hkind, finish, rfl⟩ | ⟨hkind, htold⟩
    · refine ⟨{ told with finish := some finish }, hmetadata, rfl, ?_, by simp [hkind]⟩
      intro call hmem
      rcases List.mem_append.mp hmem with hmem | hmem
      · exact haddressed call hmem
      · rw [List.mem_singleton.mp hmem]
        trivial
    · refine ⟨⟨told.playing ++ call.toList, none, none, ?_⟩, rfl, ?_, ?_, by simp [hkind]⟩
      · intro call' hmem
        rcases List.mem_append.mp hmem with hmem | hmem
        · exact told.isPlaying call' hmem
        · exact (htold call' hmem).1
      · simp [Telling.streamCalls]
      · intro call' hmem
        rcases List.mem_append.mp hmem with hmem | hmem
        · exact haddressed call' hmem
        · exact (htold call' hmem).2

namespace Run

variable {sink : Sink} {options : Options} {rawLength : Int} {s t : Session}

/-- The calls of a raw stream that fails are those for some events of it. The last of them may be
the one that the sink raised in. -/
theorem readRaw_error_told {e : Failure}
    (h : (readRaw sink options rawLength).run s = (.error e, t)) :
    ∃ record events calls slots, Passed options rawLength record events calls slots ∧
      t.calls.toList = s.calls.toList ++ calls := by
  rcases readRaw_error h with ⟨f, -, hcalls, -⟩ | ⟨entries, events, calls, mid, hbehind, hfail⟩
  · exact ⟨⟨0, []⟩, [], [], _, .nil, by simp [hcalls]⟩
  · rcases hfail with ⟨u, hgoes, hevent, -, hcalls⟩ | ⟨-, -, -, -, hcalls, -⟩
    · rcases readEvent_error hevent with
        ⟨f, hrecord, -⟩ | ⟨record, v, call, hrecord, hcall, -, rfl⟩
      · obtain ⟨-, hcalls'⟩ := readRecord_error hrecord
        exact ⟨_, events, calls, _, hbehind.passed, by rw [hcalls, hcalls', hbehind.calls]⟩
      · obtain ⟨event, hfits, htakes, hcalls'⟩ := readRecord_ok hrecord
        have hpassed := hbehind.passed.concat hgoes hfits htakes.decoded
        refine ⟨_, _, _, _, hpassed, ?_⟩
        rw [hcalls, Array.toList_push, hcalls', hbehind.calls, hcall, List.append_assoc]
        rfl
    · exact ⟨_, events, calls, _, hbehind.passed, by rw [hcalls, hbehind.calls]⟩

/-- What a raw stream tells. Where it is read, all of it is behind the calls, and its bytes are as
many as declared, or end a game if no length is declared. -/
theorem readRaw_tells {result : Except Failure Nat}
    (h : (readRaw sink options rawLength).run s = (result, t)) :
    ∃ told : Telling, told.metadata = none ∧ t.calls.toList = s.calls.toList ++ told.streamCalls ∧
      (∀ call ∈ told.streamCalls, call.Addressed) ∧
      ∀ n, result = .ok n → ∃ entries events slots,
        RawTaken options rawLength s.source t.source entries events told.streamCalls slots ∧
        (rawLength ≠ 0 → (t.source.taken : Int) = s.source.taken + rawLength) ∧
        (rawLength = 0 → told.finish.isSome = true) := by
  cases result with
  | error e =>
    obtain ⟨record, events, calls, slots, hpassed, hcalls⟩ := readRaw_error_told h
    obtain ⟨told, hmetadata, rfl, haddressed, -⟩ := hpassed.tells
    exact ⟨told, hmetadata, hcalls, haddressed, by simp⟩
  | ok n =>
    obtain ⟨entries, events, calls, slots, hbehind, hstops, rfl, hlength⟩ := readRaw_ok h
    obtain ⟨told, hmetadata, rfl, haddressed, hfinish⟩ := hbehind.passed.tells
    refine ⟨told, hmetadata, hbehind.calls, haddressed, fun _ _ =>
      ⟨entries, events, slots, hbehind.toRawTaken, fun h0 => ?_, fun h0 => ?_⟩⟩
    · rw [hbehind.source, ← hlength h0]
      exact Int.natCast_add ..
    · rw [hfinish]
      by_contra hnot
      exact hstops (Progress.goesOn_after_iff.mpr ⟨.inl h0, hnot⟩)

end Run

namespace Container

variable {sink : Sink} {options : Options} {s t : Session}

/-- Behind the raw stream nothing is told unless the metadata is read, and then just that. -/
theorem readRest_told {result : Except Failure Unit}
    (h : (readRest sink).run s = (result, t)) :
    (t.calls = s.calls ∧ ∃ e, result = .error e) ∨
      ∃ tree u, readMetadata.run s.source = (.ok tree, u) ∧
        t.calls = s.calls.push (.metadata tree) := by
  rcases hmeta : readMetadata.run s.source with ⟨e | tree, u⟩
  · rw [readRest, Decoder.run_bind, Run.run_ofReader_of_error hmeta none] at h
    cases h
    exact .inl ⟨rfl, _, rfl⟩
  · rw [readRest, Decoder.run_bind_of_ok (Run.run_ofReader_of_ok hmeta none)] at h
    refine .inr ⟨tree, u, rfl, ?_⟩
    rcases hdeliver : (Run.deliver sink (.metadata tree)).run { s with source := u } with
      ⟨e | _, v⟩
    all_goals
      have hv : v.calls = s.calls.push (.metadata tree) :=
        congrArg (fun run => run.2.calls) hdeliver.symm
      rw [Decoder.run_bind, hdeliver] at h
    · cases h
      exact hv
    · have ht := congrArg Prod.snd h
      rw [Decoder.snd_run_annotated] at ht
      rw [← hv, ← show _ = t from ht]
      rfl

/-- A run that fails before its metadata is read tells no more than its raw stream does. -/
theorem told_of_readRaw {rawLength : Int} {read : Except Failure Nat} {u v : Session}
    {result : Except Failure Unit} (hraw : (Run.readRaw sink options rawLength).run u = (read, v))
    (h : (Run.readRaw sink options rawLength >>= fun _ => readRest sink).run u = (result, t)) :
    (t.calls = v.calls ∧ ∃ e, result = .error e) ∨
      ∃ n tree w, read = .ok n ∧ readMetadata.run v.source = (.ok tree, w) ∧
        t.calls = v.calls.push (.metadata tree) := by
  rw [Decoder.run_bind, hraw] at h
  cases read with
  | error e =>
    cases h
    exact .inl ⟨rfl, e, rfl⟩
  | ok n =>
    refine (readRest_told h).imp_right ?_
    rintro ⟨tree, w, hmeta, ht⟩
    exact ⟨n, tree, w, rfl, hmeta, ht⟩

/-- The order of calls. However a run from any source comes to its end, with any sink, it tells the
sink of the game as it goes on, then at most once of its end, then at most once the metadata, and
nothing of the game once that has ended. All frame events are about a port, and about the frame of
their id. The metadata is told only when it has been read behind a raw stream whose bytes were as
many as declared, or whose game end was told if no length is declared; and a run that succeeds has
told it. -/
theorem decode_tells_inOrder (sink : Sink) (options : Options) (source : Source) :
    ∃ told : Telling, (decode sink options source).2.calls.toList = told.calls ∧
      (told.calls.Pairwise fun earlier later =>
        earlier.isGameEnd = true → later.isPlaying = false) ∧
      (∀ call ∈ told.calls, call.Addressed) ∧
      (∀ tree, told.metadata = some tree →
        ∃ rawLength start mid after entries events slots,
          readHead.run source.counted = (.ok rawLength, start) ∧
          RawTaken options rawLength start mid entries events told.streamCalls slots ∧
          (rawLength ≠ 0 → mid.taken = start.taken + rawLength) ∧
          (rawLength = 0 → told.finish.isSome = true) ∧
          readMetadata.run mid = (.ok tree, after)) ∧
      ((decode sink options source).1 = .ok () → told.metadata.isSome = true) := by
  let s : Session := { source := source.counted }
  rcases hrun : (run sink options).run s with ⟨result, t⟩
  rw [show decode sink options source = (result, t) from hrun]
  rcases hhead : readHead.run s.source with ⟨e | rawLength, start⟩
  · rw [run, Decoder.run_bind, Run.run_ofReader_of_error hhead none] at hrun
    cases hrun
    exact ⟨⟨[], none, none, by simp⟩, rfl, .nil, by simp [Telling.calls, Telling.streamCalls],
      by simp, by simp⟩
  obtain ⟨u, rfl, hu, hgoes⟩ := run_of_head sink options hhead
  have hstart : u.calls = #[] := hu
  rw [hgoes] at hrun
  rcases hraw : (Run.readRaw sink options rawLength).run u with ⟨read, v⟩
  obtain ⟨told, hmetadata, hcalls, haddressed, hread⟩ := Run.readRaw_tells hraw
  rw [hstart, List.nil_append] at hcalls
  have hstream : told.calls = told.streamCalls := by simp [Telling.calls, hmetadata]
  rcases told_of_readRaw hraw hrun with ⟨ht, e, he⟩ | ⟨n, tree, w, rfl, hmeta, ht⟩
  · exact ⟨told, by rw [ht, hcalls, hstream], told.pairwise_calls, hstream ▸ haddressed,
      by simp [hmetadata], by simp [he]⟩
  · let whole : Telling := { told with metadata := some tree }
    have hwhole : whole.calls = told.streamCalls ++ [.metadata tree] := rfl
    refine ⟨whole, ?_, whole.pairwise_calls, ?_, ?_, by simp [whole]⟩
    · rw [hwhole, ht, Array.toList_push, hcalls]
    · rw [hwhole]
      intro call hmem
      rcases List.mem_append.mp hmem with hmem | hmem
      · exact haddressed call hmem
      · rw [List.mem_singleton.mp hmem]
        trivial
    · intro tree' htree
      cases htree
      obtain ⟨entries, events, slots, htaken, hdeclared, hundeclared⟩ := hread n rfl
      exact ⟨rawLength, u.source, v.source, w, entries, events, slots, rfl, htaken,
        fun h0 => Int.ofNat_inj.mp (hdeclared (by simpa using h0)),
        fun h0 => hundeclared (by simpa using h0), hmeta⟩

/-- The replay that ends at once declares no length, so its metadata is told behind a game end. -/
theorem decode_tells_inOrder_endedAtOnce :
    ∃ told : Telling,
      (decode .quiet {} (.ofBytes endedAtOnce.bytes)).2.calls.toList = told.calls ∧
      told.finish.isSome = true ∧ told.metadata.isSome = true := by
  obtain ⟨told, hcalls, -, -, hmetadata, hok⟩ :=
    decode_tells_inOrder .quiet {} (.ofBytes endedAtOnce.bytes)
  have hresult : (decode .quiet {} (.ofBytes endedAtOnce.bytes)).1 = .ok () := by
    obtain ⟨t, hrun, -⟩ :=
      decodeBytes_of_sound sound_endedAtOnce (List.append_nil endedAtOnce.bytes).symm
    exact congrArg Prod.fst hrun
  obtain ⟨tree, htree⟩ := Option.isSome_iff_exists.mp (hok hresult)
  obtain ⟨rawLength, start, _, _, _, _, _, hhead, -, -, hundeclared, -⟩ := hmetadata tree htree
  have hzero : (readHead.run (Source.ofBytes endedAtOnce.bytes).counted).1 = .ok 0 := rfl
  rw [hhead] at hzero
  exact ⟨told, hcalls, hundeclared (Except.ok.inj hzero), hok hresult⟩

end Container

end Replay
