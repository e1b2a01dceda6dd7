import Replay.Proofs.AskedReads

/-!
Sources that are not data in memory: one read may give fewer bytes than it is asked for, and from
some position on every read may fail. A run from such a source is the run from memory up to the
first read that does not get what it gets there. It fails in that read, and nothing is made of the
bytes that came too few.
-/

namespace Replay

namespace Failure

theorem annotate_none (f : Failure) : f.annotate none none = f := by
  cases f with
  | decode error => simp [annotate, DecodeError.annotate]
  | outside => rfl
  | silent => rfl

/-- A place that has been filled in stays, and what is missing of it is filled in later. -/
theorem annotate_annotate (f : Failure) (event event' offset : Option Int) {offset' : Option Int}
    (h : offset = none ∨ offset = offset') :
    (f.annotate event offset).annotate event' offset' =
      f.annotate (event <|> event') offset' := by
  cases f with
  | decode error =>
    have hevent : ((error.event <|> event) <|> event') =
        (error.event <|> (event <|> event')) := by
      cases error.event <;> rfl
    have hoffset : ((error.offset <|> offset) <|> offset') = (error.offset <|> offset') := by
      rcases h with rfl | rfl
      · cases error.offset <;> rfl
      · cases error.offset
        · cases offset <;> rfl
        · rfl
    simp only [annotate, DecodeError.annotate, hevent, hoffset]
  | outside => rfl
  | silent => rfl

end Failure

/-- The most that one read gives, and the position from which on every read fails, and with what. -/
structure Unsteadiness where
  chunk : Option Nat
  fault : Option (Nat × Failure)

namespace Unsteadiness

variable (u : Unsteadiness)

def source (s : Source) : Source :=
  { s with chunk := u.chunk, fault := u.fault }

def session (s : Session) : Session :=
  { s with source := u.source s.source }

/-- What is raised by the read. -/
def raises? (ask : Ask) : Option Failure :=
  match u.fault with
  | some (position, x) => if position ≤ ask.position then some x else none
  | none => none

/-- How many bytes the read gets if nothing is raised. -/
def got (ask : Ask) : Nat :=
  min (min ask.size (u.chunk.getD ask.size)) ask.left

/-- The read raises something, or gets fewer bytes than it gets from memory. -/
def differs (ask : Ask) : Bool :=
  (u.raises? ask).isSome || decide (u.got ask < min ask.size ask.left)

/-- How many bytes have been taken when the read is over. -/
def stop (ask : Ask) : Nat :=
  if (u.raises? ask).isSome then ask.position else ask.position + u.got ask

/-- What a read that differs fails with, but for the place. -/
def bareFailure (ask : Ask) : Failure :=
  match u.raises? ask, ask.field with
  | some x, none => x
  | some _, some path => .ofCause (.failedField path ask.size)
  | none, none => .ofCause (.shortBlock ask.size (u.got ask))
  | none, some path => .ofCause (.shortField path ask.size (u.got ask))

def failure (ask : Ask) : Failure :=
  (u.bareFailure ask).annotate ask.event (if ask.isPlaced then some (u.stop ask : Int) else none)

/-- A field that cannot be read, and a block of which too few bytes come, are truncated. -/
theorem bareFailure_truncated {ask : Ask} (h : ask.field.isSome = true ∨ u.raises? ask = none) :
    ∃ cause : Cause, cause.errorClass = .truncatedInput ∧
      u.bareFailure ask = .ofCause cause := by
  unfold bareFailure
  cases hfield : ask.field with
  | none =>
    rw [h.resolve_left (by simp [hfield])]
    exact ⟨_, rfl, rfl⟩
  | some path =>
    cases u.raises? ask with
    | none => exact ⟨_, rfl, rfl⟩
    | some x => exact ⟨_, rfl, rfl⟩

theorem bareFailure_raised {ask : Ask} {x : Failure} (hfield : ask.field = none)
    (hraises : u.raises? ask = some x) : u.bareFailure ask = x := by
  rw [bareFailure, hraises, hfield]

/-- Nothing differs where as many bytes come as are asked for, and nothing is raised. -/
theorem differs_eq_false {ask : Ask} (hsize : ∀ n, u.chunk = some n → ask.size ≤ n)
    (hposition : ∀ position x, u.fault = some (position, x) → ask.position < position) :
    u.differs ask = false := by
  have hraises : u.raises? ask = none := by
    unfold raises?
    cases hfault : u.fault with
    | none => rfl
    | some fault =>
      exact if_neg (Nat.not_le_of_lt (hposition fault.1 fault.2 hfault))
  have hgot : u.got ask = min ask.size ask.left := by
    unfold got
    cases hchunk : u.chunk with
    | none => rw [Option.getD_none, Nat.min_self]
    | some n => rw [Option.getD_some, Nat.min_eq_left (hsize n hchunk)]
  simp [differs, hraises, hgot]

section Read

variable {u} {s : Source} {n : Nat} {field : Option (List String)}

theorem fault?_source : (u.source s).fault? = u.raises? (.ofSource field n s) := rfl

theorem length_upTo_source : ((u.source s).upTo n).length = u.got (.ofSource field n s) :=
  List.length_take

/-- A read that does not differ gets what it gets from memory. -/
theorem read_source (hs : s.InMemory) (h : u.differs (.ofSource field n s) = false) :
    (u.source s).read n = ((s.read n).1, u.source (s.read n).2) := by
  rw [differs, Bool.or_eq_false_iff, Option.isSome_eq_false_iff, Option.isNone_iff_eq_none,
    decide_eq_false_iff_not] at h
  obtain ⟨hraises, hgot⟩ := h
  have hupTo : (u.source s).upTo n = s.left.take n := by
    refine List.take_eq_take_iff.mpr ?_
    change ¬min (min n (u.chunk.getD n)) s.left.length < min n s.left.length at hgot
    change min (min n (u.chunk.getD n)) s.left.length = min n s.left.length
    omega
  have hsilent : (u.source s).silentEnd = false := hs.silentEnd
  rw [hs.read, Source.read, fault?_source, hraises, hupTo]
  simp only [hsilent, Bool.false_and, Bool.false_eq_true, ↓reduceIte, List.length_take]
  rfl

/-- A read that differs raises something, or gets fewer bytes than it is asked for. -/
theorem read_source_of_differs (hs : s.InMemory) (h : u.differs (.ofSource field n s) = true) :
    ∃ t, t.taken = u.stop (.ofSource field n s) ∧ t.tells = s.tells ∧
      ((∃ x, u.raises? (.ofSource field n s) = some x ∧ (u.source s).read n = (.fault x, t)) ∨
        (u.raises? (.ofSource field n s) = none ∧ ∃ bytes : Bytes,
          bytes.length = u.got (.ofSource field n s) ∧ bytes.length ≠ n ∧
            (u.source s).read n = (.bytes bytes, t))) := by
  cases hraises : u.raises? (.ofSource field n s) with
  | some x =>
    refine ⟨u.source s, ?_, rfl, .inl ⟨x, rfl, ?_⟩⟩
    · rw [stop, hraises]
      rfl
    · rw [Source.read, fault?_source, hraises]
  | none =>
    have hsilent : (u.source s).silentEnd = false := hs.silentEnd
    have hlength : ((u.source s).upTo n).length = u.got (.ofSource field n s) := length_upTo_source
    refine ⟨(u.source s).skip ((u.source s).upTo n).length, ?_, rfl,
      .inr ⟨rfl, (u.source s).upTo n, hlength, ?_, ?_⟩⟩
    · rw [stop, hraises, hlength]
      rfl
    · rw [differs, hraises, Option.isSome_none, Bool.false_or, decide_eq_true_iff] at h
      have hle : min n s.left.length ≤ n := Nat.min_le_left ..
      change u.got (.ofSource field n s) < min n s.left.length at h
      omega
    · rw [Source.read, fault?_source, hraises]
      simp only [hsilent, Bool.false_and, Bool.false_eq_true, ↓reduceIte]

/-- A block that does not differ is read as from memory. -/
theorem run_block_source (hs : s.InMemory) (h : u.differs (.ofSource none n s) = false) :
    (Reader.block n).run (u.source s) =
      (((Reader.block n).run s).1, u.source ((Reader.block n).run s).2) := by
  rw [Reader.run_block, Reader.run_block, read_source hs h]
  split
  · rfl
  · rcases s.read n with ⟨_ | _ | _, _⟩ <;> rfl

/-- A block that differs fails, with what was raised if anything was. -/
theorem run_block_source_error (hn : n ≠ 0) (hs : s.InMemory)
    (h : u.differs (.ofSource none n s) = true) :
    ∃ t, (Reader.block n).run (u.source s) = (.error (u.bareFailure (.ofSource none n s)), t) ∧
      t.taken = u.stop (.ofSource none n s) ∧ t.tells = s.tells := by
  obtain ⟨t, hstop, htells, hread⟩ := read_source_of_differs hs h
  refine ⟨t, ?_, hstop, htells⟩
  rw [Reader.run_block, if_neg hn, bareFailure]
  rcases hread with ⟨x, hraises, hread⟩ | ⟨hraises, bytes, hlength, hne, hread⟩
  · rw [hread, hraises]
    rfl
  · rw [hread, hraises]
    dsimp only
    rw [if_neg hne, hlength]
    rfl

/-- A field that does not differ is read as from memory. -/
theorem run_field_source {path : List String} (hs : s.InMemory)
    (h : u.differs (.ofSource (some path) n s) = false) :
    (Layout.readBlock path n).run (u.source s) =
      (((Layout.readBlock path n).run s).1, u.source ((Layout.readBlock path n).run s).2) := by
  rw [Layout.run_readBlock, Layout.run_readBlock, read_source hs h]
  rcases s.read n with ⟨_ | _ | _, _⟩ <;> rfl

/-- A field that differs fails, whatever was raised. -/
theorem run_field_source_error {path : List String} (hs : s.InMemory)
    (h : u.differs (.ofSource (some path) n s) = true) :
    ∃ t, (Layout.readBlock path n).run (u.source s) =
        (.error (u.bareFailure (.ofSource (some path) n s)), t) ∧
      t.taken = u.stop (.ofSource (some path) n s) ∧ t.tells = s.tells := by
  obtain ⟨t, hstop, htells, hread⟩ := read_source_of_differs hs h
  refine ⟨t, ?_, hstop, htells⟩
  rw [Layout.run_readBlock, bareFailure]
  rcases hread with ⟨x, hraises, hread⟩ | ⟨hraises, bytes, hlength, hne, hread⟩
  · rw [hread, hraises]
    rfl
  · rw [hread, hraises]
    dsimp only
    rw [if_neg hne, hlength]
    rfl

end Read

/-- A run does from the unsteady source what it does from memory if none of its reads differs, and
otherwise fails in the first of them that does. -/
structure Tracks {α : Type} (d : Run α) (s : Session) (asks : List Ask) : Prop where
  same : asks.find? u.differs = none → d.run (u.session s) = ((d.run s).1, u.session (d.run s).2)
  first : ∀ ask, asks.find? u.differs = some ask →
    ∃ t, d.run (u.session s) = (.error (u.failure ask), t) ∧
      t.source.offset = some (u.stop ask : Int) ∧ t.ToldUpTo (d.run s).2

/-- The session reads from memory, and its source can say how far it is. -/
structure Steady (s : Session) : Prop where
  inMemory : s.source.InMemory
  tells : s.source.tells = true

theorem Steady.run {α : Type} {d : Run α} {s t : Session} {r : Except Failure α} (h : Steady s)
    (hr : d.run s = (r, t)) : Steady t := by
  have hreach := d.reaches s
  rw [hr] at hreach
  refine ⟨h.inMemory.reaches hreach, ?_⟩
  obtain ⟨n, -, hn⟩ := hreach
  change t.source = s.source.skip n at hn
  rw [hn]
  exact h.tells

namespace Tracks

variable {u} {α β : Type} {d : Run α} {s t : Session} {asks : List Ask}

theorem silent (h : d.Silent) (s : Session) : u.Tracks d s [] where
  same _ := by
    have hkept : (d.run s).2.source = s.source :=
      congrArg (fun run => run.2.source) (h.source s s.source)
    rw [session, h.source s, session, hkept]
  first ask hask := by cases hask

theorem bind {f : α → Run β} {a : α} {early late : List Ask} (h : u.Tracks d s early)
    (ok : d.run s = (.ok a, t)) (hf : u.Tracks (f a) t late)
    (told : t.ToldUpTo ((f a).run t).2) : u.Tracks (d >>= f) s (early ++ late) := by
  constructor
  · intro hnone
    rw [List.find?_append, Option.or_eq_none_iff] at hnone
    have hsame := h.same hnone.1
    rw [ok] at hsame
    rw [Decoder.run_bind_of_ok hsame, Decoder.run_bind_of_ok ok]
    exact hf.same hnone.2
  · intro ask hask
    rw [Decoder.run_bind_of_ok ok]
    rw [List.find?_append, Option.or_eq_some_iff] at hask
    rcases hask with hask | ⟨hnone, hask⟩
    · obtain ⟨v, hrun, hoffset, htold⟩ := h.first ask hask
      rw [ok] at htold
      refine ⟨v, ?_, hoffset, htold.trans told⟩
      rw [Decoder.run_bind, hrun]
    · have hsame := h.same hnone
      rw [ok] at hsame
      rw [Decoder.run_bind_of_ok hsame]
      exact hf.first ask hask

theorem bind_error (f : α → Run β) {e : Failure} (h : u.Tracks d s asks)
    (error : d.run s = (.error e, t)) : u.Tracks (d >>= f) s asks := by
  have hbind : (d >>= f).run s = (.error e, t) := by rw [Decoder.run_bind, error]
  constructor
  · intro hnone
    have hsame := h.same hnone
    rw [error] at hsame
    rw [Decoder.run_bind, hsame, hbind]
  · intro ask hask
    obtain ⟨v, hrun, hoffset, htold⟩ := h.first ask hask
    rw [error] at htold
    refine ⟨v, ?_, hoffset, ?_⟩
    · rw [Decoder.run_bind, hrun]
    · rwa [hbind]

theorem annotated (h : u.Tracks d s asks) (event : Option Int) :
    u.Tracks (d.annotated event) s (asks.map (Ask.place event)) := by
  have hfind : (asks.map (Ask.place event)).find? u.differs =
      (asks.find? u.differs).map (Ask.place event) := List.find?_map
  constructor
  · intro hnone
    rw [hfind, Option.map_eq_none_iff] at hnone
    rw [Decoder.run_annotated, Decoder.run_annotated, h.same hnone]
    rcases d.run s with ⟨_ | _, _⟩ <;> rfl
  · intro ask hask
    rw [hfind] at hask
    obtain ⟨ask', hask', rfl⟩ := Option.map_eq_some_iff.mp hask
    obtain ⟨v, hrun, hoffset, htold⟩ := h.first ask' hask'
    refine ⟨v, ?_, hoffset, by rwa [Decoder.snd_run_annotated]⟩
    rw [Decoder.run_annotated, hrun]
    dsimp only
    rw [show (Feed.source v).offset = some (u.stop ask' : Int) from hoffset, failure,
      Failure.annotate_annotate]
    · rfl
    · split
      · exact .inr rfl
      · exact .inl rfl

theorem onFreshSlots (h : u.Tracks d { s with slots := .initial } asks) :
    u.Tracks (Run.onFreshSlots d) s asks := by
  constructor
  · intro hnone
    have hsame := h.same hnone
    change ((d.run (u.session { s with slots := .initial })).1,
      { (d.run (u.session { s with slots := .initial })).2 with slots := s.slots }) = _
    rw [hsame]
    rfl
  · intro ask hask
    obtain ⟨v, hrun, hoffset, htold⟩ := h.first ask hask
    refine ⟨{ v with slots := s.slots }, ?_, hoffset, htold⟩
    change ((d.run (u.session { s with slots := .initial })).1,
      { (d.run (u.session { s with slots := .initial })).2 with slots := s.slots }) = _
    rw [hrun]

/-- A reader that makes one read, or one block of it. -/
theorem ofReader {reader : Reader Bytes} {ask : Ask} (hplaced : ask.isPlaced = false)
    (hevent : ask.event = none) (tells : s.source.tells = true)
    (same : u.differs ask = false → reader.run (u.source s.source) =
      ((reader.run s.source).1, u.source (reader.run s.source).2))
    (fails : u.differs ask = true → ∃ v, reader.run (u.source s.source) =
      (.error (u.bareFailure ask), v) ∧ v.taken = u.stop ask ∧ v.tells = s.source.tells) :
    u.Tracks (Run.ofReader reader) s [ask] := by
  constructor
  · intro hnone
    have hdiffers : u.differs ask = false := by simpa using hnone
    change ((reader.run (u.source s.source)).1,
      { s with source := (reader.run (u.source s.source)).2 }) = _
    rw [same hdiffers]
    rfl
  · intro ask' hask
    obtain ⟨hdiffers, rfl⟩ : u.differs ask = true ∧ ask = ask' := by
      simpa [List.find?_singleton] using hask
    obtain ⟨v, hrun, hstop, htells⟩ := fails hdiffers
    refine ⟨{ s with source := v }, ?_, ?_, ?_⟩
    · rw [failure, hplaced, hevent]
      change ((reader.run (u.source s.source)).1,
        { s with source := (reader.run (u.source s.source)).2 }) = _
      rw [hrun]
      exact congrArg (fun f => (Except.error f, _)) (Failure.annotate_none _).symm
    · rw [← hstop]
      exact if_pos (htells.trans tells)
    · exact Run.tells_ofReader reader s

end Tracks

end Unsteadiness

/-- A run tells no less than what was told before it. -/
theorem Run.Asks.told {α : Type} {d : Run α} {s : Session} {asks : List Ask}
    (h : Run.Asks d s asks) : s.ToldUpTo (d.run s).2 := by
  induction h with
  | silent s h => exact h.tells s
  | block n s => exact Run.tells_ofReader _ s
  | field path n s => exact Run.tells_ofReader _ s
  | bind _ ok _ ih ihrest =>
    rw [ok] at ih
    rw [Decoder.run_bind_of_ok ok]
    exact ih.trans ihrest
  | bind_error f _ error ih =>
    rw [error] at ih
    rwa [Decoder.run_bind, error]
  | annotated event _ ih => rwa [Decoder.snd_run_annotated]
  | onFreshSlots _ ih => exact ih

theorem Run.Asks.tracks (u : Unsteadiness) {α : Type} {d : Run α} {s : Session} {asks : List Ask}
    (h : Run.Asks d s asks) (hs : Unsteadiness.Steady s) : u.Tracks d s asks := by
  induction h with
  | silent s h => exact .silent h s
  | block n s hn =>
    exact .ofReader rfl rfl hs.tells (Unsteadiness.run_block_source hs.inMemory)
      (Unsteadiness.run_block_source_error hn hs.inMemory)
  | field path n s =>
    exact .ofReader rfl rfl hs.tells (Unsteadiness.run_field_source hs.inMemory)
      (Unsteadiness.run_field_source_error hs.inMemory)
  | bind _ ok rest ih ihrest => exact (ih hs).bind ok (ihrest (hs.run ok)) rest.told
  | bind_error f _ error ih => exact (ih hs).bind_error f error
  | annotated event _ ih => exact (ih hs).annotated event
  | onFreshSlots _ ih => exact (ih ⟨hs.inMemory, hs.tells⟩).onFreshSlots

namespace Container

variable {u : Unsteadiness} {sink : Sink} {options : Options} {data : Bytes} {asks : List Ask}

/-- A source over the data that falls short of memory. It need not say how far it is. -/
def unsteady (u : Unsteadiness) (tells : Bool) (data : Bytes) : Source where
  left := data
  chunk := u.chunk
  fault := u.fault
  tells := tells

/-- A run counts by itself what it takes. -/
theorem counted_unsteady (u : Unsteadiness) (tells : Bool) (data : Bytes) :
    (unsteady u tells data).counted = u.source (.ofBytes data) := by
  rw [unsteady, Source.counted]
  cases hfault : u.fault with
  | none => simp [Unsteadiness.source, Source.ofBytes, hfault]
  | some fault => simp [Unsteadiness.source, Source.ofBytes, hfault]

theorem decode_unsteady_eq (sink : Sink) (options : Options) (u : Unsteadiness) (tells : Bool)
    (data : Bytes) : decode sink options (unsteady u tells data) =
      (run sink options).run (u.session { source := .ofBytes data }) := by
  rw [decode, counted_unsteady]
  rfl

/-- The two runs have told the sink the same and ended alike. -/
def SameOutcome (run run' : Except Failure Unit × Session) : Prop :=
  run.1 = run'.1 ∧ run.2.calls = run'.2.calls

/-- Unsteady sources. The reads that a run asks of data in memory tell what it does from a source
over the same data that gives at most so many bytes in one read, or fails from some position on.
If none of the reads differs, it does the same. Otherwise it tells the sink only what the run from
memory tells it too, and fails in the first read that differs: for want of bytes if that is a read of
a field, or if it gets too few; and with what was raised if it is the read of a block, but for its
place. No read differs from a source that gives as many bytes as any of them asks for, and that does
not fail at any of their positions. -/
theorem decode_unsteady (sink : Sink) (options : Options) (data : Bytes) :
    (∃ asks, Run.Asks (run sink options) { source := .ofBytes data } asks ∧
      ∀ ask ∈ asks, ask.isPlaced = true) ∧
    ∀ asks, Run.Asks (run sink options) { source := .ofBytes data } asks →
      (∀ ask ∈ asks, ask.isPlaced = true) → ∀ (u : Unsteadiness) (tells : Bool),
        (asks.find? u.differs = none →
          SameOutcome (decode sink options (unsteady u tells data))
            (decodeBytes sink options data)) ∧
        (∀ ask, asks.find? u.differs = some ask →
          (decode sink options (unsteady u tells data)).2.calls.toList <+:
            (decodeBytes sink options data).2.calls.toList ∧
          (decode sink options (unsteady u tells data)).2.source.offset =
            some (u.stop ask : Int) ∧
          (ask.field.isSome = true ∨ u.raises? ask = none →
            ∃ cause : Cause, cause.errorClass = .truncatedInput ∧
              (decode sink options (unsteady u tells data)).1 =
                .error (.decode { cause, offset := some (u.stop ask : Int), event := ask.event })) ∧
          ∀ x, ask.field = none → u.raises? ask = some x →
            (decode sink options (unsteady u tells data)).1 =
              .error (x.annotate ask.event (some (u.stop ask : Int)))) ∧
        ((∀ n, u.chunk = some n → ∀ ask ∈ asks, ask.size ≤ n) →
          (∀ position x, u.fault = some (position, x) → ∀ ask ∈ asks, ask.position < position) →
            SameOutcome (decode sink options (unsteady u tells data))
              (decodeBytes sink options data)) := by
  refine ⟨placed_run sink options _, ?_⟩
  intro asks hasks hplaced u tells
  have hsteady : Unsteadiness.Steady { source := .ofBytes data } :=
    ⟨Source.inMemory_ofBytes data, rfl⟩
  obtain ⟨hsame, hfirst⟩ := hasks.tracks u hsteady
  rw [decode_unsteady_eq, decodeBytes_eq_run]
  have hnone : asks.find? u.differs = none →
      SameOutcome ((run sink options).run (u.session { source := .ofBytes data }))
        ((run sink options).run { source := .ofBytes data }) := by
    intro h
    rw [hsame h]
    exact ⟨rfl, rfl⟩
  refine ⟨hnone, ?_, ?_⟩
  · intro ask hask
    obtain ⟨t, hrun, hoffset, htold⟩ := hfirst ask hask
    have hfailure : u.failure ask = (u.bareFailure ask).annotate ask.event (some (u.stop ask)) := by
      rw [Unsteadiness.failure, if_pos (hplaced ask (List.mem_of_find?_eq_some hask))]
    rw [hrun, hfailure]
    refine ⟨htold, hoffset, ?_, ?_⟩
    · intro htruncated
      obtain ⟨cause, hclass, hbare⟩ := u.bareFailure_truncated htruncated
      rw [hbare]
      exact ⟨cause, hclass, rfl⟩
    · intro x hfield hraises
      rw [u.bareFailure_raised hfield hraises]
  · intro hsize hposition
    refine hnone (List.find?_eq_none.mpr fun ask hask => ?_)
    rw [u.differs_eq_false (fun n hn => hsize n hn ask hask)
      fun position x hx => hposition position x hx ask hask]
    exact Bool.false_ne_true

/-- A replay of unknown length whose game end is longer than all that is read in front of it. -/
def longEnd : Parts where
  rawLength := 0
  entries := [(0x39, 12)]
  events := [⟨0x39, [2, 0xFF, 0, 1, 2, 3, 0, 0, 0, 0, 0, 0]⟩]
  metadata := [0x7D]

theorem sound_longEnd :
    longEnd.Sound {} [.gameEnd ⟨⟨2⟩, some ⟨-1, some #v[0, 1, 2, 3]⟩⟩] [] where
  few := by decide
  listed := by decide
  unended := by decide
  ended _ := by decide
  length h0 := absurd rfl h0
  decoded := by
    have hend : Event.Decodes {} .initial ⟨0x39, [2, 0xFF, 0, 1, 2, 3, 0, 0, 0, 0, 0, 0]⟩
        (some (.gameEnd ⟨⟨2⟩, some ⟨-1, some #v[0, 1, 2, 3]⟩⟩)) .initial :=
      .gameEnd rfl rfl
    exact ⟨.initial, .cons hend (.nil _)⟩
  metadata := ⟨_, readMap_empty, rfl⟩

/-- Twelve bytes in one read are enough. With fewer the payload of the event comes short. What is
raised in the payload leaves with its place, and what is raised in front of it, at the code of the
event, gives way to a truncation. -/
theorem decode_unsteady_longEnd :
    (decode .quiet {} (unsteady ⟨some 12, none⟩ false longEnd.bytes)).1 = .ok () ∧
    (∃ cause : Cause, cause.errorClass = .truncatedInput ∧
      (decode .quiet {} (unsteady ⟨some 11, none⟩ false longEnd.bytes)).1 =
        .error (.decode { cause, offset := some 32, event := some 0 })) ∧
    (∃ cause : Cause, cause.errorClass = .truncatedInput ∧
      (decode .quiet {} (unsteady ⟨none, some (20, .ofCause (.port 9))⟩ false longEnd.bytes)).1 =
        .error (.decode { cause, offset := some 20, event := some 0 })) ∧
    (decode .quiet {} (unsteady ⟨none, some (21, .ofCause (.port 9))⟩ false longEnd.bytes)).1 =
      .error (.decode { cause := .port 9, offset := some 21, event := some 0 }) := by
  let s : Source := .ofBytes longEnd.bytes
  let asks : List Ask := longEnd.asks [.ofValue 1 (s.skip 44)] s
  have hs : s.InMemory := Source.inMemory_ofBytes _
  have hasks : Run.Asks (run .quiet {}) { source := s } asks := by
    refine asks_of_sound hs sound_longEnd (List.append_nil _).symm fun t ht => ?_
    have hleft : t.source.left = [0x7D, 0x7D] := by
      rw [ht]
      rfl
    have htm : t.source.InMemory := ht ▸ ((hs.skip _).skip _).skip _
    have hmap := asks_readMap_empty htm hleft
    rwa [ht] at hmap
  have hplaced : ∀ ask ∈ asks, ask.isPlaced = true := by decide
  have hunsteady := (decode_unsteady .quiet {} longEnd.bytes).2 asks hasks hplaced
  refine ⟨?_, ?_, ?_, ?_⟩
  · obtain ⟨t, hrun, -⟩ := decodeBytes_of_sound sound_longEnd (List.append_nil _).symm
    have hsame := ((hunsteady ⟨some 12, none⟩ false).1 rfl).1
    rwa [hrun] at hsame
  · exact ((hunsteady ⟨some 11, none⟩ false).2.1 _ rfl).2.2.1 (.inr rfl)
  · exact ((hunsteady ⟨none, some (20, .ofCause (.port 9))⟩ false).2.1 _ rfl).2.2.1 (.inl rfl)
  · exact ((hunsteady ⟨none, some (21, .ofCause (.port 9))⟩ false).2.1 _ rfl).2.2.2 _ rfl rfl

end Container

end Replay
