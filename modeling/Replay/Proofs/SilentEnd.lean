import Replay.Proofs.ErrorPlace
import Replay.Proofs.Truncation
import Replay.Proofs.UnsteadySource

/-!
Sources that do not answer at the end of their data. A plain block takes no answer for no bytes, so
a run fails there as it does in memory. A field does not, and a run that comes to the end in front
of a field fails with no decoding error at all. Apart from that it does the same.
-/

namespace Replay

/-- A read of a field that a source with nothing left does not answer. -/
def Ask.isUnanswered (ask : Ask) : Bool :=
  ask.field.isSome && decide (ask.size ≠ 0) && decide (ask.left = 0)

/-- What a field fails with in memory if nothing is left for it. -/
def Ask.failureAtEnd (ask : Ask) : Failure :=
  (Failure.ofCause (.shortField (ask.field.getD []) ask.size 0)).annotate ask.event
    (if ask.isPlaced then some (ask.position : Int) else none)

/-- The same source, but at the end of the data it does not answer. -/
def Source.silenced (s : Source) : Source :=
  { s with silentEnd := true }

def Session.silenced (s : Session) : Session :=
  { s with source := s.source.silenced }

namespace Source

variable {s : Source} {n : Nat} {path : List String}

theorem InMemory.read_silenced (hs : s.InMemory) (h : n = 0 ∨ s.left ≠ []) :
    s.silenced.read n = ((s.read n).1, (s.read n).2.silenced) := by
  have hfault : s.silenced.fault? = none := by simp only [fault?, silenced, hs.fault]
  have hupTo : s.silenced.upTo n = s.left.take n := by simp [upTo, silenced, hs.chunk]
  have hasked : (s.silenced.silentEnd && s.silenced.left.isEmpty && n != 0) = false := by
    rcases h with rfl | h
    · simp
    · simp [silenced, h]
  rw [hs.read, Source.read, hfault, hasked, hupTo, List.length_take]
  rfl

theorem InMemory.read_silenced_end (hs : s.InMemory) (hn : n ≠ 0) (hl : s.left = []) :
    s.silenced.read n = (.nothing, s.silenced) ∧ s.read n = (.bytes [], s) := by
  have hfault : s.silenced.fault? = none := by simp only [fault?, silenced, hs.fault]
  constructor
  · rw [Source.read, hfault]
    simp [silenced, hl, hn]
  · rw [hs.read, hl, List.take_nil, List.length_nil, Nat.min_zero, skip_zero]

/-- A plain block fails at the end whether there is an answer or not. -/
theorem InMemory.run_block_silenced (hs : s.InMemory) (n : Nat) :
    (Reader.block n).run s.silenced =
      (((Reader.block n).run s).1, ((Reader.block n).run s).2.silenced) := by
  rw [Reader.run_block, Reader.run_block]
  by_cases h : n = 0 ∨ s.left ≠ []
  · rw [hs.read_silenced h]
    split
    · rfl
    · rcases s.read n with ⟨_ | _ | _, _⟩ <;> rfl
  · obtain ⟨hn, hl⟩ := not_or.mp h
    obtain ⟨hsilent, hread⟩ := hs.read_silenced_end hn (Decidable.not_not.mp hl)
    rw [hsilent, hread, if_neg hn, if_neg hn]
    dsimp only
    rw [List.length_nil, if_neg (Ne.symm hn)]

theorem isUnanswered_ofSource_iff :
    (Ask.ofSource (some path) n s).isUnanswered = true ↔ n ≠ 0 ∧ s.left = [] := by
  rw [Ask.isUnanswered, Bool.and_eq_true, Bool.and_eq_true, decide_eq_true_iff, decide_eq_true_iff]
  simp [Ask.ofSource]

theorem InMemory.run_field_silenced (hs : s.InMemory)
    (h : (Ask.ofSource (some path) n s).isUnanswered = false) :
    (Layout.readBlock path n).run s.silenced =
      (((Layout.readBlock path n).run s).1, ((Layout.readBlock path n).run s).2.silenced) := by
  have hanswered : n = 0 ∨ s.left ≠ [] := by
    refine Decidable.or_iff_not_imp_left.mpr fun hn hl => ?_
    rw [isUnanswered_ofSource_iff.mpr ⟨hn, hl⟩] at h
    cases h
  rw [Layout.run_readBlock, Layout.run_readBlock, hs.read_silenced hanswered]
  rcases s.read n with ⟨_ | _ | _, _⟩ <;> rfl

theorem InMemory.run_field_silenced_end (hs : s.InMemory)
    (h : (Ask.ofSource (some path) n s).isUnanswered = true) :
    (Layout.readBlock path n).run s.silenced = (.error .silent, s.silenced) ∧
      (Layout.readBlock path n).run s = (.error (.ofCause (.shortField path n 0)), s) := by
  obtain ⟨hn, hl⟩ := isUnanswered_ofSource_iff.mp h
  obtain ⟨hsilent, hread⟩ := hs.read_silenced_end hn hl
  rw [Layout.run_readBlock, Layout.run_readBlock, hsilent, hread]
  refine ⟨rfl, ?_⟩
  dsimp only
  rw [List.length_nil, if_neg (Ne.symm hn)]

end Source

/-- What comes of an annotated decoder that fails. -/
theorem Decoder.annotated_of_error {σ α : Type} [Feed σ] {d : Decoder σ α} {s : σ} {e : Failure}
    (h : (d.run s).1 = .error e) (event : Option Int) : ((d.annotated event).run s).1 =
      .error (e.annotate event (Feed.source (d.run s).2).offset) := by
  rw [run_annotated]
  rcases hr : d.run s with ⟨f | _, t⟩
  · rw [hr] at h
    cases h
    rfl
  · rw [hr] at h
    cases h

/-- A run from the silenced source comes to where it comes from memory, with the same result unless
a field is not answered. That one ends both runs. -/
structure Silences {α : Type} (d : Run α) (s : Session) (asks : List Ask) : Prop where
  state : (d.run s.silenced).2 = (d.run s).2.silenced
  same : asks.find? Ask.isUnanswered = none → (d.run s.silenced).1 = (d.run s).1
  first : ∀ ask, asks.find? Ask.isUnanswered = some ask →
    (d.run s.silenced).1 = .error .silent ∧ (d.run s).1 = .error ask.failureAtEnd ∧
      (d.run s).2.source.offset = some (ask.position : Int) ∧ (d.run s).2.source.left = []

namespace Silences

variable {α β : Type} {d : Run α} {s t : Session} {asks : List Ask}

theorem silent (h : d.Silent) (s : Session) : Silences d s [] := by
  have hkept : (d.run s).2.source = s.source :=
    congrArg (fun run => run.2.source) (h.source s s.source)
  have hrun : d.run s.silenced = ((d.run s).1, (d.run s).2.silenced) := by
    rw [Session.silenced, h.source s, Session.silenced, hkept]
  exact ⟨by rw [hrun], fun _ => by rw [hrun], nofun⟩

/-- Behind a result, nothing has been left unanswered. -/
theorem run_of_ok (h : Silences d s asks) {a : α} (ok : d.run s = (.ok a, t)) :
    asks.find? Ask.isUnanswered = none ∧ d.run s.silenced = (.ok a, t.silenced) := by
  have hnone : asks.find? Ask.isUnanswered = none := by
    rcases hfind : asks.find? Ask.isUnanswered with _ | ask
    · rfl
    · have herror := (h.first ask hfind).2.1
      rw [ok] at herror
      cases herror
  refine ⟨hnone, Prod.ext ?_ ?_⟩
  · rw [h.same hnone, ok]
  · rw [h.state, ok]

/-- A failure stays one, be it another one. -/
theorem run_of_error (h : Silences d s asks) {e : Failure} (error : d.run s = (.error e, t)) :
    ∃ f, d.run s.silenced = (.error f, t.silenced) := by
  have hstate : (d.run s.silenced).2 = t.silenced := by rw [h.state, error]
  rcases hfind : asks.find? Ask.isUnanswered with _ | ask
  · exact ⟨e, Prod.ext (by rw [h.same hfind, error]) hstate⟩
  · exact ⟨.silent, Prod.ext (h.first ask hfind).1 hstate⟩

theorem bind {f : α → Run β} {a : α} {early late : List Ask} (h : Silences d s early)
    (ok : d.run s = (.ok a, t)) (hf : Silences (f a) t late) :
    Silences (d >>= f) s (early ++ late) := by
  obtain ⟨hnone, hrun⟩ := h.run_of_ok ok
  constructor
  · rw [Decoder.run_bind_of_ok hrun, Decoder.run_bind_of_ok ok]
    exact hf.state
  · rw [List.find?_append, hnone, Option.none_or, Decoder.run_bind_of_ok hrun,
      Decoder.run_bind_of_ok ok]
    exact hf.same
  · rw [List.find?_append, hnone, Option.none_or, Decoder.run_bind_of_ok hrun,
      Decoder.run_bind_of_ok ok]
    exact hf.first

theorem bind_error (f : α → Run β) {e : Failure} (h : Silences d s asks)
    (error : d.run s = (.error e, t)) : Silences (d >>= f) s asks := by
  obtain ⟨e', hrun⟩ := h.run_of_error error
  have hbind : (d >>= f).run s = (.error e, t) := by rw [Decoder.run_bind, error]
  have hbind' : (d >>= f).run s.silenced = (.error e', t.silenced) := by
    rw [Decoder.run_bind, hrun]
  obtain ⟨-, hsame, hfirst⟩ := h
  rw [hrun, error] at hsame hfirst
  refine ⟨by rw [hbind, hbind'], ?_, ?_⟩
  · rw [hbind, hbind']
    exact fun hnone => congrArg Except.error (Except.error.inj (hsame hnone))
  · rw [hbind, hbind']
    intro ask hask
    obtain ⟨hsilent, herror, hend⟩ := hfirst ask hask
    exact ⟨congrArg Except.error (Except.error.inj hsilent),
      congrArg Except.error (Except.error.inj herror), hend⟩

theorem annotated (h : Silences d s asks) (event : Option Int) :
    Silences (d.annotated event) s (asks.map (Ask.place event)) := by
  have hfind : (asks.map (Ask.place event)).find? Ask.isUnanswered =
      (asks.find? Ask.isUnanswered).map (Ask.place event) := List.find?_map
  constructor
  · rw [Decoder.snd_run_annotated, Decoder.snd_run_annotated]
    exact h.state
  · rw [hfind, Option.map_eq_none_iff]
    intro hnone
    rw [Decoder.run_annotated, Decoder.run_annotated,
      show d.run s.silenced = ((d.run s).1, (d.run s).2.silenced) from
        Prod.ext (h.same hnone) h.state]
    rcases d.run s with ⟨_ | _, _⟩ <;> rfl
  · intro ask hask
    rw [hfind] at hask
    obtain ⟨ask', hask', rfl⟩ := Option.map_eq_some_iff.mp hask
    obtain ⟨hsilent, herror, hoffset, hleft⟩ := h.first ask' hask'
    rw [Decoder.annotated_of_error hsilent, Decoder.annotated_of_error herror,
      Decoder.snd_run_annotated]
    refine ⟨rfl, ?_, hoffset, hleft⟩
    rw [show (Feed.source (d.run s).2).offset = some (ask'.position : Int) from hoffset,
      Ask.failureAtEnd, Failure.annotate_annotate]
    · rfl
    · split
      · exact .inr rfl
      · exact .inl rfl

theorem onFreshSlots (h : Silences d { s with slots := .initial } asks) :
    Silences (Run.onFreshSlots d) s asks where
  state := congrArg (fun t : Session => { t with slots := s.slots }) h.state
  same := h.same
  first := h.first

/-- A reader that makes one read, which is answered unless it is a field at the end. -/
theorem ofReader {reader : Reader Bytes} {ask : Ask}
    (answered : ask.isUnanswered = false → reader.run s.source.silenced =
      ((reader.run s.source).1, (reader.run s.source).2.silenced))
    (unanswered : ask.isUnanswered = true →
      reader.run s.source.silenced = (.error .silent, s.source.silenced) ∧
        reader.run s.source = (.error ask.failureAtEnd, s.source) ∧
          s.source.offset = some (ask.position : Int) ∧ s.source.left = []) :
    Silences (Run.ofReader reader) s [ask] := by
  have hrun : (Run.ofReader reader).run s.silenced = ((reader.run s.source.silenced).1,
      { s with source := (reader.run s.source.silenced).2 }) := rfl
  constructor
  · rcases hask : ask.isUnanswered
    · rw [hrun, answered hask]
      rfl
    · obtain ⟨hsilent, hread, -⟩ := unanswered hask
      rw [hrun, hsilent, Run.run_ofReader_eq hread]
      rfl
  · intro hnone
    have hanswered : ask.isUnanswered = false := by simpa using hnone
    rw [hrun, answered hanswered]
    rfl
  · intro ask' hask
    obtain ⟨hasked, rfl⟩ : ask.isUnanswered = true ∧ ask = ask' := by
      simpa [List.find?_singleton] using hask
    obtain ⟨hsilent, hread, hend⟩ := unanswered hasked
    rw [hrun, hsilent, Run.run_ofReader_eq hread]
    exact ⟨rfl, rfl, hend⟩

end Silences

theorem Run.Asks.silences {α : Type} {d : Run α} {s : Session} {asks : List Ask}
    (h : Run.Asks d s asks) (hs : Unsteadiness.Steady s) : Silences d s asks := by
  induction h with
  | silent s h => exact .silent h s
  | block n s hn => exact .ofReader (fun _ => hs.inMemory.run_block_silenced n) nofun
  | field path n s =>
    refine .ofReader hs.inMemory.run_field_silenced fun hask => ?_
    obtain ⟨hsilent, hread⟩ := hs.inMemory.run_field_silenced_end hask
    exact ⟨hsilent, hread, if_pos hs.tells, (Source.isUnanswered_ofSource_iff.mp hask).2⟩
  | bind _ ok _ ih ihrest => exact (ih hs).bind ok (ihrest (hs.run ok))
  | bind_error f _ error ih => exact (ih hs).bind_error f error
  | annotated event _ ih => exact (ih hs).annotated event
  | onFreshSlots _ ih => exact (ih ⟨hs.inMemory, hs.tells⟩).onFreshSlots

namespace Container

/-- A source over the data that does not answer at its end. It need not say how far it is. -/
def silentAtEnd (tells : Bool) (data : Bytes) : Source where
  left := data
  silentEnd := true
  tells := tells

theorem decode_silentAtEnd_eq (sink : Sink) (options : Options) (tells : Bool) (data : Bytes) :
    decode sink options (silentAtEnd tells data) =
      (run sink options).run (Session.silenced { source := .ofBytes data }) := rfl

/-- Sources that do not answer at their end. The reads that a run asks of data in memory tell what
it does from such a source over the same data. It makes the same calls, and takes the same bytes. If
no field is read where nothing is left, it ends alike. Otherwise it fails in that read, but with no
decoding error: from memory it fails there too, for want of the bytes of the field, at the end of
the data, and in the event that the read belongs to. -/
theorem decode_silentAtEnd (sink : Sink) (options : Options) (data : Bytes) :
    (∃ asks, Run.Asks (run sink options) { source := .ofBytes data } asks ∧
      ∀ ask ∈ asks, ask.isPlaced = true) ∧
    ∀ asks, Run.Asks (run sink options) { source := .ofBytes data } asks →
      (∀ ask ∈ asks, ask.isPlaced = true) → ∀ tells : Bool,
        (decode sink options (silentAtEnd tells data)).2.calls =
            (decodeBytes sink options data).2.calls ∧
        (decode sink options (silentAtEnd tells data)).2.source.taken =
            (decodeBytes sink options data).2.source.taken ∧
        (asks.find? Ask.isUnanswered = none →
          (decode sink options (silentAtEnd tells data)).1 = (decodeBytes sink options data).1) ∧
        ∀ ask, asks.find? Ask.isUnanswered = some ask →
          (decode sink options (silentAtEnd tells data)).1 = .error .silent ∧
          ∃ path, ask.field = some path ∧ (decodeBytes sink options data).1 =
            .error (.decode {
              cause := .shortField path ask.size 0
              offset := some (data.length : Int)
              event := ask.event }) := by
  refine ⟨placed_run sink options _, ?_⟩
  intro asks hasks hplaced tells
  have hsteady : Unsteadiness.Steady { source := .ofBytes data } :=
    ⟨Source.inMemory_ofBytes data, rfl⟩
  obtain ⟨hstate, hsame, hfirst⟩ := hasks.silences hsteady
  rw [← decodeBytes_eq_run] at hstate hsame hfirst
  rw [decode_silentAtEnd_eq, hstate]
  refine ⟨rfl, rfl, hsame, fun ask hask => ?_⟩
  obtain ⟨hsilent, herror, hoffset, hleft⟩ := hfirst ask hask
  have hunanswered := List.find?_some hask
  rw [Ask.isUnanswered, Bool.and_eq_true, Bool.and_eq_true] at hunanswered
  obtain ⟨path, hfield⟩ := Option.isSome_iff_exists.mp hunanswered.1.1
  have hposition : (ask.position : Int) = data.length := by
    have htaken := (offset_decodeBytes sink options data).1
    rw [hoffset, taken_decodeBytes hleft] at htaken
    exact Option.some.inj htaken
  refine ⟨hsilent, path, hfield, ?_⟩
  rw [herror, Ask.failureAtEnd, hfield, if_pos (hplaced ask (List.mem_of_find?_eq_some hask)),
    hposition]
  rfl

/-- Where the data ends in front of the declared length, which is a field. -/
theorem decode_silentAtEnd_rawPrologue :
    (decode .quiet {} (silentAtEnd false rawPrologue)).1 = .error .silent ∧
      (decodeBytes .quiet {} rawPrologue).1 =
        .error (.decode { cause := .shortField [] 4 0, offset := some 11, event := none }) := by
  let s : Session := { source := .ofBytes rawPrologue }
  let asks : List Ask := [.ofSource none 11 s.source, .ofValue 4 (s.source.skip 11)]
  have hleft : s.source.left = rawPrologue ++ [] := (List.append_nil _).symm
  have hhead : Run.Asks (Run.ofReader readHead) s asks :=
    asks_readHead (Source.inMemory_ofBytes _) hleft
  have hasks : Run.Asks (run .quiet {}) s (asks.map (Ask.place none)) :=
    .bind_error _ (hhead.annotated none) rfl
  obtain ⟨hsilent, path, hfield, herror⟩ := ((decode_silentAtEnd .quiet {} rawPrologue).2 _ hasks
    (by simp [asks, Ask.place]) false).2.2.2 _ rfl
  cases hfield
  exact ⟨hsilent, herror⟩

/-- The two runs have told the sink the same, and they have both succeeded, or failed with decoding
errors of one class in one place. -/
def EndsAlike (run run' : Except Failure Unit × Session) : Prop :=
  run.2.calls = run'.2.calls ∧
    ((run.1 = .ok () ∧ run'.1 = .ok ()) ∨
      ∃ e e' : DecodeError, run.1 = .error (.decode e) ∧ run'.1 = .error (.decode e') ∧
        e.cause.errorClass = e'.cause.errorClass ∧ e.offset = e'.offset ∧ e.event = e'.event)

/-- A source that does not answer at its end may end a run otherwise than data in memory does. -/
theorem not_endsAlike_silentAtEnd :
    ¬EndsAlike (decode .quiet {} (silentAtEnd false rawPrologue))
      (decodeBytes .quiet {} rawPrologue) := by
  have hsilent : (decode .quiet {} (silentAtEnd false rawPrologue)).1 = .error .silent := rfl
  rintro ⟨-, ⟨hok, -⟩ | ⟨e, e', he, -⟩⟩
  · rw [hsilent] at hok
    cases hok
  · rw [hsilent] at he
    cases he

end Container

end Replay
