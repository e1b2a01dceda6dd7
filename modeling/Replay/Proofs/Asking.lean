import Replay.Proofs.Lockstep

/-!
The reads that a run asks of its source, one after another. Each is of a field of a fixed layout or
of a plain block, and what a run asks for follows from the steps that it is made of: most of them do
not touch the source at all.
-/

namespace Replay

/-- One read, of a field or of a plain block. -/
structure Ask where
  /-- The names around the field, if it is one. -/
  field : Option (List String)
  size : Nat
  /-- How many bytes have been taken before. -/
  position : Nat
  /-- How many bytes are left. -/
  left : Nat
  /-- The event that the read belongs to. -/
  event : Option Int := none
  /-- Whether a failure of the read gets its place filled in. -/
  isPlaced : Bool := false

namespace Ask

def ofSource (field : Option (List String)) (size : Nat) (s : Source) : Ask where
  field
  size
  position := s.taken
  left := s.left.length

def place (event : Option Int) (ask : Ask) : Ask :=
  { ask with event := ask.event <|> event, isPlaced := true }

end Ask

theorem Decoder.rounds_eq {σ α β : Type} [Feed σ] (round : α → Decoder σ (α ⊕ β))
    (advances : Advances round) (a : α) :
    rounds round advances a = round a >>= fun
      | .inl b => rounds round advances b
      | .inr c => pure c := by
  refine Decoder.ext (funext fun s => ?_)
  rw [run_rounds, run_bind]
  rcases (round a).run s with ⟨_ | _ | _, _⟩ <;> rfl

/-- No event code has a negative size. -/
def SizeTable.Nonnegative (table : SizeTable) : Prop :=
  ∀ (code : UInt8) (size : Int), table.lookup code.toNat = some size → 0 ≤ size

theorem SizeRecord.nonnegative_ofEntries (entries : List (UInt8 × UInt16)) :
    (ofEntries entries).table.Nonnegative := by
  intro code size h
  rw [lookup_ofEntries] at h
  obtain ⟨size', -, rfl⟩ := Option.map_eq_some_iff.mp h
  exact Int.natCast_nonneg _

namespace Run

variable {α β : Type}

/-- A step that takes nothing from the source and does not look at it. -/
structure Silent (d : Run α) : Prop where
  source : ∀ (s : Session) (source : Source),
    d.run { s with source } = ((d.run s).1, { (d.run s).2 with source })
  tells : d.Tells

/-- What a run that starts at the given session asks of its source. -/
inductive Asks : {α : Type} → Run α → Session → List Ask → Prop where
  | silent {α : Type} {d : Run α} (s : Session) (h : d.Silent) : Asks d s []
  | block (n : Nat) (s : Session) (h : n ≠ 0) :
    Asks (ofReader (Reader.block n)) s [.ofSource none n s.source]
  | field (path : List String) (n : Nat) (s : Session) :
    Asks (ofReader (Layout.readBlock path n)) s [.ofSource (some path) n s.source]
  | bind {α β : Type} {d : Run α} {f : α → Run β} {s t : Session} {a : α} {early late : List Ask}
    (first : Asks d s early) (ok : d.run s = (.ok a, t)) (rest : Asks (f a) t late) :
    Asks (d >>= f) s (early ++ late)
  | bind_error {α β : Type} {d : Run α} (f : α → Run β) {s t : Session} {e : Failure}
    {early : List Ask} (first : Asks d s early) (error : d.run s = (.error e, t)) :
    Asks (d >>= f) s early
  | annotated {α : Type} {d : Run α} (event : Option Int) {s : Session} {asks : List Ask}
    (h : Asks d s asks) : Asks (d.annotated event) s (asks.map (Ask.place event))
  | onFreshSlots {α : Type} {d : Run α} {s : Session} {asks : List Ask}
    (h : Asks d { s with slots := .initial } asks) : Asks (onFreshSlots d) s asks

theorem Silent.pure (a : α) : Silent (pure a : Run α) :=
  ⟨fun _ _ => rfl, .pure a⟩

theorem Silent.fail (e : Failure) : Silent (Decoder.fail e : Run α) :=
  ⟨fun _ _ => rfl, Decoder.tells_of_calls fun _ => rfl⟩

theorem Silent.ofResult (r : Except Failure α) : Silent (Decoder.ofResult r : Run α) := by
  cases r with
  | ok a => exact .pure a
  | error e => exact .fail e

theorem Silent.note (n : Note) : Silent (note n) :=
  ⟨fun _ _ => rfl, tells_note n⟩

theorem Silent.slots : Silent slots :=
  ⟨fun _ _ => rfl, Decoder.tells_of_calls fun _ => rfl⟩

theorem Silent.setSlots (after : Slots) : Silent (setSlots after) :=
  ⟨fun _ _ => rfl, Decoder.tells_of_calls fun _ => rfl⟩

theorem Silent.deliver (sink : Sink) (call : Call) : Silent (deliver sink call) :=
  ⟨fun _ _ => rfl, tells_deliver sink call⟩

theorem Silent.ofReader_pure (a : α) : Silent (ofReader (Pure.pure a)) :=
  ⟨fun _ _ => rfl, tells_ofReader _⟩

theorem Silent.bind {d : Run α} {f : α → Run β} (h : d.Silent) (hf : ∀ a, (f a).Silent) :
    (d >>= f).Silent := by
  refine ⟨fun s source => ?_, h.tells.bind fun a => (hf a).tells⟩
  rw [Decoder.run_bind, Decoder.run_bind, h.source]
  rcases d.run s with ⟨_ | a, t⟩
  · rfl
  · exact (hf a).source t source

/-- A payload that has been taken is decoded without the source. -/
theorem silent_decodePayload (options : Options) (payload : Bytes) (kind : Option EventKind) :
    Silent (decodePayload options payload kind) := by
  cases kind with
  | none => exact .pure _
  | some kind =>
    exact Silent.slots.bind fun slots => (Silent.ofResult _).bind fun _ =>
      (Silent.setSlots _).bind fun _ => .pure _

/-- From everywhere, the run asks for reads that are all of the given kind. -/
def Asked (P : Ask → Prop) (d : Run α) : Prop :=
  ∀ s, ∃ asks, Asks d s asks ∧ ∀ ask ∈ asks, P ask

namespace Asked

variable {P : Ask → Prop} {d : Run α}

theorem silent (h : d.Silent) : Asked P d :=
  fun s => ⟨[], .silent s h, by simp⟩

/-- What comes next is asked for only behind results that there can be. -/
theorem bind_of_ok {f : α → Run β} (h : Asked P d)
    (hf : ∀ s a t, d.run s = (.ok a, t) → Asked P (f a)) : Asked P (d >>= f) := by
  intro s
  obtain ⟨early, hearly, hP⟩ := h s
  rcases hd : d.run s with ⟨e | a, t⟩
  · exact ⟨early, .bind_error f hearly hd, hP⟩
  · obtain ⟨late, hlate, hP'⟩ := hf s a t hd t
    refine ⟨early ++ late, .bind hearly hd hlate, ?_⟩
    intro ask hask
    rcases List.mem_append.mp hask with hask | hask
    · exact hP ask hask
    · exact hP' ask hask

theorem bind {f : α → Run β} (h : Asked P d) (hf : ∀ a, Asked P (f a)) : Asked P (d >>= f) :=
  h.bind_of_ok fun _ a _ _ => hf a

theorem rounds {round : α → Run (α ⊕ β)} (advances : Decoder.Advances round)
    (h : ∀ a, Asked P (round a)) (a : α) : Asked P (Decoder.rounds round advances a) := by
  intro s
  -- The rounds are as many as the loop makes.
  fun_induction Decoder.roundsFrom round advances a s with
  | case1 a s b t hb _ ih =>
    obtain ⟨early, hearly, hP⟩ := h a s
    obtain ⟨late, hlate, hP'⟩ := ih
    rw [Decoder.rounds_eq]
    refine ⟨early ++ late, .bind hearly hb hlate, ?_⟩
    intro ask hask
    rcases List.mem_append.mp hask with hask | hask
    · exact hP ask hask
    · exact hP' ask hask
  | case2 a s c t hc =>
    obtain ⟨early, hearly, hP⟩ := h a s
    rw [Decoder.rounds_eq]
    refine ⟨early ++ [], .bind hearly hc (.silent t (.pure c)), ?_⟩
    simpa using hP
  | case3 a s e t he =>
    obtain ⟨early, hearly, hP⟩ := h a s
    rw [Decoder.rounds_eq]
    exact ⟨early, .bind_error _ hearly he, hP⟩

/-- Under an annotation every read has its place. -/
theorem annotated (h : Asked P d) (event : Option Int) :
    Asked (fun ask => ask.isPlaced = true) (d.annotated event) := by
  intro s
  obtain ⟨asks, hasks, -⟩ := h s
  refine ⟨asks.map (Ask.place event), .annotated event hasks, ?_⟩
  intro ask hask
  obtain ⟨ask', -, rfl⟩ := List.mem_map.mp hask
  rfl

theorem onFreshSlots (h : Asked P d) : Asked P (onFreshSlots d) := by
  intro s
  obtain ⟨asks, hasks, hP⟩ := h { s with slots := .initial }
  exact ⟨asks, .onFreshSlots hasks, hP⟩

end Asked

theorem ofReader_bind (reader : Reader α) (next : α → Reader β) :
    ofReader (reader >>= next) = ofReader reader >>= fun a => ofReader (next a) := by
  refine Decoder.ext (funext fun s => ?_)
  simp only [ofReader, Decoder.run_bind]
  rcases reader.run s.source with ⟨_ | _, _⟩ <;> rfl

theorem run_ofReader_eq {reader : Reader α} {s : Session} {r : Except Failure α} {t : Source}
    (h : reader.run s.source = (r, t)) :
    (ofReader reader).run s = (r, { s with source := t }) := by
  simp only [ofReader, h]

theorem advances_ofReader {round : α → Reader (α ⊕ β)} (h : Decoder.Advances round) :
    Decoder.Advances fun a => ofReader (round a) := by
  intro a s b t hb
  have hsource := congrArg (fun run => run.2.source) hb
  have hresult := congrArg Prod.fst hb
  exact h a s.source b t.source (Prod.ext hresult hsource)

theorem ofReader_rounds (round : α → Reader (α ⊕ β)) (advances : Decoder.Advances round) (a : α) :
    ofReader (Decoder.rounds round advances a) =
      Decoder.rounds (fun a => ofReader (round a)) (advances_ofReader advances) a := by
  refine Decoder.ext (funext fun s => ?_)
  generalize hsource : s.source = source
  fun_induction Decoder.roundsFrom round advances a source generalizing s with
  | case1 a source b t hb _ ih =>
    subst hsource
    rw [Decoder.rounds_eq, ofReader_bind, Decoder.rounds_eq,
      Decoder.run_bind_of_ok (run_ofReader_eq hb), Decoder.run_bind_of_ok (run_ofReader_eq hb)]
    exact ih { s with source := t } rfl
  | case2 a source c t hc =>
    subst hsource
    rw [Decoder.rounds_eq, ofReader_bind, Decoder.rounds_eq,
      Decoder.run_bind_of_ok (run_ofReader_eq hc), Decoder.run_bind_of_ok (run_ofReader_eq hc)]
    rfl
  | case3 a source e t he =>
    subst hsource
    rw [Decoder.rounds_eq, ofReader_bind, Decoder.rounds_eq, Decoder.run_bind,
      Decoder.run_bind, run_ofReader_eq he]

/-- What a reader that is made of blocks and fields reads, a run asks for. -/
theorem asked_ofReader {reader : Reader α} (h : reader.Composed) :
    Asked (fun _ => True) (ofReader reader) := by
  induction h with
  | pure a => exact .silent (.ofReader_pure a)
  | reject cause _ => exact .silent ⟨fun _ _ => rfl, tells_ofReader _⟩
  | block n =>
    by_cases hn : n = 0
    · subst hn
      exact .silent (.ofReader_pure [])
    · exact fun s => ⟨_, .block n s hn, by simp⟩
  | field path size => exact fun s => ⟨_, .field path size s, by simp⟩
  | bind _ _ ih ihn =>
    rw [ofReader_bind]
    exact ih.bind ihn
  | rounds advances _ a ih =>
    rw [ofReader_rounds]
    exact .rounds _ ih a

theorem asked_readSizes : Asked (fun _ => True) readSizes :=
  (asked_ofReader SizeRecord.composed_reader).bind fun _ =>
    (Asked.silent (.note _)).bind fun _ => .silent (.pure _)

theorem asked_readRecord (options : Options) {table : SizeTable} (h : table.Nonnegative) :
    Asked (fun _ => True) (readRecord options table) := by
  refine (asked_ofReader (Reader.Composed.read _)).bind_of_ok fun s code t hcode => ?_
  obtain ⟨bytes, hreads, -⟩ := ofReader_ok (Reader.Composed.read _).framed hcode
  obtain ⟨b, -, rfl⟩ := Layout.reads_u8_iff.mp hreads
  refine (Asked.silent (.note _)).bind fun _ => ?_
  cases hsize : table.lookup b.toNat with
  | none => exact .silent (.fail _)
  | some size =>
    obtain ⟨n, rfl⟩ := Int.eq_ofNat_of_zero_le (h b size hsize)
    exact (asked_ofReader (.block n)).bind fun payload =>
      (Asked.silent (silent_decodePayload options payload _)).bind fun _ => .silent (.pure _)

variable {sink : Sink} {options : Options}

/-- Whether a read has its place filled in when it fails. -/
abbrev Placed (d : Run α) : Prop :=
  Asked (fun ask => ask.isPlaced = true) d

theorem placed_readEvent {table : SizeTable} (h : table.Nonnegative) (index : Option Int) :
    Placed (readEvent sink options table index) := by
  refine ((asked_readRecord options h).annotated index).bind fun record => ?_
  split
  · exact (Asked.silent (.deliver sink _)).bind fun _ => .silent (.pure _)
  · exact .silent (.pure _)

theorem placed_readEvents (rawLength : Int) {record : SizeRecord} (h : record.table.Nonnegative) :
    Placed (readEvents sink options rawLength record) := by
  refine Asked.rounds _ (fun progress => ?_) _
  unfold nextEvent
  split
  · exact (placed_readEvent h _).bind fun _ => .silent (.pure _)
  · exact .silent (.pure _)

theorem placed_readRaw (rawLength : Int) : Placed (readRaw sink options rawLength) := by
  refine Asked.onFreshSlots ((asked_readSizes.annotated none).bind_of_ok fun s record t hrecord => ?_)
  obtain ⟨entries, -, rfl, -⟩ := readSizes_ok (Decoder.annotated_ok_iff.mp hrecord)
  refine (placed_readEvents rawLength (SizeRecord.nonnegative_ofEntries entries)).bind
    fun progress => ?_
  split
  · exact Asked.annotated (P := fun _ => True) (.silent (.fail _)) none
  · exact (Asked.silent (.note _)).bind fun _ => .silent (.pure _)

end Run

/-- All reads of a run have their place filled in when they fail. -/
theorem Container.placed_run (sink : Sink) (options : Options) :
    Run.Placed (run sink options) := by
  refine ((Run.asked_ofReader composed_readHead).annotated none).bind fun rawLength =>
    (Run.Asked.silent (.note _)).bind fun _ => (Run.placed_readRaw rawLength).bind fun _ => ?_
  exact ((Run.asked_ofReader composed_readMetadata).annotated none).bind fun entries =>
    (Run.Asked.silent (.deliver sink _)).bind fun _ =>
      (Run.asked_ofReader (.expect epilogue)).annotated none

end Replay
