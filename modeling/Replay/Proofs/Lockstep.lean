import Replay.Proofs.Acceptance

/-!
Two runs in lockstep. From states that belong together they end alike, in states that belong
together again, unless the first run breaks off where the second may go on. Loops and binds hand
this on, so a comparison that holds for reading one event and the framing around the events holds
for whole runs.
-/

namespace Replay

/-- The sink of the second session has been told what that of the first one has, and maybe more. -/
def Session.ToldUpTo (s t : Session) : Prop :=
  s.calls.toList <+: t.calls.toList

namespace Decoder

variable {α β : Type} {d : Run α}

/-- The calls of the run come after those that were made before it. -/
def Tells (d : Run α) : Prop :=
  ∀ s : Session, s.ToldUpTo (d.run s).2

theorem tells_of_calls (h : ∀ s : Session, (d.run s).2.calls = s.calls) : d.Tells := by
  intro s
  simp only [Session.ToldUpTo, h s, List.prefix_rfl]

theorem Tells.pure (a : α) : Tells (pure a : Run α) :=
  tells_of_calls fun _ => rfl

theorem told_bind {s t : Session} {f : α → Run β} (h : s.ToldUpTo (d.run t).2)
    (hf : ∀ a, (f a).Tells) : s.ToldUpTo ((d >>= f).run t).2 := by
  rw [run_bind]
  split <;> rename_i hr <;> rw [hr] at h
  · exact h.trans (hf _ _)
  · exact h

theorem Tells.bind {f : α → Run β} (h : d.Tells) (hf : ∀ a, (f a).Tells) :
    (d >>= f).Tells :=
  fun s => told_bind (h s) hf

theorem Tells.annotated (h : d.Tells) (event : Option Int) : (d.annotated event).Tells := by
  intro s
  have hs := h s
  rw [run_annotated]
  split <;> rename_i hr <;> rw [hr] at hs <;> exact hs

theorem Tells.onFreshSlots (h : d.Tells) : (Run.onFreshSlots d).Tells :=
  fun s => h { s with slots := .initial }

theorem Tells.rounds {round : α → Run (α ⊕ β)} (advances : Advances round)
    (h : ∀ a, (round a).Tells) (a : α) : (rounds round advances a).Tells := by
  intro s
  change s.ToldUpTo (roundsFrom round advances a s).2
  fun_induction roundsFrom round advances a s with
  | case1 a s b t hr _ ih =>
    have hs := h a s
    rw [hr] at hs
    exact hs.trans ih
  | case2 a s c t hr =>
    have hs := h a s
    rw [hr] at hs
    exact hs
  | case3 a s e t hr =>
    have hs := h a s
    rw [hr] at hs
    exact hs

end Decoder

namespace Run

open Decoder

theorem tells_ofReader (reader : Reader α) : (ofReader reader).Tells :=
  tells_of_calls fun _ => rfl

theorem tells_note (n : Note) : (note n).Tells :=
  tells_of_calls fun _ => rfl

theorem tells_deliver (sink : Sink) (call : Call) : (deliver sink call).Tells := by
  intro s
  change s.calls.toList <+: (s.calls.push call).toList
  rw [Array.toList_push]
  exact List.prefix_append _ _

theorem tells_readRecord (options : Options) (table : SizeTable) :
    (readRecord options table).Tells := by
  refine tells_of_calls fun s => ?_
  obtain ⟨notes, hr⟩ := run_readRecord options table s
  rw [hr]
  split <;> rfl

theorem tells_readEvent (sink : Sink) (options : Options) (table : SizeTable)
    (index : Option Int) : (readEvent sink options table index).Tells := by
  refine ((tells_readRecord options table).annotated index).bind fun record => ?_
  split
  · exact (tells_deliver sink _).bind fun _ => .pure _
  · exact .pure _

theorem tells_nextEvent (sink : Sink) (options : Options) (rawLength : Int) (table : SizeTable)
    (progress : Progress) : (nextEvent sink options rawLength table progress).Tells := by
  unfold nextEvent
  split
  · exact (tells_readEvent sink options table _).bind fun _ => .pure _
  · exact .pure _

theorem tells_readEvents (sink : Sink) (options : Options) (rawLength : Int)
    (record : SizeRecord) : (readEvents sink options rawLength record).Tells :=
  .rounds _ (tells_nextEvent sink options rawLength record.table) _

theorem tells_readSizes : readSizes.Tells :=
  (tells_ofReader _).bind fun _ => (tells_note _).bind fun _ => .pure _

theorem tells_accounting (rawLength : Int) (progress : Progress) : Tells (
    if rawLength ≠ 0 ∧ progress.length ≠ rawLength then
      (Decoder.reject (.rawLength rawLength progress.length)).annotated none
    else do
      note (.rawStream progress.events progress.length)
      pure progress.length : Run Nat) := by
  split
  · exact Tells.annotated (tells_of_calls fun _ => rfl) none
  · exact (tells_note _).bind fun _ => .pure _

theorem tells_readBody (sink : Sink) (options : Options) (rawLength : Int)
    (record : SizeRecord) : (readBody sink options rawLength record).Tells :=
  (tells_readEvents sink options rawLength record).bind (tells_accounting rawLength)

theorem tells_readRaw (sink : Sink) (options : Options) (rawLength : Int) :
    (readRaw sink options rawLength).Tells :=
  ((tells_readSizes.annotated none).bind (tells_readBody sink options rawLength)).onFreshSlots

end Run

theorem Container.tells_readRest (sink : Sink) : (readRest sink).Tells :=
  ((Run.tells_ofReader _).annotated none).bind fun _ =>
    (Run.tells_deliver sink _).bind fun _ => (Run.tells_ofReader _).annotated none

/-- A reader that leaves the slots as they are. -/
def Reader.onSlots {α : Type} (reader : Reader α) (slots : Slots) : Reader (α × Slots) := do
  let a ← reader
  pure (a, slots)

/-- Apart from notes, the run does to the source and the slots just what the reader does. -/
def Decoder.Follows {α : Type} (d : Run α) (reader : Slots → Reader (α × Slots)) : Prop :=
  ∀ s : Session, ∃ notes, d.run s =
    match (reader s.slots).run s.source with
    | (.ok (a, after), u) => (.ok a, { s with source := u, slots := after, notes })
    | (.error e, u) => (.error e, { s with source := u, notes })

namespace Run

theorem follows_readRecord (options : Options) (table : SizeTable) :
    (readRecord options table).Follows (EventRecord.reader options table) := by
  intro s
  obtain ⟨notes, hr⟩ := run_readRecord options table s
  refine ⟨notes, hr.trans ?_⟩
  rcases (EventRecord.reader options table s.slots).run s.source with ⟨_ | _, _⟩ <;> rfl

theorem follows_ofReader {α : Type} (reader : Reader α) :
    (ofReader reader).Follows reader.onSlots := by
  intro s
  refine ⟨s.notes, ?_⟩
  simp only [ofReader, Reader.onSlots, Decoder.run_bind]
  rcases reader.run s.source with ⟨_ | _, _⟩ <;> rfl

theorem follows_readSizes : readSizes.Follows SizeRecord.reader.onSlots := by
  intro s
  simp only [readSizes, Reader.onSlots, Decoder.run_bind, ofReader]
  rcases SizeRecord.reader.run s.source with ⟨_ | record, u⟩
  · exact ⟨s.notes, rfl⟩
  · exact ⟨s.notes.push (.sizes record.table), rfl⟩

end Run

/-- How two runs are compared. -/
structure Comparison where
  /-- The states belong together. -/
  Beside : Session → Session → Prop
  /-- The first run has failed, and the second one, which has come to the other state, may differ
  from there on. -/
  Broken : Failure → Session → Session → Prop
  offset_eq {s t : Session} : Beside s t → s.source.offset = t.source.offset
  noted {s t : Session} (m n : Array Note) :
    Beside s t → Beside { s with notes := m } { t with notes := n }
  fresh {s t : Session} :
    Beside s t → Beside { s with slots := .initial } { t with slots := .initial }
  restored {s t s' t' : Session} : Beside s t → Beside s' t' →
    Beside { s' with slots := s.slots } { t' with slots := t.slots }
  broken_restored {e : Failure} {s t : Session} (a b : Slots) : Broken e s t →
    Broken e { s with slots := a } { t with slots := b }
  broken_later {e : Failure} {s t u : Session} : Broken e s t → t.ToldUpTo u → Broken e s u

namespace Comparison

/-- Two runs have ended alike, or the first one has broken off. -/
inductive Agree (c : Comparison) {α β : Type} (rel : α → β → Prop) :
    Except Failure α × Session → Except Failure β × Session → Prop where
  | ok {a : α} {b : β} {s t : Session} (related : rel a b) (beside : c.Beside s t) :
    Agree c rel (.ok a, s) (.ok b, t)
  | error {e : Failure} {s t : Session} (beside : c.Beside s t) :
    Agree c rel (.error e, s) (.error e, t)
  | broken {e : Failure} {s t : Session} {r : Except Failure β} (broken : c.Broken e s t) :
    Agree c rel (.error e, s) (r, t)

/-- From states that belong together the two runs end alike, with related results. -/
def InStep (c : Comparison) {α β : Type} (rel : α → β → Prop) (d : Run α) (d' : Run β) : Prop :=
  ∀ s t, c.Beside s t → c.Agree rel (d.run s) (d'.run t)

variable {c : Comparison} {α β γ δ : Type} {rel : α → β → Prop} {fin : γ → δ → Prop}

theorem InStep.pure {a : α} {b : β} (h : rel a b) :
    c.InStep rel (pure a : Run α) (pure b : Run β) :=
  fun _ _ hb => .ok h hb

/-- Runs that have ended alike go on in step. -/
theorem Agree.bind {d : Run α} {d' : Run β} {f : α → Run γ} {f' : β → Run δ} {s t : Session}
    (h : c.Agree rel (d.run s) (d'.run t)) (hf : ∀ a b, rel a b → c.InStep fin (f a) (f' b))
    (tells : ∀ b, (f' b).Tells) : c.Agree fin ((d >>= f).run s) ((d' >>= f').run t) := by
  rw [Decoder.run_bind, Decoder.run_bind]
  generalize d.run s = x, d'.run t = y at h
  cases h with
  | ok related beside => exact hf _ _ related _ _ beside
  | error beside => exact .error beside
  | broken broken =>
    rename_i e u v r
    cases r with
    | ok b => exact .broken (c.broken_later broken (tells b v))
    | error e' => exact .broken broken

theorem InStep.bind {d : Run α} {d' : Run β} {f : α → Run γ} {f' : β → Run δ}
    (h : c.InStep rel d d') (hf : ∀ a b, rel a b → c.InStep fin (f a) (f' b))
    (tells : ∀ b, (f' b).Tells) : c.InStep fin (d >>= f) (d' >>= f') :=
  fun s t hb => (h s t hb).bind hf tells

/-- Rounds in step, which agree on whether another one follows, make loops in step. -/
theorem InStep.rounds {round : α → Run (α ⊕ γ)} {round' : β → Run (β ⊕ δ)}
    (advances : Decoder.Advances round) (advances' : Decoder.Advances round')
    (each : ∀ a b, rel a b → c.InStep (Sum.LiftRel rel fin) (round a) (round' b))
    (tells : ∀ b, (round' b).Tells) {a : α} {b : β} (h : rel a b) :
    c.InStep fin (Decoder.rounds round advances a) (Decoder.rounds round' advances' b) := by
  intro s t hb
  change c.Agree fin (Decoder.roundsFrom round advances a s) _
  fun_induction Decoder.roundsFrom round advances a s generalizing b t with
  | case1 a s a' s' hr _ ih =>
    have ha := each a b h s t hb
    rw [Decoder.run_rounds]
    rw [hr] at ha
    generalize (round' b).run t = y at ha
    cases ha with
    | ok related beside =>
      cases related with
      | inl related => exact ih related _ beside
  | case2 a s x s' hr =>
    have ha := each a b h s t hb
    rw [Decoder.run_rounds]
    rw [hr] at ha
    generalize (round' b).run t = y at ha
    cases ha with
    | ok related beside =>
      cases related with
      | inr related => exact .ok related beside
  | case3 a s e s' hr =>
    have ha := each a b h s t hb
    rw [Decoder.run_rounds]
    rw [hr] at ha
    generalize (round' b).run t = y at ha
    cases ha with
    | error beside => exact .error beside
    | broken broken =>
      rename_i v r
      cases r with
      | ok result =>
        cases result with
        | inl b' =>
          exact .broken (c.broken_later broken (Decoder.Tells.rounds advances' tells b' v))
        | inr x => exact .broken broken
      | error e' => exact .broken broken

theorem InStep.note (n : Note) : c.InStep Eq (Run.note n) (Run.note n) :=
  fun _ _ hb => .ok rfl (c.noted _ _ hb)

theorem InStep.reject (cause : Cause) (event : Option Int) :
    c.InStep rel ((Decoder.reject cause : Run α).annotated event)
      ((Decoder.reject cause : Run β).annotated event) := by
  intro s t hb
  change c.Agree rel (.error ((Failure.ofCause cause).annotate event s.source.offset), s)
    (.error ((Failure.ofCause cause).annotate event t.source.offset), t)
  rw [c.offset_eq hb]
  exact .error hb

theorem InStep.onFreshSlots {d : Run α} {d' : Run β} (h : c.InStep rel d d') :
    c.InStep rel (Run.onFreshSlots d) (Run.onFreshSlots d') := by
  intro s t hb
  have ha := h _ _ (c.fresh hb)
  change c.Agree rel
    ((d.run { s with slots := .initial }).1,
      { (d.run { s with slots := .initial }).2 with slots := s.slots })
    ((d'.run { t with slots := .initial }).1,
      { (d'.run { t with slots := .initial }).2 with slots := t.slots })
  generalize d.run { s with slots := .initial } = x,
    d'.run { t with slots := .initial } = y at ha
  cases ha with
  | ok related beside => exact .ok related (c.restored hb beside)
  | error beside => exact .error (c.restored hb beside)
  | broken broken => exact .broken (c.broken_restored _ _ broken)

/-- The loop looks at an event only for its length and its kind. -/
def SameEvent (record record' : EventRecord) : Prop :=
  record.length = record'.length ∧ record.kind = record'.kind

section Parts

variable {sink sink' : Sink} {options options' : Options}

theorem inStep_nextEvent {rawLength : Int} {table : SizeTable} (progress : Progress)
    (event : ∀ index, c.InStep SameEvent (Run.readEvent sink options table index)
      (Run.readEvent sink' options' table index)) :
    c.InStep (Sum.LiftRel Eq Eq) (Run.nextEvent sink options rawLength table progress)
      (Run.nextEvent sink' options' rawLength table progress) := by
  by_cases hg : progress.goesOn rawLength = true
  · rw [Run.nextEvent_goesOn hg, Run.nextEvent_goesOn hg]
    refine (event _).bind ?_ fun _ => .pure _
    intro record record' hsame
    refine .pure (.inl ?_)
    rw [Progress.add, Progress.add, hsame.1, hsame.2]
  · rw [Run.nextEvent_stops hg, Run.nextEvent_stops hg]
    exact .pure (.inr rfl)

theorem inStep_readBody (rawLength : Int) (record : SizeRecord)
    (event : ∀ table index, c.InStep SameEvent (Run.readEvent sink options table index)
      (Run.readEvent sink' options' table index)) :
    c.InStep Eq (Run.readBody sink options rawLength record)
      (Run.readBody sink' options' rawLength record) := by
  have loop : c.InStep Eq (Run.readEvents sink options rawLength record)
      (Run.readEvents sink' options' rawLength record) := by
    refine InStep.rounds _ _ ?_ (Run.tells_nextEvent sink' options' rawLength record.table) rfl
    rintro progress _ rfl
    exact inStep_nextEvent progress (event record.table)
  refine loop.bind ?_ (Run.tells_accounting rawLength)
  rintro progress _ rfl
  split
  · exact .reject _ none
  · exact (InStep.note _).bind (fun _ _ _ => .pure rfl) fun _ => .pure _

/-- Raw streams are in step if their size records and single events are. -/
theorem inStep_readRaw (rawLength : Int)
    (sizes : c.InStep Eq (Run.readSizes.annotated none) (Run.readSizes.annotated none))
    (event : ∀ table index, c.InStep SameEvent (Run.readEvent sink options table index)
      (Run.readEvent sink' options' table index)) :
    c.InStep Eq (Run.readRaw sink options rawLength) (Run.readRaw sink' options' rawLength) := by
  refine InStep.onFreshSlots (sizes.bind ?_ (Run.tells_readBody sink' options' rawLength))
  rintro record _ rfl
  exact inStep_readBody rawLength record event

/-- Events that are taken and decoded alike are in step if their deliveries are. -/
theorem inStep_readEvent {table : SizeTable} {index : Option Int}
    (record : c.InStep Eq ((Run.readRecord options table).annotated index)
      ((Run.readRecord options' table).annotated index))
    (deliver : ∀ call, c.InStep Eq (Run.deliver sink call) (Run.deliver sink' call)) :
    c.InStep SameEvent (Run.readEvent sink options table index)
      (Run.readEvent sink' options' table index) := by
  refine record.bind ?_ fun record => ?_
  · rintro record _ rfl
    split
    · exact (deliver _).bind (fun _ _ _ => .pure ⟨rfl, rfl⟩) fun _ => .pure _
    · exact .pure ⟨rfl, rfl⟩
  · split
    · exact (Run.tells_deliver sink' _).bind fun _ => .pure _
    · exact .pure _

theorem inStep_readRest
    (metadata : c.InStep Eq ((Run.ofReader Container.readMetadata).annotated none)
      ((Run.ofReader Container.readMetadata).annotated none))
    (closing : c.InStep Eq ((Run.ofReader (Reader.expect Container.epilogue)).annotated none)
      ((Run.ofReader (Reader.expect Container.epilogue)).annotated none))
    (deliver : ∀ entries, c.InStep Eq (Run.deliver sink (.metadata entries))
      (Run.deliver sink' (.metadata entries))) :
    c.InStep Eq (Container.readRest sink) (Container.readRest sink') := by
  have tells_closing := (Run.tells_ofReader (Reader.expect Container.epilogue)).annotated none
  refine metadata.bind ?_ fun entries => (Run.tells_deliver sink' _).bind fun _ => tells_closing
  rintro entries _ rfl
  exact (deliver _).bind (fun _ _ _ => closing) fun _ => tells_closing

/-- Whole runs are in step if their heads, their raw streams and the rests behind these are. -/
theorem inStep_run
    (head : c.InStep Eq ((Run.ofReader Container.readHead).annotated none)
      ((Run.ofReader Container.readHead).annotated none))
    (raw : ∀ rawLength : Nat, c.InStep Eq (Run.readRaw sink options rawLength)
      (Run.readRaw sink' options' rawLength))
    (rest : c.InStep Eq (Container.readRest sink) (Container.readRest sink')) :
    c.InStep Eq (Container.run sink options) (Container.run sink' options') := by
  have tells_raw : ∀ rawLength : Nat,
      (Run.readRaw sink' options' rawLength >>= fun _ => Container.readRest sink').Tells :=
    fun rawLength => (Run.tells_readRaw sink' options' rawLength).bind fun _ =>
      Container.tells_readRest sink'
  refine head.bind ?_ fun rawLength => (Run.tells_note _).bind fun _ => tells_raw rawLength
  rintro rawLength _ rfl
  refine (InStep.note _).bind (fun _ _ _ => ?_) fun _ => tells_raw rawLength
  exact (raw rawLength).bind (fun _ _ _ => rest) fun _ => Container.tells_readRest sink'

end Parts

end Comparison

end Replay
