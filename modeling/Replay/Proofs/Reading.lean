import Replay.Layout

/-!
What readers do with the bytes that they take. A reader that only takes blocks, and decides by
what is in them, gives the same result wherever the bytes that it took stand at the front, and on
data in memory it fails only with a cause that it names itself.
-/

namespace Replay

/-- A read gives what it asks for, as far as there is data. -/
structure Source.InMemory (s : Source) : Prop where
  chunk : s.chunk = none
  fault : s.fault = none
  silentEnd : s.silentEnd = false

namespace Source

variable {s t : Source}

theorem inMemory_ofBytes (bytes : Bytes) : (ofBytes bytes).InMemory :=
  ⟨rfl, rfl, rfl⟩

theorem InMemory.skip (h : s.InMemory) (n : Nat) : (s.skip n).InMemory :=
  ⟨h.chunk, h.fault, h.silentEnd⟩

theorem InMemory.reaches (h : s.InMemory) (hr : s.Reaches t) : t.InMemory := by
  obtain ⟨n, -, rfl⟩ := hr
  exact h.skip n

/-- What is left in memory stays there. -/
theorem InMemory.run {α : Type} {reader : Reader α} (h : s.InMemory) {r : Except Failure α}
    (hr : reader.run s = (r, t)) : t.InMemory := by
  have hreach := reader.reaches s
  rw [hr] at hreach
  exact h.reaches hreach

theorem skip_zero (s : Source) : s.skip 0 = s := by
  simp [skip]

theorem skip_skip (s : Source) (m n : Nat) : (s.skip m).skip n = s.skip (m + n) := by
  simp [skip, Nat.add_assoc]

theorem left_skip (s : Source) (n : Nat) : (s.skip n).left = s.left.drop n := rfl

theorem left_skip_of_append {bytes rest : Bytes} (h : s.left = bytes ++ rest) :
    (s.skip bytes.length).left = rest := by
  rw [left_skip, h, List.drop_left]

theorem InMemory.read (h : s.InMemory) (n : Nat) :
    s.read n = (.bytes (s.left.take n), s.skip (min n s.left.length)) := by
  have hf : s.fault? = none := by simp only [fault?, h.fault]
  have hu : s.upTo n = s.left.take n := by simp [upTo, h.chunk]
  simp only [Source.read, hf, h.silentEnd, Bool.false_and, Bool.false_eq_true, ↓reduceIte, hu,
    List.length_take]

/-- Whatever the source is, the bytes of a reply come off the front of the data. -/
theorem read_bytes {n : Nat} {got : Bytes} (h : s.read n = (.bytes got, t)) :
    s.left = got ++ t.left ∧ t = s.skip got.length := by
  unfold Source.read at h
  split at h
  · cases h
  · split at h
    · cases h
    · cases h
      obtain ⟨rest, hr⟩ := List.take_prefix (min n (s.chunk.getD n)) s.left
      have hl : (s.skip (s.upTo n).length).left = rest := left_skip_of_append hr.symm
      exact ⟨by rw [hl]; exact hr.symm, rfl⟩

end Source

/-- The classes of the causes that readers name. The general class is for errors from elsewhere,
and the accounting of a raw stream has a class of its own. -/
def ErrorClass.OfReaders (errorClass : ErrorClass) : Prop :=
  errorClass ≠ .general ∧ errorClass ≠ .byteAccounting

/-- A decoding error that a reader names, without a place yet. -/
def Failure.Named (e : Failure) : Prop :=
  ∃ cause : Cause, e = .ofCause cause ∧ cause.errorClass.OfReaders

theorem Failure.named_ofCause {cause : Cause} (h : cause.errorClass.OfReaders) :
    (Failure.ofCause cause).Named :=
  ⟨cause, rfl, h⟩

theorem Failure.named_ofCause_iff {cause : Cause} :
    (Failure.ofCause cause).Named ↔ cause.errorClass.OfReaders := by
  constructor
  · intro h
    obtain ⟨cause', he, hc⟩ := h
    cases he
    exact hc
  · exact named_ofCause

/-- A failure that a reader names takes just the place that it is given. -/
theorem Failure.Named.annotate {e : Failure} (h : e.Named) (event offset : Option Int) :
    ∃ cause : Cause, cause.errorClass.OfReaders ∧
      e.annotate event offset = .decode { cause, offset, event } := by
  obtain ⟨cause, rfl, hc⟩ := h
  exact ⟨cause, hc, rfl⟩

namespace Decoder

variable {σ α β : Type} [Feed σ] {d : Decoder σ α} {event : Option Int} {s t : σ}

theorem run_bind_of_ok {a : α} (h : d.run s = (.ok a, t)) (f : α → Decoder σ β) :
    (d >>= f).run s = (f a).run t := by
  rw [run_bind, h]

theorem run_bind_eq_error {f : α → Decoder σ β} {e : Failure}
    (h : (d >>= f).run s = (.error e, t)) :
    d.run s = (.error e, t) ∨ ∃ a u, d.run s = (.ok a, u) ∧ (f a).run u = (.error e, t) := by
  rw [run_bind] at h
  split at h
  · exact .inr ⟨_, _, ‹_›, h⟩
  · cases h
    exact .inl ‹_›

theorem run_annotated (d : Decoder σ α) (event : Option Int) (s : σ) :
    (d.annotated event).run s =
      match d.run s with
      | (.ok a, t) => (.ok a, t)
      | (.error e, t) => (.error (e.annotate event (Feed.source t).offset), t) := rfl

/-- Only a failure is annotated, and the state stays as it is. -/
theorem snd_run_annotated (d : Decoder σ α) (event : Option Int) (s : σ) :
    ((d.annotated event).run s).2 = (d.run s).2 := by
  rw [run_annotated]
  rcases d.run s with ⟨_ | _, _⟩ <;> rfl

theorem annotated_ok_iff {a : α} :
    (d.annotated event).run s = (.ok a, t) ↔ d.run s = (.ok a, t) := by
  rw [run_annotated]
  rcases d.run s with ⟨_ | _, _⟩ <;> simp

/-- An annotated failure is one of the decoder, with the event and the offset filled in. -/
theorem annotated_error {e : Failure} (h : (d.annotated event).run s = (.error e, t)) :
    ∃ f, d.run s = (.error f, t) ∧ e = f.annotate event (Feed.source t).offset := by
  rw [run_annotated] at h
  split at h
  · cases h
  · rename_i f u hd
    cases h
    exact ⟨f, hd, rfl⟩

theorem run_rounds (round : α → Decoder σ (α ⊕ β)) (advances : Advances round) (a : α) (s : σ) :
    (rounds round advances a).run s =
      match (round a).run s with
      | (.ok (.inl b), t) => (rounds round advances b).run t
      | (.ok (.inr c), t) => (.ok c, t)
      | (.error e, t) => (.error e, t) := by
  change roundsFrom round advances a s = _
  rw [roundsFrom]
  split
  · rename_i h
    simp only [h]
    rfl
  · rename_i h
    simp only [h]
  · rename_i h
    simp only [h]

/-- What every round keeps still holds when the last round starts, which ends the loop or fails. -/
theorem rounds_last {round : α → Decoder σ (α ⊕ β)} (advances : Advances round)
    {motive : α → σ → Prop}
    (step : ∀ a s b t, motive a s → (round a).run s = (.ok (.inl b), t) → motive b t)
    {a : α} {s : σ} (h : motive a s) :
    ∃ b t, motive b t ∧
      ((∃ c u, (round b).run t = (.ok (.inr c), u) ∧
          (rounds round advances a).run s = (.ok c, u)) ∨
        ∃ e u, (round b).run t = (.error e, u) ∧
          (rounds round advances a).run s = (.error e, u)) := by
  change ∃ b t, motive b t ∧
    ((∃ c u, (round b).run t = (.ok (.inr c), u) ∧ roundsFrom round advances a s = (.ok c, u)) ∨
      ∃ e u, (round b).run t = (.error e, u) ∧ roundsFrom round advances a s = (.error e, u))
  fun_induction roundsFrom round advances a s with
  | case1 a s b t hr _ ih => exact ih (step a s b t h hr)
  | case2 a s c t hr => exact ⟨a, s, h, .inl ⟨c, t, hr, rfl⟩⟩
  | case3 a s e t hr => exact ⟨a, s, h, .inr ⟨e, t, hr, rfl⟩⟩

end Decoder

namespace Reader

variable {α β : Type}

/-- Wherever the bytes stand at the front of data in memory, the reader takes just them and gives
the result. -/
def Reads (reader : Reader α) (bytes : Bytes) (a : α) : Prop :=
  ∀ s rest, s.InMemory → s.left = bytes ++ rest → reader.run s = (.ok a, s.skip bytes.length)

/-- Every success is the reading of the bytes taken, whatever the source. -/
def Framed (reader : Reader α) : Prop :=
  ∀ s a t, reader.run s = (.ok a, t) →
    ∃ bytes, s.left = bytes ++ t.left ∧ t = s.skip bytes.length ∧ reader.Reads bytes a

/-- On data in memory every failure is a decoding error for a cause of the given kind. -/
def FailsFor (P : Cause → Prop) (reader : Reader α) : Prop :=
  ∀ s, s.InMemory → ∀ e t, reader.run s = (.error e, t) → ∃ cause, e = .ofCause cause ∧ P cause

/-- On data in memory every failure is a decoding error that the reader names. -/
def Names (reader : Reader α) : Prop :=
  ∀ s, s.InMemory → ∀ e t, reader.run s = (.error e, t) → e.Named

theorem Reads.pure (a : α) : Reads (pure a : Reader α) [] a := by
  intro s rest _ _
  rw [Decoder.run_pure, List.length_nil, Source.skip_zero]

theorem Reads.bind {reader : Reader α} {next : α → Reader β} {xs ys : Bytes} {a : α} {b : β}
    (ha : reader.Reads xs a) (hb : (next a).Reads ys b) :
    (reader >>= next).Reads (xs ++ ys) b := by
  intro s rest hs h
  rw [List.append_assoc] at h
  rw [Decoder.run_bind, ha s _ hs h]
  dsimp only
  rw [hb _ rest (hs.skip _) (Source.left_skip_of_append h), Source.skip_skip, List.length_append]

/-- The bytes alone, as data in memory, are taken to their end. -/
theorem Reads.run_ofBytes {reader : Reader α} {bytes : Bytes} {a : α} (h : reader.Reads bytes a) :
    reader.run (.ofBytes bytes) = (.ok a, (Source.ofBytes bytes).skip bytes.length) :=
  h _ [] (Source.inMemory_ofBytes bytes) (List.append_nil bytes).symm

theorem reads_pure_iff {a b : α} {bytes : Bytes} :
    (Pure.pure a : Reader α).Reads bytes b ↔ bytes = [] ∧ b = a := by
  constructor
  · intro h
    have hr := h.run_ofBytes
    rw [Decoder.run_pure] at hr
    obtain ⟨ha, hs⟩ := Prod.ext_iff.mp hr
    have hn : 0 = 0 + bytes.length := congrArg Source.taken hs
    exact ⟨List.eq_nil_of_length_eq_zero (by omega), (Except.ok.inj ha).symm⟩
  · intro h
    obtain ⟨rfl, rfl⟩ := h
    exact Reads.pure b

theorem not_reads_reject {cause : Cause} {bytes : Bytes} {a : α} :
    ¬Reads (Decoder.reject cause) bytes a := by
  intro h
  have hr := h.run_ofBytes
  cases hr

/-- A reading of two readers in a row is one of the first and then one of the second. -/
theorem reads_bind_iff {reader : Reader α} {next : α → Reader β} (h : reader.Framed)
    (hn : ∀ a, (next a).Framed) {bytes : Bytes} {b : β} :
    (reader >>= next).Reads bytes b ↔
      ∃ xs ys a, bytes = xs ++ ys ∧ reader.Reads xs a ∧ (next a).Reads ys b := by
  constructor
  · intro hr
    obtain ⟨a, t, ht, hu⟩ := Decoder.run_bind_eq_ok hr.run_ofBytes
    obtain ⟨xs, hx, rfl, hxs⟩ := h _ a t ht
    obtain ⟨ys, hy, hu', hys⟩ := hn a _ b _ hu
    have hl : ((Source.ofBytes bytes).skip bytes.length).left = [] := List.drop_length
    rw [hl, List.append_nil] at hy
    exact ⟨xs, ys, a, by rw [← hy, ← hx]; rfl, hxs, hys⟩
  · intro h
    obtain ⟨xs, ys, a, rfl, ha, hb⟩ := h
    exact ha.bind hb

theorem Framed.pure (a : α) : Framed (pure a : Reader α) := by
  intro s b t h
  cases h
  exact ⟨[], rfl, (Source.skip_zero _).symm, Reads.pure a⟩

theorem Framed.reject (cause : Cause) : Framed (Decoder.reject cause : Reader α) := by
  intro s b t h
  cases h

theorem reads_map_iff {reader : Reader α} (h : reader.Framed) {f : α → β} {bytes : Bytes}
    {b : β} : (f <$> reader).Reads bytes b ↔ ∃ a, b = f a ∧ reader.Reads bytes a := by
  rw [map_eq_pure_bind, reads_bind_iff h fun a => Framed.pure (f a)]
  constructor
  · intro hr
    obtain ⟨xs, ys, a, rfl, hx, hy⟩ := hr
    obtain ⟨rfl, rfl⟩ := reads_pure_iff.mp hy
    exact ⟨a, rfl, by rwa [List.append_nil]⟩
  · intro hr
    obtain ⟨a, rfl, ha⟩ := hr
    exact ⟨bytes, [], a, (List.append_nil _).symm, ha, Reads.pure _⟩

theorem Framed.bind {reader : Reader α} {next : α → Reader β} (h : reader.Framed)
    (hn : ∀ a, (next a).Framed) : (reader >>= next).Framed := by
  intro s b u hr
  obtain ⟨a, t, ht, hu⟩ := Decoder.run_bind_eq_ok hr
  obtain ⟨xs, hx, rfl, hxs⟩ := h s a t ht
  obtain ⟨ys, hy, rfl, hys⟩ := hn a _ b u hu
  refine ⟨xs ++ ys, ?_, ?_, hxs.bind hys⟩
  · rw [List.append_assoc, ← hy, ← hx]
  · rw [Source.skip_skip, List.length_append]

section FailsFor

variable {P Q : Cause → Prop} {reader : Reader α}

theorem FailsFor.mono (h : reader.FailsFor P) (hPQ : ∀ cause, P cause → Q cause) :
    reader.FailsFor Q := by
  intro s hs e t hr
  obtain ⟨cause, he, hc⟩ := h s hs e t hr
  exact ⟨cause, he, hPQ cause hc⟩

theorem FailsFor.pure (a : α) : FailsFor P (pure a : Reader α) := by
  intro s _ e t h
  cases h

theorem FailsFor.reject {cause : Cause} (hc : P cause) :
    FailsFor P (Decoder.reject cause : Reader α) := by
  intro s _ e t h
  cases h
  exact ⟨cause, rfl, hc⟩

theorem FailsFor.bind {next : α → Reader β} (h : reader.FailsFor P)
    (hn : ∀ a, (next a).FailsFor P) : (reader >>= next).FailsFor P := by
  intro s hs e u hr
  rcases Decoder.run_bind_eq_error hr with ht | ⟨a, t, ht, hu⟩
  · exact h s hs e u ht
  · exact hn a t (hs.run ht) e u hu

theorem FailsFor.map (h : reader.FailsFor P) (f : α → β) : (f <$> reader).FailsFor P := by
  rw [map_eq_pure_bind]
  exact h.bind fun a => .pure (f a)

end FailsFor

theorem Names.pure (a : α) : Names (pure a : Reader α) :=
  FailsFor.pure a

theorem Names.reject {cause : Cause} (hc : cause.errorClass.OfReaders) :
    Names (Decoder.reject cause : Reader α) :=
  FailsFor.reject hc

theorem Names.bind {reader : Reader α} {next : α → Reader β} (h : reader.Names)
    (hn : ∀ a, (next a).Names) : (reader >>= next).Names :=
  FailsFor.bind h hn

theorem Reads.rounds_next {round : α → Reader (α ⊕ β)} {advances : Decoder.Advances round}
    {xs ys : Bytes} {a b : α} {c : β} (h : (round a).Reads xs (.inl b))
    (hb : Reads (Decoder.rounds round advances b) ys c) :
    Reads (Decoder.rounds round advances a) (xs ++ ys) c := by
  intro s rest hs hl
  rw [List.append_assoc] at hl
  rw [Decoder.run_rounds, h s _ hs hl]
  dsimp only
  rw [hb _ rest (hs.skip _) (Source.left_skip_of_append hl), Source.skip_skip, List.length_append]

theorem Reads.rounds_end {round : α → Reader (α ⊕ β)} {advances : Decoder.Advances round}
    {xs : Bytes} {a : α} {c : β} (h : (round a).Reads xs (.inr c)) :
    Reads (Decoder.rounds round advances a) xs c := by
  intro s rest hs hl
  rw [Decoder.run_rounds, h s rest hs hl]

theorem Framed.rounds {round : α → Reader (α ⊕ β)} (advances : Decoder.Advances round)
    (h : ∀ a, (round a).Framed) (a : α) : Framed (Decoder.rounds round advances a) := by
  intro s c u hr
  change Decoder.roundsFrom round advances a s = (.ok c, u) at hr
  fun_induction Decoder.roundsFrom round advances a s with
  | case1 a s b t hb _ ih =>
    obtain ⟨xs, hx, rfl, hxs⟩ := h a s _ t hb
    obtain ⟨ys, hy, rfl, hys⟩ := ih hr
    refine ⟨xs ++ ys, ?_, ?_, hxs.rounds_next hys⟩
    · rw [List.append_assoc, ← hy, ← hx]
    · rw [Source.skip_skip, List.length_append]
  | case2 a s d t hd =>
    cases hr
    obtain ⟨xs, hx, ht, hxs⟩ := h a s _ _ hd
    exact ⟨xs, hx, ht, hxs.rounds_end⟩
  | case3 a s e t he => cases hr

/-- A loop reads what its first round ends with, or what this round goes on from and then the
rest of the loop. -/
theorem reads_rounds_iff {round : α → Reader (α ⊕ β)} {advances : Decoder.Advances round}
    (h : ∀ a, (round a).Framed) {bytes : Bytes} {a : α} {c : β} :
    Reads (Decoder.rounds round advances a) bytes c ↔
      (round a).Reads bytes (.inr c) ∨
        ∃ xs ys b, bytes = xs ++ ys ∧ (round a).Reads xs (.inl b) ∧
          Reads (Decoder.rounds round advances b) ys c := by
  constructor
  · intro hr
    have hrun := hr.run_ofBytes
    have hend : ((Source.ofBytes bytes).skip bytes.length).left = [] := List.drop_length
    rw [Decoder.run_rounds] at hrun
    split at hrun
    · rename_i b t hb
      obtain ⟨xs, hx, -, hxs⟩ := h a _ _ t hb
      obtain ⟨ys, hy, -, hys⟩ := Framed.rounds advances h b t c _ hrun
      rw [hend, List.append_nil] at hy
      exact .inr ⟨xs, ys, b, by rw [← hy, ← hx]; rfl, hxs, hys⟩
    · rename_i d t hd
      cases hrun
      obtain ⟨xs, hx, -, hxs⟩ := h a _ _ _ hd
      rw [hend, List.append_nil] at hx
      obtain rfl : bytes = xs := hx
      exact .inl hxs
    · cases hrun
  · intro hr
    rcases hr with hlast | ⟨xs, ys, b, rfl, hxs, hys⟩
    · exact hlast.rounds_end
    · exact hxs.rounds_next hys

theorem FailsFor.rounds {P : Cause → Prop} {round : α → Reader (α ⊕ β)}
    (advances : Decoder.Advances round) (h : ∀ a, (round a).FailsFor P) (a : α) :
    FailsFor P (Decoder.rounds round advances a) := by
  intro s hs e u hr
  have step : ∀ a s b t, Source.InMemory s → (round a).run s = (.ok (.inl b), t) →
      Source.InMemory t := fun a s b t hs ht => hs.run ht
  obtain ⟨b, t, ht, hl⟩ := Decoder.rounds_last advances step hs
  rcases hl with ⟨c, v, -, hc⟩ | ⟨d, v, hd, he⟩
  · rw [hr] at hc
    cases hc
  · rw [hr] at he
    cases he
    exact h b t ht e u hd

theorem Names.rounds {round : α → Reader (α ⊕ β)} (advances : Decoder.Advances round)
    (h : ∀ a, (round a).Names) (a : α) : Names (Decoder.rounds round advances a) :=
  FailsFor.rounds advances h a

theorem run_block (n : Nat) (s : Source) :
    (block n).run s =
      if n = 0 then (.ok [], s)
      else match s.read n with
        | (.bytes got, t) =>
          (if got.length = n then .ok got
            else .error (.ofCause (.shortBlock n got.length)), t)
        | (.nothing, t) => (.error (.ofCause (.shortBlock n 0)), t)
        | (.fault e, t) => (.error e, t) := by
  unfold block
  split
  · rfl
  · rw [Decoder.run_bind, run_ask]
    rcases s.read n with ⟨reply, t⟩
    cases reply with
    | bytes got => dsimp only; split <;> rfl
    | nothing => rfl
    | fault e => rfl

theorem Reads.block (bytes : Bytes) : Reads (block bytes.length) bytes bytes := by
  intro s rest hs h
  rw [run_block]
  split
  · rename_i h0
    rw [List.length_eq_zero_iff.mp h0, List.length_nil, Source.skip_zero]
  · rw [hs.read, h, List.take_left, List.length_append, Nat.min_eq_left (Nat.le_add_right ..)]
    simp only [↓reduceIte]

theorem reads_block_iff {n : Nat} {bytes got : Bytes} :
    (Reader.block n).Reads bytes got ↔ bytes.length = n ∧ got = bytes := by
  constructor
  · intro h
    have hr := h.run_ofBytes
    rw [run_block] at hr
    split at hr
    · rename_i h0
      obtain ⟨hg, hs⟩ := Prod.ext_iff.mp hr
      have hn : 0 = 0 + bytes.length := congrArg Source.taken hs
      have hb : bytes = [] := List.eq_nil_of_length_eq_zero (by omega)
      exact ⟨by rw [hb, h0]; rfl, by rw [hb]; exact (Except.ok.inj hg).symm⟩
    · rw [(Source.inMemory_ofBytes bytes).read] at hr
      dsimp only at hr
      split at hr
      · rename_i hn
        obtain ⟨hg, hs⟩ := Prod.ext_iff.mp hr
        have ht : 0 + min n bytes.length = 0 + bytes.length := congrArg Source.taken hs
        have hb : (bytes.take n).length = n := hn
        rw [List.length_take] at hb
        have hg : bytes.take n = got := Except.ok.inj hg
        exact ⟨by omega, by rw [← hg, List.take_of_length_le (by omega)]⟩
      · cases hr
  · intro h
    obtain ⟨rfl, rfl⟩ := h
    exact Reads.block got

theorem Framed.block (n : Nat) : Framed (block n) := by
  intro s a t h
  rw [run_block] at h
  split at h
  · rename_i h0
    cases h
    subst h0
    exact ⟨[], rfl, (Source.skip_zero _).symm, Reads.block []⟩
  · split at h
    · rename_i got u hr
      split at h
      · rename_i hn
        cases h
        subst hn
        obtain ⟨hl, ht⟩ := Source.read_bytes hr
        exact ⟨a, hl, ht, Reads.block a⟩
      · cases h
    · cases h
    · cases h

theorem FailsFor.block {P : Cause → Prop} (n : Nat) (hP : ∀ got : Nat, P (.shortBlock n got)) :
    FailsFor P (Reader.block n) := by
  intro s hs e t h
  rw [run_block] at h
  split at h
  · cases h
  · rw [hs.read] at h
    dsimp only at h
    split at h
    · cases h
    · cases h
      exact ⟨_, rfl, hP _⟩

theorem Names.block (n : Nat) : Names (block n) :=
  FailsFor.block n fun _ => ⟨nofun, nofun⟩

theorem Reads.field (path : List String) (bytes : Bytes) :
    Reads (Layout.readBlock path bytes.length) bytes bytes := by
  intro s rest hs h
  rw [Layout.run_readBlock, hs.read, h, List.take_left, List.length_append,
    Nat.min_eq_left (Nat.le_add_right ..)]
  simp only [↓reduceIte]

theorem Framed.field (path : List String) (size : Nat) : Framed (Layout.readBlock path size) := by
  intro s a t h
  rw [Layout.run_readBlock] at h
  split at h
  · rename_i got u hr
    split at h
    · rename_i hn
      cases h
      subst hn
      obtain ⟨hl, ht⟩ := Source.read_bytes hr
      exact ⟨a, hl, ht, Reads.field path a⟩
    · cases h
  · cases h
  · cases h

theorem FailsFor.field {P : Cause → Prop} (path : List String) (size : Nat)
    (hP : ∀ got : Nat, P (.shortField path size got)) :
    FailsFor P (Layout.readBlock path size) := by
  intro s hs e t h
  rw [Layout.run_readBlock, hs.read] at h
  dsimp only at h
  split at h
  · cases h
  · cases h
    exact ⟨_, rfl, hP _⟩

theorem Names.field (path : List String) (size : Nat) : Names (Layout.readBlock path size) :=
  FailsFor.field path size fun _ => ⟨nofun, nofun⟩

/-- A layout fails only for want of bytes. -/
theorem FailsFor.read {P : Cause → Prop} (layout : Layout α)
    (hP : ∀ (path : List String) (wanted got : Nat), P (.shortField path wanted got)) :
    layout.read.FailsFor P := by
  have under : ∀ path, FailsFor P (layout.readUnder path) := by
    induction layout with
    | value a => exact fun _ => .pure a
    | block size => exact fun path => .field path size (hP path size)
    | named name layout ih => exact fun path => ih (path ++ [name])
    | map f layout ih => exact fun path => (ih path).bind fun a => .pure (f a)
    | seq f layout ihf ih =>
      exact fun path => (ihf path).bind fun g => (ih path).bind fun a => .pure (g a)
  exact under []

/-- Readers made of blocks and of fields, which decide only by what they have read. -/
inductive Composed : {α : Type} → Reader α → Prop where
  | pure {α : Type} (a : α) : Composed (Pure.pure a : Reader α)
  | reject {α : Type} (cause : Cause) (h : cause.errorClass.OfReaders) :
    Composed (Decoder.reject cause : Reader α)
  | block (n : Nat) : Composed (Reader.block n)
  | field (path : List String) (size : Nat) : Composed (Layout.readBlock path size)
  | bind {α β : Type} {reader : Reader α} {next : α → Reader β} (first : Composed reader)
    (rest : ∀ a, Composed (next a)) : Composed (reader >>= next)
  | rounds {α β : Type} {round : α → Reader (α ⊕ β)} (advances : Decoder.Advances round)
    (each : ∀ a, Composed (round a)) (a : α) : Composed (Decoder.rounds round advances a)

namespace Composed

theorem framed {reader : Reader α} (h : Composed reader) : reader.Framed := by
  induction h with
  | pure a => exact Framed.pure a
  | reject cause _ => exact Framed.reject cause
  | block n => exact Framed.block n
  | field path size => exact Framed.field path size
  | bind _ _ ih ihn => exact ih.bind ihn
  | rounds advances _ a ih => exact Framed.rounds advances ih a

theorem names {reader : Reader α} (h : Composed reader) : reader.Names := by
  induction h with
  | pure a => exact Names.pure a
  | reject _ hc => exact Names.reject hc
  | block n => exact Names.block n
  | field path size => exact Names.field path size
  | bind _ _ ih ihn => exact ih.bind ihn
  | rounds advances _ a ih => exact Names.rounds advances ih a

theorem map {reader : Reader α} (h : Composed reader) (f : α → β) : Composed (f <$> reader) := by
  rw [map_eq_pure_bind]
  exact .bind h fun a => .pure (f a)

theorem layout (layout : Layout α) (path : List String) : Composed (layout.readUnder path) := by
  induction layout generalizing path with
  | value a => exact .pure a
  | block size => exact .field path size
  | named name layout ih => exact ih (path ++ [name])
  | map f layout ih => exact .bind (ih path) fun a => .pure (f a)
  | seq f layout ihf ih => exact .bind (ihf path) fun g => .bind (ih path) fun a => .pure (g a)

theorem read (layout : Layout α) : Composed layout.read :=
  Composed.layout layout []

theorem expected (expected got : Bytes) : Composed (
    if got = expected then Pure.pure () else Decoder.reject (.unexpectedBytes expected got)) := by
  split
  · exact .pure ()
  · exact .reject _ ⟨nofun, nofun⟩

theorem expect (expected : Bytes) : Composed (Reader.expect expected) :=
  .bind (.block _) (Composed.expected expected)

end Composed

theorem reads_expect_iff {expected bytes : Bytes} {a : Unit} :
    (Reader.expect expected).Reads bytes a ↔ bytes = expected := by
  refine (reads_bind_iff (Framed.block _) fun got =>
    (Composed.expected expected got).framed).trans ⟨?_, ?_⟩
  · intro h
    obtain ⟨xs, ys, got, rfl, hx, hy⟩ := h
    obtain ⟨-, rfl⟩ := reads_block_iff.mp hx
    split at hy
    · rename_i he
      rw [(reads_pure_iff.mp hy).1, List.append_nil, he]
    · exact absurd hy not_reads_reject
  · intro h
    subst h
    refine ⟨bytes, [], bytes, (List.append_nil _).symm, Reads.block bytes, ?_⟩
    rw [if_pos rfl]
    exact Reads.pure ()

/-- Bytes are read as a result just when a run on them alone gives it and leaves nothing. -/
theorem Framed.reads_iff_run {reader : Reader α} (h : reader.Framed) {bytes : Bytes} {a : α} :
    reader.Reads bytes a ↔ ∃ t, reader.run (.ofBytes bytes) = (.ok a, t) ∧ t.left = [] := by
  constructor
  · intro hr
    exact ⟨_, hr.run_ofBytes, List.drop_length⟩
  · intro h
    obtain ⟨t, hr, ht⟩ := h
    obtain ⟨xs, hx, -, hxs⟩ := h _ _ _ hr
    rw [ht, List.append_nil] at hx
    obtain rfl : bytes = xs := hx
    exact hxs

/-- A run on a byte string takes what the reader reads at its front. -/
theorem Framed.run_ofBytes_iff {reader : Reader α} (h : reader.Framed) {data : Bytes} {a : α}
    {t : Source} :
    reader.run (.ofBytes data) = (.ok a, t) ↔
      ∃ bytes rest, data = bytes ++ rest ∧ reader.Reads bytes a ∧
        t = (Source.ofBytes data).skip bytes.length := by
  constructor
  · intro hr
    obtain ⟨bytes, hleft, ht, hreads⟩ := h _ _ _ hr
    exact ⟨bytes, t.left, hleft, hreads, ht⟩
  · rintro ⟨bytes, rest, hdata, hreads, rfl⟩
    exact hreads _ rest (Source.inMemory_ofBytes data) hdata

end Reader

end Replay
