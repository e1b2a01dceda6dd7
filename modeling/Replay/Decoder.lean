import Replay.Source

/-!
Decoders over a state that holds a source. A failed decoder keeps the state it failed in, so bytes
that it took stay taken. Every decoder carries the proof that it does nothing to the source but
take bytes off its front; hence a loop that takes a byte in every round ends.
-/

namespace Replay

/-- States that hold a source. -/
class Feed (σ : Type) where
  source : σ → Source

instance : Feed Source where
  source s := s

/-- A run gives a result and the state after it. -/
@[ext] structure Decoder (σ : Type) [Feed σ] (α : Type) where
  run : σ → Except Failure α × σ
  reaches : ∀ s, (Feed.source s).Reaches (Feed.source (run s).2)

/-- Decoders that need nothing but the source. -/
abbrev Reader (α : Type) := Decoder Source α

namespace Decoder

variable {σ α β : Type} [Feed σ]

protected def pure (a : α) : Decoder σ α where
  run s := (.ok a, s)
  reaches _ := .refl _

protected def bind (d : Decoder σ α) (f : α → Decoder σ β) : Decoder σ β where
  run s :=
    match d.run s with
    | (.ok a, t) => (f a).run t
    | (.error e, t) => (.error e, t)
  reaches s := by
    have h := d.reaches s
    split <;> rename_i heq <;> rw [heq] at h
    · exact h.trans ((f _).reaches _)
    · exact h

instance : Monad (Decoder σ) where
  pure := Decoder.pure
  bind := Decoder.bind

def fail (e : Failure) : Decoder σ α where
  run s := (.error e, s)
  reaches _ := .refl _

def reject (cause : Cause) : Decoder σ α :=
  fail (.ofCause cause)

def ofResult : Except Failure α → Decoder σ α
  | .ok a => pure a
  | .error e => fail e

/-- Goes on with what was found sound, or fails with the cause that it is not. -/
def ofChecked : Except Cause α → Decoder σ α
  | .ok a => pure a
  | .error cause => reject cause

def offset : Decoder σ (Option Int) where
  run s := (.ok (Feed.source s).offset, s)
  reaches _ := .refl _

def remaining : Decoder σ Nat where
  run s := (.ok (Feed.source s).left.length, s)
  reaches _ := .refl _

/-- A decoder that is built only when it runs. -/
def later (d : Unit → Decoder σ α) : Decoder σ α where
  run s := (d ()).run s
  reaches s := (d ()).reaches s

/-- Fills in the place of a decoding error: the event, and how far into the data the source is
when the decoder has failed. -/
def annotated (event : Option Int) (d : Decoder σ α) : Decoder σ α where
  run s :=
    match d.run s with
    | (.ok a, t) => (.ok a, t)
    | (.error e, t) => (.error (e.annotate event (Feed.source t).offset), t)
  reaches s := by
    have h := d.reaches s
    split <;> rename_i heq <;> rw [heq] at h <;> exact h

@[simp] theorem run_pure (a : α) (s : σ) : (pure a : Decoder σ α).run s = (.ok a, s) := rfl

@[simp] theorem run_fail (e : Failure) (s : σ) :
    (fail e : Decoder σ α).run s = (.error e, s) := rfl

@[simp] theorem later_eq (d : Unit → Decoder σ α) : later d = d () := rfl

theorem run_bind (d : Decoder σ α) (f : α → Decoder σ β) (s : σ) :
    (d >>= f).run s =
      match d.run s with
      | (.ok a, t) => (f a).run t
      | (.error e, t) => (.error e, t) := rfl

instance : LawfulMonad (Decoder σ) :=
  LawfulMonad.mk' _
    (fun d => Decoder.ext (funext fun s => by
      show (match d.run s with | (.ok a, t) => _ | (.error e, t) => _) = d.run s
      rcases d.run s with ⟨_ | _, _⟩ <;> rfl))
    (fun _ _ => rfl)
    (fun d f g => Decoder.ext (funext fun s => by
      simp only [run_bind]
      rcases d.run s with ⟨_ | _, _⟩ <;> rfl))

theorem run_bind_eq_ok {d : Decoder σ α} {f : α → Decoder σ β} {s u : σ} {b : β}
    (h : (d >>= f).run s = (.ok b, u)) :
    ∃ a t, d.run s = (.ok a, t) ∧ (f a).run t = (.ok b, u) := by
  rw [run_bind] at h
  split at h
  · exact ⟨_, _, ‹_›, h⟩
  · cases h

theorem length_run_le (d : Decoder σ α) (s : σ) :
    (Feed.source (d.run s).2).left.length ≤ (Feed.source s).left.length :=
  (d.reaches s).length_le

/-- Success takes at least one byte. -/
def Consumes (d : Decoder σ α) : Prop :=
  ∀ s a t, d.run s = (.ok a, t) →
    (Feed.source t).left.length < (Feed.source s).left.length

theorem Consumes.bind {d : Decoder σ α} (hd : d.Consumes) (f : α → Decoder σ β) :
    (d >>= f).Consumes := by
  intro s b u h
  obtain ⟨a, t, ht, hu⟩ := run_bind_eq_ok h
  have := (f a).length_run_le t
  rw [hu] at this
  exact Nat.lt_of_le_of_lt this (hd s a t ht)

/-- A round that takes a byte whenever another round follows. -/
def Advances (round : α → Decoder σ (α ⊕ β)) : Prop :=
  ∀ a s b t, (round a).run s = (.ok (.inl b), t) →
    (Feed.source t).left.length < (Feed.source s).left.length

theorem advances_of_consumes {round : α → Decoder σ (α ⊕ β)} (h : ∀ a, (round a).Consumes) :
    Advances round :=
  fun a s b t hb => h a s (.inl b) t hb

/-- Round after round, each from the result of the one before, until one gives an end. -/
def roundsFrom (round : α → Decoder σ (α ⊕ β)) (advances : Advances round) (a : α) (s : σ) :
    Except Failure β × σ :=
  match h : (round a).run s with
  | (.ok (.inl b), t) =>
    have := advances a s b t h
    roundsFrom round advances b t
  | (.ok (.inr b), t) => (.ok b, t)
  | (.error e, t) => (.error e, t)
termination_by (Feed.source s).left.length

theorem roundsFrom_reaches (round : α → Decoder σ (α ⊕ β)) (advances : Advances round) (a : α)
    (s : σ) : (Feed.source s).Reaches (Feed.source (roundsFrom round advances a s).2) := by
  fun_induction roundsFrom round advances a s with
  | case1 a s b t h _ ih =>
    have hr := (round a).reaches s
    rw [h] at hr
    exact hr.trans ih
  | case2 a s b t h =>
    have hr := (round a).reaches s
    rw [h] at hr
    exact hr
  | case3 a s e t h =>
    have hr := (round a).reaches s
    rw [h] at hr
    exact hr

def rounds (round : α → Decoder σ (α ⊕ β)) (advances : Advances round) (a : α) : Decoder σ β where
  run := roundsFrom round advances a
  reaches := roundsFrom_reaches round advances a

end Decoder

namespace Reader

/-- The reply to one read of `n` bytes. -/
def ask (n : Nat) : Reader Reply where
  run s := (.ok (s.read n).1, (s.read n).2)
  reaches s := s.read_reaches n

theorem run_ask (n : Nat) (s : Source) : (ask n).run s = (.ok (s.read n).1, (s.read n).2) := rfl

/-- A block of exactly `n` bytes. A failure of the source comes out as it is. -/
def block (n : Nat) : Reader Bytes :=
  if n = 0 then pure []
  else do
    match ← ask n with
    | .bytes got => if got.length = n then pure got else .reject (.shortBlock n got.length)
    | .nothing => .reject (.shortBlock n 0)
    | .fault e => .fail e

/-- The reply to a read that asks for more than is left. -/
def askAll : Reader Reply where
  run s := (.ok (s.read (s.left.length + 1)).1, (s.read (s.left.length + 1)).2)
  reaches s := s.read_reaches _

/-- A block whose size is an integer. No block has a negative size: asking for one takes what a
read without a bound takes, and fails. -/
def signedBlock : Int → Reader Bytes
  | .ofNat n => block n
  | .negSucc n => do
    match ← askAll with
    | .bytes got => .reject (.shortBlock (.negSucc n) got.length)
    | .nothing => .reject (.shortBlock (.negSucc n) 0)
    | .fault e => .fail e

theorem signedBlock_ofNat (n : Nat) : signedBlock n = block n := rfl

/-- Takes bytes that are known beforehand. -/
def expect (expected : Bytes) : Reader Unit := do
  let got ← block expected.length
  if got = expected then pure () else .reject (.unexpectedBytes expected got)

/-- What the reader makes of a whole byte string; it need not take all of it. -/
def onBytes {α : Type} (reader : Reader α) (bytes : Bytes) : Except Failure α :=
  (reader.run (.ofBytes bytes)).1

/-- What the reader gives if any bytes are left. -/
def ifAny {α : Type} (reader : Reader α) : Reader (Option α) := do
  if (← Decoder.remaining) = 0 then pure none else some <$> reader

end Reader

end Replay
