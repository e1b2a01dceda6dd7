import Replay.Proofs.Layers

/-!
Payloads read at offsets. What a layout gives lies at fixed offsets of the data, and a part that
newer producers append lies at one too, if the data goes so far. So what a chain of readers gives
can be told from the length of the data and the numbers in it, without reading what stands before.
-/

namespace Replay

namespace Bytes

variable {α : Type}

def u8At (bytes : Bytes) (offset : Nat) : Nat :=
  (bytes.slice offset 1).unsigned

def u16At (bytes : Bytes) (offset : Nat) : Nat :=
  (bytes.slice offset 2).unsigned

def u32At (bytes : Bytes) (offset : Nat) : Nat :=
  (bytes.slice offset 4).unsigned

def i8At (bytes : Bytes) (offset : Nat) : Int :=
  (bytes.slice offset 1).signed

def i32At (bytes : Bytes) (offset : Nat) : Int :=
  (bytes.slice offset 4).signed

def f32At (bytes : Bytes) (offset : Nat) : Binary64 :=
  .ofSingle (bytes.u32At offset)

/-- What is there only if the bytes go past the offset. -/
def past (bytes : Bytes) (offset : Nat) (a : α) : Option α :=
  if bytes.length ≤ offset then none else some a

@[simp] theorem map_past {β : Type} (f : α → β) (bytes : Bytes) (offset : Nat) (a : α) :
    (bytes.past offset a).map f = bytes.past offset (f a) := by
  unfold past
  split <;> rfl

/-- What goes past a further offset goes past the first one. -/
theorem bind_past {β : Type} {f : α → Option β} {bytes : Bytes} {offset further : Nat} {a : α}
    {b : β} (h : offset ≤ further) (hf : f a = bytes.past further b) :
    (bytes.past offset a).bind f = bytes.past further b := by
  unfold past at *
  split
  · rw [if_pos (Nat.le_trans ‹_› h), Option.bind_none]
  · exact hf

@[simp] theorem u8At_drop (bytes : Bytes) (start offset : Nat) :
    u8At (bytes.drop start) offset = bytes.u8At (start + offset) := by
  rw [u8At, slice_drop, u8At]

@[simp] theorem u16At_drop (bytes : Bytes) (start offset : Nat) :
    u16At (bytes.drop start) offset = bytes.u16At (start + offset) := by
  rw [u16At, slice_drop, u16At]

@[simp] theorem u32At_drop (bytes : Bytes) (start offset : Nat) :
    u32At (bytes.drop start) offset = bytes.u32At (start + offset) := by
  rw [u32At, slice_drop, u32At]

@[simp] theorem i8At_drop (bytes : Bytes) (start offset : Nat) :
    i8At (bytes.drop start) offset = bytes.i8At (start + offset) := by
  rw [i8At, slice_drop, i8At]

@[simp] theorem i32At_drop (bytes : Bytes) (start offset : Nat) :
    i32At (bytes.drop start) offset = bytes.i32At (start + offset) := by
  rw [i32At, slice_drop, i32At]

@[simp] theorem f32At_drop (bytes : Bytes) (start offset : Nat) :
    f32At (bytes.drop start) offset = bytes.f32At (start + offset) := by
  rw [f32At, u32At_drop, f32At]

theorem u32At_lt (bytes : Bytes) (offset : Nat) : bytes.u32At offset < 2 ^ 32 := by
  have hlength : (bytes.slice offset 4).length ≤ 4 := List.length_take_le ..
  calc bytes.u32At offset < 256 ^ (bytes.slice offset 4).length := (bigEndian_unsigned _).1
    _ ≤ 256 ^ 4 := Nat.pow_le_pow_right (by decide) hlength
    _ = 2 ^ 32 := by decide

end Bytes

namespace Layout

variable {α β : Type} (bytes : Bytes)

@[simp] theorem valueOf_block (size : Nat) : (block size).valueOf bytes = bytes.slice 0 size := rfl

@[simp] theorem valueOf_named (name : String) (layout : Layout α) :
    (named name layout).valueOf bytes = layout.valueOf bytes := rfl

@[simp] theorem valueOf_map (f : α → β) (layout : Layout α) :
    (f <$> layout).valueOf bytes = f (layout.valueOf bytes) := rfl

@[simp] theorem valueOf_seq (f : Layout (α → β)) (layout : Layout α) :
    (f <*> layout).valueOf bytes = f.valueOf bytes (layout.valueOf (bytes.drop f.size)) := rfl

@[simp] theorem valueOf_u8 : u8.valueOf bytes = bytes.u8At 0 := rfl

@[simp] theorem valueOf_u16 : u16.valueOf bytes = bytes.u16At 0 := rfl

@[simp] theorem valueOf_u32 : u32.valueOf bytes = bytes.u32At 0 := rfl

@[simp] theorem valueOf_seqLeft (layout : Layout α) (rest : Layout β) :
    (layout <* rest).valueOf bytes = layout.valueOf bytes := rfl

@[simp] theorem valueOf_i8 : i8.valueOf bytes = bytes.i8At 0 := rfl

@[simp] theorem valueOf_i32 : i32.valueOf bytes = bytes.i32At 0 := rfl

@[simp] theorem valueOf_f32 : f32.valueOf bytes = bytes.f32At 0 := rfl

@[simp] theorem valueOf_flag : flag.valueOf bytes = (bytes.u8At 0 != 0) := rfl

@[simp] theorem size_block (size : Nat) : (block size).size = size := rfl

@[simp] theorem size_named (name : String) (layout : Layout α) :
    (named name layout).size = layout.size := rfl

@[simp] theorem size_map (f : α → β) (layout : Layout α) : (f <$> layout).size = layout.size := rfl

@[simp] theorem size_seq (f : Layout (α → β)) (layout : Layout α) :
    (f <*> layout).size = f.size + layout.size := rfl

@[simp] theorem size_seqLeft (layout : Layout α) (rest : Layout β) :
    (layout <* rest).size = layout.size + rest.size := rfl

@[simp] theorem size_padding (size : Nat) : (padding size).size = size := rfl

@[simp] theorem size_perPort (layout : Layout α) : (perPort layout).size = 4 * layout.size := by
  simp [perPort]
  omega

@[simp] theorem size_u8 : u8.size = 1 := rfl

@[simp] theorem size_u16 : u16.size = 2 := rfl

@[simp] theorem size_u32 : u32.size = 4 := rfl

@[simp] theorem size_i8 : i8.size = 1 := rfl

@[simp] theorem size_i32 : i32.size = 4 := rfl

@[simp] theorem size_f32 : f32.size = 4 := rfl

@[simp] theorem size_flag : flag.size = 1 := rfl

/-- The parts of the ports follow one another. -/
@[simp] theorem valueOf_perPort (layout : Layout α) :
    (perPort layout).valueOf bytes =
      .ofFn fun port => layout.valueOf (bytes.drop (layout.size * port)) := by
  ext1 port hport
  simp only [perPort, valueOf_seq, valueOf_map, size_map, size_seq, Vector.getElem_ofFn]
  match port with
  | 0 => rw [Nat.mul_zero, List.drop_zero]; rfl
  | 1 => rw [Nat.mul_one]; rfl
  | 2 => rw [Nat.mul_two]; rfl
  | 3 => rw [Nat.mul_succ, Nat.mul_two]; rfl

end Layout

namespace Source

/-- Data in memory of which everything in front of the offset has been taken. -/
def ofBytesAt (bytes : Bytes) (offset : Nat) : Source :=
  (ofBytes bytes).skip offset

variable (bytes : Bytes) (offset : Nat)

theorem ofBytesAt_zero : ofBytesAt bytes 0 = ofBytes bytes :=
  skip_zero _

theorem inMemory_ofBytesAt : (ofBytesAt bytes offset).InMemory :=
  (inMemory_ofBytes bytes).skip offset

theorem length_left_ofBytesAt : (ofBytesAt bytes offset).left.length = bytes.length - offset :=
  List.length_drop

theorem skip_ofBytesAt (n : Nat) : (ofBytesAt bytes offset).skip n = ofBytesAt bytes (offset + n) :=
  skip_skip ..

end Source

/-- A result is as foretold: it is the value, or a failure for a cause of the class. -/
inductive Foretold {α : Type} : Except ErrorClass α → Except Failure α → Prop where
  | ok (a : α) : Foretold (.ok a) (.ok a)
  | error (cause : Cause) : Foretold (.error cause.errorClass) (.error (.ofCause cause))

namespace Reader

variable {α β : Type} {reader : Reader α} {payload : Bytes} {offset : Nat}

theorem run_read_ofBytesAt (layout : Layout α) (h : offset + layout.size ≤ payload.length) :
    layout.read.run (.ofBytesAt payload offset) =
      (.ok (layout.valueOf (payload.drop offset)), .ofBytesAt payload (offset + layout.size)) := by
  rw [← Source.skip_ofBytesAt]
  refine Layout.readUnder_of_size_le [] (Source.inMemory_ofBytesAt ..) ?_
  rw [Source.length_left_ofBytesAt]
  omega

theorem runsDry_read_ofBytesAt (layout : Layout α) (hoffset : offset ≤ payload.length)
    (h : payload.length < offset + layout.size) :
    layout.read.RunsDry (.ofBytesAt payload offset) := by
  refine runsDry_readUnder [] (Source.inMemory_ofBytesAt ..) ?_
  rw [Source.length_left_ofBytesAt]
  omega

theorem RunsDry.foretold {s : Source} (h : reader.RunsDry s) :
    Foretold (.error .truncatedInput) (reader.run s).1 := by
  obtain ⟨cause, t, hr, hc, -⟩ := h
  rw [hr, ← hc]
  exact .error cause

/-- At the offset of the payload the reader finds the value if there is enough, and otherwise runs
dry. -/
structure FindsAt (reader : Reader α) (payload : Bytes) (offset : Nat) (enough : Prop) (a : α) :
    Prop where
  found : enough → ∃ t, reader.run (.ofBytesAt payload offset) = (.ok a, t)
  runsDry : ¬enough → reader.RunsDry (.ofBytesAt payload offset)

namespace FindsAt

variable {enough : Prop} {a : α} {b : β}

theorem read {layout : Layout α} {stop : Nat} (hoffset : offset ≤ payload.length)
    (hstop : offset + layout.size = stop) (ha : layout.valueOf (payload.drop offset) = a) :
    layout.read.FindsAt payload offset (stop ≤ payload.length) a where
  found h := ⟨_, ha ▸ run_read_ofBytesAt layout (hstop ▸ h)⟩
  runsDry h := runsDry_read_ofBytesAt layout hoffset (hstop ▸ Nat.lt_of_not_le h)

theorem congr {enough' : Prop} (h : reader.FindsAt payload offset enough a)
    (he : enough ↔ enough') : reader.FindsAt payload offset enough' a :=
  propext he ▸ h

theorem map (h : reader.FindsAt payload offset enough a) (f : α → β) :
    (f <$> reader).FindsAt payload offset enough (f a) where
  found he := by
    obtain ⟨t, hr⟩ := h.found he
    rw [map_eq_pure_bind]
    exact ⟨t, Decoder.run_bind_of_ok hr _⟩
  runsDry he := by
    rw [map_eq_pure_bind]
    exact (h.runsDry he).bind _

theorem ifAny (h : offset < payload.length → reader.FindsAt payload offset enough a) :
    reader.ifAny.FindsAt payload offset (payload.length ≤ offset ∨ enough)
      (payload.past offset a) := by
  have hlength := Source.length_left_ofBytesAt payload offset
  rcases Nat.lt_or_ge offset payload.length with hlt | hle
  · have hrun : reader.ifAny.run (.ofBytesAt payload offset) =
        (some <$> reader).run (.ofBytesAt payload offset) := by
      rw [ifAny_run, if_neg (by omega)]
    rw [Bytes.past, if_neg (Nat.not_le_of_lt hlt)]
    constructor
    · intro he
      rw [hrun]
      exact ((h hlt).map some).found (he.resolve_left (Nat.not_le_of_lt hlt))
    · intro he
      rw [RunsDry, hrun]
      exact ((h hlt).map some).runsDry fun h' => he (.inr h')
  · rw [Bytes.past, if_pos hle]
    refine ⟨fun _ => ⟨.ofBytesAt payload offset, ?_⟩, fun he => absurd (.inl hle) he⟩
    rw [ifAny_run, if_pos (by omega)]

/-- A part, and behind it what there may be more. -/
theorem extended {layout : Layout α} {next : Reader β} {head : α} {stop : Nat}
    (hoffset : offset ≤ payload.length) (hstop : offset + layout.size = stop)
    (hhead : layout.valueOf (payload.drop offset) = head)
    (h : stop < payload.length → next.FindsAt payload stop enough b) :
    (layout.extended next).FindsAt payload offset
      (stop ≤ payload.length ∧ (payload.length ≤ stop ∨ enough)) ⟨head, payload.past stop b⟩ := by
  subst hstop hhead
  have hmore := FindsAt.ifAny h
  constructor
  · rintro ⟨hle, he⟩
    obtain ⟨t, hr⟩ := hmore.found he
    refine ⟨t, ?_⟩
    rw [Layout.extended, Decoder.run_bind_of_ok (run_read_ofBytesAt layout hle),
      Decoder.run_bind_of_ok hr]
    rfl
  · intro he
    rcases Nat.lt_or_ge payload.length (offset + layout.size) with hlt | hle
    · exact (runsDry_read_ofBytesAt layout hoffset hlt).bind _
    · exact .of_bind (run_read_ofBytesAt layout hle)
        ((hmore.runsDry fun h' => he ⟨hle, h'⟩).bind _)

end FindsAt

end Reader

namespace Foretold

open Reader

variable {α β : Type} {payload : Bytes} {offset : Nat} {expected : Except ErrorClass β}

/-- A payload is checked for the bytes of a layout before anything behind them. -/
theorem read_bind {layout : Layout α} {next : α → Reader β} {stop : Nat}
    (hoffset : offset ≤ payload.length) (hstop : offset + layout.size = stop)
    (hnext : stop ≤ payload.length →
      Foretold expected ((next (layout.valueOf (payload.drop offset))).run
        (.ofBytesAt payload stop)).1) :
    Foretold (if payload.length < stop then .error .truncatedInput else expected)
      ((layout.read >>= next).run (.ofBytesAt payload offset)).1 := by
  subst hstop
  split
  · exact ((runsDry_read_ofBytesAt layout hoffset ‹_›).bind next).foretold
  · rename_i hle
    rw [Decoder.run_bind_of_ok (run_read_ofBytesAt layout (Nat.le_of_not_lt hle))]
    exact hnext (Nat.le_of_not_lt hle)

/-- And for the bytes of a part that is cut short, before what comes of the part. -/
theorem findsAt_bind {reader : Reader α} {next : α → Reader β} {cut : Prop} [Decidable cut] {a : α}
    (h : reader.FindsAt payload offset (¬cut) a)
    (hnext : ∀ t, Foretold expected ((next a).run t).1) :
    Foretold (if cut then .error .truncatedInput else expected)
      ((reader >>= next).run (.ofBytesAt payload offset)).1 := by
  split
  · exact ((h.runsDry (not_not_intro ‹_›)).bind next).foretold
  · obtain ⟨t, hr⟩ := h.found ‹_›
    rw [Decoder.run_bind_of_ok hr]
    exact hnext t

end Foretold

end Replay
