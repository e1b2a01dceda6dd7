import Replay.Decoder

/-!
Layouts of a fixed size: blocks in a row, some with names, and functions that make values of them.
A layout is data, so that its size can be computed and its reading reasoned about. Each block is
one read, and the first block that gets too few bytes names itself by the path of names around it.
-/

namespace Replay

inductive Layout : Type → Type 1 where
  | value {α : Type} (a : α) : Layout α
  | block (size : Nat) : Layout Bytes
  | named {α : Type} (name : String) (layout : Layout α) : Layout α
  | map {α β : Type} (f : α → β) (layout : Layout α) : Layout β
  | seq {α β : Type} (f : Layout (α → β)) (layout : Layout α) : Layout β

namespace Layout

instance : Applicative Layout where
  pure := .value
  map := .map
  seq f layout := .seq f (layout ())

def size {α : Type} : Layout α → Nat
  | .value _ => 0
  | .block size => size
  | .named _ layout => layout.size
  | .map _ layout => layout.size
  | .seq f layout => f.size + layout.size

/-- One block as a field under a path. A failure of the source is reported as that of the field. -/
def readBlock (path : List String) (size : Nat) : Reader Bytes := do
  match ← Reader.ask size with
  | .bytes got =>
    if got.length = size then pure got else .reject (.shortField path size got.length)
  | .nothing => .fail .silent
  | .fault _ => .reject (.failedField path size)

def readUnder {α : Type} (path : List String) : Layout α → Reader α
  | .value a => pure a
  | .block size => readBlock path size
  | .named name layout => layout.readUnder (path ++ [name])
  | .map f layout => do
    let a ← layout.readUnder path
    pure (f a)
  | .seq f layout => do
    let g ← f.readUnder path
    let a ← layout.readUnder path
    pure (g a)

def read {α : Type} (layout : Layout α) : Reader α :=
  layout.readUnder []

/-- Bytes that carry nothing. -/
def padding (size : Nat) : Layout Unit :=
  (fun _ => ()) <$> block size

def u8 : Layout Nat := Bytes.unsigned <$> block 1

def u16 : Layout Nat := Bytes.unsigned <$> block 2

def u32 : Layout Nat := Bytes.unsigned <$> block 4

def i8 : Layout Int := Bytes.signed <$> block 1

def i32 : Layout Int := Bytes.signed <$> block 4

def f32 : Layout Binary64 := (fun raw => .ofSingle raw.unsigned) <$> block 4

/-- True for every byte but zero. -/
def flag : Layout Bool := (· != 0) <$> u8

/-- The same layout once for each of the four ports. -/
def perPort {α : Type} (layout : Layout α) : Layout (Vector α 4) :=
  (fun a b c d => #v[a, b, c, d]) <$> layout <*> layout <*> layout <*> layout

theorem run_readBlock (path : List String) (size : Nat) (s : Source) :
    (readBlock path size).run s =
      match s.read size with
      | (.bytes got, t) =>
        (if got.length = size then .ok got
          else .error (.ofCause (.shortField path size got.length)), t)
      | (.nothing, t) => (.error .silent, t)
      | (.fault _, t) => (.error (.ofCause (.failedField path size)), t) := by
  rw [readBlock, Decoder.run_bind, Reader.run_ask]
  rcases s.read size with ⟨reply, t⟩
  cases reply with
  | bytes got => dsimp only; split <;> rfl
  | nothing => rfl
  | fault e => rfl

theorem consumes_readBlock {path : List String} {size : Nat} (h : 0 < size) :
    (readBlock path size).Consumes := by
  intro s raw t hr
  rw [run_readBlock] at hr
  split at hr
  · rename_i got u hs
    have := s.length_read_bytes hs
    split at hr
    · cases hr
      simp only [Feed.source]
      omega
    · cases hr
  · cases hr
  · cases hr

theorem consumes_read_u8 : u8.read.Consumes :=
  Decoder.Consumes.bind (consumes_readBlock (Nat.one_pos : 0 < 1)) _

end Layout

/-- A decoded part and the part that newer producers append to it. -/
structure Extended (α β : Type) where
  head : α
  more : Option β

/-- A part of a fixed layout and what may follow it. -/
def Layout.extended {α β : Type} (layout : Layout α) (next : Reader β) :
    Reader (Extended α β) := do
  let head ← layout.read
  let more ← next.ifAny
  pure { head, more }

end Replay
