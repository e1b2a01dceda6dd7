import Replay.Frame.Post
import Replay.Game.End
import Replay.Game.Start
import Replay.Stream.SizeTable

/-!
The state of a decoding run: the source, the characters in the slots, what has been delivered to
the sink, and what has been noted on the way.
-/

namespace Replay

/-- What a sink is told. -/
inductive Call where
  | gameStart (start : Start)
  | gameEnd (finish : End)
  | framePre (event : FrameEvent Pre)
  | framePost (event : FrameEvent Post)
  | metadata (entries : List (String × Tree))

/-- The answer of a sink to all calls so far, the newest one last: nothing, or a failure. -/
abbrev Sink := Array Call → Option Failure

/-- The sink that takes everything. -/
def Sink.quiet : Sink := fun _ => none

inductive Note where
  | rawLength (length : Nat)
  | sizes (table : SizeTable)
  | event (code : Nat)
  | rawStream (events length : Nat)

namespace Note

def sizeText (code : Nat) (size : Int) : String :=
  "'" ++ Text.markedHex code ++ "': " ++ toString size

def sizesText (table : SizeTable) : String :=
  "\x7b" ++ ", ".intercalate (table.map fun (code, size) => sizeText code size) ++ "\x7d"

def message : Note → String
  | .rawLength length => s!"raw length: {length}"
  | .sizes table => "event payload sizes: " ++ sizesText table
  | .event code => "event " ++ Text.markedHex code
  | .rawStream events length => s!"raw stream: {events} events, {length} bytes"

end Note

structure Session where
  source : Source
  slots : Slots := .initial
  calls : Array Call := #[]
  notes : Array Note := #[]

instance : Feed Session where
  source := Session.source

/-- Steps of a decoding run. -/
abbrev Run (α : Type) := Decoder Session α

namespace Run

variable {α : Type}

def ofReader (reader : Reader α) : Run α where
  run s := ((reader.run s.source).1, { s with source := (reader.run s.source).2 })
  reaches s := reader.reaches s.source

def slots : Run Slots where
  run s := (.ok s.slots, s)
  reaches _ := .refl _

def setSlots (slots : Slots) : Run Unit where
  run s := (.ok (), { s with slots })
  reaches _ := .refl _

def note (note : Note) : Run Unit where
  run s := (.ok (), { s with notes := s.notes.push note })
  reaches _ := .refl _

/-- Tells the sink. The call is made even if the sink fails on it. -/
def deliver (sink : Sink) (call : Call) : Run Unit where
  run s :=
    let calls := s.calls.push call
    (match sink calls with
      | none => .ok ()
      | some e => .error e, { s with calls })
  reaches _ := .refl _

/-- Runs on slots of its own and leaves those of the session as they were. -/
def onFreshSlots (run : Run α) : Run α where
  run s :=
    let (result, t) := run.run { s with slots := .initial }
    (result, { t with slots := s.slots })
  reaches s := run.reaches { s with slots := .initial }

theorem consumes_ofReader {reader : Reader α} (h : reader.Consumes) :
    (ofReader reader).Consumes := by
  intro s a t hr
  obtain ⟨h₁, rfl⟩ := Prod.ext_iff.mp hr
  exact h s.source a (reader.run s.source).2 (Prod.ext h₁ rfl)

end Run

theorem Decoder.Consumes.annotated {σ α : Type} [Feed σ] {d : Decoder σ α} (h : d.Consumes)
    (event : Option Int) : (d.annotated event).Consumes := by
  intro s a t hr
  simp only [Decoder.annotated] at hr
  split at hr
  · cases hr
    exact h s a t ‹_›
  · cases hr

end Replay
