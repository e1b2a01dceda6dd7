import Replay.Options
import Replay.Stream.EventKind
import Replay.Stream.Session

/-!
The raw event stream: a size table and then events, each a code byte and exactly as many bytes as
the table gives for the code. So events of unknown kinds can be skipped.
-/

namespace Replay

/-- What the payload of a known event tells the sink, and the slots after it. -/
def EventKind.decode (options : Options) (slots : Slots) (payload : Bytes) :
    EventKind → Except Failure (Option Call × Slots)
  | .gameStart => return (some (.gameStart (← Start.ofPayload payload)), slots)
  | .gameEnd => return (some (.gameEnd (← End.ofPayload payload)), slots)
  | .framePre =>
    if options.skipFrames then return (none, slots)
    else return (some (.framePre (← Pre.ofPayload slots payload)), slots)
  | .framePost =>
    if options.skipFrames then return (none, slots)
    else do
      let (post, slots) ← Post.ofPayload slots payload
      return (some (.framePost post), slots)

/-- An event that has been read: its length by the size table, with the code byte, its kind if that
is known, and the call that it gives rise to. -/
structure EventRecord where
  length : Nat
  kind : Option EventKind
  call : Option Call

namespace Run

/-- The decoded payload of a known event; nothing for the others. -/
def decodePayload (options : Options) (payload : Bytes) : Option EventKind → Run (Option Call)
  | none => pure none
  | some kind => do
    let (call, after) ← .ofResult (kind.decode options (← slots) payload)
    setSlots after
    pure call

/-- Takes and decodes one event, but does not deliver it. -/
def readRecord (options : Options) (table : SizeTable) : Run EventRecord := do
  let code ← ofReader Layout.u8.read
  note (.event code)
  match table.lookup code with
  | none => .reject (.unlistedEvent code)
  | some size => do
    let payload ← ofReader (Reader.signedBlock size)
    let kind := EventKind.ofCode? code
    let call ← decodePayload options payload kind
    pure { length := 1 + size.toNat, kind, call }

/-- Takes, decodes and delivers one event. A failure of the sink is not annotated. -/
def readEvent (sink : Sink) (options : Options) (table : SizeTable) (index : Option Int) :
    Run EventRecord := do
  let record ← (readRecord options table).annotated index
  match record.call with
  | some call => do
    deliver sink call
    pure record
  | none => pure record

def readSizes : Run SizeRecord := do
  let record ← ofReader SizeRecord.reader
  note (.sizes record.table)
  pure record

theorem consumes_readRecord (options : Options) (table : SizeTable) :
    (readRecord options table).Consumes :=
  (consumes_ofReader Layout.consumes_read_u8).bind _

theorem consumes_readEvent (sink : Sink) (options : Options) (table : SizeTable)
    (index : Option Int) : (readEvent sink options table index).Consumes :=
  ((consumes_readRecord options table).annotated index).bind _

end Run

/-- How far a run is through the raw stream: the number of events and of bytes, and whether the
last event ended the game. -/
structure Progress where
  events : Nat
  length : Nat
  ended : Bool

namespace Progress

/-- Whether another event follows. A stream without a declared length goes on until a game ends. -/
def goesOn (progress : Progress) (rawLength : Int) : Bool :=
  (rawLength == 0 || progress.length < rawLength) && !progress.ended

def add (progress : Progress) (record : EventRecord) : Progress where
  events := progress.events + 1
  length := progress.length + record.length
  ended := record.kind = some .gameEnd

end Progress

namespace Run

/-- The next event, or the end of the stream. -/
def nextEvent (sink : Sink) (options : Options) (rawLength : Int) (table : SizeTable)
    (progress : Progress) : Run (Progress ⊕ Progress) :=
  if progress.goesOn rawLength then do
    let record ← readEvent sink options table (some progress.events)
    pure (.inl (progress.add record))
  else pure (.inr progress)

theorem advances_nextEvent (sink : Sink) (options : Options) (rawLength : Int)
    (table : SizeTable) : Decoder.Advances (nextEvent sink options rawLength table) := by
  intro progress s after t h
  unfold nextEvent at h
  split at h
  · exact (consumes_readEvent sink options table _).bind _ s _ t h
  · cases h

def readEvents (sink : Sink) (options : Options) (rawLength : Int) (record : SizeRecord) :
    Run Progress :=
  .rounds (nextEvent sink options rawLength record.table)
    (advances_nextEvent sink options rawLength record.table)
    { events := 0, length := record.length, ended := false }

/-- The whole raw stream, whose length is given, or zero if it is not known. -/
def readRaw (sink : Sink) (options : Options) (rawLength : Int) : Run Nat :=
  onFreshSlots do
    let record ← readSizes.annotated none
    let progress ← readEvents sink options rawLength record
    if rawLength ≠ 0 ∧ progress.length ≠ rawLength then
      (Decoder.reject (.rawLength rawLength progress.length)).annotated none
    else
      note (.rawStream progress.events progress.length)
      pure progress.length

end Run

end Replay
