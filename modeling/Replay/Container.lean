import Replay.Metadata.Ubjson
import Replay.Stream.Events

/-!
The container of a replay: a map with the raw event stream and then the metadata. The framing
bytes are matched as they are.
-/

namespace Replay.Container

/-- The opening brace, the key `raw`, and the head of an array of bytes. -/
def rawPrologue : Bytes :=
  [0x7B, 0x55, 0x03, 0x72, 0x61, 0x77, 0x5B, 0x24, 0x55, 0x23, 0x6C]

/-- The key `metadata` and the opening brace of its map. -/
def metadataPrologue : Bytes :=
  [0x55, 0x08, 0x6D, 0x65, 0x74, 0x61, 0x64, 0x61, 0x74, 0x61, 0x7B]

/-- The closing brace. -/
def epilogue : Bytes := [0x7D]

/-- The declared length of the raw stream, zero if it is not known. -/
def readHead : Reader Nat := do
  Reader.expect rawPrologue
  Layout.u32.read

def readMetadata : Reader (List (String × Tree)) := do
  Reader.expect metadataPrologue
  Ubjson.readMap 0

def run (sink : Sink) (options : Options) : Run Unit := do
  let rawLength ← (Run.ofReader readHead).annotated none
  Run.note (.rawLength rawLength)
  let _ ← Run.readRaw sink options rawLength
  let entries ← (Run.ofReader readMetadata).annotated none
  Run.deliver sink (.metadata entries)
  (Run.ofReader (Reader.expect epilogue)).annotated none

/-- Decodes a replay from a source. Offsets in errors count the bytes taken from here on. -/
def decode (sink : Sink) (options : Options) (source : Source) : Except Failure Unit × Session :=
  (run sink options).run { source := source.counted }

def decodeBytes (sink : Sink) (options : Options) (bytes : Bytes) :
    Except Failure Unit × Session :=
  decode sink options (.ofBytes bytes)

end Replay.Container
