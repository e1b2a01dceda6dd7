import Replay.Binary64
import Replay.Metadata.Place
import Replay.Metadata.Tree
import Replay.Text.Quoted

/-!
What can go wrong, and the words for it. A decoding error knows its cause and, once it has been
annotated, the place where it arose; other failures come from the source or the sink and pass
through as they are.
-/

namespace Replay

/-- The classes that decoding errors fall into. -/
inductive ErrorClass where
  | general
  | malformedEnvelope
  | unknownEventSize
  | byteAccounting
  | truncatedInput
  | invalidDiscriminant
  | invalidText
  | malformedMetadata
  | unsupportedValue
deriving DecidableEq

inductive Cause where
  /-- The container does not continue with the bytes it has to. -/
  | unexpectedBytes (expected got : Bytes)
  /-- The event stream starts with another code than that of its size table. -/
  | noSizeTable (got : Nat)
  | sizeTableLength (length : Nat)
  /-- The size table does not list the code of an event. -/
  | unlistedEvent (code : Nat)
  | rawLength (declared : Int) (read : Nat)
  | shortBlock (wanted : Int) (got : Nat)
  /-- A field of a fixed layout got too few bytes. -/
  | shortField (path : List String) (wanted got : Nat)
  /-- The source failed under a field of a fixed layout. -/
  | failedField (path : List String) (wanted : Nat)
  /-- A facing direction that is zero or not a number. -/
  | direction (x : Binary64)
  | port (n : Int)
  | unnamedValue (title : String) (value : Int)
  | text (raw : Bytes)
  | stringLengthMarker (got : Nat)
  | keyMarker (got : Nat)
  | nesting (limit : Nat)
  | shape (place : Metadata.Place) (got : Tree.Kind)
  | valueMarker (got : Nat)
  /-- An error that the source or the sink worded itself. -/
  | reported (errorClass : ErrorClass) (words : String)

namespace Cause

def errorClass : Cause → ErrorClass
  | .unexpectedBytes .. | .noSizeTable _ | .sizeTableLength _ => .malformedEnvelope
  | .unlistedEvent _ => .unknownEventSize
  | .rawLength .. => .byteAccounting
  | .shortBlock .. | .shortField .. | .failedField .. => .truncatedInput
  | .direction _ | .port _ | .unnamedValue .. => .invalidDiscriminant
  | .text _ => .invalidText
  | .stringLengthMarker _ | .keyMarker _ | .nesting _ | .shape .. => .malformedMetadata
  | .valueMarker _ => .unsupportedValue
  | .reported errorClass _ => errorClass

/-- The first line of a message about a field, with the names around the field. -/
def fieldHeading (path : List String) : String :=
  "unexpected EOF: Error in path (parsing)" ++ String.join (path.map (" -> " ++ ·)) ++ "\n"

/-- The three values that are no direction. -/
def signlessText (x : Binary64) : String :=
  if x.isNaN then "nan" else if x.negative then "-0.0" else "0.0"

def message : Cause → String
  | .unexpectedBytes expected got =>
    "expected " ++ Text.Quoted.ofBytes expected ++ ", got " ++ Text.Quoted.ofBytes got
  | .noSizeTable got => "expected event payloads (0x35), got " ++ Text.markedHex got
  | .sizeTableLength length => s!"invalid event payloads size: {length}"
  | .unlistedEvent code => "unknown event: " ++ Text.markedHex code
  | .rawLength declared read =>
    s!"failed to consume expected number of bytes: expected {declared}, read {read}"
  | .shortBlock wanted got => s!"unexpected EOF: wanted {wanted} bytes, got {got}"
  | .shortField path wanted got =>
    fieldHeading path ++
      s!"stream read less than specified amount, expected {wanted}, found {got}"
  | .failedField path wanted =>
    fieldHeading path ++ s!"stream.read() failed, requested {wanted} bytes"
  | .direction x => "invalid direction: " ++ signlessText x
  | .port n => s!"invalid port: {n}"
  | .unnamedValue title value => s!"invalid {title}: {value}"
  | .text raw => "invalid UTF-8 in metadata string: " ++ Text.Quoted.ofBytes raw
  | .stringLengthMarker got => "expected 0x55 for string length, got " ++ Text.markedHex got
  | .keyMarker got => "unexpected UBJSON key type: " ++ Text.markedHex got
  | .nesting limit => s!"metadata nested deeper than {limit} maps"
  | .shape place got =>
    "unexpected metadata shape: Expected `" ++ place.expected ++ "`, got `" ++ got.name ++
      "` - at `" ++ place.path ++ "`"
  | .valueMarker got => "unexpected UBJSON value type: " ++ Text.markedHex got
  | .reported _ words => words

end Cause

/-- A decoding error: its cause, how far into the source it arose, and the place of the event
among those of the stream. -/
structure DecodeError where
  cause : Cause
  offset : Option Int := none
  event : Option Int := none

namespace DecodeError

/-- Fills in what is not known yet. -/
def annotate (error : DecodeError) (event offset : Option Int) : DecodeError :=
  { error with event := error.event <|> event, offset := error.offset <|> offset }

/-- The parts of the place that are known. -/
def parts (error : DecodeError) : List String :=
  (error.event.map fun n => s!"event {n}").toList ++
    (error.offset.map fun n => "offset " ++ Text.markedHex n).toList

def message (error : DecodeError) : String :=
  match error.parts with
  | [] => error.cause.message
  | parts => error.cause.message ++ " (" ++ ", ".intercalate parts ++ ")"

end DecodeError

inductive Failure where
  | decode (error : DecodeError)
  /-- A failure of the source or the sink that is no decoding error. -/
  | outside (name text : String)
  /-- The source gave no answer to the read of a field. -/
  | silent

namespace Failure

def ofCause (cause : Cause) : Failure :=
  .decode { cause }

/-- Fills in the place of a decoding error; other failures have none. -/
def annotate (event offset : Option Int) : Failure → Failure
  | .decode error => .decode (error.annotate event offset)
  | failure => failure

end Failure

end Replay
