import Replay.Text.Blank
import Replay.Text.Quoted

/-!
The options of a decoding run, and how the environment sets them.
-/

namespace Replay

structure Options where
  /-- Frame events are taken from the source but neither decoded nor delivered. -/
  skipFrames : Bool := false

/-- A variable that has to be true or false and is neither. -/
structure NotBoolean where
  name : String
  value : String

def NotBoolean.message (error : NotBoolean) : String :=
  error.name ++ " must be a boolean, got " ++ Text.Quoted.ofText error.value

namespace Options

def skipFramesVariable : String := "SLPSTREAM_SKIP_FRAMES"

def trueWords : List String := ["1", "true", "yes", "on"]

def falseWords : List String := ["", "0", "false", "no", "off"]

/-- Only the letters of ASCII are lowered; no other character lowers to a letter of these words. -/
def boolean (name value : String) : Except NotBoolean Bool :=
  let word := (Text.trim value).toLower
  if trueWords.contains word then .ok true
  else if falseWords.contains word then .ok false
  else .error { name, value }

def ofEnvironment (environment : List (String × String)) : Except NotBoolean Options :=
  (boolean skipFramesVariable ((environment.lookup skipFramesVariable).getD "")).map
    fun skipFrames => { skipFrames }

end Options

end Replay
