import Replay.Text.CodePage932
import Replay.Text.Utf8

/-!
Text fields of a fixed width. A zero byte ends the text early, and what stands after it is left
over from earlier contents. The bytes come from what players typed and nobody has checked them,
so reading never fails.
-/

namespace Replay.Text

inductive Encoding where
  | codePage932
  | utf8

def Encoding.decode : Encoding → Bytes → List Char
  | .codePage932 => CodePage932.decode
  | .utf8 => Utf8.repair

def ofField (encoding : Encoding) (raw : Bytes) : String :=
  .ofList (encoding.decode raw.beforeZero)

end Replay.Text
