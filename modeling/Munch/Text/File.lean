import Munch.Text.Newline
import Munch.Text.Utf8

/-! Text files: strict UTF-8, in which every line ending is read as one newline. -/
namespace Munch.Text

/-- The text of a file with the given bytes. -/
def ofFile (bytes : List UInt8) : Except Utf8.Fault (List Char) :=
  (Utf8.decode bytes).map normalizeNewlines

end Munch.Text
