import Munch.Text.Position
import Munch.Text.Quoted

/-! Tokens: what a scan finds in a text. -/
namespace Munch

/-- A piece of text, the kind it is of, and where it begins. A token that was not found in a text
has no place and counts it as -1. -/
structure Token where
  kind : Text
  value : Text
  line : Int := -1
  column : Int := -1
deriving DecidableEq, Repr

namespace Token

/-- The token that stands for the end of the input. -/
def endOfInput : Token := ⟨"eof", "", -1, -1⟩

/-- The text of a token in a log. -/
def shown (t : Token) : Text :=
  "Token(" ++ t.kind ++ ", " ++ Text.quoted t.value ++ s!", line={t.line}, column={t.column})"

/-- The line that lists a token: its place, kind and value, with tabs between. -/
def listing (t : Token) : Text :=
  s!"{t.line}:{t.column}\t" ++ t.kind ++ "\t" ++ Text.quoted t.value

end Token
end Munch
