import Munch.Text.Point

/-! Where a text continues: lines and columns.

A `Position` is a line and a column; `advance` says where one stands after reading a piece of text
from a position. A newline ends a line, and nothing else does. -/
namespace Munch

/-- A line and a column. Scans begin on line 1, in column 0. -/
structure Position where
  line : Int := 1
  column : Int := 0
deriving DecidableEq, Repr, Inhabited

namespace Text

/-- The characters of a text after its last newline. -/
def lastLine (text : Text) : Text := (text.reverse.takeWhile (· ≠ .char '\n')).reverse

end Text

namespace Position

/-- The position after reading `text` from `p`: a newline anywhere in it makes the column count
from the last one. -/
def advance (p : Position) (text : Text) : Position :=
  if Point.char '\n' ∈ text then ⟨p.line + text.count (Point.char '\n'), text.lastLine.length⟩
  else ⟨p.line, p.column + text.length⟩

theorem advance_nil (p : Position) : p.advance [] = p := by
  simp [advance]

end Position
end Munch
