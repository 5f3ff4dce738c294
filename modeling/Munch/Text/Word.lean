import Munch.Text.Letter
import Munch.Text.Numeral

/-! Word characters and white space. -/
namespace Munch.Text

/-- Letters, digits, other numerals and the underscore. -/
def isWord (c : Point) : Bool := c == '_' || isLetter c || isDigit c || isOtherNumeral c

/-- White space: the separators of Unicode, and the controls that separate lines or fields. -/
def blankRanges : List (Nat × Nat) :=
  [(0x9, 0xd), (0x1c, 0x20), (0x85, 0x85), (0xa0, 0xa0), (0x1680, 0x1680), (0x2000, 0x200a),
    (0x2028, 0x2029), (0x202f, 0x202f), (0x205f, 0x205f), (0x3000, 0x3000)]

def isBlank (c : Point) : Bool := inRanges c.toNat blankRanges

/-- The word characters of ASCII. -/
def isAsciiWord (c : Point) : Bool := c == '_' || c.isChar Char.isAlphanum

/-- The white space of ASCII: space, tab, newline, carriage return, form feed, vertical tab. -/
def isAsciiBlank (c : Point) : Bool := c == ' ' || (0x9 ≤ c.toNat && c.toNat ≤ 0xd)

end Munch.Text
