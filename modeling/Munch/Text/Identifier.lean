import Munch.Text.Letter
import Munch.Text.Mark
import Munch.Text.Numeral

/-! Identifiers of Unicode 14: a first character of the property XID_Start or an underscore, then
characters of XID_Continue. Both properties are the general categories up to a few characters,
which are listed here. -/
namespace Munch.Text

/-- Characters of XID_Start that are neither letters nor letter numbers. -/
def extraStarts : List (Nat × Nat) :=
  [(0x1885, 0x1886), (0x2118, 0x2118), (0x212e, 0x212e)]

/-- Letters that are not in XID_Start. -/
def excludedStarts : List (Nat × Nat) :=
  [(0x37a, 0x37a), (0xe33, 0xe33), (0xeb3, 0xeb3), (0x2e2f, 0x2e2f), (0xfc5e, 0xfc63),
   (0xfdfa, 0xfdfb), (0xfe70, 0xfe70), (0xfe72, 0xfe72), (0xfe74, 0xfe74), (0xfe76, 0xfe76),
   (0xfe78, 0xfe78), (0xfe7a, 0xfe7a), (0xfe7c, 0xfe7c), (0xfe7e, 0xfe7e), (0xff9e, 0xff9f)]

/-- Characters of XID_Continue that are no letters, letter numbers, digits or joiners. -/
def extraContinues : List (Nat × Nat) :=
  [(0xb7, 0xb7), (0x387, 0x387), (0x1369, 0x1371), (0x19da, 0x19da), (0x2118, 0x2118),
   (0x212e, 0x212e)]

/-- Letters that are not in XID_Continue. -/
def excludedContinues : List (Nat × Nat) :=
  [(0x37a, 0x37a), (0x2e2f, 0x2e2f), (0xfc5e, 0xfc63), (0xfdfa, 0xfdfb), (0xfe70, 0xfe70),
   (0xfe72, 0xfe72), (0xfe74, 0xfe74), (0xfe76, 0xfe76), (0xfe78, 0xfe78), (0xfe7a, 0xfe7a),
   (0xfe7c, 0xfe7c), (0xfe7e, 0xfe7e)]

def startsIdentifier (c : Point) : Bool :=
  c == '_' || inRanges c.toNat extraStarts ||
    ((isLetter c || isLetterNumber c) && !inRanges c.toNat excludedStarts)

def continuesIdentifier (c : Point) : Bool :=
  inRanges c.toNat extraContinues ||
    ((isLetter c || isLetterNumber c || isDigit c || isJoiner c) &&
      !inRanges c.toNat excludedContinues)

def isIdentifier : Text → Bool
  | [] => false
  | c :: rest => startsIdentifier c && rest.all continuesIdentifier

end Munch.Text
