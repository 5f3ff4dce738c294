import Munch.Text.Printable

/-! Quoted text: a text between quotes on one line, readable back.

A text is put in single quotes, or in double quotes when it holds a single quote and no double
one. The quote in use and the backslash are escaped by a backslash; tab, newline and carriage
return are written `\t`, `\n` and `\r`; every other character that is not to stand as it is
becomes `\xNN`, `\uNNNN` or `\UNNNNNNNN`, the first form that its code fits. -/
namespace Munch.Text.Quoted

def hexDigit (n : Nat) : Char := if n < 10 then Char.ofNat (48 + n) else Char.ofNat (87 + n)

/-- The lowest `width` hexadecimal digits of `n`, most significant first. -/
def hexDigits (n : Nat) : Nat → Text
  | 0 => []
  | width + 1 => hexDigits (n / 16) width ++ [.char (hexDigit (n % 16))]

/-- The quote that a text is written in. -/
def quoteOf (text : Text) : Point :=
  if Point.char '\'' ∈ text ∧ Point.char '"' ∉ text then '"' else '\''

/-- The escape of a point by its code. -/
def codeEscape (c : Point) : Text :=
  if c.toNat < 0x100 then '\\' :: 'x' :: hexDigits c.toNat 2
  else if c.toNat < 0x10000 then '\\' :: 'u' :: hexDigits c.toNat 4
  else '\\' :: 'U' :: hexDigits c.toNat 8

/-- The written form of a character between quotes; `stands` tells which characters may be written
as they are. -/
def encodeChar (stands : Point → Bool) (quote c : Point) : Text :=
  if c = quote ∨ c = '\\' then ['\\', c]
  else if c = '\t' then ['\\', 't']
  else if c = '\n' then ['\\', 'n']
  else if c = '\r' then ['\\', 'r']
  else if stands c then [c]
  else codeEscape c

/-- A text between quotes. -/
def encode (stands : Point → Bool) (text : Text) : Text :=
  let quote := quoteOf text
  quote :: (text.flatMap (encodeChar stands quote) ++ [quote])

end Munch.Text.Quoted

namespace Munch.Text

/-- The quoted form of a text, in which printable characters stand as they are. -/
def quoted (text : Text) : Text := Quoted.encode isPrintable text

/-- The quoted form of a sequence of bytes, given as characters below U+0100: printable ASCII
stands as it is, and the letter `b` comes before the quotes. -/
def quotedBytes (bytes : Text) : Text :=
  'b' :: Quoted.encode (fun c => 0x20 ≤ c.toNat && c.toNat < 0x7f) bytes

end Munch.Text
