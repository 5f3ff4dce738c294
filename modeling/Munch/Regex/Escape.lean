import Munch.Regex.Expr
import Munch.Regex.Source
import Munch.Text.Hexadecimal

/-! Escapes: what a backslash and a character mean, in a set and outside.

Both places know the escapes of single characters and the classes. Outside a set there are also
anchors and references to groups, which look like octal numbers: three octal digits or a leading
zero make a character, any other number a reference. In a set every octal digit begins a
character. -/
namespace Munch.Regex

/-- What an escape outside a set stands for. -/
inductive Escape
  | code (n : Nat)
  | ofClass (k : Class) (complement : Bool)
  | textStart
  | textEnd
  | wordEdge (complement : Bool)
  /-- Group `n`, written with `size` characters. -/
  | reference (n size : Nat)
deriving DecidableEq, Repr

namespace Escape

def isDigit (c : Point) : Bool := c.isChar Char.isDigit

def isOctal (c : Point) : Bool := c.isChar fun c => '0' ≤ c && c ≤ '7'

def isHex (c : Point) : Bool := (Text.hexValue? c).isSome

def number (base : Nat) (digits : Text) : Nat :=
  digits.foldl (fun n c => base * n + (c.toNat - 48)) 0

/-- The written form of an escape. -/
def spelling (c : Point) (more : Text := []) : Text := '\\' :: c :: more

/-- A character by exactly `count` hexadecimal digits after the letter `c`. -/
def byHex (c : Point) (count : Nat) : Reading Nat := do
  let digits ← Reading.takeWhile isHex count
  if digits.length ≠ count then
    Reading.fail (.incompleteEscape (spelling c digits)) (2 + digits.length)
  else
    let code := Text.hexNumber digits
    if 0x10ffff < code then Reading.fail (.badEscape (spelling c digits)) (2 + digits.length)
    else return code

/-- A character by its name in braces. -/
def byName : Reading Nat := do
  if ← Reading.accept '\x7b' then
    let name ← Reading.upTo '\x7d' "character name"
    if let some f := Failure.unencodable? name then throw (.unencodable f)
    match (← get).characters name with
    | some n => return n
    | none => Reading.fail (.undefinedCharacter name) (name.length + 4)
  else Reading.fail (.missing "\x7b")

/-- A character by octal digits, of which all are read. -/
def byOctal (digits : Text) : Reading Nat :=
  let code := number 8 digits
  if 0o377 < code then
    Reading.fail (.octalTooLarge ('\\' :: digits)) (digits.length + 1)
  else return code

/-- The control characters that have a letter. -/
def control? : Point → Option Nat
  | 'a' => some 7
  | 'f' => some 12
  | 'n' => some 10
  | 'r' => some 13
  | 't' => some 9
  | 'v' => some 11
  | _ => none

def class? : Point → Option (Class × Bool)
  | 'd' => some (.digit, false)
  | 'D' => some (.digit, true)
  | 's' => some (.blank, false)
  | 'S' => some (.blank, true)
  | 'w' => some (.word, false)
  | 'W' => some (.word, true)
  | _ => none

/-- The character that a backslash and `c` stand for, where numbers are dealt with: a letter must
have a meaning, and any other character stands for itself. -/
def character (c : Point) : Reading Nat :=
  match c, control? c with
  | _, some n => return n
  | 'x', _ => byHex 'x' 2
  | 'u', _ => byHex 'u' 4
  | 'U', _ => byHex 'U' 8
  | 'N', _ => byName
  | c, _ =>
    if c.isChar Char.isAlpha then Reading.fail (.badEscape (spelling c)) 2 else return c.toNat

/-- What a backslash and `c` mean in a set. -/
def inSet (c : Point) : Reading Escape := do
  if c = 'b' then return .code 8
  else if let some (k, complement) := class? c then return .ofClass k complement
  else if isOctal c then
    return .code (← byOctal (c :: (← Reading.takeWhile isOctal 2)))
  else if isDigit c then Reading.fail (.badEscape (spelling c)) 2
  else return .code (← character c)

/-- What a backslash and the digit `c`, which is not zero, mean outside a set. -/
def numbered (c : Point) : Reading Escape := do
  let second ← Reading.takeWhile isDigit 1
  let digits := c :: second
  let third ←
    if digits.length = 2 ∧ digits.all isOctal then Reading.takeWhile isOctal 1 else pure []
  if third.isEmpty then return .reference (number 10 digits) (digits.length + 1)
  else return .code (← byOctal (digits ++ third))

/-- What a backslash and `c` mean outside a set. -/
def outsideSet (c : Point) : Reading Escape := do
  if let some (k, complement) := class? c then return .ofClass k complement
  else
    match c with
    | 'A' => return .textStart
    | 'Z' => return .textEnd
    | 'b' => return .wordEdge false
    | 'B' => return .wordEdge true
    | '0' => return .code (← byOctal (c :: (← Reading.takeWhile isOctal 2)))
    | _ => if isDigit c then numbered c else return .code (← character c)

end Escape
end Munch.Regex
