import Munch.Regex.Fault
import Munch.Text.Letter

/-! The source of a regular expression as it is read: a sequence of symbols, each a character or a
backslash with the character after it. A backslash with nothing after it is a fault as soon as the
symbol before it has been taken. Reading may warn of places that look like a mistake, and goes
on. -/
namespace Munch.Regex

inductive Symbol
  | plain (c : Point)
  | escape (c : Point)
deriving DecidableEq, Repr

namespace Symbol

def chars : Symbol → Text
  | plain c => [c]
  | escape c => ['\\', c]

def size (s : Symbol) : Nat := s.chars.length

def isLetter : Symbol → Bool
  | plain c => Text.isLetter c
  | escape _ => false

end Symbol

/-- What is left to read of a source: the symbols, the offset of the first of them, and whether a
lone backslash comes after them. Characters are looked up in `characters` by their names. -/
structure Source where
  characters : Text → Option Nat
  offset : Nat := 0
  rest : List Symbol
  dangling : Bool
  /-- The warnings so far. -/
  warnings : List String := []

namespace Source

/-- The symbols of a text, and whether a lone backslash ends it. -/
def symbols : Text → List Symbol × Bool
  | [] => ([], false)
  | ['\\'] => ([], true)
  | '\\' :: c :: text => let (rest, dangling) := symbols text; (.escape c :: rest, dangling)
  | c :: text => let (rest, dangling) := symbols text; (.plain c :: rest, dangling)

def ofText (characters : Text → Option Nat) (text : Text) : Source :=
  let (rest, dangling) := symbols text
  { characters, rest, dangling }

end Source

/-- Reading from a source, which may find a fault. -/
abbrev Reading (α : Type) : Type := ExceptT Fault (StateM Source) α

namespace Reading

/-- A fault at `back` characters before the place that reading has reached. -/
def fail {α : Type} (p : Problem) (back : Nat := 0) : Reading α := do
  throw (.problem p ((← get).offset - back))

/-- A warning of the place `back` characters before the one that reading has reached. -/
def warn (what : String) (back : Nat := 0) : Reading Unit :=
  modify fun s =>
    { s with warnings := s.warnings ++ [s!"Possible {what} at position {s.offset - back}"] }

/-- Refuses a source of which only a lone backslash is left. -/
def checkDangling : Reading Unit := do
  let s ← get
  if s.rest.isEmpty && s.dangling then fail .danglingEscape

def offset : Reading Nat := return (← get).offset

/-- The number of symbols left. -/
def remaining : Reading Nat := return (← get).rest.length

def peek : Reading (Option Symbol) := return (← get).rest.head?

/-- The next symbol, which is taken; none at the end. -/
def take : Reading (Option Symbol) := do
  let s ← get
  match s.rest with
  | [] => return none
  | x :: rest =>
    set { s with offset := s.offset + x.size, rest }
    checkDangling
    return some x

/-- Takes the next symbol if it is the character `c`. -/
def accept (c : Char) : Reading Bool := do
  if (← peek) = some (.plain c) then
    let _ ← take
    return true
  else return false

/-- Takes characters as long as they satisfy `p`, at most `limit`. -/
def takeWhile (p : Point → Bool) : (limit : Nat) → Reading Text
  | 0 => return []
  | limit + 1 => do
    match ← peek with
    | some (.plain c) =>
      if p c then
        let _ ← take
        return c :: (← takeWhile p limit)
      else return []
    | _ => return []

/-- The text up to `terminator`, which is taken too, given the characters read so far and a bound
on the symbols left. -/
def upToFrom (terminator : Char) (what : String) (read : Text) : (left : Nat) → Reading Text
  | 0 =>
    if read.isEmpty then fail (.missing what) else fail (.unterminatedName terminator) read.length
  | left + 1 => do
    match ← take with
    | none => upToFrom terminator what read 0
    | some x =>
      if x = .plain terminator then
        if read.isEmpty then fail (.missing what) 1 else return read
      else upToFrom terminator what (read ++ x.chars) left

/-- A text that is not empty, up to `terminator`, which is taken too. -/
def upTo (terminator : Char) (what : String) : Reading Text := do
  upToFrom terminator what [] (← remaining)

end Reading
end Munch.Regex
