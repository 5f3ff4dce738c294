import Munch.Failure
import Munch.Text.Hexadecimal
import Munch.Text.Position
import Munch.Value

/-! Reading JSON.

The reader goes through the text once and keeps the lists and objects that are open, each as a
`Frame` with the part read so far. Besides the standard forms there are `NaN`, `Infinity` and
`-Infinity`. A number is whole if it has neither a fraction nor an exponent. Of two members with
one name the later value counts, in the place of the first. The host may set limits to the digits
of a whole number and to the depth of lists and objects, and reading fails beyond them. -/
namespace Munch.Json

inductive Problem
  | byteOrderMark
  | expectedValue
  | expectedName
  | expectedColon
  | expectedComma
  | unterminatedString
  | controlCharacter
  | badEscape
  | badCodeEscape
  | extraData
deriving DecidableEq, Repr

def Problem.message : Problem → String
  | byteOrderMark => "Unexpected UTF-8 BOM (decode using utf-8-sig)"
  | expectedValue => "Expecting value"
  | expectedName => "Expecting property name enclosed in double quotes"
  | expectedColon => "Expecting ':' delimiter"
  | expectedComma => "Expecting ',' delimiter"
  | unterminatedString => "Unterminated string starting at"
  | controlCharacter => "Invalid control character at"
  | badEscape => "Invalid \\escape"
  | badCodeEscape => "Invalid \\uXXXX escape"
  | extraData => "Extra data"

/-- What is wrong, at which offset, and the line and column there. -/
structure Fault where
  problem : Problem
  offset : Nat
  place : Position
deriving DecidableEq, Repr

def Fault.message (f : Fault) : String :=
  s!"{f.problem.message}: line {f.place.line} column {f.place.column + 1} (char {f.offset})"

/-- How much the host reads: whole numbers of at most so many digits, and at most so many lists and
objects in one another. -/
structure Limits where
  digits : Option Nat := none
  nesting : Option Nat := none
deriving DecidableEq, Repr

/-- Why there is no value: something is wrong with the text, or a limit of the host is exceeded. -/
inductive Refusal
  | fault (f : Fault)
  | failure (f : Failure)
deriving DecidableEq, Repr

/-- What is left to read of a text, and the offset of it. -/
structure Source where
  offset : Nat
  rest : List Char

/-- What ends reading early: a problem at an offset, or a failure of the host. -/
inductive Stop
  | problem (p : Problem) (offset : Nat)
  | failure (f : Failure)

abbrev Reading (α : Type) : Type := StateT Source (Except Stop) α

namespace Reading

def failAt {α : Type} (p : Problem) (offset : Nat) : Reading α := throw (.problem p offset)

/-- A problem at `back` characters before the place that reading has reached. -/
def fail {α : Type} (p : Problem) (back : Nat := 0) : Reading α :=
  fun s => .error (.problem p (s.offset - back))

def peek : Reading (Option Char) := return (← get).rest.head?

def remaining : Reading Nat := return (← get).rest.length

def skip (n : Nat) : Reading Unit :=
  modify fun s => { s with offset := s.offset + n, rest := s.rest.drop n }

def take : Reading (Option Char) := do
  let c ← peek
  skip 1
  return c

/-- Takes the characters up to the first that does not satisfy `p`. -/
def takeWhile (p : Char → Bool) : Reading (List Char) := do
  let taken := (← get).rest.takeWhile p
  skip taken.length
  return taken

/-- Takes `word` if it comes next. -/
def accept (word : String) : Reading Bool := do
  if word.toList.isPrefixOf (← get).rest then
    skip word.length
    return true
  else return false

def skipBlank : Reading Unit := do
  let _ ← takeWhile fun c => c == ' ' || c == '\t' || c == '\n' || c == '\r'

end Reading

/-! ### Strings -/

def isHighSurrogate (code : Nat) : Bool := 0xd800 ≤ code && code < 0xdc00

def isLowSurrogate (code : Nat) : Bool := 0xdc00 ≤ code && code < 0xe000

/-- The text of codes, in which a high and a low surrogate together make one character. -/
def join : List Nat → Text
  | [] => []
  | [code] => [.ofNat code]
  | high :: low :: rest =>
    if isHighSurrogate high && isLowSurrogate low then
      .ofNat (0x10000 + (high - 0xd800) * 0x400 + (low - 0xdc00)) :: join rest
    else .ofNat high :: join (low :: rest)

def simpleEscape? : Char → Option Char
  | '"' => some '"'
  | '\\' => some '\\'
  | '/' => some '/'
  | 'b' => some '\x08'
  | 'f' => some '\x0c'
  | 'n' => some '\n'
  | 'r' => some '\r'
  | 't' => some '\t'
  | _ => none

/-- The code that an escape stands for, after its backslash. -/
def escape (start : Nat) : Reading Nat := do
  match ← Reading.take with
  | none => Reading.failAt .unterminatedString start
  | some 'u' =>
    let s ← get
    let digits := s.rest.take 4
    if (s.rest.drop 4).isEmpty || !digits.all (fun c => (Text.hexValue? c).isSome) then
      Reading.fail .badCodeEscape 1
    else
      Reading.skip 4
      return Text.hexNumber (.ofChars digits)
  | some c =>
    match simpleEscape? c with
    | some c => return c.toNat
    | none => Reading.fail .badEscape 2

/-- The codes of the string that began at `start`, after those of `read`, latest first. -/
def codesFrom (start : Nat) (read : List Nat) : (left : Nat) → Reading (List Nat)
  | 0 => Reading.failAt .unterminatedString start
  | left + 1 => do
    match ← Reading.take with
    | none => Reading.failAt .unterminatedString start
    | some '"' => return read.reverse
    | some '\\' => codesFrom start ((← escape start) :: read) left
    | some c =>
      if c.toNat < 0x20 then Reading.fail .controlCharacter 1
      else codesFrom start (c.toNat :: read) left

/-- A string, of which the opening quote comes next. -/
def string : Reading Text := do
  let start := (← get).offset
  Reading.skip 1
  return join (← codesFrom start [] (← Reading.remaining))

/-! ### Numbers -/

def natural (digits : List Char) : Nat := digits.foldl (fun n c => 10 * n + (c.toNat - 48)) 0

/-- The digits of a fraction, if there is one. -/
def fraction : Reading (List Char) := do
  match (← get).rest with
  | '.' :: c :: _ =>
    if c.isDigit then
      Reading.skip 1
      Reading.takeWhile Char.isDigit
    else return []
  | _ => return []

/-- The exponent, if there is one; nothing is taken of a letter without digits. -/
def exponent : Reading (Option Int) := do
  let before ← get
  let marked ←
    if ← Reading.accept "e" then pure true else Reading.accept "E"
  if marked then
    let negative ← Reading.accept "-"
    if !negative then let _ ← Reading.accept "+"
    let digits ← Reading.takeWhile Char.isDigit
    if digits.isEmpty then
      set before
      return none
    return some (if negative then -natural digits else natural digits)
  else return none

/-- The whole number of some digits, if the host reads so many. -/
def wholeNumber (limits : Limits) (negative : Bool) (digits : List Char) : Reading Value :=
  match limits.digits.filter (· < digits.length) with
  | some limit => throw (.failure (.digitLimit limit digits.length))
  | none => return .int (if negative then -natural digits else natural digits)

def number (limits : Limits) : Reading Value := do
  let start := (← get).offset
  let negative ← Reading.accept "-"
  let whole ←
    if ← Reading.accept "0" then pure ['0'] else Reading.takeWhile Char.isDigit
  if whole.isEmpty then Reading.failAt .expectedValue start
  let decimals ← fraction
  match decimals, ← exponent with
  | [], none => wholeNumber limits negative whole
  | _, e =>
    return .float (.ofDecimal negative (natural (whole ++ decimals)) (e.getD 0 - decimals.length))

/-! ### Values -/

/-- An open list, with its items latest first, or an open object and the name whose value is
next. -/
inductive Frame
  | list (items : List Value)
  | object (members : List (Text × Value)) (name : Text)

/-- The name of a member and the colon after it. -/
def memberName : Reading Text := do
  if (← Reading.peek) ≠ some '"' then Reading.fail .expectedName
  let name ← string
  Reading.skipBlank
  if !(← Reading.accept ":") then Reading.fail .expectedColon
  Reading.skipBlank
  return name

/-- A word or a number. -/
def scalar (limits : Limits) : Reading Value := do
  if ← Reading.accept "null" then return .null
  if ← Reading.accept "true" then return .bool true
  if ← Reading.accept "false" then return .bool false
  if ← Reading.accept "NaN" then return .float .nan
  if ← Reading.accept "Infinity" then return .float (.infinity false)
  if ← Reading.accept "-Infinity" then return .float (.infinity true)
  number limits

/-- Fails if one more list or object is too many. -/
def enter (limits : Limits) (kind : String) (frames : List Frame) : Reading Unit :=
  if limits.nesting.any (· ≤ frames.length) then
    throw (.failure ⟨"RecursionError",
      s!"maximum recursion depth exceeded while decoding a JSON {kind} from a unicode string"⟩)
  else return ()

/-- Begins a value: it is complete, or it has opened a list or an object. -/
def begin (limits : Limits) (frames : List Frame) : Reading (Option Value × List Frame) := do
  match ← Reading.peek with
  | some '"' => return (some (.string (← string)), frames)
  | some '[' =>
    enter limits "array" frames
    Reading.skip 1
    Reading.skipBlank
    if ← Reading.accept "]" then return (some (.list []), frames)
    return (none, .list [] :: frames)
  | some '\x7b' =>
    enter limits "object" frames
    Reading.skip 1
    Reading.skipBlank
    if ← Reading.accept "\x7d" then return (some (.object []), frames)
    return (none, .object [] (← memberName) :: frames)
  | _ => return (some (← scalar limits), frames)

/-- Puts a complete value into the innermost frame, which it may complete in turn. -/
def put (v : Value) (frame : Frame) (frames : List Frame) :
    Reading (Option Value × List Frame) := do
  Reading.skipBlank
  match frame with
  | .list items =>
    let items := v :: items
    if ← Reading.accept "]" then return (some (.list items.reverse), frames)
    if !(← Reading.accept ",") then Reading.fail .expectedComma
    Reading.skipBlank
    return (none, .list items :: frames)
  | .object members name =>
    let members := Value.insertMember members name v
    if ← Reading.accept "\x7d" then return (some (.object members), frames)
    if !(← Reading.accept ",") then Reading.fail .expectedComma
    Reading.skipBlank
    return (none, .object members (← memberName) :: frames)

/-- Reads on until the outermost value is complete. Every round takes a character, so `left` rounds
are enough when it is above the number of characters left. -/
def valueFrom (limits : Limits) (current : Option Value) (frames : List Frame) :
    (left : Nat) → Reading Value
  | 0 => Reading.fail .expectedValue
  | left + 1 => do
    match current, frames with
    | some v, [] => return v
    | some v, frame :: frames =>
      let (current, frames) ← put v frame frames
      valueFrom limits current frames left
    | none, frames =>
      let (current, frames) ← begin limits frames
      valueFrom limits current frames left

/-- A text that holds one value and white space around it. -/
def document (limits : Limits) : Reading Value := do
  if (← Reading.peek) = some '\ufeff' then Reading.fail .byteOrderMark
  Reading.skipBlank
  let v ← valueFrom limits none [] ((← Reading.remaining) + 2)
  Reading.skipBlank
  if (← Reading.peek).isSome then Reading.fail .extraData
  return v

/-- The value that a text holds. -/
def parse (limits : Limits) (text : List Char) : Except Refusal Value :=
  match (document limits).run ⟨0, text⟩ with
  | .ok (v, _) => .ok v
  | .error (.problem problem offset) =>
    .error (.fault ⟨problem, offset, ({} : Position).advance (.ofChars (text.take offset))⟩)
  | .error (.failure f) => .error (.failure f)

end Munch.Json
