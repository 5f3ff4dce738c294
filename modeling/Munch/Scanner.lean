import Munch.Scan

/-! Scanners: scans that a pattern may take back.

A `Scan` goes forward. A pattern that is given by a function may answer with any number, though,
and when it is one to ignore and the number is negative, the cursor goes back by as much, even to
places before the text. Such a place counts from the end of the text, as far as there are
characters. So scanning may go on for ever, and then it has no result. -/
namespace Munch
variable [Engine]

namespace Text

/-- The number of characters before a place; a negative place counts from the end. -/
def index (text : Text) (place : Int) : Nat :=
  (if place < 0 then place + text.length else place).toNat

/-- The characters from one place to another. -/
def between (text : Text) (start stop : Int) : Text :=
  (text.take (text.index stop)).drop (text.index start)

end Text

structure Scanner where
  input : Text
  cursor : Int := 0
  position : Position := {}
deriving DecidableEq, Repr

namespace Scanner

/-- A scanner at the beginning of a text. -/
def start (text : Text) : Scanner := { input := text }

def remaining (s : Scanner) : Text := s.input.drop (s.input.index s.cursor)

def exhausted (s : Scanner) : Bool := s.input.length ≤ s.cursor

/-- The characters from the cursor to the place `length` after it. -/
def piece (s : Scanner) (length : Int) : Text := s.input.between s.cursor (s.cursor + length)

/-- The scanner after the next `length` characters. -/
def consume (s : Scanner) (length : Int) : Scanner :=
  { s with cursor := s.cursor + length, position := s.position.advance (s.piece length) }

/-! ### Skipping -/

/-- A scanner after the pieces that were ignored, and the failure that stopped it, if one did. -/
structure Skipped where
  scanner : Scanner
  pieces : List Text := []
  failure : Option Failure := none

/-- Skips while there are characters and some length other than 0 is to be ignored. -/
def skip (t : Table) (s : Scanner) : Option Skipped :=
  if s.exhausted then some { scanner := s }
  else match t.ignoredLength s.input s.cursor with
    | .error f => some { scanner := s, failure := some f }
    | .ok length =>
      if length = 0 then some { scanner := s }
      else do
        -- Applied by a tactic, the call is left without a note of its place in the file.
        let rest ← show Option Skipped by
          apply skip
          · exact t
          · exact s.consume length
        return { rest with pieces := s.piece length :: rest.pieces }
partial_fixpoint

/-! ### The next token -/

/-- The beginning of the text left that a message shows. -/
def preview (s : Scanner) : (length : Option Int) → Text
  | none => s.remaining
  | some length => s.remaining.between 0 length

/-- What a step of a scanner leaves and gives: no token is the end of the input. -/
structure Step where
  scanner : Scanner
  records : List Record
  result : Except Error (Option Token)

/-- Takes what the longest rule matches. -/
def take (t : Table) (previewLength : Option Int) (s : Scanner) : Step :=
  match t.longest s.input s.cursor with
  | .error f => ⟨s, [], .error (.failure f)⟩
  | .ok none =>
    ⟨s, [], .error (.unmatched (s.preview previewLength) s.position)⟩
  | .ok (some (r, length)) =>
    let (kind, value) := t.relabel r (s.piece length)
    let token : Token := ⟨kind, value, s.position.line, s.position.column⟩
    ⟨s.consume length, [.token token], .ok (some token)⟩

/-- What comes of a scanner after pieces that were ignored. -/
def Skipped.next (t : Table) (previewLength : Option Int) (skipped : Skipped) : Step :=
  let records := skipped.pieces.map Record.ignored
  match skipped.failure with
  | some f => ⟨skipped.scanner, records, .error (.failure f)⟩
  | none =>
    if skipped.scanner.exhausted then ⟨skipped.scanner, records, .ok none⟩
    else
      let taken := skipped.scanner.take t previewLength
      { taken with records := records ++ taken.records }

/-- The next token, after what is ignored. -/
def next (t : Table) (previewLength : Option Int) (s : Scanner) : Option Step :=
  (s.skip t).map (Skipped.next t previewLength)

/-! ### All tokens -/

/-- What a scanner that goes to the end leaves and gives: the tokens, and the error that stopped
it before the end of the input, if one did. -/
structure Run where
  scanner : Scanner
  records : List Record := []
  tokens : List Token := []
  stop : Option Error := none

/-- Scans to the end of the input. -/
def run (t : Table) (previewLength : Option Int) (s : Scanner) : Option Run := do
  let step ← s.next t previewLength
  match step.result with
  | .error e =>
    return { scanner := step.scanner, records := step.records, stop := some e.ofIteration }
  | .ok none => return { scanner := step.scanner, records := step.records }
  | .ok (some token) =>
    let rest ← show Option Run by
      apply run
      · exact t
      · exact previewLength
      · exact step.scanner
    return { rest with records := step.records ++ rest.records, tokens := token :: rest.tokens }
partial_fixpoint

end Scanner
end Munch
