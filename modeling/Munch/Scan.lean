import Munch.Record
import Munch.Table

/-! Scanning a text.

A `Scan` is the text, how far it has been taken, and the position there. `Scan.next` first skips
what is to be ignored, piece by piece, and then takes what the longest rule matches. It fails where
no rule matches, and finds no token where the text is at its end; the state it leaves is the one
after the pieces that were skipped. Every piece that is taken has a character at least, so that
scanning ends. -/
namespace Munch

structure Scan where
  input : Text
  cursor : Nat := 0
  position : Position := {}
deriving DecidableEq, Repr

namespace Scan

/-- A scan at the beginning of a text. -/
def start (text : Text) : Scan := { input := text }

def remaining (s : Scan) : Text := s.input.drop s.cursor

/-- The number of characters left. -/
def left (s : Scan) : Nat := s.input.length - s.cursor

def exhausted (s : Scan) : Bool := s.input.length ≤ s.cursor

/-- The next `length` characters, or those that there are. -/
def piece (s : Scan) (length : Nat) : Text := s.remaining.take length

/-- The scan after the next `length` characters. -/
def consume (s : Scan) (length : Nat) : Scan :=
  { s with cursor := s.cursor + length, position := s.position.advance (s.piece length) }

theorem left_consume_lt {s : Scan} {length : Nat} (h : s.exhausted = false) (hl : 0 < length) :
    (s.consume length).left < s.left := by
  simp only [exhausted, decide_eq_false_iff_not] at h
  simp only [left, consume]
  omega

/-! ### Skipping -/

/-- A scan after the pieces that were ignored, and the failure that stopped it, if one did. -/
structure Skipped where
  scan : Scan
  pieces : List Text := []
  failure : Option Failure := none

variable [Engine]

/-- Skips while there are characters, at most `left` of them, and something is to be ignored. -/
def skipFrom (t : Table) : (left : Nat) → Scan → Skipped
  | 0, s => { scan := s }
  | left + 1, s =>
    if s.exhausted then { scan := s }
    else match t.ignoredLength s.input s.cursor with
      | .error f => { scan := s, failure := some f }
      | .ok length =>
        if length ≤ 0 then { scan := s }
        else
          let rest := skipFrom t left (s.consume length.toNat)
          { rest with pieces := s.piece length.toNat :: rest.pieces }

/-- Skips everything that is to be ignored. -/
def skip (t : Table) (s : Scan) : Skipped := skipFrom t s.left s

/-! ### The next token -/

/-- The beginning of the text left that a message shows: `length` characters, or all but the last
ones for a negative length, or everything. -/
def preview (s : Scan) (length : Option Int) : Text :=
  match length with
  | none => s.remaining
  | some (.ofNat n) => s.remaining.take n
  | some (.negSucc n) => s.remaining.take (s.remaining.length - (n + 1))

/-- What a step of a scan leaves and gives: no token is the end of the input. -/
structure Step where
  scan : Scan
  records : List Record
  result : Except Error (Option Token)

/-- Takes what the longest rule matches. -/
def take (t : Table) (previewLength : Option Int) (s : Scan) : Step :=
  match t.longest s.input s.cursor with
  | .error f => ⟨s, [], .error (.failure f)⟩
  | .ok none =>
    ⟨s, [], .error (.unmatched (s.preview previewLength) s.position)⟩
  | .ok (some (r, length)) =>
    let (kind, value) := t.relabel r (s.piece length)
    let token : Token := ⟨kind, value, s.position.line, s.position.column⟩
    ⟨s.consume length, [.token token], .ok (some token)⟩

/-- The next token, after what is ignored. -/
def next (t : Table) (previewLength : Option Int) (s : Scan) : Step :=
  let skipped := s.skip t
  let records := skipped.pieces.map Record.ignored
  match skipped.failure with
  | some f => ⟨skipped.scan, records, .error (.failure f)⟩
  | none =>
    if skipped.scan.exhausted then ⟨skipped.scan, records, .ok none⟩
    else
      let taken := skipped.scan.take t previewLength
      { taken with records := records ++ taken.records }

/-! ### All tokens -/

/-- What a scan to the end leaves and gives: the tokens, and the error that stopped it before the
end of the input, if one did. -/
structure Run where
  scan : Scan
  records : List Record := []
  tokens : List Token := []
  stop : Option Error := none

/-- Takes tokens while there are characters, at most `left` of them. -/
def runFrom (t : Table) (previewLength : Option Int) : (left : Nat) → Scan → Run
  | 0, s => { scan := s }
  | left + 1, s =>
    let step := s.next t previewLength
    match step.result with
    | .error e => { scan := step.scan, records := step.records, stop := some e.ofIteration }
    | .ok none => { scan := step.scan, records := step.records }
    | .ok (some token) =>
      let rest := runFrom t previewLength left step.scan
      { rest with records := step.records ++ rest.records, tokens := token :: rest.tokens }

/-- Scans to the end of the input. -/
def run (t : Table) (previewLength : Option Int) (s : Scan) : Run :=
  runFrom t previewLength s.left s

end Scan
end Munch
