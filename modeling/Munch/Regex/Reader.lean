import Munch.Regex.Bracket
import Munch.Regex.Opening
import Munch.Regex.Quantifier

/-! Reading the source of a regular expression, symbol by symbol, once from its beginning to its
end. -/
namespace Munch.Regex

namespace Progress

/-- A comment of verbose sources: everything up to the end of the line. -/
def skipLine : (left : Nat) → Reading Unit
  | 0 => return ()
  | left + 1 => do
    match ← Reading.take with
    | none => return ()
    | some x => if x = .plain '\n' then return () else skipLine left

/-- A reference by number, written with `size` characters. -/
def reference (p : Progress) (n size : Nat) : Reading Progress := do
  if p.groups.next ≤ n then Reading.fail (.invalidGroup n) (size - 1)
  if !p.groups.isClosed n then Reading.fail .openGroup size
  p.groups.checkLookBehind n
  return p.push (.reference n p.flags.folding)

def escape (p : Progress) (c : Point) : Reading Progress := do
  match ← Escape.outsideSet c with
  | .code n => return p.pushCode n
  | .ofClass k complement =>
    return p.pushSet ⟨[.ofClass k p.flags.ascii complement], false, .exact⟩
  | .textStart => return p.pushAnchor .textStart
  | .textEnd => return p.pushAnchor .textEnd
  | .wordEdge complement => return p.pushAnchor (.wordEdge p.flags.ascii complement)
  | .reference n size => p.reference n size

/-- Reads a character that is no bar and no closing parenthesis, and has been taken at `start`. -/
def character (p : Progress) (start : Nat) (c : Point) : Reading Progress := do
  match c with
  | '[' => return p.pushSet (← Bracket.set p.flags start)
  | '.' => return p.pushSet (.dot p.flags.dotAll)
  | '^' => return p.pushAnchor (if p.flags.multiline then .lineStart else .textStart)
  | '$' => return p.pushAnchor (if p.flags.multiline then .lineEnd else .lastLineEnd)
  | '(' => if ← Reading.accept '?' then p.extension start else p.capture start none
  | '*' | '+' | '?' | '\x7b' =>
    match ← quantifier? c with
    | some (least, most) => p.quantify start least most
    | none => return p.pushCode c.toNat
  | _ => return p.pushCode c.toNat

/-- Reads the next symbol, and what belongs to it. -/
def step (p : Progress) (x : Symbol) : Reading Progress := do
  let start ← Reading.offset
  match x with
  | .plain '|' =>
    let p ← p.nextBranch
    let _ ← Reading.take
    return p
  | .plain ')' =>
    let _ ← Reading.take
    return (p.frames.head?.map p.leave).getD p
  | .escape c =>
    let _ ← Reading.take
    p.escape c
  | .plain c =>
    let _ ← Reading.take
    if p.flags.verbose && Text.isAsciiBlank c then return p
    else if p.flags.verbose && c == '#' then
      skipLine (← Reading.remaining)
      return p
    else p.character start c

/-- Reads to the end of the source, or to a parenthesis that closes nothing. The bound `left` is
not below the number of symbols left. -/
def toEnd (p : Progress) : (left : Nat) → Reading Progress
  | 0 => return p
  | left + 1 => do
    match ← Reading.peek with
    | none => return p
    | some x =>
      if x = .plain ')' ∧ p.frames.isEmpty then return p else toEnd (← p.step x) left

/-- What must hold at the end: groups are closed and those asked for exist, and a look-behind has a
fixed width. -/
def checkEnd (p : Progress) : Reading Unit := do
  let here ← Reading.offset
  if let f :: _ := p.frames then Reading.fail .unterminatedGroup (here - f.start)
  if p.flags.ascii && p.flags.unicode then throw .conflictingFlags
  if (← Reading.peek).isSome then Reading.fail .unbalancedGroup
  if let some (n, place) := p.asked.find? fun (n, _) => p.groups.next ≤ n then
    throw (.problem (.invalidGroup n) place)
  if p.isVariable then throw .variableLookBehind

end Progress

/-- A source that has been read: the flags of the whole, and the expression. -/
structure Program where
  flags : Flags
  expr : Expr
deriving DecidableEq, Repr

/-- Reads a source under the given flags. Unless the whole is limited to ASCII, it is flagged as
Unicode. -/
def Program.read (flags : Flags) : Reading Program := do
  Reading.checkDangling
  let start : Progress := { level := { flags } }
  let p ← start.toEnd (← Reading.remaining)
  p.checkEnd
  return ⟨{ p.flags with unicode := !p.flags.ascii }, p.level.expr⟩

end Munch.Regex
