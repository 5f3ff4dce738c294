import Munch.Regex.Escape
import Munch.Regex.Progress

/-! Quantifiers: how often the piece before them is matched, and in which order the counts are
tried. A brace that begins no bounds stands for itself. -/
namespace Munch.Regex.Progress

/-- The count that digits write; it must be below the limit. -/
def count (digits : Text) : Reading Nat := do
  if 4300 < digits.length then throw (.countTooLong digits.length)
  let n := Escape.number 10 digits
  if countLimit ≤ n then throw .countTooLarge else return n

/-- The bounds in braces, after the opening one; nothing, and nothing is taken, if what follows is
no bounds. -/
def bounds? : Reading (Option (Nat × Option Nat)) := do
  let before ← get
  if (← Reading.peek) = some (.plain '\x7d') then return none
  let low ← Reading.takeWhile Escape.isDigit (← Reading.remaining)
  let high ←
    if ← Reading.accept ',' then Reading.takeWhile Escape.isDigit (← Reading.remaining)
    else pure low
  if ← Reading.accept '\x7d' then
    let least ← if low.isEmpty then pure 0 else count low
    if high.isEmpty then return some (least, none)
    let most ← count high
    if most < least then
      Reading.fail .minAboveMax ((← Reading.offset) - before.offset)
    return some (least, some most)
  else
    set before
    return none

/-- The bounds of the quantifier that begins with `c`. -/
def quantifier? (c : Point) : Reading (Option (Nat × Option Nat)) :=
  match c with
  | '?' => return some (0, some 1)
  | '*' => return some (0, none)
  | '+' => return some (1, none)
  | _ => bounds?

/-- Repeats the last piece as the quantifier at `start` says. -/
def quantify (p : Progress) (start : Nat) (least : Nat) (most : Option Nat) : Reading Progress := do
  let back := (← Reading.offset) - start
  match p.level.pieces with
  | [] | ⟨_, .condition⟩ :: _ => Reading.fail .nothingToRepeat back
  | ⟨_, .quantified⟩ :: _ => Reading.fail .multipleRepeat back
  | ⟨e, .plain⟩ :: pieces =>
    let mode : Mode ←
      if ← Reading.accept '?' then pure .lazy
      else if ← Reading.accept '+' then pure .possessive
      else pure .greedy
    return { p with level.pieces := ⟨.repeated mode least most e, .quantified⟩ :: pieces }

end Munch.Regex.Progress
