import Munch.Failure
import Munch.Text.Position

/-! Engines of regular expressions.

A regular expression is the business of an engine, which makes the source of one ready and then
matches it at places of a text. It may refuse a source as invalid, and either may fail in a way of
its own. What a table relies on is that a match at a place of the text ends between the place and
the end of the text (`Engine.check_bounds`). Everything else is left to the engine. -/
namespace Munch

/-- Why an engine does not make a source ready. -/
inductive Engine.Fault
  /-- The source is invalid, and this is what is wrong with it. -/
  | invalid (message : Text)
  /-- The engine fails for a reason of its own, such as a limit of the host. -/
  | raised (f : Failure)
deriving DecidableEq, Repr

class Engine where
  /-- Regular expressions that are ready to match. -/
  Expression : Type
  decEq : DecidableEq Expression
  source : Expression → Text
  /-- How an expression is shown when it is given ready. -/
  shown : Expression → Text
  compile : Text → Except Engine.Fault Expression
  /-- What making a source ready writes to standard error, such as a warning, when the sources
  `earlier` have been made ready before. -/
  notes : (earlier : List Text) → (source : Text) → Text
  /-- The number of characters that the expression matches at a place, or nothing if it does not
  match. -/
  check : Expression → Text → Int → Except Failure (Option Int)
  source_compile : ∀ {s : Text} {r : Expression}, compile s = .ok r → source r = s
  check_bounds : ∀ {r : Expression} {text : Text} {pos : Nat} {n : Int}, pos ≤ text.length →
    check r text pos = .ok (some n) → 0 ≤ n ∧ pos + n ≤ text.length

instance [Engine] : DecidableEq Engine.Expression := Engine.decEq

end Munch
