import Munch.Error

/-! Patterns. A pattern is asked how many characters of a text it matches at a place; it takes
nothing itself. There are regular expressions, literal texts, and patterns given by any function.
Regular expressions and functions may also fail. -/
namespace Munch
variable [Engine]

/-- A pattern given by a function, and how it is shown. -/
structure Custom where
  shown : Text
  check : Text → Int → Except Failure (Option Int)

inductive Pattern
  | regex (r : Engine.Expression)
  | literal (text : Text)
  | custom (c : Custom)

namespace Pattern

/-- The place that a position counts as for literals: a negative one counts from the end. -/
def literalStart (text : Text) (pos : Int) : Nat :=
  if pos < 0 then (pos + text.length).toNat else pos.toNat

/-- The number of characters that the literal matches at `pos`. -/
def checkLiteral (literal : Text) (text : Text) (pos : Int) : Option Int :=
  let start := literalStart text pos
  if start ≤ text.length ∧ literal.isPrefixOf (text.drop start) then some literal.length
  else none

/-- The number of characters that the pattern matches at `pos`, or nothing if it does not match. -/
def check (p : Pattern) (text : Text) (pos : Int) : Except Failure (Option Int) :=
  match p with
  | regex r => Engine.check r text pos
  | literal l => .ok (checkLiteral l text pos)
  | custom c => c.check text pos

def shown : Pattern → Text
  | regex r => "RegexPattern(" ++ Text.quoted (Engine.source r) ++ ")"
  | literal l => "LiteralPattern(" ++ Text.quoted l ++ ")"
  | custom c => c.shown

/-- Whether two patterns are equal: regular expressions as their engine tells them apart, literals
by their texts. A pattern given by a function is equal to none. -/
def same : Pattern → Pattern → Bool
  | regex r, regex s => r == s
  | literal l, literal m => l == m
  | _, _ => false

/-- The literal pattern of a text, which must be there and not be empty. -/
def ofLiteral : Option Text → Except Error Pattern
  | none => .error (.invalidPattern Value.null.shown .emptyLiteral)
  | some l =>
    if l = [] then .error (.invalidPattern (Text.quoted l) .emptyLiteral) else .ok (literal l)

end Pattern

/-- What may be given for a pattern. -/
inductive PatternSpec
  /-- The source of a regular expression. -/
  | source (s : Text)
  | compiled (r : Engine.Expression)
  /-- A regular expression on bytes, by its source. -/
  | bytes (s : Text)
  | pattern (p : Pattern)
  /-- Any other value. -/
  | value (v : Value)

namespace PatternSpec

/-- How the given pattern is shown. -/
def shown : PatternSpec → Text
  | source s => Text.quoted s
  | compiled r => Engine.shown r
  | bytes s => Text.quotedBytes s
  | pattern p => p.shown
  | value v => v.shown

/-- The pattern that is given, or why it is refused. -/
def compile (spec : PatternSpec) : Except Error Pattern :=
  match spec with
  | source s => (Engine.compile s).mapError (Error.ofEngine s) |>.map .regex
  | compiled r => .ok (.regex r)
  | bytes _ => .error (.invalidPattern spec.shown .bytes)
  | pattern p => .ok p
  | value v => .error (.invalidPattern spec.shown (.unsupported v.typeName))

end PatternSpec
end Munch
