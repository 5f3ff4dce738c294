import Munch.Regex.CharSet

/-! Regular expressions as trees. Flags are resolved: each set, anchor and reference carries the
choices that the flags in force at its place made. -/
namespace Munch.Regex

/-- Conditions on a place in the text that take no text. -/
inductive Anchor
  | textStart
  /-- The start of the text, or after a newline. -/
  | lineStart
  | textEnd
  /-- The end of the text, or before a newline that ends it. -/
  | lastLineEnd
  /-- The end of the text, or before a newline. -/
  | lineEnd
  /-- Between a word character and none; `ascii` limits words to ASCII. -/
  | wordEdge (ascii complement : Bool)
deriving DecidableEq, Repr

/-- In which order a repetition tries its counts. -/
inductive Mode
  /-- As many as possible first. -/
  | greedy
  /-- As few as possible first. -/
  | lazy
  /-- As many as possible, and no other count. -/
  | possessive
deriving DecidableEq, Repr

inductive Expr
  | empty
  | set (s : CharSet)
  | anchor (a : Anchor)
  | seq (first second : Expr)
  /-- The second is tried when the first leads to no match. -/
  | alt (first second : Expr)
  /-- Remembers what the body matched as group `n`. -/
  | group (n : Nat) (body : Expr)
  /-- The text that group `n` matched last. -/
  | reference (n : Nat) (folding : Folding)
  /-- Depends on whether group `n` has matched. -/
  | choice (n : Nat) (yes no : Expr)
  /-- The body matches at this place, which is not taken. -/
  | ahead (body : Expr) (complement : Bool)
  /-- The body matches the `width` characters before this place. -/
  | behind (width : Nat) (body : Expr) (complement : Bool)
  /-- The body's first way to match, and no other. -/
  | atomic (body : Expr)
  /-- The body `min` to `max` times; no `max` is no limit. -/
  | repeated (mode : Mode) (min : Nat) (max : Option Nat) (body : Expr)
deriving DecidableEq, Repr

end Munch.Regex
