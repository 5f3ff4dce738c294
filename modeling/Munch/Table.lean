import Munch.Pattern
import Munch.Token

/-! The table of a lexer: what is ignored, the rules, and the keywords, each in the order of
registration.

A keyword is a rule that matches its literal, and an entry in the keyword map, which gives every
token with that text the keyword's kind. Names are shared by rules and keywords, and a name is
registered once. -/
namespace Munch
variable [Engine]

structure Rule where
  name : Text
  pattern : Pattern

structure Table where
  ignored : List Pattern := []
  rules : List Rule := []
  /-- The literals of the keywords, and the tokens that stand for them. -/
  keywords : List (Text × Token) := []
  /-- The names in use, and what they are registered as. -/
  names : List (Text × Registered) := []

namespace Table

/-! ### What the table says about a text -/

/-- The length of the first pattern that matches some characters at `pos`, or 0. -/
def firstLength (text : Text) (pos : Int) : List Pattern → Except Failure Int
  | [] => .ok 0
  | p :: rest => do
    let length := (← p.check text pos).getD 0
    if length = 0 then firstLength text pos rest else return length

/-- The number of characters to ignore at `pos`: what the first ignored pattern matches that
matches any. -/
def ignoredLength (t : Table) (text : Text) (pos : Int) : Except Failure Int :=
  firstLength text pos t.ignored

/-- The rule that matches the most characters at `pos`, and how many, given the best rule so far. A
rule takes the lead only if it matches more. -/
def longestFrom (text : Text) (pos : Int) (best : Option (Rule × Nat)) :
    List Rule → Except Failure (Option (Rule × Nat))
  | [] => .ok best
  | r :: rest => do
    let length := ((← r.pattern.check text pos).getD 0).toNat
    let lead := (best.map (·.2)).getD 0
    longestFrom text pos (if lead < length then some (r, length) else best) rest

/-- The first of the rules that match the most characters at `pos`, if any matches some. -/
def longest (t : Table) (text : Text) (pos : Int) : Except Failure (Option (Rule × Nat)) :=
  longestFrom text pos none t.rules

/-- The kind and value of a token with the text `value` that the rule has matched: a keyword's, if
the text is its literal. -/
def relabel (t : Table) (r : Rule) (value : Text) : Text × Text :=
  match t.keywords.lookup value with
  | some token => (token.kind, token.value)
  | none => (r.name, value)

end Table
end Munch
