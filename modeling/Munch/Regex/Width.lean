import Munch.Regex.Expr

/-! The numbers of characters that an expression can match, as bounds that saturate. A condition
on the text before a place needs an expression whose two bounds agree. -/
namespace Munch.Regex

/-- Repetition counts are below this number, and an unlimited width counts as it. -/
def countLimit : Nat := 4294967295

/-- The fewest and the most characters that an expression matches. -/
structure Width where
  least : Nat
  most : Nat
deriving DecidableEq, Repr

namespace Width

/-- Bounds beyond the limit are cut down to it, the lower one to a number below it, so that an
unlimited width is never fixed. -/
def clamp (w : Width) : Width := ⟨min w.least (countLimit - 1), min w.most countLimit⟩

def add (a b : Width) : Width := clamp ⟨a.least + b.least, a.most + b.most⟩

def union (a b : Width) : Width := ⟨min a.least b.least, max a.most b.most⟩

def times (w : Width) (least : Nat) (most : Option Nat) : Width :=
  clamp ⟨w.least * least, w.most * most.getD countLimit⟩

/-- The common value of the bounds, if they agree. -/
def fixed? (w : Width) : Option Nat := if w.least = w.most then some w.least else none

end Width

/-- The width of an expression, given the widths of the groups it refers to. -/
def Expr.width (groups : Nat → Width) : Expr → Width
  | empty | anchor _ | ahead .. | behind .. => ⟨0, 0⟩
  | set _ => ⟨1, 1⟩
  | seq a b => (a.width groups).add (b.width groups)
  | alt a b => (a.width groups).union (b.width groups)
  | group _ e | atomic e => e.width groups
  | reference n _ => groups n
  | choice _ yes no => (yes.width groups).union (no.width groups)
  | repeated _ least most e => (e.width groups).times least most

end Munch.Regex
