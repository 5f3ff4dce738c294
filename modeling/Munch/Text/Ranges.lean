/-! Sets of characters given by ranges of code points. -/
namespace Munch.Text

/-- Whether `code` lies in one of `ranges`, which are in increasing order. -/
def inRanges (code : Nat) : List (Nat × Nat) → Bool
  | [] => false
  | (lo, hi) :: rest => if code < lo then false else code ≤ hi || inRanges code rest

end Munch.Text
