import Munch.Text.Point

/-! Hexadecimal digits, in either case. -/
namespace Munch.Text

def hexValue? : Point → Option Nat
  | .char c =>
    if c.isDigit then some (c.toNat - 48)
    else if 'A' ≤ c ∧ c ≤ 'F' then some (c.toNat - 55)
    else if 'a' ≤ c ∧ c ≤ 'f' then some (c.toNat - 87)
    else none
  | .surrogate _ => none

/-- The number that hexadecimal digits write. -/
def hexNumber (digits : Text) : Nat :=
  digits.foldl (fun n c => 16 * n + (hexValue? c).getD 0) 0

end Munch.Text
