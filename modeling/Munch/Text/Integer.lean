import Munch.Text.Word

/-! Integers as text: decimal digits of any script, of which two may have an underscore between
them, after an optional sign and among optional white space. -/
namespace Munch.Text

/-- The value of a decimal digit: digits come in runs from zero to nine. -/
def digitValue? (c : Point) : Option Nat :=
  (digitRanges.find? fun (low, high) => low ≤ c.toNat && c.toNat ≤ high).map fun (low, _) =>
    (c.toNat - low) % 10

/-- The number that digits write after those read into `n`; `joined` tells that an underscore may
come next. -/
def digitsFrom (n : Nat) (joined : Bool) : Text → Option Nat
  | [] => if joined then some n else none
  | '_' :: rest => if joined then digitsFrom n false rest else none
  | c :: rest => do digitsFrom (10 * n + (← digitValue? c)) true rest

def integer? (text : Text) : Option Int :=
  let around (c : Point) : Bool := isBlank c && !(0x1c ≤ c.toNat && c.toNat ≤ 0x1f)
  let text := (text.dropWhile around).reverse.dropWhile around |>.reverse
  match text with
  | '-' :: digits => (digitsFrom 0 false digits).map fun n => -n
  | '+' :: digits => (digitsFrom 0 false digits).map fun n => n
  | digits => (digitsFrom 0 false digits).map fun n => n

end Munch.Text
