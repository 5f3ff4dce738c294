import Munch.Decimal.Binary64

/-! The shortest decimal that reads back as a given binary value.

The decimals that read back as `m * 2 ^ q` fill the interval between the midpoints to its two
neighbours, the ends included when `m` is even. For one digit, two digits and so on up to
seventeen, `shortest` looks at the two decimals of that many digits next to the value. The first
number of digits with a decimal inside the interval wins, and of two such the nearer one. -/
namespace Munch.Decimal

/-- The decimal `digits * 10 ^ exponent`. -/
structure Scientific where
  digits : Nat
  exponent : Int
deriving DecidableEq, Repr

/-- A value and the interval that reads back as it, over one denominator. -/
structure Target where
  low : Nat
  value : Nat
  high : Nat
  den : Nat
  closed : Bool

/-- The interval of `significand * 2 ^ exponent`. Below a power of two the neighbour is half as far
away as above it, unless the exponent is the lowest. -/
def Target.of (significand : Nat) (exponent : Int) : Target :=
  let unit := Nat.pow 2 (exponent - 2).toNat
  let narrow := significand = Nat.pow 2 52 ∧ exponent ≠ Binary64.minExponent
  { low := (4 * significand - if narrow then 1 else 2) * unit
    value := 4 * significand * unit
    high := (4 * significand + 2) * unit
    den := Nat.pow 2 (2 - exponent).toNat
    closed := significand % 2 == 0 }

/-- The exponent `e` with `10 ^ e ≤ value / den < 10 ^ (e + 1)`. -/
def Target.magnitude (t : Target) : Int :=
  if t.den ≤ t.value then (Nat.toDigits 10 (t.value / t.den)).length - 1
  else -(((List.range 330).find? fun j => t.den ≤ t.value * Nat.pow 10 j).getD 330 : Nat)

/-- `digits * 10 ^ exponent` and the target's numbers, over one denominator. -/
def Target.scale (t : Target) (exponent : Int) : Nat × Nat :=
  (Nat.pow 10 exponent.toNat * t.den, Nat.pow 10 (-exponent).toNat)

/-- Whether the decimal reads back as the target. -/
def Target.holds (t : Target) (d : Scientific) : Bool :=
  let (up, down) := t.scale d.exponent
  let x := d.digits * up
  if t.closed then t.low * down ≤ x && x ≤ t.high * down
  else t.low * down < x && x < t.high * down

/-- The decimal of the target's interval with the grid `10 ^ exponent`: the nearer of the value's
two neighbours on the grid, the even one of two equally near. -/
def Target.onGrid? (t : Target) (exponent : Int) : Option Scientific :=
  let (up, down) := t.scale exponent
  let floor := t.value * down / up
  let twice := 2 * (t.value * down % up)
  let below : Scientific := ⟨floor, exponent⟩
  let above : Scientific := ⟨floor + 1, exponent⟩
  match t.holds below, t.holds above with
  | false, false => none
  | true, false => some below
  | false, true => some above
  | true, true =>
    if twice < up ∨ (twice = up ∧ floor % 2 = 0) then some below else some above

/-- The shortest decimal that reads back as `significand * 2 ^ exponent`, which is not zero. -/
def shortest (significand : Nat) (exponent : Int) : Scientific :=
  let t := Target.of significand exponent
  let top := t.magnitude
  let grids := (List.range 17).map fun (n : Nat) => top - n
  (grids.findSome? t.onGrid?).getD ⟨significand, exponent⟩

/-- The decimal digits of a number without the zeros at its end, and how many zeros those are. -/
def stripZeros (digits : List Char) : List Char × Nat :=
  let kept := (digits.reverse.dropWhile (· == '0')).reverse
  (kept, digits.length - kept.length)

/-- How decimals are written: positionally while the exponent of the first digit is at least
`lowest` and below `highest`, always with a digit after the point; else with one digit before the
point and a signed exponent of at least two digits. -/
structure Style where
  lowest : Int
  highest : Int

/-- The text of the decimal with the given digits, the first of which stands for `10 ^ top`. -/
def Style.write (style : Style) (digits : List Char) (top : Int) : String :=
  if style.lowest ≤ top ∧ top < style.highest then
    if top < 0 then
      "0." ++ String.ofList (List.replicate (-top - 1).toNat '0' ++ digits)
    else
      let whole := (top + 1).toNat
      let fraction := digits.drop whole
      String.ofList (digits.take whole ++ List.replicate (whole - digits.length) '0') ++ "." ++
        String.ofList (if fraction.isEmpty then ['0'] else fraction)
  else
    let size := toString top.natAbs
    let exponent := (if top < 0 then "-" else "+") ++ (if size.length < 2 then "0" else "") ++ size
    let fraction := digits.drop 1
    String.ofList (digits.take 1) ++
      (if fraction.isEmpty then "" else "." ++ String.ofList fraction) ++ "e" ++ exponent

end Munch.Decimal

namespace Munch.Binary64

/-- The text of a value: the shortest decimal that reads back as it. -/
def text (style : Decimal.Style) : Binary64 → String
  | nan => "nan"
  | infinity negative => if negative then "-inf" else "inf"
  | finite negative significand exponent =>
    let sign := if negative then "-" else ""
    if significand = 0 then sign ++ "0.0"
    else
      let d := Decimal.shortest significand exponent
      let digits := Nat.toDigits 10 d.digits
      let top := d.exponent + (digits.length - 1 : Nat)
      sign ++ style.write (Decimal.stripZeros digits).1 top

end Munch.Binary64
