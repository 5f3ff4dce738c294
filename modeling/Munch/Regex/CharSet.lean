import Munch.Text.Case
import Munch.Text.Word

/-! The sets of characters that a regular expression names: single characters, ranges, classes
such as the digits, and their complements. A set also says how letters that differ in case only
compare; case is ignored for characters and ranges, not for classes. -/
namespace Munch.Regex

/-- How letters compare. -/
inductive Folding
  | exact
  /-- Case is ignored for the letters of ASCII. -/
  | ascii
  /-- Case is ignored for all letters. -/
  | unicode
deriving DecidableEq, Repr

namespace Folding

/-- The code points that compare equal to a code point. -/
def variants (f : Folding) (code : Nat) : List Nat :=
  match f with
  | exact => [code]
  | ascii =>
    if 65 ≤ code ∧ code ≤ 90 then [code, code + 32]
    else if 97 ≤ code ∧ code ≤ 122 then [code - 32, code]
    else [code]
  | unicode => Text.caseVariants code

/-- The form in which two stretches of text are compared. -/
def lower (f : Folding) (c : Point) : Nat :=
  match f with
  | exact => c.toNat
  | ascii => if 65 ≤ c.toNat ∧ c.toNat ≤ 90 then c.toNat + 32 else c.toNat
  | unicode => Text.lowerCode c.toNat

end Folding

inductive Class
  | digit
  | blank
  | word
deriving DecidableEq, Repr

/-- Whether a character is in a class, or in the part of it within ASCII. -/
def Class.holds (k : Class) (ascii : Bool) (c : Point) : Bool :=
  match k, ascii with
  | digit, false => Text.isDigit c
  | digit, true => c.isChar Char.isDigit
  | blank, false => Text.isBlank c
  | blank, true => Text.isAsciiBlank c
  | word, false => Text.isWord c
  | word, true => Text.isAsciiWord c

/-- What a set lists. -/
inductive Item
  | range (low high : Nat)
  | ofClass (k : Class) (ascii complement : Bool)
deriving DecidableEq, Repr

structure CharSet where
  items : List Item
  complement : Bool := false
  folding : Folding := .exact
deriving DecidableEq, Repr

namespace CharSet

/-- The set of one code point. -/
def single (code : Nat) (folding : Folding) : CharSet := ⟨[.range code code], false, folding⟩

/-- Every character, or every one but the newline. -/
def dot (newlines : Bool) : CharSet := ⟨if newlines then [] else [.range 10 10], true, .exact⟩

def holds (s : CharSet) (c : Point) : Bool :=
  let variants := s.folding.variants c.toNat
  let found := s.items.any fun
    | .range low high => variants.any fun code => low ≤ code && code ≤ high
    | .ofClass k ascii complement => k.holds ascii c != complement
  found != s.complement

end CharSet
end Munch.Regex
