import Munch.Regex.Escape
import Munch.Regex.Flags

/-! Sets in brackets. A closing bracket that comes first is a member, and so is a hyphen that comes
first or last; between two characters a hyphen makes a range. -/
namespace Munch.Regex.Bracket

/-- A member and its written form. -/
structure Member where
  meaning : Escape
  spelling : Symbol

def Member.item (ascii : Bool) (m : Member) : Item :=
  match m.meaning with
  | .code n => .range n n
  | .ofClass k complement => .ofClass k ascii complement
  | _ => .range 0 0

def member (x : Symbol) : Reading Member := do
  match x with
  | .plain c => return ⟨.code c.toNat, x⟩
  | .escape c => return ⟨← Escape.inSet c, x⟩

/-- The range between two members, which must be characters in order. -/
def range (low high : Member) : Reading Item :=
  let bad := Reading.fail (.badRange low.spelling.chars high.spelling.chars)
    (low.spelling.size + 1 + high.spelling.size)
  match low.meaning, high.meaning with
  | .code a, .code b => if b < a then bad else return .range a b
  | _, _ => bad

/-- What two of a sign in a set may have been meant for. -/
def operation? : Symbol → Option String
  | .plain '-' => some "set difference"
  | .plain '&' => some "set intersection"
  | .plain '~' => some "set symmetric difference"
  | .plain '|' => some "set union"
  | _ => none

/-- The items from here to the closing bracket, after those of `items`; `start` is the offset of
the opening bracket, and at most `left` symbols are left. -/
def itemsFrom (ascii : Bool) (start : Nat) (items : List Item) : (left : Nat) → Reading (List Item)
  | 0 => do Reading.fail .unterminatedSet ((← Reading.offset) - start)
  | left + 1 => do
    let unterminated {α : Type} : Reading α := do
      Reading.fail .unterminatedSet ((← Reading.offset) - start)
    let some x ← Reading.take | unterminated
    if x = .plain ']' ∧ items ≠ [] then return items
    if let some what := operation? x then
      if items ≠ [] ∧ (← Reading.peek) = some x then Reading.warn what 1
    let low ← member x
    if ← Reading.accept '-' then
      let some y ← Reading.take | unterminated
      if y = .plain ']' then return items ++ [low.item ascii, .range 45 45]
      if y = .plain '-' then Reading.warn "set difference" 2
      let high ← member y
      itemsFrom ascii start (items ++ [← range low high]) left
    else itemsFrom ascii start (items ++ [low.item ascii]) left

/-- The set whose opening bracket, at `start`, has been taken. -/
def set (flags : Flags) (start : Nat) : Reading CharSet := do
  if (← Reading.peek) = some (.plain '[') then Reading.warn "nested set"
  let complement ← Reading.accept '^'
  let items ← itemsFrom flags.ascii start [] (← Reading.remaining)
  return ⟨items, complement, flags.folding⟩

end Munch.Regex.Bracket
