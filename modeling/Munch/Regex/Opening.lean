import Munch.Regex.Progress
import Munch.Text.Identifier
import Munch.Text.Integer

/-! What an opening parenthesis begins: groups with and without a number or a name, conditions on
the text before and after, choices, comments, and flags, for the whole expression or for a group.

Flags for the whole expression may only come before anything else, so every piece is made with the
flags in force at its place. -/
namespace Munch.Regex.Progress

/-! ### Flags in parentheses -/

def isFlag : Symbol → Bool
  | .plain c => c == 'L' || (Flag.ofLetter? c).isSome
  | .escape _ => false

/-- The flag of a symbol that is one; `localeFault` is the fault of the letter that is no flag of
text. -/
def flagOf (x : Symbol) (localeFault : Problem) : Reading Flag :=
  match x with
  | .plain c =>
    match Flag.ofLetter? c with
    | some f => return f
    | none => Reading.fail localeFault
  | .escape _ => Reading.fail localeFault

/-- The fault of a symbol that stands where a flag or one of some signs is expected. -/
def expected {α : Type} (x : Symbol) (what : String) : Reading α :=
  Reading.fail (if x.isLetter then .unknownFlag else .missing what) x.size

/-- The flags turned on from `x` on, which is a flag, after those of `on`, and the sign that ends
them. -/
def flagsOn (on : List Flag) (x : Symbol) : (left : Nat) → Reading (List Flag × Symbol)
  | 0 => Reading.fail (.missing "-, : or )")
  | left + 1 => do
    let on := on ++ [← flagOf x .localeFlag]
    if on.contains .ascii && on.contains .unicode then Reading.fail .clashingAlphabets
    let some y ← Reading.take | Reading.fail (.missing "-, : or )")
    if y = .plain ')' ∨ y = .plain '-' ∨ y = .plain ':' then return (on, y)
    if isFlag y then flagsOn on y left else expected y "-, : or )"

/-- The flags turned off from `x` on, which is a flag, after those of `off`, up to the colon. -/
def flagsOff (off : List Flag) (x : Symbol) : (left : Nat) → Reading (List Flag)
  | 0 => Reading.fail (.missing ":")
  | left + 1 => do
    let f ← flagOf x .alphabetTurnedOff
    if f.isAlphabet then Reading.fail .alphabetTurnedOff
    let off := off ++ [f]
    let some y ← Reading.take | Reading.fail (.missing ":")
    if y = .plain ':' then return off
    if isFlag y then flagsOff off y left else expected y ":"

/-- The flags of the group that begins at `start`, the first symbol of which is `x`. Flags without
a colon are for the whole expression and must come first in it. -/
def flagGroup (p : Progress) (start : Nat) (x : Symbol) : Reading Progress := do
  let left := (← Reading.remaining) + 1
  let (on, sign) ← if x = .plain '-' then pure ([], x) else flagsOn [] x left
  if sign = .plain ')' then
    if p.frames.isEmpty && p.level.isFresh then
      return { p with level.flags := on.foldl Flags.insert p.flags }
    else Reading.fail .lateGlobalFlags ((← Reading.offset) - start)
  else
    let off ←
      if sign = .plain '-' then do
        let some y ← Reading.take | Reading.fail (.missing "flag")
        if isFlag y then flagsOff [] y left else expected y "flag"
      else pure []
    if on.any off.contains then Reading.fail .flagOnAndOff 1
    return p.enter .plain start (p.flags.within on off)

/-! ### Groups -/

/-- A group name up to `terminator`. -/
def groupName (terminator : Char) : Reading Text := do
  let name ← Reading.upTo terminator "group name"
  if Text.isIdentifier name then return name
  else Reading.fail (.badGroupName name) (name.length + 1)

/-- The number of the group called `name`, which has just been read. -/
def groupOfName (p : Progress) (name : Text) : Reading Nat :=
  match p.groups.names.lookup name with
  | some n => return n
  | none => Reading.fail (.unknownGroupName name) (name.length + 1)

/-- Opens the next group by number, with a name that has just been read if there is one. -/
def capture (p : Progress) (start : Nat) (name : Option Text) : Reading Progress := do
  let n := p.groups.next
  let names ← match name with
    | none => pure p.groups.names
    | some name =>
      match p.groups.names.lookup name with
      | some before => Reading.fail (.redefinedGroupName name n before) (name.length + 1)
      | none => pure ((name, n) :: p.groups.names)
  let p := { p with groups := { p.groups with next := n + 1, names } }
  return p.enter (.capture n) start p.flags

/-- Named groups and references by name: what follows `(?P`. -/
def namedGroup (p : Progress) (start : Nat) : Reading Progress := do
  if ← Reading.accept '<' then
    p.capture start (some (← groupName '>'))
  else if ← Reading.accept '=' then
    let name ← groupName ')'
    let n ← p.groupOfName name
    if !p.groups.isClosed n then Reading.fail .openGroup (name.length + 1)
    p.groups.checkLookBehind n
    return p.push (.reference n p.flags.folding)
  else
    let some x ← Reading.take | Reading.fail .unexpectedEnd
    Reading.fail (.unknownExtension ("?P" ++ x.chars)) (x.size + 2)

/-- Comments: everything up to a closing parenthesis. -/
def skipGroupComment (start : Nat) : (left : Nat) → Reading Unit
  | 0 => do Reading.fail .unterminatedComment ((← Reading.offset) - start)
  | left + 1 => do
    match ← Reading.take with
    | none => skipGroupComment start 0
    | some x => if x = .plain ')' then return () else skipGroupComment start left

/-- A choice by a group, which is given by its name or its number. A number must not be too large
for a group, but the group may come later. -/
def choice (p : Progress) (start : Nat) : Reading Progress := do
  let name ← Reading.upTo ')' "group name"
  let back := name.length + 1
  if Text.isIdentifier name then
    let n ← p.groupOfName name
    p.groups.checkLookBehind n
    return p.enter (.choice n none) start p.flags
  else
    let some (.ofNat n) := Text.integer? name | Reading.fail (.badGroupName name) back
    if n = 0 then Reading.fail .badGroupNumber back
    if 1073741823 ≤ n then Reading.fail (.invalidGroup n) back
    let place := (← Reading.offset) - back
    let asked := if (p.asked.lookup n).isSome then p.asked else p.asked ++ [(n, place)]
    p.groups.checkLookBehind n
    return { p with asked }.enter (.choice n none) start p.flags

/-- Conditions on the text before: what follows `(?<`. -/
def lookBehind (p : Progress) (start : Nat) : Reading Progress := do
  let some x ← Reading.take | Reading.fail .unexpectedEnd
  if x = .plain '=' ∨ x = .plain '!' then
    let outermost := p.groups.inner.isNone
    let inner := p.groups.inner.getD p.groups.next
    let p := { p with groups := { p.groups with inner := some inner } }
    return p.enter (.behind (x == .plain '!') outermost) start p.flags
  else Reading.fail (.unknownExtension ("?<" ++ x.chars)) (x.size + 2)

/-- What follows `(?`, the parenthesis being at `start`. -/
def extension (p : Progress) (start : Nat) : Reading Progress := do
  let some x ← Reading.take | Reading.fail .unexpectedEnd
  match x with
  | .plain 'P' => p.namedGroup start
  | .plain ':' => return p.enter .plain start p.flags
  | .plain '#' =>
    skipGroupComment start (← Reading.remaining)
    return p
  | .plain '=' => return p.enter (.ahead false) start p.flags
  | .plain '!' => return p.enter (.ahead true) start p.flags
  | .plain '<' => p.lookBehind start
  | .plain '(' => p.choice start
  | .plain '>' => return p.enter .atomic start p.flags
  | x =>
    if isFlag x ∨ x = .plain '-' then p.flagGroup start x
    else Reading.fail (.unknownExtension ("?" ++ x.chars)) (x.size + 1)

end Munch.Regex.Progress
