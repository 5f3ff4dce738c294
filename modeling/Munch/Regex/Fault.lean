import Munch.Engine
import Munch.Text.Quoted

/-! Why the source of a regular expression is refused, and where. -/
namespace Munch.Regex

/-- What is wrong at a place of a source. -/
inductive Problem
  | danglingEscape
  | badEscape (escape : Text)
  | incompleteEscape (escape : Text)
  | octalTooLarge (escape : Text)
  /-- A name or sign is not there. -/
  | missing (what : Text)
  | unterminatedName (terminator : Char)
  | undefinedCharacter (name : Text)
  | unterminatedSet
  | badRange (low high : Text)
  | nothingToRepeat
  | multipleRepeat
  | minAboveMax
  | unexpectedEnd
  | badGroupName (name : Text)
  | unknownGroupName (name : Text)
  | redefinedGroupName (name : Text) (now before : Nat)
  | badGroupNumber
  | invalidGroup (n : Nat)
  | openGroup
  | groupOfSameLookBehind
  | tooManyBranches
  | unterminatedGroup
  | unterminatedComment
  | unbalancedGroup
  | unknownExtension (text : Text)
  | lateGlobalFlags
  | localeFlag
  | clashingAlphabets
  | alphabetTurnedOff
  | flagOnAndOff
  | unknownFlag
deriving DecidableEq, Repr

def Problem.message : Problem → Text
  | danglingEscape => "bad escape (end of pattern)"
  | badEscape escape => "bad escape " ++ escape
  | incompleteEscape escape => "incomplete escape " ++ escape
  | octalTooLarge escape => "octal escape value " ++ escape ++ " outside of range 0-0o377"
  | missing what => "missing " ++ what
  | unterminatedName terminator => s!"missing {terminator}, unterminated name"
  | undefinedCharacter name => "undefined character name " ++ Text.quoted name
  | unterminatedSet => "unterminated character set"
  | badRange low high => "bad character range " ++ low ++ "-" ++ high
  | nothingToRepeat => "nothing to repeat"
  | multipleRepeat => "multiple repeat"
  | minAboveMax => "min repeat greater than max repeat"
  | unexpectedEnd => "unexpected end of pattern"
  | badGroupName name => "bad character in group name " ++ Text.quoted name
  | unknownGroupName name => "unknown group name " ++ Text.quoted name
  | redefinedGroupName name now before =>
    "redefinition of group name " ++ Text.quoted name ++ s!" as group {now}; was group {before}"
  | badGroupNumber => "bad group number"
  | invalidGroup n => s!"invalid group reference {n}"
  | openGroup => "cannot refer to an open group"
  | groupOfSameLookBehind => "cannot refer to group defined in the same lookbehind subpattern"
  | tooManyBranches => "conditional backref with more than two branches"
  | unterminatedGroup => "missing ), unterminated subpattern"
  | unterminatedComment => "missing ), unterminated comment"
  | unbalancedGroup => "unbalanced parenthesis"
  | unknownExtension text => "unknown extension " ++ text
  | lateGlobalFlags => "global flags not at the start of the expression"
  | localeFlag => "bad inline flags: cannot use 'L' flag with a str pattern"
  | clashingAlphabets => "bad inline flags: flags 'a', 'u' and 'L' are incompatible"
  | alphabetTurnedOff => "bad inline flags: cannot turn off flags 'a', 'u' and 'L'"
  | flagOnAndOff => "bad inline flags: flag turned on and off"
  | unknownFlag => "unknown flag"

/-- Why a source is refused. -/
inductive Fault
  | problem (p : Problem) (offset : Nat)
  /-- The body of a look-behind may match more than one number of characters. -/
  | variableLookBehind
  /-- A repetition count is at or beyond the limit. -/
  | countTooLarge
  /-- A repetition count is written with more digits than the host reads. -/
  | countTooLong (digits : Nat)
  /-- A character is asked for by a name that the host does not encode. -/
  | unencodable (f : Failure)
  /-- The source as a whole is flagged both as ASCII and as Unicode. -/
  | conflictingFlags
deriving DecidableEq, Repr

/-- What a fault in `source` is to a table. The source is invalid, unless it is the host that fails
on it. A place has its line and column too when the source has more than one line. -/
def Fault.ofEngine (source : Text) : Fault → Engine.Fault
  | problem p offset =>
    let place : Position := ({} : Position).advance (source.take offset)
    let lines :=
      if Point.char '\n' ∈ source then s!" (line {place.line}, column {place.column + 1})" else ""
    .invalid (p.message ++ s!" at position {offset}{lines}")
  | variableLookBehind => .invalid "look-behind requires fixed-width pattern"
  | countTooLarge => .raised ⟨"OverflowError", "the repetition number is too large"⟩
  | countTooLong digits => .raised (.digitLimit 4300 digits)
  | unencodable f => .raised f
  | conflictingFlags => .raised ⟨"ValueError", "ASCII and UNICODE flags are incompatible"⟩

end Munch.Regex
