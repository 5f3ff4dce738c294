import Munch.Regex.CharSet

/-! The flags of regular expressions, given from outside, at the start of the source, or for a
group. -/
namespace Munch.Regex

structure Flags where
  /-- Classes and case are those of ASCII. -/
  ascii : Bool := false
  /-- Classes and case are those of Unicode, as they are without a flag. -/
  unicode : Bool := false
  ignoreCase : Bool := false
  /-- Anchors also hold at the lines of the text. -/
  multiline : Bool := false
  /-- The dot takes newlines too. -/
  dotAll : Bool := false
  /-- White space and comments in the source are skipped. -/
  verbose : Bool := false
deriving DecidableEq, Repr

/-- One flag of a source. -/
inductive Flag
  | ascii
  | unicode
  | ignoreCase
  | multiline
  | dotAll
  | verbose
deriving DecidableEq, Repr

namespace Flag

def ofLetter? : Point → Option Flag
  | 'a' => some ascii
  | 'u' => some unicode
  | 'i' => some ignoreCase
  | 'm' => some multiline
  | 's' => some dotAll
  | 'x' => some verbose
  | _ => none

/-- The two flags of which at most one is in force. -/
def isAlphabet : Flag → Bool
  | ascii | unicode => true
  | _ => false

end Flag

namespace Flags

def insert (f : Flags) : Flag → Flags
  | .ascii => { f with ascii := true }
  | .unicode => { f with unicode := true }
  | .ignoreCase => { f with ignoreCase := true }
  | .multiline => { f with multiline := true }
  | .dotAll => { f with dotAll := true }
  | .verbose => { f with verbose := true }

def erase (f : Flags) : Flag → Flags
  | .ascii => { f with ascii := false }
  | .unicode => { f with unicode := false }
  | .ignoreCase => { f with ignoreCase := false }
  | .multiline => { f with multiline := false }
  | .dotAll => { f with dotAll := false }
  | .verbose => { f with verbose := false }

/-- Flags from their letters; letters of no flag count for nothing. -/
def ofLetters (letters : Text) : Flags :=
  (letters.filterMap Flag.ofLetter?).foldl insert {}

/-- The flags in force in a group that turns `on` and `off` some: an alphabet that is turned on
replaces the one outside. -/
def within (f : Flags) (on off : List Flag) : Flags :=
  let f := if on.any Flag.isAlphabet then { f with ascii := false, unicode := false } else f
  off.foldl erase (on.foldl insert f)

/-- The names of the flags that are shown. That a source is one of Unicode is not. -/
def names (f : Flags) : List String :=
  (if f.ignoreCase then ["re.IGNORECASE"] else []) ++
    (if f.multiline then ["re.MULTILINE"] else []) ++ (if f.dotAll then ["re.DOTALL"] else []) ++
    (if f.verbose then ["re.VERBOSE"] else []) ++ (if f.ascii then ["re.ASCII"] else [])

/-- How letters compare under the flags. -/
def folding (f : Flags) : Folding :=
  if f.ignoreCase then (if f.ascii then .ascii else .unicode) else .exact

end Flags
end Munch.Regex
