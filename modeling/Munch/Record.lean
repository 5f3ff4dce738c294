import Munch.Token

/-! What a lexer puts on record: registrations, grammars that are loaded, and what a scan takes. -/
namespace Munch

inductive Record
  /-- A pattern is ignored from now on. -/
  | ignore (shown : Text)
  | rule (name shown : Text)
  | keyword (name shown : Text)
  /-- A grammar is loaded; the numbers are those of the whole table. -/
  | loaded (rules patterns : Nat)
  /-- A scan has taken a piece of text that is ignored. -/
  | ignored (piece : Text)
  | token (t : Token)
deriving DecidableEq, Repr

namespace Record

/-- The part of the program that puts it on record. -/
def origin : Record → String
  | ignore _ | rule .. | keyword .. => "rulelex.rules"
  | loaded .. => "rulelex.grammar"
  | ignored _ | token _ => "rulelex.scanner"

def message : Record → Text
  | ignore shown => "ignore " ++ shown
  | rule name shown => "rule " ++ name ++ " " ++ shown
  | keyword name shown => "keyword " ++ name ++ " " ++ shown
  | loaded rules patterns => s!"loaded {rules} rule(s) and {patterns} ignore pattern(s)"
  | ignored piece => "ignored " ++ Text.quoted piece
  | token t => "token " ++ t.shown

/-- The line of a log. -/
def line (r : Record) : Text := s!"DEBUG {r.origin}: " ++ r.message

end Record
end Munch
