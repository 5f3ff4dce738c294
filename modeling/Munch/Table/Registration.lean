import Munch.Record
import Munch.Table

/-! Registration: how a table grows. A registration gives the larger table and what goes on
record, or it fails, and there is no other table. -/
namespace Munch
variable [Engine]

/-- What may be registered. Names and literals may be any values and count as their plain texts. -/
inductive Registration
  | ignore (spec : PatternSpec)
  | rule (name : Value) (spec : PatternSpec)
  /-- A null literal stands for the name and a null name for the literal. -/
  | keyword (name literal : Value)

namespace Table

/-- Refuses a name that is in use. -/
def checkUnused (t : Table) (name : Text) : Except Error Unit :=
  match t.names.lookup name with
  | some kind => .error (.duplicateName name kind)
  | none => .ok ()

/-- The table with one more rule, which is registered as `kind`. -/
def addRule (t : Table) (name : Text) (kind : Registered) (p : Pattern) : Table :=
  { t with rules := t.rules ++ [⟨name, p⟩], names := t.names ++ [(name, kind)] }

def ignore (t : Table) (spec : PatternSpec) : Except Error (Table × Record) := do
  let p ← spec.compile
  return ({ t with ignored := t.ignored ++ [p] }, .ignore spec.shown)

def rule (t : Table) (name : Value) (spec : PatternSpec) : Except Error (Table × Record) := do
  let name := name.plain
  t.checkUnused name
  let p ← spec.compile
  return (t.addRule name .rule p, .rule name p.shown)

/-- The name and the literal of a keyword, each for the other if that is null. -/
def keywordTexts (name literal : Value) : Except Error (Text × Text) :=
  match name, literal with
  | .null, .null => .error (.invalidPattern Value.null.shown .missingLiteral)
  | .null, literal => .ok (literal.plain, literal.plain)
  | name, .null => .ok (name.plain, name.plain)
  | name, literal => .ok (name.plain, literal.plain)

def keyword (t : Table) (name literal : Value) : Except Error (Table × Record) := do
  let (name, literal) ← keywordTexts name literal
  t.checkUnused name
  if (t.keywords.lookup literal).isSome then throw (.duplicateName literal .literal)
  let p ← Pattern.ofLiteral (some literal)
  let t := t.addRule name .keyword p
  return ({ t with keywords := t.keywords ++ [(literal, ⟨name, literal, -1, -1⟩)] },
    .keyword name p.shown)

def register (t : Table) : Registration → Except Error (Table × Record)
  | .ignore spec => t.ignore spec
  | .rule name spec => t.rule name spec
  | .keyword name literal => t.keyword name literal

end Table
end Munch
