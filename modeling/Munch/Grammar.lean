import Munch.Table.Registration

/-! Grammars: tables written as data.

A grammar is an object with at most three lists: patterns to ignore, keywords, and rules. Loading
one registers its entries in this order. An entry that is not of its form, or that the table
refuses, ends the loading; what comes before it stays registered. -/
namespace Munch.Grammar
variable [Engine]

/-- An entry of a grammar: what it registers, or what is wrong with its form. -/
abbrev Entry : Type := Except GrammarFault Registration

/-- The two texts of a list that holds two texts and nothing else. -/
def pair? : Value → Option (Text × Text)
  | .list [.string a, .string b] => some (a, b)
  | _ => none

/-- A pattern to ignore is the source of a regular expression. -/
def ignoreEntry : Value → Entry
  | .string source => .ok (.ignore (.source source))
  | v => .error (.ignoreNotString v)

/-- A keyword is its text, or a pair of its name and its text. -/
def keywordEntry (v : Value) : Entry :=
  match v with
  | .string _ => .ok (.keyword v .null)
  | v =>
    match pair? v with
    | some (name, literal) => .ok (.keyword (.string name) (.string literal))
    | none => .error (.badKeyword v)

/-- A rule is a pair of its name and the source of its regular expression. -/
def ruleEntry (v : Value) : Entry :=
  match pair? v with
  | some (name, source) => .ok (.rule (.string name) (.source source))
  | none => .error (.badRule v)

def sectionNames : List Text := ["ignore", "keywords", "rules"]

/-- The items of a section; a section that is missing has none. -/
def items (members : List (Text × Value)) (name : Text) : Except GrammarFault (List Value) :=
  match Value.member? members name with
  | none => .ok []
  | some (.list items) => .ok items
  | some _ => .error (.sectionNotList name)

/-- The entries of a grammar in the order in which they are registered. -/
def entries : Value → Except GrammarFault (List Entry)
  | .object members => do
    let unknown := (members.map (·.1)).filter fun name => !sectionNames.contains name
    if !unknown.isEmpty then throw (.unknownSections (unknown.mergeSort fun a b => a ≤ b))
    let ignored ← items members "ignore"
    let keywords ← items members "keywords"
    let rules ← items members "rules"
    return ignored.map ignoreEntry ++ keywords.map keywordEntry ++ rules.map ruleEntry
  | _ => .error .notObject

/-! ### Loading -/

/-- What is written or goes on record in the course of loading. -/
inductive Event
  /-- What the engine writes when it makes a source ready. -/
  | note (text : Text)
  | record (r : Record)
deriving DecidableEq, Repr

def Event.record? : Event → Option Record
  | note _ => none
  | record r => some r

/-- What loading leaves: the table, what happened in its course, and the error that ended it early,
if one did. -/
structure Loading where
  table : Table
  events : List Event := []
  error : Option Error := none

/-- What loading puts on record. -/
def Loading.records (loading : Loading) : List Record := loading.events.filterMap Event.record?

/-- The source that a registration has the engine make ready. A rule has none while its name is in
use. -/
def readied? (t : Table) : Registration → Option Text
  | .ignore (.source source) => some source
  | .rule name (.source source) => if (t.names.lookup name.plain).isNone then some source else none
  | _ => none

/-- Registers entries until one fails, when the sources `earlier` have been made ready before.
Errors of form name the file at `path`. -/
def register (path : Option Text) (earlier : List Text) (t : Table) : List Entry → Loading
  | [] => { table := t }
  | .error fault :: _ => { table := t, error := some (.grammar fault path) }
  | .ok r :: rest =>
    let readied := (readied? t r).toList
    let notes := readied.map fun source => Event.note (Engine.notes earlier source)
    match t.register r with
    | .error e => { table := t, events := notes, error := some e }
    | .ok (t, record) =>
      let loading := register path (earlier ++ readied) t rest
      { loading with events := notes ++ .record record :: loading.events }

/-- Loads a grammar onto a table. -/
def load (t : Table) (definition : Value) (path : Option Text) : Loading :=
  match entries definition with
  | .error fault => { table := t, error := some (.grammar fault path) }
  | .ok entries =>
    let loading := register path [] t entries
    match loading.error with
    | some _ => loading
    | none =>
      let last := Record.loaded loading.table.rules.length loading.table.ignored.length
      { loading with events := loading.events ++ [.record last] }

end Munch.Grammar
