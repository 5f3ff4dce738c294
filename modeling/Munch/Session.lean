import Munch.Grammar
import Munch.Scanner

/-! Sessions: one table, and any number of scanners over it.

A session takes commands. Some let the table grow, some move one of the scanners, which have names,
and some only ask. A command that fails leaves what it has done so far and the session goes on. A
call of a scanner may never end; that it does not is then said in place of its reply, and the
session is left alone. -/
namespace Munch
variable [Engine]

structure Session where
  table : Table := {}
  /-- How much of the text an error message shows. -/
  previewLength : Option Int := some 5
  /-- The scanners by name; one that is not there has not been started. -/
  scanners : List (String × Scanner) := []

namespace Session

inductive Command
  | register (r : Registration)
  /-- Loads a grammar, which came from the file at `path` if there is one. -/
  | load (definition : Value) (path : Option Text)
  /-- Starts the scanner `on` on a text. -/
  | start (on : String) (text : Text)
  /-- Makes `on` a new scanner, which is not started unless there is a text. -/
  | create (on : String) (text : Option Text)
  | next (on : String)
  /-- Takes all tokens of the scanner `on`. -/
  | iterate (on : String)
  /-- Takes characters without asking the rules. -/
  | consume (on : String) (length : Int)
  | state (on : String)
  /-- All tokens of a text, by a scanner of its own. -/
  | tokenize (text : Text)
  | table
  | ignoredLength (text : Text) (pos : Int)
  | longest (text : Text) (pos : Int)
  /-- The label of a text that the rule with the given number has matched. -/
  | relabel (rule : Nat) (value : Text)

inductive Reply
  | done
  | registered (name : Text)
  | place (p : Position)
  /-- No token is the end of the input. -/
  | token (t : Option Token)
  | tokens (ts : List Token) (stop : Option Error)
  | piece (text : Text)
  | state (s : Option Scanner)
  | table (t : Table)
  | length (n : Int)
  | longest (winner : Option (Rule × Nat))
  | label (kind value : Text)
  | failed (e : Error)
  /-- There is no reply, for the command does not end. -/
  | unending

/-- What a command leaves, what it puts on record, and its reply. -/
structure Outcome where
  session : Session
  records : List Record := []
  reply : Reply

def scanner? (s : Session) (on : String) : Option Scanner := s.scanners.lookup on

def setScanner (s : Session) (on : String) (scanner : Option Scanner) : Session :=
  let others := s.scanners.filter (·.1 != on)
  { s with scanners := (scanner.toList.map (on, ·)) ++ others }

/-- The name that a record says is registered. -/
def nameOf : Record → Reply
  | .rule name _ | .keyword name _ => .registered name
  | _ => .done

def replyOf {α : Type} (answer : α → Reply) : Except Error α → Reply
  | .ok a => answer a
  | .error e => .failed e

def answer (s : Session) (reply : Reply) : Outcome := { session := s, reply }

def step (s : Session) : Command → Outcome
  | .register r =>
    match s.table.register r with
    | .error e => s.answer (.failed e)
    | .ok (t, record) =>
      { session := { s with table := t }, records := [record], reply := nameOf record }
  | .load definition path =>
    let loading := Grammar.load s.table definition path
    { session := { s with table := loading.table }
      records := loading.records
      reply := (loading.error.map .failed).getD .done }
  | .start on text => (s.setScanner on (some (.start text))).answer .done
  | .create on text =>
    let scanner := text.map Scanner.start
    (s.setScanner on scanner).answer (.place ((scanner.map (·.position)).getD {}))
  | .next on =>
    match s.scanner? on with
    | none => s.answer (.token none)
    | some scanner =>
      match scanner.next s.table s.previewLength with
      | none => s.answer .unending
      | some step =>
        { session := s.setScanner on (some step.scanner)
          records := step.records
          reply := replyOf .token step.result }
  | .iterate on =>
    match s.scanner? on with
    | none => s.answer (.tokens [] none)
    | some scanner =>
      match scanner.run s.table s.previewLength with
      | none => s.answer .unending
      | some run =>
        { session := s.setScanner on (some run.scanner)
          records := run.records
          reply := .tokens run.tokens run.stop }
  | .consume on length =>
    match s.scanner? on with
    | none => s.answer (.piece [])
    | some scanner =>
      (s.setScanner on (some (scanner.consume length))).answer (.piece (scanner.piece length))
  | .state on => s.answer (.state (s.scanner? on))
  | .tokenize text =>
    match (Scanner.start text).run s.table s.previewLength with
    | none => s.answer .unending
    | some run =>
      { session := s
        records := run.records
        reply := match run.stop with
          | some e => .failed e
          | none => .tokens run.tokens none }
  | .table => s.answer (.table s.table)
  | .ignoredLength text pos =>
    s.answer (replyOf .length ((s.table.ignoredLength text pos).mapError .failure))
  | .longest text pos =>
    s.answer (replyOf .longest ((s.table.longest text pos).mapError .failure))
  | .relabel rule value =>
    match s.table.rules[rule]? with
    | none => s.answer .done
    | some r => let (kind, value) := s.table.relabel r value; s.answer (.label kind value)

end Session
end Munch
