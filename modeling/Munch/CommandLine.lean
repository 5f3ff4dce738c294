import Munch.CommandLine.Arguments
import Munch.Grammar.File
import Munch.Scan

/-! The command line: lists the tokens of an input by the grammar of a file.

The arguments are read first, then the grammar, then the input, and then the input is scanned; the
first of these to fail ends the run. The tokens found before a scan fails are listed. What the
engine has to say of the sources in the grammar is written to standard error, and with debugging on,
so is everything that goes on record. -/
namespace Munch.CommandLine
variable [Engine]

/-- What the command is run by: what it reads, and how. -/
structure Host (m : Type → Type) where
  file : Text → m (Except FileFault (List UInt8))
  standardInput : m (List UInt8)
  /-- How the bytes of the standard input become text. -/
  decode : List UInt8 → Except Text.Utf8.Fault Text
  /-- What fails if a line has characters that the standard output does not take. -/
  refuses : Text → Option Failure
  limits : Json.Limits

/-- How a run ends. -/
inductive Ending
  | exit (code : Nat)
  /-- An error that the command does not handle. -/
  | uncaught (e : Error)

structure Outcome where
  output : Text := []
  errors : Text := []
  ending : Ending := .exit 0

/-- Whether the command handles an error: it reports those of lexers, of the system and of decoding,
and no others. -/
def handles : Error → Bool
  | .failure _ => false
  | .file fault => fault.ofSystem
  | _ => true

/-- Whether debugging is on by its setting: by any text but the empty one. -/
def debugging (setting : Option String) : Bool := setting.any (· != "")

/-- What is written of an event: every note, and the line of every record if debugging is on. -/
def written (debug : Bool) : Grammar.Event → Text
  | .note text => text
  | .record r => if debug then r.line ++ "\n" else []

def log (debug : Bool) (events : List Grammar.Event) : Text := events.flatMap (written debug)

/-- The end of a run, after what was written before. -/
def conclude (output errors : Text) : Option Error → Outcome
  | none => { output, errors }
  | some e =>
    if handles e then
      { output, errors := errors ++ e.name ++ ": " ++ e.message ++ "\n", ending := .exit 1 }
    else { output, errors, ending := .uncaught e }

/-- The end of a run without a request. -/
def refuse (r : Refusal) : Outcome :=
  match r.message? with
  | none => { output := helpText }
  | some message => { errors := usage ++ "rulelex: error: " ++ message ++ "\n", ending := .exit 1 }

/-! ### Listing -/

/-- What comes of listing the tokens that go on record: the lines that are written, the records up
to the token whose line is not, and the failure of that. -/
structure Listing where
  output : Text := []
  records : List Record := []
  failure : Option Failure := none

/-- Lists tokens as they go on record, until the line of one is refused. -/
def list (refuses : Text → Option Failure) : List Record → Listing
  | [] => {}
  | .token token :: rest =>
    match refuses token.listing with
    | some f => { records := [.token token], failure := some f }
    | none =>
      let listing := list refuses rest
      { listing with
        output := token.listing ++ "\n" ++ listing.output
        records := .token token :: listing.records }
  | r :: rest =>
    let listing := list refuses rest
    { listing with records := r :: listing.records }

/-- Scans an input that has been read, and lists its tokens, after what loading the table wrote. -/
def scan (refuses : Text → Option Failure) (debug : Bool) (errors : Text) (t : Table)
    (input : Text) : Outcome :=
  let run := (Scan.start input).run t (some 5)
  let listing := list refuses run.records
  conclude listing.output (errors ++ log debug (listing.records.map .record))
    ((listing.failure.map .failure).or run.stop)

variable {m : Type → Type} [Monad m]

/-- The text of the input at a path. -/
def readInput (host : Host m) (path : Text) : m (Except Error Text) := do
  if path = dash then return (host.decode (← host.standardInput)).mapError .decoding
  else return match ← host.file path with
    | .error fault => .error (.file fault)
    | .ok bytes => ((Text.ofFile bytes).map .ofChars).mapError .decoding

/-- Runs the command on its arguments. -/
def run (host : Host m) (debug : Bool) (arguments : List Text) : m Outcome := do
  match Request.ofArguments arguments with
  | .error r => return refuse r
  | .ok request =>
    let loading := Grammar.loadFile host.limits request.grammar (← host.file request.grammar)
    let errors := log debug loading.events
    match loading.error with
    | some e => return conclude [] errors (some e)
    | none =>
      match ← readInput host request.input with
      | .error e => return conclude [] errors (some e)
      | .ok input => return scan host.refuses debug errors loading.table input

end Munch.CommandLine
