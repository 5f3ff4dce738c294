import Munch.Text.Numeral
import Munch.Text.Quoted

/-! The arguments of the command line: the path of a grammar, and the path of the input, which may
be left out. -/
namespace Munch.CommandLine

/-- What the arguments ask for. A dash as the input is the standard input. -/
structure Request where
  grammar : Text
  input : Text
deriving DecidableEq, Repr

/-- Why there is no request. -/
inductive Refusal
  | help
  | missingGrammar
  | unrecognized (arguments : List Text)
  /-- A value is given with the option for help. -/
  | helpWithValue (value : Text)
deriving DecidableEq, Repr

/-- An argument by its form. -/
inductive Argument
  | positional (text : Text)
  /-- The option for help, with the value given in the same argument. -/
  | help (value : Option Text)
  | unknownOption (text : Text)
deriving DecidableEq, Repr

/-- A number, without a sign. -/
def isNumber (text : Text) : Bool :=
  match text.dropWhile Text.isDigit with
  | [] => !text.isEmpty
  | '.' :: digits => !digits.isEmpty && digits.all Text.isDigit
  | _ => false

/-- A dash with a number after it is no option. A newline may follow the number. -/
def isNegativeNumber (text : Text) : Bool :=
  match text with
  | '-' :: number => isNumber number || number.getLast? == some '\n' && isNumber number.dropLast
  | _ => false

/-- The text before the first equals sign, and the text after it if there is one. -/
def splitValue (text : Text) : Text × Option Text :=
  match text.dropWhile (· != .char '=') with
  | [] => (text, none)
  | _ :: value => (text.takeWhile (· != .char '='), some value)

def helpOption : Text := "--help"

/-- The value given with the short option for help; letters that repeat the option are taken with
it. -/
def shortValue : Text → Option Text
  | [] => none
  | 'h' :: rest => shortValue rest
  | rest => some rest

/-- What begins like an option and is none that is known. -/
def Argument.other (text : Text) : Argument :=
  if isNegativeNumber text || text.contains (Point.char ' ') then .positional text
  else .unknownOption text

/-- The form of an argument before any double dash. The long option may be cut short. -/
def Argument.ofText (text : Text) : Argument :=
  match text with
  | '-' :: '-' :: _ =>
    let (name, value) := splitValue text
    if name.isPrefixOf helpOption then .help value else other text
  | ['-', 'h', '='] => .help (some [])
  | '-' :: 'h' :: '=' :: value => .help (shortValue value)
  | '-' :: 'h' :: rest => .help (shortValue rest)
  | '-' :: _ :: _ => other text
  | _ => .positional text

/-- Which arguments have been found: none, the grammar alone, or the input too. A double dash right
after the input is not too many while `isOpen` holds. -/
inductive Found
  | nothing
  | grammar (path : Text)
  | both (request : Request) (isOpen : Bool)

def dash : Text := "-"

/-- What is found so far, and the arguments that are too many. -/
structure Progress where
  found : Found := .nothing
  extra : List Text := []

/-- Another positional argument. A double dash in the place of the input stands for none. -/
def Progress.positional (p : Progress) (text : Text) : Progress :=
  match p.found with
  | .nothing => { p with found := .grammar text }
  | .grammar path => { p with found := .both ⟨path, if text = "--" then dash else text⟩ true }
  | .both request _ => { found := .both request false, extra := p.extra ++ [text] }

/-- An option after the grammar leaves no place for the input. -/
def Progress.close (p : Progress) : Progress :=
  match p.found with
  | .nothing => p
  | .grammar path => { p with found := .both ⟨path, dash⟩ false }
  | .both request _ => { p with found := .both request false }

/-- The double dash after which every argument is positional. -/
def Progress.separator (p : Progress) : Progress :=
  match p.found with
  | .both request false => { found := .both request false, extra := p.extra ++ [("--" : Text)] }
  | .both request true => { p with found := .both request false }
  | _ => p

/-- Reads the arguments in order, after those that led to `p`. -/
def readFrom (p : Progress) : List Text → Except Refusal Progress
  | [] => .ok p
  | text :: rest =>
    if text = "--" then .ok (rest.foldl Progress.positional p.separator)
    else match Argument.ofText text with
      | .positional text => readFrom (p.positional text) rest
      | .help none => .error .help
      | .help (some value) => .error (.helpWithValue value)
      | .unknownOption text =>
        let p := p.close
        readFrom { p with extra := p.extra ++ [text] } rest

/-- What the arguments ask for. -/
def Request.ofArguments (arguments : List Text) : Except Refusal Request := do
  let p ← readFrom {} arguments
  let request ← match p.found with
    | .nothing => throw .missingGrammar
    | .grammar path => pure ⟨path, dash⟩
    | .both request _ => pure request
  if p.extra.isEmpty then return request else throw (.unrecognized p.extra)

/-! ### Texts -/

def usage : String := "usage: rulelex [-h] grammar [input]\n"

def helpText : String := usage ++ "
Tokenize input using a JSON grammar of ignore patterns, rules and keywords.

positional arguments:
  grammar     path to the JSON grammar file
  input       file to tokenize (default: standard input)

options:
  -h, --help  show this help message and exit
"

/-- The message of a refusal, if it is an error. -/
def Refusal.message? : Refusal → Option Text
  | help => none
  | missingGrammar => some "the following arguments are required: grammar"
  | unrecognized arguments => some ("unrecognized arguments: " ++ List.intercalate " " arguments)
  | helpWithValue value =>
    some ("argument -h/--help: ignored explicit argument " ++ Text.quoted value)

end Munch.CommandLine
