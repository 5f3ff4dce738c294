import Munch.Engine
import Munch.Json
import Munch.Text.Utf8

/-! Errors, by their causes. Each has a name and a message; the wording is in `Wording`, for any
texts in its places. -/
namespace Munch

/-! ### The wording -/

namespace Wording

/-- A part of a message for what may be given, after its introduction. -/
def part (introduction : Text) (given : Option Text) : Text :=
  (given.map (introduction ++ ·)).getD []

def unmatched (preview : Text) (line column : Option Text) : Text :=
  "unexpected input <" ++ preview ++ ">" ++ part " on line " line ++ part ", column " column

def duplicateName (name : Text) (kind : Option Text) : Text :=
  "Name '" ++ name ++ "' is already registered" ++ part " as a " kind

def invalidPattern (shown : Text) (reason : Option Text) : Text :=
  "Invalid pattern " ++ shown ++ part ": " reason

def grammar (message : Text) (file : Option Text) : Text := message ++ part " in " file

end Wording

/-! ### The causes -/

/-- What a name is registered as. -/
inductive Registered
  | rule
  | keyword
  /-- The text of a keyword. -/
  | literal
deriving DecidableEq, Repr

def Registered.text : Registered → String
  | rule => "rule"
  | keyword => "keyword"
  | literal => "keyword literal"

/-- Why a pattern is refused. -/
inductive PatternFault
  /-- The source of a regular expression is invalid. -/
  | source (message : Text)
  | bytes
  | emptyLiteral
  | missingLiteral
  /-- A value of this type is no pattern. -/
  | unsupported (typeName : String)
deriving DecidableEq, Repr

def PatternFault.message : PatternFault → Text
  | source message => message
  | bytes => "bytes patterns cannot match text"
  | emptyLiteral => "literal must not be empty"
  | missingLiteral => "keyword literal is required"
  | unsupported typeName => s!"unsupported type {typeName}"

/-- What is wrong with a grammar, apart from its patterns and names. -/
inductive GrammarFault
  | notObject
  | unknownSections (names : List Text)
  | sectionNotList (name : Text)
  | ignoreNotString (entry : Value)
  | badKeyword (entry : Value)
  | badRule (entry : Value)
  | invalidJson (fault : Json.Fault)
  | invalidUtf8 (fault : Text.Utf8.Fault)

def GrammarFault.message : GrammarFault → Text
  | notObject => "Grammar must be an object"
  | unknownSections names =>
    "Unknown grammar section(s) " ++ (Value.list (names.map .string)).shown
  | sectionNotList name => "Grammar section '" ++ name ++ "' must be a list"
  | ignoreNotString entry => "Ignore pattern " ++ entry.shown ++ " must be a string"
  | badKeyword entry => "Keyword " ++ entry.shown ++ " must be a string or [name, literal]"
  | badRule entry => "Rule " ++ entry.shown ++ " must be [name, pattern]"
  | invalidJson fault => s!"Invalid JSON ({fault.message})"
  | invalidUtf8 fault => "Grammar is not valid UTF-8 (" ++ fault.message ++ ")"

/-- Why a file cannot be read, as the host says. It is mostly an error of the system. -/
structure FileFault extends Failure where
  ofSystem : Bool := true
deriving DecidableEq, Repr

namespace FileFault

def notFound (path : Text) : FileFault :=
  { kind := "FileNotFoundError"
    message := "[Errno 2] No such file or directory: " ++ Text.quoted path }

def isDirectory (path : Text) : FileFault :=
  { kind := "IsADirectoryError", message := "[Errno 21] Is a directory: " ++ Text.quoted path }

def notDirectory (path : Text) : FileFault :=
  { kind := "NotADirectoryError", message := "[Errno 20] Not a directory: " ++ Text.quoted path }

def denied (path : Text) : FileFault :=
  { kind := "PermissionError", message := "[Errno 13] Permission denied: " ++ Text.quoted path }

/-- No system has a path with this character in it. -/
def nullCharacter : FileFault :=
  { kind := "ValueError", message := "embedded null byte", ofSystem := false }

end FileFault

inductive Error
  /-- No rule matches the text at a position; it begins with `preview` there. -/
  | unmatched (preview : Text) (place : Position)
  | duplicateName (name : Text) (kind : Registered)
  /-- The pattern, as it is shown, is refused. -/
  | invalidPattern (shown : Text) (fault : PatternFault)
  /-- A grammar is not of the right form; its file is named if it came from one. -/
  | grammar (fault : GrammarFault) (path : Option Text)
  | failure (f : Failure)
  | file (fault : FileFault)
  /-- The input is not text. -/
  | decoding (fault : Text.Utf8.Fault)

namespace Error

/-- The error of a source that an engine does not make ready. -/
def ofEngine (source : Text) : Engine.Fault → Error
  | .invalid message => invalidPattern (Text.quoted source) (.source message)
  | .raised f => failure f

/-- The error that ends an iteration when one of its calls fails. A pattern may fail with the
signal that ends iterations, and inside of one that is an error of another kind. -/
def ofIteration : Error → Error
  | failure f =>
    failure (if f.kind = "StopIteration" then ⟨"RuntimeError", "generator raised StopIteration"⟩
      else f)
  | e => e

def name : Error → String
  | unmatched .. => "UnmatchedInputError"
  | duplicateName .. => "DuplicateNameError"
  | invalidPattern .. => "InvalidPatternError"
  | grammar .. => "GrammarError"
  | failure f => f.kind
  | file fault => fault.kind
  | decoding _ => "UnicodeDecodeError"

def message : Error → Text
  | unmatched preview place =>
    Wording.unmatched preview (some (toString place.line)) (some (toString place.column))
  | duplicateName name kind => Wording.duplicateName name (some kind.text)
  | invalidPattern shown fault => Wording.invalidPattern shown (some fault.message)
  | grammar fault path => Wording.grammar fault.message path
  | failure f => f.message
  | file fault => fault.message
  | decoding fault => fault.message

end Error
end Munch
