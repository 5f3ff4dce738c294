import Munch.CommandLine
import Munch.Regex

/-! The command as a program. It knows no characters by name. -/
namespace Munch.CommandLine

attribute [local instance] Regex.plain

/-- The fault that the system reports for a file. -/
def faultOf? (path : Text) : IO.Error → Option FileFault
  | .noFileOrDirectory .. => some (.notFound path)
  | .inappropriateType _ 21 _ => some (.isDirectory path)
  | .inappropriateType .. => some (.notDirectory path)
  | .permissionDenied .. => some (.denied path)
  | _ => none

/-- A text as characters; surrogates are escaped. -/
def characters (text : Text) : String :=
  String.ofList (text.flatMap fun
    | .char c => [c]
    | .surrogate n => '\\' :: 'u' :: Nat.toDigits 16 (0xd800 + n))

def readSystemFile (path : Text) : IO (Except FileFault (List UInt8)) := do
  if let some f := Failure.unencodable? path then return .error { f with ofSystem := false }
  if path.contains (Point.char '\x00') then return .error .nullCharacter
  try
    let bytes ← IO.FS.readBinFile (characters path)
    return .ok bytes.toList
  catch e =>
    match faultOf? path e with
    | some fault => return .error fault
    | none => throw e

/-- All bytes of a stream, after those of `read`. -/
partial def readAll (stream : IO.FS.Stream) (read : ByteArray) : IO ByteArray := do
  let bytes ← stream.read 65536
  if bytes.isEmpty then return read else readAll stream (read ++ bytes)

def system : Host IO where
  file := readSystemFile
  standardInput := do return (← readAll (← IO.getStdin) .empty).toList
  decode bytes := (Text.Utf8.decode bytes).map .ofChars
  refuses := Failure.unencodable?
  limits := { digits := some 4300, nesting := some 990 }

end Munch.CommandLine

open Munch Munch.CommandLine in
attribute [local instance] Regex.plain in
def main (arguments : List String) : IO UInt32 := do
  let debug := Munch.CommandLine.debugging (← IO.getEnv "RULELEX_DEBUG")
  let outcome ← Munch.CommandLine.run system debug (arguments.map .ofString)
  (← IO.getStdout).putStr (characters outcome.output)
  (← IO.getStderr).putStr (characters outcome.errors)
  match outcome.ending with
  | .exit code => return code.toUInt32
  | .uncaught e =>
    (← IO.getStderr).putStr (e.name ++ ": " ++ characters e.message ++ "\n")
    return 1
