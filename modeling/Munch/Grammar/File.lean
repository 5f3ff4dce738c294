import Munch.Grammar
import Munch.Text.File

/-! Grammar files: a grammar written as JSON in a text file. -/
namespace Munch.Grammar
variable [Engine]

/-- The error of a text in the file at `path` that holds no value. -/
def jsonError (path : Text) : Json.Refusal → Error
  | .fault fault => .grammar (.invalidJson fault) (some path)
  | .failure f => .failure f

/-- The value written in the bytes of the file at `path`. -/
def parseFile (limits : Json.Limits) (path : Text) (bytes : List UInt8) : Except Error Value := do
  let text ← (Text.ofFile bytes).mapError fun fault => .grammar (.invalidUtf8 fault) (some path)
  (Json.parse limits text).mapError (jsonError path)

/-- Loads the file at `path`, with these contents, onto an empty table. -/
def loadFile (limits : Json.Limits) (path : Text) (contents : Except FileFault (List UInt8)) :
    Loading :=
  match contents with
  | .error fault => { table := {}, error := some (.file fault) }
  | .ok bytes =>
    match parseFile limits path bytes with
    | .error e => { table := {}, error := some e }
    | .ok definition => load {} definition (some path)

end Munch.Grammar
