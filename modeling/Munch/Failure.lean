import Munch.Text.Quoted

/-! Failures that come from outside of the program: from patterns that are given as functions, from
engines and from the host. They have a kind and a message, and the program does not look into
them. -/
namespace Munch

structure Failure where
  kind : String
  message : Text
deriving DecidableEq, Repr

/-- The failure of a host that reads whole numbers of at most `limit` digits. -/
def Failure.digitLimit (limit digits : Nat) : Failure where
  kind := "ValueError"
  message := s!"Exceeds the limit ({limit} digits) for integer string conversion: " ++
    s!"value has {digits} digits; use sys.set_int_max_str_digits() to increase the limit"

/-- The failure to encode a text that holds surrogates; it names the first run of them. -/
def Failure.unencodable? (text : Text) : Option Failure :=
  let before := text.takeWhile (!·.isSurrogate)
  match (text.drop before.length).takeWhile Point.isSurrogate with
  | [] => none
  | run =>
    let place : Text :=
      if run.length = 1 then
        "character '" ++ run.flatMap Text.Quoted.codeEscape ++ s!"' in position {before.length}"
      else s!"characters in position {before.length}-{before.length + run.length - 1}"
    some ⟨"UnicodeEncodeError",
      "'utf-8' codec can't encode " ++ place ++ ": surrogates not allowed"⟩

end Munch
