import Munch.Regex.Match
import Munch.Regex.Reader

/-! Regular expressions that are ready to match, and the engine that they make up. Two of them are
equal when their sources and their flags are, the flags written in the source included: these
determine the expression. -/
namespace Munch

structure Regex where
  source : Text
  program : Regex.Program
deriving DecidableEq, Repr

namespace Regex

/-- Reads a source under flags given from outside, and says what is warned of. -/
def read (characters : Text → Option Nat) (source : Text) (flags : Flags) :
    Except Fault Program × List String :=
  let (result, s) := (Program.read flags).run.run (.ofText characters source)
  (result, s.warnings)

/-- The regular expression of a source. -/
def compile (characters : Text → Option Nat) (source : Text) (flags : Flags := {}) :
    Except Engine.Fault Regex :=
  match (read characters source flags).1 with
  | .ok program => .ok ⟨source, program⟩
  | .error fault => .error (fault.ofEngine source)

/-- How a regular expression is shown that is ready: by its source, of which no more than 200
characters are shown, and its flags. -/
def shown (r : Regex) : Text :=
  let flags := r.program.flags.names
  let listed : Text := if flags.isEmpty then [] else ", " ++ "|".intercalate flags
  "re.compile(" ++ (Text.quoted r.source).take 200 ++ listed ++ ")"

/-- The length of the match at `pos`. A place outside of the text counts as the nearer end of it,
and the length as the distance from `pos` to the end of the match. -/
def check (r : Regex) (text : Text) (pos : Int) : Option Int :=
  let start := min pos.toNat text.length
  (r.program.expr.matchLength? text start).map fun length => start + length - pos

theorem check_bounds {r : Regex} {text : Text} {pos : Nat} {n : Int} (hpos : pos ≤ text.length)
    (h : r.check text pos = some n) : 0 ≤ n ∧ pos + n ≤ text.length := by
  have hstart : min (pos : Int).toNat text.length = pos := by omega
  simp only [check, hstart] at h
  cases hmatch : r.program.expr.matchLength? text pos with
  | none => simp [hmatch] at h
  | some length =>
    have hle := Expr.matchLength?_le hmatch
    have hn : (pos : Int) + length - pos = n := by simpa [hmatch] using h
    omega

theorem source_compile {characters : Text → Option Nat} {source : Text} {flags : Flags}
    {r : Regex} (h : compile characters source flags = .ok r) : r.source = source := by
  rw [compile] at h
  split at h <;> cases h
  rfl

/-- The engine that looks up characters by name in `characters`. A warning is written as `layout`
has it, unless it has been written before. -/
@[reducible]
def engine (characters : Text → Option Nat) (layout : String → String) : Engine where
  Expression := Regex
  decEq := inferInstance
  source := source
  shown := shown
  compile source := compile characters source
  notes earlier source :=
    let warnings (source : Text) : List String := (read characters source {}).2
    let before := earlier.flatMap warnings
    String.join (((warnings source).eraseDups.filter (!before.contains ·)).map layout)
  check r text pos := .ok (r.check text pos)
  source_compile := source_compile
  check_bounds hpos h := check_bounds hpos (Except.ok.inj h)

/-- The engine that knows no character by name. -/
@[reducible]
def plain : Engine := engine (fun _ => none) fun warning => s!"FutureWarning: {warning}\n"

end Regex
end Munch
