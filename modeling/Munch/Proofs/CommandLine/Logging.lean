import Munch.Proofs.CommandLine.Stages
import Munch.Regex

/-! What debugging writes.

What happens in a run is what loading the grammar writes and puts on record (`FileLogs`), and then
the pieces that lexing cuts off, which go on record (`Logs`). With debugging on, the records are
written to standard error too, one after the other in the places where they happened, and nothing
else is any different (`run_debugging`). -/
namespace Munch.CommandLine
open Grammar

/-- What was written before the end of a run stands before what the end writes. -/
theorem conclude_errors (output errors : Text) (failure : Option Error) :
    conclude output errors failure =
      { conclude output [] failure with
        errors := errors ++ (conclude output [] failure).errors } := by
  cases failure with
  | none => simp [conclude]
  | some e =>
    simp only [conclude]
    cases handles e <;> simp

@[simp] theorem debugging_none : debugging none = false := rfl

@[simp] theorem debugging_some (setting : String) : debugging (some setting) = (setting != "") :=
  rfl

section
variable [Engine]

/-! ### What happens in a run -/

/-- What happens in a run on a request: what loading the grammar does, and then each piece that
lexing cuts off goes on record. -/
inductive Logs (host : Host Id) (request : Request) : List Event → Prop
  | intro {events pieces tokens failure} :
      FileLogs host.limits request.grammar (host.file request.grammar) events →
      Cuts host request pieces tokens failure →
      Logs host request (events ++ (pieces.map Piece.record).map .record)

variable {host : Host Id} {request : Request} {arguments : List Text}

theorem Logs.unique {events events' : List Event} (h : Logs host request events)
    (h' : Logs host request events') : events = events' := by
  obtain ⟨hloads, hcuts⟩ := h
  obtain ⟨hloads', hcuts'⟩ := h'
  rw [← hloads.events_eq, ← hloads'.events_eq, (hcuts.unique hcuts').1]

/-- A refusal is not about debugging. -/
theorem run_of_refusal {refusal : Refusal} (h : Request.ofArguments arguments = .error refusal)
    (host : Host Id) (debug : Bool) : run host debug arguments = refuse refusal := by
  simp only [run, h]
  rfl

/-- What happens in a run and what its end reports are the same with debugging on and off. -/
theorem exists_logs (hrequest : Request.ofArguments arguments = .ok request) (host : Host Id) :
    ∃ (events : List Event) (outcome : Outcome), Logs host request events ∧
      ∀ debug, run host debug arguments =
        { outcome with errors := log debug events ++ outcome.errors } := by
  obtain ⟨pieces, tokens, failure, hcuts, hrun⟩ := exists_cuts hrequest host
  refine ⟨_, conclude (listings tokens) [] failure, .intro (fileLogs_iff.mpr rfl) hcuts, ?_⟩
  intro debug
  rw [hrun debug, conclude_errors]

/-- **Debugging does not interfere**: whatever the host has, a run with debugging on has
the output and the ending of the run without. On standard error there is what happens in the run,
and then the report of its end. Without debugging what happens leaves the notes of the engine alone,
and with debugging there is the line of each record besides, in its place among them. On record are
the registrations that are accepted, the loading if it is done, and the pieces that are cut off, in
this order; in a refusal nothing happens. -/
theorem run_debugging (host : Host Id) (arguments : List Text) :
    let quiet := run host (debugging none) arguments
    run host (debugging (some "")) arguments = quiet ∧
      ∃ events report,
        quiet.errors = log false events ++ report ∧
        (∀ setting, setting ≠ "" → run host (debugging (some setting)) arguments =
          { quiet with errors := log true events ++ report }) ∧
        (∀ refusal, Request.ofArguments arguments = .error refusal → events = []) ∧
        ∀ request, Request.ofArguments arguments = .ok request →
          ∀ es, Logs host request es ↔ es = events := by
  intro quiet
  refine ⟨by simp [quiet], ?_⟩
  have hon {setting : String} (h : setting ≠ "") : debugging (some setting) = true := by
    simpa using h
  cases hrequest : Request.ofArguments arguments with
  | error refusal =>
    refine ⟨[], quiet.errors, (List.nil_append _).symm, fun setting hsetting => ?_,
      fun _ _ => rfl, fun request h => ?_⟩
    · rw [hon hsetting, show quiet = _ from run_of_refusal hrequest host _,
        run_of_refusal hrequest]
      simp [log]
    · cases h
  | ok request =>
    obtain ⟨events, outcome, hlogs, hrun⟩ := exists_logs hrequest host
    have hquiet : quiet = { outcome with errors := log false events ++ outcome.errors } :=
      hrun false
    refine ⟨events, outcome.errors, by rw [hquiet], fun setting hsetting => ?_,
      fun refusal h => ?_, fun request h es => ?_⟩
    · rw [hon hsetting, hrun true, hquiet]
    · cases h
    · cases h
      constructor
      · exact fun h => h.unique hlogs
      · rintro rfl
        exact hlogs

end

attribute [local instance] Regex.plain

/-- A host with a keyword that has a newline for its name, a set that the engine warns of, and a
newline to read. -/
def noisy : Host Id :=
  .ofBytes "\x7b\"keywords\": [\"\\n\"], \"rules\": [[\"letter\", \"[[a]\"]]\x7d" "\n"

/-- What standard error has with debugging does not end in what it has without, for the warning is
there before the records that come after it; and a record has two lines if a name in it has. -/
theorem run_debugging_noisy :
    (run noisy false ["a.json"]).errors = "FutureWarning: Possible nested set at position 1\n" ∧
      (run noisy true ["a.json"]).errors =
        "DEBUG rulelex.rules: keyword \n LiteralPattern('\\n')\n" ++
        "FutureWarning: Possible nested set at position 1\n" ++
        "DEBUG rulelex.rules: rule letter RegexPattern('[[a]')\n" ++
        "DEBUG rulelex.grammar: loaded 2 rule(s) and 0 ignore pattern(s)\n" ++
        "DEBUG rulelex.scanner: token Token(\n, '\\n', line=1, column=0)\n" ∧
      ¬ (run noisy false ["a.json"]).errors <:+ (run noisy true ["a.json"]).errors := by
  have hquiet : (run noisy false ["a.json"]).errors =
      "FutureWarning: Possible nested set at position 1\n" := by decide +kernel
  have hdebug : (run noisy true ["a.json"]).errors =
        "DEBUG rulelex.rules: keyword \n LiteralPattern('\\n')\n" ++
        "FutureWarning: Possible nested set at position 1\n" ++
        "DEBUG rulelex.rules: rule letter RegexPattern('[[a]')\n" ++
        "DEBUG rulelex.grammar: loaded 2 rule(s) and 0 ignore pattern(s)\n" ++
        "DEBUG rulelex.scanner: token Token(\n, '\\n', line=1, column=0)\n" := by
    decide +kernel
  refine ⟨hquiet, hdebug, ?_⟩
  rw [hquiet, hdebug]
  decide +kernel

end Munch.CommandLine
