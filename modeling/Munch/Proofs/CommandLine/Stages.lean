import Munch.Proofs.CommandLine.Listing
import Munch.Proofs.Grammar.Logging
import Munch.Proofs.Scan.Lexing
import Munch.Regex

/-! The stages of the command line.

With a request, the command loads a grammar, reads an input, lexes it and lists the tokens, up to
the first of these that fails. `Cuts` says which pieces are cut off, which tokens are listed and
which failure is the first, and it says so of the files, of lexing and of the lines alone; `Stages`
says it of the tokens and the failure. There is one way (`Cuts.unique`, `Stages.unique`), and the
command takes it (`exists_cuts`, `exists_stages`). If the host does not fail (`Settled`), the
command reports the failure and never ends otherwise (`run_reports`). -/
namespace Munch.CommandLine
open Grammar Table

/-! ### Reading the input -/

/-- What reading the input at a path may come to. A dash is the standard input. -/
inductive Reads (host : Host Id) (path : Text) : Except Error Text → Prop
  | unreadable {fault} : path ≠ dash → host.file path = .error fault →
      Reads host path (.error (.file fault))
  | notText {bytes fault} : path ≠ dash → host.file path = .ok bytes →
      Text.ofFile bytes = .error fault → Reads host path (.error (.decoding fault))
  | read {bytes text} : path ≠ dash → host.file path = .ok bytes → Text.ofFile bytes = .ok text →
      Reads host path (.ok (.ofChars text))
  | notDecoded {fault} : path = dash → host.decode host.standardInput = .error fault →
      Reads host path (.error (.decoding fault))
  | decoded {text} : path = dash → host.decode host.standardInput = .ok text →
      Reads host path (.ok text)

section Reads
variable {host : Host Id} {path : Text} {result : Except Error Text}

/-- What a host answers is there already. -/
theorem bind_eq {α β : Type} (x : Id α) (f : α → Id β) : x >>= f = f x := rfl

theorem readInput_dash (h : path = dash) :
    readInput host path = (host.decode host.standardInput).mapError .decoding :=
  if_pos h

theorem readInput_file (h : path ≠ dash) :
    readInput host path =
      match host.file path with
      | .error fault => .error (.file fault)
      | .ok bytes => ((Text.ofFile bytes).map .ofChars).mapError .decoding :=
  if_neg h

theorem Reads.readInput_eq (h : Reads host path result) : readInput host path = result := by
  cases h with
  | unreadable hpath hfile => rw [readInput_file hpath, hfile]
  | notText hpath hfile htext =>
    rw [readInput_file hpath, hfile]
    simp only [htext, Except.map, Except.mapError]
  | read hpath hfile htext =>
    rw [readInput_file hpath, hfile]
    simp only [htext, Except.map, Except.mapError]
  | notDecoded hpath htext =>
    rw [readInput_dash hpath, htext]
    rfl
  | decoded hpath htext =>
    rw [readInput_dash hpath, htext]
    rfl

theorem exists_reads (host : Host Id) (path : Text) : ∃ result, Reads host path result := by
  by_cases hpath : path = dash
  · cases htext : host.decode host.standardInput with
    | error fault => exact ⟨_, .notDecoded hpath htext⟩
    | ok text => exact ⟨_, .decoded hpath htext⟩
  · cases hfile : host.file path with
    | error fault => exact ⟨_, .unreadable hpath hfile⟩
    | ok bytes =>
      cases htext : Text.ofFile bytes with
      | error fault => exact ⟨_, .notText hpath hfile htext⟩
      | ok text => exact ⟨_, .read hpath hfile htext⟩

/-- **Reading** comes to this and to nothing else. -/
theorem reads_iff : Reads host path result ↔ readInput host path = result := by
  constructor
  · exact Reads.readInput_eq
  · rintro rfl
    obtain ⟨result, h⟩ := exists_reads host path
    rwa [h.readInput_eq]

theorem Reads.unique {result' : Except Error Text} (h : Reads host path result)
    (h' : Reads host path result') : result = result' :=
  h.readInput_eq.symm.trans h'.readInput_eq

end Reads

/-! ### What the command writes -/

@[simp] theorem conclude_output (output errors : Text) (failure : Option Error) :
    (conclude output errors failure).output = output := by
  cases failure with
  | none => rfl
  | some e =>
    rw [conclude]
    cases handles e <;> rfl

theorem log_append (debug : Bool) (events events' : List Event) :
    log debug events ++ log debug events' = log debug (events ++ events') := by
  rw [log, log, log, List.flatMap_append]

/-- The command handles every error but failures from outside, and what a host has against files
that is no error of the system. -/
theorem handles_eq_false_iff {e : Error} : handles e = false ↔
    (∃ f, e = .failure f) ∨ ∃ fault, e = .file fault ∧ fault.ofSystem = false := by
  cases e with
  | failure f => exact ⟨fun _ => .inl ⟨f, rfl⟩, fun _ => rfl⟩
  | file fault =>
    constructor
    · exact fun h => .inr ⟨fault, rfl, h⟩
    · rintro (⟨_, ⟨⟩⟩ | ⟨_, ⟨⟩, h⟩)
      exact h
  | _ => simp [handles]

theorem Reads.handles {host : Host Id} {path : Text} {e : Error} (h : Reads host path (.error e))
    (hsystem : ∀ path fault, host.file path = .error fault → fault.ofSystem = true) :
    handles e = true := by
  cases h with
  | unreadable _ hfile => exact hsystem _ _ hfile
  | notText _ _ _ | notDecoded _ _ => rfl

/-! ### The stages -/

section
variable [Engine]

/-- How the stages of a request end: with the pieces that lexing cuts off, with those of their
tokens that are listed, and with what fails, if one of the stages does. -/
inductive Cuts (host : Host Id) (request : Request) :
    List Piece → List Token → Option Error → Prop
  | grammar {e} : FileLoads host.limits request.grammar (host.file request.grammar) (.error e) →
      Cuts host request [] [] (some e)
  | input {t e} : FileLoads host.limits request.grammar (host.file request.grammar) (.ok t) →
      Reads host request.input (.error e) → Cuts host request [] [] (some e)
  | lexing {t text pieces last stop taken tokens failure} :
      FileLoads host.limits request.grammar (host.file request.grammar) (.ok t) →
      Reads host request.input (.ok text) → Lexes t text 0 pieces last →
      Ends t (some 5) text last stop →
      Listed host.refuses pieces (stop.map Error.ofIteration) taken tokens failure →
      Cuts host request taken tokens failure

/-- How the stages of a request end, without the pieces. -/
def Stages (host : Host Id) (request : Request) (tokens : List Token) (failure : Option Error) :
    Prop :=
  ∃ pieces, Cuts host request pieces tokens failure

variable {host : Host Id} {request : Request} {pieces : List Piece} {tokens : List Token}
  {failure : Option Error}

/-- There is one way to cut off pieces. -/
theorem Cuts.unique {pieces' : List Piece} {tokens' : List Token} {failure' : Option Error}
    (h : Cuts host request pieces tokens failure)
    (h' : Cuts host request pieces' tokens' failure') :
    pieces = pieces' ∧ tokens = tokens' ∧ failure = failure' := by
  cases h with
  | grammar hloads =>
    cases h' with
    | grammar hloads' =>
      cases hloads.unique hloads'
      exact ⟨rfl, rfl, rfl⟩
    | input hloads' _ | lexing hloads' _ _ _ _ => cases hloads.unique hloads'
  | input hloads hreads =>
    cases h' with
    | grammar hloads' => cases hloads.unique hloads'
    | input _ hreads' =>
      cases hreads.unique hreads'
      exact ⟨rfl, rfl, rfl⟩
    | lexing _ hreads' _ _ _ => cases hreads.unique hreads'
  | lexing hloads hreads hlexes hends hlisted =>
    cases h' with
    | grammar hloads' => cases hloads.unique hloads'
    | input _ hreads' => cases hreads.unique hreads'
    | lexing hloads' hreads' hlexes' hends' hlisted' =>
      cases hloads.unique hloads'
      cases hreads.unique hreads'
      obtain ⟨rfl, -, rfl⟩ := hlexes.unique hloads.wellFormed hends hlexes' hends'
      exact hlisted.unique hlisted'

/-- There is one way through the stages. -/
theorem Stages.unique {tokens' : List Token} {failure' : Option Error}
    (h : Stages host request tokens failure) (h' : Stages host request tokens' failure') :
    tokens = tokens' ∧ failure = failure' := by
  obtain ⟨_, hcuts⟩ := h
  obtain ⟨_, hcuts'⟩ := h'
  exact (hcuts.unique hcuts').2

/-- The last stage is a scan to the end whose tokens are listed. -/
theorem exists_cuts_of_run {text : Text}
    (hloading : (loadFile host.limits request.grammar (host.file request.grammar)).error = none)
    (hreading : readInput host request.input = .ok text) :
    let scanned := (Scan.start text).run
      (loadFile host.limits request.grammar (host.file request.grammar)).table (some 5)
    let listing := list host.refuses scanned.records
    ∃ pieces tokens, Cuts host request pieces tokens
        ((listing.failure.map .failure).or scanned.stop) ∧
      listing.output = listings tokens ∧ listing.records = pieces.map Piece.record := by
  intro scanned listing
  have hloads := FileLoads.of_error_eq_none hloading
  have hruns : Scan.Runs _ (some 5) (.start text) scanned := Scan.run_runs _ _ _
  obtain ⟨pieces, stop, hlexes, hends, hstop, -, hrecords⟩ :=
    hruns.lexes hloads.wellFormed (ahead_of_builtIn hloads.builtIn.ignored text)
      (Scan.start_placed text)
  obtain ⟨taken, tokens, hlisted, houtput, htaken⟩ := exists_listed host.refuses pieces scanned.stop
  rw [← hrecords] at hlisted houtput htaken
  rw [hstop] at hlisted ⊢
  exact ⟨taken, tokens, .lexing hloads (reads_iff.mpr hreading) hlexes hends hlisted, houtput,
    htaken⟩

/-- Stages that a scan to the end decides, where no line is refused. -/
theorem Stages.of_run {text : Text}
    (hloading : (loadFile host.limits request.grammar (host.file request.grammar)).error = none)
    (hreading : readInput host request.input = .ok text)
    (htakes : ∀ line, host.refuses line = none) :
    let scanned := (Scan.start text).run
      (loadFile host.limits request.grammar (host.file request.grammar)).table (some 5)
    Stages host request scanned.tokens scanned.stop := by
  intro scanned
  have hloads := FileLoads.of_error_eq_none hloading
  have hruns : Scan.Runs _ (some 5) (.start text) scanned := Scan.run_runs _ _ _
  obtain ⟨pieces, stop, hlexes, hends, hstop, htokens, -⟩ :=
    hruns.lexes hloads.wellFormed (ahead_of_builtIn hloads.builtIn.ignored text)
      (Scan.start_placed text)
  rw [hstop, htokens]
  refine ⟨pieces, .lexing hloads (reads_iff.mpr hreading) hlexes hends (.all ?_)⟩
  intro piece _ f hrefused
  obtain ⟨token, -, hf⟩ := hrefused
  cases (htakes token.listing).symm.trans hf

/-- The kinds of the tokens that are listed are names of rules. -/
theorem Stages.exists_rule (h : Stages host request tokens failure) {t : Table}
    (hloads : FileLoads host.limits request.grammar (host.file request.grammar) (.ok t))
    {token : Token} (htoken : token ∈ tokens) : ∃ r ∈ t.rules, r.name = token.kind := by
  obtain ⟨_, hcuts⟩ := h
  cases hcuts with
  | grammar _ | input _ _ => cases htoken
  | lexing hloads' _ hlexes _ hlisted =>
    cases hloads.unique hloads'
    exact hlexes.exists_rule hloads.wellFormed (hlisted.tokens_mem htoken)

/-! ### The way of the command -/

/-- The command cuts off the pieces, and debugging does no more than to show what is put
on record. -/
theorem exists_cuts {arguments : List Text}
    (hrequest : Request.ofArguments arguments = .ok request) (host : Host Id) :
    let loading := loadFile host.limits request.grammar (host.file request.grammar)
    ∃ pieces tokens failure, Cuts host request pieces tokens failure ∧ ∀ debug,
      run host debug arguments = conclude (listings tokens)
        (log debug (loading.events ++ (pieces.map Piece.record).map .record)) failure := by
  intro loading
  cases hloading : (loadFile host.limits request.grammar (host.file request.grammar)).error with
  | some e =>
    refine ⟨[], [], some e, .grammar (.of_error_eq_some hloading), fun debug => ?_⟩
    simp only [run, hrequest, bind_eq, hloading, List.map_nil, List.append_nil]
    rfl
  | none =>
    cases hreading : readInput host request.input with
    | error e =>
      refine ⟨[], [], some e, .input (.of_error_eq_none hloading) (reads_iff.mpr hreading),
        fun debug => ?_⟩
      simp only [run, hrequest, bind_eq, hloading, hreading, List.map_nil, List.append_nil]
      rfl
    | ok text =>
      obtain ⟨pieces, tokens, hcuts, houtput, hrecords⟩ := exists_cuts_of_run hloading hreading
      refine ⟨pieces, tokens, _, hcuts, fun debug => ?_⟩
      simp only [run, hrequest, bind_eq, hloading, hreading, ← log_append, ← houtput, ← hrecords]
      rfl

/-- The command goes through the stages. -/
theorem exists_stages {arguments : List Text}
    (hrequest : Request.ofArguments arguments = .ok request) (host : Host Id) :
    ∃ tokens failure events, Stages host request tokens failure ∧ ∀ debug,
      run host debug arguments = conclude (listings tokens) (log debug events) failure := by
  obtain ⟨pieces, tokens, failure, hcuts, hrun⟩ := exists_cuts hrequest host
  exact ⟨tokens, failure, _, ⟨pieces, hcuts⟩, hrun⟩

/-! ### Failures that are reported -/

/-- The host does not fail on a request: the grammar is settled, what is wrong with files is an
error of the system, regular expressions match or do not, and the output takes the lines of tokens
whose kinds are names in the grammar. -/
structure Settled (host : Host Id) (request : Request) : Prop where
  grammar : SettledFile host.limits (host.file request.grammar)
  system : ∀ path fault, host.file path = .error fault → fault.ofSystem = true
  answers : ∀ (r : Engine.Expression) text pos, ∃ answer, Engine.check r text pos = .ok answer
  takes : ∀ (t : Table) (token : Token),
    FileLoads host.limits request.grammar (host.file request.grammar) (.ok t) →
    (∃ r ∈ t.rules, r.name = token.kind) → host.refuses token.listing = none

theorem BuiltIn.answers {p : Pattern} (hp : p.BuiltIn)
    (hanswers : ∀ (r : Engine.Expression) text pos, ∃ answer, Engine.check r text pos = .ok answer)
    (text : Text) (pos : Int) : ∃ answer, p.check text pos = .ok answer := by
  cases p with
  | regex r => exact hanswers r text pos
  | literal l => exact ⟨_, rfl⟩
  | custom c => exact absurd rfl (hp c)

/-- Lexing with built-in patterns that answer ends at the end or where no rule matches. -/
theorem Ends.handles {t : Table} (ht : t.BuiltIn)
    (hanswers : ∀ (r : Engine.Expression) text pos, ∃ answer, Engine.check r text pos = .ok answer)
    {text : Text} {last : Nat} {stop : Option Error} (h : Ends t (some 5) text last stop)
    {e : Error} (he : stop.map Error.ofIteration = some e) : handles e = true := by
  cases h with
  | finish _ => cases he
  | stuck _ =>
    cases he
    rfl
  | fails _ hfails =>
    cases hfails with
    | @ignored _ p _ _ hlist _ hp =>
      have hmem : p ∈ t.ignored := by simp [hlist]
      obtain ⟨_, hanswer⟩ := BuiltIn.answers (ht.ignored p hmem) hanswers text last
      cases hp.symm.trans hanswer
    | @rule _ r _ _ _ hlist _ hr =>
      have hmem : r ∈ t.rules := by simp [hlist]
      obtain ⟨_, hanswer⟩ := BuiltIn.answers (ht.rules r hmem) hanswers text last
      cases hr.symm.trans hanswer

/-- A failure is reported, if the host does not fail. -/
theorem Settled.handles {e : Error} (hsettled : Settled host request)
    (h : Stages host request tokens (some e)) : handles e = true := by
  obtain ⟨_, hcuts⟩ := h
  generalize hfailure : some e = failure at hcuts
  cases hcuts with
  | grammar hloads =>
    cases hfailure
    rcases hloads.error_closed hsettled.grammar with
      ⟨fault, hcontents, rfl⟩ | ⟨fault, rfl⟩ | hregistration
    · exact hsettled.system _ _ hcontents
    · rfl
    · cases e <;> first | rfl | cases hregistration
  | input _ hreads =>
    cases hfailure
    exact hreads.handles hsettled.system
  | lexing hloads _ hlexes hends hlisted =>
    cases hlisted with
    | all _ => exact Ends.handles hloads.builtIn hsettled.answers hends hfailure.symm
    | refused hpieces _ hpiece =>
      obtain ⟨token, rfl, hrefused⟩ := hpiece
      have hmem : Piece.token token ∈ _ := hpieces ▸ List.mem_append_right _ List.mem_cons_self
      have hrule := hlexes.exists_rule hloads.wellFormed hmem
      cases hrefused.symm.trans (hsettled.takes _ token hloads hrule)

end

attribute [local instance] Regex.plain

/-- A host that has these bytes for a grammar and for the standard input, and nothing else. Its
output takes all lines. -/
def Host.ofBytes (grammar input : String) : Host Id where
  file path :=
    if path = "a.json" then .ok grammar.toUTF8.data.toList else .error (.notFound path)
  standardInput := input.toUTF8.data.toList
  decode bytes := (Text.Utf8.decode bytes).map .ofChars
  refuses _ := none
  limits := { digits := some 4300, nesting := some 990 }

/-- A host that has the grammar of one letter, and nothing to read but the letter and a mark
after it. -/
def letters : Host Id := .ofBytes "\x7b\"rules\": [[\"letter\", \"a\"]]\x7d" "a?"

end Munch.CommandLine
