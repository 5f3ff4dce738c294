import Munch.Proofs.Scan.Positions
import Munch.Proofs.Scanner.Scans
import Munch.Regex
import Munch.Session

/-! Scanning is lexing.

Where nothing that is ignored is of a negative length, a scan to the end cuts off the pieces
that lexing cuts off, and ends as lexing ends (`Runs.lexes`). Skipping is the part that cuts
off what is to be ignored, and the rules are asked only where it has nothing left to cut
off. Where the patterns of a table give answers, lexing ends with the text or gets stuck
(`run_lexes`). -/
namespace Munch
section
variable [Engine]

/-- The patterns of a table give answers everywhere before the end of a text, and
those of what is ignored no negative ones. -/
structure Table.Answers (t : Table) (text : Text) : Prop where
  ignored : ∀ p ∈ t.ignored, ∀ pos : Nat, pos < text.length →
    ∃ answer, p.check text pos = .ok answer ∧ ∀ n, answer = some n → 0 ≤ n
  rules : ∀ r ∈ t.rules, ∀ pos : Nat, pos < text.length →
    ∃ answer, r.pattern.check text pos = .ok answer

namespace Table.Answers
variable {t : Table} {text : Text} {pos : Nat}

theorem ignoredLength_ne_error (h : t.Answers text) (hpos : pos < text.length) (f : Failure) :
    t.ignoredLength text pos ≠ .error f := by
  obtain ⟨n, hn⟩ : ∃ n, t.ignoredLength text pos = .ok n := by
    refine firstLength_total fun p hp => ?_
    obtain ⟨answer, hcheck, -⟩ := h.ignored p hp pos hpos
    exact ⟨answer, hcheck⟩
  rw [hn]
  nofun

theorem longest_ne_error (h : t.Answers text) (hpos : pos < text.length) (f : Failure) :
    t.longest text pos ≠ .error f := by
  obtain ⟨winner, hwinner⟩ : ∃ winner, t.longest text pos = .ok winner :=
    longestFrom_total (fun r hr => h.rules r hr pos hpos) none
  rw [hwinner]
  nofun

theorem ignoredLength_nonneg (h : t.Answers text) (hpos : pos < text.length) {n : Int}
    (hn : t.ignoredLength text pos = .ok n) : 0 ≤ n := by
  by_cases hzero : n = 0
  · omega
  · obtain ⟨i, p, hp, hcheck, -⟩ := first_of_ignoredLength hn hzero
    obtain ⟨answer, hanswer, hnonneg⟩ := h.ignored p (List.mem_of_getElem? hp) pos hpos
    exact hnonneg n (Except.ok.inj (hanswer.symm.trans hcheck))

theorem ahead (h : t.Answers text) : t.Ahead text := fun _ _ hpos hn =>
  h.ignoredLength_nonneg hpos hn

end Table.Answers

theorem Table.Answers.not_fails {t : Table} {text : Text} (h : t.Answers text) {offset : Nat}
    (hoffset : offset < text.length) {f : Failure} (hfails : Fails t text offset f) : False := by
  cases hfails with
  | @ignored before p after _ hlist _ hp =>
    obtain ⟨answer, hanswer, -⟩ := h.ignored p (by simp [hlist]) offset hoffset
    cases hp.symm.trans hanswer
  | @rule before r after _ _ hlist _ hr =>
    obtain ⟨answer, hanswer⟩ := h.rules r (by simp [hlist]) offset hoffset
    cases hr.symm.trans hanswer

/-- A literal gives answers, and no negative ones. -/
theorem Pattern.literal_answers (l : Text) {text : Text} {pos : Nat} (hpos : pos < text.length) :
    ∃ answer, (literal l).check text pos = .ok answer ∧ ∀ n, answer = some n → 0 ≤ n := by
  refine ⟨_, rfl, fun n hn => ?_⟩
  exact (bounded_literal l text pos n (Nat.le_of_lt hpos) (congrArg Except.ok hn)).1

/-- A table of literals gives answers for any text. -/
theorem Table.answers_of_literals {t : Table} (hignored : ∀ p ∈ t.ignored, ∃ l, p = .literal l)
    (hrules : ∀ r ∈ t.rules, ∃ l, r.pattern = .literal l) (text : Text) : t.Answers text where
  ignored p hp _ hpos := by
    obtain ⟨l, rfl⟩ := hignored p hp
    exact Pattern.literal_answers l hpos
  rules r hr _ hpos := by
    obtain ⟨l, hl⟩ := hrules r hr
    obtain ⟨answer, hcheck, -⟩ := Pattern.literal_answers l hpos
    exact ⟨answer, hl ▸ hcheck⟩

namespace Piece

/-- The token that a piece is, if it is one. -/
def token? : Piece → Option Token
  | ignored _ => none
  | token t => some t

end Piece

namespace Scan
open Table
variable {t : Table} {previewLength : Option Int} {s : Scan} {k : Skipped} {step : Step}

/-! ### Skipping -/

theorem Skips.failure_eq (h : Skips t s k) (hanswers : t.Answers s.input) : k.failure = none := by
  induction h with
  | finish _ => rfl
  | failure he hi =>
    exact absurd hi (hanswers.ignoredLength_ne_error (not_exhausted_iff.mp he) _)
  | rest _ _ _ => rfl
  | piece _ _ _ _ ih => exact ih hanswers

theorem Skips.lexes (h : Skips t s k) :
    Lexes t s.input s.cursor (k.pieces.map .ignored) k.scan.cursor := by
  induction h with
  | finish _ => exact .nil
  | failure _ _ => exact .nil
  | rest _ _ _ => exact .nil
  | @piece s n k he hi hn _ ih =>
    have hfirst := first_of_ignoredLength hi (by omega)
    rw [← Int.toNat_of_nonneg (Int.le_of_lt hn)] at hfirst
    exact .cons (.ignored (not_exhausted_iff.mp he) hfirst) ih

/-- Skipping goes on while there is something to ignore. -/
theorem Skips.idle (h : Skips t s k) (hahead : t.Ahead s.input) (hfailure : k.failure = none)
    (he : k.scan.exhausted = false) : ∀ p ∈ t.ignored, Idle s.input k.scan.cursor p := by
  induction h with
  | finish hfinish =>
    rw [hfinish] at he
    cases he
  | failure _ _ => cases hfailure
  | rest _ hi hn =>
    have hnonneg := hahead _ _ (not_exhausted_iff.mp he) hi
    obtain rfl := Int.le_antisymm hn hnonneg
    exact idle_of_ignoredLength hi
  | piece _ _ _ _ ih => exact ih hahead hfailure he

/-- Skipping fails where a pattern to ignore does. -/
theorem Skips.fails (h : Skips t s k) {f : Failure} (hfailure : k.failure = some f) :
    k.scan.exhausted = false ∧ Fails t s.input k.scan.cursor f := by
  induction h with
  | finish _ | rest _ _ _ => cases hfailure
  | failure he hi =>
    cases hfailure
    obtain ⟨before, p, after, hlist, hbefore, hp⟩ := error_of_firstLength hi
    exact ⟨he, .ignored hlist hbefore hp⟩
  | piece _ _ _ _ ih => exact ih hfailure

/-! ### The next token -/

theorem relabel_labels (t : Table) (r : Rule) (value : Text) :
    Labels t r value (t.relabel r value).1 := by
  rw [relabel]
  cases hl : t.keywords.lookup value with
  | none =>
    have hnone := notMem_of_lookup hl
    exact .rule fun e he hvalue => hnone (hvalue ▸ List.mem_map_of_mem he)
  | some token => exact .keyword (e := (value, token)) (mem_of_lookup hl) rfl

theorem tokenOf_eq (ht : t.WellFormed) (hs : s.Placed) (r : Rule) (n : Nat) :
    s.tokenOf t r n =
      tokenAt (t.relabel r (s.piece n)).1 s.input s.cursor n := by
  rw [tokenOf, ht.relabel_value, hs.position_eq]
  rfl

theorem Nexts.lexes (h : Nexts t previewLength k step) (ht : t.WellFormed) (hk : k.scan.Placed)
    (hidle : k.failure = none → k.scan.exhausted = false →
      ∀ p ∈ t.ignored, Idle k.scan.input k.scan.cursor p) :
    Lexes t k.scan.input k.scan.cursor (step.tokens.map .token) step.scan.cursor := by
  cases h with
  | ignoreFails _ => exact .nil
  | finish _ _ => exact .nil
  | ruleFails _ _ _ => exact .nil
  | unmatched _ _ _ => exact .nil
  | @found r n hf he hl =>
    have hlexeme : Lexeme t k.scan.input k.scan.cursor _ _ :=
      .token (not_exhausted_iff.mp he) (hidle hf he) (wins_of_longest hl) (relabel_labels t r _)
    simp only [Step.tokens, List.map_singleton, tokenOf_eq ht hk]
    exact .cons hlexeme .nil

/-- A call that gives no token has found the end, is stuck, or a pattern has failed. -/
theorem Nexts.ends (h : Nexts t previewLength k step) (hk : k.scan.Placed)
    (hfails : ∀ f, k.failure = some f →
      k.scan.exhausted = false ∧ Fails t k.scan.input k.scan.cursor f)
    (hidle : k.failure = none → k.scan.exhausted = false →
      ∀ p ∈ t.ignored, Idle k.scan.input k.scan.cursor p) :
    (step.result = .ok none → Ends t previewLength k.scan.input step.scan.cursor none) ∧
      ∀ e, step.result = .error e →
        Ends t previewLength k.scan.input step.scan.cursor (some e) := by
  cases h with
  | @ignoreFails f hf =>
    refine ⟨nofun, fun e hresult => ?_⟩
    cases hresult
    obtain ⟨he, hfail⟩ := hfails f hf
    exact .fails (not_exhausted_iff.mp he) hfail
  | finish _ he => exact ⟨fun _ => .finish (exhausted_iff.mp he), nofun⟩
  | ruleFails hf he hl =>
    refine ⟨nofun, fun e hresult => ?_⟩
    cases hresult
    obtain ⟨before, r, after, hlist, hbefore, hr⟩ := error_of_longestFrom hl
    exact .fails (not_exhausted_iff.mp he) (.rule (hidle hf he) hlist hbefore hr)
  | unmatched hf he hl =>
    refine ⟨nofun, fun e hresult => ?_⟩
    cases hresult
    rw [preview_eq, hk.position_eq]
    exact .stuck ⟨not_exhausted_iff.mp he, hidle hf he, atMost_of_longest hl⟩
  | found _ _ _ => exact ⟨nofun, nofun⟩

section Next
variable (ht : t.WellFormed) (hahead : t.Ahead s.input) (hs : s.Placed)
include hs

theorem skip_placed (t : Table) : (s.skip t).scan.Placed :=
  (skip_skips t s).takes.placed hs

theorem next_placed (t : Table) (previewLength : Option Int) :
    (s.next t previewLength).scan.Placed := by
  obtain ⟨ps, htakes⟩ := next_takes t previewLength s
  exact htakes.placed hs

include hahead

theorem next_ends :
    ((s.next t previewLength).result = .ok none →
        Ends t previewLength s.input (s.next t previewLength).scan.cursor none) ∧
      ∀ e, (s.next t previewLength).result = .error e →
        Ends t previewLength s.input (s.next t previewLength).scan.cursor (some e) := by
  have hskips := skip_skips t s
  have hinput := hskips.takes.input_eq
  have hends := (next_nexts t previewLength s).ends (skip_placed hs t)
    (fun f hf => hinput ▸ hskips.fails hf) (hinput ▸ hskips.idle hahead)
  rwa [hinput] at hends

include ht

/-- A call of `next` cuts off its pieces. -/
theorem next_lexes :
    Lexes t s.input s.cursor (s.pieces t previewLength) (s.next t previewLength).scan.cursor := by
  have hskips := skip_skips t s
  have hinput := hskips.takes.input_eq
  have hlexes := (next_nexts t previewLength s).lexes ht (skip_placed hs t)
    (hinput ▸ hskips.idle hahead)
  rw [hinput] at hlexes
  exact hskips.lexes.append hlexes

end Next

/-! ### Scans to the end -/

theorem pieces_tokens (t : Table) (previewLength : Option Int) (s : Scan) :
    (s.pieces t previewLength).filterMap Piece.token? = (s.next t previewLength).tokens := by
  rw [pieces, List.filterMap_append, List.filterMap_map, List.filterMap_map]
  have hignored : List.filterMap (Piece.token? ∘ Piece.ignored) (s.skip t).pieces = [] :=
    List.filterMap_eq_nil_iff.mpr fun _ _ => rfl
  have htokens : Piece.token? ∘ Piece.token = some := rfl
  rw [hignored, htokens, List.filterMap_some, List.nil_append]

/-- What a scan to the end gives is what lexing cuts off, and it passes on the error that lexing
ends with. -/
theorem Runs.lexes {run : Run} (h : Runs t previewLength s run) (ht : t.WellFormed)
    (hahead : t.Ahead s.input) (hs : s.Placed) :
    ∃ pieces stop, Lexes t s.input s.cursor pieces run.scan.cursor ∧
      Ends t previewLength s.input run.scan.cursor stop ∧
      run.stop = stop.map Error.ofIteration ∧
      run.tokens = pieces.filterMap Piece.token? ∧ run.records = pieces.map Piece.record := by
  induction h with
  | @stop s e hr =>
    refine ⟨_, some e, next_lexes ht hahead hs, (next_ends hahead hs).2 e hr, rfl, ?_,
      next_records ..⟩
    rw [pieces_tokens, Step.tokens, hr]
  | @finish s hr =>
    refine ⟨_, none, next_lexes ht hahead hs, (next_ends hahead hs).1 hr, rfl, ?_,
      next_records ..⟩
    rw [pieces_tokens, Step.tokens, hr]
  | @token s token rest hr _ ih =>
    obtain ⟨ps, htakes⟩ := next_takes t previewLength s
    have hinput := htakes.input_eq
    obtain ⟨pieces, stop, hlexes, hends, hstop, htokens, hrecords⟩ :=
      ih (hinput ▸ hahead) (next_placed hs t previewLength)
    rw [hinput] at hlexes hends
    refine ⟨_, stop, (next_lexes ht hahead hs).append hlexes, hends, hstop, ?_, ?_⟩
    · rw [List.filterMap_append, pieces_tokens, ← htokens, Step.tokens, hr]
      rfl
    · rw [List.map_append, ← hrecords, next_records]

/-- The tokens of a text are refused with the error that stops the scan. -/
theorem tokenize_failed (s : Session) {text : Text} (hahead : s.table.Ahead text) (e : Error) :
    (s.step (.tokenize text)).reply = .failed e ↔
      ((start text).run s.table s.previewLength).stop = some e := by
  have hrun : (start text).scanner.run s.table s.previewLength =
      some ((start text).run s.table s.previewLength).scanner := scanner_run hahead
  rw [scanner_start] at hrun
  rw [Session.step, hrun, Run.scanner]
  cases ((start text).run s.table s.previewLength).stop with
  | none => simp
  | some e' => simp

/-- **Scanning is lexing**: for any table that registrations lead to, and any text
for which its patterns give answers, a scan to the end gives the one result that
lexing has, and all tokens of the text are refused exactly if lexing gets stuck. -/
theorem run_lexes (registrations : List Registration) (previewLength : Option Int)
    (text : Text) :
    let t := ({} : Table).afterAll registrations
    let run := (start text).run t previewLength
    t.Answers text →
      ∃ pieces,
        (∀ ps last stop, Lexes t text 0 ps last ∧ Ends t previewLength text last stop ↔
          ps = pieces ∧ last = run.scan.cursor ∧ stop = run.stop) ∧
        run.tokens = pieces.filterMap Piece.token? ∧
        run.records = pieces.map Piece.record ∧
        ∀ e, (({ table := t, previewLength } : Session).step (.tokenize text)).reply = .failed e ↔
          ∃ ps last, Lexes t text 0 ps last ∧ Stuck t text last ∧
            e = unmatchedAt text previewLength last := by
  intro t run hanswers
  have ht : t.WellFormed := (afterAll_grows {} registrations).wellFormed wellFormed_empty
  have hruns : Runs t previewLength (start text) run := run_runs t previewLength (start text)
  obtain ⟨pieces, stop, hlexes, hends, hstop, htokens, hrecords⟩ :=
    hruns.lexes ht hanswers.ahead (start_placed text)
  -- No pattern fails, and the iteration passes on all other errors as they are.
  obtain rfl : run.stop = stop := by
    cases hends with
    | finish _ | stuck _ => exact hstop
    | fails hbefore hfails => exact (hanswers.not_fails hbefore hfails).elim
  have hunique : ∀ ps last stop, Lexes t text 0 ps last ∧ Ends t previewLength text last stop ↔
      ps = pieces ∧ last = run.scan.cursor ∧ stop = run.stop := by
    intro ps last stop
    constructor
    · rintro ⟨hlexes', hends'⟩
      exact hlexes'.unique ht hends' hlexes hends
    · rintro ⟨rfl, rfl, rfl⟩
      exact ⟨hlexes, hends⟩
  refine ⟨pieces, hunique, htokens, hrecords, fun e => ?_⟩
  rw [tokenize_failed _ hanswers.ahead]
  change run.stop = some e ↔ _
  constructor
  · intro hstop
    rw [hstop] at hends
    cases hends with
    | stuck hstuck => exact ⟨pieces, run.scan.cursor, hlexes, hstuck, rfl⟩
    | fails hbefore hfails => exact (hanswers.not_fails hbefore hfails).elim
  · rintro ⟨ps, last, hlexes', hstuck, rfl⟩
    exact ((hunique ps last _).mp ⟨hlexes', .stuck hstuck⟩).2.2.symm

end Scan

end

namespace Scan
open Table
attribute [local instance] Regex.plain

/-- Blanks are ignored, two rules match `ab` and one of them its beginning, and `do`
is a keyword that a rule matches before it. -/
def rivals : List Registration :=
  [.ignore (.pattern (.literal " ")),
    .rule (.string "short") (.pattern (.literal "a")),
    .rule (.string "pair") (.pattern (.literal "ab")),
    .rule (.string "late") (.pattern (.literal "ab")),
    .rule (.string "word") (.pattern (.literal "do")),
    .keyword (.string "DO") (.string "do")]

theorem rivals_answers (text : Text) : (({} : Table).afterAll rivals).Answers text := by
  have hignored : (({} : Table).afterAll rivals).ignored = [.literal " "] := rfl
  have hrules : (({} : Table).afterAll rivals).rules = [⟨"short", .literal "a"⟩,
      ⟨"pair", .literal "ab"⟩, ⟨"late", .literal "ab"⟩, ⟨"word", .literal "do"⟩,
      ⟨"DO", .literal "do"⟩] := rfl
  refine answers_of_literals ?_ ?_ text
  · simp [hignored]
  · simp [hrules]

/-- The longer rule wins, then the one before its equal, and a keyword gives its name
to what another rule has matched. -/
theorem run_lexes_rivals :
    (({} : Table).afterAll rivals).Answers "ab do?" ∧
      ∃ pieces last stop,
        Lexes (({} : Table).afterAll rivals) "ab do?" 0 pieces last ∧
        Ends (({} : Table).afterAll rivals) none "ab do?" last stop ∧
        pieces.filterMap Piece.token? = [⟨"pair", "ab", 1, 0⟩, ⟨"DO", "do", 1, 3⟩] := by
  have hanswers := rivals_answers "ab do?"
  have htokens : ((start "ab do?").run
      (({} : Table).afterAll rivals) none).tokens =
        [⟨"pair", "ab", 1, 0⟩, ⟨"DO", "do", 1, 3⟩] := by decide +kernel
  obtain ⟨pieces, hunique, hpieces, -, -⟩ := run_lexes rivals none _ hanswers
  obtain ⟨hlexes, hends⟩ := (hunique pieces _ _).mpr ⟨rfl, rfl, rfl⟩
  exact ⟨hanswers, pieces, _, _, hlexes, hends, hpieces ▸ htokens⟩

end Scan
end Munch
