import Munch.Proofs.Scan.Progress
import Munch.Proofs.Session.Apart
import Munch.Proofs.Session.Tables
import Munch.Regex

/-! The end of the input is found once and for all.

A call of `next` gives no token where rounds of skipping lead to the end of the text, and
nowhere else (`next_end_iff`). No token can be taken for the one that stands for the end:
those of a text have a character and a place (`Token.OfText`), whatever their rules are
called. A scanner that is at its end stays there until it is started again: a command may
change the table or other scanners, and take more characters that are not there
(`step_scanner_of_ended`), but the end is what calls find (`after_end`). -/
namespace Munch

/-! ### Tokens of texts -/

/-- A token of a text has a character and a place. -/
structure Token.OfText (t : Token) : Prop where
  value : t.value ≠ []
  line : 1 ≤ t.line
  column : 0 ≤ t.column

/-- The token that stands for the end is of no text. -/
theorem Token.OfText.ne_endOfInput {t : Token} (h : t.OfText) : t ≠ .endOfInput := by
  rintro rfl
  exact h.value rfl

theorem Token.getD_eq_endOfInput_iff {found : Option Token} (h : ∀ t, found = some t → t.OfText) :
    found.getD .endOfInput = .endOfInput ↔ found = none := by
  cases found with
  | none => simp
  | some t => simpa using (h t rfl).ne_endOfInput

namespace Scan
theorem consume_zero (s : Scan) : s.consume 0 = s := by
  simp [consume, piece, Position.advance_nil]

section
variable [Engine] {t : Table} {previewLength : Option Int} {s last : Scan} {ps : List Text}
  {k : Skipped} {step : Step}

theorem Nexts.ofText (h : Nexts t previewLength k step) (ht : t.WellFormed) (hk : k.scan.Placed)
    {token : Token} (htoken : step.result = .ok (some token)) : token.OfText := by
  have hplace := (h.beginsAt ht hk).position token htoken
  have hline : token.line = 1 + _ := congrArg Position.line hplace
  have hcolumn : token.column = _ := congrArg Position.column hplace
  cases h with
  | @found r n _ he hl =>
    cases htoken
    refine ⟨fun hvalue => ?_, by omega, hcolumn ▸ Int.natCast_nonneg _⟩
    have hpiece : k.scan.piece n = [] := by
      rw [← tokenOf_text ht, hvalue]
    exact piece_ne_nil he (longest_positive hl) hpiece
  | _ => cases htoken

theorem next_ofText (ht : t.WellFormed) (hs : s.Placed) {token : Token}
    (htoken : (s.next t previewLength).result = .ok (some token)) : token.OfText :=
  (next_nexts t previewLength s).ofText ht (skip_placed hs t) htoken

/-! ### Where the end is found -/

/-- Where rounds lead to the end, so does skipping. -/
theorem Rounds.skips_to_end (h : Rounds t s ps last) (hlast : last.exhausted = true)
    (hk : Skips t s k) : k.failure = none ∧ k.scan.exhausted = true := by
  induction h generalizing k with
  | nil =>
    cases hk with
    | finish he => exact ⟨rfl, he⟩
    | failure he _ | rest he _ _ | piece he _ _ _ => simp [hlast] at he
  | @cons s n _ _ he hi hn _ ih =>
    cases hk with
    | finish he' => simp [he] at he'
    | failure _ hi' => cases hi.symm.trans hi'
    | rest he' hi' hn' =>
      -- A round of a negative length would stay where it is.
      cases hi.symm.trans hi'
      have hstay : s.consume n.toNat = s := by rw [Int.toNat_of_nonpos hn', consume_zero]
      exact ih hlast (by rw [hstay]; exact .rest he hi hn')
    | piece _ hi' _ hrest =>
      cases hi.symm.trans hi'
      have hend := ih hlast hrest
      exact hend

theorem Nexts.end_cases (h : Nexts t previewLength k step) (hend : step.result = .ok none) :
    k.failure = none ∧ k.scan.exhausted = true ∧ step.scan = k.scan := by
  cases h with
  | finish hf he => exact ⟨hf, he, rfl⟩
  | _ => cases hend

/-- **The end is found** exactly if rounds of skipping lead to it. -/
theorem next_end_iff : (s.next t previewLength).result = .ok none ↔
    ∃ ps last, Rounds t s ps last ∧ last.exhausted = true := by
  constructor
  · intro hend
    obtain ⟨-, he, -⟩ := (next_nexts t previewLength s).end_cases hend
    exact ⟨_, _, (skip_skips t s).rounds, he⟩
  · rintro ⟨ps, last, hrounds, hlast⟩
    obtain ⟨hfailure, he⟩ := hrounds.skips_to_end hlast (skip_skips t s)
    simp [next, hfailure, he]

end

end Scan

/-! ### Scanners that are at their ends -/

namespace Session

section
variable [Engine]

/-- Whether a command makes the scanner `on` begin anew. -/
def Command.starts (on : String) : Command → Bool
  | .start name _ | .create name _ => name == on
  | _ => false

/-- Whether a command takes characters of the scanner `on` without asking the rules. -/
def Command.consumes (on : String) : Command → Bool
  | .consume name _ => name == on
  | _ => false

/-- The scanner `on` is at the end of its text, or it has none. -/
def Ended (on : String) (s : Session) : Prop :=
  ∀ scanner, s.scanner? on = some scanner → scanner.exhausted = true

/-- A call has found the end and left the session as it was. -/
structure Outcome.EndsIn (s : Session) (o : Outcome) : Prop where
  reply : o.reply = .token none
  records : o.records = []
  table : o.session.table = s.table
  scanners : o.session.scanner? = s.scanner?

section Ended
variable {on : String} {s : Session} {c : Command}

/-- To set a scanner to what it is changes no scanner. -/
theorem scanner?_setScanner_self {scanner : Scanner} (hscanner : s.scanner? on = some scanner) :
    (s.setScanner on (some scanner)).scanner? = s.scanner? := by
  funext name
  rw [scanner?_setScanner]
  by_cases hname : name = on
  · rw [if_pos hname, hname, hscanner]
  · rw [if_neg hname]

/-- A command leaves a scanner that is at its end where it is, unless it takes characters that
are not there. -/
theorem step_scanner_of_ended (h : s.Ended on) (hstarts : c.starts on = false) :
    (s.step c).session.scanner? on = s.scanner? on ∨ c.consumes on = true ∧ ∃ name scanner n,
      c = .consume name n ∧ s.scanner? on = some scanner ∧
      (s.step c).session.scanner? on = some (scanner.consume n) := by
  cases hc : c.concerns on with
  | false => exact .inl (Agree.of_not_concerns s hc).scanner
  | true =>
    cases c with
    | register r =>
      rw [step]
      cases s.table.register r <;> exact .inl rfl
    | load _ _ | state _ => exact .inl rfl
    | start _ _ | create _ _ => cases hc.symm.trans hstarts
    | next name =>
      obtain rfl := beq_iff_eq.mp hc
      cases hscanner : s.scanner? name with
      | none => simp [step, hscanner, answer]
      | some scanner =>
        rw [step_next hscanner (Scanner.next_of_exhausted (h scanner hscanner))]
        exact .inl (congrFun (scanner?_setScanner_self hscanner) name ▸ hscanner)
    | iterate name =>
      obtain rfl := beq_iff_eq.mp hc
      cases hscanner : s.scanner? name with
      | none => simp [step, hscanner, answer]
      | some scanner =>
        have hrun : scanner.run s.table s.previewLength = _ :=
          Scanner.run_of_exhausted (h scanner hscanner)
        simp [step, hscanner, hrun, scanner?_setScanner_self hscanner]
    | consume name length =>
      obtain rfl := beq_iff_eq.mp hc
      cases hscanner : s.scanner? name with
      | none => simp [step, hscanner, answer]
      | some scanner =>
        refine .inr ⟨beq_self_eq_true name, name, scanner, length, rfl, rfl, ?_⟩
        simp only [step, hscanner, answer, scanner?_setScanner, if_pos]
    | tokenize _ | table | ignoredLength _ _ | longest _ _ | relabel _ _ => cases hc

theorem step_ended (h : s.Ended on) (hstarts : c.starts on = false) (hforward : c.Forward) :
    (s.step c).session.Ended on := by
  intro scanner hscanner
  rcases step_scanner_of_ended h hstarts with
    hsame | ⟨-, name, before, n, rfl, hbefore, hconsumed⟩
  · exact h scanner (hsame ▸ hscanner)
  · obtain rfl := Option.some.inj (hconsumed.symm.trans hscanner)
    have hend := Scanner.exhausted_iff.mp (h before hbefore)
    exact Scanner.exhausted_iff.mpr (Int.le_trans hend (Int.le_add_of_nonneg_right hforward))

/-- A scanner that is at its end is still there after commands that do not start it, and is the
same if they take none of its characters. -/
theorem after_ended (h : s.Ended on) {commands : List Command}
    (hstarts : ∀ c ∈ commands, c.starts on = false) (hforward : ∀ c ∈ commands, c.Forward) :
    (s.after commands).Ended on ∧
      ((∀ c ∈ commands, c.consumes on = false) →
        (s.after commands).scanner? on = s.scanner? on) := by
  induction commands generalizing s with
  | nil => exact ⟨h, fun _ => rfl⟩
  | cons c rest ih =>
    obtain ⟨hc, hrest⟩ := List.forall_mem_cons.mp hstarts
    obtain ⟨hcf, hrestf⟩ := List.forall_mem_cons.mp hforward
    obtain ⟨hended, hscanner⟩ := ih (step_ended h hc hcf) hrest hrestf
    refine ⟨hended, fun hconsumes => ?_⟩
    obtain ⟨hcc, hcrest⟩ := List.forall_mem_cons.mp hconsumes
    rcases step_scanner_of_ended h hc with hsame | ⟨hconsumed, -⟩
    · exact (hscanner hcrest).trans hsame
    · simp [hcc] at hconsumed

theorem step_next_of_ended (h : s.Ended on) : (s.step (.next on)).EndsIn s := by
  cases hscanner : s.scanner? on with
  | none =>
    rw [step, hscanner]
    exact ⟨rfl, rfl, rfl, rfl⟩
  | some scanner =>
    rw [step_next hscanner (Scanner.next_of_exhausted (h scanner hscanner))]
    exact ⟨rfl, rfl, rfl, scanner?_setScanner_self hscanner⟩

end Ended

/-! ### Calls and scans to the end -/

section Calls
variable {on : String} {s : Session}

theorem trace_append (s : Session) (commands rest : List Command) :
    s.trace (commands ++ rest) = s.trace commands ++ (s.after commands).trace rest := by
  induction commands generalizing s with
  | nil => rfl
  | cons c commands ih => exact congrArg _ (ih _)

/-- What a scan to the end gives is what calls give, up to the one that finds the end or
fails. -/
theorem trace_nexts_of_iterate {tokens : List Token} {stop : Option Error}
    (h : (s.step (.iterate on)).reply = .tokens tokens stop) :
    ∃ last : Option Error, stop = last.map Error.ofIteration ∧
      (s.trace (List.replicate (tokens.length + 1) (.next on))).map (·.2.2) =
        tokens.map (fun token => .token (some token)) ++ [ending last] := by
  cases hscanner : s.scanner? on with
  | none =>
    simp only [step, hscanner, answer, Reply.tokens.injEq] at h
    obtain ⟨rfl, rfl⟩ := h
    exact ⟨none, rfl, by simp [trace, step, hscanner, answer, ending]⟩
  | some scanner =>
    cases hrun : scanner.run s.table s.previewLength with
    | none => simp [step, hscanner, hrun, answer] at h
    | some run =>
      rw [step_iterate hscanner hrun, Reply.tokens.injEq] at h
      obtain ⟨rfl, rfl⟩ := h
      obtain ⟨last, hlast, hreplies⟩ := trace_nexts (Scanner.runs_of_run hrun)
      have htrace := hreplies s on rfl rfl hscanner (run.tokens.length + 1)
      rw [replies, trace_append, List.map_append, List.take_of_length_le (Nat.le_succ _),
        Nat.add_sub_cancel_left] at htrace
      exact ⟨last, hlast, (List.append_inj' htrace rfl).1⟩

section Scans
variable (hall : s.All (IsScan Scan.Placed)) (hahead : ∀ text, s.table.Ahead text)
include hall hahead

theorem step_next_ne_unending : (s.step (.next on)).reply ≠ .unending := by
  cases hscanner : s.scanner? on with
  | none => simp [step, hscanner, answer]
  | some scanner =>
    obtain ⟨scan, -, rfl⟩ := hall on scanner hscanner
    rw [(step_next_scan hscanner (hahead _)).2]
    cases (scan.next s.table s.previewLength).result <;> simp [replyOf]

theorem step_next_token_iff {found : Option Token} : (s.step (.next on)).reply = .token found ↔
    s.scanner? on = none ∧ found = none ∨ ∃ scan, s.scanner? on = some (Scan.scanner scan) ∧
      (scan.next s.table s.previewLength).result = .ok found := by
  cases hscanner : s.scanner? on with
  | none => simp [step, hscanner, answer, eq_comm]
  | some scanner =>
    obtain ⟨scan, -, rfl⟩ := hall on scanner hscanner
    have hscan (x : Scan) : some scan.scanner = some x.scanner ↔ x = scan := by
      simp [Scan.scanner_inj, eq_comm]
    rw [(step_next_scan hscanner (hahead _)).2]
    simp only [hscan, exists_eq_left]
    cases h : (scan.next s.table s.previewLength).result <;> simp [replyOf]

/-- Where a call has found the end, the scanner is at its end. -/
theorem ended_of_step_next (h : (s.step (.next on)).reply = .token none) :
    (s.step (.next on)).session.Ended on := by
  intro scanner hscanner
  rcases (step_next_token_iff hall hahead).mp h with ⟨hnone, -⟩ | ⟨scan, hscan, hresult⟩
  · simp [step, hnone, answer] at hscanner
  · rw [(step_next_scan hscan (hahead _)).1, scanner?_setScanner_same] at hscanner
    obtain rfl := Option.some.inj hscanner
    rw [Scan.scanner_exhausted]
    exact Scan.exhausted_of_end (Scan.next_nexts s.table s.previewLength scan) hresult

theorem step_next_ofText (ht : s.table.WellFormed) {token : Token}
    (h : (s.step (.next on)).reply = .token (some token)) : token.OfText := by
  rcases (step_next_token_iff hall hahead).mp h with ⟨-, hnone⟩ | ⟨scan, hscan, hresult⟩
  · cases hnone
  · obtain ⟨scan', hplaced, heq⟩ := hall on _ hscan
    obtain rfl := Scan.scanner_inj.mp heq
    exact Scan.next_ofText ht hplaced hresult

theorem iterate_ofText (ht : s.table.WellFormed) {tokens : List Token} {stop : Option Error}
    (h : (s.step (.iterate on)).reply = .tokens tokens stop) : ∀ token ∈ tokens, token.OfText := by
  cases hscanner : s.scanner? on with
  | none =>
    simp only [step, hscanner, answer, Reply.tokens.injEq] at h
    simp [← h.1]
  | some scanner =>
    obtain ⟨scan, hplaced, rfl⟩ := hall on scanner hscanner
    rw [step_iterate hscanner (Scan.scanner_run (hahead _)), Reply.tokens.injEq] at h
    obtain ⟨rfl, -⟩ := h
    intro token hmem
    obtain ⟨i, hi⟩ := (Scan.run_runs s.table s.previewLength scan).call_of_mem hmem
    have hcalled := Scan.calls_preserves s.table s.previewLength Scan.consume_placed hplaced i
    exact Scan.next_ofText ht hcalled hi

end Scans

end Calls

/-- **The end is exact and final**, where no length to be ignored is negative. A call ends. What
it gives equals the token that stands for the end only if it is the end itself: any other token
has a character and a place. The end is found if the scanner has no text, or if rounds of
skipping lead to the end of it. So a scan to the end gives the tokens of calls up to the one
that finds the end, or fails. After it was found, calls find it again and change nothing,
whatever commands there are in between, if none of them starts the scanner or takes characters
back; and the scanner stays the same if none takes its characters. -/
theorem after_end (previewLength : Option Int) (commands : List Command) (on : String) :
    let s := ({ previewLength } : Session).after commands
    let outcome := s.step (.next on)
    (∀ text, s.table.Ahead text) → (∀ c ∈ commands, c.Forward) →
    outcome.reply ≠ .unending ∧
    (∀ found, outcome.reply = .token found →
      (found.getD .endOfInput = .endOfInput ↔ found = none)) ∧
    (outcome.reply = .token none ↔ s.scanner? on = none ∨ ∃ scan pieces last,
      s.scanner? on = some (Scan.scanner scan) ∧ Scan.Rounds s.table scan pieces last ∧
        last.exhausted = true) ∧
    (∀ token, outcome.reply = .token (some token) →
      token.value ≠ [] ∧ 1 ≤ token.line ∧ 0 ≤ token.column) ∧
    (∀ tokens stop, (s.step (.iterate on)).reply = .tokens tokens stop →
      (∀ token ∈ tokens, token ≠ .endOfInput) ∧
      ∃ last : Option Error, stop = last.map Error.ofIteration ∧
        (s.trace (List.replicate (tokens.length + 1) (.next on))).map (·.2.2) =
          tokens.map (fun token => .token (some token)) ++ [ending last]) ∧
    (outcome.reply = .token none → ∀ later : List Command,
      (∀ c ∈ later, c.starts on = false) → (∀ c ∈ later, c.Forward) →
      let s' := outcome.session.after later
      (s'.step (.next on)).EndsIn s' ∧
        ((∀ c ∈ later, c.consumes on = false) →
          s'.scanner? on = outcome.session.scanner? on)) := by
  intro s outcome hahead hforward
  have ht : s.table.WellFormed := after_table_wellFormed previewLength commands
  have hall : s.All (IsScan Scan.Placed) :=
    after_scans Scan.start_placed Scan.consume_placed (new_all previewLength) hahead hforward
  have htoken (token : Token) (h : outcome.reply = .token (some token)) : token.OfText :=
    step_next_ofText hall hahead ht h
  refine ⟨step_next_ne_unending hall hahead, fun found hfound => ?_, ?_, fun token h => ?_,
    fun tokens stop h => ?_, ?_⟩
  · refine Token.getD_eq_endOfInput_iff fun token hsome => htoken token ?_
    rw [hfound, hsome]
  · rw [step_next_token_iff hall hahead]
    simp only [Scan.next_end_iff, and_true, exists_and_left]
  · exact ⟨(htoken token h).value, (htoken token h).line, (htoken token h).column⟩
  · exact ⟨fun token hmem => (iterate_ofText hall hahead ht h token hmem).ne_endOfInput,
      trace_nexts_of_iterate h⟩
  · intro hend later hstarts hlater s'
    obtain ⟨hended, hscanner⟩ :=
      after_ended (ended_of_step_next hall hahead hend) hstarts hlater
    exact ⟨step_next_of_ended hended, hscanner⟩

end

attribute [local instance] Regex.plain

/-- Blanks are ignored, and a rule has the name of the token that stands for the end. -/
def named : List Command :=
  [.register (.ignore (.pattern (.literal " "))),
    .register (.rule (.string "eof") (.pattern (.literal "x"))), .start "s" "x "]

def namedStarted : Session := ({} : Session).after named

theorem named_ahead (text : Text) : namedStarted.table.Ahead text := by
  have hignored : namedStarted.table.ignored = [.literal " "] := rfl
  refine Table.ahead_of_builtIn ?_ text
  rw [hignored]
  exact List.forall_mem_singleton.mpr nofun

/-- The token of that rule is not the end. The call after it finds the end, and so does the
one after a rule for blanks is registered. -/
theorem after_end_named :
    let s := ({} : Session).after named
    let first := s.step (.next "s")
    let second := first.session.step (.next "s")
    let late : Command := .register (.rule (.string "blank") (.pattern (.literal " ")))
    first.reply = .token (some ⟨"eof", "x", 1, 0⟩) ∧
      (⟨"eof", "x", 1, 0⟩ : Token) ≠ .endOfInput ∧ second.reply = .token none ∧
      ((second.session.after [late]).step (.next "s")).reply = .token none := by
  have hstart : namedStarted.scanner? "s" = some (Scan.start "x ").scanner := rfl
  have hcalled := scanner?_setScanner_same namedStarted "s"
  obtain ⟨hsession, hfirst⟩ := step_next_scan hstart (named_ahead _)
  intro s first second late
  have hsecond : second.reply = .token none := by
    change ((namedStarted.step (.next "s")).session.step (.next "s")).reply = _
    rw [hsession, (step_next_scan (hcalled _) (named_ahead _)).2]
    rfl
  have hforward : ∀ c ∈ named ++ [.next "s"], c.Forward := by simp [named, Command.Forward]
  have htable : ∀ text, (({} : Session).after (named ++ [.next "s"])).table.Ahead text := by
    intro text
    rw [after_append]
    change (namedStarted.step _).session.table.Ahead text
    rw [hsession]
    exact named_ahead text
  obtain ⟨-, htoken, -⟩ :=
    after_end (some 5) named "s" named_ahead (by simp [named, Command.Forward])
  obtain ⟨-, -, -, -, -, hfinal⟩ := after_end (some 5) (named ++ [.next "s"]) "s" htable hforward
  refine ⟨hfirst, fun heq => ?_, hsecond, (hfinal hsecond [late] ?_ ?_).1.reply⟩
  · cases (htoken _ hfirst).mp heq
  · exact List.forall_mem_singleton.mpr rfl
  · exact List.forall_mem_singleton.mpr trivial

end Session
end Munch
