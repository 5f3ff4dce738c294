import Munch.Proofs.Scan.Positions
import Munch.Proofs.Session.Tables
import Munch.Regex

/-! The positions in a session.

Whatever a session has done, and however often its scanners were stopped or moved past the ends
of their texts, positions can be counted anew from the text (`after_positions`). This needs
that nothing takes a scanner back: one that takes characters again counts them again
(`after_positions_back`). -/
namespace Munch

theorem Error.eq_unmatched_of_ofIteration {e : Error} {preview : Text} {place : Position}
    (h : e.ofIteration = .unmatched preview place) : e = .unmatched preview place := by
  cases e with
  | failure f => cases h
  | _ => exact h

namespace Session

section
variable [Engine]

/-- **Positions are right**, where no length to be ignored is negative: those of the scanners of
a session, and those of what they find, call by call and in a scan to the end. -/
theorem after_positions (previewLength : Option Int) (commands : List Command) (on : String)
    (scanner : Scanner) :
    let s := ({ previewLength } : Session).after commands
    let text := scanner.input
    (∀ text, s.table.Ahead text) → (∀ c ∈ commands, c.Forward) → s.scanner? on = some scanner →
      ∃ scan : Scan, scanner = scan.scanner ∧
        scanner.position.line = 1 + (text.take scan.cursor).count (.char '\n') ∧
        scanner.position.column = (Text.lastLine (text.take scan.cursor)).length ∧
        (∀ n,
          let called := (scan.calls s.table s.previewLength n).scan
          let step := called.next s.table s.previewLength
          called.scanner.next s.table s.previewLength = some step.scanner ∧
            step.BeginsAt text (scan.offset s.table s.previewLength n)) ∧
        let run := scan.run s.table s.previewLength
        scanner.run s.table s.previewLength = some run.scanner ∧
        (∀ i token, run.tokens[i]? = some token → ⟨token.line, token.column⟩ =
          Position.ofText (text.take (scan.offset s.table s.previewLength i))) ∧
        ∀ preview place, run.stop = some (.unmatched preview place) → place =
          Position.ofText (text.take (scan.offset s.table s.previewLength run.tokens.length)) := by
  intro s text hahead hforward h
  have htable : s.table.WellFormed := after_table_wellFormed previewLength commands
  have hall : s.All (IsScan Scan.Placed) :=
    after_scans Scan.start_placed Scan.consume_placed (new_all previewLength) hahead hforward
  obtain ⟨scan, hplaced, rfl⟩ := hall on scanner h
  have hbegins := Scan.calls_beginsAt htable s.previewLength hplaced
  have hruns := Scan.run_runs s.table s.previewLength scan
  refine ⟨scan, rfl, ?_, ?_, fun n => ⟨Scan.scanner_next (hahead _), hbegins n⟩,
    Scan.scanner_run (hahead _), fun i token hi => ?_, fun preview place hstop => ?_⟩
  · exact congrArg Position.line hplaced.position_eq
  · exact congrArg Position.column hplaced.position_eq
  · exact (hbegins i).position token (hruns.tokens_eq i token hi)
  · obtain ⟨e, hlast, he⟩ := hruns.result_of_stop.1 _ hstop
    refine (hbegins _).place preview place (hlast.trans (congrArg _ ?_))
    exact Error.eq_unmatched_of_ofIteration he.symm

end

attribute [local instance] Regex.plain

def rowsText : Text := " \na\nb ?a\nb"

/-- Blanks and newlines are ignored, and a token goes over a newline. -/
def rows : List Command :=
  [.register (.ignore (.pattern (.literal " "))), .register (.ignore (.pattern (.literal "\n"))),
    .register (.rule (.string "row") (.pattern (.literal "a\nb"))),
    .start "s" rowsText]

/-- After a token, a call is stopped by a question mark, and that is taken without asking the
rules. -/
def rowsTaken : List Command := [.next "s", .next "s", .consume "s" 1]

def rowsStarted : Session := ({ previewLength := none } : Session).after rows

theorem rows_ahead (text : Text) : rowsStarted.table.Ahead text := by
  have hignored : rowsStarted.table.ignored = [.literal " ", .literal "\n"] := rfl
  refine Table.ahead_of_builtIn ?_ text
  rw [hignored]
  exact List.forall_mem_cons.mpr ⟨nofun, List.forall_mem_singleton.mpr nofun⟩

theorem after_rows : ({ previewLength := none } : Session).after (rows ++ rowsTaken) =
    rowsStarted.setScanner "s" (some ⟨rowsText, 7, ⟨3, 3⟩⟩) := by
  have hfirst : rowsStarted.scanner? "s" = some (Scan.start rowsText).scanner := rfl
  have hsecond := scanner?_setScanner_same rowsStarted "s"
  rw [after_append]
  change (((rowsStarted.step (.next "s")).session.step (.next "s")).session.step
    (.consume "s" 1)).session = _
  rw [(step_next_scan hfirst (rows_ahead _)).1, (step_next_scan (hsecond _) (rows_ahead _)).1]
  rfl

/-- The last two characters of the line are one that was ignored and one that was
taken without asking the rules. -/
theorem after_positions_rows :
    (({ previewLength := none } : Session).after (rows ++ rowsTaken)).scanner? "s" =
        some ⟨rowsText, 7, ⟨3, 3⟩⟩ ∧
      (3 : Int) = 1 + (" \na\nb ?" : Text).count (.char '\n') ∧
      (3 : Int) = (Text.lastLine " \na\nb ?").length := by
  have h : (({ previewLength := none } : Session).after (rows ++ rowsTaken)).scanner? "s" =
      some ⟨rowsText, 7, ⟨3, 3⟩⟩ := by
    rw [after_rows]
    rfl
  have hforward : ∀ c ∈ rows ++ rowsTaken, c.Forward := by
    simp [rows, rowsTaken, Command.Forward]
  obtain ⟨scan, hscan, hline, hcolumn, -⟩ :=
    after_positions none (rows ++ rowsTaken) "s" _ (by rw [after_rows]; exact rows_ahead) hforward h
  have hcursor : scan.cursor = 7 := Int.ofNat_inj.mp (congrArg Scanner.cursor hscan).symm
  rw [hcursor] at hline hcolumn
  exact ⟨h, hline, hcolumn⟩

/-- The whole text is ignored, and anywhere else a character is to be given back. -/
def back : List Command :=
  [.register (.ignore (.pattern (.literal "ab"))),
    .register (.ignore (.pattern (.custom ⟨"back", fun _ _ => .ok (some (-1))⟩))),
    .start "s" "ab", .consume "s" 1]

def backStarted : Session := ({} : Session).after back

theorem back_skips : Scanner.Skips backStarted.table ⟨"ab", 1, ⟨1, 1⟩⟩
    ⟨⟨"ab", 2, ⟨1, 3⟩⟩, [[], "ab"], none⟩ := by
  have hend : Scanner.Skips backStarted.table (.consume ⟨"ab", 0, ⟨1, 1⟩⟩ 2)
      ⟨⟨"ab", 2, ⟨1, 3⟩⟩, [], none⟩ := .finish rfl
  have hagain : Scanner.Skips backStarted.table (.consume ⟨"ab", 1, ⟨1, 1⟩⟩ (-1))
      ⟨⟨"ab", 2, ⟨1, 3⟩⟩, ["ab"], none⟩ := .piece rfl rfl (by decide) hend
  exact .piece rfl rfl (by decide) hagain

/-- A scanner that is taken back is at the end of the text after a call of `next`, and the
column is one more than there are characters. -/
theorem after_positions_back :
    let s := ({} : Session).after (back ++ [.next "s"])
    let scanner : Scanner := ⟨"ab", 2, ⟨1, 3⟩⟩
    (∀ c ∈ back ++ [.next "s"], c.Forward) ∧ s.scanner? "s" = some scanner ∧
      (Text.lastLine (scanner.input.between 0 scanner.cursor)).length = 2 := by
  intro s scanner
  have hstart : backStarted.scanner? "s" = some ⟨"ab", 1, ⟨1, 1⟩⟩ := rfl
  have hnext : Scanner.next backStarted.table (some 5) _ = _ :=
    Scanner.next_eq_some_iff.mpr ⟨_, back_skips, rfl⟩
  have hs : s = (backStarted.step (.next "s")).session := after_append _ back [.next "s"]
  rw [step_next hstart hnext] at hs
  refine ⟨by simp [back, Command.Forward], ?_, rfl⟩
  rw [hs]
  exact scanner?_setScanner_same _ _ _

end Session
end Munch
