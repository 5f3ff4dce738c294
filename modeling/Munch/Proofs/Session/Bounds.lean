import Munch.Proofs.Grammar.Files
import Munch.Proofs.Scan.Asking
import Munch.Proofs.Scan.Consuming
import Munch.Proofs.Session.Tables
import Munch.Regex

/-! Sessions with regular expressions and literals alone.

If no pattern of a session is one that a function makes, and nothing is taken without asking
the rules, then no scan of it leaves its text. Patterns are asked about the whole text at
places before its end, every piece is as long as the check deciding on it has said, and the
end is found exactly at the end (`after_bounds`). -/
namespace Munch
section
variable [Engine]

/-- A table whose patterns are confined to a text gives the same lengths there. -/
theorem Table.Ahead.confined {t : Table} {text : Text} (h : t.Ahead text)
    (otherwise : Except Failure (Option Int)) : (t.confined text otherwise).Ahead text := by
  intro pos n hpos hn
  rw [ignoredLength, Table.confined, firstLength_confined t.ignored hpos] at hn
  exact h pos n hpos hn

namespace Session

/-- The command registers no pattern that a function makes, and takes no characters without
asking the rules. -/
def Command.BuiltIn : Command → Prop
  | register r => r.BuiltIn
  | consume _ _ => False
  | _ => True

/-- What holds of sessions that come to be by such commands. -/
structure BuiltIn (s : Session) : Prop where
  table : s.table.BuiltIn
  wellFormed : s.table.WellFormed
  scanners : s.All (IsScan fun x => x.Placed ∧ x.cursor ≤ x.input.length)

theorem new_builtIn (previewLength : Option Int) : ({ previewLength } : Session).BuiltIn where
  table := Table.builtIn_empty
  wellFormed := Table.wellFormed_empty
  scanners := new_all previewLength

variable {s : Session} {c : Command}

theorem step_table_builtIn (h : s.table.BuiltIn) (hc : c.BuiltIn) :
    (s.step c).session.table.BuiltIn := by
  cases hregisters : c.registers with
  | false => rwa [step_table_eq s hregisters]
  | true =>
    cases c with
    | register r =>
      rw [step]
      cases hr : s.table.register r with
      | error e => exact h
      | ok result => exact (Table.registers_of_ok hr).builtIn hc h
    | load definition path => exact Grammar.load_builtIn h definition
    | _ => cases hregisters

theorem BuiltIn.ahead (h : s.BuiltIn) (text : Text) : s.table.Ahead text :=
  Table.ahead_of_builtIn h.table.ignored text

/-- A call of `next` does not leave the text. -/
theorem BuiltIn.next (h : s.BuiltIn) {x : Scan} (hx : x.Placed ∧ x.cursor ≤ x.input.length) :
    (x.next s.table s.previewLength).scan.Placed ∧
      (x.next s.table s.previewLength).scan.cursor ≤
        (x.next s.table s.previewLength).scan.input.length :=
  ⟨Scan.next_placed hx.1 s.table s.previewLength,
    Scan.next_cursor_le h.wellFormed h.table hx.1 s.previewLength hx.2⟩

theorem BuiltIn.step (h : s.BuiltIn) (hc : c.BuiltIn) : (s.step c).session.BuiltIn where
  table := step_table_builtIn h.table hc
  wellFormed := (step_table_grows s c).wellFormed h.wellFormed
  scanners := by
    apply step_scanners _ _ _ h.scanners
    · intro text
      exact ⟨_, ⟨Scan.start_placed text, Nat.zero_le _⟩, rfl⟩
    · rintro x step ⟨scan, hscan, rfl⟩ hstep
      obtain rfl := Option.some.inj ((Scan.scanner_next (h.ahead _)).symm.trans hstep)
      exact ⟨_, h.next hscan, rfl⟩
    · intro on length hconsume
      subst hconsume
      exact absurd hc id

theorem BuiltIn.after (h : s.BuiltIn) {commands : List Command}
    (hcommands : ∀ c ∈ commands, c.BuiltIn) : (s.after commands).BuiltIn := by
  induction commands generalizing s with
  | nil => exact h
  | cons c rest ih =>
    obtain ⟨hc, hrest⟩ := List.forall_mem_cons.mp hcommands
    exact ih (h.step hc) hrest

/-- **Nothing reaches past the text**, where all patterns are regular expressions and
literals. No scanner leaves its text; a call of `next` ends, and comes to the same when patterns
are confined to its text and places before the end of that, whatever they answer or how they fail
otherwise; the pieces that the call takes follow each other, each as long as the check
deciding on it has reported; and where the call finds the end it has taken the whole text. -/
theorem after_bounds (previewLength : Option Int) (commands : List Command) (on : String)
    (scanner : Scanner) :
    let s := ({ previewLength } : Session).after commands
    (∀ c ∈ commands, c.BuiltIn) → s.scanner? on = some scanner →
      0 ≤ scanner.cursor ∧ scanner.cursor ≤ scanner.input.length ∧
      ∃ scan step, scanner = Scan.scanner scan ∧ step = scan.next s.table s.previewLength ∧
        scanner.next s.table s.previewLength = some step.scanner ∧
        (∀ otherwise, scanner.next (s.table.confined scanner.input otherwise) s.previewLength =
          some step.scanner) ∧
        s.table.Consumes scanner.input scan.cursor (scan.pieces s.table s.previewLength)
          step.scan.cursor ∧
        (step.result = .ok none → step.scan.cursor = scanner.input.length) := by
  intro s hcommands hscanner
  have h : s.BuiltIn := (new_builtIn previewLength).after hcommands
  obtain ⟨scan, ⟨hplaced, hcursor⟩, rfl⟩ := h.scanners on scanner hscanner
  have hnext : scan.scanner.next s.table s.previewLength = _ := Scan.scanner_next (h.ahead _)
  have hconsumes := Scan.next_consumes h.wellFormed h.table hplaced s.previewLength
  refine ⟨Int.natCast_nonneg _, Int.ofNat_le.mpr hcursor, scan, _, rfl, rfl, hnext,
    fun otherwise => ?_, hconsumes, fun hend => ?_⟩
  · rw [Scan.scanner_input, Scan.scanner_next ((h.ahead scan.input).confined otherwise)]
    exact congrArg (some ∘ Scan.Step.scanner)
      (Scan.next_confined s.table s.previewLength otherwise scan)
  · have hnexts := Scan.next_nexts s.table s.previewLength scan
    obtain ⟨_, htakes⟩ := Scan.next_takes s.table s.previewLength scan
    have hexhausted := Scan.exhausted_iff.mp (Scan.exhausted_of_end hnexts hend)
    have hle := hconsumes.le_length hcursor
    rw [htakes.input_eq] at hexhausted
    exact Nat.le_antisymm hle hexhausted

end Session

end

namespace Session
attribute [local instance] Regex.plain

/-- Blanks are ignored, words are letters, and `if` is a keyword. -/
def spaced : List Command :=
  [.register (.ignore (.source " *")), .register (.rule (.string "word") (.source "[a-z]+")),
    .register (.keyword (.string "IF") (.string "if")), .start "s" "do if"]

@[irreducible]
def spacedStarted : Session := ({ previewLength := none } : Session).after spaced

theorem spaced_builtIn : ∀ c ∈ spaced ++ [.next "s"], c.BuiltIn := by
  simp only [spaced, List.cons_append, List.nil_append, List.mem_cons, List.not_mem_nil, or_false,
    forall_eq_or_imp, forall_eq, Command.BuiltIn, Registration.BuiltIn, and_true]
  exact ⟨nofun, nofun⟩

/-- After a word was taken, the blank and the keyword are taken, each as long as it is. -/
theorem after_bounds_spaced :
    let s := ({ previewLength := none } : Session).after (spaced ++ [.next "s"])
    let scan : Scan := ⟨"do if", 2, ⟨1, 2⟩⟩
    let elsewhere : Failure := ⟨"Range", "elsewhere"⟩
    s.scanner? "s" = some scan.scanner ∧
      (scan.pieces s.table s.previewLength).filterMap Piece.token? = [⟨"IF", "if", 1, 3⟩] ∧
      s.table.Consumes scan.input 2 (scan.pieces s.table s.previewLength) 5 ∧
      scan.scanner.next (s.table.confined scan.input (.error elsewhere)) s.previewLength =
        scan.scanner.next s.table s.previewLength := by
  have hstarted : ({ previewLength := none } : Session).after (spaced ++ [.next "s"]) =
      (spacedStarted.step (.next "s")).session := by
    rw [spacedStarted, after_append]
    rfl
  have hstart : spacedStarted.scanner? "s" = some (Scan.start "do if").scanner := by
    decide +kernel
  have hcalled : (Scan.next spacedStarted.table none (Scan.start "do if")).scan =
      ⟨"do if", 2, ⟨1, 2⟩⟩ := by decide +kernel
  have htokens : (Scan.pieces spacedStarted.table none ⟨"do if", 2, ⟨1, 2⟩⟩).filterMap
      Piece.token? = [⟨"IF", "if", 1, 3⟩] := by decide +kernel
  have hcursor : (Scan.next spacedStarted.table none
      ⟨"do if", 2, ⟨1, 2⟩⟩).scan.cursor = 5 := by decide +kernel
  have hpreview : spacedStarted.previewLength = none := by decide +kernel
  have hbuiltIn : spacedStarted.BuiltIn := by
    rw [spacedStarted]
    exact (new_builtIn none).after fun c hc => spaced_builtIn c (List.mem_append_left _ hc)
  have hsession := (step_next_scan hstart (hbuiltIn.ahead _)).1
  rw [hpreview, hcalled] at hsession
  have hbounds := after_bounds none (spaced ++ [.next "s"]) "s"
    ⟨"do if", 2, ⟨1, 2⟩⟩ spaced_builtIn
  -- The session is not to be evaluated again.
  generalize ({ previewLength := none } : Session).after (spaced ++ [.next "s"]) = s
    at hbounds hstarted ⊢
  obtain rfl := hstarted.trans hsession
  intro s scan elsewhere
  have hscanner : s.scanner? "s" = some scan.scanner := scanner?_setScanner_same _ "s" _
  obtain ⟨-, -, _, step, hscan, rfl, hnext, hconfined, hconsumes, -⟩ := hbounds hscanner
  obtain rfl : scan = _ := Scan.scanner_inj.mp hscan
  have hend : (scan.next s.table s.previewLength).scan.cursor = 5 := hpreview ▸ hcursor
  refine ⟨hscanner, hpreview ▸ htokens, hend ▸ hconsumes, (hconfined _).trans hnext.symm⟩

end Session
end Munch
