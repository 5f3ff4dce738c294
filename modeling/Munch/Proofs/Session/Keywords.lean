import Munch.Proofs.Session.Tables
import Munch.Proofs.Table.Keywords
import Munch.Regex

/-! Keywords are found exactly.

Whatever rules and keywords a session has, and in whatever order they came, a token
that one of its scans finds has the name of a keyword exactly if its text is the
keyword's literal (`after_keyword_exact`): another rule that matches as much cannot
hide a keyword, and no rule can pass longer text off as one. -/
namespace Munch
section
variable [Engine]

namespace Scan
variable {t : Table} {previewLength : Option Int} {e : Text × Token} {token : Token}

theorem Nexts.kind_iff (ht : t.WellFormed) (he : e ∈ t.keywords) {k : Skipped} {step : Step}
    (h : Nexts t previewLength k step) (htoken : step.result = .ok (some token)) :
    token.kind = e.2.kind ↔ token.value = e.1 := by
  obtain ⟨r, n, ⟨i, hr, hcheck, -⟩, rfl⟩ := h.exists_winner htoken
  have hvalue : (k.scan.tokenOf t r n).value = (k.scan.piece n) :=
    ht.relabel_value r _
  rw [hvalue]
  exact ht.relabel_kind_iff he (List.mem_of_getElem? hr) hcheck

end Scan

namespace Session

/-- **Keywords are exact**: for every keyword of a session, the tokens that have its
name are those that have its literal as text, be it for one call, from any state of a
scan, or for a scan to the end. -/
theorem after_keyword_exact (previewLength : Option Int) (commands : List Command)
    (name literal : Text) (scan : Scan) (token : Token) :
    let s := ({ previewLength } : Session).after commands
    let step := scan.next s.table s.previewLength
    let run := scan.run s.table s.previewLength
    (literal, ⟨name, literal, -1, -1⟩) ∈ s.table.keywords →
      step.result = .ok (some token) ∨ token ∈ run.tokens →
      (token.kind = name ↔ token.value = literal) := by
  intro s step run he htoken
  have ht : s.table.WellFormed := after_table_wellFormed previewLength commands
  rcases htoken with hstep | hrun
  · exact (Scan.next_nexts s.table s.previewLength scan).kind_iff ht he hstep
  · have hruns : Scan.Runs s.table s.previewLength scan run := Scan.run_runs _ _ scan
    obtain ⟨i, hi⟩ := hruns.call_of_mem hrun
    exact (Scan.next_nexts s.table s.previewLength _).kind_iff ht he hi

end Session

end

namespace Session
attribute [local instance] Regex.plain

/-- Words are letters, and `if` is a word and a keyword that was registered after them. -/
def words : List Command :=
  [.register (.ignore (.source " ")), .register (.rule (.string "word") (.source "[a-z]+")),
    .register (.keyword (.string "IF") (.string "if"))]

/-- Of a longer word and the keyword, the keyword alone has its name. -/
theorem after_keyword_exact_words :
    let s := ({ previewLength := none } : Session).after words
    let run := (Scan.start "ifx if").run s.table s.previewLength
    (("if" : Text), ⟨"IF", "if", -1, -1⟩) ∈ s.table.keywords ∧
      run.tokens = [⟨"word", "ifx", 1, 0⟩, ⟨"IF", "if", 1, 4⟩] ∧
      ∀ token ∈ run.tokens, token.kind = "IF" ↔ token.value = "if" := by
  have he : (("if" : Text), ⟨"IF", "if", -1, -1⟩) ∈
      (({ previewLength := none } : Session).after words).table.keywords := by decide +kernel
  have htokens : ((Scan.start "ifx if").run
      (({ previewLength := none } : Session).after words).table
      (({ previewLength := none } : Session).after words).previewLength).tokens =
        [⟨"word", "ifx", 1, 0⟩, ⟨"IF", "if", 1, 4⟩] := by decide +kernel
  refine ⟨he, htokens, fun token htoken => ?_⟩
  exact after_keyword_exact none words "IF" "if" _ token he (.inr htoken)

end Session
end Munch
