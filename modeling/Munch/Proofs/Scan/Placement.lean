import Munch.Proofs.Scan.Comparing
import Munch.Proofs.Table.Placement
import Munch.Regex

/-! Keywords may stand anywhere.

A lexer is configured by registrations, and those of keywords may come in any order and
anywhere among the others: the registrations are accepted in either order or in
neither, and the tables scan every text alike, call by call
(`rearranged_scans`). Inside, a keyword that comes first wins where a rule has won
before, but the token that comes of it is the same (`take_eq_of_moved`). -/
namespace Munch.Scan
open Table
section
variable [Engine]
variable {t t' : Table}

/-- Where keywords have moved, the same is taken. -/
theorem take_eq_of_moved (ht : t.WellFormed) (ht' : t'.WellFormed) (h : KeywordsMoved t t')
    (previewLength : Option Int) (s : Scan) :
    s.take t' previewLength = s.take t previewLength := by
  have hsame := h.longest_sameLength ht ht' s.input s.cursor
  rw [take, take]
  generalize hw : t.longest s.input s.cursor = winner at hsame ⊢
  generalize hw' : t'.longest s.input s.cursor = winner' at hsame ⊢
  cases hsame with
  | error => rfl
  | none => rfl
  | @some r r' n =>
    have hlabel : t'.relabel r' (s.piece n) =
        t.relabel r (s.piece n) :=
      h.relabel_eq ht ht' (wins_of_longest hw) (wins_of_longest hw')
    simp only [hlabel]

/-- Where keywords have moved, calls and scans to the end are the same. -/
theorem scans_eq_of_moved (ht : t.WellFormed) (ht' : t'.WellFormed) (h : KeywordsMoved t t')
    (previewLength : Option Int) (s : Scan) :
    s.next t' previewLength = s.next t previewLength ∧
      s.run t' previewLength = s.run t previewLength ∧
      ∀ n, s.calls t' previewLength n = s.calls t previewLength n := by
  have hnext : ∀ s : Scan, s.next t' previewLength = s.next t previewLength :=
    next_congr h.ignored (take_eq_of_moved ht ht' h previewLength)
  exact ⟨hnext s, run_congr hnext s, calls_congr h.ignored hnext s⟩

/-- **Keywords may stand anywhere.** -/
theorem rearranged_scans (rs rs' : List Registration) :
    Registration.Rearranged rs rs' →
      ((∃ t records, Accepts {} rs t records) ↔ ∃ t records, Accepts {} rs' t records) ∧
      ∀ t t' records records', Accepts {} rs t records → Accepts {} rs' t' records' →
        ∀ (previewLength : Option Int) (s : Scan),
          s.next t' previewLength = s.next t previewLength ∧
          s.run t' previewLength = s.run t previewLength ∧
          ∀ n, s.calls t' previewLength n = s.calls t previewLength n := by
  intro hmoved
  refine ⟨exists_accepts_rearranged_iff wellFormed_empty hmoved, ?_⟩
  intro t t' records records' h h' previewLength s
  have ht : t.WellFormed := h.grows.wellFormed wellFormed_empty
  have ht' : t'.WellFormed := h'.grows.wellFormed wellFormed_empty
  have htables : KeywordsMoved t t' := h.keywordsMoved wellFormed_empty h' hmoved
  exact scans_eq_of_moved ht ht' htables previewLength s

end

attribute [local instance] Regex.plain

/-- A rule matches the literal of a keyword, which comes before it. -/
def early : List Registration :=
  [.keyword (.string "IF") (.string "if"), .ignore (.pattern (.literal " ")),
    .rule (.string "word") (.pattern (.literal "if"))]

/-- The keyword comes last. -/
def late : List Registration :=
  [.ignore (.pattern (.literal " ")), .rule (.string "word") (.pattern (.literal "if")),
    .keyword (.string "IF") (.string "if")]

theorem early_rearranged : Registration.Rearranged early late where
  perm := List.perm_append_singleton _ [_, _]
  ignores := rfl
  rules := rfl

theorem early_admitted : ({} : Table).Admits early where
  sound := by
    intro r hr
    simp only [early, List.mem_cons, List.not_mem_nil, or_false] at hr
    rcases hr with rfl | rfl | rfl
    · exact ⟨"IF", "if", rfl, by decide⟩
    · exact ⟨_, rfl⟩
    · exact ⟨_, rfl⟩
  names := by decide +kernel
  literals := by decide +kernel

/-- The rule wins where the keyword has won, and the token is the keyword's. -/
theorem rearranged_scans_late :
    Registration.Rearranged early late ∧ (∃ t records, Accepts {} early t records) ∧
      ∃ t records, Accepts {} late t records ∧
        t.longest "if" 0 = .ok (some (⟨"word", .literal "if"⟩, 2)) ∧
        ((start "if").run t none).tokens = [⟨"IF", "if", 1, 0⟩] := by
  obtain ⟨haccepts, hscans⟩ := rearranged_scans early late early_rearranged
  have hearly : ∃ t records, Accepts {} early t records :=
    (exists_accepts_iff wellFormed_empty).mpr early_admitted
  obtain ⟨t, records, h⟩ := id hearly
  obtain ⟨t', records', h'⟩ := haccepts.mp hearly
  refine ⟨early_rearranged, hearly, t', records', h', ?_, ?_⟩
  · rw [← h'.afterAll_eq]
    rfl
  · rw [(hscans t t' records records' h h' none (start "if")).2.1, ← h.afterAll_eq]
    decide +kernel

end Munch.Scan
