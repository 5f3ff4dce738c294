import Munch.Proofs.Scan.Calls
import Munch.Regex

/-! Scanning loses nothing.

However many calls of `next` are made, and however many of them fail, the pieces
that were taken make up the text before the cursor, in order and without gaps, and
the log has one line for each of them. At the end of the input they make up the
whole text (`calls_lossless`). A piece that ends up as a token is compared by the
token's value, which a keyword may have replaced. -/
namespace Munch.Scan

@[simp] theorem start_taken (text : Text) : (start text).taken = [] := rfl

section

/-- What was taken from the beginning is the text before the cursor. -/
theorem Takes.flatten_eq {text : Text} {ps : List Text} {s : Scan}
    (h : Takes (start text) ps s) : ps.flatten = text.take s.cursor := by
  have htaken := h.taken_eq
  rw [start_taken, List.nil_append, taken, h.input_eq] at htaken
  exact htaken.symm

theorem Takes.flatten_eq_of_exhausted {text : Text} {ps : List Text} {s : Scan}
    (h : Takes (start text) ps s) (he : s.exhausted = true) : ps.flatten = text := by
  have hend := exhausted_iff.mp he
  rw [h.input_eq] at hend
  rw [h.flatten_eq]
  exact List.take_of_length_le hend

variable [Engine]

/-- **Scanning loses nothing**, in any table that registrations lead to. -/
theorem calls_lossless (registrations : List Registration) (text : Text)
    (previewLength : Option Int) (n : Nat) :
    let t := ({} : Table).afterAll registrations
    let h := (start text).calls t previewLength n
    (∀ p ∈ h.pieces, p.text ≠ []) ∧
      (h.pieces.map Piece.text).flatten = text.take h.scan.cursor ∧
      h.records.map (fun r => (r.origin, r.message)) =
        h.pieces.map (fun p => ("rulelex.scanner", p.message)) ∧
      ((h.scan.next t previewLength).result = .ok none →
        (((start text).calls t previewLength (n + 1)).pieces.map Piece.text).flatten = text) := by
  intro t h
  have ht : t.WellFormed := (Table.afterAll_grows {} registrations).wellFormed
    Table.wellFormed_empty
  have htakes (m : Nat) := calls_takes t previewLength ht (start text) m
  refine ⟨?_, (htakes n).flatten_eq, ?_, fun hend => ?_⟩
  · intro p hp
    exact (htakes n).ne_nil p.text (List.mem_map_of_mem hp)
  · rw [calls_records, List.map_map]
    refine List.map_congr_left fun p _ => ?_
    show (p.record.origin, p.record.message) = _
    rw [Piece.record_origin, Piece.record_message]
  · exact (htakes (n + 1)).flatten_eq_of_exhausted
      (exhausted_of_end (next_nexts t previewLength h.scan) hend)

end

attribute [local instance] Regex.plain

/-- Blanks are ignored, `if` is a keyword, and a rule reports two characters
everywhere. -/
def pairs : List Registration :=
  [.ignore (.pattern (.literal " ")),
    .rule (.string "pair") (.pattern (.custom ⟨"pair", fun _ _ => .ok (some 2)⟩)),
    .keyword (.string "if") .null]

/-- The last character is a token although the rule reports two, and the call after
it finds the end. -/
theorem calls_lossless_pairs :
    (((start " ifx").calls (({} : Table).afterAll pairs) none 2).scan.next
        (({} : Table).afterAll pairs) none).result = .ok none ∧
      (((start " ifx").calls (({} : Table).afterAll pairs) none 3).pieces.map
        Piece.text).flatten = " ifx" := by
  have hend : (((start " ifx").calls (({} : Table).afterAll pairs) none 2).scan.next
      (({} : Table).afterAll pairs) none).result = .ok none := by decide +kernel
  exact ⟨hend, (calls_lossless pairs _ none 2).2.2.2 hend⟩

end Munch.Scan
