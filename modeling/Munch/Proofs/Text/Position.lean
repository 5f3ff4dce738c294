import Mathlib.Data.List.TakeWhile
import Munch.Text.Position

/-! Positions counted from the beginning of a text.

`Position.advance` moves a position over one piece of text after the other.
`Position.ofText` counts the lines and the last line of a whole text at once. The
two agree wherever the text is split (`ofText_append`), so a position that was
carried along can always be counted anew. -/
namespace Munch

namespace Text

theorem lastLine_of_notMem (u : Text) (h : .char '\n' ∉ u) : u.lastLine = u := by
  have hall : ∀ c ∈ u.reverse, decide (c ≠ .char '\n') = true := by
    intro c hc
    exact decide_eq_true fun he => h (he ▸ List.mem_reverse.mp hc)
  rw [lastLine, List.takeWhile_eq_self_iff.mpr hall, List.reverse_reverse]

/-- The last line is what follows the last newline. -/
theorem lastLine_split (u v : Text) (h : .char '\n' ∉ v) : lastLine (u ++ .char '\n' :: v) = v := by
  have hall : ∀ c ∈ v.reverse, decide (c ≠ .char '\n') = true := by
    intro c hc
    exact decide_eq_true fun he => h (he ▸ List.mem_reverse.mp hc)
  have hrev : (u ++ .char '\n' :: v).reverse = v.reverse ++ .char '\n' :: u.reverse := by simp
  rw [lastLine, hrev, List.takeWhile_append_of_pos hall]
  simp

theorem exists_last_newline (u : Text) (h : .char '\n' ∈ u) :
    ∃ v w : Text, u = v ++ .char '\n' :: w ∧ .char '\n' ∉ w := by
  obtain ⟨w, v, hsplit, hw⟩ := List.eq_append_cons_of_mem (List.mem_reverse.mpr h)
  refine ⟨v.reverse, w.reverse, ?_, by simpa using hw⟩
  simpa using congrArg List.reverse hsplit

/-- A newline begins the last line anew, whatever came before. -/
theorem lastLine_append_of_mem (u v : Text) (h : .char '\n' ∈ v) :
    lastLine (u ++ v) = v.lastLine := by
  obtain ⟨a, b, rfl, hb⟩ := exists_last_newline v h
  rw [lastLine_split a b hb, ← List.append_assoc, lastLine_split _ b hb]

/-- Text without a newline continues the last line. -/
theorem lastLine_append_of_notMem (u v : Text) (h : .char '\n' ∉ v) :
    lastLine (u ++ v) = u.lastLine ++ v := by
  by_cases hu : .char '\n' ∈ u
  · obtain ⟨a, b, rfl, hb⟩ := exists_last_newline u hu
    rw [lastLine_split a b hb, List.append_assoc, List.cons_append,
      lastLine_split a (b ++ v) (by simp [hb, h])]
  · rw [lastLine_of_notMem u hu, lastLine_of_notMem (u ++ v) (by simp [hu, h])]

end Text

namespace Position

/-- The position after a text that began on line 1, in column 0: the number of
its newlines and the length of its last line. -/
def ofText (text : Text) : Position := ⟨1 + text.count (.char '\n'), text.lastLine.length⟩

/-- Reading two pieces one after the other is reading them at once. -/
theorem advance_append (p : Position) (u v : Text) :
    (p.advance u).advance v = p.advance (u ++ v) := by
  by_cases hv : .char '\n' ∈ v
  · have huv : .char '\n' ∈ u ++ v := List.mem_append_right u hv
    have hline : (p.advance u).line = p.line + u.count (.char '\n') := by
      by_cases hu : .char '\n' ∈ u
      · simp [advance, hu]
      · simp [advance, hu, List.count_eq_zero.mpr hu]
    rw [advance, if_pos hv, hline, advance, if_pos huv, Text.lastLine_append_of_mem u v hv,
      List.count_append]
    simp [Int.add_assoc]
  · by_cases hu : .char '\n' ∈ u
    · have huv : .char '\n' ∈ u ++ v := List.mem_append_left v hu
      have hcount : (u ++ v).count (.char '\n') = u.count (.char '\n') := by
        rw [List.count_append, List.count_eq_zero.mpr hv, Nat.add_zero]
      simp [advance, hv, hu, hcount, Text.lastLine_append_of_notMem u v hv]
    · simp [advance, hv, hu, Int.add_assoc]

theorem ofText_nil : ofText [] = {} := rfl

theorem advance_start (text : Text) : ({} : Position).advance text = ofText text := by
  by_cases h : .char '\n' ∈ text
  · simp [advance, ofText, h]
  · simp [advance, ofText, h, List.count_eq_zero.mpr h, Text.lastLine_of_notMem text h]

/-- A position counted up to a place and carried on from there is the position
counted up to the new place. -/
theorem ofText_append (u v : Text) : (ofText u).advance v = ofText (u ++ v) := by
  rw [← advance_start u, advance_append, advance_start]

end Position

end Munch
