import Munch.Proofs.Text.Position

/-! Where in a text a position is.

A position is found again by going over the lines of the text: all lines before it, with
their newlines, and then the column (`Position.offsetIn`). This is the way back from the
position that is counted at an offset (`offsetIn_ofText`), so no two offsets have one
position; and a later offset has a later position (`ofText_precedes`), be there newlines
between the two or not. -/
namespace Munch

namespace Text

theorem length_splitOn {α : Type} [BEq α] [LawfulBEq α] (a : α) (l : List α) :
    (l.splitOn a).length = l.count a + 1 := by
  induction l with
  | nil => rfl
  | cons b rest ih =>
    rw [List.splitOn_cons_eq_if_modifyHead, List.count_cons]
    cases b == a with
    | true => simp [ih]
    | false => simp [ih]

/-- The characters of lines, with a newline after each of them. -/
def extent : List Text → Nat
  | [] => 0
  | line :: lines => line.length + 1 + extent lines

/-- The lines of a text have its characters, and a newline that the last one lacks. -/
theorem extent_splitOn (text : Text) : extent (text.splitOn (.char '\n')) = text.length + 1 := by
  induction text with
  | nil => rfl
  | cons c rest ih =>
    rw [List.splitOn_cons_eq_if_modifyHead, List.length_cons]
    by_cases hc : c = .char '\n'
    · rw [if_pos (beq_iff_eq.mpr hc), extent, ih, List.length_nil]
      omega
    · obtain ⟨first, others, hlines⟩ :=
        List.exists_cons_of_ne_nil (List.splitOn_ne_nil (.char '\n') rest)
      rw [hlines, extent] at ih
      rw [if_neg (mt beq_iff_eq.mp hc), hlines, List.modifyHead_cons, extent,
        List.length_cons]
      omega

end Text

namespace Position

/-- The offset of a position in a text: that of its line, and the column. -/
def offsetIn (text : Text) (p : Position) : Int :=
  Text.extent ((text.splitOn (.char '\n')).take (p.line - 1).toNat) + p.column

/-- The position after a beginning of a text has the offset after it. -/
theorem offsetIn_append (u v : Text) : (ofText u).offsetIn (u ++ v) = u.length := by
  by_cases hu : .char '\n' ∈ u
  · -- The lines that are complete before the offset are those of `a`.
    obtain ⟨a, b, rfl, hb⟩ := Text.exists_last_newline u hu
    have hlines :
        ((a ++ .char '\n' :: b ++ v).splitOn (.char '\n')).take (a.count (.char '\n') + 1) =
          a.splitOn (.char '\n') := by
      rw [List.append_assoc, List.cons_append, List.splitOn_append_cons_self]
      exact List.take_left' (Text.length_splitOn (.char '\n') a)
    have hline : ((ofText (a ++ .char '\n' :: b)).line - 1).toNat = a.count (.char '\n') + 1 := by
      simp only [ofText, List.count_append, List.count_cons_self, List.count_eq_zero.mpr hb]
      omega
    have hcolumn : (ofText (a ++ .char '\n' :: b)).column = b.length := by
      show ((Text.lastLine (a ++ .char '\n' :: b)).length : Int) = b.length
      rw [Text.lastLine_split a b hb]
    rw [offsetIn, hline, hlines, hcolumn, Text.extent_splitOn, List.length_append, List.length_cons]
    omega
  · simp [offsetIn, ofText, List.count_eq_zero.mpr hu, Text.lastLine_of_notMem u hu, Text.extent]

/-- **The offset of the position at an offset** is this offset. -/
theorem offsetIn_ofText {text : Text} {n : Nat} (h : n ≤ text.length) :
    (ofText (text.take n)).offsetIn text = n := by
  have hoffset := offsetIn_append (text.take n) (text.drop n)
  rwa [List.take_append_drop, List.length_take, Nat.min_eq_left h] at hoffset

/-- On an earlier line, or before on the same one. -/
def Precedes (p q : Position) : Prop := p.line < q.line ∨ p.line = q.line ∧ p.column < q.column

theorem advance_precedes (p : Position) {text : Text} (h : text ≠ []) :
    p.Precedes (p.advance text) := by
  unfold advance
  by_cases hnewline : .char '\n' ∈ text
  · have hcount := List.count_pos_iff.mpr hnewline
    rw [if_pos hnewline]
    left
    show p.line < p.line + text.count (.char '\n')
    omega
  · have hlength := List.length_pos_iff.mpr h
    rw [if_neg hnewline]
    right
    refine ⟨rfl, ?_⟩
    show p.column < p.column + text.length
    omega

/-- **A later offset has a later position.** -/
theorem ofText_precedes {text : Text} {m n : Nat} (hmn : m < n) (hm : m < text.length) :
    (ofText (text.take m)).Precedes (ofText (text.take n)) := by
  have hsplit : text.take n = text.take m ++ (text.drop m).take (n - m) := by
    rw [← List.take_add]
    congr 1
    omega
  have hne : (text.drop m).take (n - m) ≠ [] := by
    apply List.length_pos_iff.mp
    simp only [List.length_take, List.length_drop]
    omega
  rw [hsplit, ← ofText_append]
  exact advance_precedes _ hne

end Position
end Munch
