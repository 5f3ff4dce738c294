import Munch.Proofs.Text.Offset

/-! Advancing by pieces, and by characters.

`Position.advance` looks at the lines of a whole piece of text (`advance_eq_lines`). Still it
makes no difference how a text is cut into pieces, be it between two lines or within one:
texts act on positions (`advance_acts`), and what they do is what their characters do one by
one (`step`). A newline begins a line; any other character is one more column, a carriage
return and the line separators of Unicode among them. -/
namespace Munch

/-- The last of the lines of a text is what follows its last newline. -/
theorem Text.getLast_splitOn (text : Text) :
    (text.splitOn (.char '\n')).getLast (List.splitOn_ne_nil (.char '\n') text) =
      text.lastLine := by
  by_cases h : .char '\n' ∈ text
  · obtain ⟨u, v, rfl, hv⟩ := exists_last_newline text h
    simp only [List.splitOn_append_cons_self, List.splitOn_eq_singleton hv]
    rw [lastLine_split u v hv, List.getLast_append_of_ne_nil _ (List.cons_ne_nil v [])]
    rfl
  · simp only [List.splitOn_eq_singleton h]
    exact (lastLine_of_notMem text h).symm

namespace Position

/-- A piece of one line adds its length to the column. One of several lines adds their number
but one to the line, and the column is the length of the last. -/
theorem advance_eq_lines (p : Position) (text : Text) :
    let lines := text.splitOn (.char '\n')
    p.advance text =
      if lines.length = 1 then ⟨p.line, p.column + text.length⟩
      else ⟨p.line + lines.length - 1,
        (lines.getLast (List.splitOn_ne_nil (.char '\n') text)).length⟩ := by
  intro lines
  have hlength : lines.length = text.count (.char '\n') + 1 := Text.length_splitOn (.char '\n') text
  rw [Text.getLast_splitOn, hlength]
  unfold advance
  by_cases h : .char '\n' ∈ text
  · have hcount := List.count_pos_iff.mpr h
    rw [if_pos h, if_neg (by omega)]
    congr 1
    omega
  · have hcount := List.count_eq_zero.mpr h
    rw [if_neg h, if_pos (by omega)]

/-- The position after one character. -/
def step (p : Position) (c : Point) : Position :=
  if c = .char '\n' then ⟨p.line + 1, 0⟩ else ⟨p.line, p.column + 1⟩

theorem advance_singleton (p : Position) (c : Point) : p.advance [c] = p.step c := by
  by_cases h : c = .char '\n'
  · subst h
    rfl
  · simp [advance, step, h, Ne.symm h]

theorem advance_cons (p : Position) (c : Point) (text : Text) :
    p.advance (c :: text) = (p.step c).advance text := by
  rw [← advance_singleton, advance_append]
  rfl

/-- Advancing by a text is advancing by its characters, one after the other. -/
theorem advance_eq_foldl (p : Position) (text : Text) : p.advance text = text.foldl step p := by
  induction text generalizing p with
  | nil => exact advance_nil p
  | cons c rest ih => rw [advance_cons, List.foldl_cons, ih]

/-- Advancing by pieces, one after the other, is advancing by all of their text at once. -/
theorem foldl_advance (p : Position) (pieces : List Text) :
    pieces.foldl advance p = p.advance pieces.flatten := by
  induction pieces generalizing p with
  | nil => exact (advance_nil p).symm
  | cons piece rest ih => rw [List.foldl_cons, ih, advance_append, List.flatten_cons]

/-- **Texts act on positions**: from any position, one piece after the other leads where both
at once lead, and no text leads nowhere. So pieces lead where all of their text leads, however
many they are, and this is where its characters lead one by one. -/
theorem advance_acts (p : Position) :
    (∀ u v : Text, (p.advance u).advance v = p.advance (u ++ v)) ∧
    p.advance [] = p ∧
    (∀ pieces : List Text, pieces.foldl advance p = p.advance pieces.flatten) ∧
    ∀ text : Text, p.advance text = text.foldl step p :=
  ⟨advance_append p, advance_nil p, foldl_advance p, advance_eq_foldl p⟩

/-- Of the characters that break lines, the newline alone begins one. -/
example : (⟨3, -2⟩ : Position).advance "\r\u2028\na\x0b\x85" = ⟨4, 3⟩ := by
  decide

end Position
end Munch
