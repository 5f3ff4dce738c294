import Munch.Proofs.Scan.Lexing

/-! Looking ahead and consuming agree.

A pattern looks ahead and reports a length, and the scan then consumes as many characters
without another look. A length that a regular expression or a literal reports never reaches
past the end of the text. So with these patterns every piece has exactly the length that the
check deciding on it has reported, the end of the text cuts none of them short, and the
cursor stays within it (`next_consumes`). -/
namespace Munch
variable [Engine]

namespace Table

/-- The check that decides on a piece at an offset has reported its length. For a piece that
is ignored this is the first pattern that matches some characters; for a token, where all of
these match none, it is the longest rule. -/
inductive Decided (t : Table) (text : Text) (offset : Nat) : Piece → Prop
  | ignored {piece : Text} : First text offset t.ignored piece.length →
      Decided t text offset (.ignored piece)
  | token {token : Token} {r : Rule} : (∀ p ∈ t.ignored, Idle text offset p) →
      Wins text offset t.rules r token.value.length → Labels t r token.value token.kind →
      Decided t text offset (.token token)

/-- Pieces of a text are consumed from an offset to another one. Each is the text where the
one before it has ended, as long as the check deciding on it has reported. -/
inductive Consumes (t : Table) (text : Text) : Nat → List Piece → Nat → Prop
  | nil {offset} : Consumes t text offset [] offset
  | cons {offset piece pieces last} : offset < text.length → piece.text <+: text.drop offset →
      Decided t text offset piece →
      Consumes t text (offset + piece.text.length) pieces last →
      Consumes t text offset (piece :: pieces) last

variable {t : Table} {text : Text} {offset next last : Nat} {piece : Piece} {pieces : List Piece}

theorem First.le_length (h : ∀ p ∈ t.ignored, p.BuiltIn) (hoffset : offset ≤ text.length) {n : Nat}
    (hfirst : First text offset t.ignored n) : offset + n ≤ text.length := by
  obtain ⟨i, p, hp, hcheck, -⟩ := hfirst
  have hbound := (h p (List.mem_of_getElem? hp)).bounded text offset n hoffset hcheck
  omega

theorem Wins.le_length (h : ∀ r ∈ t.rules, r.pattern.BuiltIn) (hoffset : offset ≤ text.length)
    {r : Rule} {n : Nat} (hwins : Wins text offset t.rules r n) : offset + n ≤ text.length := by
  obtain ⟨i, hr, hcheck, -⟩ := hwins
  have hbound := (h r (List.mem_of_getElem? hr)).bounded text offset n hoffset hcheck
  omega

theorem Consumes.le_length (h : Consumes t text offset pieces last)
    (hoffset : offset ≤ text.length) : last ≤ text.length := by
  induction h with
  | nil => exact hoffset
  | cons hbefore hbegins _ _ ih =>
    apply ih
    have hlength := hbegins.length_le
    rw [List.length_drop] at hlength
    omega

/-- The end of the text cuts no piece short. -/
theorem Lexeme.decided (h : Lexeme t text offset piece next) (ht : t.BuiltIn) :
    offset < text.length ∧ piece.text <+: text.drop offset ∧ Decided t text offset piece ∧
      next = offset + piece.text.length := by
  have hlength (n : Nat) (hn : offset + n ≤ text.length) :
      ((text.drop offset).take n).length = n := by
    rw [List.length_take, List.length_drop]
    omega
  cases h with
  | @ignored n hbefore hfirst =>
    have hpiece := hlength n (hfirst.le_length ht.ignored (Nat.le_of_lt hbefore))
    refine ⟨hbefore, List.take_prefix n _, .ignored (hpiece.symm ▸ hfirst), ?_⟩
    show offset + n = offset + ((text.drop offset).take n).length
    rw [hpiece]
  | @token r n kind hbefore hidle hwins hlabels =>
    have hpiece := hlength n (hwins.le_length ht.rules (Nat.le_of_lt hbefore))
    have htext : (Piece.token (tokenAt kind text offset n)).text = (text.drop offset).take n := rfl
    have hvalue : (tokenAt kind text offset n).value.length = n := hpiece
    refine ⟨hbefore, htext ▸ List.take_prefix n _, .token hidle (hvalue.symm ▸ hwins) hlabels, ?_⟩
    rw [htext, hpiece]

theorem Lexes.consumes (h : Lexes t text offset pieces last) (ht : t.BuiltIn) :
    Consumes t text offset pieces last := by
  induction h with
  | nil => exact .nil
  | cons hpiece _ ih =>
    obtain ⟨hbefore, hbegins, hdecided, rfl⟩ := hpiece.decided ht
    exact .cons hbefore hbegins hdecided ih

end Table

namespace Scan
variable {t : Table} {s : Scan} (ht : t.WellFormed) (hbuiltIn : t.BuiltIn) (hs : s.Placed)
include ht hbuiltIn hs

/-- **A call consumes what checks have reported**, piece by piece. -/
theorem next_consumes (previewLength : Option Int) :
    t.Consumes s.input s.cursor (s.pieces t previewLength)
      (s.next t previewLength).scan.cursor :=
  (next_lexes ht (Table.ahead_of_builtIn hbuiltIn.ignored s.input) hs).consumes hbuiltIn

theorem next_cursor_le (previewLength : Option Int) (hcursor : s.cursor ≤ s.input.length) :
    (s.next t previewLength).scan.cursor ≤ (s.next t previewLength).scan.input.length := by
  obtain ⟨_, htakes⟩ := next_takes t previewLength s
  rw [htakes.input_eq]
  exact (next_consumes ht hbuiltIn hs previewLength).le_length hcursor

end Scan
end Munch
