import Munch.Proofs.Table.Matching
import Munch.Proofs.Table.Names

/-! Keywords and their rules.

The rule of a keyword matches the keyword's literal and nothing else
(`take_of_checkLiteral`), and no other rule has its name. So a text that has been
matched is called by the name of a keyword exactly if it is the keyword's literal,
whichever rule has matched it (`relabel_kind_iff`). -/
namespace Munch

namespace Pattern

theorem literalStart_natCast (text : Text) (pos : Nat) : literalStart text pos = pos := by
  have hpos : ¬ (pos : Int) < 0 := by omega
  rw [literalStart, if_neg hpos, Int.toNat_natCast]

theorem checkLiteral_of_prefix {l : Text} {text : Text} {pos : Nat} (hpos : pos ≤ text.length)
    (h : l <+: text.drop pos) : checkLiteral l text pos = some (l.length : Int) := by
  simp only [checkLiteral, literalStart_natCast]
  exact if_pos ⟨hpos, List.isPrefixOf_iff_prefix.mpr h⟩

theorem prefix_of_checkLiteral {l : Text} {text : Text} {pos : Nat} {n : Int}
    (h : checkLiteral l text pos = some n) : l <+: text.drop pos ∧ n = l.length := by
  simp only [checkLiteral, literalStart_natCast, Option.ite_none_right_eq_some,
    Option.some.injEq] at h
  exact ⟨List.isPrefixOf_iff_prefix.mp h.1.2, h.2.symm⟩

/-- What a literal matches is the literal. -/
theorem take_of_checkLiteral {l : Text} {text : Text} {pos n : Nat}
    (h : checkLiteral l text pos = some (n : Int)) : (text.drop pos).take n = l := by
  obtain ⟨hbegins, hlength⟩ := prefix_of_checkLiteral h
  have hn : n = l.length := by
    omega
  rw [hn]
  exact (List.prefix_iff_eq_take.mp hbegins).symm

end Pattern

namespace Table.WellFormed
variable [Engine] {t : Table} {e : Text × Token} {r : Rule}

theorem lookup_literal (h : t.WellFormed) (he : e ∈ t.keywords) :
    t.keywords.lookup e.1 = some e.2 := lookup_of_mem h.literals_distinct he

/-- Keywords of one name are one keyword. -/
theorem keyword_eq_of_kind (h : t.WellFormed) (he : e ∈ t.keywords) {e' : Text × Token}
    (he' : e' ∈ t.keywords) (hkind : e'.2.kind = e.2.kind) : e' = e :=
  List.inj_on_of_nodup_map h.kinds_nodup he' he hkind

/-- A rule with the name of a keyword matches its literal. -/
theorem rule_eq_of_kind (h : t.WellFormed) (he : e ∈ t.keywords) (hr : r ∈ t.rules)
    (hname : r.name = e.2.kind) : r = ⟨e.2.kind, .literal e.1⟩ := by
  have hmem : r ∈ t.rules.filter (fun r => r.name = e.2.kind) :=
    List.mem_filter.mpr ⟨hr, by simpa using hname⟩
  rw [h.rules_of_kind he] at hmem
  exact List.mem_singleton.mp hmem

/-- What a rule with the name of a keyword has matched is the keyword's literal. -/
theorem value_of_kind (h : t.WellFormed) (he : e ∈ t.keywords) (hr : r ∈ t.rules)
    (hname : r.name = e.2.kind) {text : Text} {pos n : Nat}
    (hcheck : r.pattern.check text pos = .ok (some (n : Int))) :
    ((text.drop pos).take n) = e.1 := by
  obtain rfl := h.rule_eq_of_kind he hr hname
  rw [Pattern.take_of_checkLiteral (Except.ok.inj hcheck)]

/-- A text that a rule has matched gets the name of a keyword exactly if it is the
keyword's literal. -/
theorem relabel_kind_iff (h : t.WellFormed) (he : e ∈ t.keywords) (hr : r ∈ t.rules) {text : Text}
    {pos n : Nat} (hcheck : r.pattern.check text pos = .ok (some (n : Int))) :
    (t.relabel r ((text.drop pos).take n)).1 = e.2.kind ↔
      ((text.drop pos).take n) = e.1 := by
  rw [relabel]
  cases hl : t.keywords.lookup ((text.drop pos).take n) with
  | some token =>
    have hmem := mem_of_lookup hl
    constructor
    · intro hkind
      exact congrArg Prod.fst (h.keyword_eq_of_kind he hmem hkind)
    · intro hvalue
      rw [hvalue, h.lookup_literal he] at hl
      cases hl
      rfl
  | none =>
    have hne : ((text.drop pos).take n) ≠ e.1 := by
      intro hvalue
      rw [hvalue, h.lookup_literal he] at hl
      cases hl
    constructor
    · intro hname
      exact h.value_of_kind he hr hname hcheck
    · intro hvalue
      exact absurd hvalue hne

end Table.WellFormed
end Munch
