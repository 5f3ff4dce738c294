import Munch.Proofs.Table.Adding

/-! One more rule.

A rule that is registered last wins where it matches more than any other one does
(`Exceeds`), and where it does not, the answer of the table is what it was
(`longest_of_not_exceeds`). The rule of a keyword matches as much as its literal has
characters, if it matches at all (`not_exceeds_literal`); and besides, the keyword gives its
name to text that other rules have matched (`relabel_addKeyword`). -/
namespace Munch
variable [Engine]

namespace Table
variable {t t' : Table} {text : Text} {p : Pattern} {name : Text}

/-- Some rule matches at least `n` characters at a place. -/
def Reaches (text : Text) (pos : Int) (rules : List Rule) (n : Int) : Prop :=
  ∃ r ∈ rules, ∃ m, r.pattern.check text pos = .ok (some m) ∧ n ≤ m

/-- A pattern matches some characters at a place, and more than any of the rules. -/
def Exceeds (text : Text) (pos : Int) (rules : List Rule) (p : Pattern) : Prop :=
  ∃ n, p.check text pos = .ok (some n) ∧ 0 < n ∧ ¬ Reaches text pos rules n

section Longest
variable {pos : Int}

/-- No rule matches more than the one that is chosen. -/
theorem atMost_lead {best : Option (Rule × Nat)} (h : t.longest text pos = .ok best) :
    ∀ q ∈ t.rules, AtMost text pos (lead best) q := by
  cases best with
  | none => exact atMost_of_longest h
  | some won =>
    obtain ⟨i, -, -, -, hmost, -⟩ := wins_of_longest (r := won.1) (n := won.2) h
    exact hmost

/-- A last rule that does not match more than the others decides nothing. -/
theorem longest_of_not_exceeds (hrules : t'.rules = t.rules ++ [⟨name, p⟩]) {answer : Option Int}
    (hcheck : p.check text pos = .ok answer) (h : ¬ Exceeds text pos t.rules p) :
    t'.longest text pos = t.longest text pos := by
  have happend : t'.longest text pos =
      t.longest text pos >>= fun best => longestFrom text pos best [⟨name, p⟩] := by
    rw [longest, hrules, longestFrom_append]
    rfl
  rw [happend]
  cases hl : t.longest text pos with
  | error f => rfl
  | ok best =>
    have hlead : ¬ lead best < (answer.getD 0).toNat := by
      intro hless
      have hn := check_of_lead (r := ⟨name, p⟩) hcheck (Nat.lt_of_le_of_lt (Nat.zero_le _) hless)
      refine h ⟨_, hn, by omega, ?_⟩
      rintro ⟨r, hr, m, hm, hle⟩
      have hmost := (atMost_lead hl r hr).le hm
      omega
    show longestFrom text pos best [⟨name, p⟩] = .ok best
    rw [longestFrom_cons [] hcheck, if_neg hlead, longestFrom]

end Longest

/-- A literal does not match more than the rules if they match as much where it stands. -/
theorem not_exceeds_literal {rules : List Rule} {l : Text} {pos : Nat}
    (h : l <+: text.drop pos → Reaches text pos rules l.length) :
    ¬ Exceeds text pos rules (.literal l) := by
  rintro ⟨n, hcheck, -, hnone⟩
  obtain ⟨hbegins, rfl⟩ := Pattern.prefix_of_checkLiteral (Except.ok.inj hcheck)
  exact hnone (h hbegins)

theorem ignored_addRule (t : Table) {kind : Registered} :
    (t.addRule name kind p).ignored = t.ignored := rfl

theorem ignored_addKeyword (t : Table) {literal : Text} :
    (t.addKeyword name literal).ignored = t.ignored := rfl

/-- A new keyword gives its name to its literal, and leaves the labels of other texts. -/
theorem relabel_addKeyword {l : Text} (hliteral : t.keywords.lookup l = none) (r : Rule)
    (value : Text) :
    (t.addKeyword name l).relabel r value = if value = l then (name, l) else t.relabel r value := by
  simp only [relabel, addKeyword, List.lookup_append, List.lookup_cons, List.lookup_nil]
  by_cases hvalue : value = l
  · subst hvalue
    simp [hliteral]
  · have hne : (value == l) = false := beq_eq_false_iff_ne.mpr hvalue
    simp [hvalue, hne]

end Table
end Munch
