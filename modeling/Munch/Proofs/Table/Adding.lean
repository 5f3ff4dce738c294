import Munch.Proofs.Table.Keywords

/-! A rule for what nothing matches.

Where no rule of a table matches a character, one that is registered afterwards and
matches some is the longest (`longest_added`). What it matches is called by its own name,
be it a keyword's rule or not (`Registers.relabel_added`): the text is the literal of no
keyword that was there, whose rule would have matched it (`lookup_of_unmatched`). -/
namespace Munch
variable [Engine]

namespace Table
variable {t t' : Table} {text : Text}

/-- Going through rules one list after the other is going through them at once. -/
theorem longestFrom_append {pos : Int} (best : Option (Rule × Nat)) (rules rest : List Rule) :
    longestFrom text pos best (rules ++ rest) =
      longestFrom text pos best rules >>= fun best => longestFrom text pos best rest := by
  induction rules generalizing best with
  | nil => rfl
  | cons q rules ih =>
    rw [List.cons_append]
    cases hq : q.pattern.check text pos with
    | error f =>
      rw [longestFrom, longestFrom, hq]
      rfl
    | ok answer =>
      rw [longestFrom_cons _ hq, longestFrom_cons _ hq]
      exact ih _

/-- A rule that matches some characters where no other one does is the longest. -/
theorem longest_added {pos : Int} {r : Rule} {n : Nat} (hrules : t'.rules = t.rules ++ [r])
    (hnone : t.longest text pos = .ok none)
    (hcheck : r.pattern.check text pos = .ok (some (n : Int))) (hn : 0 < n) :
    t'.longest text pos = .ok (some (r, n)) := by
  have hlast : longestFrom text pos none [r] = .ok (some (r, n)) := by
    rw [longestFrom_cons [] hcheck]
    simp [lead, hn, longestFrom]
  unfold longest at hnone ⊢
  rw [hrules, longestFrom_append, hnone]
  exact hlast

/-- The text where no rule matches does not begin with the literal of a keyword. -/
theorem lookup_of_unmatched (ht : t.WellFormed) {pos : Nat} (hpos : pos ≤ text.length)
    (hnone : t.longest text pos = .ok none) (n : Nat) :
    t.keywords.lookup ((text.drop pos).take n) = none := by
  cases hl : t.keywords.lookup ((text.drop pos).take n) with
  | none => rfl
  | some token =>
    generalize hvalue : ((text.drop pos).take n) = value at hl
    have he := mem_of_lookup hl
    have hrule : ⟨token.kind, .literal value⟩ ∈ t.rules :=
      ht.rules_sublist.subset (List.mem_map_of_mem he)
    have hbegins : value <+: text.drop pos := by
      rw [← hvalue]
      exact List.take_prefix ..
    have hcheck : Pattern.check (.literal value) text pos = .ok (some (value.length : Int)) :=
      congrArg Except.ok (Pattern.checkLiteral_of_prefix hpos hbegins)
    have hlength : (value.length : Int) ≤ 0 := (atMost_of_longest hnone _ hrule).le hcheck
    have hne : value ≠ [] := ht.literal_ne _ he
    have hempty : value.length = 0 := by omega
    exact absurd (List.length_eq_zero_iff.mp hempty) hne

/-- What a rule that was registered has matched is called by its name, if it was the
literal of no keyword before. -/
theorem Registers.relabel_added {r : Registration} {record : Record}
    (h : Registers t r t' record) {name : Text} {p : Pattern}
    (hrules : t'.rules = t.rules ++ [⟨name, p⟩]) {pos n : Nat}
    (hcheck : p.check text pos = .ok (some (n : Int)))
    (hnone : t.keywords.lookup ((text.drop pos).take n) = none) :
    t'.relabel ⟨name, p⟩ ((text.drop pos).take n) =
      (name, ((text.drop pos).take n)) := by
  cases h with
  | ignore _ => simp [addIgnored] at hrules
  | rule _ _ => simp [relabel, addRule, hnone]
  | @keyword _ _ m l _ hname hliteral hne =>
    obtain ⟨rfl, rfl⟩ : m = name ∧ .literal l = p := by simpa [addKeyword, addRule] using hrules
    have hvalue : (text.drop pos).take n = l :=
      Pattern.take_of_checkLiteral (Except.ok.inj hcheck)
    simp [relabel, addKeyword, hvalue, List.lookup_append, hliteral]

end Table
end Munch
