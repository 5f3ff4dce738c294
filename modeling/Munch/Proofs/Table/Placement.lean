import Munch.Proofs.Table.Accepting
import Munch.Proofs.Table.Keywords
import Munch.Proofs.Table.Order

/-! Where keywords stand.

Registrations may be rearranged so that keywords come earlier or later while the rest
stays in order (`Registration.Rearranged`). The tables they lead to have the same
plain rules in the same order, and the same keywords (`KeywordsMoved`). Which rule wins
may differ, but only where a keyword's literal has been matched, and there the keyword
map gives the name (`relabel_eq`). -/
namespace Munch

/-- Members of a list that give nothing may be left out. -/
theorem Table.filterMap_filter_eq {α β : Type} {keep : α → Bool} {f : α → Option β} {l : List α}
    (h : ∀ a ∈ l, keep a = false → f a = none) : (l.filter keep).filterMap f = l.filterMap f := by
  rw [List.filterMap_filter]
  refine List.filterMap_congr fun a ha => ?_
  by_cases hkeep : keep a = true
  · rw [if_pos hkeep]
  · rw [if_neg hkeep, h a ha (by simpa using hkeep)]

variable [Engine]

namespace Registration

def isIgnore : Registration → Bool
  | ignore _ => true
  | _ => false

def isRule : Registration → Bool
  | rule _ _ => true
  | _ => false

/-- The same registrations, those of patterns to ignore in the same order, and those of
rules, which leaves it to the keywords to come elsewhere. -/
structure Rearranged (rs rs' : List Registration) : Prop where
  perm : rs'.Perm rs
  ignores : rs'.filter isIgnore = rs.filter isIgnore
  rules : rs'.filter isRule = rs.filter isRule

end Registration

namespace Table
open Registration
variable {t t' : Table}

/-- Two tables that differ in the places of their keywords. -/
structure KeywordsMoved (t t' : Table) : Prop where
  ignored : t'.ignored = t.ignored
  plain : t'.plainRules = t.plainRules
  keywords : t'.keywords.Perm t.keywords

theorem Accepts.keywordsMoved {start : Table} (hstart : start.WellFormed)
    {rs rs' : List Registration} {records records' : List Record}
    (h : Accepts start rs t records) (h' : Accepts start rs' t' records')
    (hmoved : Rearranged rs rs') : KeywordsMoved t t' := by
  have hignores (rs : List Registration) :
      (rs.filter isIgnore).filterMap pattern? = rs.filterMap pattern? :=
    filterMap_filter_eq fun r _ hr => by cases r <;> trivial
  have hrules (rs : List Registration) :
      (rs.filter isRule).filterMap rule? = rs.filterMap rule? :=
    filterMap_filter_eq fun r _ hr => by cases r <;> trivial
  refine ⟨?_, ?_, ?_⟩
  · rw [h.ignored_eq hstart, h'.ignored_eq hstart, ← hignores rs', hmoved.ignores, hignores]
  · rw [h.plainRules_eq hstart, h'.plainRules_eq hstart, ← hrules rs', hmoved.rules, hrules]
  · rw [h.keywords_eq hstart, h'.keywords_eq hstart]
    exact (hmoved.perm.filterMap entry?).append_left _

/-- Rearranged registrations are accepted from where the others are. -/
theorem exists_accepts_rearranged_iff (ht : t.WellFormed) {rs rs' : List Registration}
    (hmoved : Rearranged rs rs') :
    (∃ t' records, Accepts t rs t' records) ↔ ∃ t' records, Accepts t rs' t' records := by
  rw [exists_accepts_iff ht, exists_accepts_iff ht]
  exact ⟨fun h => h.perm hmoved.perm, fun h => h.perm hmoved.perm.symm⟩

/-! ### Plain rules and keywords' rules -/

namespace WellFormed
variable {r : Rule}

/-- A rule that is not plain matches the literal of a keyword. -/
theorem exists_keyword (h : t.WellFormed) (hr : r ∈ t.rules) (hplain : t.isPlain r = false) :
    ∃ e ∈ t.keywords, r.name = e.2.kind ∧ r = ⟨e.2.kind, .literal e.1⟩ := by
  have hname : r.name ∈ t.keywords.map (·.2.kind) := by simpa [isPlain] using hplain
  obtain ⟨e, he, hkind⟩ := List.mem_map.mp hname
  exact ⟨e, he, hkind.symm, h.rule_eq_of_kind he hr hkind.symm⟩

theorem mem_rules_iff (h : t.WellFormed) :
    r ∈ t.rules ↔ r ∈ t.plainRules ∨ ∃ e ∈ t.keywords, r = ⟨e.2.kind, .literal e.1⟩ := by
  constructor
  · intro hr
    cases hplain : t.isPlain r with
    | true => exact .inl (List.mem_filter.mpr ⟨hr, hplain⟩)
    | false =>
      obtain ⟨e, he, -, heq⟩ := h.exists_keyword hr hplain
      exact .inr ⟨e, he, heq⟩
  · rintro (hr | ⟨e, he, rfl⟩)
    · exact (List.mem_filter.mp hr).1
    · exact h.rules_sublist.subset (List.mem_map_of_mem he)

/-- A rule that has matched text of no keyword is plain. -/
theorem isPlain_of_matched (h : t.WellFormed) (hr : r ∈ t.rules) {text : Text} {pos n : Nat}
    (hcheck : r.pattern.check text pos = .ok (some (n : Int)))
    (hnone : t.keywords.lookup ((text.drop pos).take n) = none) :
    t.isPlain r = true := by
  cases hplain : t.isPlain r with
  | true => rfl
  | false =>
    obtain ⟨e, he, hname, -⟩ := h.exists_keyword hr hplain
    rw [h.value_of_kind he hr hname hcheck, h.lookup_literal he] at hnone
    cases hnone

/-- Only plain rules can fail. -/
theorem findSome?_plainRules (h : t.WellFormed) (text : Text) (pos : Int) :
    t.plainRules.findSome? (failure? text pos) = t.rules.findSome? (failure? text pos) := by
  rw [← List.head?_filterMap, ← List.head?_filterMap, plainRules]
  refine congrArg List.head? (filterMap_filter_eq fun r hr hplain => ?_)
  obtain ⟨e, -, -, rfl⟩ := h.exists_keyword hr hplain
  rfl

end WellFormed

/-! ### What keywords that have moved leave as it was -/

namespace KeywordsMoved
variable (h : KeywordsMoved t t') (ht : t.WellFormed)
include h ht

theorem lookup_eq (value : Text) : t'.keywords.lookup value = t.keywords.lookup value :=
  lookup_perm ht.literals_distinct h.keywords value

variable (ht' : t'.WellFormed)
include ht'

theorem mem_rules_iff (r : Rule) : r ∈ t'.rules ↔ r ∈ t.rules := by
  rw [ht'.mem_rules_iff, ht.mem_rules_iff, h.plain]
  simp only [h.keywords.mem_iff]

theorem longest_sameLength (text : Text) (pos : Int) :
    SameLength (t.longest text pos) (t'.longest text pos) := by
  refine Table.longest_sameLength (h.mem_rules_iff ht ht') fun f => ?_
  rw [longest_eq_error_iff, longest_eq_error_iff, ← ht'.findSome?_plainRules, h.plain,
    ht.findSome?_plainRules]

/-- **The label stays the same**: where the text is no keyword's, the winners are plain
rules, and it is the first of these that wins in either table. -/
theorem relabel_eq {text : Text} {pos n : Nat} {r r' : Rule} (hr : Wins text pos t.rules r n)
    (hr' : Wins text pos t'.rules r' n) :
    t'.relabel r' ((text.drop pos).take n) =
      t.relabel r ((text.drop pos).take n) := by
  have hlookup := h.lookup_eq ht ((text.drop pos).take n)
  rw [relabel, relabel, hlookup]
  cases hl : t.keywords.lookup ((text.drop pos).take n) with
  | some token => rfl
  | none =>
    obtain ⟨i, hmem, hcheck, -⟩ := id hr
    obtain ⟨j, hmem', hcheck', -⟩ := id hr'
    have hplain := ht.isPlain_of_matched (List.mem_of_getElem? hmem) hcheck hl
    have hplain' := ht'.isPlain_of_matched (List.mem_of_getElem? hmem') hcheck' (hlookup.trans hl)
    have hwins : Wins text pos t.plainRules r n := hr.filter hplain
    have hwins' : Wins text pos t'.plainRules r' n := hr'.filter hplain'
    rw [h.plain] at hwins'
    obtain ⟨rfl, -⟩ := hwins.unique hwins'
    rfl

end KeywordsMoved

end Table
end Munch
