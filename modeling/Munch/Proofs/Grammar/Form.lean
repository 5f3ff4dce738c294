import Mathlib.Data.List.Forall2
import Munch.Grammar

/-! The form of a grammar.

A grammar is written as an object. Either something is wrong with it as a whole, and
`Malformed` says what, or it lists items in three sections (`Lists`), each of which may
ask for a registration (`Item.Asks`). The entries that are registered are those of the
items (`entries_of_lists`), and there are entries unless the grammar is malformed
(`entries_of_malformed`, `malformed_or_lists`). -/
namespace Munch.Grammar

/-! ### Items -/

/-- An item of a grammar, by the section that it stands in. -/
inductive Item
  | ignore (v : Value)
  | keyword (v : Value)
  | rule (v : Value)

namespace Item

/-- What is wrong with an item that is not of the right form. -/
def fault : Item → GrammarFault
  | ignore v => .ignoreNotString v
  | keyword v => .badKeyword v
  | rule v => .badRule v

theorem pair?_eq_some {v : Value} {a b : Text} (h : pair? v = some (a, b)) :
    v = .list [.string a, .string b] := by
  unfold pair? at h
  split at h
  · cases h
    rfl
  · cases h

end Item

/-! ### Sections -/

/-- A section has items: those of its list, or none if it is missing. -/
inductive Section (members : List (Text × Value)) (name : Text) : List Value → Prop
  | missing : Value.member? members name = none → Section members name []
  | listed {items} : Value.member? members name = some (.list items) →
      Section members name items

/-- A section is there and is not a list. -/
def NotListed (members : List (Text × Value)) (name : Text) : Prop :=
  ∃ v, Value.member? members name = some v ∧ ∀ items, v ≠ .list items

/-- The first of the sections that is there and is not a list. -/
inductive FirstNotListed (members : List (Text × Value)) : List Text → Text → Prop
  | here {name rest} : NotListed members name → FirstNotListed members (name :: rest) name
  | later {name name' rest items} : Section members name items →
      FirstNotListed members rest name' → FirstNotListed members (name :: rest) name'

/-- The members whose names are not those of sections. -/
def unknown (members : List (Text × Value)) : List Text :=
  (members.map (·.1)).filter fun name => !sectionNames.contains name

/-- What is wrong with a grammar as a whole: it is no object, or it has members that are
no sections, or else the first section that is not a list. -/
inductive Malformed : Value → GrammarFault → Prop
  | notObject {v} : (∀ members, v ≠ .object members) → Malformed v .notObject
  | unknownSections {members names} : names ≠ [] → names.Pairwise (· ≤ ·) →
      names.Perm (unknown members) → Malformed (.object members) (.unknownSections names)
  | sectionNotList {members name} : unknown members = [] →
      FirstNotListed members sectionNames name →
      Malformed (.object members) (.sectionNotList name)

/-- The items of a grammar in the order of sections. -/
inductive Lists : Value → List Item → Prop
  | object {members ignored keywords rules} : unknown members = [] →
      Section members "ignore" ignored → Section members "keywords" keywords →
      Section members "rules" rules →
      Lists (.object members)
        (ignored.map .ignore ++ keywords.map .keyword ++ rules.map .rule)

section Members
variable {members : List (Text × Value)} {name : Text}

theorem section_or_notListed (members : List (Text × Value)) (name : Text) :
    (∃ items, Section members name items) ∨ NotListed members name := by
  cases h : Value.member? members name with
  | none => exact .inl ⟨[], .missing h⟩
  | some v =>
    cases v with
    | list items => exact .inl ⟨items, .listed h⟩
    | _ => exact .inr ⟨_, h, nofun⟩

theorem sections_or_firstNotListed (members : List (Text × Value)) (names : List Text) :
    (∃ listed, List.Forall₂ (Section members) names listed) ∨
      ∃ name, FirstNotListed members names name := by
  induction names with
  | nil => exact .inl ⟨[], .nil⟩
  | cons name rest ih =>
    rcases section_or_notListed members name with ⟨items, hitems⟩ | hnot
    · rcases ih with ⟨listed, hlisted⟩ | ⟨name', hfirst⟩
      · exact .inl ⟨items :: listed, .cons hitems hlisted⟩
      · exact .inr ⟨name', .later hitems hfirst⟩
    · exact .inr ⟨name, .here hnot⟩

theorem items_of_section {listed : List Value} (h : Section members name listed) :
    items members name = .ok listed := by
  cases h with
  | missing hnone => rw [items, hnone]
  | listed hsome => rw [items, hsome]

theorem items_of_notListed (h : NotListed members name) :
    items members name = .error (.sectionNotList name) := by
  obtain ⟨v, hv, hlist⟩ := h
  rw [items, hv]
  cases v with
  | list items => exact absurd rfl (hlist items)
  | _ => rfl

end Members

theorem pairwise_sort (names : List Text) :
    (names.mergeSort fun a b => a ≤ b).Pairwise (· ≤ ·) := by
  have hsorted : (names.mergeSort fun a b => a ≤ b).Pairwise
      (fun a b => decide (a ≤ b) = true) := by
    refine List.pairwise_mergeSort (fun a b c hab hbc => ?_) (fun a b => ?_) names
    · simp only [decide_eq_true_eq] at hab hbc ⊢
      exact Text.le_trans hab hbc
    · simpa using Text.le_total a b
  exact hsorted.imp of_decide_eq_true

theorem sort_eq_of_perm {names sorted : List Text} (hsorted : sorted.Pairwise (· ≤ ·))
    (hperm : sorted.Perm names) : names.mergeSort (fun a b => a ≤ b) = sorted :=
  List.Perm.eq_of_pairwise (fun _ _ _ _ hab hba => Text.le_antisymm hab hba)
    (pairwise_sort names) hsorted ((List.mergeSort_perm names _).trans hperm.symm)

/-- **Every definition is malformed or lists items.** -/
theorem malformed_or_lists (definition : Value) :
    (∃ fault, Malformed definition fault) ∨ ∃ listed, Lists definition listed := by
  cases definition with
  | object members =>
    by_cases hknown : unknown members = []
    · rcases sections_or_firstNotListed members sectionNames with ⟨listed, hlisted⟩ | ⟨name, hfirst⟩
      · obtain _ | ⟨hignored, _ | ⟨hkeywords, _ | ⟨hrules, -⟩⟩⟩ := hlisted
        exact .inr ⟨_, .object hknown hignored hkeywords hrules⟩
      · exact .inl ⟨_, .sectionNotList hknown hfirst⟩
    · have hne : (unknown members).mergeSort (fun a b => a ≤ b) ≠ [] :=
        fun hnil => hknown (List.perm_nil.mp (hnil ▸ (List.mergeSort_perm _ _).symm))
      exact .inl ⟨_, .unknownSections hne (pairwise_sort _) (List.mergeSort_perm _ _)⟩
  | _ => exact .inl ⟨_, .notObject nofun⟩

/-! ### Entries -/

variable [Engine]

namespace Item

/-- What an item of the right form asks for. -/
inductive Asks : Item → Registration → Prop
  | ignore {source} : Asks (.ignore (.string source)) (.ignore (.source source))
  | literal {literal} : Asks (.keyword (.string literal)) (.keyword (.string literal) .null)
  | keyword {name literal} :
      Asks (.keyword (.list [.string name, .string literal]))
        (.keyword (.string name) (.string literal))
  | rule {name source} :
      Asks (.rule (.list [.string name, .string source])) (.rule (.string name) (.source source))

def entry : Item → Entry
  | ignore v => ignoreEntry v
  | keyword v => keywordEntry v
  | rule v => ruleEntry v

theorem entry_of_asks {item : Item} {r : Registration} (h : item.Asks r) : item.entry = .ok r := by
  cases h <;> rfl

/-- An item that asks for nothing is an entry with a fault. -/
theorem entry_of_not_asks {item : Item} (h : ∀ r, ¬ item.Asks r) :
    item.entry = .error item.fault := by
  cases item with
  | ignore v =>
    cases v with
    | string source => exact absurd .ignore (h _)
    | _ => rfl
  | keyword v =>
    cases hpair : pair? v with
    | some texts =>
      obtain ⟨name, literal⟩ := texts
      obtain rfl := pair?_eq_some hpair
      exact absurd .keyword (h _)
    | none =>
      cases v with
      | string literal => exact absurd .literal (h _)
      | _ =>
        simp only [entry, keywordEntry, hpair]
        rfl
  | rule v =>
    cases hpair : pair? v with
    | some texts =>
      obtain ⟨name, source⟩ := texts
      obtain rfl := pair?_eq_some hpair
      exact absurd .rule (h _)
    | none =>
      simp only [entry, ruleEntry, hpair]
      rfl

end Item

section Members
variable {members : List (Text × Value)}

theorem entries_of_unknown (h : unknown members ≠ []) :
    entries (.object members) =
      .error (.unknownSections ((unknown members).mergeSort fun a b => a ≤ b)) := by
  have hempty : (unknown members).isEmpty = false := by simpa using h
  unfold unknown at hempty
  rw [entries]
  simp only [hempty]
  rfl

/-- Without unknown members, the sections are read in their order. -/
theorem entries_of_known (h : unknown members = []) :
    entries (.object members) = (do
      let ignored ← items members "ignore"
      let keywords ← items members "keywords"
      let rules ← items members "rules"
      return ignored.map ignoreEntry ++ keywords.map keywordEntry ++ rules.map ruleEntry) := by
  have hempty : (unknown members).isEmpty = true := by rw [h]; rfl
  unfold unknown at hempty
  rw [entries]
  simp only [hempty]
  rfl

end Members

theorem entries_of_lists {definition : Value} {listed : List Item} (h : Lists definition listed) :
    entries definition = .ok (listed.map Item.entry) := by
  cases h with
  | object hknown hignored hkeywords hrules =>
    rw [entries_of_known hknown, items_of_section hignored, items_of_section hkeywords,
      items_of_section hrules]
    simp only [List.map_append, List.map_map]
    rfl

theorem entries_of_malformed {definition : Value} {fault : GrammarFault}
    (h : Malformed definition fault) : entries definition = .error fault := by
  cases h with
  | notObject hv =>
    cases definition with
    | object members => exact absurd rfl (hv members)
    | _ => rfl
  | unknownSections hne hsorted hperm =>
    have hunknown : unknown _ ≠ [] := fun hnil => hne (List.perm_nil.mp (hnil ▸ hperm))
    rw [entries_of_unknown hunknown, sort_eq_of_perm hsorted hperm]
  | @sectionNotList members name hknown hfirst =>
    rw [entries_of_known hknown]
    cases hfirst with
    | here hignored =>
      rw [items_of_notListed hignored]
      rfl
    | later hignored hfirst =>
      rw [items_of_section hignored]
      cases hfirst with
      | here hkeywords =>
        rw [items_of_notListed hkeywords]
        rfl
      | later hkeywords hfirst =>
        rw [items_of_section hkeywords]
        cases hfirst with
        | here hrules =>
          rw [items_of_notListed hrules]
          rfl
        | later _ hfirst => cases hfirst

end Munch.Grammar
