import Munch.Proofs.Session.Reached
import Munch.Proofs.Table.Names

/-! The tables of sessions.

A session's table comes from registrations, one at a time or by a grammar, and a
command that fails may have made some of them. `after_table_agrees` is what can be
relied on at any time. -/
namespace Munch.Session
variable [Engine]

theorem after_table_wellFormed (previewLength : Option Int) (commands : List Command) :
    (({ previewLength } : Session).after commands).table.WellFormed :=
  (after_table_grows { previewLength } commands).wellFormed Table.wellFormed_empty

/-- **Names, rules and keywords agree** in every table that a session comes to, and
one more command only adds to it. -/
theorem after_table_agrees (previewLength : Option Int) (commands : List Command)
    (command : Command) :
    let s := ({ previewLength } : Session).after commands
    let t := s.table
    (t.rules.map (·.name)).Nodup ∧
      t.names.map (·.1) = t.rules.map (·.name) ∧
      (∀ e ∈ t.keywords, e.1 ≠ [] ∧ ∃ name, e.2 = ⟨name, e.1, -1, -1⟩ ∧
        t.rules.filter (fun r => r.name = name) = [⟨name, .literal e.1⟩] ∧
        t.names.lookup name = some .keyword) ∧
      (t.keywords.map (·.1)).Nodup ∧
      (t.keywords.map (·.2.kind)).Nodup ∧
      (∀ name, t.names.lookup name = some .keyword →
        ∃ e, t.keywords.filter (fun e => e.2.kind = name) = [e]) ∧
      (t.keywords.map fun e => Rule.mk e.2.kind (.literal e.1)).Sublist t.rules ∧
      (s.step command).session.table.Extends t := by
  intro s t
  have h : t.WellFormed := after_table_wellFormed previewLength commands
  refine ⟨h.distinct, h.names_eq, fun e he => ⟨h.literal_ne e he, e.2.kind, ?_⟩,
    h.literals_distinct, h.kinds_nodup, fun name hname => h.keywords_of_name hname,
    h.rules_sublist, (step_table_grows s command).extends⟩
  exact ⟨h.token_eq e he, h.rules_of_kind he, h.lookup_kind he⟩

end Munch.Session
