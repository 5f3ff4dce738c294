import Munch.Proofs.Grammar.Loading
import Munch.Proofs.Session.Tables
import Munch.Proofs.Table.Refusing
import Munch.Regex

/-! What registering comes to.

A registration is refused for the first thing that it lacks, and then the session is what
it was, or it is granted, and then the table is longer by one entry in each list that it
concerns (`Refused`, `Granted`). Which of the two it is can be read off the rules and the
keywords of the table: a name is in use if it is a plain rule's or a keyword's
(`lookup_names_iff`). `after_registration` goes through all registrations. -/
namespace Munch

/-- A value, or another one if it is null. -/
def Value.or (v other : Value) : Value :=
  match v with
  | null => other
  | v => v

namespace Table

/-- A keyword has a name and a literal, each for the other if that is null. -/
theorem keywordTexts_of_or {name literal : Value} (h : ¬ (name = .null ∧ literal = .null)) :
    keywordTexts name literal = .ok ((name.or literal).plain, (literal.or name).plain) := by
  cases name with
  | null =>
    cases literal with
    | null => exact absurd ⟨rfl, rfl⟩ h
    | _ => rfl
  | _ => cases literal <;> rfl

section
variable [Engine]

/-! ### Names in use -/

/-- A name is in use: it is a keyword's, or that of a rule that is no keyword's. -/
inductive Uses (t : Table) (name : Text) : Registered → Prop
  | keyword {e} : e ∈ t.keywords → e.2.kind = name → Uses t name .keyword
  | rule {r} : r ∈ t.plainRules → r.name = name → Uses t name .rule

/-- No name is registered as a literal. -/
def NamesRules (t : Table) : Prop := ∀ entry ∈ t.names, entry.2 ≠ .literal

theorem Registers.namesRules {t t' : Table} {r : Registration} {record : Record}
    (h : Registers t r t' record) (ht : t.NamesRules) : t'.NamesRules := by
  cases h with
  | ignore _ => exact ht
  | rule _ _ | keyword _ _ _ _ => exact List.forall_mem_append.mpr ⟨ht, by simp⟩

theorem Grows.namesRules {t : Table} (h : Grows {} t) : t.NamesRules :=
  h.preserves (fun _ _ _ _ hr => hr.namesRules) fun _ hmem => nomatch hmem

section Names
variable {t : Table} {name literal : Text} {kind : Registered}

theorem WellFormed.mem_keywords_of_name (ht : t.WellFormed)
    (hname : t.names.lookup name = some .keyword) : ∃ e ∈ t.keywords, e.2.kind = name := by
  obtain ⟨e, he⟩ := ht.keywords_of_name hname
  obtain ⟨hmem, hkind⟩ := List.mem_filter.mp (he ▸ List.mem_singleton_self e)
  exact ⟨e, hmem, of_decide_eq_true hkind⟩

/-- The names in use are those of keywords and plain rules. -/
theorem lookup_names_iff (ht : t.WellFormed) (hnames : t.NamesRules) :
    t.names.lookup name = some kind ↔ t.Uses name kind := by
  constructor
  · intro hlookup
    have hmem := mem_of_lookup hlookup
    cases kind with
    | keyword =>
      obtain ⟨e, he, hkind⟩ := ht.mem_keywords_of_name hlookup
      exact .keyword he hkind
    | rule =>
      have hname : name ∈ t.rules.map (·.name) := ht.names_eq ▸ List.mem_map_of_mem hmem
      obtain ⟨r, hr, rfl⟩ := List.mem_map.mp hname
      refine .rule (List.mem_filter.mpr ⟨hr, isPlain_iff.mpr fun hkeyword => ?_⟩) rfl
      obtain ⟨e, he, hkind⟩ := List.mem_map.mp hkeyword
      cases hlookup.symm.trans (hkind ▸ ht.lookup_kind he)
    | literal => exact absurd rfl (hnames _ hmem)
  · rintro (⟨he, rfl⟩ | ⟨hr, rfl⟩)
    · exact ht.lookup_kind he
    · obtain ⟨hr, hplain⟩ := List.mem_filter.mp hr
      have hin : _ ∈ t.names.map (·.1) := ht.names_eq ▸ List.mem_map_of_mem hr
      obtain ⟨⟨name, registered⟩, hmem, hname⟩ := List.mem_map.mp hin
      have hlookup := lookup_of_mem ht.names_nodup hmem
      rw [← hname]
      cases registered with
      | rule => exact hlookup
      | keyword =>
        obtain ⟨e, he, hkind⟩ := ht.mem_keywords_of_name hlookup
        exact absurd (List.mem_map.mpr ⟨e, he, hkind.trans hname⟩) (isPlain_iff.mp hplain)
      | literal => exact absurd rfl (hnames _ hmem)

theorem lookup_names_eq_none (ht : t.WellFormed) (hnames : t.NamesRules)
    (h : ∀ kind, ¬ t.Uses name kind) : t.names.lookup name = none :=
  Option.eq_none_iff_forall_ne_some.mpr fun kind hlookup =>
    h kind ((lookup_names_iff ht hnames).mp hlookup)

theorem exists_lookup_literal (h : literal ∈ t.keywords.map (·.1)) :
    ∃ token, t.keywords.lookup literal = some token := by
  cases hlookup : t.keywords.lookup literal with
  | none => exact absurd h (notMem_of_lookup hlookup)
  | some token => exact ⟨token, rfl⟩

end Names

/-! ### Refusals -/

section Refusals
variable {t : Table} {name : Value} {spec : PatternSpec} {e : Error}

/-- A pattern is not refused for a name. -/
theorem compile_ne_duplicateName (h : spec.compile = .error e) (n : Text) (kind : Registered) :
    e ≠ .duplicateName n kind := by
  rintro rfl
  cases spec with
  | source source =>
    obtain ⟨fault, -, hfault⟩ := PatternSpec.compile_source_eq_error_iff.mp h
    cases fault <;> cases hfault
  | compiled _ | bytes _ | pattern _ | value _ => cases h

theorem refuses_ignore_iff : Refuses t (.ignore spec) e ↔ spec.compile = .error e := by
  constructor
  · rintro ⟨h⟩
    exact h
  · exact .ignore

theorem refuses_rule_name_iff {kind : Registered} :
    Refuses t (.rule name spec) (.duplicateName name.plain kind) ↔
      t.names.lookup name.plain = some kind := by
  constructor
  · intro h
    cases h with
    | ruleName hname => exact hname
    | rule _ hp => exact absurd rfl (compile_ne_duplicateName hp _ _)
  · exact .ruleName

theorem refuses_rule_iff_of_unused (hname : t.names.lookup name.plain = none) :
    Refuses t (.rule name spec) e ↔ spec.compile = .error e := by
  constructor
  · intro h
    cases h with
    | ruleName hused => cases hname.symm.trans hused
    | rule _ hp => exact hp
  · exact .rule hname

end Refusals

end

end Table

namespace Session
open Table

section
variable [Engine]

/-! ### Refused and granted -/

/-- A registration is refused for an error: nothing goes on record, and the session is what
it was. -/
def Refused (s : Session) (r : Registration) (e : Error) : Prop :=
  s.step (.register r) = { session := s, records := [], reply := .failed e }

/-- A registration is granted: the session has a table `t` instead of its own, and there is
one record of it. -/
def Granted (s : Session) (r : Registration) (t : Table) (record : Record) : Prop :=
  s.step (.register r) =
    { session := { s with table := t }, records := [record], reply := nameOf record }

section Outcomes
variable {s : Session} {r : Registration} {t : Table} {record : Record} {e : Error}

theorem refused_iff : s.Refused r e ↔ Table.Refuses s.table r e := by
  rw [refuses_iff, ← step_register_failed_iff]
  constructor
  · intro h
    rw [h]
  · intro h
    have hregister := step_register_failed_iff.mp h
    rw [Refused, step, hregister]
    rfl

theorem granted_of_registers (h : Registers s.table r t record) : s.Granted r t record := by
  rw [Granted, step, h.ok]

end Outcomes

/-- **What registering comes to**, in every table that a session may have.

A pattern to ignore is refused for what is wrong with it, and nothing else. A rule is refused
for a name that is in use, and no other one is for its name; after that for what is wrong
with its pattern, and nothing else. A keyword is refused if it has neither a name nor a
literal; then for a name in use, for a literal in use, and for an empty literal, in this
order, and nothing else. What is refused leaves the session as it was, so that a name may be
registered afterwards that could have been before. What is granted adds an entry to the end
of each list that it concerns, and is one record. -/
theorem after_registration (previewLength : Option Int) (commands : List Command) :
    let s := ({ previewLength } : Session).after commands
    let t := s.table
    (∀ spec,
      (∀ e, s.Refused (.ignore spec) e ↔ spec.compile = .error e) ∧
      ∀ p, spec.compile = .ok p →
        s.Granted (.ignore spec) { t with ignored := t.ignored ++ [p] } (.ignore spec.shown)) ∧
    (∀ name spec,
      (∀ kind, s.Refused (.rule name spec) (.duplicateName name.plain kind) ↔
        t.Uses name.plain kind) ∧
      ((∀ kind, ¬ t.Uses name.plain kind) →
        (∀ e, s.Refused (.rule name spec) e ↔ spec.compile = .error e) ∧
        ∀ p, spec.compile = .ok p →
          s.Granted (.rule name spec)
            { t with
              rules := t.rules ++ [⟨name.plain, p⟩]
              names := t.names ++ [(name.plain, .rule)] }
            (.rule name.plain p.shown))) ∧
    s.Refused (.keyword .null .null) (.invalidPattern Value.null.shown .missingLiteral) ∧
    (∀ name literal, ¬ (name = .null ∧ literal = .null) →
      let n := (name.or literal).plain
      let l := (literal.or name).plain
      (∀ kind, t.Uses n kind → s.Refused (.keyword name literal) (.duplicateName n kind)) ∧
      ((∀ kind, ¬ t.Uses n kind) →
        (l ∈ t.keywords.map (·.1) →
          s.Refused (.keyword name literal) (.duplicateName l .literal)) ∧
        (l ∉ t.keywords.map (·.1) →
          (l = [] →
            s.Refused (.keyword name literal) (.invalidPattern (Text.quoted l) .emptyLiteral)) ∧
          (l ≠ [] →
            s.Granted (.keyword name literal)
              { t with
                rules := t.rules ++ [⟨n, .literal l⟩]
                names := t.names ++ [(n, .keyword)]
                keywords := t.keywords ++ [(l, ⟨n, l, -1, -1⟩)] }
              (.keyword n (Pattern.literal l).shown))))) ∧
    ∀ r e, (s.step (.register r)).reply = .failed e →
      s.Refused r e ∧ ∀ name spec p, (∀ kind, ¬ t.Uses name.plain kind) → spec.compile = .ok p →
        ((s.step (.register r)).session.step (.register (.rule name spec))).reply =
          .registered name.plain := by
  intro s t
  have ht : t.WellFormed := after_table_wellFormed previewLength commands
  have hnames : t.NamesRules := (after_table_grows { previewLength } commands).namesRules
  have hused {name : Text} {kind : Registered} (h : t.Uses name kind) :
      t.names.lookup name = some kind := (lookup_names_iff ht hnames).mpr h
  have hunused {name : Text} (h : ∀ kind, ¬ t.Uses name kind) :
      t.names.lookup name = none := lookup_names_eq_none ht hnames h
  have hrule {name : Value} {spec : PatternSpec} {p : Pattern}
      (h : ∀ kind, ¬ t.Uses name.plain kind) (hp : spec.compile = .ok p) :
      s.Granted (.rule name spec) (t.addRule name.plain .rule p) (.rule name.plain p.shown) :=
    granted_of_registers (.rule (hunused h) hp)
  refine ⟨fun spec => ⟨fun e => ?_, fun p hp => granted_of_registers (.ignore hp)⟩,
    fun name spec => ⟨fun kind => ?_, fun h => ⟨fun e => ?_, fun p hp => hrule h hp⟩⟩,
    refused_iff.mpr (.keyword rfl), fun name literal hnull => ?_, fun r e hfailed => ?_⟩
  · rw [refused_iff, refuses_ignore_iff]
  · rw [refused_iff, refuses_rule_name_iff, lookup_names_iff ht hnames]
  · rw [refused_iff, refuses_rule_iff_of_unused (hunused h)]
  · have htexts := keywordTexts_of_or hnull
    refine ⟨fun kind h => refused_iff.mpr (.keywordName htexts (hused h)), fun h => ⟨?_, ?_⟩⟩
    · intro hmem
      obtain ⟨token, htoken⟩ := exists_lookup_literal hmem
      exact refused_iff.mpr (.literal htexts (hunused h) htoken)
    · intro hnew
      have hliteral := lookup_eq_none hnew
      refine ⟨fun hempty => ?_, fun hne => ?_⟩
      · rw [hempty] at htexts hliteral ⊢
        exact refused_iff.mpr (.emptyLiteral htexts (hunused h) hliteral)
      · exact granted_of_registers (.keyword htexts (hunused h) hliteral hne)
  · have hrefused : s.Refused r e :=
      refused_iff.mpr (refuses_iff.mpr (step_register_failed_iff.mp hfailed))
    refine ⟨hrefused, fun name spec p h hp => ?_⟩
    have hgranted := hrule h hp
    rw [hrefused]
    exact congrArg Outcome.reply hgranted

end

attribute [local instance] Regex.plain

/-- A rule has a number's text for its name, and a keyword a number for its literal. -/
def numbers : List Command :=
  [.register (.rule (.string "1") (.pattern (.literal "a"))),
    .register (.keyword (.string "two") (.int 2))]

/-- Values that are different have one text: the first name is the rule's, and the other
literal is the keyword's. -/
theorem after_registration_numbers :
    let s := ({} : Session).after numbers
    s.Refused (.keyword (.int 1) .null) (.duplicateName "1" .rule) ∧
      s.Refused (.keyword (.string "zwei") (.string "2")) (.duplicateName "2" .literal) := by
  intro s
  obtain ⟨-, -, -, hkeyword, -⟩ := after_registration (some 5) numbers
  have hplain : s.table.plainRules = [⟨"1", .literal "a"⟩] := by rfl
  have hkeywords : s.table.keywords = [(("2" : Text), ⟨"two", "2", -1, -1⟩)] := by rfl
  refine ⟨(hkeyword (.int 1) .null (by simp)).1 .rule ?_,
    ((hkeyword (.string "zwei") (.string "2") (by simp)).2 ?_).1 ?_⟩
  · have hr : ⟨"1", .literal "a"⟩ ∈ s.table.plainRules := hplain ▸ List.mem_singleton_self _
    exact .rule hr rfl
  · rintro kind (⟨he, hkind⟩ | ⟨hr, hname⟩)
    · obtain rfl := List.mem_singleton.mp (hkeywords ▸ he)
      simp [Value.or, Value.plain] at hkind
    · obtain rfl := List.mem_singleton.mp (hplain ▸ hr)
      simp [Value.or, Value.plain] at hname
  · show ("2" : Text) ∈ s.table.keywords.map (·.1)
    rw [hkeywords]
    exact List.mem_singleton_self _

end Session
end Munch
