import Munch.Proofs.Table.Growth

/-! Why registrations are refused.

A registration needs a pattern, or a name that is not in use, or more, and it is refused
for the first of these that it lacks (`Refuses`); every other one is accepted. It is
refused for a name that is in use or for an invalid pattern (`Error.ofRegistration`), which
are errors of lexers, unless the engine fails on the source of a regular expression
(`Refuses.ofRegistration_or`). -/
namespace Munch

/-! ### Errors of lexers -/

/-- Whether an error is one of lexers. Those of files and of texts are not, nor are failures of
patterns and of the engine. -/
def Error.ofLexer : Error → Bool
  | unmatched _ _ | duplicateName _ _ | invalidPattern _ _ | grammar _ _ => true
  | failure _ | file _ | decoding _ => false

/-- Whether an error is one of registrations: a name that is in use, or an invalid pattern. -/
def Error.ofRegistration : Error → Bool
  | duplicateName _ _ | invalidPattern _ _ => true
  | _ => false

theorem Error.ofLexer_of_ofRegistration {e : Error} (h : e.ofRegistration = true) :
    e.ofLexer = true := by
  cases e with
  | duplicateName _ _ | invalidPattern _ _ => rfl
  | _ => cases h

theorem Table.keywordTexts_eq_error {name literal : Value} {e : Error}
    (h : Table.keywordTexts name literal = .error e) :
    e = .invalidPattern Value.null.shown .missingLiteral := by
  unfold Table.keywordTexts at h
  split at h <;> cases h
  rfl

variable [Engine]

/-- The engine makes a source ready or refuses it as invalid: it has no failure of its own. -/
def Engine.Settles (source : Text) : Prop :=
  ∀ f, compile source ≠ .error (.raised f)

instance (source : Text) : Decidable (Engine.Settles source) :=
  match h : Engine.compile source with
  | .ok _ | .error (.invalid _) => isTrue fun _ hf => nomatch h.symm.trans hf
  | .error (.raised f) => isFalse fun hsource => hsource f h

/-! ### Patterns -/

namespace PatternSpec
variable {spec : PatternSpec} {source : Text} {e : Error}

theorem compile_source_eq_error_iff :
    (PatternSpec.source source).compile = .error e ↔
      ∃ fault, Engine.compile source = .error fault ∧ e = .ofEngine source fault := by
  rw [compile]
  cases Engine.compile source with
  | error fault =>
    constructor
    · intro h
      cases h
      exact ⟨fault, rfl, rfl⟩
    · rintro ⟨_, hfault, rfl⟩
      cases hfault
      rfl
  | ok r =>
    constructor
    · intro h
      cases h
    · rintro ⟨_, hfault, -⟩
      cases hfault

/-- What is given for a pattern is refused as invalid, unless it is a source on which the engine
fails. -/
theorem ofRegistration_of_compile_eq_error (h : spec.compile = .error e) :
    e.ofRegistration = true ∨ ∃ source f, spec = .source source ∧
      Engine.compile source = .error (.raised f) ∧ e = .failure f := by
  cases spec with
  | source source =>
    obtain ⟨fault, hfault, rfl⟩ := compile_source_eq_error_iff.mp h
    cases fault with
    | invalid _ => exact .inl rfl
    | raised f => exact .inr ⟨source, f, rfl, hfault, rfl⟩
  | bytes _ | value _ =>
    cases h
    exact .inl rfl
  | compiled _ | pattern _ => cases h

end PatternSpec

/-! ### Registrations -/

/-- The source of the regular expression that is to be registered, if one is. -/
def Registration.source? : Registration → Option Text
  | ignore (.source source) | rule _ (.source source) => some source
  | _ => none

namespace Table

/-- The registrations that a table refuses, and why. -/
inductive Refuses (t : Table) : Registration → Error → Prop
  | ignore {spec e} : spec.compile = .error e → Refuses t (.ignore spec) e
  | ruleName {name spec kind} : t.names.lookup name.plain = some kind →
      Refuses t (.rule name spec) (.duplicateName name.plain kind)
  | rule {name spec e} : t.names.lookup name.plain = none → spec.compile = .error e →
      Refuses t (.rule name spec) e
  | keyword {name literal e} : keywordTexts name literal = .error e →
      Refuses t (.keyword name literal) e
  | keywordName {name literal n l kind} : keywordTexts name literal = .ok (n, l) →
      t.names.lookup n = some kind → Refuses t (.keyword name literal) (.duplicateName n kind)
  | literal {name literal n l token} : keywordTexts name literal = .ok (n, l) →
      t.names.lookup n = none → t.keywords.lookup l = some token →
      Refuses t (.keyword name literal) (.duplicateName l .literal)
  | emptyLiteral {name literal n} : keywordTexts name literal = .ok (n, []) →
      t.names.lookup n = none → t.keywords.lookup [] = none →
      Refuses t (.keyword name literal) (.invalidPattern (Text.quoted []) .emptyLiteral)

section Refuses
variable {t : Table} {r : Registration} {e : Error}

theorem Refuses.register (h : t.Refuses r e) : t.register r = .error e := by
  cases h with
  | ignore hp =>
    rw [Table.register, Table.ignore, hp]
    rfl
  | ruleName hname =>
    rw [Table.register, Table.rule, checkUnused, hname]
    rfl
  | rule hname hp =>
    rw [Table.register, Table.rule, checkUnused, hname, hp]
    rfl
  | keyword htexts =>
    rw [Table.register, Table.keyword, htexts]
    rfl
  | keywordName htexts hname =>
    simp only [Table.register, Table.keyword, htexts, bind, Except.bind, checkUnused, hname]
  | literal htexts hname hliteral =>
    simp only [Table.register, Table.keyword, htexts, bind, Except.bind, checkUnused, hname,
      hliteral]
    rfl
  | emptyLiteral htexts hname hliteral =>
    simp only [Table.register, Table.keyword, htexts, bind, Except.bind, checkUnused, hname,
      hliteral]
    rfl

/-- A registration is refused or accepted. -/
theorem refuses_or_registers (t : Table) (r : Registration) :
    (∃ e, t.Refuses r e) ∨ ∃ t' record, t.Registers r t' record := by
  cases r with
  | ignore spec =>
    cases hp : spec.compile with
    | error e => exact .inl ⟨e, .ignore hp⟩
    | ok p => exact .inr ⟨_, _, .ignore hp⟩
  | rule name spec =>
    cases hname : t.names.lookup name.plain with
    | some kind => exact .inl ⟨_, .ruleName hname⟩
    | none =>
      cases hp : spec.compile with
      | error e => exact .inl ⟨e, .rule hname hp⟩
      | ok p => exact .inr ⟨_, _, .rule hname hp⟩
  | keyword name literal =>
    cases htexts : keywordTexts name literal with
    | error e => exact .inl ⟨e, .keyword htexts⟩
    | ok texts =>
      obtain ⟨n, l⟩ := texts
      cases hname : t.names.lookup n with
      | some kind => exact .inl ⟨_, .keywordName htexts hname⟩
      | none =>
        cases hliteral : t.keywords.lookup l with
        | some token => exact .inl ⟨_, .literal htexts hname hliteral⟩
        | none =>
          by_cases hne : l = []
          · subst hne
            exact .inl ⟨_, .emptyLiteral htexts hname hliteral⟩
          · exact .inr ⟨_, _, .keyword htexts hname hliteral hne⟩

/-- **Refusals** are these and no others. -/
theorem refuses_iff : t.Refuses r e ↔ t.register r = .error e := by
  constructor
  · exact Refuses.register
  · intro h
    rcases refuses_or_registers t r with ⟨e', he⟩ | ⟨t', record, hr⟩
    · cases he.register.symm.trans h
      exact he
    · cases hr.ok.symm.trans h

/-- A registration is refused with an error of registrations, unless the engine fails on its
source. -/
theorem Refuses.ofRegistration_or (h : t.Refuses r e) :
    e.ofRegistration = true ∨ ∃ source f, r.source? = some source ∧
      Engine.compile source = .error (.raised f) ∧ e = .failure f := by
  cases h with
  | ignore hp =>
    refine (PatternSpec.ofRegistration_of_compile_eq_error hp).imp_right ?_
    rintro ⟨source, f, rfl, hf⟩
    exact ⟨source, f, rfl, hf⟩
  | rule _ hp =>
    refine (PatternSpec.ofRegistration_of_compile_eq_error hp).imp_right ?_
    rintro ⟨source, f, rfl, hf⟩
    exact ⟨source, f, rfl, hf⟩
  | keyword htexts =>
    rw [keywordTexts_eq_error htexts]
    exact .inl rfl
  | ruleName _ | keywordName _ _ | literal _ _ _ | emptyLiteral _ _ _ => exact .inl rfl

/-- No registration is refused for the form of a grammar. -/
theorem Refuses.ne_grammar (h : t.Refuses r e) (fault : GrammarFault) (path : Option Text) :
    e ≠ .grammar fault path := by
  rintro rfl
  rcases h.ofRegistration_or with hregistration | ⟨_, _, -, -, hfailure⟩
  · cases hregistration
  · cases hfailure

end Refuses

end Table
end Munch
