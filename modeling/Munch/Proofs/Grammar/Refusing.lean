import Munch.Proofs.Grammar.Loading
import Munch.Proofs.Table.Refusing
import Munch.Regex

/-! Why grammars are refused.

Loading ends early for an error in the form of the grammar, or because one of the
registrations that it asks for is refused (`load_error`). So what a session refuses, be
it a pattern or a grammar, is refused with an error of lexers, unless the engine fails on one
of its sources, and then it is this failure that comes out (`step_failed_source`). -/
namespace Munch
section
variable [Engine]

namespace Grammar
variable {t : Table} {definition : Value} {path : Option Text} {e : Error}

/-- The registrations that the entries of a grammar ask for. -/
def registrations (entries : List Entry) : List Registration := entries.filterMap Except.toOption

/-- The sources of regular expressions in a grammar. -/
def sources (definition : Value) : List Text :=
  match entries definition with
  | .error _ => []
  | .ok entries => (registrations entries).filterMap Registration.source?

/-- The engine does not fail on any source in a grammar. -/
def SettledSources (definition : Value) : Prop :=
  ∀ source ∈ sources definition, Engine.Settles source

instance (definition : Value) : Decidable (SettledSources definition) :=
  inferInstanceAs (Decidable (∀ source ∈ sources definition, Engine.Settles source))

theorem register_error {earlier : List Text} {entries : List Entry}
    (h : (register path earlier t entries).error = some e) :
    (∃ fault, e = .grammar fault path) ∨
      ∃ t' r, r ∈ registrations entries ∧ Table.Refuses t' r e := by
  induction entries generalizing earlier t with
  | nil => cases h
  | cons entry rest ih =>
    cases entry with
    | error fault =>
      cases h
      exact .inl ⟨fault, rfl⟩
    | ok r =>
      have hmem : r ∈ registrations (.ok r :: rest) := List.mem_cons_self ..
      rw [register] at h
      cases hr : t.register r with
      | error e' =>
        rw [hr] at h
        cases h
        exact .inr ⟨t, r, hmem, Table.refuses_iff.mpr hr⟩
      | ok result =>
        rw [hr] at h
        refine (ih h).imp_right ?_
        rintro ⟨t', r', hr', hrefuses⟩
        exact ⟨t', r', List.mem_cons_of_mem r hr', hrefuses⟩

/-- Loading ends early for an error of form, or because a registration is refused. -/
theorem load_error (h : (load t definition path).error = some e) :
    (∃ fault, e = .grammar fault path) ∨
      ∃ listed t' r, entries definition = .ok listed ∧ r ∈ registrations listed ∧
        Table.Refuses t' r e := by
  rw [load] at h
  cases hentries : entries definition with
  | error fault =>
    rw [hentries] at h
    cases h
    exact .inl ⟨fault, rfl⟩
  | ok listed =>
    simp only [hentries] at h
    cases hregister : (register path [] t listed).error with
    | none =>
      simp only [hregister] at h
      cases h
    | some e' =>
      simp only [hregister] at h
      refine (register_error (hregister.trans h)).imp_right ?_
      rintro ⟨t', r, hr, hrefuses⟩
      exact ⟨listed, t', r, rfl, hr, hrefuses⟩

/-- A grammar is refused for its form, for a name or a pattern, or because the engine fails on
one of its sources. -/
theorem load_error_or (h : (load t definition path).error = some e) :
    (∃ fault, e = .grammar fault path) ∨ e.ofRegistration = true ∨
      ∃ source f, source ∈ sources definition ∧ Engine.compile source = .error (.raised f) ∧
        e = .failure f := by
  refine (load_error h).imp_right ?_
  rintro ⟨listed, t', r, hlisted, hr, hrefuses⟩
  refine hrefuses.ofRegistration_or.imp_right ?_
  rintro ⟨source, f, hsource, hf⟩
  have hmem : source ∈ sources definition := by
    rw [sources, hlisted]
    exact List.mem_filterMap.mpr ⟨r, hr, hsource⟩
  exact ⟨source, f, hmem, hf⟩

theorem load_error_ofLexer_or (h : (load t definition path).error = some e) :
    e.ofLexer = true ∨ ∃ source f, source ∈ sources definition ∧
      Engine.compile source = .error (.raised f) ∧ e = .failure f := by
  rcases load_error_or h with ⟨fault, rfl⟩ | hregistration | hsource
  · exact .inl rfl
  · exact .inl (Error.ofLexer_of_ofRegistration hregistration)
  · exact .inr hsource

/-- A grammar of settled sources is refused for its form, or for a name or a pattern. -/
theorem SettledSources.load_error_or (hsources : SettledSources definition)
    (h : (load t definition path).error = some e) :
    (∃ fault, e = .grammar fault path) ∨ e.ofRegistration = true := by
  rcases Grammar.load_error_or h with hform | hregistration | ⟨source, f, hsource, hf, -⟩
  · exact .inl hform
  · exact .inr hregistration
  · exact absurd hf (hsources source hsource f)

end Grammar

namespace Session

theorem step_load_failed_iff {s : Session} {definition : Value} {path : Option Text}
    {e : Error} : (s.step (.load definition path)).reply = .failed e ↔
      (Grammar.load s.table definition path).error = some e := by
  rw [step]
  cases (Grammar.load s.table definition path).error <;> simp

/-- **What a source is refused with**: a session refuses to ignore it for what the engine has
against it, and a rule for its name or for that. If the engine finds the source invalid, the
error is one of lexers that says why; but if the engine fails, its failure is the error, and is
none of lexers. A grammar is refused with an error of lexers, or with the failure of the engine
on one of its sources. -/
theorem step_failed_source (s : Session) (name : Value) (source : Text) (definition : Value)
    (path : Option Text) :
    (∀ e, (s.step (.register (.ignore (.source source)))).reply = .failed e ↔
      ∃ fault, Engine.compile source = .error fault ∧ e = .ofEngine source fault) ∧
    (∀ e, (s.step (.register (.rule name (.source source)))).reply = .failed e ↔
      (∃ kind, s.table.names.lookup name.plain = some kind ∧
          e = .duplicateName name.plain kind) ∨
        s.table.names.lookup name.plain = none ∧
          ∃ fault, Engine.compile source = .error fault ∧ e = .ofEngine source fault) ∧
    (∀ message, Error.ofEngine source (.invalid message) =
        .invalidPattern (Text.quoted source) (.source message) ∧
      (Error.ofEngine source (.invalid message)).ofLexer = true) ∧
    (∀ f, Error.ofEngine source (.raised f) = .failure f ∧
      (Error.ofEngine source (.raised f)).ofLexer = false) ∧
    ∀ e, (s.step (.load definition path)).reply = .failed e →
      e.ofLexer = true ∨ ∃ source f, source ∈ Grammar.sources definition ∧
        Engine.compile source = .error (.raised f) ∧ e = .failure f := by
  refine ⟨fun e => ?_, fun e => ?_, fun message => ⟨rfl, rfl⟩, fun f => ⟨rfl, rfl⟩,
    fun e h => ?_⟩
  · rw [step_register_failed_iff, ← Table.refuses_iff, ← PatternSpec.compile_source_eq_error_iff]
    constructor
    · rintro ⟨h⟩
      exact h
    · exact .ignore
  · rw [step_register_failed_iff, ← Table.refuses_iff, ← PatternSpec.compile_source_eq_error_iff]
    constructor
    · intro h
      cases h with
      | ruleName hname => exact .inl ⟨_, hname, rfl⟩
      | rule hname hp => exact .inr ⟨hname, hp⟩
    · rintro (⟨kind, hname, rfl⟩ | ⟨hname, hp⟩)
      · exact .ruleName hname
      · exact .rule hname hp
  · exact Grammar.load_error_ofLexer_or (step_load_failed_iff.mp h)

end Session

end

namespace Session
attribute [local instance] Regex.plain

/-- A count that is too large, and a source flagged both as ASCII and as Unicode, are
errors that are not of lexers, be it for a rule, for what is ignored, or in a grammar. -/
theorem step_failed_not_ofLexer :
    let s : Session := {}
    let tooLarge : Failure := ⟨"OverflowError", "the repetition number is too large"⟩
    let conflict : Failure := ⟨"ValueError", "ASCII and UNICODE flags are incompatible"⟩
    (s.step (.register (.rule (.string "a") (.source "a\x7b4294967295\x7d")))).reply =
        .failed (.failure tooLarge) ∧
      (s.step (.register (.ignore (.source "(?a)(?u)")))).reply = .failed (.failure conflict) ∧
      (s.step (.load (.object [("ignore", .list [.string "(?a)(?u)"])]) none)).reply =
        .failed (.failure conflict) ∧
      (∀ f, (Error.failure f).ofLexer = false) := by
  intro s tooLarge conflict
  have hcount : Engine.compile "a\x7b4294967295\x7d" = .error (.raised tooLarge) := by
    decide +kernel
  have hflags : Engine.compile "(?a)(?u)" = .error (.raised conflict) := by decide +kernel
  have hrule : Table.Refuses {} (.rule (.string "a") (.source "a\x7b4294967295\x7d"))
      (.failure tooLarge) :=
    .rule rfl (PatternSpec.compile_source_eq_error_iff.mpr ⟨_, hcount, rfl⟩)
  have hignore : Table.Refuses {} (.ignore (.source "(?a)(?u)")) (.failure conflict) :=
    .ignore (PatternSpec.compile_source_eq_error_iff.mpr ⟨_, hflags, rfl⟩)
  have hentries : Grammar.entries (.object [("ignore", .list [.string "(?a)(?u)"])]) =
      .ok [.ok (.ignore (.source "(?a)(?u)"))] := rfl
  have hload : (Grammar.load {} (.object [("ignore", .list [.string "(?a)(?u)"])]) none).error =
      some (.failure conflict) := by
    simp only [Grammar.load, hentries, Grammar.register, hignore.register]
  exact ⟨step_register_failed_iff.mpr hrule.register,
    step_register_failed_iff.mpr hignore.register, step_load_failed_iff.mpr hload, fun f => rfl⟩

end Session
end Munch
